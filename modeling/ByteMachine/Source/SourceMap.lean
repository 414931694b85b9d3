import ByteMachine.Source.Layout

/-!
# Source maps

The lines of code of a program by their addresses, in increasing order of the addresses. Of several
lines at one address, of which all but the last stand for no bytes, the last is kept.

Main statements: `sorted_ofPairs`, `find?_ofPairs` (of several lines at one address the last counts).
-/

namespace ByteMachine.Source

/-- Lines by address, in increasing order. -/
abbrev SourceMap := List (Nat × PlacedLine)

namespace SourceMap

/-- The line at an address. -/
def find? (m : SourceMap) (address : Nat) : Option PlacedLine := m.lookup address

/-- The map with a line at an address, unless it has one there already. -/
def insertNew (key : Nat) (p : PlacedLine) : SourceMap → SourceMap
  | [] => [(key, p)]
  | (k, q) :: rest =>
    if key < k then (key, p) :: (k, q) :: rest
    else if key = k then (k, q) :: rest
    else (k, q) :: insertNew key p rest

/-- The map of the pairs; of several with one key the last counts. -/
def ofPairs (pairs : List (Nat × PlacedLine)) : SourceMap :=
  pairs.foldr (fun pair m => insertNew pair.1 pair.2 m) []

/-- The map of lines of code, by the addresses where they are placed. -/
def ofPlaced (placed : List PlacedLine) : SourceMap := ofPairs (placed.map fun p => (p.address, p))

/-- The keys increase. -/
def Sorted (m : SourceMap) : Prop := m.Pairwise (fun a b => a.1 < b.1)

/-! ### Keys -/

theorem mem_keys_insertNew {key k : Nat} {p : PlacedLine} {m : SourceMap} :
    k ∈ (insertNew key p m).map Prod.fst ↔ k = key ∨ k ∈ m.map Prod.fst := by
  induction m with
  | nil => simp [insertNew]
  | cons a rest ih =>
    obtain ⟨j, q⟩ := a
    unfold insertNew
    split
    · simp
    · split
      · rename_i h
        simp [h]
      · simp only [List.map_cons, List.mem_cons, ih]
        exact or_left_comm

theorem sorted_insertNew {key : Nat} {p : PlacedLine} {m : SourceMap} (h : Sorted m) :
    Sorted (insertNew key p m) := by
  induction m with
  | nil => simp [insertNew, Sorted]
  | cons a rest ih =>
    obtain ⟨k, q⟩ := a
    obtain ⟨hk, hr⟩ := List.pairwise_cons.mp h
    unfold insertNew
    split
    · rename_i hlt
      refine List.pairwise_cons.mpr ⟨fun b hb => ?_, h⟩
      rcases List.mem_cons.mp hb with rfl | hb
      · exact hlt
      · exact Nat.lt_trans hlt (hk b hb)
    · split
      · exact h
      · refine List.pairwise_cons.mpr ⟨fun b hb => ?_, ih hr⟩
        rcases mem_keys_insertNew.mp (List.mem_map_of_mem (f := Prod.fst) hb) with hb' | hb'
        · show k < b.1
          omega
        · obtain ⟨c, hc, hcb⟩ := List.mem_map.mp hb'
          exact hcb ▸ hk c hc

theorem sorted_ofPairs (pairs : List (Nat × PlacedLine)) : Sorted (ofPairs pairs) := by
  induction pairs with
  | nil => exact List.Pairwise.nil
  | cons a rest ih => exact sorted_insertNew ih

/-! ### Lines by address -/

/-- There is no key below the first one. -/
theorem find?_eq_none_of_lt {k address : Nat} {q : PlacedLine} {rest : SourceMap}
    (h : Sorted ((k, q) :: rest)) (hlt : address < k) : find? ((k, q) :: rest) address = none := by
  rw [find?, List.lookup_eq_none_iff]
  intro b hb
  rcases List.mem_cons.mp hb with rfl | hb
  · simp only [bne_iff_ne, ne_eq]
    omega
  · have := (List.pairwise_cons.mp h).1 b hb
    simp only [bne_iff_ne, ne_eq]
    omega

theorem find?_insertNew {key address : Nat} {p : PlacedLine} {m : SourceMap} (h : Sorted m) :
    (insertNew key p m).find? address =
      (m.find? address).or (if address = key then some p else none) := by
  induction m with
  | nil =>
    by_cases ha : address = key
    · simp [insertNew, find?, ha]
    · simp [insertNew, find?, List.lookup_cons, ha, beq_false_of_ne ha]
  | cons a rest ih =>
    obtain ⟨k, q⟩ := a
    obtain ⟨-, hr⟩ := List.pairwise_cons.mp h
    unfold insertNew
    split
    · rename_i hlt
      by_cases ha : address = key
      · rw [find?_eq_none_of_lt h (ha ▸ hlt)]
        simp [find?, ha]
      · simp [find?, List.lookup_cons, ha, beq_false_of_ne ha]
    · split
      · rename_i hk
        subst hk
        by_cases ha : address = key
        · simp [find?, ha]
        · simp [ha]
      · by_cases ha : address = k
        · simp [find?, ha]
        · have := ih hr
          simp only [find?] at this
          simp [find?, List.lookup_cons, beq_false_of_ne ha, this]

/-- The line at an address is the last one that the pairs give it. -/
theorem find?_ofPairs (pairs : List (Nat × PlacedLine)) (address : Nat) :
    (ofPairs pairs).find? address = pairs.reverse.lookup address := by
  induction pairs with
  | nil => rfl
  | cons pair pairs ih =>
    obtain ⟨k, p⟩ := pair
    rw [List.reverse_cons, List.lookup_append, ← ih]
    show (insertNew k p (ofPairs pairs)).find? address = _
    rw [find?_insertNew (sorted_ofPairs pairs)]
    by_cases h : address = k
    · simp [h]
    · simp [List.lookup_cons, h, beq_false_of_ne h]

end SourceMap

end ByteMachine.Source
