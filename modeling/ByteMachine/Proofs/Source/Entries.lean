import ByteMachine.Proofs.Source.Layout
import ByteMachine.Source.Program

/-!
# The entries of a source map

A source map has one entry for each address, and a line that stands for no bytes shares its address with
the line behind it. So the map of lines that lie one behind the other has the lines that stand for bytes
and the last line (`kept`), and loses all others.

* `IsContiguous.ofPlaced_eq`: the entries are the kept lines, in order.
* `sourceMap_of_assemble`: the map of a program has all lines of code exactly if no data line without
  arguments stands before another line of code. Such a line is enough to lose one
  (`assemble_loses_line`).
-/

namespace ByteMachine.Source

open Text

/-! ### Kept lines -/

/-- The lines that stand for bytes, and the last line. -/
def kept (ps : List PlacedLine) : List PlacedLine :=
  ps.dropLast.filter (·.size ≠ 0) ++ ps.getLast?.toList

theorem kept_concat (init : List PlacedLine) (last : PlacedLine) :
    kept (init ++ [last]) = init.filter (·.size ≠ 0) ++ [last] := by
  simp [kept]

theorem kept_cons_cons (p q : PlacedLine) (rest : List PlacedLine) :
    kept (p :: q :: rest) = if p.size = 0 then kept (q :: rest) else p :: kept (q :: rest) := by
  by_cases h : p.size = 0 <;> simp [kept, h]

theorem mem_kept_iff {ps : List PlacedLine} {p : PlacedLine} :
    p ∈ kept ps ↔ p ∈ ps ∧ (p.size ≠ 0 ∨ ps.getLast? = some p) := by
  rcases List.eq_nil_or_concat' ps with rfl | ⟨init, last, rfl⟩
  · simp [kept]
  · rw [kept_concat, List.getLast?_concat, List.mem_append, List.mem_append, List.mem_filter,
      List.mem_singleton, decide_eq_true_eq, Option.some.injEq]
    constructor
    · rintro (⟨hp, hs⟩ | rfl)
      · exact ⟨.inl hp, .inl hs⟩
      · exact ⟨.inr rfl, .inr rfl⟩
    · rintro ⟨hp | hp, hs | hl⟩
      · exact .inl ⟨hp, hs⟩
      · exact .inr hl.symm
      · exact .inr hp
      · exact .inr hp

theorem length_kept (ps : List PlacedLine) :
    (kept ps).length + ps.dropLast.countP (·.size = 0) = ps.length := by
  rcases List.eq_nil_or_concat' ps with rfl | ⟨init, last, rfl⟩
  · rfl
  · have split := List.length_eq_countP_add_countP (fun p : PlacedLine => p.size = 0) (l := init)
    simp only [decide_eq_true_eq] at split
    rw [kept_concat, List.dropLast_concat, List.length_append, List.length_append,
      ← List.countP_eq_length_filter]
    simp only [ne_eq]
    omega

/-! ### The map of contiguous lines -/

namespace IsContiguous

variable {address : Nat} {ps : List PlacedLine}

theorem exists_kept_eq_cons (h : IsContiguous address ps) (hne : ps ≠ []) :
    ∃ q qs, kept ps = q :: qs ∧ q.address = address := by
  induction ps generalizing address with
  | nil => exact absurd rfl hne
  | cons p ps ih =>
    obtain ⟨ha, h⟩ := h
    cases ps with
    | nil => exact ⟨p, [], rfl, ha⟩
    | cons q rest =>
      rw [kept_cons_cons]
      split
      · rename_i hp
        rw [hp, Nat.add_zero] at h
        exact ih h (List.cons_ne_nil q rest)
      · exact ⟨p, _, rfl, ha⟩

/-- **The entries** of the map of lines that lie one behind the other. -/
theorem ofPlaced_eq (h : IsContiguous address ps) :
    SourceMap.ofPlaced ps = (kept ps).map fun p => (p.address, p) := by
  induction ps generalizing address with
  | nil => rfl
  | cons p ps ih =>
    obtain ⟨ha, h⟩ := h
    cases ps with
    | nil => rfl
    | cons q rest =>
      obtain ⟨r, rs, hkept, hr⟩ := h.exists_kept_eq_cons (List.cons_ne_nil q rest)
      show SourceMap.insertNew p.address p (SourceMap.ofPlaced (q :: rest)) = _
      rw [ih h, kept_cons_cons, hkept, List.map_cons, SourceMap.insertNew]
      by_cases hp : p.size = 0
      · have same : p.address = r.address := by omega
        rw [if_neg (by omega), if_pos same, if_pos hp, List.map_cons]
      · have before : p.address < r.address := by omega
        rw [if_pos before, if_neg hp, List.map_cons, List.map_cons]

end IsContiguous

/-! ### Lines by address -/

theorem SourceMap.Sorted.nodup_keys {m : SourceMap} (h : m.Sorted) : (m.map Prod.fst).Nodup := by
  rw [List.nodup_iff_pairwise_ne, List.pairwise_map]
  exact h.imp fun hlt => Nat.ne_of_lt hlt

theorem SourceMap.Sorted.find?_eq_some_iff {m : SourceMap} (h : m.Sorted) {address : Nat}
    {p : PlacedLine} : m.find? address = some p ↔ (address, p) ∈ m :=
  lookup_eq_some_iff h.nodup_keys

section
variable {address : Nat} {ps : List PlacedLine} (h : IsContiguous address ps)
include h

theorem mem_ofPlaced_iff {a : Nat} {p : PlacedLine} :
    (a, p) ∈ SourceMap.ofPlaced ps ↔ p ∈ kept ps ∧ a = p.address := by
  rw [h.ofPlaced_eq, List.mem_map]
  constructor
  · rintro ⟨q, hq, he⟩
    obtain ⟨rfl, rfl⟩ := Prod.mk.inj he
    exact ⟨hq, rfl⟩
  · rintro ⟨hp, rfl⟩
    exact ⟨p, hp, rfl⟩

theorem find?_ofPlaced_eq_some_iff {p : PlacedLine} (hp : p ∈ ps) :
    (SourceMap.ofPlaced ps).find? p.address = some p ↔ p.size ≠ 0 ∨ ps.getLast? = some p := by
  have sorted : (SourceMap.ofPlaced ps).Sorted := SourceMap.sorted_ofPairs _
  rw [sorted.find?_eq_some_iff, mem_ofPlaced_iff h, mem_kept_iff]
  simp [hp]

theorem length_ofPlaced :
    (SourceMap.ofPlaced ps).length + ps.dropLast.countP (·.size = 0) = ps.length := by
  rw [h.ofPlaced_eq, List.length_map, length_kept]

/-- The map has all lines if only the last may stand for no bytes. -/
theorem ofPlaced_complete_iff :
    ((SourceMap.ofPlaced ps).length = ps.length ∧
      ∀ p ∈ ps, (SourceMap.ofPlaced ps).find? p.address = some p) ↔
        ∀ p ∈ ps.dropLast, p.size ≠ 0 := by
  have length := length_ofPlaced h
  have none : ps.dropLast.countP (·.size = 0) = 0 ↔ ∀ p ∈ ps.dropLast, p.size ≠ 0 := by
    simp [List.countP_eq_zero]
  constructor
  · rintro ⟨all, -⟩
    exact none.mp (by omega)
  · intro sized
    have count := none.mpr sized
    refine ⟨by omega, fun p hp => (find?_ofPlaced_eq_some_iff h hp).mpr ?_⟩
    rcases List.eq_nil_or_concat' ps with rfl | ⟨init, last, rfl⟩
    · cases hp
    · rw [List.dropLast_concat] at sized
      rw [List.getLast?_concat, Option.some.injEq]
      rcases List.mem_append.mp hp with hp | hp
      · exact .inl (sized p hp)
      · exact .inr (List.mem_singleton.mp hp).symm

end

/-! ### Source maps of programs -/

theorem size_eq_zero_iff {p : PlacedLine} (h : p.holdsCode = true) :
    p.size = 0 ↔ p.kind = .data ∧ p.statement.args = [] := by
  unfold PlacedLine.size
  rcases PlacedLine.holdsCode_iff.mp h with hk | hk <;> simp [hk]

/-- What the source map of a program has of its lines of code. -/
structure Entries (program : Program) (placed : List PlacedLine) : Prop where
  /-- The entries are the lines that stand for bytes and the last line, in order. -/
  sourceMap_eq : program.sourceMap = (kept placed).map fun p => (p.address, p)
  /-- All other lines are lost. -/
  length_add : program.sourceMap.length + placed.dropLast.countP (·.size = 0) = placed.length
  find?_iff : ∀ p ∈ placed, (program.sourceMap.find? p.address = some p ↔
    p.size ≠ 0 ∨ placed.getLast? = some p)
  size_eq_zero_iff : ∀ p ∈ placed, (p.size = 0 ↔ p.kind = .data ∧ p.statement.args = [])
  /-- There is an entry for each line, which is found at its address, exactly if no data line without
  arguments stands before another line of code. -/
  complete_iff : (program.sourceMap.length = placed.length ∧
    ∀ p ∈ placed, program.sourceMap.find? p.address = some p) ↔
      ∀ p ∈ placed.dropLast, ¬(p.kind = .data ∧ p.statement.args = [])

/-- **The entries of a source map** are the lines of code with an address of their own. -/
theorem sourceMap_of_assemble {source : String} {program : Program}
    (h : assemble source = .ok program) :
    ∃ layout, Layout.ofSource source = .ok layout ∧ Entries program layout.placed := by
  obtain ⟨layout, bytes, hl, -, rfl⟩ := assemble_eq_ok_iff.mp h
  have contiguous := isContiguous_placed hl
  have sized : ∀ p ∈ layout.placed, (p.size = 0 ↔ p.kind = .data ∧ p.statement.args = []) := by
    intro p hp
    obtain ⟨-, rfl⟩ := Layout.ofSource_eq_ok_iff.mp hl
    exact size_eq_zero_iff (List.mem_filter.mp hp).2
  refine ⟨layout, hl, contiguous.ofPlaced_eq, length_ofPlaced contiguous,
    fun p hp => find?_ofPlaced_eq_some_iff contiguous hp, sized, ?_⟩
  refine (ofPlaced_complete_iff contiguous).trans (forall₂_congr fun p hp => ?_)
  exact (sized p (List.dropLast_subset _ hp)).not

/-- Of two data lines without arguments the one at the end has an entry. -/
theorem sourceMap_of_assemble_data :
    ∃ program layout, assemble "NOPE\n.DATA ; none\n.DATA 1, 2\n.DATA" = .ok program ∧
      Layout.ofSource "NOPE\n.DATA ; none\n.DATA 1, 2\n.DATA" = .ok layout ∧
      Entries program layout.placed ∧
      program.sourceMap =
        [(0, ⟨0, 0, "NOPE"⟩), (2, ⟨2, 2, ".DATA 1, 2"⟩), (4, ⟨3, 4, ".DATA"⟩)] := by
  have h : assemble "NOPE\n.DATA ; none\n.DATA 1, 2\n.DATA" =
      .ok ⟨Image.tag ++ [0x0C, 0x00, 0x01, 0x02],
        [(0, ⟨0, 0, "NOPE"⟩), (2, ⟨2, 2, ".DATA 1, 2"⟩), (4, ⟨3, 4, ".DATA"⟩)], []⟩ := by
    decide +kernel
  obtain ⟨layout, hl, entries⟩ := sourceMap_of_assemble h
  exact ⟨_, layout, h, hl, entries, rfl⟩

/-- A data line without arguments before an instruction has no entry. -/
theorem assemble_loses_line : ∃ program layout, assemble ".DATA\nNOPE" = .ok program ∧
    Layout.ofSource ".DATA\nNOPE" = .ok layout ∧
    program.sourceMap.length = 1 ∧ layout.placed.length = 2 ∧
    ∃ p ∈ layout.placed, program.sourceMap.find? p.address ≠ some p := by
  refine ⟨⟨Image.tag ++ [0x0C, 0x00], [(0, ⟨1, 0, "NOPE"⟩)], []⟩,
    ⟨[], [⟨0, 0, ".DATA"⟩, ⟨1, 0, "NOPE"⟩]⟩, ?_, ?_, rfl, rfl, ⟨0, 0, ".DATA"⟩, ?_⟩
  · decide +kernel
  · decide +kernel
  · decide +kernel

end ByteMachine.Source
