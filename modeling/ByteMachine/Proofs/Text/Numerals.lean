import Mathlib.Data.List.Induction
import ByteMachine.Proofs.Text.Digits

/-!
# What numerals denote

`Denotes` says without a computation which number a text stands for in a base: a text of digits of the
base, at least one, where each digit counts for the base times as much as the one behind it. The reader
`read?` answers these numbers and no others, for texts of any length (`read?_eq_some_iff_denotes`).

A machine reads digits into a word, and gives up at the first product or sum that the word cannot hold
(`readWord?`). A number never gets smaller by a digit, so it gives up exactly for the numbers that are too
large for the word, and answers all others (`readWord?_eq`), leading zeros or not.
-/

namespace ByteMachine.Text

/-! ### Numerals -/

/-- The digits in order, with the letters in lower case. -/
def lowerDigits : List Char :=
  ['0', '1', '2', '3', '4', '5', '6', '7', '8', '9', 'a', 'b', 'c', 'd', 'e', 'f']

/-- The digits in order, with the letters in upper case. -/
def upperDigits : List Char :=
  ['0', '1', '2', '3', '4', '5', '6', '7', '8', '9', 'A', 'B', 'C', 'D', 'E', 'F']

/-- The character is the digit `d`, as a letter in either case. -/
def IsDigit (d : Nat) (c : Char) : Prop := lowerDigits[d]? = some c ∨ upperDigits[d]? = some c

/-- **The text denotes the number** in the base. -/
inductive Denotes (base : Nat) : List Char → Nat → Prop
  | digit {c : Char} {d : Nat} (h : IsDigit d c) (below : d < base) : Denotes base [c] d
  | concat {cs : List Char} {c : Char} {n d : Nat} (init : Denotes base cs n) (h : IsDigit d c)
    (below : d < base) : Denotes base (cs ++ [c]) (n * base + d)

instance (d : Nat) (c : Char) : Decidable (IsDigit d c) := inferInstanceAs (Decidable (_ ∨ _))

theorem toNat_lt_of_isHexDigit {c : Char} (h : isHexDigit c = true) : c.toNat < 128 := by
  simp only [isHexDigit, Bool.or_eq_true, Bool.and_eq_true, decide_eq_true_eq, isDigit_iff] at h
  have upper : c ≤ 'f' := by
    rcases h with (h | h) | h
    · exact Char.le_trans h.2 (by decide)
    · exact h.2
    · exact Char.le_trans h.2 (by decide)
  exact Nat.lt_of_le_of_lt upper (by decide : 'f'.toNat < 128)

theorem digitValue?_eq_some_iff_isDigit {c : Char} {d : Nat} :
    digitValue? c = some d ↔ IsDigit d c := by
  constructor
  · intro h
    have all : ∀ k : Fin 128, (digitValue? (Char.ofNat k)).all fun d =>
        decide (IsDigit d (Char.ofNat k)) := by
      decide +kernel
    obtain ⟨hc, -⟩ := digitValue?_eq_some_iff.mp h
    have here := all ⟨c.toNat, toNat_lt_of_isHexDigit hc⟩
    rw [Char.ofNat_toNat, h] at here
    simpa using here
  · have lower : ∀ d : Fin 16, digitValue? lowerDigits[d] = some d.val := by decide
    have upper : ∀ d : Fin 16, digitValue? upperDigits[d] = some d.val := by decide
    rintro (h | h)
    · obtain ⟨hd, rfl⟩ := List.getElem?_eq_some_iff.mp h
      exact lower ⟨d, hd⟩
    · obtain ⟨hd, rfl⟩ := List.getElem?_eq_some_iff.mp h
      exact upper ⟨d, hd⟩

theorem digit?_eq_some_iff_isDigit {base d : Nat} {c : Char} :
    digit? base c = some d ↔ IsDigit d c ∧ d < base := by
  rw [digit?, Option.filter_eq_some_iff, digitValue?_eq_some_iff_isDigit, decide_eq_true_eq]

/-- The text is a run of digits of the base, at least one. -/
def isRun (base : Nat) (cs : List Char) : Bool := !cs.isEmpty && cs.all fun c => (digit? base c).isSome

theorem digit?_eq_some_iff_isSome {base d : Nat} {c : Char} :
    digit? base c = some d ↔ (digit? base c).isSome = true ∧ digitValue c = d := by
  constructor
  · intro h
    exact ⟨by rw [h]; rfl, (digit?_eq_some_iff.mp h).2.1⟩
  · rintro ⟨h, rfl⟩
    obtain ⟨d, hd⟩ := Option.isSome_iff_exists.mp h
    rw [hd, (digit?_eq_some_iff.mp hd).2.1]

theorem read?_eq_some_iff_isRun {base n : Nat} {cs : List Char} :
    read? base cs = some n ↔ isRun base cs = true ∧ n = value base (cs.map digitValue) := by
  rw [read?_eq_some_iff fun _ _ => digit?_eq_some_iff_isSome]
  simp [isRun]

theorem read?_eq_none_of_not_isRun {base : Nat} {cs : List Char} (h : ¬isRun base cs = true) :
    read? base cs = none :=
  Option.eq_none_iff_forall_ne_some.mpr fun _ hn => h (read?_eq_some_iff_isRun.mp hn).1

theorem isRun_concat_iff {base : Nat} {cs : List Char} {c : Char} :
    isRun base (cs ++ [c]) = true ↔
      (cs = [] ∨ isRun base cs = true) ∧ (digit? base c).isSome = true := by
  by_cases hcs : cs = []
  · subst hcs
    simp [isRun]
  · simp [isRun, hcs]

theorem read?_concat_eq_some_iff {base n : Nat} {cs : List Char} {c : Char} :
    read? base (cs ++ [c]) = some n ↔ ∃ d, digit? base c = some d ∧
      (cs = [] ∧ n = d ∨ ∃ m, read? base cs = some m ∧ n = m * base + d) := by
  simp only [read?_eq_some_iff_isRun, digit?_eq_some_iff_isSome, isRun_concat_iff, List.map_append,
    List.map_cons, List.map_nil, value_append]
  constructor
  · rintro ⟨⟨init, last⟩, rfl⟩
    refine ⟨digitValue c, ⟨last, rfl⟩, ?_⟩
    rcases init with rfl | init
    · exact .inl ⟨rfl, by simp [value]⟩
    · exact .inr ⟨_, ⟨init, rfl⟩, rfl⟩
  · rintro ⟨d, ⟨last, rfl⟩, ⟨rfl, rfl⟩ | ⟨m, ⟨init, rfl⟩, rfl⟩⟩
    · exact ⟨⟨.inl rfl, last⟩, by simp [value]⟩
    · exact ⟨⟨.inr init, last⟩, rfl⟩

/-- **A numeral is read as the number that it denotes.** -/
theorem read?_eq_some_iff_denotes {base n : Nat} {cs : List Char} :
    read? base cs = some n ↔ Denotes base cs n := by
  constructor
  · intro h
    induction cs using List.reverseRecOn generalizing n with
    | nil => cases h
    | append_singleton cs c ih =>
      obtain ⟨d, hc, ⟨rfl, rfl⟩ | ⟨m, hm, rfl⟩⟩ := read?_concat_eq_some_iff.mp h
      · obtain ⟨hd, below⟩ := digit?_eq_some_iff_isDigit.mp hc
        exact .digit hd below
      · obtain ⟨hd, below⟩ := digit?_eq_some_iff_isDigit.mp hc
        exact .concat (ih hm) hd below
  · intro h
    induction h with
    | @digit c d h below =>
      have read : read? base ([] ++ [c]) = some d := read?_concat_eq_some_iff.mpr
        ⟨d, digit?_eq_some_iff_isDigit.mpr ⟨h, below⟩, .inl ⟨rfl, rfl⟩⟩
      exact read
    | @concat cs c n d _ h below ih =>
      exact read?_concat_eq_some_iff.mpr
        ⟨d, digit?_eq_some_iff_isDigit.mpr ⟨h, below⟩, .inr ⟨n, ih, rfl⟩⟩

/-! ### Reading into a word -/

/-- The number, if it is one of the `size` values of a word. -/
def held? (size n : Nat) : Option Nat := if n < size then some n else none

/-- The number of a run of digits, read into a word digit by digit: first a product, then a sum, and nothing
once the word cannot hold one. -/
def readWord? (size base : Nat) (ds : List Nat) : Option Nat :=
  ds.foldlM (fun n d => (held? size (n * base)).bind fun product => held? size (product + d)) 0

/-- A step gives up exactly if the number with one more digit is too large. -/
theorem held?_bind_held? {size base n d : Nat} :
    ((held? size (n * base)).bind fun product => held? size (product + d)) = held? size (n * base + d) := by
  unfold held?
  by_cases h : n * base < size
  · rw [if_pos h, Option.bind_some]
  · rw [if_neg h, if_neg (by omega), Option.bind_none]

theorem le_foldl {base : Nat} (hb : 0 < base) (ds : List Nat) (n : Nat) :
    n ≤ ds.foldl (fun n d => n * base + d) n := by
  induction ds generalizing n with
  | nil => exact Nat.le_refl n
  | cons d ds ih =>
    have grows : n ≤ n * base := Nat.le_mul_of_pos_right n hb
    exact Nat.le_trans (by omega) (ih (n * base + d))

/-- **A word is filled with the number**, or is too small for it. -/
theorem readWord?_eq {size base : Nat} (hs : 0 < size) (hb : 0 < base) (ds : List Nat) :
    readWord? size base ds = held? size (value base ds) := by
  -- from any number that the word holds; zero is the first
  have step (n : Nat) (hn : n < size) :
      ds.foldlM (fun n d => (held? size (n * base)).bind fun product => held? size (product + d)) n =
        held? size (ds.foldl (fun n d => n * base + d) n) := by
    induction ds generalizing n with
    | nil => exact (if_pos hn).symm
    | cons d ds ih =>
      rw [List.foldlM_cons, held?_bind_held?, List.foldl_cons]
      by_cases h : n * base + d < size
      · rw [held?, if_pos h]
        exact ih _ h
      · have beyond := le_foldl hb ds (n * base + d)
        rw [held?, if_neg h, held?, if_neg (by omega)]
        rfl
  exact step 0 hs

end ByteMachine.Text
