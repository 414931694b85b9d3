import ByteMachine.Proofs.Source.Literal
import ByteMachine.Proofs.Text.Numerals

/-!
# Numbers and registers among the operands

An operand is a number if it denotes one in base ten, or behind `0x` in base sixteen, and a register if it
is the letter `r` and denotes an index. `IsLiteral` says which texts are numbers by their characters, and
`IsNumber` says of which number. Both are told by the number itself, whatever its length.

The same answers come from digits that are read into a word of a machine, of 32 bits for a number and of
eight bits for the index of a register: a number that the word cannot hold is above every bound that it
is compared with (`numberInWord_eq`, `Register.ofNameInWord?_eq`).

Main statement: `number_exact`.
-/

namespace ByteMachine

open Text

namespace Register

/-- The register of a name, with its index read into a word of so many values. -/
def ofNameInWord? (size : Nat) (s : String) : Option Register :=
  match s.toList with
  | 'r' :: ds =>
    if isRun 10 ds then
      (readWord? size 10 (ds.map digitValue)).bind fun n => if h : n < 16 then some ⟨n, h⟩ else none
    else none
  | _ => none

/-- A word that holds the sixteen indices is wide enough: an index that it cannot hold is none of them. -/
theorem ofNameInWord?_eq {size : Nat} (h : 16 ≤ size) (s : String) :
    ofNameInWord? size s = ofName? s := by
  by_cases letter : ∃ ds, s.toList = 'r' :: ds
  · obtain ⟨ds, hds⟩ := letter
    have narrow : ofNameInWord? size s = if isRun 10 ds then
        (readWord? size 10 (ds.map digitValue)).bind fun n => if h : n < 16 then some ⟨n, h⟩ else none
      else none := by simp only [ofNameInWord?, hds]
    have wide : ofName? s =
        (read? 10 ds).bind fun n => if h : n < 16 then some ⟨n, h⟩ else none := by
      simp only [ofName?, hds]
    rw [narrow, wide]
    by_cases run : isRun 10 ds = true
    · rw [if_pos run, read?_eq_some_iff_isRun.mpr ⟨run, rfl⟩, readWord?_eq (by omega) (by decide), held?]
      split
      · rfl
      · rename_i beyond
        rw [Option.bind_none, Option.bind_some, dif_neg (by omega)]
    · rw [if_neg run, read?_eq_none_of_not_isRun run, Option.bind_none]
  · have none : ofName? s = none := by
      refine Option.eq_none_iff_forall_ne_some.mpr fun r hr => letter ?_
      obtain ⟨ds, hds, -⟩ := ofName?_eq_some_iff.mp hr
      exact ⟨ds, hds⟩
    rw [none, ofNameInWord?]
    split
    · exact absurd ⟨_, ‹_›⟩ letter
    · rfl

end Register

namespace Source

/-! ### Numbers -/

/-- The text is written as the number. -/
inductive IsNumber : List Char → Nat → Prop
  | decimal {cs : List Char} {n : Nat} (h : Denotes 10 cs n) : IsNumber cs n
  | hex {ds : List Char} {n : Nat} (h : Denotes 16 ds n) : IsNumber ('0' :: 'x' :: ds) n

/-- The base of a text that may be a number, and the text behind the mark of the base. -/
def baseAndDigits : List Char → Nat × List Char
  | '0' :: 'x' :: ds => (16, ds)
  | ds => (10, ds)

/-- The value of a text in the form of a number, with the digits read into a word of so many values. -/
def numberInWord (size : Nat) (token : String) (max : Nat) : Except SourceError (Option Nat) :=
  let (base, ds) := baseAndDigits token.toList
  if isRun base ds then
    match readWord? size base (ds.map digitValue) with
    | some n => if n ≤ max then .ok (some n) else .error (.outOfRange token max)
    | none => .error (.outOfRange token max)
  else .ok none

theorem numeral?_eq_read? (cs : List Char) :
    numeral? cs = read? (baseAndDigits cs).1 (baseAndDigits cs).2 := by
  unfold numeral?
  split
  · rfl
  · rename_i hno
    unfold baseAndDigits
    split
    · exact absurd rfl (hno _)
    · rfl

theorem baseAndDigits_pos (cs : List Char) : 0 < (baseAndDigits cs).1 := by
  unfold baseAndDigits
  split
  · exact Nat.zero_lt_succ 15
  · exact Nat.zero_lt_succ 9

theorem numeral?_eq_some_iff_isNumber {cs : List Char} {n : Nat} :
    numeral? cs = some n ↔ IsNumber cs n := by
  constructor
  · intro h
    unfold numeral? at h
    split at h
    · exact .hex (read?_eq_some_iff_denotes.mp h)
    · exact .decimal (read?_eq_some_iff_denotes.mp h)
  · intro h
    cases h with
    | hex h => exact read?_eq_some_iff_denotes.mpr h
    | decimal h =>
      have read := read?_eq_some_iff_denotes.mpr h
      unfold numeral?
      split
      · -- the mark of base sixteen is no digit of base ten
        have digits := (read?_ten_eq_some_iff.mp read).1.2
        exact absurd (digits 'x' (by simp)) (by decide)
      · exact read

/-- A word that can hold the bound is wide enough: a number that it cannot hold is above the bound. -/
theorem numberInWord_eq {size max : Nat} (h : max < size) (token : String) :
    numberInWord size token max = number token max := by
  have pos := baseAndDigits_pos token.toList
  unfold numberInWord number
  rw [numeral?_eq_read?]
  generalize baseAndDigits token.toList = p at pos
  obtain ⟨base, ds⟩ := p
  dsimp only at pos ⊢
  by_cases run : isRun base ds = true
  · have room : 0 < size := Nat.zero_lt_of_lt h
    rw [if_pos run, read?_eq_some_iff_isRun.mpr ⟨run, rfl⟩, readWord?_eq room pos, held?]
    dsimp only
    by_cases held : value base (ds.map digitValue) < size
    · rw [if_pos held]
    · rw [if_neg held, if_neg (by omega)]
  · rw [if_neg run, read?_eq_none_of_not_isRun run]

theorem numeral?_eq_none_or_ofName?_eq_none (s : String) :
    numeral? s.toList = none ∨ Register.ofName? s = none := by
  cases hn : numeral? s.toList with
  | none => exact .inl rfl
  | some n =>
    right
    refine Option.eq_none_iff_forall_ne_some.mpr fun r hr => ?_
    obtain ⟨ds, hds, -⟩ := Register.ofName?_eq_some_iff.mp hr
    have first := isHexDigit_or_eq_of_numeral? hn 'r' (by simp [hds])
    exact absurd first (by decide)

/-- **Numbers and registers are read exactly**, at any length. A text has a value exactly if it is written as
a number, and the number itself is compared with the bound: it is answered up to the bound, and above it is
an error, which has the text and the bound. Every other text is no number. A text is a register exactly if
it is `r` and a number in base ten, which is the index, and then no number. A word of 32 bits for numbers,
and one of eight bits for indices, give the same answers. -/
theorem number_exact (token : String) (max : UInt16) :
    (∀ n, number token max.toNat = .ok (some n) ↔ IsNumber token.toList n ∧ n ≤ max.toNat) ∧
      (∀ e, number token max.toNat = .error e ↔
        (∃ n, IsNumber token.toList n ∧ max.toNat < n) ∧ e = .outOfRange token max.toNat) ∧
      (number token max.toNat = .ok none ↔ ∀ n, ¬IsNumber token.toList n) ∧
      (∀ r, Register.ofName? token = some r ↔
        ∃ ds, token.toList = 'r' :: ds ∧ Denotes 10 ds r.val) ∧
      (number token max.toNat = .ok none ∨ Register.ofName? token = none) ∧
      numberInWord UInt32.size token max.toNat = number token max.toNat ∧
      Register.ofNameInWord? UInt8.size token = Register.ofName? token := by
  have bound : max.toNat < UInt32.size := Nat.lt_trans max.toNat_lt (by decide)
  refine ⟨fun n => ?_, fun e => ?_, ?_, fun r => ?_, ?_, numberInWord_eq bound token,
    Register.ofNameInWord?_eq (by decide) token⟩
  · rw [number_eq_ok_some_iff, numeral?_eq_some_iff_isNumber]
  · simp only [number_eq_error_iff, numeral?_eq_some_iff_isNumber]
  · simp only [number_eq_ok_none_iff, Option.eq_none_iff_forall_ne_some, ne_eq,
      numeral?_eq_some_iff_isNumber]
  · simp only [Register.ofName?_eq_some_iff, read?_eq_some_iff_denotes]
  · rw [number_eq_ok_none_iff]
    exact numeral?_eq_none_or_ofName?_eq_none token

/-- Zeros do not count, and no number is too long to be compared. -/
example : number "0x000000000000000000002a" 0xFF = .ok (some 42) ∧
    number "99999999999" 0xFF = .error (.outOfRange "99999999999" 0xFF) := by
  decide +kernel

/-- The mark alone, in upper case or behind a sign, and digits of other scripts are no numbers. -/
example : ∀ token ∈ ["", "0x", "0X1", "-1", "+1", "\u0663"], number token 0xFF = .ok none := by
  decide +kernel

end Source

end ByteMachine
