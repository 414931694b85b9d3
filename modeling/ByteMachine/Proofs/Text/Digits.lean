import ByteMachine.Text.Numeral

/-!
# Runs of digits

Which texts `read?` accepts, and the number that it answers for them: a run of digits of the base, not
empty, of any length, is read as its positional value.

* digits: `digit?_ten_eq_some_iff`, `digit?_sixteen_eq_some_iff`;
* runs: `read?_ten_eq_some_iff`, `read?_sixteen_eq_some_iff`.
-/

namespace ByteMachine.Text

/-! ### One digit -/

/-- A digit of base sixteen, in either case of letters. -/
def isHexDigit (c : Char) : Bool :=
  c.isDigit || ('a' ≤ c && c ≤ 'f') || ('A' ≤ c && c ≤ 'F')

/-- The value of a digit, and zero for any other character. -/
def digitValue (c : Char) : Nat := (digitValue? c).getD 0

theorem isDigit_iff {c : Char} : c.isDigit = true ↔ '0' ≤ c ∧ c ≤ '9' := by
  simp only [Char.isDigit, Bool.and_eq_true, decide_eq_true_eq]
  exact Iff.rfl

theorem isAlphanum_iff {c : Char} :
    c.isAlphanum = true ↔ ('A' ≤ c ∧ c ≤ 'Z') ∨ ('a' ≤ c ∧ c ≤ 'z') ∨ ('0' ≤ c ∧ c ≤ '9') := by
  have bounds : c.isAlphanum = ((decide ('A'.val ≤ c.val ∧ c.val ≤ 'Z'.val) ||
      decide ('a'.val ≤ c.val) && decide (c.val ≤ 'z'.val)) || c.isDigit) := rfl
  simp only [bounds, Bool.or_eq_true, Bool.and_eq_true, decide_eq_true_eq, or_assoc, isDigit_iff]
  exact Iff.rfl

theorem digitValue?_eq_some_of_isDigit {c : Char} (h : c.isDigit = true) :
    digitValue? c = some (c.toNat - '0'.toNat) := by
  rw [digitValue?, if_pos (isDigit_iff.mp h)]

theorem toNat_sub_lt_ten {c : Char} (h : c.isDigit = true) : c.toNat - '0'.toNat < 10 := by
  have upper : c.toNat ≤ '9'.toNat := (isDigit_iff.mp h).2
  have lower : '0'.toNat ≤ c.toNat := (isDigit_iff.mp h).1
  have nine : '9'.toNat = '0'.toNat + 9 := by decide
  omega

theorem digitValue?_eq_some_iff {c : Char} {d : Nat} :
    digitValue? c = some d ↔ isHexDigit c = true ∧ digitValue c = d := by
  unfold digitValue
  constructor
  · intro h
    refine ⟨?_, by rw [h, Option.getD_some]⟩
    unfold digitValue? at h
    simp only [isHexDigit, Bool.or_eq_true, Bool.and_eq_true, decide_eq_true_eq, isDigit_iff]
    split at h
    · exact Or.inl (Or.inl ‹_›)
    · split at h
      · exact Or.inl (Or.inr ‹_›)
      · split at h
        · exact Or.inr ‹_›
        · simp at h
  · rintro ⟨hc, rfl⟩
    simp only [isHexDigit, Bool.or_eq_true, Bool.and_eq_true, decide_eq_true_eq, isDigit_iff] at hc
    unfold digitValue?
    split
    · rfl
    · split
      · rfl
      · split
        · rfl
        · rcases hc with (hc | hc) | hc
          · contradiction
          · contradiction
          · contradiction

theorem digitValue_lt {c : Char} (h : isHexDigit c = true) : digitValue c < 16 := by
  have hv := digitValue?_eq_some_iff.mpr ⟨h, rfl⟩
  unfold digitValue? at hv
  have hf : 'f'.toNat = 'a'.toNat + 5 := by decide
  have hF : 'F'.toNat = 'A'.toNat + 5 := by decide
  split at hv
  · have hd := toNat_sub_lt_ten (isDigit_iff.mpr ‹_›)
    simp only [Option.some.injEq] at hv
    omega
  · split at hv
    · have upper : c.toNat ≤ 'f'.toNat := And.right ‹_›
      simp only [Option.some.injEq] at hv
      omega
    · split at hv
      · have upper : c.toNat ≤ 'F'.toNat := And.right ‹_›
        simp only [Option.some.injEq] at hv
        omega
      · simp at hv

theorem isHexDigit_and_lt_ten_iff {c : Char} :
    isHexDigit c = true ∧ digitValue c < 10 ↔ c.isDigit = true := by
  constructor
  · rintro ⟨hc, hlt⟩
    have hv := digitValue?_eq_some_iff.mpr ⟨hc, rfl⟩
    unfold digitValue? at hv
    split at hv
    · exact isDigit_iff.mpr ‹_›
    · split at hv
      · simp only [Option.some.injEq] at hv
        omega
      · split at hv
        · simp only [Option.some.injEq] at hv
          omega
        · simp at hv
  · intro hd
    have hv := digitValue?_eq_some_of_isDigit hd
    obtain ⟨hc, hval⟩ := digitValue?_eq_some_iff.mp hv
    exact ⟨hc, hval ▸ toNat_sub_lt_ten hd⟩

theorem digit?_eq_some_iff {base d : Nat} {c : Char} :
    digit? base c = some d ↔ isHexDigit c = true ∧ digitValue c = d ∧ d < base := by
  rw [digit?, Option.filter_eq_some_iff, digitValue?_eq_some_iff, decide_eq_true_eq, and_assoc]

theorem digit?_ten_eq_some_iff {d : Nat} {c : Char} :
    digit? 10 c = some d ↔ c.isDigit = true ∧ digitValue c = d := by
  rw [digit?_eq_some_iff, ← isHexDigit_and_lt_ten_iff]
  constructor
  · rintro ⟨hc, rfl, hd⟩
    exact ⟨⟨hc, hd⟩, rfl⟩
  · rintro ⟨⟨hc, hd⟩, rfl⟩
    exact ⟨hc, rfl, hd⟩

theorem digit?_sixteen_eq_some_iff {d : Nat} {c : Char} :
    digit? 16 c = some d ↔ isHexDigit c = true ∧ digitValue c = d := by
  rw [digit?_eq_some_iff]
  constructor
  · rintro ⟨hc, hd, -⟩
    exact ⟨hc, hd⟩
  · rintro ⟨hc, rfl⟩
    exact ⟨hc, rfl, digitValue_lt hc⟩

/-! ### Runs of digits -/

theorem mapM_eq_some_iff {f : Char → Option Nat} {p : Char → Prop} {v : Char → Nat}
    (h : ∀ c d, f c = some d ↔ p c ∧ v c = d) {cs : List Char} {ds : List Nat} :
    cs.mapM f = some ds ↔ (∀ c ∈ cs, p c) ∧ ds = cs.map v := by
  induction cs generalizing ds with
  | nil => simp [eq_comm]
  | cons c cs ih =>
    rw [List.mapM_cons]
    simp only [Option.bind_eq_bind, Option.bind_eq_some_iff, h, ih, Option.pure_def,
      Option.some.injEq, List.forall_mem_cons, List.map_cons]
    constructor
    · rintro ⟨d, ⟨hc, rfl⟩, ds', ⟨hcs, rfl⟩, rfl⟩
      exact ⟨⟨hc, hcs⟩, rfl⟩
    · rintro ⟨⟨hc, hcs⟩, rfl⟩
      exact ⟨v c, ⟨hc, rfl⟩, cs.map v, ⟨hcs, rfl⟩, rfl⟩

/-- A run of digits that are told by `p` and have the values `v` is read as its positional value. -/
theorem read?_eq_some_iff {base n : Nat} {p : Char → Prop} {v : Char → Nat}
    (h : ∀ c d, digit? base c = some d ↔ p c ∧ v c = d) {cs : List Char} :
    read? base cs = some n ↔ (cs ≠ [] ∧ ∀ c ∈ cs, p c) ∧ n = value base (cs.map v) := by
  unfold read?
  cases cs with
  | nil => simp
  | cons c cs =>
    simp only [List.isEmpty_cons, Bool.false_eq_true, if_false, Option.map_eq_some_iff,
      mapM_eq_some_iff h, ne_eq, reduceCtorEq, not_false_eq_true, true_and]
    constructor
    · rintro ⟨ds, ⟨hcs, rfl⟩, rfl⟩
      exact ⟨hcs, rfl⟩
    · rintro ⟨hcs, rfl⟩
      exact ⟨_, ⟨hcs, rfl⟩, rfl⟩

theorem read?_ten_eq_some_iff {n : Nat} {cs : List Char} :
    read? 10 cs = some n ↔
      (cs ≠ [] ∧ ∀ c ∈ cs, c.isDigit = true) ∧ n = value 10 (cs.map digitValue) :=
  read?_eq_some_iff fun _ _ => digit?_ten_eq_some_iff

theorem read?_sixteen_eq_some_iff {n : Nat} {cs : List Char} :
    read? 16 cs = some n ↔
      (cs ≠ [] ∧ ∀ c ∈ cs, isHexDigit c = true) ∧ n = value 16 (cs.map digitValue) :=
  read?_eq_some_iff fun _ _ => digit?_sixteen_eq_some_iff

end ByteMachine.Text
