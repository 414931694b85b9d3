/-!
# Ranges of code points

A property of characters is given as a list of ranges in increasing order. A look-up stops at the first
range that lies above the code point.

Main statement: `contains_eq_any` (in an ordered list, stopping early loses nothing).
-/

namespace ByteMachine.Text

/-- The code points from the first to the last, both included. -/
abbrev CodeRange := Nat × Nat

namespace CodeRange

/-- The code point is in the range. -/
def holds (r : CodeRange) (n : Nat) : Bool := r.1 ≤ n && n ≤ r.2

/-- Each range ends where it starts or after it, and before the next one starts. -/
def ordered : List CodeRange → Bool
  | [] => true
  | [r] => r.1 ≤ r.2
  | r :: q :: rest => r.1 ≤ r.2 && r.2 < q.1 && ordered (q :: rest)

/-- The code point is in one of the ranges, which are ordered. -/
def contains (n : Nat) : List CodeRange → Bool
  | [] => false
  | r :: rest => r.1 ≤ n && (n ≤ r.2 || contains n rest)

theorem any_eq_false_of_lt {n : Nat} {r : CodeRange} {rest : List CodeRange}
    (h : ordered (r :: rest)) (hn : n < r.1) : (r :: rest).any (·.holds n) = false := by
  induction rest generalizing r with
  | nil =>
    simp only [List.any_cons, List.any_nil, Bool.or_false, holds, Bool.and_eq_false_iff,
      decide_eq_false_iff_not]
    omega
  | cons q rest ih =>
    simp only [ordered, Bool.and_eq_true, decide_eq_true_eq] at h
    rw [List.any_cons, ih h.2 (by omega)]
    simp only [Bool.or_false, holds, Bool.and_eq_false_iff, decide_eq_false_iff_not]
    omega

theorem ordered_of_cons {r : CodeRange} {rest : List CodeRange} (h : ordered (r :: rest)) :
    ordered rest := by
  cases rest with
  | nil => rfl
  | cons q rest =>
    simp only [ordered, Bool.and_eq_true] at h
    exact h.2

theorem contains_eq_any {n : Nat} {rs : List CodeRange} (h : ordered rs) :
    contains n rs = rs.any (·.holds n) := by
  induction rs with
  | nil => rfl
  | cons r rest ih =>
    by_cases hn : n < r.1
    · rw [any_eq_false_of_lt h hn]
      simp only [contains, Bool.and_eq_false_iff, decide_eq_false_iff_not]
      omega
    · have hr : decide (r.1 ≤ n) = true := by simpa using Nat.le_of_not_lt hn
      rw [contains, List.any_cons, ih (ordered_of_cons h), holds, hr, Bool.true_and, Bool.true_and]

end CodeRange

end ByteMachine.Text
