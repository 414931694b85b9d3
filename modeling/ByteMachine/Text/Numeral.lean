/-!
# Numerals

Numbers written with digits in a base up to sixteen. `digits` and `value` are inverse to each other on
numbers; `read?` accepts a non-empty run of digits of any length, in either case of letters, and
answers its value without a bound; `decimal` and `hex` write the fewest digits, with capital letters.

Main statements: `value_digits`, `value_append`, `lt_of_mem_digits`, `read?_numeral` (a numeral reads
back).
-/

namespace ByteMachine.Text

/-- The digits of `n`, the most significant first; zero has the one digit zero. -/
def digits (base n : Nat) : List Nat :=
  if _h : n < base ∨ base < 2 then [n] else digits base (n / base) ++ [n % base]
termination_by n
decreasing_by exact Nat.div_lt_self (by omega) (by omega)

/-- The number that a list of digits stands for. -/
def value (base : Nat) (ds : List Nat) : Nat := ds.foldl (fun n d => n * base + d) 0

theorem value_append (base : Nat) (ds : List Nat) (d : Nat) :
    value base (ds ++ [d]) = value base ds * base + d := by
  simp [value]

theorem value_digits (base n : Nat) : value base (digits base n) = n := by
  fun_induction digits base n with
  | case1 => simp [value]
  | case2 n h ih => rw [value_append, ih, Nat.mul_comm, Nat.div_add_mod]

theorem digits_ne_nil (base n : Nat) : digits base n ≠ [] := by
  rw [digits]
  split <;> simp

theorem lt_of_mem_digits {base n d : Nat} (hb : 2 ≤ base) (hd : d ∈ digits base n) : d < base := by
  fun_induction digits base n with
  | case1 n h => simp only [List.mem_singleton] at hd; omega
  | case2 n h ih =>
    rcases List.mem_append.mp hd with hd | hd
    · exact ih hd
    · simp only [List.mem_singleton] at hd
      exact hd ▸ Nat.mod_lt _ (by omega)

/-! ### Digits as characters -/

/-- The character of a digit below sixteen. -/
def digitChar (d : Nat) : Char :=
  if d < 10 then Char.ofNat ('0'.toNat + d) else Char.ofNat ('A'.toNat + (d - 10))

/-- The value of a digit of base sixteen, in either case of letters. -/
def digitValue? (c : Char) : Option Nat :=
  if '0' ≤ c ∧ c ≤ '9' then some (c.toNat - '0'.toNat)
  else if 'a' ≤ c ∧ c ≤ 'f' then some (c.toNat - 'a'.toNat + 10)
  else if 'A' ≤ c ∧ c ≤ 'F' then some (c.toNat - 'A'.toNat + 10)
  else none

theorem digitValue?_digitChar {d : Nat} (h : d < 16) : digitValue? (digitChar d) = some d := by
  have all : ∀ e : Fin 16, digitValue? (digitChar e) = some e.val := by decide
  exact all ⟨d, h⟩

/-- The value of a digit of the base. -/
def digit? (base : Nat) (c : Char) : Option Nat := (digitValue? c).filter (· < base)

/-- The value of a run of digits; a text that is empty or holds another character is no number. -/
def read? (base : Nat) (cs : List Char) : Option Nat :=
  if cs.isEmpty then none else (cs.mapM (digit? base)).map (value base)

/-- The fewest digits of `n`. -/
def numeral (base n : Nat) : List Char := (digits base n).map digitChar

/-- A numeral reads back. -/
theorem read?_numeral {base : Nat} (hb : 2 ≤ base) (hb' : base ≤ 16) (n : Nat) :
    read? base (numeral base n) = some n := by
  have digit (d : Nat) (hd : d < base) : digit? base (digitChar d) = some d := by
    simp [digit?, digitValue?_digitChar (Nat.lt_of_lt_of_le hd hb'), hd]
  have all (ds : List Nat) (h : ∀ d ∈ ds, d < base) :
      (ds.map digitChar).mapM (digit? base) = some ds := by
    induction ds with
    | nil => rfl
    | cons d ds ih =>
      simp [digit d (h d (by simp)), ih fun e he => h e (by simp [he])]
  have hne : (numeral base n).isEmpty = false := by
    simp [numeral, digits_ne_nil]
  rw [read?, hne, if_neg (by simp), numeral, all _ fun d hd => lt_of_mem_digits hb hd]
  simp [value_digits]

/-- A number in base ten. -/
def decimal (n : Nat) : String := String.ofList (numeral 10 n)

/-- A number in base sixteen. -/
def hex (n : Nat) : String := String.ofList (numeral 16 n)

/-! ### Columns -/

/-- The text with copies of `fill` before it, up to the width. -/
def alignRight (fill : Char) (width : Nat) (s : String) : String :=
  String.ofList (s.toList.leftpad width fill)

/-- The text with spaces after it, up to the width. -/
def alignLeft (width : Nat) (s : String) : String :=
  String.ofList (s.toList.rightpad width ' ')

/-- A number in base sixteen with zeros before it, up to the width. -/
def hexPadded (width n : Nat) : String := alignRight '0' width (hex n)

/-- A number in base ten with spaces before it, up to the width. -/
def decimalPadded (width n : Nat) : String := alignRight ' ' width (decimal n)

end ByteMachine.Text
