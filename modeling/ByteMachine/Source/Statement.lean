import ByteMachine.Source.LineKind

/-!
# Statements

The code of a line is read as an operation, which reaches to the first blank, and arguments. The blanks
after the operation do not matter, not even inside an argument: they are deleted before the text is cut
at its commas, so `1 0` reads as `10`. Empty arguments are dropped.

`Statement.IsNormal` says which operations and arguments a line can have, and `Statement.render` writes
them as a line.

Main statements: `isBlank_of_mem_arguments`, `ne_comma_of_mem_arguments`, `ne_nil_of_mem_arguments`.
-/

namespace ByteMachine.Source

open Text

/-- A line of code in its parts. -/
structure Statement where
  op : String
  args : List String
  deriving DecidableEq, Repr

namespace Statement

/-- The arguments in a text: what stands between commas once the blanks are deleted, if it is not
empty. -/
def arguments (text : List Char) : List (List Char) :=
  ((squeeze text).splitOn ',').filter (!·.isEmpty)

/-- The statement of a line. -/
def ofLine (raw : List Char) : Statement :=
  let text := trim (code raw)
  { op := String.ofList (text.takeWhile isSolid)
    args := (arguments (text.dropWhile isSolid)).map String.ofList }

/-! ### The pieces between commas -/

theorem mem_of_mem_splitOn {sep c : Char} {cs piece : List Char} (hp : piece ∈ cs.splitOn sep)
    (hc : c ∈ piece) : c ∈ cs ∧ c ≠ sep := by
  induction cs generalizing piece with
  | nil => simp_all
  | cons d ds ih =>
    rw [List.splitOn, List.splitOnP_cons_eq_if_modifyHead] at hp
    split at hp
    · rcases List.mem_cons.mp hp with rfl | hp
      · simp at hc
      · exact ⟨List.mem_cons_of_mem _ (ih hp hc).1, (ih hp hc).2⟩
    · rename_i hd
      cases hs : List.splitOnP (· == sep) ds with
      | nil => simp [hs] at hp
      | cons q qs =>
        simp only [hs, List.modifyHead_cons, List.mem_cons] at hp
        have mem {r : List Char} (hr : r ∈ q :: qs) (h : c ∈ r) : c ∈ ds ∧ c ≠ sep :=
          ih (by rw [List.splitOn, hs]; exact hr) h
        rcases hp with rfl | hp
        · rcases List.mem_cons.mp hc with rfl | hc
          · exact ⟨List.mem_cons_self, by simpa using hd⟩
          · exact ⟨List.mem_cons_of_mem _ (mem List.mem_cons_self hc).1, (mem List.mem_cons_self hc).2⟩
        · have h := mem (List.mem_cons_of_mem _ hp) hc
          exact ⟨List.mem_cons_of_mem _ h.1, h.2⟩

theorem ne_nil_of_mem_arguments {text arg : List Char} (h : arg ∈ arguments text) : arg ≠ [] := by
  simpa using (List.mem_filter.mp h).2

theorem isBlank_of_mem_arguments {text arg : List Char} {c : Char} (h : arg ∈ arguments text)
    (hc : c ∈ arg) : isBlank c = false :=
  isBlank_of_mem_squeeze (mem_of_mem_splitOn (List.mem_filter.mp h).1 hc).1

theorem ne_comma_of_mem_arguments {text arg : List Char} {c : Char} (h : arg ∈ arguments text)
    (hc : c ∈ arg) : c ≠ ',' :=
  (mem_of_mem_splitOn (List.mem_filter.mp h).1 hc).2

theorem mem_of_mem_arguments {text arg : List Char} {c : Char} (h : arg ∈ arguments text)
    (hc : c ∈ arg) : c ∈ text :=
  (List.mem_filter.mp (mem_of_mem_splitOn (List.mem_filter.mp h).1 hc).1).1

/-! ### Normal statements -/

/-- Text that can stand in an argument: not empty, and without blanks, commas and semicolons. -/
def IsArgument (s : String) : Prop :=
  s.toList ≠ [] ∧ ∀ c ∈ s.toList, isBlank c = false ∧ c ≠ ',' ∧ c ≠ ';'

/-- A statement that a line can have: the operation is free of blanks and semicolons, it is empty only
when there are no arguments, and the arguments are as `IsArgument` says. -/
structure IsNormal (t : Statement) : Prop where
  op_solid : ∀ c ∈ t.op.toList, isBlank c = false ∧ c ≠ ';'
  op_empty : t.op = "" → t.args = []
  isArgument : ∀ s ∈ t.args, IsArgument s

/-- The statement as a line: the operation and, after a space, the arguments with commas between them. -/
def render (t : Statement) : List Char :=
  if t.args.isEmpty then t.op.toList
  else t.op.toList ++ ' ' :: [',', ' '].intercalate (t.args.map String.toList)

end Statement

end ByteMachine.Source
