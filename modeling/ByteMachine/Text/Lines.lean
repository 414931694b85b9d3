/-!
# Lines

A text cut at its line feeds. A line feed ends the line before it, so a text that ends in one has no
empty last line, and a carriage return just before a line feed belongs to the line's end.

Main statements: `not_mem_of_mem_lines` (no line holds a line feed), `lines_append_newline` (lines
that each end in a line feed are taken one by one).
-/

namespace ByteMachine.Text

/-- The lines of a text, without their ends. -/
def lines : List Char → List (List Char)
  | [] => []
  | '\n' :: cs => [] :: lines cs
  | '\r' :: '\n' :: cs => [] :: lines cs
  | c :: cs =>
    match lines cs with
    | [] => [[c]]
    | l :: ls => (c :: l) :: ls

@[simp] theorem lines_nil : lines [] = [] := rfl

/-- No line holds a line feed. -/
theorem not_mem_of_mem_lines (cs : List Char) : ∀ l ∈ lines cs, '\n' ∉ l := by
  fun_induction lines cs with
  | case1 => simp
  | case2 cs ih => simpa using ih
  | case3 cs ih => simpa using ih
  | case4 c cs hc _ hnil ih =>
    intro l hl
    simp only [List.mem_singleton] at hl
    subst hl
    simpa [eq_comm] using hc
  | case5 c cs hc _ l ls hls ih =>
    rw [hls] at ih
    intro m hm
    rcases List.mem_cons.mp hm with rfl | hm
    · exact List.not_mem_cons_of_ne_of_not_mem (fun h => hc h.symm) (ih l (by simp))
    · exact ih m (by simp [hm])

/-- A line that ends in a line feed, and holds neither a line feed nor a carriage return, stands
first. -/
theorem lines_append_newline (l rest : List Char) (hn : '\n' ∉ l) (hr : '\r' ∉ l) :
    lines (l ++ '\n' :: rest) = l :: lines rest := by
  induction l with
  | nil => simp [lines]
  | cons c l ih =>
    simp only [List.mem_cons, not_or] at hn hr
    have hc : c ≠ '\n' := fun h => hn.1 h.symm
    have hc' : c ≠ '\r' := fun h => hr.1 h.symm
    rw [List.cons_append, lines, ih hn.2 hr.2]
    · exact fun h => hc h
    · exact fun _ h _ => hc' h

end ByteMachine.Text
