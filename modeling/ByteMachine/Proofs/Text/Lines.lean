import ByteMachine.Proofs.Text.Trim
import ByteMachine.Text.Lines

/-!
# Texts and their lines

Any lines without line feeds are the lines of a text (`lines_unlines`). Each of them ends in a carriage
return and a line feed, so that a line may itself end in a carriage return. Where no line is empty or
holds a carriage return, line feeds between the lines are enough (`lines_intercalate`).

A text can be cut where a line starts (`lines_append`), and what stands before the end of a line is the
line, but for a carriage return that the end takes from it (`exists_lines_append`).
-/

namespace ByteMachine.Text

/-- The text with the given lines. -/
def unlines (ls : List (List Char)) : List Char := ls.flatMap (· ++ ['\r', '\n'])

theorem lines_append_return_newline (l rest : List Char) (hn : '\n' ∉ l) :
    lines (l ++ '\r' :: '\n' :: rest) = l :: lines rest := by
  induction l with
  | nil => rw [List.nil_append, lines]
  | cons c l ih =>
    rw [List.mem_cons, not_or] at hn
    rw [List.cons_append, lines, ih hn.2]
    · exact fun h => hn.1 h.symm
    · rintro tail - h
      cases l with
      | nil => simp at h
      | cons d l =>
        obtain ⟨rfl, -⟩ := List.cons.inj h
        exact hn.2 (List.mem_cons_self ..)

theorem lines_unlines {ls : List (List Char)} (h : ∀ l ∈ ls, '\n' ∉ l) : lines (unlines ls) = ls := by
  induction ls with
  | nil => rfl
  | cons l ls ih =>
    rw [List.forall_mem_cons] at h
    have first : unlines (l :: ls) = l ++ '\r' :: '\n' :: unlines ls := List.append_assoc ..
    rw [first, lines_append_return_newline l _ h.1, ih h.2]

theorem lines_eq_singleton {l : List Char} (hne : l ≠ []) (hn : '\n' ∉ l) : lines l = [l] := by
  induction l with
  | nil => exact absurd rfl hne
  | cons c l ih =>
    rw [List.mem_cons, not_or] at hn
    cases l with
    | nil =>
      rw [lines, lines_nil]
      · exact fun h => hn.1 h.symm
      · rintro tail - h
        cases h
    | cons d l =>
      rw [lines, ih (by simp) hn.2]
      · exact fun h => hn.1 h.symm
      · rintro tail - h
        obtain ⟨rfl, -⟩ := List.cons.inj h
        exact hn.2 List.mem_cons_self

theorem lines_intercalate {ls : List (List Char)} (h : ∀ l ∈ ls, l ≠ [] ∧ '\n' ∉ l ∧ '\r' ∉ l) :
    lines (['\n'].intercalate ls) = ls := by
  induction ls with
  | nil => rfl
  | cons l ls ih =>
    rw [List.forall_mem_cons] at h
    obtain ⟨⟨hne, hn, hr⟩, h⟩ := h
    cases ls with
    | nil => rw [List.intercalate_singleton, lines_eq_singleton hne hn]
    | cons next ls =>
      rw [List.intercalate_cons_cons, List.append_assoc, List.singleton_append,
        lines_append_newline l _ hn hr, ih h]

/-! ### Where a line starts -/

/-- A line starts behind the text. -/
def StartsLine (cs : List Char) : Prop := cs = [] ∨ cs.getLast? = some '\n'

theorem StartsLine.tail {c : Char} {cs : List Char} (h : StartsLine (c :: cs)) : StartsLine cs := by
  cases cs with
  | nil => exact .inl rfl
  | cons d ds =>
    have ends := h.resolve_left (List.cons_ne_nil c (d :: ds))
    exact .inr (by rwa [List.getLast?_cons_cons] at ends)

theorem lines_eq_nil_iff {cs : List Char} : lines cs = [] ↔ cs = [] := by
  constructor
  · intro h
    unfold lines at h
    split at h
    · rfl
    · cases h
    · cases h
    · split at h <;> cases h
  · rintro rfl
    rfl

/-- **The lines of two texts**, the second of which starts with a line. -/
theorem lines_append {before : List Char} (h : StartsLine before) (rest : List Char) :
    lines (before ++ rest) = lines before ++ lines rest := by
  fun_induction lines before with
  | case1 => rfl
  | case2 cs ih => rw [List.cons_append, lines, ih h.tail, List.cons_append]
  | case3 cs ih => rw [List.cons_append, List.cons_append, lines, ih h.tail.tail, List.cons_append]
  | case4 c cs hc hcr hnil ih =>
    obtain rfl := lines_eq_nil_iff.mp hnil
    exact absurd (Option.some.inj (h.resolve_left (List.cons_ne_nil c []))) hc
  | case5 c cs hc hcr l ls hls ih =>
    rw [List.cons_append, lines, ih h.tail, hls]
    · rfl
    · exact hc
    · intro tail hr hcs
      cases cs with
      | nil => simp at hls
      | cons d ds => exact hcr ds hr (by rw [(List.cons.inj hcs).1])

theorem exists_startsLine_append (cs : List Char) :
    ∃ before l, cs = before ++ l ∧ StartsLine before ∧ '\n' ∉ l := by
  induction cs with
  | nil => exact ⟨[], [], rfl, .inl rfl, by simp⟩
  | cons c cs ih =>
    obtain ⟨before, l, rfl, starts, hn⟩ := ih
    rcases starts with rfl | ends
    · by_cases hc : c = '\n'
      · exact ⟨[c], l, rfl, .inr (by rw [hc]; rfl), hn⟩
      · exact ⟨[], c :: l, rfl, .inl rfl, by simp [hn, Ne.symm hc]⟩
    · refine ⟨c :: before, l, rfl, .inr ?_, hn⟩
      rw [List.getLast?_cons, ends]
      rfl

/-! ### Where a line ends -/

/-- A line ends before the text. -/
inductive EndsLine : List Char → Prop
  | nothing : EndsLine []
  | newline (rest : List Char) : EndsLine ('\n' :: rest)
  | returnNewline (rest : List Char) : EndsLine ('\r' :: '\n' :: rest)

theorem lines_append_newline_of_getLast? {l : List Char} (hn : '\n' ∉ l) (hr : l.getLast? ≠ some '\r')
    (rest : List Char) : lines (l ++ '\n' :: rest) = l :: lines rest := by
  induction l with
  | nil => rw [List.nil_append, lines]
  | cons c l ih =>
    rw [List.mem_cons, not_or] at hn
    have next : lines (l ++ '\n' :: rest) = l :: lines rest := by
      refine ih hn.2 fun h => hr ?_
      rw [List.getLast?_cons, h]
      rfl
    rw [List.cons_append, lines, next]
    · exact fun h => hn.1 h.symm
    · rintro tail rfl h
      cases l with
      | nil => exact hr rfl
      | cons d l =>
        obtain ⟨rfl, -⟩ := List.cons.inj h
        exact hn.2 List.mem_cons_self

theorem exists_lines_append_newline {l : List Char} (hn : '\n' ∉ l) (rest : List Char) :
    ∃ first suf, l = first ++ suf ∧ AllBlank suf ∧ lines (l ++ '\n' :: rest) = first :: lines rest := by
  by_cases hr : l.getLast? = some '\r'
  · obtain ⟨first, rfl⟩ := List.getLast?_eq_some_iff.mp hr
    have blank : AllBlank ['\r'] := by simp [AllBlank, isBlank]
    refine ⟨first, ['\r'], rfl, blank, ?_⟩
    rw [List.append_assoc, List.singleton_append]
    exact lines_append_return_newline first rest fun h => hn (List.mem_append_left _ h)
  · exact ⟨l, [], by simp, allBlank_nil, lines_append_newline_of_getLast? hn hr rest⟩

/-- **What stands before the end of a line** is the line and at most blanks. -/
theorem exists_lines_append {after : List Char} (ha : EndsLine after) :
    ∃ ls, ∀ l, '\n' ∉ l → l ++ after ≠ [] →
      ∃ first suf, l = first ++ suf ∧ AllBlank suf ∧ lines (l ++ after) = first :: ls := by
  cases ha with
  | nothing =>
    refine ⟨[], fun l hn hne => ⟨l, [], by simp, allBlank_nil, ?_⟩⟩
    rw [List.append_nil] at hne ⊢
    exact lines_eq_singleton hne hn
  | newline rest => exact ⟨lines rest, fun l hn _ => exists_lines_append_newline hn rest⟩
  | returnNewline rest =>
    exact ⟨lines rest, fun l hn _ =>
      ⟨l, [], by simp, allBlank_nil, lines_append_return_newline l rest hn⟩⟩

end ByteMachine.Text
