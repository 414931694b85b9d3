import ByteMachine.Text.Blank
import Mathlib.Data.List.DropRight

/-!
# Blanks at the ends of a text

A text is what `trim` keeps between two runs of blanks, and runs of blanks at its ends do not change
what `trim` keeps.

* decomposition: `exists_blanks_append_trim`;
* invariance: `trim_append_append`, hence `trim_trim`;
* what `trim` leaves alone: `trim_eq_self`, and the start of a text that is a word
  (`trim_append_of_solid`).
-/

namespace ByteMachine.Text

/-- All characters of the text are blank. -/
def AllBlank (cs : List Char) : Prop := ∀ c ∈ cs, isBlank c = true

theorem allBlank_nil : AllBlank [] := by simp [AllBlank]

theorem AllBlank.append {cs ds : List Char} (h : AllBlank cs) (h' : AllBlank ds) :
    AllBlank (cs ++ ds) := by
  intro c hc
  rcases List.mem_append.mp hc with hc | hc
  · exact h c hc
  · exact h' c hc

theorem AllBlank.reverse {cs : List Char} (h : AllBlank cs) : AllBlank cs.reverse :=
  fun c hc => h c (List.mem_reverse.mp hc)

theorem AllBlank.not_mem {cs : List Char} (h : AllBlank cs) {c : Char} (hc : isBlank c = false) :
    c ∉ cs := by
  intro hm
  rw [h c hm] at hc
  exact Bool.noConfusion hc

theorem allBlank_takeWhile (cs : List Char) : AllBlank (cs.takeWhile isBlank) :=
  fun _ hc => List.mem_takeWhile_imp hc

/-! ### One end -/

theorem trimLeft_append {cs ds : List Char} (h : AllBlank cs) :
    trimLeft (cs ++ ds) = trimLeft ds :=
  List.dropWhile_append_of_pos h

theorem trimRight_append {cs ds : List Char} (h : AllBlank ds) :
    trimRight (cs ++ ds) = trimRight cs := by
  rw [trimRight, trimRight, List.reverse_append, List.dropWhile_append_of_pos h.reverse]

theorem trimLeft_eq_nil {cs : List Char} (h : AllBlank cs) : trimLeft cs = [] :=
  trimLeft_eq_nil_iff.mpr h

theorem trimLeft_append_of_ne_nil {cs ds : List Char} (h : trimLeft cs ≠ []) :
    trimLeft (cs ++ ds) = trimLeft cs ++ ds := by
  have keeps : (cs.dropWhile isBlank).isEmpty = false := by
    rw [List.isEmpty_eq_false_iff]
    exact h
  rw [trimLeft, trimLeft, List.dropWhile_append, keeps, if_neg (by simp)]

theorem exists_blanks_append_trimLeft (cs : List Char) :
    ∃ pre, AllBlank pre ∧ cs = pre ++ trimLeft cs :=
  ⟨cs.takeWhile isBlank, allBlank_takeWhile cs, List.takeWhile_append_dropWhile.symm⟩

theorem exists_trimRight_append_blanks (cs : List Char) :
    ∃ suf, AllBlank suf ∧ cs = trimRight cs ++ suf := by
  obtain ⟨pre, hpre, h⟩ := exists_blanks_append_trimLeft cs.reverse
  refine ⟨pre.reverse, hpre.reverse, ?_⟩
  have h' := congrArg List.reverse h
  rwa [List.reverse_reverse, List.reverse_append] at h'

/-! ### Both ends -/

/-- A text is what `trim` keeps between two runs of blanks. -/
theorem exists_blanks_append_trim (cs : List Char) :
    ∃ pre suf, AllBlank pre ∧ AllBlank suf ∧ cs = pre ++ (trim cs ++ suf) := by
  obtain ⟨pre, hpre, h⟩ := exists_blanks_append_trimLeft cs
  obtain ⟨suf, hsuf, h'⟩ := exists_trimRight_append_blanks (trimLeft cs)
  refine ⟨pre, suf, hpre, hsuf, ?_⟩
  rw [trim, ← h', ← h]

theorem trim_append_append {pre suf : List Char} (hpre : AllBlank pre) (hsuf : AllBlank suf)
    (cs : List Char) : trim (pre ++ (cs ++ suf)) = trim cs := by
  rw [trim, trim, trimLeft_append hpre]
  by_cases h : trimLeft cs = []
  · have hcs : AllBlank cs := trimLeft_eq_nil_iff.mp h
    rw [trimLeft_eq_nil (hcs.append hsuf), h]
  · rw [trimLeft_append_of_ne_nil h, trimRight_append hsuf]

theorem trim_trim (cs : List Char) : trim (trim cs) = trim cs := by
  obtain ⟨pre, suf, hpre, hsuf, h⟩ := exists_blanks_append_trim cs
  have h' := trim_append_append hpre hsuf (trim cs)
  rw [← h] at h'
  exact h'.symm

theorem trim_append_left {pre : List Char} (hpre : AllBlank pre) (cs : List Char) :
    trim (pre ++ cs) = trim cs := by
  simpa using trim_append_append hpre allBlank_nil cs

theorem trim_append_right {suf : List Char} (hsuf : AllBlank suf) (cs : List Char) :
    trim (cs ++ suf) = trim cs := by
  simpa using trim_append_append allBlank_nil hsuf cs

/-! ### Texts without blanks at their ends -/

theorem isBlank_of_trim_eq_cons {c : Char} {cs rest : List Char} (h : trim cs = c :: rest) :
    isBlank c = false := by
  obtain ⟨suf, -, hsuf⟩ := exists_trimRight_append_blanks (trimLeft cs)
  rw [← trim, h, List.cons_append] at hsuf
  exact isBlank_of_trimLeft_eq_cons hsuf

theorem isBlank_getLast?_trimRight (cs : List Char) : ∀ c ∈ (trimRight cs).getLast?, isBlank c = false := by
  intro c hc
  rw [trimRight, List.getLast?_reverse, Option.mem_def, List.head?_eq_some_iff] at hc
  obtain ⟨rest, hrest⟩ := hc
  exact isBlank_of_trimLeft_eq_cons hrest

theorem trim_eq_self {cs : List Char} (first : ∀ c ∈ cs.head?, isBlank c = false)
    (last : ∀ c ∈ cs.getLast?, isBlank c = false) : trim cs = cs := by
  have keeps : ∀ ds : List Char, (∀ c ∈ ds.head?, isBlank c = false) → ds.dropWhile isBlank = ds := by
    intro ds hds
    cases ds with
    | nil => rfl
    | cons d ds => rw [List.dropWhile_cons_of_neg (by simp [hds d (by simp)])]
  rw [trim, trimRight, trimLeft, keeps cs first, keeps cs.reverse (by simpa using last),
    List.reverse_reverse]

theorem trim_append_of_solid {op : List Char} (hne : op ≠ []) (hop : ∀ c ∈ op, isBlank c = false)
    (rest : List Char) : trim (op ++ rest) = op ++ trimRight rest := by
  obtain ⟨suf, hsuf, h⟩ := exists_trimRight_append_blanks rest
  have cut : trim (op ++ rest) = trim (op ++ trimRight rest) := by
    conv => lhs; rw [h, ← List.append_assoc, trim_append_right hsuf]
  rw [cut]
  refine trim_eq_self (fun c hc => ?_) fun c hc => ?_
  · rw [List.head?_append_of_ne_nil _ hne] at hc
    exact hop c (List.mem_of_mem_head? hc)
  · rw [List.getLast?_append] at hc
    cases hl : (trimRight rest).getLast? with
    | some d =>
      rw [hl] at hc
      exact isBlank_getLast?_trimRight rest c (hl.trans hc)
    | none =>
      rw [hl] at hc
      exact hop c (List.mem_of_mem_getLast? hc)

theorem isBlank_head?_trimRight {cs : List Char} (h : ∀ c ∈ cs.head?, isBlank c = true) :
    ∀ c ∈ (trimRight cs).head?, isBlank c = true := by
  obtain ⟨suf, -, hcs⟩ := exists_trimRight_append_blanks cs
  intro c hc
  refine h c ?_
  rw [hcs, List.head?_append, Option.mem_def.mp hc]
  rfl

/-- The blanks at the end of a text are not counted by `squeeze`. -/
theorem squeeze_trimRight (cs : List Char) : squeeze (trimRight cs) = squeeze cs := by
  obtain ⟨suf, hsuf, h⟩ := exists_trimRight_append_blanks cs
  have none : squeeze suf = [] := List.filter_eq_nil_iff.mpr fun c hc => by simp [isSolid, hsuf c hc]
  conv => rhs; rw [h, squeeze_append, none, List.append_nil]

theorem squeeze_eq_nil_iff {cs : List Char} : squeeze cs = [] ↔ AllBlank cs := by
  rw [squeeze, List.filter_eq_nil_iff]
  simp [isSolid, AllBlank]

end ByteMachine.Text
