import ByteMachine.Proofs.Text.Digits
import ByteMachine.Proofs.Text.Trim
import ByteMachine.Source.Statement

/-!
# Two readings of a line

The kind of a line and its statement are read off the same text, the code of the line without the
blanks at its ends, but by different means: the kind looks at the characters of the whole text, the
statement cuts the text at its first blank.

* neither reading depends on the blanks at the ends of the line: `trim_code_trim`,
  `LineKind.ofLine_trim`, `Statement.ofLine_trim`;
* the two readings agree on data: a data line has the directive as its operation
  (`op_of_isData`), and an instruction line that has it too holds a character that data cannot have
  (`exists_not_isDataChar`), which then stands in one of its arguments (`exists_mem_arguments`).
-/

namespace ByteMachine.Source

open Text

/-! ### The ends of the line -/

theorem isBlank_semicolon : isBlank ';' = false := by decide

theorem code_append {cs : List Char} (h : ';' ∉ cs) (ds : List Char) :
    code (cs ++ ds) = cs ++ code ds := by
  refine List.takeWhile_append_of_pos fun c hc => ?_
  rw [bne_iff_ne]
  rintro rfl
  exact h hc

theorem code_append_of_mem {cs : List Char} (h : ';' ∈ cs) (ds : List Char) :
    code (cs ++ ds) = code cs := by
  obtain ⟨as, bs, rfl⟩ := List.append_of_mem h
  rw [List.append_assoc, List.cons_append, code_append_comment, code_append_comment]

theorem trim_code_append {pre suf : List Char} (hpre : AllBlank pre) (hsuf : AllBlank suf)
    (cs : List Char) : trim (code (pre ++ (cs ++ suf))) = trim (code cs) := by
  rw [code_append (hpre.not_mem isBlank_semicolon), trim_append_left hpre]
  by_cases h : ';' ∈ cs
  · rw [code_append_of_mem h]
  · have hsuf' : code suf = suf := code_eq_self (hsuf.not_mem isBlank_semicolon)
    rw [code_append h, code_eq_self h, hsuf', trim_append_right hsuf]

theorem trim_code_trim (raw : List Char) : trim (code (trim raw)) = trim (code raw) := by
  obtain ⟨pre, suf, hpre, hsuf, h⟩ := exists_blanks_append_trim raw
  have h' := trim_code_append hpre hsuf (trim raw)
  rw [← h] at h'
  exact h'.symm

theorem LineKind.ofLine_trim (raw : List Char) : ofLine (trim raw) = ofLine raw := by
  rw [ofLine, trim_trim, ofLine]

theorem Statement.ofLine_trim (raw : List Char) : ofLine (trim raw) = ofLine raw := by
  rw [ofLine, trim_code_trim, ofLine]

/-! ### Kinds of lines with code -/

theorem LineKind.ofLine_cases (raw : List Char) :
    ofLine raw = .blank ∨ ofLine raw = .comment ∨ ofLine raw = ofCode (trim (code raw)) := by
  unfold ofLine
  split
  · exact Or.inl rfl
  · exact Or.inr (Or.inl rfl)
  · exact Or.inr (Or.inr (by rw [trim_code_trim]))

theorem LineKind.ofLine_of_code {raw : List Char} (h : trim (code raw) ≠ []) :
    ofLine raw = ofCode (trim (code raw)) := by
  rw [← trim_code_trim] at h ⊢
  unfold ofLine
  split
  · rename_i hnil
    rw [hnil] at h
    exact absurd rfl h
  · rename_i rest hcomment
    rw [hcomment] at h
    exact absurd rfl h
  · rfl

/-! ### Labels -/

theorem labelName?_eq_some_iff {text name : List Char} :
    labelName? text = some name ↔
      text = name ++ [':'] ∧ name ≠ [] ∧ ∀ c ∈ name, isNameChar c = true := by
  constructor
  · intro h
    unfold labelName? at h
    split at h
    · rename_i hlast
      dsimp only at h
      split at h
      · rename_i hname
        obtain rfl := Option.some.inj h
        rw [Bool.and_eq_true, List.all_eq_true] at hname
        refine ⟨?_, by simpa using hname.1, hname.2⟩
        exact (List.dropLast_append_getLast? _ hlast).symm
      · cases h
    · cases h
  · rintro ⟨rfl, hne, hname⟩
    exact labelName?_append_colon hne hname

theorem isBlank_of_isNameChar {c : Char} (h : isNameChar c = true) : isBlank c = false := by
  rw [isNameChar, Bool.or_eq_true] at h
  rcases h with h | h
  · have range : (65 ≤ c.toNat ∧ c.toNat ≤ 90) ∨ (97 ≤ c.toNat ∧ c.toNat ≤ 122) ∨
        (48 ≤ c.toNat ∧ c.toNat ≤ 57) := isAlphanum_iff.mp h
    by_contra hb
    simp only [Bool.not_eq_false, isBlank, Bool.or_eq_true, Bool.and_eq_true, decide_eq_true_eq,
      beq_iff_eq] at hb
    omega
  · have others : "æøåÆØÅ-_".toList.all isSolid = true := by decide
    have solid := List.all_eq_true.mp others c (by simpa using h)
    simpa [isSolid] using solid

/-! ### The operation -/

theorem takeWhile_isSolid_append {op rest : List Char} (hop : ∀ c ∈ op, isBlank c = false)
    (hrest : ∀ c ∈ rest.head?, isBlank c = true) :
    (op ++ rest).takeWhile isSolid = op ∧ (op ++ rest).dropWhile isSolid = rest := by
  have solid : ∀ c ∈ op, isSolid c = true := fun c hc => by simp [isSolid, hop c hc]
  rw [List.takeWhile_append_of_pos solid, List.dropWhile_append_of_pos solid]
  cases rest with
  | nil => simp
  | cons c rest =>
    have hc : isSolid c = false := by simp [isSolid, hrest c (by simp)]
    simp [hc]

theorem takeWhile_isSolid_eq_self {op : List Char} (hop : ∀ c ∈ op, isBlank c = false) :
    op.takeWhile isSolid = op ∧ op.dropWhile isSolid = [] := by
  have noRest : ∀ c ∈ ([] : List Char).head?, isBlank c = true := by simp
  simpa using takeWhile_isSolid_append hop noRest

theorem isBlank_head_dropWhile (text : List Char) :
    ∀ c ∈ (text.dropWhile isSolid).head?, isBlank c = true := by
  intro c hc
  have h := List.head?_dropWhile_not isSolid text
  rw [Option.mem_def.mp hc] at h
  simpa [isSolid] using h

theorem isPrefixOf?_append (cs ds : List Char) : cs.isPrefixOf? (cs ++ ds) = some ds := by
  induction cs with
  | nil => rfl
  | cons c cs ih => simp [List.isPrefixOf?, ih]

theorem eq_append_of_isPrefixOf? {cs ds rest : List Char} (h : cs.isPrefixOf? ds = some rest) :
    ds = cs ++ rest := by
  induction cs generalizing ds with
  | nil => simpa [List.isPrefixOf?] using h
  | cons c cs ih =>
    cases ds with
    | nil => simp [List.isPrefixOf?] at h
    | cons d ds =>
      rw [List.isPrefixOf?] at h
      split at h
      · rename_i hcd
        rw [ih h, beq_iff_eq.mp hcd, List.cons_append]
      · simp at h

theorem isBlank_of_mem_dataDirective {c : Char} (h : c ∈ dataDirective) : isBlank c = false := by
  have directive : dataDirective.all isSolid = true := by decide
  simpa [isSolid] using List.all_eq_true.mp directive c h

theorem op_of_isData {text : List Char} (h : isData text = true) :
    text.takeWhile isSolid = dataDirective := by
  unfold isData at h
  split at h
  · simp at h
  · rename_i hp
    rw [eq_append_of_isPrefixOf? hp]
    exact (takeWhile_isSolid_append (fun _ => isBlank_of_mem_dataDirective) (by simp)).1
  · rename_i c rest hp
    rw [Bool.and_eq_true] at h
    rw [eq_append_of_isPrefixOf? hp]
    refine (takeWhile_isSolid_append (fun _ => isBlank_of_mem_dataDirective) ?_).1
    simpa using h.1

/-- Text that has the directive as its operation and still is not data holds a character that data
cannot have. -/
theorem exists_not_isDataChar {text : List Char} (h : isData text = false)
    (hop : text.takeWhile isSolid = dataDirective) :
    ∃ c ∈ text.dropWhile isSolid, isDataChar c = false := by
  have split : text = dataDirective ++ text.dropWhile isSolid := by
    rw [← hop, List.takeWhile_append_dropWhile]
  have head := isBlank_head_dropWhile text
  generalize text.dropWhile isSolid = rest at split head
  subst split
  rw [isData, isPrefixOf?_append] at h
  cases rest with
  | nil => simp at h
  | cons c rest =>
    simp only [head c (by simp), Bool.true_and, List.all_eq_false, Bool.not_eq_true] at h
    obtain ⟨d, hd, hdata⟩ := h
    exact ⟨d, List.mem_cons_of_mem c hd, hdata⟩

/-! ### Arguments -/

namespace Statement

theorem exists_mem_splitOn {sep c : Char} {cs : List Char} (h : c ∈ cs) (hne : c ≠ sep) :
    ∃ piece ∈ cs.splitOn sep, c ∈ piece := by
  obtain ⟨as, bs, rfl⟩ := List.append_of_mem h
  have inSecond : ∃ piece ∈ (c :: bs).splitOn sep, c ∈ piece := by
    rw [List.splitOn_cons_eq_if_modifyHead, if_neg (by simpa using hne)]
    cases hs : bs.splitOn sep with
    | nil => exact absurd hs (List.splitOn_ne_nil sep bs)
    | cons piece pieces => exact ⟨c :: piece, by simp, by simp⟩
  clear h
  induction as with
  | nil => exact inSecond
  | cons d as ih =>
    obtain ⟨piece, hp, hc⟩ := ih
    rw [List.cons_append, List.splitOn_cons_eq_if_modifyHead]
    split
    · exact ⟨piece, List.mem_cons_of_mem _ hp, hc⟩
    · cases hs : (as ++ c :: bs).splitOn sep with
      | nil => exact absurd hs (List.splitOn_ne_nil sep _)
      | cons first pieces =>
        rw [hs] at hp
        rcases List.mem_cons.mp hp with rfl | hp
        · exact ⟨d :: piece, by simp, List.mem_cons_of_mem d hc⟩
        · exact ⟨piece, by simp [hp], hc⟩

theorem exists_mem_arguments {text : List Char} {c : Char} (h : c ∈ text) (hb : isBlank c = false)
    (hc : c ≠ ',') : ∃ arg ∈ arguments text, c ∈ arg := by
  have hs : c ∈ squeeze text := List.mem_filter.mpr ⟨h, by simp [isSolid, hb]⟩
  obtain ⟨piece, hp, hm⟩ := exists_mem_splitOn hs hc
  refine ⟨piece, List.mem_filter.mpr ⟨hp, ?_⟩, hm⟩
  cases piece with
  | nil => simp at hm
  | cons d piece => simp

end Statement

end ByteMachine.Source
