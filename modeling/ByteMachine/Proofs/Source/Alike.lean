import ByteMachine.Proofs.Source.Reading

/-!
# Lines that read alike

Three changes to a line leave what it says: blanks at its ends, a comment behind it, and blanks behind
its operation (`LineEdit`). Each of the readings of a line has to agree on that, and each sees the change
in another way: the kind of a line is read off its whole code, its operation ends at the first blank,
and its arguments have no blanks.

* `isIdle_iff`: the lines without code are those that hold blanks, or a comment behind blanks;
* `ofCode_append_congr` and `Statement.ofLine_append`: behind the operation, only what is no blank counts;
* `LineEdit.alike`: a changed line is idle as before, of the same kind, and the same statement.
-/

namespace ByteMachine.Source

open Text

/-! ### Idle lines -/

/-- A line of blanks, or one whose first character that is no blank is a semicolon. -/
def IsIdle (raw : List Char) : Prop :=
  AllBlank raw ∨ ∃ pre rest, AllBlank pre ∧ raw = pre ++ ';' :: rest

theorem code_append_dropWhile (raw : List Char) : code raw ++ raw.dropWhile (· != ';') = raw :=
  List.takeWhile_append_dropWhile

theorem code_cons {c : Char} (hc : c ≠ ';') (cs : List Char) : code (c :: cs) = c :: code cs :=
  List.takeWhile_cons_of_pos (bne_iff_ne.mpr hc)

theorem code_of_allBlank {cs : List Char} (h : AllBlank cs) : code cs = cs :=
  code_eq_self (h.not_mem isBlank_semicolon)

/-- **Idle lines have no code.** -/
theorem isIdle_iff {raw : List Char} : IsIdle raw ↔ trim (code raw) = [] := by
  rw [trim_eq_nil_iff]
  constructor
  · rintro (h | ⟨pre, rest, h, rfl⟩)
    · rwa [code_of_allBlank h]
    · rwa [code_append_comment, code_of_allBlank h]
  · intro h
    have split := code_append_dropWhile raw
    cases hd : raw.dropWhile (· != ';') with
    | nil =>
      rw [hd, List.append_nil] at split
      exact .inl (split ▸ h)
    | cons c rest =>
      have hc := List.head?_dropWhile_not (· != ';') raw
      rw [hd] at hc
      obtain rfl : c = ';' := by simpa using hc
      exact .inr ⟨code raw, rest, h, (hd ▸ split).symm⟩

theorem LineKind.ofLine_of_isIdle {raw : List Char} (h : IsIdle raw) :
    ofLine raw = .blank ∨ ofLine raw = .comment := by
  rw [isIdle_iff, ← trim_code_trim] at h
  unfold ofLine
  split
  · exact .inl rfl
  · exact .inr rfl
  · rename_i hnil hcomment
    -- the first character of the line would be part of its code
    obtain ⟨c, rest, hline⟩ := List.exists_cons_of_ne_nil hnil
    have hc : c ≠ ';' := by
      rintro rfl
      exact hcomment rest hline
    have first : c ∈ code (trim raw) := by
      rw [hline, code_cons hc]
      exact List.mem_cons_self
    have blank := trim_eq_nil_iff.mp h c first
    rw [isBlank_of_trim_eq_cons hline] at blank
    cases blank

theorem LineKind.ofCode_ne_comment (text : List Char) : LineKind.ofCode text ≠ .comment := by
  unfold LineKind.ofCode
  split
  · simp
  · split <;> simp

theorem LineKind.ofLine_ne_of_not_isIdle {raw : List Char} (h : ¬IsIdle raw) :
    ofLine raw ≠ .blank ∧ ofLine raw ≠ .comment := by
  rw [isIdle_iff] at h
  rw [ofLine_of_code h]
  exact ⟨ofCode_ne_blank _, ofCode_ne_comment _⟩

/-! ### Blanks behind the operation -/

theorem code_squeeze (cs : List Char) : code (squeeze cs) = squeeze (code cs) := by
  induction cs with
  | nil => rfl
  | cons c cs ih =>
    by_cases hc : c = ';'
    · subst hc
      rfl
    · rw [code_cons hc]
      by_cases hb : isSolid c = true
      · rw [squeeze, squeeze, List.filter_cons_of_pos hb, List.filter_cons_of_pos hb, code_cons hc]
        exact congrArg _ ih
      · rw [squeeze, squeeze, List.filter_cons_of_neg hb, List.filter_cons_of_neg hb]
        exact ih

theorem isDataChar_of_isBlank {c : Char} (h : isBlank c = true) : isDataChar c = true := by
  simp [isDataChar, h]

theorem all_isDataChar_squeeze (cs : List Char) : (squeeze cs).all isDataChar = cs.all isDataChar := by
  rw [Bool.eq_iff_iff, List.all_eq_true, List.all_eq_true]
  constructor
  · intro h c hc
    by_cases hb : isBlank c = true
    · exact isDataChar_of_isBlank hb
    · exact h c (List.mem_filter.mpr ⟨hc, by simp [isSolid, hb]⟩)
  · exact fun h c hc => h c (List.mem_filter.mp hc).1

section
variable {op rest rest' : List Char} (hne : op ≠ []) (hop : ∀ c ∈ op, isBlank c = false)

theorem labelName?_eq_none_of_isBlank {text : List Char} {c : Char} (h : c ∈ text)
    (hb : isBlank c = true) : labelName? text = none := by
  refine Option.eq_none_iff_forall_ne_some.mpr fun name hname => ?_
  obtain ⟨rfl, -, names⟩ := labelName?_eq_some_iff.mp hname
  rcases List.mem_append.mp h with h | h
  · rw [isBlank_of_isNameChar (names c h)] at hb
    cases hb
  · obtain rfl := List.mem_singleton.mp h
    cases hb

include hop in
theorem isData_append (hrest : ∀ c ∈ rest.head?, isBlank c = true) :
    isData (op ++ rest) = (decide (op = dataDirective) && rest.all isDataChar) := by
  by_cases hd : op = dataDirective
  · rw [hd, isData, isPrefixOf?_append]
    cases rest with
    | nil => rfl
    | cons c rest =>
      have hc := hrest c rfl
      simp [hc, isDataChar_of_isBlank hc]
  · have other : isData (op ++ rest) = false := by
      rw [← Bool.not_eq_true]
      intro h
      rw [← (takeWhile_isSolid_append hop hrest).1, op_of_isData h] at hd
      exact hd rfl
    rw [other, decide_eq_false hd, Bool.false_and]

include hne hop in
/-- **The kind of a code** sees behind the operation only what is no blank. -/
theorem ofCode_append_congr (hrest : ∀ c ∈ rest.head?, isBlank c = true)
    (hrest' : ∀ c ∈ rest'.head?, isBlank c = true) (h : squeeze rest' = squeeze rest) :
    LineKind.ofCode (trim (op ++ rest')) = LineKind.ofCode (trim (op ++ rest)) := by
  rw [trim_append_of_solid hne hop, trim_append_of_solid hne hop]
  by_cases hnil : squeeze rest = []
  · rw [trimRight_eq_nil_iff.mpr (squeeze_eq_nil_iff.mp hnil),
      trimRight_eq_nil_iff.mpr (squeeze_eq_nil_iff.mp (h.trans hnil))]
  · have noLabel {text : List Char} (htext : ∀ c ∈ text.head?, isBlank c = true)
        (hs : squeeze text ≠ []) : labelName? (op ++ trimRight text) = none := by
      rw [← squeeze_trimRight] at hs
      have head := isBlank_head?_trimRight htext
      cases ht : trimRight text with
      | nil =>
        rw [ht] at hs
        exact absurd rfl hs
      | cons c t =>
        rw [ht] at head
        exact labelName?_eq_none_of_isBlank (List.mem_append_right _ List.mem_cons_self) (head c rfl)
    have data {text : List Char} (htext : ∀ c ∈ text.head?, isBlank c = true) :
        isData (op ++ trimRight text) =
          (decide (op = dataDirective) && (squeeze text).all isDataChar) := by
      rw [isData_append hop (isBlank_head?_trimRight htext), ← squeeze_trimRight text,
        all_isDataChar_squeeze]
    rw [LineKind.ofCode, LineKind.ofCode, noLabel hrest hnil, noLabel hrest' (h ▸ hnil), data hrest,
      data hrest', h]

include hne hop in
theorem Statement.ofLine_append {raw : List Char} (hraw : trim (code raw) = trim (op ++ rest))
    (hrest : ∀ c ∈ rest.head?, isBlank c = true) :
    Statement.ofLine raw = ⟨String.ofList op, (arguments rest).map String.ofList⟩ := by
  obtain ⟨first, second⟩ := takeWhile_isSolid_append hop (isBlank_head?_trimRight hrest)
  rw [ofLine, hraw, trim_append_of_solid hne hop, first, second, arguments, squeeze_trimRight, arguments]

end

/-! ### Lines that read alike -/

/-- Two lines are read in the same way. -/
structure Alike (raw raw' : List Char) : Prop where
  idle_iff : IsIdle raw' ↔ IsIdle raw
  kind_eq : ¬IsIdle raw → LineKind.ofLine raw' = LineKind.ofLine raw
  statement_eq : Statement.ofLine raw' = Statement.ofLine raw

theorem Alike.symm {raw raw' : List Char} (h : Alike raw raw') : Alike raw' raw where
  idle_iff := h.idle_iff.symm
  kind_eq hidle := (h.kind_eq (h.idle_iff.not.mp hidle)).symm
  statement_eq := h.statement_eq.symm

theorem Alike.trans {raw raw' raw'' : List Char} (h : Alike raw raw') (h' : Alike raw' raw'') :
    Alike raw raw'' where
  idle_iff := h'.idle_iff.trans h.idle_iff
  kind_eq hidle := (h'.kind_eq (h.idle_iff.not.mpr hidle)).trans (h.kind_eq hidle)
  statement_eq := h'.statement_eq.trans h.statement_eq

theorem alike_of_code {raw raw' : List Char} (h : trim (code raw') = trim (code raw)) :
    Alike raw raw' where
  idle_iff := by rw [isIdle_iff, isIdle_iff, h]
  kind_eq := by
    intro hidle
    rw [isIdle_iff] at hidle
    rw [LineKind.ofLine_of_code hidle, LineKind.ofLine_of_code (h ▸ hidle), h]
  statement_eq := by rw [Statement.ofLine, Statement.ofLine, h]

theorem Alike.refl (raw : List Char) : Alike raw raw := alike_of_code rfl

theorem alike_of_allBlank {suf : List Char} (h : AllBlank suf) (l : List Char) : Alike l (l ++ suf) :=
  alike_of_code (trim_code_append allBlank_nil h l)

/-- A change to a line that leaves what it says. -/
inductive LineEdit : List Char → List Char → Prop
  /-- Blanks at both ends. -/
  | indent {pre suf : List Char} (l : List Char) (hpre : AllBlank pre) (hsuf : AllBlank suf)
    (hn : '\n' ∉ pre) (hn' : '\n' ∉ suf) : LineEdit l (pre ++ (l ++ suf))
  /-- A comment. -/
  | comment (l : List Char) {text : List Char} (hn : '\n' ∉ text) : LineEdit l (l ++ ';' :: text)
  /-- Other blanks behind the operation, anywhere. -/
  | respace {pre op rest rest' : List Char} (hpre : AllBlank pre) (hne : op ≠ [])
    (hop : ∀ c ∈ op, isBlank c = false ∧ c ≠ ';') (hrest : ∀ c ∈ rest.head?, isBlank c = true)
    (hrest' : ∀ c ∈ rest'.head?, isBlank c = true) (h : squeeze rest' = squeeze rest)
    (hn : '\n' ∉ rest') : LineEdit (pre ++ (op ++ rest)) (pre ++ (op ++ rest'))

theorem isBlank_head?_code {cs : List Char} (h : ∀ c ∈ cs.head?, isBlank c = true) :
    ∀ c ∈ (code cs).head?, isBlank c = true := by
  cases cs with
  | nil => exact h
  | cons c cs =>
    have hc : c ≠ ';' := by
      rintro rfl
      cases h _ rfl
    rwa [code_cons hc]

/-- **A changed line is read as before.** -/
theorem LineEdit.alike {l l' : List Char} (h : LineEdit l l') : Alike l l' := by
  cases h with
  | indent l hpre hsuf => exact alike_of_code (trim_code_append hpre hsuf l)
  | comment l hn => exact alike_of_code (by rw [code_append_comment])
  | @respace pre op rest rest' hpre hne hop hrest hrest' h hn =>
    have solid : ∀ c ∈ op, isBlank c = false := fun c hc => (hop c hc).1
    have noComment : ';' ∉ op := fun hc => (hop _ hc).2 rfl
    have line (rest : List Char) : trim (code (pre ++ (op ++ rest))) = trim (op ++ code rest) := by
      rw [code_append (hpre.not_mem isBlank_semicolon), code_append noComment, trim_append_left hpre]
    have active (rest : List Char) : ¬IsIdle (pre ++ (op ++ rest)) := by
      rw [isIdle_iff, line, trim_append_of_solid hne solid]
      exact fun hnil => hne (List.append_eq_nil_iff.mp hnil).1
    have same : squeeze (code rest') = squeeze (code rest) := by
      rw [← code_squeeze, ← code_squeeze, h]
    have head := isBlank_head?_code hrest
    have head' := isBlank_head?_code hrest'
    constructor
    case idle_iff => exact iff_of_false (active rest') (active rest)
    case kind_eq =>
      intro _
      rw [LineKind.ofLine_of_code (isIdle_iff.not.mp (active rest)),
        LineKind.ofLine_of_code (isIdle_iff.not.mp (active rest')), line, line]
      exact ofCode_append_congr hne solid head head' same
    case statement_eq =>
      rw [Statement.ofLine_append hne solid (line rest) head,
        Statement.ofLine_append hne solid (line rest') head', Statement.arguments, same,
        Statement.arguments]

theorem LineEdit.not_mem {l l' : List Char} (h : LineEdit l l') (hn : '\n' ∉ l) : '\n' ∉ l' := by
  cases h with
  | indent l hpre hsuf hn' hn'' => simp [hn, hn', hn'']
  | comment l hn' => simp [hn, hn']
  | respace hpre hne hop hrest hrest' h hn' =>
    rw [List.mem_append, List.mem_append, not_or, not_or] at hn ⊢
    exact ⟨hn.1, hn.2.1, hn'⟩

theorem LineEdit.ne_nil {l l' after : List Char} (h : LineEdit l l') (hne : l ++ after ≠ []) :
    l' ++ after ≠ [] := by
  cases h with
  | indent l hpre hsuf hn hn' =>
    intro hnil
    simp only [List.append_eq_nil_iff] at hnil
    exact hne (List.append_eq_nil_iff.mpr ⟨hnil.1.2.1, hnil.2⟩)
  | comment l hn => simp
  | respace hpre hop hsolid hrest hrest' h hn => simp [hop]

end ByteMachine.Source
