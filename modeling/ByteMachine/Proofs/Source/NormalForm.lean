import ByteMachine.Proofs.Source.Alike

/-!
# Lines and normal statements

A line is cut into blanks, its operation, the text behind the operation, and a comment (`IsCut`). Its
statement is read off the second and the third of these, and of the third only what is no blank counts.
So every line says a normal statement, and a normal statement is what all its spellings say.

* `exists_isCut`: every line has a cut;
* `IsCut.ofLine_eq`: the statement of a line, from any cut;
* `IsSpelling.isCut`: a spelling of a normal statement is cut at its operation;
* `ofLine_normalForm`: from lines to normal statements and back.
-/

namespace ByteMachine.Source

open Text

namespace Statement

/-! ### Cutting a line -/

/-- The line `raw` is blanks, an operation, the text behind it up to the first semicolon, and a comment.
Without an operation there is no text behind it. -/
structure IsCut (raw pre op text comment : List Char) : Prop where
  raw_eq : raw = pre ++ (op ++ (text ++ comment))
  allBlank : AllBlank pre
  solid : ∀ c ∈ op, isBlank c = false ∧ c ≠ ';'
  text_nil : op = [] → text = []
  text_head : ∀ c ∈ text.head?, isBlank c = true
  no_semicolon : ';' ∉ text
  comment_head : ∀ c ∈ comment.head?, c = ';'

/-- **Every line has a cut.** -/
theorem exists_isCut (raw : List Char) : ∃ pre op text comment, IsCut raw pre op text comment := by
  obtain ⟨pre, blank, split⟩ := exists_blanks_append_trimLeft (code raw)
  generalize hbody : trimLeft (code raw) = body at split
  have noComment : ∀ c ∈ body, c ≠ ';' := by
    rintro c hc rfl
    exact not_mem_code raw (split ▸ List.mem_append_right pre hc)
  refine ⟨pre, body.takeWhile isSolid, body.dropWhile isSolid, raw.dropWhile (· != ';'), ?_⟩
  exact
    { raw_eq := by
        rw [← List.append_assoc (body.takeWhile isSolid), List.takeWhile_append_dropWhile,
          ← List.append_assoc, ← split, code_append_dropWhile]
      allBlank := blank
      solid := by
        intro c hc
        have hsolid := List.mem_takeWhile_imp hc
        exact ⟨by simpa [isSolid] using hsolid, noComment c ((List.takeWhile_sublist _).mem hc)⟩
      text_nil := by
        -- what is left starts with a character that is no blank, so with an operation
        intro none
        cases body with
        | nil => rfl
        | cons c rest =>
          have hc : isSolid c = true := by simp [isSolid, isBlank_of_trimLeft_eq_cons hbody]
          rw [List.takeWhile_cons_of_pos hc] at none
          cases none
      text_head := isBlank_head_dropWhile body
      no_semicolon := fun hc => noComment _ ((List.dropWhile_sublist _).mem hc) rfl
      comment_head := by
        intro c hc
        have h := List.head?_dropWhile_not (· != ';') raw
        rw [Option.mem_def.mp hc] at h
        simpa using h }

namespace IsCut

variable {raw pre op text comment : List Char} (h : IsCut raw pre op text comment)
include h

theorem code_eq : code raw = pre ++ (op ++ text) := by
  have none : code comment = [] := by
    have first := h.comment_head
    cases comment with
    | nil => rfl
    | cons c rest =>
      obtain rfl := first c rfl
      rfl
  rw [h.raw_eq, code_append (h.allBlank.not_mem isBlank_semicolon),
    code_append fun hc => (h.solid _ hc).2 rfl, code_append h.no_semicolon, none, List.append_nil]

theorem op_eq_nil_iff : op = [] ↔ AllBlank (code raw) := by
  rw [h.code_eq]
  constructor
  · intro none
    rw [none, h.text_nil none, List.append_nil, List.append_nil]
    exact h.allBlank
  · intro blank
    by_contra hne
    obtain ⟨c, rest, hop⟩ := List.exists_cons_of_ne_nil hne
    have first : c ∈ op := hop ▸ List.mem_cons_self
    have hc := blank c (List.mem_append_right _ (List.mem_append_left _ first))
    rw [(h.solid c first).1] at hc
    cases hc

/-- **The statement of a line** is that of its cut. -/
theorem ofLine_eq : ofLine raw = ⟨String.ofList op, (arguments text).map String.ofList⟩ := by
  by_cases hop : op = []
  · have none : trim (code raw) = [] := trim_eq_nil_iff.mpr (h.op_eq_nil_iff.mp hop)
    rw [ofLine, none, hop, h.text_nil hop]
    rfl
  · refine ofLine_append hop (fun c hc => (h.solid c hc).1) ?_ h.text_head
    rw [h.code_eq, trim_append_left h.allBlank]

theorem isNormal : (ofLine raw).IsNormal := by
  rw [h.ofLine_eq]
  exact
    { op_solid := by simpa using h.solid
      op_empty := by
        intro empty
        have none : op = [] := by simpa using empty
        rw [h.text_nil none]
        rfl
      isArgument := by
        intro s hs
        obtain ⟨arg, harg, rfl⟩ := List.mem_map.mp hs
        rw [IsArgument, String.toList_ofList]
        refine ⟨ne_nil_of_mem_arguments harg, fun c hc => ?_⟩
        refine ⟨isBlank_of_mem_arguments harg hc, ne_comma_of_mem_arguments harg hc, ?_⟩
        rintro rfl
        exact h.no_semicolon (mem_of_mem_arguments harg hc) }

end IsCut

/-! ### Spelling a statement -/

theorem mem_intercalate {sep : List Char} {pieces : List (List Char)} {c : Char}
    (h : c ∈ sep.intercalate pieces) : c ∈ sep ∨ ∃ piece ∈ pieces, c ∈ piece := by
  induction pieces with
  | nil => simp at h
  | cons piece pieces ih =>
    cases pieces with
    | nil =>
      rw [List.intercalate_singleton] at h
      exact .inr ⟨piece, by simp, h⟩
    | cons next pieces =>
      rw [List.intercalate_cons_cons, List.mem_append, List.mem_append] at h
      rcases h with (h | h) | h
      · exact .inr ⟨piece, by simp, h⟩
      · exact .inl h
      · exact (ih h).imp_right fun ⟨other, hp, hc⟩ => ⟨other, List.mem_cons_of_mem _ hp, hc⟩

/-- A text that without its blanks is pieces with commas between them is cut at these commas. -/
theorem arguments_of_squeeze {text : List Char} {pieces : List (List Char)}
    (h : ∀ piece ∈ pieces, piece ≠ [] ∧ ∀ c ∈ piece, isBlank c = false ∧ c ≠ ',' ∧ c ≠ ';')
    (squeezed : squeeze text = [','].intercalate pieces) : arguments text = pieces := by
  rw [arguments, squeezed]
  by_cases hne : pieces = []
  · rw [hne]
    rfl
  · have noComma : ∀ piece ∈ pieces, ',' ∉ piece := fun piece hp hc => ((h piece hp).2 _ hc).2.1 rfl
    rw [List.splitOn_intercalate _ noComma hne, List.filter_eq_self]
    intro piece hp
    simpa using (h piece hp).1

/-- The arguments with commas between them. -/
def joined (t : Statement) : List Char := [','].intercalate (t.args.map String.toList)

/-- The statement as a line without blanks but the one behind the operation. -/
def spelled (t : Statement) : List Char := t.op.toList ++ ' ' :: t.joined

/-- The line is the operation, a space and the arguments with commas between them, with any blanks in
front of the operation and anywhere behind the space, and a comment or none. -/
structure IsSpelling (t : Statement) (raw pre text comment : List Char) : Prop where
  raw_eq : raw = pre ++ (t.op.toList ++ (' ' :: text ++ comment))
  allBlank : AllBlank pre
  squeeze_eq : squeeze text = t.joined
  comment_head : ∀ c ∈ comment.head?, c = ';'

namespace IsNormal

variable {t : Statement} (ht : t.IsNormal)
include ht

theorem of_mem_joined {c : Char} (hc : c ∈ t.joined) : isBlank c = false ∧ c ≠ ';' := by
  rcases mem_intercalate hc with hc | ⟨piece, hp, hc⟩
  · obtain rfl := List.mem_singleton.mp hc
    decide
  · obtain ⟨s, hs, rfl⟩ := List.mem_map.mp hp
    obtain ⟨blank, -, semicolon⟩ := (ht.isArgument s hs).2 c hc
    exact ⟨blank, semicolon⟩

theorem arguments_eq {text : List Char} (h : squeeze text = t.joined) :
    (arguments text).map String.ofList = t.args := by
  have each : ∀ piece ∈ t.args.map String.toList,
      piece ≠ [] ∧ ∀ c ∈ piece, isBlank c = false ∧ c ≠ ',' ∧ c ≠ ';' := by
    intro piece hp
    obtain ⟨s, hs, rfl⟩ := List.mem_map.mp hp
    exact ht.isArgument s hs
  rw [arguments_of_squeeze each h, List.map_map]
  simp

end IsNormal

theorem IsSpelling.isCut {t : Statement} {raw pre text comment : List Char} (ht : t.IsNormal)
    (hop : t.op ≠ "") (h : t.IsSpelling raw pre text comment) :
    IsCut raw pre t.op.toList (' ' :: text) comment where
  raw_eq := h.raw_eq
  allBlank := h.allBlank
  solid := ht.op_solid
  text_nil none := absurd (String.toList_eq_nil_iff.mp none) hop
  text_head := by simp [isBlank]
  no_semicolon := by
    intro hc
    rcases List.mem_cons.mp hc with hc | hc
    · exact absurd hc (by decide)
    · have kept : ';' ∈ squeeze text := List.mem_filter.mpr ⟨hc, by decide⟩
      exact (ht.of_mem_joined (h.squeeze_eq ▸ kept)).2 rfl
  comment_head := h.comment_head

theorem ofLine_of_isSpelling {t : Statement} {raw pre text comment : List Char} (ht : t.IsNormal)
    (hop : t.op ≠ "") (h : t.IsSpelling raw pre text comment) : ofLine raw = t := by
  have args : (arguments (' ' :: text)).map String.ofList = t.args := ht.arguments_eq h.squeeze_eq
  rw [(h.isCut ht hop).ofLine_eq, args, String.ofList_toList]

theorem isSpelling_spelled {t : Statement} (ht : t.IsNormal) :
    t.IsSpelling t.spelled [] t.joined [] where
  raw_eq := by simp [spelled]
  allBlank := allBlank_nil
  squeeze_eq := squeeze_eq_self fun _ hc => (ht.of_mem_joined hc).1
  comment_head := by simp

theorem ofLine_spelled {t : Statement} (ht : t.IsNormal) : ofLine t.spelled = t := by
  by_cases hop : t.op = ""
  · obtain ⟨op, args⟩ := t
    obtain rfl : op = "" := hop
    obtain rfl : args = [] := ht.op_empty rfl
    rfl
  · exact ofLine_of_isSpelling ht hop (isSpelling_spelled ht)

/-- **Lines and normal statements.** Every line says a normal statement, whose operation is empty only
if there is no code, and whose arguments depend only on what is no blank behind the operation; every
spelling of a normal statement says that statement, and one of them is printed for it. -/
theorem ofLine_normalForm :
    (∀ raw, (ofLine raw).IsNormal ∧ ((ofLine raw).op = "" ↔ AllBlank (code raw)) ∧
      ∃ pre text comment, IsCut raw pre (ofLine raw).op.toList text comment) ∧
    (∀ raw pre op text comment raw' pre' op' text' comment', IsCut raw pre op text comment →
      IsCut raw' pre' op' text' comment' → squeeze text' = squeeze text →
        (ofLine raw').args = (ofLine raw).args) ∧
    (∀ t raw pre text comment, IsNormal t → t.op ≠ "" → t.IsSpelling raw pre text comment →
      ofLine raw = t) ∧
    (∀ t, IsNormal t → ofLine t.spelled = t) ∧
    ∀ raw, ofLine (ofLine raw).spelled = ofLine raw := by
  have normal (raw : List Char) : (ofLine raw).IsNormal := by
    obtain ⟨pre, op, text, comment, cut⟩ := exists_isCut raw
    exact cut.isNormal
  refine ⟨fun raw => ⟨normal raw, ?_⟩, ?_, ?_, fun t => ofLine_spelled, fun raw =>
    ofLine_spelled (normal raw)⟩
  · obtain ⟨pre, op, text, comment, cut⟩ := exists_isCut raw
    have hop : (ofLine raw).op.toList = op := by rw [cut.ofLine_eq, String.toList_ofList]
    rw [← String.toList_eq_nil_iff, hop]
    exact ⟨cut.op_eq_nil_iff, pre, text, comment, cut⟩
  · intro raw pre op text comment raw' pre' op' text' comment' cut cut' same
    rw [cut.ofLine_eq, cut'.ofLine_eq, arguments, same, arguments]
  · exact fun t raw pre text comment ht hop => ofLine_of_isSpelling ht hop

/-- Blanks inside an argument, before a comma and at both ends, and a comment. -/
theorem ofLine_normalForm_set :
    IsNormal ⟨"SETT", ["r0", "10"]⟩ ∧
      IsSpelling ⟨"SETT", ["r0", "10"]⟩ " SETT r0\t,1 0 ;x;".toList [' '] "r0\t,1 0 ".toList
        [';', 'x', ';'] ∧
      ofLine " SETT r0\t,1 0 ;x;".toList = ⟨"SETT", ["r0", "10"]⟩ ∧
      (ofLine "SETT\t, r0 ,,10".toList).args = (ofLine "SETT ,r0,, 1 0".toList).args := by
  obtain ⟨every, same, read, -⟩ := ofLine_normalForm
  have said : ofLine "SETT r0,10".toList = ⟨"SETT", ["r0", "10"]⟩ := by decide +kernel
  have normal : IsNormal ⟨"SETT", ["r0", "10"]⟩ := said ▸ (every _).1
  have spelling : IsSpelling ⟨"SETT", ["r0", "10"]⟩ " SETT r0\t,1 0 ;x;".toList [' ']
      "r0\t,1 0 ".toList [';', 'x', ';'] :=
    ⟨by decide +kernel, by simp [AllBlank, isBlank], by decide +kernel, by simp⟩
  have cut : IsCut "SETT ,r0,, 1 0".toList [] "SETT".toList (' ' :: ",r0,, 1 0".toList) [] :=
    ⟨by decide +kernel, allBlank_nil, normal.op_solid, by decide +kernel, by simp [isBlank],
      by decide +kernel, by simp⟩
  have cut' : IsCut "SETT\t, r0 ,,10".toList [] "SETT".toList ('\t' :: ", r0 ,,10".toList) [] :=
    ⟨by decide +kernel, allBlank_nil, normal.op_solid, by decide +kernel, by simp [isBlank],
      by decide +kernel, by simp⟩
  exact ⟨normal, spelling, read _ _ _ _ _ normal (by decide) spelling,
    same _ _ _ _ _ _ _ _ _ _ cut cut' (by decide +kernel)⟩

end Statement

end ByteMachine.Source
