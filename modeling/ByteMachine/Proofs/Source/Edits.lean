import ByteMachine.Proofs.Source.Correspondence
import ByteMachine.Proofs.Source.Diagnosis
import ByteMachine.Proofs.Text.Lines

/-!
# Edits that leave the program

A source text can be laid out anew: lines without code come and go, lines are indented and commented, and
line ends change. Each such edit of the text (`Edit`) says where it takes the lines, and any number of them
are `Edits`.

* `Edit.corresponds`: an edit leaves the lines with code or a label, wherever it takes them. The text is
  cut at a line for this (`lines_append`), and at the end of a line (`exists_lines_append`).
* `assemble_of_edits`: a text that assembles still gives the same program, and one that does not still
  has the same error in the same line, wherever the line is now.
-/

namespace ByteMachine.Source

open Text

/-- A change to a text that leaves what it says. Line `k` of the text is line `f k` of the other. A text is
split only where a line starts, or in front of its end, so that the parts have lines of their own. -/
inductive Edit : List Char → (Nat → Nat) → List Char → Prop
  /-- An idle line in front of a line. -/
  | insert {before l : List Char} (after : List Char) (starts : StartsLine before) (idle : IsIdle l)
    (hn : '\n' ∉ l) :
    Edit (before ++ after) (fun k => if k < (lines before).length then k else k + 1)
      (before ++ (l ++ '\n' :: after))
  /-- An idle line at the end of the text. -/
  | append {text l : List Char} (starts : StartsLine text) (idle : IsIdle l) (hn : '\n' ∉ l) :
    Edit text id (text ++ l)
  /-- An idle line at the end of a text that does not end its last line. -/
  | extend {text l : List Char} (opened : ¬StartsLine text) (idle : IsIdle l) (hn : '\n' ∉ l) :
    Edit text id (text ++ '\n' :: l)
  /-- A carriage return at the end of a line. -/
  | carriageReturn (before after : List Char) :
    Edit (before ++ '\n' :: after) id (before ++ '\r' :: '\n' :: after)
  /-- A change to one line, without its end. -/
  | line {before l l' after : List Char} (starts : StartsLine before) (ends : EndsLine after)
    (hne : l ++ after ≠ []) (hn : '\n' ∉ l) (h : LineEdit l l') :
    Edit (before ++ (l ++ after)) id (before ++ (l' ++ after))

/-- Edits one after another. -/
inductive Edits : List Char → (Nat → Nat) → List Char → Prop
  | refl (text : List Char) : Edits text id text
  | tail {text text' text'' : List Char} {f g : Nat → Nat} (h : Edits text f text')
    (hg : Edit text' g text'') : Edits text (g ∘ f) text''

/-! ### One edit -/

theorem forall₂_alike_refl (raws : List (List Char)) : List.Forall₂ Alike raws raws :=
  List.forall₂_same.mpr fun raw _ => .refl raw

theorem isIdle_of_mem_lines {l : List Char} (idle : IsIdle l) (hn : '\n' ∉ l) :
    ∀ raw ∈ lines l, IsIdle raw := by
  by_cases hnil : l = []
  · simp [hnil]
  · rw [lines_eq_singleton hnil hn]
    simpa using idle

theorem corresponds_of_alike {before l l' after : List Char} (starts : StartsLine before)
    (ends : EndsLine after) (hne : l ++ after ≠ []) (hne' : l' ++ after ≠ []) (hn : '\n' ∉ l)
    (hn' : '\n' ∉ l') (h : Alike l l') :
    List.Forall₂ (Corresponds id) (activeLines (before ++ (l ++ after)))
      (activeLines (before ++ (l' ++ after))) := by
  obtain ⟨ls, cut⟩ := exists_lines_append ends
  obtain ⟨first, suf, rfl, hsuf, heq⟩ := cut l hn hne
  obtain ⟨first', suf', rfl, hsuf', heq'⟩ := cut l' hn' hne'
  have alike : Alike first first' :=
    ((alike_of_allBlank hsuf first).trans h).trans (alike_of_allBlank hsuf' first').symm
  rw [activeLines, activeLines, lines_append starts, lines_append starts, heq, heq']
  exact forall₂_place_append (forall₂_alike_refl _) (List.forall_mem_nil _)
    (.cons alike (forall₂_alike_refl ls)) (by simp) (by simp)

/-- **An edit leaves the lines** that are not idle, and takes them where it says. -/
theorem Edit.corresponds {text text' : List Char} {f : Nat → Nat} (h : Edit text f text') :
    List.Forall₂ (Corresponds f) (activeLines text) (activeLines text') := by
  cases h with
  | @insert before l after starts idle hn =>
    -- the end of the line may take a carriage return from it, and then it is idle all the same
    obtain ⟨first, suf, rfl, hsuf, heq⟩ := exists_lines_append_newline hn after
    have none : IsIdle first := (alike_of_allBlank hsuf first).idle_iff.mp idle
    rw [activeLines, activeLines, lines_append starts, lines_append starts, heq]
    have only : ∀ raw ∈ [first], IsIdle raw := by simpa using none
    refine forall₂_place_append (forall₂_alike_refl _) only (forall₂_alike_refl _)
      (fun k hk => if_pos hk) fun k _ => ?_
    rw [if_neg (by omega), List.length_singleton]
    omega
  | @append _ l starts idle hn =>
    have placed := forall₂_place_append (f := id) (forall₂_alike_refl (lines text))
      (isIdle_of_mem_lines idle hn) .nil (by simp) (by simp)
    rw [List.append_nil, List.append_nil, ← lines_append starts] at placed
    exact placed
  | @extend _ l opened idle hn =>
    obtain ⟨before, last, rfl, starts, hlast⟩ := exists_startsLine_append text
    have hne : last ≠ [] := by
      rintro rfl
      rw [List.append_nil] at opened
      exact opened starts
    obtain ⟨first, suf, rfl, hsuf, heq⟩ := exists_lines_append_newline hlast l
    have alike := (alike_of_allBlank hsuf first).symm
    have placed := forall₂_place_append (f := id)
      (List.rel_append (forall₂_alike_refl (lines before)) (.cons alike .nil))
      (isIdle_of_mem_lines idle hn) .nil (by simp) (by simp)
    rw [activeLines, activeLines, lines_append starts, lines_eq_singleton hne hlast, List.append_assoc,
      lines_append starts, heq]
    simpa using placed
  | carriageReturn before after =>
    obtain ⟨b, l, rfl, starts, hn⟩ := exists_startsLine_append before
    have blank : AllBlank ['\r'] := by simp [AllBlank, isBlank]
    have moved := corresponds_of_alike starts (.newline after) (by simp) (by simp) hn (by simp [hn])
      (alike_of_allBlank blank l)
    simpa using moved
  | @line before l l' after starts ends hne hn h =>
    exact corresponds_of_alike starts ends hne (h.ne_nil hne) hn (h.not_mem hn) h.alike

/-! ### Any number of edits -/

theorem forall₂_corresponds_trans {f g : Nat → Nat} {ps ps' ps'' : List PlacedLine}
    (h : List.Forall₂ (Corresponds f) ps ps') (h' : List.Forall₂ (Corresponds g) ps' ps'') :
    List.Forall₂ (Corresponds (g ∘ f)) ps ps'' := by
  induction h generalizing ps'' with
  | nil =>
    cases h'
    exact .nil
  | cons hp _ ih =>
    cases h' with
    | cons hp' h' => exact .cons (hp.trans hp') (ih h')

theorem Edits.corresponds {text text' : List Char} {f : Nat → Nat} (h : Edits text f text') :
    List.Forall₂ (Corresponds f) (activeLines text) (activeLines text') := by
  induction h with
  | refl => exact List.forall₂_same.mpr fun p _ => .refl p
  | tail _ hg ih => exact forall₂_corresponds_trans ih hg.corresponds

/-! ### Programs -/

/-- **Edits leave the program**: a text that assembles gives the same program after any edits, and one that
does not has the same error, at the line where the edits have taken its line. -/
theorem assemble_of_edits {source source' : String} {f : Nat → Nat}
    (h : Edits source.toList f source'.toList) :
    (∀ p, assemble source = .ok p → ∃ p', assemble source' = .ok p' ∧ Program.Same p p') ∧
      ∀ e, assemble source = .error e → ∃ raw, (lines source'.toList)[f e.line]? = some raw ∧
        Statement.ofLine raw = Statement.ofLine e.text.toList ∧
        assemble source' = .error ⟨f e.line, String.ofList (trim raw), e.cause⟩ := by
  have outcomes : Outcomes Program.Same (ErrorMoves f) (assemble source) (assemble source') :=
    outcomes_assemble h.corresponds
  constructor
  · intro p hp
    rw [hp] at outcomes
    cases hp' : assemble source' with
    | ok p' =>
      rw [hp'] at outcomes
      cases outcomes with
      | ok same => exact ⟨p', rfl, same⟩
    | error e =>
      rw [hp'] at outcomes
      cases outcomes
  · intro e he
    rw [he] at outcomes
    cases he' : assemble source' with
    | ok p' =>
      rw [he'] at outcomes
      cases outcomes
    | error e' =>
      obtain ⟨raw, hraw, text⟩ := exists_line_of_error he'
      rw [he'] at outcomes
      cases outcomes with
      | error moves =>
        obtain ⟨line', text', cause'⟩ := e'
        obtain ⟨rfl, rfl, reads⟩ := moves
        subst text
        refine ⟨raw, hraw, ?_, rfl⟩
        rw [← reads, String.toList_ofList, Statement.ofLine_trim]

theorem exists_edits_commented {l l' : List Char} (h : LineEdit l l') (hn : '\n' ∉ l) :
    ∃ f : Nat → Nat, f 0 = 1 ∧
      Edits (l ++ ['\n']) f (['\t', ';', 'x', '\n'] ++ ((l' ++ [';', 'y']) ++ ['\n'])) := by
  have starts : StartsLine [] := .inl rfl
  have idle : IsIdle ['\t', ';', 'x'] := .inr ⟨['\t'], ['x'], by simp [AllBlank, isBlank], rfl⟩
  have changed : Edit (l ++ ['\n']) id (l' ++ ['\n']) :=
    .line starts (.newline []) (by simp) hn h
  have commented : Edit (l' ++ ['\n']) id ((l' ++ [';', 'y']) ++ ['\n']) :=
    .line starts (.newline []) (by simp) (h.not_mem hn) (.comment l' (by decide))
  have inserted := Edit.insert ((l' ++ [';', 'y']) ++ ['\n']) starts idle (by decide)
  exact ⟨_, rfl, ((Edits.refl _).tail changed |>.tail commented).tail inserted⟩

/-- A line of data gives the same bytes behind a comment, with a comment and other blanks, and a line that
is wrong is as wrong there. -/
theorem assemble_of_edits_commented :
    (∃ p p', assemble ".DATA 1, 2\n" = .ok p ∧ assemble "\t;x\n.DATA  1 ,2;y\n" = .ok p' ∧
      Program.Same p p') ∧
      assemble "\t;x\nNOPE  12;y\n" = .error ⟨1, "NOPE  12;y", .argumentCount "NOPE" 0 ["12"]⟩ := by
  have respaced {op rest rest' : List Char} (hne : op ≠ [])
      (hop : op.all (fun c => !isBlank c && c != ';') = true) (h : squeeze rest' = squeeze rest)
      (hn : '\n' ∉ rest') : LineEdit (op ++ ' ' :: rest) (op ++ ' ' :: rest') := by
    have space (cs : List Char) : ∀ c ∈ (' ' :: cs).head?, isBlank c = true := by simp [isBlank]
    have hop : ∀ c ∈ op, isBlank c = false ∧ c ≠ ';' := by simpa using hop
    have h : squeeze (' ' :: rest') = squeeze (' ' :: rest) := h
    exact .respace allBlank_nil hne hop (space rest) (space rest') h (by simp [hn])
  constructor
  · have line : LineEdit (".DATA".toList ++ ' ' :: "1, 2".toList)
        (".DATA".toList ++ ' ' :: " 1 ,2".toList) :=
      respaced (by decide) (by decide) (by decide) (by decide)
    obtain ⟨f, -, edits⟩ := exists_edits_commented line (by decide)
    have edits : Edits ".DATA 1, 2\n".toList f "\t;x\n.DATA  1 ,2;y\n".toList := edits
    have h : assemble ".DATA 1, 2\n" = .ok ⟨Image.tag ++ [1, 2], [(0, ⟨0, 0, ".DATA 1, 2"⟩)], []⟩ := by
      decide +kernel
    obtain ⟨p', hp', same⟩ := (assemble_of_edits edits).1 _ h
    exact ⟨_, p', h, hp', same⟩
  · have line : LineEdit ("NOPE".toList ++ ' ' :: "1 2".toList)
        ("NOPE".toList ++ ' ' :: " 12".toList) :=
      respaced (by decide) (by decide) (by decide) (by decide)
    obtain ⟨f, hf, edits⟩ := exists_edits_commented line (by decide)
    have edits : Edits "NOPE 1 2\n".toList f "\t;x\nNOPE  12;y\n".toList := edits
    have h : assemble "NOPE 1 2\n" = .error ⟨0, "NOPE 1 2", .argumentCount "NOPE" 0 ["12"]⟩ := by
      decide +kernel
    obtain ⟨raw, hraw, -, he⟩ := (assemble_of_edits edits).2 _ h
    rw [hf] at hraw he
    obtain rfl : "NOPE  12;y".toList = raw := Option.some.inj hraw
    exact he

end ByteMachine.Source
