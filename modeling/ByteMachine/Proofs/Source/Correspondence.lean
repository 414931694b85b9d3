import ByteMachine.Proofs.Source.Alike
import ByteMachine.Proofs.Source.Layout
import ByteMachine.Proofs.Traversal
import ByteMachine.Source.Program

/-!
# Texts whose lines correspond

Of the lines of a text only the active ones count, those with code or a label. Two texts assemble alike
when their active lines stand for each other, wherever they stand in the two texts.

* `filterMap_definition?_isActive`, `filter_holdsCode_isActive`, `redefinition?_isActive`: all that the
  assembler makes of a text it makes of its active lines.
* `Corresponds f`: a placed line is that of another text, at line `f k` instead of line `k`. Lines that
  read alike correspond in their places, with idle lines put in (`forall₂_place_append`).
* `outcomes_assemble`: texts with corresponding active lines give the same program, or the same error at
  the line that belongs to its line.
-/

namespace ByteMachine.Source

open Text

/-! ### Active lines -/

/-- The line holds code or a label. -/
def PlacedLine.isActive (p : PlacedLine) : Bool :=
  match p.kind with
  | .blank | .comment => false
  | .label _ | .data | .instruction => true

section
variable {p : PlacedLine}

theorem PlacedLine.isActive_of_text {raw : List Char} (h : p.text = String.ofList (trim raw)) :
    p.isActive = true ↔ ¬IsIdle raw := by
  rw [isActive, kind_of_text h]
  constructor
  · intro ha hidle
    rcases LineKind.ofLine_of_isIdle hidle with hk | hk
    · rw [hk] at ha
      cases ha
    · rw [hk] at ha
      cases ha
  · intro hidle
    obtain ⟨hblank, hcomment⟩ := LineKind.ofLine_ne_of_not_isIdle hidle
    split
    · contradiction
    · contradiction
    · rfl
    · rfl
    · rfl

theorem PlacedLine.of_not_isActive (h : p.isActive = false) :
    p.definition? = none ∧ p.holdsCode = false ∧ p.size = 0 := by
  unfold isActive at h
  unfold definition? holdsCode size
  split at h
  · simp [*]
  · simp [*]
  · cases h
  · cases h
  · cases h

end

/-- The active lines of a text in their places. -/
def activeLines (text : List Char) : List PlacedLine :=
  (place 0 0 (lines text)).filter PlacedLine.isActive

theorem filterMap_definition?_isActive (ps : List PlacedLine) :
    (ps.filter PlacedLine.isActive).filterMap PlacedLine.definition? =
      ps.filterMap PlacedLine.definition? := by
  induction ps with
  | nil => rfl
  | cons p ps ih =>
    cases ha : p.isActive with
    | true => rw [List.filter_cons_of_pos ha, List.filterMap_cons, List.filterMap_cons, ih]
    | false =>
      rw [List.filter_cons_of_neg (by simp [ha]), ih,
        List.filterMap_cons_none (PlacedLine.of_not_isActive ha).1]

theorem filter_holdsCode_isActive (ps : List PlacedLine) :
    (ps.filter PlacedLine.isActive).filter PlacedLine.holdsCode = ps.filter PlacedLine.holdsCode := by
  rw [List.filter_filter]
  refine List.filter_congr fun p _ => ?_
  cases ha : p.isActive with
  | true => rw [Bool.and_true]
  | false => rw [(PlacedLine.of_not_isActive ha).2.1, Bool.and_false]

theorem redefinition?_isActive (seen : List String) (ps : List PlacedLine) :
    redefinition? seen (ps.filter PlacedLine.isActive) = redefinition? seen ps := by
  induction ps generalizing seen with
  | nil => rfl
  | cons p ps ih =>
    cases ha : p.isActive with
    | true =>
      rw [List.filter_cons_of_pos ha, redefinition?, redefinition?]
      simp only [ih]
    | false =>
      rw [List.filter_cons_of_neg (by simp [ha]), ih, redefinition?,
        (PlacedLine.of_not_isActive ha).1]

/-! ### Corresponding lines -/

/-- The second line stands in its text for the first: it is at the line that belongs to that of the
first, at the same address, and reads the same. -/
structure Corresponds (f : Nat → Nat) (p p' : PlacedLine) : Prop where
  line_eq : p'.line = f p.line
  address_eq : p'.address = p.address
  kind_eq : p'.kind = p.kind
  statement_eq : p'.statement = p.statement

/-- The second error is the first one, at the line that belongs to its line. -/
structure ErrorMoves (f : Nat → Nat) (e e' : LocatedError) : Prop where
  line_eq : e'.line = f e.line
  cause_eq : e'.cause = e.cause
  statement_eq : Statement.ofLine e'.text.toList = Statement.ofLine e.text.toList

section
variable {f g : Nat → Nat} {p p' p'' : PlacedLine}

theorem Corresponds.refl (p : PlacedLine) : Corresponds id p p := ⟨rfl, rfl, rfl, rfl⟩

theorem Corresponds.trans (h : Corresponds f p p') (h' : Corresponds g p' p'') :
    Corresponds (g ∘ f) p p'' where
  line_eq := h'.line_eq.trans (congrArg g h.line_eq)
  address_eq := h'.address_eq.trans h.address_eq
  kind_eq := h'.kind_eq.trans h.kind_eq
  statement_eq := h'.statement_eq.trans h.statement_eq

theorem Corresponds.definition?_eq (h : Corresponds f p p') : p'.definition? = p.definition? := by
  rw [PlacedLine.definition?, PlacedLine.definition?, h.kind_eq, h.address_eq]

theorem Corresponds.holdsCode_eq (h : Corresponds f p p') : p'.holdsCode = p.holdsCode := by
  rw [PlacedLine.holdsCode, PlacedLine.holdsCode, h.kind_eq]

theorem Corresponds.error (h : Corresponds f p p') (cause : SourceError) :
    ErrorMoves f (p.error cause) (p'.error cause) :=
  ⟨h.line_eq, rfl, h.statement_eq⟩

theorem Corresponds.size_eq (h : Corresponds f p p') : p'.size = p.size := by
  rw [PlacedLine.size, PlacedLine.size, h.kind_eq, h.statement_eq]

end

/-! ### Places of lines that read alike -/

section
variable {f : Nat → Nat}

theorem Alike.placed {raw raw' : List Char} (h : Alike raw raw') {line line' : Nat} (address : Nat)
    (hf : f line = line') (hidle : ¬IsIdle raw) :
    Corresponds f ⟨line, address, String.ofList (trim raw)⟩
      ⟨line', address, String.ofList (trim raw')⟩ where
  line_eq := hf.symm
  address_eq := rfl
  kind_eq := by rw [PlacedLine.kind_of_text rfl, PlacedLine.kind_of_text rfl, h.kind_eq hidle]
  statement_eq := by
    rw [PlacedLine.statement_of_text rfl, PlacedLine.statement_of_text rfl, h.statement_eq]

theorem place_cons_of_isIdle {raw : List Char} (h : IsIdle raw) (line address : Nat)
    (raws : List (List Char)) :
    (place line address (raw :: raws)).filter PlacedLine.isActive =
        (place (line + 1) address raws).filter PlacedLine.isActive ∧
      totalSize (place line address (raw :: raws)) = totalSize (place (line + 1) address raws) := by
  have idle : PlacedLine.isActive ⟨line, address, String.ofList (trim raw)⟩ = false := by
    rw [← Bool.not_eq_true, PlacedLine.isActive_of_text rfl, not_not]
    exact h
  have size := (PlacedLine.of_not_isActive idle).2.2
  rw [place, size, Nat.add_zero, List.filter_cons_of_neg (by simp [idle]), totalSize, size, Nat.zero_add]
  exact ⟨rfl, rfl⟩

theorem place_of_isIdle {raws : List (List Char)} (h : ∀ raw ∈ raws, IsIdle raw) (line address : Nat) :
    (place line address raws).filter PlacedLine.isActive = [] ∧
      totalSize (place line address raws) = 0 := by
  induction raws generalizing line with
  | nil => exact ⟨rfl, rfl⟩
  | cons raw raws ih =>
    rw [List.forall_mem_cons] at h
    obtain ⟨active, size⟩ := place_cons_of_isIdle h.1 line address raws
    rw [active, size]
    exact ih h.2 (line + 1)

theorem forall₂_place_of_alike {raws raws' : List (List Char)} (h : List.Forall₂ Alike raws raws')
    {line line' : Nat} (address : Nat) (hf : ∀ k < raws.length, f (line + k) = line' + k) :
    List.Forall₂ (Corresponds f) ((place line address raws).filter PlacedLine.isActive)
        ((place line' address raws').filter PlacedLine.isActive) ∧
      totalSize (place line' address raws') = totalSize (place line address raws) := by
  induction h generalizing line line' address with
  | nil => exact ⟨.nil, rfl⟩
  | @cons raw raw' raws raws' h _ ih =>
    have next : ∀ k < raws.length, f (line + 1 + k) = line' + 1 + k := by
      intro k hk
      have hk' := hf (k + 1) (by simpa using hk)
      rw [show line + 1 + k = line + (k + 1) by omega, hk']
      omega
    -- an idle line is dropped on both sides, and any other line takes as many bytes as before
    by_cases hidle : IsIdle raw
    · obtain ⟨active, size⟩ := place_cons_of_isIdle hidle line address raws
      obtain ⟨active', size'⟩ := place_cons_of_isIdle (h.idle_iff.mpr hidle) line' address raws'
      rw [active, size, active', size']
      exact ih address next
    · have first : Corresponds f ⟨line, address, String.ofList (trim raw)⟩
          ⟨line', address, String.ofList (trim raw')⟩ := h.placed address (hf 0 (by simp)) hidle
      have active : PlacedLine.isActive ⟨line, address, String.ofList (trim raw)⟩ = true :=
        (PlacedLine.isActive_of_text rfl).mpr hidle
      have active' : PlacedLine.isActive ⟨line', address, String.ofList (trim raw')⟩ = true :=
        (PlacedLine.isActive_of_text rfl).mpr (h.idle_iff.not.mpr hidle)
      rw [place, place, List.filter_cons_of_pos active, List.filter_cons_of_pos active', totalSize,
        totalSize, first.size_eq]
      obtain ⟨rest, size⟩ := ih (address + PlacedLine.size ⟨line, address, String.ofList (trim raw)⟩) next
      exact ⟨.cons first rest, by rw [size]⟩

/-- **Lines that read alike correspond in their places**, with idle lines put between them. -/
theorem forall₂_place_append {as as' idle bs bs' : List (List Char)} (ha : List.Forall₂ Alike as as')
    (hidle : ∀ raw ∈ idle, IsIdle raw) (hb : List.Forall₂ Alike bs bs')
    (hf : ∀ k < as.length, f k = k)
    (hf' : ∀ k < bs.length, f (as.length + k) = as.length + idle.length + k) :
    List.Forall₂ (Corresponds f) ((place 0 0 (as ++ bs)).filter PlacedLine.isActive)
      ((place 0 0 (as' ++ (idle ++ bs'))).filter PlacedLine.isActive) := by
  have start : ∀ k < as.length, f (0 + k) = 0 + k := by simpa using hf
  obtain ⟨first, size⟩ := forall₂_place_of_alike ha 0 start
  rw [place_append, place_append, place_append, List.filter_append, List.filter_append,
    List.filter_append, size]
  obtain ⟨none, zero⟩ := place_of_isIdle hidle (0 + as'.length) (0 + totalSize (place 0 0 as))
  rw [none, zero, List.nil_append, Nat.add_zero]
  refine List.rel_append first (forall₂_place_of_alike hb _ ?_).1
  intro k hk
  rw [Nat.zero_add, Nat.zero_add, ← ha.length_eq]
  exact hf' k hk

end

/-! ### Programs of corresponding lines -/

/-- The programs are the same but for the lines that the source maps point at. -/
structure Program.Same (p p' : Program) : Prop where
  image_eq : p'.image = p.image
  labels_eq : p'.labels = p.labels
  keys_eq : p'.sourceMap.map Prod.fst = p.sourceMap.map Prod.fst

theorem keys_insertNew_congr (key : Nat) (p p' : PlacedLine) {m m' : SourceMap}
    (h : m'.map Prod.fst = m.map Prod.fst) :
    (SourceMap.insertNew key p' m').map Prod.fst = (SourceMap.insertNew key p m).map Prod.fst := by
  induction m generalizing m' with
  | nil =>
    obtain rfl := List.map_eq_nil_iff.mp h
    rfl
  | cons entry m ih =>
    obtain ⟨⟨k, q'⟩, m', rfl, hk, hm⟩ := List.map_eq_cons_iff.mp h
    obtain ⟨k, q⟩ := entry
    obtain rfl : _ = k := hk
    rw [SourceMap.insertNew, SourceMap.insertNew]
    split
    · simp [hm]
    · split
      · simp [hm]
      · simp [ih hm]

section
variable {f : Nat → Nat} {ps ps' : List PlacedLine}

theorem keys_ofPlaced_eq (h : List.Forall₂ (Corresponds f) ps ps') :
    (SourceMap.ofPlaced ps').map Prod.fst = (SourceMap.ofPlaced ps).map Prod.fst := by
  induction h with
  | nil => rfl
  | @cons p p' ps ps' h _ ih =>
    show (SourceMap.insertNew p'.address p' (SourceMap.ofPlaced ps')).map Prod.fst =
      (SourceMap.insertNew p.address p (SourceMap.ofPlaced ps)).map Prod.fst
    rw [h.address_eq]
    exact keys_insertNew_congr _ _ _ ih

theorem rel_redefinition? (h : List.Forall₂ (Corresponds f) ps ps') (seen : List String) :
    Option.Rel (ErrorMoves f) (redefinition? seen ps) (redefinition? seen ps') := by
  induction h generalizing seen with
  | nil => exact .none
  | @cons p p' ps ps' h _ ih =>
    rw [redefinition?, redefinition?, h.definition?_eq]
    split
    · exact ih seen
    · split
      · exact .some (h.error _)
      · exact ih _

/-- The layouts have the same labels and corresponding lines. -/
structure Layout.Corresponds (f : Nat → Nat) (l l' : Layout) : Prop where
  labels_eq : l'.labels = l.labels
  placed : List.Forall₂ (Source.Corresponds f) l.placed l'.placed

variable {source source' : String}

theorem outcomes_layout
    (h : List.Forall₂ (Corresponds f) (activeLines source.toList) (activeLines source'.toList)) :
    Outcomes (Layout.Corresponds f) (ErrorMoves f) (Layout.ofSource source)
      (Layout.ofSource source') := by
  have redefined := rel_redefinition? h []
  have labels := filterMap_definition?_congr (h.imp fun _ _ hp => hp.definition?_eq)
  have placed := forall₂_filter_holdsCode (fun _ _ hp => hp.holdsCode_eq) h
  rw [activeLines, activeLines] at redefined labels placed
  rw [redefinition?_isActive, redefinition?_isActive] at redefined
  rw [filterMap_definition?_isActive, filterMap_definition?_isActive] at labels
  rw [filter_holdsCode_isActive, filter_holdsCode_isActive] at placed
  unfold Layout.ofSource placedLines
  dsimp only
  generalize redefinition? [] (place 0 0 (lines source.toList)) = again at redefined
  generalize redefinition? [] (place 0 0 (lines source'.toList)) = again' at redefined
  cases redefined with
  | some h => exact .error h
  | none => exact .ok ⟨labels, placed⟩

theorem outcomes_encodeLine {p p' : PlacedLine} (labels : Labels) (h : Corresponds f p p') :
    Outcomes Eq (ErrorMoves f) (encodeLine labels p) (encodeLine labels p') := by
  rw [encodeLine, encodeLine, h.statement_eq]
  cases encode labels p.statement with
  | ok bytes => exact .ok rfl
  | error cause => exact .error (h.error cause)

/-- **Texts with corresponding active lines assemble alike.** -/
theorem outcomes_assemble
    (h : List.Forall₂ (Corresponds f) (activeLines source.toList) (activeLines source'.toList)) :
    Outcomes Program.Same (ErrorMoves f) (assemble source) (assemble source') := by
  refine (outcomes_layout h).bind fun l l' hl => ?_
  rw [hl.labels_eq]
  refine (outcomes_mapM hl.placed fun p p' => outcomes_encodeLine l.labels).bind fun bss bss' hb => ?_
  obtain rfl : bss = bss' := List.forall₂_eq_eq_eq ▸ hb
  exact .ok ⟨rfl, rfl, keys_ofPlaced_eq hl.placed⟩

end

end ByteMachine.Source
