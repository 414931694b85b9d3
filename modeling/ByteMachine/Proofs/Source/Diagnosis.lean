import ByteMachine.Proofs.Source.Resolution

/-!
# Which error a text has

A text is read twice, and each pass stops at the first line that is wrong for it. The first pass looks at
names only, so a name that is defined again comes before every other error, wherever it stands.

* `isFirst_of_ofSource_eq_error`, `exists_ofSource_eq_ok`: the first pass stops at the first line that
  defines a name again, and at nothing else;
* `isFirst_of_mapM_eq_error`: the second pass stops at the first line of code that cannot be encoded;
* `assemble_diagnosis`: both together, for every text.
-/

namespace ByteMachine.Source

open Text

/-- Line `k` defines a name that an earlier line defines, and this is what is wrong with it. -/
def Redefines (source : String) (k : Nat) (cause : SourceError) : Prop :=
  ∃ name, Defines source name k ∧ (∃ j < k, Defines source name j) ∧ cause = .redefinedLabel name

/-- Line `k` holds code that cannot be encoded against the labels, for this cause. -/
def Miscodes (source : String) (labels : Labels) (k : Nat) (cause : SourceError) : Prop :=
  ∃ raw, (lines source.toList)[k]? = some raw ∧
    (LineKind.ofLine raw = .data ∨ LineKind.ofLine raw = .instruction) ∧
    encode labels (Statement.ofLine raw) = .error cause

/-- The table finds exactly the names that the text defines, with the addresses of their lines. -/
def IsTable (source : String) (labels : Labels) : Prop :=
  ∀ name a, labels.address? name = some a ↔ ∃ k, Defines source name k ∧ a = lineAddress source k

/-- The error is that of the first line with which something is wrong, and it shows this line. -/
structure IsFirst (source : String) (wrong : Nat → SourceError → Prop) (e : LocatedError) : Prop where
  isWrong : wrong e.line e.cause
  first : ∀ k < e.line, ∀ cause, ¬wrong k cause
  shown : ∃ raw, (lines source.toList)[e.line]? = some raw ∧ e.text = String.ofList (trim raw)

/-! ### Lines in front of a line -/

theorem mem_before_of_line_lt {before after : List PlacedLine} {p q : PlacedLine}
    (increasing : (before ++ p :: after).Pairwise fun p q => p.line < q.line)
    (hq : q ∈ before ++ p :: after) (hlt : q.line < p.line) : q ∈ before := by
  rcases List.mem_append.mp hq with hq | hq
  · exact hq
  · have behind := (List.pairwise_cons.mp (List.pairwise_append.mp increasing).2.1).1
    rcases List.mem_cons.mp hq with rfl | hq
    · exact absurd hlt (Nat.lt_irrefl _)
    · exact absurd hlt (Nat.lt_asymm (behind q hq))

/-! ### The first pass -/

section
variable {source : String}

theorem defines_iff {name : String} {k : Nat} :
    Defines source name k ↔ ∃ p ∈ placedLines source, p.line = k ∧ p.kind = .label name := by
  constructor
  · rintro ⟨raw, hraw, hkind⟩
    obtain ⟨p, hp, hline, text⟩ := exists_mem_placedLines hraw
    exact ⟨p, hp, hline, (PlacedLine.kind_of_text text).trans hkind⟩
  · rintro ⟨p, hp, rfl, hkind⟩
    obtain ⟨raw, hraw, -, text⟩ := mem_placedLines_iff.mp hp
    exact ⟨raw, hraw, (PlacedLine.kind_of_text text).symm.trans hkind⟩

/-- **The first pass stops at the first line that defines a name again.** -/
theorem isFirst_of_ofSource_eq_error {e : LocatedError} (h : Layout.ofSource source = .error e) :
    IsFirst source (Redefines source) e := by
  obtain ⟨before, p, after, name, split, none, hp, seen, rfl⟩ :=
    exists_append_of_redefinition? (Layout.ofSource_eq_error_iff.mp h)
  obtain ⟨q, hq, hqk⟩ := seen.resolve_left (List.not_mem_nil)
  have increasing : (placedLines source).Pairwise fun p q => p.line < q.line := pairwise_place 0 0 _
  have mem : p ∈ placedLines source := by simp [split]
  have hqp : q.line < p.line := by
    rw [split] at increasing
    exact (List.pairwise_append.mp increasing).2.2 q hq p List.mem_cons_self
  refine ⟨⟨name, defines_iff.mpr ⟨p, mem, rfl, hp⟩, ⟨q.line, hqp, ?_⟩, rfl⟩, ?_, ?_⟩
  · exact defines_iff.mpr ⟨q, by simp [split, hq], rfl, hqk⟩
  · -- both lines would stand among those that the pass has gone through
    rintro k hk cause ⟨name', defines, ⟨j, hj, earlier⟩, -⟩
    obtain ⟨r, hr, rfl, hrk⟩ := defines_iff.mp defines
    obtain ⟨s, hs, rfl, hsk⟩ := defines_iff.mp earlier
    rw [split] at increasing hr hs
    have hr := mem_before_of_line_lt increasing hr hk
    have hs := mem_before_of_line_lt increasing hs (Nat.lt_trans hj hk)
    rw [eq_of_kind_eq_label (redefinition?_eq_none_iff.mp none).1 hr hs hrk hsk] at hj
    exact Nat.lt_irrefl _ hj
  · obtain ⟨raw, hraw, -, text⟩ := mem_placedLines_iff.mp mem
    exact ⟨raw, hraw, text⟩

theorem exists_ofSource_eq_ok (h : ¬∃ k cause, Redefines source k cause) :
    ∃ layout, Layout.ofSource source = .ok layout := by
  cases hl : Layout.ofSource source with
  | ok layout => exact ⟨layout, rfl⟩
  | error e => exact absurd ⟨e.line, e.cause, (isFirst_of_ofSource_eq_error hl).isWrong⟩ h

theorem exists_ofSource_eq_error (h : ∃ k cause, Redefines source k cause) :
    ∃ e, Layout.ofSource source = .error e := by
  obtain ⟨k, -, name, ⟨raw, hraw, hkind⟩, ⟨j, hj, raw', hraw', hkind'⟩, -⟩ := h
  cases hl : Layout.ofSource source with
  | error e => exact ⟨e, rfl⟩
  | ok layout =>
    rw [label_line_unique hl hraw' hraw hkind' hkind] at hj
    exact absurd hj (Nat.lt_irrefl k)

variable {layout : Layout} (hl : Layout.ofSource source = .ok layout)
include hl

theorem isTable_of_ofSource : IsTable source layout.labels := by
  intro name a
  rw [address?_eq_some_iff hl, mem_labels_iff hl]
  constructor
  · rintro ⟨k, raw, hraw, hkind, ha⟩
    exact ⟨k, ⟨raw, hraw, hkind⟩, ha⟩
  · rintro ⟨k, ⟨raw, hraw, hkind⟩, ha⟩
    exact ⟨k, raw, hraw, hkind, ha⟩

/-! ### The second pass -/

theorem miscodes_iff {k : Nat} {cause : SourceError} : Miscodes source layout.labels k cause ↔
    ∃ p ∈ layout.placed, p.line = k ∧ encodeLine layout.labels p = .error (p.error cause) := by
  have cause_eq {p : PlacedLine} : encodeLine layout.labels p = .error (p.error cause) ↔
      encode layout.labels p.statement = .error cause := by
    rw [encodeLine_eq_error_iff]
    simp [PlacedLine.error]
  simp only [cause_eq, mem_placed_iff hl]
  constructor
  · rintro ⟨raw, hraw, hkind, he⟩
    refine ⟨_, ⟨k, raw, hraw, hkind, rfl⟩, rfl, ?_⟩
    rwa [PlacedLine.statement_of_text rfl]
  · rintro ⟨-, ⟨k, raw, hraw, hkind, rfl⟩, rfl, he⟩
    rw [PlacedLine.statement_of_text rfl] at he
    exact ⟨raw, hraw, hkind, he⟩

/-- **The second pass stops at the first line of code that cannot be encoded.** -/
theorem isFirst_of_mapM_eq_error {e : LocatedError}
    (h : layout.placed.mapM (encodeLine layout.labels) = .error e) :
    IsFirst source (Miscodes source layout.labels) e := by
  obtain ⟨before, p, after, split, passed, he⟩ := mapM_eq_error_iff.mp h
  obtain ⟨cause, -, rfl⟩ := encodeLine_eq_error_iff.mp he
  have mem : p ∈ layout.placed := by simp [split]
  refine ⟨(miscodes_iff hl).mpr ⟨p, mem, rfl, he⟩, ?_, ?_⟩
  · intro k hk cause' miscodes
    obtain ⟨q, hq, rfl, hqe⟩ := (miscodes_iff hl).mp miscodes
    have increasing := pairwise_placed hl
    rw [split] at increasing hq
    obtain ⟨bytes, ok⟩ := passed q (mem_before_of_line_lt increasing hq hk)
    rw [ok] at hqe
    cases hqe
  · obtain ⟨k, raw, hraw, -, rfl⟩ := (mem_placed_iff hl).mp mem
    exact ⟨raw, hraw, rfl⟩

theorem exists_mapM_eq_ok (h : ¬∃ k cause, Miscodes source layout.labels k cause) :
    ∃ bytes, layout.placed.mapM (encodeLine layout.labels) = .ok bytes := by
  cases hm : layout.placed.mapM (encodeLine layout.labels) with
  | ok bytes => exact ⟨bytes, rfl⟩
  | error e => exact absurd ⟨e.line, e.cause, (isFirst_of_mapM_eq_error hl hm).isWrong⟩ h

theorem exists_mapM_eq_error (h : ∃ k cause, Miscodes source layout.labels k cause) :
    ∃ e, layout.placed.mapM (encodeLine layout.labels) = .error e := by
  obtain ⟨k, cause, miscodes⟩ := h
  obtain ⟨p, hp, -, he⟩ := (miscodes_iff hl).mp miscodes
  cases hm : layout.placed.mapM (encodeLine layout.labels) with
  | error e => exact ⟨e, rfl⟩
  | ok bytes =>
    obtain ⟨b, hb⟩ := exists_mapM_eq_ok_iff.mp ⟨bytes, hm⟩ p hp
    rw [hb] at he
    cases he

end

/-! ### Both passes -/

/-- **Every error shows a line of the text.** -/
theorem exists_line_of_error {source : String} {e : LocatedError} (h : assemble source = .error e) :
    ∃ raw, (lines source.toList)[e.line]? = some raw ∧ e.text = String.ofList (trim raw) := by
  rcases bind_eq_error_iff.mp h with h | ⟨layout, hl, h⟩
  · exact (isFirst_of_ofSource_eq_error h).shown
  · rcases bind_eq_error_iff.mp h with h | ⟨bytes, -, h⟩
    · exact (isFirst_of_mapM_eq_error hl h).shown
    · cases h

theorem exists_encode_of_assemble {source : String} {program : Program} {k : Nat} {raw : List Char}
    (h : assemble source = .ok program) (hk : (lines source.toList)[k]? = some raw)
    (hkind : LineKind.ofLine raw = .data ∨ LineKind.ofLine raw = .instruction) :
    ∃ bytes, encode program.labels (Statement.ofLine raw) = .ok bytes := by
  obtain ⟨layout, bytes, hl, hb, rfl⟩ := assemble_eq_ok_iff.mp h
  cases he : encode layout.labels (Statement.ofLine raw) with
  | ok bytes => exact ⟨bytes, rfl⟩
  | error cause =>
    obtain ⟨e, hm⟩ := exists_mapM_eq_error hl ⟨k, cause, raw, hk, hkind, he⟩
    rw [hb] at hm
    cases hm

/-- **The outcome of every text**: the error of the first line that defines a name again; or else, of the
first line of code that cannot be encoded against all labels; or else a program. -/
theorem assemble_diagnosis (source : String) :
    ((∃ k cause, Redefines source k cause) → ∃ e, Layout.ofSource source = .error e ∧
        assemble source = .error e ∧ IsFirst source (Redefines source) e) ∧
      ((¬∃ k cause, Redefines source k cause) → ∃ layout, Layout.ofSource source = .ok layout ∧
        IsTable source layout.labels ∧
        ((∃ k cause, Miscodes source layout.labels k cause) → ∃ e, assemble source = .error e ∧
          IsFirst source (Miscodes source layout.labels) e) ∧
        ((¬∃ k cause, Miscodes source layout.labels k cause) →
          ∃ program, assemble source = .ok program ∧ program.labels = layout.labels)) := by
  constructor
  · intro again
    obtain ⟨e, he⟩ := exists_ofSource_eq_error again
    exact ⟨e, he, bind_eq_error_iff.mpr (.inl he), isFirst_of_ofSource_eq_error he⟩
  · intro once
    obtain ⟨layout, hl⟩ := exists_ofSource_eq_ok once
    refine ⟨layout, hl, isTable_of_ofSource hl, ?_, ?_⟩
    · intro miscoded
      obtain ⟨e, he⟩ := exists_mapM_eq_error hl miscoded
      refine ⟨e, bind_eq_error_iff.mpr (.inr ⟨layout, hl, ?_⟩), isFirst_of_mapM_eq_error hl he⟩
      exact bind_eq_error_iff.mpr (.inl he)
    · intro coded
      obtain ⟨bytes, hb⟩ := exists_mapM_eq_ok hl coded
      exact ⟨_, assemble_eq_ok_iff.mpr ⟨layout, bytes, hl, hb, rfl⟩, rfl⟩

/-- Two lines that cannot be encoded, and behind them a line that defines a name again, which is reported. -/
theorem assemble_diagnosis_again :
    ∃ e, assemble "NOPE 1\na:\nHOPP b\na: ; again" = .error e ∧
      IsFirst "NOPE 1\na:\nHOPP b\na: ; again" (Redefines "NOPE 1\na:\nHOPP b\na: ; again") e ∧
      e = ⟨3, "a: ; again", .redefinedLabel "a"⟩ := by
  have result : assemble "NOPE 1\na:\nHOPP b\na: ; again" =
      .error ⟨3, "a: ; again", .redefinedLabel "a"⟩ := by
    decide +kernel
  have once : Defines "NOPE 1\na:\nHOPP b\na: ; again" "a" 1 :=
    ⟨"a:".toList, by decide +kernel, by decide +kernel⟩
  have again : Defines "NOPE 1\na:\nHOPP b\na: ; again" "a" 3 :=
    ⟨"a: ; again".toList, by decide +kernel, by decide +kernel⟩
  obtain ⟨e, -, he, first⟩ := (assemble_diagnosis "NOPE 1\na:\nHOPP b\na: ; again").1
    ⟨3, _, "a", again, ⟨1, by decide, once⟩, rfl⟩
  exact ⟨e, he, first, Except.error.inj (he.symm.trans result)⟩

end ByteMachine.Source
