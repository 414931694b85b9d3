import ByteMachine.Proofs.Source.Reading
import ByteMachine.Source.Layout
import Mathlib.Data.List.Nodup
import Mathlib.Data.List.Pairwise

/-!
# The places of lines

Where `place` puts the lines of a text, and what of it the layout of a source text keeps.

* one line: `getElem?_place` (its index, the sizes of the lines before it, its text), and its kind and
  statement are those of the raw line (`kind_of_text`, `statement_of_text`);
* all lines: their indices increase (`pairwise_place`), those before line `k` are the placed first `k`
  lines (`filter_line_lt_place`);
* lines of code: they lie one behind the other (`IsContiguous`), since the others take no bytes;
* labels: the table holds the label lines with their addresses (`mem_labels_iff`), each name once
  (`nodup_labels`, `address?_eq_some_iff`, `label_line_unique`).
-/

namespace ByteMachine.Source

open Text

namespace PlacedLine

variable {p : PlacedLine} {raw : List Char}

theorem kind_of_text (h : p.text = String.ofList (trim raw)) : p.kind = LineKind.ofLine raw := by
  rw [kind, h, String.toList_ofList, LineKind.ofLine_trim]

theorem statement_of_text (h : p.text = String.ofList (trim raw)) :
    p.statement = Statement.ofLine raw := by
  rw [statement, h, String.toList_ofList, Statement.ofLine_trim]

theorem holdsCode_iff : p.holdsCode = true ↔ p.kind = .data ∨ p.kind = .instruction := by
  unfold holdsCode
  split <;> simp [*]

theorem definition?_eq_some_iff {name : String} {a : Nat} :
    p.definition? = some (name, a) ↔ p.kind = .label name ∧ a = p.address := by
  unfold definition?
  split
  · rename_i n hk
    simp only [hk, Option.some.injEq, Prod.mk.injEq, LineKind.label.injEq]
    exact and_congr_right fun _ => eq_comm
  all_goals simp [*]

theorem size_of_not_holdsCode (h : p.holdsCode = false) : p.size = 0 := by
  unfold holdsCode at h
  unfold size
  split at h <;> simp_all

end PlacedLine

/-! ### One line -/

theorem getElem?_place (line address : Nat) (raws : List (List Char)) (k : Nat) :
    (place line address raws)[k]? = raws[k]?.map fun raw =>
      ⟨line + k, address + totalSize (place line address (raws.take k)), String.ofList (trim raw)⟩ := by
  induction raws generalizing line address k with
  | nil => simp [place]
  | cons raw rest ih =>
    cases k with
    | zero => simp [place, totalSize]
    | succ k =>
      simp only [place, List.getElem?_cons_succ, ih, List.take_succ_cons, totalSize]
      congr 1
      funext raw'
      simp only [PlacedLine.mk.injEq, and_true]
      omega

theorem mem_place_iff {line address : Nat} {raws : List (List Char)} {p : PlacedLine} :
    p ∈ place line address raws ↔ ∃ k raw, raws[k]? = some raw ∧
      p = ⟨line + k, address + totalSize (place line address (raws.take k)),
        String.ofList (trim raw)⟩ := by
  rw [List.mem_iff_getElem?]
  simp only [getElem?_place, Option.map_eq_some_iff]
  constructor
  · rintro ⟨k, raw, hk, rfl⟩
    exact ⟨k, raw, hk, rfl⟩
  · rintro ⟨k, raw, hk, rfl⟩
    exact ⟨k, raw, hk, rfl⟩

/-! ### All lines -/

theorem totalSize_filter (ps : List PlacedLine) :
    totalSize (ps.filter PlacedLine.holdsCode) = totalSize ps := by
  induction ps with
  | nil => rfl
  | cons p ps ih =>
    by_cases h : p.holdsCode = true
    · rw [List.filter_cons_of_pos h, totalSize, totalSize, ih]
    · rw [List.filter_cons_of_neg h, totalSize, ih,
        PlacedLine.size_of_not_holdsCode (by simpa using h), Nat.zero_add]

theorem le_line_of_mem_place {line address : Nat} {raws : List (List Char)} {p : PlacedLine}
    (h : p ∈ place line address raws) : line ≤ p.line := by
  obtain ⟨k, raw, -, rfl⟩ := mem_place_iff.mp h
  exact Nat.le_add_right line k

theorem pairwise_place (line address : Nat) (raws : List (List Char)) :
    (place line address raws).Pairwise fun p q => p.line < q.line := by
  induction raws generalizing line address with
  | nil => exact List.Pairwise.nil
  | cons raw rest ih => exact List.Pairwise.cons (fun _ hq => le_line_of_mem_place hq) (ih _ _)

theorem filter_line_lt_place (line address : Nat) (raws : List (List Char)) (k : Nat) :
    (place line address raws).filter (·.line < line + k) = place line address (raws.take k) := by
  induction raws generalizing line address k with
  | nil => simp [place]
  | cons raw rest ih =>
    cases k with
    | zero =>
      have none : ∀ p ∈ place line address (raw :: rest), ¬ p.line < line := by
        intro p hp
        exact Nat.not_lt.mpr (le_line_of_mem_place hp)
      simpa [place] using none
    | succ k =>
      have ih := ih (line + 1) (address + PlacedLine.size ⟨line, address, String.ofList (trim raw)⟩) k
      have shift : line + 1 + k = line + (k + 1) := by omega
      rw [shift] at ih
      have first : line < line + (k + 1) := by omega
      simp [place, ih, first]

/-! ### Two lists of placed lines -/

theorem filterMap_definition?_congr {ps ps' : List PlacedLine}
    (h : List.Forall₂ (fun p p' => p'.definition? = p.definition?) ps ps') :
    ps'.filterMap PlacedLine.definition? = ps.filterMap PlacedLine.definition? := by
  induction h with
  | nil => rfl
  | cons h _ ih => rw [List.filterMap_cons, List.filterMap_cons, h, ih]

theorem forall₂_filter_holdsCode {R : PlacedLine → PlacedLine → Prop} {ps ps' : List PlacedLine}
    (hR : ∀ p p', R p p' → p'.holdsCode = p.holdsCode) (h : List.Forall₂ R ps ps') :
    List.Forall₂ R (ps.filter PlacedLine.holdsCode) (ps'.filter PlacedLine.holdsCode) :=
  List.rel_filter (fun p p' hp => Bool.eq_iff_iff.mp (hR p p' hp).symm) h

/-! ### Lines one behind the other -/

/-- The lines lie one behind the other from an address on. -/
def IsContiguous (address : Nat) : List PlacedLine → Prop
  | [] => True
  | p :: ps => p.address = address ∧ IsContiguous (address + p.size) ps

theorem isContiguous_place (line address : Nat) (raws : List (List Char)) :
    IsContiguous address (place line address raws) := by
  induction raws generalizing line address with
  | nil => trivial
  | cons raw rest ih => exact ⟨rfl, ih _ _⟩

theorem IsContiguous.filter {address : Nat} {ps : List PlacedLine} (h : IsContiguous address ps) :
    IsContiguous address (ps.filter PlacedLine.holdsCode) := by
  induction ps generalizing address with
  | nil => trivial
  | cons p ps ih =>
    obtain ⟨ha, h⟩ := h
    by_cases hc : p.holdsCode = true
    · rw [List.filter_cons_of_pos hc]
      exact ⟨ha, ih h⟩
    · rw [List.filter_cons_of_neg hc]
      rw [PlacedLine.size_of_not_holdsCode (by simpa using hc), Nat.add_zero] at h
      exact ih h

theorem IsContiguous.address_eq {address : Nat} {before after : List PlacedLine} {p : PlacedLine}
    (h : IsContiguous address (before ++ p :: after)) : p.address = address + totalSize before := by
  induction before generalizing address with
  | nil => exact h.1
  | cons q before ih => rw [ih h.2, totalSize, Nat.add_assoc]

/-! ### Names -/

theorem redefinition?_eq_none_iff {seen : List String} {ps : List PlacedLine} :
    redefinition? seen ps = none ↔
      ((ps.filterMap PlacedLine.definition?).map Prod.fst).Nodup ∧
        ∀ name ∈ (ps.filterMap PlacedLine.definition?).map Prod.fst, name ∉ seen := by
  induction ps generalizing seen with
  | nil => simp [redefinition?]
  | cons p ps ih =>
    rw [redefinition?]
    split
    · rename_i hd
      rw [List.filterMap_cons_none hd, ih]
    · rename_i name a hd
      rw [List.filterMap_cons_some hd, List.map_cons, List.nodup_cons]
      by_cases hs : name ∈ seen
      · simp [hs]
      · have unseen : seen.contains name = false := by simpa using hs
        rw [unseen, if_neg (by simp), ih]
        simp only [List.mem_cons, not_or, forall_eq_or_imp]
        constructor
        · rintro ⟨hnd, h⟩
          exact ⟨⟨fun hm => (h name hm).1 rfl, hnd⟩, hs, fun n hn => (h n hn).2⟩
        · rintro ⟨⟨hname, hnd⟩, -, h⟩
          exact ⟨hnd, fun n hn => ⟨fun e => hname (e ▸ hn), h n hn⟩⟩

theorem eq_of_kind_eq_label {ps : List PlacedLine} {p q : PlacedLine} {name : String}
    (h : ((ps.filterMap PlacedLine.definition?).map Prod.fst).Nodup) (hp : p ∈ ps) (hq : q ∈ ps)
    (hpk : p.kind = .label name) (hqk : q.kind = .label name) : p = q := by
  rw [List.nodup_iff_pairwise_ne, List.pairwise_map, List.pairwise_filterMap] at h
  have symmetric : Std.Symm fun p q : PlacedLine => ∀ d, p.definition? = some d →
      ∀ d', q.definition? = some d' → d.1 ≠ d'.1 :=
    ⟨fun _ _ h d hd d' hd' => (h d' hd' d hd).symm⟩
  by_contra hne
  exact h.forall hp hq hne _ (PlacedLine.definition?_eq_some_iff.mpr ⟨hpk, rfl⟩) _
    (PlacedLine.definition?_eq_some_iff.mpr ⟨hqk, rfl⟩) rfl

/-- The line that is reported defines a name that has been seen, and the lines before it do not. -/
theorem exists_append_of_redefinition? {seen : List String} {ps : List PlacedLine} {e : LocatedError}
    (h : redefinition? seen ps = some e) :
    ∃ before p after name, ps = before ++ p :: after ∧ redefinition? seen before = none ∧
      p.kind = .label name ∧ (name ∈ seen ∨ ∃ q ∈ before, q.kind = .label name) ∧
      e = p.error (.redefinedLabel name) := by
  induction ps generalizing seen with
  | nil => cases h
  | cons p ps ih =>
    rw [redefinition?] at h
    split at h
    · rename_i hd
      obtain ⟨before, q, after, name, rfl, none, hq, earlier, rfl⟩ := ih h
      refine ⟨p :: before, q, after, name, rfl, by rw [redefinition?, hd, none], hq, ?_, rfl⟩
      exact earlier.imp_right fun ⟨r, hr, hrk⟩ => ⟨r, List.mem_cons_of_mem _ hr, hrk⟩
    · rename_i name a hd
      have hp := (PlacedLine.definition?_eq_some_iff.mp hd).1
      split at h
      · rename_i hs
        exact ⟨[], p, ps, name, rfl, rfl, hp, .inl (by simpa using hs), (Option.some.inj h).symm⟩
      · rename_i hs
        obtain ⟨before, q, after, name', rfl, none, hq, earlier, rfl⟩ := ih h
        refine ⟨p :: before, q, after, name', rfl, ?_, hq, ?_, rfl⟩
        · rw [redefinition?, hd]
          exact (if_neg hs).trans none
        · rcases earlier with hname | ⟨r, hr, hrk⟩
          · rcases List.mem_cons.mp hname with rfl | hname
            · exact .inr ⟨p, List.mem_cons_self, hp⟩
            · exact .inl hname
          · exact .inr ⟨r, List.mem_cons_of_mem _ hr, hrk⟩

theorem lookup_eq_some_iff {α β : Type} [BEq α] [LawfulBEq α] {pairs : List (α × β)}
    (h : (pairs.map Prod.fst).Nodup) {key : α} {value : β} :
    pairs.lookup key = some value ↔ (key, value) ∈ pairs := by
  induction pairs with
  | nil => simp
  | cons pair pairs ih =>
    obtain ⟨k, v⟩ := pair
    rw [List.map_cons, List.nodup_cons] at h
    by_cases hk : key = k
    · subst hk
      have absent : (key, value) ∉ pairs := fun hm => h.1 (List.mem_map.mpr ⟨(key, value), hm, rfl⟩)
      simp [absent, eq_comm]
    · rw [List.lookup_cons, beq_false_of_ne hk, List.mem_cons, ih h.2]
      simp [hk]

/-! ### Layouts of source texts -/

theorem Layout.ofSource_eq_ok_iff {source : String} {layout : Layout} :
    Layout.ofSource source = .ok layout ↔
      redefinition? [] (placedLines source) = none ∧
        layout = ⟨(placedLines source).filterMap PlacedLine.definition?,
          (placedLines source).filter PlacedLine.holdsCode⟩ := by
  unfold Layout.ofSource
  dsimp only
  split
  · rename_i hr
    simp [hr]
  · rename_i hr
    simp [hr, eq_comm]

theorem Layout.ofSource_eq_error_iff {source : String} {e : LocatedError} :
    Layout.ofSource source = .error e ↔ redefinition? [] (placedLines source) = some e := by
  unfold Layout.ofSource
  dsimp only
  split
  · rename_i hr
    simp [hr]
  · rename_i hr
    simp [hr]

/-- Each line is placed behind the sizes of the lines before it. -/
theorem mem_placedLines_iff {source : String} {p : PlacedLine} :
    p ∈ placedLines source ↔ ∃ raw, (lines source.toList)[p.line]? = some raw ∧
      p.address = totalSize (place 0 0 ((lines source.toList).take p.line)) ∧
        p.text = String.ofList (trim raw) := by
  rw [placedLines, mem_place_iff]
  simp only [Nat.zero_add]
  constructor
  · rintro ⟨k, raw, hk, rfl⟩
    exact ⟨raw, hk, rfl, rfl⟩
  · obtain ⟨line, address, text⟩ := p
    rintro ⟨raw, hk, ha, rfl⟩
    exact ⟨line, raw, hk, by rw [← ha]⟩

theorem exists_mem_placedLines {source : String} {k : Nat} {raw : List Char}
    (hk : (lines source.toList)[k]? = some raw) :
    ∃ p ∈ placedLines source, p.line = k ∧ p.text = String.ofList (trim raw) := by
  rw [placedLines]
  exact ⟨_, mem_place_iff.mpr ⟨k, raw, hk, rfl⟩, Nat.zero_add k, rfl⟩

section Layouts

variable {source : String} {layout : Layout}

theorem nodup_labels (h : Layout.ofSource source = .ok layout) :
    (layout.labels.map Prod.fst).Nodup := by
  obtain ⟨hr, rfl⟩ := Layout.ofSource_eq_ok_iff.mp h
  exact (redefinition?_eq_none_iff.mp hr).1

/-- The table holds the label lines with the sizes of the lines before them. -/
theorem mem_labels_iff (h : Layout.ofSource source = .ok layout) {name : String} {a : Nat} :
    (name, a) ∈ layout.labels ↔ ∃ k raw, (lines source.toList)[k]? = some raw ∧
      LineKind.ofLine raw = .label name ∧
        a = totalSize (place 0 0 ((lines source.toList).take k)) := by
  obtain ⟨-, rfl⟩ := Layout.ofSource_eq_ok_iff.mp h
  simp only [List.mem_filterMap, placedLines, mem_place_iff, PlacedLine.definition?_eq_some_iff,
    Nat.zero_add]
  constructor
  · rintro ⟨p, ⟨k, raw, hk, rfl⟩, hkind, rfl⟩
    exact ⟨k, raw, hk, by rwa [PlacedLine.kind_of_text rfl] at hkind, rfl⟩
  · rintro ⟨k, raw, hk, hkind, rfl⟩
    exact ⟨_, ⟨k, raw, hk, rfl⟩, by rwa [PlacedLine.kind_of_text rfl], rfl⟩

theorem address?_eq_some_iff (h : Layout.ofSource source = .ok layout) {name : String} {a : Nat} :
    layout.labels.address? name = some a ↔ (name, a) ∈ layout.labels :=
  lookup_eq_some_iff (nodup_labels h)

theorem label_line_unique (h : Layout.ofSource source = .ok layout) {name : String} {j k : Nat}
    {raw raw' : List Char} (hj : (lines source.toList)[j]? = some raw)
    (hk : (lines source.toList)[k]? = some raw') (hraw : LineKind.ofLine raw = .label name)
    (hraw' : LineKind.ofLine raw' = .label name) : j = k := by
  obtain ⟨hr, -⟩ := Layout.ofSource_eq_ok_iff.mp h
  obtain ⟨p, hp, rfl, text⟩ := exists_mem_placedLines hj
  obtain ⟨q, hq, rfl, text'⟩ := exists_mem_placedLines hk
  rw [eq_of_kind_eq_label (redefinition?_eq_none_iff.mp hr).1 hp hq
    ((PlacedLine.kind_of_text text).trans hraw) ((PlacedLine.kind_of_text text').trans hraw')]

theorem mem_placed_iff (h : Layout.ofSource source = .ok layout) {p : PlacedLine} :
    p ∈ layout.placed ↔ ∃ k raw, (lines source.toList)[k]? = some raw ∧
      (LineKind.ofLine raw = .data ∨ LineKind.ofLine raw = .instruction) ∧
        p = ⟨k, totalSize (place 0 0 ((lines source.toList).take k)), String.ofList (trim raw)⟩ := by
  obtain ⟨-, rfl⟩ := Layout.ofSource_eq_ok_iff.mp h
  simp only [List.mem_filter, placedLines, mem_place_iff, PlacedLine.holdsCode_iff, Nat.zero_add]
  constructor
  · rintro ⟨⟨k, raw, hk, rfl⟩, hkind⟩
    rw [PlacedLine.kind_of_text rfl] at hkind
    exact ⟨k, raw, hk, hkind, rfl⟩
  · rintro ⟨k, raw, hk, hkind, rfl⟩
    refine ⟨⟨k, raw, hk, rfl⟩, ?_⟩
    rwa [PlacedLine.kind_of_text rfl]

theorem isContiguous_placed (h : Layout.ofSource source = .ok layout) :
    IsContiguous 0 layout.placed := by
  obtain ⟨-, rfl⟩ := Layout.ofSource_eq_ok_iff.mp h
  exact (isContiguous_place 0 0 _).filter

theorem pairwise_placed (h : Layout.ofSource source = .ok layout) :
    layout.placed.Pairwise fun p q => p.line < q.line := by
  obtain ⟨-, rfl⟩ := Layout.ofSource_eq_ok_iff.mp h
  exact (pairwise_place 0 0 _).filter _

theorem totalSize_take (h : Layout.ofSource source = .ok layout) (k : Nat) :
    totalSize (place 0 0 ((lines source.toList).take k)) =
      totalSize (layout.placed.filter (·.line < k)) := by
  obtain ⟨-, rfl⟩ := Layout.ofSource_eq_ok_iff.mp h
  have before := filter_line_lt_place 0 0 (lines source.toList) k
  rw [Nat.zero_add] at before
  rw [← before, ← totalSize_filter, List.filter_filter, List.filter_filter, placedLines]
  congr 2
  funext p
  exact Bool.and_comm ..

end Layouts

end ByteMachine.Source
