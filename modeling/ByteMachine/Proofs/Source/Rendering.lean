import ByteMachine.Proofs.Source.Literal
import ByteMachine.Proofs.Source.NormalForm

/-!
# Statements written as lines

A normal statement that is written as a line is read back from it (`Statement.ofLine_render`): the line
is the operation alone, or a spelling of the statement with a space behind each comma.
-/

namespace ByteMachine.Source

open Text

theorem squeeze_intercalate {pieces : List (List Char)}
    (h : ∀ piece ∈ pieces, ∀ c ∈ piece, isBlank c = false) :
    squeeze ([',', ' '].intercalate pieces) = [','].intercalate pieces := by
  induction pieces with
  | nil => rfl
  | cons piece pieces ih =>
    rw [List.forall_mem_cons] at h
    cases pieces with
    | nil => simpa using squeeze_eq_self h.1
    | cons next pieces =>
      rw [List.intercalate_cons_cons, List.intercalate_cons_cons, squeeze_append, squeeze_append,
        ih h.2, squeeze_eq_self h.1]
      rfl

namespace Statement

theorem isSpelling_render {t : Statement} (h : t.IsNormal) (some : t.args ≠ []) :
    t.IsSpelling t.render [] ([',', ' '].intercalate (t.args.map String.toList)) [] where
  raw_eq := by
    rw [render, if_neg (by simpa using some), List.append_nil]
    rfl
  allBlank := allBlank_nil
  squeeze_eq := by
    refine squeeze_intercalate fun piece hp c hc => ?_
    obtain ⟨s, hs, rfl⟩ := List.mem_map.mp hp
    exact ((h.isArgument s hs).2 c hc).1
  comment_head := by simp

theorem ofLine_render {t : Statement} (h : t.IsNormal) : ofLine t.render = t := by
  by_cases none : t.args = []
  · have cut : IsCut t.op.toList [] t.op.toList [] [] :=
      ⟨by simp, allBlank_nil, h.op_solid, fun _ => rfl, by simp, by simp, by simp⟩
    rw [render, none, List.isEmpty_nil, if_pos rfl, cut.ofLine_eq, String.ofList_toList]
    exact congrArg (Statement.mk t.op) none.symm
  · exact ofLine_of_isSpelling h (fun empty => none (h.op_empty empty)) (isSpelling_render h none)

theorem render_ne_nil {t : Statement} (h : t.op.toList ≠ []) : t.render ≠ [] := by
  unfold render
  split
  · exact h
  · exact List.append_ne_nil_of_left_ne_nil h _

theorem not_mem_render {t : Statement} (h : t.IsNormal) {c : Char} (hb : isBlank c = true)
    (hc : c ≠ ' ') : c ∉ t.render := by
  have notInOp : c ∉ t.op.toList := by
    intro hmem
    rw [(h.op_solid c hmem).1] at hb
    cases hb
  unfold render
  split
  · exact notInOp
  · rw [List.mem_append, List.mem_cons]
    rintro (hmem | rfl | hmem)
    · exact notInOp hmem
    · exact hc rfl
    · rcases mem_intercalate hmem with hmem | ⟨piece, hp, hmem⟩
      · rcases List.mem_pair.mp hmem with rfl | rfl
        · exact absurd hb (by decide)
        · exact hc rfl
      · obtain ⟨arg, harg, rfl⟩ := List.mem_map.mp hp
        rw [((h.isArgument arg harg).2 c hmem).1] at hb
        cases hb

theorem isArgument_of_numeral? {s : String} {n : Nat} (h : numeral? s.toList = some n) :
    IsArgument s := by
  have nameChar := isNameChar_of_numeral? h
  refine ⟨ne_nil_of_numeral? h, fun c hc => ⟨isBlank_of_isNameChar (nameChar c hc), ?_, ?_⟩⟩
  · rintro rfl
    exact absurd (nameChar _ hc) (by decide)
  · rintro rfl
    exact absurd (nameChar _ hc) (by decide)

end Statement

end ByteMachine.Source
