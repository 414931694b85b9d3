import ByteMachine.Source.SourceMap
import ByteMachine.Source.Encode

/-!
# Assembled programs

A source text is laid out and then each line of code is encoded against all labels. The first line that
fails, in the order of the text, is the error of the whole; a label that is defined twice comes before
every other error.

Main statement: `assemble_eq_ok_iff`.
-/

namespace ByteMachine.Source

/-- What a source text assembles to. -/
structure Program where
  /-- The tag and the bytes of all lines. -/
  image : List UInt8
  /-- The lines of code by their addresses. -/
  sourceMap : SourceMap
  labels : Labels
  deriving DecidableEq, Repr

/-- The bytes of a placed line. -/
def encodeLine (labels : Labels) (p : PlacedLine) : Except LocatedError (List UInt8) :=
  (encode labels p.statement).mapError p.error

/-- The program of a source text. -/
def assemble (source : String) : Except LocatedError Program := do
  let layout ← Layout.ofSource source
  let bytes ← layout.placed.mapM (encodeLine layout.labels)
  return {
    image := Image.ofPayload bytes.flatten
    sourceMap := SourceMap.ofPlaced layout.placed
    labels := layout.labels }

/-- A source text assembles when it can be laid out and all its lines can be encoded. -/
theorem assemble_eq_ok_iff {source : String} {program : Program} :
    assemble source = .ok program ↔
      ∃ layout bytes, Layout.ofSource source = .ok layout ∧
        layout.placed.mapM (encodeLine layout.labels) = .ok bytes ∧
        program = ⟨Image.ofPayload bytes.flatten, SourceMap.ofPlaced layout.placed, layout.labels⟩ := by
  unfold assemble
  cases Layout.ofSource source with
  | error e => simp [bind, Except.bind]
  | ok layout =>
    cases h : layout.placed.mapM (encodeLine layout.labels) with
    | error e => simp [bind, Except.bind, h]
    | ok bytes => simp [bind, Except.bind, pure, Except.pure, h, eq_comm]

end ByteMachine.Source
