import Mathlib.Data.List.Chain
import ByteMachine.Monitor.Basic
import ByteMachine.Proofs.Machine.Frame
import ByteMachine.Proofs.Machine.HandOut

/-!
# Nothing is lost in the echo

An echo shows the part of the output that it has not seen. It is asked once for each state that a run
shows, and once more in the end, and between two of these states the program writes at most one byte.

* `output_step`: a call of `step` adds to the output what the pending instruction writes, and nothing
  else; so the outputs of the states of a run are a chain of prefixes (`Plays.isChain_writes`), and what
  an echo has seen is a prefix of every later output.
* `output_echoed`: the parts that an echo shows are the bytes of the instructions, one after another, and
  put together they are the output in the end.
-/

namespace ByteMachine

namespace State

/-- The bytes that the instruction at the program counter writes: one or none. -/
def written (s : State) : List UInt8 :=
  match Instruction.ofWord? s.fetch with
  | some (.write source) => [s.get source]
  | _ => []

/-- From one state to the next, the program has written what its instruction writes. -/
def Writes (s t : State) : Prop := t.output.toList = s.output.toList ++ s.written

theorem written_of_ne {s : State} (h : ∀ source, Instruction.ofWord? s.fetch ≠ some (.write source)) :
    s.written = [] := by
  unfold written
  split
  · exact absurd ‹_› (h _)
  · rfl

/-- **Only a write adds to the output**, and it adds one byte. -/
theorem writes_exec (s : State) (input : Array UInt8) : s.Writes (s.exec input).1 := by
  unfold Writes
  rcases he : s.exec input with ⟨t, fault | p⟩
  · obtain ⟨faults, rfl⟩ := exec_eq_error_iff.mp he
    -- a word that faults is no write
    have none : s.written = [] := written_of_ne fun source hs => by
      cases faults with
      | unsupported h | tooDeep h | noReturn h | endOfInput h => simp [h] at hs
    rw [none, List.append_nil]
  · obtain ⟨i, hi, -, frame⟩ := exists_frame_of_exec he
    cases i with
    | write source =>
      have output : t.output = s.output.push (s.get source) := frame.output
      rw [output, Array.toList_push, written, hi]
    | _ =>
      have output : t.output = s.output := frame.output
      have none : s.written = [] := written_of_ne fun source hs => by simp [hi] at hs
      rw [output, none, List.append_nil]

end State

namespace Run

theorem output_beginCycle (r : Run) : r.beginCycle.1.state.output = r.state.output :=
  beginCycle_cases r (fun _ => rfl) (fun _ _ => rfl) (fun _ _ => rfl)

theorem output_resume (r : Run) (result : State × Except Fault Progress) :
    (r.resume result).1.state.output = result.1.output := by
  obtain ⟨s, _ | _ | _⟩ := result
  · rfl
  · exact output_beginCycle _
  · rfl

theorem output_idle (r : Run) : r.idle.1.state.output = r.state.output := by
  unfold idle
  split
  · exact output_beginCycle r
  · exact output_beginCycle r
  · rfl
  · rfl

/-- **A call adds to the output what the pending instruction writes.** -/
theorem output_step (r : Run) :
    r.step.1.state.output.toList = r.state.output.toList ++ r.pending?.elim [] State.written := by
  rw [step_eq]
  cases hp : r.pending? with
  | none => simp [output_idle]
  | some s =>
    obtain rfl := state_of_pending? hp
    rw [output_resume]
    exact r.state.writes_exec r.input

section
variable {r : Run} {ts : List State} {ending : Except Fault State}

theorem writes_step {s : State} (h : r.pending? = some s) : s.Writes r.step.1.state := by
  obtain rfl := state_of_pending? h
  have out := output_step r
  rwa [h] at out

theorem Plays.exists_eq_cons (h : r.Plays ts ending) :
    ∃ ss, ts ++ [(r.after (ts.length + 1)).state] = r.step.1.state :: ss := by
  cases h with
  | fault h => exact ⟨[], rfl⟩
  | done h => exact ⟨[], rfl⟩
  | @next _ t ts _ h tail =>
    obtain rfl := state_of_pending? (pending?_step h)
    exact ⟨_, rfl⟩

/-- **The states of a run follow each other with what their instructions write**, to the one in the end. -/
theorem Plays.isChain_writes (h : r.Plays ts ending) :
    (ts ++ [(r.after (ts.length + 1)).state]).IsChain State.Writes := by
  induction h with
  | fault h => exact List.isChain_singleton _
  | done h => exact List.isChain_singleton _
  | @next r t ts ending h tail ih =>
    obtain ⟨ss, hss⟩ := tail.exists_eq_cons
    rw [List.length_cons, after_succ', List.cons_append]
    rw [hss] at ih ⊢
    exact List.isChain_cons_cons.mpr ⟨writes_step (pending?_step h), ih⟩

end

end Run

/-! ### The parts of the output -/

namespace Echo

/-- The parts of the output that an echo has not seen in one state after another. -/
def slices (e : Echo) : List State → List (List UInt8)
  | [] => []
  | s :: ss => (e.unseen s).2.toList :: (e.unseen s).1.slices ss

@[simp] theorem styled_unseen (e : Echo) (s : State) : (e.unseen s).1.styled = e.styled := rfl

theorem toList_unseen (e : Echo) (s : State) :
    (e.unseen s).2.toList = s.output.toList.drop e.shown := by
  rw [unseen, Array.toList_extract, List.extract_eq_take_drop]
  exact List.take_of_length_le (by simp)

section
variable {s : State} {ss : List State}

theorem slices_of_isChain (h : (s :: ss).IsChain State.Writes) (e : Echo) :
    e.slices (s :: ss) = s.output.toList.drop e.shown :: (s :: ss).dropLast.map State.written := by
  induction ss generalizing s e with
  | nil => simp [slices, toList_unseen]
  | cons t ss ih =>
    obtain ⟨writes, rest⟩ := List.isChain_cons_cons.mp h
    have next : t.output.toList.drop (e.unseen s).1.shown = s.written := by
      rw [writes]
      exact List.drop_left
    rw [slices, ih rest, toList_unseen, next, List.dropLast_cons_cons, List.map_cons]

theorem output_getLast_of_isChain (h : (s :: ss).IsChain State.Writes) :
    ((s :: ss).getLast (List.cons_ne_nil s ss)).output.toList =
      s.output.toList ++ ((s :: ss).dropLast.map State.written).flatten := by
  induction ss generalizing s with
  | nil => simp
  | cons t ss ih =>
    obtain ⟨writes, rest⟩ := List.isChain_cons_cons.mp h
    rw [List.getLast_cons (List.cons_ne_nil t ss), ih rest, writes, List.dropLast_cons_cons,
      List.map_cons, List.flatten_cons, List.append_assoc]

end

end Echo

/-! ### The texts of the monitor -/

namespace Monitor

/-- What a monitor answers over a run: to each state that is shown, and in the end. -/
def texts (m : Monitor) (last : State) : List State → List String
  | [] => [(m.finish last).2]
  | s :: ss =>
    let (m, text) := m.observe s.ticks s.pc s.fetch s
    text :: m.texts last ss

end Monitor

namespace Echo

theorem text_close (e : Echo) (s : State) : (e.close s).2 =
    (e.update s).2 ++ (if !e.styled && !s.output.isEmpty then "\n" else "") := by
  rw [close, update]
  dsimp only
  rw [styled_unseen]
  split
  · rfl
  · rw [String.append_empty]

/-- An echo over a run prints the parts that it has not seen, and a line end after plain output. -/
theorem join_texts (e : Echo) (last : State) (ts : List State) :
    String.join ((Monitor.echo e).texts last ts) =
      String.join ((e.slices (ts ++ [last])).flatten.map (showByte e.styled)) ++
        (if !e.styled && !last.output.isEmpty then "\n" else "") := by
  induction ts generalizing e with
  | nil =>
    rw [Monitor.texts, Monitor.finish, String.join_cons, String.join_nil, String.append_empty,
      text_close, List.nil_append, slices, slices, List.flatten_singleton]
    rfl
  | cons s ss ih =>
    have rest := ih (e.unseen s).1
    rw [styled_unseen] at rest
    rw [List.cons_append, slices, List.flatten_cons, List.map_append, String.join_append,
      String.append_assoc, ← rest, ← String.join_cons]
    rfl

/-! ### A whole run -/

/-- An echo loses and repeats nothing of the output of a run, which shows some states before the last. -/
structure Echoed (e : Echo) (ts : List State) (last : State) : Prop where
  prefixes : ((ts ++ [last]).map (·.output.toList)).IsChain (· <+: ·)
  /-- Each part but the first, which is empty, is what the instruction in a state has written. -/
  slices_eq : e.slices (ts ++ [last]) = [] :: ts.map State.written
  flatten_slices : (e.slices (ts ++ [last])).flatten = last.output.toList
  /-- The monitor prints the bytes of the output, and a line end after plain output. -/
  texts : String.join ((Monitor.echo e).texts last ts) =
    String.join (last.output.toList.map (showByte e.styled)) ++
      (if !e.styled && !last.output.isEmpty then "\n" else "")

/-- **Nothing of the output is lost or repeated**: for every image and every input, on every budget but
the largest, and however the run ends. -/
theorem output_echoed {image : List UInt8} {memory : Memory} {budget : UInt64}
    (hm : Image.load image = .ok memory) (input : Array UInt8) (hb : budget.toNat < UInt64.size - 1)
    (styled : Bool) :
    ∃ r ts ending, Run.ofImage image input budget = .ok r ∧ r.Plays ts ending ∧
      (r.after (ts.length + 1)).isOver = true ∧
      Echoed (.fresh styled) ts (r.after (ts.length + 1)).state := by
  obtain ⟨r, n, ending, hr, hp, empty, -, -, plays, -⟩ := Run.exists_plays_ofImage hm input hb
  generalize (State.ofMemory memory).shown input n = ts at plays
  have opened := Run.isOver_of_ready hp
  refine ⟨r, ts, ending, hr, plays, (plays.isOver_after_iff opened _).mpr (Nat.lt_succ_self _), ?_⟩
  have chain := plays.isChain_writes
  obtain ⟨ss, hss⟩ := plays.exists_eq_cons
  generalize (r.after (ts.length + 1)).state = last at chain hss ⊢
  -- nothing is pending before the first call, so nothing has been written after it
  have first : r.step.1.state.output.toList = [] := by
    rw [Run.output_step, empty, Run.pending?, hp]
    rfl
  have parts : (Echo.fresh styled).slices (ts ++ [last]) = [] :: ts.map State.written := by
    have parts := slices_of_isChain (hss ▸ chain) (.fresh styled)
    rwa [← hss, first, List.drop_nil, List.dropLast_concat] at parts
  have whole : ((Echo.fresh styled).slices (ts ++ [last])).flatten = last.output.toList := by
    have whole := output_getLast_of_isChain (hss ▸ chain)
    simp only [← hss, first, List.nil_append, List.dropLast_concat, List.getLast_concat] at whole
    rw [parts, whole, List.flatten_cons, List.nil_append]
  constructor
  case prefixes =>
    rw [List.isChain_map]
    exact chain.imp fun s t writes => ⟨s.written, writes.symm⟩
  case slices_eq => exact parts
  case flatten_slices => exact whole
  case texts => rw [join_texts, whole]

/-- A program that writes a byte and then faults: the byte is a part of its own. -/
theorem output_echoed_write :
    ∃ r ts ending, Run.ofImage (Image.ofPayload [0x16, 0x00, 0x0B, 0x00]) #[] 9 = .ok r ∧
      r.Plays ts ending ∧ Echoed (.fresh false) ts (r.after (ts.length + 1)).state ∧
      [0] ∈ (Echo.fresh false).slices (ts ++ [(r.after (ts.length + 1)).state]) := by
  have hm : Image.load (Image.ofPayload [0x16, 0x00, 0x0B, 0x00]) =
      .ok (Image.memoryOf [0x16, 0x00, 0x0B, 0x00]) := Image.load_eq_ok (by decide)
  have budget : (9 : UInt64).toNat < UInt64.size - 1 := by decide
  obtain ⟨r, ts, ending, hr, plays, -, echoed⟩ := output_echoed hm #[] budget false
  refine ⟨r, ts, ending, hr, plays, echoed, ?_⟩
  obtain rfl := Run.eq_ofMemory hm hr
  have shown : ts[0]? =
      some ((State.ofMemory (Image.memoryOf [0x16, 0x00, 0x0B, 0x00])).withTicks 1) :=
    (plays.pending?_after 0).symm
  have fetched : (State.ofMemory (Image.memoryOf [0x16, 0x00, 0x0B, 0x00])).fetch =
      Word.ofBytes 0x16 0x00 := State.fetch_of_memoryOf rfl (by decide) rfl rfl
  have write : Instruction.ofWord? (Word.ofBytes 0x16 0x00) = some (.write 0) := by decide
  rw [echoed.slices_eq]
  refine List.mem_cons_of_mem _ (List.mem_map.mpr ⟨_, List.mem_of_getElem? shown, ?_⟩)
  rw [State.written, State.fetch_withTicks, fetched, write]
  rfl

end Echo

end ByteMachine
