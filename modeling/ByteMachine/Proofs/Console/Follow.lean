import ByteMachine.Console.Emulator
import ByteMachine.Proofs.Machine.HandOut

/-!
# What the observers are told

The emulator follows a run in a loop: it takes what the run hands out, and tells its observers of each state
that is shown. The instruction is not carried out in that call but in the next one, so what the observers are
told is right only if nothing happens to the machine in between.

* `report` is the loop without the run: the answers to some notices, one after another. `follow_of_plays` says
  that the loop over a run tells the observers of the states that it shows, and of nothing else, whatever the
  observers are. A `Recorder` is an observer that keeps what it is told.
* `monitors_told`: the notices are numbered from one on, and they go along with the instructions of the
  run in lockstep. The state of each is the one in which the next call carries out an instruction, its
  word is the one that is decoded there, and no instruction is carried out without a notice.
-/

namespace ByteMachine

/-- An instruction word carried out in a state, wherever the word comes from. -/
def State.execWord (s : State) (input : Array UInt8) (word : UInt16) : State × Except Fault Progress :=
  match Instruction.ofWord? word with
  | none =>
    let fields := Fields.ofWord word
    (s.advance, .error (.unsupportedOperation s.pc fields.opcode fields.op))
  | some i =>
    match s.fault? input i with
    | some fault => (s.advance, .error fault)
    | none => (s.advance.perform input i, .ok (progress i))

theorem State.exec_eq_execWord (s : State) (input : Array UInt8) :
    s.exec input = s.execWord input s.fetch := rfl

/-- Prints what observers answer to some notices, and goes on with the observers after them. -/
def Observer.report {α : Type} [Observer α] (observers : List α) (next : List α → Console.Script) :
    List Notice → Console.Script
  | [] => next observers
  | n :: rest =>
    let (observers, text) := observeAll observers n
    .print text fun _ => report observers next rest

/-- An observer that keeps what it is told, and answers nothing. -/
structure Recorder where
  notices : List Notice

instance : Observer Recorder where
  start r _ := (r, "")
  observe r n := (⟨r.notices ++ [n]⟩, "")
  finish r _ := (r, "")

/-- Prints nothing, some times. -/
def Console.Script.silently (next : Script) : Nat → Script
  | 0 => next
  | n + 1 => .print "" fun _ => next.silently n

/-- The recorder, told of some more. -/
def Recorder.add (r : Recorder) (notices : List Notice) : Recorder := ⟨r.notices ++ notices⟩

theorem observeAll_recorders (rs : List Recorder) (n : Notice) :
    Observer.observeAll rs n = (rs.map (·.add [n]), "") := by
  have silent : String.join (rs.map fun _ => "") = "" := by
    induction rs with
    | nil => rfl
    | cons r rest ih => rw [List.map_cons, String.join_cons, ih, String.append_empty]
  rw [Observer.observeAll, Observer.askAll]
  simp only [List.map_map]
  exact congrArg (Prod.mk _) silent

theorem report_recorders (rs : List Recorder) (next : List Recorder → Console.Script)
    (notices : List Notice) :
    Observer.report rs next notices = (next (rs.map (·.add notices))).silently notices.length := by
  induction notices generalizing rs with
  | nil => simp [Observer.report, Console.Script.silently, Recorder.add]
  | cons n rest ih =>
    rw [Observer.report, observeAll_recorders]
    simp only [ih, List.map_map, List.length_cons, Console.Script.silently]
    simp [Function.comp_def, Recorder.add]

namespace Console.Emulator

open Run

/-- The fault by which something has ended. -/
def fault? {α : Type} : Except Fault α → Option Fault
  | .ok _ => none
  | .error fault => some fault

section
variable {α : Type} [Observer α] (observers : List α) (fault : Option Fault)
  (next : Run → List α → Option Fault → Script)

theorem follow_of_isOver {r : Run} (h : r.isOver = true) (n : Nat) :
    follow r observers fault next n = next r observers fault := by
  cases n with
  | zero => rfl
  | succ n => rw [follow, next_of_isOver h]

/-- One turn of the loop on a run that goes on. A fault is kept and the loop left, since the run is over
then. -/
theorem follow_of_not_isOver {r : Run} (h : r.isOver = false) (n : Nat) :
    follow r observers fault next (n + 2) =
      match r.step with
      | (r, .error last) => next r observers (some last)
      | (r, .ok ⟨_, true⟩) => next r observers fault
      | (r, .ok ⟨s, false⟩) =>
        let (observers, text) := Observer.observeAll observers (.ofState s)
        .print text fun _ => follow r observers fault next (n + 1) := by
  have ended := isOver_step r
  rw [follow, next_of_not_isOver h]
  rcases hs : r.step with ⟨r', last | ⟨s, _ | _⟩⟩
  · rw [hs] at ended
    exact follow_of_isOver observers (some last) next ended (n + 1)
  · rfl
  · rfl

/-- **The loop of the emulator** tells the observers of the states that the run shows, in order, and leaves
with the fault of the run if there was one. -/
theorem follow_of_plays {r : Run} {ts : List State} {ending : Except Fault State}
    (h : r.Plays ts ending) (hr : r.isOver = false) (k : Nat) :
    follow r observers none next (ts.length + 2 + k) =
      Observer.report observers (fun os => next (r.after (ts.length + 1)) os (fault? ending))
        (ts.map Notice.ofState) := by
  induction h generalizing observers with
  | @fault r fault h =>
    rw [List.length_nil, Nat.zero_add, Nat.add_comm, follow_of_not_isOver observers none next hr]
    rcases hs : r.step with ⟨last, result⟩
    rw [hs] at h
    subst h
    simp [Run.after, hs, Observer.report, fault?]
  | @done r t h =>
    rw [List.length_nil, Nat.zero_add, Nat.add_comm, follow_of_not_isOver observers none next hr]
    rcases hs : r.step with ⟨last, result⟩
    rw [hs] at h
    subst h
    simp [Run.after, hs, Observer.report, fault?]
  | @next r t ts ending h tail ih =>
    have opened : r.step.1.isOver = false := by
      rw [isOver_step, h]
      rfl
    have turns : (t :: ts).length + 2 + k = ts.length + 1 + k + 2 := by
      rw [List.length_cons]
      omega
    rw [turns, follow_of_not_isOver observers none next hr, List.length_cons, after_succ']
    rcases hs : r.step with ⟨last, result⟩
    rw [hs] at h ih opened
    subst h
    have rest : ts.length + 1 + k + 1 = ts.length + 2 + k := by omega
    simp only [rest, ih _ opened, List.map_cons, Observer.report]

theorem follow_callLimit {r : Run} {ts : List State} {ending : Except Fault State}
    (h : r.Plays ts ending) (hr : r.isOver = false) (hts : ts.length ≤ r.budget.toNat) :
    follow r observers none next (r.callLimit + 1) =
      Observer.report observers (fun os => next (r.after (ts.length + 1)) os (fault? ending))
        (ts.map Notice.ofState) := by
  obtain ⟨k, hk⟩ := Nat.exists_eq_add_of_le hts
  rw [← follow_of_plays observers next h hr k, callLimit, hk, Nat.add_right_comm _ 2 k]

end

/-! ### Notices and instructions -/

/-- The notices of a run go along with the instructions that it carries out. -/
structure Told (r : Run) (notices : List Notice) : Prop where
  /-- Whatever the observers are, the loop tells them of these notices, in this order, and of nothing else. -/
  follow_eq : ∃ fault, ∀ {α : Type} [Observer α] (observers : List α) next,
    follow r observers none next (r.callLimit + 1) =
      Observer.report observers (fun os => next (r.after (notices.length + 1)) os fault) notices
  /-- Observers that keep what they are told have each of these notices once, in this order. -/
  recorded : ∃ fault, ∀ (recorders : List Recorder) next, follow r recorders none next (r.callLimit + 1) =
    (next (r.after (notices.length + 1)) (recorders.map (·.add notices)) fault).silently notices.length
  isOver : (r.after (notices.length + 1)).isOver = true
  tick_eq : ∀ i n, notices[i]? = some n → n.tick.toNat = i + 1
  length_eq : notices.length = min (r.after (notices.length + 1)).state.ticks.toNat r.budget.toNat
  of_state : ∀ n ∈ notices, n.address = n.state.pc ∧ n.word = n.state.fetch
  /-- Call by call, the instructions are carried out in the states of the notices, and only there. -/
  pending?_zero : (r.after 0).pending? = none
  pending?_succ : ∀ i, (r.after (i + 1)).pending? = notices[i]?.map Notice.state
  /-- The next call carries out the word of the notice in the state of the notice. -/
  step_eq : ∀ i n, notices[i]? = some n →
    (r.after (i + 1)).step = (r.after (i + 1)).resume (n.state.execWord r.input n.word)
  idle_eq : ∀ i, (r.after i).pending? = none → (r.after i).step = (r.after i).idle

/-- **Every instruction is told of before it is carried out**, once and as it is: for every image and every
input, on every budget but the largest, and however the run ends. -/
theorem monitors_told {image : List UInt8} {memory : Memory} {budget : UInt64}
    (hm : Image.load image = .ok memory) (input : Array UInt8) (hb : budget.toNat < UInt64.size - 1) :
    ∃ r notices, Run.ofImage image input budget = .ok r ∧ r.input = input ∧ r.budget = budget ∧
      Told r notices := by
  obtain ⟨r, n, ending, hr, hp, -, rfl, rfl, plays, hn⟩ := exists_plays_ofImage hm input hb
  generalize hts : (State.ofMemory memory).shown r.input n = ts at plays
  have length : ts.length = n := by rw [← hts, State.length_shown]
  have within : n ≤ r.budget.toNat := hn ▸ Nat.min_le_right _ _
  have notice {i : Nat} {a : Notice} (ha : (ts.map Notice.ofState)[i]? = some a) :
      ∃ t, ts[i]? = some t ∧ Notice.ofState t = a := by
    rwa [List.getElem?_map, Option.map_eq_some_iff] at ha
  refine ⟨r, ts.map Notice.ofState, hr, rfl, rfl, ?_⟩
  rw [← length] at hn within
  have opened := isOver_of_ready hp
  constructor
  case follow_eq =>
    refine ⟨fault? ending, fun observers next => ?_⟩
    rw [List.length_map]
    exact follow_callLimit observers next plays opened within
  case recorded =>
    refine ⟨fault? ending, fun recorders next => ?_⟩
    rw [follow_callLimit _ next plays opened within, report_recorders, List.length_map]
  case isOver =>
    rw [List.length_map]
    exact (plays.isOver_after_iff opened _).mpr (Nat.lt_succ_self _)
  case tick_eq =>
    intro i a ha
    obtain ⟨t, ht, rfl⟩ := notice ha
    rw [← hts] at ht
    exact ticks_of_shown (by omega) ht
  case length_eq => rwa [List.length_map]
  case of_state =>
    intro a ha
    obtain ⟨t, -, rfl⟩ := List.mem_map.mp ha
    exact ⟨rfl, rfl⟩
  case pending?_zero => simp [after, pending?, hp]
  case pending?_succ =>
    intro i
    rw [plays.pending?_after, List.getElem?_map, Option.map_map]
    exact Option.map_id'.symm
  case step_eq =>
    intro i a ha
    obtain ⟨t, ht, rfl⟩ := notice ha
    simp only [Run.step_eq, plays.pending?_after, ht, (r.same_after _).1, State.exec_eq_execWord,
      Notice.ofState]
  case idle_eq =>
    intro i hi
    rw [Run.step_eq, hi]

theorem Told.getElem?_eq {r : Run} {notices : List Notice} (h : Told r notices) {i : Nat} {s : State}
    (hs : (r.after (i + 1)).pending? = some s) :
    notices[i]? = some ⟨.ofNat (i + 1), s.pc, s.fetch, s⟩ := by
  rw [h.pending?_succ, Option.map_eq_some_iff] at hs
  obtain ⟨n, hn, rfl⟩ := hs
  obtain ⟨address, word⟩ := h.of_state n (List.mem_of_getElem? hn)
  rw [hn, ← h.tick_eq i n hn, UInt64.ofNat_toNat, ← address, ← word]

/-- A program that overwrites its last instruction, which does nothing, by a return. -/
def overwritten : List UInt8 := [0x21, 0x0B, 0x63, 0x00, 0x14, 0x02, 0x0C, 0x00]

/-- The states of `overwritten` in its four cycles. -/
def overwrittenAt (n : Nat) : State :=
  ([Instruction.setImmediate (.ofNibble 2) 0x0B, .locate 6, .store (.ofNibble 2)].take n).foldl (·.cycle #[])
    ((State.ofMemory (Image.memoryOf overwritten)).withTicks 1)

theorem memory_overwrittenAt :
    (overwrittenAt 3).memory = Image.memoryOf [0x21, 0x0B, 0x63, 0x00, 0x14, 0x02, 0x0B, 0x00] :=
  Image.set_memoryOf overwritten (by decide) 0x0B

theorem after_overwritten {r : Run} (h : r.after 1 = ⟨overwrittenAt 0, #[], 9, .shown⟩) :
    r.after 2 = ⟨overwrittenAt 1, #[], 9, .shown⟩ ∧ r.after 3 = ⟨overwrittenAt 2, #[], 9, .shown⟩ ∧
      r.after 4 = ⟨overwrittenAt 3, #[], 9, .shown⟩ ∧
      r.after 5 = ⟨(overwrittenAt 3).advance, #[], 9, .faulted (.noReturnAddress 6)⟩ := by
  have hsize : overwritten.length ≤ memorySize := by decide
  have set : r.after 2 = ⟨overwrittenAt 1, #[], 9, .shown⟩ :=
    after_succ_of_memoryOf overwritten (i := .setImmediate 2 0x0B) h rfl hsize (by decide)
      rfl (by decide) rfl (by decide)
  have located : r.after 3 = ⟨overwrittenAt 2, #[], 9, .shown⟩ :=
    after_succ_of_memoryOf overwritten (i := .locate 6) set rfl hsize (by decide)
      rfl (by decide) rfl (by decide)
  have stored : r.after 4 = ⟨overwrittenAt 3, #[], 9, .shown⟩ :=
    after_succ_of_memoryOf overwritten (i := .store 2) located rfl hsize (by decide)
      rfl (by decide) rfl (by decide)
  have ret : Instruction.ofWord? (overwrittenAt 3).fetch = some .ret := by
    rw [State.fetch_eq_of_memoryOf _ memory_overwrittenAt (by decide)]
    decide
  refine ⟨set, located, stored, ?_⟩
  rw [after, stored, step_of_exec_error (r := ⟨overwrittenAt 3, #[], 9, .shown⟩) rfl
    (State.exec_of_fault ret rfl)]
  rfl

/-- The last word is told of as it is carried out, with its first byte overwritten. It faults, and nothing is
told of after it. -/
theorem monitors_told_overwritten :
    ∃ r notices, Run.ofImage (Image.ofPayload overwritten) #[] 9 = .ok r ∧ Told r notices ∧
      notices = [⟨1, 0, 0x0B21, overwrittenAt 0⟩, ⟨2, 2, 0x0063, overwrittenAt 1⟩,
        ⟨3, 4, 0x0214, overwrittenAt 2⟩, ⟨4, 6, 0x000B, overwrittenAt 3⟩] := by
  have hm : Image.load (Image.ofPayload overwritten) = .ok (Image.memoryOf overwritten) :=
    Image.load_eq_ok (by decide)
  have budget : (9 : UInt64).toNat < UInt64.size - 1 := by decide
  obtain ⟨r, notices, hr, -, -, told⟩ := monitors_told hm #[] budget
  refine ⟨r, notices, hr, told, ?_⟩
  have start : r.after 1 = ⟨overwrittenAt 0, #[], 9, .shown⟩ := by
    rw [eq_ofMemory hm hr]
    rfl
  obtain ⟨set, located, stored, faulted⟩ := after_overwritten start
  have notice {i : Nat} {s : State} (h : r.after (i + 1) = ⟨s, #[], 9, .shown⟩) :
      notices[i]? = some ⟨.ofNat (i + 1), s.pc, s.fetch, s⟩ :=
    told.getElem?_eq (by rw [h]; rfl)
  have last : notices.length ≤ 4 := by
    have none := told.pending?_succ 4
    rw [faulted, eq_comm] at none
    exact List.getElem?_eq_none_iff.mp (Option.map_eq_none_iff.mp none)
  have hsize : overwritten.length ≤ memorySize := by decide
  have word0 : (overwrittenAt 0).fetch = 0x0B21 :=
    State.fetch_eq_of_memoryOf overwritten rfl hsize
  have word1 : (overwrittenAt 1).fetch = 0x0063 :=
    State.fetch_eq_of_memoryOf overwritten rfl hsize
  have word2 : (overwrittenAt 2).fetch = 0x0214 :=
    State.fetch_eq_of_memoryOf overwritten rfl hsize
  have word3 : (overwrittenAt 3).fetch = 0x000B :=
    State.fetch_eq_of_memoryOf _ memory_overwrittenAt (by decide)
  refine List.ext_getElem? fun i => ?_
  match i with
  | 0 => exact (notice start).trans (by rw [word0]; rfl)
  | 1 => exact (notice set).trans (by rw [word1]; rfl)
  | 2 => exact (notice located).trans (by rw [word2]; rfl)
  | 3 => exact (notice stored).trans (by rw [word3]; rfl)
  | i + 4 =>
    have behind : notices.length ≤ i + 4 := by omega
    exact (List.getElem?_eq_none behind).trans (List.getElem?_eq_none (Nat.le_add_left 4 i)).symm

end Console.Emulator

end ByteMachine
