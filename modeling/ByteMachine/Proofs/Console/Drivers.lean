import ByteMachine.Proofs.Console.Follow

/-!
# The drivers of a run agree

Three loops drive a run to its end, each with its own test for the end: collecting what `next` hands out,
until it hands out nothing; `execute`, until a snapshot is done; and the loop of the emulator, which
takes what `next` hands out, is left when a snapshot is done, and keeps a fault aside until nothing more is
handed out. They see the same finite list of results (`items`).

* `Plays.collects`, `execute_of_plays` and `follow_of_plays` say what each loop makes of a run that shows
  some states and then ends; `drivers_agree` puts them together for the run of an image.
* `outcomes_after`: whoever holds a run may ask for all that it answers, in any order. The results that
  come of such a conversation are the first of the same list, and the last of it again and again.
-/

namespace ByteMachine.Run

open Console.Emulator

/-! ### One list of results -/

/-- The results of a run that shows some states and then ends. -/
def items (ts : List State) (ending : Except Fault State) : List (Except Fault Snapshot) :=
  ts.map (fun t => .ok ⟨t, false⟩) ++ [closing ending]

/-- Collecting what `next` hands out until it hands out nothing: the results, and the run after them. -/
inductive Collects : Run → List (Except Fault Snapshot) → Run → Prop
  | done {r : Run} (h : r.next = (r, none)) : Collects r [] r
  | more {r r' last : Run} {result : Except Fault Snapshot} {results : List (Except Fault Snapshot)}
    (h : r.next = (r', some result)) (tail : Collects r' results last) :
    Collects r (result :: results) last

/-- A bound on the number of calls cuts the collection off. -/
theorem Collects.results_eq {r last : Run} {results : List (Except Fault Snapshot)}
    (h : r.Collects results last) (n : Nat) : r.results n = results.take n := by
  induction h generalizing n with
  | done h =>
    cases n with
    | zero => rfl
    | succ n => simp [Run.results, h]
  | more h tail ih =>
    cases n with
    | zero => rfl
    | succ n => simp [Run.results, h, ih]

theorem Collects.unique {r last last' : Run} {results results' : List (Except Fault Snapshot)}
    (h : r.Collects results last) (h' : r.Collects results' last') : results = results' := by
  induction h generalizing results' with
  | done h =>
    cases h' with
    | done => rfl
    | more h' =>
      rw [h] at h'
      cases h'
  | more h tail ih =>
    cases h' with
    | done h' =>
      rw [h] at h'
      cases h'
    | more h' tail' =>
      rw [h] at h'
      cases h'
      rw [ih tail']

theorem fst_next (r : Run) : r.next.1 = r.step.1 := by
  cases h : r.isOver with
  | true => rw [next_of_isOver h, step_fst_of_isOver h]
  | false => rw [next_of_not_isOver h]

section
variable {r : Run} {ts : List State} {ending : Except Fault State}

@[simp] theorem length_items : (items ts ending).length = ts.length + 1 := by simp [items]

@[simp] theorem getLast?_items : (items ts ending).getLast? = some (closing ending) := by simp [items]

theorem dropLast_items : (items ts ending).dropLast = ts.map fun t => .ok ⟨t, false⟩ := by simp [items]

/-- **Every call of `step` answers the result in its place**, and the last one from then on. -/
theorem Plays.step_snd (h : r.Plays ts ending) (n : Nat) :
    (r.after n).step.2 = (items ts ending)[n]?.getD (closing ending) := by
  rcases Nat.lt_or_ge n ts.length with hn | hn
  · have shown : (items ts ending)[n]? = some (.ok ⟨ts[n], false⟩) := by
      rw [items, List.getElem?_append_left (by simpa), List.getElem?_map,
        List.getElem?_eq_getElem hn]
      rfl
    rw [h.step_of_getElem? (List.getElem?_eq_getElem hn), shown, Option.getD_some]
  · rw [h.step_of_length_le hn]
    obtain rfl | hlt := Nat.eq_or_lt_of_le hn
    · simp [items]
    · rw [List.getElem?_eq_none (by rw [length_items]; exact hlt), Option.getD_none]

/-- **Every call of `next` hands out the result in its place**, and nothing from then on. -/
theorem Plays.next_snd (h : r.Plays ts ending) (hr : r.isOver = false) (n : Nat) :
    (r.after n).next.2 = (items ts ending)[n]? := by
  have ended := h.isOver_after_iff hr n
  rcases Nat.lt_or_ge ts.length n with hn | hn
  · rw [next_of_isOver (ended.mpr hn), List.getElem?_eq_none (by rw [length_items]; exact hn)]
  · have opened : (r.after n).isOver = false := by
      rw [← Bool.not_eq_true, ended]
      omega
    have inside : n < (items ts ending).length := by
      rw [length_items]
      omega
    rw [next_of_not_isOver opened, h.step_snd, List.getElem?_eq_getElem inside, Option.getD_some]

/-- **Collecting a run gives its results.** -/
theorem Plays.collects (h : r.Plays ts ending) (hr : r.isOver = false) :
    r.Collects (items ts ending) (r.after (ts.length + 1)) := by
  have ended : r.step.1.isOver = !goesOn r.step.2 := isOver_step r
  induction h with
  | fault h =>
    rw [h] at ended
    exact .more (by rw [next_of_not_isOver hr, h]; rfl) (.done (next_of_isOver ended))
  | done h =>
    rw [h] at ended
    exact .more (by rw [next_of_not_isOver hr, h]; rfl) (.done (next_of_isOver ended))
  | @next r t ts ending h tail ih =>
    rw [h] at ended
    rw [List.length_cons, after_succ']
    exact .more (by rw [next_of_not_isOver hr, h]) (ih ended (isOver_step _))

end

/-! ### Conversations -/

/-- What can be asked of a run. -/
inductive Request where
  | step
  | next
  | state
  | isOver
  | budget

/-- What a run answers. -/
inductive Reply where
  | step (result : Except Fault Snapshot)
  | next (result : Option (Except Fault Snapshot))
  | state (s : State)
  | isOver (b : Bool)
  | budget (n : UInt64)

/-- The run after a request, and its answer. -/
def respond (r : Run) : Request → Run × Reply
  | .step => (r.step.1, .step r.step.2)
  | .next => (r.next.1, .next r.next.2)
  | .state => (r, .state r.state)
  | .isOver => (r, .isOver r.isOver)
  | .budget => (r, .budget r.budget)

/-- The run after some requests, and its answers. -/
def converse (r : Run) : List Request → Run × List Reply
  | [] => (r, [])
  | q :: qs =>
    let (r, reply) := r.respond q
    let (r, replies) := r.converse qs
    (r, reply :: replies)

/-- The number of calls of `step` that a request makes. -/
def Request.calls : Request → Nat
  | .step | .next => 1
  | .state | .isOver | .budget => 0

/-- The number of calls of `step` that some requests make. -/
def calls : List Request → Nat
  | [] => 0
  | q :: qs => q.calls + calls qs

/-- The result that an answer brings. -/
def Reply.result? : Reply → Option (Except Fault Snapshot)
  | .step result => some result
  | .next result => result
  | .state _ | .isOver _ | .budget _ => none

/-- The results that come of some requests. -/
def outcomes (r : Run) (qs : List Request) : List (Except Fault Snapshot) :=
  (r.converse qs).2.filterMap Reply.result?

theorem fst_respond (r : Run) (q : Request) : (r.respond q).1 = r.after q.calls := by
  cases q with
  | next => exact fst_next r
  | _ => rfl

theorem fst_converse (r : Run) (qs : List Request) : (r.converse qs).1 = r.after (calls qs) := by
  induction qs generalizing r with
  | nil => rfl
  | cons q qs ih =>
    rw [calls, after_add, ← fst_respond]
    exact ih _

theorem outcomes_cons (r : Run) (q : Request) (qs : List Request) :
    r.outcomes (q :: qs) = (r.respond q).2.result?.toList ++ (r.after q.calls).outcomes qs := by
  rw [outcomes, converse, ← fst_respond]
  cases h : (r.respond q).2.result? with
  | none => exact List.filterMap_cons_none h
  | some result => exact List.filterMap_cons_some h

section
variable {r : Run} {ts : List State} {ending : Except Fault State}

/-- A request brings no result and calls nothing; or it makes a call and brings the result in its place;
or it repeats the last result. -/
theorem Plays.respond_cases (h : r.Plays ts ending) (hr : r.isOver = false) (q : Request) (n : Nat) :
    (q.calls = 0 ∧ ((r.after n).respond q).2.result? = none) ∨
    (q.calls = 1 ∧ ((r.after n).respond q).2.result? = (items ts ending)[n]?) ∨
    (q.calls = 1 ∧ (items ts ending).length ≤ n ∧
      ((r.after n).respond q).2.result? = some (closing ending)) := by
  cases q with
  | step =>
    have answer : ((r.after n).respond .step).2.result? =
        some ((items ts ending)[n]?.getD (closing ending)) := by
      rw [← h.step_snd]
      rfl
    rcases Nat.lt_or_ge n (items ts ending).length with hn | hn
    · rw [List.getElem?_eq_getElem hn, Option.getD_some, ← List.getElem?_eq_getElem hn] at answer
      exact .inr (.inl ⟨rfl, answer⟩)
    · rw [List.getElem?_eq_none hn] at answer
      exact .inr (.inr ⟨rfl, hn, answer⟩)
  | next => exact .inr (.inl ⟨rfl, h.next_snd hr n⟩)
  | _ => exact .inl ⟨rfl, rfl⟩

/-- **The results of a conversation are the next ones of the list**, and once there are no more of them,
the last one again. -/
theorem Plays.outcomes_after (h : r.Plays ts ending) (hr : r.isOver = false) (qs : List Request)
    (n : Nat) : ∃ m, (r.after n).outcomes qs =
      ((items ts ending).drop n).take (calls qs) ++ List.replicate m (closing ending) ∧
        (n + calls qs ≤ (items ts ending).length → m = 0) := by
  induction qs generalizing n with
  | nil => exact ⟨0, by simp [outcomes, converse, calls], fun _ => rfl⟩
  | cons q qs ih =>
    obtain ⟨m, rest, none⟩ := ih (n + q.calls)
    rw [outcomes_cons, ← after_add, rest, calls, ← Nat.add_assoc]
    -- no call; a call that brings the next result of the list; a call behind the end of the list
    rcases h.respond_cases hr q n with ⟨hq, answer⟩ | ⟨hq, answer⟩ | ⟨hq, hn, answer⟩
    · rw [answer, hq, Nat.add_zero, Nat.zero_add]
      rw [hq] at none
      exact ⟨m, rfl, none⟩
    · refine ⟨m, ?_, none⟩
      rw [answer, hq, List.drop_eq_getElem?_toList_append (i := n), ← List.append_assoc]
      congr 1
      cases hx : (items ts ending)[n]? with
      | some x =>
        rw [Option.toList_some, List.singleton_append, List.singleton_append, Nat.add_comm 1 (calls qs),
          List.take_succ_cons]
      | none =>
        have past := List.getElem?_eq_none_iff.mp hx
        simp [List.drop_eq_nil_of_le (Nat.le_succ_of_le past)]
    · refine ⟨m + 1, ?_, fun within => by omega⟩
      rw [answer, hq, List.drop_eq_nil_of_le hn, List.drop_eq_nil_of_le (Nat.le_succ_of_le hn)]
      simp [List.replicate_succ]

end

/-! ### Agreement -/

/-- The drivers of a run, the collecting one, `execute` and the loop of the emulator, agree on a list of
results and on the last of them. -/
structure Agree (image : List UInt8) (input : Array UInt8) (budget : UInt64) (r : Run)
    (results : List (Except Fault Snapshot)) (last : Except Fault Snapshot) : Prop where
  collects : r.Collects results (r.after results.length)
  results_eq : ∀ n, r.results n = results.take n
  getLast? : results.getLast? = some last
  last_ends : (∃ t, last = .ok ⟨t, true⟩) ∨ ∃ fault, last = .error fault
  dropLast_goes : ∀ result ∈ results.dropLast, ∃ t, result = .ok ⟨t, false⟩
  execute_eq_ok_iff : ∀ t, execute image input budget = .ok t ↔ last = .ok ⟨t, true⟩
  execute_eq_error_iff : ∀ fault,
    execute image input budget = .error (.fault fault) ↔ last = .error fault
  /-- The loop of the emulator tells its observers, whatever they are, of all results but the last, keeps the
  fault of the last, and leaves the run where the collection leaves it. -/
  follow_eq : ∃ notices, notices.map (fun n => .ok ⟨n.state, false⟩) = results.dropLast ∧
    ∀ {α : Type} [Observer α] (observers : List α) next,
      follow r observers none next (r.callLimit + 1) =
        Observer.report observers (fun os => next (r.after results.length) os (fault? last)) notices
  state_of_done : ∀ t, last = .ok ⟨t, true⟩ → (r.after results.length).state = t
  isOver_iff : ∀ n, (r.after n).isOver = true ↔ results.length ≤ n
  /-- The end is kept: `step` answers it again, `next` nothing, and neither changes the run. -/
  of_isOver : ∀ n, (r.after n).isOver = true →
    (r.after n).step = (r.after n, last) ∧ (r.after n).next = (r.after n, none)
  /-- In whatever order a run is asked, it goes through the same results. -/
  converse : ∀ qs, (r.converse qs).1 = r.after (calls qs) ∧
    ∃ m, r.outcomes qs = results.take (calls qs) ++ List.replicate m last ∧
      (calls qs ≤ results.length → m = 0)

theorem closing_ends (ending : Except Fault State) :
    (∃ t, closing ending = .ok ⟨t, true⟩) ∨ ∃ fault, closing ending = .error fault := by
  cases ending with
  | ok t => exact .inl ⟨t, rfl⟩
  | error fault => exact .inr ⟨fault, rfl⟩

theorem closing_eq_ok_iff {ending : Except Fault State} {t : State} :
    closing ending = .ok ⟨t, true⟩ ↔ ending = .ok t := by
  cases ending <;> simp [closing, Except.map]

theorem closing_eq_error_iff {ending : Except Fault State} {fault : Fault} :
    closing ending = .error fault ↔ ending = .error fault := by
  cases ending <;> simp [closing, Except.map]

theorem fault?_closing (ending : Except Fault State) : fault? (closing ending) = fault? ending := by
  cases ending <;> rfl

/-- **The drivers agree, and an end is kept**: for every image and every input, on every budget but the
largest. -/
theorem drivers_agree {image : List UInt8} {memory : Memory} {budget : UInt64}
    (hm : Image.load image = .ok memory) (input : Array UInt8) (hb : budget.toNat < UInt64.size - 1) :
    ∃ r results last, Run.ofImage image input budget = .ok r ∧
      Agree image input budget r results last := by
  obtain ⟨r, n, ending, hr, hp, -, -, rfl, plays, hn⟩ := exists_plays_ofImage hm input hb
  generalize hts : (State.ofMemory memory).shown input n = ts at plays
  have within : ts.length ≤ r.budget.toNat := by
    rw [← hts, State.length_shown, hn]
    exact Nat.min_le_right _ _
  have opened := isOver_of_ready hp
  have outcome := execute_of_plays hr plays within
  have ended (m : Nat) : (r.after m).isOver = true ↔ (items ts ending).length ≤ m := by
    rw [plays.isOver_after_iff opened, length_items]
    exact Nat.lt_iff_add_one_le
  refine ⟨r, items ts ending, closing ending, hr, ?_⟩
  constructor
  case collects =>
    rw [length_items]
    exact plays.collects opened
  case results_eq => exact (plays.collects opened).results_eq
  case getLast? => exact getLast?_items
  case last_ends => exact closing_ends ending
  case dropLast_goes =>
    intro result h
    rw [dropLast_items] at h
    obtain ⟨t, -, rfl⟩ := List.mem_map.mp h
    exact ⟨t, rfl⟩
  case execute_eq_ok_iff =>
    intro t
    rw [outcome, closing_eq_ok_iff]
    cases ending <;> simp [Except.mapError]
  case execute_eq_error_iff =>
    intro fault
    rw [outcome, closing_eq_error_iff]
    cases ending <;> simp [Except.mapError]
  case follow_eq =>
    refine ⟨ts.map Notice.ofState, ?_, fun observers next => ?_⟩
    · rw [dropLast_items, List.map_map]
      rfl
    · rw [length_items, fault?_closing]
      exact follow_callLimit observers next plays opened within
  case state_of_done =>
    intro t h
    obtain rfl := closing_eq_ok_iff.mp h
    rw [length_items]
    exact plays.state_after
  case isOver_iff => exact ended
  case of_isOver =>
    intro m h
    have answer := plays.step_snd m
    rw [List.getElem?_eq_none ((ended m).mp h), Option.getD_none] at answer
    exact ⟨Prod.ext (step_fst_of_isOver h) answer, next_of_isOver h⟩
  case converse =>
    intro qs
    obtain ⟨m, results, none⟩ := plays.outcomes_after opened qs 0
    rw [List.drop_zero] at results
    rw [Nat.zero_add] at none
    exact ⟨fst_converse r qs, m, results, none⟩

/-- A program that returns to nowhere. -/
def strayReturn : List UInt8 := [0x0B, 0x00]

/-- The state in which `strayReturn` is shown. -/
def strayState : State := (State.ofMemory (Image.memoryOf strayReturn)).withTicks 1

theorem exec_strayState : strayState.exec #[] = (strayState.advance, .error (.noReturnAddress 0)) := by
  have fetched : strayState.fetch = Word.ofBytes 0x0B 0x00 :=
    State.fetch_of_memoryOf rfl (by decide) rfl rfl
  exact State.exec_of_fault (i := .ret) (by rw [fetched]; decide) rfl

/-- Every driver has two results of `strayReturn`: it is shown, and then faults. -/
theorem drivers_agree_ret :
    ∃ r results last, Run.ofImage (Image.ofPayload strayReturn) #[] 10 = .ok r ∧
      Agree (Image.ofPayload strayReturn) #[] 10 r results last ∧
      results = [.ok ⟨strayState, false⟩, .error (.noReturnAddress 0)] ∧
      last = .error (.noReturnAddress 0) ∧
      execute (Image.ofPayload strayReturn) #[] 10 = .error (.fault (.noReturnAddress 0)) := by
  have hm : Image.load (Image.ofPayload strayReturn) = .ok (Image.memoryOf strayReturn) :=
    Image.load_eq_ok (by decide)
  have budget : (10 : UInt64).toNat < UInt64.size - 1 := by decide
  obtain ⟨r, results, last, hr, agree⟩ := drivers_agree hm #[] budget
  have start : r.next = (⟨strayState, #[], 10, .shown⟩, some (.ok ⟨strayState, false⟩)) := by
    rw [eq_ofMemory hm hr, next_of_not_isOver rfl, step_of_ready rfl, beginCycle_of_le rfl (by decide)]
    rfl
  have faulted : next ⟨strayState, #[], 10, .shown⟩ =
      (⟨strayState.advance, #[], 10, .faulted (.noReturnAddress 0)⟩,
        some (.error (.noReturnAddress 0))) := by
    rw [next_of_not_isOver rfl,
      step_of_exec_error (r := ⟨strayState, #[], 10, .shown⟩) rfl exec_strayState]
    rfl
  have nothing : next ⟨strayState.advance, #[], 10, .faulted (.noReturnAddress 0)⟩ = (_, none) :=
    next_of_isOver rfl
  have listed := agree.collects.unique (.more start (.more faulted (.done nothing)))
  have ended : last = .error (.noReturnAddress 0) := by
    have ended := agree.getLast?
    rw [listed] at ended
    exact (Option.some.inj ended).symm
  exact ⟨r, results, last, hr, agree, listed, ended, (agree.execute_eq_error_iff _).mpr ended⟩

end ByteMachine.Run
