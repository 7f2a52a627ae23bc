import Xrp.Native.QueueOrder

/-!
# Accepted commands and the release of the queue

A client that releases the last reference waits until the queue thread has emptied the list. The
queue thread itself does not, when the last reference is that of an event, and neither does a
thread that finds two references and is overtaken by the holder of the other. If neither happens
while commands are waiting, every accepted command is passed to `_xrp_run_command` before the
queue is freed.
-/

namespace Xrp.Native

namespace Queue

variable (s : Queue)

/-- The queue is freed, or is about to be with an empty list. -/
def Quiet : Prop := s.freed = true ∨ s.list = [] ∧ ∃ r, (s.pc r).closing

/-- No accepted command is waiting. -/
def Idle : Prop := s.requestQueue.head = none ∧ s.worker.pending = []

/-- What holds when commands do not get lost. -/
structure Safe : Prop where
  syncExit : s.syncExit = true → s.Quiet
  done : s.worker = .done → s.Quiet
  /-- The queue thread releases the queue with an empty list. -/
  self : ∀ e, (s.pc (.event e none)).closing → s.freed = true ∨ s.list = []
  /-- A client has waited for the queue thread. -/
  joined : ∀ r, (∀ e, r ≠ .event e none) → s.pc r = .teardown ∨ s.pc r = .dropLast →
    s.freed = true ∨ s.worker = .done
  freed : s.freed = true → s.passed = s.accepted

end Queue

/-- The queue thread begins to tear the queue down, and a thread that did not find the only
reference drops it, when no accepted command is waiting. -/
structure Careful (s s' : Queue) : Prop where
  self : ∀ e, s.pc (.event e none) = .readQueue → s'.pc (.event e none) = .setExit →
    s.requestQueue.head = none
  race : ∀ r, s.pc r = .dropQueue → s'.pc r ≠ .dropQueue → s.refs.queue.count = 1 → s.Idle

/-- The states of the runs with such steps. -/
def SafeReach (s : Queue) : Prop :=
  Relation.ReflTransGen (fun s s' => Step s s' ∧ Careful s s') .init s

section Safe

variable {s s' : Queue} {r : Ref} {p : Pc}

theorem Queue.Inv.list_eq_nil (inv : s.Inv) (empty : s.requestQueue.head = none) : s.list = [] := by
  have segment := inv.linked.segment
  cases list : s.list with
  | nil => rfl
  | cons rq rest =>
    rw [list] at segment
    cases empty.symm.trans segment.1

/-- The queue is not quiet while a client has a handle. -/
theorem Queue.Inv.not_quiet {h : ℕ} (inv : s.Inv) (live : s.freed = false)
    (held : s.pc (.queue h) = .held) : ¬ s.Quiet := by
  intro quiet
  rcases quiet with gone | ⟨_, r, closing⟩
  · cases live.symm.trans gone
  · exact inv.refs.not_held closing h held

theorem Queue.Inv.passed_eq (inv : s.Inv) (empty : s.list = []) (pending : s.worker.pending = []) :
    s.passed = s.accepted := by
  rw [inv.order, empty, pending, List.append_nil, List.append_nil]

namespace Queue.Safe

theorem init : Queue.init.Safe where
  syncExit := nofun
  done := nofun
  self _ := nofun
  joined r _ torn := by
    have idle : Queue.init.pc r = if r = .queue 0 then .held else .unused :=
      Function.update_apply (fun _ => Pc.unused) _ _ _
    rw [idle] at torn
    split_ifs at torn <;> exact torn.elim nofun nofun
  freed := nofun

/-- The holder of a reference moves on. -/
theorem move {refs : Refs} (safe : s.Safe) (pc : refs.pc = Function.update s.refs.pc r p)
    (closing : s.freed = true ∨ ((s.pc r).closing → p.closing))
    (self : ∀ e, r = .event e none → p.closing → s.freed = true ∨ s.list = [])
    (joined : (∀ e, r ≠ .event e none) → p = .teardown ∨ p = .dropLast →
      s.freed = true ∨ s.worker = .done) :
    Safe { s with refs := refs } := by
  have here : refs.pc r = p := by rw [pc, Function.update_self]
  have away {r' : Ref} (other : r' ≠ r) : refs.pc r' = s.pc r' := by
    rw [pc, Function.update_of_ne other]
  have quiet (before : s.Quiet) : Quiet { s with refs := refs } := by
    rcases before with gone | ⟨empty, r', last⟩
    · exact .inl gone
    · refine closing.imp_right fun closing => ⟨empty, r', ?_⟩
      by_cases same : r' = r
      · rw [Queue.pc, same, here]
        exact closing (same ▸ last)
      · rw [Queue.pc, away same]
        exact last
  refine ⟨fun sync => quiet (safe.syncExit sync), fun done => quiet (safe.done done), ?_, ?_,
    safe.freed⟩
  · intro e last
    by_cases same : .event e none = r
    · rw [Queue.pc, same, here] at last
      exact self e same.symm last
    · rw [Queue.pc, away same] at last
      exact safe.self e last
  · intro r' client torn
    by_cases same : r' = r
    · rw [same] at client
      rw [Queue.pc, same, here] at torn
      exact joined client torn
    · rw [Queue.pc, away same] at torn
      exact safe.joined r' client torn

/-- The holder of a reference moves on and does not tear the queue down. -/
theorem moveOpen {refs : Refs} {q : Pc} (safe : s.Safe)
    (pc : refs.pc = Function.update s.refs.pc r p) (before : s.pc r = q)
    (wasOpen : q.closing = false) (isOpen : p.closing = false) : Safe { s with refs := refs } := by
  refine safe.move pc (.inr fun closing => ?_) ?_ ?_
  · rw [before, wasOpen] at closing
    cases closing
  · intro _ _ closing
    cases isOpen.symm.trans closing
  · intro _ torn
    rcases torn with torn | torn <;> rw [torn] at isOpen <;> cases isOpen

/-- The queue thread moves on. -/
theorem setWorker {w : Worker} (safe : s.Safe) (running : s.worker ≠ .done)
    (quits : w = .done → s.Quiet) : Safe { s with worker := w } :=
  { safe with
    done := quits
    joined := fun r client torn =>
      .inl ((safe.joined r client torn).resolve_right running) }

theorem broadcast (safe : s.Safe) : Safe { s with worker := s.worker.broadcast } := by
  by_cases waiting : s.worker = .waiting
  · rw [show s.worker.broadcast = .loop from if_pos waiting]
    exact safe.setWorker (waiting ▸ nofun) nofun
  · rw [show s.worker.broadcast = s.worker from if_neg waiting]
    exact safe

theorem free (passed : s.passed = s.accepted) : Safe { s with freed := true } where
  syncExit _ := .inl rfl
  done _ := .inl rfl
  self _ _ := .inl rfl
  joined _ _ _ := .inl rfl
  freed _ := passed

/-- Who tears the queue down does so when all commands were passed on. -/
theorem passed_eq (safe : s.Safe) (inv : s.Inv) (live : s.freed = false)
    (last : s.pc r = .dropLast) : s.passed = s.accepted := by
  have dead : s.freed ≠ true := by
    rw [live]
    nofun
  by_cases self : ∃ e, r = .event e none
  · obtain ⟨e, rfl⟩ := self
    have release : s.worker = .release e := inv.active e (last ▸ rfl)
    have empty := (safe.self e (last ▸ rfl)).resolve_left dead
    exact inv.passed_eq empty (release ▸ rfl)
  · have done := (safe.joined r (fun e same => self ⟨e, same⟩) (.inr last)).resolve_left dead
    have quiet := (safe.done done).resolve_left dead
    exact inv.passed_eq quiet.1 (done ▸ rfl)

theorem dropQueue (safe : s.Safe) (inv : s.Inv) (live : s.freed = false)
    (dropping : s.pc r = .dropQueue ∨ s.pc r = .dropLast)
    (race : s.pc r = .dropQueue → s.refs.queue.count = 1 → s.Idle) : (s.dropQueue r).Safe := by
  have returned : (Refs.returned r).closing = false := by cases r <;> rfl
  have torn : ¬ (Refs.returned r = .teardown ∨ Refs.returned r = .dropLast) := by
    cases r <;> nofun
  have releasing : (s.pc r).releasing := by
    rcases dropping with dropping | dropping <;> rw [dropping] <;> rfl
  have holds := inv.refs.queue.count_pos (inv.refs.mem_holders releasing)
  by_cases last : s.refs.queue.count - 1 = 0
  · rw [s.dropQueue_last last]
    have passed : s.passed = s.accepted := by
      rcases dropping with dropping | dropping
      · have idle := race dropping (by omega)
        exact inv.passed_eq (inv.list_eq_nil idle.1) idle.2
      · exact safe.passed_eq inv live dropping
    exact (free passed).move rfl (.inl rfl) (fun _ _ _ => .inl rfl) fun _ _ => .inl rfl
  · rw [s.dropQueue_other live last]
    refine safe.move rfl (.inr fun closing => ?_) ?_ fun _ h => absurd h torn
    · have alone := inv.refs.queue.count_eq (inv.refs.closing r closing)
      rw [alone] at last
      exact absurd rfl last
    · intro e _ closing
      cases returned.symm.trans closing

/-- A client that has a handle keeps the queue from being torn down. -/
theorem of_held {h : ℕ} (inv : s.Inv) (live : s.freed = false) (held : s.pc (.queue h) = .held)
    (sync : s.syncExit = false) (running : s.worker ≠ .done) : s.Safe where
  syncExit isSync := by cases sync.symm.trans isSync
  done done := absurd done running
  self _ closing := absurd held (inv.refs.not_held closing h)
  joined r _ torn := by
    have closing : (s.pc r).closing := by
      rcases torn with torn | torn <;> rw [torn] <;> rfl
    exact absurd held (inv.refs.not_held closing h)
  freed gone := by cases live.symm.trans gone

theorem syncExit_eq (safe : s.Safe) (loud : ¬ s.Quiet) : s.syncExit = false :=
  Bool.eq_false_iff.mpr fun sync => loud (safe.syncExit sync)

theorem enqueue {h : ℕ} (safe : s.Safe) (inv : s.Inv) (live : s.freed = false) (event : Bool)
    (held : s.pc (.queue h) = .held) : (s.enqueue h event).Safe := by
  have loud := inv.not_quiet live held
  have held' : (s.enqueue h event).pc (.queue h) = .held := by cases event <;> exact held
  exact of_held (inv.enqueue event held) live held' (safe.syncExit_eq loud) fun done =>
    loud (safe.done done)

theorem append {n h : ℕ} {event : Bool} (safe : s.Safe) (inv : s.Inv) (live : s.freed = false)
    (call : s.enqueuing n = some (h, event)) : (s.append n event).Safe := by
  have held := inv.handle n h event call
  have loud := inv.not_quiet live held
  have held' : (s.append n event).pc (.queue h) = .held := by cases event <;> exact held
  refine of_held (inv.append call) live held' (safe.syncExit_eq loud) fun done => ?_
  apply loud
  apply safe.done
  have same : s.worker = .done ∨ s.worker.broadcast = .done := by
    simp only [Queue.append] at done
    split_ifs at done
    · exact .inr done
    · exact .inl done
  rcases same with same | same
  · exact same
  · unfold Worker.broadcast at same
    split_ifs at same
    exact same

/-- The list is not empty when the queue is torn down by a client, and then the queue thread is
still running. -/
theorem dequeue {rq : Request} {rest : LinkedQueue Request} (safe : s.Safe) (inv : s.Inv)
    (live : s.freed = false) (loop : s.worker = .loop)
    (popped : s.requestQueue.pop = some (rq, rest)) :
    Safe { s with requestQueue := rest, list := s.list.tail, worker := .run rq } := by
  obtain ⟨tail, list, _⟩ := inv.linked.pop popped
  have nonempty : s.list ≠ [] := by
    rw [list]
    exact List.cons_ne_nil rq tail
  constructor
  · intro sync
    exact .inl ((safe.syncExit sync).resolve_right fun quiet => nonempty quiet.1)
  · nofun
  · intro e closing
    exact .inl ((safe.self e closing).resolve_right nonempty)
  · intro r client torn
    refine .inl ((safe.joined r client torn).resolve_right ?_)
    rw [loop]
    nofun
  · intro gone
    cases live.symm.trans gone

end Queue.Safe

/-- A careful step keeps commands from being lost. -/
theorem Step.safe (step : Step s s') (careful : Careful s s') (inv : s.Inv) (safe : s.Safe) :
    s'.Safe := by
  cases step with
  | retainQueue _ _ unused => exact safe.moveOpen rfl unused rfl rfl
  | retainEvent _ unused => exact safe.moveOpen rfl unused rfl rfl
  | enqueue event live held => exact safe.enqueue inv live event held
  | append live call => exact safe.append inv live call
  | releaseQueue held => exact safe.moveOpen rfl held rfl rfl
  | releaseEvent held => exact safe.moveOpen rfl held rfl rfl
  | readEvent before =>
    refine safe.moveOpen rfl before rfl ?_
    split_ifs <;> rfl
  | dropEvent dropping =>
    rcases dropping with before | before
    · exact safe.moveOpen rfl before rfl rfl
    · exact safe.moveOpen rfl before rfl rfl
  | @readQueue r _ before =>
    by_cases last : s.refs.queue.count = 1
    · rw [if_pos last] at careful ⊢
      refine safe.move rfl (.inr (before ▸ nofun)) ?_ fun _ => nofun
      intro e same _
      have moved : (s.goto r .setExit).pc (.event e none) = .setExit := by
        rw [same]
        exact Function.update_self _ _ _
      exact .inr (inv.list_eq_nil (careful.self e (same ▸ before) moved))
    · rw [if_neg last]
      exact safe.moveOpen rfl before rfl rfl
  | @dropQueue r live dropping =>
    refine safe.dropQueue inv live dropping fun before alone => careful.race r before ?_ alone
    have moved : (s.dropQueue r).pc r = Refs.returned r := Function.update_self _ _ _
    rw [moved]
    cases r <;> nofun
  | @setExit r _ before =>
    have moved : Queue.Safe (s.goto r .join) := by
      refine safe.move rfl (.inr fun _ => rfl) ?_ fun _ => nofun
      intro e same _
      subst same
      exact safe.self e (before ▸ rfl)
    exact { moved.broadcast with }
  | joinThread _ before client done =>
    exact safe.move rfl (.inr fun _ => rfl) (fun e same => absurd same (client e))
      fun _ _ => .inr done
  | @joinSelf e live before =>
    have closing : (s.pc (.event e none)).closing := before ▸ rfl
    have moved : Queue.Safe (s.goto (.event e none) .teardown) :=
      safe.move rfl (.inr fun _ => rfl) (fun _ _ _ => safe.self e closing) fun client =>
        absurd rfl (client e)
    have torn : (s.goto (.event e none) .teardown).pc (.event e none) = .teardown :=
      Function.update_self _ _ _
    refine { moved with syncExit := fun _ => (safe.self e closing).imp_right fun empty => ?_ }
    exact ⟨empty, .event e none, congrArg Pc.closing torn⟩
  | @teardown r closed _ before =>
    have self (e : ℕ) (same : r = .event e none) : s.freed = true ∨ s.list = [] := by
      subst same
      exact safe.self e (before ▸ rfl)
    cases closed with
    | false => exact safe.move rfl (.inr fun _ => rfl) (fun e same _ => self e same) fun _ => nofun
    | true =>
      exact safe.move rfl (.inr fun _ => rfl) (fun e same _ => self e same) fun client _ =>
        safe.joined r client (.inl before)
  | dequeue live loop popped => exact safe.dequeue inv live loop popped
  | quit _ loop empty exit =>
    refine safe.setWorker (loop ▸ nofun) fun _ => ?_
    exact (inv.exit exit).imp_right fun closing => ⟨inv.linked.pop_eq_none_iff.mp empty, closing⟩
  | sleep _ loop => exact safe.setWorker (loop ▸ nofun) nofun
  | wake _ waiting => exact safe.setWorker (waiting ▸ nofun) nofun
  | @run rq success live run =>
    have moved := safe.setWorker (w := .ran rq (if success then .success else .failure))
      (run ▸ nofun) nofun
    refine { moved with freed := fun gone => ?_ }
    cases live.symm.trans gone
  | @complete rq status ran event =>
    have held := inv.kept rq.id ⟨rq, rfl, event, .inr ⟨status, ran⟩⟩
    have moved : Queue.Safe (s.goto (.event rq.id none) .readEvent) :=
      safe.moveOpen rfl held rfl rfl
    exact { moved.setWorker (w := .release rq.id) (ran ▸ nofun) nofun with }
  | discard ran => exact safe.setWorker (ran ▸ nofun) nofun
  | released release => exact safe.setWorker (release ▸ nofun) nofun
  | again _ finish => exact safe.setWorker (finish ▸ nofun) nofun
  | stop finish sync => exact safe.setWorker (finish ▸ nofun) fun _ => safe.syncExit sync

theorem SafeReach.other (reach : SafeReach s) (step : Step s s')
    (self : ∀ e, s.pc (.event e none) ≠ .readQueue) (race : ∀ r, s.pc r ≠ .dropQueue) :
    SafeReach s' :=
  reach.tail ⟨step, fun e before => absurd before (self e), fun r before => absurd before (race r)⟩

theorem SafeReach.inv (reach : SafeReach s) : s.Inv ∧ s.Safe := by
  induction reach with
  | refl => exact ⟨.init, .init⟩
  | tail _ step ih => exact ⟨step.1.inv ih.1, step.1.safe step.2 ih.1 ih.2⟩

/-- When the queue is freed, every accepted command has been passed to `_xrp_run_command`, once
and in order. -/
theorem safeReach_passed (reach : SafeReach s) (freed : s.freed = true) :
    s.passed = s.accepted ∧ (s.accepted.map Request.id).Nodup :=
  ⟨reach.inv.2.freed freed, reach.inv.1.nodup⟩

end Safe

/-- A client releases the last reference while a command is waiting, and joins the queue
thread. -/
theorem safeReach_passed_joined :
    ∃ s, SafeReach s ∧ s.freed = true ∧ s.accepted = [⟨0, false⟩] ∧
      s.passed = s.accepted ∧ (s.accepted.map Request.id).Nodup := by
  have start : SafeReach .init := .refl
  have created := start.other (.enqueue (h := 0) false rfl rfl) (fun _ => nofun)
    fun r => by rcases r with (_ | _) | _ <;> nofun
  have appended := created.other (.append (n := 0) (h := 0) rfl rfl) (fun _ => nofun)
    fun r => by rcases r with (_ | _) | _ <;> nofun
  have release := appended.other (.releaseQueue (h := 0) rfl fun n _ => by cases n <;> nofun)
    (fun _ => nofun) fun r => by rcases r with (_ | _) | _ <;> nofun
  have read := release.other (.readQueue (r := .queue 0) rfl rfl) (fun _ => nofun)
    fun r => by rcases r with (_ | _) | _ <;> nofun
  have exit := read.other (.setExit (r := .queue 0) rfl rfl) (fun _ => nofun)
    fun r => by rcases r with (_ | _) | _ <;> nofun
  have taken := exit.other (.dequeue rfl rfl rfl) (fun _ => nofun)
    fun r => by rcases r with (_ | _) | _ <;> nofun
  have ran := taken.other (.run true rfl rfl) (fun _ => nofun)
    fun r => by rcases r with (_ | _) | _ <;> nofun
  have discarded := ran.other (.discard rfl rfl) (fun _ => nofun)
    fun r => by rcases r with (_ | _) | _ <;> nofun
  have again := discarded.other (.again rfl rfl rfl) (fun _ => nofun)
    fun r => by rcases r with (_ | _) | _ <;> nofun
  have done := again.other (.quit rfl rfl rfl rfl) (fun _ => nofun)
    fun r => by rcases r with (_ | _) | _ <;> nofun
  have joined := done.other (.joinThread (r := .queue 0) rfl rfl nofun rfl) (fun _ => nofun)
    fun r => by rcases r with (_ | _) | _ <;> nofun
  have torn := joined.other (.teardown (r := .queue 0) true rfl rfl) (fun _ => nofun)
    fun r => by rcases r with (_ | _) | _ <;> nofun
  have freed := torn.other (.dropQueue (r := .queue 0) rfl (.inr rfl)) (fun _ => nofun)
    fun r => by rcases r with (_ | _) | _ <;> nofun
  exact ⟨_, freed, rfl, rfl, safeReach_passed freed rfl⟩

/-- The queue thread drops the last reference, that of the event of the first command, with the
second command in the list; and two clients that each find the other's reference free the queue
with a command in the list. -/
theorem reach_dropped :
    (∃ s, Reach s ∧ s.freed = true ∧ s.accepted = [⟨0, true⟩, ⟨1, false⟩] ∧
      s.passed = [⟨0, true⟩]) ∧
      ∃ s, Reach s ∧ s.freed = true ∧ s.accepted = [⟨0, false⟩] ∧ s.passed = [] := by
  constructor
  · have start : Reach .init := .refl
    have created := start.tail (.enqueue (h := 0) true rfl rfl)
    have appended := created.tail (.append (n := 0) (h := 0) rfl rfl)
    have created' := appended.tail (.enqueue (h := 0) false rfl rfl)
    have appended' := created'.tail (.append (n := 1) (h := 0) rfl rfl)
    have release := appended'.tail (.releaseQueue (h := 0) rfl fun n _ => by
      rcases n with _ | _ | _ <;> nofun)
    have read := release.tail (.readQueue (r := .queue 0) rfl rfl)
    have dropped := read.tail (.dropQueue (r := .queue 0) rfl (.inl rfl))
    have release' := dropped.tail (.releaseEvent (e := 0) (i := 0) rfl)
    have read' := release'.tail (.readEvent (e := 0) (i := some 0) rfl)
    have dropped' := read'.tail (.dropEvent (e := 0) (i := some 0) (.inl rfl))
    have taken := dropped'.tail (.dequeue rfl rfl rfl)
    have ran := taken.tail (.run true rfl rfl)
    have completed := ran.tail (.complete rfl rfl)
    have last := completed.tail (.readEvent (e := 0) (i := none) rfl)
    have lastQueue := last.tail (.readQueue (r := .event 0 none) rfl rfl)
    have exit := lastQueue.tail (.setExit (r := .event 0 none) rfl rfl)
    have joined := exit.tail (.joinSelf (e := 0) rfl rfl)
    have torn := joined.tail (.teardown (r := .event 0 none) true rfl rfl)
    have freed := torn.tail (.dropQueue (r := .event 0 none) rfl (.inr rfl))
    exact ⟨_, freed, rfl, rfl, rfl⟩
  · have start : Reach .init := .refl
    have unused : Queue.init.pc (.queue 1) = .unused := rfl
    have retained := start.tail (.retainQueue (h := 0) rfl rfl unused)
    have created := retained.tail (.enqueue (h := 0) false rfl rfl)
    have appended := created.tail (.append (n := 0) (h := 0) rfl rfl)
    have release := appended.tail (.releaseQueue (h := 0) rfl fun n _ => by cases n <;> nofun)
    have release' := release.tail (.releaseQueue (h := 1) rfl fun n _ => by cases n <;> nofun)
    have read := release'.tail (.readQueue (r := .queue 0) rfl rfl)
    have read' := read.tail (.readQueue (r := .queue 1) rfl rfl)
    have dropped := read'.tail (.dropQueue (r := .queue 0) rfl (.inl rfl))
    have freed := dropped.tail (.dropQueue (r := .queue 1) rfl (.inl rfl))
    exact ⟨_, freed, rfl, rfl, rfl⟩

end Xrp.Native
