import Xrp.Native.Queue

/-!
# Order of commands in the native library

What holds in every run of a queue: the list in memory is that of the requests appended and not
dequeued, commands are passed on in the order in which they were accepted, a request that is
not complete has its reference to the event, and the queue thread does not wait while there is
something to do.
-/

namespace Xrp.Native

open Dsp (XrpStatus)

/-- The command that the queue thread has taken from the list and not yet passed on. -/
def Worker.pending : Worker → List Request
  | run rq => [rq]
  | _ => []

/-- The queue thread has yet to release the event of the request. -/
def Worker.Keeps (w : Worker) (e : ℕ) : Prop :=
  ∃ rq : Request, rq.id = e ∧ rq.event = true ∧ (w = .run rq ∨ ∃ status, w = .ran rq status)

/-- The queue thread has a request. -/
def Worker.busy : Worker → Bool
  | run _ | ran _ _ => true
  | _ => false

/-- The queue thread has neither a request nor an event. -/
def Worker.free : Worker → Bool
  | run _ | ran _ _ | release _ => false
  | _ => true

theorem Worker.not_keeps {w : Worker} {e : ℕ} (idle : w.busy = false) : ¬ w.Keeps e := by
  intro keeps
  obtain ⟨rq, _, _, run | ⟨status, ran⟩⟩ := keeps
  · rw [run] at idle
    cases idle
  · rw [ran] at idle
    cases idle

theorem Worker.broadcast_ne_waiting (w : Worker) : w.broadcast ≠ .waiting := by
  unfold Worker.broadcast
  split_ifs with waiting
  · nofun
  · exact waiting

theorem Worker.pending_eq_nil {w : Worker} (idle : w.busy = false) : w.pending = [] := by
  cases w with
  | run rq => cases idle
  | _ => rfl

/-- The holder of a reference is in a call that releases it. -/
def Pc.active : Pc → Bool
  | unused | created | held | failed | gone => false
  | _ => true

/-- The invariant of all runs. -/
structure Queue.Inv (s : Queue) : Prop where
  refs : s.refs.Valid
  /-- A handle is held while a command is enqueued with it. -/
  handle : ∀ n h event, s.enqueuing n = some (h, event) → s.pc (.queue h) = .held
  issued : ∀ n h event, s.enqueuing n = some (h, event) → n < s.refs.issued
  /-- A request that is not complete has its reference to the event. -/
  created : ∀ n h, s.enqueuing n = some (h, true) →
    s.pc (.event n none) = .held ∧ s.pc (.event n (some 0)) = .created
  listed : ∀ rq ∈ s.list, rq.event = true → s.pc (.event rq.id none) = .held
  kept : ∀ e, s.worker.Keeps e → s.pc (.event e none) = .held
  /-- Only the queue thread releases that reference. -/
  active : ∀ e, (s.pc (.event e none)).active → s.worker = .release e
  linked : s.requestQueue.Represents s.list
  order : s.accepted = s.passed ++ s.worker.pending ++ s.list
  nodup : (s.accepted.map Request.id).Nodup
  accepted : ∀ rq ∈ s.accepted, rq.id < s.refs.issued ∧ s.enqueuing rq.id = none
  exit : s.exit = true → s.freed = true ∨ ∃ r, (s.pc r).closing
  waiting : s.worker = .waiting → s.list = [] ∧ s.exit = false
  /-- The last command passed on has yet to be completed. -/
  ran : ∀ rq status, s.worker = .ran rq status →
    status ≠ .pending ∧ s.passed.getLast? = some rq ∧
      (rq.event = true → s.status rq.id = .pending)
  completed : ∀ rq ∈ s.passed, rq.event = true →
    s.status rq.id ≠ .pending ∨ ∃ status, s.worker = .ran rq status
  pending : ∀ n, s.status n ≠ .pending → ∃ rq ∈ s.passed, rq.id = n

namespace Queue.Inv

variable {s : Queue} {r : Ref} {p : Pc}

theorem init : Queue.init.Inv where
  refs := .init
  handle _ _ _ call := by cases call
  issued _ _ _ call := by cases call
  created _ _ call := by cases call
  listed rq member := absurd member List.not_mem_nil
  kept _ keeps := absurd keeps (Worker.not_keeps rfl)
  active _ active := by cases active
  linked := LinkedQueue.represents_empty
  order := rfl
  nodup := List.nodup_nil
  accepted _ member := absurd member List.not_mem_nil
  exit exit := by cases exit
  waiting waiting := by cases waiting
  ran _ _ ran := by cases ran
  completed _ member := absurd member List.not_mem_nil
  pending _ done := absurd rfl done

/-! ## Steps that release references -/

/-- The holder of a reference moves on. -/
theorem move {refs : Refs} (inv : s.Inv) (valid : refs.Valid)
    (pc : refs.pc = Function.update s.refs.pc r p) (issued : refs.issued = s.refs.issued)
    (free : ∀ n h event, s.enqueuing n = some (h, event) → r ≠ .queue h)
    (made : ∀ n h, s.enqueuing n = some (h, true) → r ≠ .event n (some 0))
    (own : ∀ e, r = .event e none → s.worker = .release e ∧
      (∀ h, s.enqueuing e ≠ some (h, true)) ∧ ∀ rq ∈ s.list, rq.event = true → rq.id ≠ e)
    (closing : s.freed = true ∨ ((s.pc r).closing → p.closing)) :
    Inv { s with refs := refs } := by
  have away {r' : Ref} (other : r' ≠ r) : refs.pc r' = s.pc r' := by
    rw [pc, Function.update_of_ne other]
  refine { inv with
    refs := valid
    handle := fun n h event call =>
      (away (free n h event call).symm).trans (inv.handle n h event call)
    issued := fun n h event call => (inv.issued n h event call).trans_eq issued.symm
    created := fun n h call => ?_
    listed := fun rq member event => ?_
    kept := fun e keeps => ?_
    active := fun e active => ?_
    accepted := fun rq member =>
      ⟨(inv.accepted rq member).1.trans_eq issued.symm, (inv.accepted rq member).2⟩
    exit := fun exit => ?_ }
  · obtain ⟨request, client⟩ := inv.created n h call
    refine ⟨(away fun same => ?_).trans request, (away fun same => ?_).trans client⟩
    · exact (own n same.symm).2.1 h call
    · exact made n h call same.symm
  · refine (away fun same => ?_).trans (inv.listed rq member event)
    exact (own rq.id same.symm).2.2 rq member event rfl
  · refine (away fun same => ?_).trans (inv.kept e keeps)
    have released : ¬ (Worker.release e).Keeps e := Worker.not_keeps rfl
    rw [(own e same.symm).1] at keeps
    exact released keeps
  · by_cases same : .event e none = r
    · exact (own e same.symm).1
    · rw [Queue.pc, away same] at active
      exact inv.active e active
  · rcases inv.exit exit with gone | ⟨r', last⟩
    · exact .inl gone
    · refine closing.imp_right fun closing => ⟨r', ?_⟩
      by_cases same : r' = r
      · rw [Queue.pc, same, pc, Function.update_self]
        exact closing (same ▸ last)
      · rw [Queue.pc, away same]
        exact last

/-- The holder of a reference moves on in a call that releases it. -/
theorem advance {refs : Refs} {q : Pc} (inv : s.Inv) (valid : refs.Valid)
    (pc : refs.pc = Function.update s.refs.pc r p) (issued : refs.issued = s.refs.issued)
    (before : s.pc r = q) (active : q.active)
    (closing : s.freed = true ∨ (q.closing → p.closing)) : Inv { s with refs := refs } := by
  refine inv.move valid pc issued ?_ ?_ ?_ (before ▸ closing)
  · intro n h event call same
    rw [same, inv.handle n h event call] at before
    rw [← before] at active
    cases active
  · intro n h call same
    rw [same, (inv.created n h call).2] at before
    rw [← before] at active
    cases active
  · intro e same
    rw [same] at before
    refine ⟨inv.active e (before ▸ active), fun h call => ?_, fun rq member event same' => ?_⟩
    · rw [(inv.created e h call).1] at before
      rw [← before] at active
      cases active
    · rw [← same', inv.listed rq member event] at before
      rw [← before] at active
      cases active

/-! ## Steps of the queue thread -/

/-- The queue thread moves on without a request. -/
theorem setWorker {w : Worker} (inv : s.Inv) (idle : w.busy = false)
    (pending : s.worker.pending = [])
    (release : ∀ e, s.worker = .release e → w = .release e ∨ ¬ (s.pc (.event e none)).active)
    (discards : ∀ rq status, s.worker = .ran rq status → rq.event = false)
    (waiting : w = .waiting → s.list = [] ∧ s.exit = false) : Inv { s with worker := w } := by
  refine { inv with
    kept := fun e keeps => absurd keeps (Worker.not_keeps idle)
    active := fun e active =>
      (release e (inv.active e active)).resolve_right (not_not_intro active)
    order := ?_
    waiting := waiting
    ran := fun rq status ran => ?_
    completed := fun rq member event => ?_ }
  · rw [Worker.pending_eq_nil idle, ← pending]
    exact inv.order
  · dsimp only at ran
    rw [ran] at idle
    cases idle
  · left
    refine (inv.completed rq member event).resolve_right fun keeps => ?_
    obtain ⟨status, ran⟩ := keeps
    cases event.symm.trans (discards rq status ran)

/-- The queue thread leaves a place where it has neither a request nor an event. -/
theorem leave {w w' : Worker} (inv : s.Inv) (before : s.worker = w') (free : w'.free)
    (idle : w.busy = false) (waiting : w = .waiting → s.list = [] ∧ s.exit = false) :
    Inv { s with worker := w } := by
  apply inv.setWorker idle
  · rw [before]
    cases w' with
    | run rq => cases free
    | _ => rfl
  · intro e release
    rw [← before, release] at free
    cases free
  · intro rq status ran
    rw [← before, ran] at free
    cases free
  · exact waiting

theorem broadcast (inv : s.Inv) : Inv { s with worker := s.worker.broadcast } := by
  by_cases waiting : s.worker = .waiting
  · have woken : s.worker.broadcast = .loop := if_pos waiting
    rw [woken]
    exact inv.leave waiting rfl rfl nofun
  · have same : s.worker.broadcast = s.worker := if_neg waiting
    rw [same]
    exact inv

theorem dequeue {rq : Request} {rest : LinkedQueue Request} (inv : s.Inv)
    (loop : s.worker = .loop) (popped : s.requestQueue.pop = some (rq, rest)) :
    Inv { s with requestQueue := rest, list := s.list.tail, worker := .run rq } := by
  obtain ⟨tail, list, linked⟩ := inv.linked.pop popped
  have same : s.list.tail = tail := by rw [list, List.tail_cons]
  rw [same]
  refine { inv with
    listed := fun rq' member => inv.listed rq' (list ▸ List.mem_cons_of_mem rq member)
    kept := fun e keeps => ?_
    active := fun e active => ?_
    linked := linked
    order := ?_
    waiting := nofun
    ran := nofun
    completed := fun rq' member event => ?_ }
  · obtain ⟨rq', rfl, event, run | ⟨status, ran⟩⟩ := keeps
    · cases run
      exact inv.listed rq (list ▸ List.mem_cons_self) event
    · cases ran
  · cases loop.symm.trans (inv.active e active)
  · rw [inv.order, loop, list, List.append_assoc, List.append_assoc]
    rfl
  · left
    refine (inv.completed rq' member event).resolve_right fun keeps => ?_
    obtain ⟨status, ran⟩ := keeps
    cases loop.symm.trans ran

theorem run {rq : Request} {status : XrpStatus} (inv : s.Inv) (isRun : s.worker = .run rq)
    (final : status ≠ .pending) :
    Inv { s with passed := s.passed ++ [rq], worker := .ran rq status } := by
  have order := inv.order
  rw [isRun] at order
  have unpassed (rq' : Request) (member : rq' ∈ s.passed) : rq'.id ≠ rq.id := by
    intro same
    have nodup := inv.nodup
    rw [order, List.append_assoc, List.map_append, List.nodup_append'] at nodup
    refine nodup.2.2 (List.mem_map_of_mem member) ?_
    rw [same]
    exact List.mem_map_of_mem (List.mem_append_left _ (List.mem_singleton_self rq))
  refine { inv with
    kept := fun e keeps => ?_
    active := fun e active => ?_
    order := ?_
    waiting := nofun
    ran := fun rq' status' ran => ?_
    completed := fun rq' member event => ?_
    pending := fun n done => ?_ }
  · obtain ⟨rq', rfl, event, run | ⟨status', ran⟩⟩ := keeps
    · cases run
    · cases ran
      exact inv.kept rq.id ⟨rq, rfl, event, .inl isRun⟩
  · cases isRun.symm.trans (inv.active e active)
  · rw [order]
    simp [Worker.pending]
  · cases ran
    refine ⟨final, List.getLast?_concat, fun _ => ?_⟩
    by_contra done
    obtain ⟨rq', member, same⟩ := inv.pending rq.id done
    exact unpassed rq' member same
  · rcases List.mem_append.mp member with before | last
    · left
      refine (inv.completed rq' before event).resolve_right fun keeps => ?_
      obtain ⟨status', ran⟩ := keeps
      cases isRun.symm.trans ran
    · rw [List.mem_singleton.mp last]
      exact .inr ⟨status, rfl⟩
  · obtain ⟨rq', member, same⟩ := inv.pending n done
    exact ⟨rq', List.mem_append_left _ member, same⟩

theorem complete {rq : Request} {status : XrpStatus} (inv : s.Inv)
    (ran : s.worker = .ran rq status) :
    Inv { s with status := Function.update s.status rq.id status, worker := .release rq.id } := by
  obtain ⟨final, last, _⟩ := inv.ran rq status ran
  refine { inv with
    kept := fun e keeps => absurd keeps (Worker.not_keeps rfl)
    active := fun e active => ?_
    order := ?_
    waiting := nofun
    ran := nofun
    completed := fun rq' member event => .inl ?_
    pending := fun n done => ?_ }
  · cases ran.symm.trans (inv.active e active)
  · have order := inv.order
    rw [ran] at order
    exact order
  · dsimp only
    by_cases same : rq'.id = rq.id
    · rw [same, Function.update_self]
      exact final
    · rw [Function.update_of_ne same]
      refine (inv.completed rq' member event).resolve_right fun keeps => ?_
      obtain ⟨status', ran'⟩ := keeps
      cases ran.symm.trans ran'
      exact same rfl
  · by_cases same : n = rq.id
    · exact ⟨rq, List.mem_of_getLast? last, same.symm⟩
    · dsimp only at done
      rw [Function.update_of_ne same] at done
      exact inv.pending n done

/-! ## Steps of the clients -/

theorem mem_accepted_of_passed {rq : Request} (inv : s.Inv) (member : rq ∈ s.passed) :
    rq ∈ s.accepted := by
  rw [inv.order, List.append_assoc]
  exact List.mem_append_left _ member

theorem mem_accepted_of_listed {rq : Request} (inv : s.Inv) (member : rq ∈ s.list) :
    rq ∈ s.accepted := by
  rw [inv.order]
  exact List.mem_append_right _ member

theorem lt_issued_of_keeps {e : ℕ} (inv : s.Inv) (keeps : s.worker.Keeps e) :
    e < s.refs.issued := by
  obtain ⟨rq, rfl, _, run | ⟨status, ran⟩⟩ := keeps
  · refine (inv.accepted rq ?_).1
    rw [inv.order, run]
    exact List.mem_append_left _ (List.mem_append_right _ (List.mem_singleton_self rq))
  · obtain ⟨_, last, _⟩ := inv.ran rq status ran
    exact (inv.accepted rq (inv.mem_accepted_of_passed (List.mem_of_getLast? last))).1

theorem enqueue {h : ℕ} (inv : s.Inv) (event : Bool) (held : s.pc (.queue h) = .held) :
    (s.enqueue h event).Inv := by
  have issued : (s.enqueue h event).refs.issued = s.refs.issued + 1 := by
    cases event <;> rfl
  have away {r : Ref} (other : ∀ i, r ≠ .event s.refs.issued i) :
      (s.enqueue h event).pc r = s.pc r := by
    cases event with
    | false => rfl
    | true =>
      exact (Function.update_of_ne (other _) _ _).trans (Function.update_of_ne (other _) _ _)
  have old {e : ℕ} {i : Option ℕ} (lt : e < s.refs.issued) (j : Option ℕ) :
      Ref.event e i ≠ .event s.refs.issued j := by
    intro same
    cases same
    exact lt.false
  have status {n : ℕ} (other : n ≠ s.refs.issued) :
      (s.enqueue h event).status n = s.status n := by
    cases event with
    | false => rfl
    | true => exact Function.update_of_ne other _ _
  have calls (n : ℕ) : (s.enqueue h event).enqueuing n =
      if n = s.refs.issued then some (h, event) else s.enqueuing n := Function.update_apply _ _ _ _
  constructor
  · cases event with
    | false => exact inv.refs.issue
    | true => exact inv.refs.createEvent held
  · intro n h' event' call
    rw [away (r := .queue h') nofun]
    rw [calls] at call
    split_ifs at call
    · cases call
      exact held
    · exact inv.handle n h' event' call
  · intro n h' event' call
    rw [calls] at call
    split_ifs at call with new
    · rw [issued, new]
      exact Nat.lt_succ_self _
    · rw [issued]
      exact Nat.lt_succ_of_lt (inv.issued n h' event' call)
  · intro n h' call
    rw [calls] at call
    split_ifs at call with new
    · cases call
      rw [new]
      have distinct : Ref.event s.refs.issued (some 0) ≠ .event s.refs.issued none := nofun
      refine ⟨Function.update_self _ _ _, ?_⟩
      exact (Function.update_of_ne distinct _ _).trans (Function.update_self _ _ _)
    · rw [away (old (inv.issued n h' true call)), away (old (inv.issued n h' true call))]
      exact inv.created n h' call
  · intro rq member
    rw [away (old (inv.accepted rq (inv.mem_accepted_of_listed member)).1)]
    exact inv.listed rq member
  · intro e keeps
    rw [away (old (inv.lt_issued_of_keeps keeps))]
    exact inv.kept e keeps
  · intro e active
    by_cases new : e = s.refs.issued
    · cases event with
      | false => exact inv.active e active
      | true =>
        have made : (s.enqueue h true).pc (.event e none) = .held := by
          rw [new]
          exact Function.update_self _ _ _
        rw [made] at active
        cases active
    · rw [away fun i same => new (Ref.event.inj same).1] at active
      exact inv.active e active
  · exact inv.linked
  · exact inv.order
  · exact inv.nodup
  · intro rq member
    have lt := (inv.accepted rq member).1
    rw [issued, calls, if_neg lt.ne]
    exact ⟨Nat.lt_succ_of_lt lt, (inv.accepted rq member).2⟩
  · intro exit
    refine (inv.exit exit).imp_right fun closes => ?_
    obtain ⟨r, closing⟩ := closes
    exact absurd held (inv.refs.not_held closing h)
  · exact inv.waiting
  · intro rq result ran
    obtain ⟨final, last, pending⟩ := inv.ran rq result ran
    rw [status (inv.accepted rq (inv.mem_accepted_of_passed (List.mem_of_getLast? last))).1.ne]
    exact ⟨final, last, pending⟩
  · intro rq member
    rw [status (inv.accepted rq (inv.mem_accepted_of_passed member)).1.ne]
    exact inv.completed rq member
  · intro n done
    by_cases new : n = s.refs.issued
    · cases event with
      | false => exact inv.pending n done
      | true =>
        rw [new] at done
        exact absurd (Function.update_self _ _ _) done
    · rw [status new] at done
      exact inv.pending n done

theorem push {n h : ℕ} {event : Bool} (inv : s.Inv) (call : s.enqueuing n = some (h, event))
    (awake : s.worker ≠ .waiting) :
    Inv { s with
      enqueuing := Function.update s.enqueuing n none
      requestQueue := s.requestQueue.push ⟨n, event⟩
      list := s.list ++ [⟨n, event⟩]
      accepted := s.accepted ++ [⟨n, event⟩] } := by
  have fresh (rq : Request) (member : rq ∈ s.accepted) : rq.id ≠ n := by
    intro same
    have none := (inv.accepted rq member).2
    rw [same, call] at none
    cases none
  have calls {m : ℕ} {c : ℕ × Bool} (call' : Function.update s.enqueuing n none m = some c) :
      s.enqueuing m = some c := by
    rw [Function.update_apply] at call'
    split_ifs at call'
    exact call'
  refine { inv with
    handle := fun m h' event' call' => inv.handle m h' event' (calls call')
    issued := fun m h' event' call' => inv.issued m h' event' (calls call')
    created := fun m h' call' => inv.created m h' (calls call')
    listed := fun rq member => ?_
    linked := inv.linked.push fun member => fresh _ (inv.mem_accepted_of_listed member) rfl
    order := ?_
    nodup := ?_
    accepted := fun rq member => ?_
    waiting := fun waiting => absurd waiting awake }
  · rcases List.mem_append.mp member with before | last
    · exact inv.listed rq before
    · rw [List.mem_singleton.mp last]
      intro isTrue
      dsimp only at isTrue
      subst isTrue
      exact (inv.created n h call).1
  · dsimp only
    rw [inv.order, List.append_assoc]
  · rw [List.map_append, List.nodup_append_comm]
    refine List.nodup_cons.mpr ⟨fun member => ?_, inv.nodup⟩
    obtain ⟨rq, member', same⟩ := List.mem_map.mp member
    exact fresh rq member' same
  · rcases List.mem_append.mp member with before | last
    · refine ⟨(inv.accepted rq before).1, ?_⟩
      exact (Function.update_of_ne (fresh rq before) _ _).trans (inv.accepted rq before).2
    · rw [List.mem_singleton.mp last]
      exact ⟨inv.issued n h event call, Function.update_self _ _ _⟩

theorem append {n h : ℕ} {event : Bool} (inv : s.Inv)
    (call : s.enqueuing n = some (h, event)) : (s.append n event).Inv := by
  let w := if s.requestQueue.tail = none then s.worker.broadcast else s.worker
  have woken : Inv { s with worker := w } := by
    by_cases empty : s.requestQueue.tail = none
    · rw [show w = s.worker.broadcast from if_pos empty]
      exact inv.broadcast
    · rw [show w = s.worker from if_neg empty]
      exact inv
  have awake : w ≠ .waiting := by
    by_cases empty : s.requestQueue.tail = none
    · rw [show w = s.worker.broadcast from if_pos empty]
      exact s.worker.broadcast_ne_waiting
    · rw [show w = s.worker from if_neg empty]
      exact fun waiting => empty (inv.linked.tail_eq_none_iff.mpr (inv.waiting waiting).1)
  have pushed := woken.push call awake
  cases event with
  | false => exact pushed
  | true =>
    -- the client gets its handle of the event
    have made := (inv.created n h call).2
    have valid : (s.refs.goto (.event n (some 0)) .held).Valid :=
      inv.refs.gotoEvent made rfl nofun rfl rfl
    refine pushed.move valid rfl rfl nofun ?_ nofun (.inr fun closing => ?_)
    · intro m h' call' same
      cases same
      dsimp only at call'
      rw [Function.update_self] at call'
      cases call'
    · have before : (s.pc (.event n (some 0))).closing = true := closing
      rw [made] at before
      cases before

/-! ## All steps -/

theorem id_ne_of_listed {rq rq' : Request} (inv : s.Inv) (passed : rq ∈ s.passed)
    (listed : rq' ∈ s.list) : rq'.id ≠ rq.id := by
  intro same
  have nodup := inv.nodup
  rw [inv.order, List.append_assoc, List.map_append, List.nodup_append'] at nodup
  refine nodup.2.2 (List.mem_map_of_mem passed) ?_
  rw [← same]
  exact List.mem_map_of_mem (List.mem_append_right _ listed)

theorem free (inv : s.Inv) : Inv { s with freed := true } := { inv with exit := fun _ => .inl rfl }

/-- A reference to the queue is dropped. -/
theorem dropQueue {q : Pc} (inv : s.Inv) (live : s.freed = false) (before : s.pc r = q)
    (dropping : q = .dropQueue ∨ q = .dropLast) : (s.dropQueue r).Inv := by
  have active : q.active := by
    rcases dropping with dropping | dropping <;> rw [dropping] <;> rfl
  have valid := inv.refs.dropQueue (before ▸ dropping)
  by_cases last : s.refs.queue.count - 1 = 0
  · rw [s.dropQueue_last last]
    exact inv.free.advance valid rfl rfl before active (.inl rfl)
  · rw [s.dropQueue_other live last]
    refine inv.advance valid rfl rfl before active (.inr fun closing => ?_)
    -- whoever tears the queue down has the only reference
    have alone := inv.refs.queue.count_eq (inv.refs.alone before closing)
    rw [alone] at last
    exact absurd rfl last

end Queue.Inv

section Steps

variable {s s' : Queue}

/-- Every step keeps the invariant. -/
theorem Step.inv (step : Step s s') (inv : s.Inv) : s'.Inv := by
  cases step with
  | @retainQueue h h' _ held unused =>
    refine inv.move (inv.refs.retainQueue held unused) rfl rfl ?_ nofun nofun (.inr ?_)
    · intro n k event call same
      cases unused.symm.trans (same ▸ inv.handle n k event call)
    · rw [unused]
      nofun
  | @retainEvent e i i' held unused =>
    refine inv.move (inv.refs.retainEvent held unused) rfl rfl nofun ?_ nofun (.inr ?_)
    · intro n h call same
      cases unused.symm.trans (same ▸ (inv.created n h call).2)
    · rw [unused]
      nofun
  | enqueue event _ held => exact inv.enqueue event held
  | append _ call => exact inv.append call
  | @releaseQueue h held free =>
    refine inv.move (inv.refs.releaseHandle held) rfl rfl ?_ nofun nofun (.inr ?_)
    · intro n k event call same
      cases same
      exact free n event call
    · rw [held]
      nofun
  | @releaseEvent e i held =>
    refine inv.move (inv.refs.gotoEvent held rfl nofun rfl rfl) rfl rfl nofun ?_ nofun (.inr ?_)
    · intro n h call same
      cases held.symm.trans (same ▸ (inv.created n h call).2)
    · rw [held]
      nofun
  | @readEvent e i before =>
    refine inv.advance ?_ rfl rfl before rfl (.inr nofun)
    split_ifs with last
    · exact inv.refs.gotoReadQueue before last
    · exact inv.refs.gotoEvent before rfl nofun rfl rfl
  | @dropEvent e i dropping =>
    have valid := inv.refs.dropEvent dropping
    rcases dropping with before | before
    · exact inv.advance valid rfl rfl before rfl (.inr nofun)
    · exact inv.advance valid rfl rfl before rfl (.inr nofun)
  | @readQueue r _ before =>
    refine inv.advance ?_ rfl rfl before rfl (.inr nofun)
    split_ifs with last
    · exact inv.refs.gotoSetExit before last
    · exact inv.refs.advance before rfl rfl nofun
  | dropQueue live dropping => exact inv.dropQueue live rfl dropping
  | @setExit r live before =>
    have valid := inv.refs.advance (p := .join) before rfl rfl fun _ =>
      inv.refs.alone before rfl
    have moved := (inv.advance valid rfl rfl before rfl (.inr fun _ => rfl)).broadcast
    have joins : (s.refs.goto r .join).pc r = .join := Function.update_self _ _ _
    exact { moved with
      exit := fun _ => .inr ⟨r, congrArg Pc.closing joins⟩
      waiting := fun waiting => absurd waiting (Worker.broadcast_ne_waiting _) }
  | @joinThread r _ before =>
    have valid := inv.refs.advance (p := .teardown) before rfl rfl fun _ =>
      inv.refs.alone before rfl
    exact inv.advance valid rfl rfl before rfl (.inr fun _ => rfl)
  | @joinSelf e _ before =>
    have valid := inv.refs.advance (p := .teardown) before rfl rfl fun _ =>
      inv.refs.alone before rfl
    exact { inv.advance valid rfl rfl before rfl (.inr fun _ => rfl) with }
  | @teardown r closed _ before =>
    have alone := inv.refs.alone before rfl
    cases closed with
    | false =>
      exact inv.advance (inv.refs.advance (p := .failed) before rfl rfl fun _ => alone) rfl rfl
        before rfl (.inr fun _ => rfl)
    | true =>
      exact inv.advance (inv.refs.advance (p := .dropLast) before rfl rfl fun _ => alone) rfl rfl
        before rfl (.inr fun _ => rfl)
  | dequeue _ loop popped => exact inv.dequeue loop popped
  | quit _ loop _ _ => exact inv.leave loop rfl rfl nofun
  | sleep _ loop empty run =>
    exact inv.leave loop rfl rfl fun _ => ⟨inv.linked.pop_eq_none_iff.mp empty, run⟩
  | wake _ waiting => exact inv.leave waiting rfl rfl nofun
  | run success _ isRun =>
    refine inv.run isRun ?_
    cases success <;> nofun
  | @complete rq status ran event =>
    have held := inv.kept rq.id ⟨rq, rfl, event, .inr ⟨status, ran⟩⟩
    have passed := List.mem_of_getLast? (inv.ran rq status ran).2.1
    have valid : (s.refs.goto (.event rq.id none) .readEvent).Valid :=
      inv.refs.gotoEvent held rfl nofun rfl rfl
    refine (inv.complete ran).move valid rfl rfl nofun nofun ?_ (.inr fun closing => ?_)
    · intro e same
      cases same
      refine ⟨rfl, fun h call => ?_, fun rq' member _ => inv.id_ne_of_listed passed member⟩
      cases (inv.accepted rq (inv.mem_accepted_of_passed passed)).2.symm.trans call
    · have before : (s.pc (.event rq.id none)).closing = true := closing
      rw [held] at before
      cases before
  | @discard rq status ran event =>
    refine inv.setWorker rfl (ran ▸ rfl) ?_ ?_ nofun
    · intro e release
      cases ran.symm.trans release
    · intro rq' status' ran'
      cases ran.symm.trans ran'
      exact event
  | @released e release finished =>
    refine inv.setWorker rfl (release ▸ rfl) ?_ ?_ nofun
    · intro e' release'
      cases release.symm.trans release'
      right
      rcases finished with finished | finished <;> rw [finished] <;> nofun
    · intro rq status ran
      cases release.symm.trans ran
  | again _ finish _ => exact inv.leave finish rfl rfl nofun
  | stop finish _ => exact inv.leave finish rfl rfl nofun

theorem Reach.inv (reach : Reach s) : s.Inv := by
  induction reach with
  | refl => exact .init
  | tail _ step ih => exact step.inv ih

/-! ## Events -/

theorem Queue.Inv.index_inj {i j : ℕ} {rq rq' : Request} (inv : s.Inv)
    (first : s.accepted[i]? = some rq) (second : s.accepted[j]? = some rq')
    (same : rq.id = rq'.id) : i = j := by
  refine (List.getElem?_inj ?_ inv.nodup).mp ?_
  · rw [List.length_map]
    exact (List.getElem?_eq_some_iff.mp first).1
  · rw [List.getElem?_map, List.getElem?_map, first, second, Option.map_some, Option.map_some, same]

theorem Queue.Inv.getElem?_accepted {i : ℕ} {rq : Request} (inv : s.Inv)
    (passed : s.passed[i]? = some rq) : s.accepted[i]? = some rq := by
  rw [inv.order, List.append_assoc, List.getElem?_append_left]
  · exact passed
  · exact (List.getElem?_eq_some_iff.mp passed).1

/-- Before a command whose event is set, the events of all commands are set. -/
theorem Queue.Inv.status_ne_pending {i j : ℕ} {m n : Request} (inv : s.Inv) (lt : i < j)
    (first : s.accepted[i]? = some m) (second : s.accepted[j]? = some n) (event : m.event = true)
    (done : s.status n.id ≠ .pending) : s.status m.id ≠ .pending := by
  obtain ⟨rq, member, same⟩ := inv.pending n.id done
  obtain ⟨k, short, here⟩ := List.getElem_of_mem member
  have passed : s.passed[k]? = some rq := List.getElem?_eq_some_iff.mpr ⟨short, here⟩
  have index : j = k := inv.index_inj second (inv.getElem?_accepted passed) same.symm
  have before : s.passed[i]? = some m := by
    rw [← first, inv.order, List.append_assoc, List.getElem?_append_left (by omega)]
  rcases inv.completed m (List.mem_of_getElem? before) event with set | ⟨status, ran⟩
  · exact set
  · -- the queue thread is at the last command that was passed on
    have last := (inv.ran m status ran).2.1
    rw [List.getLast?_eq_getElem?] at last
    have index' := inv.index_inj first (inv.getElem?_accepted last) rfl
    omega

/-- A status that is set stays. -/
theorem Step.status_eq {n : ℕ} (step : Step s s') (inv : s.Inv) (done : s.status n ≠ .pending) :
    s'.status n = s.status n := by
  cases step with
  | enqueue event _ _ =>
    cases event with
    | false => rfl
    | true =>
      obtain ⟨rq, member, rfl⟩ := inv.pending n done
      exact Function.update_of_ne (inv.accepted rq (inv.mem_accepted_of_passed member)).1.ne _ _
  | @complete rq status ran event =>
    have other : n ≠ rq.id := fun same => done (same ▸ (inv.ran rq status ran).2.2 event)
    exact Function.update_of_ne other _ _
  | _ => rfl

theorem Queue.Inv.status_final {n : ℕ} (inv : s.Inv) (done : s.status n ≠ .pending)
    (run : Relation.ReflTransGen Step s s') : s'.status n = s.status n := by
  have both : s'.Inv ∧ s'.status n = s.status n := by
    induction run with
    | refl => exact ⟨inv, rfl⟩
    | tail _ step ih =>
      obtain ⟨inv', same⟩ := ih
      exact ⟨step.inv inv', (step.status_eq inv' (same ▸ done)).trans same⟩
  exact both.2

/-- Commands are passed on in order and once; events are set in order and for good; the queue
thread does not wait while there is something to do. -/
structure Queue.Orderly (s : Queue) : Prop where
  order : s.passed <+: s.accepted
  once : (s.passed.map Request.id).Nodup
  events : ∀ (i j : ℕ) (m n : Request), i < j → s.accepted[i]? = some m → s.accepted[j]? = some n →
    m.event = true → n.event = true → s.status n.id ≠ .pending → s.status m.id ≠ .pending
  final : ∀ n, s.status n ≠ .pending → ∀ s', Relation.ReflTransGen Step s s' →
    s'.status n = s.status n
  awake : s.worker = .waiting → s.requestQueue.head = none ∧ s.exit = false

/-- Every state of every run is orderly. -/
theorem reach_orderly (reach : Reach s) : s.Orderly := by
  have inv := reach.inv
  have order : s.passed <+: s.accepted := by
    rw [inv.order, List.append_assoc]
    exact List.prefix_append _ _
  refine ⟨order, ?_, ?_, ?_, ?_⟩
  · exact inv.nodup.sublist (order.sublist.map Request.id)
  · intro i j m n lt first second event _ done
    exact inv.status_ne_pending lt first second event done
  · intro n done s' run
    exact inv.status_final done run
  · intro waiting
    obtain ⟨empty, run⟩ := inv.waiting waiting
    have linked := inv.linked.segment
    rw [empty] at linked
    exact ⟨linked, run⟩

end Steps

/-- Two commands, the first of them with an event, are passed on before the queue thread waits. -/
theorem reach_orderly_waiting :
    ∃ s, Reach s ∧ s.worker = .waiting ∧ s.passed = [⟨0, true⟩, ⟨1, false⟩] ∧
      s.status 0 = .success ∧ s.Orderly := by
  have start : Reach .init := .refl
  have created := start.tail (.enqueue (h := 0) true rfl rfl)
  have appended := created.tail (.append (n := 0) (h := 0) rfl rfl)
  have created' := appended.tail (.enqueue (h := 0) false rfl rfl)
  have appended' := created'.tail (.append (n := 1) (h := 0) rfl rfl)
  have taken := appended'.tail (.dequeue rfl rfl rfl)
  have ran := taken.tail (.run true rfl rfl)
  have completed := ran.tail (.complete rfl rfl)
  have read := completed.tail (.readEvent (e := 0) (i := none) rfl)
  have dropped := read.tail (.dropEvent (e := 0) (i := none) (.inl rfl))
  have released := dropped.tail (.released (e := 0) rfl (.inl rfl))
  have again := released.tail (.again rfl rfl rfl)
  have taken' := again.tail (.dequeue rfl rfl rfl)
  have ran' := taken'.tail (.run true rfl rfl)
  have discarded := ran'.tail (.discard rfl rfl)
  have again' := discarded.tail (.again rfl rfl rfl)
  have asleep := again'.tail (.sleep rfl rfl rfl rfl)
  exact ⟨_, asleep, rfl, rfl, rfl, reach_orderly asleep⟩

end Xrp.Native
