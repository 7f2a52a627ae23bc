import Xrp.Base.Refcount

/-!
# References to a queue and its events

The reference counts of one queue of `xrp_linux_native.c` and of the events of its
commands, and the calls that give references back. A reference is given back by one call, so
that a call in progress is told by the reference that it gives back: the state has for each
reference how far its holder is. In `last_refcount` a count is read, in `release_refcounted` it
is decremented, and other threads may run in between.
-/

namespace Xrp.Native

/-- The references to the queue: the handles of clients, and one of each event. -/
inductive QueueRef : Type
  | handle (h : ℕ)
  | event (e : ℕ)
  deriving DecidableEq

/-- What is given back by one call: a handle of the queue, or a reference to an event, which is
a handle of a client or, as `none`, that of the request. -/
inductive Ref : Type
  | queue (h : ℕ)
  | event (e : ℕ) (i : Option ℕ)
  deriving DecidableEq

/-- The reference to the queue that goes with it. -/
def Ref.queueRef : Ref → QueueRef
  | queue h => .handle h
  | event e _ => .event e

/-- Where the holder of a reference is, in `xrp_release_event` and `xrp_release_queue`. -/
inductive Pc : Type
  | unused
  /-- `xrp_enqueue_command` has yet to return the event. -/
  | created
  | held
  /-- Before `last_refcount(event)`. -/
  | readEvent
  /-- The event has other references. -/
  | dropEvent
  /-- Before `last_refcount(queue)`. -/
  | readQueue
  /-- The queue has other references. -/
  | dropQueue
  /-- Before `queue->exit` is set. -/
  | setExit
  /-- Before `pthread_join`. -/
  | join
  /-- After `pthread_join`. -/
  | teardown
  /-- The queue is torn down; its last reference is left. -/
  | dropLast
  /-- `xrp_release_device` failed. -/
  | failed
  /-- The reference of the event to the queue is given back. -/
  | dropEventLast
  | gone
  deriving DecidableEq

namespace Pc

/-- In `xrp_release_queue`, or returned from it early. -/
def releasing : Pc → Bool
  | readQueue | dropQueue | setExit | join | teardown | dropLast | failed => true
  | _ => false

/-- In the part of `xrp_release_queue` for the last reference, or returned from it early. -/
def closing : Pc → Bool
  | setExit | join | teardown | dropLast | failed => true
  | _ => false

/-- A handle of the queue that was not given back. -/
def ownsQueue (p : Pc) : Bool := p == held || p.releasing

/-- A reference to an event that was not given back. -/
def ownsEvent : Pc → Bool
  | unused | gone => false
  | _ => true

end Pc

/-- The reference counts, with their holders, and where the holders are; `issued` is the number
of calls of `xrp_enqueue_command`, and a command and its event have the number of the call. -/
structure Refs : Type where
  queue : Refcounted QueueRef
  event : ℕ → Refcounted (Option ℕ)
  pc : Ref → Pc
  issued : ℕ

namespace Refs

/-- After `xrp_create_queue`. -/
def init : Refs where
  queue := .alloc (.handle 0)
  event _ := .empty
  pc := Function.update (fun _ => .unused) (.queue 0) .held
  issued := 0

variable (s : Refs)

/-- The holder of a reference moves on. -/
def goto (r : Ref) (p : Pc) : Refs := { s with pc := Function.update s.pc r p }

/-- `xrp_retain_queue`. -/
def retainQueue (h : ℕ) : Refs :=
  { s.goto (.queue h) .held with queue := s.queue.retain (.handle h) }

/-- `xrp_retain_event`. -/
def retainEvent (e i : ℕ) : Refs :=
  { s.goto (.event e (some i)) .held with
    event := Function.update s.event e ((s.event e).retain (some i)) }

/-- A call of `xrp_enqueue_command` without an event. -/
def issue : Refs := { s with issued := s.issued + 1 }

/-- The event that `xrp_enqueue_command` makes: the first reference is that of the client, who
does not have it yet, and the second that of the request. -/
def createEvent : Refs :=
  { queue := s.queue.retain (.event s.issued)
    event := Function.update s.event s.issued ((Refcounted.alloc (some 0)).retain none)
    pc := Function.update (Function.update s.pc (.event s.issued (some 0)) .created)
      (.event s.issued none) .held
    issued := s.issued + 1 }

/-- `release_refcounted(event)`. -/
def dropEvent (e : ℕ) (i : Option ℕ) : Refs :=
  { s.goto (.event e i) .gone with
    event := Function.update s.event e ((s.event e).release i) }

/-- Where `xrp_release_queue` returns to. -/
def returned : Ref → Pc
  | .queue _ => .gone
  | .event _ _ => .dropEventLast

/-- `release_refcounted(queue)`. -/
def dropQueue (r : Ref) : Refs :=
  { s.goto r (returned r) with queue := s.queue.release r.queueRef }

/-! ## The counts are exact -/

/-- The counts and their holders agree with where the holders are. -/
structure Valid : Prop where
  queue : s.queue.Exact
  event : ∀ e, (s.event e).Exact
  handle_iff : ∀ h, .handle h ∈ s.queue.holders ↔ (s.pc (.queue h)).ownsQueue
  event_iff : ∀ e i, i ∈ (s.event e).holders ↔ (s.pc (.event e i)).ownsEvent
  /-- Only the last reference to an event gives back that of the event to the queue. -/
  releasing : ∀ e i, (s.pc (.event e i)).releasing →
    .event e ∈ s.queue.holders ∧ (s.event e).holders = {i}
  /-- An event has its reference to the queue until then. -/
  live : ∀ e i, i ∈ (s.event e).holders → s.pc (.event e i) ≠ .dropEventLast →
    .event e ∈ s.queue.holders
  /-- The queue is torn down by the only holder. -/
  closing : ∀ r, (s.pc r).closing → s.queue.holders = {r.queueRef}
  new : ∀ e, s.issued ≤ e → (s.event e).holders = ∅ ∧ .event e ∉ s.queue.holders

variable {s : Refs}

theorem Valid.init : init.Valid := by
  constructor
  · exact Refcounted.exact_alloc _
  · intro _
    exact Refcounted.exact_empty
  · intro h
    simp only [Refs.init, Refcounted.alloc]
    grind [Pc.ownsQueue, Pc.releasing]
  · intro e i
    simp only [Refs.init, Refcounted.empty]
    grind [Pc.ownsEvent]
  · intro e i
    simp only [Refs.init]
    grind [Pc.releasing]
  · intro e i
    simp only [Refs.init, Refcounted.empty]
    grind
  · intro r
    simp only [Refs.init]
    grind [Pc.closing]
  · intro e _
    simp only [Refs.init, Refcounted.alloc, Refcounted.empty]
    grind

namespace Valid

variable {r r' : Ref} {p : Pc}

theorem mem_holders (valid : s.Valid) (releasing : (s.pc r).releasing) :
    r.queueRef ∈ s.queue.holders := by
  cases r with
  | queue h =>
    rw [Ref.queueRef, valid.handle_iff, Pc.ownsQueue, releasing, Bool.or_true]
  | event e i => exact (valid.releasing e i releasing).1

/-- Two calls do not give back the same reference to the queue. -/
theorem ref_eq (valid : s.Valid) (releasing : (s.pc r).releasing) (releasing' : (s.pc r').releasing)
    (same : r.queueRef = r'.queueRef) : r = r' := by
  cases r with
  | queue h =>
    cases r' with
    | queue h' => exact congrArg Ref.queue (QueueRef.handle.inj same)
    | event e' i' => cases same
  | event e i =>
    cases r' with
    | queue h' => cases same
    | event e' i' =>
      cases same
      have only := (valid.releasing e i releasing).2
      rw [(valid.releasing e i' releasing').2, Finset.singleton_inj] at only
      rw [only]

theorem releasing_of_closing (closing : p.closing) : p.releasing := by
  cases p with
  | setExit | join | teardown | dropLast | failed => rfl
  | _ => cases closing

/-- Who tears the queue down is the only holder. -/
theorem alone {q : Pc} (valid : s.Valid) (before : s.pc r = q) (closing : q.closing) :
    s.queue.holders = {r.queueRef} := valid.closing r (before ▸ closing)

/-- While the queue is torn down, nobody else gives back a reference to it. -/
theorem eq_of_closing (valid : s.Valid) (closing : (s.pc r).closing)
    (releasing : (s.pc r').releasing) : r' = r := by
  have holds := valid.mem_holders releasing
  rw [valid.closing r closing, Finset.mem_singleton] at holds
  exact valid.ref_eq releasing (releasing_of_closing closing) holds

/-- While the queue is torn down, no client has a handle. -/
theorem not_held (valid : s.Valid) (closing : (s.pc r).closing) (h : ℕ) :
    s.pc (.queue h) ≠ .held := by
  intro held
  have holds : .handle h ∈ s.queue.holders := by
    rw [valid.handle_iff, held]
    rfl
  rw [valid.closing r closing, Finset.mem_singleton] at holds
  cases r with
  | queue h' =>
    cases holds
    rw [held] at closing
    cases closing
  | event e i => cases holds

/-- A holder moves on and keeps what it has. -/
theorem goto (valid : s.Valid) (ownsQueue : ∀ h, r = .queue h → p.ownsQueue = (s.pc r).ownsQueue)
    (ownsEvent : ∀ e i, r = .event e i → p.ownsEvent = (s.pc r).ownsEvent)
    (early : s.pc r ≠ .dropEventLast)
    (releasing : ∀ e i, r = .event e i → p.releasing →
      .event e ∈ s.queue.holders ∧ (s.event e).holders = {i})
    (closing : p.closing → s.queue.holders = {r.queueRef}) : (s.goto r p).Valid where
  queue := valid.queue
  event := valid.event
  handle_iff h := by
    change _ ↔ (Function.update s.pc r p (.queue h)).ownsQueue
    rw [Function.update_apply]
    split_ifs with same
    · rw [ownsQueue h same.symm, ← same]
      exact valid.handle_iff h
    · exact valid.handle_iff h
  event_iff e i := by
    change _ ↔ (Function.update s.pc r p (.event e i)).ownsEvent
    rw [Function.update_apply]
    split_ifs with same
    · rw [ownsEvent e i same.symm, ← same]
      exact valid.event_iff e i
    · exact valid.event_iff e i
  releasing e i := by
    change (Function.update s.pc r p (.event e i)).releasing → _
    rw [Function.update_apply]
    split_ifs with same
    · exact releasing e i same.symm
    · exact valid.releasing e i
  live e i holds := by
    change Function.update s.pc r p (.event e i) ≠ .dropEventLast → _
    rw [Function.update_apply]
    split_ifs with same
    · intro _
      rw [← same] at early
      exact valid.live e i holds early
    · exact valid.live e i holds
  closing r' := by
    change (Function.update s.pc r p r').closing → _
    rw [Function.update_apply]
    split_ifs with same
    · rw [same]
      exact closing
    · exact valid.closing r'
  new := valid.new

/-- A holder moves on in `xrp_release_queue`. -/
theorem advance {q : Pc} (valid : s.Valid) (before : s.pc r = q) (releasing : q.releasing)
    (after : p.releasing) (closing : p.closing → s.queue.holders = {r.queueRef}) :
    (s.goto r p).Valid := by
  have owns {p : Pc} (releasing : p.releasing) : p.ownsQueue = true ∧ p.ownsEvent = true := by
    cases p with
    | readQueue | dropQueue | setExit | join | teardown | dropLast | failed => exact ⟨rfl, rfl⟩
    | _ => cases releasing
  apply valid.goto
  · intro _ _
    rw [before, (owns after).1, (owns releasing).1]
  · intro _ _ _
    rw [before, (owns after).2, (owns releasing).2]
  · intro last
    rw [← before, last] at releasing
    cases releasing
  · intro e i same _
    subst same
    exact valid.releasing e i (before ▸ releasing)
  · exact closing

/-- A holder of an event moves on before it gives back anything. -/
theorem gotoEvent {e : ℕ} {i : Option ℕ} {q : Pc} (valid : s.Valid)
    (before : s.pc (.event e i) = q) (owns : q.ownsEvent) (early : q ≠ .dropEventLast)
    (after : p.ownsEvent) (idle : p.releasing = false) : (s.goto (.event e i) p).Valid := by
  apply valid.goto
  · intro h same
    cases same
  · intro _ _ _
    rw [before, owns, after]
  · rw [before]
    exact early
  · intro _ _ _ releasing
    cases idle.symm.trans releasing
  · intro closing
    cases idle.symm.trans (releasing_of_closing closing)

/-- The last holder of an event gives back the reference of the event to the queue. -/
theorem gotoReadQueue {e : ℕ} {i : Option ℕ} (valid : s.Valid)
    (before : s.pc (.event e i) = .readEvent) (last : (s.event e).count = 1) :
    (s.goto (.event e i) .readQueue).Valid := by
  have holds : i ∈ (s.event e).holders := by
    rw [valid.event_iff, before]
    rfl
  have early : s.pc (.event e i) ≠ .dropEventLast := by
    rw [before]
    decide
  apply valid.goto
  · intro h same
    cases same
  · intro _ _ _
    rw [before]
    rfl
  · exact early
  · intro e' i' same _
    cases same
    exact ⟨valid.live e i holds early, (valid.event e).holders_eq holds last⟩
  · intro closing
    cases closing

/-- A holder that finds one reference to the queue tears it down. -/
theorem gotoSetExit (valid : s.Valid) (before : s.pc r = .readQueue) (last : s.queue.count = 1) :
    (s.goto r .setExit).Valid := by
  have releasing : (s.pc r).releasing := by
    rw [before]
    rfl
  apply valid.advance before rfl rfl
  intro _
  exact valid.queue.holders_eq (valid.mem_holders releasing) last

theorem releaseHandle {h : ℕ} (valid : s.Valid) (held : s.pc (.queue h) = .held) :
    (s.goto (.queue h) .readQueue).Valid := by
  apply valid.goto
  · intro _ _
    rw [held]
    rfl
  · intro _ _ same
    cases same
  · rw [held]
    decide
  · intro _ _ same
    cases same
  · intro closing
    cases closing

theorem retainQueue {h h' : ℕ} (valid : s.Valid) (held : s.pc (.queue h) = .held)
    (unused : s.pc (.queue h') = .unused) : (s.retainQueue h').Valid where
  queue := by
    apply valid.queue.retain
    rw [valid.handle_iff, unused]
    decide
  event := valid.event
  handle_iff k := by
    have before := valid.handle_iff k
    simp only [Refs.retainQueue, Refs.goto, Refcounted.retain]
    grind [Pc.ownsQueue]
  event_iff e i := by
    have before := valid.event_iff e i
    simp only [Refs.retainQueue, Refs.goto]
    grind
  releasing e i := by
    have before := valid.releasing e i
    simp only [Refs.retainQueue, Refs.goto, Refcounted.retain]
    grind
  live e i := by
    have before := valid.live e i
    simp only [Refs.retainQueue, Refs.goto, Refcounted.retain]
    grind
  closing r closing := by
    have notHeld := valid.not_held (r := r)
    simp only [Refs.retainQueue, Refs.goto] at closing
    grind [Pc.closing]
  new e le := by
    have before := valid.new e le
    simp only [Refs.retainQueue, Refs.goto, Refcounted.retain]
    grind

/-- A holder that still has the event keeps others from giving back its reference. -/
theorem not_releasing {e : ℕ} {i : Option ℕ} (valid : s.Valid) (holds : i ∈ (s.event e).holders)
    (keeps : ¬ (s.pc (.event e i)).releasing) (j : Option ℕ) :
    ¬ (s.pc (.event e j)).releasing := by
  intro releasing
  have only := (valid.releasing e j releasing).2
  rw [only, Finset.mem_singleton] at holds
  rw [← holds] at releasing
  exact keeps releasing

theorem retainEvent {e i i' : ℕ} (valid : s.Valid) (held : s.pc (.event e (some i)) = .held)
    (unused : s.pc (.event e (some i')) = .unused) : (s.retainEvent e i').Valid := by
  have fresh : some i' ∉ (s.event e).holders := by
    rw [valid.event_iff, unused]
    decide
  have holds : some i ∈ (s.event e).holders := by
    rw [valid.event_iff, held]
    rfl
  have live : .event e ∈ s.queue.holders := valid.live e _ holds (by rw [held]; decide)
  have quiet := valid.not_releasing holds (by rw [held]; decide)
  constructor
  · exact valid.queue
  · intro e'
    have before := valid.event e'
    have after := (valid.event e).retain fresh
    simp only [Refs.retainEvent, Refs.goto]
    grind
  · intro h
    have before := valid.handle_iff h
    simp only [Refs.retainEvent, Refs.goto]
    grind
  · intro e' j
    have before := valid.event_iff e' j
    simp only [Refs.retainEvent, Refs.goto, Refcounted.retain]
    grind [Pc.ownsEvent]
  · intro e' j
    have before := valid.releasing e' j
    simp only [Refs.retainEvent, Refs.goto, Refcounted.retain]
    grind [Pc.releasing]
  · intro e' j
    have before := valid.live e' j
    simp only [Refs.retainEvent, Refs.goto, Refcounted.retain]
    grind
  · intro r
    have before := valid.closing r
    simp only [Refs.retainEvent, Refs.goto]
    grind [Pc.closing]
  · intro e' le
    have before := valid.new e' le
    simp only [Refs.retainEvent, Refs.goto, Refcounted.retain]
    grind

theorem issue (valid : s.Valid) : s.issue.Valid :=
  { valid with new := fun e le => valid.new e (Nat.le_of_succ_le le) }

theorem createEvent {h : ℕ} (valid : s.Valid) (held : s.pc (.queue h) = .held) :
    s.createEvent.Valid := by
  have new := valid.new s.issued le_rfl
  constructor
  · exact valid.queue.retain new.2
  · intro e
    have before := valid.event e
    have made : ((Refcounted.alloc (some 0)).retain none).Exact := rfl
    simp only [Refs.createEvent]
    grind
  · intro k
    have before := valid.handle_iff k
    simp only [Refs.createEvent, Refcounted.retain]
    grind
  · intro e i
    have before := valid.event_iff e i
    simp only [Refs.createEvent, Refcounted.retain, Refcounted.alloc]
    grind [Pc.ownsEvent]
  · intro e i
    have before := valid.releasing e i
    simp only [Refs.createEvent, Refcounted.retain, Refcounted.alloc]
    grind [Pc.releasing]
  · intro e i
    have before := valid.live e i
    simp only [Refs.createEvent, Refcounted.retain, Refcounted.alloc]
    grind
  · intro r closing
    have notHeld := valid.not_held (r := r)
    simp only [Refs.createEvent] at closing
    grind [Pc.closing]
  · intro e le
    have before := valid.new e
    simp only [Refs.createEvent, Refcounted.retain, Refcounted.alloc] at le ⊢
    grind

theorem dropEvent {e : ℕ} {i : Option ℕ} (valid : s.Valid)
    (dropping : s.pc (.event e i) = .dropEvent ∨ s.pc (.event e i) = .dropEventLast) :
    (s.dropEvent e i).Valid := by
  have holds : i ∈ (s.event e).holders := by
    rw [valid.event_iff]
    rcases dropping with dropping | dropping <;> rw [dropping] <;> rfl
  have quiet := valid.not_releasing holds
    (by rcases dropping with dropping | dropping <;> rw [dropping] <;> decide)
  constructor
  · exact valid.queue
  · intro e'
    have before := valid.event e'
    have after := (valid.event e).release holds
    simp only [Refs.dropEvent, Refs.goto]
    grind
  · intro h
    have before := valid.handle_iff h
    simp only [Refs.dropEvent, Refs.goto]
    grind
  · intro e' j
    have before := valid.event_iff e' j
    simp only [Refs.dropEvent, Refs.goto, Refcounted.release]
    grind [Pc.ownsEvent]
  · intro e' j
    have before := valid.releasing e' j
    simp only [Refs.dropEvent, Refs.goto, Refcounted.release]
    grind [Pc.releasing]
  · intro e' j
    have before := valid.live e' j
    simp only [Refs.dropEvent, Refs.goto, Refcounted.release]
    grind
  · intro r
    have before := valid.closing r
    simp only [Refs.dropEvent, Refs.goto]
    grind [Pc.closing]
  · intro e' le
    have before := valid.new e' le
    simp only [Refs.dropEvent, Refs.goto, Refcounted.release]
    grind

theorem dropQueue (valid : s.Valid) (dropping : s.pc r = .dropQueue ∨ s.pc r = .dropLast) :
    (s.dropQueue r).Valid := by
  have releasing : (s.pc r).releasing := by
    rcases dropping with dropping | dropping <;> rw [dropping] <;> rfl
  have holds := valid.mem_holders releasing
  constructor
  · exact valid.queue.release holds
  · exact valid.event
  · intro h
    have before := valid.handle_iff h
    simp only [Refs.dropQueue, Refs.goto, Refcounted.release]
    cases r <;> grind [Ref.queueRef, returned, Pc.ownsQueue, Pc.releasing]
  · intro e i
    have before := valid.event_iff e i
    simp only [Refs.dropQueue, Refs.goto]
    cases r <;> grind [returned, Pc.ownsEvent]
  · intro e i releasing'
    simp only [Refs.dropQueue, Refs.goto, Function.update_apply] at releasing'
    split_ifs at releasing' with same
    · cases r <;> cases releasing'
    · obtain ⟨holds', only⟩ := valid.releasing e i releasing'
      refine ⟨Finset.mem_erase.mpr ⟨fun queue => same ?_, holds'⟩, only⟩
      exact valid.ref_eq releasing' releasing queue
  · intro e i member early
    simp only [Refs.dropQueue, Refs.goto, Function.update_apply] at early
    split_ifs at early with same
    · subst same
      exact absurd rfl early
    · refine Finset.mem_erase.mpr ⟨fun queue => same ?_, valid.live e i member early⟩
      cases r with
      | queue h => cases queue
      | event e' i' =>
        cases queue
        have only := (valid.releasing e i' releasing).2
        rw [Refs.dropQueue, Refs.goto, only, Finset.mem_singleton] at member
        rw [member]
  · intro r' closing
    simp only [Refs.dropQueue, Refs.goto, Function.update_apply] at closing
    split_ifs at closing with same
    · cases r <;> cases closing
    · exact absurd (valid.eq_of_closing closing releasing).symm same
  · intro e le
    have before := valid.new e le
    simp only [Refs.dropQueue, Refs.goto, Refcounted.release]
    grind

end Valid

end Refs

end Xrp.Native
