import Xrp.Base.LinkedQueue
import Xrp.Dsp.Namespace
import Xrp.Native.Refs

/-!
# The command queue of the native library

One queue of `xrp_linux_native.c`, with its thread and any number of client threads that
enqueue commands and release their handles of the queue and of events. A section that is
under the mutex of the queue is one step, as is a read or an update of a reference count. A
client has to hold a handle of the queue while it enqueues a command, and releases each handle
once. `pthread_join` waits for the queue thread, and fails in the queue thread itself.

The lists of what is queued, accepted and passed on are not in memory; they say what happened.
Buffer groups and the data of commands are left out, as are calls of `xrp_enqueue_command` that
fail, which change nothing. Nothing is said of what is done with a queue after it is freed.
-/

namespace Xrp.Native

open Dsp (XrpStatus)

/-- `struct xrp_request`: the number of the command, and if it has an event. A request stands for
the pointer to it as well. -/
structure Request : Type where
  id : ℕ
  event : Bool
  deriving DecidableEq

/-- Where the queue thread is in `xrp_queue_process`. -/
inductive Worker : Type
  /-- In the loop, with the mutex. -/
  | loop
  /-- In `pthread_cond_wait`. -/
  | waiting
  /-- Before `_xrp_run_command`. -/
  | run (rq : Request)
  /-- After `_xrp_run_command`. -/
  | ran (rq : Request) (status : XrpStatus)
  /-- In `xrp_release_event`. -/
  | release (e : ℕ)
  /-- Before the return. -/
  | finish
  /-- The thread has returned. -/
  | done
  deriving DecidableEq

/-- `pthread_cond_broadcast`. -/
def Worker.broadcast (w : Worker) : Worker := if w = waiting then loop else w

/-- The queue, its thread and its clients. -/
structure Queue : Type where
  refs : Refs
  /-- The calls of `xrp_enqueue_command` that have yet to append their request: with which
  handle, and if with an event. -/
  enqueuing : ℕ → Option (ℕ × Bool)
  requestQueue : LinkedQueue Request
  exit : Bool
  /-- The variable of the queue thread that `sync_exit` points to. -/
  syncExit : Bool
  worker : Worker
  status : ℕ → XrpStatus
  freed : Bool
  /-- The requests appended and not dequeued, in order. -/
  list : List Request
  /-- The commands for which `xrp_enqueue_command` reports success, in order. -/
  accepted : List Request
  /-- The commands passed to `_xrp_run_command`, in order. -/
  passed : List Request

namespace Queue

/-- After `xrp_create_queue`. -/
def init : Queue where
  refs := .init
  enqueuing _ := none
  requestQueue := .empty
  exit := false
  syncExit := false
  worker := .loop
  status _ := .pending
  freed := false
  list := []
  accepted := []
  passed := []

variable (s : Queue)

/-- Where the holder of a reference is. -/
abbrev pc (r : Ref) : Pc := s.refs.pc r

/-- The holder of a reference moves on. -/
def goto (r : Ref) (p : Pc) : Queue := { s with refs := s.refs.goto r p }

/-- `xrp_enqueue_command` up to the call of `xrp_enqueue_request`. -/
def enqueue (h : ℕ) (event : Bool) : Queue :=
  { s with
    refs := if event then s.refs.createEvent else s.refs.issue
    enqueuing := Function.update s.enqueuing s.refs.issued (some (h, event))
    status := if event then Function.update s.status s.refs.issued .pending else s.status }

/-- `xrp_enqueue_request`, and the return of `xrp_enqueue_command`. -/
def append (n : ℕ) (event : Bool) : Queue :=
  { s with
    refs := if event then s.refs.goto (.event n (some 0)) .held else s.refs
    enqueuing := Function.update s.enqueuing n none
    requestQueue := s.requestQueue.push ⟨n, event⟩
    worker := if s.requestQueue.tail = none then s.worker.broadcast else s.worker
    list := s.list ++ [⟨n, event⟩]
    accepted := s.accepted ++ [⟨n, event⟩] }

/-- `release_refcounted(queue)`. -/
def dropQueue (r : Ref) : Queue :=
  { s with
    refs := s.refs.dropQueue r
    freed := s.refs.queue.count - 1 = 0 }

theorem dropQueue_last {r : Ref} (last : s.refs.queue.count - 1 = 0) :
    s.dropQueue r = { s with refs := s.refs.dropQueue r, freed := true } := by
  rw [dropQueue, decide_eq_true last]

theorem dropQueue_other {r : Ref} (live : s.freed = false) (more : s.refs.queue.count - 1 ≠ 0) :
    s.dropQueue r = { s with refs := s.refs.dropQueue r } := by
  rw [dropQueue, decide_eq_false more, ← live]

end Queue

/-- The steps of the clients, the queue thread, and the calls that release a reference. -/
inductive Step (s : Queue) : Queue → Prop
  | retainQueue {h h' : ℕ} :
    s.freed = false → s.pc (.queue h) = .held → s.pc (.queue h') = .unused →
    Step s { s with refs := s.refs.retainQueue h' }
  | retainEvent {e i i' : ℕ} :
    s.pc (.event e (some i)) = .held → s.pc (.event e (some i')) = .unused →
    Step s { s with refs := s.refs.retainEvent e i' }
  | enqueue {h : ℕ} (event : Bool) :
    s.freed = false → s.pc (.queue h) = .held → Step s (s.enqueue h event)
  | append {n h : ℕ} {event : Bool} :
    s.freed = false → s.enqueuing n = some (h, event) → Step s (s.append n event)
  | releaseQueue {h : ℕ} :
    s.pc (.queue h) = .held → (∀ n event, s.enqueuing n ≠ some (h, event)) →
    Step s (s.goto (.queue h) .readQueue)
  | releaseEvent {e i : ℕ} :
    s.pc (.event e (some i)) = .held → Step s (s.goto (.event e (some i)) .readEvent)
  | readEvent {e : ℕ} {i : Option ℕ} :
    s.pc (.event e i) = .readEvent →
    Step s (s.goto (.event e i) (if (s.refs.event e).count = 1 then .readQueue else .dropEvent))
  | dropEvent {e : ℕ} {i : Option ℕ} :
    s.pc (.event e i) = .dropEvent ∨ s.pc (.event e i) = .dropEventLast →
    Step s { s with refs := s.refs.dropEvent e i }
  | readQueue {r : Ref} :
    s.freed = false → s.pc r = .readQueue →
    Step s (s.goto r (if s.refs.queue.count = 1 then .setExit else .dropQueue))
  | dropQueue {r : Ref} :
    s.freed = false → s.pc r = .dropQueue ∨ s.pc r = .dropLast → Step s (s.dropQueue r)
  | setExit {r : Ref} :
    s.freed = false → s.pc r = .setExit →
    Step s { s.goto r .join with exit := true, worker := s.worker.broadcast }
  | joinThread {r : Ref} :
    s.freed = false → s.pc r = .join → (∀ e, r ≠ .event e none) → s.worker = .done →
    Step s (s.goto r .teardown)
  | joinSelf {e : ℕ} :
    s.freed = false → s.pc (.event e none) = .join →
    Step s { s.goto (.event e none) .teardown with syncExit := true }
  | teardown {r : Ref} (closed : Bool) :
    s.freed = false → s.pc r = .teardown →
    Step s (s.goto r (if closed then .dropLast else .failed))
  | dequeue {rq : Request} {rest : LinkedQueue Request} :
    s.freed = false → s.worker = .loop → s.requestQueue.pop = some (rq, rest) →
    Step s { s with requestQueue := rest, list := s.list.tail, worker := .run rq }
  | quit :
    s.freed = false → s.worker = .loop → s.requestQueue.pop = none → s.exit = true →
    Step s { s with worker := .done }
  | sleep :
    s.freed = false → s.worker = .loop → s.requestQueue.pop = none → s.exit = false →
    Step s { s with worker := .waiting }
  | wake :
    s.freed = false → s.worker = .waiting → Step s { s with worker := .loop }
  | run {rq : Request} (success : Bool) :
    s.freed = false → s.worker = .run rq →
    Step s
      { s with
        passed := s.passed ++ [rq]
        worker := .ran rq (if success then .success else .failure) }
  | complete {rq : Request} {status : XrpStatus} :
    s.worker = .ran rq status → rq.event = true →
    Step s
      { s.goto (.event rq.id none) .readEvent with
        status := Function.update s.status rq.id status
        worker := .release rq.id }
  | discard {rq : Request} {status : XrpStatus} :
    s.worker = .ran rq status → rq.event = false → Step s { s with worker := .finish }
  | released {e : ℕ} :
    s.worker = .release e → s.pc (.event e none) = .gone ∨ s.pc (.event e none) = .failed →
    Step s { s with worker := .finish }
  | again :
    s.freed = false → s.worker = .finish → s.syncExit = false →
    Step s { s with worker := .loop }
  | stop :
    s.worker = .finish → s.syncExit = true → Step s { s with worker := .done }

/-- The states of all runs. -/
def Reach (s : Queue) : Prop := Relation.ReflTransGen Step .init s

end Xrp.Native
