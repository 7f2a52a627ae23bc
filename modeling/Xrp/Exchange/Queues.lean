import Xrp.Exchange.ExactlyOnce
import Xrp.Exchange.Failure
import Xrp.Native.QueueOrder

/-!
# Queues of the library over one comm area

Any number of queues of `xrp_linux_native.c`, each with its thread and its clients, submit to one
device. The thread of a queue is in `_xrp_run_command` with one command at a time. The command may
be refused before `comm_lock` is taken: a buffer of it is mapped, or `xrp_map_request` fails. With
`comm_lock` the thread is the host of the exchange, and after it `xrp_unmap_request` may still
fail. As in the exchange, the DSP answers every request in time.

A queue keeps its order, and the exchange its requests apart. Together: a command is entered by
the DSP once at most, the commands of a queue in the order in which they were accepted, and a
command whose event says success was entered and answered.
-/

namespace Xrp.Exchange.Queues

open Kernel Dsp
open Native (Queue)

/-! ## The system -/

/-- A call of `ioctl` that took `comm_lock`: the queue, its command and what the driver made of
it. -/
structure Call : Type where
  queue : ℕ
  command : Native.Request
  request : XrpRequest

/-- Where the thread of a queue is in `ioctl`. -/
inductive CallPc : Type
  /-- Not in `ioctl`, or before it takes `comm_lock`. -/
  | outside
  /-- With `comm_lock`. -/
  | inside
  /-- Without `comm_lock` again; `ok` says if `ioctl` returns 0. -/
  | returning (ok : Bool)
  deriving DecidableEq

/-- The queues, where their threads are in `ioctl`, the comm area with its two sides, and the calls
that took `comm_lock`, in order. -/
structure System : Type where
  queue : ℕ → Queue
  pc : ℕ → CallPc
  exchange : State
  calls : List Call

/-- The end of `_xrp_run_command`. -/
def passOn (s : Queue) (rq : Native.Request) (ok : Bool) : Queue :=
  { s with passed := s.passed ++ [rq], worker := .ran rq (if ok then .success else .failure) }

/-- The commands of a queue among calls. -/
def commandsOf (q : ℕ) (calls : List Call) : List Native.Request :=
  (calls.filter fun c => c.queue = q).map Call.command

section Steps

variable (order dspOrder : ByteOrder) (translate : ULong → U32) (handlers : Handlers)

/-- One step of a client, a queue thread or the DSP. -/
inductive Step (s : System) : System → Prop
  | queue {q : ℕ} {t : Queue} :
    Native.Step (s.queue q) t → t.passed = (s.queue q).passed →
    Step s { s with queue := Function.update s.queue q t }
  | refuse {q : ℕ} {rq : Native.Request} :
    s.pc q = .outside → (s.queue q).freed = false → (s.queue q).worker = .run rq →
    Step s { s with queue := Function.update s.queue q (passOn (s.queue q) rq false) }
  | lock {q : ℕ} {rq : Native.Request} (request : XrpRequest) :
    s.pc q = .outside → (s.queue q).worker = .run rq → s.exchange.host = .idle →
    Step s
      { s with
        pc := Function.update s.pc q .inside
        exchange :=
          { s.exchange with host := .filling request (xrpFillHwRequest order translate request) }
        calls := s.calls ++ [⟨q, rq, request⟩] }
  | host {e : State} :
    s.exchange.host ≠ .idle → HostStep order translate s.exchange e →
    e.results = s.exchange.results → Step s { s with exchange := e }
  | unlock {q : ℕ} {request : XrpRequest} {r : HwResult} (ok : Bool) :
    s.pc q = .inside → s.exchange.host = .completing request (.ret r) →
    (ok = true → r.ret = .ok ()) →
    Step s
      { s with
        pc := Function.update s.pc q (.returning ok)
        exchange := { s.exchange with host := .idle, results := s.exchange.results ++ [r] } }
  | ret {q : ℕ} {rq : Native.Request} {ok : Bool} :
    s.pc q = .returning ok → (s.queue q).freed = false → (s.queue q).worker = .run rq →
    Step s
      { s with
        queue := Function.update s.queue q (passOn (s.queue q) rq ok)
        pc := Function.update s.pc q .outside }
  | dsp {e : State} : DspStep dspOrder handlers s.exchange e → Step s { s with exchange := e }

/-- Queues that were just made, over a device after a successful handshake. -/
structure Start (s : System) : Prop where
  queue : ∀ q, s.queue q = .init
  pc : ∀ q, s.pc q = .outside
  exchange : Initial s.exchange
  calls : s.calls = []

/-- The states of all runs. -/
def Reach (s : System) : Prop :=
  ∃ s₀, Start s₀ ∧ Relation.ReflTransGen (Step order dspOrder translate handlers) s₀ s

end Steps

/-! ## The invariant -/

/-- The request that the host is with. -/
def requestOf : HostPc → Option XrpRequest
  | .idle => none
  | .filling rq _ | .polling rq | .completing rq _ => some rq

namespace System

variable (s : System)

/-- The command of a queue took `comm_lock` and was completed without a delivery failure. -/
def Done (q : ℕ) (rq : Native.Request) : Prop :=
  ∃ (k : ℕ) (c : Call) (r : HwResult), s.calls[k]? = some c ∧ c.queue = q ∧ c.command = rq ∧
    s.exchange.results[k]? = some r ∧ r.ret = .ok ()

/-- The thread of a queue is between `comm_lock` and the return of `ioctl`. -/
def current (q : ℕ) : List Native.Request :=
  if s.pc q = .outside then [] else (s.queue q).worker.pending

/-- The call that holds `comm_lock`. -/
structure Holder (before : List Call) (c : Call) : Prop where
  calls : s.calls = before ++ [c]
  completed : before.length = s.exchange.results.length
  inside : ∀ q, s.pc q = .inside ↔ q = c.queue
  command : (s.queue c.queue).worker = .run c.command
  request : requestOf s.exchange.host = some c.request

/-- `comm_lock` is free, and every call that took it is complete; or a call holds it. -/
inductive Locking : Prop
  | free : s.exchange.host = .idle → s.calls.length = s.exchange.results.length →
    (∀ q, s.pc q ≠ .inside) → Locking
  | held (before : List Call) (c : Call) : s.Holder before c → Locking

end System

section Invariant

variable (order dspOrder : ByteOrder) (translate : ULong → U32) (handlers : Handlers)

/-- What holds in all runs. -/
structure Inv (s : System) : Prop where
  native : ∀ q, Native.Reach (s.queue q)
  exchange : Exchange.Reach order dspOrder translate handlers s.exchange
  locking : s.Locking
  published : s.exchange.requests <+: s.calls.map Call.request
  running : ∀ q, s.pc q ≠ .outside → ∃ rq, (s.queue q).worker = .run rq
  sent : ∀ q, List.Sublist (commandsOf q s.calls) ((s.queue q).passed ++ s.current q)
  returned : ∀ q rq, s.pc q = .returning true → (s.queue q).worker = .run rq → s.Done q rq
  ran : ∀ q rq, (s.queue q).worker = .ran rq .success → s.Done q rq
  status : ∀ q n, (s.queue q).status n = .success → ∃ event, s.Done q ⟨n, event⟩

end Invariant

/-! ## Steps of one queue -/

section Queue

variable {s t : Queue} {rq : Native.Request}

theorem passOn_step (ok : Bool) (live : s.freed = false) (running : s.worker = .run rq) :
    Native.Step s (passOn s rq ok) := .run ok live running

/-- The thread stays in `_xrp_run_command` until the command is passed on. -/
theorem worker_run_of_step (step : Native.Step s t) (same : t.passed = s.passed)
    (running : s.worker = .run rq) : t.worker = .run rq := by
  cases step with
  | append =>
    dsimp only [Queue.append]
    split_ifs
    · rw [running]
      rfl
    · exact running
  | setExit =>
    dsimp only
    rw [running]
    rfl
  | run => simp at same
  | _ => first | exact running | simp_all

theorem broadcast_eq_ran {w : Native.Worker} {status : XrpStatus}
    (ran : w.broadcast = .ran rq status) : w = .ran rq status := by
  unfold Native.Worker.broadcast at ran
  split_ifs at ran
  exact ran

/-- The thread comes from `_xrp_run_command` only by passing the command on. -/
theorem worker_ran_of_step {status : XrpStatus} (step : Native.Step s t)
    (same : t.passed = s.passed) (ran : t.worker = .ran rq status) : s.worker = .ran rq status := by
  cases step with
  | append =>
    dsimp only [Queue.append] at ran
    split_ifs at ran
    · exact broadcast_eq_ran ran
    · exact ran
  | setExit => exact broadcast_eq_ran ran
  | run => simp at same
  | _ => first | exact ran | cases ran

/-- A status is set from what `_xrp_run_command` returned. -/
theorem status_of_step {n : ℕ} (step : Native.Step s t) (success : t.status n = .success) :
    s.status n = .success ∨ ∃ rq, rq.id = n ∧ s.worker = .ran rq .success := by
  cases step with
  | enqueue event =>
    dsimp only [Queue.enqueue] at success
    split_ifs at success
    · by_cases here : n = s.refs.issued
      · rw [here, Function.update_self] at success
        cases success
      · rw [Function.update_of_ne here] at success
        exact .inl success
    · exact .inl success
  | @complete rq status ran =>
    dsimp only at success
    by_cases here : n = rq.id
    · rw [here, Function.update_self] at success
      exact .inr ⟨rq, here.symm, success ▸ ran⟩
    · rw [Function.update_of_ne here] at success
      exact .inl success
  | _ => exact .inl success

end Queue

/-! ## Steps of the exchange -/

section Exchange

variable {order dspOrder : ByteOrder} {translate : ULong → U32} {handlers : Handlers}
variable {e e' : State}

/-- The DSP is not seen by the host but in the comm area. -/
theorem dspStep_keeps (step : DspStep dspOrder handlers e e') :
    e'.host = e.host ∧ e'.results = e.results ∧ e'.requests = e.requests := by
  cases step <;> exact ⟨rfl, rfl, rfl⟩

/-- The host stays with its request until it has the result. -/
theorem requestOf_of_step (step : HostStep order translate e e') (busy : e.host ≠ .idle)
    (same : e'.results = e.results) : requestOf e'.host = requestOf e.host := by
  cases step with
  | start rq idle => exact absurd idle busy
  | fill filling => rw [filling]; rfl
  | filled filling => rw [filling]; rfl
  | poll => rfl
  | complete polling => rw [polling]; rfl
  | readBack completing => rw [completing]; rfl
  | done => simp at same

/-- The host publishes the request that it is with, and the earlier ones have their results. -/
theorem requests_of_step (step : HostStep order translate e e')
    (stage : Stage order dspOrder translate handlers e) :
    e'.requests = e.requests ∨ ∃ rq, requestOf e.host = some rq ∧
      e'.requests = e.requests ++ [rq] ∧ e.requests.length = e.results.length := by
  cases step with
  | @fill rq o next filling =>
    dsimp only [State.fill]
    split_ifs
    · refine .inr ⟨rq, by rw [filling]; rfl, rfl, ?_⟩
      cases stage with
      | quiet _ _ _ _ _ results => exact results.symm
      | published waits => simp [HostWaits, filling] at waits
      | processing waits => simp [HostWaits, filling] at waits
      | answered waits => simp [HostWaits, filling] at waits
    · exact .inl rfl
  | _ => exact .inl rfl

end Exchange

/-! ## Steps of the system -/

section Steps

variable {order dspOrder : ByteOrder} {translate : ULong → U32} {handlers : Handlers}
variable {s s' : System} {q : ℕ} {rq : Native.Request}

theorem System.Done.mono (done : s.Done q rq) (calls : s.calls <+: s'.calls)
    (results : s.exchange.results <+: s'.exchange.results) : s'.Done q rq := by
  obtain ⟨k, c, r, called, queue, command, result, ok⟩ := done
  exact ⟨k, c, r, getElem?_of_extends calls called, queue, command,
    getElem?_of_extends results result, ok⟩

theorem System.Holder.idle_false {before : List Call} {c : Call} (holder : s.Holder before c) :
    s.exchange.host ≠ .idle := by
  intro idle
  have request := holder.request
  rw [idle] at request
  cases request

namespace System.Locking

/-- A queue moves on, other than by passing on the command of the call that has the lock. -/
theorem setQueue {t : Queue} (locking : s.Locking)
    (kept : ∀ rq, s.pc q = .inside → (s.queue q).worker = .run rq → t.worker = .run rq) :
    Locking { s with queue := Function.update s.queue q t } := by
  cases locking with
  | free idle completed outside => exact .free idle completed outside
  | held before c holder =>
    refine .held before c
      ⟨holder.calls, holder.completed, holder.inside, ?_, holder.request⟩
    dsimp only
    by_cases here : c.queue = q
    · subst here
      rw [Function.update_self]
      exact kept _ ((holder.inside _).mpr rfl) holder.command
    · rw [Function.update_of_ne here]
      exact holder.command

/-- The thread of a queue is somewhere else, with or without the lock, than before. -/
theorem setPc {p : CallPc} (locking : s.Locking) (before : s.pc q ≠ .inside)
    (after : p ≠ .inside) : Locking { s with pc := Function.update s.pc q p } := by
  cases locking with
  | free idle completed outside =>
    refine .free idle completed fun q' => ?_
    dsimp only
    by_cases here : q' = q
    · subst here
      rw [Function.update_self]
      exact after
    · rw [Function.update_of_ne here]
      exact outside q'
  | held earlier c holder =>
    refine .held earlier c
      ⟨holder.calls, holder.completed, fun q' => ?_, holder.command, holder.request⟩
    dsimp only
    by_cases here : q' = q
    · subst here
      rw [Function.update_self]
      exact iff_of_false after fun same => before ((holder.inside q').mpr same)
    · rw [Function.update_of_ne here]
      exact holder.inside q'

theorem setExchange {e : State} (locking : s.Locking)
    (idle : s.exchange.host = .idle → e.host = .idle)
    (request : requestOf e.host = requestOf s.exchange.host)
    (results : e.results = s.exchange.results) : Locking { s with exchange := e } := by
  cases locking with
  | free host completed outside =>
    exact .free (idle host) (completed.trans (congrArg List.length results.symm)) outside
  | held before c holder =>
    exact .held before c
      ⟨holder.calls, holder.completed.trans (congrArg List.length results.symm), holder.inside,
        holder.command, request.trans holder.request⟩

end System.Locking

theorem commandsOf_append_self {calls : List Call} {request : XrpRequest} :
    commandsOf q (calls ++ [⟨q, rq, request⟩]) = commandsOf q calls ++ [rq] := by
  simp [commandsOf]

theorem commandsOf_append_other {calls : List Call} {c : Call} (other : c.queue ≠ q) :
    commandsOf q (calls ++ [c]) = commandsOf q calls := by
  simp [commandsOf, other]

theorem sublist_current_setQueue {t : Queue} (inv : Inv order dspOrder translate handlers s)
    (passed : t.passed = (s.queue q).passed)
    (kept : ∀ rq, (s.queue q).worker = .run rq → t.worker = .run rq) :
    List.Sublist (commandsOf q s.calls)
      (t.passed ++ if s.pc q = .outside then [] else t.worker.pending) := by
  have sent := inv.sent q
  unfold System.current at sent
  rw [passed]
  by_cases outside : s.pc q = .outside
  · rw [if_pos outside] at sent ⊢
    exact sent
  · obtain ⟨rq, running⟩ := inv.running q outside
    rw [kept rq running]
    rw [running] at sent
    exact sent

/-- A queue and the place of its thread are changed. -/
theorem forall_update_both {t : Queue} {pc : CallPc} (p : ℕ → Queue → CallPc → Prop)
    (here : p q t pc) (others : ∀ q', q' ≠ q → p q' (s.queue q') (s.pc q')) (q' : ℕ) :
    p q' (Function.update s.queue q t q') (Function.update s.pc q pc q') := by
  by_cases same : q' = q
  · subst same
    rw [Function.update_self, Function.update_self]
    exact here
  · rw [Function.update_of_ne same, Function.update_of_ne same]
    exact others q' same

namespace Inv

/-- A client or a queue thread moves on, and no command is passed on. -/
theorem queue {t : Queue} (inv : Inv order dspOrder translate handlers s)
    (step : Native.Step (s.queue q) t) (same : t.passed = (s.queue q).passed) :
    Inv order dspOrder translate handlers { s with queue := Function.update s.queue q t } where
  native := (Function.forall_update_iff s.queue fun _ t => Native.Reach t).mpr
    ⟨(inv.native q).tail step, fun q' _ => inv.native q'⟩
  exchange := inv.exchange
  locking := inv.locking.setQueue fun _ _ running => worker_run_of_step step same running
  published := inv.published
  running := (Function.forall_update_iff s.queue
      fun q t => s.pc q ≠ .outside → ∃ rq, t.worker = .run rq).mpr
    ⟨fun outside => (inv.running q outside).imp fun _ running =>
      worker_run_of_step step same running, fun q' _ => inv.running q'⟩
  sent := (Function.forall_update_iff s.queue fun q t => List.Sublist (commandsOf q s.calls)
      (t.passed ++ if s.pc q = .outside then [] else t.worker.pending)).mpr
    ⟨sublist_current_setQueue inv same fun _ running => worker_run_of_step step same running,
      fun q' _ => inv.sent q'⟩
  returned := (Function.forall_update_iff s.queue
      fun q t => ∀ rq, s.pc q = .returning true → t.worker = .run rq → s.Done q rq).mpr
    ⟨fun rq returning running => by
      obtain ⟨rq', before⟩ := inv.running q (by rw [returning]; decide)
      obtain rfl : rq' = rq := by
        have after := worker_run_of_step step same before
        rw [running] at after
        cases after
        rfl
      exact inv.returned q rq' returning before, fun q' _ => inv.returned q'⟩
  ran := (Function.forall_update_iff s.queue
      fun q t => ∀ rq, t.worker = .ran rq .success → s.Done q rq).mpr
    ⟨fun rq ran => inv.ran q rq (worker_ran_of_step step same ran), fun q' _ => inv.ran q'⟩
  status := (Function.forall_update_iff s.queue
      fun q t => ∀ n, t.status n = .success → ∃ event, s.Done q ⟨n, event⟩).mpr
    ⟨fun n success => by
      obtain before | ⟨rq, rfl, ran⟩ := status_of_step step success
      · exact inv.status q n before
      · exact ⟨rq.event, inv.ran q rq ran⟩, fun q' _ => inv.status q'⟩

/-- `_xrp_run_command` ends, in a thread that does not have the lock. -/
theorem pass (ok : Bool) (inv : Inv order dspOrder translate handlers s)
    (free : s.pc q ≠ .inside) (live : (s.queue q).freed = false)
    (running : (s.queue q).worker = .run rq) (done : ok = true → s.Done q rq) :
    Inv order dspOrder translate handlers
      { s with
        queue := Function.update s.queue q (passOn (s.queue q) rq ok)
        pc := Function.update s.pc q .outside } where
  native := (Function.forall_update_iff s.queue fun _ t => Native.Reach t).mpr
    ⟨(inv.native q).tail (passOn_step ok live running), fun q' _ => inv.native q'⟩
  exchange := inv.exchange
  locking := (inv.locking.setQueue fun _ inside => absurd inside free).setPc free (by decide)
  published := inv.published
  running := forall_update_both (fun _ t p => p ≠ .outside → ∃ rq, t.worker = .run rq)
    (fun outside => absurd rfl outside) fun q' _ => inv.running q'
  sent := by
    refine forall_update_both (fun q t p => List.Sublist (commandsOf q s.calls)
      (t.passed ++ if p = .outside then [] else t.worker.pending)) ?_ fun q' _ => inv.sent q'
    have sent := inv.sent q
    unfold System.current at sent
    rw [running] at sent
    simp only [if_true, List.append_nil, passOn]
    split_ifs at sent
    · rw [List.append_nil] at sent
      exact sent.trans (List.sublist_append_left _ _)
    · exact sent
  returned := forall_update_both
    (fun q t p => ∀ rq, p = .returning true → t.worker = .run rq → s.Done q rq)
    (fun _ returning => by cases returning) fun q' _ => inv.returned q'
  ran := by
    refine (Function.forall_update_iff s.queue
      fun q t => ∀ rq, t.worker = .ran rq .success → s.Done q rq).mpr
      ⟨fun rq' ran => ?_, fun q' _ => inv.ran q'⟩
    cases ok with
    | false => cases ran
    | true =>
      cases ran
      exact done rfl
  status := (Function.forall_update_iff s.queue
      fun q t => ∀ n, t.status n = .success → ∃ event, s.Done q ⟨n, event⟩).mpr
    ⟨fun n success => inv.status q n success, fun q' _ => inv.status q'⟩

/-- A call takes the lock. -/
theorem lock (inv : Inv order dspOrder translate handlers s) (request : XrpRequest)
    (outside : s.pc q = .outside) (running : (s.queue q).worker = .run rq)
    (idle : s.exchange.host = .idle) :
    Inv order dspOrder translate handlers
      { s with
        pc := Function.update s.pc q .inside
        exchange :=
          { s.exchange with host := .filling request (xrpFillHwRequest order translate request) }
        calls := s.calls ++ [⟨q, rq, request⟩] } := by
  have more : s.calls <+: s.calls ++ [⟨q, rq, request⟩] := List.prefix_append _ _
  have keeps {q' : ℕ} {rq' : Native.Request} (done : s.Done q' rq') :
      System.Done
        { s with
          pc := Function.update s.pc q .inside
          exchange :=
            { s.exchange with host := .filling request (xrpFillHwRequest order translate request) }
          calls := s.calls ++ [⟨q, rq, request⟩] } q' rq' := done.mono more List.prefix_rfl
  obtain ⟨s₀, initial, run⟩ := inv.exchange
  refine ⟨inv.native, ⟨s₀, initial, run.tail (.host (.start request idle))⟩, ?_, ?_, ?_, ?_, ?_,
    fun q' rq' ran => keeps (inv.ran q' rq' ran), ?_⟩
  · cases inv.locking with
    | held before c holder => exact absurd idle holder.idle_false
    | free _ completed free =>
      refine .held s.calls ⟨q, rq, request⟩ ⟨rfl, completed, fun q' => ?_, running, rfl⟩
      dsimp only
      by_cases here : q' = q
      · subst here
        rw [Function.update_self]
        exact iff_of_true rfl rfl
      · rw [Function.update_of_ne here]
        exact iff_of_false (free q') here
  · exact inv.published.trans (more.map Call.request)
  · exact (Function.forall_update_iff s.pc
      fun q p => p ≠ .outside → ∃ rq, (s.queue q).worker = .run rq).mpr
      ⟨fun _ => ⟨rq, running⟩, fun q' _ => inv.running q'⟩
  · refine (Function.forall_update_iff s.pc fun q' p => List.Sublist
      (commandsOf q' (s.calls ++ [⟨q, rq, request⟩]))
      ((s.queue q').passed ++ if p = .outside then [] else (s.queue q').worker.pending)).mpr
      ⟨?_, fun q' other => ?_⟩
    · have sent : List.Sublist (commandsOf q s.calls) ((s.queue q).passed ++ s.current q) :=
        inv.sent q
      rw [System.current, if_pos outside, List.append_nil] at sent
      rw [if_neg (by decide), running, commandsOf_append_self]
      exact sent.append (List.Sublist.refl [rq])
    · rw [commandsOf_append_other other.symm]
      exact inv.sent q'
  · intro q' rq' returning running'
    refine keeps (inv.returned q' rq' ?_ running')
    dsimp only at returning
    by_cases here : q' = q
    · subst here
      rw [Function.update_self] at returning
      cases returning
    · rwa [Function.update_of_ne here] at returning
  · intro q' n success
    exact (inv.status q' n success).imp fun _ => keeps

/-- The host with the lock, or the DSP, moves on. -/
theorem setExchange {e : State} (inv : Inv order dspOrder translate handlers s)
    (step : Exchange.Step order dspOrder translate handlers s.exchange e)
    (locking : System.Locking { s with exchange := e })
    (published : e.requests <+: s.calls.map Call.request)
    (same : e.results = s.exchange.results) :
    Inv order dspOrder translate handlers { s with exchange := e } := by
  obtain ⟨s₀, initial, run⟩ := inv.exchange
  have results : s.exchange.results <+: e.results := same ▸ List.prefix_rfl
  exact
    { native := inv.native
      exchange := ⟨s₀, initial, run.tail step⟩
      locking := locking
      published := published
      running := inv.running
      sent := inv.sent
      returned := fun q rq returning running =>
        (inv.returned q rq returning running).mono List.prefix_rfl results
      ran := fun q rq ran => (inv.ran q rq ran).mono List.prefix_rfl results
      status := fun q n success =>
        (inv.status q n success).imp fun _ done => done.mono List.prefix_rfl results }

theorem host {e : State} (inv : Inv order dspOrder translate handlers s)
    (busy : s.exchange.host ≠ .idle) (step : HostStep order translate s.exchange e)
    (same : e.results = s.exchange.results) :
    Inv order dspOrder translate handlers { s with exchange := e } := by
  have request := requestOf_of_step step busy same
  refine inv.setExchange (.host step)
    (inv.locking.setExchange (fun idle => absurd idle busy) request same) ?_ same
  obtain unchanged | ⟨rq, mine, requests, complete⟩ := requests_of_step step inv.exchange.inv.1
  · rw [unchanged]
    exact inv.published
  · -- the request is that of the last call, and those of the calls before it are published
    cases inv.locking with
    | free idle => exact absurd idle busy
    | held before c holder =>
      have here : c.request = rq := Option.some.inj (holder.request.symm.trans mine)
      have earlier : s.exchange.requests = before.map Call.request := by
        have published := inv.published
        rw [holder.calls, List.map_append] at published
        have first := List.prefix_of_prefix_length_le published (List.prefix_append _ _)
        refine (first ?_).eq_of_length ?_
        · rw [List.length_map, complete, holder.completed]
        · rw [List.length_map, complete, holder.completed]
      rw [requests, earlier, holder.calls, List.map_append, ← here]
      exact List.prefix_rfl

theorem dsp {e : State} (inv : Inv order dspOrder translate handlers s)
    (step : DspStep dspOrder handlers s.exchange e) :
    Inv order dspOrder translate handlers { s with exchange := e } := by
  obtain ⟨host, results, requests⟩ := dspStep_keeps step
  refine inv.setExchange (.dsp step)
    (inv.locking.setExchange (fun idle => host.trans idle) (congrArg requestOf host) results) ?_
    results
  rw [requests]
  exact inv.published

/-- A call gives the lock back. -/
theorem unlock {request : XrpRequest} {r : HwResult} {ok : Bool}
    (inv : Inv order dspOrder translate handlers s) (inside : s.pc q = .inside)
    (completing : s.exchange.host = .completing request (.ret r))
    (success : ok = true → r.ret = .ok ()) :
    Inv order dspOrder translate handlers
      { s with
        pc := Function.update s.pc q (.returning ok)
        exchange := { s.exchange with host := .idle, results := s.exchange.results ++ [r] } } := by
  cases inv.locking with
  | free _ _ free => exact absurd inside (free q)
  | held before c holder =>
    obtain rfl : q = c.queue := (holder.inside q).mp inside
    have free (q' : ℕ) : Function.update s.pc c.queue (.returning ok) q' ≠ .inside := by
      by_cases here : q' = c.queue
      · subst here
        rw [Function.update_self]
        exact CallPc.noConfusion
      · rw [Function.update_of_ne here]
        exact fun inside' => here ((holder.inside q').mp inside')
    have more : s.exchange.results <+: s.exchange.results ++ [r] := List.prefix_append _ _
    have last : s.calls[s.exchange.results.length]? = some c := by
      rw [holder.calls, ← holder.completed]
      simp
    obtain ⟨s₀, initial, run⟩ := inv.exchange
    refine ⟨inv.native, ⟨s₀, initial, run.tail (.host (.done completing))⟩,
      .free rfl ?_ free, inv.published, ?_, ?_, ?_,
      fun q' rq' ran => (inv.ran q' rq' ran).mono List.prefix_rfl more,
      fun q' n set => (inv.status q' n set).imp fun _ done => done.mono List.prefix_rfl more⟩
    · rw [holder.calls, List.length_append, List.length_append, holder.completed]
      rfl
    · exact (Function.forall_update_iff s.pc
        fun q p => p ≠ .outside → ∃ rq, (s.queue q).worker = .run rq).mpr
        ⟨fun _ => ⟨c.command, holder.command⟩, fun q' _ => inv.running q'⟩
    · refine (Function.forall_update_iff s.pc fun q' p => List.Sublist (commandsOf q' s.calls)
        ((s.queue q').passed ++ if p = .outside then [] else (s.queue q').worker.pending)).mpr
        ⟨?_, fun q' _ => inv.sent q'⟩
      have sent := inv.sent c.queue
      rw [System.current, if_neg (by rw [inside]; decide)] at sent
      exact sent
    · intro q' rq' returning running
      by_cases here : q' = c.queue
      · subst here
        dsimp only at returning running
        rw [Function.update_self] at returning
        rw [holder.command] at running
        cases running
        cases returning
        exact ⟨_, c, r, last, rfl, rfl, List.getElem?_concat_length, success rfl⟩
      · dsimp only at returning
        rw [Function.update_of_ne here] at returning
        exact (inv.returned q' rq' returning running).mono List.prefix_rfl more

end Inv

theorem Step.inv (step : Step order dspOrder translate handlers s s')
    (inv : Inv order dspOrder translate handlers s) : Inv order dspOrder translate handlers s' := by
  cases step with
  | queue step same => exact inv.queue step same
  | @refuse q rq outside live running =>
    have same : Function.update s.pc q .outside = s.pc := by
      rw [← outside]
      exact Function.update_eq_self q s.pc
    have passed := inv.pass false (by rw [outside]; decide) live running fun no => nomatch no
    rw [same] at passed
    exact passed
  | lock request outside running idle => exact inv.lock request outside running idle
  | host busy step same => exact inv.host busy step same
  | unlock ok inside completing success => exact inv.unlock inside completing success
  | @ret q rq ok returning live running =>
    refine inv.pass ok (by rw [returning]; exact CallPc.noConfusion) live running fun success => ?_
    subst success
    exact inv.returned q rq returning running
  | dsp step => exact inv.dsp step

theorem Start.inv (start : Start s) : Inv order dspOrder translate handlers s where
  native q := by
    rw [start.queue q]
    exact .refl
  exchange := ⟨s.exchange, start.exchange, .refl⟩
  locking := by
    refine .free start.exchange.host ?_ fun q => ?_
    · rw [start.calls, start.exchange.results]
      rfl
    · rw [start.pc q]
      decide
  published := by
    rw [start.exchange.requests]
    exact List.nil_prefix
  running q outside := absurd (start.pc q) outside
  sent q := by
    rw [start.calls]
    exact List.nil_sublist _
  returned q rq returning := by
    rw [start.pc q] at returning
    cases returning
  ran q rq ran := by
    rw [start.queue q] at ran
    cases ran
  status q n success := by
    rw [start.queue q] at success
    cases success

theorem Reach.inv (reach : Reach order dspOrder translate handlers s) :
    Inv order dspOrder translate handlers s := by
  obtain ⟨s₀, start, run⟩ := reach
  induction run with
  | refl => exact start.inv
  | tail _ step ih => exact step.inv ih

end Steps

/-! ## Commands of the queues on the DSP -/

section Theorem

variable {order dspOrder : ByteOrder} {translate : ULong → U32} {handlers : Handlers}
variable {s : System}

/-- Commands reach the DSP once at most, those of a queue in order, and success is not reported
without it. -/
structure Served (s : System) : Prop where
  /-- The `n`-th entry into `process_command` is for the `n`-th call. -/
  entered : s.exchange.entries = List.range s.exchange.entries.length
  published : s.exchange.entries.length ≤ s.exchange.requests.length ∧
    s.exchange.requests <+: s.calls.map Call.request
  once : (s.calls.map fun c => (c.queue, c.command.id)).Nodup
  inOrder : ∀ q, List.Sublist (commandsOf q (s.calls.take s.exchange.entries.length))
    (s.queue q).accepted
  exclusive : ∀ q q', s.pc q = .inside → s.pc q' = .inside → q = q'
  success : ∀ q n, (s.queue q).status n = .success →
    ∃ (k : ℕ) (c : Call) (m : Comm), s.calls[k]? = some c ∧ c.queue = q ∧ c.command.id = n ∧
      k < s.exchange.entries.length ∧ s.exchange.answers[k]? = some m ∧
      m DspCmd.flags &&& responseDeliveryFail = 0

theorem stage_counts {e : State} (stage : Stage order dspOrder translate handlers e) :
    e.results.length ≤ e.entries.length ∧ e.entries.length ≤ e.requests.length := by
  cases stage <;> grind

/-- What was sent from a queue was accepted by it. -/
theorem Inv.sublist_accepted (inv : Inv order dspOrder translate handlers s) (q : ℕ) :
    List.Sublist (commandsOf q s.calls) (s.queue q).accepted := by
  refine (inv.sent q).trans ?_
  rw [(inv.native q).inv.order]
  refine List.Sublist.trans ?_ (List.sublist_append_left _ _)
  refine (List.Sublist.refl _).append ?_
  unfold System.current
  split_ifs
  · exact List.nil_sublist _
  · exact List.Sublist.refl _

/-- Commands that differ in each queue differ among all. -/
theorem nodup_calls {calls : List Call}
    (each : ∀ q, ((commandsOf q calls).map Native.Request.id).Nodup) :
    (calls.map fun c => (c.queue, c.command.id)).Nodup := by
  induction calls with
  | nil => exact List.nodup_nil
  | cons c calls ih =>
    have own : commandsOf c.queue (c :: calls) = c.command :: commandsOf c.queue calls := by
      simp [commandsOf]
    have first := each c.queue
    rw [own, List.map_cons, List.nodup_cons] at first
    rw [List.map_cons, List.nodup_cons]
    constructor
    · intro member
      obtain ⟨c', called, same⟩ := List.mem_map.mp member
      obtain ⟨queue, id⟩ := Prod.mk.inj same
      refine first.1 (List.mem_map.mpr ⟨c'.command, List.mem_map.mpr ⟨c', ?_, rfl⟩, id⟩)
      exact List.mem_filter.mpr ⟨called, decide_eq_true queue⟩
    · refine ih fun q => (each q).sublist (List.Sublist.map _ (List.Sublist.map _ ?_))
      exact (List.sublist_cons_self c calls).filter _

/-- In every run of the clients, the queue threads and the DSP, commands are served in the order of
their queues. -/
theorem reach_served (reach : Reach order dspOrder translate handlers s) : Served s := by
  have inv := reach.inv
  obtain ⟨stage, history⟩ := inv.exchange.inv
  obtain ⟨completed, published⟩ := stage_counts stage
  refine ⟨history.entered, ⟨published, inv.published⟩, ?_, ?_, ?_, ?_⟩
  · refine nodup_calls fun q => ?_
    exact (inv.native q).inv.nodup.sublist ((inv.sublist_accepted q).map _)
  · intro q
    refine List.Sublist.trans (List.Sublist.map _ ?_) (inv.sublist_accepted q)
    exact (List.take_sublist _ _).filter _
  · intro q q' inside inside'
    cases inv.locking with
    | free _ _ free => exact absurd inside (free q)
    | held before c holder =>
      rw [(holder.inside q).mp inside, (holder.inside q').mp inside']
  · intro q n set
    obtain ⟨event, k, c, r, called, queue, command, result, ok⟩ := inv.status q n set
    obtain ⟨rq, m, _, answered, value⟩ := history.returned result
    have short : k < s.exchange.results.length := (List.getElem?_eq_some_iff.mp result).1
    refine ⟨k, c, m, called, queue, by rw [command], by omega, answered, ?_⟩
    by_contra failed
    have error : completionResult order rq m = .error .enxio :=
      completionResult_error_iff.mpr failed
    rw [completionResult, ← value, ok] at error
    cases error

/-- What the DSP does on its own, as steps of the exchange. -/
theorem exists_dspRun {p : DspProgram Dispatch} {m : Machine} {e : State}
    (called : e.dsp = .dispatching p) (comm : e.comm = m.comm) :
    ∃ e', Relation.ReflTransGen (DspStep dspOrder handlers) e e' ∧
      e'.comm = (p.run DspOp.act m).2.comm ∧ e'.host = e.host := by
  induction p generalizing e m with
  | ret d => exact ⟨e, .refl, comm, rfl⟩
  | ask o next ih =>
    have further {e₁ : State} (step : DspStep dspOrder handlers e e₁)
        (dsp : e₁.dsp = .dispatching (next (o.act m).1)) (comm : e₁.comm = (o.act m).2.comm) :
        ∃ e', Relation.ReflTransGen (DspStep dspOrder handlers) e e' ∧
          e'.comm = ((Program.ask o next).run DspOp.act m).2.comm ∧ e'.host = e.host := by
      obtain ⟨e', run, after, host⟩ := ih _ dsp comm
      exact ⟨e', .head step run, after, host.trans (dspStep_keeps step).1⟩
    cases o with
    | comm o =>
      have dsp : (e.dspAccess o next).dsp = .dispatching (next (o.act m.comm).1) := by
        rw [State.dspAccess, comm]
      have after : (e.dspAccess o next).comm = (o.act m.comm).2 := by
        rw [State.dspAccess, comm]
      exact further (.access called) dsp after
    | enter => exact further (.enter called) rfl comm
    | load a => exact further (.other _ called trivial) rfl comm
    | store a v => exact further (.other () called trivial) rfl comm
    | malloc => exact further (.other _ called trivial) rfl comm
    | invoke h => exact further (.other () called trivial) rfl comm

/-- From a call of `xrp_device_dispatch` to its end nothing but the DSP may move. -/
theorem Reach.dispatch {p : DspProgram Dispatch} (reach : Reach order dspOrder translate handlers s)
    (called : s.exchange.dsp = .dispatching p) :
    ∃ e, Reach order dspOrder translate handlers { s with exchange := e } ∧
      e.comm = (p.run DspOp.act ⟨s.exchange.comm, fun _ => 0, true, []⟩).2.comm ∧
      e.host = s.exchange.host := by
  obtain ⟨e, run, after⟩ : ∃ e, Relation.ReflTransGen (DspStep dspOrder handlers) s.exchange e ∧
      e.comm = (p.run DspOp.act ⟨s.exchange.comm, fun _ => 0, true, []⟩).2.comm ∧
      e.host = s.exchange.host := exists_dspRun called rfl
  refine ⟨e, ?_, after⟩
  clear after
  induction run with
  | refl => exact reach
  | tail _ step ih =>
    obtain ⟨s₀, start, before⟩ := ih
    exact ⟨s₀, start, before.tail (.dsp step)⟩

theorem Reach.tail {s' : System} (reach : Reach order dspOrder translate handlers s)
    (step : Step order dspOrder translate handlers s s') :
    Reach order dspOrder translate handlers s' := by
  obtain ⟨s₀, start, run⟩ := reach
  exact ⟨s₀, start, run.tail step⟩

end Theorem

/-- A command of the first of the queues, from its client to the DSP and back. -/
theorem reach_served_success :
    ∃ s, Reach .little .little (fun _ => 0) idleHandlers s ∧ (s.queue 0).status 0 = .success ∧
      s.calls.length = 1 ∧ Served s := by
  have start : Reach .little .little (fun _ => 0) idleHandlers
      ⟨fun _ => .init, fun _ => .outside,
        ⟨fun _ => 0, .idle, .waiting, .outside, [], [], [], [], [], []⟩, []⟩ := by
    refine ⟨_, ⟨fun _ => rfl, fun _ => rfl, ?_, rfl⟩, .refl⟩
    constructor <;> rfl
  have created := start.tail (.queue (q := 0) (.enqueue (h := 0) true rfl rfl) rfl)
  have appended := created.tail (.queue (q := 0) (.append (n := 0) (h := 0) rfl rfl) rfl)
  have taken := appended.tail (.queue (q := 0) (.dequeue rfl rfl rfl) rfl)
  have locked := taken.tail (.lock (q := 0) emptyRequest rfl rfl rfl)
  have busy {rq : XrpRequest} {rest : CommProgram Unit} : HostPc.filling rq rest ≠ .idle := nofun
  have filled := (((locked.tail (.host busy (.fill rfl) rfl)).tail
    (.host busy (.fill rfl) rfl)).tail (.host busy (.fill rfl) rfl)).tail
    (.host busy (.fill rfl) rfl)
  have polling := filled.tail (.host busy (.filled rfl) rfl)
  have called := polling.tail (.dsp (.call ⟨0, 0, fun _ => ⟨0, 0, 0⟩⟩ rfl))
  obtain ⟨e, answered, comm, host⟩ := called.dispatch rfl
  have complete : xrpCmdComplete (e.comm DspCmd.flags) = true := by
    rw [comm]
    decide
  have clear : e.comm DspCmd.flags &&& responseDeliveryFail = 0 := by
    rw [comm]
    decide
  have waits : e.host ≠ .idle := by
    rw [host]
    nofun
  have completing := answered.tail (.host waits (.complete host complete) rfl)
  have read := completing.tail (.host nofun (.readBack rfl) rfl)
  have unlocked := read.tail (.unlock (q := 0) true rfl rfl fun _ => if_neg (not_not.mpr clear))
  have returned := unlocked.tail (.ret (q := 0) rfl rfl rfl)
  have completed := returned.tail (.queue (q := 0) (.complete rfl rfl) rfl)
  exact ⟨_, completed, rfl, rfl, reach_served completed⟩

end Xrp.Exchange.Queues
