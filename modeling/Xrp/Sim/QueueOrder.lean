import Xrp.Sim.Queue

/-!
# Asynchronous commands against synchronous execution

If no byte is copied to shadow memory while a command is pending that may write
it, every run leaves memory as the same commands do one after another. Without
that, a command may work on what an earlier one has yet to write.
-/

namespace Xrp.Sim

open Dsp

/-! ## Shadows -/

/-- The shadows hold what the buffers hold in host memory. -/
def Faithful (cmd : Command) (shadow : ℕ → Memory) (host : Memory) : Prop :=
  ∀ c ∈ cmd.copies, shadow c.index c.offset = host c.src

/-- The shadows hold what the buffers hold, but for what is left to copy. -/
structure Filling (cmd : Command) (left : List Copy) (shadow : ℕ → Memory) (host : Memory) :
    Prop where
  left_mem : ∀ c ∈ left, c ∈ cmd.copies
  copied : ∀ c ∈ cmd.copies, c ∉ left → shadow c.index c.offset = host c.src

section Shadows

variable {cmd : Command} {shadow shadow' : ℕ → Memory} {host : Memory} {c : Copy}
  {left : List Copy} {handler : Handler} {shared : Memory}

theorem mem_copies_iff : c ∈ cmd.copies ↔ ∃ r, cmd.records[c.index]? = some r ∧
    r.buffer.type = .host ∧ c.offset < r.buffer.size ∧ c.src = r.buffer.ptr + c.offset := by
  simp only [Command.copies, List.mem_flatMap, Prod.exists, List.mem_zipIdx_iff_getElem?]
  constructor
  · rintro ⟨r, i, found, mem⟩
    cases type : r.buffer.type with
    | device => simp [Record.copies, type] at mem
    | host =>
      simp only [Record.copies, type, List.mem_map, List.mem_range] at mem
      rcases mem with ⟨offset, lt, rfl⟩
      exact ⟨r, found, type, lt, rfl⟩
  · rintro ⟨r, found, type, lt, src⟩
    refine ⟨r, c.index, found, ?_⟩
    simp only [Record.copies, type, List.mem_map, List.mem_range]
    exact ⟨c.offset, lt, by rw [← src]⟩

/-- A byte of a shadow is copied from one place. -/
theorem src_eq_of_mem_copies {c' : Copy} (mem : c ∈ cmd.copies) (mem' : c' ∈ cmd.copies)
    (index : c'.index = c.index) (offset : c'.offset = c.offset) : c'.src = c.src := by
  rcases mem_copies_iff.mp mem with ⟨r, found, -, -, src⟩
  rcases mem_copies_iff.mp mem' with ⟨r', found', -, -, src'⟩
  rw [index, found] at found'
  rw [src, src', Option.some.inj found', offset]

theorem Filling.start : Filling cmd cmd.copies shadow host :=
  ⟨fun _ mem => mem, fun _ mem notLeft => absurd mem notLeft⟩

theorem Filling.copy {now : Memory} (filling : Filling cmd (c :: left) shadow host)
    (same : now c.src = host c.src) : Filling cmd left (copyByte now shadow c) host := by
  refine ⟨fun c' mem => filling.left_mem c' (List.mem_cons_of_mem _ mem), ?_⟩
  intro c' mem notLeft
  by_cases hit : c'.index = c.index ∧ c'.offset = c.offset
  · have src := src_eq_of_mem_copies (filling.left_mem c List.mem_cons_self) mem hit.1 hit.2
    rw [copyByte, hit.1, hit.2, Function.update_self, Function.update_self, same, src]
  · have kept : copyByte now shadow c c'.index c'.offset = shadow c'.index c'.offset := by
      unfold copyByte
      by_cases index : c'.index = c.index
      · have offset : c'.offset ≠ c.offset := fun equal => hit ⟨index, equal⟩
        rw [index, Function.update_self, Function.update_of_ne offset]
      · rw [Function.update_of_ne index]
    rw [kept]
    apply filling.copied c' mem
    intro inLeft
    rcases List.mem_cons.mp inLeft with rfl | inLeft
    · exact hit ⟨rfl, rfl⟩
    · exact notLeft inLeft

theorem Filling.faithful (filling : Filling cmd [] shadow host) : Faithful cmd shadow host :=
  fun c mem => filling.copied c mem (by simp)

theorem Filling.foldl (filling : Filling cmd left shadow host) :
    Faithful cmd (left.foldl (copyByte host) shadow) host := by
  induction left generalizing shadow with
  | nil => exact filling.faithful
  | cons c left ih => exact ih (filling.copy rfl)

/-- The handler sees the same contents in all faithful shadows. -/
theorem Faithful.contents_eq (faithful : Faithful cmd shadow host)
    (faithful' : Faithful cmd shadow' host) :
    Request.contents ⟨cmd, shadow⟩ shared = Request.contents ⟨cmd, shadow'⟩ shared := by
  apply List.map_congr_left
  rintro ⟨r, i⟩ mem
  apply List.map_congr_left
  intro offset lt
  cases type : r.buffer.type with
  | device => simp [Request.view, type]
  | host =>
    have copy : (⟨i, offset, r.buffer.ptr + offset⟩ : Copy) ∈ cmd.copies :=
      mem_copies_iff.mpr ⟨r, List.mem_zipIdx_iff_getElem?.mp mem, type, List.mem_range.mp lt, rfl⟩
    simp [Request.view, type, faithful _ copy, faithful' _ copy]

theorem Faithful.stores_eq (faithful : Faithful cmd shadow host)
    (faithful' : Faithful cmd shadow' host) (type : BufferType) :
    Request.stores handler ⟨cmd, shadow⟩ shared type =
      Request.stores handler ⟨cmd, shadow'⟩ shared type := by
  simp only [Request.stores, Request.written, faithful.contents_eq faithful']

end Shadows

/-! ## Commands and memory -/

section Memory

variable {handler : Handler} {mem : Memories} {cmd : Command} {rq : Request} {shared : Memory}
  {a : ℕ}

theorem foldl_storeByte_of_notMem {ws : List (ℕ × U8)} {m : Memory} (other : ∀ w ∈ ws, w.1 ≠ a) :
    ws.foldl storeByte m a = m a := by
  induction ws generalizing m with
  | nil => rfl
  | cons w ws ih =>
    rw [List.foldl_cons, ih fun w' mem' => other w' (List.mem_cons_of_mem _ mem')]
    exact Function.update_of_ne (other w List.mem_cons_self).symm _ _

/-- A command writes host memory only where it may. -/
theorem mayWrite_of_mem_stores {w : ℕ × U8} (mem : w ∈ rq.stores handler shared .host) :
    rq.cmd.MayWrite w.1 := by
  rcases List.mem_flatMap.mp mem with ⟨⟨r, i⟩, found, inside⟩
  have known := List.mem_of_getElem? (List.mem_zipIdx_iff_getElem?.mp found)
  by_cases host : r.buffer.type = .host
  · by_cases writable : r.Writable
    · simp only [host, if_true] at inside
      cases bytes : rq.written handler shared r i with
      | none => simp [bytes] at inside
      | some b =>
        simp only [bytes, List.mem_map, List.mem_range] at inside
        rcases inside with ⟨offset, lt, rfl⟩
        exact ⟨r, known, host, writable, Nat.le_add_right .., Nat.add_lt_add_left lt _⟩
    · simp [Request.written, writable] at inside
  · simp [host] at inside

/-- A request with faithful shadows has the effect of its command. -/
theorem Faithful.run_eq (faithful : Faithful rq.cmd rq.shadow mem.host) :
    xrpRunCommandSync handler mem rq.cmd =
      ⟨(rq.stores handler mem.shared .host).foldl storeByte mem.host,
        (rq.stores handler mem.shared .device).foldl storeByte mem.shared⟩ := by
  have filled : Faithful rq.cmd (rq.cmd.copies.foldl (copyByte mem.host) fun _ _ => 0) mem.host :=
    Filling.start.foldl
  simp only [xrpRunCommandSync, filled.stores_eq faithful]

theorem xrpRunCommandSync_host (unwritten : ¬ cmd.MayWrite a) :
    (xrpRunCommandSync handler mem cmd).host a = mem.host a := by
  apply foldl_storeByte_of_notMem
  intro w stored same
  exact unwritten (same ▸ mayWrite_of_mem_stores stored)

theorem runSync_host {cmds : List Command} (unwritten : ∀ cmd ∈ cmds, ¬ cmd.MayWrite a) :
    (runSync handler mem cmds).host a = mem.host a := by
  induction cmds generalizing mem with
  | nil => rfl
  | cons cmd cmds ih =>
    have first : (xrpRunCommandSync handler mem cmd).host a = mem.host a :=
      xrpRunCommandSync_host (unwritten cmd List.mem_cons_self)
    exact (ih fun c member => unwritten c (List.mem_cons_of_mem _ member)).trans first

theorem runSync_append (cmds cmds' : List Command) :
    runSync handler mem (cmds ++ cmds') = runSync handler (runSync handler mem cmds) cmds' :=
  List.foldl_append ..

end Memory

/-! ## The invariant -/

section Invariant

variable (handler : Handler)

/-- The device thread copies back what `cmd` writes to memory `base`. -/
structure CopyingBack (base : Memories) (cmd : Command) (left : List (ℕ × U8)) (mem : Memories) :
    Prop where
  shared : mem.shared = (xrpRunCommandSync handler base cmd).shared
  host : left.foldl storeByte mem.host = (xrpRunCommandSync handler base cmd).host
  left_mayWrite : ∀ w ∈ left, cmd.MayWrite w.1
  unwritten : ∀ a, ¬ cmd.MayWrite a → mem.host a = base.host a

/-- The device thread turns memory `base` into that after its command. -/
def WorkerOk (base : Memories) : Worker → Memories → Prop
  | .idle, mem => mem = base
  | .running rq, mem => mem = base ∧ Faithful rq.cmd rq.shadow base.host
  | .answered cmd left, mem => CopyingBack handler base cmd left mem
  | .copying cmd left, mem => CopyingBack handler base cmd left mem

/-- The shadows of each request are those of memory when its turn comes. -/
def QueueOk : Memories → List Request → Prop
  | _, [] => True
  | mem, rq :: queue =>
    Faithful rq.cmd rq.shadow mem.host ∧ QueueOk (xrpRunCommandSync handler mem rq.cmd) queue

/-- The client fills its shadows from memory as it will be when the turn of its request comes. -/
def ClientOk (mem : Memories) : Client → Prop
  | .ready => True
  | .filling cmd left shadow => Filling cmd left shadow mem.host
  | .filled rq => Faithful rq.cmd rq.shadow mem.host

/-- The command that the client is enqueueing. -/
def Client.commands : Client → List Command
  | .ready => []
  | .filling cmd _ _ => [cmd]
  | .filled rq => [rq.cmd]

/-- What holds in every state of a run from memory `mem₀` and commands `cmds`: some commands
are complete, and the others take memory on from there. -/
def Inv (mem₀ : Memories) (cmds : List Command) (s : State) : Prop :=
  ∃ complete, cmds = complete ++ s.pending ++ s.client.commands ++ s.todo ∧
    WorkerOk handler (runSync handler mem₀ complete) s.worker s.mem ∧
    QueueOk handler (runSync handler mem₀ (complete ++ s.worker.commands)) s.queue ∧
    ClientOk (runSync handler mem₀ (complete ++ s.pending)) s.client

variable {handler}

theorem queueOk_append {mem : Memories} {queue : List Request} {rq : Request} :
    QueueOk handler mem (queue ++ [rq]) ↔ QueueOk handler mem queue ∧
      Faithful rq.cmd rq.shadow (runSync handler mem (queue.map (·.cmd))).host := by
  induction queue generalizing mem with
  | nil => simp [QueueOk, runSync]
  | cons first queue ih => simp [QueueOk, runSync, ih, and_assoc]

/-- Where no pending command may write, memory is as it will be. -/
theorem WorkerOk.host_eq {base mem : Memories} {worker : Worker} {a : ℕ}
    (ok : WorkerOk handler base worker mem)
    (unwritten : ∀ cmd ∈ worker.commands, ¬ cmd.MayWrite a) : mem.host a = base.host a := by
  cases worker with
  | idle => rw [show mem = base from ok]
  | running rq => rw [ok.1]
  | answered cmd left => exact ok.unwritten a (unwritten cmd List.mem_cons_self)
  | copying cmd left => exact ok.unwritten a (unwritten cmd List.mem_cons_self)

/-- The DSP turns what is in the shadows into what the command writes. -/
theorem Faithful.copyingBack {base : Memories} {rq : Request}
    (faithful : Faithful rq.cmd rq.shadow base.host) :
    CopyingBack handler base rq.cmd (rq.stores handler base.shared .host)
      { base with
        shared := (rq.stores handler base.shared .device).foldl storeByte base.shared } := by
  refine ⟨?_, ?_, fun w stored => mayWrite_of_mem_stores stored, fun _ _ => rfl⟩
  · rw [faithful.run_eq]
  · rw [faithful.run_eq]

theorem CopyingBack.back {base mem : Memories} {cmd : Command} {w : ℕ × U8} {left : List (ℕ × U8)}
    (copying : CopyingBack handler base cmd (w :: left) mem) :
    CopyingBack handler base cmd left { mem with host := storeByte mem.host w } := by
  refine ⟨copying.shared, copying.host,
    fun w' mem' => copying.left_mayWrite w' (List.mem_cons_of_mem _ mem'), ?_⟩
  intro a unwritten
  have other : a ≠ w.1 := fun same =>
    unwritten (same ▸ copying.left_mayWrite w List.mem_cons_self)
  exact (Function.update_of_ne other _ _).trans (copying.unwritten a unwritten)

/-- When nothing is left, the command is complete. -/
theorem CopyingBack.complete {base mem : Memories} {cmd : Command}
    (copying : CopyingBack handler base cmd [] mem) :
    mem = xrpRunCommandSync handler base cmd :=
  Memories.ext copying.host copying.shared

/-- While the worker has a command, that is the first one pending. -/
theorem pending_of_commands {s : State} {cmd : Command} (busy : s.worker.commands = [cmd]) :
    s.pending = cmd :: s.queue.map (·.cmd) := by
  rw [State.pending, busy]
  rfl

/-- Every step keeps the invariant, if what it copies is settled. -/
theorem Step.inv {mem₀ : Memories} {cmds : List Command} {s s' : State} {src : Option ℕ}
    (step : Step handler src s s') (settled : Settled s src) (inv : Inv handler mem₀ cmds s) :
    Inv handler mem₀ cmds s' := by
  rcases inv with ⟨complete, order, worker, queue, client⟩
  cases step with
  | start shadow todo ready free =>
    refine ⟨complete, ?_, worker, queue, .start⟩
    rw [order, ready, todo]
    simp [Client.commands, State.pending]
  | @copy _ cmd c left shadow filling =>
    refine ⟨complete, ?_, worker, queue, ?_⟩
    · rw [order, filling]
      rfl
    · rw [filling] at client
      apply Filling.copy client
      have clear : ∀ cmd ∈ s.pending, ¬ cmd.MayWrite c.src := settled c.src rfl
      rw [runSync_append, runSync_host clear]
      exact worker.host_eq fun cmd member => clear cmd (List.mem_append_left _ member)
  | unlock filling =>
    rw [filling] at order client
    exact ⟨complete, order, worker, queue, Filling.faithful client⟩
  | @append _ rq filled =>
    rw [filled] at order client
    refine ⟨complete, ?_, worker, ?_, trivial⟩
    · rw [order]
      simp [State.pending, Client.commands]
    · rw [queueOk_append]
      refine ⟨queue, ?_⟩
      rw [← runSync_append, List.append_assoc]
      exact client
  | @dequeue _ rq rest idle nonempty =>
    have pending : s.pending = rq.cmd :: rest.map (·.cmd) := by
      simp [State.pending, idle, nonempty, Worker.commands]
    rw [idle, nonempty] at queue
    rw [idle] at worker
    simp only [Worker.commands, List.append_nil] at queue
    refine ⟨complete, ?_, ⟨worker, queue.1⟩, ?_, ?_⟩
    · rw [order, pending]
      rfl
    · rw [runSync_append]
      exact queue.2
    · rw [pending] at client
      exact client
  | @run _ rq running =>
    have pending := pending_of_commands (congrArg Worker.commands running)
    rw [running] at worker queue
    rcases worker with ⟨same, faithful⟩
    refine ⟨complete, ?_, ?_, queue, ?_⟩
    · rw [order, pending]
      rfl
    · rw [same]
      exact faithful.copyingBack
    · rw [pending] at client
      exact client
  | @lock _ cmd left answered free =>
    rw [answered] at worker queue
    have pending := pending_of_commands (congrArg Worker.commands answered)
    rw [pending] at order client
    exact ⟨complete, order, worker, queue, client⟩
  | @back _ cmd w left copying =>
    rw [copying] at worker queue
    have pending := pending_of_commands (congrArg Worker.commands copying)
    rw [pending] at order client
    exact ⟨complete, order, worker.back, queue, client⟩
  | @complete _ cmd copying =>
    rw [copying] at worker queue
    have pending := pending_of_commands (congrArg Worker.commands copying)
    rw [pending] at order client
    refine ⟨complete ++ [cmd], ?_, ?_, ?_, ?_⟩
    · rw [order]
      simp [State.pending, Worker.commands]
    · rw [runSync_append]
      exact worker.complete
    · simpa [Worker.commands] using queue
    · simpa [State.pending, Worker.commands] using client

end Invariant

/-! ## Runs -/

section Runs

variable {handler : Handler} {mem : Memories} {cmds todo : List Command} {cmd : Command}
  {s s' : State}

theorem SettledReach.inv (run : SettledReach handler (.init mem cmds) s) :
    Inv handler mem cmds s := by
  induction run with
  | refl => exact ⟨[], by simp [State.pending, State.init, Worker.commands, Client.commands],
      rfl, trivial, trivial⟩
  | tail run step ih =>
    rcases step with ⟨src, settled, step⟩
    exact step.inv settled ih

/-- A step that copies nothing to shadow memory. -/
theorem SettledReach.step {s₀ : State} (run : SettledReach handler s₀ s)
    (step : Step handler none s s') : SettledReach handler s₀ s' :=
  run.tail ⟨none, by simp [Settled], step⟩

theorem SettledReach.copy {s₀ : State} {c : Copy} {left : List Copy} {shadow : ℕ → Memory}
    (run : SettledReach handler s₀ s) (filling : s.client = .filling cmd (c :: left) shadow)
    (settled : ∀ cmd ∈ s.pending, ¬ cmd.MayWrite c.src) :
    SettledReach handler s₀
      { s with client := .filling cmd left (copyByte s.mem.host shadow c) } :=
  run.tail ⟨some c.src, by simpa [Settled] using settled, .copy filling⟩

theorem SettledReach.trans {s₀ : State} (run : SettledReach handler s₀ s)
    (rest : SettledReach handler s s') : SettledReach handler s₀ s' :=
  Relation.ReflTransGen.trans run rest

/-- The client copies to its shadows while nothing is pending. -/
theorem settledReach_copies (left : List Copy) (shadow : ℕ → Memory) :
    SettledReach handler ⟨mem, todo, .filling cmd left shadow, [], .idle⟩
      ⟨mem, todo, .filling cmd [] (left.foldl (copyByte mem.host) shadow), [], .idle⟩ := by
  induction left generalizing shadow with
  | nil => exact .refl
  | cons c left ih =>
    have start : SettledReach handler ⟨mem, todo, .filling cmd (c :: left) shadow, [], .idle⟩ _ :=
      .refl
    exact (start.copy rfl (by simp [State.pending, Worker.commands])).trans (ih _)

/-- The device thread copies back. -/
theorem settledReach_backs (left : List (ℕ × U8)) (mem : Memories) :
    SettledReach handler ⟨mem, todo, .ready, [], .copying cmd left⟩
      ⟨{ mem with host := left.foldl storeByte mem.host }, todo, .ready, [], .copying cmd []⟩ := by
  induction left generalizing mem with
  | nil => exact .refl
  | cons w left ih =>
    have start : SettledReach handler ⟨mem, todo, .ready, [], .copying cmd (w :: left)⟩ _ := .refl
    exact (start.step (.back rfl)).trans (ih _)

/-- To run one command is a run. -/
theorem settledReach_runCommandSync :
    SettledReach handler (.init mem (cmd :: todo))
      (.init (xrpRunCommandSync handler mem cmd) todo) := by
  let rq : Request := ⟨cmd, cmd.copies.foldl (copyByte mem.host) fun _ _ => 0⟩
  have started : SettledReach handler (.init mem (cmd :: todo)) _ :=
    SettledReach.step .refl (.start (fun _ _ => 0) rfl rfl (by simp [Worker.Holds, State.init]))
  have filled := (started.trans (settledReach_copies cmd.copies fun _ _ => 0)).step (.unlock rfl)
  have running := (filled.step (.append rfl)).step (.dequeue rfl rfl)
  have answered := (running.step (.run rfl)).step (.lock rfl (by simp [Client.Holds]))
  have copied := answered.trans (settledReach_backs (rq.stores handler mem.shared .host) _)
  exact copied.step (.complete rfl)

/-- Synchronous execution is a run, and it finishes. -/
theorem settledReach_runSync :
    SettledReach handler (.init mem cmds) (.init (runSync handler mem cmds) []) := by
  induction cmds generalizing mem with
  | nil => exact .refl
  | cons cmd cmds ih => exact settledReach_runCommandSync.trans ih

theorem Reach.step {s₀ : State} {src : Option ℕ} (run : Reach handler s₀ s)
    (step : Step handler src s s') : Reach handler s₀ s' :=
  run.tail ⟨src, step⟩

end Runs

end Xrp.Sim
