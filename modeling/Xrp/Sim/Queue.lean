import Xrp.Dsp.Buffer

/-!
# The command queue of the simulation library

`xrp_enqueue_command` and `xrp_queue_process` of `xrp_linux_sim.c`: a client fills
requests and appends them to the queue of the device, whose thread passes them to
the DSP one after another. Buffers of host type are copied to shadow memory when
a request is filled, byte by byte, and copied back when it completes. Allocations
succeed and no buffer is mapped. Each command is enqueued with a place for its
event, which is not followed: without one the member `event` of a request is not
written, and completion would store to whatever it points to. A DSP handler is a
function of its input data and of the contents of its buffers; it answers with the
new contents of each buffer that it mapped for writing.
-/

namespace Xrp.Sim

open Dsp

/-- Memory in bytes. -/
abbrev Memory := ℕ → U8

/-- The types of a buffer: `XRP_BUFFER_TYPE_HOST` and `XRP_BUFFER_TYPE_DEVICE`. -/
inductive BufferType : Type
  | host
  | device
  deriving DecidableEq

/-- `struct xrp_buffer`; `ptr` is an address of host memory or of shared memory. -/
structure Buffer : Type where
  type : BufferType
  ptr : ℕ
  size : ℕ
  deriving DecidableEq

/-- `struct xrp_buffer_group_record`. -/
structure Record : Type where
  buffer : Buffer
  accessFlags : U32
  deriving DecidableEq

/-- The DSP may map the buffer for writing. -/
def Record.Writable (r : Record) : Prop := dspBufferAllowedAccess r.accessFlags &&& xrpWrite ≠ 0

instance (r : Record) : Decidable r.Writable := inferInstanceAs (Decidable (_ ≠ _))

/-- The arguments of `xrp_enqueue_command`: input data, and the buffer group (`none` is
`NULL`) with its records. -/
structure Command : Type where
  inData : List U8
  group : Option ℕ
  records : List Record
  deriving DecidableEq

/-- What a handler writes to the buffer with the given index, by offset. -/
abbrev Handler := List U8 → List (List U8) → ℕ → Option Memory

/-! ## Filling a request -/

/-- One byte to copy to shadow memory: for which buffer, at which offset, from where. -/
structure Copy : Type where
  index : ℕ
  offset : ℕ
  src : ℕ
  deriving DecidableEq

/-- The bytes of a buffer that `xrp_enqueue_command` copies. -/
def Record.copies (r : Record) (i : ℕ) : List Copy :=
  match r.buffer.type with
  | .device => []
  | .host => (List.range r.buffer.size).map fun offset => ⟨i, offset, r.buffer.ptr + offset⟩

/-- The bytes that `xrp_enqueue_command` copies, in order. -/
def Command.copies (cmd : Command) : List Copy :=
  cmd.records.zipIdx.flatMap fun e => e.1.copies e.2

/-- One byte is copied to the shadow of a buffer. -/
def copyByte (host : Memory) (shadow : ℕ → Memory) (c : Copy) : ℕ → Memory :=
  Function.update shadow c.index (Function.update (shadow c.index) c.offset (host c.src))

/-- `struct xrp_request`: the command, and the shadow of each buffer of host type. -/
structure Request : Type where
  cmd : Command
  shadow : ℕ → Memory

/-! ## The DSP -/

section Dsp

variable (handler : Handler) (rq : Request) (shared : Memory)

/-- The memory that the DSP sees as a buffer, by offset. -/
def Request.view (r : Record) (i : ℕ) : Memory :=
  match r.buffer.type with
  | .device => fun offset => shared (r.buffer.ptr + offset)
  | .host => rq.shadow i

/-- The contents of the buffers. -/
def Request.contents : List (List U8) :=
  rq.cmd.records.zipIdx.map fun e => (List.range e.1.buffer.size).map (rq.view shared e.1 e.2)

/-- What the handler writes to a buffer. -/
def Request.written (r : Record) (i : ℕ) : Option Memory :=
  if r.Writable then handler rq.cmd.inData (rq.contents shared) i else none

/-- What the handler writes of a buffer of the given type. -/
def Request.stores (type : BufferType) : List (ℕ × U8) :=
  rq.cmd.records.zipIdx.flatMap fun e =>
    if e.1.buffer.type = type then
      match rq.written handler shared e.1 e.2 with
      | some bytes =>
        (List.range e.1.buffer.size).map fun offset => (e.1.buffer.ptr + offset, bytes offset)
      | none => []
    else []

end Dsp

/-- One byte is written. -/
def storeByte (m : Memory) (w : ℕ × U8) : Memory := Function.update m w.1 w.2

/-! ## Client and device thread -/

/-- The client: between commands, filling a request under the lock of its buffer group, or
about to append it. -/
inductive Client : Type
  | ready
  | filling (cmd : Command) (left : List Copy) (shadow : ℕ → Memory)
  | filled (rq : Request)

/-- The device thread: waiting for a request, for the DSP, about to take the lock of the
buffer group, or copying shadow memory back under it. -/
inductive Worker : Type
  | idle
  | running (rq : Request)
  | answered (cmd : Command) (left : List (ℕ × U8))
  | copying (cmd : Command) (left : List (ℕ × U8))

/-- Host memory and the memory shared with the DSP. -/
@[ext] structure Memories : Type where
  host : Memory
  shared : Memory

/-- The state of the system; `todo` are the commands that the client will enqueue. -/
structure State : Type where
  mem : Memories
  todo : List Command
  client : Client
  queue : List Request
  worker : Worker

/-- The client has commands to enqueue. -/
def State.init (mem : Memories) (cmds : List Command) : State := ⟨mem, cmds, .ready, [], .idle⟩

/-- All commands are enqueued and complete. -/
def State.Finished (s : State) : Prop :=
  s.todo = [] ∧ s.client = .ready ∧ s.queue = [] ∧ s.worker = .idle

/-- The client fills a request for the group. -/
def Client.Holds (client : Client) (group : Option ℕ) : Prop :=
  ∃ cmd left shadow, client = .filling cmd left shadow ∧ cmd.group = group ∧ group ≠ none

/-- The device thread copies back for the group. -/
def Worker.Holds (worker : Worker) (group : Option ℕ) : Prop :=
  ∃ cmd left, worker = .copying cmd left ∧ cmd.group = group ∧ group ≠ none

/-- A step of the system; for a copy to shadow memory, the address that it reads. -/
inductive Step (handler : Handler) : Option ℕ → State → State → Prop
  | start {s : State} {cmd : Command} {todo : List Command} (shadow : ℕ → Memory) :
    -- what the new shadows contain is left from before
    s.todo = cmd :: todo → s.client = .ready → ¬ s.worker.Holds cmd.group →
    Step handler none s { s with todo := todo, client := .filling cmd cmd.copies shadow }
  | copy {s : State} {cmd : Command} {c : Copy} {left : List Copy} {shadow : ℕ → Memory} :
    s.client = .filling cmd (c :: left) shadow →
    Step handler (some c.src) s
      { s with client := .filling cmd left (copyByte s.mem.host shadow c) }
  | unlock {s : State} {cmd : Command} {shadow : ℕ → Memory} :
    s.client = .filling cmd [] shadow →
    Step handler none s { s with client := .filled ⟨cmd, shadow⟩ }
  | append {s : State} {rq : Request} :
    s.client = .filled rq →
    Step handler none s { s with client := .ready, queue := s.queue ++ [rq] }
  | dequeue {s : State} {rq : Request} {queue : List Request} :
    s.worker = .idle → s.queue = rq :: queue →
    Step handler none s { s with worker := .running rq, queue := queue }
  | run {s : State} {rq : Request} :
    s.worker = .running rq →
    Step handler none s
      { s with
        mem := { s.mem with
          shared := (rq.stores handler s.mem.shared .device).foldl storeByte s.mem.shared }
        worker := .answered rq.cmd (rq.stores handler s.mem.shared .host) }
  | lock {s : State} {cmd : Command} {left : List (ℕ × U8)} :
    s.worker = .answered cmd left → ¬ s.client.Holds cmd.group →
    Step handler none s { s with worker := .copying cmd left }
  | back {s : State} {cmd : Command} {w : ℕ × U8} {left : List (ℕ × U8)} :
    s.worker = .copying cmd (w :: left) →
    Step handler none s
      { s with mem := { s.mem with host := storeByte s.mem.host w }, worker := .copying cmd left }
  | complete {s : State} {cmd : Command} :
    s.worker = .copying cmd [] → Step handler none s { s with worker := .idle }

/-! ## Synchronous execution -/

/-- `xrp_run_command_sync`: the request is filled and processed before anything else happens. -/
def xrpRunCommandSync (handler : Handler) (mem : Memories) (cmd : Command) : Memories :=
  let rq : Request := ⟨cmd, cmd.copies.foldl (copyByte mem.host) fun _ _ => 0⟩
  ⟨(rq.stores handler mem.shared .host).foldl storeByte mem.host,
    (rq.stores handler mem.shared .device).foldl storeByte mem.shared⟩

/-- Commands run one after another. -/
def runSync (handler : Handler) (mem : Memories) (cmds : List Command) : Memories :=
  cmds.foldl (xrpRunCommandSync handler) mem

/-! ## Runs -/

/-- The command may write the address of host memory when it completes. -/
def Command.MayWrite (cmd : Command) (a : ℕ) : Prop :=
  ∃ r ∈ cmd.records, r.buffer.type = .host ∧ r.Writable ∧
    r.buffer.ptr ≤ a ∧ a < r.buffer.ptr + r.buffer.size

/-- The command that the device thread works on. -/
def Worker.commands : Worker → List Command
  | idle => []
  | running rq => [rq.cmd]
  | answered cmd _ => [cmd]
  | copying cmd _ => [cmd]

/-- The commands that were enqueued and are not complete. -/
def State.pending (s : State) : List Command := s.worker.commands ++ s.queue.map (·.cmd)

/-- The byte that is copied to shadow memory is not written by a command that is pending. -/
def Settled (s : State) (src : Option ℕ) : Prop :=
  ∀ a ∈ src, ∀ cmd ∈ s.pending, ¬ cmd.MayWrite a

/-- All runs. -/
def Reach (handler : Handler) (s₀ s : State) : Prop :=
  Relation.ReflTransGen (fun s s' => ∃ src, Step handler src s s') s₀ s

/-- The runs in which every copy to shadow memory is settled. -/
def SettledReach (handler : Handler) (s₀ s : State) : Prop :=
  Relation.ReflTransGen (fun s s' => ∃ src, Settled s src ∧ Step handler src s s') s₀ s

end Xrp.Sim
