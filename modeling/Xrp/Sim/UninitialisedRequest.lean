import Xrp.Sim.Api

/-!
# The memory of a request

`xrp_enqueue_command` takes its request and the array `user_buffer_allocation` from `malloc` and
stores only those members that the command needs, and `xrp_queue_process` reads them later. In
this model of the two functions, the contents of both blocks before the call are a parameter.

The group may be changed by other threads while the request is queued, so that its buffers when
the request is processed are a parameter too. The queue is otherwise empty, `malloc` of the two
blocks succeeds, the DSP answers, and `out_data` overlaps no buffer.

Whatever address is in the member `event` is taken for that of an event: its status and its
reference count are stored in the memory of the host, and it may be freed. The functions of
`pthread` return and leave the memory as it is. The counts of the device and of the group are not
in this memory, and the shared memory is elsewhere.
-/

namespace Xrp.Sim.Uninitialised

open Dsp Api

/-! ## Memory -/

/-- The memory of the host process, and the memory that is shared with the DSP. -/
structure Memory : Type where
  host : ULong → U8
  shared : U32 → U8

/-- The bytes that `memcpy` reads at `p`. -/
def bytesAt {w : ℕ} (m : BitVec w → U8) (p : BitVec w) (n : ℕ) : List U8 :=
  (List.range n).map fun i => m (p + .ofNat w i)

@[simp] theorem length_bytesAt {w : ℕ} (m : BitVec w → U8) (p : BitVec w) (n : ℕ) :
    (bytesAt m p n).length = n := by
  simp [bytesAt]

/-- The memory after `memcpy` has written bytes at `p`. -/
def putBytes {w : ℕ} (m : BitVec w → U8) (p : BitVec w) (bs : List U8) : BitVec w → U8 :=
  fun a => (bs[(a - p).toNat]?).getD (m a)

/-- An `unsigned long` in memory. -/
def ulongAt (order : ByteOrder) (m : ULong → U8) (p : ULong) : ULong :=
  let first := order.word fun i => m (p + .ofNat 64 i)
  let second := order.word fun i => m (p + .ofNat 64 (4 + i))
  match order with
  | .little => .ofNat 64 (second.toNat * 2 ^ 32 + first.toNat)
  | .big => .ofNat 64 (first.toNat * 2 ^ 32 + second.toNat)

/-- The two words of an `unsigned long`, as they are in memory. -/
def ulongWords (order : ByteOrder) (v : ULong) : List U32 :=
  match order with
  | .little => [.ofNat 32 v.toNat, .ofNat 32 (v.toNat / 2 ^ 32)]
  | .big => [.ofNat 32 (v.toNat / 2 ^ 32), .ofNat 32 v.toNat]

/-- The memory after an `unsigned long` is stored. -/
def putUlong (order : ByteOrder) (m : ULong → U8) (p v : ULong) : ULong → U8 :=
  putBytes m p (order.bytes (ulongWords order v))

/-- An array of bytes after its first bytes are written. -/
def overlay (bs : List U8) (m : ℕ → U8) : ℕ → U8 := fun i => (bs[i]?).getD (m i)

/-- A pointer to data in the request itself, or in the shared memory. -/
inductive DataPtr : Type
  | inline
  | shared (addr : U32)
  deriving DecidableEq

/-- `struct xrp_dsp_cmd`. Each union is the array of its bytes. -/
structure XrpDspCmd : Type where
  flags : U32
  inDataSize : U32
  outDataSize : U32
  bufferSize : U32
  inData : ℕ → U8
  outData : ℕ → U8
  bufferData : ℕ → U8
  nsid : ℕ → U8

/-- `struct xrp_request`, with the contents of the array `user_buffer_allocation`. The addresses of
`out_data` and of the group do not matter; of the latter it is kept if it is `NULL`. -/
structure Request : Type where
  cmd : XrpDspCmd
  nBuffers : ℕ
  inDataSize : ULong
  outDataPtr : DataPtr
  outDataSize : ULong
  bufferGroup : Bool
  event : ULong
  inDataAllocation : ULong
  outDataAllocation : ULong
  bufferAllocation : ULong
  userBufferAllocation : ℕ → ULong
  bufferPtr : DataPtr

/-- `struct xrp_buffer`. -/
structure Buffer : Type where
  place : Place ULong
  ptr : ULong
  size : ULong
  mapCount : ℕ

/-- The type is not `XRP_BUFFER_TYPE_DEVICE`. -/
def Buffer.isHost (b : Buffer) : Bool :=
  match b.place with
  | .host => true
  | .device _ => false

/-- `struct xrp_buffer_group_record`. -/
structure Record : Type where
  buffer : Buffer
  accessFlags : U32

/-- The arguments of `xrp_enqueue_command`: `out_data` itself is left out, of `evt` it is kept if it
is given, and `nsid` is that of the queue. -/
structure Args : Type where
  inData : ULong
  inDataSize : ULong
  outDataSize : ULong
  bufferGroup : Option (List Record)
  evt : Bool
  nsid : Option (Fin 16 → U8)

/-- The records of the group; there are none without a group. -/
def Args.records (args : Args) : List Record := args.bufferGroup.getD []

/-! ## The DSP

The DSP reads the sizes and the flags of a command, and of each union what these tell: an address,
or as many bytes as there are. -/

/-- What the DSP reads of a union. -/
inductive DataArg : Type
  | addr (a : U32)
  | bytes (bs : List U8)

/-- The address in a union, or its first bytes. -/
def dataArg (order : ByteOrder) (addressed : Bool) (size : ℕ) (union : ℕ → U8) : DataArg :=
  if addressed then .addr (order.word fun i => union i)
  else .bytes ((List.range size).map union)

/-- What the DSP is told to read of a command. -/
structure Told : Type where
  flags : U32
  inDataSize : U32
  outDataSize : U32
  bufferSize : U32
  inData : DataArg
  outData : DataArg
  bufferData : DataArg
  nsid : DataArg

/-- The fields of a command in the comm area that the DSP is told to read. -/
def told (order : ByteOrder) (cmd : XrpDspCmd) : Told where
  flags := cmd.flags ||| requestValid
  inDataSize := cmd.inDataSize
  outDataSize := cmd.outDataSize
  bufferSize := cmd.bufferSize
  inData := dataArg order (cmd.inDataSize.toNat > inlineDataSize) cmd.inDataSize.toNat cmd.inData
  -- no byte of an inline `out_data` is read
  outData := dataArg order (cmd.outDataSize.toNat > inlineDataSize) 0 cmd.outData
  bufferData :=
    dataArg order (cmd.bufferSize.toNat / sizeofDspBuffer > inlineBufferCount)
      (cmd.bufferSize.toNat / sizeofDspBuffer * sizeofDspBuffer) cmd.bufferData
  nsid := dataArg order false (if cmd.flags &&& requestNsid = 0 then 0 else 16) cmd.nsid

/-- What the DSP writes: the flags, bytes of the inline `out_data`, the flags of an inline buffer,
and the shared memory. -/
structure Reply : Type where
  flags : U32
  out : ℕ → Option U8
  bufferFlags : Option U32
  shared : U32 → U8

/-- The comm area after the DSP has answered. -/
def answered (order : ByteOrder) (cmd : XrpDspCmd) (r : Reply) : XrpDspCmd :=
  { cmd with
    flags := r.flags
    outData := fun i =>
      if cmd.outDataSize.toNat ≤ inlineDataSize ∧ i < cmd.outDataSize.toNat then
        (r.out i).getD (cmd.outData i)
      else cmd.outData i
    bufferData := overlay
      (if cmd.bufferSize.toNat / sizeofDspBuffer = inlineBufferCount then
        order.bytes r.bufferFlags.toList
      else []) cmd.bufferData }

/-- What both runs have in common: the byte order of the host, the pool, whose calls in
`xrp_enqueue_command` are numbered, the member `start` of allocations, the event or `NULL` if there
is no memory for it, the sizes of `pthread_mutex_t` and `pthread_cond_t`, the device, what
`xrp_release_device` frees and leaves of the memory, the allocations that are freed if the request
has the last reference to its group, and the DSP. -/
structure Env : Type where
  order : ByteOrder
  allocate : ℕ → U32 → Option ULong
  start : ULong → U32
  newEvent : ULong
  mutexSize : U32
  condSize : U32
  device : ULong
  releaseDevice : ULong → (ULong → U8) → List ULong × (ULong → U8)
  groupFrees : List ULong
  dsp : Told → (U32 → U8) → Reply

/-- The offset of `status` in `struct xrp_event`, behind the count, the device, the mutex and the
condition. -/
def Env.statusOffset (env : Env) : ℕ := 16 + env.mutexSize.toNat + env.condSize.toNat

/-! ## Enqueueing -/

/-- What `xrp_enqueue_command` stores in the command. Of a union it is the bytes from its start. -/
structure StoredCmd : Type where
  flags : U32
  inDataSize : U32
  outDataSize : U32
  bufferSize : U32
  inData : List U8
  outData : List U8
  bufferData : List U8
  nsid : List U8

/-- What `xrp_enqueue_command` stores in the request and in the array; `none` is a member that it
does not store. -/
structure Stored : Type where
  cmd : StoredCmd
  nBuffers : ℕ
  inDataSize : ULong
  outDataPtr : DataPtr
  outDataSize : ULong
  bufferGroup : Bool
  event : Option ULong
  inDataAllocation : Option ULong
  outDataAllocation : Option ULong
  bufferAllocation : Option ULong
  userBufferAllocation : List (Option ULong)
  bufferPtr : DataPtr

/-- The command after the stores. -/
def StoredCmd.fill (st : StoredCmd) (cmd : XrpDspCmd) : XrpDspCmd where
  flags := st.flags
  inDataSize := st.inDataSize
  outDataSize := st.outDataSize
  bufferSize := st.bufferSize
  inData := overlay st.inData cmd.inData
  outData := overlay st.outData cmd.outData
  bufferData := overlay st.bufferData cmd.bufferData
  nsid := overlay st.nsid cmd.nsid

/-- The request after the stores; what is not stored is as it was. -/
def Stored.fill (st : Stored) (rq : Request) : Request where
  cmd := st.cmd.fill rq.cmd
  nBuffers := st.nBuffers
  inDataSize := st.inDataSize
  outDataPtr := st.outDataPtr
  outDataSize := st.outDataSize
  bufferGroup := st.bufferGroup
  event := st.event.getD rq.event
  inDataAllocation := st.inDataAllocation.getD rq.inDataAllocation
  outDataAllocation := st.outDataAllocation.getD rq.outDataAllocation
  bufferAllocation := st.bufferAllocation.getD rq.bufferAllocation
  userBufferAllocation := fun i =>
    (st.userBufferAllocation.getD i none).getD (rq.userBufferAllocation i)
  bufferPtr := st.bufferPtr

section Enqueue

variable (env : Env)

/-- An allocation that is made if it is needed. If it fails, the call ends with the memory as it
is. -/
def allocateIf (needed : Prop) [Decidable needed] (call : ℕ) (size : U32) (mem : Memory) :
    Except Memory (Option ULong) :=
  if needed then
    match env.allocate call size with
    | none => .error mem
    | some a => .ok (some a)
  else .ok none

/-- Where data is that is in the allocation, or inline without one. -/
def ptrOf : Option ULong → DataPtr
  | none => .inline
  | some a => .shared (env.start a)

/-- What is stored in a union: the address of the allocation, or the data without one. -/
def unionBytes (data : List U8) : Option ULong → List U8
  | none => data
  | some a => env.order.bytes [env.start a]

/-- `memcpy` of the input to its allocation. -/
def putInData (args : Args) (inAllocation : Option ULong) (mem : Memory) : Memory :=
  match inAllocation with
  | none => mem
  | some a =>
    { mem with
      shared := putBytes mem.shared (env.start a)
        (bytesAt mem.host args.inData args.inDataSize.toNat) }

/-- `rq->buffer_ptr[i] = …`, if the table is in the shared memory. -/
def putBuffer (ptr : DataPtr) (i : ℕ) (d : XrpDspBuffer) (mem : Memory) : Memory :=
  match ptr with
  | .inline => mem
  | .shared a =>
    { mem with
      shared := putBytes mem.shared (a + .ofNat 32 (i * sizeofDspBuffer))
        (env.order.bytes d.words) }

/-- What the loop over the buffers has made. -/
structure Filled : Type where
  userBufferAllocation : List (Option ULong)
  buffers : List XrpDspBuffer
  memory : Memory

/-- The result of the loop with one more buffer before the others. -/
def Filled.cons (shadow : Option ULong) (d : XrpDspBuffer) (f : Filled) : Filled :=
  ⟨shadow :: f.userBufferAllocation, d :: f.buffers, f.memory⟩

/-- What is stored in `rq->buffer_ptr[i]` for a buffer in the allocation. -/
def describe (r : Record) (a : ULong) : XrpDspBuffer where
  flags := r.accessFlags
  size := r.buffer.size.setWidth 32
  addr := env.start a

/-- `memcpy` of a buffer of the host to its allocation. -/
def putShadow (r : Record) (a : ULong) (mem : Memory) : Memory :=
  { mem with
    shared := putBytes mem.shared (env.start a)
      (bytesAt mem.host r.buffer.ptr r.buffer.size.toNat) }

/-- The loop over the buffers in `xrp_enqueue_command`, from index `i` on. -/
def fillBuffers (ptr : DataPtr) : ℕ → List Record → Memory → Except Memory Filled
  | _, [], mem => .ok ⟨[], [], mem⟩
  | i, r :: records, mem =>
    if r.buffer.mapCount > 0 then .error mem
    else
      match r.buffer.place with
      | .device a =>
        let d := describe env r a
        (fillBuffers ptr (i + 1) records (putBuffer env ptr i d mem)).map (Filled.cons none d)
      | .host =>
        match env.allocate (3 + i) (r.buffer.size.setWidth 32) with
        | none => .error mem
        | some a =>
          let d := describe env r a
          (fillBuffers ptr (i + 1) records (putBuffer env ptr i d (putShadow env r a mem))).map
            (Filled.cons (some a) d)

/-- The stores of a call that does not fail. -/
def stores (args : Args) (mem : Memory) (inAllocation outAllocation table : Option ULong)
    (filled : Filled) : Stored where
  cmd :=
    { flags := if args.nsid.isSome then requestNsid else 0
      inDataSize := args.inDataSize.setWidth 32
      outDataSize := args.outDataSize.setWidth 32
      bufferSize := .ofNat 32 (args.records.length * sizeofDspBuffer)
      inData := unionBytes env (bytesAt mem.host args.inData args.inDataSize.toNat) inAllocation
      -- nothing is stored in an inline `out_data`
      outData := unionBytes env [] outAllocation
      bufferData :=
        unionBytes env (env.order.bytes (filled.buffers.flatMap XrpDspBuffer.words)) table
      nsid := (args.nsid.map List.ofFn).getD [] }
  nBuffers := args.records.length
  inDataSize := args.inDataSize
  outDataPtr := ptrOf env outAllocation
  outDataSize := args.outDataSize
  bufferGroup := args.bufferGroup.isSome
  -- `rq->event` is not stored without `evt`
  event := if args.evt then some env.newEvent else none
  inDataAllocation := inAllocation
  outDataAllocation := outAllocation
  bufferAllocation := table
  userBufferAllocation := filled.userBufferAllocation
  bufferPtr := ptrOf env table

/-- `enum xrp_status` in memory. -/
def statusWord : XrpStatus → U32
  | .success => 0
  | .failure => 1
  | .pending => 2

/-- `event->status = …`. -/
def putStatus (event : ULong) (status : XrpStatus) (host : ULong → U8) : ULong → U8 :=
  putBytes host (event + .ofNat 64 env.statusOffset) (env.order.bytes [statusWord status])

/-- The memory with the event, if there is one: `calloc`, and the stores of its members. The request
has a second reference to it. -/
def putEvent (args : Args) (mem : Memory) : Memory :=
  if args.evt then
    let zeroed := putBytes mem.host env.newEvent (List.replicate (env.statusOffset + 8) 0)
    let owned := putUlong env.order zeroed (env.newEvent + 8) env.device
    let counted := putUlong env.order owned env.newEvent 2
    { mem with host := putStatus env env.newEvent .pending counted }
  else mem

/-- `xrp_enqueue_command`: what it stores in the request and the memory after it, or only the
latter if it fails and enqueues nothing. The device is not `NULL`, so that `xrp_retain_device`
succeeds. -/
def xrpEnqueueCommand (args : Args) (mem : Memory) : Except Memory (Stored × Memory) := do
  let inAllocation ← allocateIf env (args.inDataSize.toNat > inlineDataSize) 0
    (args.inDataSize.setWidth 32) mem
  let copied := putInData env args inAllocation mem
  let outAllocation ← allocateIf env (args.outDataSize.toNat > inlineDataSize) 1
    (args.outDataSize.setWidth 32) copied
  let table ← allocateIf env (args.records.length > inlineBufferCount) 2
    (.ofNat 32 (args.records.length * sizeofDspBuffer)) copied
  let filled ← fillBuffers env (ptrOf env table) 0 args.records copied
  if args.evt = true ∧ env.newEvent = 0 then .error filled.memory
  else
    .ok (stores env args mem inAllocation outAllocation table filled,
      putEvent env args filled.memory)

end Enqueue

/-! ## Processing -/

section Process

variable (env : Env) (later : ℕ → Buffer)

/-- `rq->buffer_ptr[i].flags`. -/
def bufferFlags (cmd : XrpDspCmd) (shared : U32 → U8) (i : ℕ) : DataPtr → U32
  | .inline => env.order.word fun j => cmd.bufferData (i * sizeofDspBuffer + j)
  | .shared a => env.order.word fun j => shared (a + .ofNat 32 (i * sizeofDspBuffer + j))

/-- What the loop over the buffers has done: the allocations freed, and the memory of the host. -/
structure Completed : Type where
  freed : List ULong
  host : ULong → U8

/-- One round of the loop over the buffers in `xrp_queue_process`. -/
def completeBuffer (rq : Request) (shared : U32 → U8) (c : Completed) (i : ℕ) : Completed :=
  if (later i).isHost then
    let a := rq.userBufferAllocation i
    { freed := c.freed ++ [a]
      host :=
        if bufferFlags env rq.cmd shared i rq.bufferPtr &&& bufferFlagWrite ≠ 0 then
          putBytes c.host (later i).ptr (bytesAt shared (env.start a) (later i).size.toNat)
        else c.host }
  else c

/-- What is seen of a run: the events that are signalled, with their status, and released, the
allocations that are freed, the memory, and the bytes written to `out_data`. -/
structure Observed : Type where
  events : List (ULong × XrpStatus)
  freed : List ULong
  memory : Memory
  outData : Option (List U8)

/-- The answer of the DSP to a request. -/
def replyTo (rq : Request) (mem : Memory) : Reply := env.dsp (told env.order rq.cmd) mem.shared

/-- The request after the command is copied back. -/
def Request.answered (rq : Request) (r : Reply) : Request :=
  { rq with cmd := Uninitialised.answered env.order rq.cmd r }

/-- The allocations of the data, which are freed first. -/
def Request.dataAllocations (rq : Request) : List ULong :=
  (if rq.inDataSize.toNat > inlineDataSize then [rq.inDataAllocation] else []) ++
    (if rq.outDataSize.toNat > inlineDataSize then [rq.outDataAllocation] else [])

/-- What `memcpy` writes to `out_data`. -/
def Request.output (rq : Request) (shared : U32 → U8) : List U8 :=
  match rq.outDataPtr with
  | .inline => (List.range rq.outDataSize.toNat).map rq.cmd.outData
  | .shared a => bytesAt shared a rq.outDataSize.toNat

/-- The loop over the buffers. -/
def completeBuffers (rq : Request) (shared : U32 → U8) (c : Completed) : Completed :=
  (List.range rq.nBuffers).foldl (completeBuffer env later rq shared) c

/-- What is done up to the release of the group. -/
def completeRequest (rq : Request) (shared : U32 → U8) (host : ULong → U8) : Completed :=
  let c := completeBuffers env later rq shared ⟨rq.dataAllocations, host⟩
  { c with
    freed := c.freed ++ (if rq.nBuffers > inlineBufferCount then [rq.bufferAllocation] else []) ++
      (if rq.bufferGroup then env.groupFrees else []) }

/-- `release_refcounted`. -/
def releaseRefcounted (p : ULong) (c : Completed) : Completed :=
  let count := ulongAt env.order c.host p - 1
  { freed := if count = 0 then c.freed ++ [p] else c.freed
    host := putUlong env.order c.host p count }

/-- `xrp_release_event`. -/
def xrpReleaseEvent (event : ULong) (c : Completed) : Completed :=
  if ulongAt env.order c.host event = 1 then
    let released := env.releaseDevice (ulongAt env.order c.host (event + 8)) c.host
    releaseRefcounted env event ⟨c.freed ++ released.1, released.2⟩
  else releaseRefcounted env event c

/-- The end of `xrp_queue_process`: any address but `NULL` is taken for an event. -/
def signalEvent (event : ULong) (status : XrpStatus) (c : Completed) : Completed :=
  if event ≠ 0 then
    xrpReleaseEvent env event { c with host := putStatus env event status c.host }
  else c

/-- `xrp_queue_process` from the moment it has dequeued a request. -/
def xrpQueueProcess (rq : Request) (mem : Memory) : Observed :=
  let r := replyTo env rq mem
  let rq := rq.answered env r
  let status := eventStatus rq.cmd.flags
  let c := signalEvent env rq.event status (completeRequest env later rq r.shared mem.host)
  { outData := some (rq.output r.shared)
    freed := c.freed
    memory := ⟨c.host, r.shared⟩
    events := if rq.event ≠ 0 then [(rq.event, status)] else [] }

/-- A call of `xrp_enqueue_command`, with the contents of its two blocks before it, and
`xrp_queue_process` after it. If the call fails, the latter finds nothing. -/
def run (args : Args) (mem : Memory) (contents : Request) : Observed :=
  match xrpEnqueueCommand env args mem with
  | .error mem => ⟨[], [], mem, none⟩
  | .ok result => xrpQueueProcess env later (result.1.fill contents) result.2

end Process

/-! ## When a command is enqueued -/

section Enqueues

variable {env : Env} {args : Args} {mem : Memory}

theorem bind_eq_ok {ε α β : Type} {x : Except ε α} {f : α → Except ε β} {b : β} :
    x >>= f = .ok b ↔ ∃ a, x = .ok a ∧ f a = .ok b := by
  cases x <;> simp [bind, Except.bind]

section AllocateIf

variable {needed : Prop} [Decidable needed] {call : ℕ} {size : U32}

end AllocateIf

/-- A round of a loop that finishes was left by none of its exits. -/
theorem of_fillBuffers_cons {ptr : DataPtr} {i : ℕ} {r : Record} {records : List Record}
    {filled : Filled} (finished : fillBuffers env ptr i (r :: records) mem = .ok filled) :
    r.buffer.mapCount = 0 ∧
      (r.buffer.isHost = true → env.allocate (3 + i) (r.buffer.size.setWidth 32) ≠ none) := by
  by_cases mapped : r.buffer.mapCount > 0
  · simp [fillBuffers, mapped] at finished
  · refine ⟨by omega, fun isHost full => ?_⟩
    cases place : r.buffer.place with
    | device a => simp [Buffer.isHost, place] at isHost
    | host => simp [fillBuffers, mapped, place, full] at finished

theorem map_eq_ok {ε α β : Type} {x : Except ε α} {f : α → β} {b : β} :
    x.map f = .ok b ↔ ∃ a, x = .ok a ∧ f a = b := by
  cases x <;> simp [Except.map]

/-- A call that does not fail makes each allocation in turn, and then stores them. -/
theorem of_xrpEnqueueCommand {result : Stored × Memory}
    (enqueued : xrpEnqueueCommand env args mem = .ok result) :
    ∃ inAllocation outAllocation table filled,
      allocateIf env (args.inDataSize.toNat > inlineDataSize) 0 (args.inDataSize.setWidth 32) mem =
        .ok inAllocation ∧
      allocateIf env (args.outDataSize.toNat > inlineDataSize) 1 (args.outDataSize.setWidth 32)
        (putInData env args inAllocation mem) = .ok outAllocation ∧
      allocateIf env (args.records.length > inlineBufferCount) 2
        (.ofNat 32 (args.records.length * sizeofDspBuffer))
        (putInData env args inAllocation mem) = .ok table ∧
      fillBuffers env (ptrOf env table) 0 args.records (putInData env args inAllocation mem) =
        .ok filled ∧
      (args.evt = true → env.newEvent ≠ 0) ∧
      result = (stores env args mem inAllocation outAllocation table filled,
        putEvent env args filled.memory) := by
  simp only [xrpEnqueueCommand, bind_eq_ok] at enqueued
  obtain ⟨inAllocation, inMade, outAllocation, outMade, table, tableMade, filled, finished,
    last⟩ := enqueued
  by_cases noEvent : args.evt = true ∧ env.newEvent = 0
  · simp [noEvent] at last
  · exact ⟨inAllocation, outAllocation, table, filled, inMade, outMade, tableMade, finished,
      fun evt null => noEvent ⟨evt, null⟩, (Except.ok.inj ((if_neg noEvent).symm.trans last)).symm⟩

/-- What a call that does not fail has allocated and described. -/
structure Made (args : Args) (inAllocation outAllocation table : Option ULong)
    (filled : Filled) : Prop where
  inData : inAllocation.isSome = true ↔ args.inDataSize.toNat > inlineDataSize
  outData : outAllocation.isSome = true ↔ args.outDataSize.toNat > inlineDataSize
  table : table.isSome = true ↔ args.records.length > inlineBufferCount
  shadows : filled.userBufferAllocation.map Option.isSome =
    args.records.map (fun r => r.buffer.isHost)
  buffers : filled.buffers.length = args.records.length

end Enqueues

/-! ## The allocations of the request

The calls of the library, with the objects and their counts, are modelled in `Xrp.Sim.Api`. There a
request has the same allocations. -/

section Allocations

variable {env : Env} {args : Args} {mem : Memory} {s : Api.State Unit ULong}

/-- The pool as one without a state. -/
def Env.pool (env : Env) : Allocator Unit ULong where
  allocate := fun call size _ => (env.allocate call size, ())
  free := fun _ _ => ()

/-- A record and its buffer, in both models. -/
structure SameRecord (buffers : ℕ → Api.Buffer ULong) (r : Api.Record) (r' : Record) : Prop where
  place : (buffers r.buffer).place = r'.buffer.place
  size : (buffers r.buffer).size = r'.buffer.size
  mapCount : (buffers r.buffer).mapCount = r'.buffer.mapCount
  accessFlags : r.accessFlags = r'.accessFlags

theorem api_fillBuffers {buffers : ℕ → Api.Buffer ULong} {ptr : DataPtr} {i : ℕ}
    {records : List Api.Record} {records' : List Record} {filled : Filled}
    (same : List.Forall₂ (SameRecord buffers) records records')
    (finished : fillBuffers env ptr i records' mem = .ok filled) :
    ∃ ds, Api.fillBuffers env.pool buffers i records () =
      (.filled filled.userBufferAllocation ds, ()) := by
  induction same generalizing i mem filled with
  | nil =>
    obtain rfl : ⟨[], [], mem⟩ = filled := by simpa [fillBuffers] using finished
    exact ⟨[], rfl⟩
  | @cons r r' records records' head tail ih =>
    obtain ⟨unmapped, room⟩ := of_fillBuffers_cons finished
    have goesOn : ¬ (buffers r.buffer).mapCount > 0 := by rw [head.mapCount]; omega
    have goesOn' : ¬ r'.buffer.mapCount > 0 := by omega
    cases place : r'.buffer.place with
    | device a =>
      simp only [fillBuffers, if_neg goesOn', place, map_eq_ok] at finished
      obtain ⟨rest, finished, rfl⟩ := finished
      obtain ⟨ds, eq⟩ := ih finished
      simp only [Api.fillBuffers, if_neg goesOn, head.place, place, eq]
      exact ⟨_, rfl⟩
    | host =>
      have isHost : r'.buffer.isHost = true := by simp [Buffer.isHost, place]
      obtain ⟨a, made⟩ := Option.ne_none_iff_exists'.mp (room isHost)
      simp only [fillBuffers, if_neg goesOn', place, made, map_eq_ok] at finished
      obtain ⟨rest, finished, rfl⟩ := finished
      obtain ⟨ds, eq⟩ := ih finished
      simp only [Env.pool] at eq
      simp only [Api.fillBuffers, if_neg goesOn, head.place, head.size, place, Env.pool, made]
      rw [eq]
      exact ⟨_, rfl⟩

theorem api_allocateIf {needed : Prop} [Decidable needed] {call : ℕ} {size : U32}
    {a : Option ULong} (made : allocateIf env needed call size mem = .ok a) :
    Api.allocateIf env.pool needed call size () = (some a, ()) := by
  by_cases need : needed
  · cases found : env.allocate call size with
    | none => simp [allocateIf, need, found] at made
    | some b =>
      obtain rfl : some b = a := by simpa [allocateIf, need, found] using made
      simp [Api.allocateIf, Env.pool, need, found]
  · obtain rfl : none = a := by simpa [allocateIf, need] using made
    simp [Api.allocateIf, need]

/-- A command that is enqueued here is enqueued there, and its request has the same allocations. -/
theorem api_enqueueCommand {group stale : Option ℕ} {result : Stored × Memory}
    (unlocked : ¬ (s.retainForRequest group).Locked group)
    (same : List.Forall₂ (SameRecord s.buffers) (s.records group) args.records)
    (enqueued : xrpEnqueueCommand env args mem = .ok result) :
    ∃ s' rq, Api.xrpEnqueueCommand env.pool (env.newEvent ≠ 0) stale
        ⟨args.inDataSize, args.outDataSize, group, args.evt⟩ s = some (.success, s') ∧
      s'.queue = s.queue ++ [rq] ∧
      rq.inDataAllocation = result.1.inDataAllocation ∧
      rq.outDataAllocation = result.1.outDataAllocation ∧
      rq.bufferAllocation = result.1.bufferAllocation ∧
      rq.userBufferAllocation = result.1.userBufferAllocation := by
  obtain ⟨inAllocation, outAllocation, table, filled, inMade, outMade, tableMade, finished, event,
    rfl⟩ := of_xrpEnqueueCommand enqueued
  obtain ⟨ds, filledThere⟩ := api_fillBuffers same finished
  rw [← same.length_eq] at tableMade
  have given : ¬ ((args.evt && !decide (env.newEvent ≠ 0)) = true) := by
    simpa using event
  have buffers : (s.retainForRequest group).buffers = s.buffers := rfl
  simp only [Api.xrpEnqueueCommand, api_allocateIf inMade, api_allocateIf outMade,
    if_neg unlocked, Api.State.retainForRequest_records, api_allocateIf tableMade, buffers,
    filledThere, if_neg given]
  exact ⟨_, _, rfl, rfl, rfl, rfl, rfl, rfl⟩

end Allocations

end Xrp.Sim.Uninitialised
