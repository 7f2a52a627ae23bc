import Xrp.Base.Refcount
import Xrp.Dsp.Buffer

/-!
# Calls of the simulation library

Buffers, buffer groups and the command queue of `xrp_linux_sim.c`, with the reference counts of
its objects and the allocations it makes in the pool shared with the DSP. The pool is a parameter.
Contents of memory are left out: for a write-back only its target is kept. `malloc` of a request
succeeds. The device has other references than those of events, so that none of these is the last.

Objects are numbered, an event like its request. A reference is named by who has it, which the
library does not see. What is in the member `event` of a request before it is stored is a parameter:
`NULL` or one of the events; addresses of anything else are left out.
-/

namespace Xrp.Sim.Api

open Dsp

/-- `xrp_allocate` and `xrp_free` of a pool. Calls of `xrp_allocate` in one function are numbered,
since each of them may fail. A pointer that was never written is freed as `none`. -/
structure Allocator (P A : Type) : Type where
  allocate : ℕ → U32 → P → Option A × P
  free : Option A → P → P

/-! ## Objects -/

/-- The references to a buffer: the handles of clients, the records of groups, and one of a call
of `xrp_set_buffer_in_group` in progress. -/
inductive BufferRef : Type
  | handle (k : ℕ)
  | slot (g i : ℕ)
  | call
  deriving DecidableEq

/-- The references to a group: the handles of clients, and one of each request. -/
inductive GroupRef : Type
  | handle (k : ℕ)
  | request (n : ℕ)
  deriving DecidableEq

/-- The references to an event: the handles of clients, and that of its request. -/
inductive EventRef : Type
  | handle (k : ℕ)
  | request
  deriving DecidableEq

/-- The type of a buffer, with `xrp_allocation` for `XRP_BUFFER_TYPE_DEVICE`. -/
inductive Place (A : Type) : Type
  | host
  | device (a : A)
  deriving DecidableEq

/-- `struct xrp_buffer`. -/
structure Buffer (A : Type) : Type where
  place : Place A
  size : ULong
  mapCount : ℕ
  refs : Refcounted BufferRef

/-- `struct xrp_buffer_group_record`. -/
structure Record : Type where
  buffer : ℕ
  accessFlags : U32
  deriving DecidableEq

/-- `struct xrp_buffer_group`. -/
structure Group : Type where
  refs : Refcounted GroupRef
  locked : Bool
  records : List Record

/-- `struct xrp_event`; its device is the one of the queue. -/
structure Event : Type where
  refs : Refcounted EventRef
  status : XrpStatus

/-- An event that `xrp_enqueue_command` has made: for the client, and retained for the request. -/
def Event.created : Event := ⟨(Refcounted.alloc (.handle 0)).retain .request, .pending⟩

/-- `struct xrp_dsp_buffer`; the address is that of the allocation. -/
structure DspBuffer (A : Type) : Type where
  flags : U32
  size : U32
  addr : A

/-- `struct xrp_request`; `records` are those of the group when the command was enqueued, which are
not part of the request. What is not written of `user_buffer_allocation` is `none`, as is `NULL` for
the event. -/
structure Request (A : Type) : Type where
  number : ℕ
  group : Option ℕ
  event : Option ℕ
  records : List Record
  inDataAllocation : Option A
  outDataAllocation : Option A
  bufferAllocation : Option A
  userBufferAllocation : List (Option A)
  bufferPtr : List (DspBuffer A)

/-- A write-back: for which request and index, and to which buffer. -/
structure WriteBack : Type where
  number : ℕ
  index : ℕ
  buffer : ℕ
  deriving DecidableEq

/-- The state of the library. -/
structure State (P A : Type) : Type where
  pool : P
  buffers : ℕ → Buffer A
  groups : ℕ → Group
  events : ℕ → Event
  deviceRefs : ℕ
  queue : List (Request A)
  issued : ℕ
  writeBacks : List WriteBack

section Calls

variable {P A : Type} (al : Allocator P A)

/-! ## Enqueueing -/

/-- An allocation that is made if it is needed; `none` if it fails. -/
def allocateIf (needed : Prop) [Decidable needed] (call : ℕ) (size : U32) (pool : P) :
    Option (Option A) × P :=
  if needed then
    match al.allocate call size pool with
    | (some a, pool) => (some (some a), pool)
    | (none, pool) => (none, pool)
  else (some none, pool)

/-- How the loop over the buffers in `xrp_enqueue_command` ends. -/
inductive Fill (A : Type) : Type
  | mapped
  | noMemory
  | filled (userBufferAllocation : List (Option A)) (bufferPtr : List (DspBuffer A))

/-- The result of the loop with one more buffer before the others. -/
def Fill.cons (shadow : Option A) (d : DspBuffer A) : Fill A → Fill A
  | mapped => mapped
  | noMemory => noMemory
  | filled shadows ds => filled (shadow :: shadows) (d :: ds)

/-- The loop over the buffers in `xrp_enqueue_command`, from index `i` on. -/
def fillBuffers (buffers : ℕ → Buffer A) : ℕ → List Record → P → Fill A × P
  | _, [], pool => (.filled [] [], pool)
  | i, r :: records, pool =>
    let b := buffers r.buffer
    if b.mapCount > 0 then (.mapped, pool)
    else
      match b.place with
      | .device a =>
        let (fill, pool) := fillBuffers buffers (i + 1) records pool
        (fill.cons none ⟨r.accessFlags, b.size.setWidth 32, a⟩, pool)
      | .host =>
        match al.allocate (3 + i) (b.size.setWidth 32) pool with
        | (none, pool) => (.noMemory, pool)
        | (some a, pool) =>
          let (fill, pool) := fillBuffers buffers (i + 1) records pool
          (fill.cons (some a) ⟨r.accessFlags, b.size.setWidth 32, a⟩, pool)

/-- The arguments of `xrp_enqueue_command`: the sizes of the data, the group, and whether there is
a place for an event. -/
structure Args : Type where
  inDataSize : ULong
  outDataSize : ULong
  group : Option ℕ
  event : Bool

namespace State

variable (s : State P A)

/-- `xrp_retain_buffer_group` for a new request. -/
def retainForRequest (group : Option ℕ) : State P A :=
  { s with
    issued := s.issued + 1
    groups :=
      match group with
      | none => s.groups
      | some g =>
        Function.update s.groups g
          { s.groups g with refs := (s.groups g).refs.retain (.request s.issued) } }

/-- The mutex of the group is taken. -/
def lock (group : Option ℕ) : State P A :=
  { s with
    groups :=
      match group with
      | none => s.groups
      | some g => Function.update s.groups g { s.groups g with locked := true } }

/-- Somebody has the mutex of the group. -/
def Locked (group : Option ℕ) : Prop := ∃ g ∈ group, (s.groups g).locked = true

instance (group : Option ℕ) : Decidable (s.Locked group) :=
  match group with
  | none => isFalse (by simp [Locked])
  | some g => decidable_of_iff ((s.groups g).locked = true) (by simp [Locked])

/-- The records of the group; there are none without a group. -/
def records (group : Option ℕ) : List Record :=
  match group with
  | none => []
  | some g => (s.groups g).records

@[simp] theorem retainForRequest_records (group : Option ℕ) :
    (s.retainForRequest group).records group = s.records group := by
  cases group with
  | none => rfl
  | some g => simp [records, retainForRequest]

end State

/-- `xrp_enqueue_command`; `eventAllocated` tells if there is memory for the event, and `stale` is
what the member `event` of the new request contains. `none` means that the call waits for the mutex
of the group. -/
def xrpEnqueueCommand (eventAllocated : Bool) (stale : Option ℕ) (args : Args) (s : State P A) :
    Option (XrpStatus × State P A) :=
  let number := s.issued
  let s := s.retainForRequest args.group
  match allocateIf al (args.inDataSize.toNat > inlineDataSize) 0 (args.inDataSize.setWidth 32)
    s.pool with
  | (none, pool) => some (.failure, { s with pool := pool })
  | (some inData, pool) =>
  match allocateIf al (args.outDataSize.toNat > inlineDataSize) 1 (args.outDataSize.setWidth 32)
    pool with
  | (none, pool) => some (.failure, { s with pool := pool })
  | (some outData, pool) =>
  if s.Locked args.group then none
  else
    let records := s.records args.group
    match allocateIf al (records.length > inlineBufferCount) 2
      (.ofNat 32 (records.length * sizeofDspBuffer)) pool with
    | (none, pool) => some (.failure, { s with pool := pool })
    | (some table, pool) =>
    match fillBuffers al s.buffers 0 records pool with
    | (.mapped, pool) => some (.failure, { s with pool := pool })
    -- this exit does not unlock the group
    | (.noMemory, pool) => some (.failure, { s.lock args.group with pool := pool })
    | (.filled shadows ptrs, pool) =>
      if args.event && !eventAllocated then some (.failure, { s with pool := pool })
      else
        -- the device is not `NULL`, so that `xrp_retain_device` succeeds
        some (.success,
          { s with
            pool := pool
            events := if args.event then Function.update s.events number .created else s.events
            deviceRefs := if args.event then s.deviceRefs + 1 else s.deviceRefs
            -- the member `event` is stored only if there is a place for an event
            queue := s.queue ++
              [⟨number, args.group, if args.event then some number else stale, records, inData,
                outData, table, shadows, ptrs⟩] })

/-! ## Releasing -/

/-- `xrp_release_buffer`. -/
def xrpReleaseBuffer (t : BufferRef) (b : ℕ) (s : State P A) : State P A :=
  let buffer := s.buffers b
  let pool :=
    if buffer.refs.count = 1 then
      match buffer.place with
      | .device a => al.free (some a) s.pool
      | .host => s.pool
    else s.pool
  { s with
    pool := pool
    buffers := Function.update s.buffers b { buffer with refs := buffer.refs.release t } }

/-- The loop of `xrp_release_buffer_group`, from index `i` on. -/
def releaseRecords (g : ℕ) : ℕ → List Record → State P A → State P A
  | _, [], s => s
  | i, r :: records, s =>
    releaseRecords g (i + 1) records (xrpReleaseBuffer al (.slot g i) r.buffer s)

/-- `release_refcounted(group)`. -/
def State.dropGroup (t : GroupRef) (g : ℕ) (s : State P A) : State P A :=
  { s with
    groups := Function.update s.groups g
      { s.groups g with refs := (s.groups g).refs.release t } }

/-- `xrp_release_buffer_group`; `none` means that it waits for the mutex. -/
def xrpReleaseBufferGroup (t : GroupRef) (g : ℕ) (s : State P A) : Option (State P A) :=
  if (s.groups g).refs.count = 1 then
    if (s.groups g).locked then none
    else some ((releaseRecords al g 0 (s.groups g).records s).dropGroup t g)
  else some (s.dropGroup t g)

/-- `xrp_release_event`. -/
def xrpReleaseEvent (t : EventRef) (n : ℕ) (s : State P A) : State P A :=
  let event := s.events n
  { s with
    deviceRefs := if event.refs.count = 1 then s.deviceRefs - 1 else s.deviceRefs
    events := Function.update s.events n { event with refs := event.refs.release t } }

/-! ## Clients -/

/-- `xrp_create_buffer`, for a client that names its reference; `none` if the number is in use. -/
def xrpCreateBuffer (b k : ℕ) (device : Bool) (size : ULong) (s : State P A) :
    Option (State P A) :=
  if (s.buffers b).refs.count ≠ 0 then none
  else if device then
    match al.allocate 0 (size.setWidth 32) s.pool with
    | (none, pool) => some { s with pool := pool }
    | (some a, pool) =>
      some { s with
        pool := pool
        buffers := Function.update s.buffers b ⟨.device a, size, 0, .alloc (.handle k)⟩ }
  else
    some { s with
      buffers := Function.update s.buffers b ⟨.host, size, 0, .alloc (.handle k)⟩ }

/-- `xrp_create_buffer_group`. -/
def xrpCreateBufferGroup (g k : ℕ) (s : State P A) : Option (State P A) :=
  if (s.groups g).refs.count ≠ 0 then none
  else some { s with groups := Function.update s.groups g ⟨.alloc (.handle k), false, []⟩ }

/-- `xrp_retain_buffer`. -/
def xrpRetainBuffer (t : BufferRef) (b : ℕ) (s : State P A) : State P A :=
  { s with
    buffers := Function.update s.buffers b
      { s.buffers b with refs := (s.buffers b).refs.retain t } }

/-- `xrp_retain_buffer_group`. -/
def xrpRetainBufferGroup (t : GroupRef) (g : ℕ) (s : State P A) : State P A :=
  { s with
    groups := Function.update s.groups g { s.groups g with refs := (s.groups g).refs.retain t } }

/-- `xrp_retain_event`. -/
def xrpRetainEvent (t : EventRef) (n : ℕ) (s : State P A) : State P A :=
  { s with
    events := Function.update s.events n
      { s.events n with refs := (s.events n).refs.retain t } }

/-- The records of a group are replaced. -/
def State.setRecords (g : ℕ) (records : List Record) (s : State P A) : State P A :=
  { s with groups := Function.update s.groups g { s.groups g with records := records } }

@[simp] theorem State.setRecords_buffers (g : ℕ) (records : List Record) (s : State P A) :
    (s.setRecords g records).buffers = s.buffers := rfl

/-- `xrp_add_buffer_to_group`; `resized` tells if `realloc` succeeds where it is called. -/
def xrpAddBufferToGroup (resized : Bool) (g b : ℕ) (accessFlags : U32) (s : State P A) :
    Option (State P A) :=
  if (s.groups g).locked then none
  else if resized then
    let records := (s.groups g).records
    some ((xrpRetainBuffer (.slot g records.length) b s).setRecords g
      (records ++ [⟨b, accessFlags⟩]))
  else some s

/-- The reference that a call of `xrp_set_buffer_in_group` took is that of the record now. -/
def State.keepReference (g i b : ℕ) (s : State P A) : State P A :=
  { s with
    buffers := Function.update s.buffers b
      { s.buffers b with refs := (s.buffers b).refs.transfer .call (.slot g i) } }

/-- `xrp_set_buffer_in_group`. -/
def xrpSetBufferInGroup (g i b : ℕ) (accessFlags : U32) (s : State P A) : Option (State P A) :=
  if (s.groups g).locked then none
  else
    let s := xrpRetainBuffer .call b s
    match (s.groups g).records[i]? with
    | some old =>
      let s := s.setRecords g ((s.groups g).records.set i ⟨b, accessFlags⟩)
      some ((xrpReleaseBuffer al (.slot g i) old.buffer s).keepReference g i b)
    | none => some (xrpReleaseBuffer al .call b s)

/-! ## Completion -/

/-- An allocation of a request that was made only if it was needed. -/
def freeIf (a : Option A) (pool : P) : P :=
  match a with
  | some a => al.free (some a) pool
  | none => pool

/-- The loop over the buffers in `xrp_queue_process`, from index `i` on: `records` are those of the
group now, and `returned` the flags in the descriptors that the DSP left. -/
def completeBuffers (number : ℕ) (returned : ℕ → U32) (records : List Record) :
    ℕ → List (Option A) → State P A → State P A
  | _, [], s => s
  | i, shadow :: rest, s =>
    let b := (records.getD i ⟨0, 0⟩).buffer
    match (s.buffers b).place with
    | .device _ => completeBuffers number returned records (i + 1) rest s
    | .host =>
      completeBuffers number returned records (i + 1) rest
        { s with
          writeBacks :=
            if returned i &&& bufferFlagWrite ≠ 0 then s.writeBacks ++ [⟨number, i, b⟩]
            else s.writeBacks
          pool := al.free shadow s.pool }

/-- The status that an event gets, for the flags in the answer of the DSP. -/
def eventStatus (flags : U32) : XrpStatus :=
  if flags &&& responseDeliveryFail ≠ 0 then .failure else .success

/-- The group of a request is released, if it has one. -/
def releaseGroupOf (rq : Request A) (s : State P A) : Option (State P A) :=
  match rq.group with
  | none => some s
  | some g => xrpReleaseBufferGroup al (.request rq.number) g s

/-- The end of `xrp_queue_process`: the event is signalled and released. -/
def signalEvent (status : XrpStatus) (event : Option ℕ) (s : State P A) : State P A :=
  match event with
  | none => s
  | some n =>
    xrpReleaseEvent .request n
      { s with events := Function.update s.events n { s.events n with status := status } }

/-- `xrp_queue_process`, with the flags in the descriptors and in the answer that the DSP left;
`none` means that it waits for a request or for the mutex of the group. -/
def xrpQueueProcess (returned : ℕ → U32) (response : U32) (s : State P A) :
    Option (State P A) :=
  match s.queue with
  | [] => none
  | rq :: queue =>
    if s.Locked rq.group then none
    else
      let s := { s with
        queue := queue
        pool := freeIf al rq.outDataAllocation (freeIf al rq.inDataAllocation s.pool) }
      let s := completeBuffers al rq.number returned (s.records rq.group) 0
        rq.userBufferAllocation s
      let s := { s with pool := freeIf al rq.bufferAllocation s.pool }
      (releaseGroupOf al rq s).map (signalEvent (eventStatus response) rq.event)

/-! ## What a call of `xrp_enqueue_command` does -/

/-- The allocations of a request, in the order in which they are freed. -/
def Request.allocations (rq : Request A) : List A :=
  rq.inDataAllocation.toList ++ rq.outDataAllocation.toList ++
    rq.userBufferAllocation.reduceOption ++ rq.bufferAllocation.toList

/-- The second pool is the first after calls of `xrp_allocate` that gave the allocations. -/
inductive Allocates : P → List A → P → Prop
  | refl (pool : P) : Allocates pool [] pool
  | call {pool pool' : P} {as : List A} (call : ℕ) (size : U32) :
    Allocates pool as pool' →
    Allocates pool (as ++ (al.allocate call size pool').1.toList) (al.allocate call size pool').2

/-- The shadows and descriptors that `xrp_enqueue_command` makes for the records. -/
inductive FilledBy (buffers : ℕ → Buffer A) :
    List Record → List (Option A) → List (DspBuffer A) → Prop
  | nil : FilledBy buffers [] [] []
  | device {r : Record} {a : A} {d : DspBuffer A} {records : List Record}
      {shadows : List (Option A)} {ds : List (DspBuffer A)} :
    (buffers r.buffer).place = .device a → d.addr = a → FilledBy buffers records shadows ds →
    FilledBy buffers (r :: records) (none :: shadows) (d :: ds)
  | host {r : Record} {a : A} {d : DspBuffer A} {records : List Record}
      {shadows : List (Option A)} {ds : List (DspBuffer A)} :
    (buffers r.buffer).place = .host → d.addr = a → FilledBy buffers records shadows ds →
    FilledBy buffers (r :: records) (some a :: shadows) (d :: ds)

section Enqueue

variable {al} {pool pool' pool'' : P} {as bs : List A}

theorem Allocates.trans (first : Allocates al pool as pool')
    (second : Allocates al pool' bs pool'') : Allocates al pool (as ++ bs) pool'' := by
  induction second with
  | refl => simpa using first
  | call call size _ ih =>
    rw [← List.append_assoc]
    exact .call call size ih

theorem Allocates.of_eq {call : ℕ} {size : U32} {a : Option A}
    (result : al.allocate call size pool = (a, pool')) : Allocates al pool a.toList pool' := by
  have once : Allocates al pool ([] ++ (al.allocate call size pool).1.toList) _ :=
    .call call size (.refl pool)
  rw [result] at once
  exact once

theorem Allocates.of_allocateIf {needed : Prop} [Decidable needed] {call : ℕ} {size : U32}
    {a : Option (Option A)} (result : allocateIf al needed call size pool = (a, pool')) :
    Allocates al pool a.join.toList pool' := by
  unfold allocateIf at result
  split_ifs at result
  · split at result
    · next made =>
      cases result
      exact .of_eq made
    · next made =>
      cases result
      exact .of_eq made
  · cases result
    exact .refl pool

theorem Fill.cons_eq_filled {shadow : Option A} {d : DspBuffer A} {fill : Fill A}
    {shadows : List (Option A)} {ds : List (DspBuffer A)}
    (result : fill.cons shadow d = .filled shadows ds) :
    ∃ shadows' ds', fill = .filled shadows' ds' ∧ shadows = shadow :: shadows' ∧ ds = d :: ds' := by
  cases fill with
  | mapped => cases result
  | noMemory => cases result
  | filled shadows' ds' =>
    cases result
    exact ⟨shadows', ds', rfl, rfl, rfl⟩

theorem fillBuffers_spec {buffers : ℕ → Buffer A} {i : ℕ} {records : List Record} {fill : Fill A}
    (result : fillBuffers al buffers i records pool = (fill, pool')) :
    ∃ as, Allocates al pool as pool' ∧ ∀ shadows ds, fill = .filled shadows ds →
      FilledBy buffers records shadows ds ∧ as = shadows.reduceOption := by
  induction records generalizing i pool pool' fill with
  | nil =>
    cases result
    refine ⟨[], .refl pool, ?_⟩
    intro shadows ds filled
    cases filled
    exact ⟨.nil, rfl⟩
  | cons r records ih =>
    unfold fillBuffers at result
    dsimp only at result
    split at result
    · cases result
      exact ⟨[], .refl pool, nofun⟩
    · split at result
      · next a place =>
        cases result
        obtain ⟨as, allocates, rest⟩ := ih rfl
        refine ⟨as, allocates, ?_⟩
        intro shadows ds filled
        obtain ⟨shadows', ds', inner, rfl, rfl⟩ := Fill.cons_eq_filled filled
        obtain ⟨filledBy, made⟩ := rest _ _ inner
        exact ⟨.device place rfl filledBy, made⟩
      · next place =>
        split at result
        · next refused =>
          cases result
          exact ⟨_, .of_eq refused, nofun⟩
        · next a _ made =>
          cases result
          obtain ⟨as, allocates, rest⟩ := ih rfl
          refine ⟨_, (Allocates.of_eq made).trans allocates, ?_⟩
          intro shadows ds filled
          obtain ⟨shadows', ds', inner, rfl, rfl⟩ := Fill.cons_eq_filled filled
          obtain ⟨filledBy, made⟩ := rest _ _ inner
          refine ⟨.host place rfl filledBy, ?_⟩
          rw [made]
          rfl

/-- A call of `xrp_enqueue_command` that returns has retained the group. If it fails it may have
allocated memory and have kept the mutex; if it succeeds the queue has a request more. -/
theorem xrpEnqueueCommand_cases {eventAllocated : Bool} {stale : Option ℕ} {args : Args}
    {s s' : State P A} {status : XrpStatus}
    (result : xrpEnqueueCommand al eventAllocated stale args s = some (status, s')) :
    (status = .failure ∧ ∃ as pool, Allocates al s.pool as pool ∧
      (s' = { s.retainForRequest args.group with pool := pool } ∨
        s' = { (s.retainForRequest args.group).lock args.group with pool := pool })) ∨
    (status = .success ∧ ∃ rq as pool refs, Allocates al s.pool as pool ∧
      as.Perm rq.allocations ∧ rq.number = s.issued ∧ rq.group = args.group ∧
      rq.event = (if args.event then some s.issued else stale) ∧
      rq.records = s.records args.group ∧
      FilledBy s.buffers rq.records rq.userBufferAllocation rq.bufferPtr ∧
      s' = { s.retainForRequest args.group with
        pool := pool
        events := if args.event then Function.update s.events s.issued .created else s.events
        deviceRefs := refs
        queue := s.queue ++ [rq] }) := by
  unfold xrpEnqueueCommand at result
  dsimp only at result
  rw [State.retainForRequest_records] at result
  split at result
  · next failed =>
    cases result
    exact .inl ⟨rfl, _, _, .of_allocateIf failed, .inl rfl⟩
  · next made =>
    have first := Allocates.of_allocateIf made
    split at result
    · next failed =>
      cases result
      exact .inl ⟨rfl, _, _, first.trans (.of_allocateIf failed), .inl rfl⟩
    · next made' =>
      have second := first.trans (.of_allocateIf made')
      split at result
      · cases result
      · split at result
        · next failed =>
          cases result
          exact .inl ⟨rfl, _, _, second.trans (.of_allocateIf failed), .inl rfl⟩
        · next made'' =>
          have third := second.trans (.of_allocateIf made'')
          split at result
          · next filled =>
            cases result
            obtain ⟨as, fourth, _⟩ := fillBuffers_spec filled
            exact .inl ⟨rfl, _, _, third.trans fourth, .inl rfl⟩
          · next filled =>
            cases result
            obtain ⟨as, fourth, _⟩ := fillBuffers_spec filled
            exact .inl ⟨rfl, _, _, third.trans fourth, .inr rfl⟩
          · next filled =>
            obtain ⟨as, fourth, filledBy⟩ := fillBuffers_spec filled
            split at result
            · cases result
              exact .inl ⟨rfl, _, _, third.trans fourth, .inl rfl⟩
            · cases result
              obtain ⟨by_records, rfl⟩ := filledBy _ _ rfl
              refine .inr ⟨rfl, _, _, _, _, third.trans fourth, ?_, rfl, rfl, rfl, rfl, ?_, rfl⟩
              · -- the table is allocated before the shadows and freed after them
                unfold Request.allocations
                rw [List.append_assoc, List.append_assoc (_ ++ _)]
                exact List.perm_append_comm.append_left _
              · exact by_records

end Enqueue

end Calls

end Xrp.Sim.Api
