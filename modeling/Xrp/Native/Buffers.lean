import Xrp.Base.Ledger
import Xrp.Dsp.Namespace

/-!
# Buffers and buffer groups of the native library

The calls of `xrp_linux_native.c` on devices, buffers and buffer groups, one after another, and
what a client knows of the references it has. `calloc`, `realloc`, `open` and `XRP_IOCTL_ALLOC`
may fail; `XRP_IOCTL_FREE` and `close` succeed. Objects are numbered in the order in which they
are made. The counts are natural numbers where the source has `unsigned long`; that words of any
width hold them, unless there are as many calls as words, is part of what is proved of runs.
-/

namespace Xrp.Native.Api

open Dsp (XrpStatus)

/-! ## Objects -/

/-- The objects with a reference count. -/
inductive Object : Type
  | device (d : ℕ)
  | buffer (b : ℕ)
  | group (g : ℕ)
  deriving DecidableEq

/-- What is done when an object comes to its end. -/
inductive Event : Type
  /-- `free` of the object. -/
  | free (o : Object)
  /-- `XRP_IOCTL_FREE` of the memory of a buffer. -/
  | ioctlFree (b : ℕ)
  /-- `close` of the file of a device. -/
  | close (d : ℕ)
  /-- `free` of the records of a group. -/
  | freeRecords (g : ℕ)
  deriving DecidableEq

/-- The type of a buffer, with its device. -/
inductive BufferType : Type
  | host
  | device (d : ℕ)
  deriving DecidableEq

/-- `struct xrp_buffer`, without its reference count. -/
structure Buffer : Type where
  type : BufferType
  ptr : ULong
  size : ULong
  mapCount : ℕ
  mapFlags : U32

/-- `struct xrp_buffer_group_record`. -/
structure Record : Type where
  buffer : ℕ
  accessFlags : U32
  deriving DecidableEq

/-- `struct xrp_buffer_group`, without its reference count; `buffer` is what is in memory from
the pointer on, also past the capacity. -/
structure Group : Type where
  nBuffers : ℕ
  capacity : ℕ
  buffer : ℕ → Record

/-- The records that a group has. -/
def Group.slots (g : Group) : List Record := (List.range g.nBuffers).map g.buffer

/-- The state of the library. -/
structure Library : Type where
  ledger : Ledger Object Event
  buffers : ℕ → Buffer
  groups : ℕ → Group
  nextDevice : ℕ
  nextBuffer : ℕ
  nextGroup : ℕ

/-- A buffer in zeroed memory. -/
def Buffer.zero : Buffer := ⟨.host, 0, 0, 0, 0⟩

/-- A group in zeroed memory; the pointer to its records points nowhere. -/
def Group.zero : Group := ⟨0, 0, fun _ => ⟨0, 0⟩⟩

/-- The library before any call. -/
def Library.init : Library := ⟨.empty, fun _ => .zero, fun _ => .zero, 0, 0, 0⟩

/-! ## Helpers -/

/-- `retain_refcounted`. -/
def retainRefcounted (o : Option Object) (l : Ledger Object Event) :
    XrpStatus × Ledger Object Event :=
  match o with
  | none => (.failure, l)
  | some o => (.success, l.retain o)

/-- `release_refcounted`. -/
def releaseRefcounted (o : Option Object) (l : Ledger Object Event) :
    XrpStatus × Ledger Object Event :=
  match o with
  | none => (.failure, l)
  | some o =>
    let l : Ledger Object Event := { l with count := Function.update l.count o (l.count o - 1) }
    (.success, if l.count o = 0 then l.emit (.free o) else l)

/-- `last_refcount`. -/
def lastRefcount (o : Object) (l : Ledger Object Event) : Bool := l.count o == 1

/-! ## Devices -/

/-- `xrp_open_device`; `opened` and `allocated` tell if `open` and `calloc` succeed. -/
def xrpOpenDevice (opened allocated : Bool) (s : Library) : XrpStatus × Option ℕ × Library :=
  if !opened then (.failure, none, s)
  else if !allocated then (.failure, none, s)
  else
    (.success, some s.nextDevice,
      { s with ledger := s.ledger.alloc (.device s.nextDevice), nextDevice := s.nextDevice + 1 })

/-- `xrp_retain_device`. -/
def xrpRetainDevice (d : Option ℕ) (l : Ledger Object Event) : XrpStatus × Ledger Object Event :=
  retainRefcounted (d.map .device) l

/-- `xrp_release_device`. -/
def xrpReleaseDevice (d : ℕ) (l : Ledger Object Event) : XrpStatus × Ledger Object Event :=
  releaseRefcounted (some (.device d))
    (if lastRefcount (.device d) l then l.emit (.close d) else l)

/-! ## Buffers -/

/-- `alloc_refcounted` for a buffer. -/
def Library.allocBuffer (s : Library) : Library :=
  { s with
    ledger := s.ledger.alloc (.buffer s.nextBuffer)
    buffers := Function.update s.buffers s.nextBuffer .zero
    nextBuffer := s.nextBuffer + 1 }

/-- The contents of a buffer are written. -/
def Library.setBuffer (s : Library) (b : ℕ) (buffer : Buffer) : Library :=
  { s with buffers := Function.update s.buffers b buffer }

/-- `xrp_create_buffer`; `allocated` tells if `calloc` succeeds, and `memory` is what
`XRP_IOCTL_ALLOC` returns. -/
def xrpCreateBuffer (allocated : Bool) (memory : Option ULong) (device : Option ℕ) (size : ULong)
    (hostPtr : Option ULong) (s : Library) : XrpStatus × Option ℕ × Library :=
  let b := s.nextBuffer
  match hostPtr, device with
  | none, none => (.failure, none, s)
  | some ptr, _ =>
    if !allocated then (.failure, none, s)
    else
      (.success, some b, s.allocBuffer.setBuffer b ⟨.host, ptr, size, 0, 0⟩)
  | none, some d =>
    if !allocated then (.failure, none, s)
    else
      let s := s.allocBuffer
      let l := (xrpRetainDevice (some d) s.ledger).2
      match memory with
      | none =>
        let l := (xrpReleaseDevice d l).2
        (.failure, none, { s with ledger := (releaseRefcounted (some (.buffer b)) l).2 })
      | some ptr =>
        (.success, some b, { s with ledger := l }.setBuffer b ⟨.device d, ptr, size, 0, 0⟩)

/-- `xrp_retain_buffer`. -/
def xrpRetainBuffer (b : Option ℕ) (s : Library) : XrpStatus × Library :=
  let (status, l) := retainRefcounted (b.map .buffer) s.ledger
  (status, { s with ledger := l })

/-- `xrp_release_buffer`. -/
def xrpReleaseBuffer (b : ℕ) (s : Library) : XrpStatus × Library :=
  let l :=
    if lastRefcount (.buffer b) s.ledger then
      match (s.buffers b).type with
      | .device d => (xrpReleaseDevice d (s.ledger.emit (.ioctlFree b))).2
      | .host => s.ledger
    else s.ledger
  let (status, l) := releaseRefcounted (some (.buffer b)) l
  (status, { s with ledger := l })

/-- `map_count` of a buffer is changed, and `map_flags` may be. -/
def Library.setMap (s : Library) (b mapCount : ℕ) (mapFlags : U32) : Library :=
  s.setBuffer b { s.buffers b with mapCount := mapCount, mapFlags := mapFlags }

/-- `xrp_map_buffer`. -/
def xrpMapBuffer (b : ℕ) (offset size : ULong) (mapFlags : U32) (s : Library) :
    XrpStatus × Option ULong × Library :=
  let buffer := s.buffers b
  if offset ≤ buffer.size ∧ size ≤ buffer.size - offset then
    let l := (retainRefcounted (some (.buffer b)) s.ledger).2
    (.success, some (buffer.ptr + offset),
      { s with ledger := l }.setMap b (buffer.mapCount + 1) (buffer.mapFlags ||| mapFlags))
  else (.failure, none, s)

/-- The test of `xrp_unmap_buffer`. -/
def Buffer.Contains (buffer : Buffer) (p : ULong) : Prop :=
  buffer.ptr ≤ p ∧ p - buffer.ptr ≤ buffer.size

instance (buffer : Buffer) (p : ULong) : Decidable (buffer.Contains p) :=
  inferInstanceAs (Decidable (_ ∧ _))

/-- `xrp_unmap_buffer`. -/
def xrpUnmapBuffer (b : ℕ) (p : ULong) (s : Library) : XrpStatus × Library :=
  let buffer := s.buffers b
  if buffer.Contains p then
    xrpReleaseBuffer b (s.setMap b (buffer.mapCount - 1) buffer.mapFlags)
  else (.failure, s)

/-! ## Buffer groups -/

/-- `xrp_create_buffer_group`. -/
def xrpCreateBufferGroup (allocated : Bool) (s : Library) : XrpStatus × Option ℕ × Library :=
  if allocated then
    (.success, some s.nextGroup,
      { s with
        ledger := s.ledger.alloc (.group s.nextGroup)
        groups := Function.update s.groups s.nextGroup .zero
        nextGroup := s.nextGroup + 1 })
  else (.failure, none, s)

/-- `xrp_retain_buffer_group`. -/
def xrpRetainBufferGroup (g : Option ℕ) (s : Library) : XrpStatus × Library :=
  let (status, l) := retainRefcounted (g.map .group) s.ledger
  (status, { s with ledger := l })

/-- The loop of `xrp_release_buffer_group`. -/
def releaseRecords (records : List Record) (s : Library) : Library :=
  records.foldl (fun s r => (xrpReleaseBuffer r.buffer s).2) s

/-- `xrp_release_buffer_group`. -/
def xrpReleaseBufferGroup (g : ℕ) (s : Library) : XrpStatus × Library :=
  let s :=
    if lastRefcount (.group g) s.ledger then
      let s := releaseRecords (s.groups g).slots s
      { s with ledger := s.ledger.emit (.freeRecords g) }
    else s
  let (status, l) := releaseRefcounted (some (.group g)) s.ledger
  (status, { s with ledger := l })

/-- Room for one more record; `resized` is what `realloc` returns where it is called: the memory
after the old records, which is arbitrary. -/
def Group.grow (group : Group) (resized : Option (ℕ → Record)) : Option Group :=
  if group.nBuffers = group.capacity then
    resized.map fun memory =>
      { group with
        capacity := (group.capacity + 2) * 2
        buffer := fun i => if i < group.capacity then group.buffer i else memory i }
  else some group

/-- The group is replaced. -/
def Library.setGroup (s : Library) (g : ℕ) (group : Group) : Library :=
  { s with groups := Function.update s.groups g group }

/-- `xrp_add_buffer_to_group`. -/
def xrpAddBufferToGroup (resized : Option (ℕ → Record)) (g : ℕ) (buffer : Option ℕ)
    (accessFlags : U32) (s : Library) : XrpStatus × Option ℕ × Library :=
  match (s.groups g).grow resized with
  | none => (.failure, none, s)
  | some group =>
    let s := s.setGroup g group
    match xrpRetainBuffer buffer s, buffer with
    | (.success, s), some b =>
      (.success, some group.nBuffers,
        s.setGroup g
          { group with
            buffer := Function.update group.buffer group.nBuffers ⟨b, accessFlags⟩
            nBuffers := group.nBuffers + 1 })
    | (_, s), _ => (.failure, none, s)

/-- `xrp_set_buffer_in_group`. -/
def xrpSetBufferInGroup (g index : ℕ) (buffer : Option ℕ) (accessFlags : U32) (s : Library) :
    XrpStatus × Library :=
  match xrpRetainBuffer buffer s, buffer with
  | (.success, s), some b =>
    let group := s.groups g
    if index < group.nBuffers then
      let old := (group.buffer index).buffer
      let s := s.setGroup g
        { group with buffer := Function.update group.buffer index ⟨b, accessFlags⟩ }
      (.success, (xrpReleaseBuffer old s).2)
    else (.failure, (xrpReleaseBuffer b s).2)
  | (_, s), _ => (.failure, s)

/-- `xrp_get_buffer_from_group`. -/
def xrpGetBufferFromGroup (g index : ℕ) (s : Library) : XrpStatus × Option ℕ × Library :=
  let group := s.groups g
  if index < group.nBuffers then
    let b := (group.buffer index).buffer
    let (status, s) := xrpRetainBuffer (some b) s
    (status, some b, s)
  else (.failure, none, s)

end Xrp.Native.Api
