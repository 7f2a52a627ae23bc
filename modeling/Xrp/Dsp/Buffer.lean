import Xrp.Dsp.Namespace

/-!
# Buffers and command handlers of the DSP

The buffer part of the DSP side API, and what a command handler can do with
what it is given: its input and output data, the buffers of its group, and the
memory of the DSP. A handler is a program over these operations, so it has no
way to touch any other word of the comm area.
-/

namespace Xrp.Dsp

/-- `XRP_READ`. -/
def xrpRead : U32 := 1

/-- `XRP_WRITE`. -/
def xrpWrite : U32 := 2

/-- `XRP_READ_WRITE`. -/
def xrpReadWrite : U32 := 3

/-- `struct xrp_buffer`. -/
structure XrpBuffer : Type where
  refCount : U32
  ptr : U32
  size : U32
  mapCount : U32
  allowedAccess : U32
  mapFlags : U32
  deriving DecidableEq

/-- `dsp_buffer_allowed_access`. -/
def dspBufferAllowedAccess (flags : U32) : U32 :=
  if flags = bufferFlagRead then xrpRead else xrpReadWrite

/-- A buffer as `process_command` makes it from a descriptor. -/
def XrpBuffer.ofDescriptor (d : XrpDspBuffer) : XrpBuffer :=
  ⟨0, d.addr, d.size, 0, dspBufferAllowedAccess d.flags, 0⟩

/-- `xrp_retain_buffer`. -/
def xrpRetainBuffer (buffer : XrpBuffer) : XrpStatus × XrpBuffer :=
  (.success, { buffer with refCount := buffer.refCount + 1 })

/-- `xrp_release_buffer`. -/
def xrpReleaseBuffer (buffer : XrpBuffer) : XrpStatus × XrpBuffer :=
  (if buffer.refCount > 0 then .success else .failure,
    { buffer with refCount := buffer.refCount - 1 })

/-- `xrp_map_buffer`; `none` is `NULL`. -/
def xrpMapBuffer (buffer : XrpBuffer) (offset size mapFlags : U32) : Option U32 × XrpBuffer :=
  if offset ≤ buffer.size ∧ size ≤ buffer.size - offset ∧
      buffer.allowedAccess &&& mapFlags = mapFlags then
    (some (buffer.ptr + offset),
      { buffer with
        refCount := buffer.refCount + 1
        mapCount := buffer.mapCount + 1
        mapFlags := buffer.mapFlags ||| mapFlags })
  else (none, buffer)

/-- `xrp_unmap_buffer`. -/
def xrpUnmapBuffer (buffer : XrpBuffer) (p : U32) : XrpStatus × XrpBuffer :=
  if buffer.ptr ≤ p ∧ p - buffer.ptr ≤ buffer.size then
    (.success,
      { buffer with refCount := buffer.refCount - 1, mapCount := buffer.mapCount - 1 })
  else (.failure, buffer)

/-! ## Calls on a buffer group -/

/-- The API calls a handler can make on its group of `n` buffers. -/
inductive ApiCall (n : ℕ) : Type
  | getBufferFromGroup (idx : U32)
  | retainBuffer (b : Fin n)
  | releaseBuffer (b : Fin n)
  | mapBuffer (b : Fin n) (offset size mapFlags : U32)
  | unmapBuffer (b : Fin n) (p : U32)
  | bufferSize (b : Fin n)
  | bufferFlags (b : Fin n)

/-- What a call returns. -/
@[reducible] def ApiCall.Answer {n : ℕ} : ApiCall n → Type
  | getBufferFromGroup _ => Option (Fin n)
  | retainBuffer _ => XrpStatus
  | releaseBuffer _ => XrpStatus
  | mapBuffer _ _ _ _ => Option U32
  | unmapBuffer _ _ => XrpStatus
  | bufferSize _ => U32
  | bufferFlags _ => U32

/-- A call that works on one buffer. -/
def onBuffer {n : ℕ} {α : Type} (group : Fin n → XrpBuffer) (b : Fin n)
    (f : XrpBuffer → α × XrpBuffer) : α × (Fin n → XrpBuffer) :=
  ((f (group b)).1, Function.update group b (f (group b)).2)

/-- What a call does. -/
def ApiCall.act {n : ℕ} : (c : ApiCall n) → (Fin n → XrpBuffer) → c.Answer × (Fin n → XrpBuffer)
  | getBufferFromGroup idx, group =>
    if h : idx.toNat < n then (some ⟨_, h⟩, (onBuffer group ⟨_, h⟩ xrpRetainBuffer).2)
    else (none, group)
  | retainBuffer b, group => onBuffer group b xrpRetainBuffer
  | releaseBuffer b, group => onBuffer group b xrpReleaseBuffer
  | mapBuffer b offset size mapFlags, group =>
    onBuffer group b (xrpMapBuffer · offset size mapFlags)
  | unmapBuffer b p, group => onBuffer group b (xrpUnmapBuffer · p)
  | bufferSize b, group => ((group b).size, group)
  | bufferFlags b, group => ((group b).allowedAccess, group)

/-! ## Handlers -/

/-- What a handler can do: `nIn` words of input data and `nOut` words of output data are in
the comm area, `n` buffers in its group. -/
inductive HandlerOp (nIn nOut n : ℕ) : Type
  | readIn (i : Fin nIn)
  | readOut (i : Fin nOut)
  | writeOut (i : Fin nOut) (v : U32)
  | load (a : U32)
  | store (a : U32) (v : U8)
  | api (c : ApiCall n)

/-- What the operation answers. -/
@[reducible] def HandlerOp.Answer {nIn nOut n : ℕ} : HandlerOp nIn nOut n → Type
  | readIn _ => U32
  | readOut _ => U32
  | writeOut _ _ => Unit
  | load _ => U8
  | store _ _ => Unit
  | api c => c.Answer

/-- A command handler. -/
abbrev Handler (nIn nOut n : ℕ) :=
  Program (HandlerOp nIn nOut n) HandlerOp.Answer XrpStatus

/-- The arguments of a command handler; data without an address is in the comm area. -/
structure HandlerArgs : Type where
  inDataAddr : Option U32
  inDataSize : U32
  outDataAddr : Option U32
  outDataSize : U32
  nBuffers : ℕ
  deriving DecidableEq

namespace HandlerArgs

/-- The words of inline data of the given size. -/
def inlineWords (addr : Option U32) (size : U32) : ℕ :=
  if addr.isNone then (size.toNat + 3) / 4 else 0

/-- The words of input data in the comm area. -/
def inWords (args : HandlerArgs) : ℕ := inlineWords args.inDataAddr args.inDataSize

/-- The words of output data in the comm area. -/
def outWords (args : HandlerArgs) : ℕ := inlineWords args.outDataAddr args.outDataSize

end HandlerArgs

/-- The handlers of a program: by the function pointer and context in the table, or
`xrp_run_command_handler` for commands without namespace. -/
abbrev Handlers :=
  Option (ℕ × ℕ) → (args : HandlerArgs) → Handler args.inWords args.outWords args.nBuffers

end Xrp.Dsp
