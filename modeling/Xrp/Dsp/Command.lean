import Xrp.Dsp.Buffer

/-!
# Command processing on the DSP

`process_command` and `xrp_device_dispatch` of `xrp_dsp.c`, as programs. The
comm area is accessed in words, other memory in bytes. That a command is entered
and that a handler is invoked are operations of their own, so that a run shows
them. Cache maintenance is left out; reads of the comm area made for it are not.
-/

namespace Xrp.Dsp

/-- `MAX_STACK_BUFFERS`. -/
def maxStackBuffers : ℕ := 16

/-- What the DSP does in a command. -/
inductive DspOp : Type
  | comm (o : CommOp)
  | load (a : U32)
  | store (a : U32) (v : U8)
  | malloc
  | enter
  | invoke (handler : Option (ℕ × ℕ))

/-- What the operation answers; for `malloc` whether it succeeds. -/
@[reducible] def DspOp.Answer : DspOp → Type
  | comm o => o.Answer
  | load _ => U8
  | store _ _ => Unit
  | malloc => Bool
  | enter => Unit
  | invoke _ => Unit

/-- Programs of the DSP. -/
abbrev DspProgram := Program DspOp DspOp.Answer

/-- A read of the comm area. -/
def commRead (w : ℕ) : DspProgram U32 := .perform (DspOp.comm (.read w))

/-- A write of the comm area. -/
def commWrite (w : ℕ) (v : U32) : DspProgram Unit := .perform (DspOp.comm (.write w v))

/-- A read of a word of DSP memory. -/
def load32 (order : ByteOrder) (a : U32) : DspProgram U32 := do
  let b₀ ← .perform (DspOp.load a)
  let b₁ ← .perform (DspOp.load (a + 1))
  let b₂ ← .perform (DspOp.load (a + 2))
  let b₃ ← .perform (DspOp.load (a + 3))
  pure (order.word ![b₀, b₁, b₂, b₃])

/-- A write of a word of DSP memory. -/
def store32 (order : ByteOrder) (a v : U32) : DspProgram Unit := do
  .perform (DspOp.store a (order.byte v 0))
  .perform (DspOp.store (a + 1) (order.byte v 1))
  .perform (DspOp.store (a + 2) (order.byte v 2))
  .perform (DspOp.store (a + 3) (order.byte v 3))

/-! ## Choosing the handler -/

/-- The bytes of an identifier in four words. -/
def nsidBytes (order : ByteOrder) (w : Fin 4 → U32) : Nsid :=
  fun i => order.byte (w ⟨i / 4, by omega⟩) ⟨i % 4, by omega⟩

/-- The bytes of `dsp_cmd->nsid`. -/
def readNsid (order : ByteOrder) : DspProgram Nsid := do
  let w₀ ← commRead DspCmd.nsid
  let w₁ ← commRead (DspCmd.nsid + 1)
  let w₂ ← commRead (DspCmd.nsid + 2)
  let w₃ ← commRead (DspCmd.nsid + 3)
  pure (nsidBytes order ![w₀, w₁, w₂, w₃])

/-- `compare_cmd_ns` of `dsp_cmd->nsid`. -/
def compareCommNsid (order : ByteOrder) (cmdNs : XrpCmdNs) : DspProgram Ordering := do
  return compareCmdNs (← readNsid order) cmdNs

/-- What `process_command` does with the command: fail to deliver it, or call a handler. -/
inductive Delivery : Type
  | fail
  | call (handler : Option (ℕ × ℕ))

/-- The choice of `command_handler` in `process_command`. -/
def selectHandler (order : ByteOrder) (device : XrpDevice) : DspProgram Delivery := do
  let flags ← commRead DspCmd.flags
  if flags &&& requestNsid ≠ 0 then
    let p ← findCmdNs (compareCommNsid order) device
    if ← cmdNsMatch (compareCommNsid order) device p then
      pure (.call (some ((device.cmdNs p).handler, (device.cmdNs p).handlerContext)))
    else pure .fail
  else pure (.call none)

/-! ## The buffers -/

/-- The pointer `dsp_buffer`: the inline descriptor (`none`) or a table in DSP memory. -/
abbrev DspBufferPtr := Option U32

/-- The value of `dsp_buffer`. -/
def bufferTable (nBuffers : ℕ) : DspProgram DspBufferPtr :=
  if nBuffers > inlineBufferCount then some <$> commRead DspCmd.bufferData else pure none

/-- Whether there is memory for the `struct xrp_buffer`s. -/
def allocateBuffers (nBuffers : ℕ) : DspProgram Bool :=
  if nBuffers > maxStackBuffers then .perform DspOp.malloc else pure true

/-- Word `k` of `dsp_buffer[i]`. -/
def readDescriptor (order : ByteOrder) (dspBuffer : DspBufferPtr) (i k : ℕ) : DspProgram U32 :=
  match dspBuffer with
  | none => commRead (DspCmd.bufferData + (3 * i + k))
  | some base => load32 order (base + .ofNat 32 (12 * i + 4 * k))

/-- The first loop of `process_command`, for the buffers up to `n`. -/
def readBuffers (order : ByteOrder) (dspBuffer : DspBufferPtr) : ℕ → DspProgram (ℕ → XrpBuffer)
  | 0 => pure fun _ => .ofDescriptor ⟨0, 0, 0⟩
  | i + 1 => do
    let buffers ← readBuffers order dspBuffer i
    let flags ← readDescriptor order dspBuffer i 0
    let addr ← readDescriptor order dspBuffer i 2
    let size ← readDescriptor order dspBuffer i 1
    pure (Function.update buffers i (.ofDescriptor ⟨flags, size, addr⟩))

/-- The access that took place, as the flags of a descriptor. -/
def accessFlags (buffer : XrpBuffer) : U32 :=
  (if buffer.mapFlags &&& xrpRead ≠ 0 then bufferFlagRead else 0) |||
    (if buffer.mapFlags &&& xrpWrite ≠ 0 then bufferFlagWrite else 0)

/-- The second loop of `process_command`, over the buffers up to `n`. -/
def writeAccessFlags (order : ByteOrder) (dspBuffer : DspBufferPtr) (buffers : ℕ → XrpBuffer) :
    ℕ → DspProgram Unit
  | 0 => pure ()
  | i + 1 => do
    writeAccessFlags order dspBuffer buffers i
    match dspBuffer with
    | none => commWrite (DspCmd.bufferData + 3 * i) (accessFlags (buffers i))
    | some base => store32 order (base + .ofNat 32 (12 * i)) (accessFlags (buffers i))

/-! ## Calling the handler -/

/-- A handler's operations on the DSP, with the state of its buffer group. -/
def runHandler {nIn nOut n : ℕ} :
    Handler nIn nOut n → (Fin n → XrpBuffer) → DspProgram (XrpStatus × (Fin n → XrpBuffer))
  | .ret status, group => .ret (status, group)
  | .ask (.readIn i) next, group =>
    .ask (.comm (.read (DspCmd.inData + i))) fun v => runHandler (next v) group
  | .ask (.readOut i) next, group =>
    .ask (.comm (.read (DspCmd.outData + i))) fun v => runHandler (next v) group
  | .ask (.writeOut i v) next, group =>
    .ask (.comm (.write (DspCmd.outData + i) v)) fun _ => runHandler (next ()) group
  | .ask (.load a) next, group => .ask (.load a) fun v => runHandler (next v) group
  | .ask (.store a v) next, group => .ask (.store a v) fun _ => runHandler (next ()) group
  | .ask (.api c) next, group => runHandler (next (c.act group).1) (c.act group).2

/-- `complete_request`. -/
def completeRequest (flags : U32) : DspProgram Unit :=
  commWrite DspCmd.flags (flags ||| responseValid)

/-- A pointer argument of the handler: an address if the data does not fit the comm area. -/
def readDataArg (sizeWord dataWord : ℕ) : DspProgram (Option U32) := do
  let size ← commRead sizeWord
  if size.toNat > inlineDataSize then return some (← commRead dataWord) else return none

/-- The reads for a cache operation on data that is not in the comm area. -/
def readCacheRange (sizeWord dataWord : ℕ) : DspProgram Unit := do
  if (← commRead sizeWord).toNat > inlineDataSize then
    let _ ← commRead dataWord
    let _ ← commRead sizeWord

/-- The flags after the handler returned. -/
def statusFlags (flags : U32) (status : XrpStatus) : U32 :=
  if status ≠ .success then flags ||| responseDeliveryFail else flags

/-- `process_command` from the call of the handler on. -/
def callHandler (order : ByteOrder) (handlers : Handlers) (flags : U32)
    (handler : Option (ℕ × ℕ)) (dspBuffer : DspBufferPtr) (nBuffers : ℕ)
    (buffers : ℕ → XrpBuffer) : DspProgram XrpStatus := do
  let inDataAddr ← readDataArg DspCmd.inDataSize DspCmd.inData
  let inDataSize ← commRead DspCmd.inDataSize
  let outDataAddr ← readDataArg DspCmd.outDataSize DspCmd.outData
  let outDataSize ← commRead DspCmd.outDataSize
  let args : HandlerArgs := ⟨inDataAddr, inDataSize, outDataAddr, outDataSize, nBuffers⟩
  .perform (DspOp.invoke handler)
  let (status, group) ← runHandler (handlers handler args) fun i => buffers i
  writeAccessFlags order dspBuffer
    (fun i => if h : i < nBuffers then group ⟨i, h⟩ else buffers i) nBuffers
  readCacheRange DspCmd.outDataSize DspCmd.outData
  completeRequest (statusFlags flags status)
  pure status

/-- `process_command`. -/
def processCommand (order : ByteOrder) (handlers : Handlers) (device : XrpDevice) (flags : U32) :
    DspProgram XrpStatus := do
  .perform DspOp.enter
  let nBuffers := (← commRead DspCmd.bufferSize).toNat / sizeofDspBuffer
  match ← selectHandler order device with
  | .fail => do
    completeRequest (flags ||| responseDeliveryFail)
    pure .failure
  | .call handler => do
    let dspBuffer ← bufferTable nBuffers
    readCacheRange DspCmd.inDataSize DspCmd.inData
    if ← allocateBuffers nBuffers then
      let buffers ← readBuffers order dspBuffer nBuffers
      callHandler order handlers flags handler dspBuffer nBuffers buffers
    else
      -- this exit leaves `flags` as they are
      completeRequest flags
      pure .failure

/-! ## Dispatch -/

/-- `xrp_request_valid`, of the flags word it reads. -/
def xrpRequestValid (flags : U32) : Bool := decide (Requesting flags)

/-- How `xrp_device_dispatch` goes on. -/
inductive Dispatch : Type
  | status (status : XrpStatus)
  | handshake
  deriving DecidableEq

/-- `xrp_device_dispatch`, up to the call of `do_handshake`. -/
def xrpDeviceDispatch (order : ByteOrder) (handlers : Handlers) (device : XrpDevice) :
    DspProgram Dispatch := do
  let flags ← commRead DspCmd.flags
  if !xrpRequestValid flags then pure (.status .pending)
  else if flags = syncStart then pure .handshake
  else .status <$> processCommand order handlers device flags

end Xrp.Dsp
