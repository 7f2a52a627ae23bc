import Xrp.Interface

/-!
# Requests in the comm area, host side

`xrp_fill_hw_request`, `xrp_cmd_complete` and `xrp_complete_hw_request` of
`xvp_main.c`, as programs of word accesses. `order` is the byte order of the
host, `translate` is `xrp_translate_to_dsp` for the address map of the device.
-/

namespace Xrp.Kernel

/-- `XRP_QUEUE_VALID_FLAGS`. -/
def queueValidFlags : U32 := 4

/-- `XRP_QUEUE_FLAG_NSID`. -/
def queueFlagNsid : U32 := 4

/-- `sizeof(struct xrp_ioctl_buffer)`. -/
def sizeofIoctlBuffer : ℕ := 16

/-- `struct xrp_ioctl_queue` after the check of its flags in `xrp_ioctl_submit_sync`. -/
structure XrpIoctlQueue : Type where
  flags : U32
  inDataSize : U32
  outDataSize : U32
  bufferSize : U32
  valid : flags &&& ~~~queueValidFlags = 0

theorem valid_noFlags : (0 : U32) &&& ~~~queueValidFlags = 0 := by decide

/-- `struct xrp_request` after `xrp_map_request`; `dspBuffer` is the inline descriptor. -/
structure XrpRequest : Type where
  ioctlQueue : XrpIoctlQueue
  inDataPhys : ULong
  outDataPhys : ULong
  dspBufferPhys : ULong
  inData : Fin 16 → U8
  dspBuffer : XrpDspBuffer
  nsid : Fin 16 → U8

/-- `rq->n_buffers`. -/
def XrpRequest.nBuffers (rq : XrpRequest) : ℕ := rq.ioctlQueue.bufferSize.toNat / sizeofIoctlBuffer

/-- Programs that access the comm area. -/
abbrev CommProgram := Program CommOp CommOp.Answer

/-- `xrp_comm_write32`. -/
def xrpCommWrite32 (w : ℕ) (v : U32) : CommProgram Unit := .perform (CommOp.write w v)

/-- `xrp_comm_read32`. -/
def xrpCommRead32 (w : ℕ) : CommProgram U32 := .perform (CommOp.read w)

/-- `xrp_comm_write` of data that fills the given words. -/
def xrpCommWrite (w : ℕ) : List U32 → CommProgram Unit
  | [] => pure ()
  | v :: vs => do
    xrpCommWrite32 w v
    xrpCommWrite (w + 1) vs

/-- `xrp_comm_read` of data that fills the given number of words. -/
def xrpCommRead (w : ℕ) : ℕ → CommProgram (List U32)
  | 0 => pure []
  | n + 1 => do
    let v ← xrpCommRead32 w
    let vs ← xrpCommRead (w + 1) n
    pure (v :: vs)

theorem run_xrpCommRead (w n : ℕ) (m : Comm) :
    (xrpCommRead w n).run CommOp.act m = ((List.range n).map fun i => m (w + i), m) := by
  induction n generalizing w with
  | zero => rfl
  | succ n ih =>
    have next : (fun i => m (w + i)) ∘ Nat.succ = fun i => m (w + 1 + i) :=
      funext fun i => congrArg m (Nat.add_right_comm w i 1)
    have first : (xrpCommRead32 w).run CommOp.act m = (m w, m) := rfl
    rw [List.range_succ_eq_map, List.map_cons, List.map_map, next, xrpCommRead, Program.run_bind,
      first, Program.run_bind, ih]
    rfl

/-- The last word `xrp_fill_hw_request` writes. -/
def XrpRequest.flagsWord (rq : XrpRequest) : U32 :=
  rq.ioctlQueue.flags &&& ~~~responseValid ||| requestValid

/-- `xrp_fill_hw_request`. -/
def xrpFillHwRequest (order : ByteOrder) (translate : ULong → U32) (rq : XrpRequest) :
    CommProgram Unit := do
  xrpCommWrite32 DspCmd.inDataSize rq.ioctlQueue.inDataSize
  xrpCommWrite32 DspCmd.outDataSize rq.ioctlQueue.outDataSize
  xrpCommWrite32 DspCmd.bufferSize (.ofNat 32 (rq.nBuffers * sizeofDspBuffer))
  if rq.ioctlQueue.inDataSize.toNat > inlineDataSize then
    xrpCommWrite32 DspCmd.inData (translate rq.inDataPhys)
  else
    xrpCommWrite DspCmd.inData
      (order.words ((List.ofFn rq.inData).take rq.ioctlQueue.inDataSize.toNat))
  if rq.ioctlQueue.outDataSize.toNat > inlineDataSize then
    xrpCommWrite32 DspCmd.outData (translate rq.outDataPhys)
  if rq.nBuffers > inlineBufferCount then
    xrpCommWrite32 DspCmd.bufferData (translate rq.dspBufferPhys)
  else
    xrpCommWrite DspCmd.bufferData (rq.dspBuffer.words.take (rq.nBuffers * 3))
  if rq.ioctlQueue.flags &&& queueFlagNsid ≠ 0 then
    xrpCommWrite DspCmd.nsid (order.words (List.ofFn rq.nsid))
  xrpCommWrite32 DspCmd.flags rq.flagsWord

/-- `xrp_cmd_complete`, of the flags word it reads. -/
def xrpCmdComplete (flags : U32) : Bool := decide (Answered flags)

/-- What `xrp_complete_hw_request` returns, and what it copies into the request. -/
structure HwResult : Type where
  ret : Except Errno Unit
  outData : Option (List U8)
  dspBuffer : Option (List U32)

/-- The output data, if it is in the comm area. -/
def readOutData (order : ByteOrder) (rq : XrpRequest) : CommProgram (Option (List U8)) :=
  if rq.ioctlQueue.outDataSize.toNat ≤ inlineDataSize then do
    let ws ← xrpCommRead DspCmd.outData ((rq.ioctlQueue.outDataSize.toNat + 3) / 4)
    pure (some ((order.bytes ws).take rq.ioctlQueue.outDataSize.toNat))
  else pure none

/-- The buffer descriptor, if it is in the comm area. -/
def readDspBuffer (rq : XrpRequest) : CommProgram (Option (List U32)) :=
  if rq.nBuffers ≤ inlineBufferCount then some <$> xrpCommRead DspCmd.bufferData (rq.nBuffers * 3)
  else pure none

/-- `xrp_complete_hw_request`. -/
def xrpCompleteHwRequest (order : ByteOrder) (rq : XrpRequest) : CommProgram HwResult := do
  let flags ← xrpCommRead32 DspCmd.flags
  let outData ← readOutData order rq
  let dspBuffer ← readDspBuffer rq
  pure ⟨if flags &&& responseDeliveryFail ≠ 0 then .error .enxio else .ok (), outData, dspBuffer⟩

/-! ## What the host writes -/

/-- Consecutive words from `w` on. -/
def numbered (w : ℕ) : List U32 → List (ℕ × U32)
  | [] => []
  | v :: vs => (w, v) :: numbered (w + 1) vs

theorem mem_numbered {w i : ℕ} {v : U32} {vs : List U32} :
    (i, v) ∈ numbered w vs ↔ w ≤ i ∧ vs[i - w]? = some v := by
  induction vs generalizing w with
  | nil => simp [numbered]
  | cons u us ih =>
    simp only [numbered, List.mem_cons, Prod.mk.injEq, ih]
    rcases lt_trichotomy i w with lt | rfl | gt
    · grind
    · grind
    · obtain ⟨d, rfl⟩ : ∃ d, i = w + 1 + d := ⟨i - (w + 1), by omega⟩
      simp [show w + 1 + d - w = d + 1 by omega, show w ≤ w + 1 + d by omega,
        show w + 1 + d ≠ w by omega]

section Payload

variable (order : ByteOrder) (translate : ULong → U32) (rq : XrpRequest)

namespace XrpRequest

/-- The sizes of a request. -/
def sizeWords : List (ℕ × U32) :=
  [(DspCmd.inDataSize, rq.ioctlQueue.inDataSize),
    (DspCmd.outDataSize, rq.ioctlQueue.outDataSize),
    (DspCmd.bufferSize, .ofNat 32 (rq.nBuffers * sizeofDspBuffer))]

/-- The input data of a request, or its address. -/
def inDataWords : List (ℕ × U32) :=
  if rq.ioctlQueue.inDataSize.toNat > inlineDataSize then
    [(DspCmd.inData, translate rq.inDataPhys)]
  else
    numbered DspCmd.inData
      (order.words ((List.ofFn rq.inData).take rq.ioctlQueue.inDataSize.toNat))

/-- The address of the output data of a request. -/
def outDataWords : List (ℕ × U32) :=
  if rq.ioctlQueue.outDataSize.toNat > inlineDataSize then
    [(DspCmd.outData, translate rq.outDataPhys)]
  else []

/-- The buffer descriptor of a request, or the address of the table. -/
def bufferWords : List (ℕ × U32) :=
  if rq.nBuffers > inlineBufferCount then
    [(DspCmd.bufferData, translate rq.dspBufferPhys)]
  else
    numbered DspCmd.bufferData (rq.dspBuffer.words.take (rq.nBuffers * 3))

/-- The namespace of a request. -/
def nsidWords : List (ℕ × U32) :=
  if rq.ioctlQueue.flags &&& queueFlagNsid ≠ 0 then
    numbered DspCmd.nsid (order.words (List.ofFn rq.nsid))
  else []

/-- The words of a request other than its flags word. -/
def payload : List (ℕ × U32) :=
  rq.sizeWords ++ rq.inDataWords order translate ++ rq.outDataWords translate ++
    rq.bufferWords translate ++ rq.nsidWords order

end XrpRequest

end Payload

/-- Writes, one after another. -/
def writeAll : List (ℕ × U32) → CommProgram Unit
  | [] => pure ()
  | (w, v) :: rest => do
    xrpCommWrite32 w v
    writeAll rest

theorem xrpCommWrite_eq (w : ℕ) (vs : List U32) :
    xrpCommWrite w vs = writeAll (numbered w vs) := by
  induction vs generalizing w with
  | nil => rfl
  | cons v vs ih => simp only [xrpCommWrite, numbered, writeAll, ih]

theorem writeAll_append (l l' : List (ℕ × U32)) :
    writeAll (l ++ l') = (writeAll l >>= fun _ => writeAll l') := by
  induction l with
  | nil => rfl
  | cons p l ih =>
    simp only [List.cons_append, writeAll, ih]
    rfl

theorem xrpFillHwRequest_eq (order : ByteOrder) (translate : ULong → U32) (rq : XrpRequest) :
    xrpFillHwRequest order translate rq =
      writeAll (rq.payload order translate ++ [(DspCmd.flags, rq.flagsWord)]) := by
  simp only [xrpFillHwRequest, XrpRequest.payload, XrpRequest.sizeWords, XrpRequest.inDataWords,
    XrpRequest.outDataWords, XrpRequest.bufferWords, XrpRequest.nsidWords, List.append_assoc,
    List.cons_append, List.nil_append, writeAll, xrpCommWrite_eq]
  split_ifs <;> simp only [List.cons_append, List.nil_append, writeAll, writeAll_append,
    bind_pure_unit]

end Xrp.Kernel
