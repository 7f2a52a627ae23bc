import Xrp.Dsp.Dispatch
import Xrp.Exchange.Decode
import Xrp.Exchange.ShadowCopy

/-!
# Commands from the user to a handler and back

A request that `xrp_map_request` has mapped is written to the comm area by `xrp_fill_hw_request`,
decoded by `process_command`, and its results come back through `xrp_complete_hw_request` and
`xrp_unmap_request`. Data and descriptors are in the comm area or in memory that both sides access,
each decided on either side by its own comparison of sizes. Where the host and the DSP see the same
memory, the handler gets what was submitted, and the host what the DSP left.

The user's memory is one address space, in which the blocks of a request may overlap.
-/

namespace Xrp.Exchange

open Kernel Dsp

/-- The bytes of the user's memory in a block. -/
def userBytes (user : ULong → U8) (addr : ULong) (size : ℕ) : List U8 :=
  (List.range size).map fun k => user (addr + .ofNat 64 k)

/-! ## Mapped requests -/

/-- `struct xrp_ioctl_buffer`. -/
structure XrpIoctlBuffer : Type where
  flags : U32
  size : U32
  addr : ULong

/-- A block of the user's memory that `__xrp_share_block` has shared; `nativePhys` is where the
memory is if it belongs to the driver. -/
structure SharedBlock (flags : U32) (virt size : ULong) : Type where
  mapping : XrpMapping
  nativePhys : ULong
  made : ∃ env prior counts, (xrpShareBlock env flags virt size prior counts).1 = some mapping

/-- The address that `__xrp_share_block` returns. -/
def SharedBlock.phys {flags : U32} {virt size : ULong} (b : SharedBlock flags virt size) : ULong :=
  if b.mapping.kind = mappingAlien then
    .ofNat 64 b.mapping.alienMapping.paddr + virt - b.mapping.alienMapping.vaddr
  else b.nativePhys

/-- The table of descriptors that `xrp_share_kernel` has shared; `pa` is the physical address of
the table itself. -/
structure SharedTable (virt size : ULong) : Type where
  mapping : XrpMapping
  pa : ULong
  made : ∃ env prior counts counts',
    xrpShareKernel env virt size flagReadWrite prior counts = (.ok (), mapping, counts')

/-- The address that `xrp_share_kernel` returns. -/
def SharedTable.phys {virt size : ULong} (t : SharedTable virt size) : ULong :=
  if t.mapping.kind = mappingAlien then .ofNat 64 t.mapping.alienMapping.paddr else t.pa

/-- A request after `xrp_map_request`: what was submitted, the user's memory at that time, and what
was shared. `stack` is what was in `in_data` before. -/
structure MappedRequest (order : ByteOrder) (translate : ULong → U32) : Type where
  queue : XrpIoctlQueue
  inDataAddr : ULong
  outDataAddr : ULong
  buffers : ℕ → XrpIoctlBuffer
  nsid : Nsid
  user : ULong → U8
  stack : Fin 16 → U8
  inData : queue.inDataSize.toNat > inlineDataSize →
    SharedBlock flagRead inDataAddr (queue.inDataSize.setWidth 64)
  outData : queue.outDataSize.toNat > inlineDataSize →
    SharedBlock flagWrite outDataAddr (queue.outDataSize.setWidth 64)
  buffer : ∀ i, (buffers i).flags &&& flagReadWrite ≠ 0 →
    SharedBlock (buffers i).flags (buffers i).addr ((buffers i).size.setWidth 64)
  dspBuffer : ULong
  table : queue.bufferSize.toNat / sizeofIoctlBuffer > inlineBufferCount →
    SharedTable dspBuffer
      (.ofNat 64 (queue.bufferSize.toNat / sizeofIoctlBuffer * sizeofDspBuffer))

/-- Word `j` of a descriptor. -/
def descriptorWord (b : XrpDspBuffer) : ℕ → U32
  | 0 => b.flags
  | 1 => b.size
  | _ => b.addr

/-- What the DSP sees at a translated address is the host's memory. -/
def Sees (translate : ULong → U32) (host : ULong → U8) (memory : U32 → U8) (phys : ULong)
    (size : ℕ) : Prop :=
  ∀ k < size, memory (translate phys + .ofNat 32 k) = host (phys + .ofNat 64 k)

namespace MappedRequest

variable {order : ByteOrder} {translate : ULong → U32} (r : MappedRequest order translate)

/-- The number of buffers that were submitted. -/
def nBuffers : ℕ := r.queue.bufferSize.toNat / sizeofIoctlBuffer

/-- `buffer_phys`. -/
def bufferPhys (i : ℕ) : ULong :=
  if shared : (r.buffers i).flags &&& flagReadWrite ≠ 0 then (r.buffer i shared).phys else ~~~0

/-- `rq->dsp_buffer[i]`. -/
def descriptor (i : ℕ) : XrpDspBuffer :=
  ⟨(r.buffers i).flags, (r.buffers i).size, translate (r.bufferPhys i)⟩

/-- The bytes of `rq->dsp_buffer`. -/
def tableBytes (k : ℕ) : U8 :=
  order.byte (descriptorWord (r.descriptor (k / 12)) (k % 12 / 4)) (Fin.ofNat 4 k)

/-- `struct xrp_request`. Addresses of blocks that are not shared are not used. -/
def request : XrpRequest where
  ioctlQueue := r.queue
  inDataPhys := if long : r.queue.inDataSize.toNat > inlineDataSize then (r.inData long).phys else 0
  outDataPhys :=
    if long : r.queue.outDataSize.toNat > inlineDataSize then (r.outData long).phys else 0
  dspBufferPhys := if many : r.nBuffers > inlineBufferCount then (r.table many).phys else 0
  inData k :=
    if k < r.queue.inDataSize.toNat then r.user (r.inDataAddr + .ofNat 64 k) else r.stack k
  dspBuffer := r.descriptor 0
  nsid := r.nsid

/-- The host's memory after `xrp_map_request`; `pool` was there before. -/
structure Filled (host pool : ULong → U8) : Prop where
  inData : ∀ long, ∀ k < r.queue.inDataSize.toNat,
    host ((r.inData long).phys + .ofNat 64 k) =
      sharedContents (r.inData long).mapping flagRead
        (fun k => r.user (r.inDataAddr + .ofNat 64 k))
        (fun k => pool ((r.inData long).phys + .ofNat 64 k)) k
  table : ∀ many, ∀ k < 12 * r.nBuffers,
    host ((r.table many).phys + .ofNat 64 k) =
      sharedContents (r.table many).mapping flagReadWrite r.tableBytes
        (fun k => pool ((r.table many).phys + .ofNat 64 k)) k

/-- The DSP accesses the host's memory at the translated addresses of what was shared. -/
structure Accessible (host : ULong → U8) (memory : U32 → U8) : Prop where
  inData : ∀ long, Sees translate host memory (r.inData long).phys r.queue.inDataSize.toNat
  outData : ∀ long, Sees translate host memory (r.outData long).phys r.queue.outDataSize.toNat
  buffer : ∀ i shared, Sees translate host memory (r.buffer i shared).phys (r.buffers i).size.toNat
  table : ∀ many, Sees translate host memory (r.table many).phys (12 * r.nBuffers)

end MappedRequest

/-! ## Results -/

/-- What is in the shadow copy of a mapping. -/
def copied (host : ULong → U8) (m : XrpMapping) (k : ℕ) : U8 :=
  host (.ofNat 64 m.alienMapping.paddr + .ofNat 64 k)

namespace MappedRequest

variable {order : ByteOrder} {translate : ULong → U32} (r : MappedRequest order translate)
  (result : HwResult) (host : ULong → U8)

/-- `rq->dsp_buffer[i].flags` after `xrp_complete_hw_request` and the unsharing of the table. -/
def returnedFlags (i : ℕ) : U32 :=
  if many : r.nBuffers > inlineBufferCount then
    let left (k : ℕ) : U8 := host ((r.table many).phys + .ofNat 64 k)
    let m := (r.table many).mapping
    let table := unsharedContents m flagReadWrite (userContents m r.tableBytes left) left
    order.word fun j => table (12 * i + j)
  else (result.dspBuffer.getD []).getD (3 * i) 0

/-- The user's memory after the output data is unshared, or copied from the request. -/
def unmapOutData (user : ULong → U8) : ULong → U8 :=
  if long : r.queue.outDataSize.toNat > inlineDataSize then
    xrpUnshareBlockWriteback (copied host (r.outData long).mapping) (r.outData long).mapping
      flagWrite user
  else
    copyToUser user r.outDataAddr r.queue.outDataSize.toNat fun k =>
      (result.outData.getD []).getD k 0

/-- The user's memory after buffer `i` is unshared. -/
def unmapBuffer (user : ULong → U8) (i : ℕ) : ULong → U8 :=
  if shared : (r.buffers i).flags &&& flagReadWrite ≠ 0 then
    xrpUnshareBlockWriteback (copied host (r.buffer i shared).mapping) (r.buffer i shared).mapping
      (r.returnedFlags result host i) user
  else user

/-- The user's memory after `xrp_unmap_request`. Input data is not written back. -/
def xrpUnmapRequest (user : ULong → U8) : ULong → U8 :=
  (List.range r.nBuffers).foldl (r.unmapBuffer result host) (r.unmapOutData result host user)

/-- The user's memory when the DSP is done: output data that was not copied is the DSP's. -/
def Direct (user : ULong → U8) : Prop :=
  ∀ long, ¬ IsCopy (r.outData long).mapping → ∀ k < r.queue.outDataSize.toNat,
    user (r.outDataAddr + .ofNat 64 k) = host ((r.outData long).phys + .ofNat 64 k)

/-- The user's addresses of a buffer. -/
def bufferBlock (i : ℕ) : Set ULong := userBlock (r.buffers i).addr (r.buffers i).size.toNat

/-- The handler has mapped a buffer for writing that is a shadow copy. -/
def WrittenBack (group : Fin r.nBuffers → XrpBuffer) (i : Fin r.nBuffers) : Prop :=
  (group i).mapFlags &&& xrpWrite ≠ 0 ∧ ∃ shared, IsCopy (r.buffer i shared).mapping

/-- No buffer that is written back is in memory of the output data. -/
def Apart (group : Fin r.nBuffers → XrpBuffer) : Prop :=
  ∀ i, r.WrittenBack group i →
    Disjoint (userBlock r.outDataAddr r.queue.outDataSize.toNat) (r.bufferBlock i)

end MappedRequest

/-! ## From the user to the handler -/

section Forward

variable {order : ByteOrder} {translate : ULong → U32} (r : MappedRequest order translate)

/-- The comm area after `xrp_fill_hw_request`. -/
def MappedRequest.filledComm (comm : Comm) : Comm :=
  ((xrpFillHwRequest order translate r.request).run CommOp.act comm).2

/-- The handler's arguments and buffers are what was submitted. -/
structure MappedRequest.Delivered (s : Machine) (args : HandlerArgs) (buffers : ℕ → XrpBuffer) :
    Prop where
  inDataSize : args.inDataSize = r.queue.inDataSize
  inData : pointedBytes order s args.inDataAddr DspCmd.inData args.inDataSize =
    userBytes r.user r.inDataAddr r.queue.inDataSize.toNat
  outDataSize : args.outDataSize = r.queue.outDataSize
  nBuffers : args.nBuffers = r.nBuffers
  size : ∀ i < r.nBuffers, (buffers i).size = (r.buffers i).size
  ptr : ∀ i < r.nBuffers, ∀ shared, (buffers i).ptr = translate (r.buffer i shared).phys

/-- Words that were written one after another are read one after another. -/
theorem map_of_numbered {w : ℕ} {vs : List U32} {m : Comm}
    (written : ∀ i v, (i, v) ∈ numbered w vs → m i = v) :
    (List.range vs.length).map (fun i => m (w + i)) = vs := by
  apply List.ext_getElem
  · simp
  · intro i _ lt
    rw [List.getElem_map, List.getElem_range]
    apply written
    rw [mem_numbered]
    simp [lt]

theorem dataArg_eq {m : Comm} {sizeWord dataWord : ℕ} {size : U32}
    {addr : size.toNat > inlineDataSize → U32} (sized : m sizeWord = size)
    (addressed : ∀ long, m dataWord = addr long) :
    dataArg m sizeWord dataWord =
      if long : size.toNat > inlineDataSize then some (addr long) else none := by
  rw [dataArg, sized]
  split_ifs with long
  · rw [addressed long]
  · rfl

variable {r} {comm : Comm} {memory : U32 → U8} {heap : Bool} {invoked : List (Option (ℕ × ℕ))}
  {host pool : ULong → U8} {device : XrpDevice} {registry : Registry}

namespace MappedRequest

theorem agrees : Agrees order translate r.request (r.filledComm comm) :=
  agrees_xrpFillHwRequest comm

theorem filledComm_flags : r.filledComm comm DspCmd.flags = r.request.flagsWord :=
  r.agrees _ _ mem_requestWords_flags

theorem filledComm_inDataSize : r.filledComm comm DspCmd.inDataSize = r.queue.inDataSize :=
  r.agrees _ _ mem_requestWords_inDataSize

theorem filledComm_outDataSize : r.filledComm comm DspCmd.outDataSize = r.queue.outDataSize :=
  r.agrees _ _ mem_requestWords_outDataSize

theorem bufferCount_filledComm : bufferCount (r.filledComm comm) = r.nBuffers := by
  have size : r.filledComm comm DspCmd.bufferSize =
      BitVec.ofNat 32 (r.nBuffers * sizeofDspBuffer) := r.agrees _ _ mem_requestWords_bufferSize
  have decoded : (BitVec.ofNat 32 (r.request.nBuffers * sizeofDspBuffer)).toNat / sizeofDspBuffer =
      r.request.nBuffers := nBuffers_decoded
  rw [bufferCount, size]
  exact decoded

theorem fits : 12 * r.nBuffers ≤ 2 ^ 32 := by
  have small := r.queue.bufferSize.isLt
  unfold nBuffers sizeofIoctlBuffer
  omega

theorem dspBufferOf_filledComm :
    dspBufferOf (r.filledComm comm) =
      if many : r.nBuffers > inlineBufferCount then some (translate (r.table many).phys)
      else none := by
  rw [dspBufferOf, r.bufferCount_filledComm]
  split_ifs with many
  · have word : r.filledComm comm DspCmd.bufferData = translate r.request.dspBufferPhys :=
      r.agrees _ _ (mem_requestWords_bufferAddr many)
    rw [word]
    exact congrArg (fun phys => some (translate phys)) (dif_pos many)
  · rfl

theorem inDataArg_filledComm :
    dataArg (r.filledComm comm) DspCmd.inDataSize DspCmd.inData =
      if long : r.queue.inDataSize.toNat > inlineDataSize then some (translate (r.inData long).phys)
      else none := by
  refine dataArg_eq r.filledComm_inDataSize fun long => ?_
  exact (r.agrees _ _ (mem_requestWords_inDataAddr long)).trans
    (congrArg translate (dif_pos long))

theorem outDataArg_filledComm :
    dataArg (r.filledComm comm) DspCmd.outDataSize DspCmd.outData =
      if long : r.queue.outDataSize.toNat > inlineDataSize then
        some (translate (r.outData long).phys)
      else none := by
  refine dataArg_eq r.filledComm_outDataSize fun long => ?_
  exact (r.agrees _ _ (mem_requestWords_outDataAddr long)).trans
    (congrArg translate (dif_pos long))

/-! ### Input data -/

theorem take_inData (short : ¬ r.queue.inDataSize.toNat > inlineDataSize) :
    (List.ofFn r.request.inData).take r.queue.inDataSize.toNat =
      userBytes r.user r.inDataAddr r.queue.inDataSize.toNat := by
  have few : r.queue.inDataSize.toNat ≤ 16 := not_lt.mp short
  apply List.ext_getElem
  · simp [userBytes, few]
  · intro i lt _
    have below : i < r.queue.inDataSize.toNat := by
      rw [List.length_take] at lt
      omega
    simp only [userBytes, List.getElem_take, List.getElem_ofFn, List.getElem_map,
      List.getElem_range]
    exact if_pos below

/-- Data in the comm area is what was submitted. -/
theorem inData_inline (short : ¬ r.queue.inDataSize.toNat > inlineDataSize) :
    (order.bytes ((List.range ((r.queue.inDataSize.toNat + 3) / 4)).map fun i =>
      r.filledComm comm (DspCmd.inData + i))).take r.queue.inDataSize.toNat =
      userBytes r.user r.inDataAddr r.queue.inDataSize.toNat := by
  let data := userBytes r.user r.inDataAddr r.queue.inDataSize.toNat
  have length : data.length = r.queue.inDataSize.toNat := by simp [data, userBytes]
  have written (i : ℕ) (v : U32) (member : (i, v) ∈ numbered DspCmd.inData (order.words data)) :
      r.filledComm comm i = v := by
    have part : r.request.inDataWords order translate =
        numbered DspCmd.inData (order.words data) :=
      (if_neg short).trans
        (congrArg (fun bytes => numbered DspCmd.inData (order.words bytes)) (r.take_inData short))
    exact r.agrees i v (mem_requestWords.mpr (.inr (.inl (part ▸ member))))
  have words := map_of_numbered written
  have trip := order.take_bytes_words data
  rw [ByteOrder.length_words, length] at words
  rw [length] at trip
  rw [words, trip]

/-- The handler's input data is what was submitted. -/
theorem pointedBytes_inData (filled : r.Filled host pool) (accessible : r.Accessible host memory) :
    pointedBytes order ⟨r.filledComm comm, memory, heap, invoked⟩
      (dataArg (r.filledComm comm) DspCmd.inDataSize DspCmd.inData) DspCmd.inData
      r.queue.inDataSize = userBytes r.user r.inDataAddr r.queue.inDataSize.toNat := by
  rw [r.inDataArg_filledComm]
  split_ifs with long
  · refine List.map_congr_left fun k member => ?_
    have lt : k < r.queue.inDataSize.toNat := List.mem_range.mp member
    refine (accessible.inData long k lt).trans ((filled.inData long k lt).trans ?_)
    exact congrFun (Submission.sharedContents_of_read (by decide)) k
  · exact r.inData_inline long

/-! ### Descriptors -/

theorem tableBytes_word {i k : ℕ} (small : k < 3) (j : Fin 4) :
    r.tableBytes (12 * i + 4 * k + j) = order.byte (descriptorWord (r.descriptor i) k) j := by
  have index : (12 * i + 4 * k + j) / 12 = i := by omega
  have word : (12 * i + 4 * k + j) % 12 / 4 = k := by omega
  have byte : Fin.ofNat 4 (12 * i + 4 * k + j) = j := by
    apply Fin.ext
    rw [Fin.val_ofNat]
    omega
  rw [tableBytes, index, word, byte]

/-- A word of the table in DSP memory. -/
theorem readDescriptor_table (filled : r.Filled host pool) (accessible : r.Accessible host memory)
    (many : r.nBuffers > inlineBufferCount) {i k : ℕ} (lt : i < r.nBuffers) (small : k < 3)
    (m : Comm) :
    ((readDescriptor order (some (translate (r.table many).phys)) i k).run DspOp.act
      ⟨m, memory, heap, invoked⟩).1 = descriptorWord (r.descriptor i) k := by
  rw [← order.word_byte (descriptorWord (r.descriptor i) k), readDescriptor, run_load32]
  refine congrArg order.word (funext fun j => ?_)
  have inside : 12 * i + 4 * k + j < 12 * r.nBuffers := by omega
  rw [add_assoc, ← BitVec.ofNat_add]
  refine (accessible.table many _ inside).trans ((filled.table many _ inside).trans ?_)
  rw [Submission.sharedContents_of_read (by decide), tableBytes_word small]

/-- A word of the descriptor in the comm area. -/
theorem filledComm_descriptor (one : r.nBuffers = 1) {k : ℕ} (small : k < 3) :
    r.filledComm comm (DspCmd.bufferData + k) = descriptorWord (r.descriptor 0) k := by
  have words : r.request.dspBuffer.words.take (r.nBuffers * 3) =
      [descriptorWord (r.descriptor 0) 0, descriptorWord (r.descriptor 0) 1,
        descriptorWord (r.descriptor 0) 2] := by
    rw [one]
    rfl
  have part : r.request.bufferWords translate = numbered DspCmd.bufferData
      [descriptorWord (r.descriptor 0) 0, descriptorWord (r.descriptor 0) 1,
        descriptorWord (r.descriptor 0) 2] := by
    rw [← words]
    refine if_neg ?_
    rw [show r.request.nBuffers = 1 from one]
    decide
  apply r.agrees
  rw [mem_requestWords, part, mem_numbered]
  refine .inr (.inr (.inr (.inl ⟨Nat.le_add_right _ _, ?_⟩)))
  rw [Nat.add_sub_cancel_left]
  interval_cases k <;> rfl

/-- The DSP finds the descriptors that the host made. -/
theorem descriptorOf_filledComm (filled : r.Filled host pool)
    (accessible : r.Accessible host memory) {i : ℕ} (lt : i < r.nBuffers) :
    descriptorOf order (dspBufferOf (r.filledComm comm)) ⟨r.filledComm comm, memory, heap, invoked⟩
      i = r.descriptor i := by
  have word (k : ℕ) (small : k < 3) :
      ((readDescriptor order (dspBufferOf (r.filledComm comm)) i k).run DspOp.act
        ⟨r.filledComm comm, memory, heap, invoked⟩).1 = descriptorWord (r.descriptor i) k := by
    rw [r.dspBufferOf_filledComm]
    split_ifs with many
    · exact readDescriptor_table filled accessible many lt small _
    · have one : r.nBuffers = 1 := by
        unfold inlineBufferCount at many
        omega
      obtain rfl : i = 0 := by omega
      have value : r.filledComm comm (DspCmd.bufferData + k) = descriptorWord (r.descriptor 0) k :=
        filledComm_descriptor one small
      rw [← value, readDescriptor, mul_zero, zero_add]
      rfl
  rw [descriptorOf, word 0 (by decide), word 1 (by decide), word 2 (by decide)]
  rfl

theorem buffersOf_filledComm (filled : r.Filled host pool) (accessible : r.Accessible host memory)
    {i : ℕ} (lt : i < r.nBuffers) :
    buffersOf order (dspBufferOf (r.filledComm comm)) ⟨r.filledComm comm, memory, heap, invoked⟩
      r.nBuffers i = .ofDescriptor (r.descriptor i) := by
  rw [buffersOf, if_pos lt, descriptorOf_filledComm filled accessible lt]

/-- The handler gets what was submitted. -/
theorem delivered (filled : r.Filled host pool) (accessible : r.Accessible host memory) :
    r.Delivered ⟨r.filledComm comm, memory, heap, invoked⟩
      (handlerArgs (r.filledComm comm) r.nBuffers)
      (buffersOf order (dspBufferOf (r.filledComm comm))
        ⟨r.filledComm comm, memory, heap, invoked⟩ r.nBuffers) where
  inDataSize := r.filledComm_inDataSize
  inData := by
    have size : (handlerArgs (r.filledComm comm) r.nBuffers).inDataSize = r.queue.inDataSize :=
      r.filledComm_inDataSize
    rw [size]
    exact pointedBytes_inData filled accessible
  outDataSize := r.filledComm_outDataSize
  nBuffers := rfl
  size i lt := by
    rw [buffersOf_filledComm filled accessible lt]
    rfl
  ptr i lt shared := by
    rw [buffersOf_filledComm filled accessible lt]
    exact congrArg translate (dif_pos shared)

/-! ### The handler chosen -/

/-- The handler for the request. -/
def handler (r : MappedRequest order translate) (registry : Registry) : Option (ℕ × ℕ) :=
  if r.queue.flags &&& queueFlagNsid ≠ 0 then registry r.nsid else none

theorem nsidOf_filledComm (flagged : r.queue.flags &&& queueFlagNsid ≠ 0) :
    nsidOf order (r.filledComm comm) = r.nsid := by
  have part : r.request.nsidWords order = numbered DspCmd.nsid (order.words (List.ofFn r.nsid)) :=
    if_pos flagged
  have word (k : ℕ) (v : U32) (at_k : (order.words (List.ofFn r.nsid))[k]? = some v) :
      r.filledComm comm (DspCmd.nsid + k) = v := by
    apply r.agrees
    rw [mem_requestWords, part, mem_numbered, Nat.add_sub_cancel_left]
    exact .inr (.inr (.inr (.inr (.inl ⟨Nat.le_add_right _ _, at_k⟩))))
  have w₀ : r.filledComm comm DspCmd.nsid =
      order.word ![r.nsid 0, r.nsid 1, r.nsid 2, r.nsid 3] := word 0 _ rfl
  have w₁ := word 1 (order.word ![r.nsid 4, r.nsid 5, r.nsid 6, r.nsid 7]) rfl
  have w₂ := word 2 (order.word ![r.nsid 8, r.nsid 9, r.nsid 10, r.nsid 11]) rfl
  have w₃ := word 3 (order.word ![r.nsid 12, r.nsid 13, r.nsid 14, r.nsid 15]) rfl
  rw [nsidOf, w₀, w₁, w₂, w₃]
  funext i
  fin_cases i <;> exact order.byte_word _ _

theorem selected_filledComm (reach : TableReach device registry)
    (known : r.queue.flags &&& queueFlagNsid ≠ 0 → registry r.nsid ≠ none) :
    selected order device (r.filledComm comm) = .call (r.handler registry) := by
  have flag : r.filledComm comm DspCmd.flags &&& requestNsid ≠ 0 ↔
      r.queue.flags &&& queueFlagNsid ≠ 0 := by
    rw [r.filledComm_flags]
    exact flagsWord_nsid
  by_cases flagged : r.queue.flags &&& queueFlagNsid ≠ 0
  · obtain ⟨handler, registered⟩ := Option.ne_none_iff_exists'.mp (known flagged)
    rw [MappedRequest.handler, if_pos flagged, registered]
    apply reach.represents.selected_registered order (flag.mpr flagged)
    rw [r.nsidOf_filledComm flagged, registered]
  · rw [MappedRequest.handler, if_neg flagged, selected, if_neg (flag.not.mpr flagged)]

end MappedRequest

end Forward

/-! ## From the handler to the user -/

section Backward

variable {order : ByteOrder} {translate : ULong → U32} (r : MappedRequest order translate)

/-- What `xrp_complete_hw_request` finds in the comm area. -/
def MappedRequest.completed (comm : Comm) : HwResult :=
  ((xrpCompleteHwRequest order r.request).run CommOp.act comm).1

/-- What the host holds after `xrp_complete_hw_request` and `xrp_unmap_request` is what the DSP
left: `s` is the machine before the command and `s'` after it, `user` the user's memory when the
DSP is done. -/
structure MappedRequest.Returned (s s' : Machine) (host user : ULong → U8) : Prop where
  ret : (r.completed s'.comm).ret = .ok ()
  outData :
    userBytes (r.xrpUnmapRequest (r.completed s'.comm) host user) r.outDataAddr
        r.queue.outDataSize.toNat =
      pointedBytes order s' (handlerArgs s.comm r.nBuffers).outDataAddr DspCmd.outData
        r.queue.outDataSize
  flags : ∀ i < r.nBuffers,
    r.returnedFlags (r.completed s'.comm) host i =
      (descriptorOf order (dspBufferOf s.comm) s' i).flags

/-- A block that is unshared with write access comes back as the DSP leaves it. -/
theorem unsharedContents_userContents {m : XrpMapping} {flags : U32} {user left : ℕ → U8}
    (write : flags &&& flagWrite ≠ 0) :
    unsharedContents m flags (userContents m user left) left = left := by
  by_cases copy : IsCopy m
  · rw [unsharedContents, if_pos ⟨copy.1, write⟩, xrpWritebackAlienMapping, if_pos copy.2]
  · rw [userContents, if_neg copy, unsharedContents, xrpWritebackAlienMapping, ite_self, ite_self]

/-- A mapping of memory that is not the driver's own is of the block that was shared. -/
theorem SharedBlock.alien {flags : U32} {virt size : ULong} (b : SharedBlock flags virt size)
    (alien : b.mapping.kind = mappingAlien) :
    b.mapping.alienMapping.vaddr = virt ∧ b.mapping.alienMapping.size = size := by
  obtain ⟨env, prior, counts, made⟩ := b.made
  exact xrpShareBlock_alien made alien

/-! ### Completion -/

theorem run_readOutData (rq : XrpRequest) (m : Comm) :
    (readOutData order rq).run CommOp.act m =
      (if rq.ioctlQueue.outDataSize.toNat ≤ inlineDataSize then
        some ((order.bytes ((List.range ((rq.ioctlQueue.outDataSize.toNat + 3) / 4)).map fun i =>
          m (DspCmd.outData + i))).take rq.ioctlQueue.outDataSize.toNat)
      else none, m) := by
  unfold readOutData
  split_ifs with short
  · rw [Program.run_bind, run_xrpCommRead]
    rfl
  · rfl

theorem run_readDspBuffer (rq : XrpRequest) (m : Comm) :
    (readDspBuffer rq).run CommOp.act m =
      (if rq.nBuffers ≤ inlineBufferCount then
        some ((List.range (rq.nBuffers * 3)).map fun i => m (DspCmd.bufferData + i))
      else none, m) := by
  unfold readDspBuffer
  split_ifs with few
  · rw [map_eq_pure_bind, Program.run_bind, run_xrpCommRead]
    rfl
  · rfl

variable {r}

theorem MappedRequest.completed_outData {m : Comm}
    (short : ¬ r.queue.outDataSize.toNat > inlineDataSize) :
    (r.completed m).outData =
      some ((order.bytes ((List.range ((r.queue.outDataSize.toNat + 3) / 4)).map fun i =>
        m (DspCmd.outData + i))).take r.queue.outDataSize.toNat) := by
  have flags : (xrpCommRead32 DspCmd.flags).run CommOp.act m = (m DspCmd.flags, m) := rfl
  simp only [completed, xrpCompleteHwRequest, Program.run_bind, flags, run_readOutData]
  exact if_pos (not_lt.mp short)

theorem MappedRequest.completed_dspBuffer {m : Comm}
    (few : ¬ r.nBuffers > inlineBufferCount) :
    (r.completed m).dspBuffer =
      some ((List.range (r.nBuffers * 3)).map fun i => m (DspCmd.bufferData + i)) := by
  have flags : (xrpCommRead32 DspCmd.flags).run CommOp.act m = (m DspCmd.flags, m) := rfl
  simp only [completed, xrpCompleteHwRequest, Program.run_bind, flags, run_readOutData,
    run_readDspBuffer]
  exact if_pos (not_lt.mp few)

theorem MappedRequest.completed_ret {m : Comm}
    (clear : m DspCmd.flags &&& responseDeliveryFail = 0) : (r.completed m).ret = .ok () := by
  have flags : (xrpCommRead32 DspCmd.flags).run CommOp.act m = (m DspCmd.flags, m) := rfl
  simp only [completed, xrpCompleteHwRequest, Program.run_bind, flags]
  exact if_neg (not_not.mpr clear)

/-- A request is not submitted as failed. -/
theorem flagsWord_clear (rq : XrpRequest) : rq.flagsWord &&& responseDeliveryFail = 0 := by
  have bit : ~~~queueValidFlags &&& responseDeliveryFail = responseDeliveryFail := by decide
  have kept : ~~~responseValid &&& responseDeliveryFail = responseDeliveryFail := by decide
  rw [XrpRequest.flagsWord, BitVec.or_and_other (by decide), BitVec.and_assoc, kept, ← bit,
    ← BitVec.and_assoc, rq.ioctlQueue.valid]
  exact BitVec.zero_and

/-! ### Flags -/

theorem MappedRequest.returnedFlags_table {host : ULong → U8} {s' : Machine} {result : HwResult}
    (accessible : r.Accessible host s'.memory) (many : r.nBuffers > inlineBufferCount) {i : ℕ}
    (lt : i < r.nBuffers) :
    r.returnedFlags result host i =
      (descriptorOf order (some (translate (r.table many).phys)) s' i).flags := by
  have word : (descriptorOf order (some (translate (r.table many).phys)) s' i).flags =
      order.word fun j => s'.memory
        (translate (r.table many).phys + BitVec.ofNat 32 (12 * i + 4 * 0) + BitVec.ofNat 32 j) :=
    congrArg Prod.fst (run_load32 _)
  rw [word, returnedFlags, dif_pos many]
  refine congrArg order.word (funext fun j => ?_)
  rw [unsharedContents_userContents (by decide), add_assoc, ← BitVec.ofNat_add]
  exact (accessible.table many (12 * i + j) (by omega)).symm

theorem MappedRequest.returnedFlags_inline {host : ULong → U8} {s' : Machine}
    (few : ¬ r.nBuffers > inlineBufferCount) {i : ℕ} (lt : i < r.nBuffers) :
    r.returnedFlags (r.completed s'.comm) host i = (descriptorOf order none s' i).flags := by
  have one : r.nBuffers = 1 := by
    unfold inlineBufferCount at few
    omega
  obtain rfl : i = 0 := by omega
  rw [returnedFlags, dif_neg few, completed_dspBuffer few, one]
  rfl

/-- The host gets the flags that the DSP left. -/
theorem MappedRequest.returnedFlags_eq {host : ULong → U8} {s' : Machine} {comm : Comm}
    (accessible : r.Accessible host s'.memory) {i : ℕ} (lt : i < r.nBuffers) :
    r.returnedFlags (r.completed s'.comm) host i =
      (descriptorOf order (dspBufferOf (r.filledComm comm)) s' i).flags := by
  rw [r.dspBufferOf_filledComm]
  split_ifs with many
  · exact returnedFlags_table accessible many lt
  · exact returnedFlags_inline many lt

/-! ### Output data -/

namespace MappedRequest

variable {result : HwResult} {host user : ULong → U8} {s' : Machine}
  {group : Fin r.nBuffers → XrpBuffer} {a : ULong}

theorem accessFlags_write_iff {buffer : XrpBuffer} :
    accessFlags buffer &&& flagWrite ≠ 0 ↔ buffer.mapFlags &&& xrpWrite ≠ 0 := by
  unfold accessFlags
  split_ifs with read write write
  · exact iff_of_true (by decide) write
  · exact iff_of_false (by decide) write
  · exact iff_of_true (by decide) write
  · exact iff_of_false (by decide) write

/-- A buffer that is not written back, or is elsewhere. -/
theorem unmapBuffer_miss {i : Fin r.nBuffers}
    (flags : r.returnedFlags result host i = accessFlags (group i))
    (miss : r.WrittenBack group i → a ∉ r.bufferBlock i) :
    r.unmapBuffer result host user i a = user a := by
  rw [unmapBuffer]
  split_ifs with shared
  · rw [xrpUnshareBlockWriteback]
    split_ifs with back
    · obtain ⟨alien, write, copy⟩ := back
      obtain ⟨vaddr, size⟩ := (r.buffer i shared).alien alien
      rw [flags, accessFlags_write_iff] at write
      rw [vaddr, size, BitVec.toNat_setWidth_of_le (by decide)]
      exact copyToUser_outside (miss ⟨write, shared, alien, copy⟩)
    · rfl
  · rfl

theorem foldl_unmapBuffer_miss {n : ℕ} (le : n ≤ r.nBuffers)
    (flags : ∀ i : Fin r.nBuffers, r.returnedFlags result host i = accessFlags (group i))
    (miss : ∀ i : Fin r.nBuffers, i < n → r.WrittenBack group i → a ∉ r.bufferBlock i) :
    (List.range n).foldl (r.unmapBuffer result host) user a = user a := by
  induction n with
  | zero => rfl
  | succ n ih =>
    rw [List.range_succ, List.foldl_append, List.foldl_cons, List.foldl_nil]
    refine (unmapBuffer_miss (flags ⟨n, le⟩) (miss ⟨n, le⟩ n.lt_succ_self)).trans ?_
    exact ih (by omega) fun i lt => miss i (by omega)

/-- Output data in memory is in the user's memory when it is unshared. -/
theorem unmapOutData_long (accessible : r.Accessible host s'.memory) (direct : r.Direct host user)
    (long : r.queue.outDataSize.toNat > inlineDataSize) {k : ℕ}
    (lt : k < r.queue.outDataSize.toNat) :
    r.unmapOutData result host user (r.outDataAddr + .ofNat 64 k) =
      s'.memory (translate (r.outData long).phys + .ofNat 32 k) := by
  rw [accessible.outData long k lt, unmapOutData, dif_pos long, xrpUnshareBlockWriteback]
  by_cases copy : IsCopy (r.outData long).mapping
  · obtain ⟨vaddr, size⟩ := (r.outData long).alien copy.1
    have size' : ((r.queue.outDataSize.setWidth 64 : ULong)).toNat = r.queue.outDataSize.toNat :=
      BitVec.toNat_setWidth_of_le (by decide)
    have small := r.queue.outDataSize.isLt
    rw [if_pos ⟨copy.1, by decide, copy.2⟩, vaddr, size, size',
      copyToUser_inside lt (by omega), SharedBlock.phys, if_pos copy.1, vaddr, add_sub_cancel_right,
      copied]
  · rw [if_neg fun writeback => copy ⟨writeback.1, writeback.2.2⟩]
    exact direct long copy k lt

/-- Output data in the comm area is copied to the user's memory. -/
theorem unmapOutData_short (short : ¬ r.queue.outDataSize.toNat > inlineDataSize) {k : ℕ}
    (lt : k < r.queue.outDataSize.toNat) :
    r.unmapOutData result host user (r.outDataAddr + .ofNat 64 k) =
      (result.outData.getD []).getD k 0 := by
  have small := r.queue.outDataSize.isLt
  rw [unmapOutData, dif_neg short, copyToUser_inside lt (by omega)]

/-- The output data that the DSP left comes to the user. -/
theorem userBytes_xrpUnmapRequest {comm : Comm} (accessible : r.Accessible host s'.memory)
    (direct : r.Direct host user)
    (flags : ∀ i : Fin r.nBuffers,
      r.returnedFlags (r.completed s'.comm) host i = accessFlags (group i))
    (apart : r.Apart group) :
    userBytes (r.xrpUnmapRequest (r.completed s'.comm) host user) r.outDataAddr
        r.queue.outDataSize.toNat =
      pointedBytes order s' (dataArg (r.filledComm comm) DspCmd.outDataSize DspCmd.outData)
        DspCmd.outData r.queue.outDataSize := by
  have small := r.queue.outDataSize.isLt
  have kept (k : ℕ) (lt : k < r.queue.outDataSize.toNat) :
      r.xrpUnmapRequest (r.completed s'.comm) host user (r.outDataAddr + .ofNat 64 k) =
        r.unmapOutData (r.completed s'.comm) host user (r.outDataAddr + .ofNat 64 k) := by
    refine foldl_unmapBuffer_miss le_rfl flags fun i _ back => ?_
    apply Set.disjoint_left.mp (apart i back)
    rw [mem_userBlock, user_offset (by omega)]
    exact lt
  rw [r.outDataArg_filledComm]
  split_ifs with long
  · refine List.map_congr_left fun k member => ?_
    have lt : k < r.queue.outDataSize.toNat := List.mem_range.mp member
    rw [kept k lt]
    exact unmapOutData_long accessible direct long lt
  · apply List.ext_getElem
    · simp only [userBytes, pointedBytes, List.length_map, List.length_range, List.length_take,
        ByteOrder.length_bytes]
      omega
    · intro k inside inside'
      have lt : k < r.queue.outDataSize.toNat := by simpa [userBytes] using inside
      simp only [userBytes, List.getElem_map, List.getElem_range]
      rw [kept k lt, unmapOutData_short long lt, completed_outData long, Option.getD_some]
      exact (List.getElem_eq_getD 0).symm

end MappedRequest

end Backward

/-! ## The whole way -/

section RoundTrip

variable {order : ByteOrder} {translate : ULong → U32} {r : MappedRequest order translate}
  {device : XrpDevice} {registry : Registry} {host pool : ULong → U8} {memory : U32 → U8}

/-- **Round trip of a command.** The handler is called with what was submitted. If it succeeds and
no buffer that is written back is in memory of the output data, the host gets the output data and
the flags that the DSP left. -/
theorem MappedRequest.roundTrip (handlers : Handlers) (comm : Comm)
    (invoked : List (Option (ℕ × ℕ))) (reach : TableReach device registry)
    (known : r.queue.flags &&& queueFlagNsid ≠ 0 → registry r.nsid ≠ none)
    (filled : r.Filled host pool) (accessible : r.Accessible host memory) :
    let s : Machine := ⟨r.filledComm comm, memory, true, invoked⟩
    let buffers := buffersOf order (dspBufferOf s.comm) s r.nBuffers
    let ran := handlerRun handlers (r.handler registry) r.nBuffers buffers s
    let ended := (processCommand order handlers device (s.comm DspCmd.flags)).run DspOp.act s
    (ended.1 = ran.1.1 ∧ ended.2.invoked = invoked ++ [r.handler registry] ∧
      r.Delivered s (handlerArgs s.comm r.nBuffers) buffers) ∧
    (ended.1 = .success → r.Apart ran.1.2 → ∀ host' user,
      r.Accessible host' ended.2.memory → r.Direct host' user →
        r.Returned s ended.2 host' user ∧
          ∀ i : Fin r.nBuffers, (descriptorOf order (dspBufferOf s.comm) ended.2 i).flags =
            accessFlags (ran.1.2 i)) := by
  intro s buffers ran ended
  have count : bufferCount s.comm = r.nBuffers := r.bufferCount_filledComm
  have handled : ended = _ := run_processCommand_handled order handlers (s.comm DspCmd.flags) s
    (selected_filledComm reach known) (.inr rfl)
  rw [count] at handled
  have status : ended.1 = ran.1.1 := congrArg Prod.fst handled
  have keeps := accessWritten_keeps order handlers (r.handler registry) (dspBufferOf s.comm)
    r.nBuffers buffers s
  have calls : ended.2.invoked = invoked ++ [r.handler registry] :=
    (congrArg (fun e => e.2.invoked) handled).trans keeps.invoked
  refine ⟨⟨status, calls, delivered filled accessible⟩, ?_⟩
  intro success apart host' user accessible' direct
  have word : ended.2.comm DspCmd.flags = s.comm DspCmd.flags ||| responseValid := by
    have final : ended.2.comm DspCmd.flags =
        statusFlags (s.comm DspCmd.flags) ran.1.1 ||| responseValid := by
      rw [handled]
      dsimp only
      rw [Function.update_self]
    rw [final, ← status, success]
    rfl
  have clear : ended.2.comm DspCmd.flags &&& responseDeliveryFail = 0 := by
    have filledFlags : s.comm DspCmd.flags = r.request.flagsWord := r.filledComm_flags
    rw [word, BitVec.or_and_other (by decide), filledFlags]
    exact flagsWord_clear r.request
  have left (i : Fin r.nBuffers) :
      (descriptorOf order (dspBufferOf s.comm) ended.2 i).flags = accessFlags (ran.1.2 i) := by
    rw [handled]
    dsimp only
    rw [descriptorOf_update_flags]
    exact (run_writeAccessFlags_flags r.fits i.isLt).trans (congrArg accessFlags (dif_pos i.isLt))
  have flags (i : Fin r.nBuffers) :
      r.returnedFlags (r.completed ended.2.comm) host' i = accessFlags (ran.1.2 i) :=
    (returnedFlags_eq accessible' i.isLt).trans (left i)
  have returned : r.Returned s ended.2 host' user :=
    { ret := completed_ret clear
      outData := userBytes_xrpUnmapRequest accessible' direct flags apart
      flags := fun i lt => returnedFlags_eq accessible' lt }
  exact ⟨returned, left⟩

/-- Writes a word of output data, and maps the first byte of the first buffer for writing. -/
def writeAndMap : Handlers := fun _ args =>
  if h : 0 < args.outWords ∧ 0 < args.nBuffers then
    .ask (.writeOut ⟨0, h.1⟩ 0x01010101) fun _ =>
      .ask (.api (.mapBuffer ⟨0, h.2⟩ 0 1 xrpWrite)) fun _ => .ret .success
  else .ret .failure

theorem four_inline : ¬ (4 : U32).toNat > inlineDataSize := by decide

theorem one_inline : ¬ (16 : U32).toNat / sizeofIoctlBuffer > inlineBufferCount := by decide

/-- A request with four bytes of data each way and a buffer of four bytes that is copied; the output
data is for address 0x1000. -/
def oneCopy (addr : ULong) : MappedRequest .little fun phys => phys.setWidth 32 where
  queue := ⟨0, 4, 4, 16, valid_noFlags⟩
  inDataAddr := 0x3000
  outDataAddr := 0x1000
  buffers _ := ⟨flagWrite, 4, addr⟩
  nsid _ := 0
  user _ := 0
  stack _ := 0
  inData long := absurd long four_inline
  outData long := absurd long four_inline
  buffer _ _ := ⟨copyMapping 0 addr 4, 0, copyEnv 0, .zero, 0, xrpShareBlock_copyEnv _ _ _ _ _⟩
  dspBuffer := 0
  table many := absurd many one_inline

theorem filled_oneCopy (addr : ULong) : (oneCopy addr).Filled (fun _ => 0) fun _ => 0 where
  inData long := absurd long four_inline
  table many := absurd many one_inline

theorem accessible_oneCopy (addr : ULong) :
    (oneCopy addr).Accessible (fun _ => 0) fun _ => 0 where
  inData long := absurd long four_inline
  outData long := absurd long four_inline
  buffer _ _ _ _ := rfl
  table many := absurd many one_inline

theorem emptyTable_reach : TableReach ⟨0, 0, fun _ => ⟨fun _ => 0, 0, 0⟩⟩ fun _ => none :=
  ⟨_, .refl⟩

/-- The DSP after the handler. -/
def oneCopyEnded (addr : ULong) : XrpStatus × Machine :=
  (processCommand .little writeAndMap ⟨0, 0, fun _ => ⟨fun _ => 0, 0, 0⟩⟩
    ((oneCopy addr).filledComm (fun _ => 0) DspCmd.flags)).run DspOp.act
    ⟨(oneCopy addr).filledComm fun _ => 0, fun _ => 0, true, []⟩

/-- Copies the first byte of the input data to the output data, and maps the first byte of the
second buffer for writing. -/
def copyAndMap : Handlers := fun _ args =>
  match args.inDataAddr, args.outDataAddr with
  | some inData, some outData =>
    if h : 1 < args.nBuffers then
      .ask (.load inData) fun v => .ask (.store outData v) fun _ =>
        .ask (.api (.mapBuffer ⟨1, h⟩ 0 1 xrpWrite)) fun _ => .ret .success
    else .ret .failure
  | _, _ => .ret .failure

/-- A request with 20 bytes of data each way, in memory of the driver's own, and two buffers of four
bytes that are copied. The table of descriptors is at 0x8000. -/
def twoCopies : MappedRequest .little fun phys => phys.setWidth 32 where
  queue := ⟨0, 20, 20, 32, valid_noFlags⟩
  inDataAddr := 0x3000
  outDataAddr := 0x1000
  buffers i := ⟨flagReadWrite, 4, 0x2000 + .ofNat 64 (4 * i)⟩
  nsid _ := 0
  user _ := 7
  stack _ := 0
  inData _ := ⟨nativeMapping, 0x6000, nativeEnv, .zero, 0, xrpShareBlock_nativeEnv _ _ _ _⟩
  outData _ := ⟨nativeMapping, 0x7000, nativeEnv, .zero, 0, xrpShareBlock_nativeEnv _ _ _ _⟩
  buffer i _ := ⟨copyMapping (0x4000 + 0x100 * i) _ _, 0, copyEnv (0x4000 + 0x100 * i), .zero, 0,
    xrpShareBlock_copyEnv _ _ _ _ _⟩
  dspBuffer := 0
  table _ := ⟨⟨mappingKernel, ⟨0, 0, 0, 0, 0⟩⟩, 0x8000, ⟨true, ⟨.error .enomem, 0, false⟩⟩, .zero,
    0, 0, rfl⟩

/-- The memory of the DSP when the request is mapped. -/
def twoCopiesMemory (a : U32) : U8 :=
  if (a - 0x6000).toNat < 20 then 7
  else if (a - 0x8000).toNat < 24 then twoCopies.tableBytes (a - 0x8000).toNat
  else 0

/-- The host's memory if the DSP sees it at the same addresses. -/
def hostOf (memory : U32 → U8) (a : ULong) : U8 := memory (a.setWidth 32)

theorem hostOf_add (memory : U32 → U8) (phys : ULong) (k : ℕ) :
    hostOf memory (phys + .ofNat 64 k) = memory (phys.setWidth 32 + .ofNat 32 k) := by
  rw [hostOf, BitVec.setWidth_add _ _ (by decide), BitVec.setWidth_ofNat_of_le (by decide)]

theorem accessible_twoCopies (memory : U32 → U8) :
    twoCopies.Accessible (hostOf memory) memory where
  inData _ k _ := (hostOf_add memory _ k).symm
  outData _ k _ := (hostOf_add memory _ k).symm
  buffer _ _ k _ := (hostOf_add memory _ k).symm
  table _ k _ := (hostOf_add memory _ k).symm

/-- Byte `k` of a block is at offset `k`. -/
theorem block_offset {phys : U32} {k : ℕ} (small : k < 2 ^ 32) :
    (phys + BitVec.ofNat 32 k - phys).toNat = k := by
  rw [add_sub_cancel_left, BitVec.toNat_ofNat, Nat.mod_eq_of_lt small]

theorem filled_twoCopies : twoCopies.Filled (hostOf twoCopiesMemory) fun _ => 0 where
  inData long k lt := by
    have phys : (twoCopies.inData long).phys = 0x6000 :=
      if_neg (show ¬ nativeMapping.kind = mappingAlien by decide)
    have start : (0x6000 : ULong).setWidth 32 = (0x6000 : U32) := by decide
    have small : k < 20 := lt
    rw [phys, hostOf_add, Submission.sharedContents_of_read (by decide), start, twoCopiesMemory,
      block_offset (by omega), if_pos small]
    rfl
  table many k lt := by
    have phys : (twoCopies.table many).phys = 0x8000 :=
      if_neg (show ¬ mappingKernel &&& ~~~mappingKernel = mappingAlien by decide)
    have start : (0x8000 : ULong).setWidth 32 = (0x8000 : U32) := by decide
    have small : k < 24 := lt
    have data : ¬ ((0x8000 : U32) + BitVec.ofNat 32 k - 0x6000).toNat < 20 := by bv_omega
    rw [phys, hostOf_add, Submission.sharedContents_of_read (by decide), start, twoCopiesMemory,
      if_neg data, block_offset (by omega), if_pos small]

/-- The DSP after the command. -/
def twoCopiesEnded : XrpStatus × Machine :=
  (processCommand .little copyAndMap ⟨0, 0, fun _ => ⟨fun _ => 0, 0, 0⟩⟩
    (twoCopies.filledComm (fun _ => 0) DspCmd.flags)).run DspOp.act
    ⟨twoCopies.filledComm fun _ => 0, twoCopiesMemory, true, []⟩

/-- The user's memory when the DSP is done. -/
def twoCopiesUser (a : ULong) : U8 := hostOf twoCopiesEnded.2.memory (a + 0x6000)

theorem direct_twoCopies : twoCopies.Direct (hostOf twoCopiesEnded.2.memory) twoCopiesUser := by
  intro long _ k _
  have phys : (twoCopies.outData long).phys = 0x7000 :=
    if_neg (show ¬ nativeMapping.kind = mappingAlien by decide)
  have addr : (0x1000 : ULong) + .ofNat 64 k + 0x6000 = 0x7000 + .ofNat 64 k :=
    add_right_comm _ _ _
  rw [phys, ← addr]
  rfl

theorem apart_twoCopies (group : Fin twoCopies.nBuffers → XrpBuffer) : twoCopies.Apart group := by
  intro i _
  have few : i.val < 2 := i.isLt
  rw [Set.disjoint_left]
  intro a inside inside'
  have first : (a - 0x1000).toNat < 20 := inside
  have second : (a - (0x2000 + .ofNat 64 (4 * i))).toNat < 4 := inside'
  bv_omega

/-- Data and descriptors in memory: the byte that the handler copied comes back, and the flags of
the buffer that it mapped. -/
theorem roundTrip_twoCopies :
    twoCopiesEnded.1 = .success ∧
    twoCopies.Delivered ⟨twoCopies.filledComm fun _ => 0, twoCopiesMemory, true, []⟩
      (handlerArgs (twoCopies.filledComm fun _ => 0) twoCopies.nBuffers)
      (buffersOf .little (dspBufferOf (twoCopies.filledComm fun _ => 0))
        ⟨twoCopies.filledComm fun _ => 0, twoCopiesMemory, true, []⟩ twoCopies.nBuffers) ∧
    (userBytes (twoCopies.xrpUnmapRequest (twoCopies.completed twoCopiesEnded.2.comm)
        (hostOf twoCopiesEnded.2.memory) twoCopiesUser) twoCopies.outDataAddr
      twoCopies.queue.outDataSize.toNat).head? = some 7 ∧
    twoCopies.returnedFlags (twoCopies.completed twoCopiesEnded.2.comm)
      (hostOf twoCopiesEnded.2.memory) 1 = flagWrite := by
  have success : twoCopiesEnded.1 = .success := by decide
  obtain ⟨⟨_, _, delivered⟩, back⟩ := twoCopies.roundTrip copyAndMap (fun _ => 0) []
    emptyTable_reach (fun flagged => absurd rfl flagged) filled_twoCopies (accessible_twoCopies _)
  have returned : twoCopies.Returned
      ⟨twoCopies.filledComm fun _ => 0, twoCopiesMemory, true, []⟩ twoCopiesEnded.2
      (hostOf twoCopiesEnded.2.memory) twoCopiesUser :=
    (back success (apart_twoCopies _) _ _ (accessible_twoCopies _) direct_twoCopies).1
  refine ⟨success, delivered, ?_, ?_⟩
  · rw [returned.outData]
    decide
  · rw [returned.flags 1 (by decide)]
    decide

/-- A buffer at the address of the output data: its copy is written back over the output data. -/
theorem roundTrip_overlap :
    (oneCopy 0x1000).Filled (fun _ => 0) (fun _ => 0) ∧
      (oneCopy 0x1000).Accessible (fun _ => 0) (fun _ => 0) ∧
      (oneCopy 0x1000).Accessible (fun _ => 0) (oneCopyEnded 0x1000).2.memory ∧
      (oneCopy 0x1000).Direct (fun _ => 0) (fun _ => 0) ∧
      (oneCopyEnded 0x1000).1 = .success ∧
      pointedBytes .little (oneCopyEnded 0x1000).2 none DspCmd.outData 4 = [1, 1, 1, 1] ∧
      userBytes ((oneCopy 0x1000).xrpUnmapRequest
          ((oneCopy 0x1000).completed (oneCopyEnded 0x1000).2.comm) (fun _ => 0) fun _ => 0)
        0x1000 4 = [0, 0, 0, 0] := by
  refine ⟨filled_oneCopy _, accessible_oneCopy _, accessible_oneCopy _, ?_, rfl, ?_, ?_⟩
  · exact fun long => absurd long four_inline
  · decide
  · decide

end RoundTrip

end Xrp.Exchange
