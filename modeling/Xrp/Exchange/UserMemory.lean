import Xrp.Exchange.RoundTrip

/-!
# The user's memory after a command

`xrp_ioctl_submit_sync` from the answer of the DSP on: a request that succeeded is unmapped with
`xrp_unmap_request`, which puts the output data and then the shadow copies of the buffers into the
user's memory, and one that failed with `xrp_unmap_request_nowb`, which writes nothing. The blocks
of a request may overlap in any way.

Memory that is shared directly is one memory for both sides, so that what the DSP leaves there is in
the user's memory before the request is unmapped.
-/

namespace Xrp.Exchange

open Kernel Dsp

/-- The DSP after `process_command`. -/
def processed (order : ByteOrder) (handlers : Handlers) (device : XrpDevice) (s : Machine) :
    Machine :=
  ((processCommand order handlers device (s.comm DspCmd.flags)).run DspOp.act s).2

namespace MappedRequest

section Model

variable {order : ByteOrder} {translate : ULong → U32} (r : MappedRequest order translate)

/-- The DSP when the request is in the comm area. -/
def start (comm : Comm) (memory : U32 → U8) (invoked : List (Option (ℕ × ℕ))) : Machine :=
  ⟨r.filledComm comm, memory, true, invoked⟩

/-- What the handler of a request returns, and what it leaves of its buffers. -/
def handled (handlers : Handlers) (registry : Registry) (s : Machine) :
    XrpStatus × (Fin r.nBuffers → XrpBuffer) :=
  (handlerRun handlers (r.handler registry) r.nBuffers
    (buffersOf order (dspBufferOf s.comm) s r.nBuffers) s).1

/-- `xrp_ioctl_submit_sync` from `xrp_complete_hw_request` on, for the user's memory. -/
def userAfter (comm : Comm) (host user : ULong → U8) : ULong → U8 :=
  match (r.completed comm).ret with
  | .ok () => r.xrpUnmapRequest (r.completed comm) host user
  | .error _ => user

end Model

section WriteBack

variable {order : ByteOrder} {translate : ULong → U32} {r : MappedRequest order translate}
  {result : HwResult} {host user : ULong → U8} {s' : Machine}
  {group : Fin r.nBuffers → XrpBuffer} {a : ULong}

/-- A buffer that is written back. -/
theorem unmapBuffer_hit {i : Fin r.nBuffers} {k : ℕ}
    (flags : r.returnedFlags result host i = accessFlags (group i))
    (accessible : r.Accessible host s'.memory) (back : r.WrittenBack group i)
    (lt : k < (r.buffers i).size.toNat) :
    r.unmapBuffer result host user i ((r.buffers i).addr + .ofNat 64 k) =
      s'.memory ((r.descriptor i).addr + .ofNat 32 k) := by
  obtain ⟨write, shared, copy⟩ := back
  have addr : (r.descriptor i).addr = translate (r.buffer i shared).phys :=
    congrArg translate (dif_pos shared)
  obtain ⟨vaddr, size⟩ := (r.buffer i shared).alien copy.1
  have size' : (((r.buffers i).size.setWidth 64 : ULong)).toNat = (r.buffers i).size.toNat :=
    BitVec.toNat_setWidth_of_le (by decide)
  have small := (r.buffers i).size.isLt
  have write' : r.returnedFlags result host i &&& flagWrite ≠ 0 := by
    rw [flags]
    exact accessFlags_write_iff.mpr write
  rw [addr, accessible.buffer i shared k lt, unmapBuffer, dif_pos shared, xrpUnshareBlockWriteback,
    if_pos ⟨copy.1, write', copy.2⟩, vaddr, size, size', copyToUser_inside lt (by omega),
    SharedBlock.phys, if_pos copy.1, vaddr, add_sub_cancel_right, copied]

/-- The last buffer that is written back to an address decides. -/
theorem foldl_unmapBuffer_hit {n : ℕ} (le : n ≤ r.nBuffers) {i : Fin r.nBuffers} {k : ℕ}
    (flags : ∀ i : Fin r.nBuffers, r.returnedFlags result host i = accessFlags (group i))
    (accessible : r.Accessible host s'.memory) (back : r.WrittenBack group i)
    (lt : k < (r.buffers i).size.toNat) (inside : i < n)
    (miss : ∀ j : Fin r.nBuffers, i < j → j < n → r.WrittenBack group j →
      (r.buffers i).addr + .ofNat 64 k ∉ r.bufferBlock j) :
    (List.range n).foldl (r.unmapBuffer result host) user ((r.buffers i).addr + .ofNat 64 k) =
      s'.memory ((r.descriptor i).addr + .ofNat 32 k) := by
  induction n with
  | zero => exact absurd inside (Nat.not_lt_zero _)
  | succ n ih =>
    rw [List.range_succ, List.foldl_append, List.foldl_cons, List.foldl_nil]
    by_cases last : i.val = n
    · rw [← last]
      exact unmapBuffer_hit (flags i) accessible back lt
    · have later : i < ⟨n, le⟩ := Fin.lt_def.mpr (show i.val < n by omega)
      refine (unmapBuffer_miss (flags ⟨n, le⟩) (miss ⟨n, le⟩ later n.lt_succ_self)).trans ?_
      exact ih (by omega) (by omega) fun j after lt => miss j after (by omega)

end WriteBack

/-! ## The answer -/

section Answer

variable {order : ByteOrder} {translate : ULong → U32} {r : MappedRequest order translate}
  {device : XrpDevice} {registry : Registry} {host user : ULong → U8}

theorem completed_ret_eq (m : Comm) :
    (r.completed m).ret =
      if m DspCmd.flags &&& responseDeliveryFail ≠ 0 then .error .enxio else .ok () := by
  have flags : (xrpCommRead32 DspCmd.flags).run CommOp.act m = (m DspCmd.flags, m) := rfl
  simp only [completed, xrpCompleteHwRequest, Program.run_bind, flags]
  rfl

/-- What `process_command` calls, and what it leaves for the host. -/
theorem processed_start (handlers : Handlers) (comm : Comm) (memory : U32 → U8)
    (invoked : List (Option (ℕ × ℕ))) (reach : TableReach device registry)
    (known : r.queue.flags &&& queueFlagNsid ≠ 0 → registry r.nsid ≠ none) :
    let s := r.start comm memory invoked
    (processed order handlers device s).invoked = invoked ++ [r.handler registry] ∧
      (processed order handlers device s).comm DspCmd.flags =
        statusFlags (s.comm DspCmd.flags) (r.handled handlers registry s).1 ||| responseValid ∧
      ∀ i : Fin r.nBuffers,
        (descriptorOf order (dspBufferOf s.comm) (processed order handlers device s) i).flags =
          accessFlags ((r.handled handlers registry s).2 i) := by
  intro s
  have count : bufferCount s.comm = r.nBuffers := r.bufferCount_filledComm
  have ran := run_processCommand_handled order handlers (s.comm DspCmd.flags) s
    (selected_filledComm reach known) (.inr rfl)
  rw [count] at ran
  have answer : processed order handlers device s = _ := congrArg Prod.snd ran
  refine ⟨?_, ?_, fun i => ?_⟩
  · rw [answer]
    exact (accessWritten_keeps order handlers (r.handler registry) _ _ _ s).invoked
  · rw [answer]
    dsimp only
    rw [Function.update_self]
    rfl
  · rw [answer]
    dsimp only
    rw [descriptorOf_update_flags]
    exact (run_writeAccessFlags_flags r.fits i.isLt).trans (congrArg accessFlags (dif_pos i.isLt))

/-- What the user finds: `s` is the DSP before the command and `s'` after it, `group` what the
handler leaves of its buffers, `user` and `after` the user's memory before and after the request is
unmapped. -/
structure UserMemory (r : MappedRequest order translate) (group : Fin r.nBuffers → XrpBuffer)
    (s s' : Machine) (user after : ULong → U8) : Prop where
  /-- A buffer that is written back, where no later one is. -/
  buffer : ∀ i k, r.WrittenBack group i → k < (r.buffers i).size.toNat →
    (∀ j > i, r.WrittenBack group j → (r.buffers i).addr + .ofNat 64 k ∉ r.bufferBlock j) →
      after ((r.buffers i).addr + .ofNat 64 k) =
        s'.memory ((r.descriptor i).addr + .ofNat 32 k)
  /-- The output data, where no buffer is written back. -/
  outData : ∀ k < r.queue.outDataSize.toNat,
    (∀ i, r.WrittenBack group i → r.outDataAddr + .ofNat 64 k ∉ r.bufferBlock i) →
      after (r.outDataAddr + .ofNat 64 k) =
        (pointedBytes order s' (handlerArgs s.comm r.nBuffers).outDataAddr DspCmd.outData
          r.queue.outDataSize).getD k 0
  /-- All other memory. -/
  other : ∀ a, (∀ i, r.WrittenBack group i → a ∉ r.bufferBlock i) →
    a ∉ userBlock r.outDataAddr r.queue.outDataSize.toNat → after a = user a

theorem unmapOutData_other {result : HwResult} {a : ULong}
    (outside : a ∉ userBlock r.outDataAddr r.queue.outDataSize.toNat) :
    r.unmapOutData result host user a = user a := by
  rw [unmapOutData]
  split_ifs with long
  · apply xrpUnshareBlockWriteback_outside
    intro copy
    obtain ⟨vaddr, size⟩ := (r.outData long).alien copy.1
    rw [vaddr, size, BitVec.toNat_setWidth_of_le (by decide)]
    exact outside
  · exact copyToUser_outside outside

theorem unmapOutData_eq {comm : Comm} {s' : Machine} (accessible : r.Accessible host s'.memory)
    (direct : r.Direct host user) {k : ℕ} (lt : k < r.queue.outDataSize.toNat) :
    r.unmapOutData (r.completed s'.comm) host user (r.outDataAddr + .ofNat 64 k) =
      (pointedBytes order s' (dataArg (r.filledComm comm) DspCmd.outDataSize DspCmd.outData)
        DspCmd.outData r.queue.outDataSize).getD k 0 := by
  rw [r.outDataArg_filledComm]
  split_ifs with long
  · rw [unmapOutData_long accessible direct long lt]
    simp [pointedBytes, lt]
  · rw [unmapOutData_short long lt, completed_outData long, Option.getD_some]
    rfl

/-- A request is unmapped with its results exactly if the handler succeeded. -/
theorem completed_ret_answer {m comm : Comm} {status : XrpStatus}
    (word : m DspCmd.flags =
      statusFlags (r.filledComm comm DspCmd.flags) status ||| responseValid) :
    (r.completed m).ret = if status = .success then .ok () else .error .enxio := by
  have clear : r.filledComm comm DspCmd.flags &&& responseDeliveryFail = 0 := by
    rw [r.filledComm_flags]
    exact flagsWord_clear r.request
  rw [completed_ret_eq, word, BitVec.or_and_other (by decide), statusFlags]
  by_cases success : status = .success
  · rw [if_neg (not_not.mpr success), if_neg (not_not.mpr clear), if_pos success]
  · have failed : (r.filledComm comm DspCmd.flags ||| responseDeliveryFail) &&&
        responseDeliveryFail ≠ 0 := by
      rw [BitVec.or_and_flag]
      decide
    rw [if_pos success, if_pos failed, if_neg success]

/-- **The user's memory after a command**, for every handler, every way in which the blocks of the
request are shared and overlap, and every address: if the handler succeeds, the user finds what the
DSP left in the shadow copies of the buffers that the handler mapped for writing, the last one where
they overlap, then the output data, and elsewhere what was there when the DSP had answered. If it
does not succeed, the driver writes nothing. -/
theorem userAfter_eq (handlers : Handlers) (comm : Comm) (memory : U32 → U8)
    (invoked : List (Option (ℕ × ℕ))) (reach : TableReach device registry)
    (known : r.queue.flags &&& queueFlagNsid ≠ 0 → registry r.nsid ≠ none)
    (accessible : r.Accessible host
      (processed order handlers device (r.start comm memory invoked)).memory)
    (direct : r.Direct host user) :
    let s := r.start comm memory invoked
    let s' := processed order handlers device s
    let ran := r.handled handlers registry s
    (ran.1 = .success → r.UserMemory ran.2 s s' user (r.userAfter s'.comm host user)) ∧
      (ran.1 ≠ .success → r.userAfter s'.comm host user = user) := by
  intro s s' ran
  obtain ⟨-, word, left⟩ : _ ∧ s'.comm DspCmd.flags = _ ∧ _ :=
    processed_start handlers comm memory invoked reach known
  have flags (i : Fin r.nBuffers) :
      r.returnedFlags (r.completed s'.comm) host i = accessFlags (ran.2 i) :=
    (returnedFlags_eq accessible i.isLt).trans (left i)
  have ret := completed_ret_answer word
  refine ⟨fun success => ?_, fun failure => ?_⟩
  · rw [if_pos success] at ret
    rw [userAfter, ret]
    refine ⟨fun i k back lt later => ?_, fun k lt miss => ?_, fun a miss outside => ?_⟩
    · exact foldl_unmapBuffer_hit le_rfl flags accessible back lt i.isLt
        fun j after _ => later j after
    · exact (foldl_unmapBuffer_miss le_rfl flags fun i _ => miss i).trans
        (unmapOutData_eq accessible direct lt)
    · exact (foldl_unmapBuffer_miss le_rfl flags fun i _ => miss i).trans
        (unmapOutData_other outside)
  · rw [if_neg failure] at ret
    rw [userAfter, ret]

/-- Four bytes of output data and a buffer of four bytes over the last two of them, in memory that
holds sevens: the handler writes ones as output data, and the copy of the buffer holds zeros. -/
theorem userAfter_eq_overlap :
    let s := (oneCopy 0x1002).start (fun _ => 0) (fun _ => 0) []
    let after := (oneCopy 0x1002).userAfter
      (processed .little writeAndMap ⟨0, 0, fun _ => ⟨fun _ => 0, 0, 0⟩⟩ s).comm
      (fun _ => 0) fun _ => 7
    after 0x1001 = 1 ∧ after 0x1002 = 0 ∧ after 0x1006 = 7 := by
  intro s after
  have direct : (oneCopy 0x1002).Direct (fun _ => 0) fun _ => 7 :=
    fun long => absurd long four_inline
  have memory := ((oneCopy 0x1002).userAfter_eq writeAndMap (fun _ => 0) (fun _ => 0) []
    emptyTable_reach (fun flagged => absurd rfl flagged) (accessible_oneCopy _) direct).1 rfl
  have back : (oneCopy 0x1002).WrittenBack
      ((oneCopy 0x1002).handled writeAndMap (fun _ => none) s).2 ⟨0, Nat.one_pos⟩ :=
    ⟨by decide, by decide, rfl, rfl⟩
  have before : ¬ ((0x1001 : ULong) - 0x1002).toNat < 4 := by decide
  have behind : ¬ ((0x1006 : ULong) - 0x1002).toNat < 4 := by decide
  have outside : ¬ ((0x1006 : ULong) - 0x1000).toNat < 4 := by decide
  refine ⟨?_, ?_, ?_⟩
  · exact (memory.outData 1 (by decide) fun _ _ => before).trans (by decide)
  · refine memory.buffer ⟨0, Nat.one_pos⟩ 0 back (by decide) fun j after => ?_
    exact absurd j.isLt (Nat.not_lt.mpr after)
  · exact memory.other 0x1006 (fun _ _ => behind) outside

end Answer

end MappedRequest

end Xrp.Exchange
