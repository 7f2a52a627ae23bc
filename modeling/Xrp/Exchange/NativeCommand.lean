import Xrp.Exchange.UserMemory
import Xrp.Native.Buffers

/-!
# Commands of the native library

`_xrp_run_command` of `xrp_linux_native.c` puts the command of a client into the structures of
`XRP_IOCTL_QUEUE`, from where it gets to the handler on the DSP. Sizes are of 64 bits in the library
and of 32 bits in the structures, and the DSP grants one of two kinds of access.
-/

namespace Xrp.Exchange.NativeCommand

open Kernel Dsp
open Native.Api (Library Record Group)

/-! ## The library -/

/-- What `_xrp_run_command` gets of the queue and of the request. -/
structure Request : Type where
  useNsid : Bool
  nsid : Nsid
  inData : ULong
  inDataSize : ULong
  outData : ULong
  outDataSize : ULong
  bufferGroup : Option ℕ

/-- The records of the group of a request. -/
def Request.records (rq : Request) (lib : Library) : List Record :=
  match rq.bufferGroup with
  | none => []
  | some g => (lib.groups g).slots

/-- `ioctl_buffer[i]`. -/
def ioctlBuffer (lib : Library) (record : Record) : XrpIoctlBuffer :=
  let buffer := lib.buffers record.buffer
  ⟨record.accessFlags, buffer.size.setWidth 32, buffer.ptr⟩

/-- The loop over the buffers, which a mapped buffer ends. -/
def ioctlBuffers (lib : Library) : List Record → Option (List XrpIoctlBuffer)
  | [] => some []
  | record :: records =>
    if (lib.buffers record.buffer).mapCount > 0 then none
    else (ioctlBuffers lib records).map (ioctlBuffer lib record :: ·)

/-- The flags of `ioctl_queue`. -/
def queueFlags (useNsid : Bool) : U32 := if useNsid then queueFlagNsid else 0

theorem valid_queueFlags (useNsid : Bool) : queueFlags useNsid &&& ~~~queueValidFlags = 0 := by
  cases useNsid <;> decide

/-- `ioctl_queue` with the memory of `nsid`, and `ioctl_buffer`. -/
structure Ioctl : Type where
  queue : XrpIoctlQueue
  inDataAddr : ULong
  outDataAddr : ULong
  nsid : Nsid
  buffer : List XrpIoctlBuffer

/-- `_xrp_run_command` up to the ioctl; `none` if it fails before. -/
def xrpRunCommand (lib : Library) (rq : Request) : Option Ioctl := do
  let records := rq.records lib
  let buffer ← ioctlBuffers lib records
  pure
    { queue :=
        { flags := queueFlags rq.useNsid
          inDataSize := rq.inDataSize.setWidth 32
          outDataSize := rq.outDataSize.setWidth 32
          bufferSize := .ofNat 32 (records.length * sizeofIoctlBuffer)
          valid := valid_queueFlags rq.useNsid }
      inDataAddr := rq.inData
      outDataAddr := rq.outData
      nsid := rq.nsid
      buffer }

/-- The request that was mapped is the one of the ioctl. -/
structure Submits {order : ByteOrder} {translate : ULong → U32} (ioctl : Ioctl)
    (r : MappedRequest order translate) : Prop where
  queue : r.queue = ioctl.queue
  inDataAddr : r.inDataAddr = ioctl.inDataAddr
  outDataAddr : r.outDataAddr = ioctl.outDataAddr
  nsid : r.queue.flags &&& queueFlagNsid ≠ 0 → r.nsid = ioctl.nsid
  buffer : ∀ i < r.nBuffers, ioctl.buffer[i]? = some (r.buffers i)

/-! ## Commands -/

/-- A command as the two ends see it: the input data, the room for output data, and the access and
the size of each buffer. -/
@[ext]
structure Command : Type where
  inData : List U8
  outDataSize : ℕ
  buffers : List (U32 × ℕ)
  deriving DecidableEq

/-- What the client asks for. -/
def Request.asked (rq : Request) (lib : Library) (user : ULong → U8) : Command where
  inData := userBytes user rq.inData rq.inDataSize.toNat
  outDataSize := rq.outDataSize.toNat
  buffers := (rq.records lib).map fun record =>
    (record.accessFlags, (lib.buffers record.buffer).size.toNat)

/-- What the handler is given. -/
def given (order : ByteOrder) (s : Machine) : Command :=
  let n := bufferCount s.comm
  let args := handlerArgs s.comm n
  let buffers := buffersOf order (dspBufferOf s.comm) s n
  { inData := pointedBytes order s args.inDataAddr DspCmd.inData args.inDataSize
    outDataSize := args.outDataSize.toNat
    buffers := (List.range n).map fun i => ((buffers i).allowedAccess, (buffers i).size.toNat) }

namespace Command

/-- What is left of a command on its way. -/
def cut (c : Command) : Command where
  inData := c.inData.take (c.inData.length % 2 ^ 32)
  outDataSize := c.outDataSize % 2 ^ 32
  buffers := (c.buffers.take (c.buffers.length % 2 ^ 28)).map fun b =>
    (dspBufferAllowedAccess b.1, b.2 % 2 ^ 32)

/-- A command of which nothing is lost. -/
structure Fits (c : Command) : Prop where
  inData : c.inData.length < 2 ^ 32
  outDataSize : c.outDataSize < 2 ^ 32
  buffers : c.buffers.length < 2 ^ 28
  size : ∀ b ∈ c.buffers, b.2 < 2 ^ 32
  access : ∀ b ∈ c.buffers, b.1 = xrpRead ∨ b.1 = xrpReadWrite

theorem dspBufferAllowedAccess_eq_iff {flags : U32} :
    dspBufferAllowedAccess flags = flags ↔ flags = xrpRead ∨ flags = xrpReadWrite := by
  rw [dspBufferAllowedAccess]
  split_ifs with read
  · rw [read]
    decide
  · exact ⟨fun same => .inr same.symm, fun either => (either.resolve_left read).symm⟩

theorem map_take_eq_iff {α : Type} {f : α → α} {l : List α} {n : ℕ} (pos : 0 < n) :
    (l.take (l.length % n)).map f = l ↔ l.length < n ∧ ∀ a ∈ l, f a = a := by
  constructor
  · intro same
    have long := congrArg List.length same
    rw [List.length_map, List.length_take] at long
    have lt : l.length < n := (min_eq_right_iff.mp long).trans_lt (Nat.mod_lt _ pos)
    rw [Nat.mod_eq_of_lt lt, List.take_length] at same
    exact ⟨lt, fun a member => List.map_inj_left.mp (same.trans l.map_id.symm) a member⟩
  · rintro ⟨lt, fixed⟩
    rw [Nat.mod_eq_of_lt lt, List.take_length]
    exact (List.map_congr_left fixed).trans l.map_id

theorem cut_eq_iff (c : Command) : c.cut = c ↔ c.Fits := by
  have inData : c.cut.inData = c.inData ↔ c.inData.length < 2 ^ 32 := by
    have whole := map_take_eq_iff (f := id) (l := c.inData) (Nat.two_pow_pos 32)
    rw [List.map_id] at whole
    exact whole.trans (and_iff_left fun _ _ => rfl)
  have outDataSize : c.cut.outDataSize = c.outDataSize ↔ c.outDataSize < 2 ^ 32 :=
    Nat.mod_eq_iff_lt (Nat.two_pow_pos 32).ne'
  have buffers : c.cut.buffers = c.buffers ↔ c.buffers.length < 2 ^ 28 ∧
      ∀ b ∈ c.buffers, (dspBufferAllowedAccess b.1, b.2 % 2 ^ 32) = b :=
    map_take_eq_iff (Nat.two_pow_pos 28)
  have buffer (b : U32 × ℕ) : (dspBufferAllowedAccess b.1, b.2 % 2 ^ 32) = b ↔
      (b.1 = xrpRead ∨ b.1 = xrpReadWrite) ∧ b.2 < 2 ^ 32 := by
    rw [Prod.ext_iff, dspBufferAllowedAccess_eq_iff, Nat.mod_eq_iff_lt (Nat.two_pow_pos 32).ne']
  constructor
  · intro same
    obtain ⟨few, kept⟩ := buffers.mp (congrArg Command.buffers same)
    exact ⟨inData.mp (congrArg Command.inData same),
      outDataSize.mp (congrArg Command.outDataSize same), few,
      fun b member => ((buffer b).mp (kept b member)).2,
      fun b member => ((buffer b).mp (kept b member)).1⟩
  · intro fits
    rw [Command.ext_iff, inData, outDataSize, buffers]
    exact ⟨fits.inData, fits.outDataSize, fits.buffers, fun b member =>
      (buffer b).mpr ⟨fits.access b member, fits.size b member⟩⟩

end Command

/-! ## From the client to the handler -/

section Way

variable {lib : Library} {rq : Request} {ioctl : Ioctl} {order : ByteOrder}
  {translate : ULong → U32} {r : MappedRequest order translate} {comm : Comm}
  {memory : U32 → U8} {invoked : List (Option (ℕ × ℕ))} {host pool : ULong → U8}

theorem ioctlBuffers_eq (records : List Record) :
    ioctlBuffers lib records =
      if ∃ record ∈ records, (lib.buffers record.buffer).mapCount > 0 then none
      else some (records.map (ioctlBuffer lib)) := by
  induction records with
  | nil => rfl
  | cons record records ih =>
    rw [ioctlBuffers, ih]
    simp only [List.exists_mem_cons_iff]
    by_cases mapped : (lib.buffers record.buffer).mapCount > 0
    · rw [if_pos mapped, if_pos (.inl mapped)]
    · simp only [if_neg mapped, or_iff_right mapped]
      split_ifs <;> rfl

theorem xrpRunCommand_eq_none :
    xrpRunCommand lib rq = none ↔
      ∃ record ∈ rq.records lib, (lib.buffers record.buffer).mapCount > 0 := by
  rw [xrpRunCommand, ioctlBuffers_eq]
  split_ifs with mapped
  · exact iff_of_true rfl mapped
  · exact iff_of_false nofun mapped

/-- What gets to the kernel. -/
theorem xrpRunCommand_inv (run : xrpRunCommand lib rq = some ioctl) :
    ioctl.queue = ⟨queueFlags rq.useNsid, rq.inDataSize.setWidth 32, rq.outDataSize.setWidth 32,
        .ofNat 32 ((rq.records lib).length * sizeofIoctlBuffer), valid_queueFlags rq.useNsid⟩ ∧
      ioctl.inDataAddr = rq.inData ∧ ioctl.outDataAddr = rq.outData ∧ ioctl.nsid = rq.nsid ∧
      ioctl.buffer = (rq.records lib).map (ioctlBuffer lib) := by
  rw [xrpRunCommand, ioctlBuffers_eq] at run
  split_ifs at run with mapped
  · cases run
  · cases run
    exact ⟨rfl, rfl, rfl, rfl, rfl⟩

/-- The number of buffers that the kernel finds. -/
theorem nBuffers_submits (run : xrpRunCommand lib rq = some ioctl) (submits : Submits ioctl r) :
    r.nBuffers = (rq.records lib).length % 2 ^ 28 := by
  obtain ⟨queue, -⟩ := xrpRunCommand_inv run
  rw [MappedRequest.nBuffers, submits.queue, queue, sizeofIoctlBuffer, BitVec.toNat_ofNat]
  omega

theorem buffers_submits (run : xrpRunCommand lib rq = some ioctl) (submits : Submits ioctl r)
    {i : ℕ} (lt : i < r.nBuffers) :
    ∃ record, (rq.records lib)[i]? = some record ∧ r.buffers i = ioctlBuffer lib record := by
  obtain ⟨-, -, -, -, buffer⟩ := xrpRunCommand_inv run
  have found := submits.buffer i lt
  rw [buffer, List.getElem?_map, Option.map_eq_some_iff] at found
  obtain ⟨record, at_i, same⟩ := found
  exact ⟨record, at_i, same.symm⟩

theorem userBytes_take (user : ULong → U8) (addr : ULong) {n m : ℕ} (le : m ≤ n) :
    (userBytes user addr n).take m = userBytes user addr m := by
  rw [userBytes, ← List.map_take, List.take_range, min_eq_left le]
  rfl

/-- The buffers that the handler is given are those of the kernel. -/
theorem given_buffers (filled : r.Filled host pool) (accessible : r.Accessible host memory) :
    (given order (r.start comm memory invoked)).buffers =
      (List.range r.nBuffers).map fun i =>
        (dspBufferAllowedAccess (r.buffers i).flags, (r.buffers i).size.toNat) := by
  have count : bufferCount (r.start comm memory invoked).comm = r.nBuffers :=
    r.bufferCount_filledComm
  rw [given, count]
  refine List.map_congr_left fun i member => ?_
  have buffer : buffersOf order _ (r.start comm memory invoked) _ i = _ :=
    r.buffersOf_filledComm filled accessible (List.mem_range.mp member)
  exact congrArg (fun b : XrpBuffer => (b.allowedAccess, b.size.toNat)) buffer

/-- The handler is given what the client asked for, cut to the sizes of the structures. -/
theorem given_start (run : xrpRunCommand lib rq = some ioctl) (submits : Submits ioctl r)
    (filled : r.Filled host pool) (accessible : r.Accessible host memory) :
    given order (r.start comm memory invoked) = (rq.asked lib r.user).cut := by
  obtain ⟨queue, inDataAddr, -⟩ := xrpRunCommand_inv run
  have delivered : r.Delivered (r.start comm memory invoked) _ _ :=
    MappedRequest.delivered filled accessible
  apply Command.ext
  · have size : r.queue.inDataSize.toNat = rq.inDataSize.toNat % 2 ^ 32 := by
      rw [submits.queue, queue, BitVec.toNat_setWidth]
    have long : (userBytes r.user rq.inData rq.inDataSize.toNat).length = rq.inDataSize.toNat := by
      rw [userBytes, List.length_map, List.length_range]
    refine delivered.inData.trans ?_
    rw [size, submits.inDataAddr, inDataAddr, Command.cut, Request.asked, long,
      userBytes_take _ _ (Nat.mod_le _ _)]
  · refine (congrArg BitVec.toNat delivered.outDataSize).trans ?_
    rw [submits.queue, queue]
    exact BitVec.toNat_setWidth _ _
  · have count := nBuffers_submits run submits
    rw [given_buffers filled accessible]
    apply List.ext_getElem
    · simp [Command.cut, Request.asked, count, Nat.mod_le]
    · intro i lt _
      rw [List.length_map, List.length_range] at lt
      obtain ⟨record, at_i, same⟩ := buffers_submits run submits lt
      obtain ⟨_, rfl⟩ := List.getElem?_eq_some_iff.mp at_i
      simp [Command.cut, Request.asked, same, ioctlBuffer, BitVec.toNat_setWidth]

theorem flags_submits (run : xrpRunCommand lib rq = some ioctl) (submits : Submits ioctl r) :
    r.queue.flags &&& queueFlagNsid ≠ 0 ↔ rq.useNsid = true := by
  obtain ⟨queue, -⟩ := xrpRunCommand_inv run
  have flags : r.queue.flags = queueFlags rq.useNsid := by rw [submits.queue, queue]
  rw [flags]
  cases rq.useNsid <;> decide

theorem nsid_submits (run : xrpRunCommand lib rq = some ioctl) (submits : Submits ioctl r)
    (useNsid : rq.useNsid = true) : r.nsid = rq.nsid := by
  obtain ⟨-, -, -, nsid, -⟩ := xrpRunCommand_inv run
  rw [submits.nsid ((flags_submits run submits).mpr useNsid), nsid]

theorem handler_submits (run : xrpRunCommand lib rq = some ioctl) (submits : Submits ioctl r)
    (registry : Registry) :
    r.handler registry = if rq.useNsid then registry rq.nsid else none := by
  have flags := flags_submits run submits
  rw [MappedRequest.handler]
  by_cases useNsid : rq.useNsid = true
  · rw [if_pos (flags.mpr useNsid), if_pos useNsid, nsid_submits run submits useNsid]
  · rw [if_neg (flags.not.mpr useNsid), if_neg useNsid]

/-- **A command of the native library on its way to the DSP.** The library refuses a command exactly
if a buffer of its group is mapped. If the driver has mapped the request, one handler is called,
which is the one for the queue, and it is given what the client asked for, up to the sizes of the
structures of the ioctl: exactly what the client asked for if and only if no size is of 4 GB or
more, there are less than 2^28 buffers, and each of them may be read. -/
theorem xrpRunCommand_given {device : XrpDevice} {registry : Registry} (handlers : Handlers)
    (comm : Comm) (invoked : List (Option (ℕ × ℕ))) (reach : TableReach device registry)
    (known : rq.useNsid = true → registry rq.nsid ≠ none) :
    (xrpRunCommand lib rq = none ↔
      ∃ record ∈ rq.records lib, (lib.buffers record.buffer).mapCount > 0) ∧
    (xrpRunCommand lib rq = some ioctl → Submits ioctl r → r.Filled host pool →
      r.Accessible host memory →
        let s := r.start comm memory invoked
        (processed order handlers device s).invoked =
            invoked ++ [if rq.useNsid then registry rq.nsid else none] ∧
          given order s = (rq.asked lib r.user).cut ∧
          (given order s = rq.asked lib r.user ↔ (rq.asked lib r.user).Fits)) := by
  refine ⟨xrpRunCommand_eq_none, fun run submits filled accessible => ?_⟩
  intro s
  have delivered : given order s = (rq.asked lib r.user).cut :=
    given_start run submits filled accessible
  refine ⟨?_, delivered, ?_⟩
  · have known' (flagged : r.queue.flags &&& queueFlagNsid ≠ 0) : registry r.nsid ≠ none := by
      have useNsid := (flags_submits run submits).mp flagged
      rw [nsid_submits run submits useNsid]
      exact known useNsid
    obtain ⟨calls, -⟩ := r.processed_start handlers comm memory invoked reach known'
    rw [calls, handler_submits run submits]
  · rw [delivered]
    exact Command.cut_eq_iff _

/-- A library with a group of one buffer of four bytes, for writing. -/
def oneBuffer : Library :=
  { Library.init with
    buffers := fun _ => ⟨.host, 0x2000, 4, 0, 0⟩
    groups := fun _ => ⟨1, 1, fun _ => ⟨0, flagWrite⟩⟩ }

/-- A request with four bytes more than 4 GB of input data. -/
def longRequest : Request := ⟨false, fun _ => 0, 0x3000, 0x100000004, 0x1000, 4, some 0⟩

/-- What is left of it in the ioctl. -/
def longIoctl : Ioctl :=
  ⟨⟨0, 4, 4, 16, valid_noFlags⟩, 0x3000, 0x1000, fun _ => 0, [⟨flagWrite, 4, 0x2000⟩]⟩

theorem submits_longIoctl : Submits longIoctl (oneCopy 0x2000) where
  queue := rfl
  inDataAddr := rfl
  outDataAddr := rfl
  nsid _ := rfl
  buffer i lt := by
    obtain rfl : i = 0 := Nat.lt_one_iff.mp lt
    rfl

/-- Of 4 GB and four bytes the handler is given four, and a buffer for writing may be read. -/
theorem xrpRunCommand_given_long :
    let s := (oneCopy 0x2000).start (fun _ => 0) (fun _ => 0) []
    given .little s = ⟨[0, 0, 0, 0], 4, [(xrpReadWrite, 4)]⟩ ∧
      given .little s ≠ longRequest.asked oneBuffer fun _ => 0 := by
  intro s
  have run : xrpRunCommand oneBuffer longRequest = some longIoctl := rfl
  have unnamed : longRequest.useNsid ≠ true := by decide
  obtain ⟨-, -, whole⟩ := (xrpRunCommand_given writeAndMap (fun _ => 0) [] emptyTable_reach
    fun named => absurd named unnamed).2 run submits_longIoctl (filled_oneCopy 0x2000)
    (accessible_oneCopy 0x2000)
  refine ⟨by decide, whole.not.mpr fun fits => ?_⟩
  have small : (longRequest.asked oneBuffer fun _ => 0).inData.length < 2 ^ 32 := fits.inData
  have long : (longRequest.asked oneBuffer fun _ => 0).inData.length = 0x100000004 := by
    rw [Request.asked, userBytes, List.length_map, List.length_range]
    rfl
  omega

end Way

end Xrp.Exchange.NativeCommand
