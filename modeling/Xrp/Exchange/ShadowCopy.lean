import Xrp.Dsp.Confined
import Xrp.Kernel.MapRequest

/-!
# Shadow copies

`__xrp_share_block` gives the DSP the user's own memory or, where it cannot, a
copy in the pool, and `__xrp_unshare_block` writes the copy back. Which copy is
made depends on the flags of the user's descriptor, and the write-back on those
that the DSP returned. The contents of a user's buffer are followed here through
a whole command, for each kind of mapping, until all the blocks of the command are
unshared: where blocks overlap in the user's memory, the last write-back decides.

The DSP sees a buffer at the same address whichever way it is shared: a handler
may depend on addresses, and these are not what is compared.
-/

namespace Xrp.Exchange

open Kernel Dsp

/-! ## Contents of a shared block -/

section Contents

variable (m : XrpMapping) (flags : U32) (user pool dsp : ℕ → U8)

/-- The mapping is a shadow copy. -/
def IsCopy : Prop := m.kind = mappingAlien ∧ m.alienMapping.type = alienCopy

instance : Decidable (IsCopy m) := inferInstanceAs (Decidable (_ ∧ _))

/-- What the DSP finds in a block that was shared: the user's memory, or the memory of the pool,
where `xvp_copy_virt_to_phys` copies a block that is to be read. -/
def sharedContents : ℕ → U8 :=
  if IsCopy m then if flags &&& flagRead ≠ 0 then user else pool else user

/-- The user's memory when the DSP has left `dsp` in the block. -/
def userContents : ℕ → U8 := if IsCopy m then user else dsp

/-- `xrp_writeback_alien_mapping`. -/
def xrpWritebackAlienMapping (a : XrpAlienMapping) : ℕ → U8 :=
  if a.type = alienCopy then dsp else user

/-- The user's memory after `__xrp_unshare_block`. -/
def unsharedContents : ℕ → U8 :=
  if m.kind = mappingAlien ∧ flags &&& flagWrite ≠ 0 then
    xrpWritebackAlienMapping user dsp m.alienMapping
  else user

end Contents

/-! ## The user's memory -/

/-- The user's addresses of a block. -/
def userBlock (addr : ULong) (size : ℕ) : Set ULong := {a | (a - addr).toNat < size}

/-- `copy_to_user`. -/
def copyToUser (user : ULong → U8) (addr : ULong) (size : ℕ) (bytes : ℕ → U8) : ULong → U8 :=
  fun a => if (a - addr).toNat < size then bytes (a - addr).toNat else user a

section UserMemory

variable {user : ULong → U8} {addr : ULong} {size : ℕ} {bytes : ℕ → U8}

theorem mem_userBlock {a : ULong} : a ∈ userBlock addr size ↔ (a - addr).toNat < size := Iff.rfl

theorem user_offset {k : ℕ} (small : k < 2 ^ 64) : (addr + BitVec.ofNat 64 k - addr).toNat = k := by
  rw [add_sub_cancel_left, BitVec.toNat_ofNat, Nat.mod_eq_of_lt small]

theorem copyToUser_inside {k : ℕ} (lt : k < size) (small : size ≤ 2 ^ 64) :
    copyToUser user addr size bytes (addr + .ofNat 64 k) = bytes k := by
  rw [copyToUser, user_offset (lt.trans_le small), if_pos lt]

theorem copyToUser_outside {a : ULong} (outside : a ∉ userBlock addr size) :
    copyToUser user addr size bytes a = user a := if_neg outside

end UserMemory

/-! ## Unsharing -/

/-- `__xrp_unshare_block`, as far as it writes to the user's memory; `left` is in the copy. -/
def xrpUnshareBlockWriteback (left : ℕ → U8) (m : XrpMapping) (flags : U32)
    (user : ULong → U8) : ULong → U8 :=
  if m.kind = mappingAlien ∧ flags &&& flagWrite ≠ 0 ∧ m.alienMapping.type = alienCopy then
    copyToUser user m.alienMapping.vaddr m.alienMapping.size.toNat left
  else user

theorem xrpUnshareBlockWriteback_outside {left : ℕ → U8} {user : ULong → U8} {m : XrpMapping}
    {flags : U32} {a : ULong}
    (outside : IsCopy m → a ∉ userBlock m.alienMapping.vaddr m.alienMapping.size.toNat) :
    xrpUnshareBlockWriteback left m flags user a = user a := by
  rw [xrpUnshareBlockWriteback]
  split_ifs with copied
  · exact copyToUser_outside (outside ⟨copied.1, copied.2.2⟩)
  · rfl

section Alien

variable {env : ShareEnv} {flags : U32} {virt size : ULong} {counts : Counts} {a : XrpAlienMapping}

theorem xvpGupVirtToPhys_block
    (made : (xvpGupVirtToPhys env.gup virt size counts).1 = some a) :
    a.vaddr = virt ∧ a.size = size := by
  unfold xvpGupVirtToPhys at made
  grind

theorem shareDirect_block (made : (shareDirect env virt size counts).1 = some a) :
    a.vaddr = virt ∧ a.size = size := by
  unfold shareDirect at made
  split at made
  · obtain ⟨paddr, _, rfl⟩ := Option.map_eq_some_iff.mp made
    exact ⟨rfl, rfl⟩
  · exact xvpGupVirtToPhys_block made

theorem xvpCopyVirtToPhys_block
    (made : (xvpCopyVirtToPhys env.copy flags virt size counts).1 = .ok a) :
    a.vaddr = virt ∧ a.size = size := by
  unfold xvpCopyVirtToPhys at made
  grind

theorem shareAlien_block (made : (shareAlien env flags virt size counts).1 = some a) :
    a.vaddr = virt ∧ a.size = size := by
  unfold shareAlien at made
  split at made
  · next direct =>
    cases made
    exact shareDirect_block (congrArg Prod.fst direct)
  · split at made
    · next copied =>
      cases made
      exact xvpCopyVirtToPhys_block (congrArg Prod.fst copied)
    · cases made

/-- A mapping of memory that is not the driver's own is of the block that was shared. -/
theorem xrpShareBlock_alien {prior m : XrpMapping}
    (made : (xrpShareBlock env flags virt size prior counts).1 = some m)
    (alien : m.kind = mappingAlien) : m.alienMapping.vaddr = virt ∧ m.alienMapping.size = size := by
  unfold xrpShareBlock at made
  split at made
  · cases made
  · rw [← Option.some.inj made] at alien
    exact absurd alien (show mappingNative &&& ~~~mappingKernel ≠ mappingAlien by decide)
  · split at made
    · next shared =>
      rw [← Option.some.inj made]
      exact shareAlien_block (congrArg Prod.fst shared)
    · cases made

end Alien

/-- The bytes at a data pointer of the handler. -/
def pointedBytes (order : ByteOrder) (s : Machine) (addr : Option U32) (dataWord : ℕ)
    (size : U32) : List U8 :=
  match addr with
  | none =>
    (order.bytes ((List.range ((size.toNat + 3) / 4)).map fun i => s.comm (dataWord + i))).take
      size.toNat
  | some a => (List.range size.toNat).map fun k => s.memory (a + .ofNat 32 k)

/-! ## Commands with a user's buffer -/

/-- A command with a buffer that was submitted with the given flags and size. The other buffers
of the command are elsewhere, for the DSP as well as in the user's memory, where the output data
is elsewhere too. So is the table of descriptors, and the handler is confined to what it maps. -/
structure Submission (flags size : U32) : Type where
  order : ByteOrder
  handlers : Handlers
  device : XrpDevice
  cmdFlags : U32
  machine : Machine
  index : ℕ
  addr : U32
  virt : ℕ → ULong
  outDataAddr : ULong
  index_lt : index < bufferCount machine.comm
  descriptor : descriptorOf order (dspBufferOf machine.comm) machine index = ⟨flags, size, addr⟩
  others : ∀ j < bufferCount machine.comm, j ≠ index →
    let other := descriptorOf order (dspBufferOf machine.comm) machine j
    Disjoint (block other.addr other.size.toNat) (block addr size.toNat) ∧
      Disjoint (userBlock (virt j) other.size.toNat) (userBlock (virt index) size.toNat)
  outData : Disjoint (userBlock outDataAddr (machine.comm DspCmd.outDataSize).toNat)
    (userBlock (virt index) size.toNat)
  table : ∀ base, dspBufferOf machine.comm = some base →
    Disjoint (block base (12 * bufferCount machine.comm)) (block addr size.toNat)
  confined : ∀ handler, selected order device machine.comm = .call handler →
    Confined (block addr size.toNat)
      (handlers handler (handlerArgs machine.comm (bufferCount machine.comm)))
      (fun i => buffersOf order (dspBufferOf machine.comm) machine (bufferCount machine.comm) i) ∅

namespace Submission

variable {flags size : U32} (c : Submission flags size) (contents : ℕ → U8)

/-- The DSP's memory with the buffer's contents in place. -/
def start : Machine :=
  { c.machine with memory := placed c.machine.memory c.addr size.toNat contents }

/-- The number of buffers of the command. -/
def nBuffers : ℕ := bufferCount c.machine.comm

/-- The buffers as the DSP makes them. -/
def buffers : ℕ → XrpBuffer :=
  buffersOf c.order (dspBufferOf c.machine.comm) (c.start contents) c.nBuffers

/-- The DSP's memory after `process_command`. -/
def final : Machine :=
  ((processCommand c.order c.handlers c.device c.cmdFlags).run DspOp.act (c.start contents)).2

/-- The host takes the command for a successful one. -/
def Succeeds : Prop := (c.final contents).comm DspCmd.flags &&& responseDeliveryFail = 0

/-- What the DSP leaves in the buffer. -/
def left (i : ℕ) : U8 := (c.final contents).memory (c.addr + BitVec.ofNat 32 i)

/-- The flags that the DSP leaves in a descriptor. -/
def returnedAt (j : ℕ) : U32 :=
  (descriptorOf c.order (dspBufferOf c.machine.comm) (c.final contents) j).flags

/-- The flags that the DSP leaves in the buffer's descriptor. -/
def returned : U32 := c.returnedAt contents c.index

/-- Byte `i` of the buffer is in a range that the handler maps for writing. -/
def MapsForWriting (i : ℕ) : Prop :=
  ∃ handler, selected c.order c.device c.machine.comm = .call handler ∧
    (c.start contents).HasRoom c.nBuffers ∧
    c.addr + BitVec.ofNat 32 i ∈
      writeMapped (c.handlers handler (handlerArgs c.machine.comm c.nBuffers))
        (fun b => c.buffers contents b)
        { c.start contents with invoked := (c.start contents).invoked ++ [handler] }

/-- The descriptor that was made for a buffer. -/
def described (j : ℕ) : XrpDspBuffer :=
  descriptorOf c.order (dspBufferOf c.machine.comm) c.machine j

/-- How the rest of the command was shared in a run: the mappings of the other buffers, which are
zero without access flags, and that of long output data. `elsewhere` is the user's memory, apart
from the buffer, when the DSP has answered. -/
structure Rest : Type where
  mapping : ℕ → XrpMapping
  outMapping : XrpMapping
  elsewhere : ULong → U8
  made : ∀ j < c.nBuffers, j ≠ c.index →
    if (c.described j).flags &&& flagReadWrite ≠ 0 then
      ∃ env prior counts, (xrpShareBlock env (c.described j).flags (c.virt j)
        ((c.described j).size.setWidth 64) prior counts).1 = some (mapping j)
    else mapping j = .zero
  outMade : (c.machine.comm DspCmd.outDataSize).toNat > inlineDataSize →
    ∃ env prior counts, (xrpShareBlock env flagWrite c.outDataAddr
      ((c.machine.comm DspCmd.outDataSize).setWidth 64) prior counts).1 = some outMapping

/-- The output data that the DSP leaves. -/
def outBytes (k : ℕ) : U8 :=
  (pointedBytes c.order (c.final contents)
    (dataArg c.machine.comm DspCmd.outDataSize DspCmd.outData) DspCmd.outData
    (c.machine.comm DspCmd.outDataSize)).getD k 0

/-- The user's memory after the output data is unshared, or copied from the request. -/
def unmapOutData (outMapping : XrpMapping) (memory : ULong → U8) : ULong → U8 :=
  if (c.machine.comm DspCmd.outDataSize).toNat > inlineDataSize then
    xrpUnshareBlockWriteback (c.outBytes contents) outMapping flagWrite memory
  else
    copyToUser memory c.outDataAddr (c.machine.comm DspCmd.outDataSize).toNat
      (c.outBytes contents)

/-- The user's memory after buffer `j` is unshared, with the flags that the DSP returned. -/
def unmapBuffer (mapping : ℕ → XrpMapping) (memory : ULong → U8) (j : ℕ) : ULong → U8 :=
  xrpUnshareBlockWriteback
    (fun k => (c.final contents).memory ((c.described j).addr + BitVec.ofNat 32 k))
    (mapping j) (c.returnedAt contents j) memory

variable {c}

/-- The user's memory after the command, for the mapping that was made of the buffer: the output
data and then all the buffers are unshared by `xrp_unmap_request`. -/
def result (m : XrpMapping) (rest : c.Rest) (user pool : ℕ → U8) : ULong → U8 :=
  let contents := sharedContents m flags user pool
  let answered := copyToUser rest.elsewhere (c.virt c.index) size.toNat
    (userContents m user (c.left contents))
  (List.range c.nBuffers).foldl
    (c.unmapBuffer contents (Function.update rest.mapping c.index m))
    (c.unmapOutData contents rest.outMapping answered)

variable (c)

theorem fits : 12 * c.nBuffers ≤ 2 ^ 32 := by
  have small := (c.machine.comm DspCmd.bufferSize).isLt
  unfold nBuffers bufferCount sizeofDspBuffer
  omega

/-- What the handler returns. -/
def status (handler : Option (ℕ × ℕ)) : XrpStatus :=
  (handlerRun c.handlers handler c.nBuffers (c.buffers contents) (c.start contents)).1.1

section Result

variable {c} {m : XrpMapping} {rest : c.Rest} {user pool : ℕ → U8} {i : ℕ}

theorem sharedContents_of_read (read : flags &&& flagRead ≠ 0) :
    sharedContents m flags user pool = user := by
  rw [sharedContents, if_pos read, ite_self]

end Result

end Submission

/-! ## Transparency -/

/-- A buffer of this size that is submitted with these flags comes back the same from every
successful command, whichever way it and the rest of the command were shared and whatever was in the
pool, and with its previous contents where it was not mapped for writing. -/
def Transparent (flags size : U32) : Prop :=
  ∀ (c : Submission flags size) (env env' : ShareEnv) (prior prior' : XrpMapping)
    (counts counts' : Counts) (m m' : XrpMapping) (rest rest' : c.Rest) (user pool pool' : ℕ → U8),
    (xrpShareBlock env flags (c.virt c.index) (size.setWidth 64) prior counts).1 = some m →
    (xrpShareBlock env' flags (c.virt c.index) (size.setWidth 64) prior' counts').1 = some m' →
    c.Succeeds (sharedContents m flags user pool) →
    c.Succeeds (sharedContents m' flags user pool') →
    ∀ i < size.toNat,
      Submission.result m rest user pool (c.virt c.index + .ofNat 64 i) =
          Submission.result m' rest' user pool' (c.virt c.index + .ofNat 64 i) ∧
        (¬ c.MapsForWriting (sharedContents m flags user pool) i →
          Submission.result m rest user pool (c.virt c.index + .ofNat 64 i) = user i)

/-- The comm area of a command with one buffer at address 0. -/
def oneBuffer (flags size : U32) : Comm :=
  fun w => if w = DspCmd.bufferSize then 12 else if w = DspCmd.bufferData then flags
    else if w = DspCmd.bufferData + 1 then size else 0

section IdleWriter

variable {flags size : U32} (contents : ℕ → U8)

/-- Memory of the driver's own, shared directly. -/
def nativeEnv : ShareEnv := ⟨.single (some 0) none, ⟨none, false⟩, ⟨.error .enomem, 0, false⟩⟩

/-- Memory in more than one area, which is copied to the given address. -/
def copyEnv (phys : ℕ) : ShareEnv := ⟨.multiple, ⟨none, false⟩, ⟨.ok 0x1000, phys, false⟩⟩

/-- The mapping of the driver's own memory. -/
def nativeMapping : XrpMapping := ⟨mappingNative, ⟨0, 0, 0, 0, 0⟩⟩

/-- The mapping of memory that was copied. -/
def copyMapping (phys : ℕ) (virt size : ULong) : XrpMapping :=
  ⟨mappingAlien, ⟨virt, size, phys, 0x1000, alienCopy⟩⟩

theorem xrpShareBlock_nativeEnv (flags : U32) (virt size : ULong) (counts : Counts) :
    (xrpShareBlock nativeEnv flags virt size .zero counts).1 =
      some nativeMapping := rfl

theorem xrpShareBlock_copyEnv (phys : ℕ) (flags : U32) (virt size : ULong) (counts : Counts) :
    (xrpShareBlock (copyEnv phys) flags virt size .zero counts).1 =
      some (copyMapping phys virt size) := by
  simp [xrpShareBlock, copyEnv, shareAlien, shareDirect, xvpGupVirtToPhys, xvpCopyVirtToPhys,
    copyMapping]

end IdleWriter

end Xrp.Exchange
