import Xrp.Kernel.AllocOutcome
import Xrp.Kernel.MapRequest
import Xrp.Kernel.UserCopy

/-!
# Bounce buffers

`xvp_copy_virt_to_phys` of `xvp_main.c`: user memory that cannot be shared is copied to an
allocation of the pool, at a place that keeps the alignment of the user address. The bounds of the
`clamp` that picks the alignment are exchanged, so it is always 16; what is left of the intention is
done by the pool, whose allocations begin at a page. The length of the allocation is computed in 64
bits and cut to 32, and rounded up to pages there.
-/

namespace Xrp.Kernel.Bounce

/-! ## Model -/

/-- `clamp` of the kernel. -/
def clamp (val lo hi : ULong) : ULong :=
  let raised := if val < lo then lo else val
  if hi < raised then hi else raised

/-- The alignment of the copy. -/
def copyAlign (vaddr : ULong) : ULong := clamp (vaddr &&& -vaddr) (pageSize.setWidth 64) 16

/-- The place of the copy in an allocation that begins at `start`. -/
def copyPhys (start vaddr : ULong) : ULong :=
  let align := copyAlign vaddr
  let phys := (start &&& -align) ||| (vaddr &&& (align - 1))
  if phys < start then phys + align else phys

/-- What a shadow copy is made of: the allocation and the address in it. -/
structure Shadow : Type where
  allocation : XrpAllocation 64
  phys : ULong
  deriving DecidableEq

/-- What `xvp_copy_virt_to_phys` returns, leaves of the pool and copies. -/
structure Outcome : Type where
  result : Except Errno Shadow
  pool : XrpPrivatePool 64
  copies : List UserCopy

/-- `xvp_copy_virt_to_phys`, with a private pool. `kzalloc` and `kzallocAgain` are the results of
the calls that the pool makes. -/
def xvpCopyVirtToPhys (sys : CopySystem) (kzalloc kzallocAgain : Bool) (pool : XrpPrivatePool 64)
    (flags : U32) (vaddr size : ULong) : Outcome :=
  let align := copyAlign vaddr
  match xrpPrivateAlloc kzalloc kzallocAgain pool ((size + align).setWidth 32)
      (align.setWidth 32) with
  | (.error e, pool) => ⟨.error e, pool, []⟩
  | (.ok allocation, pool) =>
    let phys := copyPhys allocation.start vaddr
    if flags &&& flagRead ≠ 0 then
      match xrpCopyUserPhys sys true vaddr size phys with
      | (.ok (), copies) => ⟨.ok ⟨allocation, phys⟩, pool, copies⟩
      | (.error _, copies) =>
        -- `xrp_allocation_put` drops the only reference
        ⟨.error .efault, xrpPrivateFree pool allocation.toBlock, copies⟩
    else ⟨.ok ⟨allocation, phys⟩, pool, []⟩

/-! ## The place of the copy -/

section Place

variable {vaddr start : ULong}

/-- With its bounds exchanged `clamp` gives one of them. -/
theorem clamp_of_lt {val lo hi : ULong} (exchanged : hi < lo) : clamp val lo hi = hi := by
  have raised : hi < if val < lo then lo else val := by
    split_ifs with below
    · exact exchanged
    · have above := BitVec.le_def.mp (BitVec.not_lt.mp below)
      exact BitVec.lt_def.mpr (lt_of_lt_of_le (BitVec.lt_def.mp exchanged) above)
  exact if_pos raised

theorem copyAlign_eq (vaddr : ULong) : copyAlign vaddr = 16 := clamp_of_lt (by decide)

/-- In an allocation that begins at a page the copy begins at the low bits of the user address. -/
theorem toNat_copyPhys (paged : 4096 ∣ start.toNat) :
    (copyPhys start vaddr).toNat = start.toNat + vaddr.toNat % 16 := by
  have masked : (start &&& -(16 : ULong)).toNat = start.toNat := by
    rw [BitVec.toNat_and_neg (k := 4) (by decide) rfl]
    omega
  have offset : (vaddr &&& (16 - 1)).toNat = vaddr.toNat % 16 := by
    rw [BitVec.toNat_and]
    exact Nat.and_two_pow_sub_one_eq_mod vaddr.toNat 4
  have joined : ((start &&& -(16 : ULong)) ||| (vaddr &&& (16 - 1))).toNat =
      start.toNat + vaddr.toNat % 16 := by
    obtain ⟨q, multiple⟩ : 2 ^ 4 ∣ start.toNat := by omega
    rw [BitVec.toNat_or, masked, offset, multiple]
    exact (Nat.two_pow_add_eq_or_of_lt (Nat.mod_lt _ (by decide)) q).symm
  unfold copyPhys
  rw [copyAlign_eq, if_neg, joined]
  rw [BitVec.lt_def, joined]
  omega

end Place

/-! ## What the pool gives -/

section Given

variable {sys : CopySystem} {kzalloc kzallocAgain : Bool} {pool : XrpPrivatePool 64}
  {flags : U32} {vaddr size : ULong} {shadow : Shadow}

/-- A copy that succeeds is placed in an allocation that was made for it. -/
theorem allocated_of_ok
    (success : (xvpCopyVirtToPhys sys kzalloc kzallocAgain pool flags vaddr size).result =
      .ok shadow) :
    (∃ pool', xrpPrivateAlloc kzalloc kzallocAgain pool ((size + 16).setWidth 32) 16 =
      (.ok shadow.allocation, pool')) ∧
    shadow.phys = copyPhys shadow.allocation.start vaddr := by
  have align : (copyAlign vaddr).setWidth 32 = (16 : U32) := by
    rw [copyAlign_eq]
    rfl
  unfold xvpCopyVirtToPhys at success
  simp only [align] at success
  rw [copyAlign_eq] at success
  rcases allocated : xrpPrivateAlloc kzalloc kzallocAgain pool ((size + 16).setWidth 32) 16 with
    ⟨e | allocation, pool'⟩
  · rw [allocated] at success
    cases success
  · rw [allocated] at success
    simp only at success
    split_ifs at success
    · rcases copied : xrpCopyUserPhys sys true vaddr size (copyPhys allocation.start vaddr) with
        ⟨e | done, copies⟩
      · rw [copied] at success
        cases success
      · rw [copied] at success
        cases success
        exact ⟨⟨pool', rfl⟩, rfl⟩
    · cases success
      exact ⟨⟨pool', rfl⟩, rfl⟩

/-- The pool begins its allocations at pages. -/
theorem paged_of_ok {asked : U32} {a : XrpAllocation 64} {pool' : XrpPrivatePool 64}
    (allocated : xrpPrivateAlloc kzalloc kzallocAgain pool asked 16 = (.ok a, pool')) :
    4096 ∣ a.start.toNat ∧ a.size = ALIGN asked pageSize := by
  obtain ⟨⟨e, impossible⟩, -⟩ | ⟨found, place, -, ⟨-, -, -, impossible⟩ | taken⟩ :=
    xrpPrivateAlloc_cases allocated
  · cases impossible
  · cases impossible
  · cases taken
    exact ⟨dvd_alignedStart (k := 12) (by decide) (by decide) rfl place, rfl⟩

theorem toNat_phys_of_ok
    (success : (xvpCopyVirtToPhys sys kzalloc kzallocAgain pool flags vaddr size).result =
      .ok shadow) :
    4096 ∣ shadow.allocation.start.toNat ∧
      shadow.phys.toNat = shadow.allocation.start.toNat + vaddr.toNat % 16 := by
  obtain ⟨⟨pool', allocated⟩, place⟩ := allocated_of_ok success
  have paged := (paged_of_ok allocated).1
  exact ⟨paged, by rw [place, toNat_copyPhys paged]⟩

end Given

/-! ## The copy and its allocation -/

/-- The shadow copy of `size` bytes lies inside its allocation, and so does all that is touched by
copies to it and from it, now and later. -/
structure Contained (shadow : Shadow) (vaddr size : ULong) : Prop where
  lower : shadow.allocation.start.toNat ≤ shadow.phys.toNat
  upper : shadow.phys.toNat + size.toNat ≤
    shadow.allocation.start.toNat + shadow.allocation.size.toNat
  touched : ∀ sys toPhys, ∀ copy ∈ (xrpCopyUserPhys sys toPhys vaddr size shadow.phys).2,
    shadow.allocation.start.toNat ≤ copy.phys ∧
      copy.phys + copy.len ≤ shadow.allocation.start.toNat + shadow.allocation.size.toNat

section Contained

variable {sys : CopySystem} {kzalloc kzallocAgain : Bool} {pool : XrpPrivatePool 64}
  {flags : U32} {vaddr : ULong} {size : U32} {shadow : Shadow}

theorem Contained.of_upper {size : ULong}
    (lower : shadow.allocation.start.toNat ≤ shadow.phys.toNat)
    (upper : shadow.phys.toNat + size.toNat ≤
      shadow.allocation.start.toNat + shadow.allocation.size.toNat) :
    Contained shadow vaddr size := by
  refine ⟨lower, upper, fun sys toPhys copy member => ?_⟩
  have inside := mem_xrpCopyUserPhys member
  omega

/-- The pages that are asked for hold the copy, whatever its offset, only if neither the sum nor
its rounding wraps around. -/
theorem le_toNat_pages_iff {offset : ℕ} (small : offset < 16) (asked : 1 ≤ (size + 16).toNat) :
    offset + size.toNat ≤ (ALIGN (size + 16) pageSize).toNat ↔
      size.toNat + 16 ≤ 2 ^ 32 - 4096 := by
  have bound := size.isLt
  have sum : (size + 16).toNat = (size.toNat + 16) % 2 ^ 32 := BitVec.toNat_add size 16
  rcases Nat.lt_or_ge (size.toNat + 16) (2 ^ 32) with short | long
  · rw [Nat.mod_eq_of_lt short] at sum
    rcases Nat.lt_or_ge (size.toNat + 16 + 4095) (2 ^ 32) with fits | wraps
    · have rounded : (ALIGN (size + 16) pageSize).toNat = (size.toNat + 16).roundUp 4096 := by
        rw [← sum]
        exact toNat_ALIGN (k := 12) (by decide) rfl (by rw [sum]; omega)
      have above := Nat.le_roundUp (b := size.toNat + 16) (l := 4096) (by decide)
      rw [rounded]
      omega
    · have rounded : (ALIGN (size + 16) pageSize).toNat = 0 :=
        ALIGN_wrapped (k := 12) (by decide) rfl (by rw [sum]; omega)
      rw [rounded]
      omega
  · rw [Nat.mod_eq_sub_mod long, Nat.mod_eq_of_lt (by omega)] at sum
    have rounded : (ALIGN (size + 16) pageSize).toNat =
        (size.toNat + 16 - 2 ^ 32).roundUp 4096 := by
      rw [← sum]
      exact toNat_ALIGN (k := 12) (by decide) rfl (by rw [sum]; omega)
    have below := Nat.roundUp_lt (b := size.toNat + 16 - 2 ^ 32) (l := 4096) (by decide)
    rw [rounded]
    omega

/-- **A shadow copy fits its allocation, if and only if** its size plus 16, rounded up to pages,
can be written in 32 bits. -/
theorem xvpCopyVirtToPhys_contained_iff
    (success : (xvpCopyVirtToPhys sys kzalloc kzallocAgain pool flags vaddr
      (size.setWidth 64)).result = .ok shadow) :
    Contained shadow vaddr (size.setWidth 64) ↔ size.toNat + 16 ≤ 2 ^ 32 - 4096 := by
  obtain ⟨⟨pool', allocated⟩, -⟩ := allocated_of_ok success
  obtain ⟨-, place⟩ := toNat_phys_of_ok success
  have cut : (size.setWidth 64 + (16 : ULong)).setWidth 32 = size + 16 := by
    rw [BitVec.setWidth_add _ _ (by decide), BitVec.setWidth_setWidth_of_le size (by decide)]
    rfl
  rw [cut] at allocated
  obtain ⟨asked, -, -⟩ := accepted_of_ok allocated
  have pages := (paged_of_ok allocated).2
  have small := Nat.mod_lt vaddr.toNat (show 16 > 0 by decide)
  have wide : (size.setWidth 64).toNat = size.toNat := BitVec.toNat_setWidth_of_le (by decide)
  rw [← le_toNat_pages_iff small asked, ← pages]
  constructor
  · intro contained
    have upper := contained.upper
    rw [place, wide] at upper
    omega
  · intro fits
    refine .of_upper ?_ ?_
    · omega
    · rw [place, wide]
      omega

end Contained

/-- A system in which all copies succeed. -/
def smoothSystem : CopySystem := ⟨fun _ => true, fun _ => true, fun _ _ => true, fun _ _ => false⟩

/-- Twenty bytes from an address that is not aligned. -/
theorem xvpCopyVirtToPhys_contained_unaligned :
    Contained ⟨⟨⟨0x10000000, 0x1000⟩, 1⟩, 0x1000000c⟩ 0x7f000000100c
      ((20 : U32).setWidth 64) := by
  have success : (xvpCopyVirtToPhys smoothSystem true true
      (xrpInitPrivatePool 0x10000000 0x10000000) 2 0x7f000000100c ((20 : U32).setWidth 64)).result =
      .ok ⟨⟨⟨0x10000000, 0x1000⟩, 1⟩, 0x1000000c⟩ := rfl
  exact (xvpCopyVirtToPhys_contained_iff success).mpr (by decide)

/-- Of a size that passes the end of 32 bits with the alignment a page is allocated, and nothing at
all of one that does so when it is rounded. -/
theorem xvpCopyVirtToPhys_not_contained :
    ((xvpCopyVirtToPhys smoothSystem true true (xrpInitPrivatePool 0x10000000 0x10000000) 2
        0x7f0000001000 0xfffffff1).result = .ok ⟨⟨⟨0x10000000, 0x1000⟩, 1⟩, 0x10000000⟩ ∧
      ¬ Contained ⟨⟨⟨0x10000000, 0x1000⟩, 1⟩, 0x10000000⟩ 0x7f0000001000 0xfffffff1) ∧
    (xvpCopyVirtToPhys smoothSystem true true (xrpInitPrivatePool 0x10000000 0x10000000) 2
        0x7f0000001000 0xffffeff1).result = .ok ⟨⟨⟨0x10000000, 0⟩, 1⟩, 0x10000000⟩ ∧
      ¬ Contained ⟨⟨⟨0x10000000, 0⟩, 1⟩, 0x10000000⟩ 0x7f0000001000 0xffffeff1 := by
  refine ⟨⟨rfl, fun contained => ?_⟩, rfl, fun contained => ?_⟩
  · exact absurd contained.upper (by decide)
  · exact absurd contained.upper (by decide)

/-! ## Alignment -/

/-- The alignment that `README` documents: an address that is aligned to 16 bytes keeps up to 12
zero bits at its end, of any other the last four bits are kept. -/
structure KeepsAlignment (vaddr phys : ULong) : Prop where
  zeros : 4 ≤ vaddr.ctz.toNat → min 12 vaddr.ctz.toNat ≤ phys.ctz.toNat
  low : vaddr.ctz.toNat < 4 → phys.setWidth 4 = vaddr.setWidth 4

/-- **A bounce buffer keeps the alignment**, in every state of the pool. -/
theorem xvpCopyVirtToPhys_keepsAlignment {sys : CopySystem} {kzalloc kzallocAgain : Bool}
    {pool : XrpPrivatePool 64} {flags : U32} {vaddr size : ULong} {shadow : Shadow}
    (success : (xvpCopyVirtToPhys sys kzalloc kzallocAgain pool flags vaddr size).result =
      .ok shadow) : KeepsAlignment vaddr shadow.phys := by
  obtain ⟨paged, place⟩ := toNat_phys_of_ok success
  constructor
  · intro zeros
    have aligned : 16 ∣ vaddr.toNat := (BitVec.le_toNat_ctz_iff (k := 4) (by decide)).mp zeros
    have whole : 2 ^ 12 ∣ shadow.phys.toNat := by
      rw [place, Nat.mod_eq_zero_of_dvd aligned]
      exact paged
    exact (min_le_left _ _).trans ((BitVec.le_toNat_ctz_iff (by decide)).mpr whole)
  · intro _
    apply BitVec.eq_of_toNat_eq
    rw [BitVec.toNat_setWidth, BitVec.toNat_setWidth, place]
    omega

/-- An address with eight zero bits and one with two. -/
theorem xvpCopyVirtToPhys_keepsAlignment_both :
    KeepsAlignment 0x7f0000001100 0x10000000 ∧ KeepsAlignment 0x7f000000100c 0x1000000c := by
  have aligned : (xvpCopyVirtToPhys smoothSystem true true
      (xrpInitPrivatePool 0x10000000 0x10000000) 2 0x7f0000001100 20).result =
      .ok ⟨⟨⟨0x10000000, 0x1000⟩, 1⟩, 0x10000000⟩ := rfl
  have unaligned : (xvpCopyVirtToPhys smoothSystem true true
      (xrpInitPrivatePool 0x10000000 0x10000000) 2 0x7f000000100c 20).result =
      .ok ⟨⟨⟨0x10000000, 0x1000⟩, 1⟩, 0x1000000c⟩ := rfl
  exact ⟨xvpCopyVirtToPhys_keepsAlignment aligned, xvpCopyVirtToPhys_keepsAlignment unaligned⟩

/-! ## In a request -/

section Request

variable (sys : CopySystem) (kzalloc kzallocAgain : Bool) (pool : XrpPrivatePool 64)
  (vaddr size : ULong) (handle : XrpAllocation 64 → ULong)

/-- What the mapping of a request takes from its environment; `handle` is the pointer to an
allocation. -/
def copyEnv : CopyEnv :=
  match (xrpPrivateAlloc kzalloc kzallocAgain pool ((size + copyAlign vaddr).setWidth 32)
      ((copyAlign vaddr).setWidth 32)).1 with
  | .error e => ⟨.error e, 0, false⟩
  | .ok allocation =>
    let phys := copyPhys allocation.start vaddr
    ⟨.ok (handle allocation), phys.toNat, !(xrpCopyUserPhys sys true vaddr size phys).1.isOk⟩

/-- The mapping of a request makes a shadow copy in this way. -/
theorem xvpCopyVirtToPhys_copyEnv (flags : U32) (counts : Counts) :
    (Kernel.xvpCopyVirtToPhys (copyEnv sys kzalloc kzallocAgain pool vaddr size handle) flags vaddr
      size counts).1 =
    (xvpCopyVirtToPhys sys kzalloc kzallocAgain pool flags vaddr size).result.map fun shadow =>
      ⟨vaddr, size, shadow.phys.toNat, handle shadow.allocation, alienCopy⟩ := by
  unfold copyEnv xvpCopyVirtToPhys Kernel.xvpCopyVirtToPhys
  simp only
  rcases xrpPrivateAlloc kzalloc kzallocAgain pool ((size + copyAlign vaddr).setWidth 32)
    ((copyAlign vaddr).setWidth 32) with ⟨e | allocation, pool'⟩
  · rfl
  · by_cases read : flags &&& flagRead = 0#32
    · simp [read, Except.map]
    · rcases copied : xrpCopyUserPhys sys true vaddr size (copyPhys allocation.start vaddr) with
        ⟨e | done, copies⟩
      · simp [read, copied, Except.map, Except.isOk, Except.toBool]
      · simp [read, copied, Except.map, Except.isOk, Except.toBool]

end Request

end Xrp.Kernel.Bounce
