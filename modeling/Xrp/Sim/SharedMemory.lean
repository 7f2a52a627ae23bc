import Xrp.Kernel.AllocOutcome
import Xrp.Sim.Devices

/-!
# Shared memory of the simulation library

The memory of the simulated DSP is in regions of shared memory, and `p2v` finds the region of an
address. A device allocates its buffers, and the blocks for the data of its commands, from a pool
over its shared area, and accesses all of a block from the pointer to its first byte on.
`init_cdns_xrp_common` looks up the first byte of the area only.
-/

namespace Xrp.Sim.SharedMemory

open Kernel Devices

/-! ## Regions -/

/-- `struct xrp_shmem`; `ptr` is where the region is in the library's memory. -/
structure XrpShmem : Type where
  start : U32
  size : U32
  ptr : ULong
  deriving DecidableEq

/-- `find_shmem_by_phys`. -/
def findShmemByPhys (shmem : List XrpShmem) (addr : U32) : Option XrpShmem :=
  shmem.find? fun region => decide (addr ≥ region.start ∧ addr - region.start < region.size)

/-- `p2v`; `none` is `NULL`. -/
def p2v (shmem : List XrpShmem) (addr : U32) : Option ULong :=
  match findShmemByPhys shmem addr with
  | some region => some (region.ptr + addr.setWidth 64 - region.start.setWidth 64)
  | none => none

/-- All of an extent is accessed from the pointer to its first byte on. -/
def OneBlock (shmem : List XrpShmem) (e : Extent) : Prop :=
  ∃ ptr, ∀ k < e.len, p2v shmem (.ofNat 32 (e.base + k)) = some (ptr + .ofNat 64 k)

/-- The memory of what is allocated: each allocation is one block, and no two share a byte. -/
structure Backed (shmem : List XrpShmem) (live : List (XrpAllocation 32)) : Prop where
  oneBlock : ∀ a ∈ live, OneBlock shmem a.extent
  apart : live.Pairwise fun a b => ∀ i < a.extent.len, ∀ j < b.extent.len,
    p2v shmem (.ofNat 32 (a.extent.base + i)) ≠ p2v shmem (.ofNat 32 (b.extent.base + j))

/-- The whole pages of a pool. -/
def wholePages (start size : U32) : Extent :=
  ⟨start.toNat.roundUp 4096,
    (start.toNat + size.toNat) / 4096 * 4096 - start.toNat.roundUp 4096⟩

section Regions

variable {shmem : List XrpShmem} {e f : Extent}

/-- A part of one block is one block. -/
theorem OneBlock.part (block : OneBlock shmem e) (low : e.base ≤ f.base)
    (high : f.stop ≤ e.stop) : OneBlock shmem f := by
  obtain ⟨ptr, bytes⟩ := block
  unfold Extent.stop at high
  refine ⟨ptr + .ofNat 64 (f.base - e.base), fun k lt => ?_⟩
  have byte := bytes (f.base - e.base + k) (by omega)
  rw [add_assoc, ← BitVec.ofNat_add, ← byte]
  congr 2
  omega

/-- Different bytes of one block are at different places. -/
theorem OneBlock.p2v_ne (block : OneBlock shmem e) (stop : e.stop ≤ 2 ^ 32) {i j : ℕ}
    (i_low : e.base ≤ i) (i_high : i < e.stop) (j_low : e.base ≤ j) (j_high : j < e.stop)
    (ne : i ≠ j) : p2v shmem (.ofNat 32 i) ≠ p2v shmem (.ofNat 32 j) := by
  obtain ⟨ptr, bytes⟩ := block
  unfold Extent.stop at *
  have at_i := bytes (i - e.base) (by omega)
  have at_j := bytes (j - e.base) (by omega)
  rw [Nat.add_sub_cancel' i_low] at at_i
  rw [Nat.add_sub_cancel' j_low] at at_j
  rw [at_i, at_j]
  intro same
  have offsets := congrArg BitVec.toNat (add_left_cancel (Option.some.inj same))
  rw [BitVec.toNat_ofNat, BitVec.toNat_ofNat, Nat.mod_eq_of_lt (by omega),
    Nat.mod_eq_of_lt (by omega)] at offsets
  omega

end Regions

/-! ## The pool -/

section Pool

variable {start size : U32} {st st' : PoolState 32} {shmem : List XrpShmem}

/-- Allocations are of whole pages. -/
def Paged (st : PoolState 32) : Prop :=
  ∀ a ∈ st.live, 4096 ∣ a.extent.base ∧ 4096 ∣ a.extent.len

theorem paged_step (step : PoolStep st st') (inv : st.Partitioned) (paged : Paged st) :
    Paged st' := by
  cases step with
  | alloc size align valid result =>
    obtain ⟨-, -, len, -⟩ := xrpPrivateAlloc_ok le_rfl valid (fun b => inv.fits_free) result
    have place := ((inv.firstFit valid).lowest _ _ result).1.1
    intro a member
    rcases List.mem_cons.mp member with rfl | member
    · rw [len]
      exact ⟨(Nat.dvd_roundUp _ _).trans place, Nat.dvd_roundUp _ _⟩
    · exact paged a member
  | fail size align valid result => exact paged
  | free member => exact fun a kept => paged a (List.mem_of_mem_erase kept)

theorem paged_reach (nonempty : 0 < size.toNat) (fits : start.toNat + size.toNat ≤ 2 ^ 32)
    (reach : PoolReach start size st) : Paged st := by
  induction reach with
  | refl => exact fun a member => absurd member List.not_mem_nil
  | tail before step ih =>
    exact paged_step step (PoolReach.partitioned le_rfl nonempty fits before).1 ih

/-- An allocation is in the whole pages of its pool. -/
theorem mem_wholePages (nonempty : 0 < size.toNat) (fits : start.toNat + size.toNat ≤ 2 ^ 32)
    (reach : PoolReach start size st) {a : XrpAllocation 32} (member : a ∈ st.live) :
    (wholePages start size).base ≤ a.extent.base ∧
      a.extent.stop ≤ (wholePages start size).stop := by
  obtain ⟨inv, sameStart, sameSize⟩ := PoolReach.partitioned le_rfl nonempty fits reach
  obtain ⟨low, high⟩ := inv.holds_live member
  obtain ⟨base, len⟩ := paged_reach nonempty fits reach a member
  rw [sameStart] at low high
  rw [sameSize] at high
  have first : start.toNat.roundUp 4096 ≤ a.extent.base := Nat.roundUp_le (by decide) base low
  have positive := inv.livePositive a member
  refine ⟨first, ?_⟩
  unfold wholePages Extent.stop at *
  dsimp only
  omega

theorem dvd_wholePages (start size : U32) : 4096 ∣ (wholePages start size).len :=
  Nat.dvd_sub (Nat.dvd_mul_left _ _) (Nat.dvd_roundUp _ _)

theorem wholePages_len_le : (wholePages start size).len ≤ 2 ^ 32 - 4096 := by
  have small : (wholePages start size).len ≤ size.toNat := by
    have above := Nat.le_roundUp (b := start.toNat) (l := 4096) (by decide)
    unfold wholePages
    dsimp only
    omega
  have pages := dvd_wholePages start size
  have := size.isLt
  omega

theorem wholePages_stop (pages : 0 < (wholePages start size).len) :
    (wholePages start size).stop ≤ start.toNat + size.toNat := by
  unfold wholePages Extent.stop at *
  dsimp only at *
  omega

/-- All whole pages of a pool can be one allocation. -/
theorem exists_allocation (nonempty : 0 < size.toNat)
    (fits : start.toNat + size.toNat ≤ 2 ^ 32) (pages : 0 < (wholePages start size).len) :
    ∃ st a, PoolReach start size st ∧ a ∈ st.live ∧ a.extent = wholePages start size := by
  let whole := wholePages start size
  have positive : 0 < whole.len := pages
  have inv : PoolState.Partitioned ⟨xrpInitPrivatePool start size, []⟩ := .init nonempty fits
  have small : whole.len ≤ 2 ^ 32 - 4096 := wholePages_len_le
  have sized : (BitVec.ofNat 32 whole.len).toNat = whole.len :=
    (BitVec.toNat_ofNat _ _).trans (Nat.mod_eq_of_lt (by omega))
  have rounded : roundedSize (.ofNat 32 whole.len) = whole.len := by
    rw [roundedSize, sized]
    exact Nat.roundUp_of_dvd (by decide) (dvd_wholePages start size)
  have aligned : roundedAlign 0x10 = 4096 := by decide
  have valid : ValidRequest (.ofNat 32 whole.len) 0x10 :=
    ⟨by omega, .inr ⟨4, rfl⟩, by omega⟩
  obtain ⟨met, lowest⟩ := inv.firstFit valid
  have place : whole.base ∈ PoolState.freePlaces ⟨xrpInitPrivatePool start size, []⟩
      (.ofNat 32 whole.len) 0x10 := by
    refine ⟨aligned ▸ Nat.dvd_roundUp _ _, fun b low high => ⟨⟨?_, ?_⟩, nofun⟩⟩
    · exact (Nat.le_roundUp (by decide)).trans low
    · rw [rounded] at high
      exact high.trans_le (wholePages_stop pages)
  obtain ⟨a, pool, result⟩ := met.mpr ⟨_, place⟩
  obtain ⟨-, -, len, -⟩ := xrpPrivateAlloc_ok le_rfl valid (fun b => inv.fits_free) result
  obtain ⟨⟨multiple, free⟩, least⟩ := lowest a pool result
  have base : a.extent.base = whole.base := by
    refine le_antisymm (least place) (Nat.roundUp_le (by decide) (aligned ▸ multiple) ?_)
    exact (free _ le_rfl (by omega)).1.1
  refine ⟨_, a, .single (.alloc _ _ valid result), List.mem_cons_self, ?_⟩
  exact congrArg₂ Extent.mk base (len.trans rounded)

/-- What is allocated in a pool whose whole pages are one block. -/
theorem backed_of_oneBlock (nonempty : 0 < size.toNat)
    (fits : start.toNat + size.toNat ≤ 2 ^ 32) (reach : PoolReach start size st)
    (block : OneBlock shmem (wholePages start size)) : Backed shmem st.live := by
  obtain ⟨inv, -⟩ := PoolReach.partitioned le_rfl nonempty fits reach
  have inside (a : XrpAllocation 32) (member : a ∈ st.live) :=
    mem_wholePages nonempty fits reach member
  refine ⟨fun a member => block.part (inside a member).1 (inside a member).2, ?_⟩
  have single (b : ℕ) : Extent.coverCount (st.live.map fun a => a.extent) b ≤ 1 := by
    have total := inv.cover b
    rw [PoolState.extents, Extent.coverCount_append] at total
    unfold Extent.hit at total
    split_ifs at total <;> omega
  have apart := List.pairwise_map.mp
    (Extent.pairwise_apart (List.forall_mem_map.mpr inv.livePositive) single)
  refine apart.imp_of_mem fun {a b} a_live b_live beside i i_lt j j_lt => ?_
  obtain ⟨a_low, a_high⟩ := inside a a_live
  obtain ⟨b_low, b_high⟩ := inside b b_live
  have pages : 0 < (wholePages start size).len := by
    unfold Extent.stop at *
    omega
  have stop := (wholePages_stop pages).trans fits
  have a_stop : a.extent.stop = a.extent.base + a.extent.len := rfl
  have b_stop : b.extent.stop = b.extent.base + b.extent.len := rfl
  exact block.p2v_ne stop (by omega) (by omega) (by omega) (by omega) (by omega)

end Pool

/-! ## Devices -/

section Devices

variable {shmem : List XrpShmem} {memory : U32 → U32 → Bool} {m : Compatible} {node : Node}
  {d : XrpDeviceDescription}

/-- The pool is over the shared area, if there is memory for it. -/
def PoolMade (memory : U32 → U32 → Bool) (d : XrpDeviceDescription) : Prop :=
  d.sharedPool =
    if memory d.sharedBase d.sharedSize then some (d.sharedBase, d.sharedSize) else none

theorem initAreas_poolMade {len : ℕ} {areas : List U8 → XrpDeviceDescription}
    (made : initAreas ⟨p2v shmem, memory⟩ len areas node = ⟨true, some d⟩) :
    PoolMade memory d := by
  obtain ⟨reg, commPtr, sharedPtr, rfl⟩ := initAreas_ok made
  rfl

theorem initCdnsXrpHwSimpleCommon_shared (node : Node) (d : XrpDeviceDescription) :
    (initCdnsXrpHwSimpleCommon node d).sharedPool = d.sharedPool ∧
      (initCdnsXrpHwSimpleCommon node d).sharedBase = d.sharedBase ∧
      (initCdnsXrpHwSimpleCommon node d).sharedSize = d.sharedSize := by
  unfold initCdnsXrpHwSimpleCommon
  split
  · exact ⟨rfl, rfl, rfl⟩
  · split_ifs
    · exact ⟨rfl, rfl, rfl⟩
    · split <;> exact ⟨rfl, rfl, rfl⟩

theorem thenHwSimple_poolMade {init : Node → Init}
    (first : ∀ d, init node = ⟨true, some d⟩ → PoolMade memory d)
    (made : thenHwSimple init node = ⟨true, some d⟩) : PoolMade memory d := by
  obtain ⟨before, result, rfl⟩ := thenHwSimple_ok made
  obtain ⟨pool, base, size⟩ := initCdnsXrpHwSimpleCommon_shared node before
  rw [PoolMade, pool, base, size]
  exact first before result

theorem init_poolMade (made : init ⟨p2v shmem, memory⟩ m node = ⟨true, some d⟩) :
    PoolMade memory d := by
  cases m with
  | xrp => exact initAreas_poolMade made
  | xrpV1 => exact initAreas_poolMade made
  | xrpHwSimple => exact thenHwSimple_poolMade (fun _ => initAreas_poolMade) made
  | xrpHwSimpleV1 => exact thenHwSimple_poolMade (fun _ => initAreas_poolMade) made

/-- **The memory of the buffers of a device**, for every device that `initialize` finds and
whatever is allocated and freed: each allocation of the device is one block of the library's
memory and no two share a byte, if and only if the whole pages of the shared area are one block. -/
theorem backed_iff (made : init ⟨p2v shmem, memory⟩ m node = ⟨true, some d⟩)
    (nonempty : 0 < d.sharedSize.toNat)
    (fits : d.sharedBase.toNat + d.sharedSize.toNat ≤ 2 ^ 32) :
    PoolMade memory d ∧
    ((∀ st, PoolReach d.sharedBase d.sharedSize st → Backed shmem st.live) ↔
      OneBlock shmem (wholePages d.sharedBase d.sharedSize)) := by
  refine ⟨init_poolMade made, fun backed => ?_, fun block st reach => ?_⟩
  · by_cases pages : 0 < (wholePages d.sharedBase d.sharedSize).len
    · obtain ⟨st, a, reach, member, whole⟩ := exists_allocation nonempty fits pages
      rw [← whole]
      exact (backed st reach).oneBlock a member
    · exact ⟨0, fun k lt => absurd (k.zero_le.trans_lt lt) pages⟩
  · exact backed_of_oneBlock nonempty fits reach block

/-- A region of 64 kB. -/
def oneRegion : List XrpShmem := [⟨0x10000, 0x10000, 0x7f0000000000⟩]

/-- A device with a shared area of 128 kB that starts in the region. -/
def longArea : Node :=
  ⟨[.xrp], some [0, 1, 0, 0, 0, 0, 0, 4, 0, 1, 0, 0, 0, 0, 16, 0, 0, 1, 16, 0, 0, 2, 0, 0],
    none, none, none⟩

/-- The device is found, and not all that can be allocated has memory. -/
theorem backed_iff_longArea :
    (init ⟨p2v oneRegion, fun _ _ => true⟩ .xrp longArea).ret = true ∧
      ¬ ∀ st, PoolReach 0x11000 0x20000 st → Backed oneRegion st.live := by
  have made : init ⟨p2v oneRegion, fun _ _ => true⟩ .xrp longArea =
      ⟨true, some ⟨0x10000, 0x10000, 0x11000, 0x20000, some 0x7f0000000000,
        some 0x7f0000001000, 0, fun _ => 0, 0, some (0x11000, 0x20000)⟩⟩ := by decide
  refine ⟨congrArg Init.ret made, fun backed => ?_⟩
  obtain ⟨ptr, bytes⟩ := (backed_iff made (by decide) (by decide)).2.mp backed
  have behind : p2v oneRegion (.ofNat 32 (0x11000 + 0xf000)) = none := by decide
  have byte := bytes 0xf000 (by decide)
  cases behind.symm.trans byte

end Devices

end Xrp.Sim.SharedMemory
