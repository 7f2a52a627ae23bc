import Xrp.Kernel.AllocRefine

/-!
# The free-list partition invariant

Over any run of allocations and frees of live allocations, the free list of a
private pool stays sorted and fully coalesced, and free blocks and live
allocations partition the bytes of the pool.
-/

namespace Xrp.Kernel

variable {w : ℕ}

/-! ## Runs of a pool -/

/-- A pool together with the allocations that were handed out and not yet freed. -/
structure PoolState (w : ℕ) : Type where
  pool : XrpPrivatePool w
  live : List (XrpAllocation w)

/-- One call on the pool: an allocation that succeeds or fails, or freeing a live
allocation. Memory for list nodes is always there. -/
inductive PoolStep : PoolState w → PoolState w → Prop
  | alloc {st : PoolState w} {pool : XrpPrivatePool w} {a : XrpAllocation w} (size align : U32) :
    ValidRequest size align → xrpPrivateAlloc true true st.pool size align = (.ok a, pool) →
    PoolStep st ⟨pool, a :: st.live⟩
  | fail {st : PoolState w} {pool : XrpPrivatePool w} {e : Errno} (size align : U32) :
    ValidRequest size align → xrpPrivateAlloc true true st.pool size align = (.error e, pool) →
    PoolStep st ⟨pool, st.live⟩
  | free {st : PoolState w} {a : XrpAllocation w} :
    a ∈ st.live → PoolStep st ⟨xrpPrivateFree st.pool a.toBlock, st.live.erase a⟩

/-- The states a pool of `size` bytes at `start` can reach. -/
abbrev PoolReach (start : BitVec w) (size : U32) : PoolState w → Prop :=
  Relation.ReflTransGen PoolStep ⟨xrpInitPrivatePool start size, []⟩

/-- The extents of all free blocks and live allocations. -/
def PoolState.extents (st : PoolState w) : List Extent :=
  st.pool.freeList.map Block.extent ++ st.live.map fun a => a.extent

/-- The partition invariant: the free list is separated, and free blocks and live
allocations together hold every byte of the pool once and no other byte. -/
structure PoolState.Partitioned (st : PoolState w) : Prop where
  fits : st.pool.start.toNat + st.pool.size.toNat ≤ 2 ^ w
  separated : Extent.Separated (st.pool.freeList.map Block.extent)
  livePositive : ∀ a ∈ st.live, 0 < a.extent.len
  cover : ∀ b, Extent.coverCount st.extents b =
    Extent.hit ⟨st.pool.start.toNat, st.pool.size.toNat⟩ b

namespace PoolState.Partitioned

variable {st : PoolState w}

theorem holds_of_extent (inv : st.Partitioned) {b : Block w} (member : b.extent ∈ st.extents)
    (positive : 0 < b.extent.len) : st.pool.Holds b := by
  have first := Extent.hit_le_coverCount member b.extent.base
  have last := Extent.hit_le_coverCount member (b.extent.stop - 1)
  rw [inv.cover, Extent.hit_eq_one le_rfl (by unfold Extent.stop; omega)] at first
  rw [inv.cover, Extent.hit_eq_one (by unfold Extent.stop; omega)
    (by unfold Extent.stop; omega)] at last
  unfold Extent.hit Extent.stop at first last
  unfold XrpPrivatePool.Holds Extent.stop
  dsimp only at *
  split_ifs at first last <;> omega

theorem holds_free (inv : st.Partitioned) {b : Block w} (member : b ∈ st.pool.freeList) :
    st.pool.Holds b :=
  have mapped := List.mem_map_of_mem (f := Block.extent) member
  inv.holds_of_extent (List.mem_append_left _ mapped) (inv.separated.positive _ mapped)

theorem fits_free (inv : st.Partitioned) {b : Block w} (member : b ∈ st.pool.freeList) :
    b.Fits :=
  le_trans (inv.holds_free member).2 inv.fits

theorem holds_live (inv : st.Partitioned) {a : XrpAllocation w} (member : a ∈ st.live) :
    st.pool.Holds a.toBlock :=
  inv.holds_of_extent
    (List.mem_append_right _
      (List.mem_map_of_mem (f := fun a : XrpAllocation w => a.extent) member))
    (inv.livePositive a member)

/-- A live allocation lies beside every free block. -/
theorem live_apart (inv : st.Partitioned) {a : XrpAllocation w} (member : a ∈ st.live)
    {e : Extent} (free : e ∈ st.pool.freeList.map Block.extent) :
    e.stop ≤ a.extent.base ∨ a.extent.stop ≤ e.base := by
  refine Extent.apart_of_hit_le_one (inv.livePositive a member) (inv.separated.positive e free)
    fun b => ?_
  have freeHit := Extent.hit_le_coverCount free b
  have liveHit := Extent.hit_le_coverCount
    (List.mem_map_of_mem (f := fun a : XrpAllocation w => a.extent) member) b
  have total := inv.cover b
  rw [PoolState.extents, Extent.coverCount_append] at total
  have : Extent.hit ⟨st.pool.start.toNat, st.pool.size.toNat⟩ b ≤ 1 := by
    unfold Extent.hit
    split_ifs <;> omega
  omega

theorem init {start : BitVec w} {size : U32} (nonempty : 0 < size.toNat)
    (fits : start.toNat + size.toNat ≤ 2 ^ w) :
    Partitioned ⟨xrpInitPrivatePool start size, []⟩ where
  fits := fits
  separated := .cons nonempty (by simp) .nil
  livePositive := by simp
  cover := by
    intro b
    simp [PoolState.extents, xrpInitPrivatePool, Block.extent]

end PoolState.Partitioned

/-- One call keeps the invariant and the pool's own place. -/
theorem PoolStep.partitioned (wide : 32 ≤ w) {st st' : PoolState w} (step : PoolStep st st')
    (inv : st.Partitioned) : st'.Partitioned ∧
      st'.pool.start = st.pool.start ∧ st'.pool.size = st.pool.size := by
  cases step with
  | @alloc pool a size align valid result =>
    obtain ⟨sameStart, sameSize, len, carved⟩ :=
      xrpPrivateAlloc_ok wide valid (fun b => inv.fits_free) result
    have positive : 0 < roundedSize size :=
      lt_of_lt_of_le valid.positive (Nat.le_roundUp (by omega))
    have alignPos : 0 < roundedAlign align :=
      lt_of_lt_of_le (by omega : 0 < max align.toNat 1) (Nat.le_roundUp (by omega))
    obtain ⟨separated, -, -, counts⟩ := Extent.carve_spec alignPos positive inv.separated carved
    refine ⟨⟨by rw [sameStart, sameSize]; exact inv.fits, separated, ?_, fun b => ?_⟩,
      sameStart, sameSize⟩
    · intro c member
      rcases List.mem_cons.mp member with rfl | old
      · omega
      · exact inv.livePositive c old
    · have moved := counts b
      have total := inv.cover b
      have piece : (⟨a.extent.base, roundedSize size⟩ : Extent) = a.extent := by rw [← len]
      simp only [PoolState.extents, Extent.coverCount_append, List.map_cons,
        Extent.coverCount_cons, sameStart, sameSize] at total ⊢
      rw [piece] at moved
      omega
  | fail size align valid result =>
    rw [xrpPrivateAlloc_error result]
    exact ⟨⟨inv.fits, inv.separated, inv.livePositive, inv.cover⟩, rfl, rfl⟩
  | @free a member =>
    have aHolds := inv.holds_live member
    have released := xrpPrivateFreeLoop_extents wide inv.fits aHolds fun b => inv.holds_free
    have aPos := inv.livePositive a member
    refine ⟨⟨inv.fits, ?_, fun c rest => inv.livePositive c (List.mem_of_mem_erase rest),
      fun b => ?_⟩, rfl, rfl⟩
    · simp only [xrpPrivateFree, released]
      exact inv.separated.release aPos fun e free => inv.live_apart member free
    · have total := inv.cover b
      have split : Extent.coverCount (st.live.map fun a => a.extent) b =
          a.extent.hit b + Extent.coverCount ((st.live.erase a).map fun a => a.extent) b := by
        unfold Extent.coverCount
        rw [((List.perm_cons_erase member).map fun a => a.extent).map (Extent.hit · b) |>.sum_eq]
        rfl
      simp only [PoolState.extents, Extent.coverCount_append] at total ⊢
      simp only [xrpPrivateFree, released, Extent.coverCount_release]
      omega

/-- Every reachable state of a pool is partitioned. -/
theorem PoolReach.partitioned (wide : 32 ≤ w) {start : BitVec w} {size : U32}
    (nonempty : 0 < size.toNat) (fits : start.toNat + size.toNat ≤ 2 ^ w) {st : PoolState w}
    (reach : PoolReach start size st) :
    st.Partitioned ∧ st.pool.start = start ∧ st.pool.size = size := by
  induction reach with
  | refl => exact ⟨.init nonempty fits, rfl, rfl⟩
  | tail _ step ih =>
    obtain ⟨inv, sameStart, sameSize⟩ := step.partitioned wide ih.1
    exact ⟨inv, sameStart.trans ih.2.1, sameSize.trans ih.2.2⟩

/-- The free list of a private pool is always strictly sorted, without empty, overlapping
or touching blocks, and every byte of the pool lies in exactly one free block or live
allocation, every other byte in none. -/
theorem privatePool_partition {start size : U32} (nonempty : 0 < size.toNat)
    (fits : start.toNat + size.toNat ≤ 2 ^ 32) {st : PoolState 32}
    (reach : PoolReach start size st) :
    (st.pool.freeList.Pairwise fun a b => a.start < b.start) ∧
    (∀ b ∈ st.pool.freeList, 0 < b.size) ∧
    (st.pool.freeList.Pairwise fun a b => a.start.toNat + a.size.toNat < b.start.toNat) ∧
    ∀ byte : ℕ, Extent.coverCount st.extents byte =
      if start.toNat ≤ byte ∧ byte < start.toNat + size.toNat then 1 else 0 := by
  obtain ⟨inv, sameStart, sameSize⟩ := reach.partitioned le_rfl nonempty fits
  have gaps := List.pairwise_map.mp inv.separated.sorted
  refine ⟨gaps.imp fun {a b} gap => ?_, fun b member => ?_, gaps, fun byte => ?_⟩
  · simp only [Extent.stop, Block.extent] at gap
    exact BitVec.lt_def.mpr (by omega)
  · exact BitVec.lt_def.mpr (inv.separated.positive _ (List.mem_map_of_mem member))
  · rw [inv.cover, sameStart, sameSize]
    rfl

/-- A pool that ends at the end of the address space, after two allocations and the
freeing of the first. -/
theorem privatePool_partition_atTop :
    PoolReach (0xFFFFC000 : U32) 0x4000
      ⟨⟨0xFFFFC000, 0x4000, [⟨0xFFFFC000, 0x2000⟩]⟩, [⟨⟨0xFFFFE000, 0x2000⟩, 1⟩]⟩ ∧
    ∀ byte : ℕ, Extent.coverCount [⟨0xFFFFC000, 0x2000⟩, ⟨0xFFFFE000, 0x2000⟩] byte =
      if 0xFFFFC000 ≤ byte ∧ byte < 0x100000000 then 1 else 0 := by
  have first : PoolReach (0xFFFFC000 : U32) 0x4000
      ⟨⟨0xFFFFC000, 0x4000, [⟨0xFFFFD000, 0x3000⟩]⟩, [⟨⟨0xFFFFC000, 0x1000⟩, 1⟩]⟩ :=
    .tail .refl (.alloc 1 0 ⟨by decide, .inl rfl, by decide⟩ rfl)
  have reach := (first.tail
    (.alloc 4097 0x2000 ⟨by decide, .inr ⟨13, rfl⟩, by decide⟩ rfl)).tail
    (.free (a := ⟨⟨0xFFFFC000, 0x1000⟩, 1⟩) (by decide))
  exact ⟨reach, (privatePool_partition (by decide) (by decide) reach).2.2.2⟩

end Xrp.Kernel
