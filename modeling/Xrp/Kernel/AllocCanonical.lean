import Xrp.Kernel.AllocPartition

/-!
# Frees commute and undo allocations

Free blocks and live allocations share the bytes of a pool between them, and a separated list is
determined by the bytes it holds. So what is live determines the free list: it does not matter in
which order allocations were freed, or whether a block was split and merged again on the way.
-/

namespace Xrp.Kernel

variable {w : ℕ}

theorem Block.extent_injective : Function.Injective (Block.extent : Block w → Extent) := by
  rintro ⟨start, size⟩ ⟨start', size'⟩ same
  have base : start.toNat = start'.toNat := congrArg Extent.base same
  have len : size.toNat = size'.toNat := congrArg Extent.len same
  rw [BitVec.eq_of_toNat_eq base, BitVec.eq_of_toNat_eq len]

/-- What is live in a pool determines its free list. -/
theorem PoolState.Partitioned.pool_eq {st st' : PoolState w} (inv : st.Partitioned)
    (inv' : st'.Partitioned) (start : st.pool.start = st'.pool.start)
    (size : st.pool.size = st'.pool.size) (live : st.live = st'.live) : st.pool = st'.pool := by
  have cover (b : ℕ) : Extent.coverCount (st.pool.freeList.map Block.extent) b =
      Extent.coverCount (st'.pool.freeList.map Block.extent) b := by
    have total := inv.cover b
    have total' := inv'.cover b
    rw [PoolState.extents, Extent.coverCount_append] at total total'
    rw [← live, ← start, ← size, ← total] at total'
    exact (Nat.add_right_cancel total').symm
  have extents := inv.separated.eq_of_cover inv'.separated cover
  have freeList := Block.extent_injective.list_map extents
  cases st with | mk pool _ =>
  cases st' with | mk pool' _ =>
  cases pool
  cases pool'
  cases start
  cases size
  cases freeList
  rfl

/-! ## Freeing several allocations -/

/-- Calls of `xrp_private_free`, one after another. -/
def freeEach (pool : XrpPrivatePool w) (as : List (XrpAllocation w)) : XrpPrivatePool w :=
  as.foldl (fun pool a => xrpPrivateFree pool a.toBlock) pool

/-- Live allocations can be freed in any order. -/
theorem run_freeEach {st : PoolState w} {as : List (XrpAllocation w)}
    (live : as.Subperm st.live) :
    Relation.ReflTransGen PoolStep st ⟨freeEach st.pool as, st.live.diff as⟩ := by
  induction as generalizing st with
  | nil => exact .refl
  | cons a as ih =>
    have member : a ∈ st.live := live.subset List.mem_cons_self
    have others : as.Subperm (st.live.erase a) := by
      have erased := live.erase a
      rwa [List.erase_cons_head] at erased
    have rest := @ih ⟨xrpPrivateFree st.pool a.toBlock, st.live.erase a⟩ others
    rw [List.diff_cons]
    exact .head (.free member) rest

theorem diff_self {α : Type} [DecidableEq α] (l : List α) : l.diff l = [] := by
  induction l with
  | nil => rfl
  | cons a l ih =>
    rw [List.diff_cons, List.erase_cons_head]
    exact ih

section Reachable

variable {start size : U32} {st st' : PoolState 32}

/-- States of one pool with the same live allocations have the same free list. -/
theorem PoolReach.pool_eq (nonempty : 0 < size.toNat) (fits : start.toNat + size.toNat ≤ 2 ^ 32)
    (reach : PoolReach start size st) (reach' : PoolReach start size st')
    (live : st.live = st'.live) : st.pool = st'.pool := by
  obtain ⟨inv, sameStart, sameSize⟩ := reach.partitioned le_rfl nonempty fits
  obtain ⟨inv', sameStart', sameSize'⟩ := reach'.partitioned le_rfl nonempty fits
  exact inv.pool_eq inv' (sameStart.trans sameStart'.symm) (sameSize.trans sameSize'.symm) live

/-- **Frees commute and undo allocations.** Live allocations give the same free list in whatever
order they are freed; when all are freed the pool is one block again; and an allocation that is
freed at once leaves the free list as it was. -/
theorem privatePool_frees (nonempty : 0 < size.toNat)
    (fits : start.toNat + size.toNat ≤ 2 ^ 32) (reach : PoolReach start size st) :
    (∀ as bs, as.Subperm st.live → as.Perm bs →
      (freeEach st.pool as).freeList = (freeEach st.pool bs).freeList) ∧
    (∀ as, as.Perm st.live → (freeEach st.pool as).freeList = [⟨start, size⟩]) ∧
    ∀ asked align a pool, ValidRequest asked align →
      xrpPrivateAlloc true true st.pool asked align = (.ok a, pool) →
      (xrpPrivateFree pool a.toBlock).freeList = st.pool.freeList := by
  refine ⟨?_, ?_, ?_⟩
  · intro as bs live order
    have first := reach.trans (run_freeEach live)
    have second := reach.trans (run_freeEach (order.symm.subperm.trans live))
    exact congrArg XrpPrivatePool.freeList
      (PoolReach.pool_eq nonempty fits first second (order.diff_left st.live))
  · intro as all
    have emptied := reach.trans (run_freeEach all.subperm)
    have none_live : st.live.diff as = [] := by
      rw [all.diff_left st.live]
      exact diff_self st.live
    exact congrArg XrpPrivatePool.freeList
      (PoolReach.pool_eq nonempty fits emptied .refl none_live)
  · intro asked align a pool valid result
    have taken := reach.tail (.alloc asked align valid result)
    have back := taken.tail (.free List.mem_cons_self)
    exact congrArg XrpPrivatePool.freeList
      (PoolReach.pool_eq nonempty fits back reach (List.erase_cons_head a st.live))

end Reachable

/-- Two allocations at the end of the address space, freed in the order in which they were made. -/
theorem privatePool_frees_atTop :
    PoolReach (0xFFFFC000 : U32) 0x4000
      ⟨⟨0xFFFFC000, 0x4000, [⟨0xFFFFD000, 0x1000⟩]⟩,
        [⟨⟨0xFFFFE000, 0x2000⟩, 1⟩, ⟨⟨0xFFFFC000, 0x1000⟩, 1⟩]⟩ ∧
    (freeEach ⟨0xFFFFC000, 0x4000, [⟨0xFFFFD000, 0x1000⟩]⟩
        [⟨⟨0xFFFFC000, 0x1000⟩, 1⟩, ⟨⟨0xFFFFE000, 0x2000⟩, 1⟩]).freeList =
      [⟨(0xFFFFC000 : U32), 0x4000⟩] := by
  have first : PoolReach (0xFFFFC000 : U32) 0x4000
      ⟨⟨0xFFFFC000, 0x4000, [⟨0xFFFFD000, 0x3000⟩]⟩, [⟨⟨0xFFFFC000, 0x1000⟩, 1⟩]⟩ :=
    .tail .refl (.alloc 1 0 ⟨by decide, .inl rfl, by decide⟩ rfl)
  have reach := first.tail (.alloc 4097 0x2000 ⟨by decide, .inr ⟨13, rfl⟩, by decide⟩ rfl)
  exact ⟨reach, (privatePool_frees (by decide) (by decide) reach).2.1 _ (.swap _ _ _)⟩

end Xrp.Kernel
