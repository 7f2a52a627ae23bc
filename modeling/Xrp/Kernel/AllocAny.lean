import Xrp.Kernel.AllocPartition

/-!
# Requests of any size

`xrp_private_alloc` rounds the size and the alignment of a request up to pages, rounds the start
of a block up to the alignment, and compares the sum of what it skips and what it takes with the
size of the block. All of this is 32-bit arithmetic, and only the rounded start is checked for
wrap-around. What is returned is what was asked for as long as the rounded size and the rounded
alignment do not exceed the address space together, and for every other request there is a pool
in which it is not.
-/

namespace Xrp.Kernel

/-! ## Runs with any arguments -/

/-- One call on the pool. Requests are arbitrary, and memory for list nodes may be short. -/
inductive AnyStep : PoolState 32 → PoolState 32 → Prop
  | alloc {st : PoolState 32} {pool : XrpPrivatePool 32} {a : XrpAllocation 32}
    (kzalloc kzallocAgain : Bool) (size align : U32) :
    xrpPrivateAlloc kzalloc kzallocAgain st.pool size align = (.ok a, pool) →
    AnyStep st ⟨pool, a :: st.live⟩
  | fail {st : PoolState 32} {pool : XrpPrivatePool 32} {e : Errno}
    (kzalloc kzallocAgain : Bool) (size align : U32) :
    xrpPrivateAlloc kzalloc kzallocAgain st.pool size align = (.error e, pool) →
    AnyStep st ⟨pool, st.live⟩
  | free {st : PoolState 32} {a : XrpAllocation 32} :
    a ∈ st.live → AnyStep st ⟨xrpPrivateFree st.pool a.toBlock, st.live.erase a⟩

/-- The states a pool of `len` bytes at `start` can reach. -/
abbrev AnyReach (start len : U32) : PoolState 32 → Prop :=
  Relation.ReflTransGen AnyStep ⟨xrpInitPrivatePool start len, []⟩

/-- The allocation is as large as asked for and aligned, and was inside one of the blocks. -/
structure Adequate (blocks : List (Block 32)) (size align : U32) (a : XrpAllocation 32) :
    Prop where
  large : size.toNat ≤ a.size.toNat
  aligned : align = 0 ∨ align.toNat ∣ a.start.toNat
  paged : 4096 ∣ a.start.toNat
  inside : ∃ b ∈ blocks, b.extent.base ≤ a.extent.base ∧ a.extent.stop ≤ b.extent.stop

/-! ## Requests that leave room -/

section Room

variable {align size : U32} {k : ℕ}

/-- The test of the loop is exact if the sum in it does not wrap around. -/
theorem inside_of_fit {cur : Block 32} (hk : k < 32) (hAlign : align.toNat = 2 ^ k)
    (room : size.toNat + 2 ^ k ≤ 2 ^ 32) (above : cur.start ≤ ALIGN cur.start align)
    (fit : ALIGN cur.start align - cur.start + size ≤ cur.size) :
    (ALIGN cur.start align).toNat + size.toNat ≤ cur.extent.stop := by
  have skipped : (ALIGN cur.start align).toNat - cur.start.toNat < 2 ^ k :=
    ALIGN_sub_lt hk hAlign
  have sum : (ALIGN cur.start align - cur.start + size).toNat =
      (ALIGN cur.start align).toNat - cur.start.toNat + size.toNat := by
    rw [← BitVec.toNat_sub_of_le above] at skipped ⊢
    exact BitVec.toNat_add_of_lt (by omega)
  have order := BitVec.le_def.mp above
  have bound := BitVec.le_def.mp fit
  rw [sum] at bound
  simp only [Block.extent, Extent.stop]
  omega

/-- The place that the loop finds is aligned and inside a block. -/
theorem xrpPrivateAllocLoop_inside {blocks : List (Block 32)} {found : Found 32} (hk : k < 32)
    (hAlign : align.toNat = 2 ^ k) (room : size.toNat + 2 ^ k ≤ 2 ^ 32)
    (place : xrpPrivateAllocLoop align size blocks = some found) :
    2 ^ k ∣ found.alignedStart.toNat ∧ ∃ b ∈ blocks, b.extent.base ≤ found.alignedStart.toNat ∧
      found.alignedStart.toNat + size.toNat ≤ b.extent.stop := by
  obtain ⟨cur, member, ⟨above, fit⟩, start⟩ := xrpPrivateAllocLoop_admits place
  rw [BitVec.setWidth_eq] at above fit start
  rw [BitVec.setWidth_eq, BitVec.setWidth_eq] at fit
  rw [start]
  exact ⟨dvd_ALIGN hk hAlign, cur, member, BitVec.le_def.mp above,
    inside_of_fit hk hAlign room above fit⟩

/-- Whatever is on the free list, a request that leaves room is met. -/
theorem ValidRequest.adequate {kzalloc kzallocAgain : Bool} {pool pool' : XrpPrivatePool 32}
    {a : XrpAllocation 32} (valid : ValidRequest size align)
    (result : xrpPrivateAlloc kzalloc kzallocAgain pool size align = (.ok a, pool')) :
    Adequate pool.freeList size align a := by
  obtain ⟨⟨e, impossible⟩, -⟩ | ⟨found, place, -, ⟨-, -, -, impossible⟩ | taken⟩ :=
    xrpPrivateAlloc_cases result
  · cases impossible
  · cases impossible
  · cases taken
    obtain ⟨k, page, hk, hAlign, rounded⟩ := toNat_align valid.power
    have room := valid.room
    rw [rounded, ← valid.toNat_size] at room
    obtain ⟨aligned, inside⟩ := xrpPrivateAllocLoop_inside hk hAlign room place
    refine ⟨?_, ?_, (Nat.pow_dvd_pow 2 page).trans aligned, inside⟩
    · rw [valid.toNat_size]
      exact Nat.le_roundUp (by decide)
    · rcases valid.power with none | ⟨j, power⟩
      · exact .inl none
      · refine .inr (dvd_trans ?_ aligned)
        rw [← rounded, roundedAlign, power, max_eq_left Nat.one_le_two_pow, roundUp_page_of_pow]
        exact Nat.pow_dvd_pow 2 (le_max_left _ _)

end Room

/-! ## Requests that do not -/

/-- All of the address space but its first page. -/
def wholePool : XrpPrivatePool 32 := xrpInitPrivatePool 0x1000 0xFFFFF000

section Wrapped

variable {align size : U32} {k : ℕ}

/-- Every number of whole pages seems to fit. -/
theorem wholePool_find (size : U32) (page : 12 ≤ k) (hk : k < 32)
    (hAlign : (ALIGN (if align = 0 then 1 else align) pageSize).toNat = 2 ^ k) :
    ∃ found, wholePool.find size align = some found ∧ found.alignedStart.toNat = 2 ^ k := by
  generalize rounded : ALIGN (if align = 0 then 1 else align) pageSize = A at hAlign
  have pages : 2 ^ 12 ≤ 2 ^ k := Nat.pow_le_pow_right (by decide) page
  have below : 2 ^ k ≤ 2 ^ 31 := Nat.pow_le_pow_right (by decide) (by omega)
  have start : (ALIGN 0x1000 A).toNat = 2 ^ k := by
    have first : (0x1000 : U32).toNat = 2 ^ 12 := rfl
    rw [toNat_ALIGN hk hAlign (by rw [first]; omega), first]
    apply le_antisymm
    · exact Nat.roundUp_le (by omega) dvd_rfl pages
    · exact Nat.le_of_dvd (lt_of_lt_of_le (by decide) (Nat.le_roundUp (by omega)))
        (Nat.dvd_roundUp _ _)
  have above : 0x1000 ≤ ALIGN 0x1000 A := by
    rw [BitVec.le_def, start]
    exact pages
  have fit : ALIGN 0x1000 A - 0x1000 + ALIGN size pageSize ≤ 0xFFFFF000 := by
    have whole : 2 ^ 12 ∣ (ALIGN size pageSize).toNat := dvd_ALIGN (by decide) rfl
    have skipped : 2 ^ 12 ∣ (ALIGN 0x1000 A - 0x1000).toNat := by
      rw [BitVec.toNat_sub_of_le above, start]
      exact Nat.dvd_sub (Nat.pow_dvd_pow 2 page) dvd_rfl
    have size : (0xFFFFF000 : U32).toNat = 2 ^ 32 - 2 ^ 12 := rfl
    rw [BitVec.le_def, BitVec.toNat_add, size]
    omega
  unfold XrpPrivatePool.find wholePool xrpInitPrivatePool xrpPrivateAllocLoop
  simp only [rounded, BitVec.setWidth_eq]
  rw [if_pos ⟨above, fit⟩]
  split_ifs
  all_goals exact ⟨_, rfl, start⟩

/-- The check of the alignment lets zero and the powers of two pass. -/
theorem and_pred_eq_zero_iff :
    align &&& (align - 1) = 0 ↔ align = 0 ∨ align.toNat.isPowerOfTwo := by
  by_cases zero : align = 0
  · subst zero
    simp
  · have nonzero : align.toNat ≠ 0 := fun h => zero (BitVec.eq_of_toNat_eq h)
    have one : (1 : U32).toNat = 1 := rfl
    have positive : (1 : U32) ≤ align := by
      rw [BitVec.le_def, one]
      omega
    rw [BitVec.toNat_eq, BitVec.toNat_and, BitVec.toNat_sub_of_le positive, one,
      or_iff_right zero]
    exact Nat.and_sub_one_eq_zero_iff_isPowerOfTwo nonzero

/-- A request for some bytes, with such an alignment, is not refused. -/
theorem arguments_good (some_bytes : 1 ≤ size.toNat)
    (power : align = 0 ∨ align.toNat.isPowerOfTwo) :
    ¬ (size = 0 ∨ align &&& (align - 1) ≠ 0) := by
  rintro (rfl | bad)
  · exact absurd some_bytes (by decide)
  · exact bad (and_pred_eq_zero_iff.mpr power)

/-- So it is given out, at the first aligned address. -/
theorem wholePool_alloc (some_bytes : 1 ≤ size.toNat)
    (power : align = 0 ∨ align.toNat.isPowerOfTwo) :
    ∃ a pool, xrpPrivateAlloc true true wholePool size align = (.ok a, pool) ∧
      a.size = ALIGN size pageSize ∧ a.start.toNat = roundedAlign align := by
  obtain ⟨k, page, hk, hAlign, rounded⟩ := toNat_align power
  obtain ⟨found, place, start⟩ := wholePool_find size page hk hAlign
  have good := arguments_good some_bytes power
  exact ⟨_, _, xrpPrivateAlloc_found place good, rfl, start.trans rounded.symm⟩

/-- In this pool only requests that leave room are met. -/
theorem room_of_wholePool (some_bytes : 1 ≤ size.toNat)
    (power : align = 0 ∨ align.toNat.isPowerOfTwo)
    (met : ∀ a pool, xrpPrivateAlloc true true wholePool size align = (.ok a, pool) →
      Adequate wholePool.freeList size align a) :
    roundedSize size + roundedAlign align ≤ 2 ^ 32 := by
  obtain ⟨a, pool, result, sizeEq, startEq⟩ := wholePool_alloc some_bytes power
  have adequate := met a pool result
  have unwrapped : size.toNat + 2 ^ 12 - 1 < 2 ^ 32 := by
    by_contra wrap
    have large := adequate.large
    rw [sizeEq, ALIGN_wrapped (k := 12) (by decide) rfl (not_lt.mp wrap)] at large
    omega
  obtain ⟨b, member, -, upper⟩ := adequate.inside
  obtain rfl : b = ⟨0x1000, 0xFFFFF000⟩ := List.mem_singleton.mp member
  have taken : a.size.toNat = roundedSize size := by
    rw [sizeEq]
    exact toNat_ALIGN (k := 12) (by decide) rfl unwrapped
  have stop : (⟨0x1000, 0xFFFFF000⟩ : Block 32).extent.stop = 2 ^ 32 := rfl
  simp only [Block.extent, Extent.stop] at upper stop
  omega

end Wrapped

/-- **A request is met in every pool, as large as asked for, aligned, and inside one free block,
if and only if** its rounded size and its rounded alignment do not exceed the address space
together. -/
theorem xrpPrivateAlloc_adequate_iff {size align : U32} (some_bytes : 1 ≤ size.toNat)
    (power : align = 0 ∨ align.toNat.isPowerOfTwo) :
    (∀ start len st, AnyReach start len st → ∀ kzalloc kzallocAgain a pool,
      xrpPrivateAlloc kzalloc kzallocAgain st.pool size align = (.ok a, pool) →
      Adequate st.pool.freeList size align a) ↔
    roundedSize size + roundedAlign align ≤ 2 ^ 32 := by
  constructor
  · intro met
    exact room_of_wholePool some_bytes power (met _ _ _ .refl true true)
  · intro room start len st _ kzalloc kzallocAgain a pool result
    exact ValidRequest.adequate ⟨some_bytes, power, room⟩ result

/-- One page with no alignment. -/
theorem xrpPrivateAlloc_adequate_iff_page :
    roundedSize 1 + roundedAlign 0 ≤ 2 ^ 32 ∧
    ∀ start len st, AnyReach start len st → ∀ kzalloc kzallocAgain a pool,
      xrpPrivateAlloc kzalloc kzallocAgain st.pool 1 0 = (.ok a, pool) →
      Adequate st.pool.freeList 1 0 a :=
  ⟨by decide, (xrpPrivateAlloc_adequate_iff (by decide) (.inl rfl)).mpr (by decide)⟩

/-- A size that is rounded to zero, and a size and an alignment whose sum wraps around: in a new
pool of `0x10000000` bytes the first gives an empty allocation, in one of all memory but a page the
second gives one that passes the end of the address space. -/
theorem xrpPrivateAlloc_inadequate :
    (∃ pool, xrpPrivateAlloc true true (xrpInitPrivatePool (0x10000000 : U32) 0x10000000)
        0xFFFFF001 0 = (.ok ⟨⟨0x10000000, 0⟩, 1⟩, pool) ∧
      ¬ Adequate [⟨0x10000000, 0x10000000⟩] 0xFFFFF001 0 ⟨⟨0x10000000, 0⟩, 1⟩) ∧
    ∃ pool, xrpPrivateAlloc true true (xrpInitPrivatePool (0x1000 : U32) 0xFFFFF000)
        0x80001000 0x80000000 = (.ok ⟨⟨0x80000000, 0x80001000⟩, 1⟩, pool) ∧
      ¬ Adequate [⟨0x1000, 0xFFFFF000⟩] 0x80001000 0x80000000
        ⟨⟨0x80000000, 0x80001000⟩, 1⟩ := by
  refine ⟨⟨_, rfl, fun adequate => ?_⟩, _, rfl, fun adequate => ?_⟩
  · exact absurd adequate.large (by decide)
  · obtain ⟨b, member, -, upper⟩ := adequate.inside
    cases List.mem_singleton.mp member
    exact absurd upper (by decide)

end Xrp.Kernel
