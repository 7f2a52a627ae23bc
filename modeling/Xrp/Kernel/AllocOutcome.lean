import Xrp.Kernel.AllocAny

/-!
# When an allocation succeeds, and what a failed one leaves

`xrp_private_alloc` looks at the first aligned place of each free block in turn. In a list that is
sorted and fully coalesced this finds the lowest aligned place in the pool, if there is one. A size
that is rounded to zero breaks this: the allocation without bytes becomes a free block without
bytes, in a place where it keeps two neighbours from being merged.

A block that is cut in the middle takes both nodes that the call has, and the list is changed
before a third one is asked for. If there is none the call fails, and the piece is lost.
-/

namespace Xrp.Kernel

/-! ## Careful runs -/

/-- One call on the pool. Requests may be refused and `kzalloc` may fail; but a request that is
not refused leaves room, and the node for a piece from the middle of a block is there. -/
inductive CarefulCall : PoolState 32 → PoolState 32 → Prop
  | alloc {st : PoolState 32} {pool : XrpPrivatePool 32} {a : XrpAllocation 32}
    (kzalloc : Bool) (size align : U32) :
    (1 ≤ size.toNat → align = 0 ∨ align.toNat.isPowerOfTwo →
      roundedSize size + roundedAlign align ≤ 2 ^ 32) →
    xrpPrivateAlloc kzalloc true st.pool size align = (.ok a, pool) →
    CarefulCall st ⟨pool, a :: st.live⟩
  | fail {st : PoolState 32} {pool : XrpPrivatePool 32} {e : Errno}
    (kzalloc : Bool) (size align : U32) :
    xrpPrivateAlloc kzalloc true st.pool size align = (.error e, pool) →
    CarefulCall st ⟨pool, st.live⟩
  | free {st : PoolState 32} {a : XrpAllocation 32} :
    a ∈ st.live → CarefulCall st ⟨xrpPrivateFree st.pool a.toBlock, st.live.erase a⟩

/-- The states that such calls reach in a pool of `len` bytes at `start`. -/
abbrev CarefulReach (start len : U32) : PoolState 32 → Prop :=
  Relation.ReflTransGen CarefulCall ⟨xrpInitPrivatePool start len, []⟩

/-- The arguments pass the check, and the first `kzalloc` succeeds. -/
def Accepted (kzalloc : Bool) (size align : U32) : Prop :=
  1 ≤ size.toNat ∧ (align = 0 ∨ align.toNat.isPowerOfTwo) ∧ kzalloc = true

/-- Else the call fails before it looks at the free list. -/
theorem xrpPrivateAlloc_of_not_accepted {w : ℕ} {kzalloc kzallocAgain : Bool}
    {pool : XrpPrivatePool w} {size align : U32} (refused : ¬ Accepted kzalloc size align) :
    ∃ e, xrpPrivateAlloc kzalloc kzallocAgain pool size align = (.error e, pool) := by
  unfold xrpPrivateAlloc
  by_cases bad : size = 0 ∨ align &&& (align - 1) ≠ 0
  · rw [if_pos bad]
    exact ⟨_, rfl⟩
  · obtain ⟨nonzero, masked⟩ := not_or.mp bad
    have positive : size.toNat ≠ 0 := fun h => nonzero (BitVec.eq_of_toNat_eq h)
    rw [if_neg bad]
    cases kzalloc with
    | false => exact ⟨_, rfl⟩
    | true => exact absurd ⟨by omega, and_pred_eq_zero_iff.mp (not_not.mp masked), rfl⟩ refused

theorem accepted_of_ok {w : ℕ} {kzalloc kzallocAgain : Bool} {pool pool' : XrpPrivatePool w}
    {size align : U32} {a : XrpAllocation w}
    (result : xrpPrivateAlloc kzalloc kzallocAgain pool size align = (.ok a, pool')) :
    Accepted kzalloc size align := by
  by_contra refused
  obtain ⟨e, failed⟩ := xrpPrivateAlloc_of_not_accepted refused
  rw [failed] at result
  cases result

section Runs

variable {start len size align : U32} {st st' : PoolState 32}

/-- A careful call is a call of the partition invariant, or changes nothing. -/
theorem CarefulCall.poolStep (call : CarefulCall st st') : PoolStep st st' ∨ st' = st := by
  cases call with
  | alloc kzalloc size align room result =>
    obtain ⟨positive, power, rfl⟩ := accepted_of_ok result
    exact .inl (.alloc size align ⟨positive, power, room positive power⟩ result)
  | fail kzalloc size align result =>
    obtain ⟨-, same⟩ | ⟨found, -, -, ⟨impossible, -⟩ | impossible⟩ := xrpPrivateAlloc_cases result
    · rw [same]
      exact .inr rfl
    · cases impossible
    · cases impossible
  | free member => exact .inl (.free member)

theorem CarefulReach.poolReach (reach : CarefulReach start len st) : PoolReach start len st := by
  induction reach with
  | refl => exact .refl
  | tail _ call ih =>
    rcases call.poolStep with step | rfl
    · exact ih.tail step
    · exact ih

/-! ## The lowest place -/

/-- A byte of the pool that no live allocation holds. -/
def PoolState.Free (st : PoolState 32) (b : ℕ) : Prop :=
  (st.pool.start.toNat ≤ b ∧ b < st.pool.start.toNat + st.pool.size.toNat) ∧
    ∀ a ∈ st.live, ¬ (a.extent.base ≤ b ∧ b < a.extent.stop)

/-- Where a request can be met: the multiples of its rounded alignment from which on as many bytes
as its rounded size are free. -/
def PoolState.freePlaces (st : PoolState 32) (size align : U32) : Set ℕ :=
  {a | roundedAlign align ∣ a ∧ ∀ b, a ≤ b → b < a + roundedSize size → st.Free b}

/-- The request is met if and only if it can be, at the lowest place. -/
structure FirstFit (st : PoolState 32) (size align : U32) : Prop where
  met : (∃ a pool, xrpPrivateAlloc true true st.pool size align = (.ok a, pool)) ↔
    (st.freePlaces size align).Nonempty
  lowest : ∀ a pool, xrpPrivateAlloc true true st.pool size align = (.ok a, pool) →
    IsLeast (st.freePlaces size align) a.start.toNat

/-- Free bytes are those on the free list. -/
theorem PoolState.Partitioned.coverCount_pos_iff (inv : st.Partitioned) (b : ℕ) :
    0 < Extent.coverCount (st.pool.freeList.map Block.extent) b ↔ st.Free b := by
  have live : Extent.coverCount (st.live.map fun a => a.extent) b = 0 ↔
      ∀ a ∈ st.live, ¬ (a.extent.base ≤ b ∧ b < a.extent.stop) := by
    rw [Extent.coverCount_eq_zero_iff, List.forall_mem_map]
  have total := inv.cover b
  rw [PoolState.extents, Extent.coverCount_append] at total
  unfold PoolState.Free
  rw [← live]
  unfold Extent.hit Extent.stop at total
  split_ifs at total with inside
  · rw [and_iff_right inside]
    omega
  · rw [iff_false_right fun both => inside both.1]
    omega

theorem PoolState.Partitioned.places_eq (inv : st.Partitioned) :
    Extent.places (roundedAlign align) (roundedSize size)
      (st.pool.freeList.map Block.extent) = st.freePlaces size align := by
  unfold Extent.places PoolState.freePlaces
  simp only [inv.coverCount_pos_iff]

/-- In a partitioned pool a valid request takes the first fit. -/
theorem PoolState.Partitioned.firstFit (inv : st.Partitioned) (valid : ValidRequest size align) :
    FirstFit st size align := by
  have sizePos : 0 < roundedSize size := Nat.roundUp_pos (by omega) valid.positive
  have alignPos : 0 < roundedAlign align := Nat.roundUp_pos (by omega) (by omega)
  have carved := valid.find_extents le_rfl fun b => inv.fits_free
  have lowest (a : XrpAllocation 32) (pool : XrpPrivatePool 32)
      (result : xrpPrivateAlloc true true st.pool size align = (.ok a, pool)) :
      IsLeast (st.freePlaces size align) a.start.toNat := by
    obtain ⟨-, -, -, cut⟩ := xrpPrivateAlloc_ok le_rfl valid (fun b => inv.fits_free) result
    rw [← inv.places_eq]
    exact Extent.carve_isLeast alignPos sizePos inv.separated cut
  refine ⟨⟨fun ⟨a, pool, result⟩ => ⟨_, (lowest a pool result).1⟩, ?_⟩, lowest⟩
  rintro ⟨place, free⟩
  cases found : st.pool.find size align with
  | none =>
    rw [found] at carved
    have empty := Extent.places_eq_empty_of_carve alignPos sizePos inv.separated carved.symm
    rw [inv.places_eq] at empty
    rw [empty] at free
    cases free
  | some found' =>
    exact ⟨_, _, xrpPrivateAlloc_found found (arguments_good valid.positive valid.power)⟩

/-- **An allocation succeeds exactly when it can, at the lowest address**, in every state of a
pool that careful calls reach. -/
theorem carefulReach_firstFit (nonempty : 0 < len.toNat)
    (fits : start.toNat + len.toNat ≤ 2 ^ 32) (reach : CarefulReach start len st)
    (valid : ValidRequest size align) : FirstFit st size align :=
  (reach.poolReach.partitioned le_rfl nonempty fits).1.firstFit valid

end Runs

/-- Two pages with an alignment of two pages, in a pool at the end of the address space whose first
page is taken. -/
theorem carefulReach_firstFit_atTop :
    IsLeast (PoolState.freePlaces ⟨⟨0xFFFFC000, 0x4000, [⟨0xFFFFD000, 0x3000⟩]⟩,
      [⟨⟨0xFFFFC000, 0x1000⟩, 1⟩]⟩ 0x1001 0x2000) 0xFFFFE000 := by
  have reach : CarefulReach 0xFFFFC000 0x4000
      ⟨⟨0xFFFFC000, 0x4000, [⟨0xFFFFD000, 0x3000⟩]⟩, [⟨⟨0xFFFFC000, 0x1000⟩, 1⟩]⟩ :=
    .tail .refl (.alloc true 1 0 (fun _ _ => by decide) rfl)
  have valid : ValidRequest 0x1001 0x2000 := ⟨by decide, .inr ⟨13, rfl⟩, by decide⟩
  exact (carefulReach_firstFit (by decide) (by decide) reach valid).lowest
    ⟨⟨0xFFFFE000, 0x2000⟩, 1⟩ _ rfl

/-- A pool of three pages. A request for `0xfffff001` bytes gives an allocation without bytes. The
pages are taken one by one; the first page, the allocation without bytes, the third page and the
second page are freed. All of the pool is free, and a request for three pages fails. -/
theorem anyReach_not_firstFit :
    ∃ st, AnyReach 0x10000 0x3000 st ∧ st.live = [] ∧ ValidRequest 0x3000 0 ∧
      ¬ FirstFit st 0x3000 0 := by
  let empty : XrpAllocation 32 := ⟨⟨0x10000, 0⟩, 1⟩
  let first : XrpAllocation 32 := ⟨⟨0x10000, 0x1000⟩, 1⟩
  let second : XrpAllocation 32 := ⟨⟨0x11000, 0x1000⟩, 1⟩
  let third : XrpAllocation 32 := ⟨⟨0x12000, 0x1000⟩, 1⟩
  let pool (blocks : List (Block 32)) : XrpPrivatePool 32 := ⟨0x10000, 0x3000, blocks⟩
  have taken : AnyReach 0x10000 0x3000 ⟨pool [], [third, second, first, empty]⟩ := by
    have one : AnyReach 0x10000 0x3000 ⟨pool [⟨0x10000, 0x3000⟩], [empty]⟩ :=
      .tail .refl (.alloc true true 0xFFFFF001 0 rfl)
    have two : AnyReach 0x10000 0x3000 ⟨pool [⟨0x11000, 0x2000⟩], [first, empty]⟩ :=
      one.tail (.alloc true true 0x1000 0 rfl)
    have three : AnyReach 0x10000 0x3000 ⟨pool [⟨0x12000, 0x1000⟩], [second, first, empty]⟩ :=
      two.tail (.alloc true true 0x1000 0 rfl)
    exact three.tail (.alloc true true 0x1000 0 rfl)
  have freed : AnyReach 0x10000 0x3000
      ⟨pool [⟨0x10000, 0x2000⟩, ⟨0x10000, 0⟩, ⟨0x12000, 0x1000⟩], []⟩ := by
    have one : AnyReach 0x10000 0x3000 ⟨pool [⟨0x10000, 0x1000⟩], [third, second, empty]⟩ :=
      taken.tail (.free (a := first) (by decide))
    have two : AnyReach 0x10000 0x3000
        ⟨pool [⟨0x10000, 0x1000⟩, ⟨0x10000, 0⟩], [third, second]⟩ :=
      one.tail (.free (a := empty) (by decide))
    have three : AnyReach 0x10000 0x3000
        ⟨pool [⟨0x10000, 0x1000⟩, ⟨0x10000, 0⟩, ⟨0x12000, 0x1000⟩], [second]⟩ :=
      two.tail (.free (a := third) (by decide))
    have merged : xrpPrivateFree
        (pool [⟨0x10000, 0x1000⟩, ⟨0x10000, 0⟩, ⟨0x12000, 0x1000⟩]) second.toBlock =
        pool [⟨0x10000, 0x2000⟩, ⟨0x10000, 0⟩, ⟨0x12000, 0x1000⟩] := by decide
    rw [← merged]
    exact three.tail (.free (a := second) (by decide))
  refine ⟨_, freed, rfl, ⟨by decide, .inl rfl, by decide⟩, fun fit => ?_⟩
  obtain ⟨a, pool', result⟩ : ∃ a pool', xrpPrivateAlloc true true
      (pool [⟨0x10000, 0x2000⟩, ⟨0x10000, 0⟩, ⟨0x12000, 0x1000⟩]) 0x3000 0 = (.ok a, pool') := by
    have size : roundedSize 0x3000 = 0x3000 := by decide
    refine fit.met.mpr ⟨0x10000, by decide, fun b low high => ⟨⟨low, ?_⟩, by simp⟩⟩
    rwa [size] at high
  cases result

/-! ## The piece that is lost -/

section Lost

variable {w : ℕ} {size align : U32} {pool : XrpPrivatePool w}

/-- The place in the block is neither at its start nor at its end. -/
def Block.CutInside (align size : U32) (cur : Block w) : Prop :=
  ALIGN cur.start (align.setWidth w) ≠ cur.start ∧
    ALIGN cur.start (align.setWidth w) + size.setWidth w ≠ cur.tail

/-- The request is to be cut out of the middle of the first block that admits it. -/
def XrpPrivatePool.Splits (pool : XrpPrivatePool w) (size align : U32) : Prop :=
  let align := ALIGN (if align = 0 then 1 else align) pageSize
  let size := ALIGN size pageSize
  ∃ cur, pool.freeList.find? (fun b => b.Admits align size) = some cur ∧
    cur.CutInside align size

/-- What the loop leaves in its variables says how the block was cut. -/
theorem xrpPrivateAllocLoop_split_iff {blocks : List (Block w)} :
    (∃ found, xrpPrivateAllocLoop align size blocks = some found ∧
      found.cur = false ∧ found.new = false) ↔
    ∃ cur, blocks.find? (fun b => b.Admits align size) = some cur ∧
      cur.CutInside align size := by
  induction blocks with
  | nil => simp [xrpPrivateAllocLoop]
  | cons cur next ih =>
    by_cases admits : cur.Admits align size
    · rw [List.find?_cons_of_pos (by simpa using admits)]
      unfold Block.Admits at admits
      simp only [xrpPrivateAllocLoop, if_pos admits]
      unfold Block.CutInside
      split_ifs with atStart atEnd atEnd <;> simp_all
    · rw [List.find?_cons_of_neg (by simpa using admits), ← ih]
      simp only [xrpPrivateAllocLoop_of_not_admits admits, Option.map_eq_some_iff]
      constructor
      · rintro ⟨_, ⟨found, later, rfl⟩, cut⟩
        exact ⟨found, later, cut⟩
      · rintro ⟨found, later, cut⟩
        exact ⟨_, ⟨found, later, rfl⟩, cut⟩

/-- A split leaves one block more than there was. -/
theorem length_of_split {blocks : List (Block w)} {found : Found w}
    (place : xrpPrivateAllocLoop align size blocks = some found) (cur : found.cur = false)
    (new : found.new = false) : found.freeList.length = blocks.length + 1 := by
  induction blocks generalizing found with
  | nil => cases place
  | cons b next ih =>
    unfold xrpPrivateAllocLoop at place
    simp only at place
    split_ifs at place
    · cases place
      cases cur
    · cases place
      cases new
    · cases place
      cases new
    · cases place
      rfl
    · obtain ⟨later, behind, rfl⟩ := Option.map_eq_some_iff.mp place
      rw [List.length_cons, ih behind cur new, List.length_cons]

theorem splits_iff :
    pool.Splits size align ↔
      ∃ found, pool.find size align = some found ∧ found.cur = false ∧ found.new = false :=
  xrpPrivateAllocLoop_split_iff.symm

/-- **A failed allocation changes nothing, if and only if** the failure is not that of the second
`kzalloc`, after the request was cut out of the middle of a block. -/
theorem xrpPrivateAlloc_unchanged_iff (kzalloc kzallocAgain : Bool) (pool : XrpPrivatePool w)
    (size align : U32) :
    (∀ e pool', xrpPrivateAlloc kzalloc kzallocAgain pool size align = (.error e, pool') →
      pool'.freeList = pool.freeList) ↔
    ¬ (Accepted kzalloc size align ∧ kzallocAgain = false ∧ pool.Splits size align) := by
  constructor
  · rintro unchanged ⟨⟨positive, power, rfl⟩, rfl, splits⟩
    obtain ⟨found, place, cur, new⟩ := splits_iff.mp splits
    have longer := length_of_split place cur new
    have good := arguments_good positive power
    have failed : xrpPrivateAlloc true false pool size align =
        (.error .enomem, { pool with freeList := found.freeList }) := by
      unfold XrpPrivatePool.find at place
      unfold xrpPrivateAlloc
      rw [if_neg good]
      simp only [place, cur, new, Bool.not_true, Bool.not_false, Bool.false_eq_true, Bool.and_self,
        if_false, if_true]
    have same : found.freeList = pool.freeList := unchanged _ _ failed
    rw [same] at longer
    omega
  · intro kept e pool' result
    by_cases accepted : Accepted kzalloc size align
    · obtain ⟨-, same⟩ | ⟨found, place, -, ⟨again, cur, new, -⟩ | impossible⟩ :=
        xrpPrivateAlloc_cases result
      · rw [same]
      · exact absurd ⟨accepted, again, splits_iff.mpr ⟨found, place, cur, new⟩⟩ kept
      · cases impossible
    · obtain ⟨e', failed⟩ := xrpPrivateAlloc_of_not_accepted accepted
      rw [failed] at result
      cases result
      rfl

/-- A page with an alignment of two pages, out of the middle of a new pool of three pages. -/
theorem xrpPrivateAlloc_not_unchanged :
    ∃ pool, xrpPrivateAlloc true false (xrpInitPrivatePool (0x1000 : U32) 0x3000) 0x1000 0x2000 =
        (.error .enomem, pool) ∧
      pool.freeList = [⟨0x1000, 0x1000⟩, ⟨0x3000, 0x1000⟩] ∧
      pool.freeList ≠ (xrpInitPrivatePool (0x1000 : U32) 0x3000).freeList :=
  ⟨_, rfl, rfl, by decide⟩

end Lost

end Xrp.Kernel
