import Xrp.Kernel.AllocRefine
import Xrp.Sim.Api

/-!
# Failed calls of `xrp_enqueue_command`

What a call that reports failure leaves behind. A group that was given is retained and never
released again, and memory that was allocated stays allocated. Only a call without a group that
fails before it takes memory has no effect.
-/

namespace Xrp.Sim.Api

open Dsp Kernel

/-! ## The shared pool -/

/-- The calls of `kzalloc` in one `xrp_private_alloc`. -/
structure Kzalloc : Type where
  first : Bool
  again : Bool

/-- The pool that is shared with the DSP; freeing what was never written is undefined. -/
def privatePool (kzalloc : ℕ → Kzalloc) : Allocator (XrpPrivatePool 32) (XrpAllocation 32) where
  allocate call size pool :=
    match xrpPrivateAlloc (kzalloc call).first (kzalloc call).again pool size 0x10 with
    | (.ok a, pool) => (some a, pool)
    | (.error _, pool) => (none, pool)
  free a pool :=
    match a with
    | some a => xrpPrivateFree pool a.toBlock
    | none => pool

/-- The number of bytes in free blocks. -/
def freeBytes (blocks : List (Block 32)) : ℕ := (blocks.map fun b => b.size.toNat).sum

/-- `xrp_private_alloc` fails before it takes a block. -/
def Refused (kzalloc : Kzalloc) (pool : XrpPrivatePool 32) (size : U32) : Prop :=
  kzalloc.first = false ∨ pool.find size 0x10 = none

section Pool

variable {kzalloc : Kzalloc} {pool pool' : XrpPrivatePool 32} {size : U32}

theorem tail_eq_add (cur : Block 32) : cur.tail = cur.start + cur.size :=
  congrArg (cur.start + ·) (BitVec.setWidth_eq cur.size)

/-- Whole pages behind the first page boundary end without wrapping around. -/
theorem toNat_reach {start : U32} (pages : 4096 ∣ size.toNat) (above : start ≤ ALIGN start 4096) :
    (ALIGN start 4096 - start + size).toNat =
      (ALIGN start 4096 - start).toNat + size.toNat := by
  have low : (ALIGN start 4096).toNat - start.toNat < 2 ^ 12 := ALIGN_sub_lt (by decide) rfl
  have small := size.isLt
  apply BitVec.toNat_add_of_lt
  rw [BitVec.toNat_sub_of_le above]
  omega

/-- A block that is found loses the bytes that are asked for. -/
theorem freeBytes_loop {blocks : List (Block 32)} {found : Found 32}
    (pages : 4096 ∣ size.toNat) (place : xrpPrivateAllocLoop 4096 size blocks = some found) :
    freeBytes found.freeList + size.toNat = freeBytes blocks := by
  induction blocks generalizing found with
  | nil => cases place
  | cons cur next ih =>
    unfold xrpPrivateAllocLoop at place
    simp only [BitVec.setWidth_eq] at place
    split_ifs at place with fit aligned whole whole
    · cases place
      have bytes : size = cur.size := by
        rw [aligned, tail_eq_add] at whole
        exact add_left_cancel whole
      simp only [freeBytes, List.map_cons, List.sum_cons, bytes]
      omega
    · cases place
      have fits := BitVec.toNat_sub_of_le fit.2
      have used : ALIGN cur.start 4096 + size - cur.start =
          ALIGN cur.start 4096 - cur.start + size := by ring
      have none_before : ALIGN cur.start 4096 - cur.start = 0 := sub_eq_zero.mpr aligned
      have below := BitVec.le_def.mp fit.2
      simp only [freeBytes, List.map_cons, List.sum_cons, used, fits]
      rw [none_before, zero_add] at below ⊢
      omega
    · cases place
      have used : ALIGN cur.start 4096 - cur.start + size = cur.size := by
        rw [tail_eq_add] at whole
        linear_combination whole
      have bytes := toNat_reach pages fit.1
      rw [used] at bytes
      simp only [freeBytes, List.map_cons, List.sum_cons]
      omega
    · cases place
      have fits := BitVec.toNat_sub_of_le fit.2
      have behind : cur.tail - (ALIGN cur.start 4096 + size) =
          cur.size - (ALIGN cur.start 4096 - cur.start + size) := by
        rw [tail_eq_add]
        ring
      have bytes := toNat_reach pages fit.1
      have below := BitVec.le_def.mp fit.2
      simp only [freeBytes, List.map_cons, List.sum_cons, behind, fits]
      omega
    · obtain ⟨later, behind, rfl⟩ := Option.map_eq_some_iff.mp place
      have rest := ih behind
      simp only [freeBytes, List.map_cons, List.sum_cons] at rest ⊢
      omega

theorem freeBytes_find {found : Found 32} (place : pool.find size 0x10 = some found) :
    freeBytes found.freeList + (ALIGN size pageSize).toNat = freeBytes pool.freeList :=
  freeBytes_loop (dvd_ALIGN (k := 12) (by decide) rfl) place

theorem allocate_eq (kzalloc : ℕ → Kzalloc) (call : ℕ) (size : U32) (pool : XrpPrivatePool 32) :
    (privatePool kzalloc).allocate call size pool =
      let result := xrpPrivateAlloc (kzalloc call).first (kzalloc call).again pool size 0x10
      (result.1.toOption, result.2) := by
  unfold privatePool
  dsimp only
  split
  · next result =>
    rw [result]
    rfl
  · next result =>
    rw [result]
    rfl

/-! ### Taking no pages

A size that wraps around to 0 when it is rounded up to pages is taken from the first block with a
page boundary in it or at its end. -/

/-- The first page boundary from the start of the block on is in it or at its end. -/
def Reaches (b : Block 32) : Prop :=
  b.start ≤ ALIGN b.start 4096 ∧ ALIGN b.start 4096 - b.start ≤ b.size

/-- Taking no pages from the block changes the free list: an empty block goes, and one with the
page boundary inside is split into two. -/
def Changes (b : Block 32) : Prop :=
  Reaches b ∧ if ALIGN b.start 4096 = b.start then b.size = 0 else ALIGN b.start 4096 ≠ b.tail

instance (b : Block 32) : Decidable (Reaches b) := inferInstanceAs (Decidable (_ ∧ _))

instance (b : Block 32) : Decidable (Changes b) := inferInstanceAs (Decidable (_ ∧ _))

/-- Taking no pages leaves the free list as it is. -/
def SparesFirst (blocks : List (Block 32)) : Prop :=
  ∀ b ∈ blocks.find? Reaches, ¬ Changes b

theorem ALIGN_page_idem (start : U32) : ALIGN (ALIGN start 4096) 4096 = ALIGN start 4096 := by
  have small := (ALIGN start 4096).isLt
  obtain ⟨pages, whole⟩ : 2 ^ 12 ∣ (ALIGN start 4096).toNat := dvd_ALIGN (by decide) rfl
  apply BitVec.eq_of_toNat_eq
  have rounded : (ALIGN (ALIGN start 4096) 4096).toNat = _ :=
    toNat_ALIGN (k := 12) (by decide) rfl (by omega)
  rw [rounded, whole, Nat.roundUp, Nat.add_sub_assoc (by decide), Nat.mul_add_div (by decide),
    Nat.div_eq_of_lt (by decide), Nat.add_zero, Nat.mul_comm]

/-- What is before the page boundary is spared after a split. -/
theorem not_changes_before {start : U32} (inside : ALIGN start 4096 ≠ start) :
    ¬ Changes ⟨start, ALIGN start 4096 - start⟩ := by
  rintro ⟨_, changes⟩
  rw [if_neg inside, tail_eq_add] at changes
  exact changes (by ring)

/-- And so is what is behind it. -/
theorem not_changes_behind {start size : U32} (positive : size ≠ 0) :
    ¬ Changes ⟨ALIGN start 4096, size⟩ := by
  rintro ⟨_, changes⟩
  rw [if_pos (ALIGN_page_idem start)] at changes
  exact positive changes

/-- The number of blocks of which taking no pages changes something. -/
def changing (blocks : List (Block 32)) : ℕ := blocks.countP Changes

/-- Taking no pages from the first block: it stays as it is and the allocation does not need
another node, or there are fewer blocks left to change. -/
theorem loop_zero_here {cur : Block 32} {next : List (Block 32)} {found : Found 32}
    (here : Reaches cur) (place : xrpPrivateAllocLoop 4096 0 (cur :: next) = some found) :
    ¬ Changes cur ∧ found.freeList = cur :: next ∧ found.new = true ∨
      Changes cur ∧ changing found.freeList < changing (cur :: next) := by
  unfold xrpPrivateAllocLoop at place
  have no_more (v : U32) : v + 0 = v := BitVec.add_zero v
  simp only [BitVec.setWidth_eq, no_more] at place
  change (if Reaches cur then _ else _) = _ at place
  rw [if_pos here] at place
  split_ifs at place with aligned whole whole
  · cases place
    have empty : cur.size = 0 := by
      rw [aligned, tail_eq_add] at whole
      exact left_eq_add.mp whole
    have changes : Changes cur := ⟨here, by rw [if_pos aligned, empty]⟩
    refine .inr ⟨changes, ?_⟩
    simp [changing, changes]
  · cases place
    have positive : cur.size ≠ 0 := by
      intro empty
      rw [aligned, tail_eq_add, empty] at whole
      exact whole (add_zero _).symm
    refine .inl ⟨?_, ?_, rfl⟩
    · rintro ⟨_, changes⟩
      rw [if_pos aligned] at changes
      exact positive changes
    · rw [aligned, sub_self, sub_zero]
  · cases place
    refine .inl ⟨?_, ?_, rfl⟩
    · rintro ⟨_, changes⟩
      rw [if_neg aligned] at changes
      exact changes whole
    · have size : ALIGN cur.start 4096 - cur.start = cur.size := by
        rw [whole, tail_eq_add]
        ring
      rw [size]
  · cases place
    have changes : Changes cur := ⟨here, by rwa [if_neg aligned]⟩
    refine .inr ⟨changes, ?_⟩
    have before := not_changes_before aligned
    have behind : ¬ Changes ⟨ALIGN cur.start 4096, cur.tail - ALIGN cur.start 4096⟩ :=
      not_changes_behind (sub_ne_zero.mpr (Ne.symm whole))
    dsimp only [changing]
    rw [List.countP_cons_of_neg (by simpa using before),
      List.countP_cons_of_neg (by simpa using behind),
      List.countP_cons_of_pos (by simpa using changes)]
    exact Nat.lt_succ_self _

/-- Taking no pages either leaves the free list as it is, and the allocation does not need another
node, or there are fewer blocks left to change. -/
theorem loop_zero {blocks : List (Block 32)} {found : Found 32}
    (place : xrpPrivateAllocLoop 4096 0 blocks = some found) :
    SparesFirst blocks ∧ found.freeList = blocks ∧ found.new = true ∨
      ¬ SparesFirst blocks ∧ changing found.freeList < changing blocks := by
  induction blocks generalizing found with
  | nil => cases place
  | cons cur next ih =>
    by_cases here : Reaches cur
    · have first : (cur :: next).find? Reaches = some cur := List.find?_cons_of_pos (by simpa)
      have spares : SparesFirst (cur :: next) ↔ ¬ Changes cur := by
        simp [SparesFirst, first]
      rw [spares, not_not]
      exact loop_zero_here here place
    · have skip : (cur :: next).find? Reaches = next.find? Reaches :=
        List.find?_cons_of_neg (by simpa)
      have spares : SparesFirst (cur :: next) ↔ SparesFirst next := by
        simp only [SparesFirst, skip]
      have kept : ¬ Changes cur := fun changes => here changes.1
      unfold xrpPrivateAllocLoop at place
      have no_more (v : U32) : v + 0 = v := BitVec.add_zero v
      simp only [BitVec.setWidth_eq, no_more] at place
      change (if Reaches cur then _ else _) = _ at place
      rw [if_neg here] at place
      obtain ⟨later, behind, rfl⟩ := Option.map_eq_some_iff.mp place
      rw [spares]
      refine (ih behind).imp ?_ ?_
      · rintro ⟨spared, same, node⟩
        exact ⟨spared, congrArg (cur :: ·) same, node⟩
      · rintro ⟨changed, fewer⟩
        refine ⟨changed, ?_⟩
        simpa [changing, kept] using fewer

/-- The allocation fails before it takes a block: also for a size of 0. -/
def Fails (kzalloc : Kzalloc) (pool : XrpPrivatePool 32) (size : U32) : Prop :=
  size = 0 ∨ Refused kzalloc pool size

/-- The allocation leaves the free list as it is. -/
def TakesNothing (kzalloc : Kzalloc) (pool : XrpPrivatePool 32) (size : U32) : Prop :=
  Fails kzalloc pool size ∨ ALIGN size pageSize = 0 ∧ SparesFirst pool.freeList

/-- What allocations make less of: free bytes, or else blocks that taking no pages changes. -/
def remaining (pool : XrpPrivatePool 32) : ℕ ×ₗ ℕ :=
  toLex (freeBytes pool.freeList, changing pool.freeList)

theorem allocate_fails {kzalloc : ℕ → Kzalloc} {call : ℕ}
    (fails : Fails (kzalloc call) pool size) :
    (privatePool kzalloc).allocate call size pool = (none, pool) := by
  rcases fails with rfl | refused
  · rw [allocate_eq]
    rfl
  · obtain ⟨e, fails⟩ := xrpPrivateAlloc_refused refused
    rw [allocate_eq, fails]
    rfl

/-- An allocation that finds a place. -/
theorem exists_found {kzalloc : ℕ → Kzalloc} {call : ℕ}
    (takes : ¬ Fails (kzalloc call) pool size) :
    ∃ found, pool.find size 0x10 = some found ∧
      ((privatePool kzalloc).allocate call size pool).2 =
        { pool with freeList := found.freeList } ∧
      (found.new = true → ((privatePool kzalloc).allocate call size pool).1.isSome) := by
  obtain ⟨positive, refused⟩ := not_or.mp takes
  obtain ⟨first, place⟩ := not_or.mp refused
  rw [Bool.not_eq_false] at first
  obtain ⟨found, place⟩ := Option.ne_none_iff_exists'.mp place
  have good : ¬ (size = 0 ∨ (0x10 : U32) &&& (0x10 - 1) ≠ 0) := by
    rintro (zero | bits)
    · exact positive zero
    · exact bits (by decide)
  refine ⟨found, place, ?_, ?_⟩
  · rw [allocate_eq, first]
    exact xrpPrivateAlloc_of_find place good (kzalloc call).again
  · intro node
    rw [allocate_eq, first]
    unfold XrpPrivatePool.find at place
    unfold xrpPrivateAlloc
    rw [if_neg good]
    simp only [place, node, Bool.not_true, Bool.and_false, Bool.false_and, Bool.false_eq_true,
      if_false]
    rfl

/-- An allocation that takes nothing either fails or succeeds, with the pool as it was. -/
theorem allocate_takesNothing {kzalloc : ℕ → Kzalloc} {call : ℕ}
    (nothing : TakesNothing (kzalloc call) pool size) :
    ((privatePool kzalloc).allocate call size pool).2 = pool ∧
      (¬ Fails (kzalloc call) pool size →
        ((privatePool kzalloc).allocate call size pool).1.isSome) := by
  by_cases fails : Fails (kzalloc call) pool size
  · rw [allocate_fails fails]
    exact ⟨rfl, fun takes => absurd fails takes⟩
  · obtain ⟨zero, spared⟩ := nothing.resolve_left fails
    obtain ⟨found, place, list, made⟩ := exists_found fails
    have loop : xrpPrivateAllocLoop 4096 0 pool.freeList = some found := by
      rw [← place, ← zero]
      rfl
    obtain ⟨_, same, node⟩ := (loop_zero loop).resolve_right fun changed => changed.1 spared
    refine ⟨?_, fun _ => made node⟩
    rw [list, same]

/-- Every other allocation takes something. -/
theorem remaining_allocate_lt {kzalloc : ℕ → Kzalloc} {call : ℕ}
    (takes : ¬ TakesNothing (kzalloc call) pool size) :
    remaining ((privatePool kzalloc).allocate call size pool).2 < remaining pool := by
  obtain ⟨succeeds, changes⟩ := not_or.mp takes
  obtain ⟨found, place, list, _⟩ := exists_found succeeds
  have bytes := freeBytes_find place
  rw [list, remaining, remaining, Prod.Lex.toLex_lt_toLex]
  by_cases zero : ALIGN size pageSize = 0
  · have loop : xrpPrivateAllocLoop 4096 0 pool.freeList = some found := by
      rw [← place, ← zero]
      rfl
    have fewer := (loop_zero loop).resolve_left fun spared => changes ⟨zero, spared.1⟩
    rw [zero] at bytes
    exact .inr ⟨bytes, fewer.2⟩
  · have positive : (ALIGN size pageSize).toNat ≠ 0 := fun none =>
      zero (BitVec.eq_of_toNat_eq none)
    left
    dsimp only
    omega

theorem remaining_allocate_le (kzalloc : ℕ → Kzalloc) (call : ℕ) (size : U32)
    (pool : XrpPrivatePool 32) :
    remaining ((privatePool kzalloc).allocate call size pool).2 ≤ remaining pool := by
  by_cases nothing : TakesNothing (kzalloc call) pool size
  · rw [(allocate_takesNothing nothing).1]
  · exact (remaining_allocate_lt nothing).le

end Pool

/-! ## Calls without a group -/

section Data

variable {P A : Type} (al : Allocator P A)

/-- The pool after the allocations for the data of a command. -/
def dataPool (args : Args) (pool : P) : P :=
  match allocateIf al (args.inDataSize.toNat > inlineDataSize) 0 (args.inDataSize.setWidth 32)
    pool with
  | (none, pool) => pool
  | (some _, pool) =>
    (allocateIf al (args.outDataSize.toNat > inlineDataSize) 1 (args.outDataSize.setWidth 32)
      pool).2

variable {al}

/-- Without a group the only allocations are those for the data. -/
theorem xrpEnqueueCommand_alone {eventAllocated : Bool} {stale : Option ℕ} {args : Args}
    {s s' : State P A} {status : XrpStatus}
    (result : xrpEnqueueCommand al eventAllocated stale args s = some (status, s'))
    (alone : args.group = none) : s'.pool = dataPool al args s.pool := by
  have few : ¬ ([] : List Record).length > inlineBufferCount := by decide
  unfold xrpEnqueueCommand at result
  dsimp only at result
  rw [State.retainForRequest_records, alone] at result
  have pool : (s.retainForRequest none).pool = s.pool := rfl
  have records : s.records none = [] := rfl
  have unlocked : ¬ (s.retainForRequest none).Locked none := by simp [State.Locked]
  rw [pool, records] at result
  split at result
  · next failed =>
    cases result
    rw [dataPool, failed]
  · next made =>
    split at result
    · next failed =>
      cases result
      rw [dataPool, made]
      dsimp only
      rw [failed]
    · next made' =>
      rw [dataPool, made]
      dsimp only
      rw [made']
      rw [if_neg unlocked] at result
      simp only [allocateIf, if_neg few, fillBuffers] at result
      split at result
      · cases result
        rfl
      · cases result
        rfl

end Data

/-! ## The effect of a failed call -/

/-- The call of `xrp_allocate` that is made first is refused, if one is made for the data. -/
def FirstRefused (kzalloc : ℕ → Kzalloc) (args : Args) (pool : XrpPrivatePool 32) : Prop :=
  if args.inDataSize.toNat > inlineDataSize then
    Refused (kzalloc 0) pool (args.inDataSize.setWidth 32)
  else
    args.outDataSize.toNat > inlineDataSize →
      Refused (kzalloc 1) pool (args.outDataSize.setWidth 32)

/-- No size of data wraps around to 0 when it is rounded up to pages. -/
def Args.Rounds (args : Args) : Prop :=
  (args.inDataSize.toNat > inlineDataSize →
    ALIGN (args.inDataSize.setWidth 32 : U32) pageSize ≠ 0) ∧
  (args.outDataSize.toNat > inlineDataSize →
    ALIGN (args.outDataSize.setWidth 32 : U32) pageSize ≠ 0)

/-- Nothing is taken for the data: not for the input data, nor for the output data unless the call
has failed before. -/
def TakesNoData (kzalloc : ℕ → Kzalloc) (args : Args) (pool : XrpPrivatePool 32) : Prop :=
  (args.inDataSize.toNat > inlineDataSize →
    TakesNothing (kzalloc 0) pool (args.inDataSize.setWidth 32)) ∧
  (args.outDataSize.toNat > inlineDataSize →
    ¬ (args.inDataSize.toNat > inlineDataSize ∧
      Fails (kzalloc 0) pool (args.inDataSize.setWidth 32)) →
    TakesNothing (kzalloc 1) pool (args.outDataSize.setWidth 32))

/-- A call left the pool, the group, the device and the queue as they were. -/
structure Unchanged (group : Option ℕ)
    (s s' : State (XrpPrivatePool 32) (XrpAllocation 32)) : Prop where
  freeList : s'.pool.freeList = s.pool.freeList
  groupRefs : ∀ g ∈ group, (s'.groups g).refs.count = (s.groups g).refs.count
  groupLock : ∀ g ∈ group, (s'.groups g).locked = (s.groups g).locked
  deviceRefs : s'.deviceRefs = s.deviceRefs
  queue : s'.queue = s.queue

section Effect

variable {kzalloc : ℕ → Kzalloc} {args : Args} {pool : XrpPrivatePool 32}

theorem allocateIf_snd {needed : Prop} [Decidable needed] {call : ℕ} {size : U32}
    (need : needed) :
    (allocateIf (privatePool kzalloc) needed call size pool).2 =
      ((privatePool kzalloc).allocate call size pool).2 := by
  rw [allocateIf, if_pos need]
  split
  · next made => rw [made]
  · next made => rw [made]

theorem remaining_allocateIf_le (kzalloc : ℕ → Kzalloc) (needed : Prop) [Decidable needed]
    (call : ℕ) (size : U32) (pool : XrpPrivatePool 32) :
    remaining (allocateIf (privatePool kzalloc) needed call size pool).2 ≤ remaining pool := by
  by_cases need : needed
  · rw [allocateIf_snd need]
    exact remaining_allocate_le kzalloc call size pool
  · rw [allocateIf, if_neg need]

/-- What is taken for the input data is not put back. -/
theorem remaining_dataPool_le (kzalloc : ℕ → Kzalloc) (args : Args) (pool : XrpPrivatePool 32)
    (long : args.inDataSize.toNat > inlineDataSize) :
    remaining (dataPool (privatePool kzalloc) args pool) ≤
      remaining ((privatePool kzalloc).allocate 0 (args.inDataSize.setWidth 32) pool).2 := by
  rw [← allocateIf_snd long, dataPool]
  split
  · next made => rw [made]
  · next made =>
    rw [made]
    exact remaining_allocateIf_le kzalloc _ _ _ _

theorem remaining_congr {pool' : XrpPrivatePool 32} (same : pool'.freeList = pool.freeList) :
    remaining pool' = remaining pool := by
  rw [remaining, remaining, same]

theorem allocate_freeList_iff {call : ℕ} {size : U32} :
    ((privatePool kzalloc).allocate call size pool).2.freeList = pool.freeList ↔
      TakesNothing (kzalloc call) pool size := by
  constructor
  · intro same
    by_contra takes
    exact (remaining_allocate_lt takes).ne (remaining_congr same)
  · intro nothing
    rw [(allocate_takesNothing nothing).1]

theorem allocateIf_freeList_iff {needed : Prop} [Decidable needed] {call : ℕ} {size : U32} :
    (allocateIf (privatePool kzalloc) needed call size pool).2.freeList = pool.freeList ↔
      (needed → TakesNothing (kzalloc call) pool size) := by
  by_cases need : needed
  · rw [allocateIf_snd need, allocate_freeList_iff, forall_prop_of_true need]
  · rw [allocateIf, if_neg need]
    exact iff_of_true rfl fun needed => absurd needed need

theorem dataPool_freeList_iff :
    (dataPool (privatePool kzalloc) args pool).freeList = pool.freeList ↔
      TakesNoData kzalloc args pool := by
  unfold TakesNoData
  by_cases long : args.inDataSize.toNat > inlineDataSize
  · simp only [long, true_imp_iff, true_and]
    by_cases nothing : TakesNothing (kzalloc 0) pool (args.inDataSize.setWidth 32)
    · obtain ⟨same, made⟩ := allocate_takesNothing nothing
      by_cases fails : Fails (kzalloc 0) pool (args.inDataSize.setWidth 32)
      · rw [dataPool, allocateIf, if_pos long, allocate_fails fails]
        exact iff_of_true rfl ⟨nothing, fun _ succeeds => absurd fails succeeds⟩
      · obtain ⟨a, made⟩ := Option.isSome_iff_exists.mp (made fails)
        have result : (privatePool kzalloc).allocate 0 (args.inDataSize.setWidth 32) pool =
            (some a, pool) := Prod.ext made same
        rw [dataPool, allocateIf, if_pos long, result]
        dsimp only
        rw [allocateIf_freeList_iff]
        simp only [nothing, fails, not_false_eq_true, true_imp_iff, true_and]
    · refine iff_of_false ?_ fun kept => nothing kept.1
      intro same
      have less := remaining_allocate_lt nothing
      have more := remaining_dataPool_le kzalloc args pool long
      rw [remaining_congr same] at more
      exact absurd less (not_lt.mpr more)
  · rw [dataPool, allocateIf, if_neg long]
    dsimp only
    rw [allocateIf_freeList_iff]
    simp only [long, false_imp_iff, false_and, not_false_eq_true, true_imp_iff, true_and]

/-- Sizes that do not wrap around are taken unless that is refused. -/
theorem takesNothing_iff {k : Kzalloc} {size : U32} (rounds : ALIGN size pageSize ≠ 0) :
    TakesNothing k pool size ↔ Refused k pool size := by
  have positive : size ≠ 0 := by
    rintro rfl
    exact rounds (by decide)
  simp only [TakesNothing, Fails, rounds, positive, false_or, false_and, or_false]

theorem takesNoData_iff (rounds : args.Rounds) :
    TakesNoData kzalloc args pool ↔ FirstRefused kzalloc args pool := by
  unfold TakesNoData FirstRefused
  by_cases long : args.inDataSize.toNat > inlineDataSize
  · simp only [long, true_imp_iff, true_and, if_true, takesNothing_iff (rounds.1 long)]
    refine and_iff_left_of_imp fun refused _ succeeds => ?_
    exact absurd (.inr refused) succeeds
  · simp only [long, false_imp_iff, false_and, not_false_eq_true, true_imp_iff, true_and, if_false]
    exact forall_congr' fun long' => takesNothing_iff (rounds.2 long')

theorem retainForRequest_count {P A : Type} (s : State P A) (g : ℕ) :
    ((s.retainForRequest (some g)).groups g).refs.count = (s.groups g).refs.count + 1 := by
  simp [State.retainForRequest, Refcounted.retain]

theorem lock_count {P A : Type} (s : State P A) (g : ℕ) :
    ((s.lock (some g)).groups g).refs.count = (s.groups g).refs.count := by
  simp [State.lock]

variable {eventAllocated : Bool} {stale : Option ℕ}
  {s s' : State (XrpPrivatePool 32) (XrpAllocation 32)}

/-- A group that was given stays retained. -/
theorem group_retained {g : ℕ} (given : args.group = some g)
    (failed : xrpEnqueueCommand (privatePool kzalloc) eventAllocated stale args s =
      some (.failure, s')) :
    (s'.groups g).refs.count = (s.groups g).refs.count + 1 := by
  rcases xrpEnqueueCommand_cases failed with ⟨_, _, _, _, unlocked | locked⟩ | ⟨impossible, _⟩
  · rw [unlocked, given]
    exact retainForRequest_count s g
  · rw [locked, given]
    exact (lock_count _ g).trans (retainForRequest_count s g)
  · cases impossible

/-- **A failed call has no effect** just if there is no group and no memory was taken, which can be
told from the free list before the call; unless a size wraps around, none was taken if the first
allocation for the data is the one that is refused. -/
theorem xrpEnqueueCommand_unchanged_iff
    (failed : xrpEnqueueCommand (privatePool kzalloc) eventAllocated stale args s =
      some (.failure, s')) :
    (Unchanged args.group s s' ↔ args.group = none ∧
      (dataPool (privatePool kzalloc) args s.pool).freeList = s.pool.freeList) ∧
    ((dataPool (privatePool kzalloc) args s.pool).freeList = s.pool.freeList ↔
      TakesNoData kzalloc args s.pool) ∧
    (args.Rounds → ((dataPool (privatePool kzalloc) args s.pool).freeList = s.pool.freeList ↔
      FirstRefused kzalloc args s.pool)) := by
  refine ⟨⟨?_, ?_⟩, dataPool_freeList_iff, fun rounds =>
    dataPool_freeList_iff.trans (takesNoData_iff rounds)⟩
  · intro unchanged
    have alone : args.group = none := by
      by_contra given
      obtain ⟨g, given⟩ := Option.ne_none_iff_exists'.mp given
      have count := unchanged.groupRefs g given
      rw [group_retained given failed] at count
      omega
    rw [← xrpEnqueueCommand_alone failed alone]
    exact ⟨alone, unchanged.freeList⟩
  · intro ⟨alone, kept⟩
    have absent (g : ℕ) : g ∉ args.group := by simp [alone]
    rw [← xrpEnqueueCommand_alone failed alone] at kept
    rcases xrpEnqueueCommand_cases failed with ⟨_, _, _, _, same⟩ | ⟨impossible, _⟩
    · refine ⟨kept, fun g given => absurd given (absent g), fun g given => absurd given (absent g),
        ?_, ?_⟩
      · rcases same with rfl | rfl <;> rfl
      · rcases same with rfl | rfl <;> rfl
    · cases impossible

/-- One group with one host buffer of four bytes, and a pool of 16 pages. -/
def oneGroup : State (XrpPrivatePool 32) (XrpAllocation 32) where
  pool := xrpInitPrivatePool 0x10000000 0x10000
  buffers _ := ⟨.host, 4, 0, (Refcounted.alloc (.handle 0)).retain (.slot 0 0)⟩
  groups _ := ⟨.alloc (.handle 0), false, [⟨0, xrpReadWrite⟩]⟩
  events _ := ⟨.empty, .success⟩
  deviceRefs := 1
  queue := []
  issued := 0
  writeBacks := []

/-- Without memory for the input data, and without a group. -/
theorem xrpEnqueueCommand_unchanged_alone :
    xrpEnqueueCommand (privatePool fun _ => ⟨false, false⟩) true none ⟨17, 0, none, true⟩
        oneGroup = some (.failure, oneGroup.retainForRequest none) ∧
      Unchanged none oneGroup (oneGroup.retainForRequest none) := by
  have failed : xrpEnqueueCommand (privatePool fun _ => ⟨false, false⟩) true none
      ⟨17, 0, none, true⟩ oneGroup = some (.failure, oneGroup.retainForRequest none) := rfl
  exact ⟨failed, (xrpEnqueueCommand_unchanged_iff failed).1.mpr ⟨rfl, rfl⟩⟩

/-- Without memory for the shadow of a buffer: the input data stays allocated, the group stays
retained and its mutex is not unlocked. -/
theorem xrpEnqueueCommand_leaks :
    ∃ s', xrpEnqueueCommand (privatePool fun call => ⟨call != 3, true⟩) true none
        ⟨17, 0, some 0, true⟩ oneGroup = some (.failure, s') ∧
      oneGroup.pool.freeList = [⟨0x10000000, 0x10000⟩] ∧
      s'.pool.freeList = [⟨0x10001000, 0xf000⟩] ∧
      (oneGroup.groups 0).refs.count = 1 ∧ (s'.groups 0).refs.count = 2 ∧
      (oneGroup.groups 0).locked = false ∧ (s'.groups 0).locked = true :=
  ⟨_, rfl, rfl, rfl, rfl, rfl, rfl, rfl⟩

end Effect

end Xrp.Sim.Api
