import Xrp.Kernel.Alloc

/-!
# The private pool computes without wrap-around

The loops of `xrp_private_free` and `xrp_private_alloc` add and subtract on
`phys_addr_t` and `u32`. Inside one pool none of these sums loses anything that
matters: freeing is `Extent.release` and allocating is `Extent.carve` on the
natural-number extents of the blocks. The one sum that does wrap is the end of
a block at the end of the address space, and no block starts at address zero in
a pool that reaches that far.
-/

namespace Xrp.Kernel

variable {w : ℕ}

/-! ## `ALIGN` -/

section Align

variable {v a : BitVec w} {k : ℕ}

theorem toNat_add_sub_one (positive : 0 < a.toNat) :
    (v + a - 1).toNat = (v.toNat + a.toNat - 1) % 2 ^ w := by
  have one : (1 : BitVec w).toNat ≤ 1 := by
    simpa using Nat.mod_le 1 (2 ^ w)
  have pow : 2 ≤ 2 ^ w := by
    have := a.isLt
    cases w with
    | zero => omega
    | succ w => exact Nat.le_self_pow (by omega) 2
  have unit : (1 : BitVec w).toNat = 1 := by
    simp [Nat.mod_eq_of_lt (show 1 < 2 ^ w by omega)]
  have le : (1 : BitVec w) ≤ a := by
    rw [BitVec.le_def, unit]
    exact positive
  rw [show v + a - 1 = v + (a - 1) by ring, BitVec.toNat_add, BitVec.toNat_sub_of_le le, unit,
    Nat.add_sub_assoc positive]

/-- Without wrap-around `ALIGN` rounds up. -/
theorem toNat_ALIGN (hk : k < w) (ha : a.toNat = 2 ^ k) (room : v.toNat + 2 ^ k - 1 < 2 ^ w) :
    (ALIGN v a).toNat = v.toNat.roundUp (2 ^ k) := by
  have positive : 0 < a.toNat := by
    rw [ha]
    exact Nat.two_pow_pos k
  rw [ALIGN, BitVec.toNat_and_neg hk ha, toNat_add_sub_one positive, ha, Nat.mod_eq_of_lt room]
  rfl

/-- An `ALIGN` that passes the end of the address space gives zero. -/
theorem ALIGN_wrapped (hk : k < w) (ha : a.toNat = 2 ^ k) (wrap : 2 ^ w ≤ v.toNat + 2 ^ k - 1) :
    (ALIGN v a).toNat = 0 := by
  have positive : 0 < a.toNat := by
    rw [ha]
    exact Nat.two_pow_pos k
  have small := v.isLt
  have lower : 2 ^ k ≤ 2 ^ w := Nat.pow_le_pow_right (by omega) hk.le
  rw [ALIGN, BitVec.toNat_and_neg hk ha, toNat_add_sub_one positive, ha,
    Nat.mod_eq_sub_mod wrap, Nat.mod_eq_of_lt (by omega), Nat.div_eq_of_lt (by omega),
    Nat.zero_mul]

theorem dvd_ALIGN (hk : k < w) (ha : a.toNat = 2 ^ k) : 2 ^ k ∣ (ALIGN v a).toNat := by
  by_cases room : v.toNat + 2 ^ k - 1 < 2 ^ w
  · rw [toNat_ALIGN hk ha room]
    exact Nat.dvd_roundUp _ _
  · rw [ALIGN_wrapped hk ha (not_lt.mp room)]
    exact dvd_zero _

theorem ALIGN_sub_lt (hk : k < w) (ha : a.toNat = 2 ^ k) :
    (ALIGN v a).toNat - v.toNat < 2 ^ k := by
  have positive := Nat.two_pow_pos k
  by_cases room : v.toNat + 2 ^ k - 1 < 2 ^ w
  · rw [toNat_ALIGN hk ha room]
    have below : v.toNat.roundUp (2 ^ k) < v.toNat + 2 ^ k := Nat.roundUp_lt positive
    omega
  · rw [ALIGN_wrapped hk ha (not_lt.mp room), Nat.zero_sub]
    exact positive

end Align

/-! ## Blocks inside a pool -/

/-- The block lies inside the pool. -/
def XrpPrivatePool.Holds (pool : XrpPrivatePool w) (b : Block w) : Prop :=
  pool.start.toNat ≤ b.extent.base ∧ b.extent.stop ≤ pool.start.toNat + pool.size.toNat

section Tail

variable {pool : XrpPrivatePool w} {b : Block w}

theorem Block.toNat_tail (wide : 32 ≤ w) (b : Block w) : b.tail.toNat = b.extent.stop % 2 ^ w := by
  rw [Block.tail, BitVec.toNat_add, BitVec.toNat_setWidth_of_le wide]
  rfl

/-- A block that ends at the end of the address space has the tail zero, which no block
of the pool starts at: the pool is smaller than the address space. -/
theorem Block.tail_eq_iff (wide : 32 ≤ w) (fits : pool.start.toNat + pool.size.toNat ≤ 2 ^ w)
    {c : Block w} (bHolds : pool.Holds b) (cHolds : pool.Holds c) :
    b.tail = c.start ↔ b.extent.stop = c.extent.base := by
  have small : pool.size.toNat < 2 ^ w :=
    lt_of_lt_of_le pool.size.isLt (Nat.pow_le_pow_right (by omega) wide)
  have cSmall : c.extent.base < 2 ^ w := c.start.isLt
  have upper := bHolds.2
  have lower := cHolds.1
  rw [BitVec.toNat_eq, Block.toNat_tail wide]
  change _ = c.extent.base ↔ _
  rcases Nat.lt_or_ge b.extent.stop (2 ^ w) with low | high
  · rw [Nat.mod_eq_of_lt low]
  · have full : b.extent.stop = 2 ^ w := by omega
    rw [full, Nat.mod_self]
    omega

theorem Block.start_lt_iff {b c : Block w} : b.start < c.start ↔ b.extent.base < c.extent.base :=
  BitVec.lt_def

end Tail

/-! ## `xrp_private_free` releases an extent -/

section Merge

variable {pool : XrpPrivatePool w} {b c : Block w}

/-- Two adjacent blocks of a pool merge into one without overflow of `size`. -/
theorem Block.extent_merge (bHolds : pool.Holds b) (cHolds : pool.Holds c)
    (touch : b.extent.stop = c.extent.base) :
    (⟨b.start, b.size + c.size⟩ : Block w).extent =
      ⟨b.extent.base, b.extent.len + c.extent.len⟩ := by
  have small := pool.size.isLt
  have lower := bHolds.1
  have upper := cHolds.2
  simp only [Block.extent, Extent.stop] at *
  rw [BitVec.toNat_add, Nat.mod_eq_of_lt (by omega)]

theorem XrpPrivatePool.Holds.merge (bHolds : pool.Holds b) (cHolds : pool.Holds c)
    (touch : b.extent.stop = c.extent.base) : pool.Holds ⟨b.start, b.size + c.size⟩ := by
  have lower := bHolds.1
  have upper := cHolds.2
  unfold XrpPrivatePool.Holds
  rw [Block.extent_merge bHolds cHolds touch]
  simp only [Extent.stop] at *
  omega

end Merge

/-- Freeing is releasing: the loop of `xrp_private_free` computes on machine words what
`Extent.release` computes without wrap-around. -/
theorem xrpPrivateFreeLoop_extents (wide : 32 ≤ w) {pool : XrpPrivatePool w}
    (fits : pool.start.toNat + pool.size.toNat ≤ 2 ^ w) {a : Block w} (aHolds : pool.Holds a)
    {l : List (Block w)} (holds : ∀ b ∈ l, pool.Holds b) :
    (xrpPrivateFreeLoop a l).map Block.extent = Extent.release a.extent (l.map Block.extent) := by
  induction l with
  | nil => rfl
  | cons cur next ih =>
    have curHolds := holds cur (by simp)
    have nextHolds : ∀ b ∈ next, pool.Holds b := fun b member =>
      holds b (List.mem_cons_of_mem cur member)
    simp only [xrpPrivateFreeLoop, List.map_cons, Extent.release, Block.start_lt_iff,
      Block.tail_eq_iff wide fits curHolds aHolds, Block.tail_eq_iff wide fits aHolds curHolds]
    split_ifs with tail before head
    · -- merging block tail, and perhaps with the next block
      have merged := Block.extent_merge curHolds aHolds tail
      have mergedHolds := curHolds.merge aHolds tail
      rcases next with _ | ⟨node, rest⟩
      · simp [merged]
      · have nodeHolds := nextHolds node (by simp)
        have stops : (⟨cur.start, cur.size + a.size⟩ : Block w).extent.stop = a.extent.stop := by
          rw [merged]
          simp only [Extent.stop] at *
          omega
        simp only [List.map_cons, Block.tail_eq_iff wide fits mergedHolds nodeHolds, stops]
        split_ifs with touch
        · have again := Block.extent_merge mergedHolds nodeHolds (stops.trans touch)
          rw [List.map_cons, again, merged]
        · simp [merged]
    · -- merging block head
      have merged := Block.extent_merge aHolds curHolds head
      rw [List.map_cons, BitVec.add_comm, merged, Nat.add_comm]
    · rfl
    · rw [List.map_cons, ih nextHolds]

/-! ## `xrp_private_alloc` carves an extent -/

section Cut

/- A place `s` with room for `size` bytes inside the block `cur`. -/
variable {cur : Block w} {s : BitVec w} {size : U32}

theorem toNat_place_add (wide : 32 ≤ w) (fits : cur.Fits)
    (high : s.toNat + size.toNat < cur.extent.stop) :
    (s + size.setWidth w).toNat = s.toNat + size.toNat := by
  unfold Block.Fits at fits
  rw [BitVec.toNat_add, BitVec.toNat_setWidth_of_le wide, Nat.mod_eq_of_lt (by omega)]

theorem place_add_eq_tail_iff (wide : 32 ≤ w) (fits : cur.Fits) (positive : 0 < size.toNat)
    (high : s.toNat + size.toNat ≤ cur.extent.stop) :
    s + size.setWidth w = cur.tail ↔ s.toNat + size.toNat = cur.extent.stop := by
  unfold Block.Fits at fits
  rw [BitVec.toNat_eq, Block.toNat_tail wide]
  rcases Nat.lt_or_ge (s.toNat + size.toNat) (2 ^ w) with low | full
  · rw [BitVec.toNat_add, BitVec.toNat_setWidth_of_le wide, Nat.mod_eq_of_lt low]
    rcases Nat.lt_or_ge cur.extent.stop (2 ^ w) with below | atEnd
    · rw [Nat.mod_eq_of_lt below]
    · rw [show cur.extent.stop = 2 ^ w by omega, Nat.mod_self]
      omega
  · rw [BitVec.toNat_add, BitVec.toNat_setWidth_of_le wide]
    rw [show cur.extent.stop = s.toNat + size.toNat by omega]
    simp

/-- The part of the block before the place. -/
theorem extent_before (low : cur.extent.base ≤ s.toNat) (high : s.toNat ≤ cur.extent.stop) :
    (⟨cur.start, (s - cur.start).setWidth 32⟩ : Block w).extent =
      ⟨cur.extent.base, s.toNat - cur.extent.base⟩ := by
  have bound := cur.size.isLt
  have order : cur.start ≤ s := BitVec.le_def.mpr low
  simp only [Block.extent, Extent.stop] at *
  rw [BitVec.toNat_setWidth, BitVec.toNat_sub_of_le order, Nat.mod_eq_of_lt (by omega)]

/-- The part of the block behind the place, as the split computes it. -/
theorem extent_behind (wide : 32 ≤ w) (fits : cur.Fits) (low : cur.extent.base ≤ s.toNat)
    (positive : 0 < size.toNat) (high : s.toNat + size.toNat < cur.extent.stop) :
    (⟨s + size.setWidth w, (cur.tail - (s + size.setWidth w)).setWidth 32⟩ : Block w).extent =
      ⟨s.toNat + size.toNat, cur.extent.stop - (s.toNat + size.toNat)⟩ := by
  have place := toNat_place_add wide fits high
  have bound := cur.size.isLt
  have rest : (cur.tail - (s + size.setWidth w)).toNat =
      cur.extent.stop - (s.toNat + size.toNat) := by
    unfold Block.Fits at fits
    rw [BitVec.toNat_sub, place, Block.toNat_tail wide]
    rcases Nat.lt_or_ge cur.extent.stop (2 ^ w) with below | atEnd
    · rw [Nat.mod_eq_of_lt below, Nat.mod_eq_sub_mod (by omega), Nat.mod_eq_of_lt (by omega)]
      omega
    · rw [show cur.extent.stop = 2 ^ w by omega, Nat.mod_self, Nat.mod_eq_of_lt (by omega)]
      omega
  simp only [Block.extent, Extent.stop] at *
  rw [place, BitVec.toNat_setWidth, rest, Nat.mod_eq_of_lt (by omega)]

/-- The part of the block behind its head, as the cut computes it. -/
theorem extent_behind_head (wide : 32 ≤ w) (fits : cur.Fits)
    (high : cur.start.toNat + size.toNat < cur.extent.stop) :
    (⟨cur.start + size.setWidth w,
      cur.size - (cur.start + size.setWidth w - cur.start).setWidth 32⟩ : Block w).extent =
      ⟨cur.start.toNat + size.toNat, cur.extent.stop - (cur.start.toNat + size.toNat)⟩ := by
  have place := toNat_place_add wide fits high
  have cut : (cur.start + size.setWidth w - cur.start).setWidth 32 = size := by
    rw [BitVec.add_comm, BitVec.add_sub_cancel]
    exact BitVec.setWidth_setWidth_of_le size wide
  have order : size ≤ cur.size := by
    simp only [Block.extent, Extent.stop] at high
    exact BitVec.le_def.mpr (by omega)
  rw [cut]
  simp only [Block.extent, Extent.stop] at *
  rw [place, BitVec.toNat_sub_of_le order]
  congr 1
  omega

end Cut

/-- The test of the loop, over natural numbers: `ALIGN` may wrap, and is then rejected. -/
theorem fit_iff (wide : 32 ≤ w) {cur : Block w} (fits : cur.Fits) {align size : U32} {k : ℕ}
    (hk : k < 32) (hAlign : align.toNat = 2 ^ k) (positive : 0 < size.toNat)
    (room : size.toNat + 2 ^ k ≤ 2 ^ 32) {s : BitVec w}
    (hs : s = ALIGN cur.start (align.setWidth w)) :
    (cur.start ≤ s ∧ s - cur.start + size.setWidth w ≤ cur.size.setWidth w ↔
      cur.extent.base.roundUp (2 ^ k) - cur.extent.base + size.toNat ≤ cur.extent.len) ∧
    (cur.extent.base.roundUp (2 ^ k) - cur.extent.base + size.toNat ≤ cur.extent.len →
      s.toNat = cur.extent.base.roundUp (2 ^ k)) := by
  have lPos : 0 < 2 ^ k := Nat.two_pow_pos k
  have wide' : (2 : ℕ) ^ 32 ≤ 2 ^ w := Nat.pow_le_pow_right (by omega) wide
  have ha : (align.setWidth w).toNat = 2 ^ k := by
    rw [BitVec.toNat_setWidth_of_le wide, hAlign]
  have up := Nat.le_roundUp (b := cur.extent.base) lPos
  have below := Nat.roundUp_lt (b := cur.extent.base) lPos
  have small : cur.extent.base < 2 ^ w := cur.start.isLt
  unfold Block.Fits Extent.stop at fits
  rcases Nat.lt_or_ge (cur.extent.base + 2 ^ k - 1) (2 ^ w) with low | wrap
  · have value : s.toNat = cur.extent.base.roundUp (2 ^ k) := by
      rw [hs]
      exact toNat_ALIGN (by omega) ha low
    have order : cur.start ≤ s := by
      rw [BitVec.le_def, value]
      exact up
    refine ⟨?_, fun _ => value⟩
    rw [and_iff_right order, BitVec.le_def, BitVec.toNat_add, BitVec.toNat_sub_of_le order, value,
      BitVec.toNat_setWidth_of_le wide, BitVec.toNat_setWidth_of_le wide]
    change (cur.extent.base.roundUp (2 ^ k) - cur.extent.base + _) % _ ≤ cur.extent.len ↔ _
    rw [Nat.mod_eq_of_lt (by omega)]
  · -- past the end of the address space nothing fits
    have value : s.toNat = 0 := by
      rw [hs]
      exact ALIGN_wrapped (by omega) ha wrap
    have reach : 2 ^ w ≤ cur.extent.base.roundUp (2 ^ k) := by
      obtain ⟨q, hq⟩ := Nat.dvd_roundUp cur.extent.base (2 ^ k)
      obtain ⟨p, hp⟩ : 2 ^ k ∣ 2 ^ w := Nat.pow_dvd_pow 2 (by omega)
      by_contra short
      push Not at short
      have : q < p := by
        rw [hq, hp] at short
        exact lt_of_mul_lt_mul_left short (Nat.zero_le _)
      have : 2 ^ k * (q + 1) ≤ 2 ^ k * p := Nat.mul_le_mul_left _ this
      rw [Nat.mul_add, ← hq, ← hp] at this
      omega
    constructor
    · constructor
      · rintro ⟨order, -⟩
        rw [BitVec.le_def, value] at order
        change cur.extent.base ≤ 0 at order
        omega
      · omega
    · omega

/-- Allocating is carving: the loop of `xrp_private_alloc` computes on machine words what
`Extent.carve` computes without wrap-around. -/
theorem xrpPrivateAllocLoop_extents (wide : 32 ≤ w) {align size : U32} {k : ℕ} (hk : k < 32)
    (hAlign : align.toNat = 2 ^ k) (positive : 0 < size.toNat)
    (room : size.toNat + 2 ^ k ≤ 2 ^ 32) {l : List (Block w)} (fits : ∀ b ∈ l, b.Fits) :
    (xrpPrivateAllocLoop align size l).map
        (fun found => (found.alignedStart.toNat, found.freeList.map Block.extent)) =
      Extent.carve align.toNat size.toNat (l.map Block.extent) := by
  induction l with
  | nil => rfl
  | cons cur next ih =>
    have curFits := fits cur (by simp)
    obtain ⟨test, place⟩ := fit_iff wide curFits hk hAlign positive room rfl
    simp only [xrpPrivateAllocLoop, List.map_cons, Extent.carve, hAlign]
    generalize ALIGN cur.start (align.setWidth w) = s at test place ⊢
    simp only [test]
    by_cases fit : cur.extent.base.roundUp (2 ^ k) - cur.extent.base + size.toNat ≤ cur.extent.len
    · have value := place fit
      have low : cur.extent.base ≤ s.toNat := by
        rw [value]
        exact Nat.le_roundUp (Nat.two_pow_pos k)
      have high : s.toNat + size.toNat ≤ cur.extent.stop := by
        unfold Extent.stop
        omega
      have startIff : s = cur.start ↔ s.toNat = cur.extent.base := BitVec.toNat_eq
      have endIff := place_add_eq_tail_iff wide curFits positive high
      rw [if_pos fit, if_pos fit, ← value, Extent.remainder]
      -- the four ways to cut a block
      by_cases atStart : s = cur.start <;>
        by_cases atEnd : s.toNat + size.toNat = cur.extent.stop
      · rw [if_pos atStart, if_pos (endIff.mpr atEnd), if_pos (startIff.mp atStart), if_pos atEnd]
        rfl
      · have short : cur.start.toNat + size.toNat < cur.extent.stop := by
          rw [← atStart]
          omega
        rw [if_pos atStart, if_neg (fun same => atEnd (endIff.mp same)),
          if_pos (startIff.mp atStart), if_neg atEnd, atStart]
        rw [Option.map_some, List.map_cons, extent_behind_head wide curFits short]
        rfl
      · rw [if_neg atStart, if_pos (endIff.mpr atEnd),
          if_neg (fun same => atStart (startIff.mpr same)), if_pos atEnd]
        simp [extent_before low (by omega)]
      · rw [if_neg atStart, if_neg (fun same => atEnd (endIff.mp same)),
          if_neg (fun same => atStart (startIff.mpr same)), if_neg atEnd]
        simp [extent_before low (by omega),
          extent_behind wide curFits low positive (by omega)]
    · rw [if_neg fit, if_neg fit, ← hAlign,
        ← ih fun b member => fits b (List.mem_cons_of_mem cur member), Option.map_map,
        Option.map_map]
      rfl

/-! ## Arguments of an allocation -/

/-- The page-rounded size of a request. -/
def roundedSize (size : U32) : ℕ := size.toNat.roundUp 4096

/-- The page-rounded alignment of a request; no alignment counts as alignment one. -/
def roundedAlign (align : U32) : ℕ := (max align.toNat 1).roundUp 4096

/-- A request the pool is asked for: some bytes, no alignment or a power of two, and
rounded sizes that fit into the 32-bit arithmetic of the pool together. -/
structure ValidRequest (size align : U32) : Prop where
  positive : 1 ≤ size.toNat
  power : align = 0 ∨ align.toNat.isPowerOfTwo
  room : roundedSize size + roundedAlign align ≤ 2 ^ 32

section Rounding

variable {size align : U32}

theorem roundUp_page_of_pow {k : ℕ} : (2 ^ k).roundUp 4096 = 2 ^ max k 12 := by
  rcases le_total k 12 with small | large
  · rw [max_eq_right small]
    have : 2 ^ k ≤ 2 ^ 12 := Nat.pow_le_pow_right (by omega) small
    have : 0 < 2 ^ k := Nat.two_pow_pos k
    apply le_antisymm
    · exact Nat.roundUp_le (by omega) (by norm_num) (by omega)
    · have above := Nat.le_roundUp (b := 2 ^ k) (l := 4096) (by omega)
      obtain ⟨q, hq⟩ := Nat.dvd_roundUp (2 ^ k) 4096
      rcases q with _ | q
      · omega
      · omega
  · rw [max_eq_left large]
    apply le_antisymm
    · exact Nat.roundUp_le (by omega) (Nat.pow_dvd_pow 2 large) le_rfl
    · exact Nat.le_roundUp (by omega)

theorem ValidRequest.size_lt (valid : ValidRequest size align) : size.toNat + 4095 < 2 ^ 32 := by
  have up := Nat.le_roundUp (b := size.toNat) (l := 4096) (by omega)
  have alignUp := Nat.le_roundUp (b := max align.toNat 1) (l := 4096) (by omega)
  have alignDvd := Nat.dvd_roundUp (max align.toNat 1) 4096
  have sizeDvd := Nat.dvd_roundUp size.toNat 4096
  have := valid.room
  have := valid.positive
  unfold roundedSize roundedAlign at *
  omega

/-- `ALIGN(size, PAGE_SIZE)` of a valid request. -/
theorem ValidRequest.toNat_size (valid : ValidRequest size align) :
    (ALIGN size pageSize).toNat = roundedSize size := by
  have := valid.size_lt
  exact toNat_ALIGN (k := 12) (by omega) rfl (by omega)

/-- `ALIGN(align, PAGE_SIZE)`, after `align` zero became one. -/
theorem toNat_align (power : align = 0 ∨ align.toNat.isPowerOfTwo) :
    ∃ k, 12 ≤ k ∧ k < 32 ∧ (ALIGN (if align = 0 then 1 else align) pageSize).toNat = 2 ^ k ∧
      roundedAlign align = 2 ^ k := by
  have small := align.isLt
  obtain ⟨k, hk, value⟩ : ∃ k < 32, (if align = 0 then 1 else align).toNat = 2 ^ k := by
    rcases power with rfl | ⟨k, hk⟩
    · exact ⟨0, by omega, rfl⟩
    · have bound : k < 32 := by
        rw [hk] at small
        exact (Nat.pow_lt_pow_iff_right (by omega)).mp small
      refine ⟨k, bound, ?_⟩
      rw [if_neg, hk]
      rintro rfl
      have := Nat.two_pow_pos k
      simp at hk
      omega
  have same : max align.toNat 1 = 2 ^ k := by
    rw [← value]
    split_ifs with zero
    · rw [zero]
      rfl
    · have : align.toNat ≠ 0 := fun h => zero (BitVec.eq_of_toNat_eq (by simpa using h))
      omega
  have bound : 2 ^ k ≤ 2 ^ 31 := Nat.pow_le_pow_right (by omega) (by omega)
  refine ⟨max k 12, le_max_right _ _, by omega, ?_, ?_⟩
  · rw [toNat_ALIGN (k := 12) (by omega) rfl (by rw [value]; omega), value]
    exact roundUp_page_of_pow
  · rw [roundedAlign, same, roundUp_page_of_pow]

end Rounding

/-- The place `xrp_private_alloc` finds in the free list. -/
def XrpPrivatePool.find (pool : XrpPrivatePool w) (size align : U32) : Option (Found w) :=
  xrpPrivateAllocLoop (ALIGN (if align = 0 then 1 else align) pageSize) (ALIGN size pageSize)
    pool.freeList

/-- The outcomes of `xrp_private_alloc`: an error before the free list is touched, an
error after a split for want of a node, or success. -/
theorem xrpPrivateAlloc_cases {kzalloc kzallocAgain : Bool} {pool pool' : XrpPrivatePool w}
    {size align : U32} {r : Except Errno (XrpAllocation w)}
    (result : xrpPrivateAlloc kzalloc kzallocAgain pool size align = (r, pool')) :
    ((∃ e, r = .error e) ∧ pool' = pool) ∨
    ∃ found, pool.find size align = some found ∧
      pool' = { pool with freeList := found.freeList } ∧
      (kzallocAgain = false ∧ found.cur = false ∧ found.new = false ∧ r = .error .enomem ∨
        r = .ok ⟨⟨found.alignedStart, ALIGN size pageSize⟩, 1⟩) := by
  unfold xrpPrivateAlloc at result
  by_cases bad : size = 0 ∨ align &&& (align - 1) ≠ 0
  · rw [if_pos bad] at result
    cases result
    exact .inl ⟨⟨_, rfl⟩, rfl⟩
  · rw [if_neg bad] at result
    cases kzalloc with
    | false =>
      cases result
      exact .inl ⟨⟨_, rfl⟩, rfl⟩
    | true =>
      cases place : pool.find size align with
      | none =>
        unfold XrpPrivatePool.find at place
        simp only [place, Bool.not_true, Bool.false_eq_true, if_false] at result
        cases result
        exact .inl ⟨⟨_, rfl⟩, rfl⟩
      | some found =>
        unfold XrpPrivatePool.find at place
        simp only [place, Bool.not_true, Bool.false_eq_true, if_false] at result
        refine .inr ⟨found, rfl, ?_⟩
        split_ifs at result with noNode
        · cases result
          simp only [Bool.and_eq_true, Bool.not_eq_true'] at noNode
          exact ⟨rfl, .inl ⟨noNode.2, noNode.1.1, noNode.1.2, rfl⟩⟩
        · cases result
          exact ⟨rfl, .inr rfl⟩

theorem xrpPrivateAlloc_refused {kzalloc kzallocAgain : Bool} {pool : XrpPrivatePool w}
    {size align : U32} (refused : kzalloc = false ∨ pool.find size align = none) :
    ∃ e, xrpPrivateAlloc kzalloc kzallocAgain pool size align = (.error e, pool) := by
  rcases refused with rfl | place
  · unfold xrpPrivateAlloc
    by_cases bad : size = 0 ∨ align &&& (align - 1) ≠ 0
    · rw [if_pos bad]
      exact ⟨_, rfl⟩
    · rw [if_neg bad]
      exact ⟨_, rfl⟩
  · rcases xrpPrivateAlloc_cases (Prod.mk.eta.symm :
      xrpPrivateAlloc kzalloc kzallocAgain pool size align = _) with
      ⟨⟨e, failed⟩, same⟩ | ⟨found, found_eq, _⟩
    · exact ⟨e, Prod.ext failed same⟩
    · rw [place] at found_eq
      cases found_eq

theorem xrpPrivateAlloc_of_find {pool : XrpPrivatePool w} {size align : U32} {found : Found w}
    (place : pool.find size align = some found)
    (good : ¬ (size = 0 ∨ align &&& (align - 1) ≠ 0)) (kzallocAgain : Bool) :
    (xrpPrivateAlloc true kzallocAgain pool size align).2 =
      { pool with freeList := found.freeList } := by
  unfold XrpPrivatePool.find at place
  unfold xrpPrivateAlloc
  rw [if_neg good]
  simp only [place, Bool.not_true, Bool.false_eq_true, if_false]
  split_ifs <;> rfl

/-- With memory for list nodes a place that is found is given out. -/
theorem xrpPrivateAlloc_found {pool : XrpPrivatePool w} {size align : U32} {found : Found w}
    (place : pool.find size align = some found)
    (good : ¬ (size = 0 ∨ align &&& (align - 1) ≠ 0)) :
    xrpPrivateAlloc true true pool size align =
      (.ok ⟨⟨found.alignedStart, ALIGN size pageSize⟩, 1⟩,
        { pool with freeList := found.freeList }) := by
  unfold XrpPrivatePool.find at place
  unfold xrpPrivateAlloc
  rw [if_neg good]
  simp only [place, Bool.not_true, Bool.false_eq_true, if_false, Bool.and_false]

/-- The test of the loop of `xrp_private_alloc` for a block, with rounded arguments. -/
def Block.Admits (align size : U32) (cur : Block w) : Prop :=
  cur.start ≤ ALIGN cur.start (align.setWidth w) ∧
    ALIGN cur.start (align.setWidth w) - cur.start + size.setWidth w ≤ cur.size.setWidth w

instance (align size : U32) (cur : Block w) : Decidable (cur.Admits align size) :=
  inferInstanceAs (Decidable (_ ∧ _))

/-- A block that does not pass the test stays as it is. -/
theorem xrpPrivateAllocLoop_of_not_admits {align size : U32} {cur : Block w}
    {next : List (Block w)} (rejected : ¬ cur.Admits align size) :
    xrpPrivateAllocLoop align size (cur :: next) =
      (xrpPrivateAllocLoop align size next).map fun found =>
        { found with freeList := cur :: found.freeList } :=
  if_neg rejected

/-- The place that the loop finds is in a block that passes its test. -/
theorem xrpPrivateAllocLoop_admits {align size : U32} {blocks : List (Block w)} {found : Found w}
    (place : xrpPrivateAllocLoop align size blocks = some found) :
    ∃ cur ∈ blocks, cur.Admits align size ∧
      found.alignedStart = ALIGN cur.start (align.setWidth w) := by
  induction blocks generalizing found with
  | nil => cases place
  | cons cur next ih =>
    by_cases admits : cur.Admits align size
    · refine ⟨cur, List.mem_cons_self, admits, ?_⟩
      unfold Block.Admits at admits
      simp only [xrpPrivateAllocLoop, if_pos admits] at place
      split_ifs at place <;> cases place <;> rfl
    · rw [xrpPrivateAllocLoop_of_not_admits admits] at place
      obtain ⟨later, behind, rfl⟩ := Option.map_eq_some_iff.mp place
      obtain ⟨b, member, rest⟩ := ih behind
      exact ⟨b, List.mem_cons_of_mem cur member, rest⟩

/-- Every place that is found is a multiple of the rounded alignment. -/
theorem dvd_alignedStart (wide : 32 ≤ w) {align size : U32} {k : ℕ} (hk : k < 32)
    (hAlign : align.toNat = 2 ^ k) {blocks : List (Block w)} {found : Found w}
    (place : xrpPrivateAllocLoop align size blocks = some found) :
    2 ^ k ∣ found.alignedStart.toNat := by
  have hWide : (align.setWidth w).toNat = 2 ^ k := by
    rw [BitVec.toNat_setWidth_of_le wide, hAlign]
  obtain ⟨cur, -, -, start⟩ := xrpPrivateAllocLoop_admits place
  rw [start]
  exact dvd_ALIGN (by omega) hWide

/-- What is found for a valid request is what `Extent.carve` cuts. -/
theorem ValidRequest.find_extents (wide : 32 ≤ w) {pool : XrpPrivatePool w} {size align : U32}
    (valid : ValidRequest size align) (fits : ∀ b ∈ pool.freeList, b.Fits) :
    (pool.find size align).map
        (fun found => (found.alignedStart.toNat, found.freeList.map Block.extent)) =
      Extent.carve (roundedAlign align) (roundedSize size)
        (pool.freeList.map Block.extent) := by
  obtain ⟨k, -, hk, alignValue, rounded⟩ := toNat_align valid.power
  have sizeValue := valid.toNat_size
  have positive : 0 < (ALIGN size pageSize).toNat := by
    rw [sizeValue]
    exact lt_of_lt_of_le valid.positive (Nat.le_roundUp (by omega))
  have room := valid.room
  rw [rounded, ← sizeValue] at room
  rw [rounded, ← alignValue, ← sizeValue]
  exact xrpPrivateAllocLoop_extents wide hk alignValue positive room fits

/-- A successful allocation carves the rounded request out of the free list. -/
theorem xrpPrivateAlloc_ok (wide : 32 ≤ w) {kzalloc kzallocAgain : Bool}
    {pool pool' : XrpPrivatePool w} {size align : U32} {a : XrpAllocation w}
    (valid : ValidRequest size align) (fits : ∀ b ∈ pool.freeList, b.Fits)
    (result : xrpPrivateAlloc kzalloc kzallocAgain pool size align = (.ok a, pool')) :
    pool'.start = pool.start ∧ pool'.size = pool.size ∧ a.extent.len = roundedSize size ∧
      Extent.carve (roundedAlign align) (roundedSize size) (pool.freeList.map Block.extent) =
        some (a.extent.base, pool'.freeList.map Block.extent) := by
  have carved := valid.find_extents wide fits
  obtain ⟨⟨e, impossible⟩, -⟩ | ⟨found, place, rfl, ⟨-, -, -, impossible⟩ | same⟩ :=
    xrpPrivateAlloc_cases result
  · cases impossible
  · cases impossible
  · cases same
    rw [place, Option.map_some] at carved
    exact ⟨rfl, rfl, valid.toNat_size, carved.symm⟩

/-- With `kzalloc` succeeding a failed allocation leaves the pool alone. -/
theorem xrpPrivateAlloc_error {pool pool' : XrpPrivatePool w} {size align : U32} {e : Errno}
    (result : xrpPrivateAlloc true true pool size align = (.error e, pool')) : pool' = pool := by
  obtain ⟨-, same⟩ | ⟨found, -, -, ⟨impossible, -⟩ | impossible⟩ := xrpPrivateAlloc_cases result
  · exact same
  · cases impossible
  · cases impossible

end Xrp.Kernel
