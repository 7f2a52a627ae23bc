import Xrp.Base.Tiles
import Xrp.Kernel.Alloc

/-!
# The areas that cover a region

`xvp_get_region_vma_count` of `xvp_main.c`: how many memory areas of the caller, one next to the
other, cover the region that is to be shared. The end of the region is computed modulo the size of
the address space; a region whose end wraps around seems to lie inside the first area, and the count
is one. This is the only check that the region belongs to the caller. The width of `unsigned long`
is a parameter.
-/

namespace Xrp.Kernel

/-- The file behind an area: the one that makes the request, one of the same driver, with the start
of the memory of its device, or any other. -/
inductive VmFile (w : ℕ) : Type
  | own
  | known (pmem : BitVec w)
  | other
  deriving DecidableEq

/-- `struct vm_area_struct`. -/
structure VmAreaStruct (w : ℕ) : Type where
  vmStart : BitVec w
  vmEnd : BitVec w
  vmFlags : BitVec w
  vmPgoff : BitVec w
  vmFile : VmFile w
  vmPrivateData : BitVec w
  nonempty : vmStart < vmEnd
  deriving DecidableEq

section Model

variable {w : ℕ}

/-- `find_vma`: the first area that ends behind an address. -/
def findVma (mm : List (VmAreaStruct w)) (addr : BitVec w) : Option (VmAreaStruct w) :=
  mm.find? fun vma => addr < vma.vmEnd

theorem lt_vmEnd_of_findVma {mm : List (VmAreaStruct w)} {addr : BitVec w}
    {vma : VmAreaStruct w} (found : findVma mm addr = some vma) : addr < vma.vmEnd := by
  have above := List.find?_some found
  exact of_decide_eq_true above

theorem left_lt_of_findVma {mm : List (VmAreaStruct w)} {addr : BitVec w}
    {vma : VmAreaStruct w} (found : findVma mm addr = some vma) :
    2 ^ w - vma.vmEnd.toNat < 2 ^ w - addr.toNat := by
  have above := BitVec.lt_def.mp (lt_vmEnd_of_findVma found)
  have bound := vma.vmEnd.isLt
  omega

/-- The loop of `xvp_get_region_vma_count`; `stop` is `virt + size`. -/
def countVmas (mm : List (VmAreaStruct w)) (stop : BitVec w) (vma : VmAreaStruct w) (i : U32) :
    U32 :=
  match found : findVma mm vma.vmEnd with
  | none => 0
  | some next =>
    if next.vmStart ≠ vma.vmEnd then 0
    else if stop ≤ next.vmEnd then i
    else countVmas mm stop next (i + 1)
termination_by 2 ^ w - vma.vmEnd.toNat
decreasing_by exact left_lt_of_findVma found

/-- `xvp_get_region_vma_count`. -/
def xvpGetRegionVmaCount (mm : List (VmAreaStruct w)) (virt size : BitVec w)
    (vma : VmAreaStruct w) : U32 :=
  if vma.vmStart > virt then 0
  else if vma.vmStart ≤ virt ∧ virt + size ≤ vma.vmEnd then 1
  else countVmas mm (virt + size) vma 2

end Model

/-! ## Coverage -/

namespace VmAreaStruct

variable {w : ℕ}

/-- The first address of the area. -/
def lo (vma : VmAreaStruct w) : ℕ := vma.vmStart.toNat

/-- The first address behind the area. -/
def hi (vma : VmAreaStruct w) : ℕ := vma.vmEnd.toNat

/-- The area holds the address. -/
def Holds (vma : VmAreaStruct w) (b : ℕ) : Prop := Tiles.Holds lo hi vma b

end VmAreaStruct

section Coverage

open VmAreaStruct

variable {w : ℕ}

/-- Areas that are sorted and disjoint. -/
def Areas (mm : List (VmAreaStruct w)) : Prop := mm.Pairwise fun a b => a.vmEnd ≤ b.vmStart

variable (mm : List (VmAreaStruct w)) (vma : VmAreaStruct w) (virt : BitVec w) (size : U32)

/-- The bytes of the region are covered by `k` adjacent areas, of which `vma` is the first. -/
def CoveredBy (k : ℕ) : Prop :=
  ∃ chain : List (VmAreaStruct w), chain.length = k ∧ chain.head? = some vma ∧
    (∀ v ∈ chain, v ∈ mm) ∧ chain.IsChain (fun a b => a.vmEnd = b.vmStart) ∧
    ∀ b, virt.toNat ≤ b → b < virt.toNat + size.toNat → ∃ v ∈ chain, v.Holds b

/-- The count is the least number of such areas, or zero if the region is not covered. -/
structure CountRight (count : ℕ) : Prop where
  covered : ∀ k > 0, count = k ↔
    CoveredBy mm vma virt size k ∧ ∀ j < k, ¬ CoveredBy mm vma virt size j
  uncovered : count = 0 ↔
    (∃ b, virt.toNat ≤ b ∧ b < virt.toNat + size.toNat ∧ ∀ v ∈ mm, ¬ v.Holds b) ∨
      virt < vma.vmStart

end Coverage

section Tiled

open VmAreaStruct

variable {w : ℕ} {mm : List (VmAreaStruct w)} {vma : VmAreaStruct w}

theorem Areas.sorted (areas : Areas mm) : Tiles.Sorted lo hi mm where
  pos v _ := BitVec.lt_def.mp v.nonempty
  order := areas.imp fun le => BitVec.le_def.mp le

theorem findVma_eq (addr : BitVec w) : findVma mm addr = Tiles.firstAbove hi mm addr.toNat := by
  unfold findVma Tiles.firstAbove
  congr 1

/-- A number of areas from `vma` on, the last of which ends at `stop` or behind it. -/
structure Spans (mm : List (VmAreaStruct w)) (vma : VmAreaStruct w) (stop : ℕ)
    (rest : List (VmAreaStruct w)) : Prop where
  members : ∀ v ∈ rest, v ∈ mm
  chain : (vma :: rest).IsChain (Tiles.Touch lo hi)
  reaches : stop ≤ ((vma :: rest).getLast (List.cons_ne_nil vma rest)).hi

/-- One area more in front. -/
theorem Spans.cons {next : VmAreaStruct w} {stop : ℕ} {rest : List (VmAreaStruct w)}
    (spans : Spans mm next stop rest) (member : next ∈ mm) (touch : vma.hi = next.lo) :
    Spans mm vma stop (next :: rest) where
  members := List.forall_mem_cons.mpr ⟨member, spans.members⟩
  chain := List.isChain_cons_cons.mpr ⟨touch, spans.chain⟩
  reaches := by
    rw [List.getLast_cons (List.cons_ne_nil next rest)]
    exact spans.reaches

/-- Behind an area that does not reach `stop` there is the area that the loop finds. -/
theorem Spans.uncons {next : VmAreaStruct w} {stop : ℕ} {rest : List (VmAreaStruct w)}
    (areas : Areas mm) (spans : Spans mm vma stop rest) (short : vma.hi < stop)
    (found : findVma mm vma.vmEnd = some next) :
    ∃ tail, rest = next :: tail ∧ Spans mm next stop tail := by
  cases rest with
  | nil =>
    have reaches : stop ≤ vma.hi := spans.reaches
    omega
  | cons v tail =>
    obtain ⟨touch, chain⟩ := List.isChain_cons_cons.mp spans.chain
    obtain ⟨member, members⟩ := List.forall_mem_cons.mp spans.members
    have same : v = next := by
      have first := (findVma_eq vma.vmEnd).symm.trans found
      have begins := areas.sorted.firstAbove_of_lo member (Eq.symm touch)
      exact Option.some.inj (begins.symm.trans first)
    have reaches := spans.reaches
    rw [List.getLast_cons (List.cons_ne_nil v tail)] at reaches
    subst same
    exact ⟨tail, rfl, members, chain, reaches⟩

/-- If no area begins where one ends, nothing holds that address. -/
theorem not_holds_of_gap (areas : Areas mm) (member : vma ∈ mm)
    (gap : ∀ next, findVma mm vma.vmEnd = some next → next.vmStart ≠ vma.vmEnd) :
    ∀ v ∈ mm, ¬ v.Holds vma.hi := by
  intro v inside holds
  have found := areas.sorted.firstAbove_of_holds inside holds
  have behind := areas.sorted.le_lo_of_firstAbove member found
  have begins : v.lo = vma.hi := le_antisymm holds.1 behind
  refine gap v ?_ (BitVec.eq_of_toNat_eq begins)
  rw [findVma_eq]
  exact found

/-- The loop either finds an address that no area holds, or counts the areas up to `stop`. -/
theorem countVmas_spec {stop : BitVec w} (areas : Areas mm) (member : vma ∈ mm)
    (short : vma.hi < stop.toNat) (i : U32) :
    (countVmas mm stop vma i = 0 ∧
      ∃ b, vma.hi ≤ b ∧ b < stop.toNat ∧ ∀ v ∈ mm, ¬ v.Holds b) ∨
    ∃ next tail, Spans mm vma stop.toNat (next :: tail) ∧
      (∀ rest, Spans mm vma stop.toNat rest → tail.length < rest.length) ∧
      tail.length < stop.toNat - vma.hi ∧
      countVmas mm stop vma i = i + BitVec.ofNat 32 tail.length := by
  fun_induction countVmas mm stop vma i with
  | case1 vma i found =>
    refine .inl ⟨rfl, vma.hi, le_rfl, short, not_holds_of_gap areas member fun next some => ?_⟩
    rw [found] at some
    cases some
  | case2 vma i next found apart =>
    refine .inl ⟨rfl, vma.hi, le_rfl, short, not_holds_of_gap areas member fun v some => ?_⟩
    rw [found] at some
    cases some
    exact apart
  | case3 vma i next found touch reached =>
    have begins : vma.hi = next.lo := congrArg BitVec.toNat (not_not.mp touch).symm
    have inside : next ∈ mm := List.mem_of_find?_eq_some found
    have spans : Spans mm next stop.toNat [] := ⟨by simp, by simp, BitVec.le_def.mp reached⟩
    refine .inr ⟨next, [], spans.cons inside begins, fun rest other => ?_, by simpa using short,
      by simp⟩
    obtain ⟨tail, rfl, -⟩ := other.uncons areas short found
    simp
  | case4 vma i next found touch beyond ih =>
    have begins : vma.hi = next.lo := congrArg BitVec.toNat (not_not.mp touch).symm
    have inside : next ∈ mm := List.mem_of_find?_eq_some found
    have pos : next.lo < next.hi := areas.sorted.pos next inside
    have before : next.hi < stop.toNat := by
      rw [BitVec.le_def, not_le] at beyond
      exact beyond
    obtain ⟨zero, b, low, rest⟩ | ⟨next', tail, spans, least, bound, count⟩ := ih inside before
    · exact .inl ⟨zero, b, by omega, rest⟩
    · refine .inr ⟨next, next' :: tail, spans.cons inside begins, fun rest other => ?_, ?_, ?_⟩
      · obtain ⟨tail', rfl, spans'⟩ := other.uncons areas short found
        have shorter := least tail' spans'
        simp only [List.length_cons]
        omega
      · simp only [List.length_cons]
        omega
      · rw [count, List.length_cons, BitVec.ofNat_add, add_assoc, add_comm (1 : U32)]
        rfl

end Tiled

/-! ## The count -/

section Count

open VmAreaStruct

variable {w : ℕ} {mm : List (VmAreaStruct w)} {vma : VmAreaStruct w} {virt : BitVec w} {size : U32}

theorem isChain_touch_iff {chain : List (VmAreaStruct w)} :
    chain.IsChain (fun a b => a.vmEnd = b.vmStart) ↔ chain.IsChain (Tiles.Touch lo hi) :=
  ⟨fun ends => ends.imp fun _ _ touch => congrArg BitVec.toNat touch,
    fun ends => ends.imp fun _ _ touch => BitVec.eq_of_toNat_eq touch⟩

/-- To cover the region is to reach its end. -/
theorem coveredBy_iff (areas : Areas mm) (member : vma ∈ mm) (below : vma.lo ≤ virt.toNat)
    (positive : 1 ≤ size.toNat) {k : ℕ} :
    CoveredBy mm vma virt size k ↔
      ∃ rest, rest.length + 1 = k ∧ Spans mm vma (virt.toNat + size.toNat) rest := by
  constructor
  · rintro ⟨chain, length, head, members, ends, covered⟩
    obtain ⟨rest, rfl⟩ : ∃ rest, chain = vma :: rest := by
      cases chain with
      | nil => cases head
      | cons v rest =>
        cases head
        exact ⟨rest, rfl⟩
    have touching := isChain_touch_iff.mp ends
    have pos : ∀ v ∈ vma :: rest, v.lo < v.hi := fun v inside =>
      areas.sorted.pos v (members v inside)
    have last := (Tiles.holds_chain_iff pos touching).mp
      (covered (virt.toNat + size.toNat - 1) (by omega) (by omega))
    exact ⟨rest, length, (List.forall_mem_cons.mp members).2, touching, by omega⟩
  · rintro ⟨rest, length, spans⟩
    have members := List.forall_mem_cons.mpr ⟨member, spans.members⟩
    have pos : ∀ v ∈ vma :: rest, v.lo < v.hi := fun v inside =>
      areas.sorted.pos v (members v inside)
    refine ⟨vma :: rest, length, rfl, members, isChain_touch_iff.mpr spans.chain,
      fun b low high => ?_⟩
    exact (Tiles.holds_chain_iff pos spans.chain).mpr
      ⟨below.trans low, lt_of_lt_of_le high spans.reaches⟩

/-- The right count for a region that areas cover. -/
theorem CountRight.of_spans (areas : Areas mm) (member : vma ∈ mm) (below : vma.lo ≤ virt.toNat)
    (positive : 1 ≤ size.toNat) {rest : List (VmAreaStruct w)}
    (spans : Spans mm vma (virt.toNat + size.toNat) rest)
    (least : ∀ other, Spans mm vma (virt.toNat + size.toNat) other →
      rest.length ≤ other.length) :
    CountRight mm vma virt size (rest.length + 1) := by
  have covers {k : ℕ} := coveredBy_iff (k := k) areas member below positive
  have covered := covers.mpr ⟨rest, rfl, spans⟩
  constructor
  · intro k _
    constructor
    · rintro rfl
      refine ⟨covered, fun j fewer coveredBy => ?_⟩
      obtain ⟨other, length, spans'⟩ := covers.mp coveredBy
      have shortest := least other spans'
      omega
    · rintro ⟨coveredBy, fewest⟩
      obtain ⟨other, length, spans'⟩ := covers.mp coveredBy
      have shortest := least other spans'
      by_contra ne
      exact fewest (rest.length + 1) (by omega) covered
  · refine iff_of_false (by omega) ?_
    rintro (⟨b, low, high, outside⟩ | before)
    · obtain ⟨chain, -, -, members, -, held⟩ := covered
      obtain ⟨v, inside, holds⟩ := held b low high
      exact outside v (members v inside) holds
    · have above := BitVec.lt_def.mp before
      unfold lo at below
      omega

/-- The right count for a region that is not covered. -/
theorem CountRight.of_uncovered {b : ℕ} (low : virt.toNat ≤ b)
    (high : b < virt.toNat + size.toNat) (outside : ∀ v ∈ mm, ¬ v.Holds b) :
    CountRight mm vma virt size 0 := by
  constructor
  · intro k positive
    refine iff_of_false (by omega) ?_
    rintro ⟨⟨chain, -, -, members, -, held⟩, -⟩
    obtain ⟨v, inside, holds⟩ := held b low high
    exact outside v (members v inside) holds
  · exact iff_of_true rfl (.inl ⟨b, low, high, outside⟩)

/-- No area holds an address that lies before the area found for it. -/
theorem not_holds_of_before (areas : Areas mm) (found : findVma mm virt = some vma)
    (before : virt < vma.vmStart) : ∀ v ∈ mm, ¬ v.Holds virt.toNat := by
  intro v inside holds
  rw [findVma_eq] at found
  have same := areas.sorted.eq_of_holds found inside holds
  have low := holds.1
  rw [same] at low
  exact absurd (BitVec.lt_def.mp before) (not_lt.mpr low)

/-- Without wrap-around the count is right. -/
theorem countRight_of_lt (wide : 32 ≤ w) (areas : Areas mm) (found : findVma mm virt = some vma)
    (positive : 1 ≤ size.toNat) (room : virt.toNat + size.toNat < 2 ^ w) :
    CountRight mm vma virt size
      (xvpGetRegionVmaCount mm virt (size.setWidth w) vma).toNat := by
  have member : vma ∈ mm := List.mem_of_find?_eq_some found
  have above : virt.toNat < vma.hi := BitVec.lt_def.mp (lt_vmEnd_of_findVma found)
  have stop : (virt + size.setWidth w).toNat = virt.toNat + size.toNat := by
    rw [BitVec.toNat_add, BitVec.toNat_setWidth_of_le wide, Nat.mod_eq_of_lt room]
  unfold xvpGetRegionVmaCount
  split_ifs with before inside
  · exact .of_uncovered le_rfl (by omega) (not_holds_of_before areas found before)
  · have below : vma.lo ≤ virt.toNat := BitVec.le_def.mp inside.1
    have reaches := BitVec.le_def.mp inside.2
    rw [stop] at reaches
    have spans : Spans mm vma (virt.toNat + size.toNat) [] := ⟨by simp, by simp, reaches⟩
    exact .of_spans areas member below positive spans fun other _ => Nat.zero_le _
  · have below : vma.lo ≤ virt.toNat := BitVec.le_def.mp (BitVec.not_lt.mp before)
    have short : vma.hi < (virt + size.setWidth w).toNat := by
      have longer := not_and.mp inside (BitVec.not_lt.mp before)
      rw [BitVec.le_def, not_le] at longer
      exact longer
    obtain ⟨zero, b, low, high, outside⟩ | ⟨next, tail, spans, least, bound, count⟩ :=
      countVmas_spec areas member short 2
    · rw [zero]
      rw [stop] at high
      exact .of_uncovered (by omega) high outside
    · rw [stop] at spans least bound
      -- every area has a byte of the region, so the counter does not wrap around
      have small := size.isLt
      have value : (2 + BitVec.ofNat 32 tail.length).toNat = (next :: tail).length + 1 := by
        rw [BitVec.toNat_add, BitVec.toNat_ofNat,
          Nat.mod_eq_of_lt (by omega : tail.length < 2 ^ 32)]
        change (2 + tail.length) % 2 ^ 32 = _
        rw [Nat.mod_eq_of_lt (by omega), List.length_cons]
        omega
      rw [count, value]
      exact .of_spans areas member below positive spans least

/-- A region whose end wraps around seems to lie inside one area. -/
theorem count_of_wrap (wide : 32 ≤ w) (found : findVma mm virt = some vma)
    (below : vma.vmStart ≤ virt) (wraps : 2 ^ w ≤ virt.toNat + size.toNat) :
    xvpGetRegionVmaCount mm virt (size.setWidth w) vma = 1 := by
  have above := BitVec.lt_def.mp (lt_vmEnd_of_findVma found)
  have small : size.toNat < 2 ^ w := size.isLt.trans_le (Nat.pow_le_pow_right (by decide) wide)
  have virtBound := virt.isLt
  have stop : (virt + size.setWidth w).toNat = virt.toNat + size.toNat - 2 ^ w := by
    rw [BitVec.toNat_add, BitVec.toNat_setWidth_of_le wide, Nat.mod_eq_sub_mod wraps,
      Nat.mod_eq_of_lt (by omega)]
  have inside : virt + size.setWidth w ≤ vma.vmEnd := by
    rw [BitVec.le_def, stop]
    omega
  unfold xvpGetRegionVmaCount
  rw [if_neg (BitVec.not_lt.mpr below), if_pos ⟨below, inside⟩]

/-- **The areas that cover a region are counted right, if and only if** the end of the region does
not wrap around, or the region begins before the first area. -/
theorem xvpGetRegionVmaCount_right_iff (wide : 32 ≤ w) (areas : Areas mm)
    (found : findVma mm virt = some vma) (positive : 1 ≤ size.toNat) :
    CountRight mm vma virt size
      (xvpGetRegionVmaCount mm virt (size.setWidth w) vma).toNat ↔
    virt < vma.vmStart ∨ virt.toNat + size.toNat < 2 ^ w := by
  constructor
  · intro right
    by_contra wraps
    obtain ⟨after, full⟩ := not_or.mp wraps
    have one := count_of_wrap wide found (BitVec.not_lt.mp after) (not_lt.mp full)
    rw [one, show (1 : U32).toNat = 1 from rfl] at right
    obtain ⟨⟨chain, -, -, -, -, held⟩, -⟩ := (right.covered 1 (by decide)).mp rfl
    -- the last address of all lies in the region, and no area holds it
    have virtBound := virt.isLt
    obtain ⟨v, -, -, high⟩ := held (2 ^ w - 1) (by omega) (by omega)
    have vBound : v.hi < 2 ^ w := v.vmEnd.isLt
    omega
  · rintro (before | room)
    · have zero : xvpGetRegionVmaCount mm virt (size.setWidth w) vma = 0 := if_pos before
      rw [zero]
      exact .of_uncovered le_rfl (by omega) (not_holds_of_before areas found before)
    · exact countRight_of_lt wide areas found positive room

end Count

/-- An area without flags, of a file that is not of the driver. -/
def plainArea (w : ℕ) (vmStart vmEnd : BitVec w) (nonempty : vmStart < vmEnd) : VmAreaStruct w :=
  ⟨vmStart, vmEnd, 0, 0, .other, 0, nonempty⟩

/-- Two areas that touch, and a region that begins in the first one and ends in the second. -/
theorem xvpGetRegionVmaCount_right_touching :
    let data : VmAreaStruct 32 := plainArea 32 0x10000 0x11000 (by decide)
    let bss : VmAreaStruct 32 := plainArea 32 0x11000 0x13000 (by decide)
    CountRight [data, bss] data 0x10800 0x1000
      (xvpGetRegionVmaCount [data, bss] 0x10800 0x1000 data).toNat := by
  intro data bss
  have areas : Areas [data, bss] := by
    simp [Areas, data, bss, plainArea]
  have found : findVma [data, bss] 0x10800 = some data := by decide
  exact (xvpGetRegionVmaCount_right_iff le_rfl areas found (by decide)).mpr (.inr (by decide))

/-- With addresses of 32 bits: an area of one page below the memory of the kernel, and a region
whose end wraps around. -/
theorem xvpGetRegionVmaCount_not_right :
    let stack : VmAreaStruct 32 := plainArea 32 0xb0000000 0xb0001000 (by decide)
    findVma [stack] 0xb0000000 = some stack ∧
      xvpGetRegionVmaCount [stack] 0xb0000000 0x60000000 stack = 1 ∧
      ¬ CountRight [stack] stack 0xb0000000 0x60000000
        (xvpGetRegionVmaCount [stack] 0xb0000000 0x60000000 stack).toNat := by
  intro stack
  have one : xvpGetRegionVmaCount [stack] 0xb0000000 0x60000000 stack = 1 := by decide
  refine ⟨by decide, one, fun right => ?_⟩
  rw [one] at right
  obtain ⟨⟨chain, -, -, members, -, held⟩, -⟩ := (right.covered 1 (by decide)).mp rfl
  obtain ⟨v, inside, -, high⟩ := held 0xb0001000 (by decide) (by decide)
  cases List.mem_singleton.mp (members v inside)
  exact absurd high (by decide)

end Xrp.Kernel
