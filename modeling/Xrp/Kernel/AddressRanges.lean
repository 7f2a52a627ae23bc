import Xrp.Kernel.AddressMap

/-!
# Reading the address map from the device tree

The loop of `xrp_init_address_map` over the cells of the `ranges` property. The array has as many
entries as there are whole groups of cells, but the loop goes on until the offset has reached the
length of the property. It is therefore followed by its accesses: which cells it reads, and which
entries it writes. Lengths and offsets are `int` in the source and natural numbers
here: a property has fewer than `2 ^ 31` bytes.
-/

namespace Xrp.Kernel

/-- The numbers of cells of an address of the child node, of an address of the node, and of a
size. -/
structure CellCounts : Type where
  na : ℕ
  pna : ℕ
  ns : ℕ
  pos : 1 ≤ na + pna + ns

/-- The number of cells of a range. -/
def CellCounts.group (c : CellCounts) : ℕ := c.na + c.pna + c.ns

theorem CellCounts.group_pos (c : CellCounts) : 0 < c.group := c.pos

/-- `of_read_number` of `n` cells from a cell on, with what was read before. -/
def ofReadNumber (ranges : ℕ → U32) : ℕ → ℕ → BitVec 64 → BitVec 64
  | 0, _, r => r
  | n + 1, cell, r => ofReadNumber ranges n (cell + 1) (r <<< 32 ||| (ranges cell).setWidth 64)

/-- An access of the loop; the three members of an entry are written as one. -/
inductive RangesAccess (w : ℕ) : Type
  | read (cell : ℕ)
  | write (i : ℕ) (entry : XrpAddressMapEntry w)
  deriving DecidableEq

section Model

variable {w : ℕ} (translate : List U32 → BitVec w) (c : CellCounts) (ranges : ℕ → U32)

/-- The entry for the group of cells at an offset; `translate` is `of_translate_address` for the
child node. -/
def rangeEntry (off : ℕ) : XrpAddressMapEntry w where
  srcAddr := translate ((List.range' off c.na).map ranges)
  dstAddr := (ofReadNumber ranges c.na off 0).setWidth 32
  size := (ofReadNumber ranges c.ns (off + c.na + c.pna) 0).setWidth 32

/-- The accesses of one round of the loop. -/
def rangesRound (off i : ℕ) : List (RangesAccess w) :=
  -- the cells of the address are read twice
  (List.range' off c.na).map .read ++ (List.range' off c.na).map .read ++
    (List.range' (off + c.na + c.pna) c.ns).map .read ++
    [.write i (rangeEntry translate c ranges off)]

/-- The loop of `xrp_init_address_map`, for a property of `rlen` cells. -/
def rangesLoop (rlen off i : ℕ) : List (RangesAccess w) :=
  if off < rlen then
    rangesRound translate c ranges off i ++ rangesLoop rlen (off + c.group) (i + 1)
  else []
termination_by rlen - off
decreasing_by
  have pos := c.group_pos
  omega

/-- The accesses to a property of `rlen` bytes. -/
def readRanges (rlen : ℕ) : List (RangesAccess w) := rangesLoop translate c ranges (rlen / 4) 0 0

/-- `map->n`. -/
def mapCount (rlen : ℕ) : ℕ := rlen / 4 / c.group

/-- The accesses stay in the array and in the property, and write every entry of the array, from its
group of cells. -/
structure RangesInBounds (rlen : ℕ) : Prop where
  entries : ∀ i entry, .write i entry ∈ readRanges translate c ranges rlen ↔
    i < mapCount c rlen ∧ entry = rangeEntry translate c ranges (i * c.group)
  cells : ∀ cell, .read cell ∈ readRanges translate c ranges rlen → 4 * cell + 4 ≤ rlen

end Model

/-! ## The accesses of the loop -/

section Accesses

variable {w : ℕ} {translate : List U32 → BitVec w} {c : CellCounts} {ranges : ℕ → U32}
  {rlen off i : ℕ}

theorem write_mem_rangesRound {j : ℕ} {entry : XrpAddressMapEntry w} :
    .write j entry ∈ rangesRound translate c ranges off i ↔
      j = i ∧ entry = rangeEntry translate c ranges off := by
  simp [rangesRound]

theorem read_mem_rangesRound {cell : ℕ} :
    .read cell ∈ rangesRound translate c ranges off i ↔
      (off ≤ cell ∧ cell < off + c.na) ∨
        (off + c.na + c.pna ≤ cell ∧ cell < off + c.group) := by
  have group : off + c.na + c.pna + c.ns = off + c.group := by
    rw [CellCounts.group]
    omega
  simp [rangesRound, List.mem_range'_1, group]

/-- The rounds are those whose offset is in the property. -/
theorem mem_rangesLoop {access : RangesAccess w} :
    access ∈ rangesLoop translate c ranges rlen off i ↔
      ∃ k, off + k * c.group < rlen ∧
        access ∈ rangesRound translate c ranges (off + k * c.group) (i + k) := by
  fun_induction rangesLoop translate c ranges rlen off i with
  | case1 off i more ih =>
    rw [List.mem_append, ih]
    constructor
    · rintro (here | ⟨k, inside, later⟩)
      · exact ⟨0, by simpa using more, by simpa using here⟩
      · have place : off + (k + 1) * c.group = off + c.group + k * c.group := by ring
        have index : i + (k + 1) = i + 1 + k := by ring
        exact ⟨k + 1, place ▸ inside, by rw [place, index]; exact later⟩
    · rintro ⟨k, inside, mem⟩
      cases k with
      | zero => exact .inl (by simpa using mem)
      | succ k =>
        have place : off + (k + 1) * c.group = off + c.group + k * c.group := by ring
        have index : i + (k + 1) = i + 1 + k := by ring
        rw [place] at inside mem
        rw [index] at mem
        exact .inr ⟨k, inside, mem⟩
  | case2 off i done =>
    refine iff_of_false List.not_mem_nil ?_
    rintro ⟨k, inside, -⟩
    omega

theorem mem_readRanges {access : RangesAccess w} :
    access ∈ readRanges translate c ranges rlen ↔
      ∃ k, k * c.group < rlen / 4 ∧ access ∈ rangesRound translate c ranges (k * c.group) k := by
  rw [readRanges, mem_rangesLoop]
  simp only [Nat.zero_add]

/-- There are as many rounds as groups that begin in the property. -/
theorem write_mem_readRanges {entry : XrpAddressMapEntry w} :
    .write i entry ∈ readRanges translate c ranges rlen ↔
      i * c.group < rlen / 4 ∧ entry = rangeEntry translate c ranges (i * c.group) := by
  rw [mem_readRanges]
  constructor
  · rintro ⟨k, inside, mem⟩
    obtain ⟨rfl, rfl⟩ := write_mem_rangesRound.mp mem
    exact ⟨inside, rfl⟩
  · rintro ⟨inside, rfl⟩
    exact ⟨i, inside, write_mem_rangesRound.mpr ⟨rfl, rfl⟩⟩

theorem lt_mapCount_iff (whole : c.group ∣ rlen / 4) :
    i < mapCount c rlen ↔ i * c.group < rlen / 4 := by
  obtain ⟨q, length⟩ := whole
  rw [mapCount, length, Nat.mul_div_cancel_left q c.group_pos, Nat.mul_comm c.group,
    Nat.mul_lt_mul_right c.group_pos]

/-- **Reading the ranges stays in bounds** if and only if the property has no cells behind its last
whole group. -/
theorem rangesInBounds_iff (translate : List U32 → BitVec w) (c : CellCounts) (ranges : ℕ → U32)
    (rlen : ℕ) : RangesInBounds translate c ranges rlen ↔ rlen / 4 % c.group = 0 := by
  rw [← Nat.dvd_iff_mod_eq_zero]
  constructor
  · intro bounds
    by_contra part
    -- the group that is cut off gets an entry, behind the last one
    have rest := Nat.pos_of_ne_zero (mt Nat.dvd_of_mod_eq_zero part)
    have split := Nat.div_add_mod (rlen / 4) c.group
    have begins : mapCount c rlen * c.group < rlen / 4 := by
      rw [mapCount, Nat.mul_comm]
      omega
    have written := (bounds.entries (mapCount c rlen) _).mp
      (write_mem_readRanges.mpr ⟨begins, rfl⟩)
    exact lt_irrefl _ written.1
  · intro whole
    constructor
    · intro i entry
      rw [write_mem_readRanges, lt_mapCount_iff whole]
    · intro cell read
      obtain ⟨k, inside, mem⟩ := mem_readRanges.mp read
      obtain ⟨q, length⟩ := whole
      have next : k + 1 ≤ q := by
        rw [length, Nat.mul_comm c.group, Nat.mul_lt_mul_right c.group_pos] at inside
        exact inside
      have fits : k * c.group + c.group ≤ rlen / 4 := by
        rw [length, ← Nat.succ_mul, Nat.mul_comm c.group]
        exact Nat.mul_le_mul_right _ next
      have group : c.group = c.na + c.pna + c.ns := rfl
      have place := read_mem_rangesRound.mp mem
      omega

theorem threeCells_pos : 1 ≤ 1 + 1 + 1 := by decide

/-- One cell for each number. -/
def threeCells : CellCounts := ⟨1, 1, 1, threeCells_pos⟩

/-- A property of one cell where a range has three: there is no whole group, but an entry is written
and the third cell read. -/
theorem not_rangesInBounds_short :
    mapCount threeCells 4 = 0 ∧
    .write 0 ⟨7, 7, 7⟩ ∈ readRanges (fun _ => (7 : BitVec 64)) threeCells (fun _ => 7) 4 ∧
    .read 2 ∈ readRanges (fun _ => (7 : BitVec 64)) threeCells (fun _ => 7) 4 ∧
    ¬ RangesInBounds (fun _ => (7 : BitVec 64)) threeCells (fun _ => 7) 4 := by
  have written : .write 0 ⟨7, 7, 7⟩ ∈
      readRanges (fun _ => (7 : BitVec 64)) threeCells (fun _ => 7) 4 :=
    write_mem_readRanges.mpr ⟨by decide, by decide⟩
  refine ⟨by decide, written, ?_, ?_⟩
  · exact mem_readRanges.mpr ⟨0, by decide, read_mem_rangesRound.mpr (.inr (by decide))⟩
  · intro bounds
    exact absurd ((bounds.entries 0 _).mp written).1 (by decide)

end Accesses

/-! ## The map that is read -/

section Map

variable {w : ℕ} {translate : List U32 → BitVec w} {c : CellCounts} {ranges : ℕ → U32} {rlen : ℕ}

/-- Memory at `map->entry` after accesses. -/
def entriesAfter (accesses : List (RangesAccess w)) (mem : ℕ → XrpAddressMapEntry w) :
    ℕ → XrpAddressMapEntry w :=
  match accesses with
  | [] => mem
  | .read _ :: rest => entriesAfter rest mem
  | .write i entry :: rest => entriesAfter rest (Function.update mem i entry)

/-- An entry that is written with one value only, or has it already. -/
theorem entriesAfter_eq {accesses : List (RangesAccess w)} {i : ℕ} {entry : XrpAddressMapEntry w}
    (same : ∀ entry', .write i entry' ∈ accesses → entry' = entry) (mem : ℕ → XrpAddressMapEntry w)
    (there : mem i = entry ∨ .write i entry ∈ accesses) : entriesAfter accesses mem i = entry := by
  induction accesses generalizing mem with
  | nil => exact there.resolve_right List.not_mem_nil
  | cons access rest ih =>
    have same' : ∀ entry', .write i entry' ∈ rest → entry' = entry :=
      fun entry' mem => same entry' (List.mem_cons_of_mem _ mem)
    cases access with
    | read cell => exact ih same' mem (by simpa using there)
    | write j entry' =>
      refine ih same' _ ?_
      by_cases here : j = i
      · subst here
        exact .inl (by rw [Function.update_self, same entry' List.mem_cons_self])
      · have other : i ≠ j := Ne.symm here
        simpa [Function.update_of_ne other, other] using there

variable (translate c ranges rlen)

/-- The groups of the property, as entries. -/
def rangeEntries : List (XrpAddressMapEntry w) :=
  (List.range (mapCount c rlen)).map fun i => rangeEntry translate c ranges (i * c.group)

/-- Whatever was in the array, `xrp_init_address_map` sorts the whole groups of the property. -/
theorem entriesAfter_readRanges (mem : ℕ → XrpAddressMapEntry w) :
    (List.range (mapCount c rlen)).map (entriesAfter (readRanges translate c ranges rlen) mem) =
      rangeEntries translate c ranges rlen := by
  refine List.map_congr_left fun i member => ?_
  have begins : i * c.group < rlen / 4 := by
    have next : (i + 1) * c.group ≤ rlen / 4 :=
      (Nat.mul_le_mul_right _ (List.mem_range.mp member)).trans (Nat.div_mul_le_self _ _)
    have pos := c.group_pos
    rw [Nat.succ_mul] at next
    omega
  refine entriesAfter_eq ?_ mem (.inr (write_mem_readRanges.mpr ⟨begins, rfl⟩))
  intro entry' written
  exact (write_mem_readRanges.mp written).2

variable {translate c ranges rlen}

/-- An address in the range of a group is translated by the group, if the ranges are disjoint. -/
theorem xrpTranslateToDsp_rangeEntries (wide : 32 ≤ w)
    {sort : (XrpAddressMapEntry w → XrpAddressMapEntry w → ℤ) →
      List (XrpAddressMapEntry w) → List (XrpAddressMapEntry w)}
    (sorts : Sorts sort) (disjoint : Ranges (rangeEntries translate c ranges rlen))
    (mem : ℕ → XrpAddressMapEntry w) {i : ℕ} (less : i < mapCount c rlen) {addr : BitVec w}
    (inside : addr.toNat ∈ (rangeEntry translate c ranges (i * c.group)).range) :
    (xrpTranslateToDsp (xrpInitAddressMap sort (some ((List.range (mapCount c rlen)).map
      (entriesAfter (readRanges translate c ranges rlen) mem)))) addr).toNat =
      ((rangeEntry translate c ranges (i * c.group)).dstAddr.toNat +
        (addr.toNat - (rangeEntry translate c ranges (i * c.group)).srcAddr.toNat)) % 2 ^ 32 := by
  have member : rangeEntry translate c ranges (i * c.group) ∈
      rangeEntries translate c ranges rlen :=
    List.mem_map.mpr ⟨i, List.mem_range.mpr less, rfl⟩
  rw [entriesAfter_readRanges]
  exact xrpTranslateToDsp_eq wide
    ((disjoint.xrpGetAddressMapping_iff wide sorts).mpr ⟨member, inside⟩) inside.1

end Map

end Xrp.Kernel
