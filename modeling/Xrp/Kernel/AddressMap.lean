import Xrp.Base.Search
import Xrp.Kernel.Alloc

/-!
# Translation of addresses

`xrp_address_map.c`: the ranges of host addresses that the DSP can access, sorted once and searched
for every address. Ranges are compared with ranges and addresses with ranges, both by unsigned
differences, in which a range may end at the top of the address space. The width of `phys_addr_t`
depends on the host; it is at least that of `u32`.
-/

namespace Xrp.Kernel

/-- `XRP_NO_TRANSLATION`. -/
def xrpNoTranslation : U32 := ~~~0

/-- `struct xrp_address_map_entry`. -/
structure XrpAddressMapEntry (w : ℕ) : Type where
  srcAddr : BitVec w
  dstAddr : U32
  size : U32
  deriving DecidableEq

section Model

variable {w : ℕ}

/-- `xrp_compare_address_sort`. -/
def xrpCompareAddressSort (pa pb : XrpAddressMapEntry w) : ℤ :=
  if pa.srcAddr < pb.srcAddr ∧ pb.srcAddr - pa.srcAddr ≥ pa.size.setWidth w then -1
  else if pa.srcAddr > pb.srcAddr ∧ pa.srcAddr - pb.srcAddr ≥ pb.size.setWidth w then 1
  else 0

/-- `xrp_compare_address`. -/
def xrpCompareAddress (addr : BitVec w) (entry : XrpAddressMapEntry w) : ℤ :=
  if addr < entry.srcAddr then -1
  else if addr - entry.srcAddr < entry.size.setWidth w then 0
  else 1

/-- `xrp_init_address_map`, with what the loop reads from the `ranges` of the device tree, if they
are there. -/
def xrpInitAddressMap
    (sort : (XrpAddressMapEntry w → XrpAddressMapEntry w → ℤ) →
      List (XrpAddressMapEntry w) → List (XrpAddressMapEntry w)) :
    Option (List (XrpAddressMapEntry w)) → List (XrpAddressMapEntry w)
  | some entries => sort xrpCompareAddressSort entries
  | none => [⟨0, 0, ~~~0⟩]

/-- `xrp_get_address_mapping`. -/
def xrpGetAddressMapping (map : List (XrpAddressMapEntry w)) (addr : BitVec w) :
    Option (XrpAddressMapEntry w) :=
  bsearch (xrpCompareAddress addr) map

/-- `xrp_translate_to_dsp`: the sum has the width of an address and is cut to `u32`. -/
def xrpTranslateToDsp (map : List (XrpAddressMapEntry w)) (addr : BitVec w) : U32 :=
  match xrpGetAddressMapping map addr with
  | none => xrpNoTranslation
  | some entry => (entry.dstAddr.setWidth w + addr - entry.srcAddr).setWidth 32

end Model

/-! ## Ranges -/

section Ranges

variable {w : ℕ} {addr : BitVec w} {a b entry : XrpAddressMapEntry w}
  {entries : List (XrpAddressMapEntry w)}

/-- The host addresses of an entry. -/
def XrpAddressMapEntry.range (entry : XrpAddressMapEntry w) : Set ℕ :=
  Set.Ico entry.srcAddr.toNat (entry.srcAddr.toNat + entry.size.toNat)

/-- Entries with ranges that are not empty and disjoint. A range that passes the end of the address
space is cut there by what addresses there are. -/
structure Ranges (entries : List (XrpAddressMapEntry w)) : Prop where
  pos : ∀ entry ∈ entries, 0 < entry.size.toNat
  disjoint : entries.Pairwise fun a b => Disjoint a.range b.range

/-- The difference of an address to one below it. -/
theorem setWidth_le_sub_iff (wide : 32 ≤ w) {x y : BitVec w} (le : x ≤ y) (size : U32) :
    size.setWidth w ≤ y - x ↔ x.toNat + size.toNat ≤ y.toNat := by
  have small : size.toNat < 2 ^ w :=
    size.isLt.trans_le (Nat.pow_le_pow_right (by omega) wide)
  rw [BitVec.le_def, BitVec.toNat_setWidth, Nat.mod_eq_of_lt small, BitVec.toNat_sub_of_le le]
  rw [BitVec.le_def] at le
  omega

theorem xrpCompareAddressSort_eq (wide : 32 ≤ w) :
    xrpCompareAddressSort a b =
      if a.srcAddr.toNat < b.srcAddr.toNat ∧ a.srcAddr.toNat + a.size.toNat ≤ b.srcAddr.toNat
      then -1
      else if b.srcAddr.toNat < a.srcAddr.toNat ∧ b.srcAddr.toNat + b.size.toNat ≤ a.srcAddr.toNat
      then 1
      else 0 := by
  have after (x y : XrpAddressMapEntry w) :
      x.srcAddr < y.srcAddr ∧ y.srcAddr - x.srcAddr ≥ x.size.setWidth w ↔
        x.srcAddr.toNat < y.srcAddr.toNat ∧ x.srcAddr.toNat + x.size.toNat ≤ y.srcAddr.toNat :=
    and_congr_right fun less => setWidth_le_sub_iff wide (BitVec.le_of_lt less) x.size
  simp only [xrpCompareAddressSort, gt_iff_lt, after]

theorem xrpCompareAddress_eq (wide : 32 ≤ w) :
    xrpCompareAddress addr entry =
      if addr.toNat < entry.srcAddr.toNat then -1
      else if addr.toNat < entry.srcAddr.toNat + entry.size.toNat then 0
      else 1 := by
  unfold xrpCompareAddress
  by_cases below : addr < entry.srcAddr
  · rw [if_pos below, if_pos (BitVec.lt_def.mp below)]
  · have inside : addr - entry.srcAddr < entry.size.setWidth w ↔
        addr.toNat < entry.srcAddr.toNat + entry.size.toNat := by
      have le : entry.srcAddr ≤ addr := BitVec.not_lt.mp below
      rw [← BitVec.not_le, setWidth_le_sub_iff wide le, Nat.not_le]
    rw [if_neg below, if_neg (BitVec.lt_def.not.mp below)]
    simp only [inside]

theorem xrpCompareAddress_eq_zero_iff (wide : 32 ≤ w) :
    xrpCompareAddress addr entry = 0 ↔ addr.toNat ∈ entry.range := by
  rw [xrpCompareAddress_eq wide, XrpAddressMapEntry.range, Set.mem_Ico]
  split_ifs
  · simp; omega
  · simp; omega
  · simp; omega

/-- Of two ranges one lies before the other. -/
theorem Ranges.before (ranges : Ranges entries) (mem : a ∈ entries) (mem' : b ∈ entries)
    (ne : a ≠ b) :
    a.srcAddr.toNat + a.size.toNat ≤ b.srcAddr.toNat ∨
      b.srcAddr.toNat + b.size.toNat ≤ a.srcAddr.toNat := by
  have symm : Std.Symm fun a b : XrpAddressMapEntry w => Disjoint a.range b.range :=
    ⟨fun _ _ apart => Disjoint.symm apart⟩
  have disjoint := ranges.disjoint.forall mem mem' ne
  have pos := ranges.pos a mem
  have pos' := ranges.pos b mem'
  rw [XrpAddressMapEntry.range, XrpAddressMapEntry.range, Set.Ico_disjoint_Ico] at disjoint
  omega

/-- Different ranges do not compare equal. -/
theorem Ranges.eq_of_compare (ranges : Ranges entries) (wide : 32 ≤ w) (mem : a ∈ entries)
    (mem' : b ∈ entries) (equal : xrpCompareAddressSort a b = 0) : a = b := by
  by_contra ne
  have before := ranges.before mem mem' ne
  have pos := ranges.pos a mem
  have pos' := ranges.pos b mem'
  rw [xrpCompareAddressSort_eq wide] at equal
  split_ifs at equal <;> omega

theorem Ranges.strictWeakOn (ranges : Ranges entries) (wide : 32 ≤ w) :
    StrictWeakOn xrpCompareAddressSort entries where
  swap a _ b _ := by
    simp only [xrpCompareAddressSort_eq wide]
    split_ifs <;> omega
  trans a _ b _ c _ less less' := by
    simp only [xrpCompareAddressSort_eq wide] at less less' ⊢
    split_ifs at less less' ⊢ <;> omega
  equiv a mem b mem' c _ equal equal' := by
    rw [ranges.eq_of_compare wide mem mem' equal]
    exact equal'

/-! ## The sorted map -/

variable {sort : (XrpAddressMapEntry w → XrpAddressMapEntry w → ℤ) →
  List (XrpAddressMapEntry w) → List (XrpAddressMapEntry w)}

/-- The sorted map is in order for the search of any address. -/
theorem Ranges.inOrder (ranges : Ranges entries) (wide : 32 ≤ w) (sorts : Sorts sort) :
    InOrder (xrpCompareAddress addr) (xrpInitAddressMap sort (some entries)) := by
  have ordered := sorts.ordered _ _ (ranges.strictWeakOn wide)
  have perm := sorts.perm xrpCompareAddressSort entries
  have disjoint := (perm.pairwise_iff fun apart => Disjoint.symm apart).mpr ranges.disjoint
  refine (ordered.and disjoint).imp_of_mem fun {a b} mem mem' both => ?_
  have pos := ranges.pos a (perm.mem_iff.mp mem)
  have pos' := ranges.pos b (perm.mem_iff.mp mem')
  rw [XrpAddressMapEntry.range, XrpAddressMapEntry.range, Set.Ico_disjoint_Ico,
    xrpCompareAddressSort_eq wide] at both
  have before : a.srcAddr.toNat + a.size.toNat ≤ b.srcAddr.toNat := by
    split_ifs at both <;> omega
  simp only [xrpCompareAddress_eq wide]
  constructor
  · split_ifs <;> omega
  · split_ifs <;> omega

theorem Ranges.xrpGetAddressMapping_iff (ranges : Ranges entries) (wide : 32 ≤ w)
    (sorts : Sorts sort) :
    xrpGetAddressMapping (xrpInitAddressMap sort (some entries)) addr = some entry ↔
      entry ∈ entries ∧ addr.toNat ∈ entry.range := by
  have mem_iff {e : XrpAddressMapEntry w} :=
    (sorts.perm xrpCompareAddressSort entries).mem_iff (a := e)
  have of_found {e : XrpAddressMapEntry w}
      (found : xrpGetAddressMapping (xrpInitAddressMap sort (some entries)) addr = some e) :
      e ∈ entries ∧ addr.toNat ∈ e.range := by
    rcases mem_of_bsearch found with ⟨mem, equal⟩
    exact ⟨mem_iff.mp mem, (xrpCompareAddress_eq_zero_iff wide).mp equal⟩
  refine ⟨of_found, fun inside => ?_⟩
  have some := bsearch_ne_none (ranges.inOrder wide sorts) (mem_iff.mpr inside.1)
    ((xrpCompareAddress_eq_zero_iff wide).mpr inside.2)
  rcases Option.ne_none_iff_exists'.mp some with ⟨e, found⟩
  rcases of_found found with ⟨mem, inside'⟩
  suffices e = entry by rw [← this]; exact found
  by_contra ne
  have before := ranges.before mem inside.1 ne
  rw [XrpAddressMapEntry.range, Set.mem_Ico] at inside inside'
  omega

/-- The address in the DSP's space. -/
theorem xrpTranslateToDsp_eq (wide : 32 ≤ w) {map : List (XrpAddressMapEntry w)}
    (found : xrpGetAddressMapping map addr = some entry)
    (le : entry.srcAddr.toNat ≤ addr.toNat) :
    (xrpTranslateToDsp map addr).toNat =
      (entry.dstAddr.toNat + (addr.toNat - entry.srcAddr.toNat)) % 2 ^ 32 := by
  have small : entry.dstAddr.toNat < 2 ^ w :=
    entry.dstAddr.isLt.trans_le (Nat.pow_le_pow_right (by omega) wide)
  rw [xrpTranslateToDsp, found]
  simp only
  rw [add_sub_assoc, BitVec.toNat_setWidth, BitVec.toNat_add, BitVec.toNat_setWidth,
    Nat.mod_eq_of_lt small, BitVec.toNat_sub_of_le (BitVec.le_def.mpr le),
    Nat.mod_mod_of_dvd _ (pow_dvd_pow 2 wide)]

theorem Ranges.perm {entries' : List (XrpAddressMapEntry w)} (ranges : Ranges entries)
    (perm : entries'.Perm entries) : Ranges entries' where
  pos entry mem := ranges.pos entry (perm.mem_iff.mp mem)
  disjoint := (perm.pairwise_iff fun apart => Disjoint.symm apart).mpr ranges.disjoint

/-- An address is found if and only if it lies in a range, in the entry of that range, and is
translated by it, in whatever order the ranges are listed. -/
theorem addressMap_finds (wide : 32 ≤ w) (sorts : Sorts sort) (ranges : Ranges entries)
    (addr : BitVec w) :
    let map := xrpInitAddressMap sort (some entries)
    (xrpGetAddressMapping map addr ≠ none ↔ ∃ entry ∈ entries, addr.toNat ∈ entry.range) ∧
    (∀ entry, xrpGetAddressMapping map addr = some entry ↔
      entry ∈ entries ∧ addr.toNat ∈ entry.range) ∧
    (∀ entry ∈ entries, addr.toNat ∈ entry.range →
      (xrpTranslateToDsp map addr).toNat =
        (entry.dstAddr.toNat + (addr.toNat - entry.srcAddr.toNat)) % 2 ^ 32) ∧
    ∀ entries' : List (XrpAddressMapEntry w), entries'.Perm entries →
      xrpGetAddressMapping (xrpInitAddressMap sort (some entries')) addr =
          xrpGetAddressMapping map addr ∧
        xrpTranslateToDsp (xrpInitAddressMap sort (some entries')) addr =
          xrpTranslateToDsp map addr := by
  intro map
  have found (entry : XrpAddressMapEntry w) :
      xrpGetAddressMapping map addr = some entry ↔ entry ∈ entries ∧ addr.toNat ∈ entry.range :=
    ranges.xrpGetAddressMapping_iff wide sorts
  refine ⟨?_, found, ?_, ?_⟩
  · rw [Option.ne_none_iff_exists']
    exact exists_congr found
  · intro entry mem inside
    exact xrpTranslateToDsp_eq wide ((found entry).mpr ⟨mem, inside⟩) inside.1
  · intro entries' perm
    have same : xrpGetAddressMapping (xrpInitAddressMap sort (some entries')) addr =
        xrpGetAddressMapping map addr := by
      apply Option.ext
      intro entry
      rw [found, (ranges.perm perm).xrpGetAddressMapping_iff wide sorts, perm.mem_iff]
    exact ⟨same, by rw [xrpTranslateToDsp, xrpTranslateToDsp, same]⟩

end Ranges

/-- Two ranges, one of them at the top of the address space, and the last address. -/
theorem addressMap_finds_top :
    let sort := fun (compare : XrpAddressMapEntry 64 → XrpAddressMapEntry 64 → ℤ) l =>
      (l.attach.mergeSort fun a b => compare a b ≤ 0).map Subtype.val
    let map := xrpInitAddressMap sort (some [⟨0xfffffffffffffff0, 0x1000, 16⟩, ⟨0, 0, 16⟩])
    xrpGetAddressMapping map 0xffffffffffffffff = some ⟨0xfffffffffffffff0, 0x1000, 16⟩ ∧
      (xrpTranslateToDsp map 0xffffffffffffffff).toNat = 0x100f := by
  intro sort map
  have ranges : Ranges (w := 64) [⟨0xfffffffffffffff0, 0x1000, 16⟩, ⟨0, 0, 16⟩] := by
    constructor
    · simp
    · simp [XrpAddressMapEntry.range, Set.Ico_disjoint_Ico]
  have finds := addressMap_finds (by decide) sorts_mergeSort ranges 0xffffffffffffffff
  have inside : (0xffffffffffffffff : BitVec 64).toNat ∈
      XrpAddressMapEntry.range (w := 64) ⟨0xfffffffffffffff0, 0x1000, 16⟩ := by
    simp [XrpAddressMapEntry.range]
  exact ⟨(finds.2.1 _).mpr ⟨List.mem_cons_self, inside⟩, finds.2.2.1 _ List.mem_cons_self inside⟩

end Xrp.Kernel
