import Xrp.Kernel.AddressMap
import Xrp.Kernel.MapRequest

/-!
# Sharing memory in place

`xvp_pfn_virt_to_phys` and `xvp_gup_virt_to_phys` of `xvp_main.c`. Both look at the page frames of a
region of user memory, one by one: frames have to follow each other, and each has to begin in the
same entry of the address map. With entries that consist of whole pages this is enough for every
byte of the region. A `struct page` is modelled by its page frame number.
-/

namespace Xrp.Kernel

/-! ## Pages -/

/-- `nr_pages`, an `int`. -/
def nrPagesInt (vaddr size : ULong) : ℤ :=
  (((vaddr + size + (pageSize.setWidth 64 - 1)) >>> pageShift) -
    (vaddr >>> pageShift)).setWidth 32 |>.toInt

/-- `__pfn_to_phys`. -/
def pfnToPhys (pfn : ULong) : ULong := pfn <<< pageShift

/-- `vaddr & ~PAGE_MASK`. -/
def pageOffset (vaddr : ULong) : ULong := vaddr &&& (pageSize.setWidth 64 - 1)

/-- `i << PAGE_SHIFT`, an `int`, as it is added to an `unsigned long`. -/
def intPages (i : ℕ) : ULong := ((BitVec.ofNat 32 i) <<< pageShift).signExtend 64

/-- The page frames of the pages of user memory. -/
abbrev PageTable := ULong → Option ULong

/-- The physical address of a byte of user memory. -/
def userPhys (table : PageTable) (addr : ULong) : Option ULong :=
  (table (addr >>> pageShift)).map fun pfn => pfnToPhys pfn + pageOffset addr

/-! ## `xvp_pfn_virt_to_phys` -/

section Pfn

variable (map : List (XrpAddressMapEntry 64)) (table : PageTable)

/-- `follow_pfn`. -/
def followPfn (addr : ULong) : Except Errno ULong :=
  match table (addr >>> pageShift) with
  | some pfn => .ok pfn
  | none => .error .einval

/-- The loop of `xvp_pfn_virt_to_phys`, for `n` pages from number `i` on; `pfn` is the frame before
them. -/
def pfnLoop (entry : XrpAddressMapEntry 64) (vaddr : ULong) :
    ℕ → ℕ → ULong → Except Errno Unit
  | 0, _, _ => .ok ()
  | n + 1, i, pfn =>
    match followPfn table (vaddr + intPages i) with
    | .error e => .error e
    | .ok nextPfn =>
      if nextPfn ≠ pfn + 1 then .error .einval
      else if xrpCompareAddress (pfnToPhys nextPfn) entry ≠ 0 then .error .einval
      else pfnLoop entry vaddr n (i + 1) nextPfn

/-- `xvp_pfn_virt_to_phys`. -/
def xvpPfnVirtToPhys (vaddr size : ULong) : Except Errno ULong :=
  match followPfn table vaddr with
  | .error e => .error e
  | .ok pfn =>
    let paddr := pfnToPhys pfn + pageOffset vaddr
    match xrpGetAddressMapping map paddr with
    | none => .error .einval
    | some entry =>
      (pfnLoop table entry vaddr ((nrPagesInt vaddr size).toNat - 1) 1 pfn).map fun _ => paddr

end Pfn

/-! ## `xvp_gup_virt_to_phys` -/

/-- What the system gives: whether memory for an array of so many pointers can be allocated, the
frames that `get_user_pages_fast` fills in, and what the array contains behind them. -/
structure GupSystem : Type where
  kmalloc : ℤ → Bool
  getUserPagesFast : ULong → ℤ → Except Errno (List ULong)
  stale : ℕ → ULong

section Gup

variable (map : List (XrpAddressMapEntry 64)) (sys : GupSystem)

/-- The loop of `xvp_gup_virt_to_phys`, for `n` pages from number `i` on, with the indices of the
page array that it uses. -/
def gupLoop (entry : XrpAddressMapEntry 64) (page : ℕ → ULong) :
    ℕ → ℕ → Except Errno Unit × List ℕ
  | 0, _ => (.ok (), [])
  | n + 1, i =>
    if page i ≠ page (i - 1) + 1 then (.error .einval, [i, i - 1])
    else if xrpCompareAddress (pfnToPhys (page i)) entry ≠ 0 then (.error .einval, [i, i - 1, i])
    else
      let rest := gupLoop entry page n (i + 1)
      (rest.1, [i, i - 1, i] ++ rest.2)

/-- The page array after `get_user_pages_fast`. -/
def GupSystem.page (pages : List ULong) (i : ℕ) : ULong := pages.getD i (sys.stale i)

/-- `xvp_gup_virt_to_phys`, with the indices of the page array that it uses. -/
def Direct.xvpGupVirtToPhys (vaddr size : ULong) : Except Errno ULong × List ℕ :=
  let nrPages := nrPagesInt vaddr size
  if !sys.kmalloc nrPages then (.error .enomem, [])
  else
    match sys.getUserPagesFast vaddr nrPages with
    | .error e => (.error e, [])
    | .ok pages =>
      -- the pages that were pinned are put
      if (pages.length : ℤ) < nrPages then (.error .einval, List.range pages.length)
      else
        match xrpGetAddressMapping map (pfnToPhys (sys.page pages 0)) with
        | none => (.error .einval, [0, 0] ++ List.range nrPages.toNat)
        | some entry =>
          match gupLoop entry (sys.page pages) (nrPages.toNat - 1) 1 with
          | (.error e, used) => (.error e, [0] ++ used ++ List.range nrPages.toNat)
          | (.ok (), used) =>
            (.ok (pfnToPhys (sys.page pages 0) + pageOffset vaddr), [0] ++ used ++ [0])

end Gup

/-! ## Words -/

section Words

variable {vaddr size : ULong}

theorem toNat_page (addr : ULong) : (addr >>> pageShift).toNat = addr.toNat / 4096 := by
  rw [BitVec.toNat_ushiftRight, Nat.shiftRight_eq_div_pow]
  rfl

theorem toNat_pfnToPhys (pfn : ULong) : (pfnToPhys pfn).toNat = pfn.toNat * 4096 % 2 ^ 64 := by
  rw [pfnToPhys, BitVec.toNat_shiftLeft, Nat.shiftLeft_eq]
  rfl

theorem toNat_pageOffset (addr : ULong) : (pageOffset addr).toNat = addr.toNat % 4096 := by
  have mask : (pageSize.setWidth 64 - 1 : ULong).toNat = 2 ^ 12 - 1 := by decide
  rw [pageOffset, BitVec.toNat_and, mask, Nat.and_two_pow_sub_one_eq_mod]

/-- The product of an `int` that is small enough does not overflow. -/
theorem toNat_intPages {i : ℕ} (small : i < 2 ^ 19) : (intPages i).toNat = 4096 * i := by
  have value : (BitVec.ofNat 32 i <<< pageShift).toNat = 4096 * i := by
    rw [BitVec.toNat_shiftLeft, BitVec.toNat_ofNat, Nat.shiftLeft_eq, pageShift]
    omega
  rw [intPages, BitVec.toNat_signExtend_of_lt (by decide) (by omega), value]

theorem add_one_add_ofNat (x : ULong) (j : ℕ) :
    x + 1 + .ofNat 64 j = x + .ofNat 64 (j + 1) := by
  rw [BitVec.ofNat_add, add_assoc, add_comm 1]
  rfl

theorem toNat_pfnToPhys_succ (pfn : ULong) :
    (pfnToPhys (pfn + 1)).toNat = ((pfnToPhys pfn).toNat + 4096) % 2 ^ 64 := by
  rw [toNat_pfnToPhys, toNat_pfnToPhys, BitVec.toNat_add, show (1 : ULong).toNat = 1 from rfl]
  omega

/-- The offset in a page does not carry into the number of its frame. -/
theorem toNat_pfnToPhys_add_pageOffset (pfn addr : ULong) :
    (pfnToPhys pfn + pageOffset addr).toNat = (pfnToPhys pfn).toNat + addr.toNat % 4096 := by
  rw [BitVec.toNat_add, toNat_pageOffset, toNat_pfnToPhys]
  omega

/-- The pages that hold the bytes of the region. -/
def pageSpan (vaddr size : ULong) : ℕ := (vaddr.toNat % 4096 + size.toNat + 4095) / 4096

/-- The sums may wrap around, but what is lost is not in the bits of an `int`. -/
theorem nrPagesInt_eq (small : pageSpan vaddr size < 2 ^ 31) :
    nrPagesInt vaddr size = pageSpan vaddr size := by
  have value : ((((vaddr + size + (pageSize.setWidth 64 - 1)) >>> pageShift) -
      (vaddr >>> pageShift)).setWidth 32).toNat = pageSpan vaddr size := by
    have last : (pageSize.setWidth 64 - 1 : ULong).toNat = 4095 := by decide
    rw [BitVec.toNat_setWidth, BitVec.toNat_sub, toNat_page, toNat_page, BitVec.toNat_add,
      BitVec.toNat_add, last]
    unfold pageSpan at small ⊢
    have low := vaddr.isLt
    have bound := size.isLt
    omega
  rw [nrPagesInt, BitVec.toInt_eq_toNat_of_lt (by omega), value]

/-- The number of an address inside the region, counted from the first page. -/
theorem page_add (o : ℕ) (room : vaddr.toNat + o < 2 ^ 64) :
    (vaddr + BitVec.ofNat 64 o) >>> pageShift =
      vaddr >>> pageShift + BitVec.ofNat 64 ((vaddr.toNat % 4096 + o) / 4096) := by
  apply BitVec.eq_of_toNat_eq
  rw [toNat_page, BitVec.toNat_add, BitVec.toNat_add, toNat_page, BitVec.toNat_ofNat,
    BitVec.toNat_ofNat]
  omega

end Words

/-! ## Frames -/

section Frames

variable {map : List (XrpAddressMapEntry 64)} {table : PageTable} {entry : XrpAddressMapEntry 64}
  {sys : GupSystem} {vaddr size paddr first : ULong}

/-- The pages of a region are in frames that follow each other, from `first` on, and that begin in
one entry of the map. -/
structure Framed (table : PageTable) (entry : XrpAddressMapEntry 64) (vaddr first : ULong)
    (n : ℕ) : Prop where
  mapped : ∀ i < n, table (vaddr >>> pageShift + .ofNat 64 i) = some (first + .ofNat 64 i)
  inside : ∀ i < n, (pfnToPhys (first + .ofNat 64 i)).toNat ∈ entry.range

theorem pfnLoop_ok {n i : ℕ} {pfn : ULong} (ok : pfnLoop table entry vaddr n i pfn = .ok ()) :
    ∀ j < n, followPfn table (vaddr + intPages (i + j)) = .ok (pfn + .ofNat 64 (j + 1)) ∧
      xrpCompareAddress (pfnToPhys (pfn + .ofNat 64 (j + 1))) entry = 0 := by
  induction n generalizing i pfn with
  | zero => simp
  | succ n ih =>
    rw [pfnLoop] at ok
    split at ok
    · cases ok
    · rename_i nextPfn follow
      split_ifs at ok with apart outside
      have next := not_not.mp apart
      subst next
      intro j less
      cases j with
      | zero => exact ⟨follow, not_not.mp outside⟩
      | succ j =>
        have rest := ih ok j (by omega)
        rw [add_one_add_ofNat, show i + 1 + j = i + (j + 1) by omega] at rest
        exact rest

/-- The loop over the page array succeeds if every page passes its two tests. -/
theorem gupLoop_ok_iff {page : ℕ → ULong} {n i : ℕ} :
    (gupLoop entry page n (i + 1)).1 = .ok () ↔ ∀ j < n, page (i + j + 1) = page (i + j) + 1 ∧
      xrpCompareAddress (pfnToPhys (page (i + j + 1))) entry = 0 := by
  induction n generalizing i with
  | zero => simp [gupLoop]
  | succ n ih =>
    rw [Nat.forall_lt_succ_left, gupLoop, Nat.add_sub_cancel]
    split_ifs with apart outside
    · exact iff_of_false (by simp) fun tests => apart tests.1.1
    · exact iff_of_false (by simp) fun tests => outside tests.1.2
    · rw [ih, and_iff_right ⟨not_not.mp apart, not_not.mp outside⟩]
      simp only [Nat.add_right_comm, Nat.add_assoc]

theorem gupLoop_ok {page : ℕ → ULong} {n : ℕ} (ok : (gupLoop entry page n 1).1 = .ok ()) {i : ℕ}
    (less : i < n) : page (i + 1) = page 0 + .ofNat 64 (i + 1) ∧
      xrpCompareAddress (pfnToPhys (page (i + 1))) entry = 0 := by
  have tests := gupLoop_ok_iff (i := 0).mp ok
  simp only [zero_add] at tests
  refine ⟨?_, (tests i less).2⟩
  induction i with
  | zero => exact (tests 0 less).1
  | succ i ih => rw [(tests (i + 1) less).1, ih (by omega), add_right_comm, add_one_add_ofNat]

/-- The frames follow each other in physical memory, too: no entry holds both ends of it. -/
theorem Framed.toNat_phys {n i : ℕ} (framed : Framed table entry vaddr first n) (less : i < n) :
    (pfnToPhys (first + .ofNat 64 i)).toNat = (pfnToPhys first).toNat + 4096 * i := by
  induction i with
  | zero => simp
  | succ i ih =>
    have before := framed.inside i (by omega)
    have inside := framed.inside (i + 1) less
    rw [← add_one_add_ofNat, add_right_comm, toNat_pfnToPhys_succ] at inside ⊢
    rw [ih (by omega)] at before inside ⊢
    rw [XrpAddressMapEntry.range, Set.mem_Ico] at before inside
    have bound := entry.size.isLt
    omega

end Frames

/-! ## Linear regions -/

section Linear

variable {sort : (XrpAddressMapEntry 64 → XrpAddressMapEntry 64 → ℤ) →
    List (XrpAddressMapEntry 64) → List (XrpAddressMapEntry 64)}
  {entries : List (XrpAddressMapEntry 64)} {entry : XrpAddressMapEntry 64} {table : PageTable}
  {sys : GupSystem} {vaddr size paddr first : ULong}

/-- The entry consists of whole pages. -/
structure XrpAddressMapEntry.Paged (entry : XrpAddressMapEntry 64) : Prop where
  srcAddr : 4096 ∣ entry.srcAddr.toNat
  size : 4096 ∣ entry.size.toNat

/-- An entry of whole pages holds all of a page or nothing of it. -/
theorem XrpAddressMapEntry.Paged.mem_range (paged : entry.Paged) {page : ℕ} (dvd : 4096 ∣ page)
    {o : ℕ} (less : o < 4096) : page + o ∈ entry.range ↔ page ∈ entry.range := by
  rw [XrpAddressMapEntry.range, Set.mem_Ico, Set.mem_Ico]
  obtain ⟨a, srcAddr⟩ := paged.srcAddr
  obtain ⟨b, size⟩ := paged.size
  obtain ⟨c, page⟩ := dvd
  omega

theorem dvd_toNat_pfnToPhys (pfn : ULong) : 4096 ∣ (pfnToPhys pfn).toNat := by
  rw [toNat_pfnToPhys]
  omega

/-- Byte `o` of the region is the byte `o` behind `paddr`, in the same entry of the map, and `o`
behind it for the DSP, too. -/
structure LinearAt (entries map : List (XrpAddressMapEntry 64)) (table : PageTable)
    (vaddr paddr : ULong) (o : ℕ) : Prop where
  phys : userPhys table (vaddr + .ofNat 64 o) = some (paddr + .ofNat 64 o)
  room : paddr.toNat + o < 2 ^ 64
  entry : ∃ entry ∈ entries, paddr.toNat ∈ entry.range ∧ paddr.toNat + o ∈ entry.range
  dsp : xrpTranslateToDsp map (paddr + .ofNat 64 o) = xrpTranslateToDsp map paddr + .ofNat 32 o

/-- The frame of byte `o` of the region, and its place in physical memory. -/
theorem Framed.exists_frame (paged : entry.Paged)
    (framed : Framed table entry vaddr first (pageSpan vaddr size))
    (room : vaddr.toNat + size.toNat ≤ 2 ^ 64) {o : ℕ} (less : o < size.toNat) :
    ∃ pfn, table ((vaddr + .ofNat 64 o) >>> pageShift) = some pfn ∧
      (pfnToPhys pfn).toNat + (vaddr.toNat + o) % 4096 =
        (pfnToPhys first).toNat + vaddr.toNat % 4096 + o ∧
      (pfnToPhys first).toNat + vaddr.toNat % 4096 + o ∈ entry.range := by
  have page : (vaddr.toNat % 4096 + o) / 4096 < pageSpan vaddr size := by
    unfold pageSpan
    omega
  have place : (pfnToPhys (first + .ofNat 64 ((vaddr.toNat % 4096 + o) / 4096))).toNat +
      (vaddr.toNat + o) % 4096 = (pfnToPhys first).toNat + vaddr.toNat % 4096 + o := by
    rw [framed.toNat_phys page]
    omega
  refine ⟨_, ?_, place, ?_⟩
  · rw [page_add o (by omega)]
    exact framed.mapped _ page
  · rw [← place, paged.mem_range (dvd_toNat_pfnToPhys _) (Nat.mod_lt _ (by decide))]
    exact framed.inside _ page

/-- Inside an entry the translation keeps distances. -/
theorem xrpTranslateToDsp_add (sorts : Sorts sort) (ranges : Ranges entries)
    (mem : entry ∈ entries) {o : ℕ} (inside : paddr.toNat ∈ entry.range)
    (inside' : paddr.toNat + o ∈ entry.range)
    (sum : (paddr + BitVec.ofNat 64 o).toNat = paddr.toNat + o) :
    let map := xrpInitAddressMap sort (some entries)
    xrpTranslateToDsp map (paddr + .ofNat 64 o) = xrpTranslateToDsp map paddr + .ofNat 32 o := by
  have wide : 32 ≤ 64 := by decide
  have low : entry.srcAddr.toNat ≤ paddr.toNat := (Set.mem_Ico.mp inside).1
  have low' : entry.srcAddr.toNat ≤ (paddr + BitVec.ofNat 64 o).toNat := by omega
  have found := (ranges.xrpGetAddressMapping_iff wide sorts).mpr ⟨mem, inside⟩
  rw [← sum] at inside'
  have found' := (ranges.xrpGetAddressMapping_iff wide sorts).mpr ⟨mem, inside'⟩
  intro map
  apply BitVec.eq_of_toNat_eq
  rw [BitVec.toNat_add, BitVec.toNat_ofNat, xrpTranslateToDsp_eq wide found low,
    xrpTranslateToDsp_eq wide found' low', sum]
  omega

/-- A region in frames that follow each other is linear. -/
theorem Framed.linearAt (sorts : Sorts sort) (ranges : Ranges entries)
    (mem : entry ∈ entries) (paged : entry.Paged)
    (framed : Framed table entry vaddr first (pageSpan vaddr size))
    (room : vaddr.toNat + size.toNat ≤ 2 ^ 64) {o : ℕ} (less : o < size.toNat) :
    LinearAt entries (xrpInitAddressMap sort (some entries)) table vaddr
      (pfnToPhys first + pageOffset vaddr) o := by
  obtain ⟨-, -, -, inFirst⟩ := framed.exists_frame paged room (Nat.zero_lt_of_lt less)
  obtain ⟨pfn, mapped, place, inFrame⟩ := framed.exists_frame paged room less
  have start := toNat_pfnToPhys_add_pageOffset first vaddr
  rw [← start] at inFirst inFrame place
  generalize pfnToPhys first + pageOffset vaddr = paddr at *
  have bound : paddr.toNat + o < 2 ^ 64 := by
    have last := (pfnToPhys pfn).isLt
    have whole := dvd_toNat_pfnToPhys pfn
    omega
  have sum : (paddr + BitVec.ofNat 64 o).toNat = paddr.toNat + o := by
    rw [BitVec.toNat_add, BitVec.toNat_ofNat]
    omega
  refine ⟨?_, bound, ⟨entry, mem, inFirst, inFrame⟩, ?_⟩
  · rw [userPhys, mapped, Option.map_some, Option.some_inj]
    apply BitVec.eq_of_toNat_eq
    rw [sum, toNat_pfnToPhys_add_pageOffset, BitVec.toNat_add, BitVec.toNat_ofNat]
    omega
  · exact xrpTranslateToDsp_add sorts ranges mem inFirst inFrame sum

theorem followPfn_ok {addr pfn : ULong} (ok : followPfn table addr = .ok pfn) :
    table (addr >>> pageShift) = some pfn := by
  unfold followPfn at ok
  split at ok
  · cases ok
    assumption
  · cases ok

/-- What `xvp_pfn_virt_to_phys` has seen when it succeeds. -/
theorem xvpPfnVirtToPhys_ok {map : List (XrpAddressMapEntry 64)}
    (ok : xvpPfnVirtToPhys map table vaddr size = .ok paddr) :
    ∃ pfn entry, followPfn table vaddr = .ok pfn ∧ paddr = pfnToPhys pfn + pageOffset vaddr ∧
      xrpGetAddressMapping map paddr = some entry ∧
      pfnLoop table entry vaddr ((nrPagesInt vaddr size).toNat - 1) 1 pfn = .ok () := by
  unfold xvpPfnVirtToPhys at ok
  split at ok
  · cases ok
  · rename_i pfn follow
    simp only at ok
    split at ok
    · cases ok
    · rename_i entry found
      cases loop : pfnLoop table entry vaddr ((nrPagesInt vaddr size).toNat - 1) 1 pfn with
      | error e =>
        rw [loop] at ok
        cases ok
      | ok _ =>
        rw [loop] at ok
        cases ok
        exact ⟨pfn, entry, follow, rfl, found, loop⟩

/-- What `xvp_gup_virt_to_phys` has seen when it succeeds. -/
theorem xvpGupVirtToPhys_ok {map : List (XrpAddressMapEntry 64)}
    (ok : (Direct.xvpGupVirtToPhys map sys vaddr size).1 = .ok paddr) :
    ∃ pages entry, sys.getUserPagesFast vaddr (nrPagesInt vaddr size) = .ok pages ∧
      nrPagesInt vaddr size ≤ pages.length ∧
      paddr = pfnToPhys (sys.page pages 0) + pageOffset vaddr ∧
      xrpGetAddressMapping map (pfnToPhys (sys.page pages 0)) = some entry ∧
      (gupLoop entry (sys.page pages) ((nrPagesInt vaddr size).toNat - 1) 1).1 = .ok () := by
  unfold Direct.xvpGupVirtToPhys at ok
  simp only at ok
  split_ifs at ok
  split at ok
  · cases ok
  · rename_i pages got
    split_ifs at ok with short
    split at ok
    · cases ok
    · rename_i entry found
      split at ok
      · cases ok
      · rename_i used loop
        cases ok
        exact ⟨pages, entry, got, not_lt.mp short, rfl, found, by rw [loop]⟩

/-- `get_user_pages_fast` gives the frames of the page table. -/
def GupSystem.Follows (sys : GupSystem) (table : PageTable) : Prop :=
  ∀ start n pages, sys.getUserPagesFast start n = .ok pages → ∀ i pfn, pages[i]? = some pfn →
    table (start >>> pageShift + .ofNat 64 i) = some pfn

theorem framed_of_pfn (sorts : Sorts sort) (ranges : Ranges entries)
    (paged : ∀ entry ∈ entries, entry.Paged)
    (room : vaddr.toNat + size.toNat ≤ 2 ^ 64) (small : pageSpan vaddr size ≤ 2 ^ 19)
    (ok : xvpPfnVirtToPhys (xrpInitAddressMap sort (some entries)) table vaddr size = .ok paddr) :
    ∃ entry ∈ entries, ∃ first, paddr = pfnToPhys first + pageOffset vaddr ∧
      Framed table entry vaddr first (pageSpan vaddr size) := by
  obtain ⟨first, entry, follow, place, found, loop⟩ := xvpPfnVirtToPhys_ok ok
  obtain ⟨mem, inside⟩ := (ranges.xrpGetAddressMapping_iff (by decide) sorts).mp found
  rw [place, toNat_pfnToPhys_add_pageOffset, (paged entry mem).mem_range
    (dvd_toNat_pfnToPhys first) (Nat.mod_lt _ (by decide))] at inside
  rw [nrPagesInt_eq (by omega), Int.toNat_natCast] at loop
  refine ⟨entry, mem, first, place, ?_, ?_⟩
  · intro i less
    cases i with
    | zero => simpa using followPfn_ok follow
    | succ j =>
      have next := followPfn_ok (pfnLoop_ok loop j (by omega)).1
      have page : vaddr + intPages (1 + j) = vaddr + .ofNat 64 (4096 * (j + 1)) := by
        apply BitVec.eq_of_toNat_eq
        rw [BitVec.toNat_add, BitVec.toNat_add, toNat_intPages (by omega), BitVec.toNat_ofNat]
        omega
      have last : vaddr.toNat + 4096 * (j + 1) < 2 ^ 64 := by
        unfold pageSpan at less
        omega
      rw [page, page_add _ last] at next
      rw [show (vaddr.toNat % 4096 + 4096 * (j + 1)) / 4096 = j + 1 by omega] at next
      exact next
  · intro i less
    cases i with
    | zero => simpa using inside
    | succ j =>
      exact (xrpCompareAddress_eq_zero_iff (by decide)).mp (pfnLoop_ok loop j (by omega)).2

theorem framed_of_gup (sorts : Sorts sort) (ranges : Ranges entries)
    (follows : sys.Follows table) (small : pageSpan vaddr size ≤ 2 ^ 19)
    (ok : (Direct.xvpGupVirtToPhys (xrpInitAddressMap sort (some entries)) sys vaddr size).1 =
      .ok paddr) :
    ∃ entry ∈ entries, ∃ first, paddr = pfnToPhys first + pageOffset vaddr ∧
      Framed table entry vaddr first (pageSpan vaddr size) := by
  obtain ⟨pages, entry, got, enough, place, found, loop⟩ := xvpGupVirtToPhys_ok ok
  obtain ⟨mem, inside⟩ := (ranges.xrpGetAddressMapping_iff (by decide) sorts).mp found
  rw [nrPagesInt_eq (by omega)] at enough loop
  rw [Int.toNat_natCast] at loop
  have filled {i : ℕ} (less : i < pageSpan vaddr size) :
      table (vaddr >>> pageShift + .ofNat 64 i) = some (sys.page pages i) := by
    have inPages : i < pages.length := by omega
    refine follows _ _ _ got i _ ?_
    rw [GupSystem.page, List.getD_eq_getElem _ _ inPages, List.getElem?_eq_getElem inPages]
  refine ⟨entry, mem, _, place, ?_, ?_⟩
  · intro i less
    rw [filled less]
    cases i with
    | zero => simp
    | succ j =>
      rw [(gupLoop_ok loop (by omega)).1]
  · intro i less
    cases i with
    | zero => simpa using inside
    | succ j =>
      obtain ⟨next, zero⟩ := gupLoop_ok loop (i := j) (by omega)
      rw [next] at zero
      exact (xrpCompareAddress_eq_zero_iff (by decide)).mp zero

theorem linearAt_of_pfn (sorts : Sorts sort) (ranges : Ranges entries)
    (paged : ∀ entry ∈ entries, entry.Paged) (room : vaddr.toNat + size.toNat ≤ 2 ^ 64)
    (small : pageSpan vaddr size ≤ 2 ^ 19)
    (ok : xvpPfnVirtToPhys (xrpInitAddressMap sort (some entries)) table vaddr size = .ok paddr)
    {o : ℕ} (less : o < size.toNat) :
    LinearAt entries (xrpInitAddressMap sort (some entries)) table vaddr paddr o := by
  obtain ⟨entry, mem, first, place, framed⟩ := framed_of_pfn sorts ranges paged room small ok
  rw [place]
  exact framed.linearAt sorts ranges mem (paged entry mem) room less

theorem linearAt_of_gup (sorts : Sorts sort) (ranges : Ranges entries)
    (paged : ∀ entry ∈ entries, entry.Paged) (follows : sys.Follows table)
    (room : vaddr.toNat + size.toNat ≤ 2 ^ 64) (small : pageSpan vaddr size ≤ 2 ^ 19)
    (ok : (Direct.xvpGupVirtToPhys (xrpInitAddressMap sort (some entries)) sys vaddr size).1 =
      .ok paddr) {o : ℕ} (less : o < size.toNat) :
    LinearAt entries (xrpInitAddressMap sort (some entries)) table vaddr paddr o := by
  obtain ⟨entry, mem, first, place, framed⟩ := framed_of_gup sorts ranges follows small ok
  rw [place]
  exact framed.linearAt sorts ranges mem (paged entry mem) room less

/-- **A region that is shared in place is linear**, for the host and for the DSP, whichever of the
two functions has looked at its pages. -/
theorem directShare_linear (sorts : Sorts sort) (ranges : Ranges entries)
    (paged : ∀ entry ∈ entries, entry.Paged) (follows : sys.Follows table)
    (room : vaddr.toNat + size.toNat ≤ 2 ^ 64) (small : pageSpan vaddr size ≤ 2 ^ 19) :
    let map := xrpInitAddressMap sort (some entries)
    xvpPfnVirtToPhys map table vaddr size = .ok paddr ∨
        (Direct.xvpGupVirtToPhys map sys vaddr size).1 = .ok paddr →
      ∀ o < size.toNat, LinearAt entries map table vaddr paddr o := by
  rintro map (ok | ok) o less
  · exact linearAt_of_pfn sorts ranges paged room small ok less
  · exact linearAt_of_gup sorts ranges paged follows room small ok less

end Linear

/-- Two pages in frames that follow each other. -/
def twoFrames : PageTable := fun page =>
  if page = 0x7f0 then some 0x10000 else if page = 0x7f1 then some 0x10001 else none

/-- A system that pins these two pages. -/
def pinsTwo : GupSystem where
  kmalloc _ := true
  getUserPagesFast start _ :=
    if start >>> pageShift = 0x7f0 then .ok [0x10000, 0x10001] else .error .efault
  stale _ := 0

theorem pinsTwo_follows : pinsTwo.Follows twoFrames := by
  intro start n pages got i pfn found
  simp only [pinsTwo] at got
  split_ifs at got with first
  cases got
  rw [first]
  match i with
  | 0 =>
    cases found
    rfl
  | 1 =>
    cases found
    rfl
  | i + 2 => cases found

/-- Two regions with bytes of both pages: one in an area without `struct page`s, and one whose pages
are pinned. -/
theorem directShare_linear_twoPages :
    let sort := fun (compare : XrpAddressMapEntry 64 → XrpAddressMapEntry 64 → ℤ) l =>
      (l.attach.mergeSort fun a b => compare a b ≤ 0).map Subtype.val
    let entries : List (XrpAddressMapEntry 64) := [⟨0x10000000, 0x8000, 0x2000⟩]
    let map := xrpInitAddressMap sort (some entries)
    (xvpPfnVirtToPhys map twoFrames 0x7f0800 0x1000 = .ok 0x10000800 ∧
      ∀ o < 0x1000, LinearAt entries map twoFrames 0x7f0800 0x10000800 o) ∧
    (Direct.xvpGupVirtToPhys map pinsTwo 0x7f0400 0x1800).1 = .ok 0x10000400 ∧
      ∀ o < 0x1800, LinearAt entries map twoFrames 0x7f0400 0x10000400 o := by
  intro sort entries map
  have ranges : Ranges entries := by
    constructor
    · simp [entries]
    · simp [entries]
  have paged : ∀ entry ∈ entries, entry.Paged := by
    intro entry mem
    cases List.mem_singleton.mp mem
    exact ⟨by decide, by decide⟩
  have found (paddr : ULong)
      (inside : paddr.toNat ∈ (⟨0x10000000, 0x8000, 0x2000⟩ : XrpAddressMapEntry 64).range) :
      xrpGetAddressMapping map paddr = some ⟨0x10000000, 0x8000, 0x2000⟩ :=
    (ranges.xrpGetAddressMapping_iff (by decide) sorts_mergeSort).mpr
      ⟨List.mem_cons_self, inside⟩
  have pfn : xvpPfnVirtToPhys map twoFrames 0x7f0800 0x1000 = .ok 0x10000800 := by
    have follow : followPfn twoFrames 0x7f0800 = .ok 0x10000 := by decide
    have start : pfnToPhys 0x10000 + pageOffset 0x7f0800 = 0x10000800 := by decide
    rw [xvpPfnVirtToPhys, follow]
    simp only [start, found 0x10000800 (by simp [XrpAddressMapEntry.range])]
    decide
  have gup : (Direct.xvpGupVirtToPhys map pinsTwo 0x7f0400 0x1800).1 = .ok 0x10000400 := by
    have got : pinsTwo.getUserPagesFast 0x7f0400 (nrPagesInt 0x7f0400 0x1800) =
        .ok [0x10000, 0x10001] := by decide
    have enough : ¬ (([0x10000, 0x10001] : List ULong).length : ℤ) <
        nrPagesInt 0x7f0400 0x1800 := by decide
    have first : pfnToPhys (pinsTwo.page [0x10000, 0x10001] 0) = 0x10000000 := by decide
    rw [Direct.xvpGupVirtToPhys, if_neg (by decide), got]
    simp only [if_neg enough, first,
      found 0x10000000 (by simp [XrpAddressMapEntry.range])]
    decide
  refine ⟨⟨pfn, ?_⟩, gup, ?_⟩
  · exact directShare_linear sorts_mergeSort ranges paged pinsTwo_follows (by decide) (by decide)
      (.inl pfn)
  · exact directShare_linear sorts_mergeSort ranges paged pinsTwo_follows (by decide) (by decide)
      (.inr gup)

end Xrp.Kernel
