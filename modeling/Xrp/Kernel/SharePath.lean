import Xrp.Kernel.DirectShare
import Xrp.Kernel.Vma

/-!
# The way a region is shared

How `__xrp_share_block` of `xvp_main.c` chooses between the memory of the driver, the pages of the
caller and a shadow copy, with what it finds for the mapping of requests. For a region without bytes
at the start of a page there are no pages, and `xvp_gup_virt_to_phys` reads the first one all the
same.
-/

namespace Xrp.Kernel

/-! ## The path of a region -/

section Path

variable (map : List (XrpAddressMapEntry 64)) (table : PageTable) (sys : GupSystem)
  (mm : List (VmAreaStruct 64))

/-- `VM_IO`. -/
def vmIo : ULong := 0x4000

/-- `VM_PFNMAP`. -/
def vmPfnmap : ULong := 0x400

/-- The allocation behind an area of the driver's files, if the DSP can reach the region in it. -/
def nativeAllocation (vma : VmAreaStruct 64) (virt size : ULong) : Option ULong :=
  match vma.vmFile with
  | .own => some vma.vmPrivateData
  | .known pmem =>
    let phys := pmem + (vma.vmPgoff <<< pageShift) + virt - vma.vmStart
    match xrpGetAddressMapping map phys with
    | none => none
    | some entry =>
      if xrpCompareAddress (phys + size - 1) entry ≠ 0 then none else some vma.vmPrivateData
  | .other => none

/-- What `__xrp_share_block` finds out about a region. -/
def shareRegion (virt size : ULong) : Region :=
  match findVma mm virt with
  | none => .bad
  | some vma =>
    let count := xvpGetRegionVmaCount mm virt size vma
    if count = 0 then .bad
    else if count ≠ 1 then .multiple
    else
      .single (nativeAllocation map vma virt size)
        (if vma.vmFlags &&& (vmIo ||| vmPfnmap) ≠ 0 then
          some ((xvpPfnVirtToPhys map table virt size).toOption.map BitVec.toNat)
        else none)

/-- The region is given to `xvp_gup_virt_to_phys`. -/
def Region.reachesGup : Region → Bool
  | .single none none => true
  | .multiple => true
  | _ => false

/-- The indices of the page array that are used for a buffer of a request. -/
def bufferAccesses (flags size : U32) (addr : ULong) : List ℕ :=
  if flags &&& flagReadWrite ≠ 0 ∧
      (shareRegion map table mm addr (size.setWidth 64)).reachesGup then
    (Direct.xvpGupVirtToPhys map sys addr (size.setWidth 64)).2
  else []

end Path

/-! ## The page array -/

section PageArray

variable {map : List (XrpAddressMapEntry 64)} {entry : XrpAddressMapEntry 64} {table : PageTable}
  {sys : GupSystem} {mm : List (VmAreaStruct 64)}

/-- `kmalloc` of nothing gives `ZERO_SIZE_PTR`, and no pages are always there. -/
structure GupSystem.Documented (sys : GupSystem) : Prop where
  kmalloc : sys.kmalloc 0 = true
  getUserPagesFast : ∀ start, sys.getUserPagesFast start 0 = .ok []

/-- The number of entries of the page array that `get_user_pages_fast` fills in. -/
def GupSystem.filled (sys : GupSystem) (vaddr size : ULong) : ℕ :=
  match sys.getUserPagesFast vaddr (nrPagesInt vaddr size) with
  | .ok pages => pages.length
  | .error _ => 0

theorem mem_gupLoop {page : ℕ → ULong} {n i j : ℕ}
    (mem : j ∈ (gupLoop entry page n (i + 1)).2) : j < i + 1 + n := by
  induction n generalizing i with
  | zero => simp [gupLoop] at mem
  | succ n ih =>
    rw [gupLoop] at mem
    split_ifs at mem
    · simp at mem
      omega
    · simp at mem
      omega
    · simp only [List.mem_append] at mem
      rcases mem with now | later
      · simp at now
        omega
      · have less := ih later
        omega

/-- If there is a page, only pages that are there are used. -/
theorem mem_xvpGupVirtToPhys {vaddr size : ULong} {j : ℕ} (some : 0 < nrPagesInt vaddr size)
    (mem : j ∈ (Direct.xvpGupVirtToPhys map sys vaddr size).2) :
    j < nrPagesInt vaddr size ∧ j < sys.filled vaddr size := by
  unfold Direct.xvpGupVirtToPhys at mem
  simp only at mem
  split_ifs at mem
  · cases mem
  · unfold GupSystem.filled
    split at mem
    · cases mem
    · rename_i pages got
      rw [got]
      simp only
      split_ifs at mem with short
      · rw [List.mem_range] at mem
        omega
      · suffices (j : ℤ) < nrPagesInt vaddr size by omega
        split at mem
        · simp at mem
          omega
        · rename_i entry _
          have looped {j : ℕ} (used : j ∈ (gupLoop entry (sys.page pages)
              ((nrPagesInt vaddr size).toNat - 1) 1).2) : (j : ℤ) < nrPagesInt vaddr size := by
            have less := mem_gupLoop (i := 0) used
            omega
          split at mem
          · rename_i loop
            simp only [List.mem_append, List.mem_singleton, List.mem_range] at mem
            rcases mem with (rfl | used) | less
            · exact_mod_cast some
            · exact looped (by rw [loop]; exact used)
            · omega
          · rename_i loop
            simp only [List.mem_append, List.mem_singleton] at mem
            rcases mem with (rfl | used) | rfl
            · exact_mod_cast some
            · exact looped (by rw [loop]; exact used)
            · exact_mod_cast some

/-- Without pages the first one is used all the same. -/
theorem zero_mem_xvpGupVirtToPhys (documented : sys.Documented) {vaddr size : ULong}
    (none : nrPagesInt vaddr size = 0) :
    0 ∈ (Direct.xvpGupVirtToPhys map sys vaddr size).2 := by
  unfold Direct.xvpGupVirtToPhys
  simp only [none, documented.kmalloc, documented.getUserPagesFast]
  simp only [Bool.not_true, Bool.false_eq_true, if_false, List.length_nil, Nat.cast_zero, lt_irrefl]
  split
  · simp
  · split
    · simp
    · simp

/-- The pages of a buffer, whose size has 32 bits. -/
theorem nrPagesInt_buffer (size : U32) (addr : ULong) :
    nrPagesInt addr (size.setWidth 64) = pageSpan addr (size.setWidth 64) := by
  apply nrPagesInt_eq
  rw [pageSpan, BitVec.toNat_setWidth_of_le (by decide)]
  omega

theorem pageSpan_eq_zero_iff (size : U32) (addr : ULong) :
    pageSpan addr (size.setWidth 64) = 0 ↔ size = 0 ∧ pageOffset addr = 0 := by
  rw [pageSpan, BitVec.toNat_setWidth_of_le (by decide), ← BitVec.toNat_inj, ← BitVec.toNat_inj,
    toNat_pageOffset]
  simp
  omega

/-- **The page array is used inside its bounds, if and only if** the buffer is not an empty one at
the start of a page that is given to `xvp_gup_virt_to_phys`. -/
theorem bufferAccesses_inBounds_iff (documented : sys.Documented) (flags size : U32)
    (addr : ULong) :
    (∀ i ∈ bufferAccesses map table sys mm flags size addr,
      i < nrPagesInt addr (size.setWidth 64) ∧ i < sys.filled addr (size.setWidth 64)) ↔
    ¬ (flags &&& flagReadWrite ≠ 0 ∧
      (shareRegion map table mm addr (size.setWidth 64)).reachesGup ∧
      size = 0 ∧ pageOffset addr = 0) := by
  have pages := nrPagesInt_buffer size addr
  rw [← pageSpan_eq_zero_iff, ← and_assoc, not_and]
  unfold bufferAccesses
  split_ifs with reaches
  · refine ⟨fun inside _ zero => ?_, fun some i mem => ?_⟩
    · have first := (inside 0 (zero_mem_xvpGupVirtToPhys documented (by omega))).1
      omega
    · have positive := Nat.pos_of_ne_zero (some reaches)
      exact mem_xvpGupVirtToPhys (by omega) mem
  · exact iff_of_true (fun i mem => by cases mem) fun reaches' => absurd reaches' reaches

end PageArray

theorem anonymousPage_nonempty : (0x7f0000 : ULong) < 0x7f1000 := by decide

/-- One page of memory that is not of the driver. -/
def anonymousPage : VmAreaStruct 64 := plainArea 64 0x7f0000 0x7f1000 anonymousPage_nonempty

/-- A system in which page number `n` of user memory is in frame `n`. -/
def flatSystem : GupSystem where
  kmalloc n := 0 ≤ n
  getUserPagesFast start n := .ok ((List.range n.toNat).map fun i => start >>> 12 + .ofNat 64 i)
  stale _ := 0

theorem flatSystem_documented : flatSystem.Documented := ⟨by decide, fun _ => rfl⟩

/-- One byte of the page. -/
theorem bufferAccesses_inBounds_oneByte :
    (shareRegion [] (fun _ => none) [anonymousPage] 0x7f0000 1).reachesGup ∧
      ∀ i ∈ bufferAccesses [] (fun _ => none) flatSystem [anonymousPage] flagRead 1 0x7f0000,
        i < nrPagesInt 0x7f0000 1 ∧ i < flatSystem.filled 0x7f0000 1 :=
  ⟨by decide, (bufferAccesses_inBounds_iff flatSystem_documented flagRead 1 0x7f0000).mpr
    (by decide)⟩

/-- No bytes, at the start of the page: entry 0 of an array without entries is read. -/
theorem bufferAccesses_not_inBounds :
    flatSystem.Documented ∧
      (shareRegion [] (fun _ => none) [anonymousPage] 0x7f0000 0).reachesGup ∧
      nrPagesInt 0x7f0000 0 = 0 ∧ flatSystem.filled 0x7f0000 0 = 0 ∧
      0 ∈ bufferAccesses [] (fun _ => none) flatSystem [anonymousPage] flagRead 0 0x7f0000 := by
  have reaches : (shareRegion [] (fun _ => none) [anonymousPage] 0x7f0000 0).reachesGup := by decide
  have none : nrPagesInt 0x7f0000 0 = 0 := by decide
  have access : flagRead &&& flagReadWrite ≠ 0 := by decide
  refine ⟨flatSystem_documented, reaches, none, by decide, ?_⟩
  rw [bufferAccesses, if_pos ⟨access, reaches⟩]
  exact zero_mem_xvpGupVirtToPhys flatSystem_documented none

/-! ## The mapping of requests -/

section Mapping

variable {map : List (XrpAddressMapEntry 64)} {entry : XrpAddressMapEntry 64} {table : PageTable}
  {sys : GupSystem} {mm : List (VmAreaStruct 64)} {vaddr size : ULong}

/-- What the pages of a region are for the mapping of requests. -/
def gupEnv (map : List (XrpAddressMapEntry 64)) (sys : GupSystem) (vaddr size : ULong) : GupEnv :=
  let nrPages := nrPagesInt vaddr size
  match sys.kmalloc nrPages, sys.getUserPagesFast vaddr nrPages with
  | true, .ok pages =>
    ⟨some (pages.map BitVec.toNat),
      match xrpGetAddressMapping map (pfnToPhys (sys.page pages 0)) with
      | none => false
      | some entry => decide (∀ i < nrPages.toNat - 1,
          xrpCompareAddress (pfnToPhys (sys.page pages (i + 1))) entry = 0)⟩
  | _, _ => ⟨none, false⟩

theorem contiguous_iff {pages : List ℕ} :
    contiguous pages = true ↔ pages.IsChain fun a b => b = a + 1 := by
  fun_induction contiguous pages with
  | case1 a b pages ih =>
    rw [Bool.and_eq_true, ih, beq_iff_eq, List.isChain_cons_cons]
  | case2 pages short =>
    match pages with
    | [] => simp
    | [_] => simp
    | a :: b :: pages => exact absurd rfl (short a b pages)

/-- Frames of a machine have numbers below `2 ^ 52`, so that their addresses are words. -/
def GupSystem.SmallFrames (sys : GupSystem) : Prop :=
  ∀ start n pages, sys.getUserPagesFast start n = .ok pages → ∀ pfn ∈ pages, pfn.toNat < 2 ^ 52

theorem contiguous_take_iff (sys : GupSystem) {pages : List ULong}
    (small : ∀ pfn ∈ pages, pfn.toNat < 2 ^ 52) {n : ℕ} (enough : n ≤ pages.length) :
    contiguous ((pages.map BitVec.toNat).take n) = true ↔
      ∀ i < n - 1, sys.page pages (i + 1) = sys.page pages i + 1 := by
  rw [contiguous_iff, List.isChain_iff_getElem]
  simp only [List.length_take, List.length_map, min_eq_left enough, List.getElem_take,
    List.getElem_map]
  refine forall_congr' fun i => ?_
  have step (inside : i + 1 < pages.length) :
      pages[i + 1].toNat = pages[i].toNat + 1 ↔
        sys.page pages (i + 1) = sys.page pages i + 1 := by
    have bound := small _ (List.getElem_mem (Nat.lt_of_succ_lt inside))
    rw [GupSystem.page, GupSystem.page, List.getD_eq_getElem _ _ inside,
      List.getD_eq_getElem _ _ (Nat.lt_of_succ_lt inside), ← BitVec.toNat_inj, BitVec.toNat_add,
      show (1 : ULong).toNat = 1 from rfl, Nat.mod_eq_of_lt (by omega)]
  constructor
  · intro chain less
    exact (step (by omega)).mp (chain (by omega))
  · intro next less
    exact (step (by omega)).mpr (next (by omega))

/-- When the mapping of requests takes pages as they are. -/
theorem xvpGupVirtToPhys_pages {pages : List ℕ} {translatable : Bool} {counts : Counts}
    (some : 0 < nrPages vaddr size) :
    (xvpGupVirtToPhys ⟨.some pages, translatable⟩ vaddr size counts).1 =
      if nrPages vaddr size ≤ pages.length ∧ translatable ∧
          contiguous (pages.take (nrPages vaddr size)) then
        .some ⟨vaddr, size, pages.headD 0 * 4096 + vaddr.toNat % 4096, 0, alienGup⟩
      else none := by
  unfold xvpGupVirtToPhys
  simp only [Option.map_some]
  cases pages with
  | nil => simp [Nat.ne_of_gt some]
  | cons first rest =>
    obtain ⟨n, count⟩ := Nat.exists_eq_succ_of_ne_zero some.ne'
    have cut : (first :: rest).take (nrPages vaddr size) = first :: rest.take n := by
      rw [count, List.take_succ_cons]
    have few : (first :: rest.take n).length < nrPages vaddr size ↔
        ¬ nrPages vaddr size ≤ (first :: rest).length := by
      rw [← cut, List.length_take]
      omega
    rw [cut]
    dsimp only
    by_cases enough : nrPages vaddr size ≤ (first :: rest).length
    · rw [if_neg fun short => few.mp short enough]
      by_cases fine : (translatable && contiguous (first :: rest.take n)) = true
      · rw [if_pos fine, if_pos ⟨enough, Bool.and_eq_true_iff.mp fine⟩]
        rfl
      · rw [if_neg fine, if_neg fun all => fine (Bool.and_eq_true_iff.mpr all.2)]
    · rw [if_pos (few.mpr enough), if_neg fun all => enough all.1]

theorem toNat_start (sys : GupSystem) {pages : List ULong}
    (small : ∀ pfn ∈ pages, pfn.toNat < 2 ^ 52) (some : 0 < pages.length) :
    (pfnToPhys (sys.page pages 0) + pageOffset vaddr).toNat =
      (pages.map BitVec.toNat).headD 0 * 4096 + vaddr.toNat % 4096 := by
  cases pages with
  | nil => cases some
  | cons first rest =>
    have bound := small first List.mem_cons_self
    rw [toNat_pfnToPhys_add_pageOffset, toNat_pfnToPhys]
    change first.toNat * 4096 % 2 ^ 64 + _ = first.toNat * 4096 + _
    omega

/-- **The mapping of requests sees the pages as they are**: what it takes from its environment is
what `xvp_gup_virt_to_phys` finds in the page array. -/
theorem xvpGupVirtToPhys_gupEnv (small : sys.SmallFrames) (some : 0 < nrPagesInt vaddr size)
    (counts : Counts) :
    (xvpGupVirtToPhys (gupEnv map sys vaddr size) vaddr size counts).1 =
      (Direct.xvpGupVirtToPhys map sys vaddr size).1.toOption.map fun paddr =>
        ⟨vaddr, size, paddr.toNat, 0, alienGup⟩ := by
  have count : (nrPagesInt vaddr size).toNat = nrPages vaddr size := rfl
  unfold gupEnv Direct.xvpGupVirtToPhys
  simp only [count]
  cases sys.kmalloc (nrPagesInt vaddr size) with
  | false => rfl
  | true =>
    cases got : sys.getUserPagesFast vaddr (nrPagesInt vaddr size) with
    | error e => rfl
    | ok pages =>
      simp only [Bool.not_true, Bool.false_eq_true, if_false]
      rw [xvpGupVirtToPhys_pages (by omega), List.length_map]
      by_cases short : (pages.length : ℤ) < nrPagesInt vaddr size
      · rw [if_pos short, if_neg (by omega)]
        rfl
      · have enough : nrPages vaddr size ≤ pages.length := by omega
        have next := contiguous_take_iff sys (small _ _ _ got) enough
        rw [if_neg short]
        cases xrpGetAddressMapping map (pfnToPhys (sys.page pages 0)) with
        | none =>
          rw [if_neg fun all => Bool.false_ne_true all.2.1]
          rfl
        | some entry =>
          have loop : (gupLoop entry (sys.page pages) (nrPages vaddr size - 1) (0 + 1)).1 = .ok () ↔
            _ := gupLoop_ok_iff
          simp only [zero_add, forall_and, ← next] at loop
          dsimp only
          generalize gupLoop entry (sys.page pages) (nrPages vaddr size - 1) 1 = result at loop ⊢
          rcases result with ⟨_ | _, used⟩
          · rw [if_neg fun all => by cases loop.mpr ⟨all.2.2, of_decide_eq_true all.2.1⟩]
            rfl
          · obtain ⟨chain, inside⟩ := loop.mp rfl
            rw [if_pos ⟨enough, decide_eq_true inside, chain⟩,
              ← toNat_start sys (small _ _ _ got) (by omega)]
            rfl

/-- What `__xrp_share_block` finds, with the pages and areas of the caller. -/
def shareEnv (map : List (XrpAddressMapEntry 64)) (table : PageTable) (sys : GupSystem)
    (mm : List (VmAreaStruct 64)) (copy : CopyEnv) (virt size : ULong) : ShareEnv :=
  ⟨shareRegion map table mm virt size, gupEnv map sys virt size, copy⟩

theorem shareRegion_pfn {native : Option ULong} {pfn : Option ℕ}
    (single : shareRegion map table mm vaddr size = .single native (some pfn)) :
    pfn = (xvpPfnVirtToPhys map table vaddr size).toOption.map BitVec.toNat := by
  unfold shareRegion at single
  split at single
  · cases single
  · dsimp only at single
    split_ifs at single <;> cases single
    rfl

/-- What is shared without a copy was found by one of the two functions. -/
theorem shareDirect_shareEnv {copy : CopyEnv} {counts : Counts} {alien : XrpAlienMapping}
    (small : sys.SmallFrames) (some : 0 < nrPagesInt vaddr size)
    (shared : (shareDirect (shareEnv map table sys mm copy vaddr size) vaddr size counts).1 =
      .some alien) :
    ∃ paddr : ULong, alien.paddr = paddr.toNat ∧
      (xvpPfnVirtToPhys map table vaddr size = .ok paddr ∨
        (Direct.xvpGupVirtToPhys map sys vaddr size).1 = .ok paddr) := by
  unfold shareDirect at shared
  split at shared
  · rename_i native pfn single
    rw [shareRegion_pfn single] at shared
    cases ok : xvpPfnVirtToPhys map table vaddr size with
    | error e => rw [ok] at shared; cases shared
    | ok paddr =>
      rw [ok] at shared
      cases shared
      exact ⟨paddr, rfl, .inl rfl⟩
  · have found := (xvpGupVirtToPhys_gupEnv small some counts).symm.trans shared
    cases ok : (Direct.xvpGupVirtToPhys map sys vaddr size).1 with
    | error e => rw [ok] at found; cases found
    | ok paddr =>
      rw [ok] at found
      cases found
      exact ⟨paddr, rfl, .inr rfl⟩

/-- A mapping of memory that is not of the driver is a copy, or comes from the pages. -/
theorem xrpShareBlock_alien {env : ShareEnv} {flags : U32} {mapping m : XrpMapping}
    {counts : Counts} (shared : (xrpShareBlock env flags vaddr size mapping counts).1 = some m)
    (alien : m.type = mappingAlien) :
    m.alienMapping.type = alienCopy ∨
      (shareDirect env vaddr size counts).1 = some m.alienMapping := by
  have other : mappingNative ≠ mappingAlien := by decide
  unfold xrpShareBlock at shared
  split at shared
  · cases shared
  · cases shared
    exact absurd alien other
  · unfold shareAlien at shared
    rcases direct : shareDirect env vaddr size counts with ⟨_ | found, counts'⟩
    · rw [direct] at shared
      dsimp only at shared
      unfold xvpCopyVirtToPhys at shared
      cases copied : env.copy.allocation with
      | error e => rw [copied] at shared; cases shared
      | ok allocation =>
        rw [copied] at shared
        dsimp only at shared
        split_ifs at shared
        cases shared
        exact .inl rfl
    · rw [direct] at shared
      cases shared
      exact .inr rfl

/-- **What a request shares without a copy is linear** for the host and for the DSP. -/
theorem xrpShareBlock_linear
    {sort : (XrpAddressMapEntry 64 → XrpAddressMapEntry 64 → ℤ) →
      List (XrpAddressMapEntry 64) → List (XrpAddressMapEntry 64)}
    {entries : List (XrpAddressMapEntry 64)} (sorts : Sorts sort) (ranges : Ranges entries)
    (paged : ∀ entry ∈ entries, entry.Paged) (follows : sys.Follows table)
    (frames : sys.SmallFrames) (some : 0 < nrPagesInt vaddr size)
    (room : vaddr.toNat + size.toNat ≤ 2 ^ 64) (small : pageSpan vaddr size ≤ 2 ^ 19)
    {copy : CopyEnv} {flags : U32} {mapping m : XrpMapping} {counts : Counts} :
    let map := xrpInitAddressMap sort (.some entries)
    (xrpShareBlock (shareEnv map table sys mm copy vaddr size) flags vaddr size mapping counts).1 =
        .some m → m.type = mappingAlien → m.alienMapping.type ≠ alienCopy →
      ∃ paddr : ULong, m.alienMapping.paddr = paddr.toNat ∧
        ∀ o < size.toNat, LinearAt entries map table vaddr paddr o := by
  intro map shared alien inPlace
  have direct := (xrpShareBlock_alien shared alien).resolve_left inPlace
  obtain ⟨paddr, place, ok | ok⟩ := shareDirect_shareEnv frames some direct
  · exact ⟨paddr, place, fun o less => linearAt_of_pfn sorts ranges paged room small ok less⟩
  · exact ⟨paddr, place,
      fun o less => linearAt_of_gup sorts ranges paged follows room small ok less⟩

end Mapping

end Xrp.Kernel
