import Xrp.Kernel.AllocRefine
import Xrp.Kernel.Firmware

/-!
# Loading one segment

What the two loaders leave in memory. To I/O memory a segment goes by one copy and
one clear, whose lengths are rounded up to words in 32 bits. To system memory it
goes page by page. There the size left in a page is taken before the offset in
the page is brought back, so after a page that was filled the next one is passed
over, and each further part of the segment is one page farther from its place.
-/

namespace Xrp.Kernel.Firmware

variable {image : Image} {env : Env} {phdr : Elf32Phdr}

/-- The memory with the words of the file data, and zeros behind it. -/
def placed (image : Image) (phdr : Elf32Phdr) (pa : ℕ) (memory : ℕ → U8) : ℕ → U8 := fun a =>
  if pa ≤ a ∧ a < pa + phdr.pFilesz.toNat.roundUp 4 then
    image.data (phdr.pOffset.toNat + (a - pa : ℕ))
  else if pa ≤ a ∧ a < pa + phdr.pMemsz.toNat.roundUp 4 then 0
  else memory a

theorem roundUp_four (n : ℕ) : n.roundUp 4 = (n + 3) / 4 * 4 := rfl

/-- Nothing is changed outside of the words of the segment. -/
theorem placed_of_outside {pa a : ℕ} (memory : ℕ → U8) (fits : phdr.pFilesz ≤ phdr.pMemsz)
    (outside : ¬ (pa ≤ a ∧ a < pa + phdr.pMemsz.toNat.roundUp 4)) :
    placed image phdr pa memory a = memory a := by
  have le : phdr.pFilesz.toNat ≤ phdr.pMemsz.toNat := fits
  have apart : ¬ (pa ≤ a ∧ a < pa + phdr.pFilesz.toNat.roundUp 4) := by
    rw [roundUp_four] at outside ⊢
    omega
  rw [placed, if_neg apart, if_neg outside]

/-- A copy of the file data and a clear behind it. -/
theorem transferred_pair {pa copied cleared : ℕ} (memory : ℕ → U8)
    (data : copied = phdr.pFilesz.toNat.roundUp 4)
    (zeros : copied + cleared = max copied (phdr.pMemsz.toNat.roundUp 4)) :
    transferred image [.copy pa phdr.pOffset.toNat copied, .clear (pa + copied) cleared] memory =
      placed image phdr pa memory := by
  funext a
  let copy := Transfer.blit image (.copy pa phdr.pOffset.toNat copied)
  let clear := Transfer.blit image (.clear (pa + copied) cleared)
  have copies : copy.Covers a ↔ pa ≤ a ∧ a < pa + copied := Iff.rfl
  have clears : clear.Covers a ↔ pa + copied ≤ a ∧ a < pa + copied + cleared := Iff.rfl
  change clear.apply (copy.apply memory) a = placed image phdr pa memory a
  rw [placed, ← data]
  by_cases file : pa ≤ a ∧ a < pa + copied
  · have apart : ¬ clear.Covers a := by
      rw [clears]
      omega
    rw [if_pos file, Blit.apply_of_not_covers apart, Blit.apply_of_covers (copies.mpr file)]
    rfl
  rw [if_neg file]
  by_cases bss : pa ≤ a ∧ a < pa + phdr.pMemsz.toNat.roundUp 4
  · have covers : clear.Covers a := by
      rw [clears]
      omega
    rw [if_pos bss, Blit.apply_of_covers covers]
    rfl
  · have apart : ¬ clear.Covers a := by
      rw [clears]
      omega
    rw [if_neg bss, Blit.apply_of_not_covers apart, Blit.apply_of_not_covers (copies.not.mpr file)]

/-! ## To I/O memory -/

section Iomem

/-- `ALIGN` of a length to words, which wraps at the end of `u32`. -/
theorem toNat_ALIGN_four (v : U32) :
    (ALIGN v 4).toNat = if v.toNat + 3 < 2 ^ 32 then v.toNat.roundUp 4 else 0 := by
  have four : (4 : U32).toNat = 2 ^ 2 := rfl
  split_ifs with room
  · exact toNat_ALIGN (by omega) four (by omega)
  · exact ALIGN_wrapped (by omega) four (by omega)

/-- The length that is cleared. The difference is below zero where the file data ends in the last
word of the segment, and then it is rounded up to zero. -/
theorem toNat_clearLength (fits : phdr.pFilesz ≤ phdr.pMemsz) :
    (ALIGN (phdr.pMemsz - ALIGN phdr.pFilesz 4) 4).toNat =
      if phdr.pMemsz.toNat - (ALIGN phdr.pFilesz 4).toNat + 3 < 2 ^ 32 then
        phdr.pMemsz.toNat.roundUp 4 - (ALIGN phdr.pFilesz 4).toNat
      else 0 := by
  have memsz := phdr.pMemsz.isLt
  have le : phdr.pFilesz.toNat ≤ phdr.pMemsz.toNat := fits
  have aligned := toNat_ALIGN_four phdr.pFilesz
  rw [toNat_ALIGN_four, BitVec.toNat_sub]
  simp only [roundUp_four] at aligned ⊢
  by_cases room : phdr.pFilesz.toNat + 3 < 2 ^ 32
  · rw [if_pos room] at aligned
    split_ifs <;> omega
  · rw [if_neg room] at aligned
    split_ifs <;> omega

theorem xrpLoadSegmentToIomem_ok (success : (xrpLoadSegmentToIomem env phdr).1 = .ok ()) :
    (xrpLoadSegmentToIomem env phdr).2 =
      [.copy (xrpTranslateToCpu env phdr).toNat phdr.pOffset.toNat (ALIGN phdr.pFilesz 4).toNat,
        .clear ((xrpTranslateToCpu env phdr).toNat + (ALIGN phdr.pFilesz 4).toNat)
          (ALIGN (phdr.pMemsz - ALIGN phdr.pFilesz 4) 4).toNat] := by
  simp only [xrpLoadSegmentToIomem] at success ⊢
  split_ifs at success ⊢ with mapped
  rfl

/-- Where no length wraps, the segment is in its place. -/
theorem transferred_iomem {pa : ℕ} (memory : ℕ → U8) (fits : phdr.pFilesz ≤ phdr.pMemsz)
    (file : phdr.pFilesz.toNat + 3 < 2 ^ 32)
    (bss : phdr.pFilesz.toNat = 0 → phdr.pMemsz.toNat + 3 < 2 ^ 32) :
    transferred image [.copy pa phdr.pOffset.toNat (ALIGN phdr.pFilesz 4).toNat,
      .clear (pa + (ALIGN phdr.pFilesz 4).toNat)
        (ALIGN (phdr.pMemsz - ALIGN phdr.pFilesz 4) 4).toNat] memory =
      placed image phdr pa memory := by
  have memsz := phdr.pMemsz.isLt
  have aligned := toNat_ALIGN_four phdr.pFilesz
  rw [if_pos file] at aligned
  refine transferred_pair memory aligned ?_
  have le : phdr.pFilesz.toNat ≤ phdr.pMemsz.toNat := fits
  have short : phdr.pMemsz.toNat - (ALIGN phdr.pFilesz 4).toNat + 3 < 2 ^ 32 := by
    rw [aligned, roundUp_four]
    omega
  rw [toNat_clearLength fits, if_pos short, aligned]
  simp only [roundUp_four]
  omega

/-- The memory holds the segment as the ELF format wants it: the file data, then zeros; and
nothing is changed outside of the words of the segment. -/
structure FollowsElf (image : Image) (phdr : Elf32Phdr) (pa : ℕ) (memory memory' : ℕ → U8) :
    Prop where
  data : ∀ i < phdr.pFilesz.toNat, memory' (pa + i) = image.data (phdr.pOffset.toNat + i)
  zeros : ∀ i, phdr.pFilesz.toNat ≤ i → i < phdr.pMemsz.toNat → memory' (pa + i) = 0
  frame : ∀ a, ¬ (pa ≤ a ∧ a < pa + phdr.pMemsz.toNat.roundUp 4) → memory' a = memory a

/-- `xrp_load_segment_to_iomem` leaves the segment so, whatever was in memory. -/
def LoadsElf (image : Image) (env : Env) (phdr : Elf32Phdr) : Prop :=
  ∀ memory, FollowsElf image phdr (xrpTranslateToCpu env phdr).toNat memory
    (transferred image (xrpLoadSegmentToIomem env phdr).2 memory)

/-- What follows the file data in its last word is zero in the image, as far as it belongs to
the segment. -/
def ZeroPadded (image : Image) (phdr : Elf32Phdr) : Prop :=
  ∀ i, phdr.pFilesz.toNat ≤ i → i < phdr.pFilesz.toNat.roundUp 4 → i < phdr.pMemsz.toNat →
    image.data (phdr.pOffset.toNat + i) = 0

theorem followsElf_placed {pa : ℕ} (memory : ℕ → U8) (fits : phdr.pFilesz ≤ phdr.pMemsz)
    (padded : ZeroPadded image phdr) :
    FollowsElf image phdr pa memory (placed image phdr pa memory) := by
  have le : phdr.pFilesz.toNat ≤ phdr.pMemsz.toNat := fits
  constructor
  · intro i inside
    have file : i < phdr.pFilesz.toNat.roundUp 4 := by
      rw [roundUp_four]
      omega
    simp [placed, file]
  · intro i behind inside
    by_cases file : i < phdr.pFilesz.toNat.roundUp 4
    · simpa [placed, file] using padded i behind file inside
    · have bss : i < phdr.pMemsz.toNat.roundUp 4 := by
        rw [roundUp_four]
        omega
      simp [placed, file, bss]
  · exact fun a outside => placed_of_outside memory fits outside

/-- Where both lengths wrap to zero, nothing is loaded. -/
theorem transferred_iomem_wrapped {pa : ℕ} (memory : ℕ → U8) (fits : phdr.pFilesz ≤ phdr.pMemsz)
    (none : (ALIGN phdr.pFilesz 4).toNat = 0) (wraps : 2 ^ 32 ≤ phdr.pMemsz.toNat + 3) :
    transferred image [.copy pa phdr.pOffset.toNat (ALIGN phdr.pFilesz 4).toNat,
      .clear (pa + (ALIGN phdr.pFilesz 4).toNat)
        (ALIGN (phdr.pMemsz - ALIGN phdr.pFilesz 4) 4).toNat] memory = memory := by
  rw [toNat_clearLength fits, none, if_neg (by omega)]
  funext a
  refine Blit.applyAll_of_not_covers ?_
  simp only [List.map_cons, List.map_nil, List.mem_cons, List.not_mem_nil, or_false]
  rintro b (rfl | rfl)
  · exact fun covers => absurd covers.2 (not_lt.mpr covers.1)
  · exact fun covers => absurd covers.2 (not_lt.mpr covers.1)

/-- A segment that is not empty cannot be in every memory before it is loaded. -/
theorem exists_not_followsElf (image : Image) (pa : ℕ) (nonempty : 0 < phdr.pMemsz.toNat) :
    ∃ memory, ¬ FollowsElf image phdr pa memory memory := by
  by_cases file : 0 < phdr.pFilesz.toNat
  · refine ⟨fun _ => image.data (phdr.pOffset.toNat + (0 : ℕ)) + 1, fun follows => ?_⟩
    have same := follows.data 0 file
    simp at same
  · refine ⟨fun _ => 1, fun follows => ?_⟩
    have same := follows.zeros 0 (by omega) nonempty
    simp at same

/-- **A segment in I/O memory is as the ELF format wants it** if and only if the lengths do not
wrap and what follows the file data in its last word is zero. -/
theorem loadsElf_iff (fits : phdr.pFilesz ≤ phdr.pMemsz)
    (success : (xrpLoadSegmentToIomem env phdr).1 = .ok ()) :
    LoadsElf image env phdr ↔ phdr.pFilesz.toNat + 3 < 2 ^ 32 ∧
      (phdr.pFilesz.toNat = 0 → phdr.pMemsz.toNat + 3 < 2 ^ 32) ∧ ZeroPadded image phdr := by
  have memsz : phdr.pFilesz.toNat ≤ phdr.pMemsz.toNat := fits
  rw [LoadsElf, xrpLoadSegmentToIomem_ok success]
  constructor
  · intro follows
    -- where the lengths wrap, memory stays as it was, and not every memory holds the segment
    have loads : (ALIGN phdr.pFilesz 4).toNat = 0 → phdr.pMemsz.toNat + 3 < 2 ^ 32 := by
      intro none
      by_contra wraps
      obtain ⟨memory, never⟩ := exists_not_followsElf image
        (xrpTranslateToCpu env phdr).toNat (show 0 < phdr.pMemsz.toNat by omega)
      apply never
      have holds := follows memory
      rwa [transferred_iomem_wrapped memory fits none (not_lt.mp wraps)] at holds
    have aligned := toNat_ALIGN_four phdr.pFilesz
    have file : phdr.pFilesz.toNat + 3 < 2 ^ 32 := by
      by_contra wraps
      rw [if_neg wraps] at aligned
      have := loads aligned
      omega
    have bss : phdr.pFilesz.toNat = 0 → phdr.pMemsz.toNat + 3 < 2 ^ 32 := by
      intro empty
      rw [if_pos file, empty] at aligned
      exact loads aligned
    refine ⟨file, bss, ?_⟩
    intro i behind inside within
    have zero := (follows fun _ => 0).zeros i behind within
    rw [transferred_iomem _ fits file bss] at zero
    simpa [placed, inside] using zero
  · rintro ⟨file, bss, padded⟩ memory
    rw [transferred_iomem memory fits file bss]
    exact followsElf_placed memory fits padded

/-- A system in which all segments go to one address. -/
def loadsAt (pa : ULong) (sysmem : Bool) : Env :=
  ⟨fun _ => pa, fun _ => sysmem, fun _ => true, fun _ _ => true, [], 0⟩

/-- An image with zeros around it. -/
def imageOf (bytes : List U8) : Image :=
  ⟨fun pos => if 0 ≤ pos then bytes.getD pos.toNat 0 else 0, bytes.length⟩

/-- A loadable segment at the beginning of the image. -/
def segment (filesz memsz : U32) : Elf32Phdr := ⟨ptLoad, 0, 0, filesz, memsz, pfAccess⟩

/-- One word of file data, and one word of zeros. -/
theorem loadsElf_words : LoadsElf (imageOf [1, 2, 3, 4]) (loadsAt 0x1000 false) (segment 4 8) := by
  have fits : (segment 4 8).pFilesz ≤ (segment 4 8).pMemsz := by decide
  refine (loadsElf_iff fits rfl).mpr ⟨by decide, by decide, ?_⟩
  intro i behind inside
  exact absurd inside (not_lt.mpr behind)

/-- One byte of file data in a segment of one word: the byte behind it in the image is copied,
and memory is not zero there. -/
theorem not_loadsElf_byte :
    (segment 1 4).pFilesz ≤ (segment 1 4).pMemsz ∧
      (segment 1 4).pOffset.toNat + (segment 1 4).pFilesz.toNat ≤ (imageOf [1, 2, 3, 4]).size ∧
      (xrpLoadSegmentToIomem (loadsAt 0x1000 false) (segment 1 4)).1 = .ok () ∧
      transferred (imageOf [1, 2, 3, 4])
        (xrpLoadSegmentToIomem (loadsAt 0x1000 false) (segment 1 4)).2 (fun _ => 0) 0x1001 = 2 ∧
      ¬ LoadsElf (imageOf [1, 2, 3, 4]) (loadsAt 0x1000 false) (segment 1 4) := by
  have byte : transferred (imageOf [1, 2, 3, 4])
      (xrpLoadSegmentToIomem (loadsAt 0x1000 false) (segment 1 4)).2 (fun _ => 0) 0x1001 = 2 := by
    decide
  refine ⟨by decide, by decide, rfl, byte, fun loads => ?_⟩
  have zero := (loads fun _ => 0).zeros 1 (by decide) (by decide)
  have same : (2 : U8) = 0 := byte.symm.trans zero
  exact absurd same (by decide)

end Iomem

/-! ## To system memory -/

section Sysmem

variable {c : Cursor}

theorem sysmemLoop_more (more : c.offs < phdr.pMemsz.toNat) (mapped : env.kmap c.page = true) :
    sysmemLoop env phdr c =
      ((sysmemLoop env phdr (loadPage phdr c).2).1,
        (loadPage phdr c).1 ++ (sysmemLoop env phdr (loadPage phdr c).2).2) := by
  rw [sysmemLoop, if_pos more, if_pos mapped]

theorem sysmemLoop_done (done : phdr.pMemsz.toNat ≤ c.offs) :
    sysmemLoop env phdr c = (.ok (), []) := by
  rw [sysmemLoop, if_neg (not_lt.mpr done)]

/-- The loop fails only where `kmap` does. -/
theorem sysmemLoop_ok (mapped : ∀ page, env.kmap page = true) :
    (sysmemLoop env phdr c).1 = .ok () := by
  induction left : c.left phdr using Nat.strong_induction_on generalizing c with
  | _ n ih =>
    by_cases more : c.offs < phdr.pMemsz.toNat
    · rw [sysmemLoop_more more (mapped c.page)]
      exact ih _ (left ▸ left_loadPage_lt more) rfl
    · rw [sysmemLoop_done (not_lt.mp more)]

/-- What is left of a page. -/
theorem sizeSub_of_le {a b : ℕ} (le : b ≤ a) (small : a < 2 ^ 64) : sizeSub a b = a - b := by
  unfold sizeSub
  omega

/-! ### A segment inside of a page -/

/-- The transfers for a segment that does not pass the end of its page. -/
def onePage (phdr : Elf32Phdr) (dst : ℕ) : List Transfer :=
  (if 0 < phdr.pFilesz.toNat then
    [.copy dst phdr.pOffset.toNat (phdr.pFilesz.toNat.roundUp 4)] else []) ++
  if phdr.pFilesz.toNat.roundUp 4 < phdr.pMemsz.toNat then
    [.clear (dst + phdr.pFilesz.toNat.roundUp 4)
      ((phdr.pMemsz.toNat - phdr.pFilesz.toNat.roundUp 4).roundUp 4)]
  else []

theorem loadPage_onePage (page : ℕ) {pageOffs : ℕ} (fits : phdr.pFilesz ≤ phdr.pMemsz)
    (nonempty : 0 < phdr.pMemsz.toNat) (inside : pageOffs + phdr.pMemsz.toNat ≤ 4096) :
    (loadPage phdr ⟨page, pageOffs, 0⟩).1 = onePage phdr (page * 4096 + pageOffs) ∧
      phdr.pMemsz.toNat ≤ (loadPage phdr ⟨page, pageOffs, 0⟩).2.offs := by
  have le : phdr.pFilesz.toNat ≤ phdr.pMemsz.toNat := fits
  have room : sizeSub 4096 pageOffs = 4096 - pageOffs := sizeSub_of_le (by omega) (by omega)
  have same : pageOffs % 4096 = pageOffs := Nat.mod_eq_of_lt (by omega)
  rcases Nat.eq_zero_or_pos phdr.pFilesz.toNat with empty | file
  · have some : 4096 - pageOffs ≠ 0 := by omega
    have whole : min (4096 - pageOffs) phdr.pMemsz.toNat = phdr.pMemsz.toNat := by omega
    have zero : Nat.roundUp 0 4 = 0 := rfl
    simpa [loadPage, copyPart, clearPart, onePage, empty, room, same, some, whole, zero, nonempty]
      using Nat.le_roundUp (by omega)
  · have whole : min (4096 - pageOffs) phdr.pFilesz.toNat = phdr.pFilesz.toNat := by omega
    by_cases more : phdr.pFilesz.toNat.roundUp 4 < phdr.pMemsz.toNat
    · have rest : sizeSub (4096 - pageOffs) (phdr.pFilesz.toNat.roundUp 4) =
          4096 - pageOffs - phdr.pFilesz.toNat.roundUp 4 := sizeSub_of_le (by omega) (by omega)
      have some : 4096 - pageOffs - phdr.pFilesz.toNat.roundUp 4 ≠ 0 := by omega
      have bss : min (4096 - pageOffs - phdr.pFilesz.toNat.roundUp 4)
          (phdr.pMemsz.toNat - phdr.pFilesz.toNat.roundUp 4) =
          phdr.pMemsz.toNat - phdr.pFilesz.toNat.roundUp 4 := by omega
      have reaches : phdr.pMemsz.toNat - phdr.pFilesz.toNat.roundUp 4 ≤
          (phdr.pMemsz.toNat - phdr.pFilesz.toNat.roundUp 4).roundUp 4 :=
        Nat.le_roundUp (by omega)
      simp only [loadPage, copyPart, clearPart, onePage, room, same, file, whole, rest, more, some,
        bss, if_true, zero_add, Nat.sub_zero, Nat.cast_zero, add_zero, ne_eq, not_false_eq_true,
        and_self, add_assoc, true_and]
      omega
    · simp only [loadPage, copyPart, clearPart, onePage, room, same, file, whole, more, if_true,
        if_false, zero_add, Nat.sub_zero, Nat.cast_zero, add_zero, false_and, true_and]
      omega

/-- A segment inside of a page is in its place. -/
theorem transferred_onePage {pa : ℕ} (memory : ℕ → U8) (fits : phdr.pFilesz ≤ phdr.pMemsz) :
    transferred image (onePage phdr pa) memory = placed image phdr pa memory := by
  have le : phdr.pFilesz.toNat ≤ phdr.pMemsz.toNat := fits
  have file := roundUp_four phdr.pFilesz.toNat
  have bss := roundUp_four phdr.pMemsz.toNat
  have rest := roundUp_four (phdr.pMemsz.toNat - phdr.pFilesz.toNat.roundUp 4)
  have whole : transferred image
      [.copy pa phdr.pOffset.toNat (phdr.pFilesz.toNat.roundUp 4),
        .clear (pa + phdr.pFilesz.toNat.roundUp 4)
          ((phdr.pMemsz.toNat - phdr.pFilesz.toNat.roundUp 4).roundUp 4)] memory =
      placed image phdr pa memory := transferred_pair memory rfl (by omega)
  rw [← whole]
  -- the loop leaves out what is empty
  have no_copy (empty : ¬ 0 < phdr.pFilesz.toNat) : (Transfer.blit image
      (.copy pa phdr.pOffset.toNat (phdr.pFilesz.toNat.roundUp 4))).apply memory = memory :=
    Blit.apply_of_size_eq_zero (show phdr.pFilesz.toNat.roundUp 4 = 0 by omega)
  have no_clear (empty : ¬ phdr.pFilesz.toNat.roundUp 4 < phdr.pMemsz.toNat) (m : ℕ → U8) :
      (Transfer.blit image (.clear (pa + phdr.pFilesz.toNat.roundUp 4)
        ((phdr.pMemsz.toNat - phdr.pFilesz.toNat.roundUp 4).roundUp 4))).apply m = m :=
    Blit.apply_of_size_eq_zero
      (show (phdr.pMemsz.toNat - phdr.pFilesz.toNat.roundUp 4).roundUp 4 = 0 by omega)
  unfold onePage
  split_ifs with copies clears clears
  · rfl
  · exact (no_clear clears _).symm
  · simp only [transferred, List.nil_append, List.map_cons, List.map_nil, Blit.applyAll_cons,
      Blit.applyAll_nil, no_copy copies]
  · simp only [transferred, List.append_nil, List.map_cons, List.map_nil, Blit.applyAll_cons,
      Blit.applyAll_nil, no_copy copies, no_clear clears]

/-- What `xrp_load_segment_to_sysmem` does with a segment inside of a page. -/
theorem xrpLoadSegmentToSysmem_onePage (fits : phdr.pFilesz ≤ phdr.pMemsz)
    (inside : (xrpTranslateToCpu env phdr).toNat % 4096 + phdr.pMemsz.toNat ≤ 4096) :
    xrpLoadSegmentToSysmem env phdr =
        (.ok (), onePage phdr (xrpTranslateToCpu env phdr).toNat) ∨
      xrpLoadSegmentToSysmem env phdr = (.error .enomem, []) := by
  have le : phdr.pFilesz.toNat ≤ phdr.pMemsz.toNat := fits
  have address := Nat.div_add_mod' (xrpTranslateToCpu env phdr).toNat 4096
  simp only [xrpLoadSegmentToSysmem]
  generalize (xrpTranslateToCpu env phdr).toNat = pa at inside address ⊢
  by_cases nonempty : 0 < phdr.pMemsz.toNat
  · cases mapped : env.kmap (pa / 4096) with
    | true =>
      obtain ⟨transfers, done⟩ := loadPage_onePage (pa / 4096) fits nonempty inside
      left
      rw [sysmemLoop_more nonempty mapped, sysmemLoop_done done, transfers, address,
        List.append_nil]
    | false =>
      right
      rw [sysmemLoop, if_pos nonempty, if_neg (by simp [mapped])]
  · left
    have none : onePage phdr pa = [] := by
      have zero : Nat.roundUp 0 4 = 0 := rfl
      have memsz : phdr.pMemsz.toNat = 0 := by omega
      have filesz : phdr.pFilesz.toNat = 0 := by omega
      simp [onePage, memsz, filesz, zero]
    rw [sysmemLoop_done (not_lt.mp nonempty), none]

/-! ### A segment that passes the end of its page -/

/-- A page with something left is written from its offset on. -/
theorem loadPage_covers (image : Image) (more : c.offs < phdr.pMemsz.toNat)
    (room : sizeSub 4096 c.pageOffs ≠ 0) :
    ∃ t ∈ (loadPage phdr c).1,
      (t.blit image).Covers (c.page * 4096 + c.pageOffs % 4096) := by
  by_cases file : c.offs < phdr.pFilesz.toNat
  · have some : 0 < (min (sizeSub 4096 c.pageOffs) (phdr.pFilesz.toNat - c.offs)).roundUp 4 :=
      Nat.roundUp_pos (by omega) (by omega)
    refine ⟨.copy (c.page * 4096 + c.pageOffs % 4096) (phdr.pOffset.toNat + c.offs)
      ((min (sizeSub 4096 c.pageOffs) (phdr.pFilesz.toNat - c.offs)).roundUp 4), ?_, ?_⟩
    · simp [loadPage, copyPart, file]
    · exact ⟨le_rfl, Nat.lt_add_of_pos_right some⟩
  · have some : 0 < (min (sizeSub 4096 c.pageOffs) (phdr.pMemsz.toNat - c.offs)).roundUp 4 :=
      Nat.roundUp_pos (by omega) (by omega)
    refine ⟨.clear (c.page * 4096 + c.pageOffs % 4096)
      ((min (sizeSub 4096 c.pageOffs) (phdr.pMemsz.toNat - c.offs)).roundUp 4), ?_, ?_⟩
    · simp [loadPage, copyPart, clearPart, file, more, room]
    · exact ⟨le_rfl, Nat.lt_add_of_pos_right some⟩

/-- The copy leaves off at a word, at most at the end of the page. -/
theorem copyPart_words (phdr : Elf32Phdr) (c : Cursor) {sz : ℕ} (words : 4 ∣ sz)
    (small : sz < 2 ^ 64) :
    ∃ k ≤ sz, 4 ∣ k ∧
      (copyPart phdr c sz).2 = (⟨c.page, c.pageOffs + k, c.offs + k⟩, sz - k) := by
  unfold copyPart
  split_ifs with file
  · have le : (min sz (phdr.pFilesz.toNat - c.offs)).roundUp 4 ≤ sz :=
      Nat.roundUp_le (by omega) words (min_le_left _ _)
    exact ⟨_, le, Nat.dvd_roundUp _ _, Prod.ext rfl (sizeSub_of_le le small)⟩
  · exact ⟨0, Nat.zero_le sz, dvd_zero 4, rfl⟩

/-- The clear goes to the end of the page, if the segment does. -/
theorem clearPart_fills {sz : ℕ} (words : 4 ∣ sz) (passes : c.offs + sz < phdr.pMemsz.toNat) :
    (clearPart phdr c sz).2 = ⟨c.page, c.pageOffs + sz, c.offs + sz⟩ := by
  have whole : (min sz (phdr.pMemsz.toNat - c.offs)).roundUp 4 = sz := by
    rw [min_eq_left (by omega), Nat.roundUp_of_dvd (by omega) words]
  rcases Nat.eq_zero_or_pos sz with rfl | some
  · simp [clearPart]
  · have clears : c.offs < phdr.pMemsz.toNat ∧ sz ≠ 0 := by omega
    rw [clearPart, if_pos clears, whole]

/-- A page that the segment passes is filled to its end. -/
theorem loadPage_fills (page : ℕ) {pageOffs offs : ℕ} (inside : pageOffs < 4096)
    (words : 4 ∣ pageOffs) (words' : 4 ∣ offs)
    (passes : offs + (4096 - pageOffs) < phdr.pMemsz.toNat) :
    (loadPage phdr ⟨page, pageOffs, offs⟩).2 = ⟨page + 1, 4096, offs + (4096 - pageOffs)⟩ := by
  have room : sizeSub 4096 pageOffs = 4096 - pageOffs := sizeSub_of_le (by omega) (by omega)
  have same : pageOffs % 4096 = pageOffs := Nat.mod_eq_of_lt inside
  obtain ⟨k, le, multiple, copied⟩ := copyPart_words phdr ⟨page, pageOffs, offs⟩
    (show 4 ∣ 4096 - pageOffs by omega) (by omega)
  simp only [loadPage, room, same, copied]
  rw [clearPart_fills (by omega) (by simp only; omega)]
  simp only [Cursor.mk.injEq, true_and]
  omega

/-- After a page that was filled, the rest of the segment is written behind its place, and the
end of it behind the end of the segment. -/
theorem exists_stray (image : Image) (phdr : Elf32Phdr) (pa : ℕ)
    (mapped : ∀ page, env.kmap page = true) (full : c.pageOffs = 4096) (words : 4 ∣ c.offs)
    (more : c.offs < phdr.pMemsz.toNat) (behind : pa + c.offs ≤ c.page * 4096) :
    ∃ t ∈ (sysmemLoop env phdr c).2, ∃ a, pa + phdr.pMemsz.toNat.roundUp 4 ≤ a ∧
      (t.blit image).Covers a := by
  induction left : phdr.pMemsz.toNat - c.offs using Nat.strong_induction_on generalizing c with
  | _ n ih =>
    have passed : sizeSub 4096 c.pageOffs = 0 := by
      rw [full]
      rfl
    have fresh : sizeSub 4096 0 ≠ 0 := by decide
    rw [sysmemLoop_more more (mapped _), loadPage_of_full passed, full,
      sysmemLoop_more (c := ⟨c.page + 1, 0, c.offs⟩) more (mapped _)]
    by_cases last : phdr.pMemsz.toNat ≤ c.offs + 4096
    · obtain ⟨t, member, covers⟩ :=
        loadPage_covers (c := ⟨c.page + 1, 0, c.offs⟩) image more fresh
      refine ⟨t, List.mem_append_right _ (List.mem_append_left _ member), _, ?_, covers⟩
      have ends : phdr.pMemsz.toNat.roundUp 4 ≤ c.offs + 4096 :=
        Nat.roundUp_le (by omega) (by omega) last
      simp only
      omega
    · rw [loadPage_fills (c.page + 1) (by omega) (by omega) words (by omega)]
      obtain ⟨t, member, stray⟩ := ih (phdr.pMemsz.toNat - (c.offs + (4096 - 0))) (by omega)
        (c := ⟨c.page + 1 + 1, 4096, c.offs + (4096 - 0)⟩) rfl (by simp only; omega)
        (by simp only; omega) (by simp only; omega) rfl
      exact ⟨t, List.mem_append_right _ (List.mem_append_right _ member), stray⟩

/-- A segment that passes the end of its page is not loaded where it should be. -/
theorem xrpLoadSegmentToSysmem_stray (image : Image) (env : Env)
    (mapped : ∀ page, env.kmap page = true) (aligned : 4 ∣ (xrpTranslateToCpu env phdr).toNat)
    (passes : 4096 < (xrpTranslateToCpu env phdr).toNat % 4096 + phdr.pMemsz.toNat) :
    ∃ t ∈ (xrpLoadSegmentToSysmem env phdr).2, ∃ a,
      (xrpTranslateToCpu env phdr).toNat + phdr.pMemsz.toNat.roundUp 4 ≤ a ∧
        (t.blit image).Covers a := by
  simp only [xrpLoadSegmentToSysmem]
  generalize (xrpTranslateToCpu env phdr).toNat = pa at aligned passes ⊢
  have more : 0 < phdr.pMemsz.toNat := by omega
  rw [sysmemLoop_more more (mapped _),
    loadPage_fills (pa / 4096) (by omega) (by omega) (dvd_zero 4) (by omega)]
  obtain ⟨t, member, stray⟩ := exists_stray image phdr pa mapped
    (c := ⟨pa / 4096 + 1, 4096, 0 + (4096 - pa % 4096)⟩) rfl (by simp only; omega)
    (by simp only; omega) (by simp only; omega)
  exact ⟨t, List.mem_append_right _ member, stray⟩

end Sysmem

/-! ## Both ways -/

/-- After success the loaders leave the same in a segment at `pa`, and change nothing outside of
its words. -/
def LoadersAgree (image : Image) (phdr : Elf32Phdr) (pa : ULong) : Prop :=
  ∀ (env : Env) (memory : ℕ → U8), xrpTranslateToCpu env phdr = pa →
    (xrpLoadSegmentToSysmem env phdr).1 = .ok () → (xrpLoadSegmentToIomem env phdr).1 = .ok () →
    let sysmem := transferred image (xrpLoadSegmentToSysmem env phdr).2 memory
    let iomem := transferred image (xrpLoadSegmentToIomem env phdr).2 memory
    (∀ i < phdr.pMemsz.toNat, sysmem (pa.toNat + i) = iomem (pa.toNat + i)) ∧
      ∀ a, ¬ (pa.toNat ≤ a ∧ a < pa.toNat + phdr.pMemsz.toNat.roundUp 4) →
        sysmem a = memory a ∧ iomem a = memory a

/-- **The loaders agree** if and only if the segment does not pass the end of its page. -/
theorem loadersAgree_iff {pa : ULong} (fits : phdr.pFilesz ≤ phdr.pMemsz)
    (aligned : 4 ∣ pa.toNat) :
    LoadersAgree image phdr pa ↔ pa.toNat % 4096 + phdr.pMemsz.toNat ≤ 4096 := by
  have le : phdr.pFilesz.toNat ≤ phdr.pMemsz.toNat := fits
  constructor
  · intro agree
    by_contra passes
    have at_pa : xrpTranslateToCpu (loadsAt pa true) phdr = pa := rfl
    obtain ⟨t, member, a, behind, covers⟩ := xrpLoadSegmentToSysmem_stray image
      (loadsAt pa true) (fun _ => rfl) aligned (not_le.mp passes)
    have : Nontrivial U8 := ⟨0, 1, by decide⟩
    obtain ⟨memory, changed⟩ := Blit.exists_applyAll_ne ⟨_, List.mem_map_of_mem member, covers⟩
    have outside : ¬ (pa.toNat ≤ a ∧ a < pa.toNat + phdr.pMemsz.toNat.roundUp 4) := by
      rw [at_pa] at behind
      omega
    exact changed ((agree (loadsAt pa true) memory rfl (sysmemLoop_ok fun _ => rfl) rfl).2 a
      outside).1
  · intro inside env memory at_pa sysmem iomem
    have transfers : (xrpLoadSegmentToSysmem env phdr).2 = onePage phdr pa.toNat := by
      rw [← at_pa] at inside ⊢
      rcases xrpLoadSegmentToSysmem_onePage fits inside with loaded | failed
      · rw [loaded]
      · rw [failed] at sysmem
        cases sysmem
    rw [transfers, xrpLoadSegmentToIomem_ok iomem, at_pa, transferred_onePage memory fits,
      transferred_iomem memory fits (by omega) (by omega)]
    refine ⟨fun _ _ => rfl, fun a outside => ?_⟩
    have same : placed image phdr pa.toNat memory a = memory a :=
      placed_of_outside memory fits outside
    exact ⟨same, same⟩

/-- A segment inside of a page. -/
theorem loadersAgree_inside : LoadersAgree (imageOf [1, 2, 3, 4]) (segment 4 8) 0x1ff8 := by
  have fits : (segment 4 8).pFilesz ≤ (segment 4 8).pMemsz := by decide
  exact (loadersAgree_iff fits (by decide)).mpr (by decide)

/-- A segment of two pages: its second half is written one page behind its place, outside of the
segment. -/
theorem not_loadersAgree_twoPages :
    (segment 0 8192).pFilesz ≤ (segment 0 8192).pMemsz ∧
      (segment 0 8192).pOffset.toNat + (segment 0 8192).pFilesz.toNat ≤ (imageOf [1]).size ∧
      4 ∣ (0x1000 : ULong).toNat ∧
      (xrpLoadSegmentToSysmem (loadsAt 0x1000 true) (segment 0 8192)).2 =
        [.clear 0x1000 4096, .clear 0x3000 4096] ∧
      ¬ LoadersAgree (imageOf [1]) (segment 0 8192) 0x1000 := by
  have first : loadPage (segment 0 8192) ⟨1, 0, 0⟩ = ([.clear 0x1000 4096], ⟨2, 4096, 4096⟩) := rfl
  have second : loadPage (segment 0 8192) ⟨2, 4096, 4096⟩ = ([], ⟨3, 0, 4096⟩) := rfl
  have third : loadPage (segment 0 8192) ⟨3, 0, 4096⟩ =
      ([.clear 0x3000 4096], ⟨4, 4096, 8192⟩) := rfl
  have transfers : xrpLoadSegmentToSysmem (loadsAt 0x1000 true) (segment 0 8192) =
      (.ok (), [.clear 0x1000 4096, .clear 0x3000 4096]) := by
    change sysmemLoop (loadsAt 0x1000 true) (segment 0 8192) ⟨1, 0, 0⟩ = _
    rw [sysmemLoop_more (by decide) rfl, first, sysmemLoop_more (by decide) rfl, second,
      sysmemLoop_more (by decide) rfl, third, sysmemLoop_done (by decide)]
    rfl
  refine ⟨by decide, by decide, by decide, by rw [transfers], fun agree => ?_⟩
  have kept := ((agree (loadsAt 0x1000 true) (fun _ => 1) rfl (by rw [transfers]) rfl).2 0x3000
    (by decide)).1
  rw [transfers] at kept
  exact absurd kept (by decide)

end Xrp.Kernel.Firmware
