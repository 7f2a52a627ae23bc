import Xrp.Kernel.FirmwareSegments

/-!
# Bounds of the loader

Which accesses of `xrp_load_firmware` stay inside of the image and of the segments.
The checks of the source do not suffice: their sums wrap, the size of a program
header entry is not compared with the size of the structure, nor that of the file
data with that of the segment, and the fixup of the symbol may change headers
that were checked before. This module says which images are safe, whatever `kmap` and
`ioremap` return.
-/

namespace Xrp.Kernel.Firmware

/-! ## Accesses in bounds -/

/-- The bytes read are in the image, and those written among the `len` bytes at `pa`. -/
def Transfer.InBounds (size pa len : ℕ) : Transfer → Prop
  | copy dst src n =>
    ∀ i < n, (0 ≤ src + (i : ℕ) ∧ src + (i : ℕ) < size) ∧ pa ≤ dst + i ∧ dst + i < pa + len
  | clear dst n => ∀ i < n, pa ≤ dst + i ∧ dst + i < pa + len

/-- The accesses for a segment are in bounds. -/
def Load.InBounds (size : ℕ) (load : Load) : Prop :=
  ∀ t ∈ load.transfers, t.InBounds size load.pa (load.phdr.pMemsz.toNat.roundUp 4)

/-- The position is that of program header `i`, without wrap-around, and the header is in the
image. -/
def Image.HeaderAt (order : ByteOrder) (image : Image) (i : ℕ) (pos : ℤ) : Prop :=
  pos = (image.ePhoff order + i * image.ePhentsize order : ℕ) ∧ pos + sizeofPhdr ≤ image.size

/-- The program headers that were reached are at their places in the image, and the accesses for
the segments that were passed to a loader are in bounds. -/
structure Report.InBounds (order : ByteOrder) (image : Image) (report : Report) : Prop where
  headers : ∀ (i : ℕ) (pos : ℤ), report.headers[i]? = some pos → image.HeaderAt order i pos
  loads : ∀ load ∈ report.loads, load.InBounds image.size

/-- How many bytes are copied to begin with: to system memory, up to the end of the page. -/
def copied (env : Env) (phdr : Elf32Phdr) : ℕ :=
  let pa := (xrpTranslateToCpu env phdr).toNat
  if env.pfnValid (pa / 4096) then (min (4096 - pa % 4096) phdr.pFilesz.toNat).roundUp 4
  else (ALIGN phdr.pFilesz 4).toNat

/-- A segment that is loaded in bounds from an image of the given size. -/
structure SegmentSound (env : Env) (size : ℕ) (phdr : Elf32Phdr) : Prop where
  data : phdr.pOffset.toNat + copied env phdr ≤ size
  fits : copied env phdr ≤ phdr.pMemsz.toNat.roundUp 4
  page : env.pfnValid ((xrpTranslateToCpu env phdr).toNat / 4096) = true →
    4 ∣ (xrpTranslateToCpu env phdr).toNat →
    (xrpTranslateToCpu env phdr).toNat % 4096 + phdr.pMemsz.toNat ≤ 4096

/-- The segment passes the checks of `xrp_load_firmware`. -/
structure PassesChecks (env : Env) (image : Image) (phdr : Elf32Phdr) : Prop where
  wanted : loadable phdr = true
  good : segmentBad image phdr ≠ true
  mapped : xrpTranslateToCpu env phdr ≠ ofBadAddr

namespace Image

variable (order : ByteOrder) (env : Env) (image : Image)

/-- Program header `i`, where `xrp_load_firmware` reads it. -/
def header (i : ℕ) : Elf32Phdr := image.phdr order (phdrPos order image i)

/-- No segment before number `i` is refused. -/
def Reaches (i : ℕ) : Prop :=
  ∀ j < i, loadable (image.header order j) = true → PassesChecks env image (image.header order j)

/-- An image of which the program headers that are reached are in it, and their segments are sound
if they pass the checks. -/
structure Sound : Prop where
  table : ∀ i < image.ePhnum order, image.Reaches order env i →
    i * image.ePhentsize order < 2 ^ 31 ∧
      image.ePhoff order + i * image.ePhentsize order + sizeofPhdr ≤ image.size
  segments : ∀ i < image.ePhnum order, image.Reaches order env i →
    PassesChecks env image (image.header order i) →
      SegmentSound env image.size (image.header order i)

end Image

/-! ## One segment -/

section Segment

variable {env : Env} {size : ℕ} {phdr : Elf32Phdr} {c : Cursor} {kmap : ℕ → Bool}
  {ioremap : ℕ → U32 → Bool}

theorem inBounds_copy {pa len n : ℕ} {offset : ℕ} (reads : offset + n ≤ size) (writes : n ≤ len) :
    (Transfer.copy pa offset n).InBounds size pa len := by
  intro i inside
  omega

theorem inBounds_clear {pa len start n : ℕ} (writes : start + n ≤ len) :
    (Transfer.clear (pa + start) n).InBounds size pa len := by
  intro i inside
  omega

/-- A copy in bounds is as long as it may be. -/
theorem le_of_inBounds_copy {pa len n : ℕ} {offset : ℕ}
    (bounds : (Transfer.copy pa offset n).InBounds size pa len) (below : offset ≤ size) :
    offset + n ≤ size ∧ n ≤ len := by
  rcases Nat.eq_zero_or_pos n with rfl | positive
  · exact ⟨below, Nat.zero_le len⟩
  · have last := bounds (n - 1) (by omega)
    omega

/-- Nothing is written outside. -/
theorem lt_of_inBounds {image : Image} {t : Transfer} {pa len a : ℕ}
    (bounds : t.InBounds size pa len) (covers : (t.blit image).Covers a) : a < pa + len := by
  obtain ⟨start, stop⟩ := covers
  cases t with
  | copy dst src n =>
    have inside := bounds (a - dst) (by simp only [Transfer.blit] at start stop; omega)
    simp only [Transfer.blit] at start
    omega
  | clear dst n =>
    have inside := bounds (a - dst) (by simp only [Transfer.blit] at start stop; omega)
    simp only [Transfer.blit] at start
    omega

/-- What is cleared ends with the segment, whatever wraps. -/
theorem iomem_lengths_le_of_fits
    (fits : (ALIGN phdr.pFilesz 4).toNat ≤ phdr.pMemsz.toNat.roundUp 4) :
    (ALIGN phdr.pFilesz 4).toNat + (ALIGN (phdr.pMemsz - ALIGN phdr.pFilesz 4) 4).toNat ≤
      phdr.pMemsz.toNat.roundUp 4 := by
  have words : 2 ^ 2 ∣ (ALIGN phdr.pFilesz 4).toNat := dvd_ALIGN (by decide) rfl
  have memsz := phdr.pMemsz.isLt
  have filesz := (ALIGN phdr.pFilesz 4).isLt
  rw [toNat_ALIGN_four (phdr.pMemsz - ALIGN phdr.pFilesz 4), BitVec.toNat_sub]
  simp only [roundUp_four] at fits ⊢
  split_ifs <;> omega

theorem copied_iomem
    (invalid : ¬ env.pfnValid ((xrpTranslateToCpu env phdr).toNat / 4096) = true) :
    copied env phdr = (ALIGN phdr.pFilesz 4).toNat := if_neg invalid

theorem SegmentSound.iomem (sound : SegmentSound env size phdr)
    (invalid : ¬ env.pfnValid ((xrpTranslateToCpu env phdr).toNat / 4096) = true) :
    ∀ t ∈ (xrpLoadSegmentToIomem { env with kmap := kmap, ioremap := ioremap } phdr).2,
      t.InBounds size (xrpTranslateToCpu env phdr).toNat (phdr.pMemsz.toNat.roundUp 4) := by
  have reads := sound.data
  have writes := sound.fits
  rw [copied_iomem invalid] at reads writes
  simp only [xrpLoadSegmentToIomem]
  split_ifs
  · refine List.forall_mem_cons.mpr ⟨inBounds_copy reads writes, ?_⟩
    exact List.forall_mem_singleton.mpr (inBounds_clear (iomem_lengths_le_of_fits writes))
  · simp

/-! ### System memory -/

/-- How many bytes are cleared on the first page of a segment, behind those that are copied. -/
def clearedFirst (phdr : Elf32Phdr) (room n : ℕ) : ℕ :=
  if n < phdr.pMemsz.toNat ∧ sizeSub room n ≠ 0 then
    (min (sizeSub room n) (phdr.pMemsz.toNat - n)).roundUp 4
  else 0

theorem copyPart_first (phdr : Elf32Phdr) (page pageOffs : ℕ) {room n : ℕ}
    (small : room < 2 ^ 64) (length : n = (min room phdr.pFilesz.toNat).roundUp 4) :
    copyPart phdr ⟨page, pageOffs, 0⟩ room =
      (if 0 < phdr.pFilesz.toNat then
        [.copy (page * 4096 + pageOffs) phdr.pOffset.toNat n] else [],
        ⟨page, pageOffs + n, n⟩, sizeSub room n) := by
  unfold copyPart
  split_ifs with file
  · simp only [Nat.sub_zero, Nat.zero_add, Nat.cast_zero, add_zero, ← length]
  · have nothing : n = 0 := by
      rw [length, Nat.eq_zero_of_not_pos file, Nat.min_zero]
      rfl
    rw [nothing, sizeSub_of_le (Nat.zero_le room) small, Nat.add_zero, Nat.sub_zero]

theorem clearPart_first (phdr : Elf32Phdr) (page pageOffs room n : ℕ) :
    clearPart phdr ⟨page, pageOffs, n⟩ (sizeSub room n) =
      (if n < phdr.pMemsz.toNat ∧ sizeSub room n ≠ 0 then
        [.clear (page * 4096 + pageOffs) (clearedFirst phdr room n)] else [],
        ⟨page, pageOffs + clearedFirst phdr room n, n + clearedFirst phdr room n⟩) := by
  unfold clearPart clearedFirst
  split_ifs with clears
  · simp only
  · simp only [Nat.add_zero]

/-- The first page of a segment. -/
theorem loadPage_first (phdr : Elf32Phdr) (page : ℕ) {pageOffs n : ℕ} (inside : pageOffs < 4096)
    (length : n = (min (4096 - pageOffs) phdr.pFilesz.toNat).roundUp 4) :
    loadPage phdr ⟨page, pageOffs, 0⟩ =
      ((if 0 < phdr.pFilesz.toNat then
        [.copy (page * 4096 + pageOffs) phdr.pOffset.toNat n] else []) ++
      (if n < phdr.pMemsz.toNat ∧ sizeSub (4096 - pageOffs) n ≠ 0 then
        [.clear (page * 4096 + (pageOffs + n)) (clearedFirst phdr (4096 - pageOffs) n)] else []),
      ⟨page + 1, pageOffs + n + clearedFirst phdr (4096 - pageOffs) n,
        n + clearedFirst phdr (4096 - pageOffs) n⟩) := by
  have room : sizeSub 4096 pageOffs = 4096 - pageOffs := sizeSub_of_le inside.le (by omega)
  have same : pageOffs % 4096 = pageOffs := Nat.mod_eq_of_lt inside
  simp only [loadPage, room, same, copyPart_first phdr page pageOffs (by omega) length,
    clearPart_first]

/-- What is copied and cleared on the first page stays inside of the segment. -/
theorem add_clearedFirst_le {room n : ℕ} (words : 4 ∣ n)
    (fits : n ≤ phdr.pMemsz.toNat.roundUp 4) :
    n + clearedFirst phdr room n ≤ phdr.pMemsz.toNat.roundUp 4 := by
  unfold clearedFirst
  split_ifs with clears
  · have rest : 4 ∣ phdr.pMemsz.toNat.roundUp 4 - n := Nat.dvd_sub (Nat.dvd_roundUp _ 4) words
    have inside : phdr.pMemsz.toNat - n ≤ phdr.pMemsz.toNat.roundUp 4 - n :=
      Nat.sub_le_sub_right (Nat.le_roundUp (by decide)) n
    exact Nat.add_le_of_le_sub' fits
      (Nat.roundUp_le (by decide) rest ((min_le_right _ _).trans inside))
  · exact fits

/-- A difference of lengths below zero is a large room, and all that is left is cleared. -/
theorem le_add_clearedFirst_of_lt {room n : ℕ} (small : n < room + 2 ^ 32) (long : room < n) :
    phdr.pMemsz.toNat ≤ n + clearedFirst phdr room n := by
  have memsz := phdr.pMemsz.isLt
  have large : phdr.pMemsz.toNat ≤ sizeSub room n ∧ sizeSub room n ≠ 0 := by
    unfold sizeSub
    omega
  obtain ⟨enough, positive⟩ := large
  unfold clearedFirst
  generalize sizeSub room n = left at enough positive ⊢
  split_ifs with clears
  · rw [min_eq_right (by omega)]
    have reaches : phdr.pMemsz.toNat - n ≤ (phdr.pMemsz.toNat - n).roundUp 4 :=
      Nat.le_roundUp (by decide)
    omega
  · omega

/-- What is left of the first page is cleared, as far as the segment goes. -/
theorem clearedFirst_of_lt {room n : ℕ} (short : n < room) (small : room ≤ 4096)
    (clears : n < phdr.pMemsz.toNat) :
    clearedFirst phdr room n = (min (room - n) (phdr.pMemsz.toNat - n)).roundUp 4 := by
  have rest : sizeSub room n = room - n := sizeSub_of_le short.le (by omega)
  rw [clearedFirst, rest, if_pos ⟨clears, by omega⟩]

/-- A segment that goes on behind the first page, at an address that is not that of a word: only
zeros are left, and they go on where the first page was left. -/
theorem first_page_passed {room n : ℕ} (small : room ≤ 4096) (odd : ¬ 4 ∣ room)
    (length : n = (min room phdr.pFilesz.toNat).roundUp 4)
    (passes : n + clearedFirst phdr room n < phdr.pMemsz.toNat) :
    n + clearedFirst phdr room n = room.roundUp 4 ∧ phdr.pFilesz.toNat ≤ room := by
  rw [roundUp_four] at length
  have short : n < room := by
    by_contra long
    have exceeds : room < n := by omega
    exact absurd passes (not_lt.mpr (le_add_clearedFirst_of_lt (by omega) exceeds))
  rw [clearedFirst_of_lt short small (by omega)] at passes ⊢
  simp only [roundUp_four] at passes ⊢
  omega

/-- A segment that ends on the first page is done then. -/
theorem le_add_clearedFirst {room n : ℕ} (small : room ≤ 4096) (words : 4 ∣ room)
    (length : n = (min room phdr.pFilesz.toNat).roundUp 4) (ends : phdr.pMemsz.toNat ≤ room) :
    phdr.pMemsz.toNat ≤ n + clearedFirst phdr room n := by
  rw [roundUp_four] at length
  by_cases clears : n < phdr.pMemsz.toNat
  · rw [clearedFirst_of_lt (by omega) small clears]
    simp only [roundUp_four]
    omega
  · omega

/-- The page after that: what is left is cleared. -/
theorem loadPage_second (phdr : Elf32Phdr) (page : ℕ) {excess offs : ℕ} (positive : 0 < excess)
    (few : excess < 4) (file : phdr.pFilesz.toNat ≤ offs) (more : offs < phdr.pMemsz.toNat) :
    loadPage phdr ⟨page, 4096 + excess, offs⟩ =
      ([.clear (page * 4096 + excess) ((phdr.pMemsz.toNat - offs).roundUp 4)],
        ⟨page + 1, excess + (phdr.pMemsz.toNat - offs).roundUp 4,
          offs + (phdr.pMemsz.toNat - offs).roundUp 4⟩) := by
  have memsz := phdr.pMemsz.isLt
  have same : (4096 + excess) % 4096 = excess := by omega
  have large : phdr.pMemsz.toNat ≤ sizeSub 4096 (4096 + excess) ∧
      sizeSub 4096 (4096 + excess) ≠ 0 := by
    unfold sizeSub
    omega
  simp only [loadPage, same]
  obtain ⟨enough, room⟩ := large
  generalize sizeSub 4096 (4096 + excess) = left at enough room ⊢
  have whole : min left (phdr.pMemsz.toNat - offs) = phdr.pMemsz.toNat - offs := by omega
  have copies : ¬ offs < phdr.pFilesz.toNat := not_lt.mpr file
  simp only [copyPart, clearPart, copies, if_false, more, room, ne_eq, not_false_eq_true, and_self,
    if_true, whole, List.nil_append]

/-- What holds of the transfers of a page, and of those after it. -/
theorem forall_sysmemLoop {env : Env} {P : Transfer → Prop}
    (page : ∀ t ∈ (loadPage phdr c).1, P t)
    (rest : (loadPage phdr c).2.offs < phdr.pMemsz.toNat →
      ∀ t ∈ (sysmemLoop env phdr (loadPage phdr c).2).2, P t) :
    ∀ t ∈ (sysmemLoop env phdr c).2, P t := by
  rw [sysmemLoop]
  split_ifs
  · intro t member
    rcases List.mem_append.mp member with here | later
    · exact page t here
    · by_cases more : (loadPage phdr c).2.offs < phdr.pMemsz.toNat
      · exact rest more t later
      · rw [sysmemLoop_done (not_lt.mp more)] at later
        cases later
  · simp
  · simp

/-- The transfers of the first page. -/
theorem loadPage_first_inBounds {pa n : ℕ}
    (length : n = (min (4096 - pa % 4096) phdr.pFilesz.toNat).roundUp 4)
    (reads : phdr.pOffset.toNat + n ≤ size) (writes : n ≤ phdr.pMemsz.toNat.roundUp 4) :
    ∀ t ∈ (loadPage phdr ⟨pa / 4096, pa % 4096, 0⟩).1,
      t.InBounds size pa (phdr.pMemsz.toNat.roundUp 4) := by
  have words : 4 ∣ n := length ▸ Nat.dvd_roundUp _ _
  have address := Nat.div_add_mod' pa 4096
  rw [loadPage_first phdr (pa / 4096) (Nat.mod_lt pa (by decide)) length]
  intro t member
  rcases List.mem_append.mp member with copies | clears
  · split_ifs at copies
    · rw [List.mem_singleton.mp copies, address]
      exact inBounds_copy reads writes
    · cases copies
  · split_ifs at clears
    · rw [List.mem_singleton.mp clears, ← add_assoc, address]
      exact inBounds_clear (add_clearedFirst_le words writes)
    · cases clears

/-- The transfers after the first page, at an address that is not that of a word: the offset in the
page has passed its end by less than a word, and all that is left is cleared at once. -/
theorem sysmemLoop_second_inBounds {env : Env} {pa offs : ℕ} (odd : ¬ 4 ∣ 4096 - pa % 4096)
    (place : offs = (4096 - pa % 4096).roundUp 4) (file : phdr.pFilesz.toNat ≤ offs)
    (passes : offs < phdr.pMemsz.toNat) :
    ∀ t ∈ (sysmemLoop env phdr ⟨pa / 4096 + 1, pa % 4096 + offs, offs⟩).2,
      t.InBounds size pa (phdr.pMemsz.toNat.roundUp 4) := by
  rw [roundUp_four] at place
  obtain ⟨excess, ends⟩ : ∃ excess, pa % 4096 + offs = 4096 + excess :=
    ⟨pa % 4096 + offs - 4096, by omega⟩
  have address := Nat.div_add_mod' pa 4096
  have dst : (pa / 4096 + 1) * 4096 + excess = pa + offs := by
    rw [Nat.add_one_mul]
    linarith only [address, ends]
  have second : loadPage phdr ⟨pa / 4096 + 1, 4096 + excess, offs⟩ = _ :=
    loadPage_second phdr _ (by omega) (by omega) file passes
  rw [ends]
  apply forall_sysmemLoop
  · rw [second, dst]
    refine List.forall_mem_singleton.mpr (inBounds_clear ?_)
    simp only [roundUp_four]
    omega
  · rw [second]
    intro more
    have reaches : phdr.pMemsz.toNat - offs ≤ (phdr.pMemsz.toNat - offs).roundUp 4 :=
      Nat.le_roundUp (by decide)
    dsimp only at more
    omega

theorem xrpLoadSegmentToSysmem_loop {pa : ℕ} (place : (xrpTranslateToCpu env phdr).toNat = pa) :
    xrpLoadSegmentToSysmem { env with kmap := kmap, ioremap := ioremap } phdr =
      sysmemLoop { env with kmap := kmap, ioremap := ioremap } phdr ⟨pa / 4096, pa % 4096, 0⟩ := by
  subst place
  rfl

theorem SegmentSound.sysmem (sound : SegmentSound env size phdr)
    (valid : env.pfnValid ((xrpTranslateToCpu env phdr).toNat / 4096) = true) :
    ∀ t ∈ (xrpLoadSegmentToSysmem { env with kmap := kmap, ioremap := ioremap } phdr).2,
      t.InBounds size (xrpTranslateToCpu env phdr).toNat (phdr.pMemsz.toNat.roundUp 4) := by
  obtain ⟨reads, writes, page⟩ := sound
  rw [copied, if_pos valid] at reads writes
  replace page := page valid
  generalize translated : (xrpTranslateToCpu env phdr).toNat = pa at reads writes page ⊢
  generalize length : (min (4096 - pa % 4096) phdr.pFilesz.toNat).roundUp 4 = n at reads writes
  rw [xrpLoadSegmentToSysmem_loop translated]
  apply forall_sysmemLoop (loadPage_first_inBounds length.symm reads writes)
  rw [loadPage_first phdr (pa / 4096) (Nat.mod_lt pa (by decide)) length.symm, add_assoc]
  intro (passes : n + clearedFirst phdr (4096 - pa % 4096) n < phdr.pMemsz.toNat)
  have odd : ¬ 4 ∣ 4096 - pa % 4096 := by
    intro even
    have ends := page (by omega)
    exact absurd passes (not_lt.mpr (le_add_clearedFirst (by omega) even length.symm (by omega)))
  obtain ⟨place, file⟩ := first_page_passed (by omega) odd length.symm passes
  refine sysmemLoop_second_inBounds odd place (file.trans ?_) passes
  rw [place]
  exact Nat.le_roundUp (by decide)

/-- The accesses for a sound segment are in bounds, whichever loader gets it. -/
theorem SegmentSound.loadSegment (sound : SegmentSound env size phdr) :
    ∀ t ∈ (loadSegment { env with kmap := kmap, ioremap := ioremap } phdr).2,
      t.InBounds size (xrpTranslateToCpu env phdr).toNat (phdr.pMemsz.toNat.roundUp 4) := by
  unfold Firmware.loadSegment
  split_ifs with valid
  · exact sound.sysmem valid
  · exact sound.iomem valid

/-- The system in which everything can be mapped. -/
def Env.mapped (env : Env) : Env :=
  { env with kmap := fun _ => true, ioremap := fun _ _ => true }

theorem loadSegment_mapped (env : Env) (phdr : Elf32Phdr) :
    (Firmware.loadSegment env.mapped phdr).1 = .ok () := by
  unfold Firmware.loadSegment
  split_ifs
  · exact sysmemLoop_ok fun _ => rfl
  · rfl

/-- The data is copied first. -/
theorem copy_mem_loadSegment (nonempty : 0 < phdr.pMemsz.toNat) (some : 0 < copied env phdr) :
    .copy (xrpTranslateToCpu env phdr).toNat phdr.pOffset.toNat (copied env phdr) ∈
      (Firmware.loadSegment env.mapped phdr).2 := by
  unfold Firmware.loadSegment
  have same : xrpTranslateToCpu env.mapped phdr = xrpTranslateToCpu env phdr := rfl
  have valid : env.mapped.pfnValid = env.pfnValid := rfl
  rw [same, valid]
  unfold copied at some ⊢
  dsimp only at some ⊢
  split_ifs at some ⊢ with sysmem
  · generalize translated : (xrpTranslateToCpu env phdr).toNat = pa at some ⊢
    rw [Env.mapped, xrpLoadSegmentToSysmem_loop translated]
    have file : 0 < phdr.pFilesz.toNat := by
      by_contra empty
      rw [Nat.eq_zero_of_not_pos empty, Nat.min_zero] at some
      exact absurd some (by decide)
    have first := loadPage_first phdr (pa / 4096) (Nat.mod_lt pa (by decide)) rfl
    rw [sysmemLoop_more nonempty rfl, first, if_pos file, Nat.div_add_mod']
    exact List.mem_append_left _ (List.mem_append_left _ List.mem_cons_self)
  · exact List.mem_cons_self

/-- A segment whose accesses are in bounds is sound. -/
theorem SegmentSound.of_inBounds (nonempty : 0 < phdr.pMemsz.toNat)
    (below : phdr.pOffset.toNat ≤ size)
    (bounds : ∀ t ∈ (Firmware.loadSegment env.mapped phdr).2,
      t.InBounds size (xrpTranslateToCpu env phdr).toNat (phdr.pMemsz.toNat.roundUp 4)) :
    SegmentSound env size phdr := by
  have lengths : phdr.pOffset.toNat + copied env phdr ≤ size ∧
      copied env phdr ≤ phdr.pMemsz.toNat.roundUp 4 := by
    rcases Nat.eq_zero_or_pos (copied env phdr) with none | some
    · rw [none]
      exact ⟨below, Nat.zero_le _⟩
    · exact le_of_inBounds_copy (bounds _ (copy_mem_loadSegment nonempty some)) below
  refine ⟨lengths.1, lengths.2, ?_⟩
  intro valid aligned
  by_contra passes
  obtain ⟨t, member, a, behind, covers⟩ := xrpLoadSegmentToSysmem_stray ⟨fun _ => 0, 0⟩ env.mapped
    (fun _ => rfl) aligned (not_le.mp passes)
  have loader : Firmware.loadSegment env.mapped phdr = xrpLoadSegmentToSysmem env.mapped phdr :=
    if_pos valid
  rw [loader] at bounds
  exact absurd (lt_of_inBounds (bounds t member) covers) (not_lt.mpr behind)

end Segment

/-! ## All segments -/

section All

variable {order : ByteOrder} {env : Env} {image : Image}

/-- The product is not wrapped just if it is an `int`. -/
theorem intMul_eq_iff {a b : ℕ} : intMul a b = (a * b : ℕ) ↔ a * b < 2 ^ 31 := by
  constructor
  · intro same
    have upper := (BitVec.ofNat 32 (a * b)).toInt_lt
    rw [intMul] at same
    rw [same] at upper
    exact_mod_cast upper
  · exact intMul_of_lt

/-- Where a program header is read. -/
theorem headerAt_phdrPos_iff {i : ℕ} :
    image.HeaderAt order i (phdrPos order image i) ↔
      i * image.ePhentsize order < 2 ^ 31 ∧
        image.ePhoff order + i * image.ePhentsize order + sizeofPhdr ≤ image.size := by
  have exact : phdrPos order image i = (image.ePhoff order + i * image.ePhentsize order : ℕ) ↔
      i * image.ePhentsize order < 2 ^ 31 := by
    rw [← intMul_eq_iff, phdrPos]
    omega
  rw [Image.HeaderAt, ← exact]
  refine and_congr_right fun place => ?_
  rw [place]
  omega

theorem Image.Reaches.step {i : ℕ} (reaches : image.Reaches order env i)
    (passes : loadable (image.header order i) = true →
      PassesChecks env image (image.header order i)) : image.Reaches order env (i + 1) := by
  intro j lt
  rcases Nat.lt_succ_iff_lt_or_eq.mp lt with before | rfl
  · exact reaches j before
  · exact passes

/-- The segment that is passed to a loader. -/
def loadOf (env : Env) (phdr : Elf32Phdr) : Load :=
  ⟨phdr, (xrpTranslateToCpu env phdr).toNat, (loadSegment env phdr).2⟩

/-- One round of the loop: a segment is refused, it cannot be mapped, it is loaded, or it is not to
be loaded; the loop goes on in the last two cases. -/
theorem loadSegments_succ (order : ByteOrder) (env : Env) (image : Image) (n i : ℕ) :
    let round := loadSegments order env image (n + 1) i
    let rest := loadSegments order env image n (i + 1)
    let phdr := image.header order i
    (loadable phdr = true ∧ ¬ PassesChecks env image phdr ∧
        round.headers = [phdrPos order image i] ∧ round.loads = []) ∨
      (PassesChecks env image phdr ∧ (loadSegment env phdr).1 ≠ .ok () ∧
        round.headers = [phdrPos order image i] ∧ round.loads = [loadOf env phdr]) ∨
      (PassesChecks env image phdr ∧
        round.headers = phdrPos order image i :: rest.headers ∧
        round.loads = loadOf env phdr :: rest.loads) ∨
      (¬ loadable phdr = true ∧
        round.headers = phdrPos order image i :: rest.headers ∧ round.loads = rest.loads) := by
  intro round rest phdr
  have unfolded : round = loadSegments order env image (n + 1) i := rfl
  simp only [loadSegments] at unfolded
  split_ifs at unfolded with wanted bad unmapped
  · refine .inl ⟨wanted, fun passes => passes.good bad, ?_⟩
    rw [unfolded]
    exact ⟨rfl, rfl⟩
  · refine .inl ⟨wanted, fun passes => passes.mapped unmapped, ?_⟩
    rw [unfolded]
    exact ⟨rfl, rfl⟩
  · have passes : PassesChecks env image phdr := ⟨wanted, bad, unmapped⟩
    split at unfolded
    · next failed =>
      refine .inr (.inl ⟨passes, fun success => ?_, ?_⟩)
      · cases success.symm.trans failed
      · rw [unfolded]
        exact ⟨rfl, rfl⟩
    · refine .inr (.inr (.inl ⟨passes, ?_⟩))
      rw [unfolded]
      exact ⟨rfl, rfl⟩
  · refine .inr (.inr (.inr ⟨wanted, ?_⟩))
    rw [unfolded]
    exact ⟨rfl, rfl⟩

/-- The header that a round reads, and those of the later ones. -/
theorem forall_headers_cons {place : ℕ → ℤ → Prop} {pos : ℤ} {headers : List ℤ} {i : ℕ}
    (first : place i pos) (rest : ∀ (k : ℕ) p, headers[k]? = some p → place (i + 1 + k) p) :
    ∀ (k : ℕ) p, (pos :: headers)[k]? = some p → place (i + k) p := by
  intro k p found
  cases k with
  | zero => exact Option.some.inj found ▸ first
  | succ k =>
    rw [Nat.add_comm k 1, ← Nat.add_assoc]
    exact rest k p found

/-- The accesses of the loop for a sound image. -/
theorem Image.Sound.loadSegments (sound : image.Sound order env) (kmap : ℕ → Bool)
    (ioremap : ℕ → U32 → Bool) (n i : ℕ) (inside : i + n ≤ image.ePhnum order)
    (reaches : image.Reaches order env i) :
    let report := loadSegments order { env with kmap := kmap, ioremap := ioremap } image n i
    (∀ (k : ℕ) (pos : ℤ), report.headers[k]? = some pos → image.HeaderAt order (i + k) pos) ∧
      ∀ load ∈ report.loads, load.InBounds image.size := by
  induction n generalizing i with
  | zero => simp [Firmware.loadSegments]
  | succ n ih =>
    have header : image.HeaderAt order i (phdrPos order image i) :=
      headerAt_phdrPos_iff.mpr (sound.table i (by omega) reaches)
    have only : ∀ (k : ℕ) (pos : ℤ), [phdrPos order image i][k]? = some pos →
        image.HeaderAt order (i + k) pos := forall_headers_cons header (by simp)
    have loaded (passes : PassesChecks env image (image.header order i)) :
        (loadOf { env with kmap := kmap, ioremap := ioremap }
          (image.header order i)).InBounds image.size :=
      (sound.segments i (by omega) reaches passes).loadSegment
    have rest (passes : loadable (image.header order i) = true →
        PassesChecks env image (image.header order i)) :=
      ih (i + 1) (by omega) (reaches.step passes)
    intro report
    rcases loadSegments_succ order { env with kmap := kmap, ioremap := ioremap } image n i with
      ⟨_, _, headers, loads⟩ | ⟨⟨wanted, good, mapped⟩, _, headers, loads⟩ |
      ⟨⟨wanted, good, mapped⟩, headers, loads⟩ | ⟨unwanted, headers, loads⟩
    · rw [headers, loads]
      exact ⟨only, by simp⟩
    · rw [headers, loads]
      exact ⟨only, List.forall_mem_singleton.mpr (loaded ⟨wanted, good, mapped⟩)⟩
    · have passes : PassesChecks env image (image.header order i) := ⟨wanted, good, mapped⟩
      obtain ⟨later, others⟩ := rest fun _ => passes
      rw [headers, loads]
      exact ⟨forall_headers_cons header later,
        List.forall_mem_cons.mpr ⟨loaded passes, others⟩⟩
    · obtain ⟨later, others⟩ := rest fun wanted => absurd wanted unwanted
      rw [headers, loads]
      exact ⟨forall_headers_cons header later, others⟩

/-- Where everything can be mapped, the loop goes on to every header before which no segment is
refused. -/
theorem loadSegments_mapped {n i k : ℕ} (from_i : i ≤ k) (to_n : k < i + n)
    (reaches : image.Reaches order env k) :
    (loadSegments order env.mapped image n i).headers[k - i]? = some (phdrPos order image k) ∧
      (PassesChecks env image (image.header order k) →
        loadOf env.mapped (image.header order k) ∈
          (loadSegments order env.mapped image n i).loads) := by
  induction n generalizing i with
  | zero => omega
  | succ n ih =>
    rcases Nat.eq_or_lt_of_le from_i with rfl | later
    · rw [Nat.sub_self]
      rcases loadSegments_succ order env.mapped image n i with
        ⟨_, refused, headers, _⟩ | ⟨_, failed, _, _⟩ | ⟨_, headers, loads⟩ |
        ⟨unwanted, headers, _⟩
      · rw [headers]
        exact ⟨rfl, fun passes => absurd ⟨passes.wanted, passes.good, passes.mapped⟩ refused⟩
      · exact absurd (loadSegment_mapped env _) failed
      · rw [headers, loads]
        exact ⟨rfl, fun _ => List.mem_cons_self⟩
      · rw [headers]
        exact ⟨rfl, fun passes => absurd passes.wanted unwanted⟩
    · have next := ih (i := i + 1) later (by omega)
      have index : k - i = k - (i + 1) + 1 := by omega
      rw [index]
      have passes := reaches i later
      rcases loadSegments_succ order env.mapped image n i with
        ⟨wanted, refused, _, _⟩ | ⟨_, failed, _, _⟩ | ⟨_, headers, loads⟩ |
        ⟨_, headers, loads⟩
      · have passed := passes wanted
        exact absurd ⟨passed.wanted, passed.good, passed.mapped⟩ refused
      · exact absurd (loadSegment_mapped env _) failed
      · rw [headers, loads]
        exact ⟨next.1, fun passes => List.mem_cons_of_mem _ (next.2 passes)⟩
      · rw [headers, loads]
        exact next

/-- An image is sound just if the accesses of the loop are in bounds, whatever can be mapped. -/
theorem loadSegments_inBounds_iff :
    (∀ kmap ioremap, (loadSegments order { env with kmap := kmap, ioremap := ioremap } image
      (image.ePhnum order) 0).InBounds order image) ↔ image.Sound order env := by
  constructor
  · intro bounds
    obtain ⟨headers, loads⟩ := bounds (fun _ => true) fun _ _ => true
    refine ⟨fun i inside reaches => ?_, fun i inside reaches passes => ?_⟩
    · obtain ⟨header, _⟩ := loadSegments_mapped (Nat.zero_le i)
        (inside.trans_eq (Nat.zero_add _).symm) reaches
      exact headerAt_phdrPos_iff.mp (headers i _ header)
    · obtain ⟨_, load⟩ := loadSegments_mapped (Nat.zero_le i)
        (inside.trans_eq (Nat.zero_add _).symm) reaches
      have good := passes.good
      have wanted := passes.wanted
      rw [segmentBad, ne_eq, Bool.or_eq_true, decide_eq_true_eq, decide_eq_true_eq] at good
      rw [loadable, Bool.and_eq_true, decide_eq_true_eq] at wanted
      have positive := BitVec.lt_def.mp wanted.2
      exact .of_inBounds positive (by omega) (loads _ (load passes))
  · intro sound kmap ioremap
    obtain ⟨headers, loads⟩ := sound.loadSegments kmap ioremap (image.ePhnum order) 0
      (Nat.zero_add _).le fun j lt => absurd lt (Nat.not_lt_zero j)
    refine ⟨fun i pos found => ?_, loads⟩
    have place := headers i pos found
    rwa [Nat.zero_add] at place

/-! ## The whole firmware -/

/-- The checks of the ELF header. -/
structure Image.Accepted (order : ByteOrder) (image : Image) : Prop where
  magic : ¬ (image.data 0 ≠ 0x7f ∨ image.data 1 ≠ 0x45 ∨ image.data 2 ≠ 0x4c ∨ image.data 3 ≠ 0x46)
  type : image.eType order = 2
  machine : image.eMachine order = 94
  table : ¬ (image.ePhoff order ≥ image.size ∨
    (image.ePhoff order + image.ePhentsize order * image.ePhnum order) % 2 ^ 32 > image.size)

/-- The fixup of the symbol, and the image after it. -/
def fixup (order : ByteOrder) (env : Env) (image : Image) (fuel : ℕ) :
    Option (Except LookupErrno Unit × Image) :=
  xrpFirmwareFixupSymbol order image fuel commBaseName
    (xrpTranslateToDsp env.addressMap env.commPhys)

/-- `xrp_load_firmware` stays in bounds whenever it returns, whatever can be mapped. The headers are
those of the image after the fixup of the symbol. -/
def LoadsInBounds (order : ByteOrder) (env : Env) (image : Image) : Prop :=
  ∀ kmap ioremap fuel report result fixed,
    xrpLoadFirmware order { env with kmap := kmap, ioremap := ioremap } image fuel = some report →
    fixup order env image fuel = some (result, fixed) → report.InBounds order fixed

theorem xrpLoadFirmware_accepted {fuel : ℕ} (accepted : image.Accepted order) :
    xrpLoadFirmware order env image fuel =
      (fixup order env image fuel).map fun fixed =>
        loadSegments order env fixed.2 (fixed.2.ePhnum order) 0 := by
  rw [xrpLoadFirmware, if_neg accepted.magic, if_neg (not_not.mpr accepted.type),
    if_neg (not_not.mpr accepted.machine), if_neg accepted.table, fixup]

theorem xrpLoadFirmware_refused {fuel : ℕ} (refused : ¬ image.Accepted order) :
    xrpLoadFirmware order env image fuel = some (.failed .einval) := by
  unfold xrpLoadFirmware
  split_ifs with magic type machine table
  · rfl
  · rfl
  · rfl
  · rfl
  · exact absurd ⟨magic, not_not.mp type, not_not.mp machine, table⟩ refused

theorem loadsInBounds_iff_fixed :
    LoadsInBounds order env image ↔ (image.Accepted order → ∀ fuel result fixed,
      fixup order env image fuel = some (result, fixed) → fixed.Sound order env) := by
  by_cases accepted : image.Accepted order
  · simp only [LoadsInBounds, accepted, true_imp_iff, ← loadSegments_inBounds_iff]
    constructor
    · intro bounds fuel result fixed fixed_up kmap ioremap
      refine bounds kmap ioremap fuel _ result fixed ?_ fixed_up
      have same : fixup order { env with kmap := kmap, ioremap := ioremap } image fuel =
          some (result, fixed) := fixed_up
      rw [xrpLoadFirmware_accepted accepted, same]
      rfl
    · intro sound kmap ioremap fuel report result fixed loaded fixed_up
      have same : fixup order { env with kmap := kmap, ioremap := ioremap } image fuel =
          some (result, fixed) := fixed_up
      rw [xrpLoadFirmware_accepted accepted, same] at loaded
      cases loaded
      exact sound fuel result fixed fixed_up kmap ioremap
  · refine iff_of_true ?_ fun accepts => absurd accepts accepted
    intro kmap ioremap fuel report result fixed loaded _
    rw [xrpLoadFirmware_refused accepted] at loaded
    cases loaded
    exact ⟨by simp [Report.failed], by simp [Report.failed]⟩

/-! ## The presented image -/

/-- The word that the fixup writes meets neither the ELF header nor a program header. -/
def Image.FixupApart (order : ByteOrder) (image : Image) : Prop :=
  ∀ (fuel : ℕ) (pos : ℤ),
    xrpFirmwareFindSymbol order image fuel commBaseName = some (.ok (pos, 4)) →
      52 ≤ pos ∧ ∀ i < image.ePhnum order,
        pos + 4 ≤ phdrPos order image i ∨ phdrPos order image i + sizeofPhdr ≤ pos

/-- Images with the same size and the same program headers. -/
structure SameHeaders (order : ByteOrder) (image other : Image) : Prop where
  size : other.size = image.size
  phoff : other.ePhoff order = image.ePhoff order
  phentsize : other.ePhentsize order = image.ePhentsize order
  phnum : other.ePhnum order = image.ePhnum order
  headers : ∀ i < image.ePhnum order, other.header order i = image.header order i

section Patch

variable {other : Image} {pos q : ℤ} {v : U32}

theorem data_patch_of_ne (apart : q < pos ∨ pos + 4 ≤ q) :
    (image.patch order pos v).data q = image.data q := if_neg (by omega)

theorem half_patch_of_apart (apart : q + 2 ≤ pos ∨ pos + 4 ≤ q) :
    (image.patch order pos v).half order q = image.half order q := by
  have first : (image.patch order pos v).data q = image.data q := data_patch_of_ne (by omega)
  have second : (image.patch order pos v).data (q + 1) = image.data (q + 1) :=
    data_patch_of_ne (by omega)
  cases order <;> simp only [Image.half, first, second]

theorem word_patch_of_apart (apart : q + 4 ≤ pos ∨ pos + 4 ≤ q) :
    (image.patch order pos v).word order q = image.word order q := by
  have bytes (i : Fin 4) :
      (image.patch order pos v).data (q + (i : ℕ)) = image.data (q + (i : ℕ)) :=
    data_patch_of_ne (by omega)
  simp only [Image.word, bytes]

theorem phdr_patch_of_apart (apart : pos + 4 ≤ q ∨ q + 32 ≤ pos) :
    (image.patch order pos v).phdr order q = image.phdr order q := by
  have field (k : ℤ) (inside : 0 ≤ k ∧ k + 4 ≤ 32) :
      (image.patch order pos v).word order (q + k) = image.word order (q + k) :=
    word_patch_of_apart (by omega)
  have first := field 0 (by omega)
  rw [add_zero] at first
  rw [Image.phdr, first, field 4 (by omega), field 12 (by omega), field 16 (by omega),
    field 20 (by omega), field 24 (by omega), Image.phdr]

theorem sameHeaders_patch (behind : 52 ≤ pos)
    (apart : ∀ i < image.ePhnum order,
      pos + 4 ≤ phdrPos order image i ∨ phdrPos order image i + sizeofPhdr ≤ pos) :
    SameHeaders order image (image.patch order pos v) := by
  have phoff : (image.patch order pos v).ePhoff order = image.ePhoff order :=
    congrArg BitVec.toNat (word_patch_of_apart (by omega))
  have phentsize : (image.patch order pos v).ePhentsize order = image.ePhentsize order :=
    congrArg BitVec.toNat (half_patch_of_apart (by omega))
  refine ⟨rfl, phoff, phentsize, congrArg BitVec.toNat (half_patch_of_apart (by omega)), ?_⟩
  intro i inside
  rw [Image.header, phdrPos, phoff, phentsize]
  exact phdr_patch_of_apart (apart i inside)

theorem SameHeaders.refl : SameHeaders order image image := ⟨rfl, rfl, rfl, rfl, fun _ _ => rfl⟩

theorem SameHeaders.symm (same : SameHeaders order image other) :
    SameHeaders order other image where
  size := same.size.symm
  phoff := same.phoff.symm
  phentsize := same.phentsize.symm
  phnum := same.phnum.symm
  headers i inside := (same.headers i (inside.trans_eq same.phnum)).symm

theorem SameHeaders.passesChecks {phdr : Elf32Phdr} (same : SameHeaders order image other)
    (passes : PassesChecks env image phdr) : PassesChecks env other phdr where
  wanted := passes.wanted
  good := by
    rw [segmentBad, same.size]
    exact passes.good
  mapped := passes.mapped

theorem SameHeaders.reaches {i : ℕ} (same : SameHeaders order image other)
    (inside : i ≤ image.ePhnum order) (reaches : image.Reaches order env i) :
    other.Reaches order env i := by
  intro j lt wanted
  rw [same.headers j (lt.trans_le inside)] at wanted ⊢
  exact same.passesChecks (reaches j lt wanted)

theorem SameHeaders.sound (same : SameHeaders order image other) (sound : image.Sound order env) :
    other.Sound order env := by
  refine ⟨fun i inside reaches => ?_, fun i inside reaches passes => ?_⟩
  · rw [same.phnum] at inside
    rw [same.phoff, same.phentsize, same.size]
    exact sound.table i inside (same.symm.reaches (inside.le.trans_eq same.phnum.symm) reaches)
  · have back := same.symm.reaches inside.le reaches
    rw [same.phnum] at inside
    have passed := same.symm.passesChecks passes
    rw [same.headers i inside] at passed ⊢
    rw [same.size]
    exact sound.segments i inside back passed

end Patch

theorem Image.FixupApart.sameHeaders {fuel : ℕ} {result : Except LookupErrno Unit} {fixed : Image}
    (apart : image.FixupApart order)
    (fixed_up : fixup order env image fuel = some (result, fixed)) :
    SameHeaders order image fixed := by
  obtain ⟨found, search, step⟩ := Option.map_eq_some_iff.mp fixed_up
  cases found with
  | error e =>
    cases step
    exact .refl
  | ok place =>
    obtain ⟨pos, size⟩ := place
    simp only at step
    split_ifs at step with other
    · cases step
      exact .refl
    · cases step
      obtain ⟨behind, headers⟩ := apart fuel pos (not_not.mp other ▸ search)
      exact sameHeaders_patch behind headers

/-- **When firmware is loaded in bounds**: just if the image with the symbol set is sound, unless it
is refused before. If the word of the symbol meets no header that is just if the presented image is
sound. -/
theorem loadsInBounds_iff :
    (LoadsInBounds order env image ↔ (image.Accepted order → ∀ fuel result fixed,
      fixup order env image fuel = some (result, fixed) → fixed.Sound order env)) ∧
    (image.FixupApart order →
      (LoadsInBounds order env image ↔ (image.Accepted order →
        (∃ fuel, (fixup order env image fuel).isSome) → image.Sound order env))) := by
  refine ⟨loadsInBounds_iff_fixed, fun apart => loadsInBounds_iff_fixed.trans ?_⟩
  refine imp_congr_right fun _ => ⟨?_, ?_⟩
  · rintro sound ⟨fuel, returns⟩
    obtain ⟨⟨result, fixed⟩, fixed_up⟩ := Option.isSome_iff_exists.mp returns
    exact (apart.sameHeaders fixed_up).symm.sound (sound fuel result fixed fixed_up)
  · intro sound fuel result fixed fixed_up
    have returns := sound ⟨fuel, Option.isSome_iff_exists.mpr ⟨_, fixed_up⟩⟩
    exact (apart.sameHeaders fixed_up).sound returns

/-- An ELF header without sections. -/
def elfHeader (phoff phentsize phnum : U8) : List U8 :=
  [0x7f, 0x45, 0x4c, 0x46, 0, 0, 0, 0, 0, 0, 0, 0, 0, 0, 0, 0, 2, 0, 94, 0, 0, 0, 0, 0, 0, 0, 0, 0,
    phoff, 0, 0, 0, 0, 0, 0, 0, 0, 0, 0, 0, 0, 0, phentsize, 0, phnum, 0, 0, 0, 0, 0, 0, 0]

/-- A program header of a loadable segment at the beginning of the image. -/
def elfSegment (filesz memsz : U8) : List U8 :=
  [1, 0, 0, 0, 0, 0, 0, 0, 0, 0, 0, 0, 0, 0, 0, 0, filesz, 0, 0, 0, memsz, 0, 0, 0, 7, 0, 0, 0,
    0, 0, 0, 0]

/-- An image with one segment. -/
def elfImage (filesz memsz : U8) : Image := imageOf (elfHeader 52 32 1 ++ elfSegment filesz memsz)

/-- How it is loaded to I/O memory, with the given copy and clear. -/
def elfReport (filesz memsz : U32) (transfers : List Transfer) : Report :=
  ⟨.ok (), [52], [⟨segment filesz memsz, 0x1000, transfers⟩]⟩

theorem Image.sound_of_one (one : image.ePhnum order = 1)
    (inside : image.ePhoff order + sizeofPhdr ≤ image.size)
    (sound : SegmentSound env image.size (image.header order 0)) : image.Sound order env := by
  constructor
  · intro i lt _
    obtain rfl : i = 0 := by omega
    rw [Nat.zero_mul]
    exact ⟨by decide, inside⟩
  · intro i lt _ _
    obtain rfl : i = 0 := by omega
    exact sound

/-- A segment with file data and zeros behind it, and one whose file data is larger than the segment
but not than its last word. -/
theorem loadsInBounds_iff_segments :
    LoadsInBounds .little (loadsAt 0x1000 false) (elfImage 4 8) ∧
      LoadsInBounds .little (loadsAt 0x1000 false) (elfImage 3 1) := by
  constructor
  · have header : (elfImage 4 8).header .little 0 = segment 4 8 := rfl
    have sound : (elfImage 4 8).Sound .little (loadsAt 0x1000 false) := by
      refine Image.sound_of_one rfl (by decide) ?_
      rw [header]
      exact ⟨by decide, by decide, by simp [loadsAt]⟩
    have apart : (elfImage 4 8).FixupApart .little := fun _ _ found => by cases found
    exact (loadsInBounds_iff.2 apart).mpr fun _ _ => sound
  · have header : (elfImage 3 1).header .little 0 = segment 3 1 := rfl
    have sound : (elfImage 3 1).Sound .little (loadsAt 0x1000 false) := by
      refine Image.sound_of_one rfl (by decide) ?_
      rw [header]
      exact ⟨by decide, by decide, by simp [loadsAt]⟩
    have apart : (elfImage 3 1).FixupApart .little := fun _ _ found => by cases found
    exact (loadsInBounds_iff.2 apart).mpr fun _ _ => sound

/-- (a) The entries have size 0 and the table begins at the last byte: the one header ends behind
the image. (b) The file data is larger than the segment: it is written behind the segment. -/
theorem xrpLoadFirmware_not_inBounds :
    (xrpLoadFirmware .little (loadsAt 0x1000 false) (imageOf (elfHeader 52 0 1 ++ [0])) 0 =
        some ⟨.ok (), [52], []⟩ ∧
      ¬ LoadsInBounds .little (loadsAt 0x1000 false) (imageOf (elfHeader 52 0 1 ++ [0]))) ∧
    (xrpLoadFirmware .little (loadsAt 0x1000 false) (elfImage 8 4) 0 =
        some (elfReport 8 4 [.copy 0x1000 0 8, .clear 0x1008 0xfffffffc]) ∧
      ¬ LoadsInBounds .little (loadsAt 0x1000 false) (elfImage 8 4)) := by
  refine ⟨⟨rfl, ?_⟩, rfl, ?_⟩
  · intro inBounds
    have bounds := inBounds (fun _ => true) (fun _ _ => true) 0 _ _ _ rfl rfl
    exact absurd (bounds.headers 0 52 rfl).2 (by decide)
  · intro inBounds
    have bounds := inBounds (fun _ => true) (fun _ _ => true) 0 _ _ _ rfl rfl
    have inside := bounds.loads _ List.mem_cons_self _ List.mem_cons_self 4 (by decide)
    exact absurd inside.2.2 (by decide)

end All

end Xrp.Kernel.Firmware
