import Xrp.Kernel.FirmwareBounds
import Xrp.Kernel.FirmwareSymbol

/-!
# The firmware in memory

What `xrp_load_firmware` leaves in memory when it succeeds, all segments together.
A segment is tidy if none of the limits of the two loaders matters for it. Where all
segments are tidy and no two of them meet, each of them is as the ELF format wants
it, and the rest of memory is as before. In particular the variable
`xrp_dsp_comm_base` of the firmware holds the address at which the DSP finds the comm
area.
-/

namespace Xrp.Kernel.Firmware

/-- Program header `i`. -/
def Image.segmentAt (order : ByteOrder) (image : Image) (i : ℕ) : Elf32Phdr :=
  image.phdr order (phdrPos order image i)

/-- The physical address of a segment. -/
def target (env : Env) (phdr : Elf32Phdr) : ℕ := (xrpTranslateToCpu env phdr).toNat

/-- The address belongs to the words of the segment. -/
def Occupies (env : Env) (phdr : Elf32Phdr) (a : ℕ) : Prop :=
  target env phdr ≤ a ∧ a < target env phdr + phdr.pMemsz.toNat.roundUp 4

/-- Physical memory after the loads of a report. -/
def Report.memory (image : Image) (report : Report) (memory : ℕ → U8) : ℕ → U8 :=
  report.loads.foldl (fun memory load => transferred image load.transfers memory) memory

/-- Both loaders leave the segment as the ELF format wants it. -/
structure SegmentTidy (env : Env) (image : Image) (phdr : Elf32Phdr) : Prop where
  fits : phdr.pFilesz ≤ phdr.pMemsz
  file : phdr.pFilesz.toNat + 3 < 2 ^ 32
  bss : phdr.pFilesz.toNat = 0 → phdr.pMemsz.toNat + 3 < 2 ^ 32
  padded : ZeroPadded image phdr
  page : env.pfnValid (target env phdr / 4096) = true →
    target env phdr % 4096 + phdr.pMemsz.toNat ≤ 4096

/-- The segments of the image are tidy, and no two of them meet. -/
structure Image.Tidy (order : ByteOrder) (env : Env) (image : Image) : Prop where
  segments : ∀ i < image.ePhnum order, loadable (image.segmentAt order i) = true →
    SegmentTidy env image (image.segmentAt order i)
  apart : ∀ i < image.ePhnum order, ∀ j < image.ePhnum order, i ≠ j →
    loadable (image.segmentAt order i) = true → loadable (image.segmentAt order j) = true →
    ∀ a, Occupies env (image.segmentAt order i) a → ¬ Occupies env (image.segmentAt order j) a

/-- The memory holds all segments as the ELF format wants them, and nothing else is changed. -/
structure HoldsFirmware (order : ByteOrder) (env : Env) (image : Image) (memory memory' : ℕ → U8) :
    Prop where
  data : ∀ i < image.ePhnum order, loadable (image.segmentAt order i) = true →
    ∀ k < (image.segmentAt order i).pFilesz.toNat,
      memory' (target env (image.segmentAt order i) + k) =
        image.data ((image.segmentAt order i).pOffset.toNat + k)
  zeros : ∀ i < image.ePhnum order, loadable (image.segmentAt order i) = true →
    ∀ k, (image.segmentAt order i).pFilesz.toNat ≤ k →
      k < (image.segmentAt order i).pMemsz.toNat →
      memory' (target env (image.segmentAt order i) + k) = 0
  frame : ∀ a, (∀ i < image.ePhnum order, loadable (image.segmentAt order i) = true →
    ¬ Occupies env (image.segmentAt order i) a) → memory' a = memory a

variable {order : ByteOrder} {env : Env} {image : Image} {phdr : Elf32Phdr}

/-! ## One segment -/

/-- Where it is occupied, memory after a load does not depend on memory before it. -/
theorem placed_congr {a : ℕ} (memory memory' : ℕ → U8) (occupied : Occupies env phdr a) :
    placed image phdr (target env phdr) memory a =
      placed image phdr (target env phdr) memory' a := by
  unfold placed
  rw [if_pos (c := target env phdr ≤ a ∧ a < target env phdr + phdr.pMemsz.toNat.roundUp 4)
    occupied, if_pos (c := target env phdr ≤ a ∧ a < target env phdr + phdr.pMemsz.toNat.roundUp 4)
    occupied]

/-- A load that succeeds puts a tidy segment in its place. -/
theorem SegmentTidy.loadSegment (tidy : SegmentTidy env image phdr)
    (success : (loadSegment env phdr).1 = .ok ()) (memory : ℕ → U8) :
    transferred image (loadSegment env phdr).2 memory =
      placed image phdr (target env phdr) memory := by
  unfold Firmware.loadSegment at success ⊢
  split_ifs at success ⊢ with valid
  · obtain loaded | failed := xrpLoadSegmentToSysmem_onePage tidy.fits (tidy.page valid)
    · rw [loaded]
      exact transferred_onePage memory tidy.fits
    · rw [failed] at success
      cases success
  · rw [xrpLoadSegmentToIomem_ok success]
    exact transferred_iomem memory tidy.fits tidy.file tidy.bss

/-! ## All segments -/

/-- The memory with the segments from number `i` on in their places, `n` headers in all. -/
def placeSegments (order : ByteOrder) (env : Env) (image : Image) :
    ℕ → ℕ → (ℕ → U8) → ℕ → U8
  | 0, _, memory => memory
  | n + 1, i, memory =>
    let phdr := image.segmentAt order i
    placeSegments order env image n (i + 1)
      (if loadable phdr then placed image phdr (target env phdr) memory else memory)

/-- The loop of `xrp_load_firmware` puts the segments in their places, one after another. -/
theorem memory_loadSegments {n i : ℕ}
    (tidy : ∀ k, i ≤ k → k < i + n → loadable (image.segmentAt order k) = true →
      SegmentTidy env image (image.segmentAt order k))
    (success : (loadSegments order env image n i).result = .ok ()) (memory : ℕ → U8) :
    (loadSegments order env image n i).memory image memory =
      placeSegments order env image n i memory := by
  induction n generalizing i memory with
  | zero => rfl
  | succ n ih =>
    have later : ∀ k, i + 1 ≤ k → k < i + 1 + n → loadable (image.segmentAt order k) = true →
        SegmentTidy env image (image.segmentAt order k) :=
      fun k from' upto => tidy k (by omega) (by omega)
    simp only [loadSegments] at success ⊢
    split_ifs at success ⊢ with wanted
    · have here : loadable (image.segmentAt order i) = true := wanted
      cases loaded : (loadSegment env (image.segmentAt order i)).1 with
      | error e =>
        have failed : (loadSegment env (image.phdr order (phdrPos order image i))).1 = .error e :=
          loaded
        rw [failed] at success
        cases success
      | ok _ =>
        have done : (loadSegment env (image.phdr order (phdrPos order image i))).1 = .ok () :=
          loaded
        rw [done] at success ⊢
        have first := (tidy i le_rfl (by omega) here).loadSegment loaded memory
        rw [placeSegments, if_pos here, ← first]
        exact ih later success _
    · have skipped : ¬ loadable (image.segmentAt order i) = true := wanted
      rw [placeSegments, if_neg skipped]
      exact ih later success memory

/-- What no segment occupies is left alone. -/
theorem placeSegments_of_free {n i a : ℕ} (memory : ℕ → U8)
    (fits : ∀ k, i ≤ k → k < i + n → loadable (image.segmentAt order k) = true →
      (image.segmentAt order k).pFilesz ≤ (image.segmentAt order k).pMemsz)
    (free : ∀ k, i ≤ k → k < i + n → loadable (image.segmentAt order k) = true →
      ¬ Occupies env (image.segmentAt order k) a) :
    placeSegments order env image n i memory a = memory a := by
  induction n generalizing i memory with
  | zero => rfl
  | succ n ih =>
    rw [placeSegments, ih _ (fun k from' upto => fits k (by omega) (by omega))
      fun k from' upto => free k (by omega) (by omega)]
    split_ifs with wanted
    · exact placed_of_outside memory (fits i le_rfl (by omega) wanted)
        (free i le_rfl (by omega) wanted)
    · rfl

/-- What a segment occupies, and no later one, holds that segment. -/
theorem placeSegments_of_occupied {n i j a : ℕ} (memory : ℕ → U8)
    (fits : ∀ k, i ≤ k → k < i + n → loadable (image.segmentAt order k) = true →
      (image.segmentAt order k).pFilesz ≤ (image.segmentAt order k).pMemsz)
    (from' : i ≤ j) (upto : j < i + n) (wanted : loadable (image.segmentAt order j) = true)
    (occupied : Occupies env (image.segmentAt order j) a)
    (apart : ∀ k, j < k → k < i + n → loadable (image.segmentAt order k) = true →
      ¬ Occupies env (image.segmentAt order k) a) :
    placeSegments order env image n i memory a =
      placed image (image.segmentAt order j) (target env (image.segmentAt order j)) memory a := by
  induction n generalizing i memory with
  | zero => omega
  | succ n ih =>
    rw [placeSegments]
    by_cases here : i = j
    · subst here
      rw [if_pos wanted, placeSegments_of_free _ (fun k from' upto => fits k (by omega) (by omega))
        fun k from' upto => apart k (by omega) (by omega)]
    · rw [ih _ (fun k from' upto => fits k (by omega) (by omega)) (by omega) (by omega)
        fun k later upto => apart k later (by omega)]
      exact placed_congr _ _ occupied

/-- Tidy segments that do not meet are all in memory in the end. -/
theorem Image.Tidy.holdsFirmware (tidy : image.Tidy order env) (memory : ℕ → U8) :
    HoldsFirmware order env image memory
      (placeSegments order env image (image.ePhnum order) 0 memory) := by
  have fits : ∀ k, 0 ≤ k → k < 0 + image.ePhnum order →
      loadable (image.segmentAt order k) = true →
      (image.segmentAt order k).pFilesz ≤ (image.segmentAt order k).pMemsz :=
    fun k _ upto wanted => (tidy.segments k (by omega) wanted).fits
  have holds {i a : ℕ} (inside : i < image.ePhnum order)
      (wanted : loadable (image.segmentAt order i) = true)
      (occupied : Occupies env (image.segmentAt order i) a) :
      placeSegments order env image (image.ePhnum order) 0 memory a =
        placed image (image.segmentAt order i) (target env (image.segmentAt order i)) memory a :=
    placeSegments_of_occupied memory fits (Nat.zero_le i) (by omega) wanted occupied
      fun k later upto other =>
        tidy.apart i inside k (by omega) (by omega) wanted other a occupied
  constructor
  · intro i inside wanted k within
    have here := tidy.segments i inside wanted
    have le : (image.segmentAt order i).pFilesz.toNat ≤ (image.segmentAt order i).pMemsz.toNat :=
      here.fits
    rw [holds inside wanted ⟨by omega, by rw [roundUp_four]; omega⟩]
    exact (followsElf_placed memory here.fits here.padded).data k within
  · intro i inside wanted k behind within
    have here := tidy.segments i inside wanted
    rw [holds inside wanted ⟨by omega, by rw [roundUp_four]; omega⟩]
    exact (followsElf_placed memory here.fits here.padded).zeros k behind within
  · intro a free
    exact placeSegments_of_free memory fits fun k _ upto wanted => free k (by omega) wanted

/-! ## The whole firmware -/

section Whole

variable {fuel : ℕ} {report : Report} {result : Except LookupErrno Unit} {fixed : Image}

/-- `xrp_load_firmware` succeeds only in its loop. -/
theorem xrpLoadFirmware_ok (loaded : xrpLoadFirmware order env image fuel = some report)
    (success : report.result = .ok ())
    (fixup : xrpFirmwareFixupSymbol order image fuel commBaseName
      (xrpTranslateToDsp env.addressMap env.commPhys) = some (result, fixed)) :
    report = loadSegments order env fixed (fixed.ePhnum order) 0 := by
  have failed (e : Errno) : (Report.failed e).result ≠ .ok () := nofun
  unfold xrpLoadFirmware at loaded
  split_ifs at loaded
  · cases loaded
    exact absurd success (failed _)
  · cases loaded
    exact absurd success (failed _)
  · cases loaded
    exact absurd success (failed _)
  · cases loaded
    exact absurd success (failed _)
  · rw [fixup] at loaded
    exact (Option.some_inj.mp loaded).symm

/-- After a success the tidy segments are in their places. -/
theorem memory_xrpLoadFirmware
    (fixup : xrpFirmwareFixupSymbol order image fuel commBaseName
      (xrpTranslateToDsp env.addressMap env.commPhys) = some (result, fixed))
    (tidy : fixed.Tidy order env)
    (loaded : xrpLoadFirmware order env image fuel = some report)
    (success : report.result = .ok ()) (memory : ℕ → U8) :
    report.memory fixed memory =
      placeSegments order env fixed (fixed.ePhnum order) 0 memory := by
  have loop := xrpLoadFirmware_ok loaded success fixup
  rw [loop] at success ⊢
  exact memory_loadSegments (fun k _ upto => tidy.segments k (by omega)) success memory

/-- **The firmware is in memory** after it was loaded, if the segments of the image, after the
fixup of the symbol, are tidy and do not meet. -/
theorem xrpLoadFirmware_holdsFirmware
    (fixup : xrpFirmwareFixupSymbol order image fuel commBaseName
      (xrpTranslateToDsp env.addressMap env.commPhys) = some (result, fixed))
    (tidy : fixed.Tidy order env)
    (loaded : xrpLoadFirmware order env image fuel = some report)
    (success : report.result = .ok ()) (memory : ℕ → U8) :
    HoldsFirmware order env fixed memory (report.memory fixed memory) := by
  rw [memory_xrpLoadFirmware fixup tidy loaded success memory]
  exact tidy.holdsFirmware memory

/-- The section is part of the file data of the segment, and as far from its beginning in the
memory of the DSP as in the image. -/
structure Carries (phdr : Elf32Phdr) (shdr : Elf32Shdr) : Prop where
  start : phdr.pOffset.toNat ≤ shdr.shOffset.toNat
  stop : shdr.shOffset.toNat + shdr.shSize.toNat ≤ phdr.pOffset.toNat + phdr.pFilesz.toNat
  distance : shdr.shAddr.toNat + phdr.pOffset.toNat = phdr.pPaddr.toNat + shdr.shOffset.toNat

/-- A word of physical memory. -/
def memoryWord (order : ByteOrder) (memory : ℕ → U8) (a : ℕ) : U32 :=
  order.word fun i => memory (a + (i : ℕ))

/-- The image with the address that the comm area has for the DSP at a position. -/
def Image.withCommBase (order : ByteOrder) (env : Env) (image : Image) (pos : ℤ) : Image :=
  image.patch order pos (xrpTranslateToDsp env.addressMap env.commPhys)

theorem xrpFirmwareFixupSymbol_found {pos : ℤ}
    (found : xrpFirmwareFindSymbol order image fuel commBaseName = some (.ok (pos, 4))) :
    xrpFirmwareFixupSymbol order image fuel commBaseName
      (xrpTranslateToDsp env.addressMap env.commPhys) =
      some (.ok (), image.withCommBase order env pos) := by
  rw [xrpFirmwareFixupSymbol, found, Image.withCommBase]
  simp only [Option.map_some, ne_eq, not_true_eq_false, if_false, BitVec.setWidth_eq]

/-- **The DSP finds the comm area**: when the firmware was loaded, its variable
`xrp_dsp_comm_base` holds the address that the comm area has for the DSP. -/
theorem xrpLoadFirmware_commBase {esym : Elf32Sym} {pos : ℤ} {i : ℕ}
    (found : xrpFirmwareFindSymbol order image fuel commBaseName =
      some (symbolPlace order image esym))
    (place : symbolPlace order image esym = .ok (pos, 4))
    (tidy : (image.withCommBase order env pos).Tidy order env)
    (loaded : xrpLoadFirmware order env image fuel = some report)
    (success : report.result = .ok ())
    (inside : i < (image.withCommBase order env pos).ePhnum order)
    (wanted : loadable ((image.withCommBase order env pos).segmentAt order i) = true)
    (carries : Carries ((image.withCommBase order env pos).segmentAt order i)
      (symbolSection order image esym)) (memory : ℕ → U8) :
    memoryWord order (report.memory (image.withCommBase order env pos) memory)
        (target env ((image.withCommBase order env pos).segmentAt order i) +
          (esym.stValue.toNat -
            ((image.withCommBase order env pos).segmentAt order i).pPaddr.toNat)) =
      xrpTranslateToDsp env.addressMap env.commPhys := by
  rw [place] at found
  rw [memory_xrpLoadFirmware (xrpFirmwareFixupSymbol_found found) tidy loaded success memory]
  have holds := tidy.holdsFirmware memory
  obtain ⟨-, -, ⟨above, below⟩, at_pos, size⟩ := symbolPlace_ok_iff.mp place
  obtain ⟨start, stop, distance⟩ := carries
  -- the position is an offset from the beginning of the image
  obtain ⟨n, rfl⟩ : ∃ n : ℕ, pos = n := ⟨pos.toNat, by omega⟩
  have width : esym.stSize.toNat = 4 := congrArg BitVec.toNat size.symm
  have word : (image.withCommBase order env n).word order n =
      xrpTranslateToDsp env.addressMap env.commPhys := (patched_patch n _).word
  refine Eq.trans (congrArg order.word (funext fun b => ?_)) word
  rw [Nat.add_assoc, holds.data i inside wanted _ (by omega)]
  exact congrArg _ (by omega)

/-- An image with a segment of two words, of which the file has the first, and with the symbol
`xrp_dsp_comm_base` for it. -/
def commBaseImage : Image :=
  imageOf (ByteOrder.little.bytes
    ([0x464c457f, 0, 0, 0, 0x005e0002, 0, 0, 52, 84, 0, 0x00200000, 0x00280001, 4] ++
      [ptLoad, 244, 0x1000, 0x1000, 4, 8, pfAccess, 0] ++
      sectionHeader 0 0 0 0 0 0 ++ sectionHeader 1 0x1000 244 4 0 0 ++
      sectionHeader shtSymtab 0 248 16 3 16 ++ sectionHeader shtStrtab 0 264 20 0 0 ++
      [0x20202020] ++ [1, 0x1000, 4, 0x00010001] ++
      [0x70727800, 0x7073645f, 0x6d6f635f, 0x61625f6d, 0x00006573]))

/-- A system in which the comm area is at different addresses for host and DSP. -/
def commBaseEnv : Env :=
  ⟨fun a => a.setWidth 64, fun _ => false, fun _ => true, fun _ _ => true,
    [⟨0xf0000000, 0x60000000, 0x1000⟩], 0xf0000000⟩

/-- The image after the fixup. -/
def commBaseFixed : Image := commBaseImage.withCommBase .little commBaseEnv 244

/-- Its symbol. -/
def commBaseSym : Elf32Sym := ⟨1, 0x1000, 4, 1, 1⟩

theorem commBaseFixed_tidy : commBaseFixed.Tidy .little commBaseEnv := by
  have header : commBaseFixed.segmentAt .little 0 = ⟨ptLoad, 244, 0x1000, 4, 8, pfAccess⟩ := by
    decide +kernel
  have count : commBaseFixed.ePhnum .little = 1 := by decide +kernel
  constructor
  · intro i inside _
    obtain rfl : i = 0 := by omega
    rw [header]
    refine ⟨by decide, by decide, by decide, ?_, by simp [commBaseEnv]⟩
    intro k behind before
    have : (4 : U32).toNat ≤ k ∧ k < Nat.roundUp (4 : U32).toNat 4 := ⟨behind, before⟩
    exact absurd this (by simp [Nat.roundUp])
  · intro i inside j inside' apart
    omega

theorem commBase_found :
    xrpFirmwareFindSymbol .little commBaseImage 1 commBaseName = some (.ok (244, 4)) ∧
      symbolPlace .little commBaseImage commBaseSym = .ok (244, 4) := by
  decide +kernel

theorem commBase_loaded :
    ∃ report, xrpLoadFirmware .little commBaseEnv commBaseImage 1 = some report ∧
      report.result = .ok () := by
  refine ⟨loadSegments .little commBaseEnv commBaseFixed (commBaseFixed.ePhnum .little) 0, ?_, ?_⟩
  · rw [xrpLoadFirmware, if_neg (by decide +kernel), if_neg (by decide +kernel),
      if_neg (by decide +kernel), if_neg (by decide +kernel),
      xrpFirmwareFixupSymbol_found commBase_found.1]
    rfl
  · decide +kernel

theorem xrpLoadFirmware_holdsFirmware_twoWords :
    ∃ report, xrpLoadFirmware .little commBaseEnv commBaseImage 1 = some report ∧
      HoldsFirmware .little commBaseEnv commBaseFixed (fun _ => 0xff)
        (report.memory commBaseFixed fun _ => 0xff) := by
  obtain ⟨report, loaded, success⟩ := commBase_loaded
  exact ⟨report, loaded, xrpLoadFirmware_holdsFirmware
    (xrpFirmwareFixupSymbol_found commBase_found.1) commBaseFixed_tidy loaded success _⟩

/-- The variable is the first word of the segment, at `0x1000` for both sides. -/
theorem xrpLoadFirmware_commBase_translated :
    ∃ report, xrpLoadFirmware .little commBaseEnv commBaseImage 1 = some report ∧
      memoryWord .little (report.memory commBaseFixed fun _ => 0xff) 0x1000 = 0x60000000 := by
  obtain ⟨report, loaded, success⟩ := commBase_loaded
  have carries : Carries (commBaseFixed.segmentAt .little 0)
      (symbolSection .little commBaseImage commBaseSym) :=
    ⟨by decide +kernel, by decide +kernel, by decide +kernel⟩
  have value : xrpTranslateToDsp commBaseEnv.addressMap commBaseEnv.commPhys = 0x60000000 := by
    decide +kernel
  have address : target commBaseEnv (commBaseFixed.segmentAt .little 0) +
      (commBaseSym.stValue.toNat - (commBaseFixed.segmentAt .little 0).pPaddr.toNat) = 0x1000 := by
    decide +kernel
  have word := xrpLoadFirmware_commBase (commBase_found.1.trans
    (congrArg some commBase_found.2.symm)) commBase_found.2 commBaseFixed_tidy loaded success
    (by decide +kernel) (by decide +kernel) carries fun _ => 0xff
  exact ⟨report, loaded, address ▸ word.trans value⟩

end Whole

end Xrp.Kernel.Firmware
