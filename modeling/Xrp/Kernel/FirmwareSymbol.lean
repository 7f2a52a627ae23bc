import Xrp.Base.Orbit
import Xrp.Kernel.FirmwareSegments

/-!
# The symbol of the firmware

`xrp_firmware_find_symbol` and `xrp_firmware_fixup_symbol` of `xrp_firmware.c` on images that are
not trusted: where the fixup writes, and when the search for the symbol ends. The search goes
through the symbol table with the entry size that the image gives, in 32-bit arithmetic, and nothing
says that this size is not zero.
-/

namespace Xrp.Kernel.Firmware

/-! ## The search -/

section Search

variable (order : ByteOrder) (image : Image)

/-- The symbol table and the string table that are searched, or the error if there is no search. -/
def symbolTables : Except LookupErrno (Elf32Shdr × Elf32Shdr) :=
  let eShoff := image.eShoff order
  let headers := (BitVec.ofNat 32 (image.eShnum order * image.eShentsize order)).signExtend 64
  if eShoff = 0 then .error .enoent
  else if eShoff > image.size ∨ headers.toNat > image.size - eShoff then .error .einval
  else
    match findSections order image (image.eShnum order) with
    | (some symtab, some strtab) =>
      if xrpSectionBad image symtab then .error .einval
      else if xrpSectionBad image strtab then .error .einval
      else .ok (symtab, strtab)
    | _ => .error .enoent

variable (symtab strtab : Elf32Shdr) (name : List U8)

/-- The symbol at an offset in the symbol table. -/
def symbolAt (i : U32) : Elf32Sym := image.sym order (symtab.shOffset.toNat + i.toNat)

/-- Whether the search stops at an offset, and with what. -/
def symbolStop (i : U32) : Option (Except LookupErrno (ℤ × U32)) :=
  if i < symtab.shSize then
    if symbolMatches image strtab name (symbolAt order image symtab i) then
      some (symbolPlace order image (symbolAt order image symtab i))
    else none
  else some (.error .enoent)

variable {order image symtab strtab name} {fuel : ℕ}

theorem xrpFirmwareFindSymbol_eq :
    xrpFirmwareFindSymbol order image fuel name =
      match symbolTables order image with
      | .error e => some (.error e)
      | .ok (symtab, strtab) => findSymbolLoop order image symtab strtab name fuel 0 := by
  unfold xrpFirmwareFindSymbol symbolTables
  dsimp only
  split_ifs
  · rfl
  · rfl
  · rcases findSections order image (image.eShnum order) with ⟨_ | symtab, _ | strtab⟩
    · rfl
    · rfl
    · rfl
    · dsimp only
      split_ifs <;> rfl

theorem findSymbolLoop_eq (i : U32) :
    findSymbolLoop order image symtab strtab name fuel i =
      Orbit.search (symbolStop order image symtab strtab name) (· + symtab.shEntsize) fuel i := by
  induction fuel generalizing i with
  | zero => rfl
  | succ fuel ih =>
    rw [findSymbolLoop, Orbit.search, symbolStop, ← ih]
    unfold symbolAt
    dsimp only
    split_ifs <;> rfl

theorem symbolStop_isSome_iff {i : U32} :
    (symbolStop order image symtab strtab name i).isSome ↔
      symtab.shSize.toNat ≤ i.toNat ∨
        i < symtab.shSize ∧ symbolMatches image strtab name (symbolAt order image symtab i) := by
  unfold symbolStop
  split_ifs with inside found
  · simp [inside, found]
  · simp [inside, found, BitVec.lt_def.mp inside]
  · simp [BitVec.le_def.mp (BitVec.not_lt.mp inside)]

/-- **The search ends, if and only if** the offset can pass the end of the table, or a symbol with
the name is at one of the offsets. These are the multiples of the greatest common divisor of the
entry size and `2 ^ 32`. -/
theorem exists_findSymbolLoop_iff :
    (∃ fuel, (findSymbolLoop order image symtab strtab name fuel 0).isSome) ↔
      symtab.shSize.toNat + Nat.gcd symtab.shEntsize.toNat (2 ^ 32) ≤ 2 ^ 32 ∨
      ∃ i < symtab.shSize, Nat.gcd symtab.shEntsize.toNat (2 ^ 32) ∣ i.toNat ∧
        symbolMatches image strtab name (symbolAt order image symtab i) := by
  have orbit (i : U32) := Orbit.exists_stride_iff symtab.shEntsize i
  simp only [findSymbolLoop_eq, Orbit.exists_search_iff, symbolStop_isSome_iff]
  rw [← Orbit.exists_stride_ge_iff]
  constructor
  · rintro ⟨k, behind | ⟨inside, found⟩⟩
    · exact .inl ⟨_, (orbit _).mp ⟨k, rfl⟩, behind⟩
    · exact .inr ⟨_, inside, (orbit _).mp ⟨k, rfl⟩, found⟩
  · rintro (⟨i, multiple, behind⟩ | ⟨i, inside, multiple, found⟩)
    · obtain ⟨k, rfl⟩ := (orbit i).mpr multiple
      exact ⟨k, .inl behind⟩
    · obtain ⟨k, rfl⟩ := (orbit i).mpr multiple
      exact ⟨k, .inr ⟨inside, found⟩⟩

theorem xrpFirmwareFixupSymbol_isSome {w : ℕ} {v : BitVec w} :
    (xrpFirmwareFixupSymbol order image fuel name v).isSome =
      (xrpFirmwareFindSymbol order image fuel name).isSome := by
  rw [xrpFirmwareFixupSymbol, Option.isSome_map]

/-- **The fixup returns, if and only if** there is no search, or the offset can pass the end of the
symbol table, or a symbol with the name is at one of the offsets that are searched. -/
theorem xrpFirmwareFixupSymbol_returns_iff (order : ByteOrder) (image : Image) (name : List U8)
    {w : ℕ} (v : BitVec w) :
    (∃ fuel, (xrpFirmwareFixupSymbol order image fuel name v).isSome) ↔
      ∀ symtab strtab, symbolTables order image = .ok (symtab, strtab) →
        symtab.shSize.toNat + Nat.gcd symtab.shEntsize.toNat (2 ^ 32) ≤ 2 ^ 32 ∨
        ∃ i < symtab.shSize, Nat.gcd symtab.shEntsize.toNat (2 ^ 32) ∣ i.toNat ∧
          symbolMatches image strtab name (symbolAt order image symtab i) := by
  simp only [xrpFirmwareFixupSymbol_isSome, xrpFirmwareFindSymbol_eq]
  cases tables : symbolTables order image with
  | error e =>
    refine iff_of_true ⟨0, rfl⟩ fun symtab strtab other => ?_
    cases other
  | ok found =>
    obtain ⟨symtab, strtab⟩ := found
    rw [exists_findSymbolLoop_iff]
    constructor
    · intro ends symtab' strtab' same
      cases same
      exact ends
    · intro ends
      exact ends symtab strtab rfl

end Search

/-! ## Images -/

/-- An ELF header, with a number of section headers of 40 bytes behind it. -/
def elfSections (shnum : U32) : List U32 :=
  [0x464c457f, 0, 0, 0, 0x005e0002, 0, 0, 0, 52, 0, 0, 0x00280000, shnum]

/-- A section header. -/
def sectionHeader (type addr offset size link entsize : U32) : List U32 :=
  [0, type, 0, addr, offset, size, link, 0, 0, entsize]

/-- An image whose symbol table has entries of size 0. -/
def endlessImage : Image :=
  imageOf (ByteOrder.little.bytes (elfSections 2 ++
    sectionHeader shtSymtab 0 0 16 1 0 ++ sectionHeader shtStrtab 0 0 1 0 0))

/-- An image with a word of data and a symbol for it, at 1 in the string table. There are two string
tables, for the names `v` and `a`; `link` is the section of the one for the symbols. -/
def symbolImage (link : U32) : Image :=
  imageOf (ByteOrder.little.bytes (elfSections 5 ++
    sectionHeader 0 0 0 0 0 0 ++ sectionHeader 1 0x1000 252 4 0 0 ++
    sectionHeader shtSymtab 0 256 32 link 16 ++
    sectionHeader shtStrtab 0 288 4 0 0 ++ sectionHeader shtStrtab 0 292 4 0 0 ++
    [0x20202020] ++ [0, 0, 0, 0] ++ [1, 0x1000, 4, 0x00010001] ++ [0x00007600] ++ [0x00006100]))

theorem symbolTables_endlessImage :
    symbolTables .little endlessImage =
      .ok (⟨shtSymtab, 0, 0, 16, 0⟩, ⟨shtStrtab, 0, 0, 1, 0⟩) := by
  decide +kernel

/-- The one symbol that is looked at is not an object. -/
theorem xrpFirmwareFindSymbol_endlessImage (fuel : ℕ) :
    xrpFirmwareFindSymbol .little endlessImage fuel commBaseName = none := by
  rw [xrpFirmwareFindSymbol_eq, symbolTables_endlessImage, ← Option.not_isSome_iff_eq_none]
  intro ends
  rcases exists_findSymbolLoop_iff.mp ⟨fuel, ends⟩ with room | ⟨i, inside, multiple, found⟩
  · exact absurd room (by decide)
  · have zero : i = 0 := by
      have bound := i.isLt
      rw [show Nat.gcd (0 : U32).toNat (2 ^ 32) = 2 ^ 32 from rfl] at multiple
      exact BitVec.eq_of_toNat_eq (Nat.eq_zero_of_dvd_of_lt multiple bound)
    subst zero
    exact absurd found (by decide +kernel)

/-- The image passes the checks of its header, and `xrp_load_firmware` does not return. -/
theorem xrpLoadFirmware_endlessImage :
    (∀ fuel, xrpFirmwareFixupSymbol .little endlessImage fuel commBaseName (0 : ULong) = none) ∧
      ∀ fuel, xrpLoadFirmware .little (loadsAt 0x1000 false) endlessImage fuel = none := by
  have search (fuel : ℕ) {w : ℕ} (v : BitVec w) :
      xrpFirmwareFixupSymbol .little endlessImage fuel commBaseName v = none := by
    rw [xrpFirmwareFixupSymbol, xrpFirmwareFindSymbol_endlessImage]
    rfl
  refine ⟨fun fuel => search fuel 0, fun fuel => ?_⟩
  rw [xrpLoadFirmware, if_neg (by decide +kernel), if_neg (by decide +kernel),
    if_neg (by decide +kernel), if_neg (by decide +kernel), search]
  rfl

/-! ## The fixup -/

section Fixup

variable {order : ByteOrder} {image fixed : Image} {name : List U8} {fuel : ℕ} {esym : Elf32Sym}

/-- The header of the section of a symbol. -/
def symbolSection (order : ByteOrder) (image : Image) (esym : Elf32Sym) : Elf32Shdr :=
  image.shdr order (image.eShoff order + intMul esym.stShndx.toNat (image.eShentsize order))

/-- The symbol is one with the name, in the symbol table that is searched. -/
def FoundSymbol (order : ByteOrder) (image : Image) (name : List U8) (esym : Elf32Sym) : Prop :=
  ∃ symtab strtab, symbolTables order image = .ok (symtab, strtab) ∧
    ∃ i < symtab.shSize, esym = symbolAt order image symtab i ∧
      symbolMatches image strtab name esym

/-- The `size` bytes at `pos` are inside the section, and the section is inside the image. -/
structure InSection (image : Image) (shdr : Elf32Shdr) (pos size : ℕ) : Prop where
  start : shdr.shOffset.toNat ≤ pos
  stop : pos + size ≤ shdr.shOffset.toNat + shdr.shSize.toNat
  inside : shdr.shOffset.toNat + shdr.shSize.toNat ≤ image.size

/-- The image is as before, but for a word at `pos`. -/
structure Patched (order : ByteOrder) (image fixed : Image) (pos : ℕ) (v : U32) : Prop where
  size : fixed.size = image.size
  frame : ∀ q : ℤ, q < pos ∨ pos + 4 ≤ q → fixed.data q = image.data q
  word : fixed.word order pos = v

theorem data_patch (pos : ℕ) (v : U32) (i : Fin 4) :
    (image.patch order pos v).data (pos + (i : ℕ)) = order.byte v i := by
  rw [Image.patch]
  dsimp only
  rw [if_pos (by omega)]
  congr 1
  apply Fin.ext
  simp

theorem patched_patch (pos : ℕ) (v : U32) :
    Patched order image (image.patch order pos v) pos v where
  size := rfl
  frame q outside := if_neg (by omega)
  word := by
    unfold Image.word
    simp only [data_patch]
    exact ByteOrder.word_byte order v

theorem xrpSectionBad_iff {shdr : Elf32Shdr} :
    xrpSectionBad image shdr = true ↔
      image.size < shdr.shOffset.toNat + shdr.shSize.toNat := by
  simp only [xrpSectionBad, Bool.or_eq_true, decide_eq_true_eq]
  omega

/-- The checks of the value and the size of a symbol do not wrap around. -/
theorem outside_iff {shAddr shSize stValue stSize : U32} :
    (stValue < shAddr ∨ stValue - shAddr > shSize ∨ stSize > shSize - (stValue - shAddr)) ↔
      ¬ (shAddr.toNat ≤ stValue.toNat ∧
        stValue.toNat + stSize.toNat ≤ shAddr.toNat + shSize.toNat) := by
  by_cases below : stValue < shAddr
  · have less := BitVec.lt_def.mp below
    exact iff_of_true (.inl below) (by omega)
  · have above := BitVec.not_lt.mp below
    have distance := BitVec.toNat_sub_of_le above
    have le := BitVec.le_def.mp above
    by_cases behind : stValue - shAddr > shSize
    · have greater := BitVec.lt_def.mp behind
      exact iff_of_true (.inr (.inl behind)) (by omega)
    · have rest := BitVec.toNat_sub_of_le (BitVec.not_lt.mp behind)
      have within := BitVec.le_def.mp (BitVec.not_lt.mp behind)
      simp only [below, behind, false_or]
      rw [gt_iff_lt, BitVec.lt_def]
      omega

/-- A symbol is placed in its section, if it has one and lies inside of it. -/
theorem symbolPlace_ok_iff {addr : ℤ} {sz : U32} :
    symbolPlace order image esym = .ok (addr, sz) ↔
      (0 < esym.stShndx.toNat ∧ esym.stShndx.toNat < image.eShnum order) ∧
      let shdr := symbolSection order image esym
      shdr.shOffset.toNat + shdr.shSize.toNat ≤ image.size ∧
      (shdr.shAddr.toNat ≤ esym.stValue.toNat ∧
        esym.stValue.toNat + esym.stSize.toNat ≤ shdr.shAddr.toNat + shdr.shSize.toNat) ∧
      addr = shdr.shOffset.toNat + esym.stValue.toNat - shdr.shAddr.toNat ∧ sz = esym.stSize := by
  unfold symbolPlace
  dsimp only
  rw [← symbolSection]
  generalize symbolSection order image esym = shdr
  simp only [xrpSectionBad_iff, outside_iff]
  by_cases index : 0 < esym.stShndx.toNat ∧ esym.stShndx.toNat < image.eShnum order
  · rw [if_pos index, and_iff_right index]
    by_cases bad : image.size < shdr.shOffset.toNat + shdr.shSize.toNat
    · rw [if_pos bad]
      exact iff_of_false (by simp) fun good => by omega
    · rw [if_neg bad, and_iff_right (not_lt.mp bad)]
      by_cases inside : shdr.shAddr.toNat ≤ esym.stValue.toNat ∧
          esym.stValue.toNat + esym.stSize.toNat ≤ shdr.shAddr.toNat + shdr.shSize.toNat
      · rw [if_neg (not_not.mpr inside), and_iff_right inside]
        have distance := BitVec.toNat_sub_of_le (BitVec.le_def.mpr inside.1)
        simp only [Except.ok.injEq, Prod.mk.injEq, distance]
        exact and_congr (by omega) eq_comm
      · rw [if_pos inside]
        exact iff_of_false (by simp) fun all => inside all.1
  · rw [if_neg index]
    exact iff_of_false (by simp) fun all => index all.1

/-- The bytes of a symbol that is placed are inside its section. -/
theorem inSection_of_symbolPlace {addr : ℤ} {sz : U32}
    (placed : symbolPlace order image esym = .ok (addr, sz)) :
    ∃ pos : ℕ, addr = pos ∧
      (0 < esym.stShndx.toNat ∧ esym.stShndx.toNat < image.eShnum order) ∧
      InSection image (symbolSection order image esym) pos sz.toNat := by
  obtain ⟨index, holds, ⟨above, stop⟩, place, rfl⟩ := symbolPlace_ok_iff.mp placed
  exact ⟨(symbolSection order image esym).shOffset.toNat + esym.stValue.toNat -
    (symbolSection order image esym).shAddr.toNat, by omega, index, by omega, by omega, holds⟩

/-- What was found is a symbol with the name, at its place. -/
theorem xrpFirmwareFindSymbol_ok {addr : ℤ} {sz : U32}
    (ok : xrpFirmwareFindSymbol order image fuel name = some (.ok (addr, sz))) :
    ∃ esym, FoundSymbol order image name esym ∧ symbolPlace order image esym = .ok (addr, sz) := by
  rw [xrpFirmwareFindSymbol_eq] at ok
  split at ok
  · cases ok
  · rename_i symtab strtab tables
    rw [findSymbolLoop_eq, Orbit.search_eq_some_iff] at ok
    obtain ⟨k, -, stops, -⟩ := ok
    unfold symbolStop at stops
    split_ifs at stops with inside found
    · exact ⟨_, ⟨symtab, strtab, tables, _, inside, rfl, found⟩, Option.some_inj.mp stops⟩
    · cases stops

/-- **The fixup writes one word, inside the section of the symbol**, and nothing if it fails. -/
theorem xrpFirmwareFixupSymbol_patches {w : ℕ} {v : BitVec w} {result : Except LookupErrno Unit}
    (fixup : xrpFirmwareFixupSymbol order image fuel name v = some (result, fixed)) :
    (result = .ok () → ∃ esym, FoundSymbol order image name esym ∧
      0 < esym.stShndx.toNat ∧ esym.stShndx.toNat < image.eShnum order ∧
      ∃ pos : ℕ, xrpFirmwareFindSymbol order image fuel name = some (.ok (pos, 4)) ∧
        symbolPlace order image esym = .ok (pos, 4) ∧
        InSection image (symbolSection order image esym) pos 4 ∧
        Patched order image fixed pos (v.setWidth 32)) ∧
    (∀ e, result = .error e → fixed = image) := by
  obtain ⟨found, search, step⟩ := Option.map_eq_some_iff.mp fixup
  cases found with
  | error e =>
    cases step
    exact ⟨fun ok => (by cases ok), fun _ _ => rfl⟩
  | ok place =>
    obtain ⟨addr, sz⟩ := place
    simp only at step
    split_ifs at step with size
    · cases step
      exact ⟨fun ok => (by cases ok), fun _ _ => rfl⟩
    · cases step
      refine ⟨fun _ => ?_, fun e error => by cases error⟩
      obtain ⟨esym, symbol, placed⟩ := xrpFirmwareFindSymbol_ok search
      obtain ⟨pos, rfl, index, inside⟩ := inSection_of_symbolPlace placed
      rw [not_not.mp size] at search placed inside
      exact ⟨esym, symbol, index.1, index.2, pos, search, placed, inside,
        patched_patch pos (v.setWidth 32)⟩

/-- The symbol `a` is set to the low half of a value. -/
theorem xrpFirmwareFixupSymbol_patches_low :
    ∃ esym, FoundSymbol .little (symbolImage 4) [0x61, 0] esym ∧
      0 < esym.stShndx.toNat ∧ esym.stShndx.toNat < (symbolImage 4).eShnum .little ∧
      ∃ pos : ℕ,
        xrpFirmwareFindSymbol .little (symbolImage 4) 2 [0x61, 0] = some (.ok (pos, 4)) ∧
        symbolPlace .little (symbolImage 4) esym = .ok (pos, 4) ∧
        InSection (symbolImage 4) (symbolSection .little (symbolImage 4) esym) pos 4 ∧
        Patched .little (symbolImage 4) ((symbolImage 4).patch .little 252 0x23456789) pos
          0x23456789 := by
  have search : xrpFirmwareFindSymbol .little (symbolImage 4) 2 [0x61, 0] =
      some (.ok (252, 4)) := by
    decide +kernel
  have fixup : xrpFirmwareFixupSymbol .little (symbolImage 4) 2 [0x61, 0]
      (0x123456789 : ULong) =
      some (.ok (), (symbolImage 4).patch .little 252 0x23456789) := by
    rw [xrpFirmwareFixupSymbol, search]
    rfl
  exact (xrpFirmwareFixupSymbol_patches fixup).1 rfl

end Fixup

end Xrp.Kernel.Firmware
