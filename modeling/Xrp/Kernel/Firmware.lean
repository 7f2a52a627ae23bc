import Xrp.Base.Blit
import Xrp.Interface
import Xrp.Kernel.AddressMap

/-!
# Loading the firmware

`xrp_firmware.c`: the ELF image that `request_firmware` returned is checked, the
symbol `xrp_dsp_comm_base` in it is set, and its loadable segments are copied to
physical memory. Fields of the image are untrusted. Sums and products of them are
taken modulo `2 ^ 32` or as a C `int` where the source does so; `size_t` has 64
bits. A position is an offset from `firmware->data`, and kernel memory outside of
the image has some contents, too. Physical memory is addressed by natural numbers,
and consecutive `struct page`s are consecutive pages of it. The image is not in
the memory that is loaded.
-/

namespace Xrp.Kernel.Firmware

/-- `Elf32_Half`. -/
abbrev U16 := BitVec 16

/-! ## The image -/

/-- `struct firmware`, with the memory around `data`. -/
structure Image : Type where
  data : ℤ → U8
  size : ℕ

/-- The fields of `Elf32_Phdr` that are used. -/
structure Elf32Phdr : Type where
  pType : U32
  pOffset : U32
  pPaddr : U32
  pFilesz : U32
  pMemsz : U32
  pFlags : U32
  deriving DecidableEq

/-- `sizeof(Elf32_Phdr)`. -/
def sizeofPhdr : ℕ := 32

/-- The fields of `Elf32_Shdr` that are used. -/
structure Elf32Shdr : Type where
  shType : U32
  shAddr : U32
  shOffset : U32
  shSize : U32
  shEntsize : U32
  deriving DecidableEq

/-- `Elf32_Sym`, without `st_other`. -/
structure Elf32Sym : Type where
  stName : U32
  stValue : U32
  stSize : U32
  stInfo : U8
  stShndx : U16
  deriving DecidableEq

namespace Image

variable (order : ByteOrder) (image : Image)

/-- A 16-bit field. -/
def half (pos : ℤ) : U16 :=
  match order with
  | .little => image.data (pos + 1) ++ image.data pos
  | .big => image.data pos ++ image.data (pos + 1)

/-- A 32-bit field. -/
def word (pos : ℤ) : U32 := order.word fun i => image.data (pos + (i : ℕ))

/-- `e_type`. -/
def eType : U16 := image.half order 16

/-- `e_machine`. -/
def eMachine : U16 := image.half order 18

/-- `e_phoff`. -/
def ePhoff : ℕ := (image.word order 28).toNat

/-- `e_shoff`. -/
def eShoff : ℕ := (image.word order 32).toNat

/-- `e_phentsize`. -/
def ePhentsize : ℕ := (image.half order 42).toNat

/-- `e_phnum`. -/
def ePhnum : ℕ := (image.half order 44).toNat

/-- `e_shentsize`. -/
def eShentsize : ℕ := (image.half order 46).toNat

/-- `e_shnum`. -/
def eShnum : ℕ := (image.half order 48).toNat

/-- The program header at a position. -/
def phdr (pos : ℤ) : Elf32Phdr where
  pType := image.word order pos
  pOffset := image.word order (pos + 4)
  pPaddr := image.word order (pos + 12)
  pFilesz := image.word order (pos + 16)
  pMemsz := image.word order (pos + 20)
  pFlags := image.word order (pos + 24)

/-- The section header at a position. -/
def shdr (pos : ℤ) : Elf32Shdr where
  shType := image.word order (pos + 4)
  shAddr := image.word order (pos + 12)
  shOffset := image.word order (pos + 16)
  shSize := image.word order (pos + 20)
  shEntsize := image.word order (pos + 36)

/-- The symbol at a position. -/
def sym (pos : ℤ) : Elf32Sym where
  stName := image.word order pos
  stValue := image.word order (pos + 4)
  stSize := image.word order (pos + 8)
  stInfo := image.data (pos + 12)
  stShndx := image.half order (pos + 14)

/-- The image with a word written at a position. -/
def patch (pos : ℤ) (v : U32) : Image where
  data q :=
    if pos ≤ q ∧ q < pos + 4 then order.byte v (Fin.ofNat 4 (q - pos).toNat) else image.data q
  size := image.size

end Image

/-- The product of two `int`s. -/
def intMul (a b : ℕ) : ℤ := (BitVec.ofNat 32 (a * b)).toInt

theorem intMul_of_lt {a b : ℕ} (small : a * b < 2 ^ 31) : intMul a b = (a * b : ℕ) := by
  rw [intMul, BitVec.toInt_eq_toNat_of_lt]
  · rw [BitVec.toNat_ofNat, Nat.mod_eq_of_lt (by omega)]
  · rw [BitVec.toNat_ofNat, Nat.mod_eq_of_lt (by omega)]
    omega

/-! ## The symbol -/

/-- The errors of the symbol lookup. -/
inductive LookupErrno : Type
  | enoent
  | einval
  deriving DecidableEq

/-- `SHT_SYMTAB`. -/
def shtSymtab : U32 := 2

/-- `SHT_STRTAB`. -/
def shtStrtab : U32 := 3

/-- `STT_OBJECT`. -/
def sttObject : U8 := 1

section Symbol

variable (order : ByteOrder) (image : Image)

/-- `xrp_section_bad`. -/
def xrpSectionBad (shdr : Elf32Shdr) : Bool :=
  decide (shdr.shOffset.toNat > image.size) ||
    decide (shdr.shSize.toNat > image.size - shdr.shOffset.toNat)

/-- `strncmp` of the string at a position with a name, which ends with a zero, gives 0. -/
def strncmpZero : List U8 → ℤ → ℕ → Bool
  | [], _, _ => true
  | _ :: _, _, 0 => true
  | c :: cs, pos, n + 1 => image.data pos == c && (c == 0 || strncmpZero cs (pos + 1) n)

/-- `sh_symtab` and `sh_strtab` after the loop over the first `n` sections. -/
def findSections : ℕ → Option Elf32Shdr × Option Elf32Shdr
  | 0 => (none, none)
  | i + 1 =>
    let (symtab, strtab) := findSections i
    let shdr := image.shdr order
      (image.eShoff order + ((i * image.eShentsize order) % 2 ^ 32 : ℕ))
    if shdr.shType = shtSymtab then (some shdr, strtab)
    else if shdr.shType = shtStrtab then (symtab, some shdr)
    else (symtab, strtab)

/-- The test of a symbol in the second loop of `xrp_firmware_find_symbol`. -/
def symbolMatches (strtab : Elf32Shdr) (name : List U8) (esym : Elf32Sym) : Bool :=
  esym.stInfo &&& 0xf == sttObject && decide (esym.stName < strtab.shSize) &&
    strncmpZero image name (strtab.shOffset.toNat + esym.stName.toNat : ℕ)
      (strtab.shSize - esym.stName).toNat

/-- What `xrp_firmware_find_symbol` does with the symbol it found. -/
def symbolPlace (esym : Elf32Sym) : Except LookupErrno (ℤ × U32) :=
  if 0 < esym.stShndx.toNat ∧ esym.stShndx.toNat < image.eShnum order then
    let shdr := image.shdr order
      (image.eShoff order + intMul esym.stShndx.toNat (image.eShentsize order))
    let inSectionOff := esym.stValue - shdr.shAddr
    if xrpSectionBad image shdr then .error .einval
    else if esym.stValue < shdr.shAddr ∨ inSectionOff > shdr.shSize ∨
        esym.stSize > shdr.shSize - inSectionOff then .error .einval
    else .ok (shdr.shOffset.toNat + inSectionOff.toNat, esym.stSize)
  else .error .einval

/-- The second loop of `xrp_firmware_find_symbol`, for a number of rounds. -/
def findSymbolLoop (symtab strtab : Elf32Shdr) (name : List U8) :
    ℕ → U32 → Option (Except LookupErrno (ℤ × U32))
  | 0, _ => none
  | fuel + 1, i =>
    if i < symtab.shSize then
      let esym := image.sym order (symtab.shOffset.toNat + i.toNat)
      if symbolMatches image strtab name esym then some (symbolPlace order image esym)
      else findSymbolLoop symtab strtab name fuel (i + symtab.shEntsize)
    else some (.error .enoent)

/-- `xrp_firmware_find_symbol`: the position and the size of the symbol; `none` if the search goes
on after the given number of rounds. -/
def xrpFirmwareFindSymbol (fuel : ℕ) (name : List U8) : Option (Except LookupErrno (ℤ × U32)) :=
  let eShoff := image.eShoff order
  -- the product is an `int`, which is converted to `size_t`
  let headers := (BitVec.ofNat 32 (image.eShnum order * image.eShentsize order)).signExtend 64
  if eShoff = 0 then some (.error .enoent)
  else if eShoff > image.size ∨ headers.toNat > image.size - eShoff then some (.error .einval)
  else
    match findSections order image (image.eShnum order) with
    | (some symtab, some strtab) =>
      if xrpSectionBad image symtab then some (.error .einval)
      else if xrpSectionBad image strtab then some (.error .einval)
      else findSymbolLoop order image symtab strtab name fuel 0
    | _ => some (.error .enoent)

/-- `xrp_firmware_fixup_symbol`; the width of the value, a `phys_addr_t`, depends on the host, and
`v32` has its low bits. -/
def xrpFirmwareFixupSymbol {w : ℕ} (fuel : ℕ) (name : List U8) (v : BitVec w) :
    Option (Except LookupErrno Unit × Image) :=
  (xrpFirmwareFindSymbol order image fuel name).map fun
    | .error e => (.error e, image)
    | .ok (addr, sz) =>
      if sz ≠ 4 then (.error .einval, image)
      else (.ok (), image.patch order addr (v.setWidth 32))

end Symbol

/-! ## The loaders -/

/-- What a loader does to physical memory: `memcpy` from the image, or `memset` to zero. -/
inductive Transfer : Type
  | copy (dst : ℕ) (src : ℤ) (size : ℕ)
  | clear (dst size : ℕ)
  deriving DecidableEq

/-- What is written. -/
def Transfer.blit (image : Image) : Transfer → Blit U8
  | copy dst src size => ⟨dst, size, fun i => image.data (src + i)⟩
  | clear dst size => ⟨dst, size, fun _ => 0⟩

/-- Physical memory after transfers. -/
def transferred (image : Image) (ts : List Transfer) (memory : ℕ → U8) : ℕ → U8 :=
  Blit.applyAll (ts.map (Transfer.blit image)) memory

/-- What the system decides. -/
structure Env : Type where
  /-- `of_translate_address` of `p_paddr`. -/
  translate : U32 → ULong
  pfnValid : ℕ → Bool
  /-- Whether `kmap` of a page succeeds. -/
  kmap : ℕ → Bool
  /-- Whether `ioremap` of an address and a size succeeds. -/
  ioremap : ℕ → U32 → Bool
  addressMap : List (XrpAddressMapEntry 64)
  commPhys : ULong

/-- `OF_BAD_ADDR`. -/
def ofBadAddr : ULong := ~~~0

/-- `xrp_translate_to_cpu`. -/
def xrpTranslateToCpu (env : Env) (phdr : Elf32Phdr) : ULong := env.translate phdr.pPaddr

/-- A difference of `size_t`s. -/
def sizeSub (a b : ℕ) : ℕ := (a + 2 ^ 64 - b) % 2 ^ 64

/-- The variables of the loop of `xrp_load_segment_to_sysmem`; `page` is a page frame number. -/
structure Cursor : Type where
  page : ℕ
  pageOffs : ℕ
  offs : ℕ
  deriving DecidableEq

/-- The part of the loop that copies file data; `sz` is what is left of the page. -/
def copyPart (phdr : Elf32Phdr) (c : Cursor) (sz : ℕ) : List Transfer × Cursor × ℕ :=
  if c.offs < phdr.pFilesz.toNat then
    let copySz := (min sz (phdr.pFilesz.toNat - c.offs)).roundUp 4
    ([.copy (c.page * 4096 + c.pageOffs) (phdr.pOffset.toNat + c.offs) copySz],
      { c with pageOffs := c.pageOffs + copySz, offs := c.offs + copySz }, sizeSub sz copySz)
  else ([], c, sz)

/-- The part of the loop that clears memory. -/
def clearPart (phdr : Elf32Phdr) (c : Cursor) (sz : ℕ) : List Transfer × Cursor :=
  if c.offs < phdr.pMemsz.toNat ∧ sz ≠ 0 then
    let clearSz := (min sz (phdr.pMemsz.toNat - c.offs)).roundUp 4
    ([.clear (c.page * 4096 + c.pageOffs) clearSz],
      { c with pageOffs := c.pageOffs + clearSz, offs := c.offs + clearSz })
  else ([], c)

/-- The body of the loop, for one page. -/
def loadPage (phdr : Elf32Phdr) (c : Cursor) : List Transfer × Cursor :=
  -- the size is taken before the offset is brought back into the page
  let sz := sizeSub 4096 c.pageOffs
  let copied := copyPart phdr { c with pageOffs := c.pageOffs % 4096 } sz
  let cleared := clearPart phdr copied.2.1 copied.2.2
  (copied.1 ++ cleared.1, { cleared.2 with page := cleared.2.page + 1 })

/-- The measure of the loop: what is left, and whether the next page is passed over. -/
def Cursor.left (phdr : Elf32Phdr) (c : Cursor) : ℕ :=
  2 * (phdr.pMemsz.toNat - c.offs) + if sizeSub 4096 c.pageOffs = 0 then 1 else 0

section Measure

variable {phdr : Elf32Phdr} {c : Cursor} {sz : ℕ}

theorem le_offs_clearPart : c.offs ≤ (clearPart phdr c sz).2.offs := by
  unfold clearPart
  split_ifs
  · exact Nat.le_add_right _ _
  · exact le_rfl

/-- A page with nothing left is passed over. -/
theorem loadPage_of_full (full : sizeSub 4096 c.pageOffs = 0) :
    (loadPage phdr c).2 = ⟨c.page + 1, c.pageOffs % 4096, c.offs⟩ := by
  simp only [loadPage, full, copyPart, clearPart]
  split_ifs <;> simp_all [Nat.roundUp, sizeSub]

/-- A page with something left is made use of. -/
theorem lt_offs_loadPage (more : c.offs < phdr.pMemsz.toNat)
    (room : sizeSub 4096 c.pageOffs ≠ 0) : c.offs < (loadPage phdr c).2.offs := by
  let c' : Cursor := { c with pageOffs := c.pageOffs % 4096 }
  change c.offs < (clearPart phdr (copyPart phdr c' (sizeSub 4096 c.pageOffs)).2.1
    (copyPart phdr c' (sizeSub 4096 c.pageOffs)).2.2).2.offs
  by_cases file : c.offs < phdr.pFilesz.toNat
  · refine lt_of_lt_of_le ?_ le_offs_clearPart
    have some : 0 < (min (sizeSub 4096 c.pageOffs) (phdr.pFilesz.toNat - c.offs)).roundUp 4 :=
      Nat.roundUp_pos (by omega) (by omega)
    simpa [copyPart, c', file] using some
  · have some : 0 < (min (sizeSub 4096 c.pageOffs) (phdr.pMemsz.toNat - c.offs)).roundUp 4 :=
      Nat.roundUp_pos (by omega) (by omega)
    simpa [copyPart, clearPart, c', file, more, room] using some

theorem left_loadPage_lt (more : c.offs < phdr.pMemsz.toNat) :
    (loadPage phdr c).2.left phdr < c.left phdr := by
  by_cases full : sizeSub 4096 c.pageOffs = 0
  · have room : sizeSub 4096 (c.pageOffs % 4096) ≠ 0 := by
      unfold sizeSub
      omega
    simp [loadPage_of_full full, Cursor.left, full, room]
  · have less := lt_offs_loadPage more full
    unfold Cursor.left
    split_ifs <;> omega

end Measure

/-- The loop of `xrp_load_segment_to_sysmem`, with the transfers it makes. -/
def sysmemLoop (env : Env) (phdr : Elf32Phdr) (c : Cursor) : Except Errno Unit × List Transfer :=
  if c.offs < phdr.pMemsz.toNat then
    if env.kmap c.page then
      let rest := sysmemLoop env phdr (loadPage phdr c).2
      (rest.1, (loadPage phdr c).1 ++ rest.2)
    else (.error .enomem, [])
  else (.ok (), [])
termination_by c.left phdr
decreasing_by exact left_loadPage_lt ‹_›

/-- `xrp_load_segment_to_sysmem`. -/
def xrpLoadSegmentToSysmem (env : Env) (phdr : Elf32Phdr) : Except Errno Unit × List Transfer :=
  let pa := (xrpTranslateToCpu env phdr).toNat
  sysmemLoop env phdr ⟨pa / 4096, pa % 4096, 0⟩

/-- `xrp_load_segment_to_iomem`; the lengths are `u32`s. -/
def xrpLoadSegmentToIomem (env : Env) (phdr : Elf32Phdr) : Except Errno Unit × List Transfer :=
  let pa := (xrpTranslateToCpu env phdr).toNat
  if env.ioremap pa phdr.pMemsz then
    (.ok (), [.copy pa phdr.pOffset.toNat (ALIGN phdr.pFilesz 4).toNat,
      .clear (pa + (ALIGN phdr.pFilesz 4).toNat)
        (ALIGN (phdr.pMemsz - ALIGN phdr.pFilesz 4) 4).toNat])
  else (.error .einval, [])

/-! ## The whole firmware -/

/-- A segment that was passed to a loader. -/
structure Load : Type where
  phdr : Elf32Phdr
  pa : ℕ
  transfers : List Transfer
  deriving DecidableEq

/-- What `xrp_load_firmware` returns, with the positions of the program headers it reached and the
segments it passed to a loader. -/
structure Report : Type where
  result : Except Errno Unit
  headers : List ℤ
  loads : List Load

/-- A failure before the first header is reached. -/
def Report.failed (e : Errno) : Report := ⟨.error e, [], []⟩

/-- `PT_LOAD`. -/
def ptLoad : U32 := 1

/-- `PF_X | PF_R | PF_W`. -/
def pfAccess : U32 := 7

/-- The segment is to be loaded. -/
def loadable (phdr : Elf32Phdr) : Bool :=
  phdr.pType == ptLoad && phdr.pFlags &&& pfAccess != 0 && decide (phdr.pMemsz > 0)

/-- The name of the symbol, with the zero at its end: `xrp_dsp_comm_base`. -/
def commBaseName : List U8 :=
  [0x78, 0x72, 0x70, 0x5f, 0x64, 0x73, 0x70, 0x5f, 0x63, 0x6f, 0x6d, 0x6d, 0x5f, 0x62, 0x61, 0x73,
    0x65, 0]

section Load

variable (order : ByteOrder) (env : Env) (image : Image)

/-- The position of program header `i`. -/
def phdrPos (i : ℕ) : ℤ := image.ePhoff order + intMul i (image.ePhentsize order)

/-- The choice of the loader. -/
def loadSegment (phdr : Elf32Phdr) : Except Errno Unit × List Transfer :=
  if env.pfnValid ((xrpTranslateToCpu env phdr).toNat / 4096) then xrpLoadSegmentToSysmem env phdr
  else xrpLoadSegmentToIomem env phdr

/-- The check of a segment: its sum is a `u32`. -/
def segmentBad (phdr : Elf32Phdr) : Bool :=
  decide (phdr.pOffset.toNat ≥ image.size) ||
    decide ((phdr.pOffset + phdr.pFilesz).toNat > image.size)

/-- The loop of `xrp_load_firmware`, for `n` headers from number `i` on. -/
def loadSegments : ℕ → ℕ → Report
  | 0, _ => ⟨.ok (), [], []⟩
  | n + 1, i =>
    let pos := phdrPos order image i
    let phdr := image.phdr order pos
    let rest := loadSegments n (i + 1)
    if loadable phdr then
      if segmentBad image phdr then ⟨.error .einval, [pos], []⟩
      else if xrpTranslateToCpu env phdr = ofBadAddr then ⟨.error .einval, [pos], []⟩
      else
        let load : Load :=
          ⟨phdr, (xrpTranslateToCpu env phdr).toNat, (loadSegment env phdr).2⟩
        match (loadSegment env phdr).1 with
        | .error e => ⟨.error e, [pos], [load]⟩
        | .ok () => ⟨rest.result, pos :: rest.headers, load :: rest.loads⟩
    else ⟨rest.result, pos :: rest.headers, rest.loads⟩

/-- `xrp_load_firmware`; `none` if the search for the symbol goes on after the given number of
rounds. The result of the fixup is not looked at. -/
def xrpLoadFirmware (fuel : ℕ) : Option Report :=
  if image.data 0 ≠ 0x7f ∨ image.data 1 ≠ 0x45 ∨ image.data 2 ≠ 0x4c ∨ image.data 3 ≠ 0x46 then
    some (.failed .einval)
  else if image.eType order ≠ 2 then some (.failed .einval)
  else if image.eMachine order ≠ 94 then some (.failed .einval)
  else if image.ePhoff order ≥ image.size ∨
      (image.ePhoff order + image.ePhentsize order * image.ePhnum order) % 2 ^ 32 > image.size then
    some (.failed .einval)
  else
    (xrpFirmwareFixupSymbol order image fuel commBaseName
      (xrpTranslateToDsp env.addressMap env.commPhys)).map fun fixed =>
        loadSegments order env fixed.2 (fixed.2.ePhnum order) 0

end Load

end Xrp.Kernel.Firmware
