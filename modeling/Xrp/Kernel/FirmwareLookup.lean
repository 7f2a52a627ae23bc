import Xrp.Kernel.FirmwareSymbol

/-!
# Symbols by name

What `xrp_firmware_find_symbol` of `xrp_firmware.c` finds in a well-formed ELF image. The names of
the symbols are in the string table that `sh_link` of the symbol table gives. The source takes the
last string table of the image instead, which may be the one for the names of the sections.
-/

namespace Xrp.Kernel.Firmware

/-! ## ELF images -/

section Elf

variable (order : ByteOrder) (image : Image)

/-- The header of section `i`. -/
def Image.sectionAt (i : ℕ) : Elf32Shdr :=
  image.shdr order (image.eShoff order + (i * image.eShentsize order : ℕ))

/-- `sh_link` of section `i`. -/
def Image.shLink (i : ℕ) : U32 :=
  image.word order (image.eShoff order + (i * image.eShentsize order : ℕ) + 24)

/-- The section is inside the image. -/
def Image.Holds (shdr : Elf32Shdr) : Prop :=
  shdr.shOffset.toNat + shdr.shSize.toNat ≤ image.size

instance (shdr : Elf32Shdr) : Decidable (image.Holds shdr) := inferInstanceAs (Decidable (_ ≤ _))

/-- The string at a position, up to its zero, or to the end of its table. -/
def Image.string : ℤ → ℕ → List U8
  | _, 0 => []
  | pos, n + 1 => if image.data pos = 0 then [] else image.data pos :: Image.string (pos + 1) n

/-- An image with one symbol table, in section `symtab`, and its string table, in section `link`. -/
structure WellFormed (symtab link : ℕ) : Prop where
  shoff : image.eShoff order ≠ 0
  shentsize : image.eShentsize order = 40
  headers : image.eShoff order + image.eShnum order * image.eShentsize order ≤ image.size
  index : symtab < image.eShnum order
  type : (image.sectionAt order symtab).shType = shtSymtab
  only : ∀ i < image.eShnum order, (image.sectionAt order i).shType = shtSymtab → i = symtab
  symbols : image.Holds (image.sectionAt order symtab)
  entsize : (image.sectionAt order symtab).shEntsize = 16
  entries : 16 ∣ (image.sectionAt order symtab).shSize.toNat
  shLink : (image.shLink order symtab).toNat = link
  linkIndex : link < image.eShnum order
  linkType : (image.sectionAt order link).shType = shtStrtab
  strings : ∀ i < image.eShnum order, (image.sectionAt order i).shType = shtStrtab →
    image.Holds (image.sectionAt order i)
  terminated : ∀ i < image.eShnum order, (image.sectionAt order i).shType = shtStrtab →
    (image.sectionAt order i).shSize.toNat ≠ 0 →
    image.data ((image.sectionAt order i).shOffset.toNat +
      (image.sectionAt order i).shSize.toNat - 1) = 0

/-- Section `last` is the last string table of the image. -/
structure LastStrtab (last : ℕ) : Prop where
  index : last < image.eShnum order
  type : (image.sectionAt order last).shType = shtStrtab
  behind : ∀ i < image.eShnum order, last < i → (image.sectionAt order i).shType ≠ shtStrtab

variable (symtab strtab : Elf32Shdr) (name : List U8)

/-- The symbol is an object, and has the name in the string table. -/
def Named (esym : Elf32Sym) : Prop :=
  esym.stInfo &&& 0xf = sttObject ∧ esym.stName < strtab.shSize ∧
    image.string (strtab.shOffset.toNat + esym.stName.toNat)
      (strtab.shSize.toNat - esym.stName.toNat) = name

instance (esym : Elf32Sym) : Decidable (Named image strtab name esym) :=
  inferInstanceAs (Decidable (_ ∧ _ ∧ _))

/-- Entry `k` of the symbol table. -/
def entry (k : ℕ) : Elf32Sym := image.sym order (symtab.shOffset.toNat + (16 * k : ℕ))

/-- The first object with the name. -/
def firstObject : Option Elf32Sym :=
  ((List.range (symtab.shSize.toNat / 16)).find? fun k =>
    Named image strtab name (entry order image symtab k)).map (entry order image symtab)

/-- The position and the size of a symbol that is defined in a section of the image, and lies inside
that section. -/
def definedAt (esym : Elf32Sym) : Option (ℤ × U32) :=
  let shdr := image.sectionAt order esym.stShndx.toNat
  if 0 < esym.stShndx.toNat ∧ esym.stShndx.toNat < image.eShnum order ∧
      shdr.shOffset.toNat + shdr.shSize.toNat ≤ image.size ∧
      shdr.shAddr.toNat ≤ esym.stValue.toNat ∧
      esym.stValue.toNat + esym.stSize.toNat ≤ shdr.shAddr.toNat + shdr.shSize.toNat then
    some (shdr.shOffset.toNat + esym.stValue.toNat - shdr.shAddr.toNat, esym.stSize)
  else none

/-- The place of the first object with the name, for a choice of the two tables. -/
def lookup (symtab strtab : ℕ) : Option (ℤ × U32) :=
  (firstObject order image (image.sectionAt order symtab) (image.sectionAt order strtab) name).bind
    (definedAt order image)

/-- `xrp_firmware_find_symbol` returns, and has found the symbol with the name if there is one. -/
def FindsSymbol (symtab link : ℕ) : Prop :=
  ∃ fuel result, xrpFirmwareFindSymbol order image fuel (name ++ [0]) = some result ∧
    result.toOption = lookup order image name symtab link

end Elf

/-! ## Names -/

section Names

variable {order : ByteOrder} {image : Image}

/-- `strncmp` compares the strings, if the one in the image ends inside its table. -/
theorem strncmpZero_iff {name : List U8} (cstring : 0 ∉ name) {pos : ℤ} {n : ℕ}
    (terminated : ∃ j < n, image.data (pos + j) = 0) :
    strncmpZero image (name ++ [0]) pos n = true ↔ image.string pos n = name := by
  induction n generalizing pos name with
  | zero =>
    obtain ⟨j, less, -⟩ := terminated
    cases less
  | succ n ih =>
    rw [Image.string]
    cases name with
    | nil => simp [strncmpZero]
    | cons c cs =>
      obtain ⟨nonzero, rest⟩ := not_or.mp (List.mem_cons.not.mp cstring)
      rw [List.cons_append, strncmpZero]
      by_cases zero : image.data pos = 0
      · rw [if_pos zero, Bool.and_eq_true, beq_iff_eq]
        exact iff_of_false (fun equal => nonzero (zero.symm.trans equal.1))
          (List.cons_ne_nil c cs).symm
      · have later : ∃ j < n, image.data (pos + 1 + j) = 0 := by
          obtain ⟨j, less, here⟩ := terminated
          cases j with
          | zero => exact absurd (by simpa using here) zero
          | succ j =>
            refine ⟨j, by omega, ?_⟩
            rw [← here]
            congr 1
            push_cast
            ring
        rw [if_neg zero, List.cons_eq_cons, ← ih rest later, Bool.and_eq_true, beq_iff_eq,
          Bool.or_eq_true, beq_iff_eq]
        exact and_congr_right fun _ => or_iff_right (Ne.symm nonzero)

theorem symbolMatches_iff {strtab : Elf32Shdr} {name : List U8} (cstring : 0 ∉ name)
    (terminated : strtab.shSize.toNat ≠ 0 →
      image.data (strtab.shOffset.toNat + strtab.shSize.toNat - 1) = 0) {esym : Elf32Sym} :
    symbolMatches image strtab (name ++ [0]) esym = true ↔ Named image strtab name esym := by
  unfold symbolMatches Named
  simp only [Bool.and_eq_true, beq_iff_eq, decide_eq_true_eq, and_assoc]
  refine and_congr_right fun _ => and_congr_right fun inside => ?_
  have less := BitVec.lt_def.mp inside
  rw [BitVec.toNat_sub_of_le (BitVec.le_of_lt inside), Nat.cast_add]
  apply strncmpZero_iff cstring
  refine ⟨strtab.shSize.toNat - esym.stName.toNat - 1, by omega, ?_⟩
  rw [← terminated (by omega)]
  congr 1
  omega

end Names

/-! ## The tables -/

section Tables

variable {order : ByteOrder} {image : Image} {symtab link last : ℕ}

theorem Image.eShnum_lt (order : ByteOrder) (image : Image) : image.eShnum order < 2 ^ 16 :=
  (image.half order 48).isLt

theorem WellFormed.mul_eShentsize (wellFormed : WellFormed order image symtab link) {i : ℕ}
    (inside : i ≤ image.eShnum order) : i * image.eShentsize order < 2 ^ 31 := by
  have few := image.eShnum_lt order
  rw [wellFormed.shentsize]
  omega

theorem xrpSectionBad_eq_false {shdr : Elf32Shdr} (holds : image.Holds shdr) :
    xrpSectionBad image shdr = false := by
  rw [← Bool.not_eq_true, xrpSectionBad_iff, not_lt]
  exact holds

/-- A loop that keeps what it saw last. -/
theorem eq_some_of_last {α : Type} (kept : ℕ → Option α) {here : ℕ → Prop} [DecidablePred here]
    {value : ℕ → α} {n i : ℕ}
    (step : ∀ j < n, kept (j + 1) = if here j then some (value j) else kept j) (less : i < n)
    (found : here i) (behind : ∀ j < n, i < j → ¬ here j) : kept n = some (value i) := by
  induction n with
  | zero => cases less
  | succ n ih =>
    rw [step n (Nat.lt_succ_self n)]
    rcases Nat.lt_succ_iff_lt_or_eq.mp less with before | rfl
    · rw [if_neg (behind n (Nat.lt_succ_self n) before)]
      exact ih (fun j inside => step j (Nat.lt_succ_of_lt inside)) before
        fun j inside => behind j (Nat.lt_succ_of_lt inside)
    · rw [if_pos found]

theorem WellFormed.findSections_succ (wellFormed : WellFormed order image symtab link) {i : ℕ}
    (inside : i < image.eShnum order) :
    findSections order image (i + 1) =
      (if (image.sectionAt order i).shType = shtSymtab then some (image.sectionAt order i)
        else (findSections order image i).1,
      if (image.sectionAt order i).shType = shtStrtab then some (image.sectionAt order i)
        else (findSections order image i).2) := by
  have small := wellFormed.mul_eShentsize inside.le
  have other : shtSymtab ≠ shtStrtab := by decide
  rw [findSections, Nat.mod_eq_of_lt (by omega)]
  dsimp only
  rw [← Image.sectionAt]
  split_ifs with symbols strings
  · exact absurd (symbols.symm.trans strings) other
  · rfl
  · rfl
  · rfl

/-- The source finds the symbol table, and the last string table. -/
theorem WellFormed.symbolTables_eq (wellFormed : WellFormed order image symtab link)
    (lastStrtab : LastStrtab order image last) :
    symbolTables order image =
      .ok (image.sectionAt order symtab, image.sectionAt order last) := by
  have symbols : (findSections order image (image.eShnum order)).1 =
      some (image.sectionAt order symtab) := by
    refine eq_some_of_last (fun i => (findSections order image i).1)
      (fun j inside => by rw [wellFormed.findSections_succ inside]) wellFormed.index
      wellFormed.type fun j inside behind other => ?_
    exact absurd (wellFormed.only j inside other) behind.ne'
  have strings : (findSections order image (image.eShnum order)).2 =
      some (image.sectionAt order last) :=
    eq_some_of_last (fun i => (findSections order image i).2)
      (fun j inside => by rw [wellFormed.findSections_succ inside]) lastStrtab.index
      lastStrtab.type lastStrtab.behind
  have few := wellFormed.mul_eShentsize le_rfl
  have headers := wellFormed.headers
  have product : ((BitVec.ofNat 32 (image.eShnum order * image.eShentsize order)).signExtend
      64).toNat = image.eShnum order * image.eShentsize order := by
    have value : (BitVec.ofNat 32 (image.eShnum order * image.eShentsize order)).toNat =
        image.eShnum order * image.eShentsize order := by
      rw [BitVec.toNat_ofNat, Nat.mod_eq_of_lt (by omega)]
    rw [BitVec.toNat_signExtend_of_lt (by decide) (by omega), value]
  have good := xrpSectionBad_eq_false wellFormed.symbols
  have good' := xrpSectionBad_eq_false (wellFormed.strings last lastStrtab.index lastStrtab.type)
  unfold symbolTables
  dsimp only
  rw [if_neg wellFormed.shoff, if_neg (by omega)]
  rw [← Prod.mk.eta (p := findSections order image (image.eShnum order)), symbols, strings]
  dsimp only
  rw [good, good']
  rfl

end Tables

/-! ## The symbol -/

section Symbol

variable {order : ByteOrder} {image : Image} {symtab link last : ℕ} {name : List U8}

/-- The source places a symbol as ELF defines it. -/
theorem WellFormed.toOption_symbolPlace (wellFormed : WellFormed order image symtab link)
    (esym : Elf32Sym) :
    (symbolPlace order image esym).toOption = definedAt order image esym := by
  have around (inside : esym.stShndx.toNat < image.eShnum order) :
      symbolSection order image esym = image.sectionAt order esym.stShndx.toNat := by
    rw [symbolSection, intMul_of_lt (wellFormed.mul_eShentsize inside.le), Image.sectionAt]
  have ok_iff (place : ℤ × U32) : (symbolPlace order image esym).toOption = some place ↔
      symbolPlace order image esym = .ok place := by
    cases symbolPlace order image esym <;> simp [Except.toOption]
  apply Option.ext
  rintro ⟨addr, sz⟩
  rw [ok_iff, symbolPlace_ok_iff, definedAt]
  dsimp only
  rw [Option.ite_none_right_eq_some, Option.some_inj, Prod.mk.injEq]
  constructor
  · rintro ⟨index, holds, inside, place, size⟩
    rw [around index.2] at holds inside place
    exact ⟨⟨index.1, index.2, holds, inside⟩, place.symm, size.symm⟩
  · rintro ⟨⟨positive, index, holds, inside⟩, place, size⟩
    rw [around index]
    exact ⟨⟨positive, index⟩, holds, inside, place.symm, size.symm⟩

/-- The offsets of the search are those of the entries. -/
theorem WellFormed.toNat_offset (wellFormed : WellFormed order image symtab link) {k : ℕ}
    (inside : 16 * k ≤ (image.sectionAt order symtab).shSize.toNat) :
    ((· + (image.sectionAt order symtab).shEntsize)^[k] 0).toNat = 16 * k := by
  have bound := (image.sectionAt order symtab).shSize.isLt
  rw [Orbit.toNat_stride, wellFormed.entsize, show (16 : U32).toNat = 16 from rfl,
    Nat.mod_eq_of_lt (by omega), Nat.mul_comm]

theorem WellFormed.symbolStop_entry (wellFormed : WellFormed order image symtab link)
    (cstring : 0 ∉ name) {strtab k : ℕ} (index : strtab < image.eShnum order)
    (type : (image.sectionAt order strtab).shType = shtStrtab)
    (inside : k < (image.sectionAt order symtab).shSize.toNat / 16) :
    let esym := entry order image (image.sectionAt order symtab) k
    symbolStop order image (image.sectionAt order symtab) (image.sectionAt order strtab)
        (name ++ [0]) ((· + (image.sectionAt order symtab).shEntsize)^[k] 0) =
      if Named image (image.sectionAt order strtab) name esym then
        some (symbolPlace order image esym)
      else none := by
  intro esym
  have offset := wellFormed.toNat_offset (k := k) (by omega)
  have here : symbolAt order image (image.sectionAt order symtab)
      ((· + (image.sectionAt order symtab).shEntsize)^[k] 0) = esym := by
    rw [symbolAt, offset]
    rfl
  rw [symbolStop, if_pos (BitVec.lt_def.mpr (by omega)), here]
  simp only [symbolMatches_iff cstring (wellFormed.terminated strtab index type)]

theorem WellFormed.xrpFirmwareFindSymbol_eq_search (wellFormed : WellFormed order image symtab link)
    (lastStrtab : LastStrtab order image last) (fuel : ℕ) :
    xrpFirmwareFindSymbol order image fuel (name ++ [0]) =
      Orbit.search (symbolStop order image (image.sectionAt order symtab)
        (image.sectionAt order last) (name ++ [0]))
        (· + (image.sectionAt order symtab).shEntsize) fuel 0 := by
  rw [xrpFirmwareFindSymbol_eq, wellFormed.symbolTables_eq lastStrtab, ← findSymbolLoop_eq]

/-- The source finds the symbol by its name in the last string table. -/
theorem WellFormed.findsSymbol_last (wellFormed : WellFormed order image symtab link)
    (lastStrtab : LastStrtab order image last) (cstring : 0 ∉ name) :
    FindsSymbol order image name symtab last := by
  have stop {k : ℕ} := wellFormed.symbolStop_entry (k := k) cstring lastStrtab.index lastStrtab.type
  unfold FindsSymbol lookup firstObject
  simp only [wellFormed.xrpFirmwareFindSymbol_eq_search lastStrtab, Orbit.search_eq_some_iff]
  cases first : (List.range ((image.sectionAt order symtab).shSize.toNat / 16)).find? fun k =>
    Named image (image.sectionAt order last) name
      (entry order image (image.sectionAt order symtab) k) with
  | none =>
    simp only [List.find?_eq_none, List.mem_range, decide_eq_true_eq] at first
    obtain ⟨n, size⟩ := wellFormed.entries
    have last := wellFormed.toNat_offset size.ge
    refine ⟨n + 1, .error .enoent, ⟨n, Nat.lt_succ_self n, ?_, fun j less => ?_⟩, rfl⟩
    · rw [symbolStop, if_neg]
      rw [BitVec.lt_def]
      omega
    · rw [stop (by omega), if_neg (first j (by omega))]
  | some k =>
    simp only [List.find?_range_eq_some, List.mem_range, decide_eq_true_eq, Bool.not_eq_true',
      decide_eq_false_iff_not] at first
    obtain ⟨named, inside, before⟩ := first
    refine ⟨k + 1, _, ⟨k, Nat.lt_succ_self k, ?_, fun j less => ?_⟩,
      wellFormed.toOption_symbolPlace _⟩
    · rw [stop inside, if_pos named]
    · rw [stop (by omega), if_neg (before j less)]

/-- **The symbol with the name is found, if and only if** the first object that has the name in the
last string table has the same place as the first one that has it in the linked string table; so
always if the last string table is the linked one. -/
theorem findsSymbol_iff (wellFormed : WellFormed order image symtab link)
    (lastStrtab : LastStrtab order image last) (cstring : 0 ∉ name) :
    FindsSymbol order image name symtab link ↔
      lookup order image name symtab last = lookup order image name symtab link := by
  obtain ⟨fuel, result, found, right⟩ := wellFormed.findsSymbol_last lastStrtab cstring
  constructor
  · rintro ⟨fuel', result', found', right'⟩
    rw [wellFormed.xrpFirmwareFindSymbol_eq_search lastStrtab] at found found'
    rw [← right, ← right', Orbit.search_unique found found']
  · intro same
    exact ⟨fuel, result, found, right.trans same⟩

end Symbol

/-- The image with the two string tables is well-formed, whichever of them is linked. -/
theorem wellFormed_symbolImage {link : U32} (linked : link = 3 ∨ link = 4) :
    WellFormed .little (symbolImage link) 2 link.toNat := by
  rcases linked with rfl | rfl
  · constructor <;> decide +kernel
  · constructor <;> decide +kernel

theorem lastStrtab_symbolImage {link : U32} (linked : link = 3 ∨ link = 4) :
    LastStrtab .little (symbolImage link) 4 := by
  rcases linked with rfl | rfl
  · constructor <;> decide +kernel
  · constructor <;> decide +kernel

/-- The name `a`, with the string table for it linked to the symbols. -/
theorem findsSymbol_linked :
    lookup .little (symbolImage 4) [0x61] 2 4 = some (252, 4) ∧
      FindsSymbol .little (symbolImage 4) [0x61] 2 4 :=
  ⟨by decide +kernel,
    (findsSymbol_iff (wellFormed_symbolImage (.inr rfl)) (lastStrtab_symbolImage (.inr rfl))
      (by decide)).mpr rfl⟩

/-- The name `v`, with its string table linked to the symbols: the symbol is not found, because
another string table is behind it. -/
theorem not_findsSymbol :
    WellFormed .little (symbolImage 3) 2 3 ∧
      lookup .little (symbolImage 3) [0x76] 2 3 = some (252, 4) ∧
      xrpFirmwareFindSymbol .little (symbolImage 3) 3 ([0x76] ++ [0]) = some (.error .enoent) ∧
      ¬ FindsSymbol .little (symbolImage 3) [0x76] 2 3 := by
  have wellFormed : WellFormed .little (symbolImage 3) 2 3 := wellFormed_symbolImage (.inl rfl)
  have there : lookup .little (symbolImage 3) [0x76] 2 3 = some (252, 4) := by decide +kernel
  have lost : xrpFirmwareFindSymbol .little (symbolImage 3) 3 ([0x76] ++ [0]) =
      some (.error .enoent) := by
    decide +kernel
  refine ⟨wellFormed, there, lost, ?_⟩
  rintro ⟨fuel, result, found, right⟩
  have lastStrtab : LastStrtab .little (symbolImage 3) 4 := lastStrtab_symbolImage (.inl rfl)
  rw [wellFormed.xrpFirmwareFindSymbol_eq_search lastStrtab] at found lost
  rw [← Orbit.search_unique lost found, there] at right
  cases right

end Xrp.Kernel.Firmware
