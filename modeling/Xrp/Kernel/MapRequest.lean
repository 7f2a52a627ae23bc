import Xrp.Kernel.HwRequest

/-!
# Mapping of requests

`xrp_map_request` and `xrp_unmap_request_nowb` of `xvp_main.c`, with the pins of
pages and the references to allocations that they take and give back. The
`struct xrp_request` is on the stack, and what its mappings contain before the
call is arbitrary. What may go wrong is decided by an environment. Physical
addresses handed on to the DSP, inline data and cache maintenance are left out:
inline data shares memory with a mapping only where the mapping is not used.
-/

namespace Xrp.Kernel

/-- `XRP_FLAG_READ`. -/
def flagRead : U32 := 1

/-- `XRP_FLAG_WRITE`. -/
def flagWrite : U32 := 2

/-- `XRP_FLAG_READ_WRITE`. -/
def flagReadWrite : U32 := 3

/-! ## Counts -/

/-- The pins of each page frame and the references to each allocation. -/
abbrev Counts := (ℕ → ℤ) × (ULong → ℤ)

/-- One pin of a page. -/
def pin (page : ℕ) : Counts := (Pi.single page 1, 0)

/-- One reference to an allocation. -/
def ref (allocation : ULong) : Counts := (0, Pi.single allocation 1)

/-- `get_page` for each page of a list. -/
def getPages (pages : List ℕ) (counts : Counts) : Counts :=
  pages.foldl (fun c page => c + pin page) counts

/-- `put_page` for each page of a list. -/
def putPages (pages : List ℕ) (counts : Counts) : Counts :=
  pages.foldl (fun c page => c - pin page) counts

/-! ## Mappings -/

/-- `ALIEN_GUP`. -/
def alienGup : U32 := 0

/-- `ALIEN_PFN_MAP`. -/
def alienPfnMap : U32 := 1

/-- `ALIEN_COPY`. -/
def alienCopy : U32 := 2

/-- `struct xrp_alien_mapping`; the type may be any word in memory that was not written. -/
structure XrpAlienMapping : Type where
  vaddr : ULong
  size : ULong
  paddr : ℕ
  allocation : ULong
  type : U32
  deriving DecidableEq

/-- `XRP_MAPPING_NONE`. -/
def mappingNone : U32 := 0

/-- `XRP_MAPPING_NATIVE`. -/
def mappingNative : U32 := 1

/-- `XRP_MAPPING_ALIEN`. -/
def mappingAlien : U32 := 2

/-- `XRP_MAPPING_KERNEL`. -/
def mappingKernel : U32 := 4

/-- `struct xrp_mapping`. -/
structure XrpMapping : Type where
  type : U32
  alienMapping : XrpAlienMapping
  deriving DecidableEq

/-- The pointer `xrp_allocation` shares memory with the first field of `alien_mapping`. -/
def XrpMapping.xrpAllocation (m : XrpMapping) : ULong := m.alienMapping.vaddr

/-- The mapping after `xrp_allocation` is written. -/
def XrpMapping.setXrpAllocation (m : XrpMapping) (allocation : ULong) : XrpMapping :=
  { m with alienMapping := { m.alienMapping with vaddr := allocation } }

/-- The mapping in zeroed memory. -/
def XrpMapping.zero : XrpMapping := ⟨mappingNone, ⟨0, 0, 0, 0, 0⟩⟩

/-- The number of pages of a range, an `int`. -/
def nrPages (vaddr size : ULong) : ℕ :=
  (((vaddr + size + (pageSize.setWidth 64 - 1)) >>> pageShift) -
    (vaddr >>> pageShift)).setWidth 32 |>.toInt.toNat

/-! ## Sharing -/

/-- What `get_user_pages_fast` pins, if it and `kmalloc` succeed, and if the pages can be
translated for the DSP. -/
structure GupEnv : Type where
  pages : Option (List ℕ)
  translatable : Bool

/-- Page frames that follow each other. -/
def contiguous : List ℕ → Bool
  | a :: b :: pages => b == a + 1 && contiguous (b :: pages)
  | _ => true

/-- `xvp_gup_virt_to_phys`. -/
def xvpGupVirtToPhys (env : GupEnv) (vaddr size : ULong) (counts : Counts) :
    Option XrpAlienMapping × Counts :=
  match env.pages.map (·.take (nrPages vaddr size)) with
  | none => (none, counts)
  | some pages =>
    let pinned := getPages pages counts
    match pages with
    | [] => (none, pinned)
    | first :: _ =>
      if pages.length < nrPages vaddr size then (none, putPages pages pinned)
      else if env.translatable && contiguous pages then
        (some ⟨vaddr, size, first * pageSize.toNat + vaddr.toNat % pageSize.toNat, 0, alienGup⟩,
          pinned)
      else (none, putPages pages pinned)

/-- What `xrp_allocate` returns, where the copy goes, and if the copy faults. -/
structure CopyEnv : Type where
  allocation : Except Errno ULong
  phys : ℕ
  fault : Bool

/-- `xvp_copy_virt_to_phys`. -/
def xvpCopyVirtToPhys (env : CopyEnv) (flags : U32) (vaddr size : ULong) (counts : Counts) :
    Except Errno XrpAlienMapping × Counts :=
  match env.allocation with
  | .error e => (.error e, counts)
  | .ok allocation =>
    let counts := counts + ref allocation
    if flags &&& flagRead ≠ 0 ∧ env.fault then (.error .efault, counts - ref allocation)
    else (.ok ⟨vaddr, size, env.phys, allocation, alienCopy⟩, counts)

/-- What covers the region to share: nothing or a part of it only; one area, with the allocation
behind it if that can be used directly, and the result of `xvp_pfn_virt_to_phys` if it is an
I/O or PFN mapping; or more than one area. -/
inductive Region : Type
  | bad
  | single (native : Option ULong) (pfn : Option (Option ℕ))
  | multiple

/-- What `__xrp_share_block` finds. -/
structure ShareEnv : Type where
  region : Region
  gup : GupEnv
  copy : CopyEnv

/-- The mapping of memory that is not of the driver, before a shadow copy is tried. -/
def shareDirect (env : ShareEnv) (virt size : ULong) (counts : Counts) :
    Option XrpAlienMapping × Counts :=
  match env.region with
  | .single _ (some pfn) => (pfn.map fun paddr => ⟨virt, size, paddr, 0, alienPfnMap⟩, counts)
  | _ => xvpGupVirtToPhys env.gup virt size counts

/-- The mapping of memory that is not of the driver: a shadow copy if it cannot be shared. -/
def shareAlien (env : ShareEnv) (flags : U32) (virt size : ULong) (counts : Counts) :
    Option XrpAlienMapping × Counts :=
  match shareDirect env virt size counts with
  | (some alien, counts) => (some alien, counts)
  | (none, counts) =>
    match xvpCopyVirtToPhys env.copy flags virt size counts with
    | (.ok alien, counts) => (some alien, counts)
    | (.error _, counts) => (none, counts)

/-- `__xrp_share_block`: the new contents of the mapping, which are the old ones if it fails. -/
def xrpShareBlock (env : ShareEnv) (flags : U32) (virt size : ULong) (mapping : XrpMapping)
    (counts : Counts) : Option XrpMapping × Counts :=
  match env.region with
  | .bad => (none, counts)
  | .single (some allocation) _ =>
    (some (({ mapping with type := mappingNative } : XrpMapping).setXrpAllocation allocation),
      counts + ref allocation)
  | _ =>
    match shareAlien env flags virt size counts with
    | (some alien, counts) => (some ⟨mappingAlien, alien⟩, counts)
    | (none, counts) => (none, counts)

/-- If the DSP can reach kernel memory, and else the shadow copy. -/
structure KernelEnv : Type where
  translatable : Bool
  copy : CopyEnv

/-- `xrp_share_kernel`: what it returns, and the new contents of the mapping. -/
def xrpShareKernel (env : KernelEnv) (virt size : ULong) (flags : U32) (mapping : XrpMapping)
    (counts : Counts) : Except Errno Unit × XrpMapping × Counts :=
  if env.translatable then (.ok (), { mapping with type := mappingKernel }, counts)
  else
    match xvpCopyVirtToPhys env.copy flags virt size counts with
    | (.ok alien, counts) => (.ok (), ⟨mappingAlien ||| mappingKernel, alien⟩, counts)
    | (.error e, counts) =>
      -- the type is written all the same
      (.error e, { mapping with type := mappingAlien ||| mappingKernel }, counts)

/-! ## Unsharing -/

/-- `xrp_alien_mapping_destroy`. -/
def xrpAlienMappingDestroy (a : XrpAlienMapping) (counts : Counts) : Counts :=
  if a.type = alienGup then
    putPages ((List.range (nrPages a.vaddr a.size)).map (a.paddr / pageSize.toNat + ·)) counts
  else if a.type = alienCopy then counts - ref a.allocation
  else counts

/-- The type of a mapping without the flag for kernel memory. -/
def XrpMapping.kind (m : XrpMapping) : U32 := m.type &&& ~~~mappingKernel

/-- What `__xrp_unshare_block` without write-back does to the counts. -/
def xrpUnshareBlock (m : XrpMapping) (counts : Counts) : Counts :=
  if m.kind = mappingNative then counts - ref m.xrpAllocation
  else if m.kind = mappingAlien then xrpAlienMappingDestroy m.alienMapping counts
  else counts

/-- To unshare the mapping gives back a pin or a reference. -/
def XrpMapping.Live (m : XrpMapping) : Prop :=
  m.kind = mappingNative ∨ m.kind = mappingAlien ∧
    (m.alienMapping.type = alienGup ∧ 0 < nrPages m.alienMapping.vaddr m.alienMapping.size ∨
      m.alienMapping.type = alienCopy)

instance (m : XrpMapping) : Decidable m.Live := inferInstanceAs (Decidable (_ ∨ _))

/-! ## Requests -/

/-- The mappings of `struct xrp_request`. -/
inductive Field : Type
  | inData
  | outData
  | buffer (i : ℕ)
  | dspBuffer
  deriving DecidableEq

/-- The mappings, the counts, and which mappings were created and destroyed so far. -/
structure MapState : Type where
  maps : Field → XrpMapping
  counts : Counts
  created : List Field
  destroyed : List Field

/-- The part of `struct xrp_ioctl_queue` that `xrp_map_request` reads. -/
structure MapQueue : Type where
  flags : U32
  inDataSize : U32
  outDataSize : U32
  bufferSize : U32
  inDataAddr : ULong
  outDataAddr : ULong

/-- The number of buffers. -/
def MapQueue.nBuffers (q : MapQueue) : ℕ := q.bufferSize.toNat / sizeofIoctlBuffer

/-- `__xrp_unshare_block` without write-back. -/
def unshareField (s : MapState) (f : Field) : MapState :=
  { s with
    maps := Function.update s.maps f { s.maps f with type := mappingNone }
    counts := xrpUnshareBlock (s.maps f) s.counts
    destroyed := if (s.maps f).Live then s.destroyed ++ [f] else s.destroyed }

/-- The mappings that `xrp_unmap_request_nowb` unshares, in order. -/
def MapQueue.unshared (q : MapQueue) : List Field :=
  (if q.inDataSize.toNat > inlineDataSize then [.inData] else []) ++
    (if q.outDataSize.toNat > inlineDataSize then [.outData] else []) ++
    (List.range q.nBuffers).map .buffer ++
    (if q.nBuffers > inlineBufferCount then [.dspBuffer] else [])

/-- The mappings that `xrp_unmap_request` unshares, in order. -/
def MapQueue.unmapped (q : MapQueue) : List Field :=
  (if q.inDataSize.toNat > inlineDataSize then [Field.inData] else []) ++
    (if q.outDataSize.toNat > inlineDataSize then [Field.outData] else []) ++
    (if q.nBuffers > inlineBufferCount then [Field.dspBuffer] else []) ++
    (List.range q.nBuffers).map Field.buffer

/-- `xrp_unmap_request_nowb`. -/
def xrpUnmapRequestNowb (q : MapQueue) (s : MapState) : MapState :=
  q.unshared.foldl unshareField s

/-- Where `xrp_map_request` fails. -/
inductive FailPoint : Type
  | nsid
  | memory
  | inData
  | outData
  | buffer (i : ℕ)
  | dspBuffer
  deriving DecidableEq

/-- A part of `xrp_map_request`. -/
abbrev MapAction := MapState → Except (FailPoint × Errno) Unit × MapState

/-- The second part follows if the first one succeeds. -/
def MapAction.andThen (first second : MapAction) : MapAction := fun s =>
  match first s with
  | (.ok (), s') => second s'
  | (.error e, s') => (.error e, s')

/-- The call of `__xrp_share_block` for a mapping. -/
def shareField (f : Field) (point : FailPoint) (env : ShareEnv) (flags : U32)
    (virt size : ULong) : MapAction := fun s =>
  match xrpShareBlock env flags virt size (s.maps f) s.counts with
  | (some m, counts) =>
    (.ok (),
      { s with maps := Function.update s.maps f m, counts := counts, created := s.created ++ [f] })
  | (none, counts) => (.error (point, .einval), { s with counts := counts })

/-- A descriptor of a buffer, if it can be copied from user space, and what is found there. -/
structure BufferEnv : Type where
  descriptor : Option (U32 × ULong × U32)
  share : ShareEnv

/-- What `xrp_map_request` finds; `memory` is if `kmalloc` succeeds, `dspBuffer` the address
that it returns. -/
structure MapEnv : Type where
  nsidFault : Bool
  memory : Bool
  inDataFault : Bool
  inData : ShareEnv
  outData : ShareEnv
  buffers : ℕ → BufferEnv
  dspBuffer : ULong
  table : KernelEnv

section MapRequest

variable (env : MapEnv) (q : MapQueue)

/-- The input data. -/
def shareInData : MapAction :=
  if q.inDataSize.toNat > inlineDataSize then
    shareField .inData .inData env.inData flagRead q.inDataAddr (q.inDataSize.setWidth 64)
  else fun s => (if env.inDataFault then .error (.inData, .efault) else .ok (), s)

/-- The output data. -/
def shareOutData : MapAction :=
  if q.outDataSize.toNat > inlineDataSize then
    shareField .outData .outData env.outData flagWrite q.outDataAddr (q.outDataSize.setWidth 64)
  else fun s => (.ok (), s)

/-- One buffer; it is shared if its flags ask for access. -/
def shareBuffer (i : ℕ) : MapAction :=
  match (env.buffers i).descriptor with
  | none => fun s => (.error (.buffer i, .efault), s)
  | some (flags, addr, size) =>
    if flags &&& flagReadWrite ≠ 0 then
      shareField (.buffer i) (.buffer i) (env.buffers i).share flags addr (size.setWidth 64)
    else fun s => (.ok (), s)

/-- The buffers up to `n`. -/
def shareBuffers : ℕ → MapAction
  | 0 => fun s => (.ok (), s)
  | n + 1 => (shareBuffers n).andThen (shareBuffer env n)

/-- The table of descriptors. -/
def shareDspBuffer : MapAction := fun s =>
  if q.nBuffers > inlineBufferCount then
    match xrpShareKernel env.table env.dspBuffer (.ofNat 64 (q.nBuffers * sizeofDspBuffer))
      flagReadWrite (s.maps .dspBuffer) s.counts with
    | (.ok (), m, counts) =>
      (.ok (),
        { s with
          maps := Function.update s.maps .dspBuffer m
          counts := counts
          created := s.created ++ [.dspBuffer] })
    | (.error e, m, counts) =>
      (.error (.dspBuffer, e),
        { s with maps := Function.update s.maps .dspBuffer m, counts := counts })
  else (.ok (), s)

/-- All that is shared. -/
def shareAll : MapAction :=
  (shareInData env q).andThen <| (shareOutData env q).andThen <|
    (shareBuffers env q.nBuffers).andThen (shareDspBuffer env q)

/-- The mappings of the buffers are in zeroed memory. -/
def zeroBuffers (s : MapState) : MapState :=
  { s with
    maps := fun f =>
      match f with
      | .buffer i => if i < q.nBuffers then .zero else s.maps f
      | _ => s.maps f }

/-- `xrp_map_request`. -/
def xrpMapRequest : MapAction := fun s =>
  if q.flags &&& queueFlagNsid ≠ 0 ∧ env.nsidFault then (.error (.nsid, .einval), s)
  else if q.nBuffers > inlineBufferCount ∧ !env.memory then (.error (.memory, .enomem), s)
  else
    match shareAll env q (zeroBuffers q s) with
    | (.ok (), s') => (.ok (), s')
    | (.error e, s') => (.error e, xrpUnmapRequestNowb q s')

end MapRequest

end Xrp.Kernel
