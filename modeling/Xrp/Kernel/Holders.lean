import Xrp.Base.Arena
import Xrp.Kernel.Mmap
import Xrp.Kernel.MapRequestUndo

/-!
# Who holds an allocation

An allocation of the driver is first on the `busy_list` of a file, then in the `vm_private_data` of
areas that user space may split, copy and remove, and in the mappings of requests in flight. The
driver counts references (`ref`), and the last one that is put returns the allocation to the pool.

Each call of `__xrp_share_block` and `__xrp_unshare_block` is a step, and so is everything that the
kernel does with an area. `struct xrp_allocation` objects are known by their addresses, which are
used again.
-/

namespace Xrp.Kernel

/-- Where the object is. -/
def AllocObject.address (a : AllocObject) : ULong := .ofNat 64 a.ptr

/-! ## What a mapping refers to -/

/-- The allocation that `__xrp_unshare_block` puts. -/
def XrpMapping.reference (m : XrpMapping) : Option ULong :=
  if m.kind = mappingNative then some m.xrpAllocation
  else if m.kind = mappingAlien ∧ m.alienMapping.type = alienCopy then
    some m.alienMapping.allocation
  else none

/-- The allocation of the area that covers the region, if it is used directly. -/
def ShareEnv.native (env : ShareEnv) : Option ULong :=
  match env.region with
  | .single native _ => native
  | _ => none

/-- The allocation that `xvp_copy_virt_to_phys` makes, if `__xrp_share_block` gets there and there
is memory. -/
def ShareEnv.shadow (env : ShareEnv) (virt size : ULong) : Option ULong :=
  match env.region with
  | .bad => none
  | .single (some _) _ => none
  | _ =>
    match (shareDirect env virt size 0).1 with
    | some _ => none
    | none => env.copy.allocation.toOption

/-- The allocation that `xrp_share_kernel` makes. -/
def KernelEnv.shadow (env : KernelEnv) : Option ULong :=
  if env.translatable then none else env.copy.allocation.toOption

section Parts

variable (env : MapEnv) (q : MapQueue)

/-- The part of `xrp_map_request` for one mapping. -/
def sharePart : Field → MapAction
  | .inData => shareInData env q
  | .outData => shareOutData env q
  | .buffer i => shareBuffer env i
  | .dspBuffer => shareDspBuffer env q

/-- The parts of `xrp_map_request`, in order. -/
def MapQueue.parts : List Field :=
  [Field.inData, Field.outData] ++ (List.range q.nBuffers).map Field.buffer ++ [Field.dspBuffer]

/-- Parts one after another, as long as they succeed. -/
def MapAction.sequence (actions : List MapAction) : MapAction :=
  actions.foldr .andThen fun s => (.ok (), s)

/-- The allocation found for a mapping in an area of the driver. -/
def partNative : Field → Option ULong
  | .inData => env.inData.native
  | .outData => env.outData.native
  | .buffer i => (env.buffers i).share.native
  | .dspBuffer => none

/-- The allocation made for a mapping. -/
def partShadow : Field → Option ULong
  | .inData =>
    if q.inDataSize.toNat > inlineDataSize then
      env.inData.shadow q.inDataAddr (q.inDataSize.setWidth 64)
    else none
  | .outData =>
    if q.outDataSize.toNat > inlineDataSize then
      env.outData.shadow q.outDataAddr (q.outDataSize.setWidth 64)
    else none
  | .buffer i =>
    match (env.buffers i).descriptor with
    | none => none
    | some (flags, addr, size) =>
      if flags &&& flagReadWrite ≠ 0 then (env.buffers i).share.shadow addr (size.setWidth 64)
      else none
  | .dspBuffer => if q.nBuffers > inlineBufferCount then env.table.shadow else none

end Parts

theorem MapAction.andThen_assoc (first second third : MapAction) :
    (first.andThen second).andThen third = first.andThen (second.andThen third) := by
  funext s
  unfold MapAction.andThen
  rcases first s with ⟨_ | _, s'⟩ <;> rfl

theorem MapAction.sequence_append (actions actions' : List MapAction) :
    MapAction.sequence (actions ++ actions') =
      (MapAction.sequence actions).andThen (MapAction.sequence actions') := by
  induction actions with
  | nil => rfl
  | cons action actions ih =>
    calc MapAction.sequence (action :: actions ++ actions')
        = action.andThen (MapAction.sequence (actions ++ actions')) := rfl
      _ = action.andThen
            ((MapAction.sequence actions).andThen (MapAction.sequence actions')) := by rw [ih]
      _ = _ := (MapAction.andThen_assoc ..).symm

theorem MapAction.sequence_singleton (action : MapAction) :
    MapAction.sequence [action] = action := by
  funext s
  unfold MapAction.sequence List.foldr List.foldr MapAction.andThen
  rcases action s with ⟨_ | _, s'⟩ <;> rfl

theorem shareBuffers_eq_sequence (env : MapEnv) (n : ℕ) :
    shareBuffers env n = .sequence ((List.range n).map (shareBuffer env)) := by
  induction n with
  | zero => rfl
  | succ n ih =>
    rw [shareBuffers, ih, List.range_succ, List.map_append, MapAction.sequence_append,
      List.map_singleton, MapAction.sequence_singleton]

/-- `xrp_map_request` shares part by part. -/
theorem shareAll_eq_sequence (env : MapEnv) (q : MapQueue) :
    shareAll env q = .sequence (q.parts.map (sharePart env q)) := by
  have buffers : ((List.range q.nBuffers).map Field.buffer).map (sharePart env q) =
      (List.range q.nBuffers).map (shareBuffer env) := List.map_map
  have data : MapAction.sequence ([.inData, .outData].map (sharePart env q)) =
      (shareInData env q).andThen (shareOutData env q) := by
    rw [← List.singleton_append, List.map_append, MapAction.sequence_append, List.map_singleton,
      List.map_singleton, MapAction.sequence_singleton, MapAction.sequence_singleton]
    rfl
  rw [MapQueue.parts, List.map_append, List.map_append, buffers, MapAction.sequence_append,
    MapAction.sequence_append, ← shareBuffers_eq_sequence, List.map_singleton,
    MapAction.sequence_singleton, data, MapAction.andThen_assoc, MapAction.andThen_assoc]
  rfl

section References

variable {counts counts' : Counts}

theorem sum_pins_snd (pages : List ℕ) : (pages.map pin).sum.2 = 0 := by
  induction pages with
  | nil => rfl
  | cons page pages ih =>
    rw [List.map_cons, List.sum_cons, Prod.snd_add, ih]
    rfl

/-- Of what a mapping holds, the reference. -/
theorem XrpMapping.held_snd (m : XrpMapping) :
    m.held.2 = m.reference.elim 0 fun p => Pi.single p 1 := by
  unfold XrpMapping.held XrpMapping.reference
  split_ifs with native alien copy copy
  · rfl
  · rw [XrpAlienMapping.held, if_neg (by rw [copy.2]; decide), if_pos copy.2]
    rfl
  · have other : m.alienMapping.type ≠ alienCopy := fun same => copy ⟨alien, same⟩
    unfold XrpAlienMapping.held
    rw [if_neg other]
    split_ifs
    · exact sum_pins_snd _
    · rfl
  · exact absurd copy.1 alien
  · rfl

theorem reference_alien {a : XrpAlienMapping} {type : U32}
    (alien : type &&& ~~~mappingKernel = mappingAlien) :
    XrpMapping.reference ⟨type, a⟩ = if a.type = alienCopy then some a.allocation else none := by
  have other : mappingAlien ≠ mappingNative := by decide
  simp [XrpMapping.reference, XrpMapping.kind, alien, other]

theorem reference_none {m : XrpMapping} (empty : m.kind = mappingNone) : m.reference = none := by
  have native : mappingNone ≠ mappingNative := by decide
  have alien : mappingNone ≠ mappingAlien := by decide
  simp [XrpMapping.reference, empty, native, alien]

theorem xvpCopyVirtToPhys_reference {env : CopyEnv} {flags type : U32} {vaddr size : ULong}
    {a : XrpAlienMapping} (alien : type &&& ~~~mappingKernel = mappingAlien)
    (copied : xvpCopyVirtToPhys env flags vaddr size counts = (.ok a, counts')) :
    XrpMapping.reference ⟨type, a⟩ = env.allocation.toOption := by
  unfold xvpCopyVirtToPhys at copied
  split at copied
  · cases copied
  · next allocation made =>
    dsimp only at copied
    split_ifs at copied
    · cases copied
    · cases copied
      rw [reference_alien alien, if_pos rfl, made]
      rfl

theorem xvpGupVirtToPhys_fst (env : GupEnv) (vaddr size : ULong) :
    (xvpGupVirtToPhys env vaddr size counts).1 = (xvpGupVirtToPhys env vaddr size counts').1 := by
  unfold xvpGupVirtToPhys
  cases env.pages.map (·.take (nrPages vaddr size)) with
  | none => rfl
  | some pages =>
    cases pages with
    | nil => rfl
    | cons first rest =>
      dsimp only
      split_ifs <;> rfl

theorem shareDirect_fst (env : ShareEnv) (virt size : ULong) :
    (shareDirect env virt size counts).1 = (shareDirect env virt size counts').1 := by
  unfold shareDirect
  split
  · rfl
  · exact xvpGupVirtToPhys_fst ..

theorem xvpGupVirtToPhys_type {env : GupEnv} {vaddr size : ULong} {a : XrpAlienMapping}
    (shared : (xvpGupVirtToPhys env vaddr size counts).1 = some a) : a.type = alienGup := by
  unfold xvpGupVirtToPhys at shared
  split at shared
  · cases shared
  · dsimp only at shared
    split at shared
    · cases shared
    · split_ifs at shared
      cases shared
      rfl

/-- Memory that is shared as it is needs no allocation. -/
theorem shareDirect_type {env : ShareEnv} {virt size : ULong} {a : XrpAlienMapping}
    (shared : (shareDirect env virt size counts).1 = some a) : a.type ≠ alienCopy := by
  unfold shareDirect at shared
  split at shared
  · obtain ⟨paddr, _, rfl⟩ := Option.map_eq_some_iff.mp shared
    show alienPfnMap ≠ alienCopy
    decide
  · rw [xvpGupVirtToPhys_type shared]
    decide

/-- What the mapping refers to is found in an area of the driver, or is made for a shadow. -/
theorem xrpShareBlock_reference {env : ShareEnv} {flags : U32} {virt size : ULong}
    {m x : XrpMapping} (shared : xrpShareBlock env flags virt size m counts = (some x, counts')) :
    x.reference = env.shadow virt size ∨
      env.shadow virt size = none ∧ ∃ p, x.reference = some p ∧ env.native = some p := by
  unfold xrpShareBlock at shared
  split at shared
  · cases shared
  · next allocation _ region =>
    cases shared
    refine .inr ⟨by simp [ShareEnv.shadow, region], allocation, ?_,
      by simp [ShareEnv.native, region]⟩
    exact if_pos kind_native
  · next bad native =>
    have shadow : env.shadow virt size =
        match (shareDirect env virt size counts).1 with
        | some _ => none
        | none => env.copy.allocation.toOption := by
      have same : (shareDirect env virt size 0).1 = (shareDirect env virt size counts).1 :=
        shareDirect_fst env virt size
      unfold ShareEnv.shadow
      rw [same]
      cases region : env.region with
      | bad => exact absurd region bad
      | single allocation pfn =>
        cases allocation with
        | none => rfl
        | some allocation => exact absurd region (native allocation pfn)
      | multiple => rfl
    left
    rw [shadow]
    unfold shareAlien at shared
    split at shared
    · next a _ made =>
      cases shared
      split at made
      · next direct =>
        cases made
        rw [direct, reference_alien kind_alien,
          if_neg (shareDirect_type (congrArg Prod.fst direct))]
      · next direct =>
        split at made
        · next copied =>
          cases made
          rw [direct]
          exact xvpCopyVirtToPhys_reference kind_alien copied
        · cases made
    · cases shared

theorem xrpShareKernel_reference {env : KernelEnv} {virt size : ULong} {flags : U32}
    {m x : XrpMapping}
    (shared : xrpShareKernel env virt size flags m counts = (.ok (), x, counts')) :
    x.reference = env.shadow := by
  unfold xrpShareKernel at shared
  unfold KernelEnv.shadow
  split_ifs at shared with translatable
  · cases shared
    rw [if_pos translatable]
    exact reference_none kind_kernel
  · rw [if_neg translatable]
    split at shared
    · next copied =>
      cases shared
      exact xvpCopyVirtToPhys_reference kind_alienKernel copied
    · cases shared

/-- The reference of a new mapping: to what was allocated for it, or else to the allocation that an
area of the driver has. -/
def NewReference (reference shadow native : Option ULong) : Prop :=
  reference = shadow ∨ shadow = none ∧ ∃ p, reference = some p ∧ native = some p

/-- How a part of `xrp_map_request` may end. -/
inductive PartResult (env : MapEnv) (q : MapQueue) (f : Field) (ms : MapState) :
    Except (FailPoint × Errno) Unit × MapState → Prop
  | skipped : partShadow env q f = none → (f ∈ q.unshared → ∃ i, f = .buffer i) →
    PartResult env q f ms (.ok (), ms)
  | shared (x : XrpMapping) :
    NewReference x.reference (partShadow env q f) (partNative env f) →
    (f ∈ q.unshared ∨ ∃ i, f = .buffer i) →
    PartResult env q f ms (.ok (),
      { ms with
        maps := Function.update ms.maps f x
        counts := ms.counts + x.held
        created := ms.created ++ [f] })
  | failed (e : FailPoint × Errno) (x : XrpMapping) :
    PartResult env q f ms (.error e, { ms with maps := Function.update ms.maps f x })

theorem PartResult.failed_same {env : MapEnv} {q : MapQueue} {f : Field} {ms : MapState}
    (e : FailPoint × Errno) : PartResult env q f ms (.error e, ms) := by
  have unchanged : PartResult env q f ms
      (.error e, { ms with maps := Function.update ms.maps f (ms.maps f) }) := .failed e _
  rwa [Function.update_eq_self] at unchanged

theorem shareField_result {env : MapEnv} {q : MapQueue} {f : Field} {point : FailPoint}
    {share : ShareEnv} {flags : U32} {virt size : ULong} {ms : MapState}
    (shadow : partShadow env q f = share.shadow virt size)
    (native : partNative env f = share.native)
    (selected : f ∈ q.unshared ∨ ∃ i, f = .buffer i) :
    PartResult env q f ms (shareField f point share flags virt size ms) := by
  have takes := xrpShareBlock_takes share flags virt size (ms.maps f) ms.counts
  unfold shareField
  split
  · next m counts result =>
    rw [result] at takes
    have reference := xrpShareBlock_reference result
    rw [← shadow, ← native] at reference
    obtain rfl : counts = ms.counts + m.held := takes
    exact .shared m reference selected
  · next counts result =>
    rw [result] at takes
    obtain rfl : counts = ms.counts := takes.trans (add_zero _)
    exact .failed_same _

theorem sharePart_result (env : MapEnv) (q : MapQueue) (f : Field) (ms : MapState) :
    PartResult env q f ms (sharePart env q f ms) := by
  cases f with
  | inData =>
    rw [sharePart, shareInData]
    split_ifs with large fault
    · exact shareField_result (if_pos large) rfl (.inl (by simp [MapQueue.unshared, large]))
    · exact .failed_same _
    · exact .skipped (if_neg large) fun member => by simp [MapQueue.unshared, large] at member
  | outData =>
    rw [sharePart, shareOutData]
    split_ifs with large
    · exact shareField_result (if_pos large) rfl (.inl (by simp [MapQueue.unshared, large]))
    · exact .skipped (if_neg large) fun member => by simp [MapQueue.unshared, large] at member
  | buffer i =>
    rw [sharePart, shareBuffer]
    cases descriptor : (env.buffers i).descriptor with
    | none => exact .failed_same _
    | some d =>
      obtain ⟨flags, addr, size⟩ := d
      have shadow : partShadow env q (.buffer i) =
          if flags &&& flagReadWrite ≠ 0 then
            (env.buffers i).share.shadow addr (size.setWidth 64)
          else none := by
        rw [partShadow, descriptor]
      dsimp only
      split_ifs with access
      · exact shareField_result (shadow.trans (if_pos access)) rfl (.inr ⟨i, rfl⟩)
      · exact .skipped (shadow.trans (if_neg access)) fun _ => ⟨i, rfl⟩
  | dspBuffer =>
    rw [sharePart, shareDspBuffer]
    split_ifs with large
    · have cases := xrpShareKernel_cases env.table env.dspBuffer
        (.ofNat 64 (q.nBuffers * sizeofDspBuffer)) flagReadWrite (ms.maps .dspBuffer) ms.counts
      rcases cases with ⟨x, result⟩ | ⟨e, result⟩
      · have reference := xrpShareKernel_reference result
        rw [result]
        refine .shared x (.inl (reference.trans (if_pos large).symm)) (.inl ?_)
        simp [MapQueue.unshared, large]
      · rw [result]
        exact .failed _ _
    · exact .skipped (if_neg large) fun member => by simp [MapQueue.unshared, large] at member

end References

namespace Holders

/-! ## The state of the driver -/

/-- An area of a file of the driver, and the address space that it is in. -/
structure Vma : Type where
  mm : ℕ
  file : ℕ
  area : VmArea
  privateData : AllocObject

/-- What remains to be done for a request. The DSP has it when nothing remains to be shared. -/
inductive Stage : Type
  | sharing (rest : List Field)
  | unsharing (failed : Bool) (rest : List Field)

/-- A request that was passed to `xrp_ioctl_submit_sync`, and its `struct xrp_request`. -/
structure Request : Type where
  file : ℕ
  mm : ℕ
  queue : MapQueue
  maps : Field → XrpMapping
  created : List Field
  stage : Stage

/-- The state of the driver: pins of pages, the allocations, the `busy_list` of each file, the areas
of all address spaces, the requests in `xrp_ioctl_submit_sync`, and the allocations that a failed
`xvp_mmap` took off a list. -/
structure State : Type where
  pins : ℕ → ℤ
  arena : Arena ℕ ULong
  busyList : ℕ → List AllocObject
  closed : ℕ → Bool
  vmas : ℕ → Option Vma
  requests : ℕ → Option Request
  lost : List ULong

namespace State

/-- The driver before any file is opened. -/
def init : State where
  pins := 0
  arena := .empty
  busyList _ := []
  closed _ := false
  vmas _ := none
  requests _ := none
  lost := []

variable (s : State)

/-- The references to allocations. -/
def refs : ULong → ℤ := s.arena.refs

/-- Pins and references. -/
def counts : Counts := (s.pins, s.arena.refs)

/-- `xrp_allocate` and `xrp_allocation_queue` in `xrp_ioctl_alloc`. -/
def alloc (file : ℕ) (p : ULong) (b : PhysBlock) : State :=
  { s with
    arena := s.arena.create file p
    busyList := Function.update s.busyList file
      (xrpAllocationQueue (s.busyList file) ⟨p.toNat, b⟩) }

/-- What `xvp_mmap` takes off the list. -/
def dequeued (pmem : ULong) (file : ℕ) (vma : VmArea) : Option AllocObject :=
  (xrpAllocationDequeue ((vma.vmPgoff + (pmem >>> pageShift)) <<< pageShift)
    (vma.length.setWidth 32) (s.busyList file)).1

/-- `mmap` of a file. If `xvp_mmap` fails the area is given up without `close`. -/
def mmap (pmem : ULong) (file mm j : ℕ) (vma : VmArea) (remapPfnRange : Except Errno Unit) :
    State :=
  match xvpMmap pmem remapPfnRange (s.busyList file) vma with
  | (.ok m, busyList) =>
    { s with
      busyList := Function.update s.busyList file busyList
      vmas := Function.update s.vmas j (some ⟨mm, file, vma, m.privateData⟩) }
  | (.error _, busyList) =>
    { s with
      busyList := Function.update s.busyList file busyList
      lost := s.lost ++ (s.dequeued pmem file vma).toList.map (·.address) }

/-- An area is split or copied, with `xvp_vm_open` for the new one. -/
def duplicate (i j mm : ℕ) (area area' : VmArea) : State :=
  match s.vmas i with
  | none => s
  | some v =>
    { s with
      arena := s.arena.get v.privateData.address
      vmas := Function.update (Function.update s.vmas i (some { v with area := area })) j
        (some { v with mm := mm, area := area' }) }

/-- An area is removed, with `xvp_vm_close`. -/
def unmap (i : ℕ) : State :=
  match s.vmas i with
  | none => s
  | some v =>
    { s with
      arena := s.arena.put v.privateData.address
      vmas := Function.update s.vmas i none }

/-- `xvp_close`, which takes no notice of the list of the file. -/
def close (file : ℕ) : State := { s with closed := Function.update s.closed file true }

/-- `xrp_map_request` begins, with what is on the stack, and zeroed mappings for buffers. -/
def submit (r file mm : ℕ) (q : MapQueue) (stack : Field → XrpMapping) : State :=
  { s with
    requests := Function.update s.requests r
      (some ⟨file, mm, q, (zeroBuffers q ⟨stack, s.counts, [], []⟩).maps, [], .sharing q.parts⟩) }

/-- The allocations once memory for a shadow is allocated. -/
def reserve (file : ℕ) (shadow : Option ULong) : Arena ℕ ULong :=
  match shadow with
  | none => s.arena
  | some p => s.arena.reserve file p

/-- The next part of `xrp_map_request`; if it fails, all mappings are unshared next. -/
def share (r : ℕ) (env : MapEnv) : State :=
  match s.requests r with
  | none => s
  | some rq =>
    match rq.stage with
    | .sharing (f :: rest) =>
      let shadow := partShadow env rq.queue f
      let arena := s.reserve rq.file shadow
      match sharePart env rq.queue f ⟨rq.maps, (s.pins, arena.refs), rq.created, []⟩ with
      | (.ok (), m) =>
        { s with
          pins := m.counts.1
          arena := arena.settle shadow m.counts.2
          requests := Function.update s.requests r
            (some { rq with maps := m.maps, created := m.created, stage := .sharing rest }) }
      | (.error _, m) =>
        { s with
          pins := m.counts.1
          arena := arena.settle shadow m.counts.2
          requests := Function.update s.requests r
            (some { rq with
              maps := m.maps
              created := m.created
              stage := .unsharing true rq.queue.unshared }) }
    | _ => s

/-- The DSP is done with the request, or is given up; `writeBack` tells which function unshares the
mappings. -/
def finish (r : ℕ) (writeBack : Bool) : State :=
  match s.requests r with
  | none => s
  | some rq =>
    match rq.stage with
    | .sharing [] =>
      { s with
        requests := Function.update s.requests r
          (some { rq with
            stage := .unsharing false
              (if writeBack then rq.queue.unmapped else rq.queue.unshared) }) }
    | _ => s

/-- `__xrp_unshare_block` for the next mapping. -/
def unshare (r : ℕ) : State :=
  match s.requests r with
  | none => s
  | some rq =>
    match rq.stage with
    | .unsharing failed (f :: rest) =>
      let m := unshareField ⟨rq.maps, s.counts, rq.created, []⟩ f
      { s with
        pins := m.counts.1
        arena := s.arena.settle (rq.maps f).reference m.counts.2
        requests := Function.update s.requests r
          (some { rq with maps := m.maps, stage := .unsharing failed rest }) }
    | _ => s

/-- `xrp_ioctl_submit_sync` returns. -/
def done (r : ℕ) : State :=
  match s.requests r with
  | none => s
  | some rq =>
    match rq.stage with
    | .unsharing _ [] => { s with requests := Function.update s.requests r none }
    | _ => s

end State

/-! ## Runs -/

/-- What may happen. Calls are made by any number of threads on any number of files. -/
inductive Event : Type
  | alloc (file : ℕ) (p : ULong) (b : PhysBlock)
  | mmap (file mm j : ℕ) (vma : VmArea) (remapPfnRange : Except Errno Unit)
  | duplicate (i j mm : ℕ) (area area' : VmArea)
  | unmap (i : ℕ)
  | free (file mm : ℕ) (start : ULong) (i : ℕ)
  | close (file : ℕ)
  | submit (r file mm : ℕ) (q : MapQueue) (stack : Field → XrpMapping)
  | share (r : ℕ) (env : MapEnv)
  | finish (r : ℕ) (writeBack : Bool)
  | unshare (r : ℕ)
  | done (r : ℕ)

/-- What an event does. `XRP_IOCTL_ALLOC` is `alloc`, `mmap` unless `vm_mmap` fails before that, and
`unmap` if `copy_to_user` fails. -/
def Event.run (pmem : ULong) (s : State) : Event → State
  | alloc file p b => s.alloc file p b
  | mmap file mm j vma remapPfnRange => s.mmap pmem file mm j vma remapPfnRange
  | duplicate i j mm area area' => s.duplicate i j mm area area'
  | unmap i => s.unmap i
  | free _ _ _ i => s.unmap i
  | close file => s.close file
  | submit r file mm q stack => s.submit r file mm q stack
  | share r env => s.share r env
  | finish r writeBack => s.finish r writeBack
  | unshare r => s.unshare r
  | done r => s.done r

/-- When an event may happen. Memory for a new object is not that of another one, a file is closed
once nothing refers to it, and what a request finds in an area of the driver is the allocation of an
area of its address space. -/
def Allowed (s : State) : Event → Prop
  | .alloc file p _ => s.closed file = false ∧ s.refs p ≤ 0
  | .mmap file _ j _ _ => s.closed file = false ∧ s.vmas j = none
  | .duplicate i j _ _ _ => (s.vmas i).isSome ∧ s.vmas j = none
  | .unmap _ => True
  | .free file mm start i => ∃ v, s.vmas i = some v ∧ v.mm = mm ∧ v.file = file ∧
    v.area.vmStart ≤ start ∧ start < v.area.vmEnd
  | .close file => s.closed file = false ∧ (∀ i v, s.vmas i = some v → v.file ≠ file) ∧
    ∀ r rq, s.requests r = some rq → rq.file ≠ file
  | .submit r file _ _ _ => s.closed file = false ∧ s.requests r = none
  | .share r env => ∀ rq f rest, s.requests r = some rq → rq.stage = .sharing (f :: rest) →
    (∀ p, partNative env f = some p →
      ∃ i v, s.vmas i = some v ∧ v.mm = rq.mm ∧ v.privateData.address = p) ∧
    ∀ p, partShadow env rq.queue f = some p → s.refs p ≤ 0
  | .finish .. => True
  | .unshare _ => True
  | .done _ => True

/-- The states of runs in which every event is as given. -/
def Run (pmem : ULong) (given : State → Event → Prop) : State → Prop :=
  Relation.ReflTransGen (fun s s' => ∃ e, given s e ∧ Event.run pmem s e = s') .init

/-- All runs. -/
def Reach (pmem : ULong) : State → Prop := Run pmem Allowed

/-- When `xrp_map_request` failed, no mapping that was not created looks as if it referred to an
allocation. -/
def Careful (s : State) : Event → Prop
  | .unshare r => ∀ rq f rest, s.requests r = some rq → rq.stage = .unsharing true (f :: rest) →
    f ∉ rq.created → (rq.maps f).reference = none
  | _ => True

/-- The runs in which every event is careful. -/
def CarefulReach (pmem : ULong) : State → Prop :=
  Run pmem fun s e => Allowed s e ∧ Careful s e

/-- `remap_pfn_range` does not fail, and a file that is closed has nothing on its list. -/
def Retaining (pmem : ULong) (s : State) : Event → Prop
  | .mmap file _ _ vma remapPfnRange =>
    remapPfnRange = .ok () ∨ s.dequeued pmem file vma = none
  | .close file => s.busyList file = []
  | _ => True

/-- The runs in which every event is careful and retaining. -/
def RetainingReach (pmem : ULong) : State → Prop :=
  Run pmem fun s e => Allowed s e ∧ Careful s e ∧ Retaining pmem s e

/-! ## Owners of references -/

/-- Who has a reference to an allocation. -/
inductive Owner : Type
  | busy
  | vma (i : ℕ)
  | mapping (r : ℕ) (f : Field)
  | lost (k : ℕ)
  deriving DecidableEq

/-- The mapping was created, and refers to the allocation. -/
def Request.Refers (rq : Request) (f : Field) (p : ULong) : Prop :=
  f ∈ rq.created ∧ (rq.maps f).reference = some p

/-- The references to what is at an address. -/
def State.Owns (s : State) : Owner → ULong → Prop
  | .busy, p => ∃ file, ∃ a ∈ s.busyList file, a.address = p
  | .vma i, p => ∃ v, s.vmas i = some v ∧ v.privateData.address = p
  | .mapping r f, p => ∃ rq, s.requests r = some rq ∧ rq.Refers f p
  | .lost k, p => s.lost[k]? = some p

end Holders

end Xrp.Kernel
