import Xrp.Kernel.MapRequest

/-!
# What a failed mapping gives back

`xrp_unmap_request_nowb` decides by sizes what to unshare, not by what was shared.
A mapping that `xrp_map_request` did not get to is then taken for one, with what
was on the stack before. The counts come out as they were if and only if none of
these leftovers looks like a mapping that holds something.
-/

namespace Xrp.Kernel

/-! ## What a mapping holds -/

/-- The pins and references of an alien mapping. -/
def XrpAlienMapping.held (a : XrpAlienMapping) : Counts :=
  if a.type = alienGup then
    ((List.range (nrPages a.vaddr a.size)).map (a.paddr / pageSize.toNat + ·) |>.map pin).sum
  else if a.type = alienCopy then ref a.allocation
  else 0

/-- The pins and references of a mapping. -/
def XrpMapping.held (m : XrpMapping) : Counts :=
  if m.kind = mappingNative then ref m.xrpAllocation
  else if m.kind = mappingAlien then m.alienMapping.held
  else 0

theorem kind_native : mappingNative &&& ~~~mappingKernel = mappingNative := by decide

theorem kind_alien : mappingAlien &&& ~~~mappingKernel = mappingAlien := by decide

theorem kind_kernel : mappingKernel &&& ~~~mappingKernel = mappingNone := by decide

theorem kind_alienKernel :
    (mappingAlien ||| mappingKernel) &&& ~~~mappingKernel = mappingAlien := by decide

section Held

variable {counts : Counts} {m : XrpMapping} {a : XrpAlienMapping}

theorem getPages_eq (pages : List ℕ) : getPages pages counts = counts + (pages.map pin).sum := by
  induction pages generalizing counts with
  | nil => simp [getPages]
  | cons page pages ih =>
    rw [getPages, List.foldl_cons, ← getPages, ih, List.map_cons, List.sum_cons, add_assoc]

theorem putPages_eq (pages : List ℕ) : putPages pages counts = counts - (pages.map pin).sum := by
  induction pages generalizing counts with
  | nil => simp [putPages]
  | cons page pages ih =>
    rw [putPages, List.foldl_cons, ← putPages, ih, List.map_cons, List.sum_cons, sub_sub]

/-- To unshare a mapping gives back what it holds. -/
theorem xrpUnshareBlock_eq : xrpUnshareBlock m counts = counts - m.held := by
  unfold xrpUnshareBlock xrpAlienMappingDestroy XrpMapping.held XrpAlienMapping.held
  split_ifs <;> simp [putPages_eq]

theorem pin_nonneg (page : ℕ) : 0 ≤ pin page := by
  refine ⟨?_, le_rfl⟩
  exact Pi.single_nonneg.mpr zero_le_one

theorem ref_pos (allocation : ULong) : 0 < ref allocation := by
  refine lt_of_le_of_ne ⟨le_rfl, Pi.single_nonneg.mpr zero_le_one⟩ ?_
  intro zero
  have one := congrFun (congrArg Prod.snd zero) allocation
  simp [ref] at one

theorem sum_pins_nonneg (pages : List ℕ) : 0 ≤ (pages.map pin).sum :=
  List.sum_nonneg (by simpa using fun page _ => pin_nonneg page)

theorem sum_pins_eq_zero_iff {pages : List ℕ} : (pages.map pin).sum = 0 ↔ pages = [] := by
  cases pages with
  | nil => simp
  | cons page pages =>
    simp only [List.map_cons, List.sum_cons, reduceCtorEq, iff_false]
    intro zero
    have rest := (sum_pins_nonneg pages).1 page
    have total := congrFun (congrArg Prod.fst zero) page
    simp only [pin, Prod.fst_add, Pi.add_apply, Pi.single_eq_same, Prod.fst_zero,
      Pi.zero_apply] at total rest
    omega

theorem XrpAlienMapping.held_nonneg (a : XrpAlienMapping) : 0 ≤ a.held := by
  unfold XrpAlienMapping.held
  split_ifs
  · exact sum_pins_nonneg _
  · exact (ref_pos _).le
  · exact le_rfl

theorem XrpAlienMapping.held_eq_zero_iff : a.held = 0 ↔
    ¬ (a.type = alienGup ∧ 0 < nrPages a.vaddr a.size ∨ a.type = alienCopy) := by
  unfold XrpAlienMapping.held
  split_ifs with gup copy
  · have other : alienGup ≠ alienCopy := by decide
    rw [sum_pins_eq_zero_iff, List.map_eq_nil_iff, List.range_eq_nil]
    simp [gup, other]
  · exact iff_of_false (ref_pos _).ne' (by simp [copy])
  · exact iff_of_true rfl (by simp [gup, copy])

theorem XrpMapping.held_native (native : m.kind = mappingNative) : m.held = ref m.xrpAllocation :=
  if_pos native

theorem XrpMapping.held_alien (alien : m.kind = mappingAlien) : m.held = m.alienMapping.held := by
  have other : m.kind ≠ mappingNative := by
    rw [alien]
    decide
  rw [XrpMapping.held, if_neg other, if_pos alien]

theorem XrpMapping.held_none (none : m.kind = mappingNone) : m.held = 0 := by
  have native : m.kind ≠ mappingNative := by
    rw [none]
    decide
  have alien : m.kind ≠ mappingAlien := by
    rw [none]
    decide
  rw [XrpMapping.held, if_neg native, if_neg alien]

theorem XrpMapping.held_nonneg (m : XrpMapping) : 0 ≤ m.held := by
  unfold XrpMapping.held
  split_ifs
  · exact (ref_pos _).le
  · exact XrpAlienMapping.held_nonneg _
  · exact le_rfl

/-- A mapping holds nothing if and only if it is not live. -/
theorem XrpMapping.held_eq_zero_iff : m.held = 0 ↔ ¬ m.Live := by
  unfold XrpMapping.held XrpMapping.Live
  split_ifs with native alien
  · exact iff_of_false (ref_pos _).ne' (by simp [native])
  · rw [XrpAlienMapping.held_eq_zero_iff, or_iff_right native, and_iff_right alien]
  · exact iff_of_true rfl (by simp [native, alien])

end Held

/-! ## What sharing takes -/

section Share

variable {counts : Counts}

theorem contiguous_eq {first : ℕ} {pages : List ℕ} (next : contiguous (first :: pages) = true) :
    first :: pages = (List.range (first :: pages).length).map (first + ·) := by
  induction pages generalizing first with
  | nil => simp
  | cons page pages ih =>
    simp only [contiguous, Bool.and_eq_true, beq_iff_eq] at next
    have rest := ih next.2
    rw [List.length_cons, List.range_succ_eq_map, List.map_cons, List.map_map, rest, next.1]
    simp [Function.comp_def, Nat.add_assoc, Nat.add_comm 1]

theorem getPages_putPages (pages : List ℕ) : putPages pages (getPages pages counts) = counts := by
  rw [putPages_eq, getPages_eq, add_sub_cancel_right]

/-- What was taken is what the result holds, if there is one. -/
def Takes {α : Type} (held : α → Counts) (counts : Counts) (r : Option α × Counts) : Prop :=
  r.2 = counts + r.1.elim 0 held

theorem Takes.nothing {α : Type} {held : α → Counts} : Takes held counts (none, counts) :=
  (add_zero counts).symm

theorem xvpGupVirtToPhys_takes (env : GupEnv) (vaddr size : ULong) (counts : Counts) :
    Takes XrpAlienMapping.held counts (xvpGupVirtToPhys env vaddr size counts) := by
  unfold xvpGupVirtToPhys
  cases env.pages with
  | none => exact .nothing
  | some found =>
    simp only [Option.map_some]
    generalize cut : found.take (nrPages vaddr size) = pages
    have most : pages.length ≤ nrPages vaddr size := by
      rw [← cut]
      exact List.length_take_le ..
    cases pages with
    | nil => exact .nothing
    | cons first rest =>
      simp only [getPages_putPages]
      split_ifs with few fine
      · exact .nothing
      · have count : (first :: rest).length = nrPages vaddr size := by omega
        have frame : (first * pageSize.toNat + vaddr.toNat % pageSize.toNat) / pageSize.toNat =
            first := by
          rw [show pageSize.toNat = 4096 from rfl]
          omega
        have pages := contiguous_eq (Bool.and_eq_true_iff.mp fine).2
        rw [count] at pages
        simp only [Takes, Option.elim_some]
        rw [getPages_eq, XrpAlienMapping.held, if_pos rfl, frame, ← pages]
      · exact .nothing

theorem xvpCopyVirtToPhys_takes (env : CopyEnv) (flags : U32) (vaddr size : ULong)
    (counts : Counts) :
    (xvpCopyVirtToPhys env flags vaddr size counts).2 = counts +
      (xvpCopyVirtToPhys env flags vaddr size counts).1.toOption.elim 0 XrpAlienMapping.held := by
  unfold xvpCopyVirtToPhys
  cases env.allocation with
  | error e => exact (add_zero counts).symm
  | ok allocation =>
    simp only
    split_ifs
    · exact (add_sub_cancel_right ..).trans (add_zero counts).symm
    · rfl

theorem shareDirect_takes (env : ShareEnv) (virt size : ULong) (counts : Counts) :
    Takes XrpAlienMapping.held counts (shareDirect env virt size counts) := by
  unfold shareDirect
  split
  · rename_i pfn _
    cases pfn with
    | none => exact .nothing
    | some paddr => exact (add_zero counts).symm
  · exact xvpGupVirtToPhys_takes ..

theorem shareAlien_takes (env : ShareEnv) (flags : U32) (virt size : ULong) (counts : Counts) :
    Takes XrpAlienMapping.held counts (shareAlien env flags virt size counts) := by
  have direct := shareDirect_takes env virt size counts
  unfold shareAlien
  generalize shareDirect env virt size counts = r at direct
  rcases r with ⟨_ | a, counts₁⟩
  · have same : counts₁ = counts := direct.trans (add_zero counts)
    have copy := xvpCopyVirtToPhys_takes env.copy flags virt size counts₁
    simp only
    generalize xvpCopyVirtToPhys env.copy flags virt size counts₁ = r at copy
    rcases r with ⟨_ | a, counts₂⟩
    · exact same ▸ copy
    · exact same ▸ copy
  · exact direct

/-- `__xrp_share_block` takes what the new mapping holds, and nothing if it fails. -/
theorem xrpShareBlock_takes (env : ShareEnv) (flags : U32) (virt size : ULong) (m : XrpMapping)
    (counts : Counts) :
    Takes XrpMapping.held counts (xrpShareBlock env flags virt size m counts) := by
  unfold xrpShareBlock
  split
  · exact .nothing
  · rename_i allocation _ _
    have held : (({ m with type := mappingNative } : XrpMapping).setXrpAllocation allocation).held =
        ref allocation := XrpMapping.held_native kind_native
    simp only [Takes, Option.elim_some, held]
  · have alien := shareAlien_takes env flags virt size counts
    generalize shareAlien env flags virt size counts = r at alien
    rcases r with ⟨_ | a, counts₁⟩
    · exact alien
    · have held : (⟨mappingAlien, a⟩ : XrpMapping).held = a.held :=
        XrpMapping.held_alien kind_alien
      simpa only [Takes, Option.elim_some, held] using alien

/-- `xrp_share_kernel` takes what the new mapping holds; if it fails, it has changed the type. -/
theorem xrpShareKernel_cases (env : KernelEnv) (virt size : ULong) (flags : U32) (m : XrpMapping)
    (counts : Counts) :
    (∃ m', xrpShareKernel env virt size flags m counts = (.ok (), m', counts + m'.held)) ∨
    (∃ e, xrpShareKernel env virt size flags m counts =
      (.error e, { m with type := mappingAlien ||| mappingKernel }, counts)) := by
  unfold xrpShareKernel
  have copy := xvpCopyVirtToPhys_takes env.copy flags virt size counts
  split_ifs with translatable
  · have held : ({ m with type := mappingKernel } : XrpMapping).held = 0 :=
      XrpMapping.held_none kind_kernel
    exact .inl ⟨_, by rw [held, add_zero]⟩
  · generalize xvpCopyVirtToPhys env.copy flags virt size counts = r at copy
    rcases r with ⟨e | a, counts₁⟩
    · have same : counts₁ = counts := copy.trans (add_zero counts)
      exact .inr ⟨e, by rw [same]⟩
    · have held : (⟨mappingAlien ||| mappingKernel, a⟩ : XrpMapping).held = a.held :=
        XrpMapping.held_alien kind_alienKernel
      have taken : counts₁ = counts + a.held := copy
      exact .inl ⟨_, by rw [taken, held]⟩

end Share

/-! ## The parts of `xrp_map_request` -/

/-- The mappings `new` were created, and the counts say what they hold. -/
structure Extends (s s' : MapState) (new : List Field) : Prop where
  counts : s'.counts = s.counts + (new.map fun f => (s'.maps f).held).sum
  others : ∀ f ∉ new, s'.maps f = s.maps f
  created : s'.created = s.created ++ new
  destroyed : s'.destroyed = s.destroyed

section Parts

variable {env : MapEnv} {q : MapQueue} {s s' s'' : MapState} {new new' : List Field}
  {e : FailPoint × Errno}

theorem Extends.refl (s : MapState) : Extends s s [] := ⟨by simp, fun _ _ => rfl, by simp, rfl⟩

theorem Extends.trans (first : Extends s s' new) (second : Extends s' s'' new')
    (apart : ∀ f ∈ new, f ∉ new') : Extends s s'' (new ++ new') := by
  refine ⟨?_, ?_, ?_, second.destroyed.trans first.destroyed⟩
  · have same : (new.map fun f => (s''.maps f).held) = new.map fun f => (s'.maps f).held :=
      List.map_congr_left fun f member => by rw [second.others f (apart f member)]
    rw [second.counts, first.counts, List.map_append, List.sum_append, same, add_assoc]
  · intro f other
    rw [List.mem_append, not_or] at other
    rw [second.others f other.2, first.others f other.1]
  · rw [second.created, first.created, List.append_assoc]

theorem Extends.append (first : Extends s s' new) (second : Extends s' s'' new')
    (nodup : (new ++ new').Nodup) : Extends s s'' (new ++ new') :=
  first.trans second fun f old fresh => (List.nodup_append.mp nodup).2.2 f old f fresh rfl

theorem shareField_cases (f : Field) (point : FailPoint) (env : ShareEnv) (flags : U32)
    (virt size : ULong) (s : MapState) :
    (∃ s', shareField f point env flags virt size s = (.ok (), s') ∧ Extends s s' [f]) ∨
    (∃ errno, shareField f point env flags virt size s = (.error (point, errno), s)) := by
  have takes := xrpShareBlock_takes env flags virt size (s.maps f) s.counts
  unfold shareField
  generalize xrpShareBlock env flags virt size (s.maps f) s.counts = r at takes
  rcases r with ⟨_ | m, counts⟩
  · have same : counts = s.counts := takes.trans (add_zero _)
    exact .inr ⟨.einval, by rw [same]⟩
  · have taken : counts = s.counts + m.held := takes
    refine .inl ⟨_, rfl, ?_, ?_, rfl, rfl⟩
    · simp [taken]
    · intro g other
      exact Function.update_of_ne (by simpa using other) _ _

/-- The mapping of the input data, if it does not fit the request. -/
def MapQueue.inFields (q : MapQueue) : List Field :=
  if q.inDataSize.toNat > inlineDataSize then [.inData] else []

/-- The mapping of the output data, if it does not fit the request. -/
def MapQueue.outFields (q : MapQueue) : List Field :=
  if q.outDataSize.toNat > inlineDataSize then [.outData] else []

theorem shareInData_cases (env : MapEnv) (q : MapQueue) (s : MapState) :
    (∃ s', shareInData env q s = (.ok (), s') ∧ Extends s s' q.inFields) ∨
    (∃ errno, shareInData env q s = (.error (.inData, errno), s)) := by
  unfold shareInData MapQueue.inFields
  split_ifs with large fault
  · exact shareField_cases ..
  · exact .inr ⟨_, rfl⟩
  · exact .inl ⟨s, rfl, .refl s⟩

theorem shareOutData_cases (env : MapEnv) (q : MapQueue) (s : MapState) :
    (∃ s', shareOutData env q s = (.ok (), s') ∧ Extends s s' q.outFields) ∨
    (∃ errno, shareOutData env q s = (.error (.outData, errno), s)) := by
  unfold shareOutData MapQueue.outFields
  split_ifs with large
  · exact shareField_cases ..
  · exact .inl ⟨s, rfl, .refl s⟩

theorem shareBuffer_cases (env : MapEnv) (i : ℕ) (s : MapState) :
    (∃ s' new, shareBuffer env i s = (.ok (), s') ∧ new ⊆ [.buffer i] ∧ new.Nodup ∧
      Extends s s' new) ∨
    (∃ errno, shareBuffer env i s = (.error (.buffer i, errno), s)) := by
  unfold shareBuffer
  cases (env.buffers i).descriptor with
  | none => exact .inr ⟨_, rfl⟩
  | some d =>
    rcases d with ⟨flags, addr, size⟩
    simp only
    split_ifs with access
    · rcases shareField_cases (.buffer i) (.buffer i) (env.buffers i).share flags addr
        (size.setWidth 64) s with ⟨s', ok, ext⟩ | failed
      · exact .inl ⟨s', _, ok, List.Subset.refl _, List.nodup_singleton _, ext⟩
      · exact .inr failed
    · exact .inl ⟨s, [], rfl, List.nil_subset _, List.nodup_nil, .refl s⟩

/-- The loop over the buffers creates mappings of buffers, whether it fails or not. -/
theorem shareBuffers_cases (env : MapEnv) (n : ℕ) (s : MapState) :
    ∃ s' new, (∀ f ∈ new, ∃ i < n, f = .buffer i) ∧ new.Nodup ∧ Extends s s' new ∧
      (shareBuffers env n s = (.ok (), s') ∨
        ∃ i errno, shareBuffers env n s = (.error (.buffer i, errno), s')) := by
  induction n with
  | zero => exact ⟨s, [], by simp, List.nodup_nil, .refl s, .inl rfl⟩
  | succ n ih =>
    rcases ih with ⟨s₁, new, small, nodup, ext, ok | ⟨i, errno, failed⟩⟩
    · have go : shareBuffers env (n + 1) s = shareBuffer env n s₁ := by
        simp only [shareBuffers, MapAction.andThen, ok]
      rcases shareBuffer_cases env n s₁ with ⟨s₂, last, ok', only, once, ext'⟩ | ⟨errno, failed⟩
      · have apart : ∀ f ∈ new, f ∉ last := by
          intro f old fresh
          rcases small f old with ⟨i, lt, rfl⟩
          have same := only fresh
          simp only [List.mem_singleton, Field.buffer.injEq] at same
          omega
        refine ⟨s₂, new ++ last, ?_, ?_, ext.trans ext' apart, .inl (go.trans ok')⟩
        · intro f member
          rcases List.mem_append.mp member with old | fresh
          · rcases small f old with ⟨i, lt, rfl⟩
            exact ⟨i, by omega, rfl⟩
          · exact ⟨n, by omega, List.mem_singleton.mp (only fresh)⟩
        · exact List.nodup_append.mpr ⟨nodup, once, fun f old g fresh same =>
            apart f old (same ▸ fresh)⟩
      · refine ⟨s₁, new, ?_, nodup, ext, .inr ⟨n, errno, go.trans failed⟩⟩
        intro f member
        rcases small f member with ⟨i, lt, rfl⟩
        exact ⟨i, by omega, rfl⟩
    · have stop : shareBuffers env (n + 1) s = (.error (.buffer i, errno), s₁) := by
        simp only [shareBuffers, MapAction.andThen, failed]
      refine ⟨s₁, new, ?_, nodup, ext, .inr ⟨i, errno, stop⟩⟩
      intro f member
      rcases small f member with ⟨i, lt, rfl⟩
      exact ⟨i, by omega, rfl⟩

/-- The mapping of the table of descriptors, if it does not fit the request. -/
def MapQueue.tableFields (q : MapQueue) : List Field :=
  if q.nBuffers > inlineBufferCount then [.dspBuffer] else []

/-- The type of the table's mapping is written although it could not be shared. -/
def spoilTable (s : MapState) : MapState :=
  { s with
    maps := Function.update s.maps .dspBuffer
      { s.maps .dspBuffer with type := mappingAlien ||| mappingKernel } }

theorem shareDspBuffer_cases (env : MapEnv) (q : MapQueue) (s : MapState) :
    (∃ s', shareDspBuffer env q s = (.ok (), s') ∧ Extends s s' q.tableFields) ∨
    (∃ errno, shareDspBuffer env q s = (.error (.dspBuffer, errno), spoilTable s)) := by
  unfold shareDspBuffer MapQueue.tableFields
  split_ifs with large
  · rcases xrpShareKernel_cases env.table env.dspBuffer
      (.ofNat 64 (q.nBuffers * sizeofDspBuffer)) flagReadWrite (s.maps .dspBuffer) s.counts with
      ⟨m, ok⟩ | ⟨errno, failed⟩
    · rw [ok]
      refine .inl ⟨_, rfl, ?_, ?_, rfl, rfl⟩
      · simp
      · intro g other
        exact Function.update_of_ne (by simpa using other) _ _
    · rw [failed]
      exact .inr ⟨errno, rfl⟩
  · exact .inl ⟨s, rfl, .refl s⟩

/-- Where `shareAll` fails, these mappings were created and no others. -/
structure CreatedAt (q : MapQueue) (point : FailPoint) (new : List Field) : Prop where
  late : point ≠ .nsid ∧ point ≠ .memory
  nodup : new.Nodup
  inData : .inData ∈ new ↔ q.inDataSize.toNat > inlineDataSize ∧ point ≠ .inData
  outData : .outData ∈ new ↔
    q.outDataSize.toNat > inlineDataSize ∧ point ≠ .inData ∧ point ≠ .outData
  buffer : ∀ i, .buffer i ∈ new → i < q.nBuffers
  dspBuffer : .dspBuffer ∉ new

theorem mem_inFields {f : Field} :
    f ∈ q.inFields ↔ f = .inData ∧ q.inDataSize.toNat > inlineDataSize := by
  unfold MapQueue.inFields
  split_ifs with large <;> simp [large]

theorem mem_outFields {f : Field} :
    f ∈ q.outFields ↔ f = .outData ∧ q.outDataSize.toNat > inlineDataSize := by
  unfold MapQueue.outFields
  split_ifs with large <;> simp [large]

theorem nodup_inFields (q : MapQueue) : q.inFields.Nodup := by
  unfold MapQueue.inFields
  split_ifs <;> simp

theorem nodup_dataFields (q : MapQueue) : (q.inFields ++ q.outFields).Nodup := by
  unfold MapQueue.inFields MapQueue.outFields
  split_ifs <;> simp

theorem CreatedAt.nothing : CreatedAt q .inData [] :=
  ⟨by simp, List.nodup_nil, by simp, by simp, by simp, by simp⟩

theorem CreatedAt.input : CreatedAt q .outData q.inFields :=
  ⟨by simp, nodup_inFields q, by simp [mem_inFields], by simp [mem_inFields],
    by simp [mem_inFields], by simp [mem_inFields]⟩

theorem CreatedAt.data {bufs : List Field} {point : FailPoint}
    (small : ∀ f ∈ bufs, ∃ i < q.nBuffers, f = .buffer i) (nodup : bufs.Nodup)
    (late : point ≠ .nsid ∧ point ≠ .memory) (input : point ≠ .inData)
    (output : point ≠ .outData) :
    CreatedAt q point (q.inFields ++ q.outFields ++ bufs) := by
  have other : ∀ f, (∀ i, f ≠ .buffer i) → f ∉ bufs := by
    intro f ne member
    rcases small f member with ⟨i, -, same⟩
    exact ne i same
  refine ⟨late, ?_, ?_, ?_, ?_, ?_⟩
  · rw [List.nodup_append]
    refine ⟨nodup_dataFields q, nodup, ?_⟩
    intro f data g buf same
    rcases small g buf with ⟨i, -, rfl⟩
    simp [same, mem_inFields, mem_outFields] at data
  · simp [mem_inFields, mem_outFields, other, input]
  · simp [mem_inFields, mem_outFields, other, input, output]
  · intro i member
    have inBufs : Field.buffer i ∈ bufs := by simpa [mem_inFields, mem_outFields] using member
    rcases small _ inBufs with ⟨j, lt, same⟩
    exact Field.buffer.inj same ▸ lt
  · simp [mem_inFields, mem_outFields, other]

theorem unshared_eq (q : MapQueue) : q.unshared = q.inFields ++ q.outFields ++
    (List.range q.nBuffers).map .buffer ++ q.tableFields := rfl

theorem mem_tableFields {f : Field} :
    f ∈ q.tableFields ↔ f = .dspBuffer ∧ q.nBuffers > inlineBufferCount := by
  unfold MapQueue.tableFields
  split_ifs with large <;> simp [large]

theorem mem_unshared {f : Field} : f ∈ q.unshared ↔
    f ∈ q.inFields ∨ f ∈ q.outFields ∨ (∃ i < q.nBuffers, f = .buffer i) ∨
      (f = .dspBuffer ∧ q.nBuffers > inlineBufferCount) := by
  simp only [unshared_eq, List.mem_append, mem_tableFields, List.mem_map, List.mem_range, eq_comm,
    or_assoc]

theorem nodup_unshared (q : MapQueue) : q.unshared.Nodup := by
  have buffers : ((List.range q.nBuffers).map Field.buffer).Nodup :=
    List.nodup_range.map fun _ _ same => Field.buffer.inj same
  rw [unshared_eq, List.nodup_append, List.nodup_append]
  refine ⟨⟨nodup_dataFields q, buffers, ?_⟩, ?_, ?_⟩
  · intro f data g buf same
    rcases List.mem_map.mp buf with ⟨i, -, rfl⟩
    simp [same, mem_inFields, mem_outFields] at data
  · unfold MapQueue.tableFields
    split_ifs <;> simp
  · intro f others g table same
    rw [(mem_tableFields.mp table).1] at same
    simp [same, mem_inFields, mem_outFields] at others

theorem unmapped_perm (q : MapQueue) : q.unmapped.Perm q.unshared := by
  have order : q.unmapped = q.inFields ++ q.outFields ++
      (q.tableFields ++ (List.range q.nBuffers).map .buffer) := List.append_assoc ..
  rw [order, unshared_eq, List.append_assoc (q.inFields ++ q.outFields)]
  exact List.perm_append_comm.append_left _

theorem CreatedAt.subset {point : FailPoint} {new : List Field} (created : CreatedAt q point new) :
    ∀ f ∈ new, f ∈ q.unshared := by
  intro f member
  rw [mem_unshared]
  cases f with
  | inData => exact .inl (mem_inFields.mpr ⟨rfl, (created.inData.mp member).1⟩)
  | outData => exact .inr (.inl (mem_outFields.mpr ⟨rfl, (created.outData.mp member).1⟩))
  | buffer i => exact .inr (.inr (.inl ⟨i, created.buffer i member, rfl⟩))
  | dspBuffer => exact absurd member created.dspBuffer

/-- What is shared in a request that could be mapped: all that is unshared later, but for
buffers without access. -/
structure CreatedAll (q : MapQueue) (new : List Field) : Prop where
  nodup : new.Nodup
  subset : ∀ f ∈ new, f ∈ q.unshared
  rest : ∀ f ∈ q.unshared, f ∉ new → ∃ i < q.nBuffers, f = .buffer i

theorem CreatedAll.of_buffers {bufs : List Field}
    (small : ∀ f ∈ bufs, ∃ i < q.nBuffers, f = .buffer i) (nodup : bufs.Nodup) :
    CreatedAll q (q.inFields ++ q.outFields ++ bufs ++ q.tableFields) := by
  have before : CreatedAt q .dspBuffer (q.inFields ++ q.outFields ++ bufs) :=
    .data small nodup (by simp) (by simp) (by simp)
  refine ⟨?_, ?_, ?_⟩
  · refine List.nodup_append.mpr ⟨before.nodup, ?_, ?_⟩
    · unfold MapQueue.tableFields
      split_ifs <;> simp
    · intro f member g table same
      rw [same, (mem_tableFields.mp table).1] at member
      exact before.dspBuffer member
  · intro f member
    rcases List.mem_append.mp member with member | table
    · exact before.subset f member
    · exact mem_unshared.mpr (.inr (.inr (.inr (mem_tableFields.mp table))))
  · intro f member other
    simp only [List.mem_append, not_or] at other
    rcases mem_unshared.mp member with input | output | buffer | table
    · exact absurd input other.1.1.1
    · exact absurd output other.1.1.2
    · exact buffer
    · exact absurd (mem_tableFields.mpr table) other.2

/-- What was created when `shareAll` ends, well or not. -/
theorem shareAll_cases (env : MapEnv) (q : MapQueue) (s : MapState) :
    (∃ s' new, shareAll env q s = (.ok (), s') ∧ CreatedAll q new ∧ Extends s s' new) ∨
    (∃ e s₁ new, shareAll env q s =
        (.error e, if e.1 = .dspBuffer then spoilTable s₁ else s₁) ∧
      CreatedAt q e.1 new ∧ Extends s s₁ new) := by
  unfold shareAll
  rcases shareInData_cases env q s with ⟨s₁, ok₁, ext₁⟩ | ⟨errno, failed₁⟩
  · rcases shareOutData_cases env q s₁ with ⟨s₂, ok₂, ext₂⟩ | ⟨errno, failed₂⟩
    · rcases shareBuffers_cases env q.nBuffers s₂ with ⟨s₃, bufs, small, nodup, ext₃, ends⟩
      have all := CreatedAll.of_buffers small nodup
      have data : (q.inFields ++ q.outFields ++ bufs).Nodup := all.nodup.of_append_left
      have ext : Extends s s₃ (q.inFields ++ q.outFields ++ bufs) :=
        (ext₁.append ext₂ data.of_append_left).append ext₃ data
      rcases ends with ok₃ | ⟨i, errno, failed₃⟩
      · simp only [MapAction.andThen, ok₁, ok₂, ok₃]
        rcases shareDspBuffer_cases env q s₃ with ⟨s₄, ok₄, ext₄⟩ | ⟨errno, failed₄⟩
        · exact .inl ⟨s₄, _, ok₄, all, ext.append ext₄ all.nodup⟩
        · refine .inr ⟨_, s₃, _, failed₄, ?_, ext⟩
          exact .data small nodup (by simp) (by simp) (by simp)
      · simp only [MapAction.andThen, ok₁, ok₂, failed₃]
        refine .inr ⟨_, s₃, _, rfl, ?_, ext⟩
        exact .data small nodup (by simp) (by simp) (by simp)
    · simp only [MapAction.andThen, ok₁, failed₂]
      exact .inr ⟨_, s₁, _, rfl, .input, ext₁⟩
  · simp only [MapAction.andThen, failed₁]
    exact .inr ⟨_, s, _, rfl, .nothing, .refl s⟩

end Parts

/-! ## What is given back -/

/-- The counts are as they were, and no mapping was destroyed that was not created. -/
def Restored (s s' : MapState) : Prop :=
  s'.counts = s.counts ∧ ∀ f ∈ s'.destroyed, f ∈ s'.created

/-- What the failed call leaves in the mapping of the table. -/
def leftTable (point : FailPoint) (m : XrpMapping) : XrpMapping :=
  if point = .dspBuffer then { m with type := mappingAlien ||| mappingKernel } else m

/-- No mapping that is unshared without having been created looks live. -/
def CleanAt (q : MapQueue) (maps : Field → XrpMapping) (point : FailPoint) : Prop :=
  point = .nsid ∨ point = .memory ∨
    ((q.inDataSize.toNat > inlineDataSize → point = .inData → ¬ (maps .inData).Live) ∧
      (q.outDataSize.toNat > inlineDataSize → point = .inData ∨ point = .outData →
        ¬ (maps .outData).Live) ∧
      (q.nBuffers > inlineBufferCount → ¬ (leftTable point (maps .dspBuffer)).Live))

section Undo

variable {env : MapEnv} {q : MapQueue} {s s' : MapState} {e : FailPoint × Errno}

theorem foldl_unshareField {fields : List Field} (nodup : fields.Nodup) (s : MapState) :
    (fields.foldl unshareField s).counts =
        s.counts - (fields.map fun f => (s.maps f).held).sum ∧
      (fields.foldl unshareField s).created = s.created ∧
      (fields.foldl unshareField s).destroyed =
        s.destroyed ++ fields.filter fun f => (s.maps f).Live := by
  induction fields generalizing s with
  | nil => simp
  | cons f fields ih =>
    rcases List.nodup_cons.mp nodup with ⟨once, nodup⟩
    have others : ∀ g ∈ fields, (unshareField s f).maps g = s.maps g := fun g member =>
      Function.update_of_ne (fun same : g = f => once (same ▸ member)) _ _
    have held : (fields.map fun g => ((unshareField s f).maps g).held) =
        fields.map fun g => (s.maps g).held :=
      List.map_congr_left fun g member => by rw [others g member]
    have live : (fields.filter fun g => ((unshareField s f).maps g).Live) =
        fields.filter fun g => (s.maps g).Live :=
      List.filter_congr fun g member => by rw [others g member]
    rcases ih nodup (unshareField s f) with ⟨counts, created, destroyed⟩
    rw [List.foldl_cons, counts, created, destroyed, held, live]
    refine ⟨?_, rfl, ?_⟩
    · rw [List.map_cons, List.sum_cons, ← sub_sub, unshareField, xrpUnshareBlock_eq]
    · by_cases alive : (s.maps f).Live
      · simp [unshareField, alive]
      · simp [unshareField, alive]

/-- What is left of the counts after part of what is held was taken before. -/
theorem sub_sum_eq_iff {counts : Counts} {fields new : List Field} {maps : Field → XrpMapping}
    (nodup : fields.Nodup) (once : new.Nodup) (subset : ∀ f ∈ new, f ∈ fields) :
    counts + (new.map fun f => (maps f).held).sum - (fields.map fun f => (maps f).held).sum =
        counts ↔ ∀ f ∈ fields, f ∉ new → ¬ (maps f).Live := by
  have inside : new.toFinset ⊆ fields.toFinset := by
    intro f member
    simpa using subset f (by simpa using member)
  rw [← List.sum_toFinset _ nodup, ← List.sum_toFinset _ once, ← Finset.sum_sdiff inside,
    add_sub_add_right_eq_sub, sub_eq_self,
    Finset.sum_eq_zero_iff_of_nonneg fun f _ => XrpMapping.held_nonneg _]
  simp only [Finset.mem_sdiff, List.mem_toFinset, XrpMapping.held_eq_zero_iff, and_imp]

/-- Exactly what was taken is given back if and only if nothing else that is unshared is live;
and the counts tell. -/
theorem restored_iff {s₁ : MapState} {fields new : List Field} (fresh : s.created = [])
    (clean : s.destroyed = []) (nodup : fields.Nodup) (once : new.Nodup)
    (subset : ∀ f ∈ new, f ∈ fields) (ext : Extends s s₁ new) (counts : s'.counts = s₁.counts)
    (created : s'.created = s₁.created) (destroyed : s'.destroyed = s₁.destroyed)
    (maps : ∀ f ∈ new, s'.maps f = s₁.maps f) :
    Restored s (fields.foldl unshareField s') ↔ ∀ f ∈ fields, f ∉ new → ¬ (s'.maps f).Live := by
  rcases foldl_unshareField nodup s' with ⟨counts', created', destroyed'⟩
  have same : (new.map fun f => (s₁.maps f).held) = new.map fun f => (s'.maps f).held :=
    List.map_congr_left fun f member => by rw [maps f member]
  have made : (fields.foldl unshareField s').created = new := by
    rw [created', created, ext.created, fresh, List.nil_append]
  have gone :
      (fields.foldl unshareField s').destroyed = fields.filter fun f => (s'.maps f).Live := by
    rw [destroyed', destroyed, ext.destroyed, clean, List.nil_append]
  have balance : (fields.foldl unshareField s').counts = s.counts ↔
      ∀ f ∈ fields, f ∉ new → ¬ (s'.maps f).Live := by
    rw [counts', counts, ext.counts, same, sub_sum_eq_iff nodup once subset]
  rw [Restored, balance, made, gone]
  refine and_iff_left_of_imp ?_
  intro dead f member
  rcases List.mem_filter.mp member with ⟨member, live⟩
  by_contra other
  exact dead f member other (of_decide_eq_true live)

/-- The counts and the mappings of a call that has not started. -/
def MapState.start (maps : Field → XrpMapping) (counts : Counts) : MapState :=
  ⟨maps, counts, [], []⟩

theorem spoiled_maps {point : FailPoint} {f : Field} (other : f ≠ .dspBuffer) :
    (if point = .dspBuffer then spoilTable s else s).maps f = s.maps f := by
  split_ifs
  · exact Function.update_of_ne other _ _
  · rfl

theorem spoiled_table {point : FailPoint} :
    (if point = .dspBuffer then spoilTable s else s).maps .dspBuffer =
      leftTable point (s.maps .dspBuffer) := by
  unfold leftTable
  split_ifs
  · simp [spoilTable]
  · rfl

theorem not_live_zero : ¬ XrpMapping.zero.Live := by decide

/-- What the failed call leaves in the mappings that it did not create. -/
theorem leftover_live_iff {maps : Field → XrpMapping} {counts : Counts} {s₁ : MapState}
    {point : FailPoint} {new : List Field} (created : CreatedAt q point new)
    (ext : Extends (zeroBuffers q (.start maps counts)) s₁ new) :
    (∀ f ∈ q.unshared, f ∉ new →
      ¬ ((if point = .dspBuffer then spoilTable s₁ else s₁).maps f).Live) ↔
    CleanAt q maps point := by
  rw [CleanAt, or_iff_right created.late.1, or_iff_right created.late.2]
  have table : (if point = .dspBuffer then spoilTable s₁ else s₁).maps .dspBuffer =
      leftTable point (maps .dspBuffer) := by
    rw [spoiled_table, ext.others _ created.dspBuffer]
    rfl
  constructor
  · intro dead
    refine ⟨?_, ?_, ?_⟩
    · intro large here
      have other : Field.inData ∉ new := fun member => (created.inData.mp member).2 here
      have left := dead .inData (mem_unshared.mpr (.inl (mem_inFields.mpr ⟨rfl, large⟩))) other
      rwa [spoiled_maps (by simp), ext.others _ other] at left
    · intro large here
      have other : Field.outData ∉ new := by
        intro member
        rcases created.outData.mp member with ⟨-, notIn, notOut⟩
        exact here.elim notIn notOut
      have left := dead .outData
        (mem_unshared.mpr (.inr (.inl (mem_outFields.mpr ⟨rfl, large⟩)))) other
      rwa [spoiled_maps (by simp), ext.others _ other] at left
    · intro large
      have left := dead .dspBuffer (mem_unshared.mpr (.inr (.inr (.inr ⟨rfl, large⟩))))
        created.dspBuffer
      rwa [table] at left
  · intro clean f member other
    rcases clean with ⟨input, output, last⟩
    rcases mem_unshared.mp member with inside | inside | ⟨i, lt, rfl⟩ | ⟨rfl, large⟩
    · rcases mem_inFields.mp inside with ⟨rfl, large⟩
      rw [spoiled_maps (by simp), ext.others _ other]
      apply input large
      by_contra later
      exact other (created.inData.mpr ⟨large, later⟩)
    · rcases mem_outFields.mp inside with ⟨rfl, large⟩
      rw [spoiled_maps (by simp), ext.others _ other]
      apply output large
      by_contra later
      exact other (created.outData.mpr ⟨large, not_or.mp later⟩)
    · have zero : (zeroBuffers q (.start maps counts)).maps (.buffer i) = .zero := if_pos lt
      rw [spoiled_maps (by simp), ext.others _ other, zero]
      exact not_live_zero
    · rw [table]
      exact last large

/-- **A failed call restores the counts** and destroys nothing but its own mappings if and
only if the mappings that it did not get to, and unshares, do not look live. -/
theorem xrpMapRequest_restored_iff {maps : Field → XrpMapping} {counts : Counts}
    (failed : xrpMapRequest env q (.start maps counts) = (.error e, s')) :
    Restored (.start maps counts) s' ↔ CleanAt q maps e.1 := by
  unfold xrpMapRequest at failed
  split_ifs at failed with fault memory
  · cases failed
    exact iff_of_true ⟨rfl, by simp [MapState.start]⟩ (.inl rfl)
  · cases failed
    exact iff_of_true ⟨rfl, by simp [MapState.start]⟩ (.inr (.inl rfl))
  · rcases shareAll_cases env q (zeroBuffers q (.start maps counts)) with
      ⟨s₁, new, shared, -⟩ | ⟨e', s₁, new, shared, created, ext⟩
    · simp [shared] at failed
    · rw [shared] at failed
      cases failed
      rw [← leftover_live_iff created ext]
      change Restored (zeroBuffers q (.start maps counts)) _ ↔ _
      refine restored_iff rfl rfl (nodup_unshared q) created.nodup created.subset ext ?_ ?_ ?_ ?_
      · split_ifs <;> rfl
      · split_ifs <;> rfl
      · split_ifs <;> rfl
      · intro f member
        exact spoiled_maps fun same => created.dspBuffer (same ▸ member)

/-- Nothing can be shared, and no inline data can be read. -/
def failingEnv : MapEnv where
  nsidFault := false
  memory := true
  inDataFault := true
  inData := ⟨.bad, ⟨none, false⟩, ⟨.error .enomem, 0, false⟩⟩
  outData := ⟨.bad, ⟨none, false⟩, ⟨.error .enomem, 0, false⟩⟩
  buffers := fun _ => ⟨some (0, 0, 0), ⟨.bad, ⟨none, false⟩, ⟨.error .enomem, 0, false⟩⟩⟩
  dspBuffer := 0
  table := ⟨false, ⟨.error .enomem, 0, false⟩⟩

/-- A request with 4 bytes of input data and 32 bytes of output data. -/
def outputQueue : MapQueue := ⟨0, 4, 32, 0, 0, 0⟩

/-- A request with two buffers. -/
def tableQueue : MapQueue := ⟨0, 0, 0, 32, 0, 0⟩

/-- Input data is copied, the one page of output data is pinned, the first buffer is an allocation,
and there is no memory at the second one. -/
def sharingEnv : MapEnv where
  nsidFault := false
  memory := true
  inDataFault := false
  inData := ⟨.multiple, ⟨none, false⟩, ⟨.ok 0x1000, 0x5000, false⟩⟩
  outData := ⟨.single none none, ⟨some [7], true⟩, ⟨.error .enomem, 0, false⟩⟩
  buffers i :=
    ⟨some (flagReadWrite, 0, 16), ⟨if i = 0 then .single (some 0x2000) none else .bad,
      ⟨none, false⟩, ⟨.error .enomem, 0, false⟩⟩⟩
  dspBuffer := 0
  table := ⟨false, ⟨.error .enomem, 0, false⟩⟩

/-- A request with 32 bytes of data each way and two buffers. -/
def sharedQueue : MapQueue := ⟨0, 32, 32, 32, 0x10000, 0x20000⟩

/-- The stack holds zeros, and the second buffer cannot be shared: what was shared before it is
given back. -/
theorem xrpMapRequest_restored_zero :
    ∃ s', xrpMapRequest sharingEnv sharedQueue (.start (fun _ => .zero) 0) =
        (.error (.buffer 1, .einval), s') ∧
      s'.created = [.inData, .outData, .buffer 0] ∧ Restored (.start (fun _ => .zero) 0) s' := by
  have failed : xrpMapRequest sharingEnv sharedQueue (.start (fun _ => .zero) 0) =
      (.error (.buffer 1, .einval), _) := rfl
  refine ⟨_, failed, rfl, (xrpMapRequest_restored_iff failed).mpr ?_⟩
  exact .inr (.inr ⟨fun _ _ => not_live_zero, fun _ _ => not_live_zero, fun _ => not_live_zero⟩)

/-- The allocation at `0x1000` has one reference, which is not of this call. It is given back
if the stack holds an old native mapping, and input data cannot be read; or if the stack holds
an old shadow copy, without a type, and the table of descriptors cannot be shared. -/
theorem xrpMapRequest_frees_foreign :
    ((xrpMapRequest failingEnv outputQueue
        (.start (fun _ => ⟨mappingNative, ⟨0x1000, 0, 0, 0, 0⟩⟩) (ref 0x1000))).1 =
        .error (.inData, .efault) ∧
      (xrpMapRequest failingEnv outputQueue
        (.start (fun _ => ⟨mappingNative, ⟨0x1000, 0, 0, 0, 0⟩⟩) (ref 0x1000))).2.counts.2 0x1000 =
        0) ∧
    ((xrpMapRequest { failingEnv with inDataFault := false } tableQueue
        (.start (fun _ => ⟨mappingNone, ⟨0, 0, 0, 0x1000, alienCopy⟩⟩) (ref 0x1000))).1 =
        .error (.dspBuffer, .enomem) ∧
      (xrpMapRequest { failingEnv with inDataFault := false } tableQueue
        (.start (fun _ => ⟨mappingNone, ⟨0, 0, 0, 0x1000, alienCopy⟩⟩) (ref 0x1000))).2.counts.2
        0x1000 = 0) := by
  refine ⟨⟨rfl, ?_⟩, rfl, ?_⟩
  · decide
  · decide

end Undo

end Xrp.Kernel
