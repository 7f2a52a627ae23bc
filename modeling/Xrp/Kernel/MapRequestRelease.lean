import Xrp.Kernel.MapRequestUndo

/-!
# What a mapped request gives back

`xrp_unmap_request` writes data back and unshares the mappings of a request that was
mapped, in another order than `xrp_unmap_request_nowb` and with the flags that the
DSP left in the table of descriptors. Neither the flags nor an error on the way
decide what is given back: both functions give back what `xrp_map_request` took.
-/

namespace Xrp.Kernel

/-! ## Unmapping with write-back -/

/-- What `xrp_unmap_request` meets: which shadow copies and if the inline output data cannot be
copied to user space, and the flags that are in the table of descriptors by now. -/
structure UnmapEnv : Type where
  copyFault : Field → Bool
  outDataFault : Bool
  flags : ℕ → U32

/-- `xrp_writeback_alien_mapping`, with the result of `xrp_copy_user_from_phys`. -/
def xrpWritebackAlienMapping (copyFault : Bool) (a : XrpAlienMapping) : Except Errno Unit :=
  if a.type = alienCopy ∧ copyFault then .error .einval else .ok ()

/-- What `__xrp_unshare_block` returns. -/
def unshareResult (copyFault : Bool) (flags : U32) (m : XrpMapping) : Except Errno Unit :=
  if m.kind = mappingAlien ∧ flags &&& flagWrite ≠ 0 then
    xrpWritebackAlienMapping copyFault m.alienMapping
  else .ok ()

section UnmapRequest

variable (env : UnmapEnv) (q : MapQueue)

/-- `__xrp_unshare_block` for a mapping of the request. -/
def unshareWriteBack (f : Field) (flags : U32) (s : MapState) : Except Errno Unit × MapState :=
  (unshareResult (env.copyFault f) flags (s.maps f), unshareField s f)

/-- The output data, in a mapping or inline. -/
def unshareOutData (s : MapState) : Except Errno Unit × MapState :=
  if q.outDataSize.toNat > inlineDataSize then unshareWriteBack env .outData flagWrite s
  else (if env.outDataFault then .error .efault else .ok (), s)

/-- One turn of the loop over the buffers: a new error replaces the one before. -/
def unshareBuffer (r : Except Errno Unit × MapState) (i : ℕ) : Except Errno Unit × MapState :=
  match unshareWriteBack env (.buffer i) (env.flags i) r.2 with
  | (.ok (), s) => (r.1, s)
  | (.error e, s) => (.error e, s)

/-- `xrp_unmap_request`. -/
def xrpUnmapRequest (s : MapState) : Except Errno Unit × MapState :=
  let s :=
    if q.inDataSize.toNat > inlineDataSize then (unshareWriteBack env .inData flagRead s).2 else s
  let (ret, s) := unshareOutData env q s
  let s :=
    if q.nBuffers > inlineBufferCount then (unshareWriteBack env .dspBuffer flagReadWrite s).2
    else s
  (List.range q.nBuffers).foldl (unshareBuffer env) (ret, s)

theorem unshareOutData_snd (s : MapState) :
    (unshareOutData env q s).2 = q.outFields.foldl unshareField s := by
  unfold unshareOutData MapQueue.outFields
  split_ifs <;> rfl

theorem unshareBuffer_snd (r : Except Errno Unit × MapState) (i : ℕ) :
    (unshareBuffer env r i).2 = unshareField r.2 (.buffer i) := by
  unfold unshareBuffer unshareWriteBack
  cases unshareResult (env.copyFault (.buffer i)) (env.flags i) (r.2.maps (.buffer i)) <;> rfl

theorem foldl_unshareBuffer_snd (indices : List ℕ) (r : Except Errno Unit × MapState) :
    (indices.foldl (unshareBuffer env) r).2 =
      (indices.map Field.buffer).foldl unshareField r.2 := by
  induction indices generalizing r with
  | nil => rfl
  | cons i indices ih => rw [List.foldl_cons, ih, unshareBuffer_snd, List.map_cons, List.foldl_cons]

/-- What is unshared does not depend on what is written back. -/
theorem xrpUnmapRequest_snd (s : MapState) :
    (xrpUnmapRequest env q s).2 = q.unmapped.foldl unshareField s := by
  have order : q.unmapped =
      q.inFields ++ q.outFields ++ q.tableFields ++ (List.range q.nBuffers).map .buffer := rfl
  have input : (if q.inDataSize.toNat > inlineDataSize then
      (unshareWriteBack env .inData flagRead s).2 else s) = q.inFields.foldl unshareField s := by
    unfold MapQueue.inFields
    split_ifs <;> rfl
  have table (t : MapState) : (if q.nBuffers > inlineBufferCount then
      (unshareWriteBack env .dspBuffer flagReadWrite t).2 else t) =
        q.tableFields.foldl unshareField t := by
    unfold MapQueue.tableFields
    split_ifs <;> rfl
  rw [order, List.foldl_append, List.foldl_append, List.foldl_append, xrpUnmapRequest,
    foldl_unshareBuffer_snd, table, unshareOutData_snd, input]

end UnmapRequest

/-! ## The balance -/

/-- What the mappings of a request hold is given back: `s` is the request as it was mapped, and
each of its mappings that holds something was destroyed once. -/
structure Released (s s' : MapState) (now : Counts) : Prop where
  counts : s'.counts = now - (s.created.map fun f => (s.maps f).held).sum
  once : s'.destroyed.Nodup
  mem_destroyed : ∀ f, f ∈ s'.destroyed ↔ f ∈ s.created ∧ (s.maps f).Live

section Release

variable {env : MapEnv} {q : MapQueue} {s s' : MapState} {fields new : List Field}

theorem sum_held_eq {maps : Field → XrpMapping} (nodup : fields.Nodup) (once : new.Nodup)
    (subset : ∀ f ∈ new, f ∈ fields) (dead : ∀ f ∈ fields, f ∉ new → ¬ (maps f).Live) :
    (fields.map fun f => (maps f).held).sum = (new.map fun f => (maps f).held).sum := by
  have balance : 0 + (new.map fun f => (maps f).held).sum -
      (fields.map fun f => (maps f).held).sum = 0 := (sub_sum_eq_iff nodup once subset).mpr dead
  rw [zero_add, sub_eq_zero] at balance
  exact balance.symm

/-- To unshare all that was created, and nothing else that is live, releases the request. -/
theorem released_of_foldl (clean : s.destroyed = []) (nodup : fields.Nodup)
    (once : s.created.Nodup) (subset : ∀ f ∈ s.created, f ∈ fields)
    (dead : ∀ f ∈ fields, f ∉ s.created → ¬ (s.maps f).Live) (now : Counts) :
    Released s (fields.foldl unshareField { s with counts := now }) now := by
  rcases foldl_unshareField nodup { s with counts := now } with ⟨counts, -, destroyed⟩
  have gone : (fields.foldl unshareField { s with counts := now }).destroyed =
      fields.filter fun f => (s.maps f).Live := by
    rw [destroyed, clean, List.nil_append]
  refine ⟨?_, ?_, ?_⟩
  · rw [counts, ← sum_held_eq nodup once subset dead]
  · rw [gone]
    exact nodup.filter _
  · intro f
    rw [gone, List.mem_filter, decide_eq_true_iff]
    refine and_congr_left fun live => ⟨?_, subset f⟩
    intro member
    by_contra other
    exact dead f member other live

/-- What `xrp_map_request` created, and what it left of the rest. -/
theorem xrpMapRequest_ok {maps : Field → XrpMapping} {counts : Counts}
    (mapped : xrpMapRequest env q (.start maps counts) = (.ok (), s')) :
    CreatedAll q s'.created ∧ s'.destroyed = [] ∧
      s'.counts = counts + (s'.created.map fun f => (s'.maps f).held).sum ∧
      ∀ f ∈ q.unshared, f ∉ s'.created → ¬ (s'.maps f).Live := by
  unfold xrpMapRequest at mapped
  split_ifs at mapped with fault memory
  · cases mapped
  · cases mapped
  · rcases shareAll_cases env q (zeroBuffers q (.start maps counts)) with
      ⟨s₁, new, shared, all, ext⟩ | ⟨e, s₁, new, shared, -⟩
    · rw [shared] at mapped
      cases mapped
      have created : s'.created = new := ext.created
      rw [created]
      refine ⟨all, ext.destroyed, ext.counts, ?_⟩
      intro f member other
      rcases all.rest f member other with ⟨i, lt, rfl⟩
      have zero : (zeroBuffers q (.start maps counts)).maps (.buffer i) = .zero := if_pos lt
      rw [ext.others _ other, zero]
      exact not_live_zero
    · simp [shared] at mapped

/-- **A mapped request is released in balance**: whatever the counts are by then, whatever
flags the DSP left and whatever cannot be written back, both functions that unmap a request
give back what mapping it took, and what they destroy is what was created. -/
theorem xrpUnmapRequest_released {maps : Field → XrpMapping} {counts : Counts}
    (mapped : xrpMapRequest env q (.start maps counts) = (.ok (), s')) :
    s'.counts = counts + (s'.created.map fun f => (s'.maps f).held).sum ∧
    ∀ now : Counts,
      (∀ wb : UnmapEnv, Released s' (xrpUnmapRequest wb q { s' with counts := now }).2 now) ∧
      Released s' (xrpUnmapRequestNowb q { s' with counts := now }) now := by
  rcases xrpMapRequest_ok mapped with ⟨all, clean, taken, dead⟩
  refine ⟨taken, fun now => ⟨fun wb => ?_, ?_⟩⟩
  · have perm := unmapped_perm q
    rw [xrpUnmapRequest_snd]
    refine released_of_foldl clean (perm.nodup_iff.mpr (nodup_unshared q)) all.nodup ?_ ?_ now
    · intro f member
      exact perm.mem_iff.mpr (all.subset f member)
    · intro f member
      exact dead f (perm.mem_iff.mp member)
  · exact released_of_foldl clean (nodup_unshared q) all.nodup all.subset dead now

end Release

/-- An allocation, two pages that can be pinned, memory for shadow copies, and two buffers of
which the second is not to be accessed. -/
def mixedEnv : MapEnv where
  nsidFault := false
  memory := true
  inDataFault := false
  inData := ⟨.single (some 0x1000) none, ⟨none, false⟩, ⟨.error .enomem, 0, false⟩⟩
  outData := ⟨.single none none, ⟨some [7, 8], true⟩, ⟨.error .enomem, 0, false⟩⟩
  buffers := fun i =>
    ⟨some (if i = 0 then flagReadWrite else 0, 0x8000, 64),
      ⟨.multiple, ⟨none, false⟩, ⟨.ok 0x2000, 0, false⟩⟩⟩
  dspBuffer := 0
  table := ⟨false, ⟨.ok 0x3000, 0, false⟩⟩

/-- A request with input data of 32 bytes, output data on two pages and two buffers. -/
def mixedQueue : MapQueue := ⟨0, 32, 0x1800, 32, 0x4000, 0x6000⟩

/-- Nothing can be written back, and the DSP has cleared the flags of the first buffer. -/
def faultyUnmap : UnmapEnv := ⟨fun _ => true, true, fun i => if i = 0 then 0 else flagReadWrite⟩

/-- The request, mapped. -/
def mixedMapped : MapState := (xrpMapRequest mixedEnv mixedQueue (.start (fun _ => .zero) 0)).2

/-- The request takes a reference to each of three allocations and pins two pages; in the end
nothing is held. -/
theorem xrpUnmapRequest_released_mixed :
    mixedMapped.counts = ref 0x1000 + pin 7 + pin 8 + ref 0x2000 + ref 0x3000 ∧
      (xrpUnmapRequest faultyUnmap mixedQueue mixedMapped).2.counts = 0 := by
  have mapped : xrpMapRequest mixedEnv mixedQueue (.start (fun _ => .zero) 0) =
      (.ok (), mixedMapped) := rfl
  have taken : mixedMapped.counts = 0 + ref 0x1000 + pin 7 + pin 8 + ref 0x2000 + ref 0x3000 := rfl
  rcases xrpUnmapRequest_released mapped with ⟨counts, released⟩
  have back := ((released mixedMapped.counts).1 faultyUnmap).counts
  refine ⟨by rw [taken, zero_add], back.trans ?_⟩
  rw [counts, zero_add, sub_self]

end Xrp.Kernel
