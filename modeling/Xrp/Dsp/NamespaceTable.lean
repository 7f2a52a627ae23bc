import Xrp.Dsp.Namespace

/-!
# Registration of namespaces

The table of the DSP against a registry: a partial map from identifiers to
handlers, changed by the calls that report success. In every run of
`xrp_device_register_namespace` and `xrp_device_unregister_namespace` the table
is sorted by identifier and its entries are those of the registry. Nothing is
known of the slots behind the entries.
-/

namespace Xrp.Dsp

/-! ## The order of identifiers -/

/-- The order of identifiers is the lexicographic order of their bytes. -/
def nsidKey (nsid : Nsid) : List ℕ := (List.ofFn nsid).map BitVec.toNat

theorem nsidKey_injective : Function.Injective nsidKey := by
  intro a b same
  have bytes : List.ofFn a = List.ofFn b :=
    List.map_injective_iff.mpr (fun _ _ => BitVec.eq_of_toNat_eq) same
  exact List.ofFn_injective bytes

theorem memcmp_lt_iff {as bs : List U8} (length : as.length = bs.length) :
    memcmp as bs = .lt ↔ as.map BitVec.toNat < bs.map BitVec.toNat := by
  induction as generalizing bs with
  | nil =>
    cases bs with
    | nil => simp [memcmp]
    | cons b bs => simp at length
  | cons a as ih =>
    cases bs with
    | nil => simp at length
    | cons b bs =>
      simp only [memcmp, List.map_cons, List.cons_lt_cons_iff, ← ih (Nat.succ.inj length),
        BitVec.lt_def]
      rcases lt_trichotomy a.toNat b.toNat with less | equal | more
      · simp [less]
      · simp [equal]
      · simp [more, more.not_gt, more.ne']

theorem memcmp_swap (as bs : List U8) : memcmp bs as = (memcmp as bs).swap := by
  induction as generalizing bs with
  | nil => cases bs <;> rfl
  | cons a as ih =>
    cases bs with
    | nil => rfl
    | cons b bs =>
      simp only [memcmp, BitVec.lt_def, ih]
      rcases lt_trichotomy a.toNat b.toNat with less | equal | more
      · simp [less, less.not_gt]
      · simp [equal]
      · simp [more, more.not_gt]

section Compare

variable {nsid : Nsid} {cmdNs : XrpCmdNs}

/-- The key of an entry. -/
def XrpCmdNs.key (cmdNs : XrpCmdNs) : List ℕ := nsidKey cmdNs.id

theorem compareCmdNs_lt_iff : compareCmdNs nsid cmdNs = .lt ↔ nsidKey nsid < cmdNs.key :=
  memcmp_lt_iff (by simp)

theorem compareCmdNs_gt_iff : compareCmdNs nsid cmdNs = .gt ↔ cmdNs.key < nsidKey nsid := by
  rw [compareCmdNs, memcmp_swap, Ordering.swap_eq_gt]
  exact memcmp_lt_iff (by simp)

theorem compareCmdNs_eq_iff : compareCmdNs nsid cmdNs = .eq ↔ cmdNs.key = nsidKey nsid := by
  rcases lt_trichotomy cmdNs.key (nsidKey nsid) with less | equal | more
  · simp [compareCmdNs_gt_iff.mpr less, less.ne]
  · have notLt : compareCmdNs nsid cmdNs ≠ .lt := by simp [compareCmdNs_lt_iff, equal]
    have notGt : compareCmdNs nsid cmdNs ≠ .gt := by simp [compareCmdNs_gt_iff, equal]
    cases found : compareCmdNs nsid cmdNs <;> simp_all
  · simp [compareCmdNs_lt_iff.mpr more, more.ne']

theorem key_eq_iff : cmdNs.key = nsidKey nsid ↔ cmdNs.id = nsid := nsidKey_injective.eq_iff

end Compare

/-! ## The table as a registry -/

/-- What is registered: for an identifier the handler and its context. -/
abbrev Registry := Nsid → Option (ℕ × ℕ)

/-- The entries of the table are those of the registry. -/
structure Represents (device : XrpDevice) (registry : Registry) : Prop where
  fits : device.nCmdNs ≤ device.sizeCmdNs
  sorted : SortedSlots XrpCmdNs.key device.cmdNs device.nCmdNs
  entries : ∀ e : XrpCmdNs, (∃ i < device.nCmdNs, device.cmdNs i = e) ↔
    registry e.id = some (e.handler, e.handlerContext)

section Represents

variable {device : XrpDevice} {registry : Registry} {nsid : Nsid}

/-- `find_cmd_ns` finds the place of the identifier. -/
theorem Represents.slotFor (represents : Represents device registry) (nsid : Nsid) :
    SlotFor XrpCmdNs.key device.cmdNs device.nCmdNs (nsidKey nsid) (slotOf device nsid) :=
  represents.sorted.slotFor (fun _ => beq_iff_eq.trans compareCmdNs_gt_iff)
    (fun _ => beq_iff_eq.trans compareCmdNs_lt_iff)

/-- Only the entries count. -/
theorem Represents.agree {device' : XrpDevice} (represents : Represents device registry)
    (count : device'.nCmdNs = device.nCmdNs) (fits : device'.nCmdNs ≤ device'.sizeCmdNs)
    (agree : ∀ i < device.nCmdNs, device'.cmdNs i = device.cmdNs i) :
    Represents device' registry := by
  refine ⟨fits, ?_, ?_⟩
  · intro i j less lt
    rw [count] at lt
    rw [agree i (less.trans lt), agree j lt]
    exact represents.sorted i j less lt
  · intro e
    rw [← represents.entries e, count]
    exact exists_congr fun i => and_congr_right fun lt => by rw [agree i lt]

/-- An identifier is in the table if and only if it is registered. -/
theorem Represents.mem_iff (represents : Represents device registry) :
    (∃ i < device.nCmdNs, (device.cmdNs i).key = nsidKey nsid) ↔ registry nsid ≠ none := by
  constructor
  · intro found
    rcases found with ⟨i, lt, same⟩
    have entry := (represents.entries (device.cmdNs i)).mp ⟨i, lt, rfl⟩
    rw [key_eq_iff.mp same] at entry
    simp [entry]
  · intro registered
    rcases Option.ne_none_iff_exists'.mp registered with ⟨⟨handler, context⟩, known⟩
    rcases (represents.entries ⟨nsid, handler, context⟩).mpr known with ⟨i, lt, entry⟩
    exact ⟨i, lt, by rw [entry]; rfl⟩

theorem cmdNsMatch_iff {p : ℕ} :
    cmdNsMatch (m := Id) (compareCmdNs nsid) device p = true ↔
      device.sizeCmdNs ≠ 0 ∧ (device.cmdNs p).id = nsid := by
  rw [← key_eq_iff, ← compareCmdNs_eq_iff]
  by_cases null : device.sizeCmdNs = 0
  · simp [cmdNsMatch, null]
  · simp only [cmdNsMatch, null, if_false]
    exact beq_iff_eq.trans (and_iff_right null).symm

theorem Represents.found_iff (represents : Represents device registry) :
    foundCmdNs device nsid (slotOf device nsid) = true ↔ registry nsid ≠ none := by
  rw [← represents.mem_iff, (represents.slotFor nsid).mem_iff represents.sorted, foundCmdNs,
    Bool.and_eq_true, cmdNsMatch_iff, cmdNsPresent, decide_eq_true_iff, key_eq_iff]
  have fits := represents.fits
  constructor
  · intro found
    exact ⟨found.1, found.2.2⟩
  · intro found
    exact ⟨found.1, by omega, found.2⟩

end Represents

/-! ## The calls -/

/-- A call that succeeds sets what is registered for an identifier. -/
def Registry.set (registry : Registry) (status : XrpStatus) (nsid : Nsid)
    (handler : Option (ℕ × ℕ)) : Registry :=
  if status = .success then Function.update registry nsid handler else registry

section Calls

variable {device : XrpDevice} {registry : Registry} {nsid : Nsid} {handler context : ℕ}
  {realloc : Option (ℕ → XrpCmdNs)}

/-- Where `insert_cmd_ns` has room the slots move up, in the old array or in the new one. -/
theorem insertCmdNs_some {p : ℕ} {d : XrpDevice} (fits : device.nCmdNs ≤ device.sizeCmdNs)
    (inserted : insertCmdNs realloc device p = some d) :
    d.nCmdNs = device.nCmdNs + 1 ∧ d.nCmdNs ≤ d.sizeCmdNs ∧
      ∃ slots : ℕ → XrpCmdNs, (∀ i < device.nCmdNs, slots i = device.cmdNs i) ∧
        d.cmdNs = shiftUp slots device.nCmdNs p := by
  unfold insertCmdNs at inserted
  split_ifs at inserted with full
  · rcases Option.map_eq_some_iff.mp inserted with ⟨fresh, -, rfl⟩
    refine ⟨rfl, by simp only; omega, _, ?_, rfl⟩
    intro i lt
    exact if_pos (by omega)
  · rcases Option.some.inj inserted with rfl
    exact ⟨rfl, by simp only; omega, device.cmdNs, fun _ _ => rfl, rfl⟩

/-- A new entry goes to its place in the table. -/
theorem Represents.insert (represents : Represents device registry) (new : registry nsid = none) :
    Represents ⟨device.nCmdNs + 1, device.nCmdNs + 1,
        Function.update (shiftUp device.cmdNs device.nCmdNs (slotOf device nsid))
          (slotOf device nsid) ⟨nsid, handler, context⟩⟩
      (Function.update registry nsid (some (handler, context))) := by
  have slot := represents.slotFor nsid
  refine ⟨le_rfl, ?_, ?_⟩
  · apply SlotFor.sorted_insert slot represents.sorted
    intro i lt same
    exact represents.mem_iff.mp ⟨i, lt, same⟩ new
  · intro e
    rw [mem_insert_iff slot.le, represents.entries]
    by_cases own : e.id = nsid
    · rw [own, new, Function.update_self]
      rcases e with ⟨id, h, c⟩
      subst own
      simp [eq_comm]
    · rw [Function.update_of_ne own, or_iff_right]
      exact fun same => own (by rw [same])

theorem Represents.remove (represents : Represents device registry) (known : registry nsid ≠ none) :
    Represents (removeCmdNs device (slotOf device nsid)) (Function.update registry nsid none) := by
  rcases ((represents.slotFor nsid).mem_iff represents.sorted).mp (represents.mem_iff.mpr known)
    with ⟨lt, found⟩
  refine ⟨(Nat.sub_le ..).trans represents.fits, represents.sorted.remove, ?_⟩
  intro e
  refine (represents.sorted.mem_remove_iff lt).trans ?_
  rw [represents.entries, found, Ne, key_eq_iff]
  by_cases own : e.id = nsid
  · simp [own]
  · simp [own]

/-- `xrp_device_register_namespace` registers what is not registered, if there is room. -/
theorem Represents.register (represents : Represents device registry) :
    Represents (xrpDeviceRegisterNamespace realloc device nsid handler context).2
      (registry.set (xrpDeviceRegisterNamespace realloc device nsid handler context).1 nsid
        (some (handler, context))) := by
  unfold xrpDeviceRegisterNamespace
  simp only [represents.found_iff]
  split_ifs with known
  · exact represents
  · cases inserted : insertCmdNs realloc device (slotOf device nsid) with
    | none => exact represents
    | some d =>
      rcases insertCmdNs_some represents.fits inserted with ⟨count, fits, slots, agree, moved⟩
      refine (represents.insert (not_not.mp known)).agree count fits ?_
      intro i lt
      have le := (represents.slotFor nsid).le
      simp only [moved, Function.update_apply, shiftUp] at lt ⊢
      split_ifs
      · rfl
      · exact agree _ (by omega)
      · exact agree _ (by omega)

/-- `xrp_device_unregister_namespace` removes what is registered. -/
theorem Represents.unregister (represents : Represents device registry) :
    Represents (xrpDeviceUnregisterNamespace device nsid).2
      (registry.set (xrpDeviceUnregisterNamespace device nsid).1 nsid none) := by
  unfold xrpDeviceUnregisterNamespace
  simp only [represents.found_iff]
  split_ifs with known
  · exact represents.remove known
  · exact represents

end Calls

/-! ## Runs -/

/-- One call, or a change of memory that is not part of the array. -/
inductive TableStep : XrpDevice × Registry → XrpDevice × Registry → Prop
  | register {device : XrpDevice} {registry : Registry} (realloc : Option (ℕ → XrpCmdNs))
      (nsid : Nsid) (handler context : ℕ) :
    TableStep (device, registry)
      ((xrpDeviceRegisterNamespace realloc device nsid handler context).2,
        registry.set (xrpDeviceRegisterNamespace realloc device nsid handler context).1 nsid
          (some (handler, context)))
  | unregister {device : XrpDevice} {registry : Registry} (nsid : Nsid) :
    TableStep (device, registry)
      ((xrpDeviceUnregisterNamespace device nsid).2,
        registry.set (xrpDeviceUnregisterNamespace device nsid).1 nsid none)
  | outside {device : XrpDevice} {registry : Registry} {slots : ℕ → XrpCmdNs} :
    (∀ i < device.sizeCmdNs, slots i = device.cmdNs i) →
    TableStep (device, registry) ({ device with cmdNs := slots }, registry)

/-- All runs from a device without namespaces. -/
def TableReach (device : XrpDevice) (registry : Registry) : Prop :=
  ∃ slots : ℕ → XrpCmdNs,
    Relation.ReflTransGen TableStep (⟨0, 0, slots⟩, fun _ => none) (device, registry)

theorem TableStep.represents {t t' : XrpDevice × Registry} (step : TableStep t t')
    (represents : Represents t.1 t.2) : Represents t'.1 t'.2 := by
  cases step with
  | register => exact represents.register
  | unregister => exact represents.unregister
  | outside same =>
    exact represents.agree rfl represents.fits fun i lt => same i (lt.trans_le represents.fits)

/-- In every run the table represents the registry. -/
theorem TableReach.represents {device : XrpDevice} {registry : Registry}
    (reach : TableReach device registry) : Represents device registry := by
  rcases reach with ⟨slots, run⟩
  suffices ∀ t, Relation.ReflTransGen TableStep (⟨0, 0, slots⟩, fun _ => none) t →
      Represents t.1 t.2 from this _ run
  intro t run
  induction run with
  | refl => exact ⟨le_rfl, by intro i j; simp, by simp⟩
  | tail run step ih => exact step.represents ih

/-! ## The table as a map -/

/-- The entries of the table. -/
def XrpDevice.entries (device : XrpDevice) : List XrpCmdNs :=
  (List.range device.nCmdNs).map device.cmdNs

/-- The table read as a map. -/
def XrpDevice.registry (device : XrpDevice) : Registry := fun nsid =>
  (device.entries.find? (·.id = nsid)).map fun cmdNs => (cmdNs.handler, cmdNs.handlerContext)

section Map

variable {device : XrpDevice} {registry : Registry} {nsid : Nsid} {handler context : ℕ}
  {realloc : Option (ℕ → XrpCmdNs)}

theorem XrpDevice.mem_entries {cmdNs : XrpCmdNs} :
    cmdNs ∈ device.entries ↔ ∃ i < device.nCmdNs, device.cmdNs i = cmdNs := by
  simp only [XrpDevice.entries, List.mem_map, List.mem_range]

theorem Represents.registry_eq (represents : Represents device registry) :
    device.registry = registry := by
  funext nsid
  unfold XrpDevice.registry
  cases found : device.entries.find? (·.id = nsid) with
  | none =>
    have absent : ∀ cmdNs ∈ device.entries, cmdNs.id ≠ nsid := by
      simpa [List.find?_eq_none] using found
    by_contra registered
    rcases represents.mem_iff.mpr (Ne.symm registered) with ⟨i, lt, key⟩
    exact absent _ (XrpDevice.mem_entries.mpr ⟨i, lt, rfl⟩) (key_eq_iff.mp key)
  | some cmdNs =>
    have known : cmdNs.id = nsid := by simpa using List.find?_some found
    have entry := XrpDevice.mem_entries.mp (List.mem_of_find?_eq_some found)
    rw [← known, (represents.entries cmdNs).mp entry]
    rfl

/-- Entries are in the order of `memcmp`. -/
theorem Represents.memcmp_lt (represents : Represents device registry) {i j : ℕ} (less : i < j)
    (lt : j < device.nCmdNs) :
    memcmp (List.ofFn (device.cmdNs i).id) (List.ofFn (device.cmdNs j).id) = .lt :=
  compareCmdNs_lt_iff.mpr (represents.sorted i j less lt)

theorem insertCmdNs_eq_none_iff {p : ℕ} :
    insertCmdNs realloc device p = none ↔ device.nCmdNs = device.sizeCmdNs ∧ realloc = none := by
  unfold insertCmdNs
  split_ifs with full
  · simp [full]
  · simp [full]

/-- A namespace is registered if and only if its identifier is new and there is room. -/
theorem Represents.register_success_iff (represents : Represents device registry) :
    (xrpDeviceRegisterNamespace realloc device nsid handler context).1 = .success ↔
      registry nsid = none ∧ (device.nCmdNs = device.sizeCmdNs → realloc ≠ none) := by
  rw [← not_and, ← insertCmdNs_eq_none_iff (p := slotOf device nsid)]
  unfold xrpDeviceRegisterNamespace
  simp only [represents.found_iff]
  split_ifs with known
  · simp [known]
  · cases inserted : insertCmdNs realloc device (slotOf device nsid) with
    | none => simp
    | some d => simpa using known

theorem Represents.unregister_success_iff (represents : Represents device registry) :
    (xrpDeviceUnregisterNamespace device nsid).1 = .success ↔ registry nsid ≠ none := by
  unfold xrpDeviceUnregisterNamespace
  simp only [represents.found_iff]
  split_ifs with known
  · simp [known]
  · simp [known]

/-- A call that fails changes nothing. -/
theorem register_failed
    (failed : (xrpDeviceRegisterNamespace realloc device nsid handler context).1 ≠ .success) :
    (xrpDeviceRegisterNamespace realloc device nsid handler context).2 = device := by
  unfold xrpDeviceRegisterNamespace at failed ⊢
  simp only at failed ⊢
  split_ifs at failed ⊢
  · rfl
  · cases inserted : insertCmdNs realloc device (slotOf device nsid) with
    | none => rfl
    | some d => simp [inserted] at failed

theorem unregister_failed (failed : (xrpDeviceUnregisterNamespace device nsid).1 ≠ .success) :
    (xrpDeviceUnregisterNamespace device nsid).2 = device := by
  unfold xrpDeviceUnregisterNamespace at failed ⊢
  simp only at failed ⊢
  split_ifs at failed ⊢
  · exact absurd rfl failed
  · rfl

/-- In every run the table is sorted, fits its array and, read as a map, is the map of the calls
that succeeded; a call succeeds if and only if it can, and changes the map only then. -/
theorem tableReach_refines (reach : TableReach device registry) :
    (∀ i j, i < j → j < device.nCmdNs →
      memcmp (List.ofFn (device.cmdNs i).id) (List.ofFn (device.cmdNs j).id) = .lt) ∧
    device.nCmdNs ≤ device.sizeCmdNs ∧
    device.registry = registry ∧
    (∀ realloc nsid handler context,
      ((xrpDeviceRegisterNamespace realloc device nsid handler context).1 = .success ↔
        registry nsid = none ∧ (device.nCmdNs = device.sizeCmdNs → realloc ≠ none)) ∧
      ((xrpDeviceRegisterNamespace realloc device nsid handler context).1 ≠ .success →
        (xrpDeviceRegisterNamespace realloc device nsid handler context).2.registry = registry)) ∧
    (∀ nsid,
      ((xrpDeviceUnregisterNamespace device nsid).1 = .success ↔ registry nsid ≠ none) ∧
      ((xrpDeviceUnregisterNamespace device nsid).1 ≠ .success →
        (xrpDeviceUnregisterNamespace device nsid).2.registry = registry)) := by
  have represents := reach.represents
  refine ⟨fun _ _ => represents.memcmp_lt, represents.fits, represents.registry_eq, ?_, ?_⟩
  · intro realloc nsid handler context
    refine ⟨represents.register_success_iff, fun failed => ?_⟩
    rw [register_failed failed, represents.registry_eq]
  · intro nsid
    refine ⟨represents.unregister_success_iff, fun failed => ?_⟩
    rw [unregister_failed failed, represents.registry_eq]

/-- A registration takes a slot, of a larger array if there is none left. -/
theorem register_counts
    (success : (xrpDeviceRegisterNamespace realloc device nsid handler context).1 = .success) :
    (xrpDeviceRegisterNamespace realloc device nsid handler context).2.nCmdNs =
        device.nCmdNs + 1 ∧
      (xrpDeviceRegisterNamespace realloc device nsid handler context).2.sizeCmdNs =
        if device.nCmdNs = device.sizeCmdNs then (device.sizeCmdNs + 1) * 2
        else device.sizeCmdNs := by
  unfold xrpDeviceRegisterNamespace at success ⊢
  simp only at success ⊢
  split_ifs at success ⊢ with found full
  · cases realloc with
    | none => simp [insertCmdNs, full] at success
    | some fresh => simp [insertCmdNs, full]
  · simp [insertCmdNs, full]

theorem TableReach.register (reach : TableReach device registry)
    (success : (xrpDeviceRegisterNamespace realloc device nsid handler context).1 = .success) :
    TableReach (xrpDeviceRegisterNamespace realloc device nsid handler context).2
      (Function.update registry nsid (some (handler, context))) := by
  obtain ⟨slots, run⟩ := reach
  have step : TableStep (device, registry) _ := .register realloc nsid handler context
  rw [success, Registry.set, if_pos rfl] at step
  exact ⟨slots, run.tail step⟩

theorem TableReach.unregister (reach : TableReach device registry)
    (success : (xrpDeviceUnregisterNamespace device nsid).1 = .success) :
    TableReach (xrpDeviceUnregisterNamespace device nsid).2
      (Function.update registry nsid none) := by
  obtain ⟨slots, run⟩ := reach
  have step : TableStep (device, registry) _ := .unregister nsid
  rw [success, Registry.set, if_pos rfl] at step
  exact ⟨slots, run.tail step⟩

/-- Slots of an array that was not written to. -/
def zeroSlots : ℕ → XrpCmdNs := fun _ => ⟨fun _ => 0, 0, 0⟩

/-- Two identifiers are registered, the larger one first; there is no memory for a third one; and
the first one is unregistered. -/
theorem tableReach_refines_calls :
    let first := xrpDeviceRegisterNamespace (some zeroSlots) ⟨0, 0, zeroSlots⟩ (fun _ => 2) 20 0
    let second := xrpDeviceRegisterNamespace none first.2 (fun _ => 1) 10 0
    let third := xrpDeviceRegisterNamespace none second.2 (fun _ => 3) 30 0
    let last := xrpDeviceUnregisterNamespace third.2 fun _ => 2
    (first.1 = .success ∧ second.1 = .success ∧ third.1 ≠ .success ∧ last.1 = .success) ∧
      last.2.registry (fun _ => 1) = some (10, 0) ∧ last.2.registry (fun _ => 2) = none ∧
      last.2.registry (fun _ => 3) = none := by
  intro first second third last
  have other {a b : U8} (ne : a ≠ b) : (fun _ => a : Nsid) ≠ fun _ => b :=
    fun same => ne (congrFun same 0)
  have start : TableReach ⟨0, 0, zeroSlots⟩ fun _ => none := ⟨zeroSlots, .refl⟩
  have first_ok : first.1 = .success :=
    ((tableReach_refines start).2.2.2.1 _ _ 20 0).1.mpr ⟨rfl, fun _ => nofun⟩
  have one := start.register first_ok
  obtain ⟨count, size⟩ := register_counts first_ok
  have second_ok : second.1 = .success := by
    refine ((tableReach_refines one).2.2.2.1 none (fun _ => 1) 10 0).1.mpr ⟨?_, ?_⟩
    · exact Function.update_of_ne (other (by decide)) _ _
    · rw [count, size]
      decide
  have two := one.register second_ok
  obtain ⟨count', size'⟩ := register_counts second_ok
  have third_fails : third.1 ≠ .success := by
    intro succeeds
    refine (((tableReach_refines two).2.2.2.1 none (fun _ => 3) 30 0).1.mp succeeds).2 ?_ rfl
    rw [count', size', count, size]
    rfl
  have kept : third.2 = second.2 := register_failed third_fails
  have last_ok : last.1 = .success := by
    refine ((tableReach_refines (kept ▸ two)).2.2.2.2 fun _ => 2).1.mpr ?_
    rw [Function.update_of_ne (other (by decide)), Function.update_self]
    simp
  have left := (kept ▸ two : TableReach third.2 _).unregister last_ok
  rw [(tableReach_refines left).2.2.1]
  refine ⟨⟨first_ok, second_ok, third_fails, last_ok⟩, ?_, Function.update_self _ _ _, ?_⟩
  · rw [Function.update_of_ne (other (by decide)), Function.update_self]
  · rw [Function.update_of_ne (other (by decide)), Function.update_of_ne (other (by decide)),
      Function.update_of_ne (other (by decide))]

end Map

end Xrp.Dsp
