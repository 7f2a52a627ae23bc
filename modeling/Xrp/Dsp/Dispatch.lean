import Xrp.Dsp.Machine

/-!
# Dispatch by namespace

Which handler `process_command` invokes for a command with a namespace
identifier, against the registry. Unlike registration, dispatch does not test that
the slot found is an entry. When all entries are smaller than the identifier, the
slot behind them decides, and a namespace that was unregistered may still be there.
-/

namespace Xrp.Dsp

/-- All entries are smaller than the identifier, and the slot behind them has it. -/
def StaleSlot (device : XrpDevice) (nsid : Nsid) : Prop :=
  device.sizeCmdNs ≠ 0 ∧ (∀ i < device.nCmdNs, (device.cmdNs i).key < nsidKey nsid) ∧
    (device.cmdNs device.nCmdNs).id = nsid

/-- The registered handler was invoked once; or none is registered, none was invoked and the
request was completed as not delivered. -/
def ExactlyDispatched (registry : Registry) (nsid : Nsid) (s s' : Machine) : Prop :=
  match registry nsid with
  | some handler => s'.invoked = s.invoked ++ [some handler]
  | none =>
    s'.invoked = s.invoked ∧ s'.comm DspCmd.flags &&& responseValid ≠ 0 ∧
      s'.comm DspCmd.flags &&& responseDeliveryFail ≠ 0

/-! ## The handler chosen -/

section Selected

variable (order : ByteOrder) {device : XrpDevice} {registry : Registry} {comm : Comm}

theorem Represents.selected_registered {handler : ℕ × ℕ} (represents : Represents device registry)
    (flagged : comm DspCmd.flags &&& requestNsid ≠ 0)
    (known : registry (nsidOf order comm) = some handler) :
    selected order device comm = .call (some handler) := by
  have slot := represents.slotFor (nsidOf order comm)
  have registered : registry (nsidOf order comm) ≠ none := by simp [known]
  rcases (slot.mem_iff represents.sorted).mp (represents.mem_iff.mpr registered) with ⟨lt, same⟩
  have fits := represents.fits
  have id := key_eq_iff.mp same
  have entry := (represents.entries _).mp ⟨_, lt, rfl⟩
  rw [id, known] at entry
  rw [selected, if_pos flagged]
  simp only
  rw [if_pos ⟨by omega, id⟩, ← Option.some.inj entry]

theorem Represents.slotOf_eq_count {nsid : Nsid} (represents : Represents device registry)
    (unknown : registry nsid = none)
    (matched : (device.cmdNs (slotOf device nsid)).id = nsid) :
    slotOf device nsid = device.nCmdNs := by
  have slot := represents.slotFor nsid
  by_contra ne
  have lt : slotOf device nsid < device.nCmdNs := lt_of_le_of_ne slot.le ne
  exact represents.mem_iff.mp ⟨_, lt, key_eq_iff.mpr matched⟩ unknown

/-- Without a registered handler, the slot behind the entries decides. -/
theorem Represents.selected_unknown (represents : Represents device registry)
    (flagged : comm DspCmd.flags &&& requestNsid ≠ 0)
    (unknown : registry (nsidOf order comm) = none) :
    (StaleSlot device (nsidOf order comm) ∧ selected order device comm =
      .call (some ((device.cmdNs device.nCmdNs).handler,
        (device.cmdNs device.nCmdNs).handlerContext))) ∨
    (¬ StaleSlot device (nsidOf order comm) ∧ selected order device comm = .fail) := by
  have slot := represents.slotFor (nsidOf order comm)
  rw [selected, if_pos flagged]
  simp only
  split_ifs with matched
  · have atEnd := represents.slotOf_eq_count unknown matched.2
    rw [atEnd] at slot matched ⊢
    exact .inl ⟨⟨matched.1, slot.before, matched.2⟩, rfl⟩
  · refine .inr ⟨?_, rfl⟩
    intro stale
    have atEnd : slotOf device (nsidOf order comm) = device.nCmdNs := by
      by_contra ne
      have lt := lt_of_le_of_ne slot.le ne
      exact absurd (slot.after _ le_rfl lt) (not_le.mpr (stale.2.1 _ lt))
    exact matched ⟨stale.1, atEnd ▸ stale.2.2⟩

/-- The last namespace leaves its slot behind when it is unregistered. -/
theorem Represents.unregister_last {nsid : Nsid} {handler : ℕ × ℕ}
    (represents : Represents device registry) (known : registry nsid = some handler)
    (last : ∀ i < device.nCmdNs, (device.cmdNs i).key ≤ nsidKey nsid) :
    let d := (xrpDeviceUnregisterNamespace device nsid).2
    StaleSlot d nsid ∧ d.cmdNs d.nCmdNs = ⟨nsid, handler.1, handler.2⟩ := by
  rcases (represents.entries ⟨nsid, handler.1, handler.2⟩).mpr known with ⟨p, lt, entry⟩
  have own : (device.cmdNs p).key = nsidKey nsid := by
    rw [entry]
    rfl
  have slot := represents.slotFor nsid
  rcases (slot.mem_iff represents.sorted).mp ⟨p, lt, own⟩ with ⟨lt', own'⟩
  have same : slotOf device nsid = p := represents.sorted.inj lt' lt (own'.trans own.symm)
  have atEnd : p = device.nCmdNs - 1 := by
    by_contra ne
    have more := represents.sorted p (device.nCmdNs - 1) (by omega) (by omega)
    exact absurd (last (device.nCmdNs - 1) (by omega)) (not_le.mpr (own ▸ more))
  have found : foundCmdNs device nsid (slotOf device nsid) = true :=
    represents.found_iff.mpr (by simp [known])
  have fits := represents.fits
  have left : ∀ i ≤ device.nCmdNs - 1,
      (removeCmdNs device (slotOf device nsid)).cmdNs i = device.cmdNs i := by
    intro i le
    exact if_neg (by omega)
  have behind : device.cmdNs (device.nCmdNs - 1) = ⟨nsid, handler.1, handler.2⟩ := atEnd ▸ entry
  simp only [xrpDeviceUnregisterNamespace, found, if_true]
  refine ⟨⟨?_, ?_, ?_⟩, (left _ le_rfl).trans behind⟩
  · change device.sizeCmdNs ≠ 0
    omega
  · intro i below
    have below' : i < device.nCmdNs - 1 := below
    rw [left i below'.le, ← own, atEnd]
    exact represents.sorted i _ below' (by omega)
  · exact ((left _ le_rfl).trans behind) ▸ rfl

end Selected

/-! ## Dispatch is exact up to stale slots -/

section Dispatch

variable {order : ByteOrder} {handlers : Handlers} {device : XrpDevice} {registry : Registry}
  {flags : U32} {s s' : Machine} {status : XrpStatus}

theorem Processed.call_invoked {handler : Option (ℕ × ℕ)}
    (processed : Processed flags s (.call handler) status s') :
    s'.invoked = if s.HasRoom (bufferCount s.comm) then s.invoked ++ [handler] else s.invoked := by
  cases processed with
  | noRoom handler full => rw [if_neg full]
  | handled handler status comm memory room => rw [if_pos room]

theorem Processed.fail_undelivered (processed : Processed flags s .fail status s') :
    s'.invoked = s.invoked ∧ s'.comm DspCmd.flags &&& responseValid ≠ 0 ∧
      s'.comm DspCmd.flags &&& responseDeliveryFail ≠ 0 := by
  cases processed with
  | fail =>
    simp only [Function.update_self, BitVec.or_and_flag]
    rw [BitVec.or_and_other (by decide), BitVec.or_and_flag]
    exact ⟨trivial, by decide, by decide⟩

/-- If a handler was chosen, the request fails to be delivered without a call only where
memory was short and the flags said so before. -/
theorem Processed.call_undelivered {handler : Option (ℕ × ℕ)}
    (processed : Processed flags s (.call handler) status s') :
    (s'.invoked = s.invoked ∧ s'.comm DspCmd.flags &&& responseValid ≠ 0 ∧
      s'.comm DspCmd.flags &&& responseDeliveryFail ≠ 0) ↔
    ¬ s.HasRoom (bufferCount s.comm) ∧ flags &&& responseDeliveryFail ≠ 0 := by
  cases processed with
  | noRoom handler full =>
    have fail : (flags ||| responseValid) &&& responseDeliveryFail =
        flags &&& responseDeliveryFail := BitVec.or_and_other (by decide)
    have valid : responseValid ≠ 0 := by decide
    simp only [Function.update_self, BitVec.or_and_flag, fail]
    exact ⟨fun h => ⟨full, h.2.2⟩, fun h => ⟨trivial, valid, h.2⟩⟩
  | handled handler status comm memory room => simp [room]

/-- The namespace with identifier zero. -/
def zeroNs : XrpCmdNs := ⟨fun _ => 0, 1, 2⟩

/-- A device with one namespace, in an array with a second slot. -/
def oneNamespace : XrpDevice := ⟨1, 2, fun _ => zeroNs⟩

/-- What is registered there. -/
def oneRegistered : Registry := Function.update (fun _ => none) zeroNs.id (some (1, 2))

theorem oneRegistered_zero : oneRegistered zeroNs.id = some (1, 2) := by simp [oneRegistered]

theorem oneNamespace_reach : TableReach oneNamespace oneRegistered := by
  have empty : TableReach ⟨0, 0, fun _ => zeroNs⟩ fun _ => none := ⟨_, .refl⟩
  have slot : slotOf ⟨0, 0, fun _ => zeroNs⟩ zeroNs.id = 0 :=
    Nat.le_zero.mp (empty.represents.slotFor zeroNs.id).le
  have slots : Function.update (fun _ : ℕ => zeroNs) 0 ⟨zeroNs.id, 1, 2⟩ = fun _ => zeroNs :=
    Function.update_eq_self 0 _
  have call : TableStep (⟨0, 0, fun _ => zeroNs⟩, fun _ => none) (_, _) :=
    .register (some fun _ => zeroNs) zeroNs.id 1 2
  refine ⟨fun _ => zeroNs, .single ?_⟩
  simpa [xrpDeviceRegisterNamespace, slot, slots, foundCmdNs, cmdNsPresent, insertCmdNs,
    Registry.set, oneNamespace, oneRegistered] using call

/-- A request with namespace identifier zero and the given buffer size. -/
def zeroRequest (bufferSize : U32) (heap : Bool) : Machine :=
  ⟨fun w => if w = DspCmd.flags then requestValid ||| requestNsid
    else if w = DspCmd.bufferSize then bufferSize else 0, fun _ => 0, heap, []⟩

theorem zeroRequest_flagged (bufferSize : U32) (heap : Bool) :
    (zeroRequest bufferSize heap).comm DspCmd.flags &&& requestNsid ≠ 0 := by
  simp [zeroRequest, requestValid, requestNsid]

theorem zeroRequest_nsid (bufferSize : U32) (heap : Bool) :
    nsidOf .little (zeroRequest bufferSize heap).comm = zeroNs.id := by
  let comm := (zeroRequest bufferSize heap).comm
  have words : ![comm DspCmd.nsid, comm (DspCmd.nsid + 1), comm (DspCmd.nsid + 2),
      comm (DspCmd.nsid + 3)] = fun _ => 0 := by
    funext k
    fin_cases k <;> rfl
  rw [nsidOf, words]
  funext i
  simp [nsidBytes, ByteOrder.byte, zeroNs]

/-- **Dispatch is exact** if and only if no stale slot has the identifier of a command
without registered handler, and there is memory for the buffers of every other command. -/
theorem processCommand_exactlyDispatched_iff (reach : TableReach device registry)
    (flagged : s.comm DspCmd.flags &&& requestNsid ≠ 0) :
    ExactlyDispatched registry (nsidOf order s.comm) s
        ((processCommand order handlers device flags).run DspOp.act s).2 ↔
      (registry (nsidOf order s.comm) ≠ none → s.HasRoom (bufferCount s.comm)) ∧
      (registry (nsidOf order s.comm) = none → StaleSlot device (nsidOf order s.comm) →
        ¬ s.HasRoom (bufferCount s.comm) ∧ flags &&& responseDeliveryFail ≠ 0) := by
  have represents := reach.represents
  have processed := run_processCommand order handlers device flags s
  unfold ExactlyDispatched
  cases known : registry (nsidOf order s.comm) with
  | some handler =>
    rw [represents.selected_registered order flagged known] at processed
    simp [processed.call_invoked]
  | none =>
    rcases represents.selected_unknown order flagged known with ⟨stale, chosen⟩ | ⟨fresh, chosen⟩
    · rw [chosen] at processed
      simpa [stale] using processed.call_undelivered
    · rw [chosen] at processed
      have undelivered := processed.fail_undelivered
      simpa [fresh] using undelivered

/-- The command of a registered namespace. -/
theorem processCommand_exactlyDispatched_registered :
    ExactlyDispatched oneRegistered (nsidOf .little (zeroRequest 0 true).comm) (zeroRequest 0 true)
      ((processCommand .little (fun _ _ => .ret .success) oneNamespace 5).run DspOp.act
        (zeroRequest 0 true)).2 := by
  apply (processCommand_exactlyDispatched_iff oneNamespace_reach (zeroRequest_flagged 0 true)).mpr
  rw [zeroRequest_nsid, oneRegistered_zero]
  exact ⟨fun _ => .inl (by decide), by simp⟩

theorem unregistered_reach :
    TableReach (xrpDeviceUnregisterNamespace oneNamespace zeroNs.id).2 fun _ => none := by
  rcases oneNamespace_reach with ⟨slots, run⟩
  have represents := oneNamespace_reach.represents
  have found : foundCmdNs oneNamespace zeroNs.id (slotOf oneNamespace zeroNs.id) = true :=
    represents.found_iff.mpr (by simp [oneRegistered_zero])
  have success : (xrpDeviceUnregisterNamespace oneNamespace zeroNs.id).1 = .success := by
    simp [xrpDeviceUnregisterNamespace, found]
  have cleared : oneRegistered.set (xrpDeviceUnregisterNamespace oneNamespace zeroNs.id).1
      zeroNs.id none = fun _ => none := by
    simp [Registry.set, success, oneRegistered]
  exact ⟨slots, run.tail (cleared ▸ .unregister zeroNs.id)⟩

/-- The handler of a namespace that was unregistered is invoked; that of a registered
namespace is not, if the command has 17 buffers and `malloc` fails. -/
theorem processCommand_stale :
    (TableReach (xrpDeviceUnregisterNamespace oneNamespace zeroNs.id).2 (fun _ => none) ∧
      ((processCommand .little (fun _ _ => .ret .success)
        (xrpDeviceUnregisterNamespace oneNamespace zeroNs.id).2 5).run DspOp.act
          (zeroRequest 0 true)).2.invoked = [some (1, 2)]) ∧
    (TableReach oneNamespace oneRegistered ∧
      ((processCommand .little (fun _ _ => .ret .success) oneNamespace 5).run DspOp.act
        (zeroRequest (17 * 12) false)).2.invoked = []) := by
  constructor
  · refine ⟨unregistered_reach, ?_⟩
    have stale := oneNamespace_reach.represents.unregister_last oneRegistered_zero
      (fun _ _ => le_rfl)
    rcases unregistered_reach.represents.selected_unknown .little (zeroRequest_flagged 0 true) rfl
      with ⟨-, chosen⟩ | ⟨fresh, -⟩
    · have processed := run_processCommand .little (fun _ _ => .ret .success)
        (xrpDeviceUnregisterNamespace oneNamespace zeroNs.id).2 5 (zeroRequest 0 true)
      rw [chosen, stale.2] at processed
      rw [processed.call_invoked, if_pos (.inl (by decide))]
      rfl
    · rw [zeroRequest_nsid] at fresh
      exact absurd stale.1 fresh
  · refine ⟨oneNamespace_reach, ?_⟩
    have chosen := oneNamespace_reach.represents.selected_registered .little
      (zeroRequest_flagged (17 * 12) false) ((zeroRequest_nsid _ _).symm ▸ oneRegistered_zero)
    have processed := run_processCommand .little (fun _ _ => .ret .success) oneNamespace 5
      (zeroRequest (17 * 12) false)
    rw [chosen] at processed
    rw [processed.call_invoked, if_neg (by decide)]
    rfl

end Dispatch

end Xrp.Dsp
