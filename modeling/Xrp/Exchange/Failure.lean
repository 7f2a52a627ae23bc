import Xrp.Dsp.Machine
import Xrp.Kernel.HwRequest

/-!
# Agreement on failure

The status of `process_command` reaches the host only through the delivery-failure
bit of the flags word, which each exit has to set. The exit taken when there is
no memory for the buffers does not.
-/

namespace Xrp.Exchange

open Kernel Dsp

/-- The status that `xrp_queue_process` of the simulation library gives the event. -/
def eventStatus (comm : Comm) : XrpStatus :=
  if comm DspCmd.flags &&& responseDeliveryFail ≠ 0 then .failure else .success

/-- What `xrp_complete_hw_request` returns. -/
def completionResult (order : ByteOrder) (rq : XrpRequest) (comm : Comm) : Except Errno Unit :=
  ((xrpCompleteHwRequest order rq).run CommOp.act comm).1.ret

/-- The command names a namespace that the lookup does not find. -/
def Undeliverable (order : ByteOrder) (device : XrpDevice) (comm : Comm) : Prop :=
  comm DspCmd.flags &&& requestNsid ≠ 0 ∧
    (device.sizeCmdNs = 0 ∨
      (device.cmdNs (slotOf device (nsidOf order comm))).id ≠ nsidOf order comm)

/-- Both hosts take the command as failed if and only if the DSP does. -/
def Agree (order : ByteOrder) (rq : XrpRequest) (status : XrpStatus) (comm : Comm) : Prop :=
  (completionResult order rq comm = .error .enxio ↔ status ≠ .success) ∧
    (eventStatus comm = .failure ↔ status ≠ .success)

section Failure

variable {order : ByteOrder} {rq : XrpRequest} {comm : Comm} {device : XrpDevice} {flags : U32}
  {s s' : Machine} {delivery : Delivery} {status : XrpStatus}

theorem completionResult_error_iff :
    completionResult order rq comm = .error .enxio ↔
      comm DspCmd.flags &&& responseDeliveryFail ≠ 0 := by
  have flags : (xrpCommRead32 DspCmd.flags).run CommOp.act comm = (comm DspCmd.flags, comm) := rfl
  simp only [completionResult, xrpCompleteHwRequest, Program.run_bind, flags]
  split_ifs with fail
  · exact iff_of_true rfl fail
  · exact iff_of_false (by simp) fail

theorem eventStatus_failure_iff :
    eventStatus comm = .failure ↔ comm DspCmd.flags &&& responseDeliveryFail ≠ 0 := by
  unfold eventStatus
  split_ifs with fail
  · exact iff_of_true rfl fail
  · exact iff_of_false (by simp) fail

/-- Both hosts decide by one bit. -/
theorem agree_iff : Agree order rq status comm ↔
    (comm DspCmd.flags &&& responseDeliveryFail ≠ 0 ↔ status ≠ .success) := by
  rw [Agree, completionResult_error_iff, eventStatus_failure_iff, and_self_iff]

theorem selected_fail_iff :
    selected order device comm = .fail ↔ Undeliverable order device comm := by
  unfold selected Undeliverable
  by_cases flagged : comm DspCmd.flags &&& requestNsid ≠ 0
  · simp only [if_pos flagged, and_iff_right flagged]
    split_ifs with matched
    · exact iff_of_false (by simp) (by simp [matched])
    · exact iff_of_true rfl (by simpa [imp_iff_or_not, or_comm] using matched)
  · rw [if_neg flagged]
    exact iff_of_false (by simp) fun h => flagged h.1

/-- Every exit but the one without memory sets the bit as it should. -/
theorem Processed.bit_iff (processed : Processed flags s delivery status s')
    (clear : flags &&& responseDeliveryFail = 0) :
    (s'.comm DspCmd.flags &&& responseDeliveryFail ≠ 0 ↔ status ≠ .success) ↔
      s.HasRoom (bufferCount s.comm) ∨ delivery = .fail := by
  have behind : ∀ f : U32, (f ||| responseValid) &&& responseDeliveryFail =
      f &&& responseDeliveryFail := fun _ => BitVec.or_and_other (by decide)
  have bit : responseDeliveryFail ≠ 0 := by decide
  cases processed with
  | fail =>
    simp only [Function.update_self, behind, BitVec.or_and_flag]
    exact iff_of_true (iff_of_true bit (by simp)) (by simp)
  | noRoom handler full =>
    simp only [Function.update_self, behind, clear]
    exact iff_of_false (by simp) (by simp [full])
  | handled handler status comm memory room =>
    simp only [Function.update_self, behind, statusFlags]
    split_ifs with failed
    · rw [BitVec.or_and_flag]
      exact iff_of_true (iff_of_true bit failed) (.inl room)
    · exact iff_of_true (iff_of_false (by simp [clear]) failed) (.inl room)

/-- **Host and DSP agree on failure** if and only if there is memory for the buffers, or the
command is not delivered. -/
theorem processCommand_agree_iff (order : ByteOrder) (handlers : Handlers) (device : XrpDevice)
    (rq : XrpRequest) (s : Machine) (clear : flags &&& responseDeliveryFail = 0) :
    Agree order rq ((processCommand order handlers device flags).run DspOp.act s).1
        ((processCommand order handlers device flags).run DspOp.act s).2.comm ↔
      s.HasRoom (bufferCount s.comm) ∨ Undeliverable order device s.comm := by
  rw [agree_iff, ← selected_fail_iff]
  exact Processed.bit_iff (run_processCommand order handlers device flags s) clear

/-- A command without namespace, with the given size of its buffer table. -/
def plainCommand (bufferSize : U32) : Machine :=
  ⟨fun w => if w = DspCmd.flags then requestValid
    else if w = DspCmd.bufferSize then bufferSize else 0, fun _ => 0, false, []⟩

/-- A device without namespaces. -/
def bareDevice : XrpDevice := ⟨0, 0, fun _ => ⟨fun _ => 0, 0, 0⟩⟩

/-- A request without namespace, with the given size of its buffer list. -/
def plainRequest (bufferSize : U32) : XrpRequest :=
  ⟨⟨0, 0, 0, bufferSize, valid_noFlags⟩, 0, 0, 0, fun _ => 0, ⟨0, 0, 0⟩, fun _ => 0⟩

/-- A handler that fails. -/
theorem processCommand_agree_failed :
    Agree .little (plainRequest 0)
      ((processCommand .little (fun _ _ => .ret .failure) bareDevice requestValid).run DspOp.act
        (plainCommand 0)).1
      ((processCommand .little (fun _ _ => .ret .failure) bareDevice requestValid).run DspOp.act
        (plainCommand 0)).2.comm :=
  (processCommand_agree_iff .little (fun _ _ => .ret .failure) bareDevice (plainRequest 0)
    (plainCommand 0) (by decide)).mpr (.inl (.inl (by decide)))

/-- With 17 buffers and no memory the command fails on the DSP; both hosts report success. -/
theorem processCommand_disagree :
    ((processCommand .little (fun _ _ => .ret .success) bareDevice requestValid).run DspOp.act
      (plainCommand (17 * 12))).1 = .failure ∧
    completionResult .little (plainRequest (17 * 16))
      ((processCommand .little (fun _ _ => .ret .success) bareDevice requestValid).run DspOp.act
        (plainCommand (17 * 12))).2.comm = .ok () ∧
    eventStatus
      ((processCommand .little (fun _ _ => .ret .success) bareDevice requestValid).run DspOp.act
        (plainCommand (17 * 12))).2.comm = .success := by
  refine ⟨rfl, rfl, rfl⟩

end Failure

end Xrp.Exchange
