import Xrp.Exchange.Invariant

/-!
# The answer of the DSP

Whatever `process_command` reads, and even if the host changes the comm area
meanwhile, the flags word is written once, by `complete_request`, with a
response in it, and nothing of the comm area is accessed after that.
-/

namespace Xrp.Exchange

open Kernel Dsp

/-- The operation does not write the flags word. -/
def KeepsFlags : DspOp → Prop
  | .comm o => ¬ WritesFlags o
  | _ => True

/-- The rules of a DSP that answers once, and is done with the comm area then. -/
def answerRules : Program.Rules DspOp DspOp.Answer Bool where
  allowed
    | .comm o, answered => answered = false ∧ ∀ v, o = .write DspCmd.flags v → Answered v
    | .enter, answered => answered = false
    | _, _ => True
  effect
    | .comm o, answered, _, answered' => answered' = (answered || decide (WritesFlags o))
    | _, answered, _, answered' => answered' = answered

/-- The dispatch is over and the request is answered. -/
def Responded (d : Dispatch) (answered : Bool) : Prop := answered = true ∧ d ≠ .handshake

/-! ## Before the answer -/

section Parts

variable {order : ByteOrder}

theorem only_commRead (w : ℕ) : (commRead w).Only KeepsFlags := Program.only_perform id

theorem only_load32 (a : U32) : (load32 order a).Only KeepsFlags :=
  ⟨trivial, fun _ => ⟨trivial, fun _ => ⟨trivial, fun _ => ⟨trivial, fun _ => trivial⟩⟩⟩⟩

theorem only_store32 (a v : U32) : (store32 order a v).Only KeepsFlags :=
  ⟨trivial, fun _ => ⟨trivial, fun _ => ⟨trivial, fun _ => ⟨trivial, fun _ => trivial⟩⟩⟩⟩

theorem only_compareCommNsid (slot : XrpCmdNs) :
    (compareCommNsid order slot).Only KeepsFlags := by
  have nsid : (readNsid order).Only KeepsFlags :=
    (only_commRead _).bind fun _ => (only_commRead _).bind fun _ =>
      (only_commRead _).bind fun _ => (only_commRead _).bind fun _ => trivial
  exact nsid.bind fun _ => trivial

theorem only_findCmdNs (device : XrpDevice) :
    (findCmdNs (compareCommNsid order) device).Only KeepsFlags := by
  have test : ∀ c, (do return (← compareCommNsid order (device.cmdNs c)) == .lt :
      DspProgram Bool).Only KeepsFlags :=
    fun c => (only_compareCommNsid (device.cmdNs c)).bind fun _ => trivial
  refine (Program.only_bisect 0 device.nCmdNs test).bind ?_
  intro (a, b)
  dsimp only
  split_ifs
  · refine (only_compareCommNsid (device.cmdNs a)).bind fun r => ?_
    split_ifs <;> exact trivial
  · exact trivial

theorem only_cmdNsMatch (device : XrpDevice) (p : ℕ) :
    (cmdNsMatch (compareCommNsid order) device p).Only KeepsFlags := by
  rw [cmdNsMatch]
  split_ifs
  · exact trivial
  · exact (only_compareCommNsid (device.cmdNs p)).bind fun _ => trivial

theorem only_selectHandler (device : XrpDevice) :
    (selectHandler order device).Only KeepsFlags := by
  refine (only_commRead _).bind fun flags => ?_
  split_ifs
  · refine (only_findCmdNs device).bind fun p => ?_
    refine (only_cmdNsMatch device p).bind fun found => ?_
    split_ifs <;> exact trivial
  · exact trivial

theorem only_bufferTable (n : ℕ) : (bufferTable n).Only KeepsFlags := by
  rw [bufferTable]
  split_ifs
  · rw [map_eq_pure_bind]
    exact (only_commRead _).bind fun _ => trivial
  · exact trivial

theorem only_allocateBuffers (n : ℕ) : (allocateBuffers n).Only KeepsFlags := by
  rw [allocateBuffers]
  split_ifs
  · exact Program.only_perform trivial
  · exact trivial

theorem only_readDescriptor (dspBuffer : DspBufferPtr) (i k : ℕ) :
    (readDescriptor order dspBuffer i k).Only KeepsFlags := by
  cases dspBuffer with
  | none => exact only_commRead _
  | some base => exact only_load32 _

theorem only_readBuffers (dspBuffer : DspBufferPtr) (n : ℕ) :
    (readBuffers order dspBuffer n).Only KeepsFlags := by
  induction n with
  | zero => exact trivial
  | succ i ih =>
    exact ih.bind fun _ => (only_readDescriptor dspBuffer i 0).bind fun _ =>
      (only_readDescriptor dspBuffer i 2).bind fun _ =>
      (only_readDescriptor dspBuffer i 1).bind fun _ => trivial

theorem only_readDataArg (sizeWord dataWord : ℕ) :
    (readDataArg sizeWord dataWord).Only KeepsFlags := by
  refine (only_commRead _).bind fun size => ?_
  split_ifs
  · exact (only_commRead _).bind fun _ => trivial
  · exact trivial

theorem only_readCacheRange (sizeWord dataWord : ℕ) :
    (readCacheRange sizeWord dataWord).Only KeepsFlags := by
  refine (only_commRead _).bind fun size => ?_
  split_ifs
  · exact (only_commRead _).bind fun _ => (only_commRead _).bind fun _ => trivial
  · exact trivial

theorem only_runHandler {nIn nOut n : ℕ} (handler : Handler nIn nOut n)
    (group : Fin n → XrpBuffer) : (runHandler handler group).Only KeepsFlags := by
  induction handler generalizing group with
  | ret status => exact trivial
  | ask o next ih =>
    cases o with
    | readIn i => exact ⟨id, fun r => ih r group⟩
    | readOut i => exact ⟨id, fun r => ih r group⟩
    | writeOut i v =>
      have other : DspCmd.outData + (i : ℕ) ≠ DspCmd.flags := by simp
      exact ⟨other, fun _ => ih () group⟩
    | load a => exact ⟨trivial, fun r => ih r group⟩
    | store a v => exact ⟨trivial, fun _ => ih () group⟩
    | api c => exact ih _ _

theorem only_writeAccessFlags (dspBuffer : DspBufferPtr) (buffers : ℕ → XrpBuffer) (n : ℕ) :
    (writeAccessFlags order dspBuffer buffers n).Only KeepsFlags := by
  induction n with
  | zero => exact trivial
  | succ i ih =>
    refine ih.bind fun _ => ?_
    cases dspBuffer with
    | none =>
      have other : DspCmd.bufferData + 3 * i ≠ DspCmd.flags := by simp
      exact Program.only_perform other
    | some base => exact only_store32 _ _

end Parts

/-! ## The answer -/

section Whole

variable {α : Type} {post : α → Bool → Prop}

/-- A part of `process_command` before its answer. -/
theorem wp_keepsFlags_bind {β : Type} {p : DspProgram β} {f : β → DspProgram α}
    (only : p.Only KeepsFlags) (rest : ∀ b, (f b).wp answerRules post false) :
    (p >>= f).wp answerRules post false := by
  have kept : p.wp answerRules (fun _ answered => answered = false) false := by
    refine only.wp ?_ ?_
    · intro o keeps
      cases o with
      | comm o =>
        refine ⟨rfl, fun v write => ?_⟩
        subst write
        exact absurd rfl keeps
      | enter => exact rfl
      | _ => exact trivial
    · intro o keeps r answered effect
      cases o with
      | comm o => simpa [answerRules, show ¬ WritesFlags o from keeps] using effect
      | _ => exact effect
  refine kept.bind fun b answered same => ?_
  rw [same]
  exact rest b

theorem wp_completeRequest {flags : U32} (requesting : Requesting flags) (status : XrpStatus) :
    (completeRequest flags >>= fun _ => pure status).wp answerRules
      (fun _ answered => answered = true) false := by
  refine ⟨⟨rfl, ?_⟩, ?_⟩
  · intro v write
    cases write
    exact requesting.answered
  · intro r answered effect
    have done : answered = true := by simpa [answerRules, WritesFlags] using effect
    exact done

variable {order : ByteOrder} {flags : U32}

theorem wp_callHandler_answers (handlers : Handlers) (handler : Option (ℕ × ℕ))
    (dspBuffer : DspBufferPtr) (n : ℕ) (buffers : ℕ → XrpBuffer) (requesting : Requesting flags) :
    (callHandler order handlers flags handler dspBuffer n buffers).wp answerRules
      (fun _ answered => answered = true) false := by
  refine wp_keepsFlags_bind (only_readDataArg _ _) fun inDataAddr => ?_
  refine wp_keepsFlags_bind (only_commRead _) fun inDataSize => ?_
  refine wp_keepsFlags_bind (only_readDataArg _ _) fun outDataAddr => ?_
  refine wp_keepsFlags_bind (only_commRead _) fun outDataSize => ?_
  refine wp_keepsFlags_bind (Program.only_perform trivial) fun _ => ?_
  refine wp_keepsFlags_bind (only_runHandler _ _) fun result => ?_
  refine wp_keepsFlags_bind (only_writeAccessFlags _ _ _) fun _ => ?_
  refine wp_keepsFlags_bind (only_readCacheRange _ _) fun _ => ?_
  refine wp_completeRequest ?_ result.1
  rw [statusFlags]
  split_ifs
  · exact requesting.deliveryFail
  · exact requesting

/-- `process_command` answers the request it was called for, whatever it reads. -/
theorem wp_processCommand_answers (order : ByteOrder) (handlers : Handlers) (device : XrpDevice)
    (requesting : Requesting flags) :
    (Dispatch.status <$> processCommand order handlers device flags).wp answerRules
      Responded false := by
  have answers : (processCommand order handlers device flags).wp answerRules
      (fun _ answered => answered = true) false := by
    refine wp_keepsFlags_bind (Program.only_perform trivial) fun _ => ?_
    refine wp_keepsFlags_bind (only_commRead _) fun bufferSize => ?_
    refine wp_keepsFlags_bind (only_selectHandler device) fun delivery => ?_
    cases delivery with
    | fail => exact wp_completeRequest requesting.deliveryFail .failure
    | call handler =>
      refine wp_keepsFlags_bind (only_bufferTable _) fun dspBuffer => ?_
      refine wp_keepsFlags_bind (only_readCacheRange _ _) fun _ => ?_
      refine wp_keepsFlags_bind (only_allocateBuffers _) fun room => ?_
      cases room with
      | false => exact wp_completeRequest requesting .failure
      | true =>
        refine wp_keepsFlags_bind (only_readBuffers _ _) fun buffers => ?_
        exact wp_callHandler_answers handlers handler dspBuffer _ buffers requesting
  rw [map_eq_pure_bind]
  exact answers.bind fun status answered done => ⟨done, by simp⟩

/-- After the answer the DSP leaves the comm area alone. -/
theorem silent_of_answered {p : DspProgram Dispatch} (holds : p.wp answerRules Responded true) :
    Silent p := by
  induction p with
  | ret d => exact holds.2
  | ask o next ih =>
    obtain ⟨allowed, rest⟩ := holds
    cases o with
    | comm o => exact absurd allowed.1 (by simp)
    | enter => exact absurd allowed (by simp [answerRules])
    | _ => exact ⟨trivial, fun r _ _ => ih r (rest r _ rfl)⟩

end Whole

end Xrp.Exchange
