import Xrp.Exchange.ExactlyOnce
import Xrp.Exchange.HostInterrupt

/-!
# When the host sleeps on an answer

The DSP writes the flags word before it raises the host interrupt, and the handler
reads the flags word after it was entered. So an answer that the client has not
seen is covered: the interrupt is still due, or pending, or the handler will call
`complete`. Only `ack_irq` can take this away again. In level mode it clears the
register after `complete`, and on another processor the client may by then have
taken that completion, submitted the next request and had it answered.
-/

namespace Xrp.Exchange.HostInterrupt

open Kernel Dsp
open Interrupt (XrpIrqMode)

section Stages

variable (line : Line) (dspOrder : ByteOrder) (handlers : Handlers) (s : State)

/-- The client waits for the answer to its request, or is about to. -/
def Armed : Prop := s.host = .filling (.ret ()) ∨ s.host = .waiting

/-- The DSP will still set the bit of the register. -/
def Due : Prop := ∃ v left rest, s.dsp = .sending (v :: left) rest

/-- The handler will see an answer that is there now, or has seen it, and will call
`complete`. -/
def Handling : Prop := s.handler = some .entered ∨ s.handler = some .completing

/-- An answer wakes the client. -/
def Covered : Prop :=
  Armed s → Answered (s.comm DspCmd.flags) → s.completion = 0 →
    Due s ∨ s.Pending line ∨ Handling s

/-- While the client fills the comm area, the flags word of its request is left as the last
write. -/
def Fills : Prop :=
  ∀ o next, s.host = .filling (.ask o next) → ∃ left flags,
    Program.ask o next = writeAll (left ++ [(DspCmd.flags, flags)]) ∧
      (∀ p ∈ left, p.1 ≠ DspCmd.flags) ∧ Requesting flags ∧ flags ≠ syncStart

/-- What is left of `xrp_device_dispatch` before an answer, or without one. -/
inductive Dispatches (p : DspProgram Dispatch) : Prop
  | called (device : XrpDevice) : p = xrpDeviceDispatch dspOrder handlers device → Dispatches p
  | processing : p.wp answerRules Responded false → Dispatches p
  | silent : Silent p → Dispatches p

/-- What is left of `xrp_hw_send_host_irq`. -/
inductive Sends : List U32 → Prop
  | clearing : Sends [0, line.mask]
  | setting : (line.mode = .edge → s.register.getLsbD line.bit = false) → Sends [line.mask]
  | set : Sends []

/-- Where the DSP is. -/
inductive DspStage : Prop
  | outside : s.dsp = .outside → s.signalled = s.answered → DspStage
  | dispatching {p : DspProgram Dispatch} : s.dsp = .dispatching p →
    Dispatches dspOrder handlers p → s.signalled = s.answered → DspStage
  | sending {left : List U32} {p : DspProgram Dispatch} : s.dsp = .sending left p →
    p.wp answerRules Responded true → Sends line s left → s.signalled < s.answered → DspStage

/-- What holds while the handler acknowledges the interrupt. -/
def Acknowledges : Prop :=
  ∀ left, s.handler = some (.acknowledging left) →
    (line.mode = .edge → left = []) ∧ (line.smp = false → 0 < s.completion)

/-- What holds in all runs. -/
structure Inv : Prop where
  fills : Fills s
  dsp : DspStage line dspOrder handlers s
  flags : s.comm DspCmd.flags ≠ syncStart
  acknowledges : Acknowledges line s
  covered : Covered line s

end Stages

variable {line : Line} {order dspOrder : ByteOrder} {translate : ULong → U32}
  {handlers : Handlers} {s s' : State}

theorem not_answered_of_incomplete (incomplete : xrpCmdComplete (s.comm DspCmd.flags) = false) :
    ¬ Answered (s.comm DspCmd.flags) := of_decide_eq_false incomplete

/-! ## Steps of the client -/

section Host

/-- The next write of the client: the flags word as its last write, or some other word. -/
theorem Fills.cases {o : CommOp} {next : o.Answer → CommProgram Unit} (fills : Fills s)
    (here : s.host = .filling (.ask o next)) :
    (∃ flags, Requesting flags ∧ flags ≠ syncStart ∧
      Program.ask o next = .ask (.write DspCmd.flags flags) fun _ => .ret ()) ∨
    ∃ (p : ℕ × U32) (left : List (ℕ × U32)) (flags : U32), p.1 ≠ DspCmd.flags ∧
      (∀ q ∈ left, q.1 ≠ DspCmd.flags) ∧ Requesting flags ∧ flags ≠ syncStart ∧
      Program.ask o next =
        .ask (.write p.1 p.2) fun _ => writeAll (left ++ [(DspCmd.flags, flags)]) := by
  obtain ⟨left, flags, writes, keys, requesting, ne⟩ := fills o next here
  cases left with
  | nil => exact .inl ⟨flags, requesting, ne, writes⟩
  | cons p left =>
    exact .inr ⟨p, left, flags, keys p List.mem_cons_self,
      fun q member => keys q (List.mem_cons_of_mem _ member), requesting, ne, writes⟩

theorem fills_of_writeAll {left : List (ℕ × U32)} {flags : U32}
    (here : s.host = .filling (writeAll (left ++ [(DspCmd.flags, flags)])))
    (keys : ∀ p ∈ left, p.1 ≠ DspCmd.flags) (requesting : Requesting flags)
    (ne : flags ≠ syncStart) : Fills s := by
  intro o next at_host
  rw [here] at at_host
  exact ⟨left, flags, (HostPc.filling.inj at_host).symm, keys, requesting, ne⟩

/-- `xrp_fill_hw_request` ends with the flags word. -/
theorem fills_xrpFillHwRequest (rq : XrpRequest)
    (here : s.host = .filling (xrpFillHwRequest order translate rq)) : Fills s := by
  rw [xrpFillHwRequest_eq] at here
  refine fills_of_writeAll here ?_ requesting_flagsWord (flagsWord_ne_syncStart rq)
  intro p member
  have := keysBetween_payload.range member
  grind

theorem HostStep.fills (step : HostStep order translate s s') (fills : Fills s) : Fills s' := by
  cases step with
  | start rq idle => exact fills_xrpFillHwRequest rq rfl
  | fill here =>
    obtain ⟨flags, -, -, last⟩ | ⟨p, left, flags, -, keys, requesting, ne, first⟩ :=
      fills.cases here
    · cases last
      exact fun o next at_host => by simp at at_host
    · cases first
      exact fills_of_writeAll rfl keys requesting ne
  | _ => exact fun o next at_host => by simp at at_host

/-- The client is armed with a request that is not answered, and disarmed before it looks at
the flags word. -/
theorem HostStep.covered (step : HostStep order translate s s') (fills : Fills s)
    (covered : Covered line s) : Covered line s' := by
  cases step with
  | start rq idle =>
    intro armed
    have writing := writeAll_append_ne_ret (rq.payload order translate)
      (DspCmd.flags, rq.flagsWord)
    simp [Armed, xrpFillHwRequest_eq, writing] at armed
  | fill here =>
    obtain ⟨flags, requesting, -, last⟩ | ⟨p, left, flags, -, -, -, -, first⟩ := fills.cases here
    · cases last
      intro _ answered
      simp only [CommOp.act_write, Function.update_self] at answered
      exact absurd answered requesting.not_answered
    · cases first
      intro armed
      have writing := writeAll_append_ne_ret left (DspCmd.flags, flags)
      simp [Armed, writing] at armed
  | filled here => exact fun _ => covered (.inl here)
  | again _ incomplete =>
    exact fun _ answered => absurd answered (not_answered_of_incomplete incomplete)
  | _ => exact fun armed => by simp [Armed] at armed

theorem HostStep.flags_ne (step : HostStep order translate s s') (fills : Fills s)
    (ne : s.comm DspCmd.flags ≠ syncStart) : s'.comm DspCmd.flags ≠ syncStart := by
  cases step with
  | fill here =>
    obtain ⟨flags, -, start, last⟩ | ⟨p, left, flags, other, -, -, -, first⟩ := fills.cases here
    · cases last
      simpa only [CommOp.act_write, Function.update_self] using start
    · cases first
      simpa only [CommOp.act_write, Function.update_of_ne other.symm] using ne
  | _ => exact ne

/-- The client leaves the DSP, the register and the handler alone. -/
theorem HostStep.frame (step : HostStep order translate s s') :
    s'.dsp = s.dsp ∧ s'.register = s.register ∧ s'.handler = s.handler ∧
      s'.signalled = s.signalled ∧ s'.answered = s.answered := by
  cases step <;> exact ⟨rfl, rfl, rfl, rfl, rfl⟩

theorem Sends.congr {left : List U32} (sends : Sends line s left)
    (register : line.mode = .edge → s'.register = s.register) : Sends line s' left := by
  cases sends with
  | clearing => exact .clearing
  | setting clear =>
    refine .setting fun edge => ?_
    rw [register edge]
    exact clear edge
  | set => exact .set

theorem DspStage.congr (stage : DspStage line dspOrder handlers s) (dsp : s'.dsp = s.dsp)
    (register : line.mode = .edge → s'.register = s.register)
    (signalled : s'.signalled = s.signalled) (answered : s'.answered = s.answered) :
    DspStage line dspOrder handlers s' := by
  cases stage with
  | outside at_dsp counted =>
    exact .outside (dsp.trans at_dsp) (signalled.trans (counted.trans answered.symm))
  | dispatching at_dsp dispatches counted =>
    exact .dispatching (dsp.trans at_dsp) dispatches
      (signalled.trans (counted.trans answered.symm))
  | sending at_dsp rest sends lt =>
    refine .sending (dsp.trans at_dsp) rest (sends.congr register) ?_
    rw [signalled, answered]
    exact lt

theorem HostStep.inv (step : HostStep order translate s s')
    (alone : line.smp = false → s.handler = none) (inv : Inv line dspOrder handlers s) :
    Inv line dspOrder handlers s' := by
  obtain ⟨dsp, register, handler, signalled, answered⟩ := step.frame
  refine ⟨step.fills inv.fills, inv.dsp.congr dsp (fun _ => register) signalled answered,
    step.flags_ne inv.fills inv.flags, ?_, step.covered inv.fills inv.covered⟩
  intro left running
  rw [handler] at running
  refine ⟨(inv.acknowledges left running).1, fun single => ?_⟩
  -- on one processor the client does not run now
  rw [alone single] at running
  cases running

end Host

/-! ## Steps of the handler -/

section Handler

theorem Covered.congr (covered : Covered line s) (host : s'.host = s.host)
    (comm : s'.comm = s.comm) (completion : s'.completion = s.completion)
    (woken : Due s ∨ s.Pending line ∨ Handling s → Due s' ∨ s'.Pending line ∨ Handling s') :
    Covered line s' := by
  intro armed answered none
  rw [Armed, host] at armed
  rw [comm] at answered
  rw [completion] at none
  exact woken (covered armed answered none)

/-- On one processor, and in edge mode, nothing is lost when the interrupt is acknowledged. -/
theorem HandlerStep.inv (step : HandlerStep line s s')
    (safe : line.mode = .edge ∨ line.smp = false) (inv : Inv line dspOrder handlers s) :
    Inv line dspOrder handlers s' := by
  obtain ⟨fills, dsp, flags, acknowledges, covered⟩ := inv
  cases step with
  | enter idle =>
    refine ⟨fills, dsp.congr rfl (fun _ => rfl) rfl rfl, flags, ?_, ?_⟩
    · exact fun left running => by simp at running
    · exact covered.congr rfl rfl rfl fun _ => .inr (.inr (.inl rfl))
  | ignored running incomplete =>
    refine ⟨fills, dsp.congr rfl (fun _ => rfl) rfl rfl, flags, ?_, ?_⟩
    · exact fun left running => by simp at running
    · exact fun _ answered => absurd answered (not_answered_of_incomplete incomplete)
  | taken running complete =>
    refine ⟨fills, dsp.congr rfl (fun _ => rfl) rfl rfl, flags, ?_, ?_⟩
    · exact fun left running => by simp at running
    · exact covered.congr rfl rfl rfl fun _ => .inr (.inr (.inr rfl))
  | complete running =>
    refine ⟨fills, dsp.congr rfl (fun _ => rfl) rfl rfl, flags, ?_, ?_⟩
    · intro left running
      cases running
      refine ⟨fun edge => ?_, fun _ => Nat.succ_pos _⟩
      simp [Line.ackIrq, edge]
    · exact fun _ _ none => absurd none (Nat.succ_ne_zero _)
  | @acknowledge v left running =>
    obtain ⟨empty, positive⟩ := acknowledges _ running
    have level : line.mode ≠ .edge := fun edge => List.cons_ne_nil _ _ (empty edge)
    have single := safe.resolve_left level
    refine ⟨fills, dsp.congr rfl (fun edge => absurd edge level) rfl rfl, flags, ?_, ?_⟩
    · exact fun _ _ => ⟨fun edge => absurd edge level, fun _ => positive single⟩
    · exact fun _ _ none => absurd none (positive single).ne'
  | handled running =>
    refine ⟨fills, dsp.congr rfl (fun _ => rfl) rfl rfl, flags, ?_, ?_⟩
    · exact fun left running => by simp at running
    · refine covered.congr rfl rfl rfl fun woken => ?_
      refine woken.imp_right (Or.imp_right fun handling => ?_)
      simp [Handling, running] at handling

end Handler

/-! ## Steps of the DSP -/

section Device

theorem DspStage.of_dispatching {p : DspProgram Dispatch}
    (stage : DspStage line dspOrder handlers s) (here : s.dsp = .dispatching p) :
    Dispatches dspOrder handlers p ∧ s.signalled = s.answered := by
  cases stage with
  | dispatching at_dsp dispatches counted =>
    rw [here] at at_dsp
    cases at_dsp
    exact ⟨dispatches, counted⟩
  | outside at_dsp => simp [here] at at_dsp
  | sending at_dsp => simp [here] at at_dsp

theorem DspStage.of_sending {left : List U32} {p : DspProgram Dispatch}
    (stage : DspStage line dspOrder handlers s) (here : s.dsp = .sending left p) :
    p.wp answerRules Responded true ∧ Sends line s left ∧ s.signalled < s.answered := by
  cases stage with
  | sending at_dsp rest sends lt =>
    rw [here] at at_dsp
    cases at_dsp
    exact ⟨rest, sends, lt⟩
  | outside at_dsp => simp [here] at at_dsp
  | dispatching at_dsp => simp [here] at at_dsp

/-- `xrp_hw_send_host_irq` begins. -/
theorem sends_xrpHwSendHostIrq (line : Line) (s : State) :
    Sends line s line.xrpHwSendHostIrq ∧ ∃ v left, line.xrpHwSendHostIrq = v :: left := by
  unfold Line.xrpHwSendHostIrq
  cases mode : line.mode with
  | none => exact absurd mode line.signals
  | level => exact ⟨.setting fun edge => by simp [mode] at edge, _, _, rfl⟩
  | edge => exact ⟨.clearing, _, _, rfl⟩

theorem getLsbD_mask : line.mask.getLsbD line.bit = true := by simp [Line.mask]

/-- The write of the bit makes the interrupt pending. -/
theorem pending_writeRegister_mask
    (clear : line.mode = .edge → s.register.getLsbD line.bit = false) :
    (s.writeRegister line line.mask).Pending line := by
  unfold State.Pending
  cases mode : line.mode with
  | none => exact absurd mode line.signals
  | level => exact getLsbD_mask
  | edge =>
    simp only [State.writeRegister, clear mode, getLsbD_mask]
    simp

/-- What `xrp_device_dispatch` does when it has read the flags word. -/
theorem dispatches_of_read (device : XrpDevice) {flags : U32} (ne : flags ≠ syncStart) :
    Dispatches dspOrder handlers
      (if !xrpRequestValid flags then .ret (.status .pending)
      else if flags = syncStart then .ret .handshake
      else .status <$> processCommand dspOrder handlers device flags) := by
  by_cases requesting : Requesting flags
  · have valid : xrpRequestValid flags = true := decide_eq_true requesting
    simp only [valid, Bool.not_true, Bool.false_eq_true, if_false, if_neg ne]
    exact .processing (wp_processCommand_answers dspOrder handlers device requesting)
  · have invalid : xrpRequestValid flags = false := decide_eq_false requesting
    simp only [invalid, Bool.not_false, if_true]
    exact .silent fun handshake => Dispatch.noConfusion handshake

/-- An access to the comm area: the answer, or one that leaves the flags word. -/
theorem Dispatches.access {o : CommOp} {next : o.Answer → DspProgram Dispatch}
    (dispatches : Dispatches dspOrder handlers (.ask (.comm o) next)) {m : Comm}
    (ne : m DspCmd.flags ≠ syncStart) :
    (∃ v, o = .write DspCmd.flags v ∧ Answered v ∧
      (next (o.act m).1).wp answerRules Responded true) ∨
    ¬ WritesFlags o ∧ (o.act m).2 DspCmd.flags = m DspCmd.flags ∧
      Dispatches dspOrder handlers (next (o.act m).1) := by
  cases dispatches with
  | called device eq =>
    rw [xrpDeviceDispatch_eq] at eq
    cases eq
    exact .inr ⟨id, rfl, dispatches_of_read device ne⟩
  | processing holds =>
    obtain ⟨⟨-, answers⟩, rest⟩ := holds
    cases o with
    | read w => exact .inr ⟨id, rfl, .processing (rest _ _ rfl)⟩
    | write w v =>
      by_cases completes : w = DspCmd.flags
      · subst completes
        exact .inl ⟨v, rfl, answers v rfl, rest () _ rfl⟩
      · have still := rest () _ rfl
        simp only [WritesFlags, completes, decide_false, Bool.or_false] at still
        exact .inr ⟨completes, Function.update_of_ne (Ne.symm completes) _ _, .processing still⟩
  | silent silent => exact absurd silent.1 id

theorem Dispatches.other {o : DspOp} {next : o.Answer → DspProgram Dispatch}
    (dispatches : Dispatches dspOrder handlers (.ask o next)) (apart : ∀ c, o ≠ .comm c)
    (r : o.Answer) : Dispatches dspOrder handlers (next r) := by
  cases dispatches with
  | called device eq =>
    rw [xrpDeviceDispatch_eq] at eq
    cases eq
    exact absurd rfl (apart _)
  | processing holds =>
    refine .processing (holds.2 r false ?_)
    cases o with
    | comm c => exact absurd rfl (apart c)
    | _ => exact rfl
  | silent silent => exact .silent (silent.2 r () trivial)

theorem Dispatches.of_ret {d : Dispatch} (dispatches : Dispatches dspOrder handlers (.ret d)) :
    d ≠ .handshake := by
  cases dispatches with
  | called device eq => simp [xrpDeviceDispatch_eq] at eq
  | processing holds => exact absurd holds.1 (by simp)
  | silent silent => exact silent

/-- Where the DSP was not about to set the bit, an answer stays covered. -/
theorem Covered.of_dsp (covered : Covered line s) (settled : ¬ Due s) (host : s'.host = s.host)
    (flags : s'.comm DspCmd.flags = s.comm DspCmd.flags) (completion : s'.completion = s.completion)
    (handler : s'.handler = s.handler) (pending : s.Pending line → s'.Pending line) :
    Covered line s' := by
  intro armed answered none
  rw [Armed, host] at armed
  rw [flags] at answered
  rw [completion] at none
  rw [Handling, handler]
  exact .inr (((covered armed answered none).resolve_left settled).imp_left pending)

theorem DspStep.inv (step : DspStep line dspOrder handlers s s')
    (inv : Inv line dspOrder handlers s) : Inv line dspOrder handlers s' := by
  obtain ⟨fills, dsp, flags, acknowledges, covered⟩ := inv
  cases step with
  | call device here =>
    have counted : s.signalled = s.answered := by
      cases dsp with
      | outside at_dsp counted => exact counted
      | dispatching at_dsp => simp [here] at at_dsp
      | sending at_dsp => simp [here] at at_dsp
    refine ⟨fills, .dispatching rfl (.called device rfl) counted, flags, acknowledges, ?_⟩
    exact covered.of_dsp (by simp [Due, here]) rfl rfl rfl rfl id
  | @access o next here =>
    obtain ⟨dispatches, counted⟩ := dsp.of_dispatching here
    obtain ⟨v, rfl, answered, rest⟩ | ⟨other, kept, still⟩ := dispatches.access flags
    · rw [State.dspAccess_flags]
      obtain ⟨sends, w, left, first⟩ := sends_xrpHwSendHostIrq line s
      refine ⟨fills, .sending rfl rest (sends.congr fun _ => rfl) ?_, ?_, acknowledges, ?_⟩
      · rw [counted]
        exact Nat.lt_succ_self _
      · simp only [Function.update_self]
        intro start
        rw [start] at answered
        exact absurd answered (by decide)
      · exact fun _ _ _ => .inl ⟨w, left, next (), congrArg (DspPc.sending · _) first⟩
    · rw [State.dspAccess_other other]
      refine ⟨fills, .dispatching rfl still counted, kept.trans_ne flags, acknowledges, ?_⟩
      exact covered.of_dsp (by simp [Due, here]) rfl kept rfl rfl id
  | other r here apart =>
    obtain ⟨dispatches, counted⟩ := dsp.of_dispatching here
    refine ⟨fills, .dispatching rfl (dispatches.other apart r) counted, flags, acknowledges, ?_⟩
    exact covered.of_dsp (by simp [Due, here]) rfl rfl rfl rfl id
  | send here =>
    obtain ⟨rest, sends, lt⟩ := dsp.of_sending here
    cases sends with
    | clearing =>
      refine ⟨fills, .sending rfl rest (.setting fun _ => ?_) lt, flags, acknowledges, ?_⟩
      · simp [State.writeRegister]
      · exact fun _ _ _ => .inl ⟨_, _, _, rfl⟩
    | setting clear =>
      refine ⟨fills, .sending rfl rest .set lt, flags, acknowledges, ?_⟩
      exact fun _ _ _ => .inr (.inl (pending_writeRegister_mask clear))
  | sent here =>
    obtain ⟨rest, -, -⟩ := dsp.of_sending here
    refine ⟨fills, .dispatching rfl (.silent (silent_of_answered rest)) rfl, flags,
      acknowledges, ?_⟩
    exact covered.of_dsp (by simp [Due, here]) rfl rfl rfl rfl id
  | leave here =>
    obtain ⟨-, counted⟩ := dsp.of_dispatching here
    refine ⟨fills, .outside rfl counted, flags, acknowledges, ?_⟩
    exact covered.of_dsp (by simp [Due, here]) rfl rfl rfl rfl id
  | handshake here => exact absurd rfl (dsp.of_dispatching here).1.of_ret

end Device

/-! ## Runs -/

theorem Initial.inv (initial : Initial s) : Inv line dspOrder handlers s where
  fills o next here := by simp [initial.host] at here
  dsp := .outside initial.dsp initial.counted
  flags := by
    rw [initial.idle]
    decide
  acknowledges left running := by simp [initial.handler] at running
  covered armed := by simp [Armed, initial.host] at armed

theorem Reach.inv (reach : Reach line order dspOrder translate handlers s)
    (safe : line.mode = .edge ∨ line.smp = false) : Inv line dspOrder handlers s := by
  obtain ⟨s₀, initial, run⟩ := reach
  induction run with
  | refl => exact initial.inv
  | tail _ step ih =>
    cases step with
    | host alone step => exact step.inv alone ih
    | handler step => exact step.inv safe ih
    | dsp step => exact step.inv ih

/-- With an edge interrupt, or on one processor, the host does not sleep on an answer. -/
theorem Inv.not_asleep (inv : Inv line dspOrder handlers s) : ¬ AsleepOnAnswer line s := by
  intro asleep
  obtain due | pending | handling := inv.covered (.inr asleep.waiting) asleep.answered
    asleep.completion
  · obtain ⟨v, left, rest, sending⟩ := due
    obtain ⟨-, -, lt⟩ := inv.dsp.of_sending sending
    exact lt.ne asleep.signalled
  · exact asleep.quiet pending
  · simp [Handling, asleep.handler] at handling

/-! ## An acknowledgement that comes late -/

section Late

/-- The client and the handler are where they were. -/
structure SameHost (s s' : State) : Prop where
  host : s'.host = s.host
  completion : s'.completion = s.completion
  handler : s'.handler = s.handler

theorem SameHost.refl (s : State) : SameHost s s := ⟨rfl, rfl, rfl⟩

theorem SameHost.trans {s'' : State} (first : SameHost s s') (second : SameHost s' s'') :
    SameHost s s'' :=
  ⟨second.host.trans first.host, second.completion.trans first.completion,
    second.handler.trans first.handler⟩

theorem Reach.host (reach : Reach line order dspOrder translate handlers s)
    (smp : line.smp = true) (step : HostStep order translate s s') :
    Reach line order dspOrder translate handlers s' := by
  obtain ⟨s₀, initial, run⟩ := reach
  exact ⟨s₀, initial, run.tail (.host (fun single => by simp [smp] at single) step)⟩

theorem Reach.handler (reach : Reach line order dspOrder translate handlers s)
    (step : HandlerStep line s s') : Reach line order dspOrder translate handlers s' := by
  obtain ⟨s₀, initial, run⟩ := reach
  exact ⟨s₀, initial, run.tail (.handler step)⟩

theorem Reach.dsp (reach : Reach line order dspOrder translate handlers s)
    (step : DspStep line dspOrder handlers s s') :
    Reach line order dspOrder translate handlers s' := by
  obtain ⟨s₀, initial, run⟩ := reach
  exact ⟨s₀, initial, run.tail (.dsp step)⟩

/-- A client that makes its last writes gets to the end of them. -/
theorem Reach.fill (smp : line.smp = true) {left : List (ℕ × U32)} {flags : U32}
    (reach : Reach line order dspOrder translate handlers s)
    (here : s.host = .filling (writeAll (left ++ [(DspCmd.flags, flags)]))) :
    ∃ comm, comm DspCmd.flags = flags ∧
      Reach line order dspOrder translate handlers
        { s with comm := comm, host := .filling (.ret ()) } := by
  induction left generalizing s with
  | nil =>
    refine ⟨Function.update s.comm DspCmd.flags flags, Function.update_self _ _ _, ?_⟩
    exact reach.host smp (.fill here)
  | cons p left ih =>
    obtain ⟨comm, last, filled⟩ := ih (reach.host smp (.fill here)) rfl
    exact ⟨comm, last, filled⟩

/-- A client that is idle submits a request. -/
theorem Reach.submit (smp : line.smp = true)
    (reach : Reach line order dspOrder translate handlers s) (idle : s.host = .idle) :
    ∃ comm, Requesting (comm DspCmd.flags) ∧ comm DspCmd.flags ≠ syncStart ∧
      Reach line order dspOrder translate handlers { s with comm := comm, host := .waiting } := by
  have started := reach.host smp (.start emptyRequest idle)
  rw [xrpFillHwRequest_eq] at started
  obtain ⟨comm, flags, filled⟩ := started.fill smp rfl
  refine ⟨comm, ?_, ?_, filled.host smp (.filled rfl)⟩
  · rw [flags]
    exact requesting_flagsWord
  · rw [flags]
    exact flagsWord_ne_syncStart emptyRequest

/-- Operations of the DSP other than accesses to the comm area get some answer. -/
theorem exists_answer (o : DspOp) : Nonempty o.Answer := by
  cases o with
  | comm o =>
    cases o with
    | read w => exact ⟨(0 : U32)⟩
    | write w v => exact ⟨()⟩
  | load a => exact ⟨(0 : U8)⟩
  | malloc => exact ⟨true⟩
  | store a v => exact ⟨()⟩
  | enter => exact ⟨()⟩
  | invoke handler => exact ⟨()⟩

/-- A command that is being processed is answered. -/
theorem Reach.process {p : DspProgram Dispatch} (holds : p.wp answerRules Responded false)
    (reach : Reach line order dspOrder translate handlers s) (here : s.dsp = .dispatching p) :
    ∃ s' left rest, Reach line order dspOrder translate handlers s' ∧ SameHost s s' ∧
      Answered (s'.comm DspCmd.flags) ∧ s'.dsp = .sending left rest ∧
      rest.wp answerRules Responded true := by
  induction p generalizing s with
  | ret d => exact absurd holds.1 (by simp)
  | ask o next ih =>
    obtain ⟨allowed, rest⟩ := holds
    cases o with
    | comm o =>
      have accessed := reach.dsp (.access here)
      by_cases completes : WritesFlags o
      · cases o with
        | read w => exact absurd completes id
        | write w v =>
          obtain rfl : w = DspCmd.flags := completes
          rw [State.dspAccess_flags] at accessed
          refine ⟨_, _, next (), accessed, ⟨rfl, rfl, rfl⟩, ?_, rfl, rest () _ rfl⟩
          simpa only [Function.update_self] using allowed.2 v rfl
      · rw [State.dspAccess_other completes] at accessed
        have still := rest (o.act s.comm).1 false (by simp [answerRules, completes])
        obtain ⟨s', left, rest', reach', same, ends⟩ := ih _ still accessed rfl
        exact ⟨s', left, rest', reach', ⟨same.host, same.completion, same.handler⟩, ends⟩
    | _ =>
      obtain ⟨r⟩ := exists_answer _
      obtain ⟨s', left, rest', reach', same, ends⟩ :=
        ih r (rest r _ rfl) (reach.dsp (.other r here (by simp))) rfl
      exact ⟨s', left, rest', reach', ⟨same.host, same.completion, same.handler⟩, ends⟩

/-- After its answer the DSP gives notice of it. -/
theorem Reach.send {left : List U32} {rest : DspProgram Dispatch}
    (reach : Reach line order dspOrder translate handlers s) (here : s.dsp = .sending left rest) :
    ∃ s', Reach line order dspOrder translate handlers s' ∧ SameHost s s' ∧ s'.comm = s.comm ∧
      s'.dsp = .dispatching rest ∧ s'.signalled = s'.answered := by
  induction left generalizing s with
  | nil => exact ⟨_, reach.dsp (.sent here), ⟨rfl, rfl, rfl⟩, rfl, rfl, rfl⟩
  | cons v left ih =>
    obtain ⟨s', reach', same, comm, ends⟩ := ih (reach.dsp (.send here)) rfl
    exact ⟨s', reach', ⟨same.host, same.completion, same.handler⟩, comm, ends⟩

/-- After its answer the DSP comes back from `xrp_device_dispatch`. -/
theorem Reach.leave {p : DspProgram Dispatch} (silent : Silent p)
    (reach : Reach line order dspOrder translate handlers s) (here : s.dsp = .dispatching p)
    (counted : s.signalled = s.answered) :
    ∃ s', Reach line order dspOrder translate handlers s' ∧ SameHost s s' ∧ s'.comm = s.comm ∧
      s'.dsp = .outside ∧ s'.signalled = s'.answered := by
  induction p generalizing s with
  | ret d =>
    cases d with
    | status status => exact ⟨_, reach.dsp (.leave here), ⟨rfl, rfl, rfl⟩, rfl, rfl, counted⟩
    | handshake => exact absurd rfl silent
  | ask o next ih =>
    cases o with
    | comm o => exact absurd silent.1 id
    | enter => exact absurd silent.1 id
    | _ =>
      obtain ⟨r⟩ := exists_answer _
      obtain ⟨s', reach', same, comm, ends⟩ :=
        ih r (silent.2 r () trivial) (reach.dsp (.other r here (by simp))) rfl counted
      exact ⟨s', reach', ⟨same.host, same.completion, same.handler⟩, comm, ends⟩

/-- A request that was published is answered, while nothing else happens. -/
theorem Reach.answer (reach : Reach line order dspOrder translate handlers s)
    (outside : s.dsp = .outside) (requesting : Requesting (s.comm DspCmd.flags))
    (ne : s.comm DspCmd.flags ≠ syncStart) :
    ∃ s', Reach line order dspOrder translate handlers s' ∧ SameHost s s' ∧
      Answered (s'.comm DspCmd.flags) ∧ s'.dsp = .outside ∧ s'.signalled = s'.answered := by
  let device : XrpDevice := ⟨0, 0, fun _ => ⟨fun _ => 0, 0, 0⟩⟩
  have called := reach.dsp (.call device outside)
  rw [xrpDeviceDispatch_eq] at called
  have valid : xrpRequestValid (s.comm DspCmd.flags) = true := decide_eq_true requesting
  have read := called.dsp (.access rfl)
  obtain ⟨s₁, left, rest, reach₁, same₁, answered, sending, responded⟩ :=
    read.process (p := .status <$> processCommand dspOrder handlers device (s.comm DspCmd.flags))
      (wp_processCommand_answers dspOrder handlers device requesting)
      (by simp [State.dspAccess, WritesFlags, valid, ne])
  obtain ⟨s₂, reach₂, same₂, comm₂, dispatching, counted⟩ := reach₁.send sending
  obtain ⟨s₃, reach₃, same₃, comm₃, ends⟩ :=
    reach₂.leave (silent_of_answered responded) dispatching counted
  refine ⟨s₃, reach₃, ?_, ?_, ends⟩
  · have whole := same₁.trans (same₂.trans same₃)
    exact ⟨whole.host, whole.completion, whole.handler⟩
  · rw [comm₃, comm₂]
    exact answered

/-- The system after the handshake, with nothing left over. -/
def afterHandshake : State := ⟨fun _ => syncIdle, 0, false, .idle, 0, none, .outside, 0, 0⟩

/-- With a level interrupt, the acknowledgement of one answer can take the notice of the next
one away. -/
theorem exists_asleep (order dspOrder : ByteOrder) (translate : ULong → U32) (handlers : Handlers)
    (level : line.mode = .level) (smp : line.smp = true) :
    ∃ s, Reach line order dspOrder translate handlers s ∧ AsleepOnAnswer line s := by
  have begun : Reach line order dspOrder translate handlers afterHandshake :=
    ⟨_, ⟨rfl, rfl, rfl, rfl, rfl⟩, .refl⟩
  -- the first request is answered, and the handler has called `complete`
  obtain ⟨comm, requesting, ne, submitted⟩ := begun.submit smp rfl
  obtain ⟨s₁, reach₁, same₁, answered₁, outside₁, counted₁⟩ :=
    submitted.answer rfl requesting ne
  have complete₁ : xrpCmdComplete (s₁.comm DspCmd.flags) = true := decide_eq_true answered₁
  have entered := reach₁.handler (.enter same₁.handler)
  have completed := (entered.handler (.taken rfl complete₁)).handler (.complete rfl)
  -- the client takes the answer and submits the next request, which is answered too
  have taken := completed.host smp (.completed same₁.host (Nat.succ_pos _))
  have found := taken.host smp (.found rfl complete₁)
  obtain ⟨comm', requesting', ne', submitted'⟩ := found.submit smp rfl
  obtain ⟨s₂, reach₂, same₂, answered₂, outside₂, counted₂⟩ :=
    submitted'.answer outside₁ requesting' ne'
  -- the handler acknowledges the first answer
  have acks : line.ackIrq = [0] := by simp [Line.ackIrq, level]
  have running : s₂.handler = some (.acknowledging [0]) := by
    rw [same₂.handler, acks]
  have acknowledged := (reach₂.handler (.acknowledge running)).handler (.handled rfl)
  refine ⟨_, acknowledged, same₂.host, ?_, answered₂, counted₂, rfl, ?_⟩
  · have taken : s₂.completion = s₁.completion + 1 - 1 := same₂.completion
    have none : s₁.completion = 0 := same₁.completion
    simp [State.writeRegister, taken, none]
  · simp [State.Pending, level, State.writeRegister]

end Late

/-- **The host never sleeps on an answer** exactly if the interrupt is an edge interrupt, or the
client cannot overtake the interrupt handler. -/
theorem neverAsleepOnAnswer_iff (line : Line) (order dspOrder : ByteOrder)
    (translate : ULong → U32) (handlers : Handlers) :
    (∀ s, Reach line order dspOrder translate handlers s → ¬ AsleepOnAnswer line s) ↔
      line.mode = .edge ∨ line.smp = false := by
  constructor
  · intro never
    by_contra racy
    obtain ⟨level, smp⟩ : line.mode = .level ∧ line.smp = true := by
      rw [not_or, Bool.not_eq_false] at racy
      refine ⟨?_, racy.2⟩
      cases mode : line.mode with
      | none => exact absurd mode line.signals
      | level => rfl
      | edge => exact absurd mode racy.1
    obtain ⟨s, reach, asleep⟩ := exists_asleep order dspOrder translate handlers level smp
    exact never s reach asleep
  · intro safe s reach
    exact (reach.inv safe).not_asleep

end Xrp.Exchange.HostInterrupt
