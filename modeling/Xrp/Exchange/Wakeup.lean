import Xrp.Exchange.ExactlyOnce
import Xrp.Exchange.Interrupt

/-!
# The DSP does not sleep on a request

Between a look at the flags word that finds no request and the end of
`XT_WAITI`, the interrupt handler does not run: the interrupt is disabled, or
masked. So a request that was published meanwhile is covered: its notice is still
due, or the interrupt is pending. When the handler has cleared the register, on
the other hand, the DSP looks at the flags word again before it sleeps.
-/

namespace Xrp.Exchange.Interrupt

open Kernel Dsp

section Stages

variable (line : Line) (dspOrder : ByteOrder) (handlers : Handlers) (s : State)

/-- The host will still set the bit of the register for the last request. -/
def Due : Prop := s.host = .filling (.ret ()) ∨ ∃ v left, s.host = .sending (v :: left)

/-- A request that is not answered wakes the DSP. -/
def Covered : Prop :=
  line.mode ≠ .none → Requesting (s.comm DspCmd.flags) → Due s ∨ s.Pending line

/-- Where the host is with a request. -/
inductive HostStage : Prop
  | idle : s.host = .idle → s.notified = s.published → HostStage
  | filling {left : List (ℕ × U32)} {flags : U32} :
    s.host = .filling (writeAll (left ++ [(DspCmd.flags, flags)])) →
    (∀ p ∈ left, p.1 ≠ DspCmd.flags) → flags ≠ syncStart → s.notified = s.published → HostStage
  | filled : s.host = .filling (.ret ()) → s.notified < s.published → HostStage
  | clearing : s.host = .sending [0, line.mask] → s.notified < s.published → HostStage
  | setting : s.host = .sending [line.mask] →
    (line.mode = .edge → s.register.getLsbD line.bit = false) → s.notified < s.published →
    HostStage
  | set : s.host = .sending [] → s.notified < s.published → HostStage

/-- The interrupt is disabled, and its handler not running. -/
structure Calm : Prop where
  disabled : s.enabled = false
  handler : s.handler = none

/-- How far `xrp_hw_wait_device_irq` is. -/
inductive WaitPhase : Type
  | called
  | masked
  | enabled
  | woken
  | disabled

/-- The rules of waiting: the interrupt is enabled only after it was masked, and disabled
afterwards. -/
def waitRules : Program.Rules IrqOp IrqOp.Answer WaitPhase where
  allowed
    | .setIntlevel level, phase =>
      phase = .called ∧ line.irqLevel ≤ level ∧ line.mode ≠ .none
    | .interruptEnable, phase => phase = .masked
    | .waiti _, phase => phase = .enabled
    | .interruptDisable, phase => phase = .woken
    | .restoreIntlevel _, phase => phase = .disabled
  effect
    | .setIntlevel _, _, _, phase => phase = .masked
    | .interruptEnable, _, _, phase => phase = .enabled
    | .waiti _, _, _, phase => phase = .woken
    | .interruptDisable, _, _, phase => phase = .disabled
    | .restoreIntlevel _, _, _, phase => phase = .disabled

/-- What is left of `xrp_hw_wait_device_irq` keeps the rules. -/
def Keeps (p : IrqProgram Unit) (phase : WaitPhase) : Prop :=
  p.wp (waitRules line) (fun _ phase => phase = .called ∨ phase = .disabled) phase

/-- What is left of `xrp_device_dispatch`. -/
inductive Dispatches (p : DspProgram Dispatch) : Prop
  | called (device : XrpDevice) : p = xrpDeviceDispatch dspOrder handlers device → Dispatches p
  | processing : p.wp answerRules Responded false → Dispatches p
  | silent : Silent p → Covered line s → Dispatches p

/-- What holds in a phase of `xrp_hw_wait_device_irq`. -/
def WaitPhase.Holds : WaitPhase → Prop
  | called => Calm s ∧ Covered line s
  | masked => Calm s ∧ line.irqLevel ≤ s.intlevel ∧ line.mode ≠ .none ∧ Covered line s
  | enabled =>
    s.handler = none ∧ line.irqLevel ≤ s.intlevel ∧ line.mode ≠ .none ∧ Covered line s
  | woken => True
  | disabled => Calm s

/-- Where the DSP is. -/
inductive DspStage : Prop
  | dispatching {p : DspProgram Dispatch} : s.dsp = .dispatching p → Calm s →
    Dispatches line dspOrder handlers s p → DspStage
  | waiting {p : IrqProgram Unit} (phase : WaitPhase) : s.dsp = .waiting p →
    Keeps line p phase → phase.Holds line s → DspStage
  | suspended {p : IrqProgram Unit} : s.dsp = .suspended p → Keeps line p .woken →
    s.handler = none → line.mode ≠ .none → Covered line s → DspStage
  | returned {status : XrpStatus} : s.dsp = .returned status → Calm s → DspStage

/-- What holds in all runs. -/
structure Inv : Prop where
  host : HostStage line s
  dsp : DspStage line dspOrder handlers s
  flags : s.comm DspCmd.flags ≠ syncStart
  handler : ∀ left, s.handler = some left → line.mode = .edge → left = []

end Stages

variable {line : Line} {order dspOrder : ByteOrder} {translate : ULong → U32}
  {handlers : Handlers} {s s' : State}

/-! ## The register -/

theorem getLsbD_mask : line.mask.getLsbD line.bit = true := by simp [Line.mask]

/-- The write of the bit makes the interrupt pending. -/
theorem pending_writeRegister_mask (signals : line.mode ≠ .none)
    (clear : line.mode = .edge → s.register.getLsbD line.bit = false) :
    (s.writeRegister line line.mask).Pending line := by
  unfold State.Pending
  cases mode : line.mode with
  | none => exact absurd mode signals
  | level => exact getLsbD_mask
  | edge =>
    simp only [State.writeRegister, clear mode, getLsbD_mask]
    simp

/-! ## Steps of the host -/

section Host

theorem Due.not_idle (idle : s.host = .idle) : ¬ Due s := by
  simp [Due, idle]

/-- Where no notice is due and the interrupt stays, a request stays covered. -/
theorem Covered.of_pending (covered : Covered line s) (settled : ¬ Due s)
    (flags : s'.comm DspCmd.flags = s.comm DspCmd.flags)
    (pending : s.Pending line → s'.Pending line) : Covered line s' := by
  intro signals requesting
  rw [flags] at requesting
  exact .inr (pending ((covered signals requesting).resolve_left settled))

theorem HostStage.of_idle (stage : HostStage line s) (here : s.host = .idle) :
    s.notified = s.published := by
  cases stage with
  | idle at_host counted => exact counted
  | filling at_host => simp [here] at at_host
  | filled at_host => simp [here] at at_host
  | clearing at_host => simp [here] at at_host
  | setting at_host => simp [here] at at_host
  | set at_host => simp [here] at at_host

/-- The next write of the host: the flags word, as its last write to the comm area, or some
other word. -/
theorem HostStage.of_filling {o : CommOp} {next : o.Answer → CommProgram Unit}
    (stage : HostStage line s) (here : s.host = .filling (.ask o next)) :
    s.notified = s.published ∧
      ((∃ flags, flags ≠ syncStart ∧
        Program.ask o next = .ask (.write DspCmd.flags flags) fun _ => .ret ()) ∨
      ∃ (p : ℕ × U32) (left : List (ℕ × U32)) (flags : U32), p.1 ≠ DspCmd.flags ∧
        (∀ q ∈ left, q.1 ≠ DspCmd.flags) ∧ flags ≠ syncStart ∧ Program.ask o next =
          .ask (.write p.1 p.2) fun _ => writeAll (left ++ [(DspCmd.flags, flags)])) := by
  cases stage with
  | @filling left flags at_host keys start counted =>
    rw [here] at at_host
    refine ⟨counted, ?_⟩
    cases left with
    | nil => exact .inl ⟨flags, start, HostPc.filling.inj at_host⟩
    | cons p left =>
      exact .inr ⟨p, left, flags, keys p List.mem_cons_self,
        fun q member => keys q (List.mem_cons_of_mem _ member), start, HostPc.filling.inj at_host⟩
  | idle at_host => simp [here] at at_host
  | filled at_host => simp [here] at at_host
  | clearing at_host => simp [here] at at_host
  | setting at_host => simp [here] at at_host
  | set at_host => simp [here] at at_host

theorem HostStage.of_filled (stage : HostStage line s) (here : s.host = .filling (.ret ())) :
    s.notified < s.published := by
  cases stage with
  | filled at_host lt => exact lt
  | filling at_host =>
    rw [here] at at_host
    exact absurd (HostPc.filling.inj at_host).symm (writeAll_append_ne_ret _ _)
  | idle at_host => simp [here] at at_host
  | clearing at_host => simp [here] at at_host
  | setting at_host => simp [here] at at_host
  | set at_host => simp [here] at at_host

/-- The next write of `send_irq`. -/
theorem HostStage.of_sending {v : U32} {left : List U32} (stage : HostStage line s)
    (here : s.host = .sending (v :: left)) :
    s.notified < s.published ∧ (v = 0 ∧ left = [line.mask] ∨
      v = line.mask ∧ left = [] ∧
        (line.mode = .edge → s.register.getLsbD line.bit = false)) := by
  cases stage with
  | clearing at_host lt =>
    rw [here] at at_host
    cases at_host
    exact ⟨lt, .inl ⟨rfl, rfl⟩⟩
  | setting at_host clear lt =>
    rw [here] at at_host
    cases at_host
    exact ⟨lt, .inr ⟨rfl, rfl, clear⟩⟩
  | idle at_host => simp [here] at at_host
  | filling at_host => simp [here] at at_host
  | filled at_host => simp [here] at at_host
  | set at_host => simp [here] at at_host

/-- `send_irq` begins. -/
theorem hostStage_sendIrq (due : s.notified < s.published) :
    HostStage line { s with host := .sending line.sendIrq } ∧
      Covered line { s with host := .sending line.sendIrq } := by
  cases mode : line.mode with
  | none =>
    refine ⟨.set ?_ due, fun signals => absurd mode signals⟩
    simp [Line.sendIrq, mode]
  | level =>
    have writes : line.sendIrq = [line.mask] := by simp [Line.sendIrq, mode]
    refine ⟨.setting (congrArg HostPc.sending writes) (by simp [mode]) due, ?_⟩
    exact fun _ _ => .inl (.inr ⟨_, _, congrArg HostPc.sending writes⟩)
  | edge =>
    have writes : line.sendIrq = [0, line.mask] := by simp [Line.sendIrq, mode]
    refine ⟨.clearing (congrArg HostPc.sending writes) due, ?_⟩
    exact fun _ _ => .inl (.inr ⟨_, _, congrArg HostPc.sending writes⟩)

/-- A step of the host keeps its stage, and keeps a request covered. -/
theorem HostStep.keeps (step : HostStep line order translate s s') (stage : HostStage line s) :
    HostStage line s' ∧ (Covered line s → Covered line s') := by
  cases step with
  | start rq idle =>
    refine ⟨?_, fun covered => covered.of_pending (Due.not_idle idle) rfl id⟩
    have filling : xrpFillHwRequest order translate rq =
        writeAll (rq.payload order translate ++ [(DspCmd.flags, rq.flagsWord)]) :=
      xrpFillHwRequest_eq order translate rq
    refine .filling (congrArg HostPc.filling filling) ?_ (flagsWord_ne_syncStart rq)
      (stage.of_idle idle)
    intro p member
    have := keysBetween_payload.range member
    grind
  | fill here =>
    have settled : ¬ Due s := by simp [Due, here]
    obtain ⟨counted, ⟨flags, -, last⟩ | ⟨p, left, flags, other, keys, start, first⟩⟩ :=
      stage.of_filling here
    · cases last
      refine ⟨.filled rfl ?_, fun _ _ _ => .inl (.inl rfl)⟩
      simp [State.fill, WritesFlags, counted]
    · cases first
      refine ⟨.filling rfl keys start ?_, fun covered => ?_⟩
      · simpa [State.fill, WritesFlags, other] using counted
      · exact covered.of_pending settled (Function.update_of_ne other.symm _ _) id
  | filled here =>
    obtain ⟨stage', covered⟩ := hostStage_sendIrq (stage.of_filled here)
    exact ⟨stage', fun _ => covered⟩
  | send here =>
    obtain ⟨lt, ⟨rfl, rfl⟩ | ⟨rfl, rfl, clear⟩⟩ := stage.of_sending here
    · refine ⟨.setting rfl (fun _ => ?_) lt, fun _ _ _ => .inl (.inr ⟨_, _, rfl⟩)⟩
      simp [State.writeRegister]
    · exact ⟨.set rfl lt, fun _ signals _ => .inr (pending_writeRegister_mask signals clear)⟩
  | sent here =>
    have settled : ¬ Due s := by simp [Due, here]
    exact ⟨.idle rfl rfl, fun covered => covered.of_pending settled rfl id⟩

/-- The host writes the flags of a request, not those of the handshake. -/
theorem HostStep.flags_ne (step : HostStep line order translate s s') (stage : HostStage line s)
    (ne : s.comm DspCmd.flags ≠ syncStart) : s'.comm DspCmd.flags ≠ syncStart := by
  cases step with
  | fill here =>
    obtain ⟨-, ⟨flags, start, last⟩ | ⟨p, left, flags, other, -, -, first⟩⟩ :=
      stage.of_filling here
    · cases last
      simpa [State.fill] using start
    · cases first
      have kept := Function.update_of_ne other.symm p.2 s.comm
      simpa [State.fill, kept] using ne
  | _ => exact ne

/-- A step of the host leaves the processor of the DSP alone. -/
theorem HostStep.frame (step : HostStep line order translate s s') :
    s'.dsp = s.dsp ∧ s'.intlevel = s.intlevel ∧ s'.enabled = s.enabled ∧
      s'.handler = s.handler := by
  cases step <;> exact ⟨rfl, rfl, rfl, rfl⟩

/-- The stage of the DSP depends on its processor, and on requests being covered. -/
theorem DspStage.congr (stage : DspStage line dspOrder handlers s)
    (frame : s'.dsp = s.dsp ∧ s'.intlevel = s.intlevel ∧ s'.enabled = s.enabled ∧
      s'.handler = s.handler)
    (covered : Covered line s → Covered line s') : DspStage line dspOrder handlers s' := by
  obtain ⟨dsp, intlevel, enabled, handler⟩ := frame
  have calm : Calm s → Calm s' :=
    fun calm => ⟨enabled.trans calm.disabled, handler.trans calm.handler⟩
  cases stage with
  | dispatching at_dsp quiet dispatches =>
    refine .dispatching (dsp.trans at_dsp) (calm quiet) ?_
    cases dispatches with
    | called device eq => exact .called device eq
    | processing holds => exact .processing holds
    | silent silent was => exact .silent silent (covered was)
  | waiting phase at_dsp keeps holds =>
    refine .waiting phase (dsp.trans at_dsp) keeps ?_
    cases phase with
    | called => exact ⟨calm holds.1, covered holds.2⟩
    | masked =>
      obtain ⟨quiet, mask, signals, was⟩ := holds
      exact ⟨calm quiet, intlevel ▸ mask, signals, covered was⟩
    | enabled =>
      obtain ⟨none, mask, signals, was⟩ := holds
      exact ⟨handler.trans none, intlevel ▸ mask, signals, covered was⟩
    | woken => exact trivial
    | disabled => exact calm holds
  | suspended at_dsp keeps none signals was =>
    exact .suspended (dsp.trans at_dsp) keeps (handler.trans none) signals (covered was)
  | returned at_dsp quiet => exact .returned (dsp.trans at_dsp) (calm quiet)

theorem HostStep.inv (step : HostStep line order translate s s')
    (inv : Inv line dspOrder handlers s) : Inv line dspOrder handlers s' where
  host := (step.keeps inv.host).1
  dsp := inv.dsp.congr step.frame (step.keeps inv.host).2
  flags := step.flags_ne inv.host inv.flags
  handler := by
    rw [step.frame.2.2.2]
    exact inv.handler

end Host

/-! ## Steps of the DSP -/

section Device

/-- The stage of the host does not depend on the DSP, unless it writes the register. -/
theorem HostStage.congr (stage : HostStage line s) (host : s'.host = s.host)
    (register : line.mode = .edge → s'.register = s.register)
    (counts : s'.notified = s.notified ∧ s'.published = s.published) : HostStage line s' := by
  obtain ⟨notified, published⟩ := counts
  have lt : s.notified < s.published → s'.notified < s'.published := by
    rw [notified, published]
    exact id
  have eq : s.notified = s.published → s'.notified = s'.published := by
    rw [notified, published]
    exact id
  cases stage with
  | idle at_host counted => exact .idle (host.trans at_host) (eq counted)
  | filling at_host keys start counted =>
    exact .filling (host.trans at_host) keys start (eq counted)
  | filled at_host less => exact .filled (host.trans at_host) (lt less)
  | clearing at_host less => exact .clearing (host.trans at_host) (lt less)
  | setting at_host clear less =>
    refine .setting (host.trans at_host) (fun edge => ?_) (lt less)
    rw [register edge]
    exact clear edge
  | set at_host less => exact .set (host.trans at_host) (lt less)

/-- `xrp_hw_wait_device_irq` keeps the rules. -/
theorem keeps_xrpHwWaitDeviceIrq : Keeps line line.xrpHwWaitDeviceIrq .called := by
  unfold Line.xrpHwWaitDeviceIrq
  split_ifs with silent
  · exact .inl rfl
  refine ⟨⟨rfl, line.masked, silent⟩, fun oldIntlevel _ masked => ?_⟩
  cases masked
  refine ⟨rfl, fun _ _ enabled => ?_⟩
  cases enabled
  refine ⟨rfl, fun _ _ woken => ?_⟩
  cases woken
  refine ⟨rfl, fun _ _ disabled => ?_⟩
  cases disabled
  exact ⟨rfl, fun _ _ restored => .inr restored⟩

theorem DspStage.of_dispatching {p : DspProgram Dispatch}
    (stage : DspStage line dspOrder handlers s) (here : s.dsp = .dispatching p) :
    Calm s ∧ Dispatches line dspOrder handlers s p := by
  cases stage with
  | dispatching at_dsp calm dispatches =>
    rw [here] at at_dsp
    cases at_dsp
    exact ⟨calm, dispatches⟩
  | waiting phase at_dsp => simp [here] at at_dsp
  | suspended at_dsp => simp [here] at at_dsp
  | returned at_dsp => simp [here] at at_dsp

theorem DspStage.of_waiting {p : IrqProgram Unit}
    (stage : DspStage line dspOrder handlers s) (here : s.dsp = .waiting p) :
    ∃ phase, Keeps line p phase ∧ phase.Holds line s := by
  cases stage with
  | waiting phase at_dsp keeps holds =>
    rw [here] at at_dsp
    cases at_dsp
    exact ⟨phase, keeps, holds⟩
  | dispatching at_dsp => simp [here] at at_dsp
  | suspended at_dsp => simp [here] at at_dsp
  | returned at_dsp => simp [here] at at_dsp

/-- A dispatch that is over has left no request uncovered. -/
theorem Dispatches.of_ret {d : Dispatch}
    (dispatches : Dispatches line dspOrder handlers s (.ret d)) :
    d ≠ .handshake ∧ Covered line s := by
  cases dispatches with
  | called device eq => simp [xrpDeviceDispatch_eq] at eq
  | processing holds => exact absurd holds.1 (by simp)
  | silent silent covered => exact ⟨silent, covered⟩

/-- The DSP reads the flags word. -/
theorem dispatches_of_read (device : XrpDevice) (ne : s.comm DspCmd.flags ≠ syncStart) :
    Dispatches line dspOrder handlers s
      (if !xrpRequestValid (s.comm DspCmd.flags) then .ret (.status .pending)
      else if s.comm DspCmd.flags = syncStart then .ret .handshake
      else .status <$> processCommand dspOrder handlers device (s.comm DspCmd.flags)) := by
  by_cases requesting : Requesting (s.comm DspCmd.flags)
  · have valid : xrpRequestValid (s.comm DspCmd.flags) = true := decide_eq_true requesting
    simp only [valid, Bool.not_true, Bool.false_eq_true, if_false, if_neg ne]
    exact .processing (wp_processCommand_answers dspOrder handlers device requesting)
  · have invalid : xrpRequestValid (s.comm DspCmd.flags) = false := decide_eq_false requesting
    simp only [invalid, Bool.not_false, if_true]
    refine .silent ?_ fun _ was => absurd was requesting
    exact fun handshake => Dispatch.noConfusion handshake

/-- An access to the comm area: the look at the flags word, part of the command, or its
answer. -/
theorem Dispatches.access {o : CommOp} {next : o.Answer → DspProgram Dispatch}
    (dispatches : Dispatches line dspOrder handlers s (.ask (.comm o) next))
    (ne : s.comm DspCmd.flags ≠ syncStart) :
    (o.act s.comm).2 DspCmd.flags ≠ syncStart ∧
      Dispatches line dspOrder handlers
        { s with comm := (o.act s.comm).2, dsp := .dispatching (next (o.act s.comm).1) }
        (next (o.act s.comm).1) := by
  cases dispatches with
  | called device eq =>
    rw [xrpDeviceDispatch_eq] at eq
    cases eq
    refine ⟨ne, ?_⟩
    exact dispatches_of_read (s := { s with dsp := _ }) device ne
  | processing holds =>
    obtain ⟨⟨-, answered⟩, rest⟩ := holds
    cases o with
    | read w => exact ⟨ne, .processing (rest _ _ rfl)⟩
    | write w v =>
      by_cases completes : w = DspCmd.flags
      · subst completes
        have response := answered v rfl
        have now : Function.update s.comm DspCmd.flags v DspCmd.flags = v :=
          Function.update_self _ _ _
        refine ⟨?_, .silent (silent_of_answered (rest () _ rfl)) fun _ requesting => ?_⟩
        · simp only [CommOp.act_write, now]
          intro start
          rw [start] at response
          exact absurd response (by decide)
        · simp only [CommOp.act_write, now] at requesting
          exact absurd response requesting.not_answered
      · have kept : Function.update s.comm w v DspCmd.flags = s.comm DspCmd.flags :=
          Function.update_of_ne (Ne.symm completes) _ _
        have still := rest () _ rfl
        simp only [WritesFlags, completes, decide_false, Bool.or_false] at still
        refine ⟨?_, .processing still⟩
        simpa only [CommOp.act_write, kept] using ne
  | silent silent => exact absurd silent.1 id

theorem Dispatches.other {o : DspOp} {next : o.Answer → DspProgram Dispatch}
    (dispatches : Dispatches line dspOrder handlers s (.ask o next)) (apart : ∀ c, o ≠ .comm c)
    (r : o.Answer) :
    Dispatches line dspOrder handlers { s with dsp := .dispatching (next r) } (next r) := by
  cases dispatches with
  | called device eq =>
    rw [xrpDeviceDispatch_eq] at eq
    cases eq
    exact absurd rfl (apart _)
  | processing holds =>
    refine .processing (holds.2 r false ?_)
    cases o with
    | comm c => exact absurd rfl (apart c)
    | _ => exact rfl
  | silent silent covered => exact .silent (silent.2 r () trivial) covered

/-- A step of the loop, while the handler is not running. -/
theorem LoopStep.stage (step : LoopStep line dspOrder handlers s s') (quiet : s.handler = none)
    (stage : DspStage line dspOrder handlers s) (ne : s.comm DspCmd.flags ≠ syncStart) :
    DspStage line dspOrder handlers s' ∧ s'.comm DspCmd.flags ≠ syncStart := by
  cases step with
  | access here =>
    obtain ⟨calm, dispatches⟩ := stage.of_dispatching here
    obtain ⟨ne', dispatches'⟩ := dispatches.access ne
    exact ⟨.dispatching rfl ⟨calm.disabled, calm.handler⟩ dispatches', ne'⟩
  | other r here apart =>
    obtain ⟨calm, dispatches⟩ := stage.of_dispatching here
    exact ⟨.dispatching rfl ⟨calm.disabled, calm.handler⟩ (dispatches.other apart r), ne⟩
  | wait here =>
    obtain ⟨calm, dispatches⟩ := stage.of_dispatching here
    refine ⟨.waiting .called rfl keeps_xrpHwWaitDeviceIrq ?_, ne⟩
    exact ⟨⟨calm.disabled, calm.handler⟩, dispatches.of_ret.2⟩
  | again device here =>
    obtain ⟨calm, -⟩ := stage.of_dispatching here
    exact ⟨.dispatching rfl ⟨calm.disabled, calm.handler⟩ (.called device rfl), ne⟩
  | fail here =>
    obtain ⟨calm, -⟩ := stage.of_dispatching here
    exact ⟨.returned rfl ⟨calm.disabled, calm.handler⟩, ne⟩
  | handshake here =>
    obtain ⟨-, dispatches⟩ := stage.of_dispatching here
    exact absurd rfl dispatches.of_ret.1
  | setIntlevel here =>
    obtain ⟨_, ⟨⟨rfl, mask, signals⟩, rest⟩, calm, covered⟩ := stage.of_waiting here
    refine ⟨.waiting .masked rfl (rest _ _ rfl) ?_, ne⟩
    exact ⟨⟨calm.disabled, calm.handler⟩, mask, signals, covered⟩
  | enable here =>
    obtain ⟨_, ⟨rfl, rest⟩, -, mask, signals, covered⟩ := stage.of_waiting here
    exact ⟨.waiting .enabled rfl (rest _ _ rfl) ⟨quiet, mask, signals, covered⟩, ne⟩
  | waiti here =>
    obtain ⟨_, ⟨rfl, rest⟩, -, -, signals, covered⟩ := stage.of_waiting here
    exact ⟨.suspended rfl (rest _ _ rfl) quiet signals covered, ne⟩
  | disable here =>
    obtain ⟨_, ⟨rfl, rest⟩, -⟩ := stage.of_waiting here
    exact ⟨.waiting .disabled rfl (rest _ _ rfl) ⟨rfl, quiet⟩, ne⟩
  | restoreIntlevel here =>
    obtain ⟨_, ⟨rfl, rest⟩, calm⟩ := stage.of_waiting here
    exact ⟨.waiting .disabled rfl (rest _ _ rfl) ⟨calm.disabled, calm.handler⟩, ne⟩
  | waited device here =>
    obtain ⟨_, rfl | rfl, holds⟩ := stage.of_waiting here
    · exact ⟨.dispatching rfl ⟨holds.1.disabled, holds.1.handler⟩ (.called device rfl), ne⟩
    · exact ⟨.dispatching rfl ⟨holds.disabled, holds.handler⟩ (.called device rfl), ne⟩

/-- The loop leaves the host and the register alone. -/
theorem LoopStep.frame (step : LoopStep line dspOrder handlers s s') :
    s'.host = s.host ∧ s'.register = s.register ∧
      (s'.notified = s.notified ∧ s'.published = s.published) ∧ s'.handler = s.handler := by
  cases step <;> exact ⟨rfl, rfl, ⟨rfl, rfl⟩, rfl⟩

/-- While the handler can run, the DSP is behind `XT_WAITI`. -/
theorem DspStage.of_interruptible (stage : DspStage line dspOrder handlers s)
    (active : s.handler ≠ none ∨ s.enabled = true ∧ s.intlevel < line.irqLevel) :
    ∃ p, Keeps line p .woken ∧
      (s.dsp = .waiting p ∨ s.handler = none ∧ s.dsp = .suspended p) := by
  have not_calm : ¬ Calm s := by
    intro calm
    rcases active with running | ⟨enabled, -⟩
    · exact running calm.handler
    · simp [calm.disabled] at enabled
  cases stage with
  | dispatching at_dsp calm => exact absurd calm not_calm
  | waiting phase at_dsp keeps holds =>
    cases phase with
    | called => exact absurd holds.1 not_calm
    | masked => exact absurd holds.1 not_calm
    | enabled =>
      rcases active with running | ⟨-, unmasked⟩
      · exact absurd holds.1 running
      · exact absurd holds.2.1 (not_le.mpr unmasked)
    | woken => exact ⟨_, keeps, .inl at_dsp⟩
    | disabled => exact absurd holds not_calm
  | suspended at_dsp keeps none => exact ⟨_, keeps, .inr ⟨none, at_dsp⟩⟩
  | returned at_dsp calm => exact absurd calm not_calm

theorem DspStep.inv (step : DspStep line dspOrder handlers s s')
    (inv : Inv line dspOrder handlers s) : Inv line dspOrder handlers s' := by
  cases step with
  | loop quiet step =>
    obtain ⟨host, register, counts, handler⟩ := step.frame
    obtain ⟨stage, ne⟩ := step.stage quiet inv.dsp inv.flags
    refine ⟨inv.host.congr host (fun _ => register) counts, stage, ne, ?_⟩
    rw [handler]
    exact inv.handler
  | interrupt none enabled unmasked pending =>
    obtain ⟨p, keeps, woken⟩ := inv.dsp.of_interruptible (.inr ⟨enabled, unmasked⟩)
    refine ⟨inv.host.congr rfl (fun _ => rfl) ⟨rfl, rfl⟩, ?_, inv.flags, ?_⟩
    · have awake : s.dsp.awake = .waiting p := by
        rcases woken with at_dsp | ⟨-, at_dsp⟩ <;> rw [at_dsp] <;> rfl
      exact .waiting .woken awake keeps trivial
    · intro left running edge
      cases running
      simp [Line.xrpIrqHandler, edge]
  | @handle v left running =>
    obtain ⟨p, keeps, woken⟩ := inv.dsp.of_interruptible (.inl (by simp [running]))
    have level : line.mode ≠ .edge := fun edge => by simpa using inv.handler _ running edge
    refine ⟨inv.host.congr rfl (fun edge => absurd edge level) ⟨rfl, rfl⟩, ?_, inv.flags, ?_⟩
    · exact .waiting .woken (woken.resolve_right (by simp [running])) keeps trivial
    · exact fun _ _ edge => absurd edge level
  | handled running =>
    obtain ⟨p, keeps, woken⟩ := inv.dsp.of_interruptible (.inl (by simp [running]))
    refine ⟨inv.host.congr rfl (fun _ => rfl) ⟨rfl, rfl⟩, ?_, inv.flags, by simp⟩
    exact .waiting .woken (woken.resolve_right (by simp [running])) keeps trivial

end Device

/-! ## Runs -/

theorem Initial.inv (initial : Initial dspOrder handlers s) : Inv line dspOrder handlers s := by
  obtain ⟨device, at_dsp⟩ := initial.dsp
  refine ⟨.idle initial.host initial.counted, ?_, ?_, by simp [initial.handler]⟩
  · exact .dispatching at_dsp ⟨initial.disabled, initial.handler⟩ (.called device rfl)
  · intro start
    have quiet := initial.quiet
    rw [start] at quiet
    exact quiet (by decide)

theorem Reach.inv (reach : Reach line order dspOrder translate handlers s) :
    Inv line dspOrder handlers s := by
  obtain ⟨s₀, initial, run⟩ := reach
  induction run with
  | refl => exact initial.inv
  | tail _ step ih =>
    cases step with
    | host step => exact step.inv ih
    | dsp step => exact step.inv ih

theorem Reach.host (reach : Reach line order dspOrder translate handlers s)
    (step : HostStep line order translate s s') :
    Reach line order dspOrder translate handlers s' := by
  obtain ⟨s₀, initial, run⟩ := reach
  exact ⟨s₀, initial, run.tail (.host step)⟩

theorem Reach.loop (reach : Reach line order dspOrder translate handlers s)
    (quiet : s.handler = none) (step : LoopStep line dspOrder handlers s s') :
    Reach line order dspOrder translate handlers s' := by
  obtain ⟨s₀, initial, run⟩ := reach
  exact ⟨s₀, initial, run.tail (.dsp (.loop quiet step))⟩

/-- **The DSP never sleeps on a request** that the host has given notice of. -/
theorem not_asleepOnRequest (reach : Reach line order dspOrder translate handlers s) :
    ¬ AsleepOnRequest line s := by
  intro asleep
  obtain ⟨rest, at_dsp⟩ := asleep.suspended
  have inv := reach.inv
  have settled : ¬ Due s := by
    have counted := asleep.notified
    unfold Due
    cases inv.host with
    | idle at_host => simp [at_host]
    | filling at_host =>
      have writing := writeAll_append_ne_ret
      simp [at_host, writing]
    | filled at_host lt => omega
    | clearing at_host lt => omega
    | setting at_host clear lt => omega
    | set at_host lt => omega
  cases inv.dsp with
  | suspended at_dsp' keeps none signals covered =>
    exact asleep.quiet ((covered signals asleep.requesting).resolve_left settled)
  | dispatching at_dsp' => simp [at_dsp] at at_dsp'
  | waiting phase at_dsp' => simp [at_dsp] at at_dsp'
  | returned at_dsp' => simp [at_dsp] at at_dsp'

/-- An edge interrupt of level 1. -/
def edgeLine : Line := ⟨.edge, 0, 2, 1, Nat.one_pos, Nat.le_refl 1⟩

/-- The DSP begins its loop; the register is set from before. -/
def beforeRequest : State :=
  ⟨fun _ => 0, 1, false, .idle,
    .dispatching (xrpDeviceDispatch .little idleHandlers ⟨0, 0, fun _ => ⟨fun _ => 0, 0, 0⟩⟩),
    0, false, none, 0, 0⟩

/-- A request is submitted after the DSP looked at the flags word and before it sleeps: the
interrupt is pending when it does. -/
theorem not_asleepOnRequest_meanwhile :
    ∃ s, Reach edgeLine .little .little (fun _ => 0) idleHandlers s ∧
      (∃ rest, s.dsp = .suspended rest) ∧ Requesting (s.comm DspCmd.flags) ∧
      s.notified = s.published ∧ s.Pending edgeLine := by
  have initial : Initial .little idleHandlers beforeRequest :=
    ⟨by decide, rfl, ⟨_, rfl⟩, rfl, rfl, rfl⟩
  have begun : Reach edgeLine .little .little (fun _ => 0) idleHandlers beforeRequest :=
    ⟨_, initial, .refl⟩
  have looked := (begun.loop rfl (.access rfl)).loop rfl (.wait rfl)
  have published := ((((looked.host (.start emptyRequest rfl)).host (.fill rfl)).host
    (.fill rfl)).host (.fill rfl)).host (.fill rfl)
  have noticed := (((published.host (.filled rfl)).host (.send rfl)).host (.send rfl)).host
    (.sent rfl)
  have asleep := ((noticed.loop rfl (.setIntlevel rfl)).loop rfl (.enable rfl)).loop rfl
    (.waiti rfl)
  refine ⟨_, asleep, ⟨_, rfl⟩, by decide, rfl, ?_⟩
  by_contra quiet
  exact not_asleepOnRequest asleep ⟨⟨_, rfl⟩, quiet, by decide, rfl⟩

end Xrp.Exchange.Interrupt
