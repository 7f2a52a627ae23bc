import Xrp.Exchange.Answers

/-!
# The device interrupt

`send_irq` of `xrp_hw_simple.c`, `xrp_irq_handler` and `xrp_hw_wait_device_irq`
of `xrp_dsp_hw_simple.c`, and the loop of the DSP around `xrp_device_dispatch`.
Host and DSP share the comm area and one interrupt register. A level interrupt
is pending while its bit of the register is set. A change of the bit from 0 to 1
latches an edge interrupt, and the entry of its handler releases the latch. The
handler is entered only while the interrupt is enabled and not masked.

Which levels mask the interrupt depends on the platform. It is taken for granted that
the level `XCHAL_NUM_INTLEVELS - 1`, which `xrp_hw_wait_device_irq` sets before it
enables the interrupt, masks it, and that level 0, with which it waits, does not:
`Line` has both as fields.

The host does not have to wait for the response: it may give up on a request
and submit the next one while the DSP is in the first.
-/

namespace Xrp.Exchange.Interrupt

open Kernel Dsp

/-- `enum xrp_irq_mode`. The DSP has the mode from the host. -/
inductive XrpIrqMode : Type
  | none
  | level
  | edge
  deriving DecidableEq

/-- The device interrupt. -/
structure Line : Type where
  mode : XrpIrqMode
  /-- The bit of the register. -/
  bit : Fin 32
  /-- `XCHAL_NUM_INTLEVELS`. -/
  numIntlevels : ℕ
  /-- The level of the interrupt. -/
  irqLevel : ℕ
  /-- Interrupt level 0 does not mask the interrupt. -/
  unmasked : 0 < irqLevel
  /-- The level that `xrp_hw_wait_device_irq` sets masks it. -/
  masked : irqLevel ≤ numIntlevels - 1

/-- What the DSP does to wait for an interrupt. -/
inductive IrqOp : Type
  | setIntlevel (level : ℕ)
  | interruptEnable
  | waiti (level : ℕ)
  | interruptDisable
  | restoreIntlevel (level : ℕ)

/-- What the operation answers: `XTOS_SET_INTLEVEL` the level before it. -/
@[reducible] def IrqOp.Answer : IrqOp → Type
  | setIntlevel _ => ℕ
  | _ => Unit

/-- Programs of the DSP that wait for an interrupt. -/
abbrev IrqProgram := Program IrqOp IrqOp.Answer

namespace Line

variable (line : Line)

/-- `BIT(hw->device_irq[1])`. -/
def mask : U32 := BitVec.twoPow 32 line.bit

/-- What `send_irq` writes to the register. -/
def sendIrq : List U32 :=
  match line.mode with
  | .edge => [0, line.mask]
  | .level => [line.mask]
  | .none => []

/-- What `xrp_irq_handler` writes to the register. -/
def xrpIrqHandler : List U32 := if line.mode = .level then [0] else []

/-- `xrp_hw_wait_device_irq`. -/
def xrpHwWaitDeviceIrq : IrqProgram Unit :=
  if line.mode = .none then pure ()
  else do
    let oldIntlevel ← .perform (IrqOp.setIntlevel (line.numIntlevels - 1))
    .perform IrqOp.interruptEnable
    .perform (IrqOp.waiti 0)
    .perform IrqOp.interruptDisable
    .perform (IrqOp.restoreIntlevel oldIntlevel)

end Line

/-- Where the host is. When `idle` it waits for a response, reads one or has no request; it
does not write the comm area. -/
inductive HostPc : Type
  | idle
  | filling (rest : CommProgram Unit)
  | sending (left : List U32)

/-- Where the DSP is in its loop. It does not come back from `handshake` here. -/
inductive DspPc : Type
  | dispatching (rest : DspProgram Dispatch)
  | waiting (rest : IrqProgram Unit)
  | suspended (rest : IrqProgram Unit)
  | returned (status : XrpStatus)
  | handshake

/-- The interrupt ends `XT_WAITI`. -/
def DspPc.awake : DspPc → DspPc
  | suspended rest => waiting rest
  | pc => pc

/-- The state of both sides. `published` counts the requests whose flags word was written, and
`notified` those for which `send_irq` was finished after that. -/
structure State : Type where
  comm : Comm
  register : U32
  latched : Bool
  host : HostPc
  dsp : DspPc
  intlevel : ℕ
  enabled : Bool
  /-- What is left of `xrp_irq_handler`, if it is running. -/
  handler : Option (List U32)
  published : ℕ
  notified : ℕ

namespace State

variable (line : Line) (s : State)

/-- The device interrupt is pending, masked or not. -/
def Pending : Prop :=
  match line.mode with
  | .level => s.register.getLsbD line.bit = true
  | .edge => s.latched = true
  | .none => False

/-- A write of the register, by either side. -/
def writeRegister (v : U32) : State :=
  { s with
    register := v
    latched := s.latched || (!s.register.getLsbD line.bit && v.getLsbD line.bit) }

/-- An access of the host while it fills the comm area. -/
def fill (o : CommOp) (next : o.Answer → CommProgram Unit) : State :=
  { s with
    comm := (o.act s.comm).2
    host := .filling (next (o.act s.comm).1)
    published := if WritesFlags o then s.published + 1 else s.published }

/-- The handler is entered. -/
def takeInterrupt : State :=
  { s with handler := some line.xrpIrqHandler, latched := false, dsp := s.dsp.awake }

end State

section Steps

variable (line : Line) (order dspOrder : ByteOrder) (translate : ULong → U32)
  (handlers : Handlers)

/-- One step of the host. -/
inductive HostStep (s : State) : State → Prop
  | start (rq : XrpRequest) : s.host = .idle →
    HostStep s { s with host := .filling (xrpFillHwRequest order translate rq) }
  | fill {o : CommOp} {next : o.Answer → CommProgram Unit} : s.host = .filling (.ask o next) →
    HostStep s (s.fill o next)
  | filled : s.host = .filling (.ret ()) → HostStep s { s with host := .sending line.sendIrq }
  | send {v : U32} {left : List U32} : s.host = .sending (v :: left) →
    HostStep s { s.writeRegister line v with host := .sending left }
  | sent : s.host = .sending [] → HostStep s { s with host := .idle, notified := s.published }

/-- One step of the program of the DSP. `run_command_loop` returns after a command that failed,
and the loop of the example goes on. -/
inductive LoopStep (s : State) : State → Prop
  | access {o : CommOp} {next : o.Answer → DspProgram Dispatch} :
    s.dsp = .dispatching (.ask (.comm o) next) →
    LoopStep s { s with comm := (o.act s.comm).2, dsp := .dispatching (next (o.act s.comm).1) }
  | other {o : DspOp} {next : o.Answer → DspProgram Dispatch} (r : o.Answer) :
    s.dsp = .dispatching (.ask o next) → (∀ c, o ≠ .comm c) →
    LoopStep s { s with dsp := .dispatching (next r) }
  | wait : s.dsp = .dispatching (.ret (.status .pending)) →
    LoopStep s { s with dsp := .waiting line.xrpHwWaitDeviceIrq }
  | again {status : XrpStatus} (device : XrpDevice) :
    s.dsp = .dispatching (.ret (.status status)) → status ≠ .pending →
    LoopStep s { s with dsp := .dispatching (xrpDeviceDispatch dspOrder handlers device) }
  | fail {status : XrpStatus} : s.dsp = .dispatching (.ret (.status status)) →
    status ≠ .pending → status ≠ .success → LoopStep s { s with dsp := .returned status }
  | handshake : s.dsp = .dispatching (.ret .handshake) → LoopStep s { s with dsp := .handshake }
  | setIntlevel {level : ℕ} {next : ℕ → IrqProgram Unit} :
    s.dsp = .waiting (.ask (.setIntlevel level) next) →
    LoopStep s { s with intlevel := level, dsp := .waiting (next s.intlevel) }
  | enable {next : Unit → IrqProgram Unit} : s.dsp = .waiting (.ask .interruptEnable next) →
    LoopStep s { s with enabled := true, dsp := .waiting (next ()) }
  | waiti {level : ℕ} {next : Unit → IrqProgram Unit} :
    s.dsp = .waiting (.ask (.waiti level) next) →
    LoopStep s { s with intlevel := level, dsp := .suspended (next ()) }
  | disable {next : Unit → IrqProgram Unit} : s.dsp = .waiting (.ask .interruptDisable next) →
    LoopStep s { s with enabled := false, dsp := .waiting (next ()) }
  | restoreIntlevel {level : ℕ} {next : Unit → IrqProgram Unit} :
    s.dsp = .waiting (.ask (.restoreIntlevel level) next) →
    LoopStep s { s with intlevel := level, dsp := .waiting (next ()) }
  | waited (device : XrpDevice) : s.dsp = .waiting (.ret ()) →
    LoopStep s { s with dsp := .dispatching (xrpDeviceDispatch dspOrder handlers device) }

/-- One step of the DSP: of its program, or of the interrupt handler, which runs in between. -/
inductive DspStep (s : State) : State → Prop
  | loop {s' : State} : s.handler = none → LoopStep line dspOrder handlers s s' → DspStep s s'
  | interrupt : s.handler = none → s.enabled = true → s.intlevel < line.irqLevel →
    s.Pending line → DspStep s (s.takeInterrupt line)
  | handle {v : U32} {left : List U32} : s.handler = some (v :: left) →
    DspStep s { s.writeRegister line v with handler := some left }
  | handled : s.handler = some [] → DspStep s { s with handler := none }

/-- One step of either side. -/
inductive Step (s s' : State) : Prop
  | host : HostStep line order translate s s' → Step s s'
  | dsp : DspStep line dspOrder handlers s s' → Step s s'

/-- The DSP begins its loop, and no request was published. The register may be in any state, and
an interrupt may be left over. -/
structure Initial (s : State) : Prop where
  quiet : ¬ Requesting (s.comm DspCmd.flags)
  host : s.host = .idle
  dsp : ∃ device, s.dsp = .dispatching (xrpDeviceDispatch dspOrder handlers device)
  disabled : s.enabled = false
  handler : s.handler = none
  counted : s.notified = s.published

/-- The states of all runs. -/
def Reach (s : State) : Prop :=
  ∃ s₀, Initial dspOrder handlers s₀ ∧
    Relation.ReflTransGen (Step line order dspOrder translate handlers) s₀ s

end Steps

/-- The DSP is suspended with its interrupt not pending, while the comm area holds a request that
is not answered and that the host has given notice of. -/
structure AsleepOnRequest (line : Line) (s : State) : Prop where
  suspended : ∃ rest, s.dsp = .suspended rest
  quiet : ¬ s.Pending line
  requesting : Requesting (s.comm DspCmd.flags)
  notified : s.notified = s.published

end Xrp.Exchange.Interrupt
