import Xrp.Exchange.Interrupt

/-!
# The host interrupt

`xrp_hw_send_host_irq` of `xrp_dsp_hw_simple.c`, which `complete_request` calls
after it has written the flags word, and on the other side `irq_handler` of
`xrp_hw_simple.c` with `xrp_irq_handler` and `ack_irq`, and `xvp_complete_cmd_irq`,
which waits for `xvp->completion`. Both sides share the comm area and the register
of the host interrupt. A level interrupt is pending while its bit of the register
is set; a change of the bit from 0 to 1 latches an edge interrupt, and the entry of
the handler releases the latch. The interrupt line is shared with other devices, so
the handler may be entered at any time.

A wait that ends by timeout or by a signal ends here at any time. The DSP looks at
the flags word whenever it likes.
-/

namespace Xrp.Exchange.HostInterrupt

open Kernel Dsp
open Interrupt (XrpIrqMode)

/-- The host interrupt. -/
structure Line : Type where
  mode : XrpIrqMode
  /-- The bit of the register. -/
  bit : Fin 32
  /-- The client can run on one processor while another one is in the interrupt handler. -/
  smp : Bool
  /-- Without an interrupt `xrp_synchronize` fails in interrupt mode. -/
  signals : mode ≠ .none

namespace Line

variable (line : Line)

/-- `1u << host_irq_bit`. -/
def mask : U32 := BitVec.twoPow 32 line.bit

/-- What `xrp_hw_send_host_irq` writes to the register. -/
def xrpHwSendHostIrq : List U32 :=
  match line.mode with
  | .edge => [0, line.mask]
  | .level => [line.mask]
  | .none => []

/-- What `ack_irq` writes to the register. -/
def ackIrq : List U32 := if line.mode = .level then [0] else []

end Line

/-- Where the host is in `xrp_ioctl_submit_sync`. When `idle` it reads a response or has no
request. It is `checking` the flags word after the wait ended, by `complete` or otherwise. -/
inductive HostPc : Type
  | idle
  | filling (rest : CommProgram Unit)
  | waiting
  | checking (completed : Bool)

/-- Where `irq_handler` is: it will read the flags word, call `complete`, or acknowledge the
interrupt. -/
inductive HandlerPc : Type
  | entered
  | completing
  | acknowledging (left : List U32)

/-- Where the DSP is in `xrp_device_dispatch`. It does not come back from `handshake` here. -/
inductive DspPc : Type
  | outside
  | dispatching (rest : DspProgram Dispatch)
  | sending (left : List U32) (rest : DspProgram Dispatch)
  | handshake

/-- The state of both sides. `answered` counts the responses whose flags word was written, and
`signalled` those for which `xrp_hw_send_host_irq` was finished after that. -/
structure State : Type where
  comm : Comm
  register : U32
  latched : Bool
  host : HostPc
  /-- `xvp->completion.done`. -/
  completion : ℕ
  handler : Option HandlerPc
  dsp : DspPc
  answered : ℕ
  signalled : ℕ

namespace State

variable (line : Line) (s : State)

/-- The host interrupt is pending. -/
def Pending : Prop :=
  match line.mode with
  | .level => s.register.getLsbD line.bit = true
  | .edge => s.latched = true
  | .none => False

/-- A write of the register, by either side. -/
def writeRegister (v : U32) : State :=
  { s with
    register := v
    latched := s.latched || (!s.register.getLsbD line.bit && v.getLsbD line.bit) }

/-- An access of the DSP to the comm area; the write of the flags word is followed by
`xrp_hw_send_host_irq`. -/
def dspAccess (o : CommOp) (next : o.Answer → DspProgram Dispatch) : State :=
  { s with
    comm := (o.act s.comm).2
    dsp :=
      if WritesFlags o then .sending line.xrpHwSendHostIrq (next (o.act s.comm).1)
      else .dispatching (next (o.act s.comm).1)
    answered := if WritesFlags o then s.answered + 1 else s.answered }

variable {line s}

theorem dspAccess_flags (v : U32) (next : Unit → DspProgram Dispatch) :
    s.dspAccess line (.write DspCmd.flags v) next =
      { s with
        comm := Function.update s.comm DspCmd.flags v
        dsp := .sending line.xrpHwSendHostIrq (next ())
        answered := s.answered + 1 } := by
  simp [dspAccess, WritesFlags]

theorem dspAccess_other {o : CommOp} (other : ¬ WritesFlags o)
    (next : o.Answer → DspProgram Dispatch) :
    s.dspAccess line o next =
      { s with comm := (o.act s.comm).2, dsp := .dispatching (next (o.act s.comm).1) } := by
  simp [dspAccess, other]

end State

section Steps

variable (line : Line) (order dspOrder : ByteOrder) (translate : ULong → U32)
  (handlers : Handlers)

/-- One step of the client in `xrp_ioctl_submit_sync`. -/
inductive HostStep (s : State) : State → Prop
  | start (rq : XrpRequest) : s.host = .idle →
    HostStep s { s with host := .filling (xrpFillHwRequest order translate rq) }
  | fill {o : CommOp} {next : o.Answer → CommProgram Unit} : s.host = .filling (.ask o next) →
    HostStep s { s with comm := (o.act s.comm).2, host := .filling (next (o.act s.comm).1) }
  | filled : s.host = .filling (.ret ()) → HostStep s { s with host := .waiting }
  | completed : s.host = .waiting → 0 < s.completion →
    HostStep s { s with host := .checking true, completion := s.completion - 1 }
  | expired : s.host = .waiting → HostStep s { s with host := .checking false }
  | found {completed : Bool} : s.host = .checking completed →
    xrpCmdComplete (s.comm DspCmd.flags) = true → HostStep s { s with host := .idle }
  | again : s.host = .checking true → xrpCmdComplete (s.comm DspCmd.flags) = false →
    HostStep s { s with host := .waiting }
  | giveUp : s.host = .checking false → xrpCmdComplete (s.comm DspCmd.flags) = false →
    HostStep s { s with host := .idle }

/-- One step of `irq_handler`. -/
inductive HandlerStep (s : State) : State → Prop
  | enter : s.handler = none →
    HandlerStep s { s with handler := some .entered, latched := false }
  | ignored : s.handler = some .entered → xrpCmdComplete (s.comm DspCmd.flags) = false →
    HandlerStep s { s with handler := none }
  | taken : s.handler = some .entered → xrpCmdComplete (s.comm DspCmd.flags) = true →
    HandlerStep s { s with handler := some .completing }
  | complete : s.handler = some .completing →
    HandlerStep s
      { s with completion := s.completion + 1, handler := some (.acknowledging line.ackIrq) }
  | acknowledge {v : U32} {left : List U32} : s.handler = some (.acknowledging (v :: left)) →
    HandlerStep s { s.writeRegister line v with handler := some (.acknowledging left) }
  | handled : s.handler = some (.acknowledging []) → HandlerStep s { s with handler := none }

/-- One step of the DSP. Memory other than the comm area and `malloc` answer anything. -/
inductive DspStep (s : State) : State → Prop
  | call (device : XrpDevice) : s.dsp = .outside →
    DspStep s { s with dsp := .dispatching (xrpDeviceDispatch dspOrder handlers device) }
  | access {o : CommOp} {next : o.Answer → DspProgram Dispatch} :
    s.dsp = .dispatching (.ask (.comm o) next) → DspStep s (s.dspAccess line o next)
  | other {o : DspOp} {next : o.Answer → DspProgram Dispatch} (r : o.Answer) :
    s.dsp = .dispatching (.ask o next) → (∀ c, o ≠ .comm c) →
    DspStep s { s with dsp := .dispatching (next r) }
  | send {v : U32} {left : List U32} {rest : DspProgram Dispatch} :
    s.dsp = .sending (v :: left) rest →
    DspStep s { s.writeRegister line v with dsp := .sending left rest }
  | sent {rest : DspProgram Dispatch} : s.dsp = .sending [] rest →
    DspStep s { s with dsp := .dispatching rest, signalled := s.answered }
  | leave {status : XrpStatus} : s.dsp = .dispatching (.ret (.status status)) →
    DspStep s { s with dsp := .outside }
  | handshake : s.dsp = .dispatching (.ret .handshake) → DspStep s { s with dsp := .handshake }

/-- One step of the system. On one processor the client does not run before the handler is
through. -/
inductive Step (s s' : State) : Prop
  | host : (line.smp = false → s.handler = none) → HostStep order translate s s' → Step s s'
  | handler : HandlerStep line s s' → Step s s'
  | dsp : DspStep line dspOrder handlers s s' → Step s s'

/-- After a successful handshake. Completions and an interrupt may be left over. -/
structure Initial (s : State) : Prop where
  idle : s.comm DspCmd.flags = syncIdle
  host : s.host = .idle
  handler : s.handler = none
  dsp : s.dsp = .outside
  counted : s.signalled = s.answered

/-- The states of all runs. -/
def Reach (s : State) : Prop :=
  ∃ s₀, Initial s₀ ∧ Relation.ReflTransGen (Step line order dspOrder translate handlers) s₀ s

end Steps

/-- The host is asleep although its request is answered and the DSP has given notice of that:
nothing but the timeout will wake it. -/
structure AsleepOnAnswer (line : Line) (s : State) : Prop where
  waiting : s.host = .waiting
  completion : s.completion = 0
  answered : Answered (s.comm DspCmd.flags)
  signalled : s.signalled = s.answered
  handler : s.handler = none
  quiet : ¬ s.Pending line

end Xrp.Exchange.HostInterrupt
