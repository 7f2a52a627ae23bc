import Xrp.Exchange.Decode

/-!
# The command exchange between host and DSP

The host submits requests one at a time under `comm_lock`: it fills the comm
area, polls the flags word, and reads the response back. The DSP calls
`xrp_device_dispatch` again and again. Their word accesses interleave in any
way. The state keeps, besides the two programs and the comm area, a record of
what happened: requests published, entries into `process_command`, words read
by either side, and the comm area at each answer of the DSP.
-/

namespace Xrp.Exchange

open Kernel Dsp

/-- Where the host is in `xrp_ioctl_submit_sync`, with the rest of the program it is in. -/
inductive HostPc : Type
  | idle
  | filling (rq : XrpRequest) (rest : CommProgram Unit)
  | polling (rq : XrpRequest)
  | completing (rq : XrpRequest) (rest : CommProgram HwResult)

/-- Where the DSP is. It does not come back from `handshake` here. -/
inductive DspPc : Type
  | waiting
  | dispatching (rest : DspProgram Dispatch)
  | handshake

/-- The state of the exchange. A record of a read is the number of the request it was made
for, the word and the value. -/
structure State : Type where
  comm : Comm
  host : HostPc
  dsp : DspPc
  phase : DspPhase
  requests : List XrpRequest
  entries : List ℕ
  dspReads : List (ℕ × ℕ × U32)
  answers : List Comm
  hostReads : List (ℕ × ℕ × U32)
  results : List HwResult

/-- The access publishes a request or completes it. -/
def WritesFlags : CommOp → Prop
  | .read _ => False
  | .write w _ => w = DspCmd.flags

instance : DecidablePred WritesFlags
  | .read _ => inferInstanceAs (Decidable False)
  | .write w _ => inferInstanceAs (Decidable (w = DspCmd.flags))

/-- The record a comm access leaves for request `k`. -/
def readRecord (k : ℕ) (m : Comm) : CommOp → List (ℕ × ℕ × U32)
  | .read w => [(k, w, m w)]
  | .write _ _ => []

/-- Operations of the DSP that are not about the comm area. -/
def Private : DspOp → Prop
  | .comm _ => False
  | .enter => False
  | _ => True

namespace State

variable (s : State)

/-- An access of the host while it fills the comm area. -/
def fill (rq : XrpRequest) (o : CommOp) (next : o.Answer → CommProgram Unit) : State :=
  { s with
    comm := (o.act s.comm).2
    host := .filling rq (next (o.act s.comm).1)
    requests := if WritesFlags o then s.requests ++ [rq] else s.requests }

/-- An access of the host while it reads the response. -/
def readBack (rq : XrpRequest) (o : CommOp) (next : o.Answer → CommProgram HwResult) : State :=
  { s with
    comm := (o.act s.comm).2
    host := .completing rq (next (o.act s.comm).1)
    hostReads := s.hostReads ++ readRecord s.results.length s.comm o }

/-- An access of the DSP to the comm area. -/
def dspAccess (o : CommOp) (next : o.Answer → DspProgram Dispatch) : State :=
  { s with
    comm := (o.act s.comm).2
    dsp := .dispatching (next (o.act s.comm).1)
    phase := if WritesFlags o then .answered else s.phase
    dspReads :=
      if s.phase = .processing then
        s.dspReads ++ readRecord (s.requests.length - 1) s.comm o
      else s.dspReads
    answers := if WritesFlags o then s.answers ++ [(o.act s.comm).2] else s.answers }

/-- The DSP enters `process_command`. -/
def enter (next : Unit → DspProgram Dispatch) : State :=
  { s with
    dsp := .dispatching (next ())
    phase := .processing
    entries := s.entries ++ [s.requests.length - 1] }

end State

section Steps

variable (order dspOrder : ByteOrder) (translate : ULong → U32) (handlers : Handlers)

/-- One step of the host. -/
inductive HostStep : State → State → Prop
  | start {s : State} (rq : XrpRequest) :
    s.host = .idle →
    HostStep s { s with host := .filling rq (xrpFillHwRequest order translate rq) }
  | fill {s : State} {rq : XrpRequest} {o : CommOp} {next : o.Answer → CommProgram Unit} :
    s.host = .filling rq (.ask o next) → HostStep s (s.fill rq o next)
  | filled {s : State} {rq : XrpRequest} :
    s.host = .filling rq (.ret ()) → HostStep s { s with host := .polling rq }
  | poll {s : State} {rq : XrpRequest} :
    s.host = .polling rq → xrpCmdComplete (s.comm DspCmd.flags) = false → HostStep s s
  | complete {s : State} {rq : XrpRequest} :
    s.host = .polling rq → xrpCmdComplete (s.comm DspCmd.flags) = true →
    HostStep s { s with host := .completing rq (xrpCompleteHwRequest order rq) }
  | readBack {s : State} {rq : XrpRequest} {o : CommOp} {next : o.Answer → CommProgram HwResult} :
    s.host = .completing rq (.ask o next) → HostStep s (s.readBack rq o next)
  | done {s : State} {rq : XrpRequest} {r : HwResult} :
    s.host = .completing rq (.ret r) →
    HostStep s { s with host := .idle, results := s.results ++ [r] }

/-- One step of the DSP. Memory other than the comm area and `malloc` answer anything; the
namespace table may change between dispatches. -/
inductive DspStep : State → State → Prop
  | call {s : State} (device : XrpDevice) :
    s.dsp = .waiting →
    DspStep s { s with dsp := .dispatching (xrpDeviceDispatch dspOrder handlers device) }
  | access {s : State} {o : CommOp} {next : o.Answer → DspProgram Dispatch} :
    s.dsp = .dispatching (.ask (.comm o) next) → DspStep s (s.dspAccess o next)
  | enter {s : State} {next : Unit → DspProgram Dispatch} :
    s.dsp = .dispatching (.ask .enter next) → DspStep s (s.enter next)
  | other {s : State} {o : DspOp} {next : o.Answer → DspProgram Dispatch} (r : o.Answer) :
    s.dsp = .dispatching (.ask o next) → Private o →
    DspStep s { s with dsp := .dispatching (next r) }
  | leave {s : State} {status : XrpStatus} :
    s.dsp = .dispatching (.ret (.status status)) →
    DspStep s { s with dsp := .waiting, phase := .outside }
  | handshake {s : State} :
    s.dsp = .dispatching (.ret .handshake) → DspStep s { s with dsp := .handshake }

/-- One step of either side. -/
inductive Step (s s' : State) : Prop
  | host : HostStep order translate s s' → Step s s'
  | dsp : DspStep dspOrder handlers s s' → Step s s'

/-- After a successful handshake: the flags word is `XRP_DSP_SYNC_IDLE`. -/
structure Initial (s : State) : Prop where
  idle : s.comm DspCmd.flags = syncIdle
  host : s.host = .idle
  dsp : s.dsp = .waiting
  phase : s.phase = .outside
  requests : s.requests = []
  entries : s.entries = []
  dspReads : s.dspReads = []
  answers : s.answers = []
  hostReads : s.hostReads = []
  results : s.results = []

/-- The states of all runs. -/
def Reach (s : State) : Prop :=
  ∃ s₀, Initial s₀ ∧ Relation.ReflTransGen (Step order dspOrder translate handlers) s₀ s

end Steps

end Xrp.Exchange
