import Xrp.Interface

/-!
# Submission of requests and recovery from a stuck DSP

`xrp_ioctl_submit_sync` of any number of clients, against a DSP that takes
requests from the comm area and may never finish them. A wait for the DSP ends by
completion, by timeout or by a signal. What the host gives back afterwards, and
whether the DSP may still use it then, is recorded. The comm area is reduced to
what its flags word says.
-/

namespace Xrp.Kernel.Submit

/-! ## Requests -/

/-- Something `xrp_map_request` shares with the DSP. -/
inductive Share : Type
  | inData
  | outData
  | buffer (i : ℕ)
  | dspBuffer
  deriving DecidableEq

/-- A request, with a number that no other request has. -/
structure Request : Type where
  id : ℕ
  inDataSize : U32
  outDataSize : U32
  nBuffers : ℕ
  deriving DecidableEq

namespace Request

variable (rq : Request)

/-- The data blocks that do not fit the comm area. -/
def dataShares : List Share :=
  (if rq.inDataSize.toNat > inlineDataSize then [.inData] else []) ++
    (if rq.outDataSize.toNat > inlineDataSize then [.outData] else [])

/-- The table of buffer descriptors, unless it fits the comm area. -/
def tableShare : List Share := if rq.nBuffers > inlineBufferCount then [.dspBuffer] else []

/-- What `xrp_unmap_request` gives back, in order. -/
def xrpUnmapRequest : List Share :=
  rq.dataShares ++ rq.tableShare ++ (List.range rq.nBuffers).map .buffer

/-- What `xrp_unmap_request_nowb` gives back, in order. -/
def xrpUnmapRequestNowb : List Share :=
  rq.dataShares ++ (List.range rq.nBuffers).map .buffer ++ rq.tableShare

end Request

/-! ## The driver, its clients and the DSP -/

/-- Module parameters, and what the hardware can do (`hw_ops`). -/
structure Config : Type where
  loopback : ℕ
  firmwareReboot : Bool
  hostIrqMode : Bool
  firmwareName : Bool
  halt : Bool
  reset : Bool
  release : Bool

/-- `LOOPBACK_NOIO`. -/
def loopbackNoio : ℕ := 1

/-- `LOOPBACK_NOMMIO`. -/
def loopbackNommio : ℕ := 2

/-- `LOOPBACK_NOFIRMWARE`. -/
def loopbackNofirmware : ℕ := 3

namespace Config

variable (cfg : Config)

/-- `xrp_halt_dsp` stalls the core. -/
def Halts : Prop := cfg.loopback < loopbackNommio ∧ cfg.halt = true

/-- `xrp_reset_dsp` resets the core. -/
def Resets : Prop := cfg.loopback < loopbackNommio ∧ cfg.reset = true

/-- `xrp_release_dsp` lets the core run. -/
def Releases : Prop := cfg.loopback < loopbackNommio ∧ cfg.release = true

instance : Decidable cfg.Halts := inferInstanceAs (Decidable (_ ∧ _))
instance : Decidable cfg.Resets := inferInstanceAs (Decidable (_ ∧ _))
instance : Decidable cfg.Releases := inferInstanceAs (Decidable (_ ∧ _))

end Config

/-- The next thing `xrp_boot_firmware` does. -/
inductive BootStage : Type
  | halt
  | reset
  | firmware
  | release
  | synchronize
  | syncing
  deriving DecidableEq

/-- What the holder of `comm_lock` is doing. -/
inductive LockStage : Type
  | checking
  | waiting
  | rebooting (stage : BootStage)
  deriving DecidableEq

/-- The holder of `comm_lock`. -/
structure Holder : Type where
  client : ℕ
  rq : Request
  stage : LockStage

/-- Where a client is in `xrp_ioctl_submit_sync`; while it is `inside`, it holds `comm_lock`. -/
inductive ClientPc : Type
  | idle
  | mapped (rq : Request)
  | inside
  | unmapping (rq : Request) (left : List Share)

/-- What the flags word of the comm area says. -/
inductive CommState : Type
  | idle
  | request (id : ℕ)
  | answered
  | start
  | ready
  deriving DecidableEq

/-- The DSP: the request it works on, if it is stalled, and which requests are outstanding:
published to the DSP (or taken by it again), neither completed nor given up since by a reset
of the stalled core. -/
structure Device : Type where
  comm : CommState
  dsp : Option ℕ
  halted : Bool
  outstanding : Finset ℕ

/-- The state of the system. An entry of `released` says what was given back, and whether
its request was outstanding then. -/
structure State : Type where
  device : Device
  off : Bool
  commLock : Option Holder
  nextId : ℕ
  pc : ℕ → ClientPc
  released : List (ℕ × Share × Bool)

/-- A driver that no client has used yet. -/
def State.init : State := ⟨⟨.idle, none, false, ∅⟩, false, none, 0, fun _ => .idle, []⟩

/-- How a wait for the DSP ends, other than by completion. -/
inductive Event : Type
  | timeout
  | signal
  | other
  deriving DecidableEq

/-! ## Steps -/

/-- One step of the DSP. It takes a request whenever it runs, has none and finds one. -/
inductive DspStep : Device → Device → Prop
  | take {d : Device} {id : ℕ} :
    d.halted = false → d.dsp = none → d.comm = .request id →
    DspStep d { d with dsp := some id, outstanding := insert id d.outstanding }
  | complete {d : Device} {id : ℕ} :
    d.halted = false → d.dsp = some id →
    DspStep d { d with dsp := none, comm := .answered, outstanding := d.outstanding.erase id }
  | handshake {d : Device} :
    d.halted = false → d.dsp = none → d.comm = .start → DspStep d { d with comm := .ready }

section Steps

variable (cfg : Config)

/-- One step of `xrp_boot_firmware` that goes on to the next. -/
inductive BootStep : BootStage → BootStage → Device → Device → Prop
  | halt {d : Device} :
    BootStep .halt .reset d { d with halted := d.halted || decide cfg.Halts }
  | reset {d : Device} :
    BootStep .reset .firmware d
      { d with
        dsp := if cfg.Resets then none else d.dsp
        outstanding := if d.halted ∧ cfg.Resets then ∅ else d.outstanding }
  | firmware {d : Device} :
    BootStep .firmware .release d
      { d with comm := if cfg.firmwareName then .idle else d.comm }
  | release {d : Device} :
    BootStep .release .synchronize d { d with halted := d.halted && !decide cfg.Releases }
  | start {d : Device} : BootStep .synchronize .syncing d { d with comm := .start }

/-- A client leaves `comm_lock` and goes on with `pc`. -/
def State.unlock (s : State) (c : ℕ) (pc : ClientPc) : State :=
  { s with commLock := none, pc := Function.update s.pc c pc }

/-- One step of the system. -/
inductive Step : Event → State → State → Prop
  | submit {s : State} (c : ℕ) (inDataSize outDataSize : U32) (nBuffers : ℕ) :
    s.pc c = .idle →
    Step .other s
      { s with
        nextId := s.nextId + 1
        pc := Function.update s.pc c (.mapped ⟨s.nextId, inDataSize, outDataSize, nBuffers⟩) }
  | loopback {s : State} {c : ℕ} {rq : Request} :
    s.pc c = .mapped rq → ¬ cfg.loopback < loopbackNoio →
    Step .other s { s with pc := Function.update s.pc c (.unmapping rq rq.xrpUnmapRequest) }
  | lock {s : State} {c : ℕ} {rq : Request} :
    s.pc c = .mapped rq → cfg.loopback < loopbackNoio → s.commLock = none →
    Step .other s
      { s with commLock := some ⟨c, rq, .checking⟩, pc := Function.update s.pc c .inside }
  | off {s : State} {c : ℕ} {rq : Request} :
    s.commLock = some ⟨c, rq, .checking⟩ → s.off = true →
    Step .other s (s.unlock c (.unmapping rq rq.xrpUnmapRequestNowb))
  | publish {s : State} {c : ℕ} {rq : Request} :
    s.commLock = some ⟨c, rq, .checking⟩ → s.off = false →
    Step .other s
      { s with
        commLock := some ⟨c, rq, .waiting⟩
        device := { s.device with
          comm := .request rq.id, outstanding := insert rq.id s.device.outstanding } }
  | complete {s : State} {c : ℕ} {rq : Request} (deliveryFail : Bool) :
    s.commLock = some ⟨c, rq, .waiting⟩ → s.device.comm = .answered →
    Step .other s
      (s.unlock c (.unmapping rq
        (if deliveryFail then rq.xrpUnmapRequestNowb else rq.xrpUnmapRequest)))
  | timeout {s : State} {c : ℕ} {rq : Request} :
    s.commLock = some ⟨c, rq, .waiting⟩ → cfg.firmwareReboot = false →
    Step .timeout s (s.unlock c (.unmapping rq rq.xrpUnmapRequestNowb))
  | reboot {s : State} {c : ℕ} {rq : Request} :
    s.commLock = some ⟨c, rq, .waiting⟩ → cfg.firmwareReboot = true →
    Step .timeout s { s with commLock := some ⟨c, rq, .rebooting .halt⟩ }
  | signal {s : State} {c : ℕ} {rq : Request} :
    s.commLock = some ⟨c, rq, .waiting⟩ → cfg.hostIrqMode = true →
    Step .signal s (s.unlock c (.unmapping rq rq.xrpUnmapRequestNowb))
  | boot {s : State} {c : ℕ} {rq : Request} {stage stage' : BootStage} {d : Device} :
    s.commLock = some ⟨c, rq, .rebooting stage⟩ → BootStep cfg stage stage' s.device d →
    Step .other s { s with commLock := some ⟨c, rq, .rebooting stage'⟩, device := d }
  | firmwareFails {s : State} {c : ℕ} {rq : Request} :
    -- `xvp->off` is as it was, and `went_off` is that value
    s.commLock = some ⟨c, rq, .rebooting .firmware⟩ → cfg.firmwareName →
    cfg.loopback < loopbackNofirmware →
    Step .other s (s.unlock c (if s.off then .idle else .unmapping rq rq.xrpUnmapRequestNowb))
  | synchronized {s : State} {c : ℕ} {rq : Request} :
    s.commLock = some ⟨c, rq, .rebooting .syncing⟩ → s.device.comm = .ready →
    Step .other s
      ({ s with device := { s.device with comm := .idle } }.unlock c
        (.unmapping rq rq.xrpUnmapRequestNowb))
  | synchronizeFails {s : State} {c : ℕ} {rq : Request} {stage : BootStage} :
    s.commLock = some ⟨c, rq, .rebooting stage⟩ → stage = .synchronize ∨ stage = .syncing →
    Step .other s
      ({ s with
          off := true
          device := { s.device with
            comm := .idle, halted := s.device.halted || decide cfg.Halts } }.unlock c .idle)
  | release {s : State} {c : ℕ} {rq : Request} {share : Share} {left : List Share} :
    s.pc c = .unmapping rq (share :: left) →
    Step .other s
      { s with
        released := s.released ++ [(rq.id, share, decide (rq.id ∈ s.device.outstanding))]
        pc := Function.update s.pc c (.unmapping rq left) }
  | leave {s : State} {c : ℕ} {rq : Request} :
    s.pc c = .unmapping rq [] → Step .other s { s with pc := Function.update s.pc c .idle }
  | dsp {s : State} {d : Device} : DspStep s.device d → Step .other s { s with device := d }

/-- All runs. -/
def Reach : State → Prop :=
  Relation.ReflTransGen (fun s s' => ∃ e, Step cfg e s s') .init

/-- A wait that ends by a signal, or by a timeout without a reboot that can halt and reset the
DSP, leaves the DSP with the request. -/
def Event.Safe : Event → Prop
  | .timeout => cfg.firmwareReboot = true ∧ cfg.halt = true ∧ cfg.reset = true
  | .signal => False
  | .other => True

/-- The runs in which every wait ends safely. -/
def SafeReach : State → Prop :=
  Relation.ReflTransGen (fun s s' => ∃ e, e.Safe cfg ∧ Step cfg e s s') .init

end Steps

/-- Nothing was given back while the DSP might use it. -/
def NothingEarly (s : State) : Prop := ∀ entry ∈ s.released, entry.2.2 = false

end Xrp.Kernel.Submit
