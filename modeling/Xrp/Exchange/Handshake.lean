import Xrp.Exchange.Run

/-!
# The handshake

`xrp_synchronize` of the host and `do_handshake` of the DSP, which the DSP calls from
`xrp_device_dispatch`. They share the word in which commands have their flags, and the values they
write there overlap with flags: `XRP_DSP_SYNC_HOST_TO_DSP` alone is a request. The word accesses
interleave in any way, and the host may run out of time while it waits. What happened is recorded:
whether the host has written all its data, the calls of `xrp_hw_set_sync_data` since the start, what
they read, and the entries into `process_command`.
-/

namespace Xrp.Exchange.Handshake

open Kernel Dsp

/-- The first word of `hw_sync_data`. -/
abbrev hwSyncData : ℕ := 1

/-- Where the host is in `xrp_synchronize`. -/
inductive HostPc : Type
  | start
  | waitReady
  | writing (rest : CommProgram Unit)
  | publish
  | waitDone
  | irq
  | leave (ret : Except Errno Unit)
  | returned (ret : Except Errno Unit)

/-- Where the DSP is: in `xrp_device_dispatch` up to the call of `do_handshake`, or in that. -/
inductive DspPc : Type
  | waiting
  | dispatching (rest : DspProgram Dispatch)
  | waitStart
  | writeReady
  | poll
  | setSyncData
  | writeDone
  | irq

/-- The state of the handshake. -/
structure State : Type where
  comm : Comm
  host : HostPc
  dsp : DspPc
  written : Bool
  calls : ℕ
  reads : List (ℕ × U32)
  entered : ℕ

namespace State

variable (s : State)

/-- The sync word. -/
abbrev sync : U32 := s.comm DspCmd.flags

/-- A write of the sync word. -/
def setSync (v : U32) : State := { s with comm := Function.update s.comm DspCmd.flags v }

theorem setSync_sync (v : U32) : (s.setSync v).sync = v := by
  unfold setSync
  exact Function.update_self DspCmd.flags v s.comm

end State

section Steps

variable (order dspOrder : ByteOrder) (handlers : Handlers) (data : List U8)

/-- One step of the host, which has `data` for the DSP. -/
inductive HostStep (s : State) : State → Prop
  | noData : s.host = .start → HostStep s { s with host := .leave (.error .enomem) }
  | start : s.host = .start →
    HostStep s { s.setSync syncStart with host := .waitReady, calls := 0 }
  | notReady : s.host = .waitReady → s.sync ≠ syncDspReady → HostStep s s
  | ready : s.host = .waitReady → s.sync = syncDspReady →
    HostStep s { s with host := .writing (xrpCommWrite hwSyncData (order.words data)) }
  | timeoutReady : s.host = .waitReady → s.sync ≠ syncDspReady →
    HostStep s { s with host := .leave (.error .enodev) }
  | write {o : CommOp} {next : o.Answer → CommProgram Unit} : s.host = .writing (.ask o next) →
    HostStep s { s with comm := (o.act s.comm).2, host := .writing (next (o.act s.comm).1) }
  | written : s.host = .writing (.ret ()) →
    HostStep s { s with host := .publish, written := true }
  | publish : s.host = .publish →
    HostStep s { s.setSync syncHostToDsp with host := .waitDone }
  | notDone : s.host = .waitDone → s.sync ≠ syncDspToHost → HostStep s s
  | done : s.host = .waitDone → s.sync = syncDspToHost → HostStep s { s with host := .irq }
  | timeoutDone : s.host = .waitDone → s.sync ≠ syncDspToHost →
    HostStep s { s with host := .leave (.error .enodev) }
  | irq (delivered : Bool) : s.host = .irq →
    HostStep s { s with host := .leave (if delivered then .ok () else .error .enodev) }
  | leave {ret : Except Errno Unit} : s.host = .leave ret →
    HostStep s { s.setSync syncIdle with host := .returned ret }

/-- One step of the DSP. `xrp_hw_set_sync_data` reads what it likes of the data. -/
inductive DspStep (s : State) : State → Prop
  | call (device : XrpDevice) : s.dsp = .waiting →
    DspStep s { s with dsp := .dispatching (xrpDeviceDispatch dspOrder handlers device) }
  | access {o : CommOp} {next : o.Answer → DspProgram Dispatch} :
    s.dsp = .dispatching (.ask (.comm o) next) →
    DspStep s { s with comm := (o.act s.comm).2, dsp := .dispatching (next (o.act s.comm).1) }
  | enter {next : Unit → DspProgram Dispatch} : s.dsp = .dispatching (.ask .enter next) →
    DspStep s { s with dsp := .dispatching (next ()), entered := s.entered + 1 }
  | other {o : DspOp} {next : o.Answer → DspProgram Dispatch} (r : o.Answer) :
    s.dsp = .dispatching (.ask o next) → Private o →
    DspStep s { s with dsp := .dispatching (next r) }
  | leave {status : XrpStatus} : s.dsp = .dispatching (.ret (.status status)) →
    DspStep s { s with dsp := .waiting }
  | handshake : s.dsp = .dispatching (.ret .handshake) → DspStep s { s with dsp := .waitStart }
  | notStarted : s.dsp = .waitStart → s.sync ≠ syncStart → DspStep s s
  | started : s.dsp = .waitStart → s.sync = syncStart → DspStep s { s with dsp := .writeReady }
  | writeReady : s.dsp = .writeReady → DspStep s { s.setSync syncDspReady with dsp := .poll }
  | again : s.dsp = .poll → s.sync = syncDspReady → DspStep s s
  | giveUp : s.dsp = .poll → s.sync ≠ syncHostToDsp → s.sync ≠ syncDspReady →
    DspStep s { s with dsp := .waiting }
  | callSet : s.dsp = .poll → s.sync = syncHostToDsp →
    DspStep s { s with dsp := .setSyncData, calls := s.calls + 1 }
  | read (i : ℕ) : s.dsp = .setSyncData →
    DspStep s { s with reads := s.reads ++ [(i, s.comm (hwSyncData + i))] }
  | set : s.dsp = .setSyncData → DspStep s { s with dsp := .writeDone }
  | writeDone : s.dsp = .writeDone → DspStep s { s.setSync syncDspToHost with dsp := .irq }
  | irq : s.dsp = .irq → DspStep s { s with dsp := .waiting }

/-- One step of either side. -/
inductive Step (s s' : State) : Prop
  | host : HostStep order data s s' → Step s s'
  | dsp : DspStep dspOrder handlers s s' → Step s s'

end Steps

/-- Before `xrp_synchronize`: the sync word is `XRP_DSP_SYNC_IDLE`. -/
structure Initial (s : State) : Prop where
  idle : s.sync = syncIdle
  host : s.host = .start
  dsp : s.dsp = .waiting
  written : s.written = false
  calls : s.calls = 0
  reads : s.reads = []
  entered : s.entered = 0

section Runs

variable (order dspOrder : ByteOrder) (handlers : Handlers) (data : List U8)

/-- The states of all runs. -/
def Reach (s : State) : Prop :=
  ∃ s₀, Initial s₀ ∧ Relation.ReflTransGen (Step order dspOrder handlers data) s₀ s

end Runs

/-! ## What holds in every run -/

/-- The values of the sync word in a handshake. -/
def SyncValue (v : U32) : Prop :=
  v ∈ [syncIdle, syncStart, syncDspReady, syncHostToDsp, syncDspToHost]

instance (v : U32) : Decidable (SyncValue v) := inferInstanceAs (Decidable (_ ∈ _))

/-- The host is between seeing the DSP ready and publishing its data. -/
def HostPc.handing : HostPc → Bool
  | writing _ => true
  | publish => true
  | _ => false

/-- The host may be here while its data is published. -/
def HostPc.published : HostPc → Bool
  | waitDone => true
  | leave (.error _) => true
  | _ => false

/-- The host has seen that the DSP has its data. -/
def HostPc.succeeded : HostPc → Bool
  | irq => true
  | leave (.ok _) => true
  | returned (.ok _) => true
  | _ => false

/-- The DSP is in a handshake and has not got the data. -/
def DspPc.early : DspPc → Bool
  | dispatching (.ret .handshake) => true
  | waitStart => true
  | writeReady => true
  | poll => true
  | _ => false

/-- The DSP has got the data and has not said so. -/
def DspPc.sets : DspPc → Bool
  | setSyncData => true
  | writeDone => true
  | _ => false

section Invariant

variable (order dspOrder : ByteOrder) (handlers : Handlers) (data : List U8)

/-- The data of the host is in the comm area. -/
def Holds (comm : Comm) : Prop :=
  ∀ i v, (order.words data)[i]? = some v → comm (hwSyncData + i) = v

/-- What is left of the data to write is behind the sync word, and the rest is there. -/
def Fills (comm : Comm) (rest : CommProgram Unit) : Prop :=
  ∃ w vs, hwSyncData ≤ w ∧ rest = xrpCommWrite w vs ∧ Holds order data (rest.run CommOp.act comm).2

/-- The DSP does not get past the choice in `xrp_device_dispatch`. -/
def Dispatches (rest : DspProgram Dispatch) : Prop :=
  (∃ device, rest = xrpDeviceDispatch dspOrder handlers device) ∨
    rest = .ret (.status .pending) ∨ rest = .ret .handshake

/-- What holds in every state. -/
structure Inv (s : State) : Prop where
  sync : SyncValue s.sync
  dispatch : ∀ rest, s.dsp = .dispatching rest → Dispatches dspOrder handlers rest
  before : s.host = .start → s.dsp.sets = false
  ready : s.sync = syncDspReady → s.dsp = .poll
  handing : s.host.handing = true → s.sync = syncDspReady
  published : s.sync = syncHostToDsp →
    s.host.published = true ∧ (s.dsp = .poll ∨ s.dsp.sets = true)
  fresh : s.sync = syncStart ∨ s.dsp.early = true → s.calls = 0
  once : s.sync = syncDspToHost ∨ s.dsp.sets = true ∨ s.host.succeeded = true → s.calls = 1
  fills : ∀ rest, s.host = .writing rest → Fills order data s.comm rest
  holds : s.sync = syncHostToDsp ∨ s.dsp = .setSyncData ∨ s.host = .publish →
    s.written = true ∧ Holds order data s.comm
  reads : ∀ i v v', (i, v) ∈ s.reads → (order.words data)[i]? = some v' → v = v'
  entered : s.entered = 0

end Invariant

section Preserved

variable {order dspOrder : ByteOrder} {handlers : Handlers} {data : List U8} {s s' : State}

theorem Initial.inv (initial : Initial s) : Inv order dspOrder handlers data s where
  sync := (congrArg SyncValue initial.idle).mpr (by decide)
  dispatch _ at_ := by simp [initial.dsp] at at_
  before _ := by rw [initial.dsp]; rfl
  ready same := absurd (initial.idle.symm.trans same) (by decide)
  handing handing := by simp [initial.host, HostPc.handing] at handing
  published same := absurd (initial.idle.symm.trans same) (by decide)
  fresh _ := initial.calls
  once some := by
    rw [initial.idle, initial.dsp, initial.host] at some
    exact absurd some (by decide)
  fills _ at_ := by simp [initial.host] at at_
  holds some := by
    rw [initial.idle, initial.dsp, initial.host] at some
    simp [show syncIdle ≠ syncHostToDsp by decide] at some
  reads := by simp [initial.reads]
  entered := initial.entered

/-! ### Writes of the data -/

theorem sync_lt : DspCmd.flags < hwSyncData := by decide

theorem run_xrpCommWrite_below {w j : ℕ} (below : j < w) (vs : List U32) (comm : Comm) :
    ((xrpCommWrite w vs).run CommOp.act comm).2 j = comm j := by
  induction vs generalizing w comm with
  | nil => rfl
  | cons v vs ih =>
    refine (ih (by omega) _).trans ?_
    exact Function.update_of_ne below.ne _ _

theorem run_xrpCommWrite_getElem {w i : ℕ} {vs : List U32} {v : U32} (get : vs[i]? = some v)
    (comm : Comm) : ((xrpCommWrite w vs).run CommOp.act comm).2 (w + i) = v := by
  induction vs generalizing w i comm with
  | nil => simp at get
  | cons u vs ih =>
    cases i with
    | zero =>
      have first : u = v := by simpa using get
      refine (run_xrpCommWrite_below (Nat.lt_succ_self w) vs _).trans ?_
      rw [← first]
      exact Function.update_self _ _ _
    | succ i =>
      have later : vs[i]? = some v := by simpa using get
      have index : w + (i + 1) = w + 1 + i := by omega
      rw [index]
      exact ih later _

/-- The writes of the data start with all of it. -/
theorem fills_start (comm : Comm) :
    Fills order data comm (xrpCommWrite hwSyncData (order.words data)) :=
  ⟨hwSyncData, order.words data, le_rfl, rfl, fun _ _ get => run_xrpCommWrite_getElem get comm⟩

/-- A write of the data leaves the sync word, and the rest is as before. -/
theorem Fills.step {comm : Comm} {o : CommOp} {next : o.Answer → CommProgram Unit}
    (fills : Fills order data comm (.ask o next)) :
    (o.act comm).2 DspCmd.flags = comm DspCmd.flags ∧
      Fills order data (o.act comm).2 (next (o.act comm).1) := by
  rcases fills with ⟨w, vs, behind, rest, holds⟩
  cases vs with
  | nil => cases rest
  | cons v vs =>
    cases rest
    have apart : DspCmd.flags < w := Nat.lt_of_lt_of_le sync_lt behind
    exact ⟨Function.update_of_ne apart.ne _ _, w + 1, vs, by omega, rfl, holds⟩

theorem Fills.done {comm : Comm} (fills : Fills order data comm (.ret ())) :
    Holds order data comm := by
  rcases fills with ⟨_, _, _, _, holds⟩
  exact holds

theorem Holds.setSync (holds : Holds order data s.comm) (v : U32) :
    Holds order data (s.setSync v).comm := by
  intro i u get
  rw [← holds i u get]
  have apart : DspCmd.flags < hwSyncData + i := Nat.lt_add_right i sync_lt
  exact Function.update_of_ne apart.ne' _ _

/-! ### Steps -/

/-- The host moves on without a write. -/
theorem Inv.hostMove (inv : Inv order dspOrder handlers data s) (pc : HostPc)
    (before : pc ≠ .start) (handing : pc.handing = true → s.sync = syncDspReady)
    (published : s.sync = syncHostToDsp → pc.published = true)
    (succeeded : pc.succeeded = true → s.calls = 1)
    (fills : ∀ rest, pc = .writing rest → Fills order data s.comm rest)
    (unpublished : pc ≠ .publish) :
    Inv order dspOrder handlers data { s with host := pc } where
  sync := inv.sync
  dispatch := inv.dispatch
  before same := absurd same before
  ready := inv.ready
  handing := handing
  published same := ⟨published same, (inv.published same).2⟩
  fresh := inv.fresh
  once some := by
    rcases some with answered | sets | ok
    · exact inv.once (.inl answered)
    · exact inv.once (.inr (.inl sets))
    · exact succeeded ok
  fills := fills
  holds some := by
    rcases some with same | sets | same
    · exact inv.holds (.inl same)
    · exact inv.holds (.inr (.inl sets))
    · exact absurd same unpublished
  reads := inv.reads
  entered := inv.entered

/-- The DSP moves on without a write. -/
theorem Inv.dspMove (inv : Inv order dspOrder handlers data s) (pc : DspPc)
    (dispatch : ∀ rest, pc = .dispatching rest → Dispatches dspOrder handlers rest)
    (ready : s.sync ≠ syncDspReady) (published : s.sync ≠ syncHostToDsp)
    (early : pc.early = true → s.calls = 0) (sets : pc.sets = false) :
    Inv order dspOrder handlers data { s with dsp := pc } where
  sync := inv.sync
  dispatch := dispatch
  before _ := sets
  ready same := absurd same ready
  handing := inv.handing
  published same := absurd same published
  fresh some := some.elim (fun same => inv.fresh (.inl same)) early
  once some := by
    rcases some with answered | set | ok
    · exact inv.once (.inl answered)
    · cases sets.symm.trans set
    · exact inv.once (.inr (.inr ok))
  fills := inv.fills
  holds some := by
    rcases some with same | same | same
    · exact absurd same published
    · subst same
      cases sets
    · exact inv.holds (.inr (.inr same))
  reads := inv.reads
  entered := inv.entered

/-- The host writes the sync word. -/
theorem Inv.hostSync (inv : Inv order dspOrder handlers data s) {v : U32} {pc : HostPc} {n : ℕ}
    (value : v = syncIdle ∨ v = syncStart ∨ v = syncHostToDsp) (before : pc ≠ .start)
    (handing : pc.handing = false)
    (published : v = syncHostToDsp → pc.published = true ∧ s.dsp = .poll ∧
      s.written = true ∧ Holds order data s.comm)
    (fresh : v = syncStart ∨ s.dsp.early = true → n = 0)
    (once : s.dsp.sets = true ∨ pc.succeeded = true → n = 1) :
    Inv order dspOrder handlers data { s.setSync v with host := pc, calls := n } := by
  have now := s.setSync_sync v
  have ready : v ≠ syncDspReady := by rcases value with rfl | rfl | rfl <;> decide
  have done : v ≠ syncDspToHost := by rcases value with rfl | rfl | rfl <;> decide
  exact
    { sync := by
        refine (congrArg SyncValue now).mpr ?_
        rcases value with rfl | rfl | rfl <;> decide
      dispatch := inv.dispatch
      before := fun same => absurd same before
      ready := fun same => absurd (now.symm.trans same) ready
      handing := fun hands => by cases handing.symm.trans hands
      published := fun same => by
        have own := published (now.symm.trans same)
        exact ⟨own.1, .inl own.2.1⟩
      fresh := fun some => fresh (some.imp_left now.symm.trans)
      once := fun some => once (some.resolve_left fun same => done (now.symm.trans same))
      fills := fun rest same => by
        subst same
        cases handing
      holds := fun some => by
        rcases some with same | sets | same
        · have own := published (now.symm.trans same)
          exact ⟨own.2.2.1, own.2.2.2.setSync v⟩
        · have held := inv.holds (.inr (.inl sets))
          exact ⟨held.1, held.2.setSync v⟩
        · subst same
          cases handing
      reads := inv.reads
      entered := inv.entered }

theorem HostStep.inv (step : HostStep order data s s') (inv : Inv order dspOrder handlers data s) :
    Inv order dspOrder handlers data s' := by
  cases step with
  | noData host => exact inv.hostMove _ nofun nofun (fun _ => rfl) nofun nofun nofun
  | start host =>
    refine inv.hostSync (.inr (.inl rfl)) nofun rfl (absurd · (by decide)) (fun _ => rfl) ?_
    intro some
    rcases some with sets | ok
    · cases (inv.before host).symm.trans sets
    · cases ok
  | notReady => exact inv
  | ready host same =>
    refine inv.hostMove _ nofun (fun _ => same) (fun other => ?_) nofun ?_ nofun
    · exact absurd (same.symm.trans other) (by decide)
    · intro rest writing
      cases writing
      exact fills_start s.comm
  | timeoutReady host same => exact inv.hostMove _ nofun nofun (fun _ => rfl) nofun nofun nofun
  | @write o next host =>
    have same : s.sync = syncDspReady := inv.handing (host ▸ rfl)
    rcases (inv.fills _ host).step with ⟨keeps, fills⟩
    have now : (o.act s.comm).2 DspCmd.flags = syncDspReady := keeps.trans same
    have polls : s.dsp = .poll := inv.ready same
    exact
      { sync := (congrArg SyncValue now).mpr (by decide)
        dispatch := inv.dispatch
        before := nofun
        ready := fun _ => polls
        handing := fun _ => now
        published := fun other => absurd (now.symm.trans other) (by decide)
        fresh := fun _ => inv.fresh (.inr (polls ▸ rfl))
        once := fun some => by
          rw [polls] at some
          rcases some with other | sets | ok
          · exact absurd (now.symm.trans other) (by decide)
          · cases sets
          · cases ok
        fills := fun rest writing => by
          cases writing
          exact fills
        holds := fun some => by
          rw [polls] at some
          rcases some with other | sets | other
          · exact absurd (now.symm.trans other) (by decide)
          · cases sets
          · cases other
        reads := inv.reads
        entered := inv.entered }
  | written host =>
    have same : s.sync = syncDspReady := inv.handing (host ▸ rfl)
    exact
      { inv with
        before := nofun
        handing := fun _ => same
        published := fun other => absurd (same.symm.trans other) (by decide)
        once := fun some => by
          rcases some with other | sets | ok
          · exact inv.once (.inl other)
          · exact inv.once (.inr (.inl sets))
          · cases ok
        fills := nofun
        holds := fun _ => ⟨rfl, (inv.fills _ host).done⟩ }
  | publish host =>
    have polls : s.dsp = .poll := inv.ready (inv.handing (host ▸ rfl))
    have fresh : s.calls = 0 := inv.fresh (.inr (polls ▸ rfl))
    refine inv.hostSync (.inr (.inr rfl)) nofun rfl
      (fun _ => ⟨rfl, polls, inv.holds (.inr (.inr host))⟩) (fun _ => fresh) ?_
    intro some
    rw [polls] at some
    rcases some with sets | ok
    · cases sets
    · cases ok
  | notDone => exact inv
  | done host same =>
    refine inv.hostMove _ nofun nofun (fun other => ?_) (fun _ => inv.once (.inl same)) nofun nofun
    exact absurd (same.symm.trans other) (by decide)
  | timeoutDone host same => exact inv.hostMove _ nofun nofun (fun _ => rfl) nofun nofun nofun
  | irq delivered host =>
    have once : s.calls = 1 := inv.once (.inr (.inr (host ▸ rfl)))
    have unpublished (same : s.sync = syncHostToDsp) : False := by
      have published := (inv.published same).1
      rw [host] at published
      cases published
    cases delivered with
    | false => exact inv.hostMove _ nofun nofun (fun _ => rfl) nofun nofun nofun
    | true =>
      exact inv.hostMove _ nofun nofun (fun same => (unpublished same).elim) (fun _ => once) nofun
        nofun
  | @leave ret host =>
    refine inv.hostSync (.inl rfl) nofun rfl (absurd · (by decide)) ?_ ?_
    · intro some
      exact inv.fresh (.inr (some.resolve_left (by decide)))
    · intro some
      rcases some with sets | ok
      · exact inv.once (.inr (.inl sets))
      · refine inv.once (.inr (.inr ?_))
        rw [host]
        cases ret with
        | error _ => cases ok
        | ok _ => rfl

/-! ### Steps of the DSP -/

/-- Where the DSP neither polls nor has the data, it is not its turn. -/
theorem Inv.apart (inv : Inv order dspOrder handlers data s) (poll : s.dsp ≠ .poll)
    (sets : s.dsp.sets = false) : s.sync ≠ syncDspReady ∧ s.sync ≠ syncHostToDsp := by
  constructor
  · exact fun same => poll (inv.ready same)
  · intro same
    rcases (inv.published same).2 with other | set
    · exact poll other
    · cases sets.symm.trans set

theorem Inv.dispatching (inv : Inv order dspOrder handlers data s) {rest : DspProgram Dispatch}
    (dsp : s.dsp = .dispatching rest) : s.sync ≠ syncDspReady ∧ s.sync ≠ syncHostToDsp :=
  inv.apart (dsp ▸ nofun) (dsp ▸ rfl)

/-- What `xrp_device_dispatch` does after it has read the sync word. -/
theorem Inv.dispatched (inv : Inv order dspOrder handlers data s) {rest : DspProgram Dispatch}
    (dsp : s.dsp = .dispatching rest) {device : XrpDevice} :
    (if !xrpRequestValid s.sync then pure (.status .pending)
      else if s.sync = syncStart then pure .handshake
      else Dispatch.status <$> processCommand dspOrder handlers device s.sync :
        DspProgram Dispatch) =
      if s.sync = syncStart then .ret .handshake else .ret (.status .pending) := by
  have apart := inv.dispatching dsp
  have values := inv.sync
  simp only [SyncValue, List.mem_cons, List.not_mem_nil, or_false] at values
  rcases values with same | same | same | same | same
  · rw [same]
    rfl
  · rw [same]
    rfl
  · exact absurd same apart.1
  · exact absurd same apart.2
  · rw [same]
    rfl

/-- An operation in `xrp_device_dispatch` is the read of the sync word. -/
theorem Inv.dispatch_ask (inv : Inv order dspOrder handlers data s) {o : DspOp}
    {next : o.Answer → DspProgram Dispatch} (dsp : s.dsp = .dispatching (.ask o next)) :
    ∃ device, Program.ask o next = xrpDeviceDispatch dspOrder handlers device := by
  rcases inv.dispatch _ dsp with known | pending | handshake
  · exact known
  · cases pending
  · cases handshake

theorem DspStep.inv (step : DspStep dspOrder handlers s s')
    (inv : Inv order dspOrder handlers data s) : Inv order dspOrder handlers data s' := by
  cases step with
  | call device dsp =>
    have apart := inv.apart (dsp ▸ nofun) (dsp ▸ rfl)
    refine inv.dspMove _ ?_ apart.1 apart.2 nofun rfl
    intro rest same
    cases same
    exact .inl ⟨device, rfl⟩
  | access dsp =>
    have apart := inv.dispatching dsp
    rcases inv.dispatch_ask dsp with ⟨device, known⟩
    cases known
    refine (congrArg (fun rest => Inv order dspOrder handlers data
      { s with dsp := .dispatching rest }) (inv.dispatched dsp)).mpr ?_
    split_ifs with started
    · refine inv.dspMove _ ?_ apart.1 apart.2 (fun _ => inv.fresh (.inl started)) rfl
      intro rest same
      cases same
      exact .inr (.inr rfl)
    · refine inv.dspMove _ ?_ apart.1 apart.2 nofun rfl
      intro rest same
      cases same
      exact .inr (.inl rfl)
  | enter dsp =>
    rcases inv.dispatch_ask dsp with ⟨device, known⟩
    cases known
  | other r dsp priv =>
    rcases inv.dispatch_ask dsp with ⟨device, known⟩
    cases known
    cases priv
  | leave dsp => exact inv.dspMove _ nofun (inv.dispatching dsp).1 (inv.dispatching dsp).2 nofun rfl
  | handshake dsp =>
    exact inv.dspMove _ nofun (inv.dispatching dsp).1 (inv.dispatching dsp).2
      (fun _ => inv.fresh (.inr (dsp ▸ rfl))) rfl
  | notStarted => exact inv
  | started dsp same =>
    have apart := inv.apart (dsp ▸ nofun) (dsp ▸ rfl)
    exact inv.dspMove _ nofun apart.1 apart.2 (fun _ => inv.fresh (.inl same)) rfl
  | writeReady dsp =>
    have now := s.setSync_sync syncDspReady
    have apart := inv.apart (dsp ▸ nofun) (dsp ▸ rfl)
    have fresh : s.calls = 0 := inv.fresh (.inr (dsp ▸ rfl))
    have unhanded : s.host.handing ≠ true := fun handing => apart.1 (inv.handing handing)
    exact
      { sync := (congrArg SyncValue now).mpr (by decide)
        dispatch := nofun
        before := fun _ => rfl
        ready := fun _ => rfl
        handing := fun _ => now
        published := fun other => absurd (now.symm.trans other) (by decide)
        fresh := fun _ => fresh
        once := fun some => by
          rcases some with other | sets | ok
          · exact absurd (now.symm.trans other) (by decide)
          · cases sets
          · exact inv.once (.inr (.inr ok))
        fills := fun rest same => (unhanded (same ▸ rfl)).elim
        holds := fun some => by
          rcases some with other | same | same
          · exact absurd (now.symm.trans other) (by decide)
          · cases same
          · exact (unhanded (same ▸ rfl)).elim
        reads := inv.reads
        entered := inv.entered }
  | again => exact inv
  | giveUp dsp published ready => exact inv.dspMove _ nofun ready published nofun rfl
  | callSet dsp same =>
    have fresh : s.calls = 0 := inv.fresh (.inr (dsp ▸ rfl))
    have published := (inv.published same).1
    exact
      { inv with
        dispatch := nofun
        before := fun start => by
          rw [start] at published
          cases published
        ready := fun other => absurd (same.symm.trans other) (by decide)
        published := fun _ => ⟨published, .inr rfl⟩
        fresh := fun some => by
          rcases some with other | early
          · exact absurd (same.symm.trans other) (by decide)
          · cases early
        once := fun _ => congrArg (· + 1) fresh
        holds := fun _ => inv.holds (.inl same) }
  | read i dsp =>
    refine { inv with reads := ?_ }
    intro j v v' member get
    rcases List.mem_append.mp member with old | new
    · exact inv.reads j v v' old get
    · cases List.mem_singleton.mp new
      exact (inv.holds (.inr (.inl dsp))).2 i v' get
  | set dsp =>
    have once : s.calls = 1 := inv.once (.inr (.inl (dsp ▸ rfl)))
    exact
      { inv with
        dispatch := nofun
        before := fun start => by
          have sets := inv.before start
          rw [dsp] at sets
          cases sets
        ready := fun other => by cases dsp.symm.trans (inv.ready other)
        published := fun same => ⟨(inv.published same).1, .inr rfl⟩
        fresh := fun some => by
          rcases some with other | early
          · exact inv.fresh (.inl other)
          · cases early
        once := fun _ => once
        holds := fun _ => inv.holds (.inr (.inl dsp)) }
  | writeDone dsp =>
    have now := s.setSync_sync syncDspToHost
    have once : s.calls = 1 := inv.once (.inr (.inl (dsp ▸ rfl)))
    have unhanded : s.host.handing ≠ true := fun handing => by
      cases dsp.symm.trans (inv.ready (inv.handing handing))
    exact
      { sync := (congrArg SyncValue now).mpr (by decide)
        dispatch := nofun
        before := fun _ => rfl
        ready := fun other => absurd (now.symm.trans other) (by decide)
        handing := fun handing => (unhanded handing).elim
        published := fun other => absurd (now.symm.trans other) (by decide)
        fresh := fun some => by
          rcases some with other | early
          · exact absurd (now.symm.trans other) (by decide)
          · cases early
        once := fun _ => once
        fills := fun rest same => (unhanded (same ▸ rfl)).elim
        holds := fun some => by
          rcases some with other | same | same
          · exact absurd (now.symm.trans other) (by decide)
          · cases same
          · exact (unhanded (same ▸ rfl)).elim
        reads := inv.reads
        entered := inv.entered }
  | irq dsp =>
    have apart := inv.apart (dsp ▸ nofun) (dsp ▸ rfl)
    exact inv.dspMove _ nofun apart.1 apart.2 nofun rfl

/-- The DSP sees that the host has started. -/
theorem DspStep.seen {device : XrpDevice}
    (dsp : s.dsp = .dispatching (xrpDeviceDispatch dspOrder handlers device))
    (same : s.sync = syncStart) :
    DspStep dspOrder handlers s { s with dsp := .dispatching (.ret .handshake) } := by
  have chosen : (if !xrpRequestValid s.sync then pure (.status .pending)
      else if s.sync = syncStart then pure .handshake
      else Dispatch.status <$> processCommand dspOrder handlers device s.sync :
        DspProgram Dispatch) = .ret .handshake := by
    rw [same]
    rfl
  exact (congrArg (fun rest => DspStep dspOrder handlers s { s with dsp := .dispatching rest })
    chosen).mp (.access dsp)

theorem Reach.host (reach : Reach order dspOrder handlers data s)
    (step : HostStep order data s s') : Reach order dspOrder handlers data s' := by
  rcases reach with ⟨s₀, initial, run⟩
  exact ⟨s₀, initial, run.tail (.host step)⟩

theorem Reach.dsp (reach : Reach order dspOrder handlers data s)
    (step : DspStep dspOrder handlers s s') : Reach order dspOrder handlers data s' := by
  rcases reach with ⟨s₀, initial, run⟩
  exact ⟨s₀, initial, run.tail (.dsp step)⟩

theorem Reach.inv (reach : Reach order dspOrder handlers data s) :
    Inv order dspOrder handlers data s := by
  rcases reach with ⟨s₀, initial, run⟩
  induction run with
  | refl => exact initial.inv
  | tail _ step ih =>
    cases step with
    | host step => exact step.inv ih
    | dsp step => exact step.inv ih

/-- In every run: where `xrp_hw_set_sync_data` is called the host has written its data, and the
data is in the comm area; what is read is the data; when `xrp_synchronize` has returned 0, there was
one call since the start; and the DSP does not enter `process_command`. -/
theorem reach_agreement (reach : Reach order dspOrder handlers data s) :
    (s.dsp = .setSyncData → s.written = true ∧
      ∀ i v, (order.words data)[i]? = some v → s.comm (hwSyncData + i) = v) ∧
    (∀ i v v', (i, v) ∈ s.reads → (order.words data)[i]? = some v' → v = v') ∧
    (s.host = .returned (.ok ()) → s.calls = 1) ∧
    s.entered = 0 := by
  have inv := reach.inv
  refine ⟨fun sets => inv.holds (.inr (.inl sets)), inv.reads, fun host => ?_, inv.entered⟩
  exact inv.once (.inr (.inr (host ▸ rfl)))

end Preserved

/-- A handshake in which the DSP reads the one word of data. -/
theorem reach_agreement_success :
    ∃ s, Reach .little .little (fun _ _ => .ret .success) [1, 2, 3, 4] s ∧
      s.host = .returned (.ok ()) ∧ s.reads = [(0, 0x04030201)] ∧ s.calls = 1 := by
  let s₀ : State := ⟨fun _ => 0, .start, .waiting, false, 0, [], 0⟩
  have initial : Initial s₀ := ⟨rfl, rfl, rfl, rfl, rfl, rfl, rfl⟩
  have begun : Reach .little .little (fun _ _ => .ret .success) [1, 2, 3, 4] s₀ :=
    ⟨s₀, initial, .refl⟩
  have start := begun.host (.start rfl)
  have call := start.dsp (.call ⟨0, 0, fun _ => ⟨fun _ => 0, 0, 0⟩⟩ rfl)
  have seen := call.dsp (.seen rfl rfl)
  have handshake := seen.dsp (.handshake rfl)
  have started := handshake.dsp (.started rfl rfl)
  have polls := started.dsp (.writeReady rfl)
  have writes := polls.host (.ready rfl rfl)
  have wrote := writes.host (.write rfl)
  have written := wrote.host (.written rfl)
  have published := written.host (.publish rfl)
  have sets := published.dsp (.callSet rfl rfl)
  have read := sets.dsp (.read 0 rfl)
  have set := read.dsp (.set rfl)
  have done := set.dsp (.writeDone rfl)
  have confirmed := done.host (.done rfl rfl)
  have irq := confirmed.host (.irq true rfl)
  have returned := irq.host (.leave rfl)
  exact ⟨_, returned, rfl, rfl, (reach_agreement returned).2.2.1 rfl⟩

end Xrp.Exchange.Handshake
