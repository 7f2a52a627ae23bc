import Xrp.Kernel.Submit

/-!
# No buffer is given back while the DSP may use it

If every wait for the DSP ends by completion, or by a timeout after which the DSP
is halted and reset, then at most one request is outstanding, it is the request of
the holder of `comm_lock`, and it is over when the holder leaves. A signal, or a
timeout without reboot, breaks this.
-/

namespace Xrp.Kernel.Submit

/-! ## The DSP and the holder of the lock -/

/-- No request is outstanding, and the DSP will not take an old one. -/
structure Device.Free (d : Device) : Prop where
  outstanding : d.outstanding = ∅
  dsp : d.dsp = none
  stalled : ∀ {id}, d.comm = .request id → d.halted = true

/-- At most the request `rq` is outstanding, and the DSP can take no other. -/
structure Device.Tied (d : Device) (rq : Request) : Prop where
  outstanding : ∀ {id}, id ∈ d.outstanding → id = rq.id
  dsp : ∀ {id}, d.dsp = some id → id ∈ d.outstanding
  comm : ∀ {id}, d.comm = .request id → id = rq.id

/-- What holds before each part of `xrp_boot_firmware`. -/
def BootSound : BootStage → Device → Prop
  | .halt, _ => True
  | .reset, d => d.halted = true
  | .firmware, d => d.halted = true ∧ d.outstanding = ∅
  | .release, d => d.halted = true ∧ d.outstanding = ∅
  | .synchronize, d => ∀ id ∈ d.outstanding, d.dsp = some id
  | .syncing, d => (∀ id ∈ d.outstanding, d.dsp = some id) ∧ (d.comm = .ready → d.dsp = none)

/-- What holds of the DSP at each stage of the holder of the lock. -/
def Sound (cfg : Config) : Option Holder → Device → Prop
  | none, d => d.Free
  | some ⟨_, _, .checking⟩, d => cfg.loopback < loopbackNoio ∧ d.Free
  | some ⟨_, rq, .waiting⟩, d =>
    cfg.loopback < loopbackNoio ∧ d.Tied rq ∧ (d.comm = .answered → d.outstanding = ∅)
  | some ⟨_, rq, .rebooting stage⟩, d =>
    cfg.Halts ∧ cfg.Resets ∧ d.Tied rq ∧ BootSound stage d

section Device

variable {cfg : Config} {d d' : Device} {rq : Request}

/-- When nothing is outstanding, the DSP has nothing to work on. -/
theorem Device.Tied.dsp_eq_none (tied : d.Tied rq) (empty : d.outstanding = ∅) :
    d.dsp = none := by
  cases working : d.dsp with
  | none => rfl
  | some id =>
    have member := tied.dsp working
    simp [empty] at member

theorem Device.Tied.free (tied : d.Tied rq) (empty : d.outstanding = ∅)
    (stalled : ∀ {id}, d.comm = .request id → d.halted = true) : d.Free :=
  ⟨empty, tied.dsp_eq_none empty, stalled⟩

/-- Once the DSP completes a request nothing is outstanding. -/
theorem Device.Tied.erase_eq_empty {id : ℕ} (tied : d.Tied rq) (working : d.dsp = some id) :
    d.outstanding.erase id = ∅ := by
  have current := tied.outstanding (tied.dsp working)
  apply Finset.eq_empty_of_forall_notMem
  intro j member
  rcases Finset.mem_erase.mp member with ⟨ne, member⟩
  exact ne ((tied.outstanding member).trans current.symm)

theorem Device.Free.dspStep (free : d.Free) (step : DspStep d d') : d'.Free := by
  cases step with
  | take running idle request => simp [free.stalled request] at running
  | complete running working => simp [free.dsp] at working
  | handshake running idle start => exact ⟨free.outstanding, idle, by simp⟩

theorem Device.Tied.dspStep (tied : d.Tied rq) (step : DspStep d d') : d'.Tied rq := by
  cases step with
  | @take id running idle request =>
    have same := tied.comm request
    constructor
    · intro j member
      rcases Finset.mem_insert.mp member with rfl | member
      · exact same
      · exact tied.outstanding member
    · intro j working
      exact Finset.mem_insert.mpr (.inl (Option.some.inj working).symm)
    · exact tied.comm
  | complete running working =>
    constructor
    · intro j member
      exact tied.outstanding (Finset.mem_of_mem_erase member)
    · simp
    · simp
  | handshake running idle start => exact ⟨tied.outstanding, tied.dsp, by simp⟩

theorem BootSound.dspStep {stage : BootStage} (sound : BootSound stage d) (tied : d.Tied rq)
    (step : DspStep d d') : BootSound stage d' := by
  cases stage with
  | halt => trivial
  | reset => cases step <;> simp_all [BootSound]
  | firmware => cases step <;> simp_all [BootSound]
  | release => cases step <;> simp_all [BootSound]
  | synchronize =>
    cases step with
    | take running idle request =>
      intro j member
      rcases Finset.mem_insert.mp member with rfl | member
      · rfl
      · have working := sound j member
        simp [idle] at working
    | complete running working => simp [BootSound, tied.erase_eq_empty working]
    | handshake => exact sound
  | syncing =>
    rcases sound with ⟨used, ready⟩
    cases step with
    | take running idle request =>
      refine ⟨?_, by simp [request]⟩
      intro j member
      rcases Finset.mem_insert.mp member with rfl | member
      · rfl
      · have working := used j member
        simp [idle] at working
    | complete running working => simp [BootSound, tied.erase_eq_empty working]
    | handshake running idle start => exact ⟨used, fun _ => idle⟩

/-- The DSP never leaves the request of the holder. -/
theorem Sound.dspStep {holder : Option Holder} (sound : Sound cfg holder d) (step : DspStep d d') :
    Sound cfg holder d' := by
  rcases holder with _ | ⟨c, rq, stage⟩
  · exact Device.Free.dspStep sound step
  cases stage with
  | checking => exact ⟨sound.1, sound.2.dspStep step⟩
  | waiting =>
    rcases sound with ⟨normal, tied, answered⟩
    refine ⟨normal, tied.dspStep step, ?_⟩
    cases step with
    | take running idle request => simp [request]
    | complete running working => exact fun _ => tied.erase_eq_empty working
    | handshake => simp
  | rebooting stage =>
    rcases sound with ⟨halts, resets, tied, boot⟩
    exact ⟨halts, resets, tied.dspStep step, boot.dspStep tied step⟩

/-- Each part of `xrp_boot_firmware` prepares the next. -/
theorem Sound.bootStep {c : ℕ} {stage stage' : BootStage}
    (sound : Sound cfg (some ⟨c, rq, .rebooting stage⟩) d) (step : BootStep cfg stage stage' d d') :
    Sound cfg (some ⟨c, rq, .rebooting stage'⟩) d' := by
  rcases sound with ⟨halts, resets, tied, boot⟩
  cases step with
  | halt =>
    exact ⟨halts, resets, ⟨tied.outstanding, tied.dsp, tied.comm⟩, by simp [BootSound, halts]⟩
  | reset =>
    have halted : d.halted = true := boot
    refine ⟨halts, resets, ⟨?_, ?_, tied.comm⟩, halted, ?_⟩
    · simp [halted, resets]
    · simp [resets]
    · simp [halted, resets]
  | firmware =>
    refine ⟨halts, resets, ⟨tied.outstanding, tied.dsp, ?_⟩, boot⟩
    intro id request
    cases named : cfg.firmwareName with
    | true => simp [named] at request
    | false => exact tied.comm (by simpa [named] using request)
  | release =>
    refine ⟨halts, resets, ⟨tied.outstanding, tied.dsp, tied.comm⟩, ?_⟩
    simp [BootSound, boot.2]
  | start => exact ⟨halts, resets, ⟨tied.outstanding, tied.dsp, by simp⟩, boot, by simp⟩

/-- Only the request of the holder is outstanding. -/
theorem Sound.not_outstanding {holder : Option Holder} {id : ℕ} (sound : Sound cfg holder d)
    (other : ∀ h, holder = some h → h.rq.id ≠ id) : id ∉ d.outstanding := by
  intro member
  rcases holder with _ | ⟨c, rq, stage⟩
  · simp [sound.outstanding] at member
  cases stage with
  | checking => simp [sound.2.outstanding] at member
  | waiting => exact other _ rfl (sound.2.1.outstanding member).symm
  | rebooting stage => exact other _ rfl (sound.2.2.1.outstanding member).symm

end Device

/-! ## Whose request it is -/

/-- The request a client has outside the lock. -/
def ClientPc.request : ClientPc → Option Request
  | .mapped rq => some rq
  | .unmapping rq _ => some rq
  | _ => none

/-- The number of the request of a client (`some c`) or of the holder of the lock (`none`). -/
def State.idOf (s : State) : Option ℕ → Option ℕ
  | none => s.commLock.map (·.rq.id)
  | some c => (s.pc c).request.map (·.id)

/-- Requests have different numbers. -/
structure Distinct (s : State) : Prop where
  fresh : ∀ {o id}, s.idOf o = some id → id < s.nextId
  injective : ∀ {o o' id}, s.idOf o = some id → s.idOf o' = some id → o = o'

/-- Requests change hands, or are dropped. -/
def Moves (s s' : State) : Prop :=
  s'.nextId = s.nextId ∧ ∃ g : Option ℕ → Option ℕ, Function.Injective g ∧
    ∀ o id, s'.idOf o = some id → s.idOf (g o) = some id

/-- The DSP is off and stalled; requests it may not have finished belong to nobody. -/
structure Shut (s : State) : Prop where
  holder : ∀ {h}, s.commLock = some h → h.stage = .checking
  halted : s.device.halted = true
  fresh : ∀ {id}, id ∈ s.device.outstanding → id < s.nextId
  leaked : ∀ {id}, id ∈ s.device.outstanding → ∀ o, s.idOf o ≠ some id

section Moves

variable {s s' : State}

theorem Distinct.moves (distinct : Distinct s) (moves : Moves s s') : Distinct s' := by
  rcases moves with ⟨next, g, injective, from_old⟩
  constructor
  · intro o id found
    rw [next]
    exact distinct.fresh (from_old o id found)
  · intro o o' id found found'
    exact injective (distinct.injective (from_old o id found) (from_old o' id found'))

theorem Shut.moves (shut : Shut s) (moves : Moves s s') (device : s'.device = s.device)
    (holder : ∀ {h}, s'.commLock = some h → h.stage = .checking) : Shut s' := by
  rcases moves with ⟨next, g, -, from_old⟩
  refine ⟨holder, device ▸ shut.halted, ?_, ?_⟩
  · intro id member
    rw [next]
    exact shut.fresh (device ▸ member)
  · intro id member o found
    exact shut.leaked (device ▸ member) (g o) (from_old o id found)

/-- A client that keeps its request or drops it. -/
theorem Moves.keep {c : ℕ} {pc : ClientPc} {released : List (ℕ × Share × Bool)}
    (kept : ∀ rq, pc.request = some rq → (s.pc c).request = some rq) :
    Moves s { s with pc := Function.update s.pc c pc, released := released } := by
  refine ⟨rfl, id, Function.injective_id, ?_⟩
  intro o id found
  rcases o with _ | d
  · exact found
  · by_cases same : d = c
    · subst same
      simp only [State.idOf, Function.update_self, Option.map_eq_some_iff] at found
      rcases found with ⟨rq, at_c, rfl⟩
      simp [State.idOf, kept rq at_c]
    · simpa [State.idOf, same] using found

/-- A client that leaves the lock takes its request with it, or drops it. -/
theorem Moves.unlock {c : ℕ} {rq : Request} {stage : LockStage} {pc : ClientPc} {off : Bool}
    {device : Device} (holds : s.commLock = some ⟨c, rq, stage⟩)
    (own : ∀ rq', pc.request = some rq' → rq' = rq) :
    Moves s ({ s with off := off, device := device }.unlock c pc) := by
  refine ⟨rfl, Equiv.swap none (some c), Equiv.injective _, ?_⟩
  intro o id found
  rcases o with _ | d
  · simp [State.idOf, State.unlock] at found
  · by_cases same : d = c
    · subst same
      simp only [State.idOf, State.unlock, Function.update_self, Option.map_eq_some_iff] at found
      rcases found with ⟨rq', at_c, rfl⟩
      simp [State.idOf, holds, own rq' at_c]
    · have fixed : Equiv.swap none (some c) (some d) = some d :=
        Equiv.swap_apply_of_ne_of_ne (by simp) (by simpa using same)
      rw [fixed]
      simpa [State.idOf, State.unlock, same] using found

theorem Moves.lock {c : ℕ} {rq : Request} {stage : LockStage} (mapped : s.pc c = .mapped rq) :
    Moves s { s with
      commLock := some ⟨c, rq, stage⟩, pc := Function.update s.pc c .inside } := by
  refine ⟨rfl, Equiv.swap none (some c), Equiv.injective _, ?_⟩
  intro o id found
  rcases o with _ | d
  · simpa [State.idOf, mapped, ClientPc.request] using found
  · by_cases same : d = c
    · subst same
      simp [State.idOf, ClientPc.request] at found
    · have fixed : Equiv.swap none (some c) (some d) = some d :=
        Equiv.swap_apply_of_ne_of_ne (by simp) (by simpa using same)
      rw [fixed]
      simpa [State.idOf, same] using found

/-- The holder goes on with its request. -/
theorem Moves.hold {c : ℕ} {rq : Request} {stage stage' : LockStage} {device : Device}
    (holds : s.commLock = some ⟨c, rq, stage⟩) :
    Moves s { s with commLock := some ⟨c, rq, stage'⟩, device := device } := by
  refine ⟨rfl, id, Function.injective_id, ?_⟩
  intro o id found
  rcases o with _ | d
  · simpa [State.idOf, holds] using found
  · exact found

/-- After a submission each number is an old one, or the new one of the client. -/
theorem idOf_submit {c : ℕ} {rq : Request} {o : Option ℕ} {id : ℕ} (new : rq.id = s.nextId)
    (found : ({ s with
      nextId := s.nextId + 1
      pc := Function.update s.pc c (.mapped rq) } : State).idOf o = some id) :
    (o ≠ some c ∧ s.idOf o = some id) ∨ (o = some c ∧ id = s.nextId) := by
  rcases o with _ | d
  · exact .inl ⟨by simp, found⟩
  · by_cases same : d = c
    · subst same
      have own : rq.id = id := by simpa [State.idOf, ClientPc.request] using found
      exact .inr ⟨rfl, own.symm.trans new⟩
    · exact .inl ⟨by simpa using same, by simpa [State.idOf, same] using found⟩

theorem Distinct.submit {c : ℕ} {rq : Request} (distinct : Distinct s) (new : rq.id = s.nextId) :
    Distinct { s with nextId := s.nextId + 1, pc := Function.update s.pc c (.mapped rq) } := by
  constructor
  · intro o id found
    rcases idOf_submit new found with ⟨-, old⟩ | ⟨-, rfl⟩
    · exact (distinct.fresh old).trans (Nat.lt_succ_self _)
    · exact Nat.lt_succ_self _
  · intro o o' id found found'
    rcases idOf_submit new found with ⟨-, old⟩ | ⟨mine, own⟩
    · rcases idOf_submit new found' with ⟨-, old'⟩ | ⟨-, own'⟩
      · exact distinct.injective old old'
      · exact absurd (distinct.fresh old) (by omega)
    · rcases idOf_submit new found' with ⟨-, old'⟩ | ⟨mine', -⟩
      · exact absurd (distinct.fresh old') (by omega)
      · exact mine.trans mine'.symm

theorem Shut.submit {c : ℕ} {rq : Request} (shut : Shut s) (new : rq.id = s.nextId) :
    Shut { s with nextId := s.nextId + 1, pc := Function.update s.pc c (.mapped rq) } := by
  refine ⟨shut.holder, shut.halted, ?_, ?_⟩
  · intro id member
    exact (shut.fresh member).trans (Nat.lt_succ_self _)
  · intro id member o found
    rcases idOf_submit new found with ⟨-, old⟩ | ⟨-, own⟩
    · exact shut.leaked member o old
    · exact absurd (shut.fresh member) (by omega)

end Moves

/-! ## Runs -/

section Runs

variable {cfg : Config} {s s' : State} {e : Event}

theorem Moves.of_device {device : Device} : Moves s { s with device := device } :=
  ⟨rfl, id, Function.injective_id, fun o id found => by cases o <;> exact found⟩

theorem Step.distinct (step : Step cfg e s s') (distinct : Distinct s) : Distinct s' := by
  cases step with
  | submit c inDataSize outDataSize nBuffers idle => exact distinct.submit rfl
  | loopback mapped => exact distinct.moves (.keep (by simp [ClientPc.request, mapped]))
  | lock mapped => exact distinct.moves (.lock mapped)
  | off holds => exact distinct.moves (.unlock holds (by simp [ClientPc.request]))
  | publish holds => exact distinct.moves (.hold holds)
  | complete deliveryFail holds =>
    exact distinct.moves (.unlock holds (by simp [ClientPc.request]))
  | timeout holds => exact distinct.moves (.unlock holds (by simp [ClientPc.request]))
  | reboot holds => exact distinct.moves (.hold holds)
  | signal holds => exact distinct.moves (.unlock holds (by simp [ClientPc.request]))
  | boot holds => exact distinct.moves (.hold holds)
  | firmwareFails holds =>
    refine distinct.moves (.unlock holds ?_)
    split_ifs <;> simp [ClientPc.request]
  | synchronized holds => exact distinct.moves (.unlock holds (by simp [ClientPc.request]))
  | synchronizeFails holds => exact distinct.moves (.unlock holds (by simp [ClientPc.request]))
  | release unmapping => exact distinct.moves (.keep (by simp [ClientPc.request, unmapping]))
  | leave unmapping => exact distinct.moves (.keep (by simp [ClientPc.request]))
  | dsp step => exact distinct.moves .of_device

/-- Once it is shut, the device stays shut. -/
theorem Step.shut (step : Step cfg e s s') (off : s.off = true) (shut : Shut s) :
    s'.off = true ∧ Shut s' := by
  have only : ∀ {c rq stage}, s.commLock = some ⟨c, rq, stage⟩ → stage = .checking :=
    fun holds => shut.holder holds
  cases step with
  | submit c inDataSize outDataSize nBuffers idle => exact ⟨off, shut.submit rfl⟩
  | loopback mapped =>
    exact ⟨off, shut.moves (.keep (by simp [ClientPc.request, mapped])) rfl shut.holder⟩
  | lock mapped => exact ⟨off, shut.moves (.lock mapped) rfl (by simp)⟩
  | off holds =>
    exact ⟨off, shut.moves (.unlock holds (by simp [ClientPc.request])) rfl
      (by simp [State.unlock])⟩
  | publish holds running => simp [off] at running
  | complete deliveryFail holds => simpa using only holds
  | timeout holds => simpa using only holds
  | reboot holds => simpa using only holds
  | signal holds => simpa using only holds
  | boot holds => simpa using only holds
  | firmwareFails holds => simpa using only holds
  | synchronized holds => simpa using only holds
  | synchronizeFails holds => simpa using only holds
  | release unmapping =>
    exact ⟨off, shut.moves (.keep (by simp [ClientPc.request, unmapping])) rfl shut.holder⟩
  | leave unmapping => exact ⟨off, shut.moves (.keep (by simp [ClientPc.request])) rfl shut.holder⟩
  | dsp step => cases step <;> simp_all [shut.halted]

/-- Under safe waits the device stays tied to the holder of the lock, or is shut. -/
theorem Step.sound (step : Step cfg e s s') (safe : e.Safe cfg) (distinct : Distinct s)
    (running : s.off = false) (sound : Sound cfg s.commLock s.device) :
    (s'.off = false ∧ Sound cfg s'.commLock s'.device) ∨ (s'.off = true ∧ Shut s') := by
  cases step with
  | submit => exact .inl ⟨running, sound⟩
  | loopback => exact .inl ⟨running, sound⟩
  | lock mapped normal unlocked =>
    rw [unlocked] at sound
    exact .inl ⟨running, normal, sound⟩
  | off holds off => simp [off] at running
  | publish holds =>
    rw [holds] at sound
    rcases sound with ⟨normal, free⟩
    refine .inl ⟨running, normal, ⟨?_, ?_, ?_⟩, by simp⟩
    · simp [free.outstanding]
    · simp [free.dsp]
    · intro id request
      exact (CommState.request.inj request).symm
  | complete deliveryFail holds answered =>
    rw [holds] at sound
    rcases sound with ⟨normal, tied, finished⟩
    exact .inl ⟨running, tied.free (finished answered) (by simp [answered])⟩
  | timeout holds without => simp [Event.Safe, without] at safe
  | reboot holds reboots =>
    rw [holds] at sound
    rcases sound with ⟨normal, tied, finished⟩
    rcases safe with ⟨-, halt, reset⟩
    have mmio : cfg.loopback < loopbackNommio := normal.trans (by decide)
    exact .inl ⟨running, ⟨mmio, halt⟩, ⟨mmio, reset⟩, tied, trivial⟩
  | signal => exact safe.elim
  | boot holds boot =>
    rw [holds] at sound
    exact .inl ⟨running, sound.bootStep boot⟩
  | firmwareFails holds =>
    rw [holds] at sound
    rcases sound with ⟨halts, resets, tied, halted, empty⟩
    exact .inl ⟨running, tied.free empty fun _ => halted⟩
  | synchronized holds ready =>
    rw [holds] at sound
    rcases sound with ⟨halts, resets, tied, used, idle⟩
    have empty : s.device.outstanding = ∅ := by
      apply Finset.eq_empty_of_forall_notMem
      intro id member
      have working := used id member
      simp [idle ready] at working
    exact .inl ⟨running, empty, idle ready, by simp [State.unlock]⟩
  | @synchronizeFails _ c rq stage holds =>
    rw [holds] at sound
    rcases sound with ⟨halts, resets, tied, boot⟩
    have held : s.idOf none = some rq.id := by simp [State.idOf, holds]
    refine .inr ⟨rfl, by simp [State.unlock], by simp [State.unlock, halts], ?_, ?_⟩
    · intro id member
      rw [tied.outstanding member]
      exact distinct.fresh held
    · intro id member o found
      rw [tied.outstanding member] at found
      rcases o with _ | d
      · simp [State.idOf, State.unlock] at found
      · by_cases same : d = c
        · subst same
          simp [State.idOf, State.unlock, ClientPc.request] at found
        · have mine : s.idOf (some d) = some rq.id := by
            simpa [State.idOf, State.unlock, same] using found
          simpa using distinct.injective mine held
  | release => exact .inl ⟨running, sound⟩
  | leave => exact .inl ⟨running, sound⟩
  | dsp step => exact .inl ⟨running, sound.dspStep step⟩

/-- What holds in every state of a run whose waits end safely. -/
structure Inv (cfg : Config) (s : State) : Prop where
  distinct : Distinct s
  sound : s.off = false → Sound cfg s.commLock s.device
  shut : s.off = true → Shut s
  nothingEarly : NothingEarly s

/-- A client that unmaps its request finds it no longer outstanding. -/
theorem Inv.not_outstanding {c : ℕ} {rq : Request} {left : List Share} (inv : Inv cfg s)
    (unmapping : s.pc c = .unmapping rq left) : rq.id ∉ s.device.outstanding := by
  have mine : s.idOf (some c) = some rq.id := by simp [State.idOf, unmapping, ClientPc.request]
  cases off : s.off with
  | true =>
    intro member
    exact (inv.shut off).leaked member (some c) mine
  | false =>
    apply (inv.sound off).not_outstanding
    intro h holds same
    have held : s.idOf none = some rq.id := by simp [State.idOf, holds, same]
    simpa using inv.distinct.injective mine held

theorem Step.nothingEarly (step : Step cfg e s s') (inv : Inv cfg s) : NothingEarly s' := by
  have before := inv.nothingEarly
  cases step with
  | release unmapping =>
    intro entry member
    rcases List.mem_append.mp member with old | new
    · exact before entry old
    · rw [List.mem_singleton.mp new]
      exact decide_eq_false (inv.not_outstanding unmapping)
  | _ => exact before

theorem Step.inv (step : Step cfg e s s') (safe : e.Safe cfg) (inv : Inv cfg s) : Inv cfg s' := by
  have distinct := step.distinct inv.distinct
  have nothingEarly := step.nothingEarly inv
  cases off : s.off with
  | true =>
    rcases step.shut off (inv.shut off) with ⟨off', shut⟩
    exact ⟨distinct, by simp [off'], fun _ => shut, nothingEarly⟩
  | false =>
    rcases step.sound safe inv.distinct off (inv.sound off) with ⟨off', sound⟩ | ⟨off', shut⟩
    · exact ⟨distinct, fun _ => sound, by simp [off'], nothingEarly⟩
    · exact ⟨distinct, by simp [off'], fun _ => shut, nothingEarly⟩

theorem Inv.init : Inv cfg .init := by
  refine ⟨⟨?_, ?_⟩, fun _ => ⟨rfl, rfl, by simp [State.init]⟩, by simp [State.init], ?_⟩
  · intro o id found
    cases o <;> simp [State.idOf, State.init, ClientPc.request] at found
  · intro o o' id found
    cases o <;> simp [State.idOf, State.init, ClientPc.request] at found
  · simp [NothingEarly, State.init]

theorem SafeReach.other (run : SafeReach cfg s) (step : Step cfg .other s s') :
    SafeReach cfg s' :=
  .tail run ⟨.other, trivial, step⟩

theorem SafeReach.reach (run : SafeReach cfg s) : Reach cfg s :=
  Relation.ReflTransGen.mono (fun _ _ step => step.imp fun _ step => step.2) _ _ run

/-- The first request, with one buffer. -/
def firstRequest : Request := ⟨0, 0, 0, 1⟩

/-- The first client waits for the DSP, which works on its request. -/
def firstTaken : State :=
  { State.init with
    device := ⟨.request 0, some 0, false, {0}⟩
    commLock := some ⟨0, firstRequest, .waiting⟩
    nextId := 1
    pc := Function.update State.init.pc 0 .inside }

theorem firstTaken_reach (cfg : Config) (normal : cfg.loopback < loopbackNoio) :
    SafeReach cfg firstTaken := by
  have start : SafeReach cfg .init := .refl
  have submitted := start.other (.submit 0 0 0 1 rfl)
  have locked := submitted.other (.lock (c := 0) rfl normal rfl)
  have published := locked.other (.publish rfl rfl)
  have taken := published.other (.dsp (.take rfl rfl rfl))
  simpa [firstTaken, firstRequest, State.init] using taken

/-- **Nothing is given back early.** In every run in which no wait ends by a signal, and a
wait ends by a timeout only where `firmware_reboot` is set and the hardware can be halted and
reset, the host gives back no pin, reference or shadow copy of a request that the DSP may
still use. -/
theorem safeReach_nothingEarly (run : SafeReach cfg s) : NothingEarly s := by
  suffices inv : Inv cfg s from inv.nothingEarly
  induction run with
  | refl => exact .init
  | tail run step inv =>
    rcases step with ⟨e, safe, step⟩
    exact step.inv safe inv

/-- The DSP finishes the first request, and the host gives its buffer back. -/
theorem safeReach_nothingEarly_completed :
    ∃ s, SafeReach ⟨0, true, true, true, true, true, true⟩ s ∧
      s.released = [(0, .buffer 0, false)] ∧ NothingEarly s := by
  have taken := firstTaken_reach ⟨0, true, true, true, true, true, true⟩ (by decide)
  have answered := taken.other (.dsp (.complete rfl rfl))
  have completed := answered.other (.complete false rfl rfl)
  have released := completed.other (.release (c := 0) rfl)
  exact ⟨_, released, rfl, safeReach_nothingEarly released⟩

/-- An interrupted wait, or a timeout without reboot, gives the buffer back while the DSP
works on the request. -/
theorem buffer_released_early :
    (∃ s, Reach ⟨0, true, true, true, true, true, true⟩ s ∧
      s.device.dsp = some 0 ∧ s.released = [(0, .buffer 0, true)]) ∧
    (∃ s, Reach ⟨0, false, false, true, true, true, true⟩ s ∧
      s.device.dsp = some 0 ∧ s.released = [(0, .buffer 0, true)]) := by
  constructor
  · have taken := (firstTaken_reach ⟨0, true, true, true, true, true, true⟩ (by decide)).reach
    have signalled := taken.tail ⟨_, .signal rfl rfl⟩
    have released := signalled.tail ⟨_, .release (c := 0) rfl⟩
    exact ⟨_, released, rfl, rfl⟩
  · have taken := (firstTaken_reach ⟨0, false, false, true, true, true, true⟩ (by decide)).reach
    have timeout := taken.tail ⟨_, .timeout rfl rfl⟩
    have released := timeout.tail ⟨_, .release (c := 0) rfl⟩
    exact ⟨_, released, rfl, rfl⟩

end Runs

end Xrp.Kernel.Submit
