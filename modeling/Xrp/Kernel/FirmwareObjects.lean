import Xrp.Kernel.Submit

/-!
# The firmware objects of the driver

`xvp->firmware` is written on each boot, and released where a load fails and when the device is
removed. The objects that `request_firmware` returns are numbered, and calls of
`release_firmware` are logged. What the functions of the kernel and the loader return is decided
by an environment for each boot, as are the module parameters, which may be written at any time.
-/

namespace Xrp.Kernel.FirmwareObjects

open Submit (loopbackNoio loopbackNommio loopbackNofirmware)

/-! ## The driver -/

/-- How a call of `xrp_request_firmware` ends. -/
inductive Outcome : Type
  | requestFails
  | loadFails
  | loaded
  deriving DecidableEq

/-- What of `struct xvp` matters here; `obtained` is the number of objects so far, and `released`
those that `release_firmware` was called for, in order. -/
structure Xvp : Type where
  firmwareName : Bool
  firmware : Option ℕ
  off : Bool
  obtained : ℕ
  released : List ℕ
  history : List Outcome

/-- The device after `xrp_init`; the structure is zeroed. -/
def Xvp.probed (firmwareName : Bool) : Xvp := ⟨firmwareName, none, false, 0, [], []⟩

/-- The module parameters, and what functions return. -/
structure Env : Type where
  loopback : ℕ
  enable : Except Errno Unit
  request : Except Errno Unit
  load : Except Errno Unit
  synchronize : Except Errno Unit

/-- `request_firmware`. -/
def requestFirmware (result : Except Errno Unit) (xvp : Xvp) : Xvp :=
  match result with
  | .ok () => { xvp with firmware := some xvp.obtained, obtained := xvp.obtained + 1 }
  | .error _ => { xvp with firmware := none }

/-- `release_firmware`; nothing happens for `NULL`. -/
def releaseFirmware (firmware : Option ℕ) (xvp : Xvp) : Xvp :=
  { xvp with released := xvp.released ++ firmware.toList }

/-- The outcome of a call is noted. -/
def Xvp.note (xvp : Xvp) (outcome : Outcome) : Xvp :=
  { xvp with history := xvp.history ++ [outcome] }

section Boot

variable (env : Env) (xvp : Xvp)

/-- `xrp_request_firmware`. -/
def xrpRequestFirmware : Except Errno Unit × Xvp :=
  let xvp := requestFirmware env.request xvp
  match env.request with
  | .error e => (.error e, xvp.note .requestFails)
  | .ok () =>
    match env.load with
    | .error e => (.error e, (releaseFirmware xvp.firmware xvp).note .loadFails)
    | .ok () => (.ok (), xvp.note .loaded)

/-- `xrp_boot_firmware`, where it requests firmware. -/
def bootRequest : Except Errno Unit × Xvp :=
  if xvp.firmwareName ∧ env.loopback < loopbackNofirmware then xrpRequestFirmware env xvp
  else (.ok (), xvp)

/-- `xrp_boot_firmware`. -/
def xrpBootFirmware : Except Errno Unit × Xvp :=
  match bootRequest env xvp with
  | (.error e, xvp) => (.error e, xvp)
  | (.ok (), xvp) =>
    if env.loopback < loopbackNoio then
      match env.synchronize with
      | .error e => (.error e, { xvp with off := true })
      | .ok () => (.ok (), xvp)
    else (.ok (), xvp)

/-- `xvp_enable_dsp`. -/
def xvpEnableDsp : Except Errno Unit :=
  if env.loopback < loopbackNommio then env.enable else .ok ()

/-- `xrp_runtime_resume`. -/
def xrpRuntimeResume : Except Errno Unit × Xvp :=
  if xvp.off then (.ok (), xvp)
  else
    match xvpEnableDsp env with
    | .error e => (.error e, xvp)
    | .ok () => xrpBootFirmware env xvp

/-- `xrp_ioctl_submit_sync` from where it takes `comm_lock`; `wait` is how the wait for the DSP
ends. -/
def submitSync (firmwareReboot : Bool) (wait : Except Errno Unit) : Except Errno Unit × Xvp :=
  if ¬ env.loopback < loopbackNoio then (.ok (), xvp)
  else if xvp.off then (.error .enodev, xvp)
  else
    match wait with
    | .ok () => (.ok (), xvp)
    | .error e =>
      if e = .ebusy ∧ firmwareReboot then
        match xrpBootFirmware env xvp with
        | (.ok (), xvp) => (.error e, xvp)
        | (.error e, xvp) => (.error e, xvp)
      else (.error e, xvp)

/-- `xrp_deinit`. -/
def xrpDeinit : Xvp := releaseFirmware xvp.firmware xvp

end Boot

/-- What may boot the firmware. -/
inductive Event : Type
  | resume (env : Env)
  | submit (env : Env) (firmwareReboot : Bool) (wait : Except Errno Unit)

/-- What happens then. -/
def Event.run : Event → Xvp → Xvp
  | resume env, xvp => (xrpRuntimeResume env xvp).2
  | submit env firmwareReboot wait, xvp => (submitSync env xvp firmwareReboot wait).2

/-- Any number of events, one after another. -/
def runAll (events : List Event) (xvp : Xvp) : Xvp := events.foldl (fun xvp e => e.run xvp) xvp

/-! ## What is released -/

/-- Every object was released once, and no object again. -/
structure ReleasedOnce (xvp : Xvp) : Prop where
  once : ∀ k < xvp.obtained, xvp.released.count k = 1
  nodup : xvp.released.Nodup

/-- No firmware was loaded but by the last call, and the last call did not fail to load. -/
def Balanced (history : List Outcome) : Prop :=
  .loaded ∉ history.dropLast ∧ history.getLast? ≠ some .loadFails

instance (history : List Outcome) : Decidable (Balanced history) :=
  inferInstanceAs (Decidable (_ ∧ _))

theorem balanced_append {history : List Outcome} {outcome : Outcome} :
    Balanced (history ++ [outcome]) ↔ .loaded ∉ history ∧ outcome ≠ .loadFails := by
  simp [Balanced]

/-- What the history tells of the objects. -/
structure Inv (xvp : Xvp) : Prop where
  below : ∀ k ∈ xvp.released, k < xvp.obtained
  nodup : xvp.released.Nodup
  all_iff : (∀ k < xvp.obtained, k ∈ xvp.released) ↔ .loaded ∉ xvp.history
  deinit_iff : ReleasedOnce (xrpDeinit xvp) ↔ Balanced xvp.history

section Objects

variable {xvp : Xvp} {env : Env}

theorem releasedOnce_iff : ReleasedOnce xvp ↔
    (∀ k < xvp.obtained, k ∈ xvp.released) ∧ xvp.released.Nodup := by
  constructor
  · rintro ⟨once, nodup⟩
    refine ⟨?_, nodup⟩
    intro k lt
    exact List.count_pos_iff.mp (by rw [once k lt]; exact Nat.one_pos)
  · rintro ⟨all, nodup⟩
    refine ⟨?_, nodup⟩
    intro k lt
    exact List.count_eq_one_of_mem nodup (all k lt)

theorem Inv.probed (firmwareName : Bool) : Inv (.probed firmwareName) := by
  refine ⟨by simp [Xvp.probed], by simp [Xvp.probed], by simp [Xvp.probed], ?_⟩
  rw [releasedOnce_iff]
  simp [Xvp.probed, xrpDeinit, releaseFirmware, Balanced]

theorem Inv.requestFails (inv : Inv xvp) :
    Inv (Xvp.note { xvp with firmware := none } .requestFails) := by
  have history : Outcome.loaded ∉ xvp.history ++ [.requestFails] ↔ .loaded ∉ xvp.history := by
    simp
  refine ⟨inv.below, inv.nodup, inv.all_iff.trans history.symm, ?_⟩
  rw [releasedOnce_iff, Xvp.note, balanced_append, ← inv.all_iff]
  simp [xrpDeinit, releaseFirmware, inv.nodup]

theorem Inv.fresh (inv : Inv xvp) : xvp.obtained ∉ xvp.released :=
  fun member => (inv.below _ member).ne rfl

theorem Inv.nodup_append (inv : Inv xvp) : (xvp.released ++ [xvp.obtained]).Nodup := by
  refine List.nodup_append.mpr ⟨inv.nodup, List.nodup_singleton _, ?_⟩
  rintro k member _ last rfl
  rw [List.mem_singleton.mp last] at member
  exact inv.fresh member

theorem forall_mem_append {released : List ℕ} {n : ℕ} :
    (∀ k < n + 1, k ∈ released ++ [n]) ↔ ∀ k < n, k ∈ released := by
  constructor
  · intro all k lt
    have other : k ≠ n := lt.ne
    simpa [other] using all k (by omega)
  · intro all k lt
    by_cases last : k = n
    · simp [last]
    · exact List.mem_append_left _ (all k (by omega))

theorem Inv.loadFails (inv : Inv xvp) :
    Inv (Xvp.note
      { xvp with
        firmware := some xvp.obtained
        obtained := xvp.obtained + 1
        released := xvp.released ++ [xvp.obtained] } .loadFails) := by
  have history : Outcome.loaded ∉ xvp.history ++ [.loadFails] ↔ .loaded ∉ xvp.history := by
    simp
  refine ⟨?_, inv.nodup_append, (forall_mem_append.trans inv.all_iff).trans history.symm, ?_⟩
  · intro k member
    rcases List.mem_append.mp member with old | last
    · exact Nat.lt_succ_of_lt (inv.below k old)
    · rw [List.mem_singleton.mp last]
      exact Nat.lt_succ_self _
  · -- the pointer is left as it is, and the object is released again
    refine iff_of_false ?_ ?_
    · intro released
      have nodup := released.nodup
      simp [xrpDeinit, releaseFirmware, Xvp.note, List.nodup_append] at nodup
    · rw [Xvp.note, balanced_append]
      simp

theorem Inv.loaded (inv : Inv xvp) :
    Inv (Xvp.note
      { xvp with firmware := some xvp.obtained, obtained := xvp.obtained + 1 } .loaded) := by
  refine ⟨fun k member => Nat.lt_succ_of_lt (inv.below k member), inv.nodup, ?_, ?_⟩
  · refine iff_of_false ?_ (by simp [Xvp.note])
    intro all
    exact inv.fresh (all xvp.obtained (Nat.lt_succ_self _))
  · rw [releasedOnce_iff, Xvp.note, balanced_append, ← inv.all_iff]
    change (∀ k < xvp.obtained + 1, k ∈ xvp.released ++ [xvp.obtained]) ∧
      (xvp.released ++ [xvp.obtained]).Nodup ↔ _
    rw [forall_mem_append]
    simp [inv.nodup_append]

theorem Inv.xrpRequestFirmware (inv : Inv xvp) : Inv (xrpRequestFirmware env xvp).2 := by
  unfold FirmwareObjects.xrpRequestFirmware requestFirmware
  rcases env.request with e | ⟨⟩
  · exact inv.requestFails
  · rcases env.load with e | ⟨⟩
    · exact inv.loadFails
    · exact inv.loaded

theorem Inv.setOff (inv : Inv xvp) : Inv { xvp with off := true } := by
  refine ⟨inv.below, inv.nodup, inv.all_iff, ?_⟩
  refine Iff.trans ?_ inv.deinit_iff
  rw [releasedOnce_iff, releasedOnce_iff]
  rfl

theorem Inv.xrpBootFirmware (inv : Inv xvp) : Inv (xrpBootFirmware env xvp).2 := by
  have request : Inv (bootRequest env xvp).2 := by
    unfold bootRequest
    split_ifs
    · exact inv.xrpRequestFirmware
    · exact inv
  unfold FirmwareObjects.xrpBootFirmware
  generalize bootRequest env xvp = r at request
  rcases r with ⟨e | ⟨⟩, xvp⟩
  · exact request
  · simp only
    split_ifs
    · rcases env.synchronize with e | ⟨⟩
      · exact request.setOff
      · exact request
    · exact request

theorem Inv.xrpRuntimeResume (inv : Inv xvp) : Inv (xrpRuntimeResume env xvp).2 := by
  unfold FirmwareObjects.xrpRuntimeResume
  split_ifs
  · exact inv
  · rcases xvpEnableDsp env with e | ⟨⟩
    · exact inv
    · exact inv.xrpBootFirmware

theorem Inv.submitSync {firmwareReboot : Bool} {wait : Except Errno Unit} (inv : Inv xvp) :
    Inv (submitSync env xvp firmwareReboot wait).2 := by
  have boot : Inv (FirmwareObjects.xrpBootFirmware env xvp).2 := inv.xrpBootFirmware
  unfold FirmwareObjects.submitSync
  split_ifs with io off
  · exact inv
  · rcases wait with e | ⟨⟩
    · simp only
      split_ifs
      · generalize FirmwareObjects.xrpBootFirmware env xvp = r at boot
        rcases r with ⟨e | ⟨⟩, xvp⟩
        · exact boot
        · exact boot
      · exact inv
    · exact inv
  · exact inv

theorem Inv.run (inv : Inv xvp) (e : Event) : Inv (e.run xvp) := by
  cases e with
  | resume env => exact inv.xrpRuntimeResume
  | submit env firmwareReboot wait => exact inv.submitSync

theorem Inv.runAll (inv : Inv xvp) (events : List Event) : Inv (runAll events xvp) := by
  induction events generalizing xvp with
  | nil => exact inv
  | cons e events ih => exact ih (inv.run e)

end Objects

/-- **Every firmware object is released exactly once** if and only if no boot but the last one
that requested firmware has loaded it, and this one did not fail after it got the object. -/
theorem firmware_released_iff (firmwareName : Bool) (events : List Event) :
    ReleasedOnce (xrpDeinit (runAll events (.probed firmwareName))) ↔
      Balanced (runAll events (.probed firmwareName)).history :=
  ((Inv.probed firmwareName).runAll events).deinit_iff

/-- All goes well. -/
def goodEnv : Env := ⟨0, .ok (), .ok (), .ok (), .ok ()⟩

/-- The firmware is not a file that can be loaded. -/
def badFile : Env := { goodEnv with load := .error .einval }

/-- After two boots the first object was never released; after a failed load the only one was
released twice. -/
theorem firmware_not_released :
    ((xrpDeinit (runAll [.resume goodEnv, .resume goodEnv] (.probed true))).obtained = 2 ∧
      (xrpDeinit (runAll [.resume goodEnv, .resume goodEnv] (.probed true))).released = [1]) ∧
    ((xrpDeinit (runAll [.resume badFile] (.probed true))).obtained = 1 ∧
      (xrpDeinit (runAll [.resume badFile] (.probed true))).released = [0, 0]) :=
  ⟨⟨rfl, rfl⟩, rfl, rfl⟩

end Xrp.Kernel.FirmwareObjects
