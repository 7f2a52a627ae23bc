import Xrp.Kernel.FirmwareObjects

/-!
# Open files, power and the hardware calls of the driver

`xvp_open` and `xvp_close` count the users of the device by `pm_runtime_get_sync`
and `pm_runtime_put_sync`, and these call `xrp_runtime_resume` for the first user
and may call `xrp_runtime_suspend` after the last one. The power management core is
not part of the driver. Of it only this is taken for granted: it resumes only a
suspended device, it suspends only an active one that has no user, and a user is
counted even if the device could not be resumed. Anything else is the choice of the
core (`Core`): it may refuse a user, it may leave a device without users active, and
there may be users that are not files, the core itself included.

`hw_ops` has all its functions, and calls of them are logged, `enable` if it succeeds.
The functions refine those of `FirmwareObjects`, which have no log.

`xvp_close` reads the `struct xvp_file` after it was freed, to find the device. If the
memory was written to in between the call of `pm_runtime_put_sync` is lost for the
device. What else happens then is left out, and so is a close of another device that
finds this one in such memory.

Suspend and resume are serialised by the core, and `xrp_boot_firmware` is called
under `comm_lock`, so that each of the operations is one step.
-/

namespace Xrp.Kernel.Power

open Submit (loopbackNoio loopbackNommio loopbackNofirmware)
open FirmwareObjects (Env bootRequest)

/-! ## The driver -/

/-- Functions of `hw_ops`. -/
inductive HwCall : Type
  | enable
  | disable
  | reset
  | halt
  | release
  deriving DecidableEq

/-- The driver with the log of its calls. -/
structure Driver : Type where
  xvp : FirmwareObjects.Xvp
  calls : List HwCall

/-- A function of `hw_ops` is called, unless `loopback` keeps the driver from it. -/
def Driver.call (loopback : ℕ) (c : HwCall) (d : Driver) : Driver :=
  if loopback < loopbackNommio then { d with calls := d.calls ++ [c] } else d

section Driver

variable (env : Env) (d : Driver)

/-- `xvp_enable_dsp`. -/
def xvpEnableDsp : Except Errno Unit × Driver :=
  if env.loopback < loopbackNommio then
    match env.enable with
    | .error e => (.error e, d)
    | .ok () => (.ok (), { d with calls := d.calls ++ [.enable] })
  else (.ok (), d)

/-- `xvp_disable_dsp`. -/
def xvpDisableDsp : Driver := d.call env.loopback .disable

/-- `xrp_reset_dsp`. -/
def xrpResetDsp : Driver := d.call env.loopback .reset

/-- `xrp_halt_dsp`. -/
def xrpHaltDsp : Driver := d.call env.loopback .halt

/-- `xrp_release_dsp`. -/
def xrpReleaseDsp : Driver := d.call env.loopback .release

/-- `xrp_boot_firmware` from `xrp_release_dsp` on. -/
def bootRelease : Except Errno Unit × Driver :=
  let d := xrpReleaseDsp env d
  if env.loopback < loopbackNoio then
    match env.synchronize with
    | .error e =>
      let d := xrpHaltDsp env d
      (.error e, { d with xvp := { d.xvp with off := true } })
    | .ok () => (.ok (), d)
  else (.ok (), d)

/-- `xrp_boot_firmware`. -/
def xrpBootFirmware : Except Errno Unit × Driver :=
  let d := xrpResetDsp env (xrpHaltDsp env d)
  match bootRequest env d.xvp with
  | (.error e, xvp) => (.error e, { d with xvp := xvp })
  | (.ok (), xvp) => bootRelease env { d with xvp := xvp }

/-- `xrp_runtime_suspend`. -/
def xrpRuntimeSuspend : Driver := xvpDisableDsp env (xrpHaltDsp env d)

/-- `xrp_runtime_resume`. -/
def xrpRuntimeResume : Except Errno Unit × Driver :=
  if d.xvp.off then (.ok (), d)
  else
    match xvpEnableDsp env d with
    | (.error e, d) => (.error e, d)
    | (.ok (), d) =>
      match xrpBootFirmware env d with
      | (.error e, d) => (.error e, xvpDisableDsp env d)
      | (.ok (), d) => (.ok (), d)

/-- `xrp_ioctl_submit_sync` from where it takes `comm_lock`; `wait` is how the wait for the DSP
ends. -/
def submitSync (firmwareReboot : Bool) (wait : Except Errno Unit) : Except Errno Unit × Driver :=
  if ¬ env.loopback < loopbackNoio then (.ok (), d)
  else if d.xvp.off then (.error .enodev, d)
  else
    match wait with
    | .ok () => (.ok (), d)
    | .error e =>
      if e = .ebusy ∧ firmwareReboot then
        match xrpBootFirmware env d with
        | (.ok (), d) => (.error e, d)
        | (.error e, d) => (.error e, d)
      else (.error e, d)

end Driver

/-! ## The log is all that is added -/

section Refinement

variable {env : Env} {d : Driver}

@[simp] theorem call_xvp (loopback : ℕ) (c : HwCall) : (d.call loopback c).xvp = d.xvp := by
  unfold Driver.call
  split_ifs <;> rfl

@[simp] theorem xrpResetDsp_xvp : (xrpResetDsp env d).xvp = d.xvp := call_xvp _ _
@[simp] theorem xrpHaltDsp_xvp : (xrpHaltDsp env d).xvp = d.xvp := call_xvp _ _
@[simp] theorem xrpReleaseDsp_xvp : (xrpReleaseDsp env d).xvp = d.xvp := call_xvp _ _
@[simp] theorem xvpDisableDsp_xvp : (xvpDisableDsp env d).xvp = d.xvp := call_xvp _ _

theorem xvpEnableDsp_xvp (env : Env) (d : Driver) :
    (xvpEnableDsp env d).1 = FirmwareObjects.xvpEnableDsp env ∧
      (xvpEnableDsp env d).2.xvp = d.xvp := by
  unfold xvpEnableDsp FirmwareObjects.xvpEnableDsp
  split_ifs
  · cases env.enable with
    | error e => exact ⟨rfl, rfl⟩
    | ok _ => exact ⟨rfl, rfl⟩
  · exact ⟨rfl, rfl⟩

/-- The result and the device of a logged function are those of the function without log. -/
def Erases (logged : Except Errno Unit × Driver)
    (plain : Except Errno Unit × FirmwareObjects.Xvp) : Prop :=
  (logged.1, logged.2.xvp) = plain

theorem xrpBootFirmware_erases :
    Erases (xrpBootFirmware env d) (FirmwareObjects.xrpBootFirmware env d.xvp) := by
  unfold xrpBootFirmware FirmwareObjects.xrpBootFirmware
  simp only [xrpResetDsp_xvp, xrpHaltDsp_xvp]
  cases requested : bootRequest env d.xvp with
  | mk result xvp =>
    cases result with
    | error e => rfl
    | ok _ =>
      simp only [bootRelease]
      split_ifs
      · cases env.synchronize with
        | error e => simp [Erases]
        | ok _ => simp [Erases]
      · simp [Erases]

theorem xrpRuntimeResume_erases :
    Erases (xrpRuntimeResume env d) (FirmwareObjects.xrpRuntimeResume env d.xvp) := by
  unfold xrpRuntimeResume FirmwareObjects.xrpRuntimeResume
  split_ifs
  · rfl
  · obtain ⟨result, xvp⟩ := xvpEnableDsp_xvp env d
    cases enabled : xvpEnableDsp env d with
    | mk r d' =>
      rw [enabled] at result xvp
      rw [← result, ← xvp]
      cases r with
      | error e => rfl
      | ok _ =>
        have boots : Erases (xrpBootFirmware env d') _ := xrpBootFirmware_erases
        simp only
        rw [← boots]
        cases booted : xrpBootFirmware env d' with
        | mk r d'' =>
          cases r with
          | error e => simp [Erases]
          | ok _ => rfl

theorem submitSync_erases (firmwareReboot : Bool) (wait : Except Errno Unit) :
    Erases (submitSync env d firmwareReboot wait)
      (FirmwareObjects.submitSync env d.xvp firmwareReboot wait) := by
  unfold submitSync FirmwareObjects.submitSync
  by_cases io : env.loopback < loopbackNoio
  · by_cases off : d.xvp.off = true
    · simp only [io, off, not_true_eq_false, if_false, if_true]
      rfl
    · simp only [io, off, not_true_eq_false, if_false]
      cases wait with
      | ok _ => rfl
      | error e =>
        by_cases reboots : e = .ebusy ∧ firmwareReboot = true
        · have boots : Erases (xrpBootFirmware env d) _ := xrpBootFirmware_erases
          simp only [if_pos reboots]
          rw [← boots]
          cases xrpBootFirmware env d with
          | mk r d' => cases r <;> rfl
        · simp only [if_neg reboots]
          rfl
  · simp only [io, not_false_eq_true, if_true]
    rfl

end Refinement

/-! ## The device and its users -/

/-- The device: what the power management core keeps of it, and the files that are open or in
the table of known files. The last four fields record the users that are not files, the opens that
failed in `pm_runtime_get_sync`, the closes whose `pm_runtime_put_sync` was lost, and whether a
resume did nothing because the DSP was off. -/
structure State : Type where
  driver : Driver
  usage : ℕ
  active : Bool
  files : List ℕ
  known : List ℕ
  others : ℕ
  failedOpens : ℕ
  lostCloses : ℕ
  skipped : Bool

/-- The device after `xrp_init`. -/
def State.probed (firmwareName : Bool) : State :=
  ⟨⟨.probed firmwareName, []⟩, 0, false, [], [], 0, 0, 0, false⟩

/-- What the power management core chooses: an error of its own for a user, and whether it suspends
a device that has none. -/
structure Core : Type where
  refuses : Option Errno
  suspends : Bool

section Files

variable (core : Core) (env : Env) (filp : ℕ) (s : State)

/-- What `pm_runtime_get_sync` may do. -/
def pmRuntimeGetSync : Except Errno Unit × State :=
  match core.refuses with
  | some e => (.error e, { s with usage := s.usage + 1 })
  | none =>
    if s.active = true then (.ok (), { s with usage := s.usage + 1 })
    else
      match xrpRuntimeResume env s.driver with
      | (.error e, d) => (.error e, { s with driver := d, usage := s.usage + 1 })
      | (.ok (), d) =>
        (.ok (),
          { s with
            driver := d
            usage := s.usage + 1
            active := true
            skipped := s.skipped || s.driver.xvp.off })

/-- What `pm_runtime_put_sync` may do. -/
def pmRuntimePutSync : State :=
  if core.suspends = true ∧ s.usage - 1 = 0 ∧ s.active = true then
    { s with driver := xrpRuntimeSuspend env s.driver, usage := s.usage - 1, active := false }
  else { s with usage := s.usage - 1 }

/-- `xrp_add_known_file`; `entry` tells whether there is memory for the entry. -/
def xrpAddKnownFile (entry : Bool) : State :=
  { s with known := if entry then filp :: s.known else s.known }

/-- `xrp_remove_known_file`. -/
def xrpRemoveKnownFile : State := { s with known := s.known.erase filp }

/-- `xvp_open`; `file` tells whether there is memory for the `struct xvp_file`. -/
def xvpOpen (file entry : Bool) : Except Errno Unit × State :=
  match pmRuntimeGetSync core env s with
  | (.error e, s) => (.error e, { s with failedOpens := s.failedOpens + 1 })
  | (.ok (), s) =>
    if file then (.ok (), xrpAddKnownFile filp { s with files := filp :: s.files } entry)
    else (.error .enomem, pmRuntimePutSync core env s)

/-- `xvp_close`; `intact` tells whether the memory of the `struct xvp_file` still names the device
after it was freed. -/
def xvpClose (intact : Bool) : State :=
  let s := { xrpRemoveKnownFile filp s with files := s.files.erase filp }
  if intact then pmRuntimePutSync core env s else { s with lostCloses := s.lostCloses + 1 }

end Files

/-- One call of the driver, or one user more or less that is not a file. `loopback` stays as it
is. -/
inductive Step (loopback : ℕ) (s : State) : State → Prop
  | xvpOpen (core : Core) (env : Env) (filp : ℕ) (file entry : Bool) :
    env.loopback = loopback → filp ∉ s.files →
    Step loopback s (Power.xvpOpen core env filp s file entry).2
  | xvpClose (core : Core) (env : Env) (filp : ℕ) (intact : Bool) :
    env.loopback = loopback → filp ∈ s.files →
    Step loopback s (Power.xvpClose core env filp s intact)
  | submitSync (env : Env) (filp : ℕ) (firmwareReboot : Bool) (wait : Except Errno Unit) :
    env.loopback = loopback → filp ∈ s.files →
    Step loopback s { s with driver := (Power.submitSync env s.driver firmwareReboot wait).2 }
  | otherGet (core : Core) (env : Env) : env.loopback = loopback →
    Step loopback s { (pmRuntimeGetSync core env s).2 with others := s.others + 1 }
  | otherPut (core : Core) (env : Env) : env.loopback = loopback → s.others ≠ 0 →
    Step loopback s { pmRuntimePutSync core env s with others := s.others - 1 }

/-- The states of all runs. -/
def Reach (loopback : ℕ) (firmwareName : Bool) (s : State) : Prop :=
  Relation.ReflTransGen (Step loopback) (State.probed firmwareName) s

/-! ## What is expected -/

/-- What a call does to the power of the DSP: `enable` is for a DSP that is disabled, anything
else for one that is enabled. -/
def powerStep : Option Bool → HwCall → Option Bool
  | some false, .enable => some true
  | some true, .disable => some false
  | some true, .reset => some true
  | some true, .halt => some true
  | some true, .release => some true
  | _, _ => none

/-- Whether the DSP is enabled after the calls, if all of them were in order. -/
def power (calls : List HwCall) : Option Bool := calls.foldl powerStep (some false)

/-- Whether the DSP is stalled after a call. -/
def stallStep (stalled : Bool) : HwCall → Bool
  | .halt => true
  | .release => false
  | _ => stalled

/-- Whether the DSP is stalled after the calls; before them it may have been running. -/
def stalled (calls : List HwCall) : Bool := calls.foldl stallStep false

/-- No user is counted, and none was lost. -/
structure Unused (s : State) : Prop where
  files : s.files = []
  others : s.others = 0
  failedOpens : s.failedOpens = 0
  lostCloses : s.lostCloses = 0

/-- What holds of a device. -/
structure Sound (loopback : ℕ) (s : State) : Prop where
  /-- The device is active while a file is open. -/
  active : s.files ≠ [] → s.active = true
  usage : s.usage = s.files.length + s.others + s.failedOpens + s.lostCloses
  /-- It is suspended only after the last user, and never once an open failed or a close was
  lost. -/
  suspended : ∀ s', Step loopback s s' → s.active = true → s'.active = false → Unused s'
  /-- Only open files are known, each once. -/
  known : ∀ filp ∈ s.known, filp ∈ s.files
  nodup : s.known.Nodup
  /-- The calls are in order, and the DSP is enabled exactly while the device is active, unless a
  resume was skipped. -/
  power_iff : loopback < loopbackNommio → (power s.driver.calls = some s.active ↔ s.skipped = false)
  /-- A DSP that went off is stalled for good. -/
  stalled : loopback < loopbackNommio → s.driver.xvp.off = true → stalled s.driver.calls = true
  /-- `loopback` may keep the driver from all calls. -/
  quiet : loopbackNommio ≤ loopback → s.driver.calls = []

end Xrp.Kernel.Power
