import Xrp.Kernel.Power

/-!
# Runs of open, close and submit

The users that the power management core counts are the open files, those that are not
files, and the opens and closes that left a user behind: an open that failed in
`pm_runtime_get_sync` and a close whose `pm_runtime_put_sync` was lost. After one of
these the device is not suspended any more. A DSP that went off is not enabled by a
resume, but disabled by the suspend that follows: only then are the hardware calls
out of order.
-/

namespace Xrp.Kernel.Power

open Submit (loopbackNoio loopbackNommio loopbackNofirmware)
open FirmwareObjects (Env bootRequest)

/-! ## Logs -/

section Logs

variable {calls : List HwCall}

theorem power_append (l : List HwCall) :
    power (calls ++ l) = l.foldl powerStep (power calls) := List.foldl_append

theorem stalled_append (l : List HwCall) :
    stalled (calls ++ l) = l.foldl stallStep (stalled calls) := List.foldl_append

/-- The call is made on a DSP that is enabled, and leaves it so. -/
def KeepsPower (c : HwCall) : Prop := c ≠ .enable ∧ c ≠ .disable

/-- Unless the DSP is disabled, such calls change nothing. -/
theorem foldl_keepsPower {l : List HwCall} {p : Option Bool} (enabled : p ≠ some false)
    (keeps : ∀ c ∈ l, KeepsPower c) : l.foldl powerStep p = p := by
  induction l with
  | nil => rfl
  | cons c l ih =>
    have first : powerStep p c = p := by
      obtain ⟨enable, disable⟩ := keeps c List.mem_cons_self
      match p, c with
      | none, _ => rfl
      | some true, .reset => rfl
      | some true, .halt => rfl
      | some true, .release => rfl
      | some false, _ => exact absurd rfl enabled
      | _, .enable => exact absurd rfl enable
      | _, .disable => exact absurd rfl disable
    rw [List.foldl_cons, first]
    exact ih fun c member => keeps c (List.mem_cons_of_mem _ member)

end Logs

/-! ## The functions of the driver -/

section Driver

variable {env : Env} {d d' : Driver} {result : Except Errno Unit}

theorem call_calls (used : env.loopback < loopbackNommio) (c : HwCall) :
    (d.call env.loopback c).calls = d.calls ++ [c] := by
  rw [Driver.call, if_pos used]

theorem bootRequest_off (env : Env) (xvp : FirmwareObjects.Xvp) :
    (bootRequest env xvp).2.off = xvp.off := by
  unfold bootRequest FirmwareObjects.xrpRequestFirmware FirmwareObjects.requestFirmware
  split_ifs
  · cases env.request with
    | error e => rfl
    | ok _ =>
      cases env.load with
      | error e => rfl
      | ok _ => rfl
  · rfl

/-- The calls from `xrp_release_dsp` on. If the DSP goes off, the last of them stalls it. -/
theorem bootRelease_calls (used : env.loopback < loopbackNommio) :
    ∃ l, (bootRelease env d).2.calls = d.calls ++ l ∧ (∀ c ∈ l, KeepsPower c) ∧
      (d.xvp.off = false → (bootRelease env d).2.xvp.off = true →
        stalled (bootRelease env d).2.calls = true) := by
  unfold bootRelease
  have released : (xrpReleaseDsp env d).calls = d.calls ++ [.release] := call_calls used _
  have halted : (xrpHaltDsp env (xrpReleaseDsp env d)).calls = d.calls ++ [.release, .halt] := by
    rw [xrpHaltDsp, call_calls used, released, List.append_assoc]
    rfl
  split_ifs
  · cases env.synchronize with
    | error e =>
      refine ⟨[.release, .halt], halted, by simp [KeepsPower], fun _ _ => ?_⟩
      simp only [halted, stalled_append]
      rfl
    | ok _ =>
      refine ⟨[.release], released, by simp [KeepsPower], fun on off => ?_⟩
      simp [on] at off
  · refine ⟨[.release], released, by simp [KeepsPower], fun on off => ?_⟩
    simp [on] at off

theorem xrpBootFirmware_calls (used : env.loopback < loopbackNommio) :
    ∃ l, (xrpBootFirmware env d).2.calls = d.calls ++ l ∧ (∀ c ∈ l, KeepsPower c) ∧
      (d.xvp.off = false → (xrpBootFirmware env d).2.xvp.off = true →
        stalled (xrpBootFirmware env d).2.calls = true) := by
  have begun : (xrpResetDsp env (xrpHaltDsp env d)).calls = d.calls ++ [.halt, .reset] := by
    rw [xrpResetDsp, call_calls used, xrpHaltDsp, call_calls used, List.append_assoc]
    rfl
  have kept := bootRequest_off env d.xvp
  unfold xrpBootFirmware
  simp only [xrpResetDsp_xvp, xrpHaltDsp_xvp]
  cases requested : bootRequest env d.xvp with
  | mk result xvp =>
    rw [requested] at kept
    cases result with
    | error e =>
      refine ⟨[.halt, .reset], begun, by simp [KeepsPower], fun on off => ?_⟩
      simp only at kept off
      simp [kept, on] at off
    | ok _ =>
      obtain ⟨l, calls, keeps, stalls⟩ :=
        bootRelease_calls (d := { xrpResetDsp env (xrpHaltDsp env d) with xvp := xvp }) used
      refine ⟨[.halt, .reset] ++ l, ?_, ?_, fun on => stalls (kept.trans on)⟩
      · rw [calls, begun, List.append_assoc]
      · intro c member
        rcases List.mem_append.mp member with first | later
        · have : c = .halt ∨ c = .reset := by simpa using first
          rcases this with rfl | rfl <;> simp [KeepsPower]
        · exact keeps c later

theorem xrpBootFirmware_power (used : env.loopback < loopbackNommio)
    (enabled : power d.calls ≠ some false) :
    power (xrpBootFirmware env d).2.calls = power d.calls := by
  obtain ⟨l, calls, keeps, -⟩ := xrpBootFirmware_calls (d := d) used
  rw [calls, power_append]
  exact foldl_keepsPower enabled keeps

theorem xrpBootFirmware_stalls (used : env.loopback < loopbackNommio) (on : d.xvp.off = false)
    (off : (xrpBootFirmware env d).2.xvp.off = true) :
    stalled (xrpBootFirmware env d).2.calls = true := by
  obtain ⟨-, -, -, stalls⟩ := xrpBootFirmware_calls (d := d) used
  exact stalls on off

theorem xrpRuntimeSuspend_calls (used : env.loopback < loopbackNommio) :
    (xrpRuntimeSuspend env d).calls = d.calls ++ [.halt, .disable] := by
  rw [xrpRuntimeSuspend, xvpDisableDsp, call_calls used, xrpHaltDsp, call_calls used,
    List.append_assoc]
  rfl

/-- A resume of a DSP that is not off enables it if it succeeds, and leaves it disabled if it
fails. -/
theorem xrpRuntimeResume_power (used : env.loopback < loopbackNommio) (on : d.xvp.off = false)
    (disabled : power d.calls = some false) (resumed : xrpRuntimeResume env d = (result, d')) :
    power d'.calls = some result.isOk ∧
      (d'.xvp.off = true → stalled d'.calls = true) := by
  unfold xrpRuntimeResume at resumed
  simp only [on, Bool.false_eq_true, if_false, xvpEnableDsp, if_pos used] at resumed
  cases enable : env.enable with
  | error e =>
    simp only [enable] at resumed
    cases resumed
    refine ⟨disabled, fun off => ?_⟩
    simp [on] at off
  | ok _ =>
    simp only [enable] at resumed
    have enabled : power (d.calls ++ [.enable]) = some true := by
      rw [power_append, disabled]
      rfl
    have boots := xrpBootFirmware_power (d := { d with calls := d.calls ++ [.enable] }) used
      (by simp [enabled])
    have stalls := xrpBootFirmware_stalls (d := { d with calls := d.calls ++ [.enable] }) used on
    cases booted : xrpBootFirmware env { d with calls := d.calls ++ [.enable] } with
    | mk r d'' =>
      simp only [booted, enabled] at resumed boots stalls
      cases r with
      | ok _ =>
        cases resumed
        exact ⟨boots, stalls⟩
      | error e =>
        cases resumed
        have calls : (xvpDisableDsp env d'').calls = d''.calls ++ [.disable] := call_calls used _
        rw [calls, power_append, stalled_append, boots, xvpDisableDsp_xvp]
        exact ⟨rfl, stalls⟩

theorem xrpRuntimeResume_off (off : d.xvp.off = true) :
    xrpRuntimeResume env d = (.ok (), d) := by
  rw [xrpRuntimeResume, if_pos off]

section Quiet

variable (unused : loopbackNommio ≤ env.loopback)

include unused

theorem call_quiet (c : HwCall) : d.call env.loopback c = d := if_neg (not_lt.mpr unused)

theorem xrpBootFirmware_quiet : (xrpBootFirmware env d).2.calls = d.calls := by
  have released (d : Driver) : (bootRelease env d).2.calls = d.calls := by
    unfold bootRelease xrpReleaseDsp xrpHaltDsp
    simp only [call_quiet unused]
    split_ifs
    · cases env.synchronize with
      | error e => rfl
      | ok _ => rfl
    · rfl
  unfold xrpBootFirmware xrpResetDsp xrpHaltDsp
  simp only [call_quiet unused]
  cases bootRequest env d.xvp with
  | mk result xvp =>
    cases result with
    | error e => rfl
    | ok _ => exact released _

theorem xrpRuntimeSuspend_quiet : (xrpRuntimeSuspend env d).calls = d.calls := by
  rw [xrpRuntimeSuspend, xvpDisableDsp, call_quiet unused, xrpHaltDsp, call_quiet unused]

theorem xrpRuntimeResume_quiet : (xrpRuntimeResume env d).2.calls = d.calls := by
  have boots := xrpBootFirmware_quiet unused (d := d)
  unfold xrpRuntimeResume xvpEnableDsp xvpDisableDsp
  simp only [call_quiet unused, if_neg (not_lt.mpr unused)]
  split_ifs
  · rfl
  · generalize xrpBootFirmware env d = r at boots
    rcases r with ⟨e | ⟨⟩, d'⟩
    · exact boots
    · exact boots

theorem submitSync_quiet (firmwareReboot : Bool) (wait : Except Errno Unit) :
    (submitSync env d firmwareReboot wait).2.calls = d.calls := by
  have boots := xrpBootFirmware_quiet unused (d := d)
  generalize booted : xrpBootFirmware env d = r at boots
  rw [submitSync.eq_def, booted]
  cases wait with
  | ok _ => split_ifs <;> rfl
  | error e =>
    dsimp only
    split_ifs
    · rfl
    · rcases r with ⟨e | ⟨⟩, d'⟩
      · exact boots
      · exact boots
    · rfl
    · rfl

end Quiet

end Driver

/-! ## The power of the DSP -/

/-- How the log goes with the state of the device. -/
structure Powered (d : Driver) (active skipped : Bool) : Prop where
  inOrder : skipped = false → power d.calls = some active
  skip : skipped = true → d.xvp.off = true ∧
    (power d.calls = none ∨ active = true ∧ power d.calls = some false)
  stalled : d.xvp.off = true → stalled d.calls = true

section Powered

variable {env : Env} {d d' : Driver} {active skipped : Bool} {e : Errno}

theorem Powered.iff (powered : Powered d active skipped) :
    power d.calls = some active ↔ skipped = false := by
  refine ⟨fun inOrder => ?_, powered.inOrder⟩
  by_contra skipping
  obtain ⟨-, out | ⟨rfl, disabled⟩⟩ := powered.skip (by simpa using skipping)
  · simp [out] at inOrder
  · simp [disabled] at inOrder

/-- No resume is skipped before the DSP goes off. -/
theorem Powered.first (powered : Powered d active skipped) (on : d.xvp.off = false) :
    skipped = false := by
  by_contra skipping
  have off := (powered.skip (by simpa using skipping)).1
  cases on.symm.trans off

theorem Powered.resume (powered : Powered d false skipped) (used : env.loopback < loopbackNommio)
    (resumed : xrpRuntimeResume env d = (.ok (), d')) :
    Powered d' true (skipped || d.xvp.off) := by
  cases off : d.xvp.off with
  | true =>
    rw [xrpRuntimeResume_off off] at resumed
    cases resumed
    rw [Bool.or_true]
    refine ⟨nofun, fun _ => ⟨off, ?_⟩, powered.stalled⟩
    cases skipped with
    | true =>
      obtain ⟨-, out | ⟨active, -⟩⟩ := powered.skip rfl
      · exact .inl out
      · cases active
    | false => exact .inr ⟨rfl, powered.inOrder rfl⟩
  | false =>
    rw [Bool.or_false]
    have first := powered.first off
    obtain ⟨enabled, stalls⟩ := xrpRuntimeResume_power used off (powered.inOrder first) resumed
    exact ⟨fun _ => enabled, fun skipping => by simp [first] at skipping, stalls⟩

theorem Powered.resume_fails (powered : Powered d false skipped)
    (used : env.loopback < loopbackNommio) (resumed : xrpRuntimeResume env d = (.error e, d')) :
    Powered d' false skipped := by
  cases off : d.xvp.off with
  | true =>
    rw [xrpRuntimeResume_off off] at resumed
    simp at resumed
  | false =>
    have first := powered.first off
    obtain ⟨disabled, stalls⟩ := xrpRuntimeResume_power used off (powered.inOrder first) resumed
    exact ⟨fun _ => disabled, fun skipping => by simp [first] at skipping, stalls⟩

theorem Powered.suspend (powered : Powered d true skipped)
    (used : env.loopback < loopbackNommio) :
    Powered (xrpRuntimeSuspend env d) false skipped := by
  have xvp : (xrpRuntimeSuspend env d).xvp = d.xvp := by simp [xrpRuntimeSuspend]
  refine ⟨fun first => ?_, fun skipping => ?_, fun _ => ?_⟩
  · rw [xrpRuntimeSuspend_calls used, power_append, powered.inOrder first]
    rfl
  · obtain ⟨off, out | ⟨-, disabled⟩⟩ := powered.skip skipping
    · rw [xvp, xrpRuntimeSuspend_calls used, power_append, out]
      exact ⟨off, .inl rfl⟩
    · rw [xvp, xrpRuntimeSuspend_calls used, power_append, disabled]
      exact ⟨off, .inl rfl⟩
  · rw [xrpRuntimeSuspend_calls used, stalled_append]
    rfl

/-- A request makes calls only on a DSP that is not off. -/
theorem Powered.submit (powered : Powered d true skipped) (used : env.loopback < loopbackNommio)
    (firmwareReboot : Bool) (wait : Except Errno Unit) :
    Powered (submitSync env d firmwareReboot wait).2 true skipped := by
  have boots (on : d.xvp.off = false) : Powered (xrpBootFirmware env d).2 true skipped := by
    have first := powered.first on
    have enabled := powered.inOrder first
    refine ⟨fun _ => ?_, fun skipping => by simp [first] at skipping,
      xrpBootFirmware_stalls used on⟩
    rw [xrpBootFirmware_power used (by simp [enabled]), enabled]
  by_cases io : env.loopback < loopbackNoio
  · by_cases off : d.xvp.off = true
    · rw [submitSync.eq_def, if_neg (not_not.mpr io), if_pos off]
      exact powered
    · rw [submitSync.eq_def, if_neg (not_not.mpr io), if_neg off]
      cases wait with
      | ok _ => exact powered
      | error e =>
        dsimp only
        by_cases reboots : e = .ebusy ∧ firmwareReboot = true
        · have booted := boots (by simpa using off)
          rw [if_pos reboots]
          cases result : xrpBootFirmware env d with
          | mk r d' =>
            rw [result] at booted
            cases r <;> exact booted
        · rw [if_neg reboots]
          exact powered
  · rw [submitSync.eq_def, if_pos io]
    exact powered

end Powered

/-- The same, if `loopback` does not keep the driver from the calls. -/
structure Logged (loopback : ℕ) (d : Driver) (active skipped : Bool) : Prop where
  powered : loopback < loopbackNommio → Powered d active skipped
  quiet : loopbackNommio ≤ loopback → d.calls = []

section Logged

variable {loopback : ℕ} {env : Env} {d d' : Driver} {active skipped : Bool} {e : Errno}

theorem Logged.probed (loopback : ℕ) (firmwareName : Bool) :
    Logged loopback ⟨.probed firmwareName, []⟩ false false :=
  ⟨fun _ => ⟨fun _ => rfl, nofun, nofun⟩, fun _ => rfl⟩

theorem Logged.resume (logged : Logged loopback d false skipped) (same : env.loopback = loopback)
    (resumed : xrpRuntimeResume env d = (.ok (), d')) :
    Logged loopback d' true (skipped || d.xvp.off) := by
  subst same
  refine ⟨fun used => (logged.powered used).resume used resumed, fun unused => ?_⟩
  have calls := xrpRuntimeResume_quiet unused (d := d)
  rw [resumed] at calls
  exact calls.trans (logged.quiet unused)

theorem Logged.resume_fails (logged : Logged loopback d false skipped)
    (same : env.loopback = loopback) (resumed : xrpRuntimeResume env d = (.error e, d')) :
    Logged loopback d' false skipped := by
  subst same
  refine ⟨fun used => (logged.powered used).resume_fails used resumed, fun unused => ?_⟩
  have calls := xrpRuntimeResume_quiet unused (d := d)
  rw [resumed] at calls
  exact calls.trans (logged.quiet unused)

theorem Logged.suspend (logged : Logged loopback d true skipped) (same : env.loopback = loopback) :
    Logged loopback (xrpRuntimeSuspend env d) false skipped := by
  subst same
  exact ⟨fun used => (logged.powered used).suspend used,
    fun unused => (xrpRuntimeSuspend_quiet unused).trans (logged.quiet unused)⟩

theorem Logged.submit (logged : Logged loopback d true skipped) (same : env.loopback = loopback)
    (firmwareReboot : Bool) (wait : Except Errno Unit) :
    Logged loopback (submitSync env d firmwareReboot wait).2 true skipped := by
  subst same
  exact ⟨fun used => (logged.powered used).submit used firmwareReboot wait,
    fun unused => (submitSync_quiet unused firmwareReboot wait).trans (logged.quiet unused)⟩

end Logged

/-! ## The users of the device -/

/-- The files and the counter of users. -/
structure Counted (s : State) : Prop where
  active : s.files ≠ [] → s.active = true
  usage : s.usage = s.files.length + s.others + s.failedOpens + s.lostCloses
  known : ∀ filp ∈ s.known, filp ∈ s.files
  nodup : s.known.Nodup

/-- What holds in all runs. -/
structure Inv (loopback : ℕ) (s : State) : Prop where
  counted : Counted s
  logged : Logged loopback s.driver s.active s.skipped

section Users

variable {loopback : ℕ} {core : Core} {env : Env} {s s' : State} {filp : ℕ}
  {result : Except Errno Unit}

theorem Counted.unused (counted : Counted s) (none : s.usage = 0) : Unused s := by
  have usage := counted.usage
  rw [none] at usage
  exact ⟨List.length_eq_zero_iff.mp (by omega), by omega, by omega, by omega⟩

/-- The files are as they were, and so are the other users. -/
structure SameFiles (s s' : State) : Prop where
  files : s'.files = s.files
  known : s'.known = s.known
  others : s'.others = s.others
  failedOpens : s'.failedOpens = s.failedOpens
  lostCloses : s'.lostCloses = s.lostCloses

theorem SameFiles.set (d : Driver) (usage : ℕ) (active skipped : Bool) :
    SameFiles s { s with driver := d, usage := usage, active := active, skipped := skipped } :=
  ⟨rfl, rfl, rfl, rfl, rfl⟩

/-- What `pm_runtime_get_sync` leaves. -/
structure Got (loopback : ℕ) (s : State) (result : Except Errno Unit) (s' : State) : Prop where
  same : SameFiles s s'
  usage : s'.usage = s.usage + 1
  active : result = .ok () ∨ s.active = true → s'.active = true
  logged : Logged loopback s'.driver s'.active s'.skipped

theorem pmRuntimeGetSync_got (logged : Logged loopback s.driver s.active s.skipped)
    (same : env.loopback = loopback) (got : pmRuntimeGetSync core env s = (result, s')) :
    Got loopback s result s' := by
  unfold pmRuntimeGetSync at got
  cases refuses : core.refuses with
  | some e =>
    rw [refuses] at got
    cases got
    exact ⟨.set _ _ _ _, rfl, by simp, logged⟩
  | none =>
    simp only [refuses] at got
    split_ifs at got with active
    · cases got
      exact ⟨.set _ _ _ _, rfl, fun _ => active, logged⟩
    · rw [Bool.eq_false_of_not_eq_true active] at logged
      cases resumed : xrpRuntimeResume env s.driver with
      | mk r d =>
        rw [resumed] at got
        cases r with
        | error e =>
          cases got
          refine ⟨.set _ _ _ _, rfl, by simp [active], ?_⟩
          rw [Bool.eq_false_of_not_eq_true active]
          exact logged.resume_fails same resumed
        | ok _ =>
          cases got
          exact ⟨.set _ _ _ _, rfl, fun _ => rfl, logged.resume same resumed⟩

/-- What `pm_runtime_put_sync` leaves. -/
structure PutBack (loopback : ℕ) (s s' : State) : Prop where
  same : SameFiles s s'
  usage : s'.usage = s.usage - 1
  suspended : s.active = true → s'.active = false → s'.usage = 0
  logged : Logged loopback s'.driver s'.active s'.skipped

theorem pmRuntimePutSync_putBack (logged : Logged loopback s.driver s.active s.skipped)
    (same : env.loopback = loopback) : PutBack loopback s (pmRuntimePutSync core env s) := by
  unfold pmRuntimePutSync
  split_ifs with last
  · obtain ⟨-, last, active⟩ := last
    rw [active] at logged
    exact ⟨.set _ _ _ _, rfl, fun _ _ => last, logged.suspend same⟩
  · refine ⟨.set _ _ _ _, rfl, fun active inactive => ?_, logged⟩
    cases active.symm.trans inactive

/-- A step keeps the invariant, and suspends the device only if no user is left. -/
def Keeps (loopback : ℕ) (s s' : State) : Prop :=
  Inv loopback s' ∧ (s.active = true → s'.active = false → s'.usage = 0)

/-! A user between two records, counted already or still, passes for one that is not a file. -/

/-- A user may become one of another kind. -/
theorem Inv.recount {others failedOpens lostCloses : ℕ} (inv : Inv loopback s)
    (same : others + failedOpens + lostCloses = s.others + s.failedOpens + s.lostCloses) :
    Inv loopback
      { s with others := others, failedOpens := failedOpens, lostCloses := lostCloses } := by
  obtain ⟨⟨active, usage, known, nodup⟩, logged⟩ := inv
  refine ⟨⟨active, ?_, known, nodup⟩, logged⟩
  simp only [usage]
  omega

/-- `pm_runtime_get_sync` counts a user. -/
theorem Inv.get (inv : Inv loopback s) (same : env.loopback = loopback)
    (called : pmRuntimeGetSync core env s = (result, s')) :
    Inv loopback { s' with others := s'.others + 1 } := by
  obtain ⟨⟨active, usage, known, nodup⟩, logged⟩ := inv
  obtain ⟨⟨files, entries, others, failedOpens, lostCloses⟩, usage', active', logged'⟩ :=
    pmRuntimeGetSync_got logged same called
  refine ⟨⟨?_, ?_, ?_, ?_⟩, logged'⟩
  · simp only [files]
    exact fun opened => active' (.inr (active opened))
  · simp only [usage', usage, files, others, failedOpens, lostCloses]
    omega
  · simpa only [entries, files] using known
  · simpa only [entries] using nodup

/-- `pm_runtime_put_sync` is for a user that is counted. -/
theorem Inv.put (inv : Inv loopback { s with others := s.others + 1 })
    (same : env.loopback = loopback) : Keeps loopback s (pmRuntimePutSync core env s) := by
  obtain ⟨⟨active, usage, known, nodup⟩, logged⟩ := inv
  have putBack : PutBack loopback s (pmRuntimePutSync core env s) :=
    pmRuntimePutSync_putBack logged same
  generalize pmRuntimePutSync core env s = last at putBack
  obtain ⟨⟨files, entries, others, failedOpens, lostCloses⟩, usage', suspended, logged'⟩ := putBack
  have count : last.usage =
      last.files.length + last.others + last.failedOpens + last.lostCloses := by
    simp only at usage
    rw [usage', usage, files, others, failedOpens, lostCloses]
    omega
  refine ⟨⟨⟨fun opened => ?_, count, ?_, ?_⟩, logged'⟩, suspended⟩
  · by_contra inactive
    have none := suspended (active (files ▸ opened)) (Bool.eq_false_of_not_eq_true inactive)
    exact opened (List.length_eq_zero_iff.mp (by omega))
  · simpa only [entries, files] using known
  · simpa only [entries] using nodup

/-- The user is a file from now on. -/
theorem Inv.opened (inv : Inv loopback { s with others := s.others + 1 }) (entry : Bool)
    (active : s.active = true) (fresh : filp ∉ s.files) :
    Inv loopback (xrpAddKnownFile filp { s with files := filp :: s.files } entry) := by
  obtain ⟨⟨-, usage, known, nodup⟩, logged⟩ := inv
  have unknown : filp ∉ s.known := fun member => fresh (known filp member)
  refine ⟨⟨fun _ => active, ?_, fun other member => ?_, ?_⟩, logged⟩
  · simp only [xrpAddKnownFile, List.length_cons] at usage ⊢
    omega
  · cases entry with
    | true =>
      rcases List.mem_cons.mp member with rfl | later
      · exact List.mem_cons_self
      · exact List.mem_cons_of_mem _ (known other later)
    | false => exact List.mem_cons_of_mem _ (known other member)
  · cases entry with
    | true => exact List.nodup_cons.mpr ⟨unknown, nodup⟩
    | false => exact nodup

/-- The user is not a file any more. -/
theorem Inv.closed (inv : Inv loopback s) (opened : filp ∈ s.files) :
    Inv loopback
      { xrpRemoveKnownFile filp s with
        files := s.files.erase filp
        others := s.others + 1 } := by
  obtain ⟨⟨active, usage, known, nodup⟩, logged⟩ := inv
  refine ⟨⟨fun _ => active (List.ne_nil_of_mem opened), ?_, fun other member => ?_, ?_⟩, logged⟩
  · have positive := List.length_pos_of_mem opened
    simp only [xrpRemoveKnownFile, usage, List.length_erase_of_mem opened]
    omega
  · obtain ⟨ne, before⟩ := (List.Nodup.mem_erase_iff nodup).mp member
    exact (List.mem_erase_of_ne ne).mpr (known other before)
  · exact nodup.erase filp

theorem Inv.xvpOpen (inv : Inv loopback s) (same : env.loopback = loopback) (file entry : Bool)
    (fresh : filp ∉ s.files) :
    Keeps loopback s (Power.xvpOpen core env filp s file entry).2 := by
  unfold Power.xvpOpen
  cases called : pmRuntimeGetSync core env s with
  | mk result s' =>
    have counted := inv.get same called
    obtain ⟨⟨files, -⟩, -, active, -⟩ := pmRuntimeGetSync_got inv.logged same called
    cases result with
    | error e =>
      refine ⟨counted.recount (by simp only; omega), fun before after => ?_⟩
      cases (active (.inr before)).symm.trans after
    | ok _ =>
      have resumed := active (.inl rfl)
      cases file with
      | true =>
        refine ⟨counted.opened entry resumed (files ▸ fresh), fun _ after => ?_⟩
        cases resumed.symm.trans after
      | false =>
        obtain ⟨inv', suspended⟩ := counted.put same
        exact ⟨inv', fun _ => suspended resumed⟩

theorem Inv.xvpClose (inv : Inv loopback s) (same : env.loopback = loopback) (intact : Bool)
    (opened : filp ∈ s.files) : Keeps loopback s (Power.xvpClose core env filp s intact) := by
  have counted := inv.closed opened
  unfold Power.xvpClose
  cases intact with
  | false =>
    refine ⟨counted.recount (by simp only [xrpRemoveKnownFile]; omega), fun before after => ?_⟩
    cases before.symm.trans after
  | true => exact counted.put same

theorem Inv.otherGet (inv : Inv loopback s) (same : env.loopback = loopback) :
    Keeps loopback s { (pmRuntimeGetSync core env s).2 with others := s.others + 1 } := by
  cases called : pmRuntimeGetSync core env s with
  | mk result s' =>
    obtain ⟨files, -, active, -⟩ := pmRuntimeGetSync_got inv.logged same called
    refine ⟨?_, fun before after => ?_⟩
    · rw [← files.others]
      exact inv.get same called
    · cases (active (.inr before)).symm.trans after

/-- The core does not look at who the users are. -/
theorem pmRuntimePutSync_others (others : ℕ) :
    pmRuntimePutSync core env { s with others := others } =
      { pmRuntimePutSync core env s with others := others } := by
  unfold pmRuntimePutSync
  split_ifs <;> rfl

theorem Inv.otherPut (inv : Inv loopback s) (same : env.loopback = loopback)
    (some : s.others ≠ 0) :
    Keeps loopback s { pmRuntimePutSync core env s with others := s.others - 1 } := by
  rw [← pmRuntimePutSync_others]
  have counted : Inv loopback { s with others := s.others - 1 + 1 } := by
    rw [Nat.sub_one_add_one some]
    exact inv
  exact Inv.put counted same

end Users

/-! ## Runs -/

theorem Inv.probed (loopback : ℕ) (firmwareName : Bool) : Inv loopback (.probed firmwareName) :=
  ⟨⟨fun opened => absurd rfl opened, rfl, nofun, List.nodup_nil⟩, .probed loopback firmwareName⟩

theorem Step.keeps {loopback : ℕ} {s s' : State} (step : Step loopback s s')
    (inv : Inv loopback s) : Keeps loopback s s' := by
  cases step with
  | xvpOpen core env filp file entry same fresh => exact inv.xvpOpen same file entry fresh
  | xvpClose core env filp intact same opened => exact inv.xvpClose same intact opened
  | submitSync env filp firmwareReboot wait same opened =>
    obtain ⟨counted, logged⟩ := inv
    have active : s.active = true := counted.active (List.ne_nil_of_mem opened)
    rw [active] at logged
    refine ⟨⟨⟨counted.active, counted.usage, counted.known, counted.nodup⟩, ?_⟩, fun _ after => ?_⟩
    · rw [active]
      exact logged.submit same firmwareReboot wait
    · cases active.symm.trans after
  | otherGet core env same => exact inv.otherGet same
  | otherPut core env same some => exact inv.otherPut same some

theorem Reach.inv {loopback : ℕ} {firmwareName : Bool} {s : State}
    (reach : Reach loopback firmwareName s) : Inv loopback s := by
  induction reach with
  | refl => exact .probed loopback firmwareName
  | tail _ step ih => exact (step.keeps ih).1

/-- **The device is powered while it is open**: in all runs the device is active while a file is
open and is suspended only when no user is left, known files are open, and the hardware calls are in
order unless the device was resumed after its DSP went off. -/
theorem reach_sound {loopback : ℕ} {firmwareName : Bool} {s : State}
    (reach : Reach loopback firmwareName s) : Sound loopback s := by
  have inv := reach.inv
  refine ⟨inv.counted.active, inv.counted.usage, fun s' step before after => ?_,
    inv.counted.known, inv.counted.nodup, fun used => (inv.logged.powered used).iff,
    fun used => (inv.logged.powered used).stalled, inv.logged.quiet⟩
  obtain ⟨inv', suspended⟩ := step.keeps inv
  exact inv'.counted.unused (suspended before after)

/-- Everything succeeds, except as given that the DSP synchronizes. -/
def bootable (synchronize : Except Errno Unit) : Env :=
  ⟨0, .ok (), .ok (), .ok (), synchronize⟩

/-- The core suspends the device as soon as it can. -/
def eager : Core := ⟨none, true⟩

/-- The device is opened, a request times out, and the DSP does not come back from the reboot. -/
def wentOff : State :=
  let s := (Power.xvpOpen eager (bootable (.ok ())) 1 (.probed false) true true).2
  { s with driver := (submitSync (bootable (.error .enodev)) s.driver true (.error .ebusy)).2 }

/-- The device is then closed, and opened and closed once more. -/
def reopened : State :=
  let s := Power.xvpClose eager (bootable (.ok ())) 1 wentOff true
  Power.xvpClose eager (bootable (.ok ())) 2
    (Power.xvpOpen eager (bootable (.ok ())) 2 s true false).2 true

theorem reach_sound_reopened :
    Reach 0 false reopened ∧ power reopened.driver.calls = none ∧ Sound 0 reopened := by
  have off : Reach 0 false wentOff :=
    (Relation.ReflTransGen.refl.tail (.xvpOpen eager (bootable (.ok ())) 1 true true rfl
      (by decide))).tail (.submitSync (bootable (.error .enodev)) 1 true (.error .ebusy) rfl
      (by decide))
  have reach : Reach 0 false reopened :=
    ((off.tail (.xvpClose eager (bootable (.ok ())) 1 true rfl (by decide))).tail
      (.xvpOpen eager (bootable (.ok ())) 2 true false rfl (by decide))).tail
      (.xvpClose eager (bootable (.ok ())) 2 true rfl (by decide))
  exact ⟨reach, by decide, reach_sound reach⟩

end Xrp.Kernel.Power
