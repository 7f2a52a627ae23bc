import Xrp.Exchange.Handshake
import Xrp.Exchange.Interrupt
import Xrp.Sim.Devices

/-!
# The interrupts in the synchronisation data

`init_hw` of `xrp_hw_simple.c` takes from the device tree how either side interrupts the other one,
`get_hw_sync_data` hands it on, and `xrp_hw_set_sync_data` of `xrp_dsp_hw_simple.c` sets up the DSP
with what it reads in the handshake. `synchronize` of `xrp_linux_sim.c` does the same for the
devices of the simulation library.

A mode is a number on the host, and anything else than the three modes is no interrupt in each
`switch` over it. A property that is missing leaves the variable for it uninitialised.
-/

namespace Xrp.Exchange.SyncData

open Kernel Dsp
open Interrupt (XrpIrqMode)

/-! ## The host -/

/-- What a value of `enum xrp_irq_mode` means. -/
def irqMode (v : U32) : XrpIrqMode :=
  if v = 1 then .level else if v = 2 then .edge else .none

/-- `XRP_IRQ_MAX`, and the number of elements of `irq_mode`. -/
def irqMax : U32 := 3

/-- What `init_hw` finds: the start of its registers, its properties, and whether there is an
interrupt line. `uninitialised` are the contents of the variables for the modes. -/
structure HwNode : Type where
  regs : Option ULong
  deviceIrq : Option (Fin 3 → U32)
  deviceIrqHostOffset : Option U32
  deviceIrqMode : Option U32
  hostIrq : Option (Fin 2 → U32)
  hostIrqMode : Option U32
  irq : Bool
  requestIrq : Except Errno Unit
  uninitialised : U32 × U32

/-- `struct xrp_hw_simple`; of `xrp` the member `host_irq_mode`. -/
structure XrpHwSimple : Type where
  regsPhys : ULong
  deviceIrqMode : U32
  deviceIrq : Fin 3 → U32
  deviceIrqHostOffset : U32
  hostIrqMode : U32
  hostIrq : Fin 2 → U32
  xrpHostIrqMode : Bool

/-- The structure as `xrp_hw_simple_probe` allocates it, with its registers. -/
def XrpHwSimple.zeroed (start : ULong) : XrpHwSimple :=
  ⟨start, 0, fun _ => 0, 0, 0, fun _ => 0, false⟩

section Host

variable (node : HwNode) (hw : XrpHwSimple)

/-- `init_hw`, the device interrupt. -/
def initDeviceIrq : XrpHwSimple :=
  match node.deviceIrq with
  | none => hw
  | some irq =>
    let hw :=
      { hw with
        deviceIrq := irq
        deviceIrqHostOffset := node.deviceIrqHostOffset.getD (irq 0) }
    let mode := node.deviceIrqMode.getD node.uninitialised.1
    if mode < irqMax then { hw with deviceIrqMode := mode } else hw

/-- `init_hw`, the host interrupt, and whether `ret` is 0 after it. -/
def initHostIrq : Bool × XrpHwSimple :=
  match node.hostIrq with
  | none => (false, hw)
  | some irq =>
    let hw := { hw with hostIrq := irq }
    let mode := node.hostIrqMode.getD node.uninitialised.2
    -- the mode is taken even if it was not read
    if mode < irqMax then (node.hostIrqMode.isSome, { hw with hostIrqMode := mode })
    else (false, hw)

/-- `init_hw`. -/
def initHw : Except Errno XrpHwSimple :=
  match node.regs with
  | none => .error .enodev
  | some start =>
    let r := initHostIrq node (initDeviceIrq node (.zeroed start))
    if node.irq = true ∧ r.1 = true then
      match node.requestIrq with
      | .error e => .error e
      | .ok () => .ok { r.2 with xrpHostIrqMode := true }
    else .ok r.2

/-- `get_hw_sync_data`. -/
def getHwSyncData : List U32 :=
  [hw.regsPhys.setWidth 32, hw.hostIrqMode] ++ List.ofFn hw.hostIrq ++ [hw.deviceIrqMode] ++
    List.ofFn hw.deviceIrq

end Host

/-! ## The DSP -/

/-- The static variables of `xrp_dsp_hw_simple.c`, and the interrupt that has `xrp_irq_handler`. -/
structure XrpDspHw : Type where
  mmioBase : U32
  hostIrqMode : XrpIrqMode
  deviceIrqMode : XrpIrqMode
  deviceIrqOffset : U32
  deviceIrqBit : U32
  deviceIrq : U32
  hostIrqOffset : U32
  hostIrqBit : U32
  handled : Option U32

section Dsp

variable (word : ℕ → U32) (dsp : XrpDspHw)

/-- `xrp_hw_set_sync_data`, the device interrupt. -/
def setDeviceIrq : XrpDspHw :=
  if word 4 < irqMax then
    { dsp with
      deviceIrqMode := irqMode (word 4)
      deviceIrqOffset := word 5
      deviceIrqBit := word 6
      deviceIrq := word 7 }
  else { dsp with deviceIrqMode := .none }

/-- `xrp_hw_set_sync_data`, the host interrupt. -/
def setHostIrq : XrpDspHw :=
  if word 1 < irqMax then
    { dsp with
      hostIrqMode := irqMode (word 1)
      hostIrqOffset := word 2
      hostIrqBit := word 3 }
  else { dsp with hostIrqMode := .none }

/-- `xrp_hw_set_sync_data`, for the words of the data. -/
def xrpHwSetSyncData : XrpDspHw :=
  let dsp := setHostIrq word (setDeviceIrq word { dsp with mmioBase := word 0 })
  if dsp.deviceIrqMode = .none then dsp else { dsp with handled := some dsp.deviceIrq }

end Dsp

/-! ## Agreement -/

/-- The DSP is set up for what the host does. -/
structure Wired (hw : XrpHwSimple) (dsp : XrpDspHw) : Prop where
  mmioBase : dsp.mmioBase = hw.regsPhys.setWidth 32
  deviceIrqMode : dsp.deviceIrqMode = irqMode hw.deviceIrqMode
  deviceIrqOffset : dsp.deviceIrqOffset = hw.deviceIrq 0
  deviceIrqBit : dsp.deviceIrqBit = hw.deviceIrq 1
  deviceIrq : dsp.deviceIrq = hw.deviceIrq 2
  hostIrqMode : dsp.hostIrqMode = irqMode hw.hostIrqMode
  hostIrqOffset : dsp.hostIrqOffset = hw.hostIrq 0
  hostIrqBit : dsp.hostIrqBit = hw.hostIrq 1
  handled : irqMode hw.deviceIrqMode ≠ .none → dsp.handled = some (hw.deviceIrq 2)

section Agreement

variable {node : HwNode} {hw : XrpHwSimple} {word : ℕ → U32} {dsp : XrpDspHw}

theorem irqMode_eq_none {v : U32} (lt : v < irqMax) : irqMode v = .none ↔ v = 0 := by
  unfold irqMode
  split_ifs with level edge
  · simp [level]
  · simp [edge]
  · refine iff_of_true rfl ?_
    unfold irqMax at lt
    bv_omega

theorem initDeviceIrq_lt (lt : hw.deviceIrqMode < irqMax) :
    (initDeviceIrq node hw).deviceIrqMode < irqMax := by
  unfold initDeviceIrq
  cases node.deviceIrq with
  | none => exact lt
  | some irq =>
    dsimp only
    split_ifs with mode
    · exact mode
    · exact lt

theorem initHostIrq_lt (lt : hw.hostIrqMode < irqMax) :
    (initHostIrq node hw).2.hostIrqMode < irqMax := by
  unfold initHostIrq
  cases node.hostIrq with
  | none => exact lt
  | some irq =>
    dsimp only
    split_ifs with mode
    · exact mode
    · exact lt

/-- The properties of the host interrupt were read. -/
theorem initHostIrq_found (node : HwNode) (hw : XrpHwSimple) :
    (initHostIrq node hw).1 = true ↔
      node.hostIrq.isSome = true ∧ ∃ mode, node.hostIrqMode = some mode ∧ mode < irqMax := by
  unfold initHostIrq
  cases node.hostIrq with
  | none => simp
  | some irq =>
    cases node.hostIrqMode with
    | none =>
      dsimp only
      split_ifs <;> simp
    | some mode =>
      dsimp only [Option.getD_some]
      split_ifs with lt <;> simp [lt]

theorem initHostIrq_deviceIrqMode (node : HwNode) (hw : XrpHwSimple) :
    (initHostIrq node hw).2.deviceIrqMode = hw.deviceIrqMode ∧
      (initHostIrq node hw).2.xrpHostIrqMode = hw.xrpHostIrqMode := by
  unfold initHostIrq
  cases node.hostIrq with
  | none => exact ⟨rfl, rfl⟩
  | some irq =>
    dsimp only
    split_ifs <;> exact ⟨rfl, rfl⟩

theorem initHostIrq_mode {mode : U32} (irq : node.hostIrq.isSome = true)
    (read : node.hostIrqMode = some mode) (lt : mode < irqMax) :
    (initHostIrq node hw).2.hostIrqMode = mode := by
  unfold initHostIrq
  obtain ⟨irq, found⟩ := Option.isSome_iff_exists.mp irq
  simp [found, read, lt]

theorem initDeviceIrq_hostIrqMode (node : HwNode) (hw : XrpHwSimple) :
    (initDeviceIrq node hw).hostIrqMode = hw.hostIrqMode ∧
      (initDeviceIrq node hw).xrpHostIrqMode = hw.xrpHostIrqMode := by
  unfold initDeviceIrq
  cases node.deviceIrq with
  | none => exact ⟨rfl, rfl⟩
  | some irq =>
    dsimp only
    split_ifs <;> exact ⟨rfl, rfl⟩

/-- The device interrupt is initialised, then the host interrupt. -/
theorem initHw_cases (probed : initHw node = .ok hw) :
    ∃ before : XrpHwSimple, before.deviceIrqMode < irqMax ∧ before.hostIrqMode < irqMax ∧
      hw = { (initHostIrq node before).2 with
        xrpHostIrqMode := node.irq && (initHostIrq node before).1 } := by
  unfold initHw at probed
  cases regs : node.regs with
  | none =>
    rw [regs] at probed
    cases probed
  | some start =>
    have zero : (0 : U32) < irqMax := by decide
    obtain ⟨mode, polls⟩ := initDeviceIrq_hostIrqMode node (.zeroed start)
    refine ⟨initDeviceIrq node (.zeroed start), initDeviceIrq_lt zero,
      lt_of_eq_of_lt mode zero, ?_⟩
    rw [regs] at probed
    dsimp only at probed
    generalize initDeviceIrq node (.zeroed start) = before at probed polls
    obtain ⟨-, same⟩ := initHostIrq_deviceIrqMode node before
    split_ifs at probed with found
    · cases request : node.requestIrq with
      | error e =>
        rw [request] at probed
        cases probed
      | ok _ =>
        rw [request] at probed
        cases probed
        rw [found.1, found.2]
        rfl
    · cases probed
      have off : (node.irq && (initHostIrq node before).1) = false := by simpa using found
      have same' : (initHostIrq node before).2.xrpHostIrqMode = false := same.trans polls
      rw [off, ← same']

/-- What is known of a device that was found. -/
theorem initHw_ok (probed : initHw node = .ok hw) :
    hw.deviceIrqMode < irqMax ∧ hw.hostIrqMode < irqMax ∧
      (hw.xrpHostIrqMode = true ↔ node.irq = true ∧ node.hostIrq.isSome = true ∧
        ∃ mode, node.hostIrqMode = some mode ∧ mode < irqMax) ∧
      (∀ mode, node.hostIrq.isSome = true → node.hostIrqMode = some mode → mode < irqMax →
        hw.hostIrqMode = mode) := by
  obtain ⟨before, device, host, rfl⟩ := initHw_cases probed
  refine ⟨?_, initHostIrq_lt host, ?_, fun mode irq read lt => initHostIrq_mode irq read lt⟩
  · exact lt_of_eq_of_lt (initHostIrq_deviceIrqMode node before).1 device
  · rw [← initHostIrq_found node before]
    exact Bool.and_eq_true_iff

/-- The DSP reads back what the host has written. -/
theorem wired_of_words (device : hw.deviceIrqMode < irqMax) (host : hw.hostIrqMode < irqMax)
    (words : ∀ i v, (getHwSyncData hw)[i]? = some v → word i = v) :
    Wired hw (xrpHwSetSyncData word dsp) := by
  have zero := words 0 _ rfl
  have one := words 1 _ rfl
  have two := words 2 _ rfl
  have three := words 3 _ rfl
  have four := words 4 _ rfl
  have five := words 5 _ rfl
  have six := words 6 _ rfl
  have seven := words 7 _ rfl
  unfold xrpHwSetSyncData setHostIrq setDeviceIrq
  simp only [zero, one, two, three, four, five, six, seven, if_pos device, if_pos host]
  split_ifs with off
  · exact ⟨rfl, rfl, rfl, rfl, rfl, rfl, rfl, rfl, fun on => absurd off on⟩
  · exact ⟨rfl, rfl, rfl, rfl, rfl, rfl, rfl, rfl, fun _ => rfl⟩

variable {order dspOrder : ByteOrder} {handlers : Handlers} {s : Handshake.State}

/-- **Host and DSP agree on the interrupts.** Whatever the device tree says and uninitialised
variables contain, in every run of the handshake the DSP is set up for what the host does. The host
waits for interrupts that the DSP does not send exactly if the tree says so. -/
theorem reach_wired (dsp : XrpDspHw) (probed : initHw node = .ok hw)
    (reach : Handshake.Reach order dspOrder handlers (order.bytes (getHwSyncData hw)) s)
    (read : ∀ i < 8, (i, word i) ∈ s.reads) :
    Wired hw (xrpHwSetSyncData word dsp) ∧
      (hw.xrpHostIrqMode = true ∧ (xrpHwSetSyncData word dsp).hostIrqMode = .none ↔
        node.irq = true ∧ node.hostIrq.isSome = true ∧ node.hostIrqMode = some 0) := by
  obtain ⟨device, host, waits_iff, mode_eq⟩ := initHw_ok probed
  have words (i : ℕ) (v : U32) (get : (getHwSyncData hw)[i]? = some v) : word i = v := by
    have lt : i < 8 := (List.getElem?_eq_some_iff.mp get).1
    refine reach.inv.reads i _ v (read i lt) ?_
    rw [ByteOrder.words_bytes]
    exact get
  have wired : Wired hw (xrpHwSetSyncData word dsp) := wired_of_words device host words
  refine ⟨wired, ?_⟩
  rw [wired.hostIrqMode, irqMode_eq_none host, waits_iff]
  constructor
  · rintro ⟨⟨irq, some, mode, read, lt⟩, zero⟩
    rw [read, ← zero, mode_eq mode some read lt]
    exact ⟨irq, some, rfl⟩
  · rintro ⟨irq, some, read⟩
    have lt : (0 : U32) < irqMax := by decide
    exact ⟨⟨irq, some, 0, read, lt⟩, mode_eq 0 some read lt⟩

/-! ### A handshake for any data -/

variable {data : List U8}

/-- The host writes all its words. -/
theorem exists_written {w : ℕ} (vs : List U32) (behind : 0 < w)
    (reach : Handshake.Reach order dspOrder handlers data s)
    (host : s.host = .writing (xrpCommWrite w vs)) :
    ∃ s', Handshake.Reach order dspOrder handlers data s' ∧ s'.host = .writing (.ret ()) ∧
      s'.dsp = s.dsp ∧ s'.sync = s.sync := by
  induction vs generalizing s w with
  | nil => exact ⟨s, reach, host, rfl, rfl⟩
  | cons v vs ih =>
    obtain ⟨s', reach', host', dsp, sync⟩ := ih (Nat.succ_pos w) (reach.host (.write host)) rfl
    exact ⟨s', reach', host', dsp, sync.trans (Function.update_of_ne behind.ne _ _)⟩

/-- The DSP can read any number of words while it is in `xrp_hw_set_sync_data`. -/
theorem exists_reads (n : ℕ) (reach : Handshake.Reach order dspOrder handlers data s)
    (dsp : s.dsp = .setSyncData) :
    ∃ s', Handshake.Reach order dspOrder handlers data s' ∧ s'.dsp = .setSyncData ∧
      s'.comm = s.comm ∧ ∀ i < n, (i, s.comm (Handshake.hwSyncData + i)) ∈ s'.reads := by
  induction n with
  | zero => exact ⟨s, reach, dsp, rfl, fun i lt => absurd lt (Nat.not_lt_zero i)⟩
  | succ n ih =>
    obtain ⟨s', reach', dsp', comm, reads⟩ := ih
    refine ⟨_, reach'.dsp (.read n dsp'), dsp', comm, fun i lt => ?_⟩
    rcases Nat.lt_succ_iff_lt_or_eq.mp lt with earlier | rfl
    · exact List.mem_append_left _ (reads i earlier)
    · rw [← comm]
      exact List.mem_append_right _ (List.mem_singleton_self _)

/-- For any data there is a handshake in which the DSP reads its words. -/
theorem exists_reach (order dspOrder : ByteOrder) (handlers : Handlers) (data : List U8) (n : ℕ) :
    ∃ (s : Handshake.State) (word : ℕ → U32), Handshake.Reach order dspOrder handlers data s ∧
      ∀ i < n, (i, word i) ∈ s.reads := by
  let s₀ : Handshake.State := ⟨fun _ => 0, .start, .waiting, false, 0, [], 0⟩
  have initial : Handshake.Initial s₀ := ⟨rfl, rfl, rfl, rfl, rfl, rfl, rfl⟩
  have begun : Handshake.Reach order dspOrder handlers data s₀ := ⟨s₀, initial, .refl⟩
  have start := begun.host (.start rfl)
  have call := start.dsp (.call ⟨0, 0, fun _ => ⟨fun _ => 0, 0, 0⟩⟩ rfl)
  have seen := call.dsp (.seen rfl rfl)
  have handshake := seen.dsp (.handshake rfl)
  have started := handshake.dsp (.started rfl rfl)
  have polls := started.dsp (.writeReady rfl)
  have writes := polls.host (.ready rfl rfl)
  obtain ⟨s₁, wrote, host, dsp, sync⟩ := exists_written _ Nat.one_pos writes rfl
  have written := wrote.host (.written host)
  have published := written.host (.publish rfl)
  have sets := published.dsp (.callSet dsp rfl)
  obtain ⟨s, reach, -, -, reads⟩ := exists_reads n sets rfl
  exact ⟨s, _, reach, reads⟩

end Agreement

/-- A node with both interrupts, that of the DSP without a mode. -/
def unsetMode (uninitialised : U32) : HwNode where
  regs := some 0xfd000000
  deviceIrq := some ![0x10, 0, 12]
  deviceIrqHostOffset := none
  deviceIrqMode := none
  hostIrq := some ![0x14, 1]
  hostIrqMode := some 2
  irq := true
  requestIrq := .ok ()
  uninitialised := (uninitialised, 0)

/-- What `init_hw` makes of it if the mode happens to be that of a level interrupt. -/
def levelByChance : XrpHwSimple := ⟨0xfd000000, 1, ![0x10, 0, 12], 0x10, 2, ![0x14, 1], true⟩

/-- The DSP then waits for a level interrupt, and the host sends it. -/
theorem reach_wired_levelByChance :
    initHw (unsetMode 1) = .ok levelByChance ∧
      ∃ s word, Handshake.Reach .little .little (fun _ _ => .ret .success)
          (ByteOrder.little.bytes (getHwSyncData levelByChance)) s ∧
        (∀ i < 8, (i, word i) ∈ s.reads) ∧
        ∀ dsp, (xrpHwSetSyncData word dsp).deviceIrqMode = .level ∧
          (xrpHwSetSyncData word dsp).handled = some 12 := by
  obtain ⟨s, word, reach, reads⟩ := exists_reach .little .little (fun _ _ => .ret .success)
    (ByteOrder.little.bytes (getHwSyncData levelByChance)) 8
  have probed : initHw (unsetMode 1) = .ok levelByChance := rfl
  refine ⟨probed, s, word, reach, reads, fun dsp => ?_⟩
  obtain ⟨wired, -⟩ := reach_wired dsp probed reach reads
  exact ⟨wired.deviceIrqMode, wired.handled (by decide)⟩

/-! ## The simulation library -/

section Sim

open Sim.Devices

variable (beyond : U32 → U32) (d : XrpDeviceDescription)

/-- The table `irq_mode` of `synchronize`; `beyond` is what is in memory behind it. -/
def irqModeTable (mode : U32) : U32 := if mode < irqMax then mode else beyond mode

/-- The words that `synchronize` writes. -/
def synchronizeWords : ℕ → U32
  | 0 => d.ioBase
  | 4 => irqModeTable beyond d.deviceIrqMode
  | 5 => d.deviceIrq 0
  | 6 => d.deviceIrq 1
  | 7 => d.deviceIrq 2
  | _ => 0

/-- The DSP is set up for the device interrupt that `xrp_send_device_irq` sends. -/
structure SimWired (d : XrpDeviceDescription) (dsp : XrpDspHw) : Prop where
  deviceIrqMode : dsp.deviceIrqMode = irqMode d.deviceIrqMode
  mmioBase : dsp.mmioBase = d.ioBase
  deviceIrqOffset : dsp.deviceIrqMode ≠ .none → dsp.deviceIrqOffset = d.deviceIrq 0
  deviceIrqBit : dsp.deviceIrqMode ≠ .none → dsp.deviceIrqBit = d.deviceIrq 1
  handled : dsp.deviceIrqMode ≠ .none → dsp.handled = some (d.deviceIrq 2)

/-- The mode in a node that `init_cdns_xrp_hw_simple_common` uses. -/
def usedMode (c : Compatible) (node : Node) : U32 :=
  if c = .xrp ∨ c = .xrpV1 ∨ (getprop node.deviceIrq 12).isNone then 0
  else (getprop node.deviceIrqMode 4).elim 0 fun mode => getpropU32 mode 0

variable {d} {sys : System} {c : Compatible} {node : Node}

theorem initAreas_deviceIrqMode {len : ℕ} {areas : List U8 → XrpDeviceDescription}
    (zero : ∀ reg, (areas reg).deviceIrqMode = 0)
    (found : initAreas sys len areas node = ⟨true, some d⟩) : d.deviceIrqMode = 0 := by
  obtain ⟨reg, commPtr, sharedPtr, rfl⟩ := initAreas_ok found
  exact zero reg

theorem initCdnsXrpHwSimpleCommon_deviceIrqMode {before : XrpDeviceDescription}
    (zero : before.deviceIrqMode = 0) (other : ¬ (c = .xrp ∨ c = .xrpV1)) :
    (initCdnsXrpHwSimpleCommon node before).deviceIrqMode = usedMode c node := by
  have simple : c ≠ .xrp ∧ c ≠ .xrpV1 := not_or.mp other
  unfold initCdnsXrpHwSimpleCommon usedMode
  cases getprop node.deviceIrqMode 4 with
  | none => simp [zero]
  | some mode =>
    dsimp only
    split_ifs with off unused unused
    · exact zero
    · simpa [off] using zero
    · rcases unused with same | same | missing
      · exact absurd same simple.1
      · exact absurd same simple.2
      · rw [Option.isNone_iff_eq_none.mp missing]
        exact zero
    · cases irq : getprop node.deviceIrq 12 with
      | none => simp [irq] at unused
      | some irq => rfl

theorem thenHwSimple_deviceIrqMode {init : Node → Init}
    (zero : ∀ {d}, init node = ⟨true, some d⟩ → d.deviceIrqMode = 0)
    (other : ¬ (c = .xrp ∨ c = .xrpV1)) (found : thenHwSimple init node = ⟨true, some d⟩) :
    d.deviceIrqMode = usedMode c node := by
  obtain ⟨before, first, rfl⟩ := thenHwSimple_ok found
  exact initCdnsXrpHwSimpleCommon_deviceIrqMode (zero first) other

theorem init_deviceIrqMode (found : init sys c node = ⟨true, some d⟩) :
    d.deviceIrqMode = usedMode c node := by
  cases c with
  | xrp =>
    rw [usedMode, if_pos (.inl rfl)]
    exact initAreas_deviceIrqMode (fun _ => rfl) found
  | xrpV1 =>
    rw [usedMode, if_pos (.inr (.inl rfl))]
    exact initAreas_deviceIrqMode (fun _ => rfl) found
  | xrpHwSimple =>
    exact thenHwSimple_deviceIrqMode (fun first => initAreas_deviceIrqMode (fun _ => rfl) first)
      (by decide) found
  | xrpHwSimpleV1 =>
    exact thenHwSimple_deviceIrqMode (fun first => initAreas_deviceIrqMode (fun _ => rfl) first)
      (by decide) found

theorem simWired_of_lt (beyond : U32 → U32) (dsp : XrpDspHw) (lt : d.deviceIrqMode < irqMax) :
    SimWired d (xrpHwSetSyncData (synchronizeWords beyond d) dsp) := by
  have host : (0 : U32) < irqMax := by decide
  unfold xrpHwSetSyncData setHostIrq setDeviceIrq
  simp only [synchronizeWords, irqModeTable, if_pos lt, if_pos host]
  split_ifs with off
  · exact ⟨rfl, rfl, fun on => absurd off on, fun on => absurd off on, fun on => absurd off on⟩
  · exact ⟨rfl, rfl, fun _ => rfl, fun _ => rfl, fun _ => rfl⟩

/-- A mode that the table does not have is no interrupt for the host, and may be one for the
DSP. -/
theorem not_simWired (dsp : XrpDspHw) (ge : ¬ d.deviceIrqMode < irqMax) :
    ¬ SimWired d (xrpHwSetSyncData (synchronizeWords (fun _ => 1) d) dsp) := by
  intro wired
  have level : (xrpHwSetSyncData (synchronizeWords (fun _ => 1) d) dsp).deviceIrqMode = .level := by
    unfold xrpHwSetSyncData setHostIrq setDeviceIrq
    simp only [synchronizeWords, irqModeTable, if_neg ge]
    rfl
  have none : irqMode d.deviceIrqMode = .none := by
    unfold irqMode
    unfold irqMax at ge
    rw [if_neg, if_neg] <;> bv_omega
  have mode := wired.deviceIrqMode
  rw [level, none] at mode
  cases mode

/-- **The simulation library and the DSP agree on the device interrupt** whatever is in memory
behind the table of modes, if and only if the mode that is used of the node is in the table. -/
theorem simWired_iff (dsp : XrpDspHw) (found : init sys c node = ⟨true, some d⟩) :
    (∀ beyond, SimWired d (xrpHwSetSyncData (synchronizeWords beyond d) dsp)) ↔
      usedMode c node < irqMax := by
  rw [← init_deviceIrqMode found]
  constructor
  · intro wired
    by_contra ge
    exact not_simWired dsp ge (wired _)
  · intro lt beyond
    exact simWired_of_lt beyond dsp lt

/-- A node with mode 3. -/
def modeThree : Node where
  compatible := [.xrpHwSimpleV1]
  reg := some (List.replicate 16 0)
  deviceIrqMode := some [0, 0, 0, 3]
  deviceIrq := some (List.replicate 12 0)
  deviceIrqHostOffset := none

theorem simWired_iff_modeThree :
    ∃ d, init ⟨fun _ => some 0, fun _ _ => true⟩ .xrpHwSimpleV1 modeThree = ⟨true, some d⟩ ∧
      ∀ dsp, ¬ ∀ beyond, SimWired d (xrpHwSetSyncData (synchronizeWords beyond d) dsp) := by
  have found : init ⟨fun _ => some 0, fun _ _ => true⟩ .xrpHwSimpleV1 modeThree =
      ⟨true, some _⟩ := rfl
  refine ⟨_, found, fun dsp wired => ?_⟩
  exact absurd ((simWired_iff dsp found).mp wired) (by decide)

end Sim

end Xrp.Exchange.SyncData
