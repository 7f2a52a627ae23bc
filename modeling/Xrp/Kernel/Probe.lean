import Xrp.Kernel.PowerSound

/-!
# Probing and removing a device

`xrp_init_common` obtains what a device needs step by step and gives it back from a label on
when a step fails, and `xrp_deinit` gives it back when the device is removed. What is obtained
from the kernel is kept in a ledger: what is held, and what was given back without being held.
The memory mapped by `devm_ioremap_resource` and all other `devm_` memory belongs to the kernel.

Whichever way a device ends, the last thing that happens to its ledger is the code at
`err_free_pool`, for what the function for its memory has left (`xrpInitCommon_ended`,
`xrpDeinit_registered`).
-/

namespace Xrp.Kernel.Probe

open FirmwareObjects (Env ReleasedOnce Balanced)
open Power (xrpRuntimeResume xrpRuntimeSuspend power)
open Submit (loopbackNommio)

/-! ## The driver -/

/-- The functions for the memory of a device: `xrp_init_regs_v0`, `xrp_init_regs_v1` and
`xrp_init_regs_cma`. -/
inductive Variant : Type
  | v0
  | v1
  | cma
  deriving DecidableEq

/-- What is obtained from the kernel: the reserved memory of the device, the page of the
communication area, the pool and the first entry of the free list of a private pool, the address
map, runtime power management and the node. -/
inductive Resource : Type
  | reservedMem
  | comm
  | pool
  | entry
  | addressMap
  | runtimePm
  | miscdev
  deriving DecidableEq

/-- `struct resource`, with the result of `resource_size`. -/
structure MemResource : Type where
  start : ULong
  size : ULong

/-- What reading the property `firmware-name` gives; `missing` is for `-EINVAL` and `-ENODATA`. -/
inductive FirmwareName : Type
  | found
  | missing
  | invalid (e : Errno)
  deriving DecidableEq

/-- What functions of the kernel return. -/
structure ProbeEnv : Type where
  resource : ℕ → Option MemResource
  reservedMem : Bool
  dmaAlloc : Option ULong
  kmallocPool : Bool
  kmallocAllocation : Bool
  addressMap : Except Errno Unit
  firmwareName : FirmwareName
  runtimePm : Bool
  boot : Env
  miscRegister : U32 → Except Errno Unit

/-- What of `struct xvp` matters here, the static `xvp_nodeid`, and the ledger. -/
structure Xvp : Type where
  commPhys : ULong
  pmem : ULong
  sharedSize : ULong
  driver : Power.Driver
  nodeid : U32
  held : Finset Resource
  stray : List Resource

/-- The structure as `xrp_probe` allocates it. -/
def Xvp.zeroed (nodeid : U32) : Xvp := ⟨0, 0, 0, ⟨.probed false, []⟩, nodeid, ∅, []⟩

/-- Something is obtained. -/
def Xvp.acquire (r : Resource) (xvp : Xvp) : Xvp := { xvp with held := insert r xvp.held }

/-- Something is given back. -/
def Xvp.release (r : Resource) (xvp : Xvp) : Xvp :=
  { xvp with
    held := xvp.held.erase r
    stray := if r ∈ xvp.held then xvp.stray else xvp.stray ++ [r] }

/-- `PAGE_SIZE`. -/
def pageSize : ULong := 4096

section Driver

variable (v : Variant) (env : ProbeEnv) (xvp : Xvp)

/-- `xrp_init_private_pool`. -/
def xrpInitPrivatePool : Except Errno Unit × Xvp :=
  let xvp := if env.kmallocPool = true then xvp.acquire .pool else xvp
  let xvp := if env.kmallocAllocation = true then xvp.acquire .entry else xvp
  if env.kmallocPool = true ∧ env.kmallocAllocation = true then (.ok (), xvp)
  else
    let xvp := if env.kmallocPool = true then xvp.release .pool else xvp
    let xvp := if env.kmallocAllocation = true then xvp.release .entry else xvp
    (.error .enomem, xvp)

/-- `xrp_init_cma_pool`. -/
def xrpInitCmaPool : Except Errno Unit × Xvp :=
  if env.kmallocPool = true then (.ok (), xvp.acquire .pool) else (.error .enomem, xvp)

/-- `xrp_init_regs_v0`. -/
def xrpInitRegsV0 : Except Errno Unit × Xvp :=
  match env.resource 1 with
  | none => (.error .enodev, xvp)
  | some mem =>
    let xvp := { xvp with commPhys := mem.start }
    match env.resource 2 with
    | none => (.error .enodev, xvp)
    | some mem => xrpInitPrivatePool env { xvp with pmem := mem.start, sharedSize := mem.size }

/-- `xrp_init_regs_v1`. -/
def xrpInitRegsV1 : Except Errno Unit × Xvp :=
  match env.resource 0 with
  | none => (.error .enodev, xvp)
  | some mem =>
    if mem.size < 2 * pageSize then (.error .enomem, xvp)
    else
      xrpInitPrivatePool env
        { xvp with
          commPhys := mem.start
          pmem := mem.start + pageSize
          sharedSize := mem.size - pageSize }

/-- `xrp_init_regs_cma`. -/
def xrpInitRegsCma : Except Errno Unit × Xvp :=
  if env.reservedMem = true then
    let xvp := xvp.acquire .reservedMem
    match env.dmaAlloc with
    | none => (.error .enomem, xvp)
    | some phys => xrpInitCmaPool env { xvp.acquire .comm with commPhys := phys }
  else (.error .enodev, xvp)

/-- The parameter `xrp_init_regs` of `xrp_init_common`. -/
def xrpInitRegs : Except Errno Unit × Xvp :=
  match v with
  | .v0 => xrpInitRegsV0 env xvp
  | .v1 => xrpInitRegsV1 env xvp
  | .cma => xrpInitRegsCma env xvp

/-- `xrp_free_pool`: `xrp_cma_free_pool` and `xrp_private_free_pool`, which frees the first entry
of the free list. -/
def xrpFreePool : Xvp :=
  match v with
  | .v0 | .v1 => (xvp.release .entry).release .pool
  | .cma => xvp.release .pool

/-- `dma_free_attrs` for the communication area, as `xrp_init_common` and `xrp_deinit` have it. -/
def freeComm : Xvp :=
  if xvp.commPhys ≠ 0 ∧ xvp.pmem = 0 then xvp.release .comm else xvp

/-- `xrp_init_common` from `err_free_pool` on. -/
def errFreePool : Xvp := freeComm (xrpFreePool v xvp)

/-- `xrp_init_common` from `err_free_map` on. -/
def errFreeMap : Xvp := errFreePool v (xvp.release .addressMap)

/-- `xrp_init_common` from `err_pm_disable` on. -/
def errPmDisable : Xvp := errFreeMap v (xvp.release .runtimePm)

/-- `xrp_init_common` from where the node gets its name. -/
def registerNode : Except Errno Unit × Xvp :=
  let nodename := xvp.nodeid
  let xvp := { xvp with nodeid := xvp.nodeid + 1 }
  match env.miscRegister nodename with
  | .error e => (.error e, errPmDisable v xvp)
  | .ok () => (.ok (), xvp.acquire .miscdev)

/-- `xrp_init_common` from `pm_runtime_enable` on. -/
def enablePm : Except Errno Unit × Xvp :=
  let xvp := xvp.acquire .runtimePm
  if env.runtimePm = true then registerNode v env xvp
  else
    match xrpRuntimeResume env.boot xvp.driver with
    | (.error e, d) => (.error e, errPmDisable v { xvp with driver := d })
    | (.ok (), d) => registerNode v env { xvp with driver := d }

/-- `xrp_init_common`. -/
def xrpInitCommon (nodeid : U32) : Except Errno Unit × Xvp :=
  match xrpInitRegs v env (.zeroed nodeid) with
  | (.error e, xvp) => (.error e, xvp)
  | (.ok (), xvp) =>
    match env.addressMap with
    | .error e => (.error e, errFreePool v xvp)
    | .ok () =>
      let xvp := xvp.acquire .addressMap
      match env.firmwareName with
      | .invalid e => (.error e, errFreeMap v xvp)
      | .missing => enablePm v env xvp
      | .found =>
        enablePm v env
          { xvp with driver.xvp.firmwareName := true }

/-- `xrp_deinit` from `misc_deregister` on. -/
def deinitRest : Xvp :=
  let xvp := xvp.release .miscdev
  let xvp := { xvp with driver.xvp := FirmwareObjects.xrpDeinit xvp.driver.xvp }
  let xvp := freeComm (xrpFreePool v xvp)
  let xvp := xvp.release .addressMap
  { xvp with nodeid := xvp.nodeid - 1 }

/-- `xrp_deinit`; `suspended` is what `pm_runtime_status_suspended` returns. -/
def xrpDeinit (suspended : Bool) : Xvp :=
  let xvp := xvp.release .runtimePm
  if suspended = true then deinitRest v xvp
  else deinitRest v { xvp with driver := xrpRuntimeSuspend env.boot xvp.driver }

end Driver

/-! ## The ledger -/

section Ledger

variable {r r' : Resource} {xvp : Xvp}

theorem release_acquire (fresh : r ∉ xvp.held) : (xvp.acquire r).release r = xvp := by
  simp [Xvp.acquire, Xvp.release, Finset.erase_insert fresh]

end Ledger

/-! ## What is given back -/

/-- What is never given back: the reserved memory of the device, and the page of the communication
area if there is no memory for the pool or the page is at address zero. -/
def Kept (v : Variant) (env : ProbeEnv) : Resource → Prop
  | .reservedMem => v = .cma ∧ env.reservedMem = true
  | .comm => v = .cma ∧ env.reservedMem = true ∧
    ∃ phys, env.dmaAlloc = some phys ∧ (env.kmallocPool = false ∨ phys = 0)
  | _ => False

/-- The shared memory of the device starts at address zero, and so the mapped communication area
passes for a page that was allocated. -/
def SharedAtZero : Variant → ProbeEnv → Prop
  | .v0, env => ∃ comm shared, env.resource 1 = some comm ∧ env.resource 2 = some shared ∧
    env.kmallocPool = true ∧ env.kmallocAllocation = true ∧ comm.start ≠ 0 ∧ shared.start = 0
  | .v1, env => ∃ mem, env.resource 0 = some mem ∧ 2 * pageSize ≤ mem.size ∧
    env.kmallocPool = true ∧ env.kmallocAllocation = true ∧ mem.start + pageSize = 0
  | .cma, _ => False

/-- All is given back, once, but for what is kept, and nothing else is given back, but for the
mapped communication area. -/
structure GivenBack (v : Variant) (env : ProbeEnv) (xvp : Xvp) : Prop where
  held : ∀ r, r ∈ xvp.held ↔ Kept v env r
  stray : ∀ r ∈ xvp.stray, r = .comm
  stray_iff : .comm ∈ xvp.stray ↔ SharedAtZero v env

/-- What the function for the memory of a device obtains. -/
def regsHeld : Variant → Finset Resource
  | .v0 | .v1 => {.entry, .pool}
  | .cma => {.pool, .comm, .reservedMem}

section Regs

variable {v : Variant} {env : ProbeEnv} {nodeid : U32} {xvp : Xvp}
  {result : Except Errno Unit}

theorem xrpInitPrivatePool_eq (empty : xvp.held = ∅) :
    xrpInitPrivatePool env xvp =
      if env.kmallocPool = true ∧ env.kmallocAllocation = true then
        (.ok (), (xvp.acquire .pool).acquire .entry)
      else (.error .enomem, xvp) := by
  have fresh (r : Resource) : r ∉ xvp.held := by simp [empty]
  unfold xrpInitPrivatePool
  cases env.kmallocPool with
  | true =>
    cases env.kmallocAllocation with
    | true => simp
    | false => simp [release_acquire (fresh .pool)]
  | false =>
    cases env.kmallocAllocation with
    | true => simp [release_acquire (fresh .entry)]
    | false => simp

/-- A device with its memory. -/
structure Mapped (v : Variant) (env : ProbeEnv) (nodeid : U32) (xvp : Xvp) : Prop where
  held : xvp.held = regsHeld v
  stray : xvp.stray = []
  driver : xvp.driver = ⟨.probed false, []⟩
  nodeid : xvp.nodeid = nodeid
  zero_iff : v ≠ .cma → (xvp.commPhys ≠ 0 ∧ xvp.pmem = 0 ↔ SharedAtZero v env)
  cma : v = .cma → xvp.pmem = 0 ∧ env.reservedMem = true ∧ env.kmallocPool = true ∧
    env.dmaAlloc = some xvp.commPhys

theorem xrpInitRegsV0_cases (regs : xrpInitRegsV0 env (.zeroed nodeid) = (result, xvp)) :
    (result = .ok () ∧ Mapped .v0 env nodeid xvp) ∨
      ((∃ e, result = .error e) ∧ ¬ SharedAtZero .v0 env ∧
        ∃ phys pmem size, xvp = ⟨phys, pmem, size, ⟨.probed false, []⟩, nodeid, ∅, []⟩) := by
  unfold xrpInitRegsV0 at regs
  cases first : env.resource 1 with
  | none =>
    rw [first] at regs
    cases regs
    exact .inr ⟨⟨_, rfl⟩, by simp [SharedAtZero, first], 0, 0, 0, rfl⟩
  | some comm =>
    cases second : env.resource 2 with
    | none =>
      simp only [first, second] at regs
      cases regs
      exact .inr ⟨⟨_, rfl⟩, by simp [SharedAtZero, second], comm.start, 0, 0, rfl⟩
    | some shared =>
      simp only [first, second] at regs
      rw [xrpInitPrivatePool_eq rfl] at regs
      split_ifs at regs with memory
      · cases regs
        refine .inl ⟨rfl, rfl, rfl, rfl, rfl, fun _ => ?_, nofun⟩
        simp [Xvp.acquire, SharedAtZero, first, second, memory]
      · cases regs
        refine .inr ⟨⟨_, rfl⟩, ?_, comm.start, shared.start, shared.size, rfl⟩
        rintro ⟨-, -, -, -, pool, entry, -⟩
        exact memory ⟨pool, entry⟩

theorem xrpInitRegsV1_cases (regs : xrpInitRegsV1 env (.zeroed nodeid) = (result, xvp)) :
    (result = .ok () ∧ Mapped .v1 env nodeid xvp) ∨
      ((∃ e, result = .error e) ∧ ¬ SharedAtZero .v1 env ∧
        ∃ phys pmem size, xvp = ⟨phys, pmem, size, ⟨.probed false, []⟩, nodeid, ∅, []⟩) := by
  unfold xrpInitRegsV1 at regs
  cases first : env.resource 0 with
  | none =>
    rw [first] at regs
    cases regs
    exact .inr ⟨⟨_, rfl⟩, by simp [SharedAtZero, first], 0, 0, 0, rfl⟩
  | some mem =>
    simp only [first] at regs
    rw [xrpInitPrivatePool_eq rfl] at regs
    split_ifs at regs with small memory
    · cases regs
      refine .inr ⟨⟨_, rfl⟩, ?_, 0, 0, 0, rfl⟩
      rintro ⟨mem', found, large, -⟩
      rw [first] at found
      cases found
      exact absurd small (BitVec.not_lt.mpr large)
    · cases regs
      refine .inl ⟨rfl, rfl, rfl, rfl, rfl, fun _ => ?_, nofun⟩
      -- a page at address zero leaves no room for a pool at address zero
      have nonzero (zero : mem.start + pageSize = 0) : mem.start ≠ 0 := by
        intro start
        simp [start, pageSize] at zero
      simp only [Xvp.acquire, SharedAtZero, first, Option.some.injEq, exists_eq_left', memory,
        BitVec.not_lt.mp small, true_and, and_iff_right_iff_imp]
      exact nonzero
    · cases regs
      refine .inr ⟨⟨_, rfl⟩, ?_, _, _, _, rfl⟩
      rintro ⟨-, -, -, pool, entry, -⟩
      exact memory ⟨pool, entry⟩

theorem xrpInitRegsCma_cases (regs : xrpInitRegsCma env (.zeroed nodeid) = (result, xvp)) :
    (result = .ok () ∧ Mapped .cma env nodeid xvp) ∨
      ((∃ e, result = .error e) ∧ xvp.stray = [] ∧ (∀ r, r ∈ xvp.held ↔ Kept .cma env r) ∧
        xvp.driver = ⟨.probed false, []⟩ ∧ xvp.nodeid = nodeid) := by
  unfold xrpInitRegsCma at regs
  split_ifs at regs with reserved
  · cases page : env.dmaAlloc with
    | none =>
      simp only [page] at regs
      cases regs
      refine .inr ⟨⟨_, rfl⟩, rfl, fun r => ?_, rfl, rfl⟩
      cases r <;> simp [Xvp.acquire, Xvp.zeroed, Kept, reserved, page]
    | some phys =>
      simp only [page, xrpInitCmaPool] at regs
      split_ifs at regs with memory
      · cases regs
        exact .inl ⟨rfl, rfl, rfl, rfl, rfl, nofun, fun _ => ⟨rfl, reserved, memory, page⟩⟩
      · cases regs
        refine .inr ⟨⟨_, rfl⟩, rfl, fun r => ?_, rfl, rfl⟩
        cases r <;> simp [Xvp.acquire, Xvp.zeroed, Kept, reserved, page, memory]
  · cases regs
    refine .inr ⟨⟨_, rfl⟩, rfl, fun r => ?_, rfl, rfl⟩
    cases r <;> simp [Xvp.zeroed, Kept, reserved]

/-- The function for the memory of a device obtains all of it, or gives back what it can. -/
theorem xrpInitRegs_cases (regs : xrpInitRegs v env (.zeroed nodeid) = (result, xvp)) :
    (result = .ok () ∧ Mapped v env nodeid xvp) ∨
      ((∃ e, result = .error e) ∧ GivenBack v env xvp ∧ xvp.driver = ⟨.probed false, []⟩ ∧
        xvp.nodeid = nodeid) := by
  cases v with
  | v0 =>
    refine (xrpInitRegsV0_cases regs).imp id ?_
    rintro ⟨fails, above, phys, pmem, size, rfl⟩
    refine ⟨fails, ⟨fun r => ?_, nofun, by simp [above]⟩, rfl, rfl⟩
    cases r <;> simp [Kept]
  | v1 =>
    refine (xrpInitRegsV1_cases regs).imp id ?_
    rintro ⟨fails, above, phys, pmem, size, rfl⟩
    refine ⟨fails, ⟨fun r => ?_, nofun, by simp [above]⟩, rfl, rfl⟩
    cases r <;> simp [Kept]
  | cma =>
    refine (xrpInitRegsCma_cases regs).imp id ?_
    rintro ⟨fails, stray, held, driver, same⟩
    exact ⟨fails, ⟨held, by simp [stray], by simp [stray, SharedAtZero]⟩, driver, same⟩

/-- After a private pool was freed, the communication area is not held, and giving it back is
what should not happen. -/
theorem freeComm_private (xvp : Xvp) (held : xvp.held = {.entry, .pool})
    (stray : xvp.stray = []) :
    (freeComm ((xvp.release .entry).release .pool)).held = ∅ ∧
      (freeComm ((xvp.release .entry).release .pool)).stray =
        if xvp.commPhys ≠ 0 ∧ xvp.pmem = 0 then [.comm] else [] := by
  have freed : (xvp.release .entry).release .pool = { xvp with held := ∅ } := by
    have empty : ({.entry, .pool} : Finset Resource).erase .entry = {.pool} := by decide
    simp [Xvp.release, held, empty]
  rw [freed]
  unfold freeComm
  split_ifs with zero
  · simp [Xvp.release, stray]
  · exact ⟨rfl, stray⟩

/-- After the pool for reserved memory was freed, the page of the communication area is held. -/
theorem freeComm_cma (xvp : Xvp) (held : xvp.held = {.pool, .comm, .reservedMem})
    (stray : xvp.stray = []) (pmem : xvp.pmem = 0) :
    (freeComm (xvp.release .pool)).held =
        (if xvp.commPhys = 0 then {.comm, .reservedMem} else {.reservedMem}) ∧
      (freeComm (xvp.release .pool)).stray = [] := by
  have freed : xvp.release .pool = { xvp with held := {.comm, .reservedMem} } := by
    have rest : ({.pool, .comm, .reservedMem} : Finset Resource).erase .pool =
        {.comm, .reservedMem} := by decide
    simp [Xvp.release, held, rest]
  have rest : ({.comm, .reservedMem} : Finset Resource).erase .comm = {.reservedMem} := by decide
  rw [freed]
  unfold freeComm
  by_cases zero : xvp.commPhys = 0
  · rw [if_pos zero, if_neg fun free => free.1 zero]
    exact ⟨rfl, stray⟩
  · rw [if_neg zero, if_pos ⟨zero, pmem⟩]
    simp [Xvp.release, rest, stray]

/-- The code at `err_free_pool` gives back the memory of a device. -/
theorem Mapped.givenBack (mapped : Mapped v env nodeid xvp) (d : Power.Driver) (n : U32) :
    GivenBack v env (errFreePool v { xvp with driver := d, nodeid := n }) := by
  have ofPrivate (other : v ≠ .cma) {xvp' : Xvp} (held : xvp'.held = ∅)
      (stray : xvp'.stray = if xvp.commPhys ≠ 0 ∧ xvp.pmem = 0 then [.comm] else []) :
      GivenBack v env xvp' := by
    refine ⟨fun r => ?_, fun r member => ?_, ?_⟩
    · cases r <;> simp [held, Kept, other]
    · rw [stray] at member
      split_ifs at member with zero
      · exact List.mem_singleton.mp member
      · cases member
    · rw [stray, ← mapped.zero_iff other]
      split_ifs with zero
      · exact iff_of_true (List.mem_singleton_self _) zero
      · exact iff_of_false List.not_mem_nil zero
  cases v with
  | v0 =>
    obtain ⟨held, stray⟩ := freeComm_private { xvp with driver := d, nodeid := n }
      mapped.held mapped.stray
    exact ofPrivate nofun held stray
  | v1 =>
    obtain ⟨held, stray⟩ := freeComm_private { xvp with driver := d, nodeid := n }
      mapped.held mapped.stray
    exact ofPrivate nofun held stray
  | cma =>
    obtain ⟨pmem, reserved, memory, page⟩ := mapped.cma rfl
    obtain ⟨held, stray⟩ := freeComm_cma { xvp with driver := d, nodeid := n }
      mapped.held mapped.stray pmem
    refine ⟨fun r => ?_, fun r member => ?_, ?_⟩
    · rw [errFreePool, xrpFreePool, held]
      by_cases zero : xvp.commPhys = 0
      · rw [if_pos zero]
        cases r <;> simp [Kept, reserved, memory, page, show xvp.commPhys = 0#64 from zero]
      · rw [if_neg zero]
        cases r <;> simp [Kept, reserved, memory, page, show xvp.commPhys ≠ 0#64 from zero]
    · rw [errFreePool, xrpFreePool, stray] at member
      cases member
    · rw [errFreePool, xrpFreePool, stray]
      simp [SharedAtZero]

end Regs

/-! ## The ways `xrp_init_common` ends -/

/-- A device that is registered. -/
def Xvp.registered (xvp : Xvp) : Xvp :=
  ((xvp.acquire .addressMap).acquire .runtimePm).acquire .miscdev

/-- All that `xrp_init_common` does before `misc_register` succeeds. -/
structure ReachesNode (v : Variant) (env : ProbeEnv) (nodeid : U32) : Prop where
  regs : (xrpInitRegs v env (.zeroed nodeid)).1 = .ok ()
  addressMap : env.addressMap = .ok ()
  firmwareName : ∀ e, env.firmwareName ≠ .invalid e
  boots : env.runtimePm = false →
    (xrpRuntimeResume env.boot ⟨.probed (decide (env.firmwareName = .found)), []⟩).1 = .ok ()

/-- The node cannot be registered. -/
def NodeRefused (v : Variant) (env : ProbeEnv) (nodeid : U32) : Prop :=
  ReachesNode v env nodeid ∧ ∃ e, env.miscRegister nodeid = .error e

/-- How the DSP is left. -/
structure Booted (env : ProbeEnv) (enabled : Bool) (d : Power.Driver) : Prop where
  logged : Power.Logged env.boot.loopback d enabled false
  objects : FirmwareObjects.Inv d.xvp
  probed : env.runtimePm = true → ∃ firmwareName, d = ⟨.probed firmwareName, []⟩

section Init

variable {v : Variant} {env : ProbeEnv} {nodeid : U32} {xvp xvp' : Xvp} {d : Power.Driver}
  {result : Except Errno Unit}

@[simp] theorem errFreePool_driver : (errFreePool v xvp).driver = xvp.driver := by
  unfold errFreePool freeComm
  cases v <;> split_ifs <;> rfl

theorem Mapped.fresh (mapped : Mapped v env nodeid xvp) :
    .addressMap ∉ xvp.held ∧ .runtimePm ∉ xvp.held ∧ .miscdev ∉ xvp.held := by
  rw [mapped.held]
  cases v <;> decide

theorem errPmDisable_acquire (map : .addressMap ∉ xvp.held) (pm : .runtimePm ∉ xvp.held) :
    errPmDisable v ((xvp.acquire .addressMap).acquire .runtimePm) = errFreePool v xvp := by
  have pm' : .runtimePm ∉ (xvp.acquire .addressMap).held := by simp [Xvp.acquire, pm]
  rw [errPmDisable, release_acquire pm', errFreeMap, release_acquire map]

theorem registerNode_cases (mapped : Mapped v env nodeid xvp)
    (registers : registerNode v env
      (({ xvp with driver := d }.acquire .addressMap).acquire .runtimePm) = (result, xvp')) :
    ((∃ e, result = .error e ∧ env.miscRegister nodeid = .error e) ∧
        xvp' = errFreePool v { xvp with driver := d, nodeid := nodeid + 1 }) ∨
      (result = .ok () ∧
        xvp' = Xvp.registered { xvp with driver := d, nodeid := nodeid + 1 }) := by
  obtain ⟨map, pm, -⟩ := mapped.fresh
  have undo : errPmDisable v (({ xvp with driver := d, nodeid := nodeid + 1 }.acquire
      .addressMap).acquire .runtimePm) = _ := errPmDisable_acquire map pm
  unfold registerNode at registers
  simp only [Xvp.acquire, mapped.nodeid] at registers undo
  cases node : env.miscRegister nodeid with
  | error e =>
    simp only [node, undo] at registers
    cases registers
    exact .inl ⟨⟨e, rfl, rfl⟩, rfl⟩
  | ok _ =>
    simp only [node] at registers
    cases registers
    exact .inr ⟨rfl, rfl⟩

theorem Booted.of_probed (env : ProbeEnv) (firmwareName : Bool) :
    Booted env false ⟨.probed firmwareName, []⟩ :=
  ⟨.probed _ firmwareName, .probed firmwareName, fun _ => ⟨firmwareName, rfl⟩⟩

theorem Booted.of_resume {firmwareName : Bool} (always : env.runtimePm = false)
    (resumed : xrpRuntimeResume env.boot ⟨.probed firmwareName, []⟩ = (result, d)) :
    Booted env result.isOk d := by
  have disabled := Power.Logged.probed env.boot.loopback firmwareName
  have objects : FirmwareObjects.Inv d.xvp := by
    have erases : Power.Erases (xrpRuntimeResume env.boot ⟨.probed firmwareName, []⟩) _ :=
      Power.xrpRuntimeResume_erases
    rw [resumed] at erases
    have xvp : d.xvp = _ := congrArg Prod.snd erases
    rw [xvp]
    exact (FirmwareObjects.Inv.probed firmwareName).xrpRuntimeResume
  refine ⟨?_, objects, by simp [always]⟩
  cases result with
  | error e => exact disabled.resume_fails rfl resumed
  | ok _ => exact disabled.resume rfl resumed

/-- `xrp_init_common` fails and gives back, or registers the device. A DSP that is enabled by then
stays so. -/
def Ended (v : Variant) (env : ProbeEnv) (nodeid : U32) (result : Except Errno Unit)
    (xvp' : Xvp) : Prop :=
  ((∃ e, result = .error e) ∧ GivenBack v env xvp' ∧ ∃ enabled, Booted env enabled xvp'.driver ∧
      (enabled = true ↔ env.runtimePm = false ∧ NodeRefused v env nodeid)) ∨
    (result = .ok () ∧ ∃ xvp d, Mapped v env nodeid xvp ∧ Booted env (!env.runtimePm) d ∧
      xvp' = Xvp.registered { xvp with driver := d, nodeid := nodeid + 1 })

theorem Mapped.ended_error (mapped : Mapped v env nodeid xvp) {n : U32} {enabled : Bool}
    (e : Errno) (booted : Booted env enabled d)
    (enabled_iff : enabled = true ↔ env.runtimePm = false ∧ NodeRefused v env nodeid) :
    Ended v env nodeid (.error e) (errFreePool v { xvp with driver := d, nodeid := n }) := by
  refine .inl ⟨⟨e, rfl⟩, mapped.givenBack d n, enabled, ?_, enabled_iff⟩
  rw [errFreePool_driver]
  exact booted

theorem registerNode_ended (mapped : Mapped v env nodeid xvp)
    (reaches : ReachesNode v env nodeid) (booted : Booted env (!env.runtimePm) d)
    (registers : registerNode v env
      (({ xvp with driver := d }.acquire .addressMap).acquire .runtimePm) = (result, xvp')) :
    Ended v env nodeid result xvp' := by
  rcases registerNode_cases mapped registers with ⟨⟨e, rfl, refused⟩, rfl⟩ | ⟨rfl, rfl⟩
  · refine mapped.ended_error e booted ?_
    rw [Bool.not_eq_true']
    exact ⟨fun always => ⟨always, reaches, e, refused⟩, And.left⟩
  · exact .inr ⟨rfl, xvp, d, mapped, booted, rfl⟩

/-- Whatever keeps the device from its node leaves the DSP disabled. -/
theorem disabled_iff (stops : ¬ ReachesNode v env nodeid) :
    false = true ↔ env.runtimePm = false ∧ NodeRefused v env nodeid :=
  iff_of_false Bool.false_ne_true fun refused => stops refused.2.1

theorem enablePm_ended (firmwareName : Bool)
    (found : firmwareName = decide (env.firmwareName = .found))
    (valid : ∀ e, env.firmwareName ≠ .invalid e) (map : env.addressMap = .ok ())
    (regs : (xrpInitRegs v env (.zeroed nodeid)).1 = .ok ())
    (mapped : Mapped v env nodeid xvp)
    (enables : enablePm v env
      ({ xvp with driver := ⟨.probed firmwareName, []⟩ }.acquire .addressMap) = (result, xvp')) :
    Ended v env nodeid result xvp' := by
  unfold enablePm at enables
  cases managed : env.runtimePm with
  | true =>
    rw [managed] at enables
    have reaches : ReachesNode v env nodeid := ⟨regs, map, valid, by simp [managed]⟩
    refine registerNode_ended mapped reaches ?_ enables
    rw [managed]
    exact .of_probed env firmwareName
  | false =>
    rw [managed] at enables
    cases resumed : xrpRuntimeResume env.boot ⟨.probed firmwareName, []⟩ with
    | mk r d =>
      have booted : Booted env r.isOk d := .of_resume managed resumed
      have boots : (xrpRuntimeResume env.boot
          ⟨.probed (decide (env.firmwareName = .found)), []⟩).1 = r := by rw [← found, resumed]
      simp only [Xvp.acquire, Bool.false_eq_true, if_false, resumed] at enables
      cases r with
      | error e =>
        obtain ⟨map, pm, -⟩ := mapped.fresh
        have undo : errPmDisable v (({ xvp with driver := d }.acquire .addressMap).acquire
            .runtimePm) = _ := errPmDisable_acquire map pm
        simp only [Xvp.acquire] at undo
        simp only [undo] at enables
        cases enables
        have stops : ¬ ReachesNode v env nodeid := fun reaches => by
          cases boots.symm.trans (reaches.boots managed)
        exact mapped.ended_error e booted (disabled_iff stops)
      | ok _ =>
        have reaches : ReachesNode v env nodeid := ⟨regs, map, valid, fun _ => boots⟩
        refine registerNode_ended mapped reaches ?_ enables
        rw [managed]
        exact booted

/-- **Every way through `xrp_init_common`.** -/
theorem xrpInitCommon_ended (init : xrpInitCommon v env nodeid = (result, xvp')) :
    Ended v env nodeid result xvp' := by
  unfold xrpInitCommon at init
  cases regs : xrpInitRegs v env (.zeroed nodeid) with
  | mk r xvp =>
    rw [regs] at init
    rcases xrpInitRegs_cases regs with ⟨rfl, mapped⟩ | ⟨⟨e, rfl⟩, givenBack, driver, same⟩
    · have plain : xvp = { xvp with driver := ⟨.probed false, []⟩, nodeid := nodeid } := by
        rw [← mapped.driver, ← mapped.nodeid]
      have ended (e : Errno) (stops : ¬ ReachesNode v env nodeid) :=
        mapped.ended_error (n := nodeid) e (.of_probed env false) (disabled_iff stops)
      rw [← plain] at ended
      have success : (xrpInitRegs v env (.zeroed nodeid)).1 = .ok () := by rw [regs]
      cases map : env.addressMap with
      | error e =>
        simp only [map] at init
        cases init
        refine ended e fun reaches => ?_
        cases map.symm.trans reaches.addressMap
      | ok _ =>
        simp only [map] at init
        cases name : env.firmwareName with
        | invalid e =>
          simp only [name, errFreeMap, release_acquire mapped.fresh.1] at init
          cases init
          exact ended e fun reaches => reaches.firmwareName e name
        | missing =>
          simp only [name] at init
          refine enablePm_ended false (by simp [name]) (by simp [name]) map success mapped ?_
          rw [← mapped.driver]
          exact init
        | found =>
          simp only [name] at init
          refine enablePm_ended true (by simp [name]) (by simp [name]) map success mapped ?_
          simp only [Xvp.acquire, mapped.driver] at init
          exact init
    · cases init
      refine .inl ⟨⟨e, rfl⟩, givenBack, false, ?_, disabled_iff fun reaches => ?_⟩
      · rw [driver]
        exact .of_probed env false
      · cases (congrArg Prod.fst regs).symm.trans reaches.regs

end Init

/-! ## The life of a device -/

/-- The device as power management finds it. -/
def Xvp.started (xvp : Xvp) : Power.State := ⟨xvp.driver, 0, false, [], [], 0, 0, 0, false⟩

/-- A request on a DSP that is always enabled. -/
def SubmitStep (loopback : ℕ) (d d' : Power.Driver) : Prop :=
  ∃ env firmwareReboot wait, env.loopback = loopback ∧
    d' = (Power.submitSync env d firmwareReboot wait).2

/-- What happens to a device from `xrp_init_common` until it is removed with no file open: its
driver then, what `pm_runtime_status_suspended` returns, and whether a resume did nothing because
the DSP was off. Without runtime power management opening and closing do not reach the driver, and
the status is never `RPM_SUSPENDED`. -/
inductive Life (env : ProbeEnv) (xvp : Xvp) : Power.Driver → Bool → Bool → Prop
  | managed {s : Power.State} : env.runtimePm = true →
    Relation.ReflTransGen (Power.Step env.boot.loopback) xvp.started s → s.files = [] →
    Life env xvp s.driver (!s.active) s.skipped
  | always {d : Power.Driver} : env.runtimePm = false →
    Relation.ReflTransGen (SubmitStep env.boot.loopback) xvp.driver d → Life env xvp d false false

section Objects

variable {core : Power.Core} {env : Env} {s s' : Power.State} {d : Power.Driver} {loopback : ℕ}

theorem pmRuntimeGetSync_objects (core : Power.Core) (env : Env)
    (objects : FirmwareObjects.Inv s.driver.xvp) :
    FirmwareObjects.Inv (Power.pmRuntimeGetSync core env s).2.driver.xvp := by
  have erases : Power.Erases (xrpRuntimeResume env s.driver) _ := Power.xrpRuntimeResume_erases
  have resumed : FirmwareObjects.Inv (xrpRuntimeResume env s.driver).2.xvp := by
    have xvp : (xrpRuntimeResume env s.driver).2.xvp = _ := congrArg Prod.snd erases
    rw [xvp]
    exact objects.xrpRuntimeResume
  unfold Power.pmRuntimeGetSync
  cases core.refuses with
  | some e => exact objects
  | none =>
    dsimp only
    split_ifs
    · exact objects
    · generalize xrpRuntimeResume env s.driver = r at resumed
      rcases r with ⟨e | ⟨⟩, d⟩
      · exact resumed
      · exact resumed

theorem pmRuntimePutSync_objects (objects : FirmwareObjects.Inv s.driver.xvp) :
    FirmwareObjects.Inv (Power.pmRuntimePutSync core env s).driver.xvp := by
  unfold Power.pmRuntimePutSync
  split_ifs
  · simpa [xrpRuntimeSuspend] using objects
  · exact objects

theorem submitSync_objects (objects : FirmwareObjects.Inv d.xvp) (firmwareReboot : Bool)
    (wait : Except Errno Unit) :
    FirmwareObjects.Inv (Power.submitSync env d firmwareReboot wait).2.xvp := by
  have erases : Power.Erases (Power.submitSync env d firmwareReboot wait) _ :=
    Power.submitSync_erases firmwareReboot wait
  have xvp : (Power.submitSync env d firmwareReboot wait).2.xvp = _ := congrArg Prod.snd erases
  rw [xvp]
  exact objects.submitSync

theorem step_objects (step : Power.Step loopback s s')
    (objects : FirmwareObjects.Inv s.driver.xvp) : FirmwareObjects.Inv s'.driver.xvp := by
  cases step with
  | xvpOpen core env filp file entry same fresh =>
    have got := pmRuntimeGetSync_objects core env objects
    unfold Power.xvpOpen
    generalize Power.pmRuntimeGetSync core env s = r at got
    rcases r with ⟨e | ⟨⟩, s⟩
    · exact got
    · dsimp only
      split_ifs
      · exact got
      · exact pmRuntimePutSync_objects got
  | xvpClose core env filp intact same opened =>
    unfold Power.xvpClose
    cases intact with
    | true => exact pmRuntimePutSync_objects objects
    | false => exact objects
  | submitSync env filp firmwareReboot wait same opened =>
    exact submitSync_objects objects firmwareReboot wait
  | otherGet core env same => exact pmRuntimeGetSync_objects core env objects
  | otherPut core env same some => exact pmRuntimePutSync_objects objects

theorem run_objects (run : Relation.ReflTransGen (Power.Step loopback) s s')
    (objects : FirmwareObjects.Inv s.driver.xvp) : FirmwareObjects.Inv s'.driver.xvp := by
  induction run with
  | refl => exact objects
  | tail _ step ih => exact step_objects step ih

end Objects

section Life

variable {v : Variant} {env : ProbeEnv} {nodeid : U32} {xvp last : Xvp} {d : Power.Driver}
  {e : Errno} {suspended skipped : Bool}

theorem Life.objects (life : Life env xvp d suspended skipped)
    (objects : FirmwareObjects.Inv xvp.driver.xvp) : FirmwareObjects.Inv d.xvp := by
  cases life with
  | managed _ run _ => exact run_objects run objects
  | always _ run =>
    induction run with
    | refl => exact objects
    | tail _ step ih =>
      obtain ⟨env, firmwareReboot, wait, -, rfl⟩ := step
      exact submitSync_objects ih firmwareReboot wait

theorem Life.logged (life : Life env xvp d suspended skipped)
    (booted : Booted env (!env.runtimePm) xvp.driver) :
    Power.Logged env.boot.loopback d (!suspended) skipped := by
  cases life with
  | @managed s managed run closed =>
    obtain ⟨firmwareName, probed⟩ := booted.probed managed
    have reach : Power.Reach env.boot.loopback firmwareName s := by
      have start : xvp.started = .probed firmwareName := by rw [Xvp.started, probed]; rfl
      rw [Power.Reach, ← start]
      exact run
    rw [Bool.not_not]
    exact reach.inv.logged
  | always always run =>
    have start := booted.logged
    rw [always] at start
    induction run with
    | refl => exact start
    | tail _ step ih =>
      obtain ⟨env', firmwareReboot, wait, same, rfl⟩ := step
      exact ih.submit same firmwareReboot wait

/-- **What a failed probe leaves**: whatever the functions of the kernel return, all is given back
but for the reserved memory of the device and sometimes the page of the communication area, and
firmware is left exactly if it was loaded. The hardware calls are in order. They leave the DSP
enabled exactly if it was booted by `xrp_init_common` itself and the node could not be registered;
if `loopback` keeps the driver from them there are none. -/
theorem xrpInitCommon_error (fails : xrpInitCommon v env nodeid = (.error e, xvp)) :
    GivenBack v env xvp ∧
      ((∀ k < xvp.driver.xvp.obtained, k ∈ xvp.driver.xvp.released) ↔
        .loaded ∉ xvp.driver.xvp.history) ∧
      (env.boot.loopback < loopbackNommio → ∃ enabled,
        power xvp.driver.calls = some enabled ∧
          (enabled = true ↔ env.runtimePm = false ∧ NodeRefused v env nodeid)) ∧
      (loopbackNommio ≤ env.boot.loopback → xvp.driver.calls = []) := by
  rcases xrpInitCommon_ended fails with
    ⟨-, givenBack, enabled, booted, enabled_iff⟩ | ⟨succeeds, -⟩
  · refine ⟨givenBack, booted.objects.all_iff, fun used => ?_, booted.logged.quiet⟩
    exact ⟨enabled, (booted.logged.powered used).inOrder rfl, enabled_iff⟩
  · cases succeeds

/-- A device with two pages of shared memory that loads firmware; `registered` tells whether its
node can be registered. -/
def twoPages (runtimePm : Bool) (registered : Except Errno Unit) : ProbeEnv where
  resource _ := some ⟨0x80000000, 0x2000⟩
  reservedMem := false
  dmaAlloc := none
  kmallocPool := true
  kmallocAllocation := true
  addressMap := .ok ()
  firmwareName := .found
  runtimePm := runtimePm
  boot := FirmwareObjects.goodEnv
  miscRegister _ := registered

/-- Without runtime power management the DSP is left running, and its firmware is not released. -/
theorem xrpInitCommon_error_running :
    ∃ xvp, xrpInitCommon .v1 (twoPages false (.error .ebusy)) 7 = (.error .ebusy, xvp) ∧
      xvp.held = ∅ ∧ power xvp.driver.calls = some true ∧
      ¬ ∀ k < xvp.driver.xvp.obtained, k ∈ xvp.driver.xvp.released := by
  refine ⟨_, rfl, by decide, ?_⟩
  have used : (twoPages false (.error .ebusy)).boot.loopback < loopbackNommio := by decide
  have fails : xrpInitCommon .v1 (twoPages false (.error .ebusy)) 7 = (.error .ebusy, _) := rfl
  have refused : NodeRefused .v1 (twoPages false (.error .ebusy)) 7 :=
    ⟨⟨rfl, rfl, nofun, fun _ => rfl⟩, .ebusy, rfl⟩
  obtain ⟨-, all_iff, called, -⟩ := xrpInitCommon_error fails
  obtain ⟨enabled, calls, enabled_iff⟩ := called used
  rw [enabled_iff.mpr ⟨rfl, refused⟩] at calls
  exact ⟨calls, fun all => absurd (all_iff.mp all) (by decide)⟩

end Life

end Xrp.Kernel.Probe
