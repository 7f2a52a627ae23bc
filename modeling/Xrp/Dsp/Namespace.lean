import Xrp.Base.SortedTable
import Xrp.Interface

/-!
# The namespace table of the DSP

`xrp_dsp.c` keeps command handlers in an array `cmd_ns` sorted by namespace
identifier. The first `n_cmd_ns` slots are entries; the array has room for
`size_cmd_ns`, and what lies behind the entries is whatever was left there.
-/

namespace Xrp.Dsp

/-- A namespace identifier. -/
abbrev Nsid := Fin 16 → U8

/-- `struct xrp_cmd_ns`; the two pointers are numbers. -/
structure XrpCmdNs : Type where
  id : Nsid
  handler : ℕ
  handlerContext : ℕ
  deriving DecidableEq

/-- The table in `struct xrp_device`. The pointer `cmd_ns` is `NULL` as long as
`size_cmd_ns` is 0, and slots beyond it are memory of others. -/
structure XrpDevice : Type where
  nCmdNs : ℕ
  sizeCmdNs : ℕ
  cmdNs : ℕ → XrpCmdNs

/-- `memcmp`, as the sign of its result. -/
def memcmp : List U8 → List U8 → Ordering
  | a :: as, b :: bs => if a < b then .lt else if b < a then .gt else memcmp as bs
  | _, _ => .eq

/-- `compare_cmd_ns`. -/
def compareCmdNs (nsid : Nsid) (cmdNs : XrpCmdNs) : Ordering :=
  memcmp (List.ofFn nsid) (List.ofFn cmdNs.id)

section Find

variable {m : Type → Type} [Monad m]

/-- `find_cmd_ns`: the index of the slot found. `compare` is `compare_cmd_ns` of the
identifier sought, which the DSP may have to read from the comm area. -/
def findCmdNs (compare : XrpCmdNs → m Ordering) (device : XrpDevice) : m ℕ := do
  let (a, b) ← bisect (fun c => do return (← compare (device.cmdNs c)) == .lt) 0 device.nCmdNs
  if a < b then
    if (← compare (device.cmdNs a)) == .gt then pure (a + 1) else pure a
  else pure a

/-- `cmd_ns_match`, for a slot of the table. -/
def cmdNsMatch (compare : XrpCmdNs → m Ordering) (device : XrpDevice) (p : ℕ) : m Bool :=
  if device.sizeCmdNs = 0 then pure false
  else do return (← compare (device.cmdNs p)) == .eq

end Find

/-- `cmd_ns_present`. -/
def cmdNsPresent (device : XrpDevice) (p : ℕ) : Bool := decide (p < device.nCmdNs)

/-- `insert_cmd_ns` at index `i`. `realloc` is `none` if it fails, else what the new part
of the array contains. -/
def insertCmdNs (realloc : Option (ℕ → XrpCmdNs)) (device : XrpDevice) (i : ℕ) :
    Option XrpDevice :=
  let moved (d : XrpDevice) : XrpDevice :=
    { d with
      nCmdNs := d.nCmdNs + 1
      cmdNs := fun j => if i < j ∧ j ≤ d.nCmdNs then d.cmdNs (j - 1) else d.cmdNs j }
  if device.nCmdNs = device.sizeCmdNs then
    realloc.map fun fresh => moved
      { device with
        sizeCmdNs := (device.sizeCmdNs + 1) * 2
        cmdNs := fun j => if j < device.sizeCmdNs then device.cmdNs j else fresh j }
  else some (moved device)

/-- `remove_cmd_ns` at index `i`. -/
def removeCmdNs (device : XrpDevice) (i : ℕ) : XrpDevice :=
  { device with
    nCmdNs := device.nCmdNs - 1
    cmdNs := fun j =>
      if i ≤ j ∧ j < device.nCmdNs - 1 then device.cmdNs (j + 1) else device.cmdNs j }

/-- The slot for an identifier that is in memory of the DSP. -/
def slotOf (device : XrpDevice) (nsid : Nsid) : ℕ :=
  findCmdNs (m := Id) (compareCmdNs nsid) device

/-- An entry of the table has the identifier. -/
def foundCmdNs (device : XrpDevice) (nsid : Nsid) (p : ℕ) : Bool :=
  cmdNsPresent device p && cmdNsMatch (m := Id) (compareCmdNs nsid) device p

/-- `enum xrp_status`. -/
inductive XrpStatus : Type
  | success
  | failure
  | pending
  deriving DecidableEq, Repr

/-- `xrp_device_register_namespace`. -/
def xrpDeviceRegisterNamespace (realloc : Option (ℕ → XrpCmdNs)) (device : XrpDevice)
    (nsid : Nsid) (handler handlerContext : ℕ) : XrpStatus × XrpDevice :=
  let p := slotOf device nsid
  if foundCmdNs device nsid p then (.failure, device)
  else
    match insertCmdNs realloc device p with
    | some d =>
      (.success, { d with cmdNs := Function.update d.cmdNs p ⟨nsid, handler, handlerContext⟩ })
    | none => (.failure, device)

/-- `xrp_device_unregister_namespace`. -/
def xrpDeviceUnregisterNamespace (device : XrpDevice) (nsid : Nsid) : XrpStatus × XrpDevice :=
  let p := slotOf device nsid
  if foundCmdNs device nsid p then (.success, removeCmdNs device p)
  else (.failure, device)

end Xrp.Dsp
