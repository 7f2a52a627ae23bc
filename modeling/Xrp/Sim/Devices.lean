import Xrp.Interface

/-!
# The devices of the simulation library

`initialize` and `xrp_open_device` of `xrp_linux_sim.c`. The library looks for nodes of the device
tree, by one compatible string after another, and describes each device it finds in the next element
of an array of four. A call of `synchronize` returns once the DSP has answered, which is taken to
happen. Only which element is synchronised and which are written is kept of the calls.
-/

namespace Xrp.Sim.Devices

/-! ## Nodes and their descriptions -/

/-- The compatible strings in `of_match`. -/
inductive Compatible : Type
  /-- `cdns,xrp` -/
  | xrp
  /-- `cdns,xrp,v1` -/
  | xrpV1
  /-- `cdns,xrp-hw-simple` -/
  | xrpHwSimple
  /-- `cdns,xrp-hw-simple,v1` -/
  | xrpHwSimpleV1
  deriving DecidableEq

/-- `of_match`, in its order. -/
def ofMatch : List Compatible := [.xrp, .xrpV1, .xrpHwSimple, .xrpHwSimpleV1]

/-- A node of the device tree: what it is compatible with, and its properties. -/
structure Node : Type where
  compatible : List Compatible
  reg : Option (List U8)
  deviceIrqMode : Option (List U8)
  deviceIrq : Option (List U8)
  deviceIrqHostOffset : Option (List U8)
  deriving DecidableEq

/-- `getprop_u32`. -/
def getpropU32 (value : List U8) (offset : ℕ) : U32 :=
  ByteOrder.big.word fun i => value.getD (offset + i) 0

/-- A property of at least the given length. -/
def getprop (value : Option (List U8)) (len : ℕ) : Option (List U8) :=
  value.filter fun v => decide (len ≤ v.length)

/-- `struct xrp_device_description`; of the pool its range. -/
structure XrpDeviceDescription : Type where
  ioBase : U32
  commBase : U32
  sharedBase : U32
  sharedSize : U32
  commPtr : Option ULong
  sharedPtr : Option ULong
  deviceIrqMode : U32
  deviceIrq : Fin 3 → U32
  deviceIrqHostOffset : U32
  sharedPool : Option (U32 × U32)
  deriving DecidableEq

/-- A description with the given areas; the other members are zero. -/
def XrpDeviceDescription.ofAreas (ioBase commBase sharedBase sharedSize : U32) :
    XrpDeviceDescription :=
  ⟨ioBase, commBase, sharedBase, sharedSize, none, none, 0, fun _ => 0, 0, none⟩

/-- What an init function returns, and what it has left in the description if it has written it. -/
structure Init : Type where
  ret : Bool
  description : Option XrpDeviceDescription
  deriving DecidableEq

/-- Where shared memory is mapped, and whether `xrp_init_private_pool` has memory for the pool of an
area. -/
structure System : Type where
  p2v : U32 → Option ULong
  poolMemory : U32 → U32 → Bool

section Model

variable (sys : System)

/-- `init_cdns_xrp_common`, which does not look at what `xrp_init_private_pool` returns. -/
def initCdnsXrpCommon (d : XrpDeviceDescription) : Init :=
  match sys.p2v d.commBase with
  | none => ⟨false, some d⟩
  | some commPtr =>
    match sys.p2v d.sharedBase with
    | none => ⟨false, some { d with commPtr := some commPtr }⟩
    | some sharedPtr =>
      ⟨true, some { d with
        commPtr := some commPtr
        sharedPtr := some sharedPtr
        sharedPool :=
          if sys.poolMemory d.sharedBase d.sharedSize then some (d.sharedBase, d.sharedSize)
          else none }⟩

/-- An init function that takes the areas from a `reg` of at least the given length. -/
def initAreas (len : ℕ) (areas : List U8 → XrpDeviceDescription) (node : Node) : Init :=
  match getprop node.reg len with
  | none => ⟨false, none⟩
  | some reg => initCdnsXrpCommon sys (areas reg)

/-- `init_cdns_xrp`. -/
def initCdnsXrp : Node → Init :=
  initAreas sys 24 fun reg =>
    .ofAreas (getpropU32 reg 0) (getpropU32 reg 8) (getpropU32 reg 16) (getpropU32 reg 20)

/-- `init_cdns_xrp_v1`. -/
def initCdnsXrpV1 : Node → Init :=
  initAreas sys 16 fun reg =>
    .ofAreas (getpropU32 reg 8) (getpropU32 reg 0) (getpropU32 reg 0 + 4096)
      (getpropU32 reg 4 - 4096)

/-- `init_cdns_xrp_hw_simple_common`, which always returns 1. -/
def initCdnsXrpHwSimpleCommon (node : Node) (d : XrpDeviceDescription) : XrpDeviceDescription :=
  match getprop node.deviceIrqMode 4 with
  | none => d
  | some mode =>
    if getpropU32 mode 0 = 0 then d
    else
      match getprop node.deviceIrq 12 with
      | none => d
      | some irq =>
        { d with
          deviceIrqMode := getpropU32 mode 0
          deviceIrq := ![getpropU32 irq 0, getpropU32 irq 4, getpropU32 irq 8]
          deviceIrqHostOffset :=
            match getprop node.deviceIrqHostOffset 4 with
            | none => getpropU32 irq 0
            | some offset => getpropU32 offset 0 }

/-- `init(…) && init_cdns_xrp_hw_simple_common(…)`. -/
def thenHwSimple (init : Node → Init) (node : Node) : Init :=
  let r := init node
  if r.ret then ⟨true, r.description.map (initCdnsXrpHwSimpleCommon node)⟩ else r

/-- `match->init`. -/
def init : Compatible → Node → Init
  | .xrp => initCdnsXrp sys
  | .xrpV1 => initCdnsXrpV1 sys
  | .xrpHwSimple => thenHwSimple (initCdnsXrp sys)
  | .xrpHwSimpleV1 => thenHwSimple (initCdnsXrpV1 sys)

/-! ## Devices -/

/-- The state of the library: the descriptions from the start of the array on, `xrp_device_count`,
and for which elements `synchronize` was called. -/
structure State : Type where
  description : ℕ → XrpDeviceDescription
  count : ℕ
  synchronised : List ℕ

/-- The state when the program starts. -/
def start : State := ⟨fun _ => .ofAreas 0 0 0 0, 0, []⟩

/-- What happens to a node, after its init function: the element that was written, and the state. -/
def State.probed (s : State) (r : Init) : List ℕ × State :=
  let s' : State :=
    match r.description with
    | none => s
    | some d => { s with description := Function.update s.description s.count d }
  (if r.description.isSome then [s.count] else [],
    if r.ret then
      { s' with synchronised := s.synchronised ++ [s.count], count := s.count + 1 }
    else s')

/-- The nodes that `initialize` finds: those with the first compatible string, then those with the
next one, and so on. -/
def matching (tree : List Node) : List (Compatible × Node) :=
  ofMatch.flatMap fun c => (tree.filter fun node => decide (c ∈ node.compatible)).map (c, ·)

/-- The loop of `initialize`; the elements that were written, and the state. -/
def probeAll : List (Compatible × Node) → State → List ℕ × State
  | [], s => ([], s)
  | m :: rest, s =>
    let r := s.probed (init sys m.1 m.2)
    let last := probeAll rest r.2
    (r.1 ++ last.1, last.2)

/-- `initialize`. -/
def initializeDevices (tree : List Node) (s : State) : List ℕ × State :=
  probeAll sys (matching tree) s

end Model

/-- A call of `xrp_open_device`: its argument, where shared memory is mapped if it initializes the
library, and whether there is memory for the device. -/
structure Call : Type where
  idx : ℤ
  sys : System
  allocated : Bool

/-- What a call does: the descriptions it writes, and on success the one it attaches. -/
structure Opened : Type where
  written : List ℕ
  attached : Option ℕ
  state : State

/-- `xrp_open_device`. -/
def xrpOpenDevice (tree : List Node) (call : Call) (s : State) : Opened :=
  let r := if s.count = 0 then initializeDevices call.sys tree s else ([], s)
  if call.idx < 0 ∨ call.idx > r.2.count then ⟨r.1, none, r.2⟩
  else if call.allocated then ⟨r.1, some call.idx.toNat, r.2⟩
  else ⟨r.1, none, r.2⟩

/-- The states after calls of `xrp_open_device`. -/
inductive Reach (tree : List Node) : State → Prop
  | start : Reach tree start
  | call {s : State} (call : Call) : Reach tree s → Reach tree (xrpOpenDevice tree call s).state

/-- The element was left by an init function that succeeded, and was synchronised. -/
def Ready (tree : List Node) (s : State) (i : ℕ) : Prop :=
  i ∈ s.synchronised ∧
    ∃ m ∈ matching tree, ∃ sys, init sys m.1 m.2 = ⟨true, some (s.description i)⟩

/-- A call writes no element but those of the array, and attaches only a description that is
ready. -/
structure Sound (tree : List Node) (r : Opened) : Prop where
  written : ∀ i ∈ r.written, i < 4
  attached : ∀ i, r.attached = some i → Ready tree r.state i

/-! ## Init functions -/

section Init

variable {sys : System}

/-- The least length of `reg` that the init function accepts. -/
def regLength : Compatible → ℕ
  | .xrp => 24
  | .xrpV1 => 16
  | .xrpHwSimple => 24
  | .xrpHwSimpleV1 => 16

/-- The node has a `reg` that its init function accepts. -/
def HasReg (m : Compatible × Node) : Prop := (getprop m.2.reg (regLength m.1)).isSome

/-- The init function of the node succeeds. -/
def succeeds (sys : System) (m : Compatible × Node) : Bool := (init sys m.1 m.2).ret

theorem initCdnsXrpCommon_isSome (d : XrpDeviceDescription) :
    (initCdnsXrpCommon sys d).description.isSome := by
  unfold initCdnsXrpCommon
  split
  · rfl
  · split <;> rfl

theorem initAreas_isSome (len : ℕ) (areas : List U8 → XrpDeviceDescription) (node : Node) :
    (initAreas sys len areas node).description.isSome = (getprop node.reg len).isSome := by
  unfold initAreas
  split
  · next absent => rw [absent]; rfl
  · next present => rw [present]; exact initCdnsXrpCommon_isSome _

theorem initAreas_ret {len : ℕ} {areas : List U8 → XrpDeviceDescription} {node : Node}
    (ok : (initAreas sys len areas node).ret = true) : (getprop node.reg len).isSome := by
  unfold initAreas at ok
  split at ok
  · cases ok
  · next present => rw [present]; rfl

/-- What an init function leaves when it succeeds. -/
theorem initAreas_ok {len : ℕ} {areas : List U8 → XrpDeviceDescription} {node : Node}
    {d : XrpDeviceDescription} (made : initAreas sys len areas node = ⟨true, some d⟩) :
    ∃ reg commPtr sharedPtr, d = { areas reg with
      commPtr := some commPtr
      sharedPtr := some sharedPtr
      sharedPool :=
        if sys.poolMemory (areas reg).sharedBase (areas reg).sharedSize then
          some ((areas reg).sharedBase, (areas reg).sharedSize)
        else none } := by
  unfold initAreas initCdnsXrpCommon at made
  split at made
  · cases made
  · split at made
    · cases made
    · split at made
      · cases made
      · cases made
        exact ⟨_, _, _, rfl⟩

theorem thenHwSimple_ok {f : Node → Init} {node : Node} {d : XrpDeviceDescription}
    (made : thenHwSimple f node = ⟨true, some d⟩) :
    ∃ before, f node = ⟨true, some before⟩ ∧ d = initCdnsXrpHwSimpleCommon node before := by
  unfold thenHwSimple at made
  cases first : f node with
  | mk ret description =>
    rw [first] at made
    cases ret with
    | false => cases made
    | true =>
      cases description with
      | none => cases made
      | some before =>
        cases made
        exact ⟨before, rfl, rfl⟩

theorem thenHwSimple_isSome (f : Node → Init) (node : Node) :
    (thenHwSimple f node).description.isSome = (f node).description.isSome := by
  unfold thenHwSimple
  dsimp only
  split
  · exact Option.isSome_map
  · rfl

theorem thenHwSimple_ret (f : Node → Init) (node : Node) :
    (thenHwSimple f node).ret = (f node).ret := by
  unfold thenHwSimple
  dsimp only
  split
  · next ok => exact ok.symm
  · rfl

/-- An init function writes the description of a node if it accepts its `reg`. -/
theorem init_isSome (sys : System) (m : Compatible × Node) :
    (init sys m.1 m.2).description.isSome = true ↔ HasReg m := by
  obtain ⟨c, node⟩ := m
  cases c with
  | xrp => exact (congrArg (· = true) (initAreas_isSome ..)).to_iff
  | xrpV1 => exact (congrArg (· = true) (initAreas_isSome ..)).to_iff
  | xrpHwSimple =>
    rw [init, thenHwSimple_isSome]
    exact (congrArg (· = true) (initAreas_isSome ..)).to_iff
  | xrpHwSimpleV1 =>
    rw [init, thenHwSimple_isSome]
    exact (congrArg (· = true) (initAreas_isSome ..)).to_iff

theorem hasReg_of_succeeds {m : Compatible × Node} (ok : succeeds sys m = true) : HasReg m := by
  obtain ⟨c, node⟩ := m
  cases c with
  | xrp => exact initAreas_ret ok
  | xrpV1 => exact initAreas_ret ok
  | xrpHwSimple => exact initAreas_ret ((thenHwSimple_ret ..).symm.trans ok)
  | xrpHwSimpleV1 => exact initAreas_ret ((thenHwSimple_ret ..).symm.trans ok)

end Init

/-! ## The loop of `initialize` -/

section Loop

variable {sys : System} {tree : List Node} {s : State} {m : Compatible × Node}
  {nodes : List (Compatible × Node)} {i : ℕ}

theorem probed_count (s : State) (r : Init) :
    (s.probed r).2.count = s.count + if r.ret then 1 else 0 := by
  obtain ⟨ret, description⟩ := r
  cases ret <;> cases description <;> rfl

theorem probeAll_count (nodes : List (Compatible × Node)) (s : State) :
    (probeAll sys nodes s).2.count = s.count + nodes.countP (succeeds sys) := by
  induction nodes generalizing s with
  | nil => rfl
  | cons m rest ih =>
    rw [probeAll, List.countP_cons]
    dsimp only
    rw [ih, probed_count, succeeds]
    omega

theorem mem_probed_written : i ∈ (s.probed (init sys m.1 m.2)).1 ↔ HasReg m ∧ i = s.count := by
  rw [State.probed, ← init_isSome sys]
  dsimp only
  split_ifs with written
  · simp [written]
  · simp [written]

/-- The elements that are written: each by a node with a `reg`, after as many devices as succeeded
before it. -/
theorem mem_probeAll_written :
    i ∈ (probeAll sys nodes s).1 ↔
      ∃ before m after, nodes = before ++ m :: after ∧ HasReg m ∧
        i = s.count + before.countP (succeeds sys) := by
  induction nodes generalizing s with
  | nil => simp [probeAll]
  | cons m rest ih =>
    rw [probeAll]
    dsimp only
    rw [List.mem_append, mem_probed_written, ih, probed_count]
    constructor
    · rintro (⟨reg, rfl⟩ | ⟨before, m', after, rfl, reg, rfl⟩)
      · exact ⟨[], m, rest, rfl, reg, rfl⟩
      · refine ⟨m :: before, m', after, rfl, reg, ?_⟩
        rw [List.countP_cons, succeeds]
        omega
    · rintro ⟨before, m', after, split, reg, rfl⟩
      cases before with
      | nil =>
        cases split
        exact .inl ⟨reg, rfl⟩
      | cons first before =>
        cases split
        refine .inr ⟨before, m', after, rfl, reg, ?_⟩
        rw [List.countP_cons, succeeds]
        omega

theorem probed_synchronised (s : State) (r : Init) :
    (s.probed r).2.synchronised = s.synchronised ++ if r.ret then [s.count] else [] := by
  obtain ⟨ret, description⟩ := r
  cases ret <;> cases description <;> simp [State.probed]

/-- The devices before keep their descriptions. -/
theorem probed_description_of_lt (r : Init) (less : i < s.count) :
    (s.probed r).2.description i = s.description i := by
  obtain ⟨ret, description⟩ := r
  cases ret <;> cases description <;> simp [State.probed, less.ne]

theorem probed_description_self (ret : Bool) (d : XrpDeviceDescription) :
    (s.probed ⟨ret, some d⟩).2.description s.count = d := by
  cases ret <;> simp [State.probed]

theorem Ready.of_subset {s' : State} (ready : Ready tree s i)
    (kept : s.synchronised ⊆ s'.synchronised) (same : s'.description i = s.description i) :
    Ready tree s' i := by
  obtain ⟨synchronised, m, member, sys, made⟩ := ready
  exact ⟨kept synchronised, m, member, sys, by rw [made, same]⟩

/-- The elements below the count are ready, and no others were synchronised. -/
structure Invariant (tree : List Node) (s : State) : Prop where
  ready : ∀ i < s.count, Ready tree s i
  below : ∀ i ∈ s.synchronised, i < s.count

theorem Invariant.probed (invariant : Invariant tree s) (member : m ∈ matching tree) :
    Invariant tree (s.probed (init sys m.1 m.2)).2 := by
  have kept : s.synchronised ⊆ (s.probed (init sys m.1 m.2)).2.synchronised := by
    rw [probed_synchronised]
    exact List.subset_append_left _ _
  constructor
  · intro i less
    rw [probed_count] at less
    rcases Nat.lt_or_ge i s.count with before | last
    · exact (invariant.ready i before).of_subset kept (probed_description_of_lt _ before)
    · have ok : (init sys m.1 m.2).ret = true := by
        by_contra failed
        rw [if_neg failed] at less
        omega
      have reg := (init_isSome sys m).mpr (hasReg_of_succeeds ok)
      obtain ⟨d, written⟩ := Option.isSome_iff_exists.mp reg
      have result : init sys m.1 m.2 = ⟨true, some d⟩ := by rw [← ok, ← written]
      have here : i = s.count := by
        rw [if_pos ok] at less
        omega
      subst here
      refine ⟨?_, m, member, sys, ?_⟩
      · rw [probed_synchronised, if_pos ok]
        exact List.mem_append_right _ List.mem_cons_self
      · rw [result, probed_description_self]
  · intro i synchronised
    rw [probed_synchronised, List.mem_append] at synchronised
    rw [probed_count]
    rcases synchronised with before | last
    · have less := invariant.below i before
      omega
    · split_ifs at last ⊢ with ok
      · have here := List.mem_singleton.mp last
        omega
      · cases last

theorem Invariant.probeAll (invariant : Invariant tree s)
    (inside : ∀ m ∈ nodes, m ∈ matching tree) : Invariant tree (probeAll sys nodes s).2 := by
  induction nodes generalizing s with
  | nil => exact invariant
  | cons m rest ih =>
    exact ih (invariant.probed (inside m List.mem_cons_self))
      fun m' later => inside m' (List.mem_cons_of_mem _ later)

end Loop

/-! ## Opening a device -/

section Open

variable {tree : List Node} {s : State}

/-- The number of devices when a call compares the index with it: that of the nodes whose init
functions succeed, if the call initializes the library. -/
def deviceCount (sys : System) (tree : List Node) (s : State) : ℕ :=
  if s.count = 0 then (matching tree).countP (succeeds sys) else s.count

/-- Every node with a `reg` comes after less than four whose init functions succeed. -/
def FitsArray (sys : System) (tree : List Node) : Prop :=
  ∀ before m after, matching tree = before ++ m :: after → HasReg m →
    before.countP (succeeds sys) < 4

/-- The library when the index is compared. -/
def prepared (sys : System) (tree : List Node) (s : State) : List ℕ × State :=
  if s.count = 0 then initializeDevices sys tree s else ([], s)

theorem prepared_count (sys : System) (tree : List Node) (s : State) :
    (prepared sys tree s).2.count = deviceCount sys tree s := by
  unfold prepared deviceCount
  split_ifs with first
  · rw [initializeDevices, probeAll_count, first, Nat.zero_add]
  · rfl

theorem prepared_written_iff {sys : System} :
    (∀ i ∈ (prepared sys tree s).1, i < 4) ↔ (s.count = 0 → FitsArray sys tree) := by
  unfold prepared
  split_ifs with first
  · simp only [initializeDevices, mem_probeAll_written, first, Nat.zero_add, true_imp_iff]
    constructor
    · intro fits before m after split reg
      exact fits _ ⟨before, m, after, split, reg, rfl⟩
    · rintro fits i ⟨before, m, after, split, reg, rfl⟩
      exact fits before m after split reg
  · simp [first]

theorem Invariant.prepared (invariant : Invariant tree s) (sys : System) :
    Invariant tree (prepared sys tree s).2 := by
  unfold Devices.prepared
  split_ifs
  · exact invariant.probeAll fun _ member => member
  · exact invariant

/-- `xrp_open_device` after the library is initialized. -/
theorem xrpOpenDevice_eq (tree : List Node) (call : Call) (s : State) :
    xrpOpenDevice tree call s =
      ⟨(prepared call.sys tree s).1,
        if 0 ≤ call.idx ∧ call.idx ≤ deviceCount call.sys tree s ∧ call.allocated = true then
          some call.idx.toNat
        else none, (prepared call.sys tree s).2⟩ := by
  have unfolded : xrpOpenDevice tree call s =
      if call.idx < 0 ∨ call.idx > (prepared call.sys tree s).2.count then
        ⟨(prepared call.sys tree s).1, none, (prepared call.sys tree s).2⟩
      else if call.allocated then
        ⟨(prepared call.sys tree s).1, some call.idx.toNat, (prepared call.sys tree s).2⟩
      else ⟨(prepared call.sys tree s).1, none, (prepared call.sys tree s).2⟩ := rfl
  rw [unfolded, prepared_count]
  by_cases outside : call.idx < 0 ∨ call.idx > deviceCount call.sys tree s
  · rw [if_pos outside, if_neg (by omega)]
  · rw [if_neg outside]
    by_cases allocated : call.allocated = true
    · rw [if_pos allocated, if_pos ⟨by omega, by omega, allocated⟩]
    · rw [if_neg allocated, if_neg fun opens => allocated opens.2.2]

theorem Reach.invariant (reach : Reach tree s) : Invariant tree s := by
  induction reach with
  | start => exact ⟨nofun, nofun⟩
  | call call _ ih =>
    rw [xrpOpenDevice_eq]
    exact ih.prepared call.sys

/-- **Only devices that are ready can be opened, and no element behind the array is written**, if
and only if the devices fit the array and the index is not their number. -/
theorem xrpOpenDevice_sound_iff (reach : Reach tree s) (call : Call) :
    Sound tree (xrpOpenDevice tree call s) ↔
      (s.count = 0 → FitsArray call.sys tree) ∧
      (call.allocated = true → call.idx ≠ deviceCount call.sys tree s) := by
  have invariant := reach.invariant.prepared call.sys
  have count := prepared_count call.sys tree s
  rw [xrpOpenDevice_eq, ← prepared_written_iff]
  constructor
  · intro sound
    refine ⟨sound.written, fun allocated last => ?_⟩
    have opens : 0 ≤ call.idx ∧ call.idx ≤ deviceCount call.sys tree s ∧ call.allocated = true :=
      ⟨by omega, by omega, allocated⟩
    have ready := sound.attached call.idx.toNat (if_pos opens)
    have less := invariant.below _ ready.1
    omega
  · rintro ⟨written, other⟩
    refine ⟨written, fun i attached => ?_⟩
    dsimp only at attached
    split_ifs at attached with opens
    cases attached
    have ne := other opens.2.2
    exact invariant.ready _ (by omega)

/-- A node whose areas are all at address zero. -/
def zeroNode : Node := ⟨[.xrp], some (List.replicate 24 0), none, none, none⟩

/-- A call with all memory mapped. -/
def openAt (idx : ℤ) : Call := ⟨idx, ⟨fun a => some (a.setWidth 64), fun _ _ => true⟩, true⟩

/-- The only device is opened. -/
theorem xrpOpenDevice_sound_one :
    Sound [zeroNode] (xrpOpenDevice [zeroNode] (openAt 0) start) := by
  have only : matching [zeroNode] = [(.xrp, zeroNode)] := by decide
  refine (xrpOpenDevice_sound_iff .start (openAt 0)).mpr ⟨fun _ => ?_, fun _ => by decide +kernel⟩
  intro before m after split reg
  have length : 1 = before.length + (after.length + 1) := by
    rw [only] at split
    simpa using congrArg List.length split
  have first : before = [] := List.eq_nil_of_length_eq_zero (by omega)
  rw [first]
  decide

/-- The fifth device is described behind the array; and without any device, one is opened that was
never initialized. -/
theorem xrpOpenDevice_not_sound :
    (4 ∈ (xrpOpenDevice (List.replicate 5 zeroNode) (openAt 0) start).written ∧
      ¬ Sound (List.replicate 5 zeroNode)
        (xrpOpenDevice (List.replicate 5 zeroNode) (openAt 0) start)) ∧
    ((xrpOpenDevice [] (openAt 0) start).attached = some 0 ∧
      ¬ Ready [] (xrpOpenDevice [] (openAt 0) start).state 0) := by
  have behind : 4 ∈ (xrpOpenDevice (List.replicate 5 zeroNode) (openAt 0) start).written := by
    decide +kernel
  refine ⟨⟨behind, fun sound => ?_⟩, by decide, ?_⟩
  · exact absurd (sound.written 4 behind) (by decide)
  · rintro ⟨synchronised, -⟩
    exact absurd synchronised (by decide)

end Open

end Xrp.Sim.Devices
