import Xrp.Kernel.AllocPartition

/-!
# Mapping driver memory into user space

`XRP_IOCTL_ALLOC` puts a fresh allocation on the `busy_list` of the file and
calls `vm_mmap`, which ends in `xvp_mmap`; user space may also `mmap` the file
directly. `xvp_mmap` takes an allocation off the list that holds the requested
range and maps the range. The test for that is made on a `u32` length and with
64-bit sums that wrap, the mapping is made with the full length: the range
mapped lies inside the allocation exactly when neither makes a difference.

Any number of threads run these calls on any number of open files. The pool is
behind its operation table, as in the driver.
-/

namespace Xrp.Kernel

/-- A block of device memory. No memory reaches the end of the 64-bit address space. -/
structure PhysBlock : Type extends Block 64 where
  below : toBlock.extent.stop < 2 ^ 64
  deriving DecidableEq

/-- A `struct xrp_allocation` object: its identity and the memory it stands for. -/
structure AllocObject : Type where
  ptr : ℕ
  block : PhysBlock
  deriving DecidableEq

/-- `struct xrp_allocation_ops`, over the state of a pool. -/
structure XrpAllocationOps (σ : Type) : Type where
  alloc : σ → U32 → U32 → Except Errno (Block 64) × σ
  offset : σ → Block 64 → ULong

/-- The fields of a `struct vm_area_struct` that `xvp_mmap` reads. -/
structure VmArea : Type where
  vmStart : ULong
  vmEnd : ULong
  vmPgoff : ULong
  deriving DecidableEq

/-- `vm_end - vm_start`. -/
def VmArea.length (vma : VmArea) : ULong := vma.vmEnd - vma.vmStart

/-- What `xvp_mmap` passed to `remap_pfn_range`, and the allocation it took for that. -/
structure Mapping : Type where
  pfn : ULong
  length : ULong
  privateData : AllocObject
  deriving DecidableEq

/-! ## The functions of the driver -/

/-- `xrp_allocation_queue`. -/
def xrpAllocationQueue (busyList : List AllocObject) (a : AllocObject) : List AllocObject :=
  a :: busyList

/-- The range test of `xrp_allocation_dequeue`. -/
def AllocObject.Matches (cur : AllocObject) (paddr : ULong) (size : U32) : Prop :=
  cur.block.start ≤ paddr ∧
    paddr + size.setWidth 64 - cur.block.start ≤ cur.block.size.setWidth 64

instance (cur : AllocObject) (paddr : ULong) (size : U32) : Decidable (cur.Matches paddr size) :=
  inferInstanceAs (Decidable (_ ∧ _))

/-- `xrp_allocation_dequeue`: the first match, and the list without it. -/
def xrpAllocationDequeue (paddr : ULong) (size : U32) :
    List AllocObject → Option AllocObject × List AllocObject
  | [] => (none, [])
  | cur :: next =>
    if cur.Matches paddr size then (some cur, next)
    else
      ((xrpAllocationDequeue paddr size next).1, cur :: (xrpAllocationDequeue paddr size next).2)

/-- `xvp_mmap`, with the result of `remap_pfn_range` given. The length is cut to the `u32`
parameter of `xrp_allocation_dequeue`, and is whole for `remap_pfn_range`. -/
def xvpMmap (pmem : ULong) (remapPfnRange : Except Errno Unit) (busyList : List AllocObject)
    (vma : VmArea) : Except Errno Mapping × List AllocObject :=
  let pfn := vma.vmPgoff + (pmem >>> pageShift)
  match xrpAllocationDequeue (pfn <<< pageShift) (vma.length.setWidth 32) busyList with
  | (some a, busyList) => (remapPfnRange.map fun _ => ⟨pfn, vma.length, a⟩, busyList)
  | (none, busyList) => (.error .einval, busyList)

/-! ## Runs of the driver -/

/-- Where a thread is in `xrp_ioctl_alloc`. -/
inductive IoctlPc : Type
  | idle
  | allocated (file : ℕ) (a : AllocObject)
  | queued (file : ℕ) (a : AllocObject)
  deriving DecidableEq

/-- The state of the driver: the pool, the `busy_list` of each file, each thread, and what
happened so far (allocations handed to each file and calls of `xvp_mmap` that returned 0). -/
structure Driver (σ : Type) : Type where
  pool : σ
  nextPtr : ℕ
  busyList : ℕ → List AllocObject
  pc : ℕ → IoctlPc
  handed : ℕ → List AllocObject
  mapped : List (ℕ × Mapping)

namespace Driver

variable {σ : Type}

/-- The driver with nothing allocated. -/
def init (pool : σ) : Driver σ := ⟨pool, 0, fun _ => [], fun _ => .idle, fun _ => [], []⟩

/-- The driver after `xvp_mmap` of a file. -/
def mmap (s : Driver σ) (file : ℕ) (result : Except Errno Mapping × List AllocObject) :
    Driver σ :=
  { s with
    busyList := Function.update s.busyList file result.2
    mapped := match result.1 with
      | .ok m => (file, m) :: s.mapped
      | .error _ => s.mapped }

/-- The driver with one thread at another place. -/
def goto (s : Driver σ) (t : ℕ) (pc : IoctlPc) : Driver σ :=
  { s with pc := Function.update s.pc t pc }

end Driver

section Runs

variable {σ : Type} (ops : XrpAllocationOps σ) (pmem : ULong)

/-- One step of one thread. What a pool hands out is device memory; `other` is whatever else the
driver does with the pool. -/
inductive DriverStep : Driver σ → Driver σ → Prop
  | allocate {s : Driver σ} {pool : σ} {b : PhysBlock} (t file : ℕ) (size align : U32) :
    s.pc t = .idle → ops.alloc s.pool size align = (.ok b.toBlock, pool) →
    DriverStep s
      { s with
        pool := pool
        nextPtr := s.nextPtr + 1
        pc := Function.update s.pc t (.allocated file ⟨s.nextPtr, b⟩)
        handed := Function.update s.handed file (⟨s.nextPtr, b⟩ :: s.handed file) }
  | allocateFails {s : Driver σ} {pool : σ} {e : Errno} (t : ℕ) (size align : U32) :
    s.pc t = .idle → ops.alloc s.pool size align = (.error e, pool) →
    DriverStep s { s with pool := pool }
  | queue {s : Driver σ} {a : AllocObject} (t file : ℕ) :
    s.pc t = .allocated file a →
    DriverStep s
      { s with
        busyList := Function.update s.busyList file (xrpAllocationQueue (s.busyList file) a)
        pc := Function.update s.pc t (.queued file a) }
  | vmMmapFails {s : Driver σ} {a : AllocObject} (t file : ℕ) :
    s.pc t = .queued file a → DriverStep s (s.goto t .idle)
  | vmMmap {s : Driver σ} {a : AllocObject} (t file : ℕ) (remapPfnRange : Except Errno Unit)
      (vma : VmArea) :
    s.pc t = .queued file a →
    vma.vmPgoff = ops.offset s.pool a.block.toBlock >>> pageShift →
    vma.length = ALIGN (a.block.size.setWidth 64) (pageSize.setWidth 64) →
    DriverStep s ((s.mmap file (xvpMmap pmem remapPfnRange (s.busyList file) vma)).goto t .idle)
  | mmap {s : Driver σ} (t file : ℕ) (remapPfnRange : Except Errno Unit) (vma : VmArea) :
    s.pc t = .idle → 4096 ∣ vma.length.toNat →
    DriverStep s (s.mmap file (xvpMmap pmem remapPfnRange (s.busyList file) vma))
  | other {s : Driver σ} (pool : σ) : DriverStep s { s with pool := pool }

/-- The states the driver can reach. -/
abbrev DriverReach (pool : σ) : Driver σ → Prop :=
  Relation.ReflTransGen (DriverStep ops pmem) (.init pool)

end Runs

/-- The physical bytes a mapping makes accessible. -/
def Mapping.extent (m : Mapping) : Extent := ⟨(m.pfn <<< pageShift).toNat, m.length.toNat⟩

/-- The bytes of the mapping lie inside one allocation that was handed to the file and is
no longer on its `busy_list`. -/
def Driver.Contains {σ : Type} (s : Driver σ) (file : ℕ) (m : Mapping) : Prop :=
  ∃ a ∈ s.handed file, a ∉ s.busyList file ∧
    a.block.extent.base ≤ m.extent.base ∧ m.extent.stop ≤ a.block.extent.stop

/-- The length fits `u32` and the range ends below the end of the address space. -/
def Mapping.Representable (m : Mapping) : Prop :=
  m.length.toNat < 2 ^ 32 ∧ m.extent.stop < 2 ^ 64

/-! ## What one call does -/

theorem xrpAllocationDequeue_cases (paddr : ULong) (size : U32) (l : List AllocObject) :
    (∃ a before after, l = before ++ a :: after ∧ a.Matches paddr size ∧
      xrpAllocationDequeue paddr size l = (some a, before ++ after)) ∨
    xrpAllocationDequeue paddr size l = (none, l) := by
  induction l with
  | nil => exact .inr rfl
  | cons cur next ih =>
    by_cases hit : cur.Matches paddr size
    · exact .inl ⟨cur, [], next, rfl, hit, by rw [xrpAllocationDequeue, if_pos hit]; rfl⟩
    · rw [xrpAllocationDequeue, if_neg hit]
      obtain ⟨a, before, after, rfl, found, eq⟩ | eq := ih
      · exact .inl ⟨a, cur :: before, after, rfl, found, by rw [eq]; rfl⟩
      · exact .inr (by rw [eq])

theorem xvpMmap_cases (pmem : ULong) (remap : Except Errno Unit) (l : List AllocObject)
    (vma : VmArea) :
    (∃ a before after pfn, l = before ++ a :: after ∧
      a.Matches (pfn <<< pageShift) (vma.length.setWidth 32) ∧
      xvpMmap pmem remap l vma = (remap.map fun _ => ⟨pfn, vma.length, a⟩, before ++ after)) ∨
    xvpMmap pmem remap l vma = (.error .einval, l) := by
  obtain ⟨a, before, after, split, found, eq⟩ | eq := xrpAllocationDequeue_cases
    ((vma.vmPgoff + (pmem >>> pageShift)) <<< pageShift) (vma.length.setWidth 32) l
  · exact .inl ⟨a, before, after, _, split, found, by simp only [xvpMmap, eq]⟩
  · exact .inr (by simp only [xvpMmap, eq])

/-! ## The invariant -/

/-- The object was handed to the file, and no thread will put it on the `busy_list` (again). -/
structure Driver.Taken {σ : Type} (s : Driver σ) (file : ℕ) (a : AllocObject) : Prop where
  handed : a ∈ s.handed file
  off : a ∉ s.busyList file
  unclaimed : ∀ t, s.pc t ≠ .allocated file a

/-- Objects are distinct, each is put on one list once, and each mapping was made for an
object that came off the list by the range test. -/
structure Driver.Inv {σ : Type} (s : Driver σ) : Prop where
  fresh : ∀ {f a}, a ∈ s.handed f → a.ptr < s.nextPtr
  busy_handed : ∀ {f a}, a ∈ s.busyList f → a ∈ s.handed f
  busy_nodup : ∀ f, (s.busyList f).Nodup
  pending_handed : ∀ {t f a}, s.pc t = .allocated f a → a ∈ s.handed f
  pending_off : ∀ {t f a}, s.pc t = .allocated f a → a ∉ s.busyList f
  pending_inj : ∀ {t u f a}, s.pc t = .allocated f a → s.pc u = .allocated f a → t = u
  mapped : ∀ {f m}, (f, m) ∈ s.mapped → s.Taken f m.privateData ∧
    m.privateData.Matches (m.pfn <<< pageShift) (m.length.setWidth 32)

section Invariant

variable {σ : Type} {ops : XrpAllocationOps σ} {pmem : ULong} {s s' : Driver σ}

theorem Driver.inv_init (pool : σ) : (Driver.init pool).Inv := by
  constructor <;> simp [Driver.init]

theorem Driver.Inv.setPool (pool : σ) (inv : s.Inv) : ({ s with pool := pool } : Driver σ).Inv :=
  { inv with
    mapped := fun member =>
      have ⟨taken, found⟩ := inv.mapped member
      ⟨⟨taken.handed, taken.off, taken.unclaimed⟩, found⟩ }

/-- A thread that is not about to queue an object may go anywhere but there. -/
theorem Driver.Inv.goto {t : ℕ} {pc : IoctlPc} (inv : s.Inv)
    (leaves : ∀ f a, pc ≠ .allocated f a) : (s.goto t pc).Inv := by
  have old : ∀ {u f a}, Function.update s.pc t pc u = .allocated f a →
      s.pc u = .allocated f a := by
    intro u f a at_u
    by_cases eq : u = t
    · subst eq
      exact absurd (by simpa using at_u) (leaves f a)
    · simpa [Function.update_of_ne eq] using at_u
  exact {
    fresh := inv.fresh
    busy_handed := inv.busy_handed
    busy_nodup := inv.busy_nodup
    pending_handed := fun at_u => inv.pending_handed (old at_u)
    pending_off := fun at_u => inv.pending_off (old at_u)
    pending_inj := fun at_u at_v => inv.pending_inj (old at_u) (old at_v)
    mapped := fun member =>
      ⟨⟨(inv.mapped member).1.handed, (inv.mapped member).1.off,
        fun u at_u => (inv.mapped member).1.unclaimed u (old at_u)⟩, (inv.mapped member).2⟩ }

/-- Taking an object off a list takes it for good; what was taken stays so. -/
theorem Driver.Inv.dequeue {f : ℕ} {a : AllocObject} {before after : List AllocObject}
    (inv : s.Inv) (split : s.busyList f = before ++ a :: after) :
    ({ s with busyList := Function.update s.busyList f (before ++ after) } : Driver σ).Inv ∧
    ({ s with busyList := Function.update s.busyList f (before ++ after) } :
      Driver σ).Taken f a := by
  have nodup := inv.busy_nodup f
  have a_off : a ∉ before ++ after := by
    rw [split, List.nodup_middle] at nodup
    exact (List.nodup_cons.mp nodup).1
  have smaller : ∀ {g b}, b ∈ Function.update s.busyList f (before ++ after) g →
      b ∈ s.busyList g := by
    intro g b member
    by_cases eq : g = f
    · subst eq
      rw [Function.update_self] at member
      rw [split]
      grind
    · rwa [Function.update_of_ne eq] at member
  have a_busy : a ∈ s.busyList f := by simp [split]
  refine ⟨?_, inv.busy_handed a_busy, by simpa using a_off,
    fun t at_t => inv.pending_off at_t a_busy⟩
  exact {
    fresh := inv.fresh
    busy_handed := fun member => inv.busy_handed (smaller member)
    busy_nodup := by
      intro g
      by_cases eq : g = f
      · subst eq
        rw [split, List.nodup_middle] at nodup
        simpa using (List.nodup_cons.mp nodup).2
      · simpa [Function.update_of_ne eq] using inv.busy_nodup g
    pending_handed := inv.pending_handed
    pending_off := fun at_t member => inv.pending_off at_t (smaller member)
    pending_inj := inv.pending_inj
    mapped := fun member =>
      ⟨⟨(inv.mapped member).1.handed, fun on => (inv.mapped member).1.off (smaller on),
        (inv.mapped member).1.unclaimed⟩, (inv.mapped member).2⟩ }

theorem Driver.Inv.mmap {f : ℕ} {vma : VmArea} (remap : Except Errno Unit) (inv : s.Inv) :
    (s.mmap f (xvpMmap pmem remap (s.busyList f) vma)).Inv := by
  obtain ⟨a, before, after, pfn, split, found, eq⟩ | eq :=
    xvpMmap_cases pmem remap (s.busyList f) vma
  · obtain ⟨inv', taken⟩ := inv.dequeue split
    cases remap with
    | error e => simpa [Driver.mmap, eq, Except.map] using inv'
    | ok u =>
      rw [eq]
      exact { inv' with
        mapped := by
          intro g m member
          simp only [Driver.mmap, Except.map, List.mem_cons, Prod.mk.injEq] at member
          obtain ⟨rfl, rfl⟩ | member := member
          · exact ⟨⟨taken.handed, taken.off, taken.unclaimed⟩, found⟩
          · have := inv'.mapped member
            exact ⟨⟨this.1.handed, this.1.off, this.1.unclaimed⟩, this.2⟩ }
  · simpa [Driver.mmap, eq] using inv

theorem Driver.Inv.allocate {t f : ℕ} {pool : σ} {b : PhysBlock} (inv : s.Inv) :
    ({ s with
        pool := pool
        nextPtr := s.nextPtr + 1
        pc := Function.update s.pc t (.allocated f ⟨s.nextPtr, b⟩)
        handed := Function.update s.handed f (⟨s.nextPtr, b⟩ :: s.handed f) } : Driver σ).Inv := by
  -- the new object differs from every object seen so far
  have new : ∀ {g}, (⟨s.nextPtr, b⟩ : AllocObject) ∉ s.handed g :=
    fun member => absurd (inv.fresh member) (lt_irrefl _)
  have more : ∀ {g a}, a ∈ Function.update s.handed f (⟨s.nextPtr, b⟩ :: s.handed f) g ↔
      a ∈ s.handed g ∨ (g = f ∧ a = ⟨s.nextPtr, b⟩) := by
    intro g a
    by_cases eq : g = f
    · subst eq
      simp [or_comm]
    · simp [eq]
  have at_cases : ∀ {u g a}, Function.update s.pc t (.allocated f ⟨s.nextPtr, b⟩) u =
      .allocated g a → (u ≠ t ∧ s.pc u = .allocated g a) ∨
        (u = t ∧ g = f ∧ a = ⟨s.nextPtr, b⟩) := by
    intro u g a at_u
    by_cases eq : u = t
    · subst eq
      rw [Function.update_self, IoctlPc.allocated.injEq] at at_u
      exact .inr ⟨rfl, at_u.1.symm, at_u.2.symm⟩
    · exact .inl ⟨eq, by simpa [Function.update_of_ne eq] using at_u⟩
  constructor
  case fresh =>
    intro g a member
    obtain member | ⟨rfl, rfl⟩ := more.mp member
    · exact Nat.lt_succ_of_lt (inv.fresh member)
    · exact Nat.lt_succ_self _
  case busy_handed => exact fun member => more.mpr (.inl (inv.busy_handed member))
  case busy_nodup => exact inv.busy_nodup
  case pending_handed =>
    intro u g a at_u
    obtain ⟨-, at_u⟩ | ⟨-, rfl, rfl⟩ := at_cases at_u
    · exact more.mpr (.inl (inv.pending_handed at_u))
    · exact more.mpr (.inr ⟨rfl, rfl⟩)
  case pending_off =>
    intro u g a at_u member
    obtain ⟨-, at_u⟩ | ⟨-, rfl, rfl⟩ := at_cases at_u
    · exact inv.pending_off at_u member
    · exact new (inv.busy_handed member)
  case pending_inj =>
    intro u v g a at_u at_v
    obtain ⟨-, at_u⟩ | ⟨rfl, rfl, rfl⟩ := at_cases at_u
    · obtain ⟨-, at_v⟩ | ⟨-, -, rfl⟩ := at_cases at_v
      · exact inv.pending_inj at_u at_v
      · exact absurd (inv.pending_handed at_u) new
    · obtain ⟨-, at_v⟩ | ⟨rfl, -⟩ := at_cases at_v
      · exact absurd (inv.pending_handed at_v) new
      · rfl
  case mapped =>
    intro g m member
    obtain ⟨taken, found⟩ := inv.mapped member
    refine ⟨⟨more.mpr (.inl taken.handed), taken.off, ?_⟩, found⟩
    intro u at_u
    obtain ⟨-, at_u⟩ | ⟨-, -, eq⟩ := at_cases at_u
    · exact taken.unclaimed u at_u
    · exact new (eq ▸ taken.handed)

theorem Driver.Inv.queue {t f : ℕ} {a : AllocObject} (inv : s.Inv)
    (here : s.pc t = .allocated f a) :
    ({ s with
        busyList := Function.update s.busyList f (xrpAllocationQueue (s.busyList f) a)
        pc := Function.update s.pc t (.queued f a) } : Driver σ).Inv := by
  have on_cases : ∀ {g b}, b ∈ Function.update s.busyList f (a :: s.busyList f) g →
      b ∈ s.busyList g ∨ (g = f ∧ b = a) := by
    intro g b member
    by_cases eq : g = f
    · subst eq
      simpa [or_comm] using member
    · simpa [eq] using member
  have old : ∀ {u g b}, Function.update s.pc t (.queued f a) u = .allocated g b →
      u ≠ t ∧ s.pc u = .allocated g b := by
    intro u g b at_u
    by_cases eq : u = t
    · subst eq
      simp at at_u
    · exact ⟨eq, by simpa [Function.update_of_ne eq] using at_u⟩
  constructor
  case fresh => exact inv.fresh
  case busy_handed =>
    intro g b member
    obtain member | ⟨rfl, rfl⟩ := on_cases member
    · exact inv.busy_handed member
    · exact inv.pending_handed here
  case busy_nodup =>
    intro g
    by_cases eq : g = f
    · subst eq
      simpa [xrpAllocationQueue] using ⟨inv.pending_off here, inv.busy_nodup g⟩
    · simpa [Function.update_of_ne eq] using inv.busy_nodup g
  case pending_handed => exact fun at_u => inv.pending_handed (old at_u).2
  case pending_off =>
    intro u g b at_u member
    obtain member | ⟨rfl, rfl⟩ := on_cases member
    · exact inv.pending_off (old at_u).2 member
    · exact (old at_u).1 (inv.pending_inj (old at_u).2 here)
  case pending_inj => exact fun at_u at_v => inv.pending_inj (old at_u).2 (old at_v).2
  case mapped =>
    intro g m member
    obtain ⟨taken, found⟩ := inv.mapped member
    refine ⟨⟨taken.handed, fun on => ?_, fun u at_u => taken.unclaimed u (old at_u).2⟩, found⟩
    obtain on | ⟨rfl, eq⟩ := on_cases on
    · exact taken.off on
    · exact taken.unclaimed t (eq ▸ here)

theorem DriverStep.inv (step : DriverStep ops pmem s s') (inv : s.Inv) : s'.Inv := by
  cases step with
  | allocate t file size align idle result => exact inv.allocate
  | allocateFails => exact inv.setPool _
  | queue t file here => exact inv.queue here
  | vmMmapFails => exact inv.goto (by simp)
  | vmMmap t file remap => exact (inv.mmap remap).goto (by simp)
  | mmap t file remap => exact inv.mmap remap
  | other pool => exact inv.setPool pool

theorem DriverReach.inv {pool : σ} (reach : DriverReach ops pmem pool s) : s.Inv := by
  induction reach with
  | refl => exact Driver.inv_init pool
  | tail _ step ih => exact step.inv ih

end Invariant

/-! ## Containment -/

section Containment

variable {σ : Type} {ops : XrpAllocationOps σ} {pmem : ULong} {s : Driver σ}

/-- Without truncation and wrap-around the range test is containment. -/
theorem AllocObject.Matches.contained {a : AllocObject} {m : Mapping}
    (found : a.Matches (m.pfn <<< pageShift) (m.length.setWidth 32)) (fits : m.Representable) :
    a.block.extent.base ≤ m.extent.base ∧ m.extent.stop ≤ a.block.extent.stop := by
  obtain ⟨short, below⟩ := fits
  obtain ⟨start_le, size_le⟩ := found
  have len : ((m.length.setWidth 32 : U32).setWidth 64 : ULong) = m.length := by
    apply BitVec.eq_of_toNat_eq
    simp only [BitVec.toNat_setWidth]
    omega
  rw [len] at size_le
  simp only [Mapping.extent, Extent.stop, Block.extent] at *
  have wide : a.block.size.toNat < 2 ^ 32 := a.block.size.isLt
  rw [BitVec.le_def] at start_le size_le
  rw [BitVec.toNat_sub_of_le, BitVec.toNat_add_of_lt below, BitVec.toNat_setWidth] at size_le
  · omega
  · rw [BitVec.le_def, BitVec.toNat_add_of_lt below]
    omega

/-- What is inside a block is representable: a block has a `u32` size and ends below `2 ^ 64`. -/
theorem Mapping.representable_of_contained {b : PhysBlock} {m : Mapping}
    (base : b.extent.base ≤ m.extent.base) (stop : m.extent.stop ≤ b.extent.stop) :
    m.Representable := by
  have below := b.below
  have wide : b.size.toNat < 2 ^ 32 := b.size.isLt
  simp only [Mapping.Representable, Mapping.extent, Extent.stop, Block.extent] at *
  omega

/-- In every run, what a successful `xvp_mmap` maps lies inside one allocation of the file
that is off its `busy_list` iff the length fits `u32` and the range does not wrap. -/
theorem xvpMmap_contains_iff {pool : σ} {file : ℕ} {m : Mapping}
    (reach : DriverReach ops pmem pool s) (member : (file, m) ∈ s.mapped) :
    s.Contains file m ↔ m.Representable := by
  obtain ⟨taken, found⟩ := reach.inv.mapped member
  constructor
  · rintro ⟨a, -, -, base, stop⟩
    exact Mapping.representable_of_contained base stop
  · intro fits
    exact ⟨m.privateData, taken.handed, taken.off, found.contained fits⟩

end Containment

/-! ## The private pool behind the driver -/

/-- `xrp_private_pool_ops`. -/
def privatePoolOps : XrpAllocationOps (XrpPrivatePool 64) where
  alloc pool size align :=
    match xrpPrivateAlloc true true pool size align with
    | (.ok a, pool') => (.ok a.toBlock, pool')
    | (.error e, pool') => (.error e, pool')
  offset pool b := b.start - pool.start

/-- The pool of the runs below: `2 ^ 20` bytes at `2 ^ 28`. -/
def mmapPool : XrpPrivatePool 64 := ⟨0x10000000, 0x100000, [⟨0x10000000, 0x100000⟩]⟩

theorem page_below : (⟨0x10000000, 0x1000⟩ : Block 64).extent.stop < 2 ^ 64 := by decide

/-- One page of it. -/
def mmapObject : AllocObject := ⟨0, ⟨⟨0x10000000, 0x1000⟩, page_below⟩⟩

/-- The first page is allocated and queued, `vm_mmap` fails, and the file is mapped at offset 0
with the given length. -/
def mmapDirect (length : ULong) : Driver (XrpPrivatePool 64) where
  pool := ⟨0x10000000, 0x100000, [⟨0x10001000, 0xff000⟩]⟩
  nextPtr := 1
  busyList := fun _ => []
  pc := fun _ => .idle
  handed := Function.update (fun _ => []) 0 [mmapObject]
  mapped := [(0, ⟨0x10000, length, mmapObject⟩)]

/-- The run to that state, for every length whose low half is one page. -/
theorem mmapDirect_reach (length : ULong) (pages : 4096 ∣ length.toNat)
    (low : length.setWidth 32 = (0x1000 : U32)) :
    DriverReach privatePoolOps 0x10000000 mmapPool (mmapDirect length) := by
  have alloc : privatePoolOps.alloc mmapPool 0x1000 1 =
      (.ok mmapObject.block.toBlock, (mmapDirect 0).pool) := by decide
  have mapping : xvpMmap 0x10000000#64 (.ok ()) [mmapObject] ⟨0#64, length, 0#64⟩ =
      (.ok ⟨0x10000, length, mmapObject⟩, []) := by
    have found : mmapObject.Matches 0x10000000#64 0x1000#32 := by decide
    simp [xvpMmap, VmArea.length, pageShift, low, xrpAllocationDequeue, found, Except.map]
  have run : DriverReach privatePoolOps 0x10000000 mmapPool _ :=
    (((Relation.ReflTransGen.refl.tail (.allocate 0 0 0x1000 1 rfl alloc)).tail
      (.queue 0 0 rfl)).tail (.vmMmapFails 0 0 rfl)).tail
        (.mmap 0 0 (.ok ()) ⟨0, length, 0⟩ rfl (by simpa [VmArea.length] using pages))
  have object : (⟨0, mmapObject.block⟩ : AllocObject) = mmapObject := rfl
  convert run using 1
  simp [mmapDirect, Driver.mmap, Driver.goto, Driver.init, xrpAllocationQueue, object, mapping]

/-- A mapping of `2 ^ 32` bytes more than the page passes the `u32` test. -/
theorem xvpMmap_escapes :
    DriverReach privatePoolOps 0x10000000 mmapPool (mmapDirect 0x100001000) ∧
    (0, ⟨0x10000, 0x100001000, mmapObject⟩) ∈ (mmapDirect 0x100001000).mapped ∧
    ¬ (mmapDirect 0x100001000).Contains 0 ⟨0x10000, 0x100001000, mmapObject⟩ := by
  refine ⟨mmapDirect_reach _ (by decide) (by decide), by simp [mmapDirect], ?_⟩
  rintro ⟨a, -, -, base, stop⟩
  have := (Mapping.representable_of_contained base stop).1
  revert this
  decide

/-- A mapping of the page itself. -/
theorem xvpMmap_contains_iff_page :
    DriverReach privatePoolOps 0x10000000 mmapPool (mmapDirect 0x1000) ∧
    (⟨0x10000, 0x1000, mmapObject⟩ : Mapping).Representable ∧
    (mmapDirect 0x1000).Contains 0 ⟨0x10000, 0x1000, mmapObject⟩ := by
  have reach := mmapDirect_reach 0x1000 (by decide) (by decide)
  have fits : (⟨0x10000, 0x1000, mmapObject⟩ : Mapping).Representable :=
    ⟨by decide, by decide⟩
  exact ⟨reach, fits, (xvpMmap_contains_iff reach (by simp [mmapDirect])).mpr fits⟩

end Xrp.Kernel
