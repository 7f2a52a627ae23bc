import Xrp.Kernel.Holders

/-!
# Counts of references to allocations

As long as a failed `xrp_map_request` unshares only what it shared, the `ref` of every allocation is
the number of those who have a reference to it.
-/

namespace Xrp.Kernel.Holders

/-! ## The invariant -/

/-- What is known of a request while `rest` remains to be shared. -/
structure Sharing (rq : Request) (rest : List Field) : Prop where
  nodup : rest.Nodup
  fresh : ∀ f ∈ rest, f ∉ rq.created
  buffers : ∀ i, .buffer i ∈ rest →
    .buffer i ∈ rq.queue.unshared ∧ (rq.maps (.buffer i)).reference = none
  passed : ∀ f ∈ rq.queue.unshared, f ∈ rest ∨ f ∈ rq.created ∨ (rq.maps f).reference = none

/-- What is known of a request while `rest` remains to be unshared. -/
structure Unsharing (rq : Request) (failed : Bool) (rest : List Field) : Prop where
  kept : ∀ f ∈ rq.created, (rq.maps f).reference ≠ none → f ∈ rest
  only : failed = false → ∀ f ∈ rest, f ∈ rq.created ∨ (rq.maps f).reference = none

/-- What is known of a request. -/
structure RequestOk (rq : Request) : Prop where
  selected : ∀ f ∈ rq.created, f ∈ rq.queue.unshared
  sharing : ∀ rest, rq.stage = .sharing rest → Sharing rq rest
  unsharing : ∀ failed rest, rq.stage = .unsharing failed rest → Unsharing rq failed rest

/-- The invariant of careful runs. -/
structure Inv (s : State) : Prop where
  accounts : s.arena.Accounts s.Owns
  nodup : ∀ file, ((s.busyList file).map (·.address)).Nodup
  origin : ∀ file, ∀ a ∈ s.busyList file,
    s.arena.made[s.arena.serial a.address]? = some (file, a.address)
  requests : ∀ r rq, s.requests r = some rq → RequestOk rq

theorem inv_init : Inv .init where
  accounts := by
    refine Arena.accounts_empty fun t p own => ?_
    cases t with
    | busy =>
      obtain ⟨_, _, member, _⟩ := own
      cases member
    | vma i =>
      obtain ⟨_, found, _⟩ := own
      cases found
    | mapping r f =>
      obtain ⟨_, found, _⟩ := own
      cases found
    | lost k => cases own
  nodup _ := .nil
  origin _ _ member := by cases member
  requests _ _ found := by cases found

/-! ## The list of a file -/

section Busy

variable {s : State} {file file' : ℕ} {a a' : AllocObject} {p : ULong}

/-- What is on a list is on no other. -/
theorem Inv.busy_file (inv : Inv s) (member : a ∈ s.busyList file) (member' : a' ∈ s.busyList file')
    (same : a.address = a'.address) : file = file' := by
  have origin := inv.origin file a member
  have origin' := inv.origin file' a' member'
  rw [same, origin'] at origin
  exact (Prod.mk.inj (Option.some.inj origin)).1.symm

/-- What is on a list has a reference. -/
theorem Inv.busy_ne (inv : Inv s) (member : a ∈ s.busyList file) (gone : s.refs p ≤ 0) :
    a.address ≠ p := by
  rintro rfl
  have own : s.Owns .busy a.address := ⟨file, a, member, rfl⟩
  exact inv.accounts.unowned gone own

/-- A new allocation is put on a list. -/
theorem Inv.alloc (inv : Inv s) (gone : s.refs p ≤ 0) (b : PhysBlock) : Inv (s.alloc file p b) := by
  have address : AllocObject.address ⟨p.toNat, b⟩ = p := BitVec.ofNat_toNat _ p
  have lists (file' : ℕ) (a : AllocObject) : a ∈ (s.alloc file p b).busyList file' ↔
      a ∈ s.busyList file' ∨ file' = file ∧ a = ⟨p.toNat, b⟩ := by
    by_cases same : file' = file
    · subst same
      simp [State.alloc, xrpAllocationQueue, or_comm]
    · simp [State.alloc, same]
  refine ⟨inv.accounts.create (t := .busy) gone ?_, ?_, ?_, inv.requests⟩
  · intro t q
    cases t with
    | busy =>
      constructor
      · rintro ⟨file', a, member, rfl⟩
        rcases (lists file' a).mp member with old | ⟨_, rfl⟩
        · exact .inl ⟨file', a, old, rfl⟩
        · exact .inr ⟨rfl, address⟩
      · rintro (⟨file', a, member, rfl⟩ | ⟨_, rfl⟩)
        · exact ⟨file', a, (lists file' a).mpr (.inl member), rfl⟩
        · exact ⟨file, _, (lists file _).mpr (.inr ⟨rfl, rfl⟩), address⟩
    | vma i => simp [State.Owns, State.alloc]
    | mapping r f => simp [State.Owns, State.alloc]
    | lost k => simp [State.Owns, State.alloc]
  · intro file'
    by_cases same : file' = file
    · subst same
      have list : (s.alloc file' p b).busyList file' = ⟨p.toNat, b⟩ :: s.busyList file' := by
        simp [State.alloc, xrpAllocationQueue]
      rw [list, List.map_cons, address, List.nodup_cons]
      refine ⟨?_, inv.nodup file'⟩
      rw [List.mem_map]
      rintro ⟨a, member, here⟩
      exact inv.busy_ne member gone here
    · simpa [State.alloc, same] using inv.nodup file'
  · intro file' a member
    rcases (lists file' a).mp member with old | ⟨rfl, rfl⟩
    · exact s.arena.create_origin_ne file (inv.busy_ne old gone) (inv.origin file' a old)
    · rw [address]
      exact s.arena.create_origin file' p

/-- `mmap` takes an allocation off the list of the file, or does nothing. -/
theorem State.mmap_cases (s : State) (pmem : ULong) (file mm j : ℕ) (vma : VmArea)
    (remap : Except Errno Unit) :
    (∃ a before after, s.busyList file = before ++ a :: after ∧
      s.dequeued pmem file vma = some a ∧
      s.mmap pmem file mm j vma remap =
        match remap with
        | .ok _ =>
          { s with
            busyList := Function.update s.busyList file (before ++ after)
            vmas := Function.update s.vmas j (some ⟨mm, file, vma, a⟩) }
        | .error _ =>
          { s with
            busyList := Function.update s.busyList file (before ++ after)
            lost := s.lost ++ [a.address] }) ∨
    (s.dequeued pmem file vma = none ∧ s.mmap pmem file mm j vma remap = s) := by
  rcases xrpAllocationDequeue_cases ((vma.vmPgoff + (pmem >>> pageShift)) <<< pageShift)
    (vma.length.setWidth 32) (s.busyList file) with ⟨a, before, after, split, _, result⟩ | result
  · refine .inl ⟨a, before, after, split, congrArg Prod.fst result, ?_⟩
    have taken : s.dequeued pmem file vma = some a := congrArg Prod.fst result
    unfold State.mmap xvpMmap
    simp only [result, taken]
    cases remap <;> rfl
  · have none : s.dequeued pmem file vma = none := congrArg Prod.fst result
    refine .inr ⟨none, ?_⟩
    unfold State.mmap xvpMmap
    simp only [result, none, Function.update_eq_self]
    simp

section Dequeue

variable {before after : List AllocObject}

theorem Inv.nodup_middle (inv : Inv s) (split : s.busyList file = before ++ a :: after) :
    a.address ∉ (before ++ after).map (·.address) ∧
      ((before ++ after).map (·.address)).Nodup := by
  have nodup := inv.nodup file
  rw [split, List.map_append, List.map_cons, List.nodup_middle, ← List.map_append] at nodup
  exact List.nodup_cons.mp nodup

theorem Inv.mem_dequeue (inv : Inv s) (split : s.busyList file = before ++ a :: after)
    (file' : ℕ) (a' : AllocObject) :
    a' ∈ Function.update s.busyList file (before ++ after) file' ↔
      a' ∈ s.busyList file' ∧ a'.address ≠ a.address := by
  have here : a ∈ s.busyList file := by simp [split]
  by_cases same : file' = file
  · subst same
    rw [Function.update_self, split, List.mem_append, List.mem_append, List.mem_cons]
    have other (member : a' ∈ before ∨ a' ∈ after) : a'.address ≠ a.address := fun address =>
      (inv.nodup_middle split).1 (List.mem_map.mpr ⟨a', List.mem_append.mpr member, address⟩)
    constructor
    · intro member
      exact ⟨member.imp_right .inr, other member⟩
    · rintro ⟨left | rfl | right, address⟩
      · exact .inl left
      · exact absurd rfl address
      · exact .inr right
  · rw [Function.update_of_ne same]
    refine (and_iff_left_of_imp fun member address => ?_).symm
    exact same (inv.busy_file member here address)

/-- An allocation that is taken off a list goes to the one who took it. -/
theorem Inv.dequeue (inv : Inv s) {s' : State} {t : Owner}
    (split : s.busyList file = before ++ a :: after)
    (lists : s'.busyList = Function.update s.busyList file (before ++ after))
    (arena : s'.arena = s.arena) (requests : s'.requests = s.requests) (taker : t ≠ .busy)
    (fresh : ¬ s.Owns t a.address)
    (moved : ∀ u q, u ≠ .busy → (s'.Owns u q ↔ s.Owns u q ∨ u = t ∧ q = a.address)) : Inv s' := by
  have here : a ∈ s.busyList file := by simp [split]
  have fewer (file' : ℕ) (a' : AllocObject) : a' ∈ s'.busyList file' ↔
      a' ∈ s.busyList file' ∧ a'.address ≠ a.address := by
    rw [lists]
    exact inv.mem_dequeue split file' a'
  have own : s.Owns .busy a.address := ⟨file, a, here, rfl⟩
  have accounts : s.arena.Accounts s'.Owns := by
    refine inv.accounts.transfer own fresh ?_
    intro u q
    by_cases busy : u = .busy
    · subst busy
      constructor
      · rintro ⟨file', a', member, rfl⟩
        obtain ⟨old, other⟩ := (fewer file' a').mp member
        exact .inl ⟨⟨file', a', old, rfl⟩, fun same => other same.2⟩
      · rintro (⟨⟨file', a', member, rfl⟩, other⟩ | ⟨impossible, _⟩)
        · exact ⟨file', a', (fewer file' a').mpr ⟨member, fun same => other ⟨rfl, same⟩⟩, rfl⟩
        · exact absurd impossible.symm taker
    · rw [moved u q busy, and_iff_left fun same => busy same.1]
  refine ⟨arena.symm ▸ accounts, ?_, ?_, requests.symm ▸ inv.requests⟩
  · intro file'
    rw [lists]
    by_cases same : file' = file
    · subst same
      rw [Function.update_self]
      exact (inv.nodup_middle split).2
    · rw [Function.update_of_ne same]
      exact inv.nodup file'
  · intro file' a' member
    rw [arena]
    exact inv.origin file' a' ((fewer file' a').mp member).1

end Dequeue

theorem Inv.mmap (inv : Inv s) {pmem : ULong} {mm j : ℕ} (free : s.vmas j = none) (vma : VmArea)
    (remap : Except Errno Unit) : Inv (s.mmap pmem file mm j vma remap) := by
  rcases s.mmap_cases pmem file mm j vma remap with
    ⟨a, before, after, split, _, result⟩ | ⟨_, result⟩
  · rw [result]
    cases remap with
    | ok =>
      refine inv.dequeue (t := .vma j) split rfl rfl rfl nofun ?_ ?_
      · rintro ⟨v, found, _⟩
        rw [free] at found
        cases found
      · intro u q other
        cases u with
        | busy => exact absurd rfl other
        | vma i =>
          by_cases same : i = j
          · subst same
            simp [State.Owns, free, eq_comm]
          · simp [State.Owns, same]
        | mapping r f => simp [State.Owns]
        | lost k => simp [State.Owns]
    | error e =>
      refine inv.dequeue (t := .lost s.lost.length) split rfl rfl rfl nofun ?_ ?_
      · simp [State.Owns]
      · intro u q other
        cases u with
        | busy => exact absurd rfl other
        | vma i => simp [State.Owns]
        | mapping r f => simp [State.Owns]
        | lost k =>
          simp only [State.Owns, Owner.lost.injEq]
          rw [List.getElem?_append]
          split_ifs with inside
          · simp [inside.ne]
          · rw [List.getElem?_singleton, List.getElem?_eq_none (not_lt.mp inside)]
            have last : k - s.lost.length = 0 ↔ k = s.lost.length := by omega
            simp [last, eq_comm]
  · rw [result]
    exact inv

end Busy

/-! ## Areas -/

section Areas

variable {s : State} {i j : ℕ}

theorem Inv.duplicate (inv : Inv s) (free : s.vmas j = none) (mm : ℕ) (area area' : VmArea) :
    Inv (s.duplicate i j mm area area') := by
  unfold State.duplicate
  split
  · exact inv
  · next v found =>
    have own : s.Owns (.vma i) v.privateData.address := ⟨v, found, rfl⟩
    have other : i ≠ j := by
      rintro rfl
      rw [free] at found
      cases found
    have fresh : ¬ s.Owns (.vma j) v.privateData.address := by
      simp [State.Owns, free]
    refine ⟨inv.accounts.get own fresh ?_, inv.nodup, inv.origin, inv.requests⟩
    intro t q
    cases t with
    | busy => simp [State.Owns]
    | vma k =>
      by_cases new : k = j
      · subst new
        simp [State.Owns, free, eq_comm]
      · by_cases old : k = i
        · subst old
          simp [State.Owns, found, new]
        · simp [State.Owns, new, old]
    | mapping r f => simp [State.Owns]
    | lost k => simp [State.Owns]

theorem Inv.unmap (inv : Inv s) (i : ℕ) : Inv (s.unmap i) := by
  unfold State.unmap
  split
  · exact inv
  · next v found =>
    have own : s.Owns (.vma i) v.privateData.address := ⟨v, found, rfl⟩
    refine ⟨inv.accounts.put own ?_, inv.nodup, inv.origin, inv.requests⟩
    intro t q
    cases t with
    | busy => simp [State.Owns]
    | vma k =>
      by_cases same : k = i
      · subst same
        simp [State.Owns, found, eq_comm]
      · simp [State.Owns, same]
    | mapping r f => simp [State.Owns]
    | lost k => simp [State.Owns]

theorem Inv.close (inv : Inv s) (file : ℕ) : Inv (s.close file) :=
  ⟨inv.accounts.congr fun t p => by cases t <;> rfl, inv.nodup, inv.origin, inv.requests⟩

end Areas

/-! ## Requests -/

section Requests

variable {s : State} {r : ℕ} {rq rq' : Request} {f : Field} {p : ULong}

/-- The state with one request changed. -/
def State.setRequest (s : State) (r : ℕ) (rq : Option Request) : State :=
  { s with requests := Function.update s.requests r rq }

theorem owns_mapping (given : s.requests r = some rq) :
    s.Owns (.mapping r f) p ↔ rq.Refers f p := by
  simp [State.Owns, given]

/-- Only the references of that request change. -/
theorem owns_setRequest {x : Option Request} {owns : Owner → ULong → Prop}
    (others : ∀ t q, (∀ g, t ≠ .mapping r g) → (owns t q ↔ s.Owns t q))
    (here : ∀ g q, owns (.mapping r g) q ↔ ∃ rq ∈ x, rq.Refers g q) (t : Owner) (q : ULong) :
    (s.setRequest r x).Owns t q ↔ owns t q := by
  cases t with
  | mapping r' g =>
    by_cases same : r' = r
    · subst same
      rw [here]
      simp [State.Owns, State.setRequest]
    · rw [others _ q (by simp [same])]
      simp [State.Owns, State.setRequest, same]
  | busy => exact (others .busy q nofun).symm
  | vma i => exact (others (.vma i) q nofun).symm
  | lost k => exact (others (.lost k) q nofun).symm

/-- A request changes, and the references with it. -/
theorem Inv.of_request (inv : Inv s) {x : Option Request} {pins : ℕ → ℤ} {A : Arena ℕ ULong}
    (accounts : A.Accounts (s.setRequest r x).Owns)
    (origin : ∀ file, ∀ a ∈ s.busyList file, A.made[A.serial a.address]? = some (file, a.address))
    (ok : ∀ rq ∈ x, RequestOk rq) :
    Inv { s with pins := pins, arena := A, requests := Function.update s.requests r x } := by
  refine ⟨accounts.congr fun t p => by cases t <;> rfl, inv.nodup, origin, ?_⟩
  intro r' rq found
  dsimp only at found
  by_cases same : r' = r
  · subst same
    rw [Function.update_self] at found
    exact ok rq found
  · rw [Function.update_of_ne same] at found
    exact inv.requests r' rq found

/-- The references of the request stay the same. -/
theorem Inv.same_references (inv : Inv s) (given : s.requests r = some rq)
    (same : ∀ g q, rq'.Refers g q ↔ rq.Refers g q) :
    s.arena.Accounts (s.setRequest r (some rq')).Owns := by
  refine inv.accounts.congr (owns_setRequest (fun _ _ _ => Iff.rfl) fun g q => ?_)
  rw [owns_mapping given, ← same]
  simp

/-! ### Sharing -/

/-- The request after a part of `xrp_map_request` that created a mapping. -/
def Request.create (rq : Request) (f : Field) (x : XrpMapping) (rest : List Field) : Request :=
  { rq with
    maps := Function.update rq.maps f x
    created := rq.created ++ [f]
    stage := .sharing rest }

theorem refers_create {x : XrpMapping} {rest : List Field} (fresh : f ∉ rq.created) (g : Field)
    (q : ULong) :
    (rq.create f x rest).Refers g q ↔ rq.Refers g q ∨ g = f ∧ x.reference = some q := by
  by_cases same : g = f
  · subst same
    simp [Request.Refers, Request.create, fresh]
  · simp [Request.Refers, Request.create, same]

theorem RequestOk.create (ok : RequestOk rq) {x : XrpMapping} {rest : List Field}
    (stage : rq.stage = .sharing (f :: rest))
    (selected : f ∈ rq.queue.unshared ∨ ∃ i, f = .buffer i) :
    RequestOk (rq.create f x rest) := by
  have sharing := ok.sharing _ stage
  have chosen : f ∈ rq.queue.unshared := by
    rcases selected with direct | ⟨i, rfl⟩
    · exact direct
    · exact (sharing.buffers i List.mem_cons_self).1
  obtain ⟨absent, nodup⟩ := List.nodup_cons.mp sharing.nodup
  refine ⟨?_, ?_, nofun⟩
  · intro g member
    rcases List.mem_append.mp member with old | new
    · exact ok.selected g old
    · rw [List.mem_singleton.mp new]
      exact chosen
  · rintro _ ⟨⟩
    refine ⟨nodup, ?_, ?_, ?_⟩
    · intro g later member
      rcases List.mem_append.mp member with old | new
      · exact sharing.fresh g (List.mem_cons_of_mem f later) old
      · rw [List.mem_singleton.mp new] at later
        exact absent later
    · intro i later
      have other : .buffer i ≠ f := by
        rintro rfl
        exact absent later
      obtain ⟨known, empty⟩ := sharing.buffers i (List.mem_cons_of_mem f later)
      refine ⟨known, ?_⟩
      rw [Request.create]
      dsimp only
      rw [Function.update_of_ne other]
      exact empty
    · intro g known
      by_cases same : g = f
      · exact .inr (.inl (by simp [Request.create, same]))
      · rw [Request.create]
        dsimp only
        rw [Function.update_of_ne same]
        rcases sharing.passed g known with later | old | empty
        · exact .inl (List.mem_of_ne_of_mem same later)
        · exact .inr (.inl (List.mem_append_left _ old))
        · exact .inr (.inr empty)

/-- A part with nothing to share. -/
theorem RequestOk.skip (ok : RequestOk rq) {rest : List Field}
    (stage : rq.stage = .sharing (f :: rest))
    (skipped : f ∈ rq.queue.unshared → ∃ i, f = .buffer i) :
    RequestOk { rq with stage := .sharing rest } := by
  have sharing := ok.sharing _ stage
  refine ⟨ok.selected, ?_, nofun⟩
  rintro _ ⟨⟩
  refine ⟨(List.nodup_cons.mp sharing.nodup).2, ?_, ?_, ?_⟩
  · exact fun g later => sharing.fresh g (List.mem_cons_of_mem f later)
  · exact fun i later => sharing.buffers i (List.mem_cons_of_mem f later)
  · intro g known
    rcases sharing.passed g known with first | past
    · rcases List.mem_cons.mp first with rfl | later
      · obtain ⟨i, rfl⟩ := skipped known
        exact .inr (.inr (sharing.buffers i List.mem_cons_self).2)
      · exact .inl later
    · exact .inr past

/-- `xrp_map_request` fails. -/
theorem RequestOk.fail (ok : RequestOk rq) {x : XrpMapping} :
    RequestOk { rq with
      maps := Function.update rq.maps f x
      stage := .unsharing true rq.queue.unshared } := by
  refine ⟨ok.selected, nofun, ?_⟩
  rintro _ _ ⟨⟩
  exact ⟨fun g member _ => ok.selected g member, nofun⟩

theorem refers_fail {x : XrpMapping} {stage : Stage} (fresh : f ∉ rq.created) (g : Field)
    (q : ULong) :
    Request.Refers { rq with maps := Function.update rq.maps f x, stage := stage } g q ↔
      rq.Refers g q := by
  by_cases same : g = f
  · subst same
    simp [Request.Refers, fresh]
  · simp [Request.Refers, same]

/-- Memory for a shadow is given back if the request does not get to use it. -/
theorem Inv.unused_shadow (inv : Inv s) {file : ℕ} {shadow : Option ULong} {A : Arena ℕ ULong}
    (gone : ∀ p, shadow = some p → s.refs p ≤ 0)
    (result : A = (s.reserve file shadow).settle shadow (s.reserve file shadow).refs)
    {owns : Owner → ULong → Prop} (accounts : s.arena.Accounts owns) :
    A.Accounts owns ∧ ∀ file, ∀ a ∈ s.busyList file,
      A.made[A.serial a.address]? = some (file, a.address) := by
  subst result
  cases shadow with
  | none =>
    rw [Arena.settle_none]
    exact ⟨accounts, inv.origin⟩
  | some p =>
    have refused := gone p rfl
    rw [State.reserve, Arena.settle_discard]
    have : Nonempty Owner := ⟨.busy⟩
    refine ⟨accounts.discard refused, fun file' a member => ?_⟩
    exact s.arena.create_origin_ne file (inv.busy_ne member refused) (inv.origin file' a member)

/-- The reference of a new mapping. -/
theorem Inv.new_reference (inv : Inv s) {env : MapEnv} {x : XrpMapping} {rest : List Field}
    {A : Arena ℕ ULong} (given : s.requests r = some rq) (fresh : f ∉ rq.created)
    (areas : ∀ p, partNative env f = some p → ∃ i, s.Owns (.vma i) p)
    (gone : ∀ p, partShadow env rq.queue f = some p → s.refs p ≤ 0)
    (reference : NewReference x.reference (partShadow env rq.queue f) (partNative env f))
    (result : A = (s.reserve rq.file (partShadow env rq.queue f)).settle
      (partShadow env rq.queue f)
      ((s.reserve rq.file (partShadow env rq.queue f)).refs + x.held.2)) :
    A.Accounts (s.setRequest r (some (rq.create f x rest))).Owns ∧ ∀ file, ∀ a ∈ s.busyList file,
      A.made[A.serial a.address]? = some (file, a.address) := by
  have more (p : ULong) (refers : x.reference = some p) :
      ∀ t q, (s.setRequest r (some (rq.create f x rest))).Owns t q ↔
        s.Owns t q ∨ t = .mapping r f ∧ q = p := by
    refine owns_setRequest ?_ ?_
    · intro t q other
      simp [other f]
    · intro g q
      rw [owns_mapping given]
      simp [refers_create fresh, refers, eq_comm]
  rw [x.held_snd] at result
  subst result
  rcases reference with made | ⟨none, p, refers, native⟩
  · rw [← made] at gone ⊢
    cases refers : x.reference with
    | none =>
      rw [Option.elim_none, add_zero, Arena.settle_none]
      refine ⟨inv.same_references given fun g q => ?_, inv.origin⟩
      simp [refers_create fresh, refers]
    | some p =>
      have refused := gone p refers
      rw [Option.elim_some, State.reserve, Arena.settle_create]
      refine ⟨inv.accounts.create refused (more p refers), fun file a member => ?_⟩
      exact s.arena.create_origin_ne rq.file (inv.busy_ne member refused)
        (inv.origin file a member)
  · obtain ⟨i, own⟩ := areas p native
    have absent : ¬ s.Owns (.mapping r f) p := fun old =>
      fresh ((owns_mapping given).mp old).1
    rw [none, refers, Option.elim_some, Arena.settle_none]
    exact ⟨inv.accounts.get own absent (more p refers), inv.origin⟩

theorem Inv.share (inv : Inv s) {env : MapEnv} (allowed : Allowed s (.share r env)) :
    Inv (s.share r env) := by
  unfold State.share
  split
  · exact inv
  · next rq given =>
    have ok := inv.requests r rq given
    split
    · next f rest stage =>
      have fresh := (ok.sharing _ stage).fresh f List.mem_cons_self
      obtain ⟨areas, gone⟩ := allowed rq f rest given stage
      have result := sharePart_result env rq.queue f
        ⟨rq.maps, (s.pins, (s.reserve rq.file (partShadow env rq.queue f)).refs), rq.created, []⟩
      dsimp only
      generalize sharePart env rq.queue f
        ⟨rq.maps, (s.pins, (s.reserve rq.file (partShadow env rq.queue f)).refs), rq.created, []⟩ =
          outcome at result
      cases result with
      | skipped none selected =>
        have accounts :
            s.arena.Accounts (s.setRequest r (some { rq with stage := .sharing rest })).Owns :=
          inv.same_references given fun g q => Iff.rfl
        obtain ⟨accounts, origin⟩ := inv.unused_shadow gone rfl accounts
        refine inv.of_request accounts origin ?_
        rintro _ ⟨⟩
        exact ok.skip stage selected
      | shared x reference selected =>
        have owned (p : ULong) (native : partNative env f = some p) : ∃ i, s.Owns (.vma i) p := by
          obtain ⟨i, v, found, _, address⟩ := areas p native
          exact ⟨i, v, found, address⟩
        obtain ⟨accounts, origin⟩ := inv.new_reference given fresh owned gone reference rfl
        refine inv.of_request accounts origin ?_
        rintro _ ⟨⟩
        exact ok.create stage selected
      | failed e x =>
        have accounts : s.arena.Accounts (s.setRequest r (some { rq with
            maps := Function.update rq.maps f x
            stage := .unsharing true rq.queue.unshared })).Owns :=
          inv.same_references given (refers_fail fresh)
        obtain ⟨accounts, origin⟩ := inv.unused_shadow gone rfl accounts
        refine inv.of_request accounts origin ?_
        rintro _ ⟨⟩
        exact ok.fail
    · exact inv

/-! ### Unsharing -/

theorem parts_nodup (q : MapQueue) : q.parts.Nodup := by
  have buffers : ((List.range q.nBuffers).map Field.buffer).Nodup :=
    List.nodup_range.map fun _ _ => Field.buffer.inj
  simp [MapQueue.parts, List.nodup_append, buffers]

theorem mem_parts {q : MapQueue} (member : f ∈ q.unshared) : f ∈ q.parts := by
  cases f with
  | inData => simp [MapQueue.parts]
  | outData => simp [MapQueue.parts]
  | buffer i => simpa [MapQueue.parts, MapQueue.unshared] using member
  | dspBuffer => simp [MapQueue.parts]

theorem Inv.submit (inv : Inv s) (free : s.requests r = none) (file mm : ℕ) (q : MapQueue)
    (stack : Field → XrpMapping) : Inv (s.submit r file mm q stack) := by
  have accounts : s.arena.Accounts (s.setRequest r (some ⟨file, mm, q,
      (zeroBuffers q ⟨stack, s.counts, [], []⟩).maps, [], .sharing q.parts⟩)).Owns := by
    refine inv.accounts.congr (owns_setRequest (fun _ _ _ => Iff.rfl) fun g p => ?_)
    simp [State.Owns, free, Request.Refers]
  refine inv.of_request accounts inv.origin ?_
  rintro _ ⟨⟩
  refine ⟨nofun, ?_, nofun⟩
  rintro _ ⟨⟩
  refine ⟨parts_nodup q, nofun, ?_, ?_⟩
  · intro i member
    have inside : i < q.nBuffers := by simpa [MapQueue.parts] using member
    refine ⟨by simp [MapQueue.unshared, inside], ?_⟩
    have zero : (zeroBuffers q ⟨stack, s.counts, [], []⟩).maps (.buffer i) = .zero := if_pos inside
    dsimp only
    rw [zero]
    exact reference_none rfl
  · exact fun f member => .inl (mem_parts member)

theorem Inv.finish (inv : Inv s) (writeBack : Bool) : Inv (s.finish r writeBack) := by
  unfold State.finish
  split
  · exact inv
  · next rq given =>
    split
    · next stage =>
      have ok := inv.requests r rq given
      have sharing := ok.sharing _ stage
      refine inv.of_request (inv.same_references given fun g q => Iff.rfl) inv.origin ?_
      rintro _ ⟨⟩
      have members (f : Field) :
          f ∈ (if writeBack then rq.queue.unmapped else rq.queue.unshared) ↔
            f ∈ rq.queue.unshared := by
        split_ifs
        · exact (unmapped_perm rq.queue).mem_iff
        · exact Iff.rfl
      refine ⟨ok.selected, nofun, ?_⟩
      rintro _ _ ⟨⟩
      refine ⟨fun f created _ => (members f).mpr (ok.selected f created), fun _ f member => ?_⟩
      exact (sharing.passed f ((members f).mp member)).resolve_left List.not_mem_nil
    · exact inv

/-- The request after `__xrp_unshare_block` for a mapping. -/
def Request.unshare (rq : Request) (f : Field) (failed : Bool) (rest : List Field) : Request :=
  { rq with
    maps := Function.update rq.maps f { rq.maps f with type := mappingNone }
    stage := .unsharing failed rest }

theorem reference_unshare {failed : Bool} {rest : List Field} (g : Field) :
    ((rq.unshare f failed rest).maps g).reference =
      if g = f then none else (rq.maps g).reference := by
  by_cases same : g = f
  · subst same
    rw [if_pos rfl]
    refine reference_none ?_
    simp only [Request.unshare, Function.update_self]
    show mappingNone &&& ~~~mappingKernel = mappingNone
    decide
  · simp [Request.unshare, same]

theorem RequestOk.unshare (ok : RequestOk rq) {failed : Bool} {rest : List Field}
    (stage : rq.stage = .unsharing failed (f :: rest)) : RequestOk (rq.unshare f failed rest) := by
  have unsharing := ok.unsharing _ _ stage
  refine ⟨ok.selected, nofun, ?_⟩
  rintro _ _ ⟨⟩
  refine ⟨?_, ?_⟩
  · intro g created refers
    rw [reference_unshare] at refers
    split_ifs at refers with same
    · exact absurd rfl refers
    · exact List.mem_of_ne_of_mem same (unsharing.kept g created refers)
  · intro succeeded g later
    rw [reference_unshare]
    split_ifs with same
    · exact .inr rfl
    · exact unsharing.only succeeded g (List.mem_cons_of_mem f later)

theorem Inv.unshare (inv : Inv s) (careful : Careful s (.unshare r)) : Inv (s.unshare r) := by
  unfold State.unshare
  split
  · exact inv
  · next rq given =>
    split
    · next failed f rest stage =>
      have ok := inv.requests r rq given
      have created (refers : (rq.maps f).reference ≠ none) : f ∈ rq.created := by
        by_contra absent
        cases failed with
        | true => exact refers (careful rq f rest given stage absent)
        | false =>
          have known := (ok.unsharing _ _ stage).only rfl f List.mem_cons_self
          exact refers (known.resolve_left absent)
      have counts : (xrpUnshareBlock (rq.maps f) s.counts).2 =
          s.arena.refs - (rq.maps f).reference.elim 0 fun p => Pi.single p 1 := by
        rw [xrpUnshareBlock_eq, Prod.snd_sub, XrpMapping.held_snd]
        rfl
      have after (g : Field) (q : ULong) :
          (rq.unshare f failed rest).Refers g q ↔ rq.Refers g q ∧ g ≠ f := by
        rw [Request.Refers, reference_unshare]
        by_cases same : g = f
        · simp [same]
        · simp [same, Request.Refers, Request.unshare]
      have accounts : (s.arena.settle (rq.maps f).reference
          (xrpUnshareBlock (rq.maps f) s.counts).2).Accounts
            (s.setRequest r (some (rq.unshare f failed rest))).Owns := by
        rw [counts]
        cases refers : (rq.maps f).reference with
        | none =>
          rw [Option.elim_none, sub_zero, Arena.settle_none]
          refine inv.same_references given fun g q => (after g q).trans (and_iff_left_of_imp ?_)
          rintro ⟨_, other⟩ rfl
          rw [refers] at other
          cases other
        | some p =>
          have own : s.Owns (.mapping r f) p :=
            (owns_mapping given).mpr ⟨created (by simp [refers]), refers⟩
          refine inv.accounts.put own (owns_setRequest ?_ ?_)
          · intro t q other
            simp [other f]
          · intro g q
            rw [owns_mapping given]
            simp only [Option.mem_some_iff, exists_eq_left', after, Owner.mapping.injEq, true_and]
            refine and_congr_right fun old => not_congr (and_iff_left_of_imp ?_)
            rintro rfl
            exact Option.some.inj (old.2.symm.trans refers)
      refine inv.of_request accounts inv.origin ?_
      rintro _ ⟨⟩
      exact ok.unshare stage
    · exact inv

theorem Inv.done (inv : Inv s) : Inv (s.done r) := by
  unfold State.done
  split
  · exact inv
  · next rq given =>
    split
    · next failed stage =>
      have ok := inv.requests r rq given
      have unsharing := ok.unsharing _ _ stage
      have accounts : s.arena.Accounts (s.setRequest r none).Owns := by
        refine inv.accounts.congr (owns_setRequest (fun _ _ _ => Iff.rfl) fun g p => ?_)
        rw [owns_mapping given]
        refine iff_of_false (fun refers => ?_) (by simp)
        have member := unsharing.kept g refers.1 (by simp [refers.2])
        cases member
      exact inv.of_request accounts inv.origin nofun
    · exact inv

end Requests

/-! ## Whole runs -/

section Runs

variable {s s' : State} {pmem : ULong}

theorem Inv.step (inv : Inv s) {e : Event} (allowed : Allowed s e) (careful : Careful s e) :
    Inv (Event.run pmem s e) := by
  cases e with
  | alloc file p b => exact inv.alloc allowed.2 b
  | mmap file mm j vma remap => exact inv.mmap allowed.2 vma remap
  | duplicate i j mm area area' => exact inv.duplicate allowed.2 mm area area'
  | unmap i => exact inv.unmap i
  | free file mm start i => exact inv.unmap i
  | close file => exact inv.close file
  | submit r file mm q stack => exact inv.submit allowed.2 file mm q stack
  | share r env => exact inv.share allowed
  | finish r writeBack => exact inv.finish writeBack
  | unshare r => exact inv.unshare careful
  | done r => exact inv.done

theorem CarefulReach.inv (reach : CarefulReach pmem s) : Inv s := by
  induction reach with
  | refl => exact inv_init
  | tail _ step ih =>
    obtain ⟨e, ⟨allowed, careful⟩, rfl⟩ := step
    exact ih.step allowed careful

/-- Who holds an allocation: the `busy_list` of an open file, the areas that have it, and the native
mappings of requests. -/
def State.Holds (s : State) : Owner → ULong → Prop
  | .busy, p => ∃ file, s.closed file = false ∧ ∃ a ∈ s.busyList file, a.address = p
  | .vma i, p => ∃ v, s.vmas i = some v ∧ v.privateData.address = p
  | .mapping r f, p => ∃ rq, s.requests r = some rq ∧ f ∈ rq.created ∧
    (rq.maps f).kind = mappingNative ∧ (rq.maps f).xrpAllocation = p
  | .lost _, _ => False

theorem State.Holds.owns {t : Owner} {p : ULong} (holds : s.Holds t p) : s.Owns t p := by
  cases t with
  | busy =>
    obtain ⟨file, _, a, member, address⟩ := holds
    exact ⟨file, a, member, address⟩
  | vma i => exact holds
  | mapping r f =>
    obtain ⟨rq, given, created, native, rfl⟩ := holds
    exact ⟨rq, given, created, if_pos native⟩
  | lost k => exact holds.elim

/-- No allocation is returned to the pool twice, the count of each that was not returned is at least
the number of its holders, and whatever is held was not returned. -/
def State.NeverEarly (s : State) : Prop :=
  s.arena.returned.Nodup ∧
  (∀ n file p, s.arena.made[n]? = some (file, p) → n ∉ s.arena.returned →
    {t | s.Holds t p}.encard ≤ (s.refs p).toNat) ∧
  ∀ t p, s.Holds t p → ∃ n file, s.arena.made[n]? = some (file, p) ∧ n ∉ s.arena.returned

/-- In every state of every careful run. -/
theorem carefulReach_neverEarly (reach : CarefulReach pmem s) : s.NeverEarly := by
  have accounts := reach.inv.accounts
  refine ⟨accounts.once, ?_, ?_⟩
  · intro n file p _ _
    exact accounts.encard_le fun t holds => holds.owns
  · intro t p holds
    exact accounts.held holds.owns

/-! ### Runs of given events -/

/-- The state after the events. -/
def State.after (pmem : ULong) (s : State) : List Event → State
  | [] => s
  | e :: events => (Event.run pmem s e).after pmem events

/-- Each of the events is as given when it happens. -/
def Along (pmem : ULong) (given : State → Event → Prop) (s : State) : List Event → Prop
  | [] => True
  | e :: events => given s e ∧ Along pmem given (Event.run pmem s e) events

theorem Run.after {given : State → Event → Prop} (run : Run pmem given s) (events : List Event)
    (along : Along pmem given s events) : Run pmem given (s.after pmem events) := by
  induction events generalizing s with
  | nil => exact run
  | cons e events ih => exact ih (run.tail ⟨e, along.1, rfl⟩) along.2

/-- A page of device memory. -/
def onePage : PhysBlock := ⟨⟨0x10000000, 0x1000⟩, page_below⟩

/-- The page is allocated at `0x1000` through file 0, and mapped. -/
def mapPage : List Event :=
  [.alloc 0 0x1000 onePage, .mmap 0 0 0 ⟨0x400000, 0x401000, 0⟩ (.ok ())]

/-- There is nothing at the address, and no memory. -/
def nowhere : ShareEnv := ⟨.bad, ⟨none, false⟩, ⟨.error .enomem, 0, false⟩⟩

/-- An environment in which nothing is found and nothing can be copied. -/
def emptyEnv : MapEnv where
  nsidFault := false
  memory := true
  inDataFault := true
  inData := nowhere
  outData := nowhere
  buffers _ := ⟨none, nowhere⟩
  dspBuffer := 0
  table := ⟨false, ⟨.error .enomem, 0, false⟩⟩

/-- The input data is in the page. -/
def pageEnv : MapEnv :=
  { emptyEnv with inData := { nowhere with region := .single (some 0x1000) none } }

/-- A request with input data in the page, which is then unmapped. -/
def pageInFlight : List Event :=
  mapPage ++ [Event.submit 0 0 0 ⟨0, 32, 0, 0, 0x400000, 0⟩ fun _ => .zero, Event.share 0 pageEnv,
    Event.unmap 0]

theorem carefulReach_neverEarly_inFlight :
    (State.init.after 0x10000000 pageInFlight).refs 0x1000 = 1 ∧
      (State.init.after 0x10000000 pageInFlight).NeverEarly := by
  have run : CarefulReach 0x10000000 (State.init.after 0x10000000 pageInFlight) := by
    refine Run.after .refl pageInFlight ?_
    refine ⟨⟨⟨rfl, le_rfl⟩, trivial⟩, ⟨⟨rfl, rfl⟩, trivial⟩, ⟨⟨rfl, rfl⟩, trivial⟩, ⟨?_, trivial⟩,
      ⟨trivial, trivial⟩, trivial⟩
    rintro _ _ _ ⟨⟩ ⟨⟩
    refine ⟨?_, nofun⟩
    rintro _ ⟨⟩
    exact ⟨0, _, rfl, rfl, rfl⟩
  exact ⟨rfl, carefulReach_neverEarly run⟩

/-- The input data of a request cannot be copied, and its output data, which it did not get to,
looks like a native mapping of the page. -/
def pageLeftover : List Event :=
  [.alloc 0 0x1000 onePage,
    .submit 0 0 0 ⟨0, 4, 32, 0, 0, 0⟩ fun _ => XrpMapping.setXrpAllocation
      ⟨mappingNative, ⟨0, 0, 0, 0, 0⟩⟩ 0x1000,
    .share 0 emptyEnv, .unshare 0]

/-- The page is returned to the pool while it is on the `busy_list`. -/
theorem reach_leftover :
    ∃ s, Reach 0x10000000 s ∧ s.Holds .busy 0x1000 ∧ s.arena.made = [(0, 0x1000)] ∧
      s.arena.returned = [0] ∧ ¬ s.NeverEarly := by
  have run : Reach 0x10000000 (State.init.after 0x10000000 pageLeftover) := by
    refine Run.after .refl pageLeftover ?_
    refine ⟨⟨rfl, le_rfl⟩, ⟨rfl, rfl⟩, ?_, trivial, trivial⟩
    rintro _ _ _ ⟨⟩ ⟨⟩
    exact ⟨nofun, nofun⟩
  have holds : (State.init.after 0x10000000 pageLeftover).Holds .busy 0x1000 :=
    ⟨0, rfl, _, List.mem_cons_self, rfl⟩
  refine ⟨_, run, holds, rfl, rfl, ?_⟩
  rintro ⟨_, _, held⟩
  obtain ⟨n, file, made, absent⟩ := held _ _ holds
  cases n with
  | zero => exact absent List.mem_cons_self
  | succ n => cases made

end Runs

end Xrp.Kernel.Holders
