import Xrp.Base.Heap
import Xrp.Sim.Api

/-!
# Runs of the simulation library

The invariant of runs in which clients use only what they have references to, enqueue every command
with a place for its event and do not replace a record of a group that a queued command uses:
counts of references are right, and every allocation has one owner. Here it is shown for the calls
on buffers and buffer groups.
-/

namespace Xrp.Sim.Api

open Dsp

/-! ## Runs -/

/-- The pool, with its allocations numbered; `allocated` tells which calls succeed. -/
def heapAllocator (allocated : ℕ → Bool) : Allocator Heap ℕ where
  allocate call _ h := if allocated call then (some h.next, h.alloc) else (none, h)
  free a h := h.free a

/-- The library before any call. -/
def State.init : State Heap ℕ where
  pool := .empty
  buffers _ := ⟨.host, 0, 0, .empty⟩
  groups _ := ⟨.empty, false, []⟩
  events _ := ⟨.empty, .success⟩
  deviceRefs := 1
  queue := []
  issued := 0
  writeBacks := []

/-- The calls of clients, and `xrp_queue_process` of the device thread. -/
inductive Call : Type
  | createBuffer (b k : ℕ) (device : Bool) (size : ULong) (allocated : ℕ → Bool)
  | createGroup (g k : ℕ)
  | retainBuffer (b k : ℕ)
  | retainGroup (g k : ℕ)
  | addBuffer (resized : Bool) (g b : ℕ) (accessFlags : U32)
  | setBuffer (g i b : ℕ) (accessFlags : U32)
  | releaseBuffer (b k : ℕ)
  | releaseGroup (g k : ℕ)
  | retainEvent (n k : ℕ)
  | releaseEvent (n k : ℕ)
  | enqueue (args : Args) (allocated : ℕ → Bool) (eventAllocated : Bool) (stale : Option ℕ)
  | process (returned : ℕ → U32) (response : U32)

/-- What a call does, as one step. Calls that only free take no notice of which allocations
succeed. -/
def Call.run : Call → State Heap ℕ → Option (State Heap ℕ)
  | createBuffer b k device size allocated, s =>
    xrpCreateBuffer (heapAllocator allocated) b k device size s
  | createGroup g k, s => xrpCreateBufferGroup g k s
  | retainBuffer b k, s => some (xrpRetainBuffer (.handle k) b s)
  | retainGroup g k, s => some (xrpRetainBufferGroup (.handle k) g s)
  | addBuffer resized g b accessFlags, s => xrpAddBufferToGroup resized g b accessFlags s
  | setBuffer g i b accessFlags, s =>
    xrpSetBufferInGroup (heapAllocator fun _ => true) g i b accessFlags s
  | releaseBuffer b k, s => some (xrpReleaseBuffer (heapAllocator fun _ => true) (.handle k) b s)
  | releaseGroup g k, s => xrpReleaseBufferGroup (heapAllocator fun _ => true) (.handle k) g s
  | retainEvent n k, s => some (xrpRetainEvent (.handle k) n s)
  | releaseEvent n k, s => some (xrpReleaseEvent (.handle k) n s)
  | enqueue args allocated eventAllocated stale, s =>
    (xrpEnqueueCommand (heapAllocator allocated) eventAllocated stale args s).map Prod.snd
  | process returned response, s =>
    xrpQueueProcess (heapAllocator fun _ => true) returned response s

/-- A client has a reference to the buffer. -/
def State.HoldsBuffer (s : State Heap ℕ) (b : ℕ) : Prop :=
  ∃ k, .handle k ∈ (s.buffers b).refs.holders

/-- A client has a reference to the group. -/
def State.HoldsGroup (s : State Heap ℕ) (g : ℕ) : Prop :=
  ∃ k, .handle k ∈ (s.groups g).refs.holders

/-- A client has a reference to the event. -/
def State.HoldsEvent (s : State Heap ℕ) (n : ℕ) : Prop :=
  ∃ k, .handle k ∈ (s.events n).refs.holders

/-- Clients use only what they have references to, give back only references that they have,
enqueue every command with a place for its event, and do not replace a record of a group that a
queued command uses. -/
def Careful (s : State Heap ℕ) : Call → Prop
  | .createBuffer .. => True
  | .createGroup .. => True
  | .retainBuffer b k => s.HoldsBuffer b ∧ .handle k ∉ (s.buffers b).refs.holders
  | .retainGroup g k => s.HoldsGroup g ∧ .handle k ∉ (s.groups g).refs.holders
  | .addBuffer _ g b _ => s.HoldsGroup g ∧ s.HoldsBuffer b
  | .setBuffer g i b _ => s.HoldsGroup g ∧ s.HoldsBuffer b ∧
    ∀ rq ∈ s.queue, rq.group = some g → rq.records.length ≤ i
  | .releaseBuffer b k => .handle k ∈ (s.buffers b).refs.holders
  | .releaseGroup g k => .handle k ∈ (s.groups g).refs.holders
  | .retainEvent n k => s.HoldsEvent n ∧ .handle k ∉ (s.events n).refs.holders
  | .releaseEvent n k => .handle k ∈ (s.events n).refs.holders
  | .enqueue args _ _ _ => args.event = true ∧ ∀ g ∈ args.group, s.HoldsGroup g
  | .process _ _ => True

/-- All runs. -/
def Reach (s : State Heap ℕ) : Prop :=
  Relation.ReflTransGen (fun s s' => ∃ c : Call, c.run s = some s') State.init s

/-- The runs in which every call is careful. -/
def CarefulReach (s : State Heap ℕ) : Prop :=
  Relation.ReflTransGen (fun s s' => ∃ c : Call, Careful s c ∧ c.run s = some s') State.init s

/-! ## The invariant -/

/-- Who owns an allocation: a buffer, or a request for one of its own. -/
inductive Owner : Type
  | buffer (b : ℕ)
  | request (n i : ℕ)

/-- The allocations of owners. -/
def State.Owns (s : State Heap ℕ) : Owner → ℕ → Prop
  | .buffer b, a => (s.buffers b).refs.holders.Nonempty ∧ (s.buffers b).place = .device a
  | .request n i, a => ∃ rq ∈ s.queue, rq.number = n ∧ rq.allocations[i]? = some a

/-- The part of the invariant about buffers and the pool. -/
structure BuffersOk (s : State Heap ℕ) : Prop where
  exact : ∀ b, (s.buffers b).refs.Exact
  owned : s.pool.Owned s.Owns

/-- The references of a group's records are those of its records. -/
def SlotsOk (s : State Heap ℕ) : Prop :=
  ∀ g i b, .slot g i ∈ (s.buffers b).refs.holders ↔
    (s.groups g).refs.holders.Nonempty ∧ ∃ r, (s.groups g).records[i]? = some r ∧ r.buffer = b

/-- What is known of a queued request. -/
structure RequestOk (s : State Heap ℕ) (rq : Request ℕ) : Prop where
  number : rq.number < s.issued
  retained : ∀ g ∈ rq.group, .request rq.number ∈ (s.groups g).refs.holders
  records : rq.records <+: s.records rq.group
  filled : FilledBy s.buffers rq.records rq.userBufferAllocation rq.bufferPtr

/-- The invariant of careful runs. -/
structure Inv (s : State Heap ℕ) : Prop where
  buffers : BuffersOk s
  groups : ∀ g, (s.groups g).refs.Exact
  slots : SlotsOk s
  idle : ∀ b, .call ∉ (s.buffers b).refs.holders
  issued : ∀ g n, .request n ∈ (s.groups g).refs.holders → n < s.issued
  numbers : (s.queue.map (·.number)).Nodup
  requests : ∀ rq ∈ s.queue, RequestOk s rq

/-! ## Buffers -/

section Buffers

variable {s : State Heap ℕ} {ok : ℕ → Bool} {t u : BufferRef} {b b' : ℕ}

theorem mem_holders_retain :
    u ∈ ((xrpRetainBuffer t b s).buffers b').refs.holders ↔
      u ∈ (s.buffers b').refs.holders ∨ b' = b ∧ u = t := by
  by_cases same : b' = b
  · subst same
    simp [xrpRetainBuffer, Refcounted.retain, or_comm]
  · simp [xrpRetainBuffer, same]

theorem mem_holders_release :
    u ∈ ((xrpReleaseBuffer (heapAllocator ok) t b s).buffers b').refs.holders ↔
      u ∈ (s.buffers b').refs.holders ∧ ¬ (b' = b ∧ u = t) := by
  by_cases same : b' = b
  · subst same
    simp [xrpReleaseBuffer, Refcounted.release, and_comm]
  · simp [xrpReleaseBuffer, same]

theorem place_retain : ((xrpRetainBuffer t b s).buffers b').place = (s.buffers b').place := by
  by_cases same : b' = b
  · subst same
    simp [xrpRetainBuffer]
  · simp [xrpRetainBuffer, same]

theorem place_release :
    ((xrpReleaseBuffer (heapAllocator ok) t b s).buffers b').place = (s.buffers b').place := by
  by_cases same : b' = b
  · subst same
    simp [xrpReleaseBuffer]
  · simp [xrpReleaseBuffer, same]

/-- A further reference to a buffer that has one. -/
theorem BuffersOk.retain (bufs : BuffersOk s) (alive : (s.buffers b).refs.holders.Nonempty)
    (fresh : t ∉ (s.buffers b).refs.holders) : BuffersOk (xrpRetainBuffer t b s) where
  exact b' := by
    by_cases same : b' = b
    · subst same
      simpa [xrpRetainBuffer] using (bufs.exact b').retain fresh
    · simpa [xrpRetainBuffer, same] using bufs.exact b'
  owned := by
    refine bufs.owned.mono ?_
    intro o a own
    cases o with
    | buffer b' =>
      obtain ⟨⟨u, holds⟩, place⟩ := own
      rw [place_retain] at place
      rcases mem_holders_retain.mp holds with old | ⟨rfl, _⟩
      · exact ⟨⟨u, old⟩, place⟩
      · exact ⟨alive, place⟩
    | request n i => exact own

/-- A reference less; with the last one the allocation of the buffer is freed. -/
theorem BuffersOk.release (bufs : BuffersOk s) (holds : t ∈ (s.buffers b).refs.holders) :
    BuffersOk (xrpReleaseBuffer (heapAllocator ok) t b s) where
  exact b' := by
    by_cases same : b' = b
    · subst same
      simpa [xrpReleaseBuffer] using (bufs.exact b').release holds
    · simpa [xrpReleaseBuffer, same] using bufs.exact b'
  owned := by
    have fewer (o : Owner) (a : ℕ)
        (own : (xrpReleaseBuffer (heapAllocator ok) t b s).Owns o a) : s.Owns o a := by
      cases o with
      | buffer b' =>
        obtain ⟨⟨u, holds'⟩, place⟩ := own
        rw [place_release] at place
        exact ⟨⟨u, (mem_holders_release.mp holds').1⟩, place⟩
      | request n i => exact own
    by_cases last : (s.buffers b).refs.count = 1
    · have alone := (bufs.exact b).holders_eq holds last
      cases place : (s.buffers b).place with
      | host =>
        have pool : (xrpReleaseBuffer (heapAllocator ok) t b s).pool = s.pool := by
          simp [xrpReleaseBuffer, place]
        rw [pool]
        exact bufs.owned.mono fewer
      | device a =>
        have pool : (xrpReleaseBuffer (heapAllocator ok) t b s).pool = s.pool.free (some a) := by
          simp [xrpReleaseBuffer, place, last, heapAllocator]
        have own : s.Owns (.buffer b) a := ⟨⟨t, holds⟩, place⟩
        rw [pool]
        refine bufs.owned.free (bufs.owned.live own) ?_
        intro o a' own'
        refine ⟨fewer o a' own', ?_⟩
        rintro rfl
        -- the buffer was the owner, and has no reference any more
        obtain rfl := bufs.owned.unique (fewer o a' own') own
        obtain ⟨u, holds'⟩ := own'.1
        obtain ⟨member, other⟩ := mem_holders_release.mp holds'
        rw [alone, Finset.mem_singleton] at member
        exact other ⟨rfl, member⟩
    · have pool : (xrpReleaseBuffer (heapAllocator ok) t b s).pool = s.pool := by
        simp [xrpReleaseBuffer, last]
      rw [pool]
      exact bufs.owned.mono fewer

end Buffers

/-! ## Requests -/

section Requests

variable {s s' : State Heap ℕ} {rq : Request ℕ}

theorem FilledBy.congr {buffers buffers' : ℕ → Buffer ℕ} {records : List Record}
    {shadows : List (Option ℕ)} {ds : List (DspBuffer ℕ)}
    (filled : FilledBy buffers records shadows ds)
    (places : ∀ r ∈ records, (buffers' r.buffer).place = (buffers r.buffer).place) :
    FilledBy buffers' records shadows ds := by
  induction filled with
  | nil => exact .nil
  | device place addr _ ih =>
    exact .device ((places _ List.mem_cons_self).trans place) addr
      (ih fun r member => places r (List.mem_cons_of_mem _ member))
  | host place addr _ ih =>
    exact .host ((places _ List.mem_cons_self).trans place) addr
      (ih fun r member => places r (List.mem_cons_of_mem _ member))

/-- The buffers of a queued command have references. -/
theorem Inv.referenced (inv : Inv s) (queued : rq ∈ s.queue) {r : Record}
    (member : r ∈ rq.records) : (s.buffers r.buffer).refs.holders.Nonempty := by
  have request := inv.requests rq queued
  have current := request.records.subset member
  cases group : rq.group with
  | none =>
    rw [group] at current
    cases current
  | some g =>
    rw [group] at current
    obtain ⟨i, found⟩ := List.mem_iff_getElem?.mp current
    exact ⟨.slot g i,
      (inv.slots g i r.buffer).mpr ⟨⟨_, request.retained g group⟩, r, found, rfl⟩⟩

/-- Groups and the queue are as before, and so are the references of records. -/
theorem Inv.of_buffers (inv : Inv s) (bufs : BuffersOk s') (groups : s'.groups = s.groups)
    (queue : s'.queue = s.queue) (issued : s.issued ≤ s'.issued)
    (places : ∀ b, (s'.buffers b).place = (s.buffers b).place)
    (slots : ∀ g i b, .slot g i ∈ (s'.buffers b).refs.holders ↔
      .slot g i ∈ (s.buffers b).refs.holders)
    (idle : ∀ b, .call ∉ (s'.buffers b).refs.holders) : Inv s' where
  buffers := bufs
  groups g := by
    rw [groups]
    exact inv.groups g
  slots g i b := by
    rw [slots, groups]
    exact inv.slots g i b
  idle := idle
  issued g n holds := by
    rw [groups] at holds
    exact (inv.issued g n holds).trans_le issued
  numbers := by
    rw [queue]
    exact inv.numbers
  requests rq queued := by
    rw [queue] at queued
    have request := inv.requests rq queued
    have current : s'.records rq.group = s.records rq.group := by
      cases rq.group with
      | none => rfl
      | some g => exact congrArg (fun groups => (groups g).records) groups
    exact
      { number := request.number.trans_le issued
        retained := fun g given => groups.symm ▸ request.retained g given
        records := current.symm ▸ request.records
        filled := request.filled.congr fun r _ => places r.buffer }

/-- The pool grows, and nothing else changes. -/
theorem Inv.of_grows (inv : Inv s) {as : List ℕ} {pool : Heap} (grows : s.pool.Grows as pool) :
    Inv { s with pool := pool } :=
  inv.of_buffers ⟨inv.buffers.exact, inv.buffers.owned.leak grows⟩ rfl rfl le_rfl (fun _ => rfl)
    (fun _ _ _ => Iff.rfl) inv.idle

end Requests

/-! ## Calls of clients -/

section Clients

variable {s s' : State Heap ℕ} {ok : ℕ → Bool} {g i b k : ℕ}

theorem inv_init : Inv .init where
  buffers :=
    { exact := fun _ => Refcounted.exact_empty
      owned :=
        { live := by
            intro o a own
            cases o with
            | buffer b => exact absurd own.1 Finset.not_nonempty_empty
            | request n i => simp [State.Owns, State.init] at own
          unique := by
            intro o o' a own
            cases o with
            | buffer b => exact absurd own.1 Finset.not_nonempty_empty
            | request n i => simp [State.Owns, State.init] at own
          below := fun a member => absurd member (Finset.notMem_empty a)
          unfreed := fun a member => absurd member List.not_mem_nil } }
  groups _ := Refcounted.exact_empty
  slots g i b := by simp [State.init, Refcounted.empty]
  idle b := Finset.notMem_empty _
  issued g n holds := absurd holds (Finset.notMem_empty _)
  numbers := List.nodup_nil
  requests rq queued := absurd queued List.not_mem_nil

theorem Inv.retainBuffer (inv : Inv s) (alive : (s.buffers b).refs.holders.Nonempty)
    (fresh : .handle k ∉ (s.buffers b).refs.holders) : Inv (xrpRetainBuffer (.handle k) b s) := by
  refine inv.of_buffers (inv.buffers.retain alive fresh) rfl rfl le_rfl
    (fun _ => place_retain) ?_ ?_
  · intro g i b'
    simp [mem_holders_retain]
  · intro b'
    simp [mem_holders_retain, inv.idle b']

theorem Inv.releaseBuffer (inv : Inv s) (holds : .handle k ∈ (s.buffers b).refs.holders) :
    Inv (xrpReleaseBuffer (heapAllocator ok) (.handle k) b s) := by
  refine inv.of_buffers (inv.buffers.release holds) rfl rfl le_rfl (fun _ => place_release) ?_ ?_
  · intro g i b'
    simp [mem_holders_release]
  · intro b'
    simp [mem_holders_release, inv.idle b']

theorem heapAllocator_grows {call : ℕ} {size : U32} {h h' : Heap} {a : Option ℕ}
    (made : (heapAllocator ok).allocate call size h = (a, h')) : h.Grows a.toList h' := by
  unfold heapAllocator at made
  dsimp only at made
  split_ifs at made
  · cases made
    exact .alloc h
  · cases made
    exact .refl h

theorem Allocates.grows {h h' : Heap} {as : List ℕ}
    (allocates : Allocates (heapAllocator ok) h as h') : h.Grows as h' := by
  induction allocates with
  | refl => exact .refl h
  | call call size _ ih => exact ih.trans (heapAllocator_grows Prod.mk.eta.symm)

/-- A new buffer, with the allocation that was made for it. -/
theorem Inv.newBuffer (inv : Inv s) (unused : (s.buffers b).refs.count = 0) {pool : Heap}
    {a : Option ℕ} {place : Place ℕ} {size : ULong} (grows : s.pool.Grows a.toList pool)
    (own : ∀ a', place = .device a' → a = some a') :
    Inv { s with
      pool := pool
      buffers := Function.update s.buffers b ⟨place, size, 0, .alloc (.handle k)⟩ } := by
  have none : (s.buffers b).refs.holders = ∅ :=
    (inv.buffers.exact b).holders_eq_empty.mpr unused
  have origin (o : Owner) (a' : ℕ) (owns : State.Owns { s with
      pool := pool
      buffers := Function.update s.buffers b ⟨place, size, 0, .alloc (.handle k)⟩ } o a') :
      s.Owns o a' ∨ o = .buffer b ∧ a' ∈ a.toList := by
    cases o with
    | buffer b' =>
      by_cases same : b' = b
      · subst same
        have device : place = .device a' := by simpa using owns.2
        rw [own a' device]
        exact .inr ⟨rfl, List.mem_singleton_self a'⟩
      · left
        simpa [State.Owns, same] using owns
    | request n i => exact .inl owns
  refine ⟨⟨?_, inv.buffers.owned.grow grows ?_ ?_⟩, inv.groups, ?_, ?_, inv.issued, inv.numbers, ?_⟩
  · intro b'
    by_cases same : b' = b
    · simpa [same] using Refcounted.exact_alloc _
    · simpa [same] using inv.buffers.exact b'
  · intro o a' owns
    exact (origin o a' owns).imp_right And.right
  · intro o o' a' fresh owns owns'
    have new (o : Owner) (owns : s.Owns o a') : False :=
      absurd (inv.buffers.owned.below a' (inv.buffers.owned.live owns))
        (not_lt.mpr (grows.fresh a' fresh).1)
    rcases origin o a' owns with old | ⟨rfl, _⟩
    · exact (new o old).elim
    · rcases origin o' a' owns' with old | ⟨rfl, _⟩
      · exact (new o' old).elim
      · rfl
  · intro g i b'
    by_cases same : b' = b
    · have before := inv.slots g i b
      rw [none] at before
      subst same
      simpa [Refcounted.alloc] using before
    · simpa [same] using inv.slots g i b'
  · intro b'
    by_cases same : b' = b
    · simp [same, Refcounted.alloc]
    · simpa [same] using inv.idle b'
  · intro rq queued
    have request := inv.requests rq queued
    refine ⟨request.number, request.retained, request.records, request.filled.congr ?_⟩
    intro r member
    have other : r.buffer ≠ b := by
      intro same
      have alive := inv.referenced queued member
      rw [same, none] at alive
      exact Finset.not_nonempty_empty alive
    exact congrArg Buffer.place (Function.update_of_ne other _ _)

theorem Inv.createBuffer (inv : Inv s) {device : Bool} {size : ULong}
    (result : xrpCreateBuffer (heapAllocator ok) b k device size s = some s') : Inv s' := by
  unfold xrpCreateBuffer at result
  split_ifs at result with used kind
  · have unused : (s.buffers b).refs.count = 0 := not_not.mp used
    split at result
    · next made =>
      cases result
      exact inv.of_grows (heapAllocator_grows made)
    · next made =>
      cases result
      refine inv.newBuffer unused (heapAllocator_grows made) ?_
      intro a' same
      cases same
      rfl
  · cases result
    have nothing : s.pool.Grows (none : Option ℕ).toList s.pool := .refl s.pool
    exact inv.newBuffer (not_not.mp used) nothing nofun

/-- Other references to a group, as long as it has one before if and only if it has one after, and
requests keep theirs. -/
theorem Inv.of_groupRefs (inv : Inv s) {refs : Refcounted GroupRef} {locked : Bool} {issued : ℕ}
    (exact : refs.Exact)
    (alive : refs.holders.Nonempty ↔ (s.groups g).refs.holders.Nonempty)
    (kept : ∀ rq ∈ s.queue, rq.group = some g → .request rq.number ∈ refs.holders)
    (below : ∀ n, .request n ∈ refs.holders → n < issued) (le : s.issued ≤ issued) :
    Inv { s with
      issued := issued
      groups := Function.update s.groups g
        { s.groups g with refs := refs, locked := locked } } := by
  refine ⟨⟨inv.buffers.exact, inv.buffers.owned⟩, ?_, ?_, inv.idle, ?_, inv.numbers, ?_⟩
  · intro g'
    by_cases same : g' = g
    · simpa [same] using exact
    · simpa [same] using inv.groups g'
  · intro g' i b
    by_cases same : g' = g
    · subst same
      simpa [alive] using inv.slots g' i b
    · simpa [same] using inv.slots g' i b
  · intro g' n holds
    by_cases same : g' = g
    · subst same
      exact below n (by simpa using holds)
    · exact (inv.issued g' n (by simpa [same] using holds)).trans_le le
  · intro rq queued
    have request := inv.requests rq queued
    refine ⟨request.number.trans_le le, ?_, ?_, request.filled⟩
    · intro g' given
      by_cases same : g' = g
      · subst same
        simpa using kept rq queued given
      · simpa [same] using request.retained g' given
    · have current : State.records { s with
          issued := issued
          groups := Function.update s.groups g
            { s.groups g with refs := refs, locked := locked } } rq.group =
          s.records rq.group := by
        cases rq.group with
        | none => rfl
        | some g' =>
          by_cases same : g' = g
          · subst same
            simp [State.records]
          · simp [State.records, same]
      rw [current]
      exact request.records

theorem Inv.retainGroup (inv : Inv s) (alive : (s.groups g).refs.holders.Nonempty)
    (fresh : .handle k ∉ (s.groups g).refs.holders) :
    Inv (xrpRetainBufferGroup (.handle k) g s) := by
  refine inv.of_groupRefs ((inv.groups g).retain fresh) ?_ ?_ ?_ le_rfl
  · exact iff_of_true (Finset.insert_nonempty _ _) alive
  · intro rq queued given
    exact Finset.mem_insert_of_mem ((inv.requests rq queued).retained g given)
  · intro n holds
    rcases Finset.mem_insert.mp holds with impossible | old
    · cases impossible
    · exact inv.issued g n old

theorem Inv.createGroup (inv : Inv s) (result : xrpCreateBufferGroup g k s = some s') : Inv s' := by
  unfold xrpCreateBufferGroup at result
  split_ifs at result with used
  cases result
  have none : (s.groups g).refs.holders = ∅ := (inv.groups g).holders_eq_empty.mpr (not_not.mp used)
  refine ⟨⟨inv.buffers.exact, inv.buffers.owned⟩, ?_, ?_, inv.idle, ?_, inv.numbers, ?_⟩
  · intro g'
    by_cases same : g' = g
    · simpa [same] using Refcounted.exact_alloc _
    · simpa [same] using inv.groups g'
  · intro g' i b
    by_cases same : g' = g
    · have before := inv.slots g i b
      rw [none] at before
      subst same
      simpa using before
    · simpa [same] using inv.slots g' i b
  · intro g' n holds
    by_cases same : g' = g
    · simp [same, Refcounted.alloc] at holds
    · exact inv.issued g' n (by simpa [same] using holds)
  · intro rq queued
    have request := inv.requests rq queued
    have other (g' : ℕ) (given : g' ∈ rq.group) : g' ≠ g := by
      rintro rfl
      have holds := request.retained g' given
      rw [none] at holds
      exact Finset.notMem_empty _ holds
    refine ⟨request.number, ?_, ?_, request.filled⟩
    · intro g' given
      simpa [other g' given] using request.retained g' given
    · cases group : rq.group with
      | none => simpa [State.records, group] using request.records
      | some g' => simpa [State.records, group, other g' group] using request.records

/-- The records of a group change together with the references to buffers. -/
theorem Inv.of_records (inv : Inv s) {records : List Record} {s' : State Heap ℕ}
    (alive : (s.groups g).refs.holders.Nonempty) (bufs : BuffersOk s')
    (groups : s'.groups = (s.setRecords g records).groups) (queue : s'.queue = s.queue)
    (issued : s'.issued = s.issued)
    (places : ∀ b, (s'.buffers b).place = (s.buffers b).place)
    (slots : ∀ i b, .slot g i ∈ (s'.buffers b).refs.holders ↔
      ∃ r, records[i]? = some r ∧ r.buffer = b)
    (others : ∀ g' i b, g' ≠ g → (.slot g' i ∈ (s'.buffers b).refs.holders ↔
      .slot g' i ∈ (s.buffers b).refs.holders))
    (idle : ∀ b, .call ∉ (s'.buffers b).refs.holders)
    (kept : ∀ rq ∈ s.queue, rq.group = some g → rq.records <+: records) : Inv s' := by
  have refs (g' : ℕ) : (s'.groups g').refs = (s.groups g').refs := by
    rw [groups]
    by_cases same : g' = g
    · subst same
      simp [State.setRecords]
    · simp [State.setRecords, same]
  have current (g' : ℕ) :
      (s'.groups g').records = if g' = g then records else (s.groups g').records := by
    rw [groups]
    by_cases same : g' = g
    · subst same
      simp [State.setRecords]
    · simp [State.setRecords, same]
  refine ⟨bufs, ?_, ?_, idle, ?_, queue.symm ▸ inv.numbers, ?_⟩
  · intro g'
    rw [refs]
    exact inv.groups g'
  · intro g' i b
    rw [refs, current]
    by_cases same : g' = g
    · subst same
      rw [slots, if_pos rfl]
      exact (and_iff_right alive).symm
    · rw [others g' i b same, if_neg same]
      exact inv.slots g' i b
  · intro g' n
    rw [refs, issued]
    exact inv.issued g' n
  · intro rq queued
    rw [queue] at queued
    have request := inv.requests rq queued
    refine ⟨issued.symm ▸ request.number, ?_, ?_, request.filled.congr fun r _ => places r.buffer⟩
    · intro g' given
      rw [refs]
      exact request.retained g' given
    · cases group : rq.group with
      | none => simpa [State.records, group] using request.records
      | some g' =>
        have before := request.records
        rw [group] at before
        rw [State.records, current]
        split_ifs with same
        · exact kept rq queued (by rw [group, same])
        · exact before

theorem Inv.addBuffer (inv : Inv s) (alive : (s.groups g).refs.holders.Nonempty)
    (alive' : (s.buffers b).refs.holders.Nonempty) {resized : Bool} {accessFlags : U32}
    (result : xrpAddBufferToGroup resized g b accessFlags s = some s') : Inv s' := by
  unfold xrpAddBufferToGroup at result
  split_ifs at result with locked
  · cases result
    have fresh : .slot g (s.groups g).records.length ∉ (s.buffers b).refs.holders := by
      intro holds
      obtain ⟨_, r, found, _⟩ := (inv.slots g _ b).mp holds
      rw [List.getElem?_eq_none le_rfl] at found
      cases found
    have bufs := inv.buffers.retain alive' fresh
    refine inv.of_records alive ⟨bufs.exact, bufs.owned⟩ rfl rfl rfl (fun _ => place_retain)
      ?_ ?_ ?_ ?_
    · intro i b'
      have before := inv.slots g i b'
      rw [and_iff_right alive] at before
      refine mem_holders_retain.trans ?_
      rw [before]
      rcases lt_trichotomy i (s.groups g).records.length with lt | rfl | gt
      · rw [List.getElem?_append_left lt]
        exact or_iff_left fun new => lt.ne (BufferRef.slot.inj new.2).2
      · rw [List.getElem?_concat_length, List.getElem?_eq_none le_rfl]
        simp [eq_comm]
      · rw [List.getElem?_eq_none gt.le, List.getElem?_eq_none (by simpa using gt)]
        simp [gt.ne']
    · intro g' i b' other
      refine mem_holders_retain.trans ?_
      simp [other]
    · intro b' holds
      rcases mem_holders_retain.mp holds with old | ⟨_, impossible⟩
      · exact inv.idle b' old
      · cases impossible
    · intro rq queued given
      have request := (inv.requests rq queued).records
      rw [given] at request
      exact request.trans (List.prefix_append _ _)
  · cases result
    exact inv

/-- The reference of the call becomes that of the record. -/
theorem BuffersOk.keep (bufs : BuffersOk s) (holds : .call ∈ (s.buffers b).refs.holders)
    (fresh : .slot g i ∉ (s.buffers b).refs.holders) : BuffersOk (s.keepReference g i b) where
  exact b' := by
    by_cases same : b' = b
    · subst same
      simpa [State.keepReference] using (bufs.exact b').transfer holds fresh
    · simpa [State.keepReference, same] using bufs.exact b'
  owned := by
    refine bufs.owned.mono ?_
    intro o a own
    cases o with
    | buffer b' =>
      by_cases same : b' = b
      · subst same
        exact ⟨⟨_, holds⟩, by simpa [State.keepReference] using own.2⟩
      · simpa [State.Owns, State.keepReference, same] using own
    | request n i => exact own

theorem mem_holders_keep {u : BufferRef} {b' : ℕ} :
    u ∈ ((s.keepReference g i b).buffers b').refs.holders ↔
      if b' = b then u = .slot g i ∨ u ≠ .call ∧ u ∈ (s.buffers b').refs.holders
      else u ∈ (s.buffers b').refs.holders := by
  split_ifs with same
  · subst same
    simp [State.keepReference, Refcounted.transfer]
  · simp [State.keepReference, same]

theorem place_keep {b' : ℕ} :
    ((s.keepReference g i b).buffers b').place = (s.buffers b').place := by
  by_cases same : b' = b
  · subst same
    simp [State.keepReference]
  · simp [State.keepReference, same]

theorem Inv.setBuffer (inv : Inv s) (alive : (s.groups g).refs.holders.Nonempty)
    (alive' : (s.buffers b).refs.holders.Nonempty) {accessFlags : U32}
    (unused : ∀ rq ∈ s.queue, rq.group = some g → rq.records.length ≤ i)
    (result : xrpSetBufferInGroup (heapAllocator ok) g i b accessFlags s = some s') : Inv s' := by
  have retained := inv.buffers.retain alive' (inv.idle b)
  have called : .call ∈ ((xrpRetainBuffer .call b s).buffers b).refs.holders :=
    mem_holders_retain.mpr (.inr ⟨rfl, rfl⟩)
  unfold xrpSetBufferInGroup at result
  split_ifs at result with locked
  dsimp only at result
  split at result
  · next old found =>
    cases result
    have found : (s.groups g).records[i]? = some old := found
    have before := inv.slots g i
    simp only [alive, found, true_and, Option.some.injEq, exists_eq_left'] at before
    let s₂ := (xrpRetainBuffer .call b s).setRecords g ((s.groups g).records.set i ⟨b, accessFlags⟩)
    have bufs₂ : BuffersOk s₂ := ⟨retained.exact, retained.owned⟩
    have held : .slot g i ∈ (s₂.buffers old.buffer).refs.holders :=
      mem_holders_retain.mpr (.inl ((before old.buffer).mpr rfl))
    let s₃ := xrpReleaseBuffer (heapAllocator ok) (.slot g i) old.buffer s₂
    have called₃ : .call ∈ (s₃.buffers b).refs.holders :=
      mem_holders_release.mpr ⟨called, by simp⟩
    have gone (b' : ℕ) : .slot g i ∉ (s₃.buffers b').refs.holders := by
      intro holds
      obtain ⟨member, other⟩ := mem_holders_release.mp holds
      rcases mem_holders_retain.mp member with was | ⟨_, impossible⟩
      · exact other ⟨((before b').mp was).symm, rfl⟩
      · cases impossible
    have bufs : BuffersOk (s₃.keepReference g i b) := (bufs₂.release held).keep called₃ (gone b)
    have untouched (u : BufferRef) (b' : ℕ) (other : u ≠ .slot g i) (notCall : u ≠ .call) :
        u ∈ ((s₃.keepReference g i b).buffers b').refs.holders ↔
          u ∈ (s.buffers b').refs.holders := by
      rw [mem_holders_keep]
      simp [s₃, s₂, other, notCall, mem_holders_release, mem_holders_retain]
    have groups : (s₃.keepReference g i b).groups =
        (s.setRecords g ((s.groups g).records.set i ⟨b, accessFlags⟩)).groups := rfl
    refine inv.of_records alive bufs groups rfl rfl
      (fun _ => place_keep.trans (place_release.trans place_retain)) ?_ ?_ ?_ ?_
    · intro i' b'
      by_cases same : i' = i
      · subst same
        have inside : i' < (s.groups g).records.length := (List.getElem?_eq_some_iff.mp found).1
        refine mem_holders_keep.trans ?_
        rw [List.getElem?_set_self inside]
        split_ifs with here
        · simp [here]
        · exact iff_of_false (gone b') (by simp [Ne.symm here])
      · refine (untouched _ b' (by simp [same]) (by simp)).trans ?_
        rw [List.getElem?_set_ne (Ne.symm same), inv.slots, and_iff_right alive]
    · intro g' i' b' other
      exact untouched _ b' (by simp [other]) (by simp)
    · intro b' holds
      rw [mem_holders_keep] at holds
      split_ifs at holds with here
      · simp at holds
      · obtain ⟨member, _⟩ := mem_holders_release.mp holds
        rcases mem_holders_retain.mp member with was | ⟨impossible, _⟩
        · exact inv.idle b' was
        · exact here impossible
    · intro rq queued given
      have current := (inv.requests rq queued).records
      rw [given] at current
      have short := unused rq queued given
      rw [List.prefix_iff_eq_take] at current ⊢
      rw [List.take_set_of_le short]
      exact current
  · cases result
    refine inv.of_buffers (retained.release called) rfl rfl le_rfl
      (fun _ => place_release.trans place_retain) ?_ ?_
    · intro g' i' b'
      simp [mem_holders_release, mem_holders_retain]
    · intro b' holds
      obtain ⟨member, other⟩ := mem_holders_release.mp holds
      rcases mem_holders_retain.mp member with before | now
      · exact inv.idle b' before
      · exact other now

end Clients

/-! ## Releasing a group -/

section ReleaseGroup

variable {s s' : State Heap ℕ} {ok : ℕ → Bool} {g : ℕ}

/-- What was freed belonged to buffers that have no reference any more. -/
def Dropped (s s' : State Heap ℕ) : Prop :=
  ∃ dropped : List ℕ, s'.pool.freed = s.pool.freed ++ dropped.map some ∧
    ∀ a ∈ dropped, ∃ b, s.Owns (.buffer b) a ∧ (s'.buffers b).refs.holders = ∅

theorem Dropped.refl (s : State Heap ℕ) : Dropped s s := ⟨[], by simp, by simp⟩

theorem Dropped.trans {s'' : State Heap ℕ} (first : Dropped s s') (second : Dropped s' s'')
    (places : ∀ b, (s'.buffers b).place = (s.buffers b).place)
    (fewer : ∀ b, (s'.buffers b).refs.holders ⊆ (s.buffers b).refs.holders)
    (fewer' : ∀ b, (s''.buffers b).refs.holders ⊆ (s'.buffers b).refs.holders) :
    Dropped s s'' := by
  obtain ⟨as, freed, belonged⟩ := first
  obtain ⟨bs, freed', belonged'⟩ := second
  refine ⟨as ++ bs, by rw [freed', freed, List.map_append, List.append_assoc], ?_⟩
  intro a member
  rcases List.mem_append.mp member with left | right
  · obtain ⟨b, owns, empty⟩ := belonged a left
    refine ⟨b, owns, Finset.subset_empty.mp ?_⟩
    rw [← empty]
    exact fewer' b
  · obtain ⟨b, ⟨alive, place⟩, empty⟩ := belonged' a right
    exact ⟨b, ⟨alive.mono (fewer b), (places b).symm.trans place⟩, empty⟩

/-- What the loop over the records of a group does. -/
structure RecordsReleased (g i : ℕ) (records : List Record) (s s' : State Heap ℕ) : Prop where
  bufs : BuffersOk s'
  holders : ∀ t b, t ∈ (s'.buffers b).refs.holders ↔
    t ∈ (s.buffers b).refs.holders ∧
      ¬ ∃ j r, records[j]? = some r ∧ r.buffer = b ∧ t = .slot g (i + j)
  places : ∀ b, (s'.buffers b).place = (s.buffers b).place
  groups : s'.groups = s.groups
  queue : s'.queue = s.queue
  issued : s'.issued = s.issued
  writeBacks : s'.writeBacks = s.writeBacks
  dropped : Dropped s s'

theorem dropped_release {t : BufferRef} {b : ℕ} (bufs : BuffersOk s)
    (holds : t ∈ (s.buffers b).refs.holders) :
    Dropped s (xrpReleaseBuffer (heapAllocator ok) t b s) := by
  by_cases last : (s.buffers b).refs.count = 1
  · cases place : (s.buffers b).place with
    | host => exact ⟨[], by simp [xrpReleaseBuffer, place], by simp⟩
    | device a =>
      refine ⟨[a], by simp [xrpReleaseBuffer, place, last, heapAllocator, Heap.free], ?_⟩
      intro a' member
      obtain rfl := List.mem_singleton.mp member
      refine ⟨b, ⟨⟨t, holds⟩, place⟩, ?_⟩
      have alone := (bufs.exact b).holders_eq holds last
      simp [xrpReleaseBuffer, Refcounted.release, alone]
  · exact ⟨[], by simp [xrpReleaseBuffer, last], by simp⟩

theorem releaseRecords_spec {i : ℕ} {records : List Record} (bufs : BuffersOk s)
    (held : ∀ j r, records[j]? = some r → .slot g (i + j) ∈ (s.buffers r.buffer).refs.holders) :
    RecordsReleased g i records s (releaseRecords (heapAllocator ok) g i records s) := by
  induction records generalizing i s with
  | nil =>
    exact ⟨bufs, by simp [releaseRecords], fun _ => rfl, rfl, rfl, rfl, rfl, .refl s⟩
  | cons r records ih =>
    have first : .slot g i ∈ (s.buffers r.buffer).refs.holders := held 0 r rfl
    have bufs' : BuffersOk (xrpReleaseBuffer (heapAllocator ok) (.slot g i) r.buffer s) :=
      bufs.release first
    have rest := ih (i := i + 1) bufs' fun j r' found => by
      refine mem_holders_release.mpr ⟨?_, ?_⟩
      · have later := held (j + 1) r' found
        rwa [Nat.add_left_comm, Nat.add_comm j] at later
      · rintro ⟨_, same⟩
        have := (BufferRef.slot.inj same).2
        omega
    refine ⟨rest.bufs, ?_, fun b => (rest.places b).trans place_release, rest.groups, rest.queue,
      rest.issued, rest.writeBacks, ?_⟩
    · intro t b
      refine (rest.holders t b).trans ?_
      rw [mem_holders_release, and_assoc, ← not_or]
      refine and_congr_right fun _ => not_congr ⟨?_, ?_⟩
      · rintro (⟨rfl, rfl⟩ | ⟨j, r', found, here, rfl⟩)
        · exact ⟨0, r, rfl, rfl, rfl⟩
        · exact ⟨j + 1, r', found, here, congrArg _ (by omega)⟩
      · rintro ⟨j, r', found, here, rfl⟩
        cases j with
        | zero =>
          obtain rfl : r = r' := Option.some.inj found
          exact .inl ⟨here.symm, rfl⟩
        | succ j => exact .inr ⟨j, r', found, here, congrArg _ (by omega)⟩
    · refine (dropped_release bufs first).trans rest.dropped (fun _ => place_release) ?_ ?_
      · exact fun b t member => (mem_holders_release.mp member).1
      · exact fun b t member => ((rest.holders t b).mp member).1

/-- The last reference to a group is given back. -/
theorem Inv.releaseLast (inv : Inv s) {t : GroupRef} (holds : t ∈ (s.groups g).refs.holders)
    (alone : (s.groups g).refs.holders = {t})
    (other : ∀ rq ∈ s.queue, rq.group = some g → .request rq.number ≠ t)
    (released : RecordsReleased g 0 (s.groups g).records s s') : Inv (s'.dropGroup t g) := by
  have refs (g' : ℕ) : ((s'.dropGroup t g).groups g').refs =
      if g' = g then (s.groups g).refs.release t else (s.groups g').refs := by
    by_cases same : g' = g
    · subst same
      simp [State.dropGroup, released.groups]
    · simp [State.dropGroup, same, released.groups]
  have records (g' : ℕ) : ((s'.dropGroup t g).groups g').records = (s.groups g').records := by
    by_cases same : g' = g
    · subst same
      simp [State.dropGroup, released.groups]
    · simp [State.dropGroup, same, released.groups]
  have empty : ((s.groups g).refs.release t).holders = ∅ := by
    simp [Refcounted.release, alone]
  have unused (rq : Request ℕ) (queued : rq ∈ s.queue) : rq.group ≠ some g := by
    intro given
    have member := (inv.requests rq queued).retained g given
    rw [alone, Finset.mem_singleton] at member
    exact other rq queued given member
  refine ⟨⟨released.bufs.exact, released.bufs.owned⟩, ?_, ?_, ?_, ?_, ?_, ?_⟩
  · intro g'
    rw [refs]
    split_ifs with same
    · exact (inv.groups g).release holds
    · exact inv.groups g'
  · intro g' i b
    refine (released.holders (.slot g' i) b).trans ?_
    rw [refs, records, inv.slots]
    by_cases same : g' = g
    · subst same
      rw [if_pos rfl, empty]
      refine iff_of_false ?_ fun both => Finset.not_nonempty_empty both.1
      rintro ⟨⟨_, r, found, here⟩, absent⟩
      exact absent ⟨i, r, found, here, by rw [Nat.zero_add]⟩
    · rw [if_neg same]
      refine and_iff_left ?_
      rintro ⟨_, _, _, _, slot⟩
      exact same (BufferRef.slot.inj slot).1
  · intro b member
    exact inv.idle b ((released.holders _ b).mp member).1
  · intro g' n member
    rw [refs] at member
    have before : .request n ∈ (s.groups g').refs.holders := by
      split_ifs at member with same
      · subst same
        exact Finset.mem_of_mem_erase member
      · exact member
    exact released.issued.symm ▸ inv.issued g' n before
  · exact released.queue.symm ▸ inv.numbers
  · intro rq member
    have queued : rq ∈ s.queue := released.queue ▸ member
    have request := inv.requests rq queued
    refine ⟨released.issued.symm ▸ request.number, ?_, ?_,
      request.filled.congr fun r _ => released.places r.buffer⟩
    · intro g' given
      have same : g' ≠ g := by
        rintro rfl
        exact unused rq queued given
      rw [refs, if_neg same]
      exact request.retained g' given
    · have current : (s'.dropGroup t g).records rq.group = s.records rq.group := by
        cases rq.group with
        | none => rfl
        | some g' => exact records g'
      rw [current]
      exact request.records

/-- A group that is released by somebody other than a queued request. -/
theorem Inv.releaseGroup (inv : Inv s) {t : GroupRef} (holds : t ∈ (s.groups g).refs.holders)
    (other : ∀ rq ∈ s.queue, rq.group = some g → .request rq.number ≠ t)
    (result : xrpReleaseBufferGroup (heapAllocator ok) t g s = some s') :
    Inv s' ∧ s'.queue = s.queue ∧ s'.writeBacks = s.writeBacks ∧ Dropped s s' := by
  unfold xrpReleaseBufferGroup at result
  split_ifs at result with last locked
  · cases result
    have alone := (inv.groups g).holders_eq holds last
    have released : RecordsReleased g 0 (s.groups g).records s
        (releaseRecords (heapAllocator ok) g 0 (s.groups g).records s) := by
      refine releaseRecords_spec inv.buffers fun j r found => ?_
      rw [Nat.zero_add]
      exact (inv.slots g j r.buffer).mpr ⟨⟨t, holds⟩, r, found, rfl⟩
    exact ⟨inv.releaseLast holds alone other released, released.queue, released.writeBacks,
      released.dropped⟩
  · cases result
    refine ⟨?_, rfl, rfl, .refl s⟩
    refine inv.of_groupRefs ((inv.groups g).release holds) ?_ ?_ ?_ le_rfl
    · exact iff_of_true ((inv.groups g).release_nonempty holds last) ⟨t, holds⟩
    · intro rq queued given
      exact Finset.mem_erase.mpr
        ⟨other rq queued given, (inv.requests rq queued).retained g given⟩
    · intro n member
      exact inv.issued g n (Finset.mem_of_mem_erase member)

end ReleaseGroup

end Xrp.Sim.Api
