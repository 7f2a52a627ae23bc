import Xrp.Sim.Lifetime

/-!
# The buffers of a queued command

A request keeps the number of its buffers and the shadows that were made for them, and a reference
to the buffer group. When it completes, the group is read again. So what a command works on stays
as it was only if clients do not replace a record of the group meanwhile. The event that is
signalled and released then is that of the command only if it was enqueued with one: otherwise the
member of the request is not written.
-/

namespace Xrp.Sim.Api

open Dsp

/-! ## Enqueueing -/

section Enqueueing

variable {s s' : State Heap ℕ} {ok : ℕ → Bool} {group : Option ℕ}

theorem retainForRequest_holds {g : ℕ} (given : g ∈ group) :
    .request s.issued ∈ ((s.retainForRequest group).groups g).refs.holders := by
  cases given
  simp [State.retainForRequest, Refcounted.retain]

theorem Inv.retainForRequest (inv : Inv s)
    (alive : ∀ g ∈ group, (s.groups g).refs.holders.Nonempty) : Inv (s.retainForRequest group) := by
  cases group with
  | none =>
    exact inv.of_buffers ⟨inv.buffers.exact, inv.buffers.owned⟩ rfl rfl (Nat.le_succ _)
      (fun _ => rfl) (fun _ _ _ => Iff.rfl) inv.idle
  | some g =>
    have fresh : .request s.issued ∉ (s.groups g).refs.holders := fun holds =>
      lt_irrefl _ (inv.issued g s.issued holds)
    refine inv.of_groupRefs ((inv.groups g).retain fresh) ?_ ?_ ?_ (Nat.le_succ _)
    · exact iff_of_true (Finset.insert_nonempty _ _) (alive g rfl)
    · intro rq queued given
      exact Finset.mem_insert_of_mem ((inv.requests rq queued).retained g given)
    · intro n holds
      rcases Finset.mem_insert.mp holds with new | old
      · cases new
        exact Nat.lt_succ_self _
      · exact (inv.issued g n old).trans (Nat.lt_succ_self _)

theorem Inv.lock (inv : Inv s) : Inv (s.lock group) := by
  cases group with
  | none => exact inv
  | some g =>
    exact inv.of_groupRefs (inv.groups g) Iff.rfl
      (fun rq queued given => (inv.requests rq queued).retained g given) (inv.issued g) le_rfl

/-- A request with allocations of its own is appended. -/
theorem Inv.append (inv : Inv s) {rq : Request ℕ} {pool : Heap} {events : ℕ → Event}
    {deviceRefs : ℕ} (grows : s.pool.Grows rq.allocations pool) (request : RequestOk s rq)
    (fresh : ∀ rq' ∈ s.queue, rq'.number < rq.number) :
    Inv { s with
      pool := pool, events := events, deviceRefs := deviceRefs, queue := s.queue ++ [rq] } := by
  have origin (o : Owner) (a : ℕ) (owns : State.Owns { s with
      pool := pool, events := events, deviceRefs := deviceRefs, queue := s.queue ++ [rq] } o a) :
      s.Owns o a ∨ ∃ i, o = .request rq.number i ∧ rq.allocations[i]? = some a := by
    cases o with
    | buffer b => exact .inl owns
    | request n i =>
      obtain ⟨rq', queued, rfl, found⟩ := owns
      rcases List.mem_append.mp queued with before | new
      · exact .inl ⟨rq', before, rfl, found⟩
      · obtain rfl := List.mem_singleton.mp new
        exact .inr ⟨i, rfl, found⟩
  refine ⟨⟨inv.buffers.exact, inv.buffers.owned.grow grows ?_ ?_⟩, inv.groups, inv.slots, inv.idle,
    inv.issued, ?_, ?_⟩
  · intro o a owns
    refine (origin o a owns).imp_right ?_
    rintro ⟨i, _, found⟩
    exact List.mem_of_getElem? found
  · intro o o' a member owns owns'
    have new (o : Owner) (owns : s.Owns o a) : False :=
      absurd (inv.buffers.owned.below a (inv.buffers.owned.live owns))
        (not_lt.mpr (grows.fresh a member).1)
    rcases origin o a owns with old | ⟨i, rfl, found⟩
    · exact (new o old).elim
    · rcases origin o' a owns' with old | ⟨j, rfl, found'⟩
      · exact (new o' old).elim
      · have inside := (List.getElem?_eq_some_iff.mp found).1
        have same := (List.getElem?_inj inside grows.nodup).mp (found.trans found'.symm)
        rw [same]
  · rw [List.map_append, List.nodup_append]
    refine ⟨inv.numbers, List.nodup_singleton _, ?_⟩
    intro n before n' new
    obtain ⟨rq', queued, rfl⟩ := List.mem_map.mp before
    obtain rfl := List.mem_singleton.mp new
    exact (fresh rq' queued).ne
  · intro rq' queued
    rcases List.mem_append.mp queued with before | new
    · have old := inv.requests rq' before
      exact ⟨old.number, old.retained, old.records, old.filled⟩
    · obtain rfl := List.mem_singleton.mp new
      exact ⟨request.number, request.retained, request.records, request.filled⟩

theorem Inv.enqueue (inv : Inv s) {args : Args} {eventAllocated : Bool} {stale : Option ℕ}
    {status : XrpStatus} (alive : ∀ g ∈ args.group, (s.groups g).refs.holders.Nonempty)
    (result : xrpEnqueueCommand (heapAllocator ok) eventAllocated stale args s =
      some (status, s')) : Inv s' := by
  have retained := inv.retainForRequest alive
  rcases xrpEnqueueCommand_cases result with
    ⟨_, as, pool, allocates, unlocked | locked⟩ |
    ⟨_, rq, as, pool, refs, allocates, perm, number, group, _, records, filled, rfl⟩
  · rw [unlocked]
    exact retained.of_grows allocates.grows
  · rw [locked]
    exact retained.lock.of_grows allocates.grows
  · refine retained.append (allocates.grows.perm perm) ⟨?_, ?_, ?_, filled⟩ ?_
    · rw [number]
      exact Nat.lt_succ_self _
    · intro g given
      rw [group] at given
      rw [number]
      exact retainForRequest_holds given
    · rw [records, group, State.retainForRequest_records]
    · intro rq' queued
      rw [number]
      exact (inv.requests rq' queued).number

end Enqueueing

/-! ## Calls that leave the events as they are -/

section Frame

variable {s s' : State Heap ℕ} {al : Allocator Heap ℕ}

theorem releaseRecords_frame (g i : ℕ) (records : List Record) (s : State Heap ℕ) :
    (releaseRecords al g i records s).events = s.events ∧
      (releaseRecords al g i records s).queue = s.queue := by
  induction records generalizing i s with
  | nil => exact ⟨rfl, rfl⟩
  | cons r records ih => exact ih (i + 1) (xrpReleaseBuffer al (.slot g i) r.buffer s)

theorem xrpReleaseBufferGroup_frame {t : GroupRef} {g : ℕ}
    (result : xrpReleaseBufferGroup al t g s = some s') :
    s'.events = s.events ∧ s'.queue = s.queue := by
  unfold xrpReleaseBufferGroup at result
  split_ifs at result
  · cases result
    exact releaseRecords_frame g 0 _ s
  · cases result
    exact ⟨rfl, rfl⟩

theorem releaseGroupOf_frame {rq : Request ℕ} (result : releaseGroupOf al rq s = some s') :
    s'.events = s.events ∧ s'.queue = s.queue := by
  unfold releaseGroupOf at result
  split at result
  · cases result
    exact ⟨rfl, rfl⟩
  · exact xrpReleaseBufferGroup_frame result

theorem xrpCreateBuffer_frame {b k : ℕ} {device : Bool} {size : ULong}
    (result : xrpCreateBuffer al b k device size s = some s') :
    s'.events = s.events ∧ s'.queue = s.queue := by
  unfold xrpCreateBuffer at result
  split_ifs at result
  · split at result
    · cases result
      exact ⟨rfl, rfl⟩
    · cases result
      exact ⟨rfl, rfl⟩
  · cases result
    exact ⟨rfl, rfl⟩

theorem xrpCreateBufferGroup_frame {g k : ℕ} (result : xrpCreateBufferGroup g k s = some s') :
    s'.events = s.events ∧ s'.queue = s.queue := by
  unfold xrpCreateBufferGroup at result
  split_ifs at result
  cases result
  exact ⟨rfl, rfl⟩

theorem xrpAddBufferToGroup_frame {resized : Bool} {g b : ℕ} {accessFlags : U32}
    (result : xrpAddBufferToGroup resized g b accessFlags s = some s') :
    s'.events = s.events ∧ s'.queue = s.queue := by
  unfold xrpAddBufferToGroup at result
  split_ifs at result
  · cases result
    exact ⟨rfl, rfl⟩
  · cases result
    exact ⟨rfl, rfl⟩

theorem xrpSetBufferInGroup_frame {g i b : ℕ} {accessFlags : U32}
    (result : xrpSetBufferInGroup al g i b accessFlags s = some s') :
    s'.events = s.events ∧ s'.queue = s.queue := by
  unfold xrpSetBufferInGroup at result
  split_ifs at result
  dsimp only at result
  split at result
  · cases result
    exact ⟨rfl, rfl⟩
  · cases result
    exact ⟨rfl, rfl⟩

end Frame

/-! ## Completion -/

section Completion

variable {s s' : State Heap ℕ} {ok : ℕ → Bool} {rq : Request ℕ} {queue : List (Request ℕ)}

/-- The write-backs for host buffers whose descriptors come back with the write flag, where the
records are those from index `i` on. -/
def writeBacksFrom (buffers : ℕ → Buffer ℕ) (number : ℕ) (returned : ℕ → U32) (i : ℕ)
    (records : List Record) : List WriteBack :=
  ((records.zipIdx i).filter fun entry =>
    (buffers entry.1.buffer).place = .host ∧ returned entry.2 &&& bufferFlagWrite ≠ 0).map
      fun entry => ⟨number, entry.2, entry.1.buffer⟩

theorem writeBacksFrom_cons {buffers : ℕ → Buffer ℕ} {number i : ℕ} {returned : ℕ → U32}
    {r : Record} {records : List Record} :
    writeBacksFrom buffers number returned i (r :: records) =
      (if (buffers r.buffer).place = .host ∧ returned i &&& bufferFlagWrite ≠ 0 then
        [⟨number, i, r.buffer⟩] else []) ++
      writeBacksFrom buffers number returned (i + 1) records := by
  unfold writeBacksFrom
  rw [List.zipIdx_cons, List.filter_cons]
  split_ifs <;> simp_all

theorem getD_of_cons {current records : List Record} {r r' : Record} {i : ℕ}
    (here : r :: records <+: current.drop i) :
    current.getD i r' = r ∧ records <+: current.drop (i + 1) := by
  obtain ⟨rest, split⟩ := here
  have first : current[i]? = some r := by
    rw [← Nat.add_zero i, ← List.getElem?_drop, ← split]
    rfl
  refine ⟨by rw [List.getD_eq_getElem?_getD, first, Option.getD_some], rest, ?_⟩
  rw [← List.tail_drop, ← split]
  rfl

/-- The loop over the buffers of a request whose records are still those of the group. -/
theorem completeBuffers_filled {buffers : ℕ → Buffer ℕ} {records current : List Record}
    {shadows : List (Option ℕ)} {ds : List (DspBuffer ℕ)} {number : ℕ} {returned : ℕ → U32}
    (filled : FilledBy buffers records shadows ds) (i : ℕ) (s : State Heap ℕ)
    (same : s.buffers = buffers) (here : records <+: current.drop i) :
    completeBuffers (heapAllocator ok) number returned current i shadows s =
      { s with
        pool := s.pool.freeAll shadows.reduceOption
        writeBacks := s.writeBacks ++ writeBacksFrom buffers number returned i records } := by
  induction filled generalizing i s with
  | nil => simp [completeBuffers, writeBacksFrom, Heap.freeAll]
  | @device r a d records shadows ds place _ _ ih =>
    obtain ⟨first, rest⟩ := getD_of_cons here
    have place' : (s.buffers r.buffer).place = .device a := by rw [same, place]
    rw [completeBuffers, first, place']
    dsimp only
    rw [ih (i + 1) s same rest, writeBacksFrom_cons, if_neg (by simp [place])]
    rfl
  | @host r a d records shadows ds place _ _ ih =>
    obtain ⟨first, rest⟩ := getD_of_cons here
    have place' : (s.buffers r.buffer).place = .host := by rw [same, place]
    rw [completeBuffers, first, place']
    dsimp only
    refine (ih (i + 1) _ ?_ rest).trans ?_
    · exact same
    rw [writeBacksFrom_cons]
    simp only [place, true_and]
    split_ifs
    · rw [← List.append_assoc]
      rfl
    · rfl

theorem owns_of_mem {a : ℕ} (queued : rq ∈ s.queue) (member : a ∈ rq.allocations) :
    ∃ i, s.Owns (.request rq.number i) a := by
  obtain ⟨i, found⟩ := List.mem_iff_getElem?.mp member
  exact ⟨i, rq, queued, rfl, found⟩

theorem Inv.allocations_nodup (inv : Inv s) (queued : rq ∈ s.queue) : rq.allocations.Nodup := by
  refine List.nodup_iff_getElem?_ne_getElem?.mpr fun i j less inside same => less.ne ?_
  have found := List.getElem?_eq_getElem inside
  have left : s.Owns (.request rq.number i) _ := ⟨rq, queued, rfl, same.trans found⟩
  have right : s.Owns (.request rq.number j) _ := ⟨rq, queued, rfl, found⟩
  exact (Owner.request.inj (inv.buffers.owned.unique left right)).2

/-- A buffer's memory is not that of a queued request. -/
theorem Inv.notMem_allocations (inv : Inv s) (queued : rq ∈ s.queue) {b a : ℕ}
    (own : s.Owns (.buffer b) a) : a ∉ rq.allocations := by
  intro member
  obtain ⟨i, own'⟩ := owns_of_mem queued member
  cases inv.buffers.owned.unique own own'

/-- The first request is taken from the queue, and its allocations are freed. -/
theorem Inv.complete (inv : Inv s) (first : s.queue = rq :: queue) (writeBacks : List WriteBack) :
    Inv { s with
      queue := queue
      pool := s.pool.freeAll rq.allocations
      writeBacks := writeBacks } := by
  have queued : rq ∈ s.queue := by
    rw [first]
    exact List.mem_cons_self
  have numbers := inv.numbers
  rw [first, List.map_cons, List.nodup_cons] at numbers
  have later (rq' : Request ℕ) (member : rq' ∈ queue) : rq' ∈ s.queue := by
    rw [first]
    exact List.mem_cons_of_mem rq member
  refine ⟨⟨inv.buffers.exact, inv.buffers.owned.freeAll ?_ ?_ ?_⟩, inv.groups, inv.slots, inv.idle,
    inv.issued, numbers.2, ?_⟩
  · exact inv.allocations_nodup queued
  · intro a member
    obtain ⟨i, own⟩ := owns_of_mem queued member
    exact inv.buffers.owned.live own
  · intro o a own
    cases o with
    | buffer b => exact ⟨own, inv.notMem_allocations queued own⟩
    | request n i =>
      obtain ⟨rq', member, rfl, found⟩ := own
      have before : s.Owns (.request rq'.number i) a := ⟨rq', later rq' member, rfl, found⟩
      refine ⟨before, fun taken => ?_⟩
      obtain ⟨j, own'⟩ := owns_of_mem queued taken
      have same := inv.buffers.owned.unique before own'
      exact numbers.1 (List.mem_map.mpr ⟨rq', member, (Owner.request.inj same).1⟩)
  · intro rq' member
    have request := inv.requests rq' (later rq' member)
    exact ⟨request.number, request.retained, request.records, request.filled⟩

/-- The allocations of a request are freed around the loop over its buffers. -/
theorem freeIf_eq_freeAll (a : Option ℕ) (h : Heap) :
    freeIf (heapAllocator ok) a h = h.freeAll a.toList := by
  cases a <;> rfl

/-- The first request is done, and its group not yet released. -/
def State.completed (s : State Heap ℕ) (returned : ℕ → U32) (rq : Request ℕ)
    (queue : List (Request ℕ)) : State Heap ℕ :=
  { s with
    queue := queue
    pool := s.pool.freeAll rq.allocations
    writeBacks := s.writeBacks ++ writeBacksFrom s.buffers rq.number returned 0 rq.records }

theorem xrpQueueProcess_filled {returned : ℕ → U32} {response : U32}
    (first : s.queue = rq :: queue) (request : RequestOk s rq) (unlocked : ¬ s.Locked rq.group) :
    xrpQueueProcess (heapAllocator ok) returned response s =
      (releaseGroupOf (heapAllocator ok) rq (s.completed returned rq queue)).map
        (signalEvent (eventStatus response) rq.event) := by
  have loop (pool : Heap) :
      completeBuffers (heapAllocator ok) rq.number returned (s.records rq.group) 0
        rq.userBufferAllocation { s with queue := queue, pool := pool } =
      { s.completed returned rq queue with
        pool := pool.freeAll rq.userBufferAllocation.reduceOption } :=
    completeBuffers_filled request.filled 0 _ rfl request.records
  unfold xrpQueueProcess
  rw [first]
  dsimp only
  rw [if_neg unlocked]
  have same (pool : Heap) :
      State.records { s with queue := queue, pool := pool } rq.group = s.records rq.group := rfl
  rw [same, loop]
  simp only [freeIf_eq_freeAll, ← Heap.freeAll_append]
  rfl

/-- What becomes of the events depends on nothing else. -/
theorem signalEvent_events (status : XrpStatus) (event : Option ℕ) {s s' : State Heap ℕ}
    (same : s'.events = s.events) :
    (signalEvent status event s').events = (signalEvent status event s).events := by
  cases event with
  | none => exact same
  | some n => simp only [signalEvent, xrpReleaseEvent, same]

theorem Inv.releaseGroupOf (inv : Inv s) (first : s.queue = rq :: queue)
    (retained : ∀ g ∈ rq.group, .request rq.number ∈ (s.groups g).refs.holders)
    {returned : ℕ → U32}
    (result : releaseGroupOf (heapAllocator ok) rq (s.completed returned rq queue) = some s') :
    Inv s' ∧ s'.queue = queue ∧
      s'.writeBacks = (s.completed returned rq queue).writeBacks ∧
      Dropped (s.completed returned rq queue) s' := by
  have completed : Inv (s.completed returned rq queue) := inv.complete first _
  unfold Api.releaseGroupOf at result
  split at result
  · cases result
    exact ⟨completed, rfl, rfl, .refl _⟩
  · next g given =>
    have numbers := inv.numbers
    rw [first, List.map_cons, List.nodup_cons] at numbers
    have other (rq' : Request ℕ) (later : rq' ∈ queue) (_ : rq'.group = some g) :
        GroupRef.request rq'.number ≠ .request rq.number := fun number =>
      numbers.1 (List.mem_map.mpr ⟨rq', later, GroupRef.request.inj number⟩)
    exact completed.releaseGroup (retained g given) other result

/-- Only the events and the references to the device are others after the event was signalled. -/
theorem exists_signalEvent (status : XrpStatus) (event : Option ℕ) (s : State Heap ℕ) :
    ∃ events deviceRefs, signalEvent status event s =
      { s with events := events, deviceRefs := deviceRefs } := by
  cases event with
  | none => exact ⟨_, _, rfl⟩
  | some n => exact ⟨_, _, rfl⟩

theorem Inv.of_events (inv : Inv s) (events : ℕ → Event) (deviceRefs : ℕ) :
    Inv { s with events := events, deviceRefs := deviceRefs } := by
  refine ⟨⟨inv.buffers.exact, inv.buffers.owned⟩, inv.groups, inv.slots, inv.idle, inv.issued,
    inv.numbers, ?_⟩
  intro rq queued
  have request := inv.requests rq queued
  exact ⟨request.number, request.retained, request.records, request.filled⟩

/-- What `xrp_queue_process` does with the first request. -/
theorem Inv.process (inv : Inv s) {returned : ℕ → U32} {response : U32}
    (result : xrpQueueProcess (heapAllocator ok) returned response s = some s') :
    ∃ rq queue, s.queue = rq :: queue ∧ s'.queue = queue ∧
      s'.writeBacks = s.writeBacks ++ writeBacksFrom s.buffers rq.number returned 0 rq.records ∧
      Dropped { s with pool := s.pool.freeAll rq.allocations } s' ∧ Inv s' ∧
      s'.events = (signalEvent (eventStatus response) rq.event s).events := by
  obtain ⟨rq, queue, first, unlocked⟩ :
      ∃ rq queue, s.queue = rq :: queue ∧ ¬ s.Locked rq.group := by
    unfold xrpQueueProcess at result
    split at result
    · cases result
    · next rq queue first =>
      split at result
      · cases result
      · next unlocked => exact ⟨rq, queue, first, unlocked⟩
  have queued : rq ∈ s.queue := by
    rw [first]
    exact List.mem_cons_self
  have request := inv.requests rq queued
  rw [xrpQueueProcess_filled first request unlocked] at result
  obtain ⟨s'', released, rfl⟩ := Option.map_eq_some_iff.mp result
  obtain ⟨kept, rest, written, dropped⟩ := inv.releaseGroupOf first request.retained released
  have events : s''.events = s.events := (releaseGroupOf_frame released).1
  refine ⟨rq, queue, first, ?_⟩
  obtain ⟨events', deviceRefs, signalled⟩ :=
    exists_signalEvent (eventStatus response) rq.event s''
  have same := signalEvent_events (eventStatus response) rq.event events
  rw [signalled] at same ⊢
  exact ⟨rest, written, dropped, kept.of_events _ _, same⟩

end Completion

/-! ## Whole runs -/

section Runs

variable {s s' : State Heap ℕ}

theorem State.HoldsBuffer.alive {b : ℕ} (holds : s.HoldsBuffer b) :
    (s.buffers b).refs.holders.Nonempty := by
  obtain ⟨k, member⟩ := holds
  exact ⟨_, member⟩

theorem State.HoldsGroup.alive {g : ℕ} (holds : s.HoldsGroup g) :
    (s.groups g).refs.holders.Nonempty := by
  obtain ⟨k, member⟩ := holds
  exact ⟨_, member⟩

theorem Inv.step (inv : Inv s) {c : Call} (careful : Careful s c) (result : c.run s = some s') :
    Inv s' := by
  cases c with
  | createBuffer b k device size allocated => exact inv.createBuffer result
  | createGroup g k => exact inv.createGroup result
  | retainBuffer b k =>
    cases result
    exact inv.retainBuffer careful.1.alive careful.2
  | retainGroup g k =>
    cases result
    exact inv.retainGroup careful.1.alive careful.2
  | addBuffer resized g b accessFlags => exact inv.addBuffer careful.1.alive careful.2.alive result
  | setBuffer g i b accessFlags =>
    obtain ⟨group, buffer, unused⟩ := careful
    exact inv.setBuffer group.alive buffer.alive unused result
  | releaseBuffer b k =>
    cases result
    exact inv.releaseBuffer careful
  | releaseGroup g k => exact (inv.releaseGroup careful (fun _ _ _ => nofun) result).1
  | retainEvent n k =>
    cases result
    exact inv.of_events _ _
  | releaseEvent n k =>
    cases result
    exact inv.of_events _ _
  | enqueue args allocated eventAllocated stale =>
    obtain ⟨⟨status, s''⟩, enqueued, rfl⟩ := Option.map_eq_some_iff.mp result
    exact inv.enqueue (fun g given => (careful.2 g given).alive) enqueued
  | process returned response =>
    obtain ⟨_, _, _, _, _, _, kept, _⟩ := inv.process result
    exact kept

/-- Counts of references to events are right, and a queued request has a reference to its event. -/
structure EventsOk (s : State Heap ℕ) : Prop where
  exact : ∀ n, (s.events n).refs.Exact
  own : ∀ rq ∈ s.queue, rq.event = some rq.number ∧ .request ∈ (s.events rq.number).refs.holders

theorem EventsOk.of_frame (ok : EventsOk s) (frame : s'.events = s.events ∧ s'.queue = s.queue) :
    EventsOk s' := by
  obtain ⟨events, queue⟩ := frame
  refine ⟨?_, ?_⟩
  · rw [events]
    exact ok.exact
  · rw [events, queue]
    exact ok.own

/-- One event is changed. -/
theorem EventsOk.of_update (ok : EventsOk s) {n : ℕ} {event : Event}
    (events : s'.events = Function.update s.events n event) (exact : event.refs.Exact)
    (own : ∀ rq ∈ s'.queue, rq.event = some rq.number ∧
      if rq.number = n then .request ∈ event.refs.holders
      else .request ∈ (s.events rq.number).refs.holders) : EventsOk s' := by
  refine ⟨?_, ?_⟩
  · intro m
    rw [events]
    by_cases here : m = n
    · subst here
      simpa using exact
    · simpa [here] using ok.exact m
  · intro rq queued
    obtain ⟨named, holds⟩ := own rq queued
    refine ⟨named, ?_⟩
    rw [events]
    split_ifs at holds with here
    · simpa [here] using holds
    · simpa [here] using holds

/-- A client retains an event, or gives back a reference. -/
theorem EventsOk.of_client (ok : EventsOk s) {n : ℕ} {refs : Refcounted EventRef}
    (events : s'.events = Function.update s.events n { s.events n with refs := refs })
    (queue : s'.queue = s.queue) (exact : refs.Exact)
    (kept : .request ∈ (s.events n).refs.holders → .request ∈ refs.holders) : EventsOk s' := by
  refine ok.of_update events exact ?_
  rw [queue]
  intro rq queued
  obtain ⟨named, holds⟩ := ok.own rq queued
  refine ⟨named, ?_⟩
  split_ifs with here
  · exact kept (here ▸ holds)
  · exact holds

theorem EventsOk.enqueue (ok : EventsOk s) (inv : Inv s) {allocated : ℕ → Bool}
    {eventAllocated : Bool} {stale : Option ℕ} {args : Args} {status : XrpStatus}
    (event : args.event = true)
    (result : xrpEnqueueCommand (heapAllocator allocated) eventAllocated stale args s =
      some (status, s')) : EventsOk s' := by
  rcases xrpEnqueueCommand_cases result with
    ⟨_, _, _, _, rfl | rfl⟩ | ⟨_, rq, _, _, _, _, _, number, _, named, _, _, rfl⟩
  · exact ok.of_frame ⟨rfl, rfl⟩
  · exact ok.of_frame ⟨rfl, rfl⟩
  · rw [if_pos event] at named
    have exact : Event.created.refs.Exact :=
      (Refcounted.exact_alloc _).retain (by simp [Refcounted.alloc])
    refine ok.of_update (if_pos event) exact ?_
    intro rq' queued
    rcases List.mem_append.mp queued with before | new
    · obtain ⟨named', holds⟩ := ok.own rq' before
      have other : rq'.number ≠ s.issued := (inv.requests rq' before).number.ne
      rw [if_neg other]
      exact ⟨named', holds⟩
    · obtain rfl := List.mem_singleton.mp new
      rw [if_pos number, named, number]
      exact ⟨rfl, by decide⟩

theorem signalEvent_some (status : XrpStatus) (n : ℕ) (s : State Heap ℕ) :
    (signalEvent status (some n) s).events =
      Function.update s.events n ⟨(s.events n).refs.release .request, status⟩ := by
  simp [signalEvent, xrpReleaseEvent]

theorem EventsOk.process (ok : EventsOk s) (inv : Inv s) {returned : ℕ → U32} {response : U32}
    {allocated : ℕ → Bool}
    (result : xrpQueueProcess (heapAllocator allocated) returned response s = some s') :
    EventsOk s' := by
  obtain ⟨rq, queue, first, rest, _, _, _, events⟩ := inv.process result
  obtain ⟨named, holds⟩ := ok.own rq (first ▸ List.mem_cons_self)
  rw [named, signalEvent_some] at events
  refine ok.of_update events ((ok.exact rq.number).release holds) ?_
  rw [rest]
  intro rq' later
  obtain ⟨named', holds'⟩ := ok.own rq' (first ▸ List.mem_cons_of_mem rq later)
  have numbers := inv.numbers
  rw [first, List.map_cons, List.nodup_cons] at numbers
  have other : rq'.number ≠ rq.number := fun same =>
    numbers.1 (List.mem_map.mpr ⟨rq', later, same⟩)
  rw [if_neg other]
  exact ⟨named', holds'⟩

theorem EventsOk.step (ok : EventsOk s) (inv : Inv s) {c : Call} (careful : Careful s c)
    (result : c.run s = some s') : EventsOk s' := by
  cases c with
  | createBuffer b k device size allocated => exact ok.of_frame (xrpCreateBuffer_frame result)
  | createGroup g k => exact ok.of_frame (xrpCreateBufferGroup_frame result)
  | retainBuffer b k =>
    cases result
    exact ok.of_frame ⟨rfl, rfl⟩
  | retainGroup g k =>
    cases result
    exact ok.of_frame ⟨rfl, rfl⟩
  | addBuffer resized g b accessFlags => exact ok.of_frame (xrpAddBufferToGroup_frame result)
  | setBuffer g i b accessFlags => exact ok.of_frame (xrpSetBufferInGroup_frame result)
  | releaseBuffer b k =>
    cases result
    exact ok.of_frame ⟨rfl, rfl⟩
  | releaseGroup g k => exact ok.of_frame (xrpReleaseBufferGroup_frame result)
  | retainEvent n k =>
    cases result
    exact ok.of_client rfl rfl ((ok.exact n).retain careful.2) Finset.mem_insert_of_mem
  | releaseEvent n k =>
    cases result
    exact ok.of_client rfl rfl ((ok.exact n).release careful) fun holds =>
      Finset.mem_erase.mpr ⟨nofun, holds⟩
  | enqueue args allocated eventAllocated stale =>
    obtain ⟨⟨status, s''⟩, enqueued, rfl⟩ := Option.map_eq_some_iff.mp result
    exact ok.enqueue inv careful.1 enqueued
  | process returned response => exact ok.process inv result

theorem CarefulReach.inv (reach : CarefulReach s) : Inv s ∧ EventsOk s := by
  induction reach with
  | refl => exact ⟨inv_init, fun _ => rfl, fun rq queued => by cases queued⟩
  | tail _ step ih =>
    obtain ⟨c, careful, result⟩ := step
    exact ⟨ih.1.step careful result, ih.2.step ih.1 careful result⟩

/-- The address of a descriptor is that of a device buffer, or of a shadow. -/
theorem FilledBy.addr {buffers : ℕ → Buffer ℕ} {records : List Record}
    {shadows : List (Option ℕ)} {ds : List (DspBuffer ℕ)} {d : DspBuffer ℕ}
    (filled : FilledBy buffers records shadows ds) (member : d ∈ ds) :
    (∃ r ∈ records, (buffers r.buffer).place = .device d.addr) ∨ some d.addr ∈ shadows := by
  induction filled with
  | nil => cases member
  | device place addr _ ih =>
    rcases List.mem_cons.mp member with rfl | later
    · exact .inl ⟨_, List.mem_cons_self, addr.symm ▸ place⟩
    · refine (ih later).imp ?_ (List.mem_cons_of_mem _)
      rintro ⟨r, known, place'⟩
      exact ⟨r, List.mem_cons_of_mem _ known, place'⟩
  | host place addr _ ih =>
    rcases List.mem_cons.mp member with rfl | later
    · exact .inr (addr ▸ List.mem_cons_self)
    · refine (ih later).imp ?_ (List.mem_cons_of_mem _)
      rintro ⟨r, known, place'⟩
      exact ⟨r, List.mem_cons_of_mem _ known, place'⟩

/-- The memory that the DSP was told of. -/
theorem Inv.live (inv : Inv s) {rq : Request ℕ} (queued : rq ∈ s.queue) {d : DspBuffer ℕ}
    (member : d ∈ rq.bufferPtr) : d.addr ∈ s.pool.live := by
  rcases (inv.requests rq queued).filled.addr member with ⟨r, known, place⟩ | shadow
  · have own : s.Owns (.buffer r.buffer) d.addr := ⟨inv.referenced queued known, place⟩
    exact inv.buffers.owned.live own
  · have allocation : d.addr ∈ rq.allocations := by
      have reduced := List.reduceOption_mem_iff.mpr shadow
      simp [Request.allocations, reduced]
    obtain ⟨i, own⟩ := owns_of_mem queued allocation
    exact inv.buffers.owned.live own

/-- The state after the calls; a call that would wait does nothing. -/
def State.after (s : State Heap ℕ) : List Call → State Heap ℕ
  | [] => s
  | c :: calls => ((c.run s).getD s).after calls

/-- Each of the calls is careful when it is made. -/
def CarefulCalls (s : State Heap ℕ) : List Call → Prop
  | [] => True
  | c :: calls => Careful s c ∧ CarefulCalls ((c.run s).getD s) calls

theorem Reach.after (reach : Reach s) (calls : List Call) : Reach (s.after calls) := by
  induction calls generalizing s with
  | nil => exact reach
  | cons c calls ih =>
    refine ih ?_
    cases result : c.run s with
    | none => exact reach
    | some s' => exact reach.tail ⟨c, result⟩

theorem CarefulReach.after (reach : CarefulReach s) (calls : List Call)
    (careful : CarefulCalls s calls) : CarefulReach (s.after calls) := by
  induction calls generalizing s with
  | nil => exact reach
  | cons c calls ih =>
    refine ih ?_ careful.2
    cases result : c.run s with
    | none => exact reach
    | some s' => exact reach.tail ⟨c, careful.1, result⟩

end Runs

end Xrp.Sim.Api
