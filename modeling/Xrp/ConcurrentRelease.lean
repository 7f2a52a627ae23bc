import Xrp.Base.Refcount

/-!
# Concurrent calls of `xrp_release_buffer`

Threads give back the references to one buffer with memory of a device, in the simulation library
or in the native one. In `last_refcount` a thread reads the count, in `release_refcounted` it
decrements it, and other threads may run in between. The object is freed by the thread that
brings the count to zero. The storage behind it is released only by a thread that has read one.
`XRP_IOCTL_FREE` succeeds.
-/

namespace Xrp.ConcurrentRelease

/-- What the calls do besides counting. -/
inductive Event : Type
  /-- `xrp_free` of the simulation library. -/
  | xrpFree
  /-- `XRP_IOCTL_FREE` of the native library. -/
  | ioctlFree
  /-- `xrp_release_device` of the native library. -/
  | releaseDevice
  /-- `free` of the object. -/
  | free
  deriving DecidableEq

/-- The libraries. -/
inductive Host : Type
  | sim
  | native

/-- How `xrp_release_buffer` releases the storage, in order. -/
def Host.storage : Host → List Event
  | sim => [.xrpFree]
  | native => [.ioctlFree, .releaseDevice]

/-- Where a thread is in `xrp_release_buffer`. -/
inductive Pc : Type
  /-- Before `last_refcount`. -/
  | read
  /-- The storage that is still to be released; then comes `release_refcounted`. -/
  | release (todo : List Event)
  | returned
  deriving DecidableEq

/-- What a thread does in one step. -/
inductive Action : Type
  | read
  | store
  | drop
  deriving DecidableEq

variable {ι : Type}

/-- The references and their holders, where the threads are, and what was done. -/
structure State (ι : Type) : Type where
  refs : Refcounted ι
  pc : ι → Pc
  log : List Event

/-- Each thread has a reference. -/
def State.init [Fintype ι] : State ι := ⟨⟨Fintype.card ι, Finset.univ⟩, fun _ => .read, []⟩

/-- Some thread called `last_refcount` after all others had given back their references. -/
def ReadLast (trace : List (ι × Action)) : Prop :=
  ∃ before i after, trace = before ++ (i, .read) :: after ∧ ∀ j, j ≠ i → (j, .drop) ∈ before

theorem readLast_append {trace : List (ι × Action)} {i : ι} {a : Action} :
    ReadLast (trace ++ [(i, a)]) ↔
      ReadLast trace ∨ a = .read ∧ ∀ j, j ≠ i → (j, .drop) ∈ trace := by
  constructor
  · rintro ⟨before, k, after, split, others⟩
    rcases List.eq_nil_or_concat after with rfl | ⟨after, last, rfl⟩
    · obtain ⟨rfl, same⟩ := List.append_inj' split rfl
      cases same
      exact .inr ⟨rfl, others⟩
    · rw [List.concat_eq_append, ← List.cons_append, ← List.append_assoc] at split
      exact .inl ⟨before, k, after, (List.append_inj' split rfl).1, others⟩
  · rintro (⟨before, k, after, rfl, others⟩ | ⟨rfl, others⟩)
    · exact ⟨before, k, after ++ [(i, a)], by simp, others⟩
    · exact ⟨trace, i, [], rfl, others⟩

variable [DecidableEq ι]

/-- A thread moves on. -/
def State.goto (s : State ι) (i : ι) (p : Pc) : State ι :=
  { s with pc := Function.update s.pc i p }

/-- The next step of a thread. -/
def step (host : Host) (i : ι) (s : State ι) : Option (Action × State ι) :=
  match s.pc i with
  | .read =>
    some (.read, s.goto i (.release (if s.refs.count = 1 then host.storage else [])))
  | .release (e :: todo) =>
    some (.store, { s.goto i (.release todo) with log := s.log ++ [e] })
  | .release [] =>
    let refs := s.refs.release i
    some (.drop,
      { s.goto i .returned with
        refs := refs
        log := if refs.count = 0 then s.log ++ [.free] else s.log })
  | .returned => none

/-- The threads take their steps in any order, which the trace tells. -/
inductive Run [Fintype ι] (host : Host) : List (ι × Action) → State ι → Prop
  | init : Run host [] .init
  | step {trace : List (ι × Action)} {s s' : State ι} (i : ι) {a : Action} :
    Run host trace s → step host i s = some (a, s') → Run host (trace ++ [(i, a)]) s'

/-! ## What holds in every run -/

/-- The storage was not touched, and no thread is about to release it. -/
structure Untouched (host : Host) (s : State ι) : Prop where
  pc : ∀ i, s.pc i = .read ∨ s.pc i = .release [] ∨ s.pc i = .returned
  log : ∀ e ∈ host.storage, s.log.count e = 0

/-- A thread that has read one is alone, and has released `done` of the storage. -/
structure Releasing (host : Host) (s : State ι) (i : ι) (done todo : List Event) : Prop where
  storage : host.storage = done ++ todo
  others : ∀ j, j ≠ i → s.pc j = .returned
  pc : s.pc i = .release todo ∨ todo = [] ∧ s.pc i = .returned
  log : ∀ e ∈ host.storage, s.log.count e = done.count e

/-- What the trace tells of the state. -/
structure Inv (host : Host) (trace : List (ι × Action)) (s : State ι) : Prop where
  exact : s.refs.Exact
  holds : ∀ i, i ∈ s.refs.holders ↔ s.pc i ≠ .returned
  dropped : ∀ i, (i, .drop) ∈ trace ↔ s.pc i = .returned
  freed : s.log.count .free = if s.refs.holders = ∅ then 1 else 0
  early : ¬ ReadLast trace → Untouched host s
  late : ReadLast trace → ∃ i done todo, Releasing host s i done todo

theorem free_notMem (host : Host) : Event.free ∉ host.storage := by
  cases host <;> decide

theorem nodup_storage (host : Host) : host.storage.Nodup := by
  cases host <;> decide

section Run

variable {host : Host} {i j : ι} {p : Pc} {a : Action} {s s' : State ι}
  {trace : List (ι × Action)}

theorem goto_self : (s.goto i p).pc i = p := Function.update_self ..

theorem goto_of_ne (other : j ≠ i) : (s.goto i p).pc j = s.pc j := Function.update_of_ne other ..

theorem step_cases (result : step host i s = some (a, s')) :
    (a = .read ∧ s.pc i = .read ∧
      s' = s.goto i (.release (if s.refs.count = 1 then host.storage else []))) ∨
    (∃ e todo, a = .store ∧ s.pc i = .release (e :: todo) ∧
      s' = { s.goto i (.release todo) with log := s.log ++ [e] }) ∨
    (a = .drop ∧ s.pc i = .release [] ∧
      s' = { s.goto i .returned with
        refs := s.refs.release i
        log := if (s.refs.release i).count = 0 then s.log ++ [.free] else s.log }) := by
  unfold step at result
  split at result
  · next here =>
    cases result
    exact .inl ⟨rfl, here, rfl⟩
  · next e todo here =>
    cases result
    exact .inr (.inl ⟨e, todo, rfl, here, rfl⟩)
  · next here =>
    cases result
    exact .inr (.inr ⟨rfl, here, rfl⟩)
  · cases result

theorem goto_returned_iff (here : s.pc i ≠ .returned) (there : p ≠ .returned) (k : ι) :
    (s.goto i p).pc k = .returned ↔ s.pc k = .returned := by
  by_cases same : k = i
  · rw [same, goto_self]
    exact iff_of_false there here
  · rw [goto_of_ne same]

/-- A thread reads one if and only if all others have given back their references. -/
theorem Inv.count_eq_one_iff (inv : Inv host trace s) (here : s.pc i ≠ .returned) :
    s.refs.count = 1 ↔ ∀ j, j ≠ i → (j, .drop) ∈ trace := by
  have holds : i ∈ s.refs.holders := (inv.holds i).mpr here
  have others : (∀ j, j ≠ i → (j, .drop) ∈ trace) ↔ ∀ j, j ≠ i → j ∉ s.refs.holders := by
    refine forall₂_congr fun j _ => ?_
    rw [inv.dropped, inv.holds, not_not]
  rw [others]
  constructor
  · intro one j other member
    rw [inv.exact.holders_eq holds one, Finset.mem_singleton] at member
    exact other member
  · intro alone
    refine inv.exact.count_eq (t := i) (Finset.eq_singleton_iff_unique_mem.mpr ⟨holds, ?_⟩)
    intro j member
    by_contra other
    exact alone j other member

/-- After a thread has read one, the others have returned. -/
theorem Inv.eq_of_late (inv : Inv host trace s) (here : s.pc i ≠ .returned)
    (late : ReadLast trace) :
    ∃ done todo, Releasing host s i done todo ∧ s.pc i = .release todo := by
  obtain ⟨k, done, todo, releasing⟩ := inv.late late
  have same : i = k := by
    by_contra other
    exact here (releasing.others i other)
  subst same
  exact ⟨done, todo, releasing, releasing.pc.resolve_right fun stop => here stop.2⟩

theorem Inv.read (inv : Inv host trace s) (here : s.pc i = .read) :
    Inv host (trace ++ [(i, .read)])
      (s.goto i (.release (if s.refs.count = 1 then host.storage else []))) := by
  have notReturned : s.pc i ≠ .returned := by simp [here]
  have returned (todo : List Event) := goto_returned_iff (p := .release todo) notReturned (by simp)
  have early : ¬ ReadLast trace := by
    intro late
    obtain ⟨done, todo, -, pc⟩ := inv.eq_of_late notReturned late
    simp [here] at pc
  have untouched := inv.early early
  have last := inv.count_eq_one_iff notReturned
  refine ⟨inv.exact, ?_, ?_, inv.freed, ?_, ?_⟩
  · intro k
    exact (inv.holds k).trans (not_congr (returned _ k).symm)
  · intro k
    rw [returned, ← inv.dropped]
    simp
  · intro notLast
    rw [readLast_append, ← last] at notLast
    have more : s.refs.count ≠ 1 := fun one => notLast (.inr ⟨rfl, one⟩)
    rw [if_neg more]
    refine ⟨?_, untouched.log⟩
    intro k
    by_cases same : k = i
    · rw [same, goto_self]
      exact .inr (.inl rfl)
    · rw [goto_of_ne same]
      exact untouched.pc k
  · intro late
    have one : s.refs.count = 1 :=
      last.mpr ((readLast_append.mp late).resolve_left early).2
    rw [if_pos one]
    refine ⟨i, [], host.storage, rfl, ?_, .inl goto_self, untouched.log⟩
    intro j other
    rw [goto_of_ne other, ← inv.dropped]
    exact last.mp one j other

theorem Inv.store {e : Event} {todo : List Event} (inv : Inv host trace s)
    (here : s.pc i = .release (e :: todo)) :
    Inv host (trace ++ [(i, .store)])
      { s.goto i (.release todo) with log := s.log ++ [e] } := by
  have notReturned : s.pc i ≠ .returned := by simp [here]
  have returned := goto_returned_iff (p := .release todo) notReturned (by simp)
  have late : ReadLast trace := by
    by_contra early
    have pc := (inv.early early).pc i
    simp [here] at pc
  obtain ⟨done, todo', releasing, pc⟩ := inv.eq_of_late notReturned late
  obtain rfl : e :: todo = todo' := by simpa [here] using pc
  have member : e ∈ host.storage := by simp [releasing.storage]
  have other : e ≠ .free := fun same => free_notMem host (same ▸ member)
  refine ⟨inv.exact, ?_, ?_, ?_, ?_, ?_⟩
  · intro k
    exact (inv.holds k).trans (not_congr (returned k).symm)
  · intro k
    refine Iff.trans ?_ ((inv.dropped k).trans (returned k).symm)
    simp
  · have same : (s.log ++ [e]).count .free = s.log.count .free := by
      simp [List.count_append, other]
    exact same.trans inv.freed
  · intro early
    exact absurd (readLast_append.mpr (.inl late)) early
  · intro _
    refine ⟨i, done ++ [e], todo, ?_, ?_, .inl goto_self, ?_⟩
    · rw [releasing.storage, List.append_assoc, List.singleton_append]
    · intro j other
      exact (goto_of_ne other).trans (releasing.others j other)
    · intro e' inside
      simp only [List.count_append, releasing.log e' inside]

theorem Inv.drop (inv : Inv host trace s) (here : s.pc i = .release []) :
    Inv host (trace ++ [(i, .drop)])
      { s.goto i .returned with
        refs := s.refs.release i
        log := if (s.refs.release i).count = 0 then s.log ++ [.free] else s.log } := by
  have notReturned : s.pc i ≠ .returned := by simp [here]
  have holds : i ∈ s.refs.holders := (inv.holds i).mpr notReturned
  have exact := inv.exact.release holds
  have log : ∀ e ∈ host.storage, (if (s.refs.release i).count = 0 then s.log ++ [Event.free]
      else s.log).count e = s.log.count e := by
    intro e member
    have other : e ≠ .free := fun same => free_notMem host (same ▸ member)
    split_ifs
    · simp [List.count_append, Ne.symm other]
    · rfl
  have readLast : ReadLast (trace ++ [(i, .drop)]) ↔ ReadLast trace := by
    rw [readLast_append]
    simp
  refine ⟨exact, ?_, ?_, ?_, ?_, ?_⟩
  · intro k
    by_cases same : k = i
    · simp [same, Refcounted.release, State.goto]
    · simp [same, Refcounted.release, State.goto, inv.holds]
  · intro k
    by_cases same : k = i
    · simp [same, State.goto]
    · simp [same, State.goto, inv.dropped]
  · have before : s.log.count .free = 0 := by
      rw [inv.freed, if_neg (Finset.ne_empty_of_mem holds)]
    simp only [exact.holders_eq_empty]
    split_ifs
    · simp [List.count_append, before]
    · exact before
  · intro early
    have untouched := inv.early (readLast.not.mp early)
    refine ⟨?_, fun e member => (log e member).trans (untouched.log e member)⟩
    intro k
    by_cases same : k = i
    · simp [same, State.goto]
    · simpa [same, State.goto] using untouched.pc k
  · intro late
    obtain ⟨done, todo, releasing, pc⟩ := inv.eq_of_late notReturned (readLast.mp late)
    obtain rfl : [] = todo := by simpa [here] using pc
    refine ⟨i, done, [], releasing.storage, ?_, .inr ⟨rfl, goto_self⟩,
      fun e member => (log e member).trans (releasing.log e member)⟩
    intro j other
    exact (goto_of_ne other).trans (releasing.others j other)

variable [Fintype ι] [Nonempty ι]

theorem Inv.init : Inv host [] (.init : State ι) := by
  have early : ¬ ReadLast ([] : List (ι × Action)) := by
    rintro ⟨before, i, after, empty, -⟩
    simp at empty
  refine ⟨rfl, by simp [State.init], by simp [State.init], ?_, ?_, fun late => absurd late early⟩
  · exact (if_neg Finset.univ_nonempty.ne_empty).symm
  · intro _
    exact ⟨fun _ => .inl rfl, fun _ _ => rfl⟩

theorem Inv.of_run (run : Run host trace s) : Inv host trace s := by
  induction run with
  | init => exact .init
  | step i _ result ih =>
    obtain ⟨rfl, here, rfl⟩ | ⟨e, todo, rfl, here, rfl⟩ | ⟨rfl, here, rfl⟩ := step_cases result
    · exact ih.read here
    · exact ih.store here
    · exact ih.drop here

/-- **When all calls have returned**, the object was freed once, and no part of its storage was
released twice. All of the storage was released if and only if some thread called `last_refcount`
after all others had given back their references. -/
theorem storage_released_iff (run : Run host trace s) (returned : ∀ i, s.pc i = .returned) :
    s.log.count .free = 1 ∧ (∀ e ∈ host.storage, s.log.count e ≤ 1) ∧
      ((∀ e ∈ host.storage, s.log.count e = 1) ↔ ReadLast trace) := by
  have inv := Inv.of_run run
  have nobody : s.refs.holders = ∅ := by
    refine Finset.eq_empty_of_forall_notMem fun i member => ?_
    exact (inv.holds i).mp member (returned i)
  have freed : s.log.count .free = 1 := by rw [inv.freed, if_pos nobody]
  by_cases late : ReadLast trace
  · obtain ⟨i, done, todo, releasing⟩ := inv.late late
    have finished : todo = [] := by
      have pc := releasing.pc
      rw [returned] at pc
      simpa using pc
    have once : ∀ e ∈ host.storage, s.log.count e = 1 := by
      intro e member
      have all : host.storage = done := by simp [releasing.storage, finished]
      rw [releasing.log e member, ← all, List.count_eq_one_of_mem (nodup_storage host) member]
    exact ⟨freed, fun e member => (once e member).le, iff_of_true once late⟩
  · have untouched := (inv.early late).log
    refine ⟨freed, fun e member => (untouched e member).le.trans zero_le_one,
      iff_of_false ?_ late⟩
    intro once
    obtain ⟨e, member⟩ : ∃ e, e ∈ host.storage := by
      cases host <;> exact ⟨_, List.mem_cons_self⟩
    exact absurd ((untouched e member).symm.trans (once e member)) Nat.zero_ne_one

end Run

/-- The second of two threads calls `xrp_release_buffer` after the first one has returned. -/
theorem storage_released_iff_inTurn :
    ∃ (trace : List (Fin 2 × Action)) (s : State (Fin 2)),
      trace = [(0, .read), (0, .drop), (1, .read), (1, .store), (1, .store), (1, .drop)] ∧
      Run .native trace s ∧ ∀ e ∈ Host.native.storage, s.log.count e = 1 := by
  have run : Run .native _ _ := .step (1 : Fin 2) (.step 1 (.step 1 (.step 1
    (.step 0 (.step 0 .init rfl) rfl) rfl) rfl) rfl) rfl
  have returned := storage_released_iff run (by decide)
  refine ⟨_, _, rfl, run, returned.2.2.mpr ⟨[(0, .read), (0, .drop)], 1, _, rfl, ?_⟩⟩
  decide

/-- Two threads read two, and then both give back their references: the storage is not
released. -/
def Leaks (host : Host) : Prop :=
  ∃ (trace : List (Fin 2 × Action)) (s : State (Fin 2)),
    trace = [(0, .read), (1, .read), (0, .drop), (1, .drop)] ∧ Run host trace s ∧
    (∀ i, s.pc i = .returned) ∧ ∀ e ∈ host.storage, s.log.count e = 0

theorem storage_not_released : Leaks .sim ∧ Leaks .native := by
  constructor
  · exact ⟨_, _, rfl, .step 1 (.step 0 (.step 1 (.step 0 .init rfl) rfl) rfl) rfl,
      Fin.forall_fin_two.mpr ⟨rfl, rfl⟩, by decide⟩
  · exact ⟨_, _, rfl, .step 1 (.step 0 (.step 1 (.step 0 .init rfl) rfl) rfl) rfl,
      Fin.forall_fin_two.mpr ⟨rfl, rfl⟩, by decide⟩

end Xrp.ConcurrentRelease
