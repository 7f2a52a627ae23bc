import Xrp.Kernel.HoldersSafe

/-!
# Allocations of closed files

`xvp_close` does not look at the `busy_list` of the file, and an allocation that `xvp_mmap` took off
the list stays with nobody if `remap_pfn_range` fails. Where neither happens, what was allocated
through a closed file was returned to the pool as soon as nobody uses it.
-/

namespace Xrp.Kernel.Holders

section Leaks

variable {s : State} {pmem : ULong}

/-- No allocation is on the list of a closed file, or lost. -/
structure Kept (s : State) : Prop where
  closed : ∀ file, s.closed file = true → s.busyList file = []
  lost : s.lost = []

theorem Kept.of_eq (kept : Kept s) {s' : State} (busyList : s'.busyList = s.busyList)
    (closed : s'.closed = s.closed) (lost : s'.lost = s.lost) : Kept s' := by
  refine ⟨?_, lost.trans kept.lost⟩
  rw [busyList, closed]
  exact kept.closed

/-- The list of a file that is open changes. -/
theorem Kept.of_update (kept : Kept s) {s' : State} {file : ℕ} {list : List AllocObject}
    (isOpen : s.closed file = false) (busyList : s'.busyList = Function.update s.busyList file list)
    (closed : s'.closed = s.closed) (lost : s'.lost = s.lost) : Kept s' := by
  refine ⟨?_, lost.trans kept.lost⟩
  intro file' shut
  rw [closed] at shut
  have other : file' ≠ file := by
    rintro rfl
    rw [isOpen] at shut
    cases shut
  rw [busyList, Function.update_of_ne other]
  exact kept.closed file' shut

theorem Kept.mmap (kept : Kept s) {file mm j : ℕ} {vma : VmArea} {remap : Except Errno Unit}
    (isOpen : s.closed file = false)
    (retaining : remap = .ok () ∨ s.dequeued pmem file vma = none) :
    Kept (s.mmap pmem file mm j vma remap) := by
  rcases s.mmap_cases pmem file mm j vma remap with
    ⟨a, before, after, split, taken, result⟩ | ⟨_, result⟩
  · rw [result]
    rcases retaining with rfl | none
    · exact kept.of_update isOpen rfl rfl rfl
    · rw [taken] at none
      cases none
  · rw [result]
    exact kept

theorem Kept.close (kept : Kept s) {file : ℕ} (empty : s.busyList file = []) :
    Kept (s.close file) := by
  refine ⟨?_, kept.lost⟩
  intro file' shut
  by_cases same : file' = file
  · rw [same]
    exact empty
  · refine kept.closed file' ?_
    simpa [State.close, same] using shut

/-- Areas and requests do not touch lists. -/
theorem Kept.step (kept : Kept s) {e : Event} (allowed : Allowed s e)
    (retaining : Retaining pmem s e) : Kept (Event.run pmem s e) := by
  cases e with
  | alloc file p b => exact kept.of_update allowed.1 rfl rfl rfl
  | mmap file mm j vma remap => exact kept.mmap allowed.1 retaining
  | duplicate i j mm area area' =>
    rw [Event.run, State.duplicate]
    split <;> exact kept.of_eq rfl rfl rfl
  | unmap i =>
    rw [Event.run, State.unmap]
    split <;> exact kept.of_eq rfl rfl rfl
  | free file mm start i =>
    rw [Event.run, State.unmap]
    split <;> exact kept.of_eq rfl rfl rfl
  | close file => exact kept.close retaining
  | submit r file mm q stack => exact kept.of_eq rfl rfl rfl
  | share r env =>
    rw [Event.run, State.share]
    split
    · exact kept
    · split
      · dsimp only
        split <;> exact kept.of_eq rfl rfl rfl
      · exact kept
  | finish r writeBack =>
    rw [Event.run, State.finish]
    split
    · exact kept
    · split <;> exact kept.of_eq rfl rfl rfl
  | unshare r =>
    rw [Event.run, State.unshare]
    split
    · exact kept
    · split <;> exact kept.of_eq rfl rfl rfl
  | done r =>
    rw [Event.run, State.done]
    split
    · exact kept
    · split <;> exact kept.of_eq rfl rfl rfl

theorem RetainingReach.inv (reach : RetainingReach pmem s) : Inv s ∧ Kept s := by
  induction reach with
  | refl => exact ⟨inv_init, nofun, rfl⟩
  | tail _ step ih =>
    obtain ⟨e, ⟨allowed, careful, retaining⟩, rfl⟩ := step
    exact ⟨ih.1.step allowed careful, ih.2.step allowed retaining⟩

/-- An area or a request in flight refers to what is at the address. -/
def State.InUse (s : State) (p : ULong) : Prop :=
  (∃ i v, s.vmas i = some v ∧ v.privateData.address = p) ∨
    ∃ r rq f, s.requests r = some rq ∧ rq.Refers f p

/-- Every allocation made through a file that is closed was returned to the pool, unless it is in
use; if its address was used again since, that is another allocation. -/
def State.ReturnsAll (s : State) : Prop :=
  ∀ n file p, s.arena.made[n]? = some (file, p) → s.closed file = true →
    (s.arena.serial p = n → ¬ s.InUse p) → n ∈ s.arena.returned

/-- In every state of every run that is careful and retaining. -/
theorem retainingReach_returnsAll (reach : RetainingReach pmem s) : s.ReturnsAll := by
  obtain ⟨inv, kept⟩ := reach.inv
  intro n file p made closed unused
  refine inv.accounts.returned_of_unowned made fun latest t own => ?_
  cases t with
  | busy =>
    obtain ⟨file', a, member, rfl⟩ := own
    have origin := inv.origin file' a member
    rw [latest, made] at origin
    obtain rfl : file = file' := (Prod.mk.inj (Option.some.inj origin)).1
    rw [kept.closed file closed] at member
    cases member
  | vma i =>
    obtain ⟨v, found, address⟩ := own
    exact unused latest (.inl ⟨i, v, found, address⟩)
  | mapping r f =>
    obtain ⟨rq, given, refers⟩ := own
    exact unused latest (.inr ⟨r, rq, f, given, refers⟩)
  | lost k =>
    rw [State.Owns, kept.lost] at own
    cases own

theorem retainingReach_returnsAll_page :
    (State.init.after 0x10000000 (mapPage ++ [Event.unmap 0, Event.close 0])).arena.made =
        [(0, 0x1000)] ∧
      (State.init.after 0x10000000 (mapPage ++ [Event.unmap 0, Event.close 0])).closed 0 = true ∧
      (State.init.after 0x10000000 (mapPage ++ [Event.unmap 0, Event.close 0])).ReturnsAll := by
  have run : RetainingReach 0x10000000
      (State.init.after 0x10000000 (mapPage ++ [Event.unmap 0, Event.close 0])) := by
    refine Run.after .refl (mapPage ++ [Event.unmap 0, Event.close 0]) ?_
    refine ⟨⟨⟨rfl, le_rfl⟩, trivial, trivial⟩, ⟨⟨rfl, rfl⟩, trivial, .inl rfl⟩,
      ⟨trivial, trivial, trivial⟩, ⟨⟨rfl, ?_, nofun⟩, trivial, rfl⟩, trivial⟩
    intro i v found
    cases i with
    | zero => cases found
    | succ i => cases found
  exact ⟨rfl, rfl, retainingReach_returnsAll run⟩

/-- `vm_mmap` fails before it gets to `xvp_mmap`. -/
def vmMmapFails : List Event := [.alloc 0 0x1000 onePage, .close 0]

/-- `remap_pfn_range` fails. -/
def remapFails : List Event :=
  [.alloc 0 0x1000 onePage, .mmap 0 0 0 ⟨0x400000, 0x401000, 0⟩ (.error .enomem), .close 0]

/-- In both cases nobody refers to the page when the file is closed, and it stays allocated. -/
theorem reach_leaked :
    (Reach 0x10000000 (State.init.after 0x10000000 vmMmapFails) ∧
      ¬ (State.init.after 0x10000000 vmMmapFails).ReturnsAll) ∧
    Reach 0x10000000 (State.init.after 0x10000000 remapFails) ∧
      ¬ (State.init.after 0x10000000 remapFails).ReturnsAll := by
  refine ⟨⟨Run.after .refl vmMmapFails ?_, ?_⟩, Run.after .refl remapFails ?_, ?_⟩
  · exact ⟨⟨rfl, le_rfl⟩, ⟨rfl, nofun, nofun⟩, trivial⟩
  · intro returns
    have unused : ¬ (State.init.after 0x10000000 vmMmapFails).InUse 0x1000 := by
      rintro (⟨i, v, found, _⟩ | ⟨r, rq, f, found, _⟩) <;> cases found
    cases returns 0 0 0x1000 rfl rfl fun _ => unused
  · exact ⟨⟨rfl, le_rfl⟩, ⟨rfl, rfl⟩, ⟨rfl, nofun, nofun⟩, trivial⟩
  · intro returns
    have unused : ¬ (State.init.after 0x10000000 remapFails).InUse 0x1000 := by
      rintro (⟨i, v, found, _⟩ | ⟨r, rq, f, found, _⟩) <;> cases found
    cases returns 0 0 0x1000 rfl rfl fun _ => unused

end Leaks

end Xrp.Kernel.Holders
