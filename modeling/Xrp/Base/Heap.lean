import Mathlib

/-!
# Allocated cells and their owners

Cells are numbered in the order in which they are allocated, so that a number is never used again.
What is freed is logged, also where it is not a cell at all. If every owner's cells are allocated
and no cell has two owners, an owner may free its cells without harm to the others.
-/

/-- The cells that are allocated, and what was freed so far; `none` is not a cell. -/
structure Heap : Type where
  next : ℕ
  live : Finset ℕ
  freed : List (Option ℕ)

namespace Heap

variable {h h' h'' : Heap} {as bs : List ℕ} {a : ℕ}

/-- Nothing was allocated yet. -/
def empty : Heap := ⟨0, ∅, []⟩

/-- A new cell. -/
def alloc (h : Heap) : Heap := ⟨h.next + 1, insert h.next h.live, h.freed⟩

/-- A cell is given back. -/
def free (h : Heap) (a : Option ℕ) : Heap :=
  ⟨h.next, a.elim h.live h.live.erase, h.freed ++ [a]⟩

/-- Cells are given back one after another. -/
def freeAll (h : Heap) (as : List ℕ) : Heap := as.foldl (fun h a => h.free (some a)) h

theorem freeAll_append (h : Heap) (as bs : List ℕ) :
    h.freeAll (as ++ bs) = (h.freeAll as).freeAll bs := List.foldl_append

/-- The second heap is the first with cells that are new. -/
structure Grows (h : Heap) (as : List ℕ) (h' : Heap) : Prop where
  le : h.next ≤ h'.next
  nodup : as.Nodup
  fresh : ∀ a ∈ as, h.next ≤ a ∧ a < h'.next
  live : ∀ a, a ∈ h'.live ↔ a ∈ h.live ∨ a ∈ as
  freed : h'.freed = h.freed

theorem Grows.refl (h : Heap) : h.Grows [] h := ⟨le_rfl, .nil, by simp, by simp, rfl⟩

theorem Grows.alloc (h : Heap) : h.Grows [h.next] h.alloc where
  le := Nat.le_succ _
  nodup := List.nodup_singleton _
  fresh a member := by
    rw [List.mem_singleton] at member
    rw [member]
    exact ⟨le_rfl, Nat.lt_succ_self _⟩
  live a := by
    rw [Heap.alloc, Finset.mem_insert, List.mem_singleton, or_comm]
  freed := rfl

theorem Grows.trans (first : h.Grows as h') (second : h'.Grows bs h'') :
    h.Grows (as ++ bs) h'' where
  le := first.le.trans second.le
  nodup := by
    refine List.nodup_append.mpr ⟨first.nodup, second.nodup, ?_⟩
    intro a left b right same
    have := first.fresh a left
    have := second.fresh b right
    omega
  fresh a member := by
    rcases List.mem_append.mp member with left | right
    · exact ⟨(first.fresh a left).1, (first.fresh a left).2.trans_le second.le⟩
    · exact ⟨first.le.trans (second.fresh a right).1, (second.fresh a right).2⟩
  live a := by rw [second.live, first.live, List.mem_append, or_assoc]
  freed := second.freed.trans first.freed

theorem Grows.perm (grows : h.Grows as h') (perm : as.Perm bs) : h.Grows bs h' where
  le := grows.le
  nodup := perm.nodup_iff.mp grows.nodup
  fresh a member := grows.fresh a (perm.mem_iff.mpr member)
  live a := by rw [grows.live, perm.mem_iff]
  freed := grows.freed

/-! ## Owners -/

/-- The cells of every owner are allocated, and no cell has two owners. What is allocated, or is
yet to be, was not freed. -/
structure Owned {ι : Type} (h : Heap) (owns : ι → ℕ → Prop) : Prop where
  live : ∀ {i a}, owns i a → a ∈ h.live
  unique : ∀ {i j a}, owns i a → owns j a → i = j
  below : ∀ a ∈ h.live, a < h.next
  unfreed : ∀ a, some a ∈ h.freed → a ∉ h.live ∧ a < h.next

section Owned

variable {ι : Type} {owns owns' : ι → ℕ → Prop}

theorem Owned.mono (owned : h.Owned owns) (fewer : ∀ i a, owns' i a → owns i a) :
    h.Owned owns' where
  live own := owned.live (fewer _ _ own)
  unique own own' := owned.unique (fewer _ _ own) (fewer _ _ own')
  below := owned.below
  unfreed := owned.unfreed

/-- New cells get owners. -/
theorem Owned.grow (owned : h.Owned owns) (grows : h.Grows as h')
    (new : ∀ i a, owns' i a → owns i a ∨ a ∈ as)
    (unique : ∀ {i j a}, a ∈ as → owns' i a → owns' j a → i = j) : h'.Owned owns' where
  live := by
    intro i a own
    rcases new i a own with old | fresh
    · exact (grows.live a).mpr (.inl (owned.live old))
    · exact (grows.live a).mpr (.inr fresh)
  unique := by
    intro i j a own own'
    by_cases fresh : a ∈ as
    · exact unique fresh own own'
    · exact owned.unique ((new i a own).resolve_right fresh) ((new j a own').resolve_right fresh)
  below a member := by
    rcases (grows.live a).mp member with old | fresh
    · exact (owned.below a old).trans_le grows.le
    · exact (grows.fresh a fresh).2
  unfreed a freed := by
    rw [grows.freed] at freed
    obtain ⟨dead, below⟩ := owned.unfreed a freed
    refine ⟨fun member => ?_, below.trans_le grows.le⟩
    rcases (grows.live a).mp member with old | fresh
    · exact dead old
    · exact absurd below (not_lt.mpr (grows.fresh a fresh).1)

/-- New cells that nobody owns. -/
theorem Owned.leak (owned : h.Owned owns) (grows : h.Grows as h') : h'.Owned owns := by
  refine owned.grow grows (fun i a own => .inl own) ?_
  intro i j a fresh own _
  exact absurd (owned.below a (owned.live own)) (not_lt.mpr (grows.fresh a fresh).1)

/-- An owner frees a cell that it does not own any more. -/
theorem Owned.free (owned : h.Owned owns) (allocated : a ∈ h.live)
    (others : ∀ i b, owns' i b → owns i b ∧ b ≠ a) : (h.free (some a)).Owned owns' where
  live own := Finset.mem_erase.mpr ⟨(others _ _ own).2, owned.live (others _ _ own).1⟩
  unique own own' := owned.unique (others _ _ own).1 (others _ _ own').1
  below b member := owned.below b (Finset.mem_of_mem_erase member)
  unfreed b freed := by
    rcases List.mem_append.mp freed with before | now
    · obtain ⟨dead, below⟩ := owned.unfreed b before
      exact ⟨fun member => dead (Finset.mem_of_mem_erase member), below⟩
    · obtain rfl : b = a := Option.some.inj (List.mem_singleton.mp now)
      exact ⟨Finset.notMem_erase b h.live, owned.below b allocated⟩

/-- An owner frees all its cells. -/
theorem Owned.freeAll (owned : h.Owned owns) (nodup : as.Nodup) (allocated : ∀ a ∈ as, a ∈ h.live)
    (others : ∀ i b, owns' i b → owns i b ∧ b ∉ as) : (h.freeAll as).Owned owns' := by
  induction as generalizing h owns with
  | nil => exact owned.mono fun i a own => (others i a own).1
  | cons a as ih =>
    obtain ⟨absent, nodup⟩ := List.nodup_cons.mp nodup
    have step : (h.free (some a)).Owned fun i b => owns i b ∧ b ≠ a :=
      owned.free (allocated a List.mem_cons_self) fun i b own => own
    refine ih step nodup ?_ ?_
    · intro b member
      refine Finset.mem_erase.mpr ⟨?_, allocated b (List.mem_cons_of_mem a member)⟩
      rintro rfl
      exact absent member
    · intro i b own
      obtain ⟨old, other⟩ := others i b own
      rw [List.mem_cons, not_or] at other
      exact ⟨⟨old, other.1⟩, other.2⟩

end Owned

end Heap
