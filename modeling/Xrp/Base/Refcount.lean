import Mathlib

/-!
# Reference counts

A program sees how many references to an object there are, not who has them. Here the
holders are kept beside the count. As long as a reference is taken by someone new and given
back by a holder, the count is exact, and then a holder that finds the count at one is alone.
-/

/-- A count of references and those who have them. -/
structure Refcounted (τ : Type) : Type where
  count : ℕ
  holders : Finset τ

namespace Refcounted

variable {τ : Type}

/-- No references. -/
def empty : Refcounted τ := ⟨0, ∅⟩

/-- The first reference. -/
def alloc (t : τ) : Refcounted τ := ⟨1, {t}⟩

/-- The count is the number of holders. -/
def Exact (r : Refcounted τ) : Prop := r.count = r.holders.card

variable {r : Refcounted τ} {t : τ}

theorem exact_empty : (empty : Refcounted τ).Exact := rfl

theorem exact_alloc (t : τ) : (alloc t).Exact := rfl

/-- A holder of the only reference is the only holder. -/
theorem Exact.holders_eq (exact : r.Exact) (holds : t ∈ r.holders) (last : r.count = 1) :
    r.holders = {t} := by
  obtain ⟨u, alone⟩ := Finset.card_eq_one.mp (exact.symm.trans last)
  rw [alone, Finset.mem_singleton] at holds
  rw [alone, holds]

/-- The only holder has the only reference. -/
theorem Exact.count_eq (exact : r.Exact) (alone : r.holders = {t}) : r.count = 1 := by
  rw [exact, alone, Finset.card_singleton]

theorem Exact.count_pos (exact : r.Exact) (holds : t ∈ r.holders) : 0 < r.count := by
  rw [exact]
  exact Finset.card_pos.mpr ⟨t, holds⟩

theorem Exact.holders_eq_empty (exact : r.Exact) : r.holders = ∅ ↔ r.count = 0 := by
  rw [exact, Finset.card_eq_zero]

variable [DecidableEq τ]

/-- A further reference. -/
def retain (r : Refcounted τ) (t : τ) : Refcounted τ := ⟨r.count + 1, insert t r.holders⟩

/-- A reference less. -/
def release (r : Refcounted τ) (t : τ) : Refcounted τ := ⟨r.count - 1, r.holders.erase t⟩

/-- A reference changes hands. -/
def transfer (r : Refcounted τ) (t u : τ) : Refcounted τ := ⟨r.count, insert u (r.holders.erase t)⟩

theorem Exact.retain (exact : r.Exact) (fresh : t ∉ r.holders) : (r.retain t).Exact := by
  rw [Exact, Refcounted.retain, Finset.card_insert_of_notMem fresh, exact]

theorem Exact.release (exact : r.Exact) (holds : t ∈ r.holders) : (r.release t).Exact := by
  rw [Exact, Refcounted.release, Finset.card_erase_of_mem holds, exact]

theorem Exact.transfer {u : τ} (exact : r.Exact) (holds : t ∈ r.holders) (fresh : u ∉ r.holders) :
    (r.transfer t u).Exact := by
  have absent : u ∉ r.holders.erase t := fun member => fresh (Finset.mem_of_mem_erase member)
  rw [Exact, Refcounted.transfer, Finset.card_insert_of_notMem absent,
    Finset.card_erase_of_mem holds, exact, Nat.sub_add_cancel (Finset.card_pos.mpr ⟨t, holds⟩)]

/-- Where there is a second reference, one remains. -/
theorem Exact.release_nonempty (exact : r.Exact) (holds : t ∈ r.holders) (more : r.count ≠ 1) :
    (r.release t).holders.Nonempty := by
  rw [Refcounted.release, ← Finset.card_pos, Finset.card_erase_of_mem holds, ← exact]
  have positive := exact.count_pos holds
  omega

end Refcounted
