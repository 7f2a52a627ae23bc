import Mathlib

/-!
# Block writes

A memory is a function from addresses to cells. A block write replaces
consecutive cells and leaves the others alone. After a list of block writes, a
cell that none of them covers is as before, and one that is covered does not
depend on what was in it before.
-/

/-- A write of `size` cells from `dst` on. -/
structure Blit (α : Type*) where
  dst : ℕ
  size : ℕ
  contents : ℕ → α

namespace Blit

variable {α : Type*}

/-- The address is one of those written. -/
def Covers (b : Blit α) (a : ℕ) : Prop := b.dst ≤ a ∧ a < b.dst + b.size

instance (b : Blit α) (a : ℕ) : Decidable (b.Covers a) := inferInstanceAs (Decidable (_ ∧ _))

/-- The memory after a write. -/
def apply (b : Blit α) (m : ℕ → α) : ℕ → α :=
  fun a => if b.Covers a then b.contents (a - b.dst) else m a

/-- The memory after writes in order. -/
def applyAll (bs : List (Blit α)) (m : ℕ → α) : ℕ → α := bs.foldl (fun m b => b.apply m) m

variable {b : Blit α} {bs : List (Blit α)} {m : ℕ → α} {a : ℕ}

theorem apply_of_covers (covers : b.Covers a) : b.apply m a = b.contents (a - b.dst) :=
  if_pos covers

theorem apply_of_not_covers (apart : ¬ b.Covers a) : b.apply m a = m a := if_neg apart

theorem apply_add {n i : ℕ} {contents : ℕ → α} (less : i < n) :
    (mk a n contents).apply m (a + i) = contents i := by
  have covers : (mk a n contents).Covers (a + i) :=
    ⟨Nat.le_add_right a i, Nat.add_lt_add_left less a⟩
  rw [apply_of_covers covers]
  exact congrArg contents (Nat.add_sub_cancel_left ..)

theorem apply_outside {n x : ℕ} {contents : ℕ → α} (outside : x < a ∨ a + n ≤ x) :
    (mk a n contents).apply m x = m x := by
  refine apply_of_not_covers fun covers => ?_
  dsimp only [Covers] at covers
  omega

/-- Only the contents of the cells that are written matter. -/
theorem apply_congr {n : ℕ} {contents contents' : ℕ → α}
    (same : ∀ i < n, contents i = contents' i) :
    (mk a n contents).apply m = (mk a n contents').apply m := by
  funext x
  by_cases covers : (mk a n contents).Covers x
  · have covers' : (mk a n contents').Covers x := covers
    have inside : x - a < n := by
      dsimp only [Covers] at covers
      omega
    rw [apply_of_covers covers, apply_of_covers covers']
    exact same _ inside
  · have apart : ¬ (mk a n contents').Covers x := covers
    rw [apply_of_not_covers covers, apply_of_not_covers apart]

/-- A write of one cell. -/
theorem apply_one (contents : ℕ → α) :
    (mk a 1 contents).apply m = Function.update m a (contents 0) := by
  funext x
  by_cases here : x = a
  · rw [here, apply_of_covers ⟨le_rfl, Nat.lt_succ_self a⟩, Function.update_self]
    exact congrArg contents (Nat.sub_self a)
  · rw [Function.update_of_ne here, apply_of_not_covers]
    dsimp only [Covers]
    omega

/-- A write of no cells changes nothing. -/
theorem apply_of_size_eq_zero (empty : b.size = 0) : b.apply m = m := by
  funext a
  refine apply_of_not_covers fun covers => ?_
  have upper := covers.2
  have lower := covers.1
  omega

/-- A write and one that starts where it ends are one write. -/
theorem apply_apply_adjacent {n k : ℕ} (contents : ℕ → α) :
    (mk (a + n) k fun i => contents (n + i)).apply ((mk a n contents).apply m) =
      (mk a (n + k) contents).apply m := by
  funext x
  have split : (mk a (n + k) contents).Covers x ↔
      (mk (a + n) k fun i => contents (n + i)).Covers x ∨ (mk a n contents).Covers x := by
    dsimp only [Covers]
    omega
  by_cases second : (mk (a + n) k fun i => contents (n + i)).Covers x
  · have index : n + (x - (a + n)) = x - a := by
      have lower : a + n ≤ x := second.1
      omega
    rw [apply_of_covers second, apply_of_covers (split.mpr (.inl second))]
    dsimp only
    rw [index]
  · rw [apply_of_not_covers second]
    by_cases first : (mk a n contents).Covers x
    · rw [apply_of_covers first, apply_of_covers (split.mpr (.inr first))]
    · rw [apply_of_not_covers first,
        apply_of_not_covers fun whole => (split.mp whole).elim second first]

@[simp] theorem applyAll_nil : applyAll [] m = m := rfl

@[simp] theorem applyAll_cons : applyAll (b :: bs) m = applyAll bs (b.apply m) := rfl

theorem applyAll_of_not_covers (apart : ∀ b ∈ bs, ¬ b.Covers a) : applyAll bs m a = m a := by
  induction bs generalizing m with
  | nil => rfl
  | cons b bs ih =>
    rw [applyAll_cons, ih fun b' member => apart b' (List.mem_cons_of_mem _ member)]
    exact apply_of_not_covers (apart b List.mem_cons_self)

/-- The last write of a cell decides. -/
theorem applyAll_congr (covered : ∃ b ∈ bs, b.Covers a) (m m' : ℕ → α) :
    applyAll bs m a = applyAll bs m' a := by
  induction bs generalizing m m' with
  | nil => simp at covered
  | cons b bs ih =>
    rw [applyAll_cons, applyAll_cons]
    by_cases later : ∃ b' ∈ bs, b'.Covers a
    · exact ih later _ _
    · have apart : ∀ b' ∈ bs, ¬ b'.Covers a := by simpa using later
      have covers : b.Covers a := by simpa [later] using covered
      rw [applyAll_of_not_covers apart, applyAll_of_not_covers apart, apply_of_covers covers,
        apply_of_covers covers]

/-- A cell that is covered is changed in some memory. -/
theorem exists_applyAll_ne [Nontrivial α] (covered : ∃ b ∈ bs, b.Covers a) :
    ∃ m, applyAll bs m a ≠ m a := by
  obtain ⟨x, y, ne⟩ := exists_pair_ne α
  by_cases same : applyAll bs (fun _ => x) a = x
  · refine ⟨fun _ => y, ?_⟩
    rw [applyAll_congr covered _ fun _ => x, same]
    exact ne
  · exact ⟨fun _ => x, same⟩

end Blit
