import Mathlib

/-!
# Tiles

A list of non-empty ranges of natural numbers that is sorted and without overlap, where `lo` and
`hi` give the bounds of a range. At most one tile holds a number, and it is the first one that ends
behind it. Tiles that touch hold together what lies between the first and the last of them.
-/

namespace Tiles

variable {α : Type} {lo hi : α → ℕ} {l : List α} {a t u : α} {x : ℕ}

/-- The tile holds the number. -/
def Holds (lo hi : α → ℕ) (t : α) (x : ℕ) : Prop := lo t ≤ x ∧ x < hi t

/-- No tile is empty, and each one ends before the next ones begin. -/
structure Sorted (lo hi : α → ℕ) (l : List α) : Prop where
  pos : ∀ t ∈ l, lo t < hi t
  order : l.Pairwise fun a b => hi a ≤ lo b

/-- The first tile that ends behind a number. -/
def firstAbove (hi : α → ℕ) (l : List α) (x : ℕ) : Option α := l.find? fun t => x < hi t

theorem mem_of_firstAbove (found : firstAbove hi l x = some t) : t ∈ l :=
  List.mem_of_find?_eq_some found

theorem lt_of_firstAbove (found : firstAbove hi l x = some t) : x < hi t := by
  have above := List.find?_some found
  exact of_decide_eq_true above

/-- The tile that holds a number is found. -/
theorem Sorted.firstAbove_of_holds (sorted : Sorted lo hi l) (member : u ∈ l)
    (holds : Holds lo hi u x) : firstAbove hi l x = some u := by
  obtain ⟨before, after, rfl⟩ := List.append_of_mem member
  have order := (List.pairwise_append.mp sorted.order).2.2
  unfold firstAbove
  rw [List.find?_append, List.find?_eq_none.mpr, Option.none_or, List.find?_cons_of_pos]
  · exact decide_eq_true holds.2
  · intro t earlier
    have apart := order t earlier u List.mem_cons_self
    have low := holds.1
    rw [decide_eq_true_eq]
    omega

/-- A number is held by the tile that is found for it, or by none. -/
theorem Sorted.eq_of_holds (sorted : Sorted lo hi l) (found : firstAbove hi l x = some t)
    (member : u ∈ l) (holds : Holds lo hi u x) : u = t := by
  rw [sorted.firstAbove_of_holds member holds] at found
  exact Option.some.inj found

/-- A tile that begins at a number is found for it. -/
theorem Sorted.firstAbove_of_lo (sorted : Sorted lo hi l) (member : u ∈ l) (begins : lo u = x) :
    firstAbove hi l x = some u := by
  refine sorted.firstAbove_of_holds member ⟨begins.le, ?_⟩
  rw [← begins]
  exact sorted.pos u member

/-- A tile that is found for the end of another one begins there or behind. -/
theorem Sorted.le_lo_of_firstAbove (sorted : Sorted lo hi l) (member : a ∈ l)
    (found : firstAbove hi l (hi a) = some t) : hi a ≤ lo t := by
  by_contra overlap
  have above := lt_of_firstAbove found
  have pos := sorted.pos a member
  -- the last number of `a` would be held by both
  have last : firstAbove hi l (hi a - 1) = some a :=
    sorted.firstAbove_of_holds member ⟨by omega, by omega⟩
  have again : t = a :=
    sorted.eq_of_holds last (mem_of_firstAbove found) ⟨by omega, by omega⟩
  rw [again] at above
  exact lt_irrefl _ above

/-! ## Tiles that touch -/

/-- The second tile begins where the first one ends. -/
def Touch (lo hi : α → ℕ) (a b : α) : Prop := hi a = lo b

/-- What tiles that touch hold together. -/
theorem holds_chain_iff (pos : ∀ t ∈ a :: l, lo t < hi t)
    (chain : (a :: l).IsChain (Touch lo hi)) :
    (∃ t ∈ a :: l, Holds lo hi t x) ↔
      lo a ≤ x ∧ x < hi ((a :: l).getLast (List.cons_ne_nil a l)) := by
  induction l generalizing a x with
  | nil => simp [Holds]
  | cons b l ih =>
    obtain ⟨touch, rest⟩ := List.isChain_cons_cons.mp chain
    have posA := pos a List.mem_cons_self
    have posRest : ∀ t ∈ b :: l, lo t < hi t := fun t member =>
      pos t (List.mem_cons_of_mem a member)
    have first : lo b < hi ((b :: l).getLast (List.cons_ne_nil b l)) :=
      ((ih posRest rest).mp ⟨b, List.mem_cons_self, le_rfl, posRest b List.mem_cons_self⟩).2
    rw [List.getLast_cons (List.cons_ne_nil b l), List.exists_mem_cons_iff, ih posRest rest]
    unfold Holds
    unfold Touch at touch
    omega

end Tiles
