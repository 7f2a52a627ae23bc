import Xrp.Base.Program

/-!
# Sorted tables in memory

A table is the first `n` slots of a memory `ℕ → α`, sorted by a key. It is
searched by bisection, where each comparison may itself be a program, and
changed by moving the slots after a position up or down. Slots from `n` on are
memory too, and the moves say what becomes of them.
-/

/-! ## Bisection -/

section Bisect

variable {m : Type → Type} [Monad m]

/-- Halve `[a, b)` until it has one slot: the lower half if what is sought is below the middle. -/
def bisect (below : ℕ → m Bool) (a b : ℕ) : m (ℕ × ℕ) :=
  if 1 < b - a then do
    if ← below ((a + b) / 2) then bisect below a ((a + b) / 2)
    else bisect below ((a + b) / 2) b
  else pure (a, b)
termination_by b - a

theorem bisect_step {below : ℕ → m Bool} {a b : ℕ} (wide : 1 < b - a) :
    bisect below a b = (do
      if ← below ((a + b) / 2) then bisect below a ((a + b) / 2)
      else bisect below ((a + b) / 2) b) := by
  rw [bisect, if_pos wide]

theorem bisect_done {below : ℕ → m Bool} {a b : ℕ} (narrow : ¬ 1 < b - a) :
    bisect below a b = pure (a, b) := by
  rw [bisect, if_neg narrow]

end Bisect

/-- Bisection with tests that are values. -/
def bisected (below : ℕ → Bool) (a b : ℕ) : ℕ × ℕ := bisect (m := Id) below a b

theorem bisected_step {below : ℕ → Bool} {a b : ℕ} (wide : 1 < b - a) :
    bisected below a b =
      if below ((a + b) / 2) then bisected below a ((a + b) / 2)
      else bisected below ((a + b) / 2) b := bisect_step wide

theorem bisected_done {below : ℕ → Bool} {a b : ℕ} (narrow : ¬ 1 < b - a) :
    bisected below a b = (a, b) := bisect_done narrow

/-- Bisection ends at two neighbours, each an end of the interval or tested. -/
theorem bisected_spec (below : ℕ → Bool) {a b : ℕ} (nonempty : a < b) :
    ∃ c, bisected below a b = (c, c + 1) ∧ a ≤ c ∧ c + 1 ≤ b ∧
      (c = a ∨ below c = false) ∧ (c + 1 = b ∨ below (c + 1) = true) := by
  induction size : b - a using Nat.strong_induction_on generalizing a b with
  | _ size' ih =>
    by_cases wide : 1 < b - a
    · rw [bisected_step wide]
      cases test : below ((a + b) / 2) with
      | true =>
        obtain ⟨c, eq, lower, upper, left, right⟩ :=
          ih ((a + b) / 2 - a) (by omega) (a := a) (b := (a + b) / 2) (by omega) rfl
        refine ⟨c, by simpa using eq, lower, by omega, left, ?_⟩
        rcases right with at_middle | tested
        · exact .inr (at_middle ▸ test)
        · exact .inr tested
      | false =>
        obtain ⟨c, eq, lower, upper, left, right⟩ :=
          ih (b - (a + b) / 2) (by omega) (a := (a + b) / 2) (b := b) (by omega) rfl
        refine ⟨c, by simpa using eq, by omega, upper, ?_, right⟩
        rcases left with at_middle | tested
        · exact .inr (at_middle ▸ test)
        · exact .inr tested
    · rw [bisected_done wide]
      exact ⟨a, by rw [show b = a + 1 by omega], le_rfl, by omega, .inl rfl, .inl (by omega)⟩

section Programs

variable {O σ : Type} {R : O → Type}

/-- Tests that leave the state alone may be taken as values. -/
theorem Program.wp_bisect {rules : Program.Rules O R σ} {below : ℕ → Program O R Bool}
    {value : ℕ → Bool} {s : σ} (a b : ℕ)
    (test : ∀ c, (below c).wp rules (fun r s' => r = value c ∧ s' = s) s) :
    (bisect below a b).wp rules (fun r s' => r = bisected value a b ∧ s' = s) s := by
  induction size : b - a using Nat.strong_induction_on generalizing a b with
  | _ size' ih =>
    by_cases wide : 1 < b - a
    · rw [bisect_step wide, bisected_step wide]
      refine (test _).bind ?_
      rintro _ _ ⟨rfl, rfl⟩
      cases value ((a + b) / 2) with
      | true => exact ih _ (by omega) _ _ rfl
      | false => exact ih _ (by omega) _ _ rfl
    · rw [bisect_done wide, bisected_done wide]
      exact ⟨rfl, rfl⟩

theorem Program.only_bisect {P : O → Prop} {below : ℕ → Program O R Bool} (a b : ℕ)
    (test : ∀ c, (below c).Only P) : (bisect below a b).Only P := by
  induction size : b - a using Nat.strong_induction_on generalizing a b with
  | _ size' ih =>
    by_cases wide : 1 < b - a
    · rw [bisect_step wide]
      refine (test _).bind fun lower => ?_
      cases lower with
      | true => exact ih _ (by omega) _ _ rfl
      | false => exact ih _ (by omega) _ _ rfl
    · rw [bisect_done wide]
      exact trivial

theorem Program.run_bisect {act : (o : O) → σ → R o × σ} {below : ℕ → Program O R Bool}
    {value : ℕ → Bool} {s : σ} (a b : ℕ) (test : ∀ c, (below c).run act s = (value c, s)) :
    (bisect below a b).run act s = (bisected value a b, s) := by
  induction size : b - a using Nat.strong_induction_on generalizing a b with
  | _ size' ih =>
    by_cases wide : 1 < b - a
    · rw [bisect_step wide, bisected_step wide, Program.run_bind, test]
      cases value ((a + b) / 2) with
      | true => exact ih _ (by omega) _ _ rfl
      | false => exact ih _ (by omega) _ _ rfl
    · rw [bisect_done wide, bisected_done wide]
      rfl

end Programs

/-! ## Sorted slots -/

section Sorted

variable {α κ : Type} [LinearOrder κ] {key : α → κ} {slots : ℕ → α} {n p : ℕ} {k : κ}

/-- The first `n` slots have increasing keys. -/
def SortedSlots (key : α → κ) (slots : ℕ → α) (n : ℕ) : Prop :=
  ∀ i j, i < j → j < n → key (slots i) < key (slots j)

/-- `p` is the place of `k`: smaller keys are before it, and no others. -/
structure SlotFor (key : α → κ) (slots : ℕ → α) (n : ℕ) (k : κ) (p : ℕ) : Prop where
  le : p ≤ n
  before : ∀ i, i < p → key (slots i) < k
  after : ∀ i, p ≤ i → i < n → k ≤ key (slots i)

/-- The slots from `i` on move up, over the first slot behind the table. -/
def shiftUp (slots : ℕ → α) (n i : ℕ) : ℕ → α :=
  fun j => if i < j ∧ j ≤ n then slots (j - 1) else slots j

/-- The slots behind `i` move down; the last slot of the table stays behind it. -/
def shiftDown (slots : ℕ → α) (n i : ℕ) : ℕ → α :=
  fun j => if i ≤ j ∧ j < n - 1 then slots (j + 1) else slots j

/-- The slot that bisection and one more comparison end at. -/
def bisectedSlot (above below : ℕ → Bool) (n : ℕ) : ℕ :=
  let (a, b) := bisected below 0 n
  if a < b then if above a then a + 1 else a else a

theorem SortedSlots.le {i j : ℕ} (sorted : SortedSlots key slots n) (le : i ≤ j) (lt : j < n) :
    key (slots i) ≤ key (slots j) := by
  rcases le.eq_or_lt with rfl | less
  · exact le_rfl
  · exact (sorted i j less lt).le

theorem SortedSlots.inj {i j : ℕ} (sorted : SortedSlots key slots n) (hi : i < n) (hj : j < n)
    (same : key (slots i) = key (slots j)) : i = j := by
  rcases lt_trichotomy i j with less | equal | less
  · exact absurd same (sorted i j less hj).ne
  · exact equal
  · exact absurd same (sorted j i less hi).ne'

/-- Bisection of sorted slots finds the place of the key. -/
theorem SortedSlots.slotFor {above below : ℕ → Bool} (sorted : SortedSlots key slots n)
    (above_iff : ∀ c, above c = true ↔ key (slots c) < k)
    (below_iff : ∀ c, below c = true ↔ k < key (slots c)) :
    SlotFor key slots n k (bisectedSlot above below n) := by
  rcases Nat.eq_zero_or_pos n with rfl | nonempty
  · have none : bisected below 0 0 = (0, 0) := bisected_done (by omega)
    simp only [bisectedSlot, none]
    exact ⟨by simp, by simp, by simp⟩
  obtain ⟨c, eq, -, upper, left, right⟩ := bisected_spec below nonempty
  have behind : ∀ i, c + 1 ≤ i → i < n → k ≤ key (slots i) := by
    intro i le lt
    rcases right with atEnd | tested
    · omega
    · exact ((below_iff _).mp tested).le.trans (sorted.le le lt)
  simp only [bisectedSlot, eq, Nat.lt_succ_self, if_true]
  split_ifs with test
  · refine ⟨upper, ?_, behind⟩
    intro i lt
    exact (sorted.le (by omega) (by omega)).trans_lt ((above_iff c).mp test)
  · have reached : k ≤ key (slots c) := not_lt.mp fun less => test ((above_iff c).mpr less)
    refine ⟨by omega, ?_, ?_⟩
    · intro i lt
      rcases left with rfl | tested
      · omega
      · have above : key (slots c) ≤ k := by
          rw [← not_lt, ← below_iff, tested]
          simp
        exact (sorted i c lt (by omega)).trans_le above
    · intro i le lt
      rcases le.eq_or_lt with rfl | less
      · exact reached
      · exact behind i less lt

/-- The key is in the table if and only if it is in the slot found. -/
theorem SlotFor.mem_iff (sorted : SortedSlots key slots n) (slot : SlotFor key slots n k p) :
    (∃ i < n, key (slots i) = k) ↔ p < n ∧ key (slots p) = k := by
  constructor
  · rintro ⟨i, lt, rfl⟩
    have le : p ≤ i := by
      by_contra less
      exact (slot.before i (by omega)).false
    have equal := le_antisymm (sorted.le le lt) (slot.after p le_rfl (by omega))
    exact ⟨by omega, equal⟩
  · rintro ⟨lt, equal⟩
    exact ⟨p, lt, equal⟩

/-! ## Insertion and removal -/

theorem shiftUp_update_lt {x : α} {j : ℕ} (lt : j < p) :
    Function.update (shiftUp slots n p) p x j = slots j := by
  rw [Function.update_of_ne (by omega), shiftUp, if_neg (by omega)]

theorem shiftUp_update_gt {x : α} {j : ℕ} (gt : p < j) (le : j ≤ n) :
    Function.update (shiftUp slots n p) p x j = slots (j - 1) := by
  rw [Function.update_of_ne (by omega), shiftUp, if_pos (by omega)]

/-- A new key goes to its place. -/
theorem SlotFor.sorted_insert {x : α} (slot : SlotFor key slots n (key x) p)
    (sorted : SortedSlots key slots n) (new : ∀ i < n, key (slots i) ≠ key x) :
    SortedSlots key (Function.update (shiftUp slots n p) p x) (n + 1) := by
  have behind : ∀ i, p ≤ i → i < n → key x < key (slots i) := fun i le lt =>
    (slot.after i le lt).lt_of_ne (new i lt).symm
  intro i j less lt
  rcases lt_trichotomy i p with hi | hi | hi
  · rw [shiftUp_update_lt hi]
    rcases lt_trichotomy j p with hj | hj | hj
    · rw [shiftUp_update_lt hj]
      exact sorted i j less (hj.trans_le slot.le)
    · rw [hj, Function.update_self]
      exact slot.before i hi
    · rw [shiftUp_update_gt hj (by omega)]
      exact sorted i (j - 1) (by omega) (by omega)
  · rw [hi, Function.update_self, shiftUp_update_gt (by omega) (by omega)]
    exact behind (j - 1) (by omega) (by omega)
  · rw [shiftUp_update_gt hi (by omega), shiftUp_update_gt (by omega) (by omega)]
    exact sorted (i - 1) (j - 1) (by omega) (by omega)

theorem mem_insert_iff {x y : α} (le : p ≤ n) :
    (∃ j < n + 1, Function.update (shiftUp slots n p) p x j = y) ↔
      y = x ∨ ∃ j < n, slots j = y := by
  constructor
  · rintro ⟨j, lt, rfl⟩
    rcases lt_trichotomy j p with less | rfl | more
    · exact .inr ⟨j, by omega, (shiftUp_update_lt less).symm⟩
    · exact .inl (Function.update_self ..)
    · exact .inr ⟨j - 1, by omega, (shiftUp_update_gt more (by omega)).symm⟩
  · rintro (rfl | ⟨j, lt, rfl⟩)
    · exact ⟨p, by omega, Function.update_self ..⟩
    · rcases lt_or_ge j p with less | more
      · exact ⟨j, by omega, shiftUp_update_lt less⟩
      · exact ⟨j + 1, by omega, shiftUp_update_gt (by omega) (by omega)⟩

theorem SortedSlots.remove (sorted : SortedSlots key slots n) :
    SortedSlots key (shiftDown slots n p) (n - 1) := by
  intro i j less lt
  simp only [shiftDown]
  split_ifs with hi hj hj
  · exact sorted _ _ (by omega) (by omega)
  · omega
  · exact sorted _ _ (by omega) (by omega)
  · exact sorted _ _ less (by omega)

theorem SortedSlots.mem_remove_iff {y : α} (sorted : SortedSlots key slots n) (lt : p < n) :
    (∃ j < n - 1, shiftDown slots n p j = y) ↔ (∃ j < n, slots j = y) ∧ key y ≠ key (slots p) := by
  have other : ∀ {j}, j < n → j ≠ p → key (slots j) ≠ key (slots p) :=
    fun below ne same => ne (sorted.inj below lt same)
  constructor
  · rintro ⟨j, below, rfl⟩
    simp only [shiftDown]
    split_ifs with moved
    · exact ⟨⟨j + 1, by omega, rfl⟩, other (by omega) (by omega)⟩
    · exact ⟨⟨j, by omega, rfl⟩, other (by omega) (by omega)⟩
  · rintro ⟨⟨j, below, rfl⟩, ne⟩
    have apart : j ≠ p := fun same => ne (same ▸ rfl)
    rcases lt_or_gt_of_ne apart with less | more
    · exact ⟨j, by omega, by rw [shiftDown, if_neg (by omega)]⟩
    · refine ⟨j - 1, by omega, ?_⟩
      rw [shiftDown, if_pos (by omega), Nat.sub_add_cancel (by omega)]

end Sorted
