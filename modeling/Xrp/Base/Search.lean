import Mathlib

/-!
# Sorting and searching with a comparison function

Functions of C libraries that are given a comparison function: its result is
negative, zero or positive. Sorting is only known by what it promises, for a
comparison that is a strict weak order on what is sorted. Searching halves a
table, which has to be in order with respect to the key only.
-/

/-! ## Sorting -/

section Sorting

variable {α : Type*}

/-- The comparison is a strict weak order on the elements of a list. -/
structure StrictWeakOn (compare : α → α → ℤ) (l : List α) : Prop where
  swap : ∀ a ∈ l, ∀ b ∈ l, compare a b < 0 ↔ 0 < compare b a
  trans : ∀ a ∈ l, ∀ b ∈ l, ∀ c ∈ l, compare a b < 0 → compare b c < 0 → compare a c < 0
  equiv : ∀ a ∈ l, ∀ b ∈ l, ∀ c ∈ l, compare a b = 0 → compare b c = 0 → compare a c = 0

/-- What `sort` promises. -/
structure Sorts (sort : (α → α → ℤ) → List α → List α) : Prop where
  perm : ∀ compare l, (sort compare l).Perm l
  ordered : ∀ compare l, StrictWeakOn compare l →
    (sort compare l).Pairwise fun a b => compare a b ≤ 0

variable {compare : α → α → ℤ} {l : List α}

theorem StrictWeakOn.le_trans (order : StrictWeakOn compare l) {a b c : α} (a_mem : a ∈ l)
    (b_mem : b ∈ l) (c_mem : c ∈ l) (le : compare a b ≤ 0) (le' : compare b c ≤ 0) :
    compare a c ≤ 0 := by
  by_contra above
  have below : compare c a < 0 := (order.swap c c_mem a a_mem).mpr (not_le.mp above)
  rcases lt_or_eq_of_le le with less | equal
  · have less' := order.trans c c_mem a a_mem b b_mem below less
    exact absurd ((order.swap c c_mem b b_mem).mp less') (not_lt.mpr le')
  · rcases lt_or_eq_of_le le' with less' | equal'
    · have less := order.trans b b_mem c c_mem a a_mem less' below
      exact absurd ((order.swap b b_mem a a_mem).mp less) (not_lt.mpr le)
    · exact above (order.equiv a a_mem b b_mem c c_mem equal equal').le

/-- There is a function that sorts. -/
theorem sorts_mergeSort :
    Sorts fun (compare : α → α → ℤ) l =>
      (l.attach.mergeSort fun a b => compare a b ≤ 0).map Subtype.val where
  perm compare l := by
    have perm := (List.mergeSort_perm l.attach fun a b => compare a b ≤ 0).map Subtype.val
    rwa [List.attach_map_subtype_val] at perm
  ordered compare l order := by
    rw [List.pairwise_map]
    refine (List.pairwise_mergeSort ?_ ?_ l.attach).imp of_decide_eq_true
    · intro a b c le le'
      exact decide_eq_true (order.le_trans a.2 b.2 c.2 (of_decide_eq_true le)
        (of_decide_eq_true le'))
    · intro a b
      rcases le_or_gt (compare a b) 0 with le | above
      · simp [le]
      · simp [((order.swap b b.2 a a.2).mpr above).le]

end Sorting

/-! ## Searching -/

section Searching

variable {α : Type*}

/-- `bsearch`: look at the middle, and go on above or below it. -/
def bsearch (compare : α → ℤ) (table : List α) : Option α :=
  match split : table.drop (table.length / 2) with
  | [] => none
  | pivot :: above =>
    if compare pivot = 0 then some pivot
    else if 0 < compare pivot then bsearch compare above
    else bsearch compare (table.take (table.length / 2))
termination_by table.length
decreasing_by
  · have length := congrArg List.length split
    simp only [List.length_drop, List.length_cons] at length
    omega
  · have length := congrArg List.length split
    simp only [List.length_drop, List.length_cons, List.length_take] at length ⊢
    omega

/-- The table is in order with respect to the key: above it, equal, below it. -/
def InOrder (compare : α → ℤ) (table : List α) : Prop :=
  table.Pairwise fun a b => (0 < compare b → 0 < compare a) ∧ (compare a < 0 → compare b < 0)

variable {compare : α → ℤ} {table : List α}

theorem mem_of_bsearch {e : α} (found : bsearch compare table = some e) :
    e ∈ table ∧ compare e = 0 := by
  induction table using bsearch.induct compare with
  | case1 table split =>
    rw [bsearch, split] at found
    cases found
  | case2 table pivot above split equal =>
    rw [bsearch, split] at found
    simp only [equal, if_true, Option.some.injEq] at found
    subst found
    exact ⟨List.mem_of_mem_drop (split ▸ List.mem_cons_self), equal⟩
  | case3 table pivot above split ne pos ih =>
    rw [bsearch, split] at found
    simp only [ne, pos, if_true, if_false] at found
    exact ⟨List.mem_of_mem_drop (split ▸ List.mem_cons_of_mem _ (ih found).1), (ih found).2⟩
  | case4 table pivot above split ne pos ih =>
    rw [bsearch, split] at found
    simp only [ne, pos, if_false] at found
    exact ⟨List.mem_of_mem_take (ih found).1, (ih found).2⟩

/-- The parts of a table around its middle. -/
theorem InOrder.split {pivot : α} {above : List α} (order : InOrder compare table)
    (split : table.drop (table.length / 2) = pivot :: above) :
    InOrder compare (table.take (table.length / 2)) ∧ InOrder compare above ∧
      (∀ e ∈ table.take (table.length / 2), 0 < compare pivot → 0 < compare e) ∧
      ∀ e ∈ above, compare pivot < 0 → compare e < 0 := by
  unfold InOrder at order
  rw [← List.take_append_drop (table.length / 2) table, split, List.pairwise_append,
    List.pairwise_cons] at order
  rcases order with ⟨below, ⟨after, above⟩, across⟩
  exact ⟨below, above, fun e mem => (across e mem pivot List.mem_cons_self).1,
    fun e mem => (after e mem).2⟩

/-- What is in the table is found. -/
theorem bsearch_ne_none (order : InOrder compare table) {e : α} (mem : e ∈ table)
    (equal : compare e = 0) : bsearch compare table ≠ none := by
  induction table using bsearch.induct compare with
  | case1 table split =>
    have short := List.drop_eq_nil_iff.mp split
    have empty : table = [] := List.length_eq_zero_iff.mp (by omega)
    rw [empty] at mem
    cases mem
  | case2 table pivot above split zero =>
    rw [bsearch, split]
    simp [zero]
  | case3 table pivot above split ne pos ih =>
    rcases order.split split with ⟨-, after, below, -⟩
    rw [← List.take_append_drop (table.length / 2) table, split, List.mem_append,
      List.mem_cons] at mem
    rw [bsearch, split]
    simp only [ne, pos, if_true, if_false]
    rcases mem with mem | rfl | mem
    · exact absurd equal (below e mem pos).ne'
    · exact absurd equal ne
    · exact ih after mem
  | case4 table pivot above split ne pos ih =>
    rcases order.split split with ⟨before, -, -, after⟩
    rw [← List.take_append_drop (table.length / 2) table, split, List.mem_append,
      List.mem_cons] at mem
    rw [bsearch, split]
    simp only [ne, pos, if_false]
    rcases mem with mem | rfl | mem
    · exact ih before mem
    · exact absurd equal ne
    · exact absurd equal (after e mem (lt_of_le_of_ne (not_lt.mp pos) ne)).ne

end Searching
