import Mathlib

/-!
# Reference-counted objects in memory

Objects lie at addresses, and an address is used again when its object is gone. A program counts
the references to what is at an address, and gives an object back when the count comes to zero.
Objects are numbered in the order in which they are made, so that one can say of each of them
whether it was given back. If references are taken only to what has a reference already, and given
back only by those who have one, the counts are right: nothing is given back twice, or while there
is a reference to it.
-/

/-- The counts of references; the objects made so far, with an origin and the address of each; the
number of the last object at each address; and the objects that were given back. -/
structure Arena (ι α : Type) : Type where
  refs : α → ℤ
  made : List (ι × α)
  serial : α → ℕ
  returned : List ℕ

namespace Arena

variable {ι α τ : Type}

/-- Nothing was made yet. -/
def empty : Arena ι α := ⟨0, [], fun _ => 0, []⟩

section Operations

variable (A : Arena ι α)

/-- The counts change. If that of the given address is zero now, the object there is given back. -/
def settle (p : Option α) (refs : α → ℤ) : Arena ι α :=
  { A with
    refs := refs
    returned := A.returned ++ (p.toList.filter fun p => refs p = 0).map A.serial }

theorem settle_none (refs : α → ℤ) : A.settle none refs = { A with refs := refs } := by
  simp [settle]

variable [DecidableEq α]

/-- A new object, without a reference. -/
def reserve (i : ι) (p : α) : Arena ι α :=
  { A with
    refs := Function.update A.refs p 0
    made := A.made ++ [(i, p)]
    serial := Function.update A.serial p A.made.length }

/-- A further reference. -/
def get (p : α) : Arena ι α := { A with refs := A.refs + Pi.single p 1 }

/-- A reference less. -/
def put (p : α) : Arena ι α := A.settle (some p) (A.refs - Pi.single p 1)

/-- A new object with one reference. -/
def create (i : ι) (p : α) : Arena ι α := (A.reserve i p).get p

theorem settle_create (i : ι) (p : α) :
    (A.reserve i p).settle (some p) ((A.reserve i p).refs + Pi.single p 1) = A.create i p := by
  simp [settle, create, get, reserve]

theorem settle_discard (i : ι) (p : α) :
    (A.reserve i p).settle (some p) (A.reserve i p).refs = (A.create i p).put p := by
  simp [settle, put, create, get, reserve]

theorem put_refs (p q : α) : (A.put p).refs q = A.refs q - if q = p then 1 else 0 := by
  simp [put, settle, Pi.single_apply]

theorem put_returned (p : α) :
    (A.put p).returned = A.returned ++ if A.refs p = 1 then [A.serial p] else [] := by
  by_cases last : A.refs p = 1
  · simp [put, settle, last]
  · have more : A.refs p - 1 ≠ 0 := fun zero => last (by omega)
    simp [put, settle, last, more]

theorem create_refs (i : ι) (p q : α) :
    (A.create i p).refs q = if q = p then 1 else A.refs q := by
  by_cases same : q = p
  · subst same
    simp [create, reserve, get]
  · simp [create, reserve, get, same]

theorem create_serial (i : ι) (p q : α) :
    (A.create i p).serial q = if q = p then A.made.length else A.serial q := by
  by_cases same : q = p
  · subst same
    simp [create, reserve, get]
  · simp [create, reserve, get, same]

theorem create_origin (i : ι) (p : α) :
    (A.create i p).made[(A.create i p).serial p]? = some (i, p) := by
  rw [create_serial, if_pos rfl]
  exact List.getElem?_concat_length

theorem create_origin_ne (i : ι) {p q : α} {x : ι × α} (other : q ≠ p)
    (found : A.made[A.serial q]? = some x) :
    (A.create i p).made[(A.create i p).serial q]? = some x := by
  rw [create_serial, if_neg other]
  exact (List.getElem?_append_left (List.getElem?_eq_some_iff.mp found).1).trans found

end Operations

/-! ## Owners of references -/

/-- Every count is the number of references, by whom they are owned. What is counted was not given
back, and everything that was made and not given back is counted. -/
structure Accounts (A : Arena ι α) (owns : τ → α → Prop) : Prop where
  counted : ∀ p, ∃ T : Finset τ, (∀ t, t ∈ T ↔ owns t p) ∧ A.refs p = T.card
  live : ∀ p, 0 < A.refs p → A.serial p ∉ A.returned ∧ ∃ i, A.made[A.serial p]? = some (i, p)
  current : ∀ n i p, A.made[n]? = some (i, p) → n ∉ A.returned → A.serial p = n ∧ 0 < A.refs p
  once : A.returned.Nodup
  known : ∀ n ∈ A.returned, n < A.made.length

section Accounts

variable {A : Arena ι α} {owns owns' : τ → α → Prop} {t u : τ} {p : α} {i : ι}

theorem accounts_empty (none : ∀ (t : τ) p, ¬ owns t p) : (empty : Arena ι α).Accounts owns where
  counted p := ⟨∅, by simp [none], rfl⟩
  live p positive := absurd positive (lt_irrefl _)
  current n i p made := by cases made
  once := .nil
  known n member := by cases member

/-- An owner has a reference that is counted. -/
theorem Accounts.pos (accounts : A.Accounts owns) (own : owns t p) : 0 < A.refs p := by
  obtain ⟨T, members, count⟩ := accounts.counted p
  rw [count]
  exact Int.natCast_pos.mpr (Finset.card_pos.mpr ⟨t, (members t).mpr own⟩)

/-- Nobody has a reference to what is not counted. -/
theorem Accounts.unowned (accounts : A.Accounts owns) (gone : A.refs p ≤ 0) : ¬ owns t p :=
  fun own => absurd (accounts.pos own) (not_lt.mpr gone)

/-- Some of the owners are at most as many as are counted. -/
theorem Accounts.encard_le (accounts : A.Accounts owns) {S : Set τ} (some : ∀ t ∈ S, owns t p) :
    S.encard ≤ (A.refs p).toNat := by
  obtain ⟨T, members, count⟩ := accounts.counted p
  have within : S ⊆ T := fun t member => (members t).mpr (some t member)
  rw [count, Int.toNat_natCast, ← Set.encard_coe_eq_coe_finsetCard]
  exact Set.encard_le_encard within

/-- What somebody has a reference to was not given back. -/
theorem Accounts.held (accounts : A.Accounts owns) (own : owns t p) :
    ∃ n i, A.made[n]? = some (i, p) ∧ n ∉ A.returned := by
  obtain ⟨held, i, made⟩ := accounts.live p (accounts.pos own)
  exact ⟨_, i, made, held⟩

/-- What nobody has a reference to was given back. -/
theorem Accounts.returned_of_unowned (accounts : A.Accounts owns) {n : ℕ}
    (made : A.made[n]? = some (i, p)) (none : A.serial p = n → ∀ t, ¬ owns t p) :
    n ∈ A.returned := by
  by_contra held
  obtain ⟨same, positive⟩ := accounts.current n i p made held
  obtain ⟨T, members, count⟩ := accounts.counted p
  rw [count] at positive
  obtain ⟨t, member⟩ := Finset.card_pos.mp (Int.natCast_pos.mp positive)
  exact none same t ((members t).mp member)

theorem Accounts.congr (accounts : A.Accounts owns) (same : ∀ t p, owns' t p ↔ owns t p) :
    A.Accounts owns' where
  counted p := by
    obtain ⟨T, members, count⟩ := accounts.counted p
    exact ⟨T, fun t => (members t).trans (same t p).symm, count⟩
  live := accounts.live
  current := accounts.current
  once := accounts.once
  known := accounts.known

variable [DecidableEq α]

/-- An object is made where there is none, with one reference. -/
theorem Accounts.create (accounts : A.Accounts owns) (gone : A.refs p ≤ 0)
    (more : ∀ t' q, owns' t' q ↔ owns t' q ∨ t' = t ∧ q = p) : (A.create i p).Accounts owns' := by
  have made : (A.create i p).made = A.made ++ [(i, p)] := rfl
  have new : A.made.length ∉ A.returned := fun member => lt_irrefl _ (accounts.known _ member)
  refine ⟨?_, ?_, ?_, accounts.once, ?_⟩
  · intro q
    obtain ⟨T, members, count⟩ := accounts.counted q
    by_cases same : q = p
    · subst same
      refine ⟨{t}, ?_, by rw [create_refs, if_pos rfl]; simp⟩
      intro t'
      simp [more, accounts.unowned gone]
    · exact ⟨T, fun t' => by simp [members, more, same], by rw [create_refs, if_neg same, count]⟩
  · intro q positive
    by_cases same : q = p
    · subst same
      refine ⟨?_, i, A.create_origin i q⟩
      rw [create_serial, if_pos rfl]
      exact new
    · rw [create_refs, if_neg same] at positive
      obtain ⟨held, i', before⟩ := accounts.live q positive
      refine ⟨?_, i', A.create_origin_ne i same before⟩
      rw [create_serial, if_neg same]
      exact held
  · intro n i' q found held
    rw [made] at found
    rw [create_serial, create_refs]
    rcases Nat.lt_or_ge n A.made.length with old | new
    · rw [List.getElem?_append_left old] at found
      obtain ⟨latest, positive⟩ := accounts.current n i' q found held
      have other : q ≠ p := by
        rintro rfl
        exact absurd positive (not_lt.mpr gone)
      rw [if_neg other, if_neg other]
      exact ⟨latest, positive⟩
    · rw [List.getElem?_append_right new, List.getElem?_singleton] at found
      split_ifs at found with last
      cases found
      rw [if_pos rfl, if_pos rfl]
      exact ⟨by omega, one_pos⟩
  · intro n member
    rw [made, List.length_append]
    exact (accounts.known n member).trans_le (Nat.le_add_right _ _)

variable [DecidableEq τ]

/-- A reference is taken to something that has one. -/
theorem Accounts.get (accounts : A.Accounts owns) (other : owns u p) (fresh : ¬ owns t p)
    (more : ∀ t' q, owns' t' q ↔ owns t' q ∨ t' = t ∧ q = p) : (A.get p).Accounts owns' where
  counted q := by
    obtain ⟨T, members, count⟩ := accounts.counted q
    by_cases same : q = p
    · subst same
      refine ⟨insert t T, ?_, ?_⟩
      · intro t'
        rw [Finset.mem_insert, members, more, or_comm, and_iff_left rfl]
      · rw [Finset.card_insert_of_notMem (fun member => fresh ((members t).mp member))]
        simp [Arena.get, count]
    · exact ⟨T, fun t' => by simp [members, more, same], by simp [Arena.get, same, count]⟩
  live q positive := by
    refine accounts.live q ?_
    by_cases same : q = p
    · rw [same]
      exact accounts.pos other
    · simpa [Arena.get, same] using positive
  current n i q made held := by
    obtain ⟨latest, positive⟩ := accounts.current n i q made held
    refine ⟨latest, positive.trans_le ?_⟩
    have more : 0 ≤ (Pi.single p 1 : α → ℤ) := Pi.single_nonneg.mpr zero_le_one
    exact le_add_of_nonneg_right (more q)
  once := accounts.once
  known := accounts.known

/-- A reference is given back. -/
theorem Accounts.put (accounts : A.Accounts owns) (own : owns t p)
    (less : ∀ t' q, owns' t' q ↔ owns t' q ∧ ¬ (t' = t ∧ q = p)) : (A.put p).Accounts owns' := by
  have positive := accounts.pos own
  obtain ⟨held, i, made⟩ := accounts.live p positive
  refine ⟨?_, ?_, ?_, ?_, ?_⟩
  · intro q
    obtain ⟨T, members, count⟩ := accounts.counted q
    by_cases same : q = p
    · subst same
      have member := (members t).mpr own
      refine ⟨T.erase t, ?_, ?_⟩
      · intro t'
        rw [Finset.mem_erase, members, less, and_comm, and_iff_left rfl]
      · have := Finset.card_pos.mpr ⟨t, member⟩
        rw [put_refs, if_pos rfl, count, Finset.card_erase_of_mem member]
        omega
    · exact ⟨T, fun t' => by simp [members, less, same], by rw [put_refs, if_neg same, count]; simp⟩
  · intro q positive'
    rw [put_refs] at positive'
    have before : 0 < A.refs q := by
      split_ifs at positive' <;> omega
    obtain ⟨held', i', made'⟩ := accounts.live q before
    refine ⟨?_, i', made'⟩
    rw [put_returned, List.mem_append, not_or]
    refine ⟨held', ?_⟩
    split_ifs with last
    · intro member
      have same : A.serial q = A.serial p := List.mem_singleton.mp member
      rw [same, made] at made'
      have here : q = p := congrArg Prod.snd (Option.some.inj made').symm
      rw [if_pos here, here] at positive'
      omega
    · exact List.not_mem_nil
  · intro n i' q made' held'
    rw [put_returned, List.mem_append, not_or] at held'
    obtain ⟨latest, before⟩ := accounts.current n i' q made' held'.1
    refine ⟨latest, ?_⟩
    rw [put_refs]
    split_ifs with same
    · subst same
      have : A.refs q ≠ 1 := by
        intro last
        rw [if_pos last] at held'
        exact held'.2 (List.mem_singleton.mpr latest.symm)
      omega
    · omega
  · rw [put_returned]
    split_ifs
    · refine List.nodup_append.mpr ⟨accounts.once, List.nodup_singleton _, ?_⟩
      intro n before m now same
      rw [List.mem_singleton] at now
      exact held (now ▸ same ▸ before)
    · rw [List.append_nil]
      exact accounts.once
  · intro n member
    rw [put_returned, List.mem_append] at member
    rcases member with before | now
    · exact accounts.known n before
    · split_ifs at now
      · rw [List.mem_singleton.mp now]
        exact (List.getElem?_eq_some_iff.mp made).1
      · cases now

/-- An object is made, and given back at once. -/
theorem Accounts.discard [Nonempty τ] (accounts : A.Accounts owns) (gone : A.refs p ≤ 0) :
    ((A.create i p).put p).Accounts owns := by
  obtain ⟨t⟩ := ‹Nonempty τ›
  have created : (A.create i p).Accounts fun t' q => owns t' q ∨ t' = t ∧ q = p :=
    accounts.create gone fun _ _ => Iff.rfl
  refine created.put (t := t) (.inr ⟨rfl, rfl⟩) ?_
  intro t' q
  constructor
  · intro own
    refine ⟨.inl own, ?_⟩
    rintro ⟨rfl, rfl⟩
    exact accounts.unowned gone own
  · rintro ⟨own | new, other⟩
    · exact own
    · exact absurd new other

/-- A reference changes hands. -/
theorem Accounts.transfer (accounts : A.Accounts owns) (own : owns t p) (fresh : ¬ owns u p)
    (moved : ∀ t' q, owns' t' q ↔ owns t' q ∧ ¬ (t' = t ∧ q = p) ∨ t' = u ∧ q = p) :
    A.Accounts owns' := by
  refine ⟨?_, accounts.live, accounts.current, accounts.once, accounts.known⟩
  intro q
  obtain ⟨T, members, count⟩ := accounts.counted q
  by_cases same : q = p
  · subst same
    have member := (members t).mpr own
    have absent : u ∉ T.erase t := fun there =>
      fresh ((members u).mp (Finset.mem_of_mem_erase there))
    refine ⟨insert u (T.erase t), ?_, ?_⟩
    · intro t'
      rw [Finset.mem_insert, Finset.mem_erase, members, moved]
      tauto
    · have := Finset.card_pos.mpr ⟨t, member⟩
      rw [Finset.card_insert_of_notMem absent, Finset.card_erase_of_mem member, count]
      omega
  · exact ⟨T, fun t' => by simp [members, moved, same], count⟩

end Accounts

end Arena
