import Mathlib

/-!
# Linked queues

A queue as a chain of cells with pointers to the first and to the last cell. A cell is appended
behind the last one and taken from the front. The pointer to the last cell is cleared when the
last cell is taken, and it alone decides whether an appended cell becomes the first one. A queue
represents the list of its cells.
-/

/-- Pointers to the first and to the last cell, and from each cell to the next. -/
structure LinkedQueue (α : Type) : Type where
  head : Option α
  tail : Option α
  next : α → Option α

namespace LinkedQueue

variable {α : Type}

/-- A queue without cells. -/
def empty : LinkedQueue α := ⟨none, none, fun _ => none⟩

/-- The cells from a pointer on. -/
def Segment (next : α → Option α) : Option α → List α → Prop
  | p, [] => p = none
  | p, a :: l => p = some a ∧ Segment next (next a) l

/-- The queue has the cells of a list, in order. -/
structure Represents (q : LinkedQueue α) (l : List α) : Prop where
  segment : Segment q.next q.head l
  tail : q.tail = l.getLast?
  nodup : l.Nodup

theorem represents_empty : (empty : LinkedQueue α).Represents [] := ⟨rfl, rfl, List.nodup_nil⟩

/-- The pointer to the last cell tells if there are cells. -/
theorem Represents.tail_eq_none_iff {q : LinkedQueue α} {l : List α} (rep : q.Represents l) :
    q.tail = none ↔ l = [] := by
  rw [rep.tail, List.getLast?_eq_none_iff]

variable [DecidableEq α]

/-- A cell is appended. -/
def push (q : LinkedQueue α) (a : α) : LinkedQueue α :=
  let next := Function.update q.next a none
  match q.tail with
  | some t => ⟨q.head, some a, Function.update next t (some a)⟩
  | none => ⟨some a, some a, next⟩

/-- The first cell is taken. -/
def pop (q : LinkedQueue α) : Option (α × LinkedQueue α) :=
  match q.head with
  | some a => some (a, ⟨q.next a, if q.tail = some a then none else q.tail, q.next⟩)
  | none => none

variable {q q' : LinkedQueue α} {l : List α} {a t : α} {p : Option α} {next : α → Option α}

theorem Segment.append (segment : Segment next p l) (last : l.getLast? = some t) (nodup : l.Nodup)
    (fresh : a ∉ l) :
    Segment (Function.update (Function.update next a none) t (some a)) p (l ++ [a]) := by
  induction l generalizing p with
  | nil => cases last
  | cons b l ih =>
    obtain ⟨here, rest⟩ := segment
    refine ⟨here, ?_⟩
    have other : b ≠ a := fun same => fresh (same ▸ List.mem_cons_self)
    cases l with
    | nil =>
      have same : b = t := Option.some.inj last
      subst same
      rw [Function.update_self]
      refine ⟨rfl, ?_⟩
      rw [Function.update_of_ne other.symm, Function.update_self]
      rfl
    | cons c l =>
      rw [List.getLast?_cons_cons] at last
      have before : b ≠ t := fun same =>
        (List.nodup_cons.mp nodup).1 (same ▸ List.mem_of_getLast? last)
      rw [Function.update_of_ne before, Function.update_of_ne other]
      exact ih rest last (List.nodup_cons.mp nodup).2 fun member =>
        fresh (List.mem_cons_of_mem b member)

theorem Represents.push (rep : q.Represents l) (fresh : a ∉ l) :
    (q.push a).Represents (l ++ [a]) := by
  have nodup : (l ++ [a]).Nodup := by
    rw [List.nodup_append_comm, List.singleton_append, List.nodup_cons]
    exact ⟨fresh, rep.nodup⟩
  cases last : q.tail with
  | none =>
    have empty := rep.tail_eq_none_iff.mp last
    subst empty
    simp only [LinkedQueue.push, last]
    exact ⟨⟨rfl, Function.update_self _ _ _⟩, rfl, nodup⟩
  | some t =>
    simp only [LinkedQueue.push, last]
    refine ⟨rep.segment.append (rep.tail.symm.trans last) rep.nodup fresh, ?_, nodup⟩
    exact (List.getLast?_concat).symm

theorem Represents.pop_eq_none_iff (rep : q.Represents l) : q.pop = none ↔ l = [] := by
  have segment := rep.segment
  unfold LinkedQueue.pop
  cases l with
  | nil => simp [show q.head = none from segment]
  | cons a l => simp [segment.1]

theorem Represents.pop (rep : q.Represents l) (popped : q.pop = some (a, q')) :
    ∃ rest, l = a :: rest ∧ q'.Represents rest := by
  have segment := rep.segment
  unfold LinkedQueue.pop at popped
  cases l with
  | nil => simp [show q.head = none from segment] at popped
  | cons b rest =>
    simp only [segment.1, Option.some.injEq, Prod.mk.injEq] at popped
    obtain ⟨rfl, rfl⟩ := popped
    refine ⟨rest, rfl, segment.2, ?_, (List.nodup_cons.mp rep.nodup).2⟩
    have last := rep.tail
    cases rest with
    | nil => exact if_pos last
    | cons c rest =>
      rw [List.getLast?_cons_cons] at last
      rw [if_neg, last]
      intro same
      exact (List.nodup_cons.mp rep.nodup).1 (List.mem_of_getLast? (last.symm.trans same))

end LinkedQueue
