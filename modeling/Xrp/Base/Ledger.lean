import Mathlib

/-!
# Ledgers

Counts of the references to objects, and a log of what was done when objects came to their end.
A ledger is exact for an account of the references if the counts agree with it, and if what is
due at the end of an object was done once for objects without references and not at all for the
others. The order of the log does not matter.
-/

/-- Counts of references, and what was done so far. -/
structure Ledger (O E : Type) : Type where
  count : O → ℕ
  log : List E

namespace Ledger

variable {O E : Type} {l l' : Ledger O E}

/-- No references, and nothing was done. -/
def empty : Ledger O E := ⟨fun _ => 0, []⟩

/-- Something is done. -/
def emit (l : Ledger O E) (e : E) : Ledger O E := { l with log := l.log ++ [e] }

/-- The counts agree, and the logs up to their order. -/
structure Same (l l' : Ledger O E) : Prop where
  count : l.count = l'.count
  log : l.log.Perm l'.log

section Objects

variable [DecidableEq O]

/-- The first reference. -/
def alloc (l : Ledger O E) (o : O) : Ledger O E :=
  { l with count := Function.update l.count o 1 }

/-- A further reference. -/
def retain (l : Ledger O E) (o : O) : Ledger O E :=
  { l with count := Function.update l.count o (l.count o + 1) }

/-- A reference less; `finals` is done with the last one. -/
def release (l : Ledger O E) (o : O) (finals : List E) : Ledger O E where
  count := Function.update l.count o (l.count o - 1)
  log := if l.count o = 1 then l.log ++ finals else l.log

theorem release_count_of_ne {o o' : O} (other : o' ≠ o) (finals : List E) :
    (l.release o finals).count o' = l.count o' := Function.update_of_ne other _ _

theorem release_log (l : Ledger O E) (o : O) (finals : List E) :
    (l.release o finals).log = l.log ++ if l.count o = 1 then finals else [] := by
  unfold release
  split_ifs <;> simp

/-- What is taken and given back leaves no trace, if the object has other references. -/
theorem retain_release {o : O} (held : l.count o ≠ 0) (finals : List E) :
    (l.retain o).release o finals = l := by
  simp [retain, release, held]

end Objects

variable [DecidableEq E]

/-- The ledger is exact for the references `w`, where `due e` is the object at whose end `e` is
done. -/
structure Exact (due : E → Option O) (w : O → ℕ) (l : Ledger O E) : Prop where
  count : ∀ o, l.count o = w o
  log : ∀ e, l.log.count e = (due e).elim 0 fun o => if w o = 0 then 1 else 0

namespace Exact

variable {due due' : E → Option O} {w w' : O → ℕ} {o : O}

theorem empty : Exact (fun _ => none) (fun _ => 0) (empty : Ledger O E) :=
  ⟨fun _ => rfl, fun _ => rfl⟩

theorem of_same (exact : Exact due w l) (same : Same l l') : Exact due w l' := by
  refine ⟨?_, ?_⟩
  · intro o
    rw [← same.count, exact.count]
  · intro e
    rw [← same.log.count_eq, exact.log]

/-- What becomes due for an object that has references was not done. -/
theorem mono (exact : Exact due w l)
    (grows : ∀ e, due' e = due e ∨ due e = none ∧ ∃ o, due' e = some o ∧ 0 < w o) :
    Exact due' w l := by
  refine ⟨exact.count, ?_⟩
  intro e
  rcases grows e with same | ⟨before, o, after, held⟩
  · rw [same, exact.log]
  · rw [exact.log, before, after, Option.elim_none, Option.elim_some, if_neg held.ne']

/-- Only which objects have references matters for the log. -/
theorem log_congr (exact : Exact due w l) {e : E}
    (same : ∀ o, due e = some o → (w o = 0 ↔ w' o = 0)) :
    l.log.count e = (due e).elim 0 fun o => if w' o = 0 then 1 else 0 := by
  rw [exact.log]
  cases object : due e with
  | none => rfl
  | some o => simp only [Option.elim_some, same o object]

variable [DecidableEq O]

theorem update_eq_zero_iff {n : ℕ} (same : n = 0 ↔ w o = 0) (o' : O) :
    w o' = 0 ↔ Function.update w o n o' = 0 := by
  by_cases equal : o' = o
  · subst equal
    rw [Function.update_self, same]
  · rw [Function.update_of_ne equal]

theorem alloc (exact : Exact due w l) (fresh : ∀ e, due e ≠ some o) :
    Exact due (Function.update w o 1) (l.alloc o) := by
  refine ⟨?_, ?_⟩
  · intro o'
    rw [Ledger.alloc, funext exact.count]
  · intro e
    refine exact.log_congr ?_
    intro o' object
    have other : o' ≠ o := by
      rintro rfl
      exact fresh e object
    rw [Function.update_of_ne other]

theorem retain (exact : Exact due w l) (held : 0 < w o) :
    Exact due (Function.update w o (w o + 1)) (l.retain o) := by
  refine ⟨?_, ?_⟩
  · intro o'
    rw [Ledger.retain, funext exact.count]
  · intro e
    exact exact.log_congr fun o' _ => update_eq_zero_iff (by omega) o'

theorem release {finals : List E} (exact : Exact due w l) (held : 0 < w o) (once : finals.Nodup)
    (mem_finals : ∀ e, e ∈ finals ↔ due e = some o) :
    Exact due (Function.update w o (w o - 1)) (l.release o finals) := by
  refine ⟨?_, ?_⟩
  · intro o'
    rw [Ledger.release, funext exact.count]
  · intro e
    rw [Ledger.release, exact.count]
    simp only
    split_ifs with last
    · by_cases member : e ∈ finals
      · have object := (mem_finals e).mp member
        rw [List.count_append, exact.log, object, List.count_eq_one_of_mem once member]
        simp [last]
      · have other : ∀ o', due e = some o' → o' ≠ o := by
          rintro o' object rfl
          exact member ((mem_finals e).mpr object)
        rw [List.count_append, List.count_eq_zero_of_not_mem member, Nat.add_zero]
        refine exact.log_congr ?_
        intro o' object
        rw [Function.update_of_ne (other o' object)]
    · exact exact.log_congr fun o' _ => update_eq_zero_iff (by omega) o'

end Exact

end Ledger
