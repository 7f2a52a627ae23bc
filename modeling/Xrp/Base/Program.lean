import Mathlib

/-!
# Programs over a set of operations

A program is a finite tree: it ends with a result, or asks for an operation and
goes on with the answer. What an operation does is not part of the program. It
is given either as a function on states, and then a program runs, or as a
relation with a condition under which the operation may be asked for, and then
a program has a weakest precondition. In the second reading the environment
chooses among the possible answers.
-/

/-- A program that asks operations `o : O`, each answered by an `R o`. -/
inductive Program (O : Type) (R : O → Type) (α : Type) : Type
  | ret (a : α)
  | ask (o : O) (next : R o → Program O R α)

namespace Program

variable {O : Type} {R : O → Type} {α β σ : Type}

/-- The first program, then the second on its result. -/
def bind : Program O R α → (α → Program O R β) → Program O R β
  | ret a, f => f a
  | ask o next, f => ask o fun r => (next r).bind f

instance : Monad (Program O R) where
  pure := ret
  bind := bind

instance : LawfulMonad (Program O R) := LawfulMonad.mk' _
  (fun p => by
    induction p with
    | ret a => rfl
    | ask o next ih => exact congrArg (ask o) (funext ih))
  (fun _ _ => rfl)
  (fun p f g => by
    induction p with
    | ret a => rfl
    | ask o next ih => exact congrArg (ask o) (funext ih))

/-- One operation. -/
def perform (o : O) : Program O R (R o) := ask o ret

@[simp] theorem pure_eq (a : α) : (pure a : Program O R α) = ret a := rfl

@[simp] theorem ret_bind (a : α) (f : α → Program O R β) : ret a >>= f = f a := rfl

@[simp] theorem ask_bind (o : O) (next : R o → Program O R α) (f : α → Program O R β) :
    ask o next >>= f = ask o fun r => next r >>= f := rfl

@[simp] theorem perform_bind (o : O) (f : R o → Program O R β) :
    perform o >>= f = ask o f := rfl

/-! ## Running a program -/

section Run

variable (act : (o : O) → σ → R o × σ)

/-- The result and the last state of a program, if operations act by `act`. -/
def run : Program O R α → σ → α × σ
  | ret a, s => (a, s)
  | ask o next, s => (next (act o s).1).run (act o s).2

@[simp] theorem run_ret (a : α) (s : σ) : (ret a : Program O R α).run act s = (a, s) := rfl

@[simp] theorem run_ask (o : O) (next : R o → Program O R α) (s : σ) :
    (ask o next).run act s = (next (act o s).1).run act (act o s).2 := rfl

@[simp] theorem run_perform (o : O) (s : σ) : (perform (R := R) o).run act s = act o s := rfl

@[simp] theorem run_bind (p : Program O R α) (f : α → Program O R β) (s : σ) :
    (p >>= f).run act s = (f (p.run act s).1).run act (p.run act s).2 := by
  induction p generalizing s with
  | ret a => rfl
  | ask o next ih => exact ih _ _

end Run

/-! ## Weakest preconditions -/

/-- When an operation may be asked for, and what it may answer. -/
structure Rules (O : Type) (R : O → Type) (σ : Type) : Type where
  allowed : O → σ → Prop
  effect : (o : O) → σ → R o → σ → Prop

variable (rules : Rules O R σ)

/-- From `s` the program asks only for what is allowed, and ends in `post`. -/
def wp (post : α → σ → Prop) : Program O R α → σ → Prop
  | ret a, s => post a s
  | ask o next, s =>
    rules.allowed o s ∧ ∀ r s', rules.effect o s r s' → (next r).wp post s'

variable {rules}

@[simp] theorem wp_ret {post : α → σ → Prop} {a : α} {s : σ} :
    (ret a : Program O R α).wp rules post s ↔ post a s := Iff.rfl

@[simp] theorem wp_ask {post : α → σ → Prop} {o : O} {next : R o → Program O R α} {s : σ} :
    (ask o next).wp rules post s ↔
      rules.allowed o s ∧ ∀ r s', rules.effect o s r s' → (next r).wp rules post s' := Iff.rfl

theorem wp.mono {post post' : α → σ → Prop} {p : Program O R α} {s : σ}
    (holds : p.wp rules post s) (weaker : ∀ a s, post a s → post' a s) :
    p.wp rules post' s := by
  induction p generalizing s with
  | ret a => exact weaker a s holds
  | ask o next ih => exact ⟨holds.1, fun r s' effect => ih r (holds.2 r s' effect)⟩

theorem wp_bind {post : β → σ → Prop} {p : Program O R α} {f : α → Program O R β} {s : σ} :
    (p >>= f).wp rules post s ↔ p.wp rules (fun a => (f a).wp rules post) s := by
  induction p generalizing s with
  | ret a => exact Iff.rfl
  | ask o next ih =>
    simp only [ask_bind, wp_ask]
    exact and_congr_right fun _ => forall₃_congr fun r s' _ => ih r

/-- The rule of sequence: an assertion between the two programs. -/
theorem wp.bind {mid : α → σ → Prop} {post : β → σ → Prop} {p : Program O R α}
    {f : α → Program O R β} {s : σ} (first : p.wp rules mid s)
    (second : ∀ a s, mid a s → (f a).wp rules post s) : (p >>= f).wp rules post s :=
  wp_bind.mpr (first.mono second)

/-! ## Programs that keep to some operations -/

/-- The program asks only for operations in `P`, whatever it is answered. -/
def Only (P : O → Prop) : Program O R α → Prop
  | ret _ => True
  | ask o next => P o ∧ ∀ r, (next r).Only P

variable {P : O → Prop}

theorem only_perform {o : O} (inside : P o) : (perform (R := R) o).Only P :=
  ⟨inside, fun _ => trivial⟩

theorem Only.bind {p : Program O R α} {f : α → Program O R β} (first : p.Only P)
    (second : ∀ a, (f a).Only P) : (p >>= f).Only P := by
  induction p with
  | ret a => exact second a
  | ask o next ih => exact ⟨first.1, fun r => ih r (first.2 r)⟩

/-- Where the operations in `P` are allowed and leave the state alone, so does the program. -/
theorem Only.wp {p : Program O R α} {s : σ} (only : p.Only P)
    (allowed : ∀ o, P o → rules.allowed o s)
    (kept : ∀ o, P o → ∀ r s', rules.effect o s r s' → s' = s) :
    p.wp rules (fun _ s' => s' = s) s := by
  induction p with
  | ret a => exact rfl
  | ask o next ih =>
    refine ⟨allowed o only.1, fun r s' effect => ?_⟩
    rw [kept o only.1 r s' effect]
    exact ih r (only.2 r)

end Program
