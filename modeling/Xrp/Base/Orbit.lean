import Mathlib

/-!
# Searches along an orbit

A loop that starts at some state, looks if it may stop there, and goes on to the next state. It need
not end, so it is run for a number of rounds. If states are words and the next one is a fixed
distance away, the search passes all multiples of the greatest common divisor of the distance and
the number of words.
-/

namespace Orbit

section Search

variable {α β : Type*} (stop : α → Option β) (next : α → α)

/-- Where the search stops, within a number of rounds. -/
def search : ℕ → α → Option β
  | 0, _ => none
  | fuel + 1, a =>
    match stop a with
    | some b => some b
    | none => search fuel (next a)

variable {stop next} {a : α} {b : β}

/-- The search ends at the first state where it may stop. -/
theorem search_eq_some_iff {fuel : ℕ} :
    search stop next fuel a = some b ↔
      ∃ k < fuel, stop (next^[k] a) = some b ∧ ∀ j < k, stop (next^[j] a) = none := by
  induction fuel generalizing a with
  | zero => simp [search]
  | succ fuel ih =>
    rw [search]
    cases here : stop a with
    | some c =>
      simp only [Option.some_inj]
      constructor
      · rintro rfl
        exact ⟨0, Nat.succ_pos fuel, here, fun j less => absurd less (Nat.not_lt_zero j)⟩
      · rintro ⟨k, -, there, before⟩
        cases k with
        | zero => exact Option.some_inj.mp (here.symm.trans there)
        | succ k =>
          have none := before 0 (Nat.succ_pos k)
          rw [Function.iterate_zero_apply, here] at none
          cases none
    | none =>
      rw [ih]
      constructor
      · rintro ⟨k, less, there, before⟩
        refine ⟨k + 1, Nat.succ_lt_succ less, there, fun j earlier => ?_⟩
        cases j with
        | zero => exact here
        | succ j => exact before j (Nat.lt_of_succ_lt_succ earlier)
      · rintro ⟨k, less, there, before⟩
        cases k with
        | zero =>
          rw [Function.iterate_zero_apply, here] at there
          cases there
        | succ k =>
          exact ⟨k, Nat.lt_of_succ_lt_succ less, there,
            fun j earlier => before (j + 1) (Nat.succ_lt_succ earlier)⟩

/-- More rounds do not change where the search ends. -/
theorem search_unique {fuel fuel' : ℕ} {b' : β} (ends : search stop next fuel a = some b)
    (ends' : search stop next fuel' a = some b') : b = b' := by
  obtain ⟨k, -, there, before⟩ := search_eq_some_iff.mp ends
  obtain ⟨k', -, there', before'⟩ := search_eq_some_iff.mp ends'
  rcases lt_trichotomy k k' with less | rfl | less
  · cases there.symm.trans (before' k less)
  · exact Option.some_inj.mp (there.symm.trans there')
  · cases there'.symm.trans (before k' less)

/-- The search ends if and only if it may stop somewhere on the orbit. -/
theorem exists_search_iff :
    (∃ fuel, (search stop next fuel a).isSome) ↔ ∃ k, (stop (next^[k] a)).isSome := by
  constructor
  · rintro ⟨fuel, ends⟩
    obtain ⟨b, found⟩ := Option.isSome_iff_exists.mp ends
    obtain ⟨k, -, there, -⟩ := search_eq_some_iff.mp found
    exact ⟨k, Option.isSome_of_eq_some there⟩
  · intro stops
    classical
    obtain ⟨b, there⟩ := Option.isSome_iff_exists.mp (Nat.find_spec stops)
    refine ⟨Nat.find stops + 1, Option.isSome_of_eq_some
      (search_eq_some_iff.mpr ⟨Nat.find stops, Nat.lt_succ_self _, there, fun j less => ?_⟩)⟩
    exact Option.not_isSome_iff_eq_none.mp (Nat.find_min stops less)

end Search

section Stride

variable {w : ℕ}

theorem toNat_stride (e : BitVec w) (k : ℕ) :
    ((· + e)^[k] 0).toNat = k * e.toNat % 2 ^ w := by
  induction k with
  | zero => simp
  | succ k ih =>
    rw [Function.iterate_succ_apply', BitVec.toNat_add, ih, Nat.mod_add_mod, Nat.succ_mul]

/-- A search with a fixed distance passes the multiples of the greatest common divisor. -/
theorem exists_stride_iff (e x : BitVec w) :
    (∃ k, (· + e)^[k] 0 = x) ↔ Nat.gcd e.toNat (2 ^ w) ∣ x.toNat := by
  simp only [← BitVec.toNat_inj, toNat_stride]
  constructor
  · rintro ⟨k, reached⟩
    rw [← reached]
    refine (Nat.dvd_mod_iff (Nat.gcd_dvd_right _ _)).mpr ?_
    exact (Nat.gcd_dvd_left _ _).mul_left k
  · rintro ⟨q, multiple⟩
    have positive : 0 < 2 ^ w := Nat.two_pow_pos w
    rcases (Nat.gcd_le_right e.toNat positive).lt_or_eq with less | equal
    · obtain ⟨m, -, first⟩ := Nat.exists_mul_mod_eq_gcd less
      refine ⟨m * q, ?_⟩
      calc m * q * e.toNat % 2 ^ w
          = (e.toNat * m % 2 ^ w) * q % 2 ^ w := by rw [Nat.mod_mul_mod]; ring_nf
        _ = x.toNat % 2 ^ w := by rw [first, multiple]
        _ = x.toNat := Nat.mod_eq_of_lt x.isLt
    · -- the distance is zero, and so is the only multiple
      have zero : x.toNat = 0 := by
        refine Nat.eq_zero_of_dvd_of_lt ⟨q, ?_⟩ x.isLt
        rw [multiple, equal]
      exact ⟨0, by rw [zero, zero_mul, Nat.zero_mod]⟩

/-- The last multiple is the greatest common divisor before the end. -/
theorem exists_stride_ge_iff (e : BitVec w) {n : ℕ} :
    (∃ x : BitVec w, Nat.gcd e.toNat (2 ^ w) ∣ x.toNat ∧ n ≤ x.toNat) ↔
      n + Nat.gcd e.toNat (2 ^ w) ≤ 2 ^ w := by
  have divides : Nat.gcd e.toNat (2 ^ w) ∣ 2 ^ w := Nat.gcd_dvd_right _ _
  have positive : 0 < Nat.gcd e.toNat (2 ^ w) := Nat.gcd_pos_of_pos_right _ (Nat.two_pow_pos w)
  constructor
  · rintro ⟨x, multiple, above⟩
    have next := Nat.le_of_dvd (Nat.sub_pos_of_lt x.isLt) (Nat.dvd_sub divides multiple)
    have bound := x.isLt
    omega
  · intro room
    have last : (BitVec.ofNat w (2 ^ w - Nat.gcd e.toNat (2 ^ w))).toNat =
        2 ^ w - Nat.gcd e.toNat (2 ^ w) := by
      rw [BitVec.toNat_ofNat, Nat.mod_eq_of_lt (by omega)]
    refine ⟨BitVec.ofNat w (2 ^ w - Nat.gcd e.toNat (2 ^ w)), ?_, ?_⟩
    · rw [last]
      exact Nat.dvd_sub divides dvd_rfl
    · rw [last]
      omega

end Stride

end Orbit
