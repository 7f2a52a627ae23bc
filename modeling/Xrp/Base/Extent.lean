import Xrp.Base.Word

/-!
# Coalescing free lists

A free list is a list of extents of natural-number addresses that is sorted,
has no empty extent and leaves a gap between any two neighbours. `carve` takes
the first aligned piece that fits out of such a list and `release` puts a piece
back, merging it with the neighbours it touches. Both keep the list separated,
and `coverCount`, the number of extents that hold a given address, says exactly
which addresses move. A separated list is a normal form: the addresses it holds
determine it. In such a list `carve` takes the lowest place there is.
-/

/-- The addresses `[base, base + len)`. -/
@[ext] structure Extent : Type where
  base : ℕ
  len : ℕ
  deriving DecidableEq, Repr

namespace Extent

/-- The first address after the extent. -/
def stop (e : Extent) : ℕ := e.base + e.len

/-- One when the extent holds the address, zero otherwise. -/
def hit (e : Extent) (b : ℕ) : ℕ := if e.base ≤ b ∧ b < e.stop then 1 else 0

/-- The number of extents of the list that hold the address. -/
def coverCount (es : List Extent) (b : ℕ) : ℕ := (es.map (hit · b)).sum

@[simp] theorem coverCount_nil (b : ℕ) : coverCount [] b = 0 := rfl

@[simp] theorem coverCount_cons (e : Extent) (es : List Extent) (b : ℕ) :
    coverCount (e :: es) b = e.hit b + coverCount es b := rfl

@[simp] theorem coverCount_append (es fs : List Extent) (b : ℕ) :
    coverCount (es ++ fs) b = coverCount es b + coverCount fs b := by
  simp [coverCount]

theorem hit_le_coverCount {e : Extent} {es : List Extent} (member : e ∈ es) (b : ℕ) :
    e.hit b ≤ coverCount es b :=
  List.single_le_sum (by simp) _ (List.mem_map_of_mem member)

theorem hit_eq_one {e : Extent} {b : ℕ} (low : e.base ≤ b) (high : b < e.stop) :
    e.hit b = 1 := if_pos ⟨low, high⟩

theorem coverCount_eq_zero_iff {es : List Extent} {b : ℕ} :
    coverCount es b = 0 ↔ ∀ e ∈ es, ¬ (e.base ≤ b ∧ b < e.stop) := by
  constructor
  · intro none e member inside
    have held := hit_le_coverCount member b
    rw [hit_eq_one inside.1 inside.2] at held
    omega
  · intro outside
    refine List.sum_eq_zero fun k source => ?_
    obtain ⟨e, member, rfl⟩ := List.mem_map.mp source
    exact if_neg (outside e member)

/-- Two extents that never hit an address together lie side by side. -/
theorem apart_of_hit_le_one {a e : Extent} (aPos : 0 < a.len) (ePos : 0 < e.len)
    (single : ∀ b, e.hit b + a.hit b ≤ 1) : e.stop ≤ a.base ∨ a.stop ≤ e.base := by
  by_contra crossing
  push Not at crossing
  -- the greater of the two bases would be hit twice
  have twice := single (max a.base e.base)
  have left : e.hit (max a.base e.base) = 1 :=
    hit_eq_one (le_max_right _ _) (max_lt crossing.1 (by simp only [stop]; omega))
  have right : a.hit (max a.base e.base) = 1 :=
    hit_eq_one (le_max_left _ _) (max_lt (by simp only [stop]; omega) crossing.2)
  omega

/-- Extents that hit no address twice lie side by side. -/
theorem pairwise_apart {es : List Extent} (positive : ∀ e ∈ es, 0 < e.len)
    (single : ∀ b, coverCount es b ≤ 1) :
    es.Pairwise fun e f => f.stop ≤ e.base ∨ e.stop ≤ f.base := by
  induction es with
  | nil => exact .nil
  | cons e es ih =>
    refine .cons (fun f member => ?_) (ih (fun f member => positive f (.tail _ member)) fun b => ?_)
    · refine apart_of_hit_le_one (positive e (.head _)) (positive f (.tail _ member)) fun b => ?_
      have total := single b
      have later := hit_le_coverCount member b
      rw [coverCount_cons] at total
      omega
    · have total := single b
      rw [coverCount_cons] at total
      omega

/-- An extent is hit where its two parts are. -/
theorem hit_split (base front back b : ℕ) :
    hit ⟨base, front + back⟩ b = hit ⟨base, front⟩ b + hit ⟨base + front, back⟩ b := by
  grind [hit, stop]

theorem hit_empty (base b : ℕ) : hit ⟨base, 0⟩ b = 0 := by
  grind [hit, stop]

/-! ## Separated lists -/

/-- Sorted by base, no extent empty, and neighbours neither overlap nor touch. -/
structure Separated (es : List Extent) : Prop where
  positive : ∀ e ∈ es, 0 < e.len
  sorted : es.Pairwise fun a b => a.stop < b.base

theorem Separated.nil : Separated [] := ⟨by simp, .nil⟩

theorem Separated.tail {e : Extent} {es : List Extent} (sep : Separated (e :: es)) :
    Separated es :=
  ⟨fun f member => sep.positive f (List.mem_cons_of_mem e member), sep.sorted.of_cons⟩

theorem Separated.head_lt {e f : Extent} {es : List Extent} (sep : Separated (e :: es))
    (member : f ∈ es) : e.stop < f.base :=
  (List.pairwise_cons.mp sep.sorted).1 f member

theorem Separated.cons {e : Extent} {es : List Extent} (positive : 0 < e.len)
    (before : ∀ f ∈ es, e.stop < f.base) (sep : Separated es) : Separated (e :: es) := by
  refine ⟨fun f member => ?_, List.pairwise_cons.mpr ⟨before, sep.sorted⟩⟩
  rcases List.mem_cons.mp member with rfl | later
  · exact positive
  · exact sep.positive f later

theorem coverCount_below {es : List Extent} {b : ℕ} (below : ∀ e ∈ es, b < e.base) :
    coverCount es b = 0 := by
  refine coverCount_eq_zero_iff.mpr fun e member inside => ?_
  have := below e member
  omega

/-- The first extent of a separated list starts where the first address is held. -/
theorem Separated.base_le {e f : Extent} {es fs : List Extent} (sepE : Separated (e :: es))
    (sepF : Separated (f :: fs))
    (cover : ∀ b, coverCount (e :: es) b = coverCount (f :: fs) b) : f.base ≤ e.base := by
  by_contra later
  have ePos := sepE.positive e (by simp)
  have held := hit_le_coverCount (List.mem_cons_self (a := e) (l := es)) e.base
  rw [hit_eq_one le_rfl (by unfold stop; omega), cover, coverCount_below] at held
  · omega
  · intro g member
    rcases List.mem_cons.mp member with rfl | inside
    · omega
    · have := sepF.head_lt inside
      unfold stop at this
      omega

/-- It stops where the first gap is. -/
theorem Separated.stop_le {e f : Extent} {es fs : List Extent} (sepE : Separated (e :: es))
    (same : e.base = f.base)
    (cover : ∀ b, coverCount (e :: es) b = coverCount (f :: fs) b) : f.stop ≤ e.stop := by
  by_contra longer
  have held := hit_le_coverCount (List.mem_cons_self (a := f) (l := fs)) e.stop
  have gap : coverCount (e :: es) e.stop = 0 := by
    rw [coverCount_cons, coverCount_below fun g inside => sepE.head_lt inside]
    exact if_neg (by omega)
  rw [← cover, gap, hit_eq_one (by unfold stop; omega) (by omega)] at held
  omega

/-- The addresses that a separated list holds determine the list. -/
theorem Separated.eq_of_cover {es fs : List Extent} (sepE : Separated es) (sepF : Separated fs)
    (cover : ∀ b, coverCount es b = coverCount fs b) : es = fs := by
  induction es generalizing fs with
  | nil =>
    cases fs with
    | nil => rfl
    | cons f fs =>
      have fPos := sepF.positive f (by simp)
      have held := hit_le_coverCount (List.mem_cons_self (a := f) (l := fs)) f.base
      rw [hit_eq_one le_rfl (by unfold stop; omega), ← cover, coverCount_nil] at held
      omega
  | cons e es ih =>
    cases fs with
    | nil =>
      have ePos := sepE.positive e (by simp)
      have held := hit_le_coverCount (List.mem_cons_self (a := e) (l := es)) e.base
      rw [hit_eq_one le_rfl (by unfold stop; omega), cover, coverCount_nil] at held
      omega
    | cons f fs =>
      have base : e.base = f.base :=
        le_antisymm (sepF.base_le sepE fun b => (cover b).symm) (sepE.base_le sepF cover)
      have stop : e.stop = f.stop :=
        le_antisymm (sepF.stop_le base.symm fun b => (cover b).symm) (sepE.stop_le base cover)
      obtain rfl : e = f := by
        ext
        · exact base
        · unfold Extent.stop at stop
          omega
      rw [ih sepE.tail sepF.tail fun b => Nat.add_left_cancel (cover b)]

/-! ## Releasing an extent -/

/-- Put `a` back into a free list, merging it with the neighbours it touches. -/
def release (a : Extent) : List Extent → List Extent
  | [] => [a]
  | e :: es =>
    if e.stop = a.base then
      match es with
      | [] => [⟨e.base, e.len + a.len⟩]
      | f :: fs =>
        if a.stop = f.base then ⟨e.base, e.len + a.len + f.len⟩ :: fs
        else ⟨e.base, e.len + a.len⟩ :: f :: fs
    else if a.base < e.base then
      if a.stop = e.base then ⟨a.base, e.len + a.len⟩ :: es else a :: e :: es
    else e :: release a es

/-- Releasing starts no extent at a new place except at the released base. -/
theorem base_of_mem_release {a f : Extent} {es : List Extent} (member : f ∈ release a es) :
    f.base = a.base ∨ ∃ e ∈ es, f.base = e.base := by
  induction es with
  | nil => simp_all [release]
  | cons e es ih =>
    unfold release at member
    split_ifs at member with tail before touch
    · rcases es with _ | ⟨g, gs⟩
      · simp_all
      · dsimp only at member
        split_ifs at member <;> aesop
    · aesop
    · aesop
    · rcases List.mem_cons.mp member with rfl | later
      · exact .inr ⟨f, by simp, rfl⟩
      · rcases ih later with same | ⟨g, inside, same⟩
        · exact .inl same
        · exact .inr ⟨g, List.mem_cons_of_mem e inside, same⟩

/-- The released addresses, and no others, join the list. -/
theorem coverCount_release (a : Extent) (es : List Extent) (b : ℕ) :
    coverCount (release a es) b = coverCount es b + a.hit b := by
  induction es with
  | nil => simp [release]
  | cons e es ih =>
    unfold release
    split_ifs with tail before touch
    · -- `a` continues `e`
      have merged : hit ⟨e.base, e.len + a.len⟩ b = e.hit b + a.hit b := by
        rw [hit_split, show e.base + e.len = a.base from tail]
      rcases es with _ | ⟨f, fs⟩
      · simp [merged]
      · dsimp only
        split_ifs with next
        · have whole : hit ⟨e.base, e.len + a.len + f.len⟩ b = e.hit b + a.hit b + f.hit b := by
            rw [hit_split, merged, show e.base + (e.len + a.len) = f.base by
              unfold stop at tail next; omega]
          simp only [coverCount_cons, whole]
          omega
        · simp only [coverCount_cons, merged]
          omega
    · -- `e` continues `a`
      have merged : hit ⟨a.base, e.len + a.len⟩ b = a.hit b + e.hit b := by
        rw [Nat.add_comm, hit_split, show a.base + a.len = e.base from touch]
      simp only [coverCount_cons, merged]
      omega
    · simp only [coverCount_cons]
      omega
    · simp only [coverCount_cons, ih]
      omega

/-- Releasing an extent that lies beside every member keeps the list separated. -/
theorem Separated.release {a : Extent} {es : List Extent} (sep : Separated es)
    (positive : 0 < a.len) (apart : ∀ e ∈ es, e.stop ≤ a.base ∨ a.stop ≤ e.base) :
    Separated (release a es) := by
  induction es with
  | nil => exact .cons positive (by simp) .nil
  | cons e es ih =>
    have ePos : 0 < e.len := sep.positive e (by simp)
    have eApart := apart e (by simp)
    unfold Extent.release
    split_ifs with tail before touch
    · rcases es with _ | ⟨f, fs⟩
      · exact .cons (by dsimp only; omega) (by simp) .nil
      · have fPos : 0 < f.len := sep.positive f (by simp)
        have fApart := apart f (by simp)
        have gap := sep.head_lt (f := f) (by simp)
        dsimp only
        split_ifs with next
        · refine .cons (by dsimp only; omega) (fun g inside => ?_) sep.tail.tail
          have := sep.tail.head_lt inside
          unfold stop at *
          dsimp only
          omega
        · refine .cons (by dsimp only; omega) (fun g inside => ?_) sep.tail
          rcases List.mem_cons.mp inside with rfl | later
          · unfold stop at *
            dsimp only
            omega
          · have := sep.tail.head_lt later
            unfold stop at *
            dsimp only
            omega
    · refine .cons (by dsimp only; omega) (fun g inside => ?_) sep.tail
      have := sep.head_lt inside
      unfold stop at *
      dsimp only
      omega
    · refine .cons positive (fun g inside => ?_) sep
      rcases List.mem_cons.mp inside with rfl | later
      · unfold stop at *
        omega
      · have := sep.head_lt later
        unfold stop at *
        omega
    · -- `a` goes behind `e`, with a gap left between them
      have behind : e.stop < a.base := by
        unfold stop at *
        omega
      refine .cons ePos (fun g inside => ?_)
        (ih sep.tail fun f member => apart f (List.mem_cons_of_mem e member))
      rcases base_of_mem_release inside with same | ⟨f, member, same⟩
      · omega
      · have := sep.head_lt member
        omega

/-! ## Carving an extent -/

/-- What is left of `e` when `[s, s + n)` is cut out of it. -/
def remainder (e : Extent) (s n : ℕ) : List Extent :=
  (if s = e.base then [] else [⟨e.base, s - e.base⟩]) ++
    (if s + n = e.stop then [] else [⟨s + n, e.stop - (s + n)⟩])

/-- Cut the first `n` addresses that start at a multiple of `l` and fit into one extent. -/
def carve (l n : ℕ) : List Extent → Option (ℕ × List Extent)
  | [] => none
  | e :: es =>
    if e.base.roundUp l - e.base + n ≤ e.len then
      some (e.base.roundUp l, e.remainder (e.base.roundUp l) n ++ es)
    else (carve l n es).map fun r => (r.1, e :: r.2)

section Carve

variable {e : Extent} {s n : ℕ}

theorem coverCount_remainder (low : e.base ≤ s) (high : s + n ≤ e.stop) (b : ℕ) :
    coverCount (e.remainder s n) b + hit ⟨s, n⟩ b = e.hit b := by
  have parts : e.hit b =
      hit ⟨e.base, s - e.base⟩ b + hit ⟨s, n⟩ b + hit ⟨s + n, e.stop - (s + n)⟩ b := by
    have whole : e = ⟨e.base, (s - e.base) + (n + (e.stop - (s + n)))⟩ := by
      ext
      · rfl
      · unfold stop at *
        dsimp only
        omega
    conv_lhs => rw [whole]
    rw [hit_split, hit_split, show e.base + (s - e.base) = s by omega]
    omega
  have front : s = e.base → hit ⟨e.base, s - e.base⟩ b = 0 := by
    intro same
    rw [same, Nat.sub_self, hit_empty]
  have back : s + n = e.stop → hit ⟨s + n, e.stop - (s + n)⟩ b = 0 := by
    intro same
    rw [same, Nat.sub_self, hit_empty]
  rw [parts]
  unfold remainder
  split_ifs with atFront atBack atBack
  all_goals simp only [coverCount_append, coverCount_cons, coverCount_nil]
  all_goals grind

theorem mem_remainder {f : Extent} (low : e.base ≤ s) (high : s + n ≤ e.stop)
    (member : f ∈ e.remainder s n) : 0 < f.len ∧ e.base ≤ f.base ∧ f.stop ≤ e.stop := by
  unfold remainder at member
  rcases List.mem_append.mp member with left | right
  · split_ifs at left with front
    · simp at left
    · rw [List.mem_singleton.mp left]
      unfold stop at *
      dsimp only
      omega
  · split_ifs at right with back
    · simp at right
    · rw [List.mem_singleton.mp right]
      unfold stop at *
      dsimp only
      omega

/-- The remainder of a member takes its place in a separated list. -/
theorem Separated.remainder_append {es : List Extent} (sep : Separated (e :: es))
    (low : e.base ≤ s) (positive : 0 < n) (high : s + n ≤ e.stop) :
    Separated (e.remainder s n ++ es) := by
  constructor
  · intro f member
    rcases List.mem_append.mp member with cut | later
    · exact (mem_remainder low high cut).1
    · exact sep.tail.positive f later
  · rw [List.pairwise_append]
    refine ⟨?_, sep.tail.sorted, fun f cut g later => ?_⟩
    · unfold remainder
      split_ifs <;> simp [stop]
      omega
    · have := (mem_remainder low high cut).2.2
      have := sep.head_lt later
      omega

end Carve

/-- What a successful `carve` has done: the piece is aligned, lay inside one member, and
exactly its addresses left the list, which is still separated. -/
theorem carve_spec {l n s : ℕ} {es fs : List Extent} (lPos : 0 < l) (nPos : 0 < n)
    (sep : Separated es) (carved : carve l n es = some (s, fs)) :
    Separated fs ∧ l ∣ s ∧ (∃ e ∈ es, e.base ≤ s ∧ s + n ≤ e.stop) ∧
      ∀ b, coverCount fs b + hit ⟨s, n⟩ b = coverCount es b := by
  induction es generalizing s fs with
  | nil => simp [carve] at carved
  | cons e es ih =>
    have low : e.base ≤ e.base.roundUp l := Nat.le_roundUp lPos
    unfold carve at carved
    split_ifs at carved with fit
    · have high : e.base.roundUp l + n ≤ e.stop := by
        unfold stop
        omega
      cases carved
      refine ⟨sep.remainder_append low nPos high, Nat.dvd_roundUp _ _,
        ⟨e, by simp, low, high⟩, fun b => ?_⟩
      have := coverCount_remainder low high b
      simp only [coverCount_append, coverCount_cons]
      omega
    · obtain ⟨⟨s', gs⟩, later, same⟩ := Option.map_eq_some_iff.mp carved
      simp only [Prod.mk.injEq] at same
      obtain ⟨rfl, rfl⟩ := same
      obtain ⟨sepRest, aligned, ⟨f, member, inside⟩, counts⟩ := ih sep.tail later
      refine ⟨.cons (sep.positive e (by simp)) (fun g rest => ?_) sepRest, aligned,
        ⟨f, List.mem_cons_of_mem e member, inside⟩, fun b => ?_⟩
      · -- every extent that stays in the tail lies above its old base
        have gPos := sepRest.positive g rest
        have hitRest := hit_le_coverCount rest g.base
        have covered := counts g.base
        rw [hit_eq_one le_rfl (by unfold stop; omega)] at hitRest
        by_contra before
        have none_hit : coverCount es g.base = 0 := by
          refine coverCount_below fun m memberM => ?_
          have := sep.head_lt memberM
          omega
        omega
      · have := counts b
        simp only [coverCount_cons]
        omega

/-! ## First fit -/

/-- A run of addresses that the list holds lies inside one extent: there are gaps between them. -/
theorem Separated.exists_extent {es : List Extent} {a n : ℕ} (sep : Separated es)
    (positive : 0 < n) (held : ∀ b, a ≤ b → b < a + n → 0 < coverCount es b) :
    ∃ e ∈ es, e.base ≤ a ∧ a + n ≤ e.stop := by
  induction es with
  | nil =>
    have first := held a le_rfl (by omega)
    rw [coverCount_nil] at first
    omega
  | cons e es ih =>
    -- below the end of `e` the extents behind it hold nothing
    have behind (b : ℕ) (low : b ≤ e.stop) : coverCount es b = 0 :=
      coverCount_below fun f member => lt_of_le_of_lt low (sep.head_lt member)
    rcases Nat.lt_or_ge a e.stop with inside | after
    · refine ⟨e, List.mem_cons_self, ?_, ?_⟩
      · by_contra before
        have first := held a le_rfl (by omega)
        rw [coverCount_cons, behind a inside.le, hit, if_neg (by omega)] at first
        omega
      · by_contra longer
        have gap := held e.stop inside.le (by omega)
        rw [coverCount_cons, behind e.stop le_rfl, hit, if_neg (by omega)] at gap
        omega
    · have held' (b : ℕ) (low : a ≤ b) (high : b < a + n) : 0 < coverCount es b := by
        have whole := held b low high
        rwa [coverCount_cons, hit, if_neg (by omega), Nat.zero_add] at whole
      obtain ⟨f, member, place⟩ := ih sep.tail held'
      exact ⟨f, List.mem_cons_of_mem e member, place⟩

/-- The multiples of `l` from which on the list holds `n` addresses. -/
def places (l n : ℕ) (es : List Extent) : Set ℕ :=
  {a | l ∣ a ∧ ∀ b, a ≤ b → b < a + n → 0 < coverCount es b}

section FirstFit

variable {l n a : ℕ} {e : Extent} {es : List Extent}

theorem mem_places_of_mem (aligned : l ∣ a) (member : e ∈ es) (low : e.base ≤ a)
    (high : a + n ≤ e.stop) : a ∈ places l n es := by
  refine ⟨aligned, fun b above below => ?_⟩
  have held := hit_le_coverCount member b
  rw [hit_eq_one (by omega) (by omega)] at held
  omega

theorem places_tail_subset : places l n es ⊆ places l n (e :: es) := by
  rintro a ⟨aligned, held⟩
  refine ⟨aligned, fun b above below => ?_⟩
  have tail := held b above below
  rw [coverCount_cons]
  omega

/-- The first multiple of `l` in an extent is the place to look at there. -/
theorem fit_of_place (lPos : 0 < l) (aligned : l ∣ a) (low : e.base ≤ a)
    (high : a + n ≤ e.stop) : e.base.roundUp l - e.base + n ≤ e.len := by
  have first := Nat.roundUp_le lPos aligned low
  have up := Nat.le_roundUp (b := e.base) lPos
  unfold stop at high
  omega

/-- A place beyond an extent into which nothing fits. -/
theorem Separated.mem_places_tail (sep : Separated (e :: es)) (lPos : 0 < l) (nPos : 0 < n)
    (tight : ¬ e.base.roundUp l - e.base + n ≤ e.len) (place : a ∈ places l n (e :: es)) :
    a ∈ places l n es := by
  obtain ⟨f, member, low, high⟩ := sep.exists_extent nPos place.2
  rcases List.mem_cons.mp member with rfl | later
  · exact absurd (fit_of_place lPos place.1 low high) tight
  · exact mem_places_of_mem place.1 later low high

/-- `carve` finds the least place. -/
theorem carve_isLeast {s : ℕ} {fs : List Extent} (lPos : 0 < l) (nPos : 0 < n)
    (sep : Separated es) (carved : carve l n es = some (s, fs)) : IsLeast (places l n es) s := by
  induction es generalizing s fs with
  | nil => simp [carve] at carved
  | cons e es ih =>
    have up : e.base ≤ e.base.roundUp l := Nat.le_roundUp lPos
    unfold carve at carved
    split_ifs at carved with fit
    · cases carved
      constructor
      · exact mem_places_of_mem (Nat.dvd_roundUp _ _) List.mem_cons_self up
          (by unfold stop; omega)
      · intro a place
        obtain ⟨f, member, low, -⟩ := sep.exists_extent nPos place.2
        refine Nat.roundUp_le lPos place.1 (le_trans ?_ low)
        rcases List.mem_cons.mp member with rfl | later
        · exact le_rfl
        · exact le_trans (Nat.le_add_right _ _) (sep.head_lt later).le
    · obtain ⟨⟨s', gs⟩, later, same⟩ := Option.map_eq_some_iff.mp carved
      simp only [Prod.mk.injEq] at same
      obtain ⟨rfl, rfl⟩ := same
      obtain ⟨place, least⟩ := ih sep.tail later
      exact ⟨places_tail_subset place, fun a other =>
        least (sep.mem_places_tail lPos nPos fit other)⟩

/-- `carve` fails only if there is no place. -/
theorem places_eq_empty_of_carve (lPos : 0 < l) (nPos : 0 < n) (sep : Separated es)
    (failed : carve l n es = none) : places l n es = ∅ := by
  induction es with
  | nil =>
    refine Set.eq_empty_of_forall_notMem fun a place => ?_
    have first := place.2 a le_rfl (by omega)
    rw [coverCount_nil] at first
    omega
  | cons e es ih =>
    unfold carve at failed
    split_ifs at failed with fit
    have tail := ih sep.tail (Option.map_eq_none_iff.mp failed)
    refine Set.eq_empty_of_forall_notMem fun a place => ?_
    have later := sep.mem_places_tail lPos nPos fit place
    rw [tail] at later
    exact later

end FirstFit

end Extent
