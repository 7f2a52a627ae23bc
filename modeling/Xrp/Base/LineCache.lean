import Mathlib

/-!
# A write-back cache and a second bus master

A processor accesses memory through a cache of lines, a device accesses memory itself. Lines come
into the cache and leave it at any time, also without an access of the processor; a dirty line is
written to memory as a whole when it leaves. Only operations on the cache keep the two in
agreement: writing lines back, and dropping them.

What the device stored and what the processor then finds in its place is followed for one address
at a time: whether the cache has a copy, and whether the device has stored since.
-/

/-- What the cache has of a line. -/
inductive LineState : Type
  | absent
  | clean
  | dirty
  deriving DecidableEq

/-- Memory, and the lines of it that are in the cache. -/
structure LineCache (A L α : Type*) where
  memory : A → α
  data : A → α
  state : L → LineState

namespace LineCache

variable {A L α : Type*}

/-! ## Events -/

/-- What happens while neither writes lines back nor drops them on purpose. An access of the
processor brings the line in; a write makes it dirty. -/
inductive Event (A L α : Type*) : Type _
  | fill (l : L)
  | evict (l : L)
  | write (a : A) (v : α)
  | store (a : A) (v : α)

/-- An event without the value. -/
def Event.shape : Event A L α → Event A L Unit
  | fill l => .fill l
  | evict l => .evict l
  | write a _ => .write a ()
  | store a _ => .store a ()

/-- An event with a value, if it has one. -/
def Event.withValue (v : α) : Event A L Unit → Event A L α
  | fill l => .fill l
  | evict l => .evict l
  | write a _ => .write a v
  | store a _ => .store a v

theorem map_shape_withValue (v : α) (h : List (Event A L Unit)) :
    (h.map (Event.withValue v)).map Event.shape = h := by
  rw [List.map_map]
  refine List.map_id'' (fun e => ?_) h
  cases e <;> rfl

/-- The processor does not write to the lines. -/
def Event.Apart (line : A → L) (s : Finset L) : Event A L α → Prop
  | .write a _ => line a ∉ s
  | _ => True

theorem Event.apart_shape {line : A → L} {s : Finset L} {e : Event A L α} :
    e.shape.Apart line s ↔ e.Apart line s := by
  cases e <;> exact Iff.rfl

theorem apart_of_shape {line : A → L} {s : Finset L} {t : List (Event A L α)}
    (apart : ∀ e ∈ t.map Event.shape, e.Apart line s) : ∀ e ∈ t, e.Apart line s :=
  fun _ member => Event.apart_shape.mp (apart _ (List.mem_map_of_mem member))

/-! ## Lines -/

section Lines

variable [DecidableEq L] (line : A → L)

/-- What the processor reads. -/
def view (c : LineCache A L α) (a : A) : α :=
  if c.state (line a) = .absent then c.memory a else c.data a

/-- A line comes into the cache, unless it is there. -/
def fill (c : LineCache A L α) (l : L) : LineCache A L α where
  memory := c.memory
  data a := if line a = l ∧ c.state l = .absent then c.memory a else c.data a
  state l' := if l' = l ∧ c.state l = .absent then .clean else c.state l'

/-- A line leaves the cache. -/
def evict (c : LineCache A L α) (l : L) : LineCache A L α where
  memory a := if line a = l ∧ c.state l = .dirty then c.data a else c.memory a
  data := c.data
  state l' := if l' = l then .absent else c.state l'

/-- Dirty lines are written back and stay. -/
def writeBack (c : LineCache A L α) (s : Finset L) : LineCache A L α where
  memory a := if line a ∈ s ∧ c.state (line a) = .dirty then c.data a else c.memory a
  data := c.data
  state l := if l ∈ s ∧ c.state l = .dirty then .clean else c.state l

/-- Lines are dropped, dirty or not. -/
def invalidate (c : LineCache A L α) (s : Finset L) : LineCache A L α where
  memory := c.memory
  data := c.data
  state l := if l ∈ s then .absent else c.state l

/-- Lines that are in the cache and not dirty are as in memory. -/
def Coherent (c : LineCache A L α) (s : Finset L) : Prop :=
  ∀ a, line a ∈ s → c.state (line a) = .clean → c.data a = c.memory a

/-- None of the lines is dirty. -/
def Settled (c : LineCache A L α) (s : Finset L) : Prop := ∀ l ∈ s, c.state l ≠ .dirty

variable {line} {c : LineCache A L α} {s : Finset L} {a : A} {l : L}

/-- Lines that are written back are in memory as the processor has them. -/
theorem memory_writeBack (coherent : c.Coherent line s) (inside : line a ∈ s) :
    (c.writeBack line s).memory a = c.view line a := by
  simp only [writeBack, view, inside, true_and]
  cases state : c.state (line a) with
  | absent => simp
  | clean => simpa using (coherent a inside state).symm
  | dirty => simp

theorem settled_writeBack : (c.writeBack line s).Settled s := by
  intro l inside
  simp only [writeBack, inside, true_and]
  split_ifs with dirty
  · decide
  · exact dirty

theorem state_invalidate (inside : l ∈ s) : (c.invalidate s).state l = .absent := if_pos inside

theorem settled_invalidate : (c.invalidate s).Settled s := by
  intro l inside
  rw [state_invalidate inside]
  decide

theorem view_invalidate (inside : line a ∈ s) : (c.invalidate s).view line a = c.memory a :=
  if_pos (state_invalidate inside)

end Lines

/-! ## Runs -/

section Runs

variable [DecidableEq A] [DecidableEq L] (line : A → L)

/-- The processor writes. -/
def write (c : LineCache A L α) (a : A) (v : α) : LineCache A L α where
  memory := c.memory
  data a' := if a' = a then v else (c.fill line (line a)).data a'
  state l := if l = line a then .dirty else c.state l

/-- The device writes. -/
def store (c : LineCache A L α) (a : A) (v : α) : LineCache A L α where
  memory a' := if a' = a then v else c.memory a'
  data := c.data
  state := c.state

/-- One event. -/
def step (c : LineCache A L α) : Event A L α → LineCache A L α
  | .fill l => c.fill line l
  | .evict l => c.evict line l
  | .write a v => c.write line a v
  | .store a v => c.store a v

/-- Events in order. -/
def run (c : LineCache A L α) (t : List (Event A L α)) : LineCache A L α := t.foldl (step line) c

theorem run_concat (c : LineCache A L α) (t : List (Event A L α)) (e : Event A L α) :
    c.run line (t ++ [e]) = (c.run line t).step line e := by
  rw [run, List.foldl_append]
  rfl

/-- The value of an address after an event, as the device has it. -/
def Event.stored (a : A) (v : α) : Event A L α → α
  | .store a' w => if a = a' then w else v
  | _ => v

/-- The value of an address after events: what the device stored last, or what was there. -/
def lastStored (t : List (Event A L α)) (a : A) (v : α) : α :=
  t.foldl (fun v e => e.stored a v) v

variable {line} {c : LineCache A L α} {s : Finset L} {a : A} {e : Event A L α}
  {t : List (Event A L α)}

theorem settled_step (settled : c.Settled s) (apart : e.Apart line s) :
    (c.step line e).Settled s := by
  intro l inside
  cases e with
  | fill l' =>
    dsimp only [step, fill]
    split_ifs
    · decide
    · exact settled l inside
  | evict l' =>
    dsimp only [step, evict]
    split_ifs
    · decide
    · exact settled l inside
  | write a v =>
    dsimp only [step, write]
    have other : l ≠ line a := fun same => apart (same ▸ inside)
    rw [if_neg other]
    exact settled l inside
  | store a v => exact settled l inside

/-- Only the device changes memory behind lines that are not dirty. -/
theorem memory_step (settled : c.Settled s) (inside : line a ∈ s) :
    (c.step line e).memory a = e.stored a (c.memory a) := by
  cases e with
  | fill l => rfl
  | evict l =>
    refine if_neg fun dirty => ?_
    obtain ⟨rfl, dirty⟩ := dirty
    exact settled _ inside dirty
  | write a' v => rfl
  | store a' v => rfl

theorem settled_run (settled : c.Settled s) (apart : ∀ e ∈ t, e.Apart line s) :
    (c.run line t).Settled s := by
  induction t using List.reverseRecOn with
  | nil => exact settled
  | append_singleton t e ih =>
    rw [run_concat]
    refine settled_step (ih fun e' member => apart e' (List.mem_append_left _ member)) ?_
    exact apart e (List.mem_append_right _ (List.mem_singleton_self e))

/-- What the device stored is in memory, behind lines that the processor does not write to. -/
theorem memory_run (settled : c.Settled s) (apart : ∀ e ∈ t, e.Apart line s)
    (inside : line a ∈ s) : (c.run line t).memory a = lastStored t a (c.memory a) := by
  induction t using List.reverseRecOn with
  | nil => rfl
  | append_singleton t e ih =>
    have before : ∀ e' ∈ t, e'.Apart line s := fun e' member =>
      apart e' (List.mem_append_left _ member)
    rw [run_concat, memory_step (settled_run settled before) inside, ih before, lastStored,
      lastStored, List.foldl_append]
    rfl

end Runs

/-! ## Copies in the cache -/

/-- The copy of an address in the cache. -/
inductive Copy : Type
  | none
  | fresh
  | stale
  deriving DecidableEq

/-- The cache has the copy. -/
def Tracks (line : A → L) (c : LineCache A L α) (a : A) : Copy → Prop
  | .none => c.state (line a) = .absent
  | .fresh => c.state (line a) = .clean ∧ c.data a = c.memory a
  | .stale => c.state (line a) = .clean

section Tracks

variable {line : A → L} {c c' : LineCache A L α} {a : A} {copy : Copy}

theorem Tracks.view_eq (tracks : Tracks line c a copy) (good : copy ≠ .stale) :
    c.view line a = c.memory a := by
  unfold view
  cases copy with
  | none => exact if_pos tracks
  | fresh =>
    rw [if_neg (by rw [tracks.1]; decide)]
    exact tracks.2
  | stale => exact absurd rfl good

theorem Tracks.absent_iff (tracks : Tracks line c a copy) :
    c.state (line a) = .absent ↔ copy = .none := by
  cases copy with
  | none => exact iff_of_true tracks rfl
  | fresh => exact iff_of_false (by rw [tracks.1]; decide) (by decide)
  | stale => exact iff_of_false (by rw [show c.state (line a) = _ from tracks]; decide) (by decide)

theorem Tracks.stale (tracks : Tracks line c a copy) (present : copy ≠ .none) :
    Tracks line c a .stale := by
  cases copy with
  | none => exact absurd rfl present
  | fresh => exact tracks.1
  | stale => exact tracks

/-- Nothing is changed where the address is. -/
theorem Tracks.congr (tracks : Tracks line c a copy) (state : c'.state (line a) = c.state (line a))
    (data : c'.data a = c.data a) (memory : c'.memory a = c.memory a) :
    Tracks line c' a copy := by
  cases copy with
  | none => exact state.trans tracks
  | fresh => exact ⟨state.trans tracks.1, data.trans (tracks.2.trans memory.symm)⟩
  | stale => exact state.trans tracks

end Tracks

section Copies

variable [DecidableEq A] [DecidableEq L] (line : A → L)

/-- The copy after an event, whatever the values are. -/
def Copy.step (a : A) : Copy → Event A L α → Copy
  | copy, .fill l => if line a = l ∧ copy = none then fresh else copy
  | copy, .evict l => if line a = l then none else copy
  | copy, .write _ _ => copy
  | copy, .store a' _ => if a = a' ∧ copy ≠ none then stale else copy

/-- The copy after events, from a cache that has none. -/
def copyAfter (t : List (Event A L α)) (a : A) : Copy := t.foldl (Copy.step line a) .none

variable {line} {c : LineCache A L α} {s : Finset L} {a : A} {e : Event A L α}
  {t : List (Event A L α)} {copy : Copy}

theorem copyAfter_concat :
    copyAfter line (t ++ [e]) a = (copyAfter line t a).step line a e := by
  rw [copyAfter, List.foldl_append]
  rfl

theorem copyAfter_shape : copyAfter line (t.map Event.shape) a = copyAfter line t a := by
  rw [copyAfter, copyAfter, List.foldl_map]
  refine List.foldl_ext _ _ _ fun copy e _ => ?_
  cases e <;> rfl

theorem Tracks.step (tracks : Tracks line c a copy) (apart : e.Apart line s)
    (inside : line a ∈ s) : Tracks line (c.step line e) a (copy.step line a e) := by
  have absent := tracks.absent_iff
  cases e with
  | fill l =>
    dsimp only [Copy.step]
    split_ifs with comes
    · obtain ⟨rfl, rfl⟩ := comes
      exact ⟨if_pos ⟨rfl, tracks⟩, if_pos ⟨rfl, tracks⟩⟩
    · have kept : ¬ (line a = l ∧ c.state l = .absent) := by
        rintro ⟨rfl, gone⟩
        exact comes ⟨rfl, absent.mp gone⟩
      exact tracks.congr (if_neg kept) (if_neg kept) rfl
  | evict l =>
    dsimp only [Copy.step]
    split_ifs with leaves
    · exact if_pos leaves
    · exact tracks.congr (if_neg leaves) rfl (if_neg fun both => leaves both.1)
  | write a' v =>
    have elsewhere : line a ≠ line a' := fun same => apart (same ▸ inside)
    have distinct : a ≠ a' := fun same => elsewhere (congrArg line same)
    exact tracks.congr (if_neg elsewhere)
      ((if_neg distinct).trans (if_neg fun both => elsewhere both.1)) rfl
  | store a' v =>
    dsimp only [Copy.step]
    split_ifs with overtaken
    · exact tracks.stale overtaken.2
    · by_cases here : a = a'
      · have none : copy = .none := by
          by_contra present
          exact overtaken ⟨here, present⟩
        subst none
        exact tracks
      · exact tracks.congr rfl rfl (if_neg here)

/-- From absent lines on, the cache has the copy that the events tell. -/
theorem tracks_run (absent : c.state (line a) = .absent) (apart : ∀ e ∈ t, e.Apart line s)
    (inside : line a ∈ s) : Tracks line (c.run line t) a (copyAfter line t a) := by
  induction t using List.reverseRecOn with
  | nil => exact absent
  | append_singleton t e ih =>
    rw [run_concat, copyAfter_concat]
    refine (ih fun e' member => apart e' (List.mem_append_left _ member)).step ?_ inside
    exact apart e (List.mem_append_right _ (List.mem_singleton_self e))

/-- Nothing but a store to the address or the end of its line changes how a stale copy differs. -/
theorem step_of_stale (stale : c.state (line a) = .clean)
    (still : Copy.stale.step line a e = .stale)
    (other : ∀ v, e ≠ .store a v) (apart : e.Apart line s) (inside : line a ∈ s) :
    (c.step line e).data a = c.data a ∧ (c.step line e).memory a = c.memory a := by
  cases e with
  | fill l =>
    refine ⟨if_neg fun both => ?_, rfl⟩
    obtain ⟨rfl, absent⟩ := both
    rw [stale] at absent
    cases absent
  | evict l =>
    refine ⟨rfl, if_neg fun both => ?_⟩
    obtain ⟨rfl, _⟩ := both
    simp [Copy.step] at still
  | write a' v =>
    have elsewhere : line a ≠ line a' := fun same => apart (same ▸ inside)
    refine ⟨?_, rfl⟩
    have distinct : a ≠ a' := fun same => elsewhere (congrArg line same)
    simp [LineCache.step, write, fill, distinct, elsewhere]
  | store a' v =>
    have distinct : a ≠ a' := fun same => other v (same ▸ rfl)
    exact ⟨rfl, if_neg distinct⟩

/-- The copy does not depend on the values. -/
theorem tracks_run_of_shape {t' : List (Event A L α)} (absent : c.state (line a) = .absent)
    (apart : ∀ e ∈ t, e.Apart line s) (inside : line a ∈ s)
    (same : t'.map Event.shape = t.map Event.shape) :
    Tracks line (c.run line t') a (copyAfter line t a) := by
  rw [← copyAfter_shape, ← same, copyAfter_shape]
  refine tracks_run absent (apart_of_shape ?_) inside
  rw [same]
  simpa [Event.apart_shape] using apart

theorem Copy.of_step_stale (stale : copy.step line a e = .stale) :
    copy = .stale ∨ ∃ v, e = .store a v := by
  cases e with
  | fill l =>
    dsimp only [Copy.step] at stale
    split_ifs at stale
    exact .inl stale
  | evict l =>
    dsimp only [Copy.step] at stale
    split_ifs at stale
    exact .inl stale
  | write a' v => exact .inl stale
  | store a' v =>
    dsimp only [Copy.step] at stale
    split_ifs at stale with overtaken
    · exact .inr ⟨v, by rw [overtaken.1]⟩
    · exact .inl stale

/-- A stale copy can differ: some values of what is stored are not what the processor has. -/
theorem exists_data_ne [Nontrivial α] (absent : c.state (line a) = .absent)
    (apart : ∀ e ∈ t, e.Apart line s) (inside : line a ∈ s) (stale : copyAfter line t a = .stale) :
    ∃ t', t'.map Event.shape = t.map Event.shape ∧
      (c.run line t').data a ≠ (c.run line t').memory a := by
  induction t using List.reverseRecOn with
  | nil => cases stale
  | append_singleton t e ih =>
    have before : ∀ e' ∈ t, e'.Apart line s := fun e' member =>
      apart e' (List.mem_append_left _ member)
    have last : e.Apart line s := apart e (List.mem_append_right _ (List.mem_singleton_self e))
    rw [copyAfter_concat] at stale
    by_cases stores : ∃ v, e = .store a v
    · -- any value but the one that the processor has
      obtain ⟨v, rfl⟩ := stores
      obtain ⟨v', differs⟩ := exists_ne ((c.run line t).data a)
      refine ⟨t ++ [.store a v'], by simp [Event.shape], ?_⟩
      rw [run_concat]
      simpa [LineCache.step, store] using differs.symm
    · have was : copyAfter line t a = .stale := (Copy.of_step_stale stale).resolve_right stores
      rw [was] at stale
      obtain ⟨t', same, differs⟩ := ih before was
      have clean : Tracks line (c.run line t') a .stale :=
        was ▸ tracks_run_of_shape absent before inside same
      obtain ⟨data, memory⟩ := step_of_stale clean stale (fun v is => stores ⟨v, is⟩) last inside
      refine ⟨t' ++ [e], by simp [same], ?_⟩
      rw [run_concat, data, memory]
      exact differs

/-- The processor reads what is in memory, whatever was stored, if and only if its copy is not
stale. -/
theorem view_eq_memory_iff [Nontrivial α] {h : List (Event A L Unit)}
    (absent : c.state (line a) = .absent) (apart : ∀ e ∈ h, e.Apart line s)
    (inside : line a ∈ s) :
    (∀ t : List (Event A L α), t.map Event.shape = h →
      (c.run line t).view line a = (c.run line t).memory a) ↔ copyAfter line h a ≠ .stale := by
  constructor
  · intro reads stale
    obtain ⟨v⟩ : Nonempty α := inferInstance
    have shape : (h.map (Event.withValue v)).map Event.shape = h := map_shape_withValue v h
    have apart' : ∀ e ∈ h.map (Event.withValue v), e.Apart line s :=
      apart_of_shape (by rw [shape]; exact apart)
    have stale' : copyAfter line (h.map (Event.withValue v)) a = .stale := by
      rw [← copyAfter_shape, shape, stale]
    obtain ⟨t, same, differs⟩ := exists_data_ne absent apart' inside stale'
    have clean : Tracks line (c.run line t) a .stale :=
      stale' ▸ tracks_run_of_shape absent apart' inside same
    have read := reads t (same.trans shape)
    rw [view, if_neg (by rw [show (c.run line t).state (line a) = _ from clean]; decide)] at read
    exact differs read
  · rintro fresh t rfl
    refine (tracks_run absent (apart_of_shape apart) inside).view_eq ?_
    rwa [copyAfter_shape] at fresh

end Copies

end LineCache
