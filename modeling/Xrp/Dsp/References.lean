import Xrp.Dsp.Buffer

/-!
# Reference counts on the DSP

`retain_refcounted` and `release_refcounted` of `xrp_dsp.c`, and all API calls that make them: on
the device, on the buffer group, and on the buffers of the group. The count is an unsigned word. It
is decremented before it is known whether there was a reference, so that a release which is refused
still changes it.
-/

namespace Xrp.Dsp

/-- `retain_refcounted` of an object. -/
def retainRefcounted (count : U32) : XrpStatus × U32 := (.success, count + 1)

/-- `release_refcounted` of an object. -/
def releaseRefcounted (count : U32) : XrpStatus × U32 :=
  (if count > 0 then .success else .failure, count - 1)

/-- What a call does to a count. -/
inductive RefOp : Type
  | retain
  | release
  deriving DecidableEq

/-- The result and the count after it. -/
def RefOp.act : RefOp → U32 → XrpStatus × U32
  | retain => retainRefcounted
  | release => releaseRefcounted

/-- The count after a call that does this to it, or nothing. -/
def countAfter : Option RefOp → U32 → U32
  | none, count => count
  | some op, count => (op.act count).2

/-! ## Objects -/

/-- The objects of the DSP: the device, and the group of a command with its buffers. -/
structure Objects (n : ℕ) : Type where
  device : U32
  group : U32
  buffers : Fin n → XrpBuffer

/-- An object. -/
inductive Object (n : ℕ) : Type
  | device
  | group
  | buffer (b : Fin n)
  deriving DecidableEq

/-- A call of the API: `xrp_retain_device` and `xrp_release_device`, the same for the group, and the
calls for buffers. -/
inductive ObjectCall (n : ℕ) : Type
  | device (op : RefOp)
  | group (op : RefOp)
  | buffer (c : ApiCall n)

section Model

variable {n : ℕ}

/-- The reference count of an object. -/
def Objects.count (s : Objects n) : Object n → U32
  | .device => s.device
  | .group => s.group
  | .buffer b => (s.buffers b).refCount

/-- What a call does. -/
def ObjectCall.act : ObjectCall n → Objects n → Objects n
  | device op, s => { s with device := (op.act s.device).2 }
  | group op, s => { s with group := (op.act s.group).2 }
  | buffer c, s => { s with buffers := (c.act s.buffers).2 }

/-- The retain or release that a call makes on a buffer. `xrp_unmap_buffer` does not look at the
result of its release. -/
def bufferRefOp (buffers : Fin n → XrpBuffer) (b : Fin n) : ApiCall n → Option RefOp
  | .getBufferFromGroup idx => if idx.toNat = b then some .retain else none
  | .retainBuffer b' => if b' = b then some .retain else none
  | .releaseBuffer b' => if b' = b then some .release else none
  | .mapBuffer b' offset size mapFlags =>
    if b' = b ∧ (xrpMapBuffer (buffers b) offset size mapFlags).1.isSome then some .retain else none
  | .unmapBuffer b' p =>
    if b' = b ∧ (xrpUnmapBuffer (buffers b) p).1 = .success then some .release else none
  | .bufferSize _ => none
  | .bufferFlags _ => none

/-- The retain or release that a call makes on an object. -/
def ObjectCall.refOp (s : Objects n) : Object n → ObjectCall n → Option RefOp
  | .device, .device op => some op
  | .group, .group op => some op
  | .buffer b, .buffer c => bufferRefOp s.buffers b c
  | _, _ => none

/-- A retain or release in a run: the count before, the result, and the count after. -/
structure RefEvent : Type where
  op : RefOp
  before : U32
  status : XrpStatus
  after : U32
  deriving DecidableEq

/-- The objects after calls. -/
def runCalls : List (ObjectCall n) → Objects n → Objects n
  | [], s => s
  | c :: calls, s => runCalls calls (c.act s)

/-- The retains and releases of an object in a run. -/
def events (o : Object n) : List (ObjectCall n) → Objects n → List RefEvent
  | [], _ => []
  | c :: calls, s =>
    match c.refOp s o with
    | none => events o calls (c.act s)
    | some op =>
      ⟨op, s.count o, (op.act (s.count o)).1, (c.act s).count o⟩ :: events o calls (c.act s)

/-- The number of retains. -/
def retains (es : List RefEvent) : ℕ := es.countP fun e => decide (e.op = .retain)

/-- The number of releases that succeeded. -/
def released (es : List RefEvent) : ℕ :=
  es.countP fun e => decide (e.op = .release ∧ e.status = .success)

/-- In every beginning of the run there are at most as many releases that succeed as retains, and a
release that fails leaves the count as it was. -/
structure SoundCounts (o : Object n) (calls : List (ObjectCall n)) (s : Objects n) : Prop where
  covered : ∀ front, front <+: calls →
    released (events o front s) ≤ retains (events o front s)
  unchanged : ∀ e ∈ events o calls s, e.op = .release → e.status = .failure → e.after = e.before

end Model

/-! ## Calls and counts -/

section Counts

variable {n : ℕ} {s : Objects n} {o : Object n} {calls : List (ObjectCall n)}

theorem refCount_onBuffer {α : Type} (buffers : Fin n → XrpBuffer) (b b' : Fin n)
    (f : XrpBuffer → α × XrpBuffer) :
    ((onBuffer buffers b' f).2 b).refCount =
      if b' = b then (f (buffers b)).2.refCount else (buffers b).refCount := by
  by_cases same : b' = b
  · subst same
    simp [onBuffer]
  · simp [onBuffer, same, Ne.symm same]

theorem refCount_xrpMapBuffer (buffer : XrpBuffer) (offset size mapFlags : U32) :
    (xrpMapBuffer buffer offset size mapFlags).2.refCount =
      if (xrpMapBuffer buffer offset size mapFlags).1.isSome then buffer.refCount + 1
      else buffer.refCount := by
  by_cases fits : offset ≤ buffer.size ∧ size ≤ buffer.size - offset ∧
      buffer.allowedAccess &&& mapFlags = mapFlags
  · rw [xrpMapBuffer, if_pos fits]
    rfl
  · rw [xrpMapBuffer, if_neg fits]
    rfl

theorem refCount_xrpUnmapBuffer (buffer : XrpBuffer) (p : U32) :
    (xrpUnmapBuffer buffer p).2.refCount =
      if (xrpUnmapBuffer buffer p).1 = .success then buffer.refCount - 1
      else buffer.refCount := by
  by_cases inside : buffer.ptr ≤ p ∧ p - buffer.ptr ≤ buffer.size
  · rw [xrpUnmapBuffer, if_pos inside]
    rfl
  · rw [xrpUnmapBuffer, if_neg inside]
    rfl

/-- A call acts on the count of a buffer by a retain, by a release, or not at all. -/
theorem refCount_act (buffers : Fin n → XrpBuffer) (b : Fin n) (c : ApiCall n) :
    ((c.act buffers).2 b).refCount =
      countAfter (bufferRefOp buffers b c) (buffers b).refCount := by
  cases c with
  | getBufferFromGroup idx =>
    simp only [bufferRefOp, ApiCall.act]
    by_cases inside : idx.toNat < n
    · rw [dif_pos inside, refCount_onBuffer]
      simp only [Fin.ext_iff]
      split_ifs <;> rfl
    · have other : idx.toNat ≠ b := fun same => inside (same ▸ b.isLt)
      rw [dif_neg inside, if_neg other]
      rfl
  | retainBuffer b' =>
    simp only [bufferRefOp, ApiCall.act, refCount_onBuffer]
    split_ifs <;> rfl
  | releaseBuffer b' =>
    simp only [bufferRefOp, ApiCall.act, refCount_onBuffer]
    split_ifs <;> rfl
  | mapBuffer b' offset size mapFlags =>
    simp only [bufferRefOp, ApiCall.act, refCount_onBuffer, refCount_xrpMapBuffer, ite_and]
    split_ifs <;> rfl
  | unmapBuffer b' p =>
    simp only [bufferRefOp, ApiCall.act, refCount_onBuffer, refCount_xrpUnmapBuffer, ite_and]
    split_ifs <;> rfl
  | bufferSize b' => rfl
  | bufferFlags b' => rfl

/-- The same for all objects. -/
theorem count_act (s : Objects n) (o : Object n) (c : ObjectCall n) :
    (c.act s).count o = countAfter (c.refOp s o) (s.count o) := by
  cases c with
  | device op => cases o <;> rfl
  | group op => cases o <;> rfl
  | buffer c =>
    cases o with
    | device => rfl
    | group => rfl
    | buffer b => exact refCount_act s.buffers b c

/-- A call that makes no retain or release of the object keeps its count, and another adds its event
to the run. -/
theorem events_cons (o : Object n) (c : ObjectCall n) (calls : List (ObjectCall n))
    (s : Objects n) :
    (c.refOp s o = none ∧ (c.act s).count o = s.count o ∧
      events o (c :: calls) s = events o calls (c.act s)) ∨
    ∃ op, c.refOp s o = some op ∧ (c.act s).count o = (op.act (s.count o)).2 ∧
      events o (c :: calls) s =
        ⟨op, s.count o, (op.act (s.count o)).1, (op.act (s.count o)).2⟩ ::
          events o calls (c.act s) := by
  have after := count_act s o c
  cases made : c.refOp s o with
  | none =>
    rw [made] at after
    refine .inl ⟨rfl, after, ?_⟩
    rw [events, made]
  | some op =>
    rw [made] at after
    have same : (c.act s).count o = (op.act (s.count o)).2 := after
    refine .inr ⟨op, rfl, same, ?_⟩
    rw [events, made, same]

theorem events_append (o : Object n) (calls calls' : List (ObjectCall n)) (s : Objects n) :
    events o (calls ++ calls') s = events o calls s ++ events o calls' (runCalls calls s) := by
  induction calls generalizing s with
  | nil => rfl
  | cons c calls ih =>
    rw [List.cons_append, runCalls]
    rcases events_cons o c (calls ++ calls') s with ⟨made, -, all⟩ | ⟨op, made, -, all⟩
    · rcases events_cons o c calls s with ⟨-, -, some⟩ | ⟨op', made', -, -⟩
      · rw [all, some, ih]
      · rw [made] at made'
        cases made'
    · rcases events_cons o c calls s with ⟨made', -, -⟩ | ⟨op', made', -, some⟩
      · rw [made] at made'
        cases made'
      · rw [made] at made'
        cases made'
        rw [all, some, ih, List.cons_append]

/-! ## Runs -/

/-- A release that finds no reference fails and leaves the largest count. -/
theorem release_zero : RefOp.release.act 0 = (.failure, 0xffffffff) := by decide

theorem release_of_ne_zero {count : U32} (some : count ≠ 0) :
    RefOp.release.act count = (.success, count - 1) := by
  have pos : count > 0 :=
    BitVec.lt_def.mpr (Nat.pos_of_ne_zero fun zero => some (BitVec.eq_of_toNat_eq zero))
  rw [RefOp.act, releaseRefcounted, if_pos pos]

theorem toNat_sub_one {count : U32} {k : ℕ} (word : count.toNat = k % 2 ^ 32) (some : count ≠ 0) :
    0 < k ∧ (count - 1).toNat = (k - 1) % 2 ^ 32 := by
  have pos : count.toNat ≠ 0 := fun zero => some (BitVec.eq_of_toNat_eq zero)
  have one : (1 : U32).toNat = 1 := rfl
  have less := count.isLt
  rw [BitVec.toNat_sub, one]
  omega

theorem retains_cons (e : RefEvent) (es : List RefEvent) :
    retains (e :: es) = retains es + if e.op = .retain then 1 else 0 := by
  simp [retains, List.countP_cons]

theorem released_cons (e : RefEvent) (es : List RefEvent) :
    released (e :: es) = released es + if e.op = .release ∧ e.status = .success then 1 else 0 := by
  simp [released, List.countP_cons]

/-- As long as no release finds the count at zero, the releases are covered by the retains and the
references there were: the count is their number, up to a multiple of `2 ^ 32`. -/
theorem balanced {k : ℕ} (word : (s.count o).toNat = k % 2 ^ 32)
    (held : ∀ e ∈ events o calls s, e.op = .release → e.before ≠ 0) :
    released (events o calls s) ≤ retains (events o calls s) + k := by
  induction calls generalizing s k with
  | nil => exact Nat.zero_le _
  | cons c calls ih =>
    rcases events_cons o c calls s with ⟨-, after, all⟩ | ⟨op, -, after, all⟩
    · rw [all] at held ⊢
      exact ih (after ▸ word) held
    · rw [all] at held ⊢
      have later := fun e mem => held e (List.mem_cons_of_mem _ mem)
      cases op with
      | retain =>
        have word' : ((c.act s).count o).toNat = (k + 1) % 2 ^ 32 := by
          rw [after, RefOp.act, retainRefcounted, BitVec.toNat_add, word]
          exact Nat.mod_add_mod k (2 ^ 32) 1
        have rest := ih word' later
        rw [released_cons, if_neg nofun, retains_cons, if_pos rfl]
        omega
      | release =>
        have some : s.count o ≠ 0 := held _ List.mem_cons_self rfl
        obtain ⟨pos, word'⟩ := toNat_sub_one word some
        rw [release_of_ne_zero some] at after ⊢
        dsimp only at after
        have rest := ih (after.symm ▸ word') later
        rw [released_cons, if_pos ⟨rfl, rfl⟩, retains_cons, if_neg nofun]
        omega

/-- A release in a run, by what it finds. -/
theorem status_of_mem_events {e : RefEvent} (mem : e ∈ events o calls s) :
    (e.status, e.after) = e.op.act e.before := by
  induction calls generalizing s with
  | nil => cases mem
  | cons c calls ih =>
    rcases events_cons o c calls s with ⟨-, -, all⟩ | ⟨op, -, -, all⟩
    · rw [all] at mem
      exact ih mem
    · rw [all] at mem
      rcases List.mem_cons.mp mem with rfl | later
      · rfl
      · exact ih later

/-- **Reference counts of the DSP are sound** for an object without references, if and only if no
release finds the count at zero. -/
theorem soundCounts_iff (o : Object n) (calls : List (ObjectCall n)) (s : Objects n)
    (fresh : s.count o = 0) :
    SoundCounts o calls s ↔ ∀ e ∈ events o calls s, e.op = .release → e.before ≠ 0 := by
  constructor
  · intro sound e mem release zero
    have act := status_of_mem_events mem
    rw [release, zero, release_zero] at act
    have failed : e.status = .failure := congrArg Prod.fst act
    have after : e.after = 0xffffffff := congrArg Prod.snd act
    have same := sound.unchanged e mem release failed
    rw [after, zero] at same
    exact absurd same (by decide)
  · intro held
    constructor
    · rintro front ⟨rest, rfl⟩
      have word : (s.count o).toNat = 0 % 2 ^ 32 := by rw [fresh]; rfl
      refine balanced word fun e mem => held e ?_
      rw [events_append]
      exact List.mem_append_left _ mem
    · intro e mem release failed
      have act := status_of_mem_events mem
      rw [release, release_of_ne_zero (held e mem release), failed] at act
      cases act

/-- Objects without references, with one buffer. -/
def freshObjects : Objects 1 := ⟨0, 0, fun _ => .ofDescriptor ⟨bufferFlagRead, 16, 0x1000⟩⟩

/-- A buffer is taken from the group, mapped, unmapped and released. -/
def takenAndReleased : List (ObjectCall 1) :=
  [.buffer (.getBufferFromGroup 0), .buffer (.mapBuffer 0 0 16 xrpRead),
    .buffer (.unmapBuffer 0 0x1000), .buffer (.releaseBuffer 0)]

theorem soundCounts_takenAndReleased : SoundCounts (.buffer 0) takenAndReleased freshObjects :=
  (soundCounts_iff (.buffer 0) takenAndReleased freshObjects rfl).mpr (by decide +kernel)

/-- A buffer without references is released twice. The first release fails and changes the count;
the second one succeeds. -/
theorem not_soundCounts_releasedTwice :
    events (.buffer 0) [.buffer (.releaseBuffer 0), .buffer (.releaseBuffer 0)] freshObjects =
      [⟨.release, 0, .failure, 0xffffffff⟩, ⟨.release, 0xffffffff, .success, 0xfffffffe⟩] ∧
    ¬ SoundCounts (.buffer 0) [.buffer (.releaseBuffer 0), .buffer (.releaseBuffer 0)]
      freshObjects := by
  have run : events (.buffer 0) [.buffer (.releaseBuffer 0), .buffer (.releaseBuffer 0)]
      freshObjects =
      [⟨.release, 0, .failure, 0xffffffff⟩, ⟨.release, 0xffffffff, .success, 0xfffffffe⟩] := by
    decide +kernel
  refine ⟨run, fun sound => ?_⟩
  have covered := sound.covered _ (List.prefix_refl _)
  rw [run] at covered
  exact absurd covered (by decide)

end Counts

end Xrp.Dsp
