import Xrp.Native.Buffers

/-!
# References to the objects of the native library

What the counts of the library should be, given the references that are not of buffers, and that
the calls which take and give back references keep the ledger exact.
-/

namespace Xrp.Native.Api

open Dsp (XrpStatus)

/-! ## What the counts should be -/

/-- The object that an event is about. -/
def Event.object : Event → Object
  | .free o => o
  | .ioctlFree b => .buffer b
  | .close d => .device d
  | .freeRecords g => .group g

namespace Library

variable (s : Library) {out out' : Object → ℕ} {o : Object} {b d g : ℕ}

/-- The object was made. -/
def Made : Object → Prop
  | .device d => d < s.nextDevice
  | .buffer b => b < s.nextBuffer
  | .group g => g < s.nextGroup

instance (o : Object) : Decidable (s.Made o) :=
  match o with
  | .device d => inferInstanceAs (Decidable (d < s.nextDevice))
  | .buffer b => inferInstanceAs (Decidable (b < s.nextBuffer))
  | .group g => inferInstanceAs (Decidable (g < s.nextGroup))

/-- `XRP_IOCTL_FREE` is only for buffers with memory of a device. -/
def Applies : Event → Prop
  | .ioctlFree b => (s.buffers b).type ≠ .host
  | _ => True

instance (e : Event) : Decidable (s.Applies e) :=
  match e with
  | .ioctlFree b => inferInstanceAs (Decidable ((s.buffers b).type ≠ .host))
  | .free _ | .close _ | .freeRecords _ => inferInstanceAs (Decidable True)

/-- The object at whose end an event is due. -/
def due (e : Event) : Option Object :=
  if s.Made e.object ∧ s.Applies e then some e.object else none

/-- The number of buffers with memory of a device that there are references to. -/
def onDevice (out : Object → ℕ) (d : ℕ) : ℕ :=
  ((Finset.range s.nextBuffer).filter fun b =>
    (s.buffers b).type = .device d ∧ out (.buffer b) ≠ 0).card

/-- All references to an object, where `out` counts those that are not of buffers. -/
def total (out : Object → ℕ) : Object → ℕ
  | .device d => out (.device d) + s.onDevice out d
  | o => out o

/-- The ledger is exact for the references `out` and those of buffers to devices. -/
structure Counted (out : Object → ℕ) : Prop where
  exact : s.ledger.Exact s.due (s.total out)
  unmade : ∀ o, ¬ s.Made o → out o = 0
  device : ∀ b d, b < s.nextBuffer → (s.buffers b).type = .device d → d < s.nextDevice

variable {s}

theorem Counted.made (counted : s.Counted out) (held : 0 < out o) : s.Made o := by
  by_contra other
  exact held.ne' (counted.unmade o other)

theorem due_eq_some_iff {e : Event} :
    s.due e = some o ↔ s.Made o ∧ s.Applies e ∧ e.object = o := by
  unfold due
  split_ifs with done
  · constructor
    · rintro ⟨⟩
      exact ⟨done.1, done.2, rfl⟩
    · rintro ⟨-, -, rfl⟩
      rfl
  · refine iff_of_false (by simp) ?_
    rintro ⟨made, applies, rfl⟩
    exact done ⟨made, applies⟩

theorem due_device (made : s.Made (.device d)) (e : Event) :
    e ∈ [Event.close d, .free (.device d)] ↔ s.due e = some (.device d) := by
  rw [due_eq_some_iff]
  cases e <;> simp [made, Applies, Event.object]

theorem due_group (made : s.Made (.group g)) (e : Event) :
    e ∈ [Event.freeRecords g, .free (.group g)] ↔ s.due e = some (.group g) := by
  rw [due_eq_some_iff]
  cases e <;> simp [made, Applies, Event.object]

theorem due_hostBuffer (made : s.Made (.buffer b)) (host : (s.buffers b).type = .host)
    (e : Event) : e ∈ [Event.free (.buffer b)] ↔ s.due e = some (.buffer b) := by
  rw [due_eq_some_iff]
  cases e <;> simp [made, Applies, Event.object]
  rintro other rfl
  exact other host

theorem due_deviceBuffer (made : s.Made (.buffer b)) (device : (s.buffers b).type = .device d)
    (e : Event) :
    e ∈ [Event.ioctlFree b, .free (.buffer b)] ↔ s.due e = some (.buffer b) := by
  rw [due_eq_some_iff]
  cases e <;> simp [made, Applies, Event.object]
  rintro rfl
  simp [device]

/-- A reference to a buffer of the client's memory, or one of several, does not matter to the
devices. -/
theorem total_update_buffer {n : ℕ}
    (same : (s.buffers b).type = .host ∨ (n = 0 ↔ out (.buffer b) = 0)) :
    s.total (Function.update out (.buffer b) n) = Function.update (s.total out) (.buffer b) n := by
  have devices : s.onDevice (Function.update out (.buffer b) n) = s.onDevice out := by
    funext d
    unfold onDevice
    congr 1
    ext b'
    by_cases equal : b' = b
    · rcases same with host | same
      · simp [equal, host]
      · simp [equal, same]
    · simp [equal]
  funext o
  cases o with
  | device d => simp [total, devices]
  | buffer b' => simp [total, Function.update_apply]
  | group g => simp [total]

theorem total_update_group (n : ℕ) :
    s.total (Function.update out (.group g) n) = Function.update (s.total out) (.group g) n := by
  funext o
  cases o with
  | device d => simp [total, onDevice]
  | buffer b => simp [total]
  | group g' => simp [total, Function.update_apply]

theorem total_update_device (n : ℕ) :
    s.total (Function.update out (.device d) n) =
      Function.update (s.total out) (.device d) (n + s.onDevice out d) := by
  funext o
  cases o with
  | device d' =>
    by_cases equal : d' = d
    · subst equal
      simp [total, onDevice]
    · simp [total, onDevice, equal]
  | buffer b => simp [total]
  | group g => simp [total]

/-- A buffer to which there is no reference left is not on its device. -/
theorem onDevice_last (made : b < s.nextBuffer) (device : (s.buffers b).type = .device d)
    (held : out (.buffer b) ≠ 0) (d' : ℕ) :
    s.onDevice (Function.update out (.buffer b) 0) d' + (if d' = d then 1 else 0) =
      s.onDevice out d' := by
  unfold onDevice
  split_ifs with equal
  · subst equal
    have member : b ∈ (Finset.range s.nextBuffer).filter fun b =>
        (s.buffers b).type = .device d' ∧ out (.buffer b) ≠ 0 := by
      simp [made, device, held]
    rw [← Finset.card_erase_add_one member]
    congr 2
    ext b'
    by_cases same : b' = b
    · simp [same]
    · simp [same]
  · rw [Nat.add_zero]
    congr 1
    ext b'
    by_cases same : b' = b
    · simp [same, device, Ne.symm equal]
    · simp [same]

theorem total_last (made : b < s.nextBuffer) (device : (s.buffers b).type = .device d)
    (held : out (.buffer b) ≠ 0) :
    s.total (Function.update out (.buffer b) 0) =
      Function.update (Function.update (s.total out) (.device d) (s.total out (.device d) - 1))
        (.buffer b) 0 := by
  have devices := onDevice_last made device held
  funext o
  cases o with
  | device d' =>
    have here := devices d'
    by_cases equal : d' = d
    · subst equal
      rw [if_pos rfl] at here
      simp only [total, ne_eq, reduceCtorEq, not_false_eq_true, Function.update_of_ne,
        Function.update_self]
      omega
    · rw [if_neg equal, Nat.add_zero] at here
      simp [total, equal, here]
  | buffer b' => simp [total, Function.update_apply]
  | group g => simp [total]

/-! ## References that are taken and given back -/

/-- Only what the account depends on has to stay. -/
theorem Counted.congr {s' : Library} (counted : s.Counted out) (ledger : s'.ledger = s.ledger)
    (types : ∀ b, (s'.buffers b).type = (s.buffers b).type)
    (devices : s'.nextDevice = s.nextDevice) (buffers : s'.nextBuffer = s.nextBuffer)
    (groups : s'.nextGroup = s.nextGroup) : s'.Counted out := by
  have made : s'.Made = s.Made := by
    funext o
    cases o <;> simp [Made, devices, buffers, groups]
  have due : s'.due = s.due := by
    funext e
    have applies : s'.Applies e ↔ s.Applies e := by
      cases e <;> simp [Applies, types]
    simp only [Library.due, made, applies]
  have total : s'.total out = s.total out := by
    funext o
    cases o <;> simp [Library.total, onDevice, types, buffers]
  refine ⟨?_, ?_, ?_⟩
  · rw [ledger, due, total]
    exact counted.exact
  · rw [made]
    exact counted.unmade
  · intro b d lt type
    rw [devices]
    exact counted.device b d (buffers ▸ lt) ((types b).symm.trans type)

theorem Counted.setLedger {l : Ledger Object Event} (counted : s.Counted out)
    (exact : l.Exact s.due (s.total out')) (unmade : ∀ o, ¬ s.Made o → out' o = 0) :
    Counted { s with ledger := l } out' :=
  ⟨exact, unmade, counted.device⟩

theorem Counted.update_unmade (counted : s.Counted out) (made : s.Made o) (n : ℕ) :
    ∀ o', ¬ s.Made o' → Function.update out o n o' = 0 := by
  intro o' other
  rw [Function.update_of_ne (fun same : o' = o => other (same ▸ made))]
  exact counted.unmade o' other

theorem total_retain (held : 0 < s.total out o) :
    s.total (Function.update out o (out o + 1)) =
      Function.update (s.total out) o (s.total out o + 1) := by
  cases o with
  | device d =>
    rw [total_update_device]
    congr 1
    simp only [total]
    omega
  | buffer b => exact total_update_buffer (.inr (by simpa [total] using held.ne'))
  | group g => exact total_update_group _

theorem Counted.made_of_total (counted : s.Counted out) (held : 0 < s.total out o) :
    s.Made o := by
  cases o with
  | device d =>
    by_contra other
    have none := counted.unmade (.device d) other
    simp only [total, none, Nat.zero_add, onDevice, Finset.card_pos] at held
    rcases held with ⟨b, member⟩
    simp only [Finset.mem_filter, Finset.mem_range] at member
    exact other (counted.device b d member.1 member.2.1)
  | buffer b => exact counted.made held
  | group g => exact counted.made held

theorem Counted.retain (counted : s.Counted out) (held : 0 < s.total out o) :
    Counted { s with ledger := s.ledger.retain o } (Function.update out o (out o + 1)) := by
  refine counted.setLedger ?_ (counted.update_unmade (counted.made_of_total held) _)
  rw [total_retain held]
  exact counted.exact.retain held

/-- `release_refcounted`, with what is done before if `last_refcount` holds. -/
theorem releaseRefcounted_eq {l : Ledger Object Event} (held : 0 < l.count o)
    (before : List Event) :
    (releaseRefcounted (some o)
      (if lastRefcount o l then { l with log := l.log ++ before } else l)).2 =
      l.release o (before ++ [.free o]) := by
  unfold releaseRefcounted lastRefcount Ledger.release Ledger.emit
  by_cases last : l.count o = 1
  · simp [last]
  · have more : l.count o - 1 ≠ 0 := by omega
    simp [last, more]

theorem releaseRefcounted_eq_release {l : Ledger Object Event} (held : 0 < l.count o) :
    (releaseRefcounted (some o) l).2 = l.release o [.free o] := by
  have eq := releaseRefcounted_eq held []
  rw [List.append_nil, List.nil_append, ite_id] at eq
  exact eq

theorem xrpReleaseDevice_eq {l : Ledger Object Event} (held : 0 < l.count (.device d)) :
    (xrpReleaseDevice d l).2 = l.release (.device d) [.close d, .free (.device d)] :=
  releaseRefcounted_eq held [.close d]

theorem Counted.releaseDevice (counted : s.Counted out) (held : 0 < out (.device d)) :
    Counted { s with ledger := (xrpReleaseDevice d s.ledger).2 }
      (Function.update out (.device d) (out (.device d) - 1)) := by
  have made := counted.made held
  have positive : 0 < s.total out (.device d) := Nat.add_pos_left held _
  have count : 0 < s.ledger.count (.device d) := by rwa [counted.exact.count]
  refine counted.setLedger ?_ (counted.update_unmade made _)
  have less : s.total (Function.update out (.device d) (out (.device d) - 1)) =
      Function.update (s.total out) (.device d) (s.total out (.device d) - 1) := by
    rw [total_update_device]
    congr 1
    simp only [total]
    omega
  rw [xrpReleaseDevice_eq count, less]
  exact counted.exact.release positive (by simp) (due_device made)

theorem Counted.releaseHostBuffer (counted : s.Counted out) (held : 0 < out (.buffer b))
    (host : (s.buffers b).type = .host) :
    Counted { s with ledger := (releaseRefcounted (some (.buffer b)) s.ledger).2 }
      (Function.update out (.buffer b) (out (.buffer b) - 1)) := by
  have made := counted.made held
  have count : 0 < s.ledger.count (.buffer b) := by rwa [counted.exact.count]
  refine counted.setLedger ?_ (counted.update_unmade made _)
  rw [releaseRefcounted_eq_release count, total_update_buffer (.inl host)]
  exact counted.exact.release held (by simp) (due_hostBuffer made host)

theorem xrpReleaseBuffer_frame (b : ℕ) (s : Library) :
    (xrpReleaseBuffer b s).2 = { s with ledger := (xrpReleaseBuffer b s).2.ledger } := rfl

/-- The last reference to a buffer gives back that of the buffer to its device. -/
theorem xrpReleaseBuffer_last (device : (s.buffers b).type = .device d)
    (last : s.ledger.count (.buffer b) = 1) (count : 0 < s.ledger.count (.device d)) :
    ((s.ledger.release (.device d) [.close d, .free (.device d)]).release (.buffer b)
      [.ioctlFree b, .free (.buffer b)]).Same (xrpReleaseBuffer b s).2.ledger := by
  have other : Object.buffer b ≠ .device d := by simp
  have inner : (xrpReleaseDevice d (s.ledger.emit (.ioctlFree b))).2 =
      (s.ledger.emit (.ioctlFree b)).release (.device d) [.close d, .free (.device d)] :=
    xrpReleaseDevice_eq (l := s.ledger.emit (.ioctlFree b)) count
  have stays : ((s.ledger.emit (.ioctlFree b)).release (.device d)
      [.close d, .free (.device d)]).count (.buffer b) = 1 :=
    (Ledger.release_count_of_ne other _).trans last
  have ledger : (xrpReleaseBuffer b s).2.ledger =
      ((s.ledger.emit (.ioctlFree b)).release (.device d) [.close d, .free (.device d)]).release
        (.buffer b) [.free (.buffer b)] := by
    rw [← releaseRefcounted_eq_release (stays.symm ▸ Nat.one_pos), ← inner]
    simp [xrpReleaseBuffer, lastRefcount, last, device]
  rw [ledger]
  refine ⟨rfl, ?_⟩
  rw [Ledger.release_log, Ledger.release_log, Ledger.release_log, Ledger.release_log, stays]
  rw [Ledger.release_count_of_ne other, last, if_pos rfl, if_pos rfl]
  simp only [Ledger.emit, List.append_assoc, List.singleton_append]
  exact List.perm_middle.append_left _

theorem xrpReleaseBuffer_shared (more : 1 < s.ledger.count (.buffer b)) (finals : List Event) :
    (xrpReleaseBuffer b s).2.ledger = s.ledger.release (.buffer b) finals := by
  have notLast : s.ledger.count (.buffer b) ≠ 1 := by omega
  have held : 0 < s.ledger.count (.buffer b) := by omega
  have ledger : (xrpReleaseBuffer b s).2.ledger =
      (releaseRefcounted (some (.buffer b)) s.ledger).2 := by
    simp [xrpReleaseBuffer, lastRefcount, notLast]
  rw [ledger, releaseRefcounted_eq_release held]
  simp [Ledger.release, notLast]

/-- **`xrp_release_buffer`** gives back one reference. -/
theorem Counted.releaseBuffer (counted : s.Counted out) (held : 0 < out (.buffer b)) :
    (xrpReleaseBuffer b s).2.Counted (Function.update out (.buffer b) (out (.buffer b) - 1)) := by
  have made := counted.made held
  have count : s.ledger.count (.buffer b) = out (.buffer b) := counted.exact.count _
  cases type : (s.buffers b).type with
  | host =>
    have ledger : (xrpReleaseBuffer b s).2 =
        { s with ledger := (releaseRefcounted (some (.buffer b)) s.ledger).2 } := by
      simp [xrpReleaseBuffer, type]
    rw [ledger]
    exact counted.releaseHostBuffer held type
  | device d =>
    rw [xrpReleaseBuffer_frame]
    refine counted.setLedger ?_ (counted.update_unmade made _)
    have finals := due_deviceBuffer made type
    by_cases last : out (.buffer b) = 1
    · have onIt : s.onDevice (Function.update out (.buffer b) 0) d + (if d = d then 1 else 0) =
          s.onDevice out d := onDevice_last made type held.ne' d
      rw [if_pos rfl] at onIt
      have positive : 0 < s.total out (.device d) := by
        simp only [total]
        omega
      have device := counted.exact.release positive (by simp)
        (due_device (counted.device b d made type))
      have same := xrpReleaseBuffer_last type (count.trans last)
        (by rwa [counted.exact.count])
      have both := (device.release (o := .buffer b) (by simpa [total] using held) (by simp)
        finals).of_same same
      rw [last, total_last made type held.ne']
      simpa [total, last] using both
    · have more : 1 < s.ledger.count (.buffer b) := by omega
      rw [xrpReleaseBuffer_shared more [.ioctlFree b, .free (.buffer b)],
        total_update_buffer (.inr (by omega))]
      exact counted.exact.release held (by simp) finals

/-- The references without those of some records. -/
def less (out : Object → ℕ) (records : List Record) : Object → ℕ
  | .buffer b => out (.buffer b) - records.countP (·.buffer = b)
  | o => out o

theorem less_nil (out : Object → ℕ) : less out [] = out := by
  funext o
  cases o <;> rfl

theorem less_cons (out : Object → ℕ) (r : Record) (records : List Record) :
    less (Function.update out (.buffer r.buffer) (out (.buffer r.buffer) - 1)) records =
      less out (r :: records) := by
  funext o
  cases o with
  | device d => simp [less]
  | group g => simp [less]
  | buffer b =>
    by_cases same : b = r.buffer
    · subst same
      simp only [less, Function.update_self, List.countP_cons, decide_true, if_true]
      omega
    · simp [less, same, Ne.symm same]

/-- The loop of `xrp_release_buffer_group` gives back the references of the records. -/
theorem Counted.releaseRecords {records : List Record} (counted : s.Counted out)
    (held : ∀ b, records.countP (·.buffer = b) ≤ out (.buffer b)) :
    (releaseRecords records s).Counted (less out records) := by
  induction records generalizing s out with
  | nil => rwa [less_nil]
  | cons r records ih =>
    have first : 0 < out (.buffer r.buffer) := by
      have here := held r.buffer
      rw [List.countP_cons, if_pos (decide_eq_true rfl)] at here
      omega
    have rest := ih (counted.releaseBuffer first) (by
      intro b
      have here := held b
      rw [List.countP_cons] at here
      by_cases same : b = r.buffer
      · subst same
        simp only [decide_true, if_true] at here
        rw [Function.update_self]
        omega
      · rw [Function.update_of_ne (by simpa using same)]
        omega)
    rwa [less_cons] at rest

theorem releaseRecords_frame (records : List Record) (s : Library) :
    releaseRecords records s = { s with ledger := (Api.releaseRecords records s).ledger } := by
  induction records generalizing s with
  | nil => rfl
  | cons r records ih => exact ih _

theorem Counted.releaseGroup (counted : s.Counted out) (held : 0 < out (.group g)) :
    Counted { s with ledger := s.ledger.release (.group g) [.freeRecords g, .free (.group g)] }
      (Function.update out (.group g) (out (.group g) - 1)) := by
  have made := counted.made held
  refine counted.setLedger ?_ (counted.update_unmade made _)
  rw [total_update_group]
  exact counted.exact.release held (by simp) (due_group made)

/-! ## Objects that are made -/

theorem due_ne_of_unmade (unmade : ¬ s.Made o) (e : Event) : s.due e ≠ some o := by
  intro here
  exact unmade (due_eq_some_iff.mp here).1

/-- A new object, if nothing else was made. -/
theorem Counted.alloc {s' : Library} (counted : s.Counted out) (unmade : ¬ s.Made o)
    (ledger : s'.ledger = s.ledger.alloc o) (made : ∀ o', s'.Made o' ↔ s.Made o' ∨ o' = o)
    (types : ∀ b, s.Made (.buffer b) → (s'.buffers b).type = (s.buffers b).type)
    (total : s'.total (Function.update out o 1) = Function.update (s.total out) o 1)
    (device : ∀ b d, b < s'.nextBuffer → (s'.buffers b).type = .device d → d < s'.nextDevice) :
    s'.Counted (Function.update out o 1) := by
  refine ⟨?_, ?_, device⟩
  · rw [ledger, total]
    refine (counted.exact.alloc (due_ne_of_unmade unmade)).mono ?_
    intro e
    by_cases old : s.Made e.object
    · have applies : s'.Applies e ↔ s.Applies e := by
        cases e with
        | ioctlFree b => simp only [Applies, types b old]
        | free _ => rfl
        | close _ => rfl
        | freeRecords _ => rfl
      have now : s'.Made e.object := (made _).mpr (.inl old)
      exact .inl (by simp only [due, old, now, applies])
    · have before : s.due e = none := if_neg fun done => old done.1
      by_cases done : s'.Made e.object ∧ s'.Applies e
      · have new : e.object = o := ((made _).mp done.1).resolve_left old
        refine .inr ⟨before, o, ?_, by simp⟩
        rw [due, if_pos done, new]
      · exact .inl (by rw [before, due, if_neg done])
  · intro o' other
    rw [made, not_or] at other
    rw [Function.update_of_ne other.2]
    exact counted.unmade o' other.1

theorem Counted.openDevice (counted : s.Counted out) :
    (xrpOpenDevice true true s).2.2.Counted (Function.update out (.device s.nextDevice) 1) := by
  have none : s.onDevice out s.nextDevice = 0 := by
    rw [onDevice, Finset.card_eq_zero, Finset.filter_eq_empty_iff]
    intro b member here
    exact absurd (counted.device b _ (Finset.mem_range.mp member) here.1) (lt_irrefl _)
  refine counted.alloc (by simp [Made]) rfl ?_ (fun _ _ => rfl) ?_ ?_
  · intro o
    cases o <;> simp [xrpOpenDevice, Made, Nat.le_iff_lt_or_eq]
  · have same : (xrpOpenDevice true true s).2.2.total
        (Function.update out (.device s.nextDevice) 1) =
        s.total (Function.update out (.device s.nextDevice) 1) := by
      funext o
      cases o <;> rfl
    rw [same, total_update_device, none]
  · intro b d lt type
    exact Nat.lt_succ_of_lt (counted.device b d lt type)

theorem Counted.createGroup (counted : s.Counted out) :
    (xrpCreateBufferGroup true s).2.2.Counted (Function.update out (.group s.nextGroup) 1) := by
  refine counted.alloc (by simp [Made]) rfl ?_ (fun _ _ => rfl) ?_ counted.device
  · intro o
    cases o <;> simp [xrpCreateBufferGroup, Made, Nat.le_iff_lt_or_eq]
  · have same : (xrpCreateBufferGroup true s).2.2.total
        (Function.update out (.group s.nextGroup) 1) =
        s.total (Function.update out (.group s.nextGroup) 1) := by
      funext o
      cases o <;> rfl
    rw [same, total_update_group]

theorem Counted.allocBuffer (counted : s.Counted out) :
    s.allocBuffer.Counted (Function.update out (.buffer s.nextBuffer) 1) := by
  have devices : s.allocBuffer.onDevice (Function.update out (.buffer s.nextBuffer) 1) =
      s.onDevice out := by
    funext d
    unfold onDevice
    congr 1
    ext b
    rw [Finset.mem_filter, Finset.mem_filter, Finset.mem_range, Finset.mem_range]
    by_cases new : b = s.nextBuffer
    · simp [new, Library.allocBuffer, Buffer.zero]
    · have old : b < s.nextBuffer + 1 ↔ b < s.nextBuffer := by omega
      simp [new, Library.allocBuffer, old]
  refine counted.alloc (by simp [Made]) rfl ?_ ?_ ?_ ?_
  · intro o
    cases o <;> simp [Library.allocBuffer, Made, Nat.le_iff_lt_or_eq]
  · intro b made
    have other : b ≠ s.nextBuffer := made.ne
    simp [Library.allocBuffer, other]
  · funext o
    cases o with
    | device d => simp [total, devices]
    | buffer b => simp [total, Function.update_apply]
    | group g => simp [total]
  · intro b d lt type
    by_cases new : b = s.nextBuffer
    · simp [new, Library.allocBuffer, Buffer.zero] at type
    · have old : b < s.nextBuffer := by
        simp only [Library.allocBuffer] at lt
        omega
      refine counted.device b d old ?_
      simpa [Library.allocBuffer, new] using type

/-- A reference to a device becomes that of a buffer. -/
theorem Counted.setDevice (counted : s.Counted out) (buffer : Buffer)
    (held : 0 < out (.buffer b)) (host : (s.buffers b).type = .host)
    (device : buffer.type = .device d) (owned : 0 < out (.device d)) :
    (s.setBuffer b buffer).Counted (Function.update out (.device d) (out (.device d) - 1)) := by
  have made : b < s.nextBuffer := counted.made held
  have types : ∀ b', b' ≠ b → ((s.setBuffer b buffer).buffers b').type = (s.buffers b').type := by
    intro b' other
    simp [setBuffer, other]
  have here : ((s.setBuffer b buffer).buffers b).type = .device d := by
    simp [setBuffer, device]
  have devices : ∀ d', (s.setBuffer b buffer).onDevice out d' =
      s.onDevice out d' + if d' = d then 1 else 0 := by
    intro d'
    unfold onDevice
    split_ifs with equal
    · have fresh : b ∉ (Finset.range s.nextBuffer).filter fun b =>
          (s.buffers b).type = .device d' ∧ out (.buffer b) ≠ 0 := by
        simp [host]
      rw [← Finset.card_insert_of_notMem fresh]
      congr 1
      ext b'
      rw [Finset.mem_insert, Finset.mem_filter, Finset.mem_filter]
      by_cases same : b' = b
      · simp [same, device, equal, held.ne', setBuffer, made]
      · rw [types b' same]
        simp [same, setBuffer]
    · rw [Nat.add_zero]
      congr 1
      ext b'
      rw [Finset.mem_filter, Finset.mem_filter]
      by_cases same : b' = b
      · simp [same, here, host, Ne.symm equal]
      · rw [types b' same]
        simp [setBuffer]
  have total : (s.setBuffer b buffer).total
      (Function.update out (.device d) (out (.device d) - 1)) = s.total out := by
    rw [total_update_device, devices, if_pos rfl]
    funext o
    cases o with
    | device d' =>
      by_cases equal : d' = d
      · subst equal
        simp only [Function.update_self, Library.total]
        omega
      · simp [Library.total, devices, equal]
    | buffer b => simp [Library.total]
    | group g => simp [Library.total]
  refine ⟨?_, counted.update_unmade (counted.made owned) _, ?_⟩
  · rw [total]
    refine counted.exact.mono ?_
    intro e
    by_cases memory : e = .ioctlFree b
    · subst memory
      refine .inr ⟨?_, .buffer b, ?_, held⟩
      · exact if_neg fun done => done.2 host
      · rw [due_eq_some_iff]
        exact ⟨made, by simp [Applies, here], rfl⟩
    · have applies : (s.setBuffer b buffer).Applies e ↔ s.Applies e := by
        cases e with
        | ioctlFree b' => simp only [Applies, types b' (by simpa using memory)]
        | free _ => rfl
        | close _ => rfl
        | freeRecords _ => rfl
      have madeIff : (s.setBuffer b buffer).Made e.object ↔ s.Made e.object := by
        cases e.object <;> rfl
      exact .inl (by simp only [due, applies, madeIff])
  · intro b' d' lt type
    by_cases same : b' = b
    · rw [same, here] at type
      cases type
      exact counted.made owned
    · exact counted.device b' d' lt (types b' same ▸ type)

end Library

end Xrp.Native.Api
