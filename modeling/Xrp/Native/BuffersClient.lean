import Xrp.Native.BuffersExact

/-!
# Clients of the native library

A client keeps an account of the calls that succeeded: its handles, its mappings, and the records
of its groups. The account tells how many references to each object there should be.
-/

namespace Xrp.Native.Api

open Dsp (XrpStatus)

/-! ## Calls -/

/-- The calls, with what the functions of the system return in them. -/
inductive Call : Type
  | openDevice (opened allocated : Bool)
  | retainDevice (d : Option ℕ)
  | releaseDevice (d : ℕ)
  | createBuffer (allocated : Bool) (memory : Option ULong) (device : Option ℕ) (size : ULong)
    (hostPtr : Option ULong)
  | retainBuffer (b : Option ℕ)
  | releaseBuffer (b : ℕ)
  | mapBuffer (b : ℕ) (offset size : ULong) (mapFlags : U32)
  | unmapBuffer (b : ℕ) (p : ULong)
  | createGroup (allocated : Bool)
  | retainGroup (g : Option ℕ)
  | releaseGroup (g : ℕ)
  | addBuffer (resized : Option (ℕ → Record)) (g : ℕ) (b : Option ℕ) (accessFlags : U32)
  | setBuffer (g index : ℕ) (b : Option ℕ) (accessFlags : U32)
  | getBuffer (g index : ℕ)

/-- What a call returns: the status, and an object or a pointer if there is one. -/
structure Reply : Type where
  status : XrpStatus
  object : Option ℕ
  pointer : Option ULong

/-- What a call does. -/
def Call.run : Call → Library → Reply × Library
  | openDevice opened allocated, s =>
    let (status, d, s) := xrpOpenDevice opened allocated s
    (⟨status, d, none⟩, s)
  | retainDevice d, s =>
    let (status, l) := xrpRetainDevice d s.ledger
    (⟨status, none, none⟩, { s with ledger := l })
  | releaseDevice d, s =>
    let (status, l) := xrpReleaseDevice d s.ledger
    (⟨status, none, none⟩, { s with ledger := l })
  | createBuffer allocated memory device size hostPtr, s =>
    let (status, b, s) := xrpCreateBuffer allocated memory device size hostPtr s
    (⟨status, b, none⟩, s)
  | retainBuffer b, s =>
    let (status, s) := xrpRetainBuffer b s
    (⟨status, none, none⟩, s)
  | releaseBuffer b, s =>
    let (status, s) := xrpReleaseBuffer b s
    (⟨status, none, none⟩, s)
  | mapBuffer b offset size mapFlags, s =>
    let (status, p, s) := xrpMapBuffer b offset size mapFlags s
    (⟨status, none, p⟩, s)
  | unmapBuffer b p, s =>
    let (status, s) := xrpUnmapBuffer b p s
    (⟨status, none, none⟩, s)
  | createGroup allocated, s =>
    let (status, g, s) := xrpCreateBufferGroup allocated s
    (⟨status, g, none⟩, s)
  | retainGroup g, s =>
    let (status, s) := xrpRetainBufferGroup g s
    (⟨status, none, none⟩, s)
  | releaseGroup g, s =>
    let (status, s) := xrpReleaseBufferGroup g s
    (⟨status, none, none⟩, s)
  | addBuffer resized g b accessFlags, s =>
    let (status, _, s) := xrpAddBufferToGroup resized g b accessFlags s
    (⟨status, none, none⟩, s)
  | setBuffer g index b accessFlags, s =>
    let (status, s) := xrpSetBufferInGroup g index b accessFlags s
    (⟨status, none, none⟩, s)
  | getBuffer g index, s =>
    let (status, b, s) := xrpGetBufferFromGroup g index s
    (⟨status, b, none⟩, s)

/-! ## Clients -/

/-- The account of a client. -/
structure Client : Type where
  handles : Object → ℕ
  mappings : ℕ → List ULong
  slots : ℕ → List Record
  nGroups : ℕ

namespace Client

/-- Before any call. -/
def init : Client := ⟨fun _ => 0, fun _ => [], fun _ => [], 0⟩

variable (c : Client)

/-- The number of handles of an object changes. -/
def setHandles (o : Object) (n : ℕ) : Client :=
  { c with handles := Function.update c.handles o n }

/-- A handle more. -/
def addHandle (o : Object) : Client := c.setHandles o (c.handles o + 1)

/-- A handle less. -/
def dropHandle (o : Object) : Client := c.setHandles o (c.handles o - 1)

/-- The mappings of a buffer change. -/
def setMappings (b : ℕ) (mappings : List ULong) : Client :=
  { c with mappings := Function.update c.mappings b mappings }

/-- The records of a group change. -/
def setSlots (g : ℕ) (records : List Record) : Client :=
  { c with slots := Function.update c.slots g records }

/-- The account after a call that succeeded. A group without handles has no records. -/
def succeeded : Call → Reply → Client
  | .openDevice .., ⟨_, some d, _⟩ => c.addHandle (.device d)
  | .retainDevice (some d), _ => c.addHandle (.device d)
  | .releaseDevice d, _ => c.dropHandle (.device d)
  | .createBuffer .., ⟨_, some b, _⟩ => c.addHandle (.buffer b)
  | .retainBuffer (some b), _ => c.addHandle (.buffer b)
  | .releaseBuffer b, _ => c.dropHandle (.buffer b)
  | .mapBuffer b .., ⟨_, _, some p⟩ => c.setMappings b (p :: c.mappings b)
  | .unmapBuffer b p, _ => c.setMappings b ((c.mappings b).erase p)
  | .createGroup _, ⟨_, some g, _⟩ => { c.addHandle (.group g) with nGroups := c.nGroups + 1 }
  | .retainGroup (some g), _ => c.addHandle (.group g)
  | .releaseGroup g, _ =>
    if c.handles (.group g) = 1 then (c.dropHandle (.group g)).setSlots g []
    else c.dropHandle (.group g)
  | .addBuffer _ g (some b) accessFlags, _ => c.setSlots g (c.slots g ++ [⟨b, accessFlags⟩])
  | .setBuffer g index (some b) accessFlags, _ =>
    c.setSlots g ((c.slots g).set index ⟨b, accessFlags⟩)
  | .getBuffer .., ⟨_, some b, _⟩ => c.addHandle (.buffer b)
  | _, _ => c

/-- The account after a call. -/
def after (call : Call) (reply : Reply) : Client :=
  if reply.status = .success then c.succeeded call reply else c

/-- The number of records with a buffer. -/
def slotCount (b : ℕ) : ℕ :=
  ∑ g ∈ Finset.range c.nGroups, (c.slots g).countP (·.buffer = b)

/-- The references to an object besides the handles. -/
def held : Object → ℕ
  | .buffer b => (c.mappings b).length + c.slotCount b
  | _ => 0

/-- The references to an object. -/
def references (o : Object) : ℕ := c.handles o + c.held o

end Client

/-- There are references to the object. -/
def Library.Live (s : Library) (o : Object) : Prop := s.ledger.count o ≠ 0

/-- A client uses objects that exist, and gives back only what it has. -/
def Permitted (s : Library) (c : Client) : Call → Prop
  | .openDevice .. => True
  | .retainDevice d => ∀ d' ∈ d, s.Live (.device d')
  | .releaseDevice d => 0 < c.handles (.device d)
  | .createBuffer _ _ device _ _ => ∀ d ∈ device, s.Live (.device d)
  | .retainBuffer b => ∀ b' ∈ b, s.Live (.buffer b')
  | .releaseBuffer b => 0 < c.handles (.buffer b)
  | .mapBuffer b .. => s.Live (.buffer b)
  | .unmapBuffer b p => s.Live (.buffer b) ∧ (p ∈ c.mappings b ∨ ¬ (s.buffers b).Contains p)
  | .createGroup _ => True
  | .retainGroup g => ∀ g' ∈ g, s.Live (.group g')
  | .releaseGroup g => 0 < c.handles (.group g)
  | .addBuffer _ g b _ => s.Live (.group g) ∧ ∀ b' ∈ b, s.Live (.buffer b')
  | .setBuffer g _ b _ => s.Live (.group g) ∧ ∀ b' ∈ b, s.Live (.buffer b')
  | .getBuffer g _ => s.Live (.group g)

instance (s : Library) (o : Object) : Decidable (s.Live o) :=
  inferInstanceAs (Decidable (_ ≠ _))

instance (s : Library) (c : Client) : (call : Call) → Decidable (Permitted s c call)
  | .openDevice .. | .createGroup _ => inferInstanceAs (Decidable True)
  | .retainDevice d => inferInstanceAs (Decidable (∀ d' ∈ d, s.Live (.device d')))
  | .releaseDevice d => inferInstanceAs (Decidable (0 < c.handles (.device d)))
  | .createBuffer _ _ device _ _ =>
    inferInstanceAs (Decidable (∀ d ∈ device, s.Live (.device d)))
  | .retainBuffer b => inferInstanceAs (Decidable (∀ b' ∈ b, s.Live (.buffer b')))
  | .releaseBuffer b => inferInstanceAs (Decidable (0 < c.handles (.buffer b)))
  | .mapBuffer b .. => inferInstanceAs (Decidable (s.Live (.buffer b)))
  | .unmapBuffer b p => inferInstanceAs
    (Decidable (s.Live (.buffer b) ∧ (p ∈ c.mappings b ∨ ¬ (s.buffers b).Contains p)))
  | .retainGroup g => inferInstanceAs (Decidable (∀ g' ∈ g, s.Live (.group g')))
  | .releaseGroup g => inferInstanceAs (Decidable (0 < c.handles (.group g)))
  | .addBuffer _ g b _ | .setBuffer g _ b _ =>
    inferInstanceAs (Decidable (s.Live (.group g) ∧ ∀ b' ∈ b, s.Live (.buffer b')))
  | .getBuffer g _ => inferInstanceAs (Decidable (s.Live (.group g)))

/-- A call changes the library and the account. -/
def Call.step (call : Call) (p : Library × Client) : Library × Client :=
  ((call.run p.1).2, p.2.after call (call.run p.1).1)

/-- The states that a number of permitted calls leads to. -/
inductive Reach : ℕ → Library × Client → Prop
  | init : Reach 0 (.init, .init)
  | call {n : ℕ} {p : Library × Client} (call : Call) :
    Reach n p → Permitted p.1 p.2 call → Reach (n + 1) (call.step p)

/-! ## How the account changes -/

namespace Client

variable {c : Client} {o : Object} {b g n : ℕ}

theorem references_setHandles :
    (c.setHandles o n).references = Function.update c.references o (n + c.held o) := by
  funext o'
  have others : (c.setHandles o n).held o' = c.held o' := by
    cases o' <;> rfl
  rw [references, others, setHandles]
  by_cases same : o' = o
  · simp [same]
  · simp [same, references]

theorem references_addHandle :
    (c.addHandle o).references = Function.update c.references o (c.references o + 1) := by
  rw [addHandle, references_setHandles, references]
  congr 1
  omega

theorem references_dropHandle (held : 0 < c.handles o) :
    (c.dropHandle o).references = Function.update c.references o (c.references o - 1) := by
  rw [dropHandle, references_setHandles, references]
  congr 1
  omega

theorem references_setMappings {mappings : List ULong} :
    (c.setMappings b mappings).references = Function.update c.references (.buffer b)
      (c.references (.buffer b) - (c.mappings b).length + mappings.length) := by
  funext o
  cases o with
  | device d => simp [references, held, setMappings]
  | group g => simp [references, held, setMappings]
  | buffer b' =>
    by_cases same : b' = b
    · subst same
      simp only [references, held, slotCount, setMappings, Function.update_self]
      omega
    · simp [references, held, slotCount, setMappings, same]

theorem slotCount_setSlots (records : List Record) (made : g < c.nGroups) (b : ℕ) :
    (c.setSlots g records).slotCount b + (c.slots g).countP (·.buffer = b) =
      c.slotCount b + records.countP (·.buffer = b) := by
  have member : g ∈ Finset.range c.nGroups := Finset.mem_range.mpr made
  have others : ∑ g' ∈ (Finset.range c.nGroups).erase g,
      (Function.update c.slots g records g').countP (·.buffer = b) =
      ∑ g' ∈ (Finset.range c.nGroups).erase g, (c.slots g').countP (·.buffer = b) := by
    refine Finset.sum_congr rfl ?_
    intro g' other
    rw [Function.update_of_ne (Finset.ne_of_mem_erase other)]
  simp only [slotCount, setSlots]
  rw [← Finset.add_sum_erase _ _ member, ← Finset.add_sum_erase _ _ member, others,
    Function.update_self]
  omega

theorem references_setSlots (records : List Record) (made : g < c.nGroups) (b : ℕ) :
    (c.setSlots g records).references (.buffer b) + (c.slots g).countP (·.buffer = b) =
      c.references (.buffer b) + records.countP (·.buffer = b) := by
  have slots := slotCount_setSlots records made b
  simp only [references, held]
  change c.handles _ + ((c.mappings b).length + _) + _ = _
  omega

theorem references_setSlots_of_ne {records : List Record} (other : ∀ b, o ≠ .buffer b) :
    (c.setSlots g records).references o = c.references o := by
  cases o with
  | device d => rfl
  | group g => rfl
  | buffer b => exact absurd rfl (other b)

theorem countP_le_references (made : g < c.nGroups) (b : ℕ) :
    (c.slots g).countP (·.buffer = b) ≤ c.references (.buffer b) := by
  have one : (c.slots g).countP (·.buffer = b) ≤ c.slotCount b :=
    Finset.single_le_sum (f := fun g => (c.slots g).countP (·.buffer = b))
      (fun _ _ => Nat.zero_le _) (Finset.mem_range.mpr made)
  simp only [references, held]
  omega

theorem references_newGroup (empty : c.slots c.nGroups = []) :
    Client.references { c with nGroups := c.nGroups + 1 } = c.references := by
  funext o
  cases o with
  | device d => rfl
  | group g => rfl
  | buffer b => simp [references, held, slotCount, Finset.sum_range_succ, empty]

/-- A new record is a reference to its buffer. -/
theorem references_push (made : g < c.nGroups) (r : Record) :
    (c.setSlots g (c.slots g ++ [r])).references =
      Function.update c.references (.buffer r.buffer) (c.references (.buffer r.buffer) + 1) := by
  funext o
  cases o with
  | device d => simp [references_setSlots_of_ne]
  | group g => simp [references_setSlots_of_ne]
  | buffer b =>
    have slots := references_setSlots (c.slots g ++ [r]) made b
    rw [List.countP_append, List.countP_singleton] at slots
    by_cases same : b = r.buffer
    · subst same
      rw [Function.update_self]
      simp only [decide_true, if_true] at slots
      omega
    · simp only [Ne.symm same, decide_false, Bool.false_eq_true, if_false] at slots
      simp only [ne_eq, Object.buffer.injEq, same, not_false_eq_true, Function.update_of_ne]
      omega

/-- With its last handle a group gives back the references of its records. -/
theorem references_dropGroup (made : g < c.nGroups) (last : c.handles (.group g) = 1) :
    ((c.dropHandle (.group g)).setSlots g []).references =
      Function.update (Library.less c.references (c.slots g)) (.group g)
        (Library.less c.references (c.slots g) (.group g) - 1) := by
  have handles := references_dropHandle (c := c) (o := .group g) (by omega)
  funext o
  cases o with
  | device d => simp [references_setSlots_of_ne, handles, Library.less]
  | group g' =>
    by_cases same : g' = g
    · simp [references_setSlots_of_ne, handles, Library.less, same]
    · simp [references_setSlots_of_ne, handles, Library.less, same]
  | buffer b =>
    have slots := references_setSlots (c := c.dropHandle (.group g)) (g := g) [] made b
    rw [handles] at slots
    simp only [ne_eq, reduceCtorEq, not_false_eq_true, Function.update_of_ne, List.countP_nil,
      Nat.add_zero] at slots ⊢
    rw [Library.less, ← slots]
    exact (Nat.add_sub_cancel ..).symm

/-- The record that is replaced was a reference, and the new one is. -/
theorem references_set {index : ℕ} (made : g < c.nGroups) (r : Record)
    (inside : index < (c.slots g).length) :
    (c.setSlots g ((c.slots g).set index r)).references =
      Library.less (Function.update c.references (.buffer r.buffer)
        (c.references (.buffer r.buffer) + 1)) [(c.slots g)[index]] := by
  funext o
  cases o with
  | device d => simp [references_setSlots_of_ne, Library.less]
  | group g => simp [references_setSlots_of_ne, Library.less]
  | buffer b =>
    have slots := references_setSlots ((c.slots g).set index r) made b
    have before := countP_le_references made b
    have one : [(c.slots g)[index]].countP (·.buffer = b) ≤ (c.slots g).countP (·.buffer = b) :=
      List.Sublist.countP_le (List.singleton_sublist.mpr (List.getElem_mem inside))
    rw [List.countP_set inside] at slots
    rw [List.countP_singleton] at one
    rw [Library.less, List.countP_singleton]
    by_cases same : b = r.buffer
    · subst same
      rw [Function.update_self]
      simp only [decide_true, if_true] at slots
      omega
    · simp only [Ne.symm same, decide_false, Bool.false_eq_true, if_false] at slots
      simp only [ne_eq, Object.buffer.injEq, same, not_false_eq_true, Function.update_of_ne]
      omega

end Client

/-! ## Records of groups -/

/-- A group has the records, and room for them. -/
structure Group.Holds (group : Group) (records : List Record) : Prop where
  le : group.nBuffers ≤ group.capacity
  slots : group.slots = records

namespace Group.Holds

variable {group group' : Group} {records : List Record} {r : Record} {index : ℕ}

theorem length (holds : group.Holds records) : records.length = group.nBuffers := by
  rw [← holds.slots, Group.slots, List.length_map, List.length_range]

theorem getElem (holds : group.Holds records) (lt : index < records.length) :
    records[index] = group.buffer index := by
  simp [← holds.slots, Group.slots]

/-- There is room for one more record, and the old ones are still there. -/
theorem grow {resized : Option (ℕ → Record)} (holds : group.Holds records)
    (grown : group.grow resized = some group') :
    group'.Holds records ∧ group'.nBuffers < group'.capacity := by
  have le := holds.le
  unfold Group.grow at grown
  split_ifs at grown with full
  · obtain ⟨memory, -, rfl⟩ := Option.map_eq_some_iff.mp grown
    refine ⟨⟨?_, ?_⟩, ?_⟩
    · simp only
      omega
    · rw [← holds.slots]
      refine List.map_congr_left ?_
      intro i lt
      exact if_pos (full ▸ List.mem_range.mp lt)
    · simp only
      omega
  · cases grown
    exact ⟨holds, by omega⟩

theorem push (holds : group.Holds records) (room : group.nBuffers < group.capacity) :
    Group.Holds { group with
      buffer := Function.update group.buffer group.nBuffers r
      nBuffers := group.nBuffers + 1 } (records ++ [r]) := by
  refine ⟨room, ?_⟩
  have old : (List.range group.nBuffers).map (Function.update group.buffer group.nBuffers r) =
      (List.range group.nBuffers).map group.buffer := by
    refine List.map_congr_left ?_
    intro i lt
    exact Function.update_of_ne (List.mem_range.mp lt).ne _ _
  simp [← holds.slots, Group.slots, List.range_succ, old]

theorem set (holds : group.Holds records) :
    Group.Holds { group with buffer := Function.update group.buffer index r }
      (records.set index r) := by
  refine ⟨holds.le, ?_⟩
  rw [← holds.slots]
  refine List.ext_getElem (by simp [Group.slots]) ?_
  intro i _ _
  simp [Group.slots, List.getElem_set, Function.update_apply, eq_comm]

end Group.Holds

end Xrp.Native.Api
