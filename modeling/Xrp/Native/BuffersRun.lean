import Xrp.Native.BuffersClient

/-!
# The reference counts of the native library are exact

In every run in which a client gives back only what it has, the counts of the library agree with
the client's account, and what is due at the end of an object was done once if there are no
references left. Since no call takes more than one reference to an object, a count is never larger
than the number of calls.
-/

namespace Xrp.Native.Api

open Dsp (XrpStatus)

/-! ## The calls keep the account -/

/-- The library agrees with the account of the client. -/
structure Inv (s : Library) (c : Client) : Prop where
  counted : s.Counted c.references
  mapCount : ∀ b, (s.buffers b).mapCount = (c.mappings b).length
  group : ∀ g, 0 < c.handles (.group g) → (s.groups g).Holds (c.slots g)
  gone : ∀ g, c.handles (.group g) = 0 → c.slots g = []
  nGroups : c.nGroups = s.nextGroup

namespace Inv

variable {s : Library} {c : Client} {o : Object} {b d g n index : ℕ} {l : Ledger Object Event}

theorem count_eq (inv : Inv s c) (o : Object) : s.ledger.count o = s.total c.references o :=
  inv.counted.exact.count o

theorem total_pos (inv : Inv s c) (live : s.Live o) : 0 < s.total c.references o :=
  Nat.pos_of_ne_zero (inv.count_eq o ▸ live)

theorem group_pos (inv : Inv s c) (live : s.Live (.group g)) : 0 < c.handles (.group g) :=
  inv.total_pos live

theorem group_made (inv : Inv s c) (held : 0 < c.handles (.group g)) : g < c.nGroups := by
  rw [inv.nGroups]
  exact inv.counted.made (o := .group g) (Nat.add_pos_left held _)

theorem unmade (inv : Inv s c) (other : ¬ s.Made o) : c.handles o = 0 ∧ c.held o = 0 :=
  Nat.add_eq_zero_iff.mp (inv.counted.unmade o other)

/-- Only the ledger and the handles of an object change. -/
theorem setHandles (inv : Inv s c)
    (counted : Library.Counted { s with ledger := l } (c.setHandles o n).references)
    (same : ∀ g, o = .group g → (n = 0 ↔ c.handles o = 0)) :
    Inv { s with ledger := l } (c.setHandles o n) := by
  have groups : ∀ g, (c.setHandles o n).handles (.group g) = 0 ↔ c.handles (.group g) = 0 := by
    intro g
    by_cases equal : .group g = o
    · simpa [Client.setHandles, equal] using same g equal.symm
    · simp [Client.setHandles, equal]
  refine ⟨counted, inv.mapCount, ?_, ?_, inv.nGroups⟩
  · intro g held
    exact inv.group g (Nat.pos_of_ne_zero fun none => held.ne' ((groups g).mpr none))
  · intro g none
    exact inv.gone g ((groups g).mp none)

theorem retain (inv : Inv s c) (live : s.Live o) :
    Inv { s with ledger := s.ledger.retain o } (c.addHandle o) := by
  refine inv.setHandles ?_ ?_
  · change Library.Counted _ (c.addHandle o).references
    rw [Client.references_addHandle]
    exact inv.counted.retain (inv.total_pos live)
  · rintro g rfl
    have held := inv.group_pos live
    omega

theorem releaseDevice (inv : Inv s c) (held : 0 < c.handles (.device d)) :
    Inv { s with ledger := (xrpReleaseDevice d s.ledger).2 } (c.dropHandle (.device d)) := by
  refine inv.setHandles ?_ (by simp)
  change Library.Counted _ (c.dropHandle (.device d)).references
  rw [Client.references_dropHandle held]
  exact inv.counted.releaseDevice (Nat.add_pos_left held _)

theorem releaseBuffer (inv : Inv s c) (held : 0 < c.handles (.buffer b)) :
    Inv (xrpReleaseBuffer b s).2 (c.dropHandle (.buffer b)) := by
  rw [Library.xrpReleaseBuffer_frame]
  refine inv.setHandles ?_ (by simp)
  change Library.Counted _ (c.dropHandle (.buffer b)).references
  rw [Client.references_dropHandle held]
  exact inv.counted.releaseBuffer (Nat.add_pos_left held _)

/-- The mappings of a buffer and its count of mappings change together. -/
theorem setMappings {mappings : List ULong} {mapFlags : U32} (inv : Inv s c)
    (counted : Library.Counted { s with ledger := l } (c.setMappings b mappings).references) :
    Inv ({ s with ledger := l }.setMap b mappings.length mapFlags) (c.setMappings b mappings) := by
  refine ⟨counted.congr rfl ?_ rfl rfl rfl, ?_, inv.group, inv.gone, inv.nGroups⟩
  · intro b'
    by_cases same : b' = b
    · simp [Library.setMap, Library.setBuffer, same]
    · simp [Library.setMap, Library.setBuffer, same]
  · intro b'
    by_cases same : b' = b
    · simp [Library.setMap, Library.setBuffer, Client.setMappings, same]
    · simpa [Library.setMap, Library.setBuffer, Client.setMappings, same] using inv.mapCount b'

theorem mapBuffer {mapFlags : U32} (inv : Inv s c) (live : s.Live (.buffer b)) (p : ULong) :
    Inv ({ s with ledger := s.ledger.retain (.buffer b) }.setMap b
      ((s.buffers b).mapCount + 1) mapFlags) (c.setMappings b (p :: c.mappings b)) := by
  have counted := inv.counted.retain (inv.total_pos live)
  rw [inv.mapCount, ← List.length_cons (a := p)]
  refine inv.setMappings ?_
  have more : (c.setMappings b (p :: c.mappings b)).references =
      Function.update c.references (.buffer b) (c.references (.buffer b) + 1) := by
    rw [Client.references_setMappings]
    congr 1
    simp only [Client.references, Client.held, List.length_cons]
    omega
  rw [more]
  exact counted

theorem xrpReleaseBuffer_setMap {b' mapCount : ℕ} {mapFlags : U32} :
    (xrpReleaseBuffer b (s.setMap b' mapCount mapFlags)).2 =
      (xrpReleaseBuffer b s).2.setMap b' mapCount mapFlags := by
  have type : ((s.setMap b' mapCount mapFlags).buffers b).type = (s.buffers b).type := by
    by_cases same : b = b'
    · simp [Library.setMap, Library.setBuffer, same]
    · simp [Library.setMap, Library.setBuffer, same]
  simp only [xrpReleaseBuffer, type]
  rfl

theorem unmapBuffer {p : ULong} {mapFlags : U32} (inv : Inv s c) (held : p ∈ c.mappings b) :
    Inv (xrpReleaseBuffer b (s.setMap b ((s.buffers b).mapCount - 1) mapFlags)).2
      (c.setMappings b ((c.mappings b).erase p)) := by
  have length := List.length_erase_add_one held
  have positive : 0 < c.references (.buffer b) := by
    simp only [Client.references, Client.held]
    omega
  have counted := inv.counted.releaseBuffer positive
  rw [xrpReleaseBuffer_setMap, inv.mapCount, ← List.length_erase_of_mem held,
    Library.xrpReleaseBuffer_frame]
  refine inv.setMappings ?_
  have less : (c.setMappings b ((c.mappings b).erase p)).references =
      Function.update c.references (.buffer b) (c.references (.buffer b) - 1) := by
    rw [Client.references_setMappings]
    congr 1
    simp only [Client.references, Client.held]
    omega
  rw [less]
  exact counted

/-- The records of a group and those of the client change together. -/
theorem setSlots {group : Group} {records : List Record} (inv : Inv s c)
    (held : 0 < c.handles (.group g)) (holds : group.Holds records)
    (counted : Library.Counted { s with ledger := l } (c.setSlots g records).references) :
    Inv ({ s with ledger := l }.setGroup g group) (c.setSlots g records) := by
  refine ⟨counted.congr rfl (fun _ => rfl) rfl rfl rfl, inv.mapCount, ?_, ?_, inv.nGroups⟩
  · intro g' held'
    by_cases same : g' = g
    · simpa [Library.setGroup, Client.setSlots, same] using holds
    · simpa [Library.setGroup, Client.setSlots, same] using inv.group g' held'
  · intro g' none
    have other : g' ≠ g := by
      rintro rfl
      exact held.ne' none
    simpa [Client.setSlots, other] using inv.gone g' none

theorem addBuffer {resized : Option (ℕ → Record)} {group : Group} (inv : Inv s c)
    (accessFlags : U32) (live : s.Live (.group g)) (buffer : s.Live (.buffer b))
    (grown : (s.groups g).grow resized = some group) :
    Inv ({ s with ledger := s.ledger.retain (.buffer b) }.setGroup g
        { group with
          buffer := Function.update group.buffer group.nBuffers ⟨b, accessFlags⟩
          nBuffers := group.nBuffers + 1 })
      (c.setSlots g (c.slots g ++ [⟨b, accessFlags⟩])) := by
  have held := inv.group_pos live
  obtain ⟨holds, room⟩ := (inv.group g held).grow grown
  refine inv.setSlots held (holds.push room) ?_
  rw [Client.references_push (inv.group_made held)]
  exact inv.counted.retain (inv.total_pos buffer)

/-- A group that could be resized, but has no new record. -/
theorem growGroup {resized : Option (ℕ → Record)} {group : Group} (inv : Inv s c)
    (live : s.Live (.group g)) (grown : (s.groups g).grow resized = some group) :
    Inv (s.setGroup g group) c := by
  have held := inv.group_pos live
  have kept := inv.setSlots (l := s.ledger) held ((inv.group g held).grow grown).1 (by
    simpa [Client.setSlots] using inv.counted)
  simpa [Client.setSlots] using kept

/-- A record of a group is a reference to its buffer. -/
theorem record_pos (inv : Inv s c) (held : 0 < c.handles (.group g))
    (inside : index < (c.slots g).length) :
    0 < c.references (.buffer (c.slots g)[index].buffer) := by
  refine lt_of_lt_of_le ?_ (Client.countP_le_references (inv.group_made held) _)
  refine List.countP_pos_iff.mpr ⟨_, List.getElem_mem inside, ?_⟩
  exact decide_eq_true rfl

theorem setBuffer {accessFlags : U32} (inv : Inv s c) (live : s.Live (.group g))
    (buffer : s.Live (.buffer b)) (lt : index < (s.groups g).nBuffers) :
    Inv (xrpReleaseBuffer ((s.groups g).buffer index).buffer
        ({ s with ledger := s.ledger.retain (.buffer b) }.setGroup g
          { s.groups g with
            buffer := Function.update (s.groups g).buffer index ⟨b, accessFlags⟩ })).2
      (c.setSlots g ((c.slots g).set index ⟨b, accessFlags⟩)) := by
  have held := inv.group_pos live
  have holds := inv.group g held
  have inside : index < (c.slots g).length := holds.length ▸ lt
  rw [← holds.getElem inside]
  have retained := inv.counted.retain (inv.total_pos buffer)
  have positive : 0 < Function.update c.references (.buffer b) (c.references (.buffer b) + 1)
      (.buffer (c.slots g)[index].buffer) := by
    have here := inv.record_pos held inside
    by_cases same : (c.slots g)[index].buffer = b
    · simp [same]
    · simpa [same] using here
  refine inv.setSlots (l := (xrpReleaseBuffer (c.slots g)[index].buffer
    { s with ledger := s.ledger.retain (.buffer b) }).2.ledger) held holds.set ?_
  rw [Client.references_set (inv.group_made held) _ inside, ← Library.less_cons, Library.less_nil]
  exact retained.releaseBuffer positive

theorem getBuffer (inv : Inv s c) (live : s.Live (.group g))
    (lt : index < (s.groups g).nBuffers) :
    Inv { s with ledger := s.ledger.retain (.buffer ((s.groups g).buffer index).buffer) }
      (c.addHandle (.buffer ((s.groups g).buffer index).buffer)) := by
  have held := inv.group_pos live
  have holds := inv.group g held
  have inside : index < (c.slots g).length := holds.length ▸ lt
  rw [← holds.getElem inside]
  refine inv.retain ?_
  rw [Library.Live, inv.count_eq]
  exact (inv.record_pos held inside).ne'

theorem openDevice (inv : Inv s c) :
    Inv (xrpOpenDevice true true s).2.2 (c.addHandle (.device s.nextDevice)) := by
  have new : c.references (.device s.nextDevice) = 0 :=
    inv.counted.unmade _ (lt_irrefl s.nextDevice)
  refine ⟨?_, inv.mapCount, ?_, ?_, inv.nGroups⟩
  · rw [Client.references_addHandle, new]
    exact inv.counted.openDevice
  · intro g held
    exact inv.group g held
  · intro g none
    exact inv.gone g none

theorem createGroup (inv : Inv s c) :
    Inv (xrpCreateBufferGroup true s).2.2
      { c.addHandle (.group s.nextGroup) with nGroups := c.nGroups + 1 } := by
  obtain ⟨none, -⟩ := inv.unmade (o := .group s.nextGroup) (lt_irrefl s.nextGroup)
  have empty := inv.gone _ none
  refine ⟨?_, inv.mapCount, ?_, ?_, ?_⟩
  · have counted := inv.counted.createGroup
    have new := inv.counted.unmade (.group s.nextGroup) (lt_irrefl s.nextGroup)
    have references := Client.references_newGroup (c := c.addHandle (.group s.nextGroup)) (by
      rw [← inv.nGroups] at empty
      exact empty)
    rw [Client.references_addHandle, new] at references
    rwa [← references] at counted
  · intro g held
    by_cases new : g = s.nextGroup
    · have zero : Group.zero.Holds [] := ⟨le_rfl, rfl⟩
      simpa [xrpCreateBufferGroup, Client.addHandle, Client.setHandles, new, empty] using zero
    · have old : 0 < c.handles (.group g) := by
        simpa [Client.addHandle, Client.setHandles, new] using held
      simpa [xrpCreateBufferGroup, Client.addHandle, Client.setHandles, new] using inv.group g old
  · intro g gone
    by_cases new : g = s.nextGroup
    · simp [Client.addHandle, Client.setHandles, new] at gone
    · exact inv.gone g (by simpa [Client.addHandle, Client.setHandles, new] using gone)
  · simp [xrpCreateBufferGroup, inv.nGroups]

/-- A new buffer with `n` handles, of which nothing is known but that it is not mapped. -/
theorem newBuffer (inv : Inv s c) (buffer : Buffer)
    (counted : Library.Counted ({ s.allocBuffer with ledger := l }.setBuffer s.nextBuffer buffer)
      (Function.update c.references (.buffer s.nextBuffer) n))
    (unmapped : buffer.mapCount = 0) :
    Inv ({ s.allocBuffer with ledger := l }.setBuffer s.nextBuffer buffer)
      (c.setHandles (.buffer s.nextBuffer) n) := by
  obtain ⟨-, held⟩ := inv.unmade (o := .buffer s.nextBuffer) (lt_irrefl s.nextBuffer)
  refine ⟨?_, ?_, ?_, ?_, inv.nGroups⟩
  · rw [Client.references_setHandles, held]
    exact counted
  · intro b
    by_cases new : b = s.nextBuffer
    · simp only [Client.held, Nat.add_eq_zero_iff] at held
      simpa [Library.setBuffer, Client.setHandles, new, unmapped] using held.1.symm
    · simpa [Library.setBuffer, Library.allocBuffer, Client.setHandles, new] using inv.mapCount b
  · intro g held
    exact inv.group g held
  · intro g none
    exact inv.gone g none

theorem addHandle_new (inv : Inv s c) :
    c.addHandle (.buffer s.nextBuffer) = c.setHandles (.buffer s.nextBuffer) 1 := by
  rw [Client.addHandle, (inv.unmade (o := .buffer s.nextBuffer) (lt_irrefl s.nextBuffer)).1]

theorem createHostBuffer (inv : Inv s c) (ptr size : ULong) :
    Inv (s.allocBuffer.setBuffer s.nextBuffer ⟨.host, ptr, size, 0, 0⟩)
      (c.addHandle (.buffer s.nextBuffer)) := by
  rw [inv.addHandle_new]
  refine inv.newBuffer (l := s.allocBuffer.ledger) _ ?_ rfl
  refine inv.counted.allocBuffer.congr rfl ?_ rfl rfl rfl
  intro b
  by_cases new : b = s.nextBuffer
  · simp [Library.setBuffer, Library.allocBuffer, Buffer.zero, new]
  · simp [Library.setBuffer, new]

/-- A reference is taken and given back. -/
theorem update_add_sub (out : Object → ℕ) (o : Object) :
    Function.update (Function.update out o (out o + 1)) o
      (Function.update out o (out o + 1) o - 1) = out := by
  simp

/-- The references with one to a new buffer. -/
def withNew (s : Library) (c : Client) : Object → ℕ :=
  Function.update c.references (.buffer s.nextBuffer) 1

/-- The device is retained for a new buffer. -/
theorem retainForBuffer (inv : Inv s c) (live : s.Live (.device d)) :
    Library.Counted { s.allocBuffer with ledger := s.allocBuffer.ledger.retain (.device d) }
      (Function.update (withNew s c) (.device d) (withNew s c (.device d) + 1)) := by
  have new : s.allocBuffer.Counted (withNew s c) := inv.counted.allocBuffer
  have positive : 0 < s.allocBuffer.total (withNew s c) (.device d) := by
    rw [← new.exact.count]
    simpa [Library.allocBuffer, Ledger.alloc] using Nat.pos_of_ne_zero live
  exact new.retain positive

theorem createDeviceBuffer (inv : Inv s c) (live : s.Live (.device d)) (ptr size : ULong) :
    Inv ({ s.allocBuffer with ledger := s.allocBuffer.ledger.retain (.device d) }.setBuffer
      s.nextBuffer ⟨.device d, ptr, size, 0, 0⟩) (c.addHandle (.buffer s.nextBuffer)) := by
  rw [inv.addHandle_new]
  refine inv.newBuffer _ ?_ rfl
  have owned := (inv.retainForBuffer live).setDevice (b := s.nextBuffer) (d := d)
    ⟨.device d, ptr, size, 0, 0⟩ (by simp [withNew])
    (by simp [Library.allocBuffer, Buffer.zero]) rfl (by simp)
  rwa [update_add_sub] at owned

theorem createBuffer_failed (inv : Inv s c) (live : s.Live (.device d)) :
    Inv { s.allocBuffer with
      ledger := (releaseRefcounted (some (.buffer s.nextBuffer))
        (xrpReleaseDevice d (s.allocBuffer.ledger.retain (.device d))).2).2 } c := by
  obtain ⟨none, -⟩ := inv.unmade (o := .buffer s.nextBuffer) (lt_irrefl s.nextBuffer)
  have back := (inv.retainForBuffer live).releaseDevice (d := d) (by simp)
  rw [update_add_sub] at back
  have freed := back.releaseHostBuffer (b := s.nextBuffer) (by simp [withNew])
    (by simp [Library.allocBuffer, Buffer.zero])
  have kept := inv.newBuffer (n := 0) (l := (releaseRefcounted
    (some (.buffer s.nextBuffer)) (xrpReleaseDevice d
      (s.allocBuffer.ledger.retain (.device d))).2).2) .zero (by
    simpa [withNew, Library.setBuffer, Library.allocBuffer] using freed) rfl
  simpa [Library.setBuffer, Library.allocBuffer, Client.setHandles, ← none] using kept

theorem releaseGroup_last (inv : Inv s c) (last : c.handles (.group g) = 1) :
    Inv (xrpReleaseBufferGroup g s).2 ((c.dropHandle (.group g)).setSlots g []) := by
  have held : 0 < c.handles (.group g) := by omega
  have made := inv.group_made held
  have slots : (s.groups g).slots = c.slots g := (inv.group g held).slots
  have released := inv.counted.releaseRecords (Client.countP_le_references made)
  have positive : 0 < Library.less c.references (c.slots g) (.group g) := held
  have freed := released.releaseGroup positive
  have count : s.ledger.count (.group g) = 1 := (inv.count_eq _).trans last
  have count' : (releaseRecords (c.slots g) s).ledger.count (.group g) = 1 :=
    (released.exact.count _).trans last
  have ledger : (xrpReleaseBufferGroup g s).2 =
      { releaseRecords (c.slots g) s with
        ledger := (releaseRecords (c.slots g) s).ledger.release (.group g)
          [.freeRecords g, .free (.group g)] } := by
    have eq := Library.releaseRefcounted_eq (l := (releaseRecords (c.slots g) s).ledger)
      (o := .group g) (by omega) [.freeRecords g]
    simp only [lastRefcount, count', beq_self_eq_true, if_true] at eq
    simp only [xrpReleaseBufferGroup, lastRefcount, count, beq_self_eq_true, if_true, slots,
      Ledger.emit, eq]
    rfl
  rw [ledger]
  rw [← Client.references_dropGroup made last] at freed
  rw [Library.releaseRecords_frame] at freed ⊢
  refine ⟨freed, inv.mapCount, ?_, ?_, inv.nGroups⟩
  · intro g' held'
    by_cases same : g' = g
    · simp [Client.setSlots, Client.dropHandle, Client.setHandles, same, last] at held'
    · simpa [Client.setSlots, Client.dropHandle, Client.setHandles, same] using
        inv.group g' (by simpa [Client.setSlots, Client.dropHandle, Client.setHandles, same]
          using held')
  · intro g' none
    by_cases same : g' = g
    · simp [Client.setSlots, same]
    · simpa [Client.setSlots, Client.dropHandle, Client.setHandles, same] using
        inv.gone g' (by simpa [Client.setSlots, Client.dropHandle, Client.setHandles, same]
          using none)

theorem releaseGroup_shared (inv : Inv s c) (more : 1 < c.handles (.group g)) :
    Inv (xrpReleaseBufferGroup g s).2 (c.dropHandle (.group g)) := by
  have held : 0 < c.handles (.group g) := by omega
  have count : s.ledger.count (.group g) = c.handles (.group g) := inv.count_eq _
  have notLast : s.ledger.count (.group g) ≠ 1 := by omega
  have ledger : (xrpReleaseBufferGroup g s).2 =
      { s with ledger := s.ledger.release (.group g) [.freeRecords g, .free (.group g)] } := by
    have eq := Library.releaseRefcounted_eq (l := s.ledger) (o := .group g) (by omega)
      [.freeRecords g]
    simp only [lastRefcount, notLast, beq_iff_eq, if_false] at eq
    simp [xrpReleaseBufferGroup, lastRefcount, notLast, eq]
  rw [ledger]
  refine inv.setHandles ?_ ?_
  · change Library.Counted _ (c.dropHandle (.group g)).references
    rw [Client.references_dropHandle held]
    exact inv.counted.releaseGroup held
  · intro g' same
    omega

/-- To give back a reference that was just taken undoes this. -/
theorem xrpReleaseBuffer_retained (live : s.Live (.buffer b)) :
    (xrpReleaseBuffer b { s with ledger := s.ledger.retain (.buffer b) }).2 = s := by
  have more : 1 < (s.ledger.retain (.buffer b)).count (.buffer b) := by
    have positive := Nat.pos_of_ne_zero live
    simp only [Ledger.retain, Function.update_self]
    omega
  have ledger := Library.xrpReleaseBuffer_shared
    (s := { s with ledger := s.ledger.retain (.buffer b) }) more []
  rw [Ledger.retain_release live] at ledger
  rw [Library.xrpReleaseBuffer_frame, ledger]

theorem createBuffer {allocated : Bool} {memory : Option ULong} {device : Option ℕ}
    {size : ULong} {hostPtr : Option ULong} (inv : Inv s c)
    (live : ∀ d ∈ device, s.Live (.device d)) :
    Inv ((Call.createBuffer allocated memory device size hostPtr).step (s, c)).1
      ((Call.createBuffer allocated memory device size hostPtr).step (s, c)).2 := by
  cases allocated with
  | false => cases hostPtr <;> cases device <;> exact inv
  | true =>
    cases hostPtr with
    | some ptr => exact inv.createHostBuffer ptr size
    | none =>
      cases device with
      | none => exact inv
      | some d =>
        cases memory with
        | none => exact inv.createBuffer_failed (live d rfl)
        | some ptr => exact inv.createDeviceBuffer (live d rfl) ptr size

/-- **A permitted call keeps the account.** -/
theorem step {call : Call} (inv : Inv s c) (permitted : Permitted s c call) :
    Inv (call.step (s, c)).1 (call.step (s, c)).2 := by
  cases call with
  | openDevice opened allocated =>
    cases opened with
    | false => exact inv
    | true =>
      cases allocated with
      | false => exact inv
      | true => exact inv.openDevice
  | retainDevice d =>
    cases d with
    | none => exact inv
    | some d => exact inv.retain (permitted d rfl)
  | releaseDevice d => exact inv.releaseDevice permitted
  | createBuffer allocated memory device size hostPtr => exact inv.createBuffer permitted
  | retainBuffer b =>
    cases b with
    | none => exact inv
    | some b => exact inv.retain (permitted b rfl)
  | releaseBuffer b => exact inv.releaseBuffer permitted
  | mapBuffer b offset size mapFlags =>
    by_cases fits : offset ≤ (s.buffers b).size ∧ size ≤ (s.buffers b).size - offset
    · simp only [Call.step, Call.run, xrpMapBuffer, fits]
      exact inv.mapBuffer permitted _
    · simp only [Call.step, Call.run, xrpMapBuffer, fits, if_false]
      exact inv
  | unmapBuffer b p =>
    by_cases inside : (s.buffers b).Contains p
    · simp only [Call.step, Call.run, xrpUnmapBuffer, inside, if_true]
      exact inv.unmapBuffer (permitted.2.resolve_right (not_not_intro inside))
    · simp only [Call.step, Call.run, xrpUnmapBuffer, inside, if_false]
      exact inv
  | createGroup allocated =>
    cases allocated with
    | false => exact inv
    | true => exact inv.createGroup
  | retainGroup g =>
    cases g with
    | none => exact inv
    | some g => exact inv.retain (permitted g rfl)
  | releaseGroup g =>
    have held : 0 < c.handles (.group g) := permitted
    change Inv (xrpReleaseBufferGroup g s).2 (if c.handles (.group g) = 1 then _ else _)
    split_ifs with last
    · exact inv.releaseGroup_last last
    · exact inv.releaseGroup_shared (by omega)
  | addBuffer resized g b accessFlags =>
    cases grown : (s.groups g).grow resized with
    | none =>
      simp only [Call.step, Call.run, xrpAddBufferToGroup, grown]
      exact inv
    | some group =>
      simp only [Call.step, Call.run, xrpAddBufferToGroup, grown]
      cases b with
      | none => exact inv.growGroup permitted.1 grown
      | some b =>
        have added := inv.addBuffer accessFlags permitted.1 (permitted.2 b rfl) grown
        simpa [Library.setGroup, xrpRetainBuffer, retainRefcounted, Client.after,
          Client.succeeded] using added
  | setBuffer g index b accessFlags =>
    cases b with
    | none => exact inv
    | some b =>
      by_cases lt : index < (s.groups g).nBuffers
      · simp only [Call.step, Call.run, xrpSetBufferInGroup, xrpRetainBuffer, retainRefcounted,
          Option.map_some, lt, if_true]
        exact inv.setBuffer permitted.1 (permitted.2 b rfl) lt
      · simp only [Call.step, Call.run, xrpSetBufferInGroup, xrpRetainBuffer, retainRefcounted,
          Option.map_some, lt, if_false]
        rw [xrpReleaseBuffer_retained (permitted.2 b rfl)]
        exact inv
  | getBuffer g index =>
    by_cases lt : index < (s.groups g).nBuffers
    · simp only [Call.step, Call.run, xrpGetBufferFromGroup, lt, if_true]
      exact inv.getBuffer permitted lt
    · simp only [Call.step, Call.run, xrpGetBufferFromGroup, lt, if_false]
      exact inv

theorem init : Inv .init .init := by
  have none : Client.init.references = fun _ => 0 := by
    funext o
    cases o <;> rfl
  have due : Library.init.due = fun _ => Option.none := by
    funext e
    refine if_neg fun done => ?_
    cases object : e.object <;> rw [object] at done <;> exact absurd done.1 (Nat.not_lt_zero _)
  have total : Library.init.total (fun _ => 0) = fun _ => 0 := by
    funext o
    cases o <;> rfl
  refine ⟨⟨?_, ?_, ?_⟩, fun _ => rfl, ?_, fun _ _ => rfl, rfl⟩
  · rw [none, due, total]
    exact .empty
  · intro o _
    rw [none]
  · intro b d lt
    exact absurd lt (Nat.not_lt_zero b)
  · intro g held
    exact absurd held (lt_irrefl 0)

theorem of_reach {p : Library × Client} (reach : Reach n p) : Inv p.1 p.2 := by
  induction reach with
  | init => exact .init
  | call call _ permitted ih => exact ih.step permitted

theorem count_createBuffer_failed (inv : Inv s c) (live : s.Live (.device d)) :
    (releaseRefcounted (some (.buffer s.nextBuffer))
      (xrpReleaseDevice d (s.allocBuffer.ledger.retain (.device d))).2).2.count =
      s.ledger.count := by
  have none : s.ledger.count (.buffer s.nextBuffer) = 0 :=
    (inv.count_eq _).trans (inv.counted.unmade (.buffer s.nextBuffer) (lt_irrefl s.nextBuffer))
  have same : s.allocBuffer.ledger.count (.device d) = s.ledger.count (.device d) := by
    simp [Library.allocBuffer, Ledger.alloc]
  have device : (xrpReleaseDevice d (s.allocBuffer.ledger.retain (.device d))).2 =
      s.allocBuffer.ledger := by
    rw [Library.xrpReleaseDevice_eq (by simp [Ledger.retain]),
      Ledger.retain_release (same ▸ live)]
  rw [device, Library.releaseRefcounted_eq_release (by simp [Library.allocBuffer, Ledger.alloc])]
  simp [Ledger.release, Library.allocBuffer, Ledger.alloc, ← none]

/-- A call that fails changes no count. -/
theorem count_failed {call : Call} (inv : Inv s c) (permitted : Permitted s c call)
    (failed : (call.run s).1.status ≠ .success) :
    (call.run s).2.ledger.count = s.ledger.count := by
  cases call with
  | openDevice opened allocated =>
    cases opened with
    | false => rfl
    | true =>
      cases allocated with
      | false => rfl
      | true => exact absurd rfl failed
  | retainDevice d =>
    cases d with
    | none => rfl
    | some d => exact absurd rfl failed
  | releaseDevice d => exact absurd rfl failed
  | createBuffer allocated memory device size hostPtr =>
    cases allocated with
    | false => cases hostPtr <;> cases device <;> rfl
    | true =>
      cases hostPtr with
      | some ptr => exact absurd rfl failed
      | none =>
        cases device with
        | none => rfl
        | some d =>
          cases memory with
          | none => exact inv.count_createBuffer_failed (permitted d rfl)
          | some ptr => exact absurd rfl failed
  | retainBuffer b =>
    cases b with
    | none => rfl
    | some b => exact absurd rfl failed
  | releaseBuffer b => exact absurd rfl failed
  | mapBuffer b offset size mapFlags =>
    by_cases fits : offset ≤ (s.buffers b).size ∧ size ≤ (s.buffers b).size - offset
    · simp [Call.run, xrpMapBuffer, fits] at failed
    · simp [Call.run, xrpMapBuffer, fits]
  | unmapBuffer b p =>
    by_cases inside : (s.buffers b).Contains p
    · simp [Call.run, xrpUnmapBuffer, inside, xrpReleaseBuffer, releaseRefcounted] at failed
    · simp [Call.run, xrpUnmapBuffer, inside]
  | createGroup allocated =>
    cases allocated with
    | false => rfl
    | true => exact absurd rfl failed
  | retainGroup g =>
    cases g with
    | none => rfl
    | some g => exact absurd rfl failed
  | releaseGroup g => exact absurd rfl failed
  | addBuffer resized g b accessFlags =>
    cases grown : (s.groups g).grow resized with
    | none => simp [Call.run, xrpAddBufferToGroup, grown]
    | some group =>
      cases b with
      | none => simp [Call.run, xrpAddBufferToGroup, grown, xrpRetainBuffer, retainRefcounted,
          Library.setGroup]
      | some b => simp [Call.run, xrpAddBufferToGroup, grown, xrpRetainBuffer,
          retainRefcounted] at failed
  | setBuffer g index b accessFlags =>
    cases b with
    | none => rfl
    | some b =>
      by_cases lt : index < (s.groups g).nBuffers
      · simp [Call.run, xrpSetBufferInGroup, xrpRetainBuffer, retainRefcounted, lt] at failed
      · simp [Call.run, xrpSetBufferInGroup, xrpRetainBuffer, retainRefcounted, lt,
          xrpReleaseBuffer_retained (permitted.2 b rfl)]
  | getBuffer g index =>
    by_cases lt : index < (s.groups g).nBuffers
    · simp [Call.run, xrpGetBufferFromGroup, xrpRetainBuffer, retainRefcounted, lt] at failed
    · simp [Call.run, xrpGetBufferFromGroup, lt]

theorem mapCount_failed {call : Call} (inv : Inv s c) (permitted : Permitted s c call)
    (failed : (call.run s).1.status ≠ .success) (b : ℕ) :
    ((call.run s).2.buffers b).mapCount = (s.buffers b).mapCount := by
  have kept := inv.step permitted
  simp only [Call.step, Client.after, failed, if_false] at kept
  rw [inv.mapCount, kept.mapCount]

end Inv

/-! ## Exact counts -/

/-- The counts of the library are those of the client's account, and what is due at the end of an
object was done once if it has no references left, and else not at all. -/
structure Agrees (s : Library) (c : Client) : Prop where
  buffer : ∀ b, s.ledger.count (.buffer b) =
    c.handles (.buffer b) + (c.mappings b).length + c.slotCount b
  group : ∀ g, s.ledger.count (.group g) = c.handles (.group g)
  device : ∀ d, s.ledger.count (.device d) =
    c.handles (.device d) + s.onDevice s.ledger.count d
  mapCount : ∀ b, (s.buffers b).mapCount = (c.mappings b).length
  records : ∀ g, s.Live (.group g) → (s.groups g).Holds (c.slots g)
  once : ∀ e, s.ledger.log.count e =
    if s.Made e.object ∧ s.Applies e ∧ s.ledger.count e.object = 0 then 1 else 0

theorem Inv.agrees {s : Library} {c : Client} (inv : Inv s c) : Agrees s c := by
  have buffer : ∀ b, s.ledger.count (.buffer b) = c.references (.buffer b) :=
    fun b => inv.count_eq (.buffer b)
  refine ⟨?_, ?_, ?_, inv.mapCount, ?_, ?_⟩
  · intro b
    rw [buffer, Client.references, Client.held, Nat.add_assoc]
  · intro g
    exact inv.count_eq (.group g)
  · intro d
    rw [inv.count_eq, Library.total]
    simp only [Library.onDevice, buffer]
    rfl
  · intro g live
    exact inv.group g (inv.group_pos live)
  · intro e
    rw [inv.counted.exact.log, inv.count_eq, Library.due]
    by_cases due : s.Made e.object ∧ s.Applies e
    · simp [due]
    · rw [if_neg due, if_neg fun all => due ⟨all.1, all.2.1⟩]
      rfl

/-! ## The counts are words -/

/-- All counts are at most `n`. -/
structure Library.AtMost (n : ℕ) (s : Library) : Prop where
  count : ∀ o, s.ledger.count o ≤ n
  mapCount : ∀ b, (s.buffers b).mapCount ≤ n

/-- All counts are those of words with `width` bits. -/
structure Library.Fits (width : ℕ) (s : Library) : Prop where
  count : ∀ o, s.ledger.count o < 2 ^ width
  mapCount : ∀ b, (s.buffers b).mapCount < 2 ^ width

section Words

variable {n : ℕ} {s : Library} {l : Ledger Object Event}

theorem count_retain_le (atMost : ∀ o, l.count o ≤ n) (x : Option Object) (o : Object) :
    (retainRefcounted x l).2.count o ≤ n + 1 := by
  cases x with
  | none => exact (atMost o).trans (Nat.le_succ n)
  | some x =>
    have first := atMost x
    have other := atMost o
    simp only [retainRefcounted, Ledger.retain, Function.update_apply]
    split_ifs <;> omega

theorem count_alloc_le (atMost : ∀ o, l.count o ≤ n) (x o : Object) :
    (l.alloc x).count o ≤ n + 1 := by
  have other := atMost o
  simp only [Ledger.alloc, Function.update_apply]
  split_ifs <;> omega

theorem count_release_le (atMost : ∀ o, l.count o ≤ n) (x : Option Object) (o : Object) :
    (releaseRefcounted x l).2.count o ≤ n := by
  cases x with
  | none => exact atMost o
  | some x =>
    have first := atMost x
    have other := atMost o
    have less : Function.update l.count x (l.count x - 1) o ≤ n := by
      simp only [Function.update_apply]
      split_ifs <;> omega
    simp only [releaseRefcounted]
    split_ifs
    · exact less
    · exact less

theorem count_releaseDevice_le (atMost : ∀ o, l.count o ≤ n) (d : ℕ) (o : Object) :
    (xrpReleaseDevice d l).2.count o ≤ n := by
  refine count_release_le (fun o => ?_) _ o
  split_ifs
  · exact atMost o
  · exact atMost o

theorem Library.AtMost.mono (atMost : s.AtMost n) : s.AtMost (n + 1) :=
  ⟨fun o => (atMost.count o).trans (Nat.le_succ n),
    fun b => (atMost.mapCount b).trans (Nat.le_succ n)⟩

theorem Library.AtMost.releaseBuffer (atMost : s.AtMost n) (b : ℕ) :
    (xrpReleaseBuffer b s).2.AtMost n := by
  refine ⟨fun o => count_release_le (fun o => ?_) (some (.buffer b)) o, atMost.mapCount⟩
  split_ifs
  · cases (s.buffers b).type with
    | host => exact atMost.count o
    | device d =>
      exact count_releaseDevice_le (l := s.ledger.emit (.ioctlFree b)) atMost.count d o
  · exact atMost.count o

theorem Library.AtMost.releaseRecords (atMost : s.AtMost n) (records : List Record) :
    (Api.releaseRecords records s).AtMost n := by
  induction records generalizing s with
  | nil => exact atMost
  | cons r records ih => exact ih (atMost.releaseBuffer r.buffer)

theorem Library.AtMost.setMap {m : ℕ} (atMost : s.AtMost n) (b : ℕ) (le : m ≤ n) (flags : U32) :
    (s.setMap b m flags).AtMost n := by
  refine ⟨atMost.count, fun b' => ?_⟩
  have other := atMost.mapCount b'
  simp only [Library.setMap, Library.setBuffer, Function.update_apply]
  split_ifs
  · exact le
  · exact other

theorem Library.AtMost.createBuffer (atMost : s.AtMost n) (allocated : Bool)
    (memory : Option ULong) (device : Option ℕ) (size : ULong) (hostPtr : Option ULong) :
    (xrpCreateBuffer allocated memory device size hostPtr s).2.2.AtMost (n + 1) := by
  have buffers (buffer : Buffer) (unmapped : buffer.mapCount = 0) (b : ℕ) :
      (Function.update (Function.update s.buffers s.nextBuffer .zero) s.nextBuffer buffer
        b).mapCount ≤ n + 1 := by
    have other := atMost.mapCount b
    simp only [Function.update_apply]
    split_ifs
    · rw [unmapped]
      exact Nat.zero_le _
    · omega
  have counts (d : ℕ) (o : Object) : (s.allocBuffer.ledger.retain (.device d)).count o ≤ n + 1 := by
    have first := atMost.count (.device d)
    have other := atMost.count o
    simp only [Library.allocBuffer, Ledger.alloc, Ledger.retain, Function.update_apply,
      reduceCtorEq, if_false]
    split_ifs <;> omega
  cases hostPtr with
  | some ptr =>
    simp only [xrpCreateBuffer]
    split_ifs
    · exact atMost.mono
    · exact ⟨count_alloc_le atMost.count _, buffers _ rfl⟩
  | none =>
    cases device with
    | none => exact atMost.mono
    | some d =>
      simp only [xrpCreateBuffer]
      split_ifs
      · exact atMost.mono
      · cases memory with
        | none =>
          refine ⟨count_release_le (count_releaseDevice_le (counts d) d) _, fun b => ?_⟩
          have unchanged := buffers .zero rfl b
          rwa [Function.update_idem] at unchanged
        | some ptr => exact ⟨counts d, buffers _ rfl⟩

/-- No call takes more than one reference to an object. -/
theorem Library.AtMost.run (atMost : s.AtMost n) (call : Call) :
    (call.run s).2.AtMost (n + 1) := by
  have retained (x : Option Object) :
      Library.AtMost (n + 1) { s with ledger := (retainRefcounted x s.ledger).2 } :=
    ⟨count_retain_le atMost.count x, atMost.mono.mapCount⟩
  cases call with
  | openDevice opened allocated =>
    simp only [Call.run, xrpOpenDevice]
    split_ifs
    · exact atMost.mono
    · exact atMost.mono
    · exact ⟨count_alloc_le atMost.count _, atMost.mono.mapCount⟩
  | retainDevice d => exact retained _
  | releaseDevice d =>
    exact Library.AtMost.mono ⟨count_releaseDevice_le atMost.count d, atMost.mapCount⟩
  | createBuffer allocated memory device size hostPtr =>
    exact atMost.createBuffer allocated memory device size hostPtr
  | retainBuffer b => exact retained _
  | releaseBuffer b => exact (atMost.releaseBuffer b).mono
  | mapBuffer b offset size mapFlags =>
    simp only [Call.run, xrpMapBuffer]
    split_ifs
    · exact (retained _).setMap b (Nat.succ_le_succ (atMost.mapCount b)) _
    · exact atMost.mono
  | unmapBuffer b p =>
    simp only [Call.run, xrpUnmapBuffer]
    split_ifs
    · exact ((atMost.setMap b ((Nat.sub_le _ 1).trans (atMost.mapCount b)) _).releaseBuffer b).mono
    · exact atMost.mono
  | createGroup allocated =>
    simp only [Call.run, xrpCreateBufferGroup]
    split_ifs
    · exact ⟨count_alloc_le atMost.count _, atMost.mono.mapCount⟩
    · exact atMost.mono
  | retainGroup g => exact retained _
  | releaseGroup g =>
    have released := atMost.releaseRecords (s.groups g).slots
    simp only [Call.run, xrpReleaseBufferGroup]
    split_ifs
    · have emitted := count_release_le
        (l := (Api.releaseRecords (s.groups g).slots s).ledger.emit (.freeRecords g))
        released.count (some (.group g))
      exact Library.AtMost.mono ⟨emitted, released.mapCount⟩
    · exact Library.AtMost.mono ⟨count_release_le atMost.count _, atMost.mapCount⟩
  | addBuffer resized g b accessFlags =>
    simp only [Call.run, xrpAddBufferToGroup]
    cases (s.groups g).grow resized with
    | none => exact atMost.mono
    | some group =>
      cases b with
      | none => exact ⟨atMost.mono.count, atMost.mono.mapCount⟩
      | some b => exact ⟨(retained (some (.buffer b))).count, atMost.mono.mapCount⟩
  | setBuffer g index b accessFlags =>
    cases b with
    | none => exact atMost.mono
    | some b =>
      simp only [Call.run, xrpSetBufferInGroup, xrpRetainBuffer, retainRefcounted, Option.map_some]
      split_ifs
      · refine Library.AtMost.releaseBuffer ?_ _
        exact ⟨(retained (some (.buffer b))).count, atMost.mono.mapCount⟩
      · exact (retained (some (.buffer b))).releaseBuffer b
  | getBuffer g index =>
    simp only [Call.run, xrpGetBufferFromGroup]
    split_ifs
    · exact retained (some (.buffer _))
    · exact atMost.mono

theorem Reach.atMost {p : Library × Client} (reach : Reach n p) : p.1.AtMost n := by
  induction reach with
  | init => exact ⟨fun _ => le_rfl, fun _ => le_rfl⟩
  | call call _ _ ih => exact ih.run call

end Words

/-- **The reference counts are exact** after any number of calls in which the client gives back
only what it has; a call that fails changes no count; and the counts are those of words, as long as
there are fewer calls than words. -/
theorem counts_exact {n : ℕ} {s : Library} {c : Client} (reach : Reach n (s, c)) :
    Agrees s c ∧ (∀ call, Permitted s c call → (call.run s).1.status ≠ .success →
      (call.run s).2.ledger.count = s.ledger.count ∧
        ∀ b, ((call.run s).2.buffers b).mapCount = (s.buffers b).mapCount) ∧
      ∀ width, n < 2 ^ width → s.Fits width := by
  have inv := Inv.of_reach reach
  refine ⟨inv.agrees, fun call permitted failed => ?_, fun width few => ?_⟩
  · exact ⟨inv.count_failed permitted failed, inv.mapCount_failed permitted failed⟩
  · obtain ⟨count, mapCount⟩ := reach.atMost
    exact ⟨fun o => (count o).trans_lt few, fun b => (mapCount b).trans_lt few⟩

/-- A device, a buffer with its memory in a group, and what is got from the group. -/
def sharedCalls : List Call :=
  [.openDevice true true, .createBuffer true (some 0x1000) (some 0) 64 none, .createGroup true,
    .addBuffer (some fun _ => ⟨0, 0⟩) 0 (some 0) 1, .releaseBuffer 0, .getBuffer 0 0,
    .releaseGroup 0, .mapBuffer 0 16 16 2, .releaseBuffer 0, .unmapBuffer 0 0x1010]

/-- The states after some calls. -/
def afterCalls (calls : List Call) (p : Library × Client) : Library × Client :=
  calls.foldl (fun p call => call.step p) p

/-- The calls are permitted, each where the others before it lead to. -/
def AllPermitted : List Call → Library × Client → Prop
  | [], _ => True
  | call :: calls, p => Permitted p.1 p.2 call ∧ AllPermitted calls (call.step p)

theorem reach_afterCalls {n : ℕ} {calls : List Call} {p : Library × Client} (reach : Reach n p)
    (permitted : AllPermitted calls p) : Reach (n + calls.length) (afterCalls calls p) := by
  induction calls generalizing n p with
  | nil => exact reach
  | cons call calls ih =>
    have rest := ih (reach.call call permitted.1) permitted.2
    rw [Nat.add_assoc, Nat.add_comm 1] at rest
    exact rest

/-- What is left after the calls. -/
def sharedEnd : Library × Client := afterCalls sharedCalls (.init, .init)

/-- The buffer outlives its first handle in the group, and the group in a mapping; its memory is
freed with the mapping. -/
theorem counts_exact_shared :
    sharedEnd.1.ledger.log.count (.ioctlFree 0) = 1 ∧
      sharedEnd.1.ledger.count (.device 0) = 1 := by
  have reach : Reach (0 + sharedCalls.length) sharedEnd := by
    apply reach_afterCalls .init
    simp only [sharedCalls, AllPermitted]
    decide
  have agrees := (counts_exact (s := sharedEnd.1) (c := sharedEnd.2) reach).1
  refine ⟨(agrees.once (.ioctlFree 0)).trans (by decide), (agrees.device 0).trans (by decide)⟩

end Xrp.Native.Api
