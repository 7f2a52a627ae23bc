import Xrp.Dsp.Command
import Xrp.Dsp.NamespaceTable

/-!
# Runs of the DSP on its own

`process_command` as a function on the memory of the DSP: nobody else changes the
comm area while the command runs. A run ends in one of three ways, told apart by
the handler chosen and by whether there is memory for the buffers.
-/

namespace Xrp.Dsp

/-- The memory of the DSP, whether `malloc` will succeed, and the handlers invoked so far. -/
structure Machine : Type where
  comm : Comm
  memory : U32 → U8
  heap : Bool
  invoked : List (Option (ℕ × ℕ))

/-- What an operation does. -/
def DspOp.act : (o : DspOp) → Machine → o.Answer × Machine
  | comm o, s => ((o.act s.comm).1, { s with comm := (o.act s.comm).2 })
  | load a, s => (s.memory a, s)
  | store a v, s => ((), { s with memory := Function.update s.memory a v })
  | malloc, s => (s.heap, s)
  | enter, s => ((), s)
  | invoke handler, s => ((), { s with invoked := s.invoked ++ [handler] })

/-! ## Parts that only read -/

section Reads

variable {order : ByteOrder} {device : XrpDevice} {s : Machine}

/-- `nsid` of the command in the comm area. -/
def nsidOf (order : ByteOrder) (comm : Comm) : Nsid :=
  nsidBytes order ![comm DspCmd.nsid, comm (DspCmd.nsid + 1), comm (DspCmd.nsid + 2),
    comm (DspCmd.nsid + 3)]

/-- The handler that `process_command` chooses. -/
def selected (order : ByteOrder) (device : XrpDevice) (comm : Comm) : Delivery :=
  if comm DspCmd.flags &&& requestNsid ≠ 0 then
    let p := slotOf device (nsidOf order comm)
    if device.sizeCmdNs ≠ 0 ∧ (device.cmdNs p).id = nsidOf order comm then
      .call (some ((device.cmdNs p).handler, (device.cmdNs p).handlerContext))
    else .fail
  else .call none

theorem run_commRead (w : ℕ) : (commRead w).run DspOp.act s = (s.comm w, s) := rfl

theorem run_compareCommNsid (cmdNs : XrpCmdNs) :
    (compareCommNsid order cmdNs).run DspOp.act s =
      (compareCmdNs (nsidOf order s.comm) cmdNs, s) := rfl

theorem run_findCmdNs :
    (findCmdNs (compareCommNsid order) device).run DspOp.act s =
      (slotOf device (nsidOf order s.comm), s) := by
  let value (c : ℕ) : Bool := compareCmdNs (nsidOf order s.comm) (device.cmdNs c) == .lt
  let below (c : ℕ) : DspProgram Bool := do
    return (← compareCommNsid order (device.cmdNs c)) == .lt
  have halves : (bisect below 0 device.nCmdNs).run DspOp.act s =
      (bisected value 0 device.nCmdNs, s) :=
    Program.run_bisect 0 device.nCmdNs fun _ => rfl
  have slot : slotOf device (nsidOf order s.comm) =
      bisectedSlot (fun c => compareCmdNs (nsidOf order s.comm) (device.cmdNs c) == .gt)
        value device.nCmdNs := rfl
  rw [findCmdNs, Program.run_bind, halves, slot, bisectedSlot]
  simp only
  split_ifs with narrow above
  · rw [Program.run_bind, run_compareCommNsid, if_pos above]
    rfl
  · rw [Program.run_bind, run_compareCommNsid, if_neg above]
    rfl
  · rfl

theorem run_cmdNsMatch (p : ℕ) :
    (cmdNsMatch (compareCommNsid order) device p).run DspOp.act s =
      (decide (device.sizeCmdNs ≠ 0 ∧ (device.cmdNs p).id = nsidOf order s.comm), s) := by
  have same : (cmdNsMatch (compareCommNsid order) device p).run DspOp.act s =
      (cmdNsMatch (m := Id) (compareCmdNs (nsidOf order s.comm)) device p, s) := by
    unfold cmdNsMatch
    split_ifs <;> rfl
  rw [same, Prod.mk.injEq, Bool.eq_iff_iff, cmdNsMatch_iff, decide_eq_true_iff]
  exact ⟨Iff.rfl, rfl⟩

theorem run_selectHandler :
    (selectHandler order device).run DspOp.act s = (selected order device s.comm, s) := by
  rw [selectHandler, Program.run_bind, run_commRead, selected]
  simp only
  split_ifs with flagged matched
  · simp [run_findCmdNs, run_cmdNsMatch, matched]
  · simp [run_findCmdNs, run_cmdNsMatch, matched]
  · rfl

/-- The number of buffers of the command in the comm area. -/
def bufferCount (comm : Comm) : ℕ := (comm DspCmd.bufferSize).toNat / sizeofDspBuffer

/-- The pointer `dsp_buffer` for the command in the comm area. -/
def dspBufferOf (comm : Comm) : DspBufferPtr :=
  if bufferCount comm > inlineBufferCount then some (comm DspCmd.bufferData) else none

theorem run_bufferTable :
    (bufferTable (bufferCount s.comm)).run DspOp.act s = (dspBufferOf s.comm, s) := by
  unfold bufferTable dspBufferOf
  split_ifs <;> rfl

theorem run_readCacheRange (sizeWord dataWord : ℕ) :
    ((readCacheRange sizeWord dataWord).run DspOp.act s).2 = s := by
  rw [readCacheRange, Program.run_bind]
  split_ifs <;> rfl

/-- The pointer argument for data of the command in the comm area. -/
def dataArg (comm : Comm) (sizeWord dataWord : ℕ) : Option U32 :=
  if (comm sizeWord).toNat > inlineDataSize then some (comm dataWord) else none

theorem run_readDataArg (sizeWord dataWord : ℕ) :
    (readDataArg sizeWord dataWord).run DspOp.act s = (dataArg s.comm sizeWord dataWord, s) := by
  rw [readDataArg, Program.run_bind, run_commRead, dataArg]
  simp only
  split_ifs <;> rfl

/-- There is memory for the `struct xrp_buffer`s. -/
def Machine.HasRoom (s : Machine) (nBuffers : ℕ) : Prop :=
  nBuffers ≤ maxStackBuffers ∨ s.heap = true

instance (nBuffers : ℕ) : Decidable (s.HasRoom nBuffers) := inferInstanceAs (Decidable (_ ∨ _))

theorem run_allocateBuffers (nBuffers : ℕ) :
    (allocateBuffers nBuffers).run DspOp.act s = (decide (s.HasRoom nBuffers), s) := by
  unfold allocateBuffers Machine.HasRoom
  split_ifs with many
  · simp [Nat.not_le.mpr many, DspOp.act]
  · simp [Nat.not_lt.mp many]

theorem run_readDescriptor (dspBuffer : DspBufferPtr) (i k : ℕ) :
    ((readDescriptor order dspBuffer i k).run DspOp.act s).2 = s := by
  cases dspBuffer <;> rfl

/-- The descriptor with index `i`. -/
def descriptorOf (order : ByteOrder) (dspBuffer : DspBufferPtr) (s : Machine) (i : ℕ) :
    XrpDspBuffer :=
  ⟨((readDescriptor order dspBuffer i 0).run DspOp.act s).1,
    ((readDescriptor order dspBuffer i 1).run DspOp.act s).1,
    ((readDescriptor order dspBuffer i 2).run DspOp.act s).1⟩

/-- The buffers that the DSP makes from the descriptors. -/
def buffersOf (order : ByteOrder) (dspBuffer : DspBufferPtr) (s : Machine) (n i : ℕ) : XrpBuffer :=
  .ofDescriptor (if i < n then descriptorOf order dspBuffer s i else ⟨0, 0, 0⟩)

theorem run_readBuffers (dspBuffer : DspBufferPtr) (n : ℕ) :
    (readBuffers order dspBuffer n).run DspOp.act s = (buffersOf order dspBuffer s n, s) := by
  induction n with
  | zero => rfl
  | succ n ih =>
    simp only [readBuffers, Program.run_bind, ih, run_readDescriptor, Program.pure_eq,
      Program.run_ret, Prod.mk.injEq, and_true]
    funext i
    by_cases last : i = n
    · simp [last, buffersOf, descriptorOf]
    · have same : i < n + 1 ↔ i < n := by omega
      simp [last, buffersOf, same]

end Reads

/-! ## The whole command -/

section Command

variable {order : ByteOrder} {s s' s'' : Machine}

/-- The arguments of the handler for the command in the comm area. -/
def handlerArgs (comm : Comm) (nBuffers : ℕ) : HandlerArgs :=
  ⟨dataArg comm DspCmd.inDataSize DspCmd.inData, comm DspCmd.inDataSize,
    dataArg comm DspCmd.outDataSize DspCmd.outData, comm DspCmd.outDataSize, nBuffers⟩

/-- Memory may have changed; nothing was invoked. -/
structure Machine.Keeps (s s' : Machine) : Prop where
  heap : s'.heap = s.heap
  invoked : s'.invoked = s.invoked

theorem Machine.Keeps.refl (s : Machine) : s.Keeps s := ⟨rfl, rfl⟩

theorem Machine.Keeps.trans (first : s.Keeps s') (second : s'.Keeps s'') : s.Keeps s'' :=
  ⟨second.heap.trans first.heap, second.invoked.trans first.invoked⟩

theorem keeps_runHandler {nIn nOut n : ℕ} (handler : Handler nIn nOut n)
    (group : Fin n → XrpBuffer) (s : Machine) :
    s.Keeps ((runHandler handler group).run DspOp.act s).2 := by
  induction handler generalizing group s with
  | ret status => exact .refl s
  | ask o next ih =>
    cases o with
    | readIn i => exact ih _ group s
    | readOut i => exact ih _ group s
    | writeOut i v =>
      have step : s.Keeps ((DspOp.comm (.write (DspCmd.outData + i) v)).act s).2 := ⟨rfl, rfl⟩
      exact step.trans (ih () group _)
    | load a => exact ih _ group s
    | store a v =>
      have step : s.Keeps ((DspOp.store a v).act s).2 := ⟨rfl, rfl⟩
      exact step.trans (ih () group _)
    | api c => exact ih _ _ s

theorem keeps_writeAccessFlags (dspBuffer : DspBufferPtr) (buffers : ℕ → XrpBuffer) (n : ℕ)
    (s : Machine) :
    s.Keeps ((writeAccessFlags order dspBuffer buffers n).run DspOp.act s).2 := by
  induction n with
  | zero => exact .refl s
  | succ n ih =>
    cases dspBuffer with
    | none =>
      simp only [writeAccessFlags, Program.run_bind]
      exact ih.trans ⟨rfl, rfl⟩
    | some base =>
      simp only [writeAccessFlags, Program.run_bind]
      exact ih.trans ⟨rfl, rfl⟩

/-- How `process_command` ends, for the handler chosen. -/
inductive Processed (flags : U32) (s : Machine) : Delivery → XrpStatus → Machine → Prop
  | fail :
    Processed flags s .fail .failure
      { s with
        comm := Function.update s.comm DspCmd.flags
          (flags ||| responseDeliveryFail ||| responseValid) }
  | noRoom (handler : Option (ℕ × ℕ)) :
    ¬ s.HasRoom (bufferCount s.comm) →
    Processed flags s (.call handler) .failure
      { s with comm := Function.update s.comm DspCmd.flags (flags ||| responseValid) }
  | handled (handler : Option (ℕ × ℕ)) (status : XrpStatus) (comm : Comm) (memory : U32 → U8) :
    s.HasRoom (bufferCount s.comm) →
    Processed flags s (.call handler) status
      ⟨Function.update comm DspCmd.flags (statusFlags flags status ||| responseValid), memory,
        s.heap, s.invoked ++ [handler]⟩

section Call

variable (order : ByteOrder) (handlers : Handlers) (handler : Option (ℕ × ℕ))
  (dspBuffer : DspBufferPtr) (nBuffers : ℕ) (buffers : ℕ → XrpBuffer) (s : Machine)

/-- What the handler returns, its buffers and the memory after it. -/
def handlerRun : (XrpStatus × (Fin nBuffers → XrpBuffer)) × Machine :=
  (runHandler (handlers handler (handlerArgs s.comm nBuffers)) fun i => buffers i).run DspOp.act
    { s with invoked := s.invoked ++ [handler] }

/-- The memory after the second loop of `process_command`. -/
def accessWritten : Machine :=
  let r := handlerRun handlers handler nBuffers buffers s
  ((writeAccessFlags order dspBuffer
    (fun i => if h : i < nBuffers then r.1.2 ⟨i, h⟩ else buffers i) nBuffers).run DspOp.act r.2).2

theorem accessWritten_keeps :
    Machine.Keeps { s with invoked := s.invoked ++ [handler] }
      (accessWritten order handlers handler dspBuffer nBuffers buffers s) :=
  (keeps_runHandler _ _ _).trans (keeps_writeAccessFlags _ _ _ _)

theorem run_callHandler (flags : U32) :
    (callHandler order handlers flags handler dspBuffer nBuffers buffers).run DspOp.act s =
      let status := (handlerRun handlers handler nBuffers buffers s).1.1
      let last := accessWritten order handlers handler dspBuffer nBuffers buffers s
      (status,
        { last with
          comm := Function.update last.comm DspCmd.flags
            (statusFlags flags status ||| responseValid) }) := by
  -- the type of the handler depends on its arguments, so they are rewritten one by one
  rw [callHandler, Program.run_bind, run_readDataArg]
  dsimp only
  rw [Program.run_bind, run_commRead]
  dsimp only
  rw [Program.run_bind, run_readDataArg]
  dsimp only
  simp only [Program.run_bind, run_readCacheRange]
  rfl

end Call

/-- `process_command` when a handler was chosen and there is memory for its buffers. -/
theorem run_processCommand_handled {device : XrpDevice} {handler : Option (ℕ × ℕ)}
    (order : ByteOrder) (handlers : Handlers) (flags : U32) (s : Machine)
    (chosen : selected order device s.comm = .call handler)
    (room : s.HasRoom (bufferCount s.comm)) :
    (processCommand order handlers device flags).run DspOp.act s =
      let table := dspBufferOf s.comm
      let n := bufferCount s.comm
      let status := (handlerRun handlers handler n (buffersOf order table s n) s).1.1
      let last := accessWritten order handlers handler table n (buffersOf order table s n) s
      (status,
        { last with
          comm := Function.update last.comm DspCmd.flags
            (statusFlags flags status ||| responseValid) }) := by
  have entered : (Program.perform DspOp.enter).run DspOp.act s = ((), s) := rfl
  have count : (s.comm DspCmd.bufferSize).toNat / sizeofDspBuffer = bufferCount s.comm := rfl
  rw [processCommand]
  simp only [Program.run_bind, entered, run_commRead, run_selectHandler, chosen, count,
    run_bufferTable, run_readCacheRange, run_allocateBuffers, room, decide_true, if_true,
    run_readBuffers, run_callHandler]

/-- Every run of `process_command` ends in one of these ways. -/
theorem run_processCommand (order : ByteOrder) (handlers : Handlers) (device : XrpDevice)
    (flags : U32) (s : Machine) :
    Processed flags s (selected order device s.comm)
      ((processCommand order handlers device flags).run DspOp.act s).1
      ((processCommand order handlers device flags).run DspOp.act s).2 := by
  have entered : (Program.perform DspOp.enter).run DspOp.act s = ((), s) := rfl
  have count : (s.comm DspCmd.bufferSize).toNat / sizeofDspBuffer = bufferCount s.comm := rfl
  cases chosen : selected order device s.comm with
  | fail =>
    rw [processCommand]
    simp only [Program.run_bind, entered, run_commRead, run_selectHandler, chosen]
    exact .fail
  | call handler =>
    by_cases room : s.HasRoom (bufferCount s.comm)
    · rw [run_processCommand_handled order handlers flags s chosen room]
      have keeps := accessWritten_keeps order handlers handler (dspBufferOf s.comm)
        (bufferCount s.comm) (buffersOf order (dspBufferOf s.comm) s (bufferCount s.comm)) s
      simp only [keeps.heap, keeps.invoked]
      exact .handled handler _ _ _ room
    · rw [processCommand]
      simp only [Program.run_bind, entered, run_commRead, run_selectHandler, chosen, count,
        run_bufferTable, run_readCacheRange, run_allocateBuffers, room, decide_false]
      exact .noRoom handler room

end Command

end Xrp.Dsp
