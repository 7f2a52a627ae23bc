import Xrp.Exchange.Run

/-!
# The phases of the exchange

At any time the exchange is in one of four stages: no request is published, a
request is published and the DSP has not entered it, the DSP is processing it,
or the DSP has answered it and the host has not finished with it. The flags word
tells the first, the second and third, and the fourth apart, and each side
leaves the comm area alone where it is the other's turn.
-/

namespace Xrp.Exchange

open Kernel Dsp

/-- The rules of a host that only reads. -/
def readRules : Program.Rules CommOp CommOp.Answer Unit where
  allowed o _ := ∃ w, o = .read w
  effect _ _ _ _ := True

/-- A program of the host only reads. -/
def ReadsOnly {α : Type} (p : CommProgram α) : Prop := p.wp readRules (fun _ _ => True) ()

/-- The rules of a DSP that is done with the comm area. -/
def silentRules : Program.Rules DspOp DspOp.Answer Unit where
  allowed o _ := Private o
  effect _ _ _ _ := True

/-- A program of the DSP that is done with the comm area. -/
def Silent (p : DspProgram Dispatch) : Prop := p.wp silentRules (fun d _ => d ≠ .handshake) ()

/-- The host has published the request and does not know of an answer. -/
def HostWaits (s : State) (rq : XrpRequest) : Prop :=
  s.host = .filling rq (.ret ()) ∨ s.host = .polling rq

/-- How the DSP leaves `process_command` and then `xrp_device_dispatch`. -/
def Finished (d : Dispatch) (s : Comm × DspPhase) : Prop := s.2 = .answered ∧ d ≠ .handshake

section Stages

variable (order dspOrder : ByteOrder) (translate : ULong → U32) (handlers : Handlers)

/-- The host has written part of the payload of a request, and nothing else. -/
def Fills (s : State) (rq : XrpRequest) (rest : CommProgram Unit) : Prop :=
  ∃ done left, rq.payload order translate = done ++ left ∧
    rest = writeAll (left ++ [(DspCmd.flags, rq.flagsWord)]) ∧
    ∀ w v, (w, v) ∈ done → s.comm w = v

/-- The DSP is not in a request, or done with it. -/
inductive Resting (s : State) : Prop
  | waiting : s.dsp = .waiting → s.phase = .outside → Resting s
  | called (device : XrpDevice) :
    s.dsp = .dispatching (xrpDeviceDispatch dspOrder handlers device) → s.phase = .outside →
    Resting s
  | pending : s.dsp = .dispatching (.ret (.status .pending)) → s.phase = .outside → Resting s
  | silent {p : DspProgram Dispatch} :
    s.dsp = .dispatching p → Silent p → s.phase = .answered → Resting s

/-- The DSP has seen the request and is about to enter `process_command`. -/
def Entering (s : State) (rq : XrpRequest) : Prop :=
  s.phase = .outside ∧ ∃ device, s.dsp =
    .dispatching (Dispatch.status <$> processCommand dspOrder handlers device rq.flagsWord)

/-- The four stages. -/
inductive Stage (s : State) : Prop
  | quiet :
    (s.host = .idle ∨ ∃ rq rest, s.host = .filling rq rest ∧ Fills order translate s rq rest) →
    ¬ Requesting (s.comm DspCmd.flags) → Resting dspOrder handlers s →
    s.entries.length = s.requests.length → s.answers.length = s.requests.length →
    s.results.length = s.requests.length → Stage s
  | published {rq : XrpRequest} {before : List XrpRequest} :
    HostWaits s rq → Agrees order translate rq s.comm →
    Resting dspOrder handlers s ∨ Entering dspOrder handlers s rq →
    s.requests = before ++ [rq] → s.entries.length = before.length →
    s.answers.length = before.length → s.results.length = before.length → Stage s
  | processing {rq : XrpRequest} {before : List XrpRequest} {p : DspProgram Dispatch} :
    HostWaits s rq → s.comm DspCmd.flags = rq.flagsWord → s.phase = .processing →
    s.dsp = .dispatching p →
    p.wp (dspRules order translate rq) Finished (s.comm, .processing) →
    s.requests = before ++ [rq] → s.entries.length = before.length + 1 →
    s.answers.length = before.length → s.results.length = before.length → Stage s
  | answered {rq : XrpRequest} {before : List XrpRequest} {earlier : List Comm} :
    (HostWaits s rq ∨ ∃ rest, s.host = .completing rq rest ∧ ReadsOnly rest ∧
      (rest.run CommOp.act s.comm).1 =
        ((xrpCompleteHwRequest order rq).run CommOp.act s.comm).1) →
    Answered (s.comm DspCmd.flags) → Resting dspOrder handlers s →
    s.requests = before ++ [rq] → s.entries.length = before.length + 1 →
    s.answers = earlier ++ [s.comm] → earlier.length = before.length →
    s.results.length = before.length → Stage s

end Stages

/-! ## Programs -/

theorem ReadsOnly.bind {α β : Type} {p : CommProgram α} {f : α → CommProgram β}
    (first : ReadsOnly p) (second : ∀ a, ReadsOnly (f a)) : ReadsOnly (p >>= f) :=
  Program.wp.bind first fun a _ _ => second a

theorem readsOnly_xrpCommRead32 (w : ℕ) : ReadsOnly (xrpCommRead32 w) :=
  ⟨⟨w, rfl⟩, fun _ _ _ => trivial⟩

theorem readsOnly_xrpCommRead (w n : ℕ) : ReadsOnly (xrpCommRead w n) := by
  induction n generalizing w with
  | zero => exact trivial
  | succ n ih => exact (readsOnly_xrpCommRead32 w).bind fun v => (ih (w + 1)).bind fun vs => trivial

theorem readsOnly_xrpCompleteHwRequest (order : ByteOrder) (rq : XrpRequest) :
    ReadsOnly (xrpCompleteHwRequest order rq) := by
  have outData : ReadsOnly (readOutData order rq) := by
    rw [readOutData]
    split_ifs
    · exact (readsOnly_xrpCommRead _ _).bind fun _ => trivial
    · exact trivial
  have dspBuffer : ReadsOnly (readDspBuffer rq) := by
    rw [readDspBuffer]
    split_ifs
    · exact (readsOnly_xrpCommRead _ _).bind fun _ => trivial
    · exact trivial
  exact (readsOnly_xrpCommRead32 _).bind fun _ =>
    outData.bind fun _ => dspBuffer.bind fun _ => trivial

/-- After `complete_request` the DSP leaves the comm area alone. -/
theorem silent_of_wp {order : ByteOrder} {translate : ULong → U32} {rq : XrpRequest} {m : Comm}
    {p : DspProgram Dispatch}
    (holds : p.wp (dspRules order translate rq) Finished (m, .answered)) : Silent p := by
  induction p with
  | ret d => exact holds.2
  | ask o next ih =>
    obtain ⟨allowed, rest⟩ := holds
    cases o with
    | comm o =>
      cases o with
      | read w => exact absurd allowed.1 (by simp)
      | write w v => exact absurd allowed.1 (by simp)
    | enter => exact absurd allowed (by simp [dspRules])
    | _ => exact ⟨trivial, fun r _ _ => ih r (rest r _ rfl)⟩

/-! ## Steps of the host -/

section Host

variable {order dspOrder : ByteOrder} {translate : ULong → U32} {handlers : Handlers}
variable {s s' : State}

/-- What the DSP is doing depends only on the DSP. -/
theorem Resting.congr (resting : Resting dspOrder handlers s) (dsp : s'.dsp = s.dsp)
    (phase : s'.phase = s.phase) : Resting dspOrder handlers s' := by
  cases resting with
  | waiting at_dsp at_phase => exact .waiting (dsp.trans at_dsp) (phase.trans at_phase)
  | called device at_dsp at_phase => exact .called device (dsp.trans at_dsp) (phase.trans at_phase)
  | pending at_dsp at_phase => exact .pending (dsp.trans at_dsp) (phase.trans at_phase)
  | silent at_dsp silent at_phase => exact .silent (dsp.trans at_dsp) silent (phase.trans at_phase)

theorem Resting.phase_ne (resting : Resting dspOrder handlers s) : s.phase ≠ .processing := by
  cases resting <;> simp_all

theorem writeAll_append_ne_ret (l : List (ℕ × U32)) (p : ℕ × U32) :
    writeAll (l ++ [p]) ≠ .ret () := by
  cases l <;> simp [writeAll, xrpCommWrite32]

/-- A write of the payload. -/
theorem Fills.write {rq : XrpRequest} {o : CommOp} {next : o.Answer → CommProgram Unit}
    (fills : Fills order translate s rq (.ask o next)) :
    (¬ WritesFlags o ∧ (s.fill rq o next).comm DspCmd.flags = s.comm DspCmd.flags ∧
      Fills order translate (s.fill rq o next) rq (next (o.act s.comm).1)) ∨
    (WritesFlags o ∧ next (o.act s.comm).1 = .ret () ∧
      Agrees order translate rq (s.fill rq o next).comm) := by
  obtain ⟨done, left, payload, rest, written⟩ := fills
  have keys : KeysBetween 1 20 (rq.payload order translate) := keysBetween_payload
  rw [payload] at keys
  cases left with
  | nil =>
    have only : Program.ask o next =
        .ask (.write DspCmd.flags rq.flagsWord) fun _ => .ret () := rest
    cases only
    refine .inr ⟨rfl, rfl, fun w v member => ?_⟩
    rw [requestWords, payload, List.append_nil, List.mem_append, List.mem_singleton] at member
    rcases member with member | same
    · have ne : w ≠ DspCmd.flags := by
        have := keys.range (List.mem_append_left _ member)
        grind
      exact (Function.update_of_ne ne _ _).trans (written w v member)
    · cases same
      simp [State.fill]
  | cons p left =>
    obtain ⟨w, v⟩ := p
    have first : Program.ask o next = .ask (.write w v) fun _ =>
        writeAll (left ++ [(DspCmd.flags, rq.flagsWord)]) := rest
    cases first
    have ne : w ≠ DspCmd.flags := by
      have := keys.range (List.mem_append_right _ (List.mem_cons_self (a := (w, v))))
      grind
    refine .inl ⟨ne, Function.update_of_ne ne.symm _ _, done ++ [(w, v)], left, ?_, rfl, ?_⟩
    · rw [payload, List.append_assoc]
      rfl
    · intro w' v' member
      rcases List.mem_append.mp member with member | same
      · have ne' : w' ≠ w := by
          have nodup := keys.nodup
          rw [List.map_append, List.nodup_append] at nodup
          exact nodup.2.2 w' (List.mem_map_of_mem member) w (by simp)
        exact (Function.update_of_ne ne' _ _).trans (written w' v' member)
      · cases List.mem_singleton.mp same
        exact Function.update_self _ _ _

/-- What the host reads back is the answer to the last request. -/
theorem Stage.of_completing (stage : Stage order dspOrder translate handlers s)
    {rq : XrpRequest} {rest : CommProgram HwResult} (completing : s.host = .completing rq rest) :
    ∃ before earlier, ReadsOnly rest ∧
      (rest.run CommOp.act s.comm).1 =
        ((xrpCompleteHwRequest order rq).run CommOp.act s.comm).1 ∧
      Answered (s.comm DspCmd.flags) ∧ Resting dspOrder handlers s ∧
      s.requests = before ++ [rq] ∧ s.entries.length = before.length + 1 ∧
      s.answers = earlier ++ [s.comm] ∧ earlier.length = before.length ∧
      s.results.length = before.length := by
  cases stage with
  | quiet host => simp [completing] at host
  | published waits => simp [HostWaits, completing] at waits
  | processing waits => simp [HostWaits, completing] at waits
  | @answered rq' before earlier host flags resting requests entries answers lengths results =>
    obtain ⟨rest', completing', reads, run⟩ := host.resolve_left (by simp [HostWaits, completing])
    rw [completing] at completing'
    cases completing'
    exact ⟨before, earlier, reads, run, flags, resting, requests, entries, answers, lengths,
      results⟩

theorem HostStep.stage (step : HostStep order translate s s')
    (stage : Stage order dspOrder translate handlers s) :
    Stage order dspOrder translate handlers s' := by
  cases step with
  | start rq idle =>
    cases stage with
    | quiet host flags resting entries answers results =>
      refine .quiet (.inr ⟨rq, _, rfl, [], rq.payload order translate, rfl, ?_, by simp⟩) flags
        (resting.congr rfl rfl) entries answers results
      exact xrpFillHwRequest_eq order translate rq
    | published waits => simp [HostWaits, idle] at waits
    | processing waits => simp [HostWaits, idle] at waits
    | answered host => simp [HostWaits, idle] at host
  | @fill rq o next filling =>
    cases stage with
    | quiet host flags resting entries answers results =>
      obtain ⟨rq', rest, filling', fills⟩ := host.resolve_left (by simp [filling])
      rw [filling] at filling'
      cases filling'
      rcases fills.write with ⟨other, kept, fills⟩ | ⟨publishes, last, agrees⟩
      · refine .quiet (.inr ⟨rq, _, rfl, fills⟩) (by rwa [kept]) (resting.congr rfl rfl) ?_ ?_ ?_
        all_goals simpa [State.fill, other]
      · have filled : (s.fill rq o next).host = .filling rq (.ret ()) := by rw [← last]; rfl
        have requests : (s.fill rq o next).requests = s.requests ++ [rq] := if_pos publishes
        exact .published (.inl filled) agrees (.inl (resting.congr rfl rfl)) requests entries
          answers results
    | published waits =>
      simp [HostWaits, filling] at waits
    | processing waits => simp [HostWaits, filling] at waits
    | answered host => simp [HostWaits, filling] at host
  | @filled rq filling =>
    have waits_of : ∀ {rq'}, HostWaits s rq' →
        HostWaits { s with host := .polling rq } rq' := by
      intro rq' waits
      have same : rq' = rq := by simpa [HostWaits, filling, eq_comm] using waits
      exact .inr (by rw [same])
    cases stage with
    | quiet host flags resting =>
      obtain ⟨rq', rest, filling', done, left, -, last, -⟩ := host.resolve_left (by simp [filling])
      rw [filling] at filling'
      cases filling'
      exact absurd last.symm (writeAll_append_ne_ret left _)
    | published waits agrees dsp requests entries answers results =>
      exact .published (waits_of waits) agrees
        (dsp.imp (·.congr rfl rfl) id) requests entries answers results
    | processing waits flags phase dsp holds requests entries answers results =>
      exact .processing (waits_of waits) flags phase dsp holds requests entries answers results
    | answered host flags resting requests entries answers earlier results =>
      have waits := host.resolve_right (by simp [filling])
      exact .answered (.inl (waits_of waits)) flags (resting.congr rfl rfl) requests entries answers
        earlier results
  | poll polling pending => exact stage
  | @complete rq polling complete =>
    have flags_answered : Answered (s.comm DspCmd.flags) := by simpa [xrpCmdComplete] using complete
    cases stage with
    | quiet host => simp [polling] at host
    | published waits agrees =>
      rw [agrees _ _ mem_requestWords_flags] at flags_answered
      exact absurd flags_answered requesting_flagsWord.not_answered
    | processing waits flags =>
      rw [flags] at flags_answered
      exact absurd flags_answered requesting_flagsWord.not_answered
    | @answered rq' before earlier host flags resting requests entries answers lengths results =>
      have waits := host.resolve_right (by simp [polling])
      obtain rfl : rq' = rq := by simpa [HostWaits, polling, eq_comm] using waits
      exact .answered (.inr ⟨_, rfl, readsOnly_xrpCompleteHwRequest order _, rfl⟩) flags
        (resting.congr rfl rfl) requests entries answers lengths results
  | @readBack rq o next completing =>
    obtain ⟨before, earlier, reads, run, flags, resting, requests, entries, answers, lengths,
      results⟩ := stage.of_completing completing
    obtain ⟨⟨w, rfl⟩, rest⟩ := reads
    exact .answered (.inr ⟨_, rfl, rest _ () trivial, run⟩) flags (resting.congr rfl rfl) requests
      entries answers lengths results
  | @done rq r completing =>
    obtain ⟨before, earlier, reads, run, flags, resting, requests, entries, answers, lengths,
      results⟩ := stage.of_completing completing
    have not_requesting : ¬ Requesting (s.comm DspCmd.flags) :=
      fun requesting => requesting.not_answered flags
    refine .quiet (.inl rfl) not_requesting (resting.congr rfl rfl) ?_ ?_ ?_
    · simp [requests, entries]
    · simp [requests, answers, lengths]
    · simp [requests, results]

end Host

/-! ## Steps of the DSP -/

section Device

variable {order dspOrder : ByteOrder} {translate : ULong → U32} {handlers : Handlers}
variable {s s' : State}

/-- A dispatch begins with a read of the flags word. -/
theorem xrpDeviceDispatch_eq (dspOrder : ByteOrder) (handlers : Handlers) (device : XrpDevice) :
    xrpDeviceDispatch dspOrder handlers device =
      .ask (.comm (.read DspCmd.flags)) fun flags =>
        if !xrpRequestValid flags then .ret (.status .pending)
        else if flags = syncStart then .ret .handshake
        else .status <$> processCommand dspOrder handlers device flags := rfl

theorem flagsWord_ne_syncStart (rq : XrpRequest) : rq.flagsWord ≠ syncStart := by
  intro same
  have clear : (rq.ioctlQueue.flags &&& ~~~queueValidFlags).getLsbD 8 = false := by
    rw [rq.ioctlQueue.valid]
    decide
  have bit := congrArg (BitVec.getLsbD · 8) same
  simp [queueValidFlags] at clear
  simp [XrpRequest.flagsWord, responseValid, requestValid, syncStart, clear] at bit

theorem Resting.call (resting : Resting dspOrder handlers s) (waiting : s.dsp = .waiting)
    (device : XrpDevice) :
    Resting dspOrder handlers
      { s with dsp := .dispatching (xrpDeviceDispatch dspOrder handlers device) } := by
  cases resting with
  | waiting at_dsp phase => exact .called device rfl phase
  | called device at_dsp => simp [waiting] at at_dsp
  | pending at_dsp => simp [waiting] at at_dsp
  | silent at_dsp => simp [waiting] at at_dsp

/-- What a resting DSP may ask for: it begins a dispatch, or it is done with the comm area. -/
theorem Resting.ask {o : DspOp} {next : o.Answer → DspProgram Dispatch}
    (resting : Resting dspOrder handlers s) (here : s.dsp = .dispatching (.ask o next)) :
    (s.phase = .outside ∧
      ∃ device, Program.ask o next = xrpDeviceDispatch dspOrder handlers device) ∨
    (s.phase = .answered ∧ Private o ∧ ∀ r, Silent (next r)) := by
  cases resting with
  | waiting at_dsp => simp [here] at at_dsp
  | called device at_dsp phase =>
    rw [here] at at_dsp
    exact .inl ⟨phase, device, DspPc.dispatching.inj at_dsp⟩
  | pending at_dsp => simp [here] at at_dsp
  | silent at_dsp silent phase =>
    rw [here] at at_dsp
    cases at_dsp
    exact .inr ⟨phase, silent.1, fun r => silent.2 r () trivial⟩

theorem Resting.ret {d : Dispatch} (resting : Resting dspOrder handlers s)
    (here : s.dsp = .dispatching (.ret d)) : d ≠ .handshake := by
  cases resting with
  | waiting at_dsp => simp [here] at at_dsp
  | called device at_dsp => simp [here, xrpDeviceDispatch_eq] at at_dsp
  | pending at_dsp =>
    rw [here] at at_dsp
    cases at_dsp
    simp
  | silent at_dsp silent =>
    rw [here] at at_dsp
    cases at_dsp
    exact silent

/-- The only access of a resting DSP is the read of the flags word. -/
theorem Resting.access {o : CommOp} {next : o.Answer → DspProgram Dispatch}
    (resting : Resting dspOrder handlers s) (here : s.dsp = .dispatching (.ask (.comm o) next)) :
    s.phase = .outside ∧
      ∃ device, Program.ask (.comm o) next = xrpDeviceDispatch dspOrder handlers device :=
  (resting.ask here).resolve_right fun silent => silent.2.1

theorem Resting.not_enter {next : Unit → DspProgram Dispatch}
    (resting : Resting dspOrder handlers s) : s.dsp ≠ .dispatching (.ask .enter next) := by
  intro here
  rcases resting.ask here with ⟨-, device, program⟩ | ⟨-, priv, -⟩
  · rw [xrpDeviceDispatch_eq] at program
    cases program
  · exact priv

/-- An operation that is not about the comm area leaves a resting DSP so. -/
theorem Resting.other {o : DspOp} {next : o.Answer → DspProgram Dispatch}
    (resting : Resting dspOrder handlers s) (here : s.dsp = .dispatching (.ask o next))
    (priv : Private o) (r : o.Answer) :
    Resting dspOrder handlers { s with dsp := .dispatching (next r) } := by
  rcases resting.ask here with ⟨-, device, program⟩ | ⟨phase, -, silent⟩
  · rw [xrpDeviceDispatch_eq] at program
    cases program
    exact priv.elim
  · exact .silent rfl (silent r) phase

/-- Without a request in the flags word a resting DSP stays so. -/
theorem Resting.read {o : CommOp} {next : o.Answer → DspProgram Dispatch}
    (resting : Resting dspOrder handlers s) (here : s.dsp = .dispatching (.ask (.comm o) next))
    (none : ¬ Requesting (s.comm DspCmd.flags)) :
    Resting dspOrder handlers (s.dspAccess o next) ∧ (∃ w, o = .read w) := by
  obtain ⟨outside, device, program⟩ := resting.access here
  rw [xrpDeviceDispatch_eq] at program
  cases program
  have invalid : xrpRequestValid (s.comm DspCmd.flags) = false := by
    simpa [xrpRequestValid] using none
  refine ⟨.pending ?_ outside, _, rfl⟩
  simp [State.dspAccess, invalid]

/-- The part of `xrp_device_dispatch` after the flags word was found to carry a request. -/
theorem wp_dispatched {rq : XrpRequest} {m : Comm} (dspOrder : ByteOrder) (handlers : Handlers)
    (device : XrpDevice) (agrees : Agrees order translate rq m) :
    (Dispatch.status <$> processCommand dspOrder handlers device rq.flagsWord).wp
      (dspRules order translate rq) Finished (m, .outside) := by
  rw [map_eq_pure_bind]
  exact (wp_processCommand handlers device agrees).bind fun status s' answered =>
    ⟨answered, by simp⟩

/-- A DSP that reads the flags word of a published request goes on to `process_command`. -/
theorem entering_of_read {rq : XrpRequest} (agrees : Agrees order translate rq s.comm)
    (outside : s.phase = .outside) (device : XrpDevice) :
    Entering dspOrder handlers (s.dspAccess (.read DspCmd.flags) fun flags =>
      if !xrpRequestValid flags then .ret (.status .pending)
      else if flags = syncStart then .ret .handshake
      else .status <$> processCommand dspOrder handlers device flags) rq := by
  refine ⟨outside, device, ?_⟩
  have valid : xrpRequestValid rq.flagsWord = true := by
    simpa [xrpRequestValid] using requesting_flagsWord
  simp [State.dspAccess, agrees _ _ mem_requestWords_flags, valid, flagsWord_ne_syncStart]

/-- An access in `process_command`: the request stays, or the answer is given. -/
theorem processing_access {rq : XrpRequest} {before : List XrpRequest} {o : CommOp}
    {next : o.Answer → DspProgram Dispatch} (waits : HostWaits s rq)
    (flags : s.comm DspCmd.flags = rq.flagsWord) (phase : s.phase = .processing)
    (holds : (Program.ask (.comm o) next).wp (dspRules order translate rq) Finished
      (s.comm, .processing))
    (requests : s.requests = before ++ [rq]) (entries : s.entries.length = before.length + 1)
    (answers : s.answers.length = before.length) (results : s.results.length = before.length) :
    Stage order dspOrder translate handlers (s.dspAccess o next) := by
  obtain ⟨allowed, rest⟩ := holds
  cases o with
  | read w =>
    exact .processing waits flags phase rfl (rest _ _ ⟨rfl, rfl⟩) requests entries answers results
  | write w v =>
    by_cases completes : w = DspCmd.flags
    · subst completes
      have silent := silent_of_wp (rest () _ rfl)
      refine .answered (.inl waits) ?_ (.silent rfl silent rfl) requests entries rfl answers results
      simpa [State.dspAccess] using allowed.2
    · have next_holds := rest () _ rfl
      rw [if_neg completes] at next_holds
      refine .processing waits ?_ ?_ rfl next_holds requests entries ?_ results
      · exact (Function.update_of_ne (Ne.symm completes) _ _).trans flags
      · simpa [State.dspAccess, WritesFlags, completes] using phase
      · simpa [State.dspAccess, WritesFlags, completes] using answers

theorem DspStep.stage (step : DspStep dspOrder handlers s s')
    (stage : Stage order dspOrder translate handlers s) :
    Stage order dspOrder translate handlers s' := by
  cases step with
  | call device waiting =>
    cases stage with
    | quiet host flags resting entries answers results =>
      exact .quiet host flags (resting.call waiting device) entries answers results
    | published waits agrees dsp requests entries answers results =>
      have resting := dsp.resolve_right (by simp [Entering, waiting])
      exact .published waits agrees (.inl (resting.call waiting device)) requests entries answers
        results
    | processing waits flags phase dsp => simp [waiting] at dsp
    | answered host flags resting requests entries answers lengths results =>
      exact .answered host flags (resting.call waiting device) requests entries answers lengths
        results
  | @access o next here =>
    cases stage with
    | quiet host flags resting entries answers results =>
      obtain ⟨resting', w, rfl⟩ := resting.read here flags
      exact .quiet host flags resting' entries answers results
    | @published rq before waits agrees dsp requests entries answers results =>
      have resting := dsp.resolve_right (by
        rintro ⟨-, device, at_dsp⟩
        rw [here] at at_dsp
        cases at_dsp)
      obtain ⟨outside, device, program⟩ := resting.access here
      rw [xrpDeviceDispatch_eq] at program
      cases program
      exact .published waits agrees (.inr (entering_of_read agrees outside device)) requests entries
        answers results
    | processing waits flags phase dsp holds requests entries answers results =>
      rw [here] at dsp
      cases dsp
      exact processing_access waits flags phase holds requests entries answers results
    | answered host flags resting requests entries answers lengths results =>
      obtain ⟨resting', w, rfl⟩ :=
        resting.read here (fun requesting => requesting.not_answered flags)
      exact .answered host flags resting' requests entries answers lengths results
  | @enter next here =>
    have not_resting : ¬ Resting dspOrder handlers s := fun resting => resting.not_enter here
    cases stage with
    | quiet host flags resting => exact absurd resting not_resting
    | @published rq before waits agrees dsp requests entries answers results =>
      obtain ⟨outside, device, at_dsp⟩ := dsp.resolve_left not_resting
      have whole := wp_dispatched dspOrder handlers device agrees
      rw [here] at at_dsp
      rw [← DspPc.dispatching.inj at_dsp] at whole
      exact .processing waits (agrees _ _ mem_requestWords_flags) rfl rfl (whole.2 () _ rfl)
        requests (by simp [State.enter, entries]) answers results
    | processing waits flags phase dsp holds =>
      rw [here] at dsp
      cases dsp
      exact absurd holds.1 (by simp [dspRules])
    | answered host flags resting => exact absurd resting not_resting
  | @other o next r here priv =>
    cases stage with
    | quiet host flags resting entries answers results =>
      exact .quiet host flags (resting.other here priv r) entries answers results
    | published waits agrees dsp requests entries answers results =>
      have resting := dsp.resolve_right (by
        rintro ⟨-, device, at_dsp⟩
        rw [here] at at_dsp
        cases at_dsp
        exact priv.elim)
      exact .published waits agrees (.inl (resting.other here priv r)) requests entries answers
        results
    | @processing rq before p waits flags phase dsp holds requests entries answers results =>
      rw [here] at dsp
      cases dsp
      have kept : (next r).wp (dspRules order translate rq) Finished (s.comm, .processing) := by
        cases o with
        | comm o => exact priv.elim
        | enter => exact priv.elim
        | _ => exact holds.2 r _ rfl
      exact .processing waits flags phase rfl kept requests entries answers results
    | answered host flags resting requests entries answers lengths results =>
      exact .answered host flags (resting.other here priv r) requests entries answers lengths
        results
  | @leave status here =>
    have rests : Resting dspOrder handlers { s with dsp := .waiting, phase := .outside } :=
      .waiting rfl rfl
    cases stage with
    | quiet host flags resting entries answers results =>
      exact .quiet host flags rests entries answers results
    | published waits agrees dsp requests entries answers results =>
      exact .published waits agrees (.inl rests) requests entries answers results
    | processing waits flags phase dsp holds =>
      rw [here] at dsp
      cases dsp
      exact absurd holds.1 (by simp)
    | answered host flags resting requests entries answers lengths results =>
      exact .answered host flags rests requests entries answers lengths results
  | handshake here =>
    have not_resting : ¬ Resting dspOrder handlers s := fun resting => resting.ret here rfl
    cases stage with
    | quiet host flags resting => exact absurd resting not_resting
    | published waits agrees dsp =>
      obtain ⟨-, device, at_dsp⟩ := dsp.resolve_left not_resting
      rw [here] at at_dsp
      cases at_dsp
    | processing waits flags phase dsp holds =>
      rw [here] at dsp
      cases dsp
      exact absurd rfl holds.2
    | answered host flags resting => exact absurd resting not_resting

end Device

end Xrp.Exchange
