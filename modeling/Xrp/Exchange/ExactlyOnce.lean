import Xrp.Exchange.Invariant

/-!
# Exactly-once exchange of commands

In every run the DSP enters `process_command` once for each request, in order,
decodes the words the host wrote for that request, is not disturbed meanwhile,
and the host reads back what the comm area held when the DSP completed it.
-/

namespace Xrp.Exchange

open Kernel Dsp

/-- The next step of the host is a write to the comm area. -/
def HostWrites (s : State) : Prop :=
  ∃ rq w v, (∃ next, s.host = .filling rq (.ask (.write w v) next)) ∨
    ∃ next, s.host = .completing rq (.ask (.write w v) next)

section History

variable (order : ByteOrder) (translate : ULong → U32)

/-- The records of a run. Requests are numbered from 0 in the order of their publication, and
`answers[k]?` is the comm area right after the DSP completed request `k`. -/
structure History (s : State) : Prop where
  entered : s.entries = List.range s.entries.length
  decoded : ∀ {k w : ℕ} {v : U32}, (k, w, v) ∈ s.dspReads → ∃ rq, s.requests[k]? = some rq ∧
    ((w, v) ∈ requestWords order translate rq ∨ OutWord rq w)
  readBack : ∀ {k w : ℕ} {v : U32}, (k, w, v) ∈ s.hostReads → ∃ m, s.answers[k]? = some m ∧ v = m w
  returned : ∀ {k : ℕ} {r : HwResult}, s.results[k]? = some r → ∃ rq m, s.requests[k]? = some rq ∧
    s.answers[k]? = some m ∧ r = ((xrpCompleteHwRequest order rq).run CommOp.act m).1

end History

section Steps

variable {order dspOrder : ByteOrder} {translate : ULong → U32} {handlers : Handlers}
variable {s s' : State}

theorem getElem?_of_extends {α : Type} {l l' : List α} {k : ℕ} {x : α} (more : l <+: l')
    (found : l[k]? = some x) : l'[k]? = some x := by
  obtain ⟨rest, rfl⟩ := more
  rw [List.getElem?_append_left (List.getElem?_eq_some_iff.mp found).1]
  exact found

/-- Records stay true when requests and answers are added. -/
theorem History.extend (history : History order translate s) (entries : s'.entries = s.entries)
    (dspReads : s'.dspReads = s.dspReads) (hostReads : s'.hostReads = s.hostReads)
    (results : s'.results = s.results) (requests : s.requests <+: s'.requests)
    (answers : s.answers <+: s'.answers) : History order translate s' where
  entered := by rw [entries]; exact history.entered
  decoded := by
    intro k w v member
    rw [dspReads] at member
    obtain ⟨rq, found, read⟩ := history.decoded member
    exact ⟨rq, getElem?_of_extends requests found, read⟩
  readBack := by
    intro k w v member
    rw [hostReads] at member
    obtain ⟨m, found, read⟩ := history.readBack member
    exact ⟨m, getElem?_of_extends answers found, read⟩
  returned := by
    intro k r at_k
    rw [results] at at_k
    obtain ⟨rq, m, found, found', value⟩ := history.returned at_k
    exact ⟨rq, m, getElem?_of_extends requests found, getElem?_of_extends answers found', value⟩

theorem extends_ite {α : Type} {l : List α} {x : α} {c : Prop} [Decidable c] :
    l <+: if c then l ++ [x] else l := by
  split_ifs
  · exact List.prefix_append l [x]
  · exact List.prefix_rfl

theorem HostStep.history (step : HostStep order translate s s')
    (stage : Stage order dspOrder translate handlers s) (history : History order translate s) :
    History order translate s' := by
  cases step with
  | start rq idle => exact ⟨history.entered, history.decoded, history.readBack, history.returned⟩
  | @fill rq o next filling =>
    exact history.extend rfl rfl rfl rfl extends_ite List.prefix_rfl
  | filled filling => exact ⟨history.entered, history.decoded, history.readBack, history.returned⟩
  | poll => exact history
  | complete => exact ⟨history.entered, history.decoded, history.readBack, history.returned⟩
  | @readBack rq o next completing =>
    obtain ⟨before, earlier, _, _, _, _, _, _, answers, lengths, results⟩ :=
      stage.of_completing completing
    refine ⟨history.entered, history.decoded, ?_, history.returned⟩
    intro k w v member
    rcases List.mem_append.mp member with old | new
    · exact history.readBack old
    · cases o with
      | read u =>
        obtain ⟨rfl, rfl, rfl⟩ : k = s.results.length ∧ w = u ∧ v = s.comm u := by
          simpa [readRecord] using new
        refine ⟨s.comm, ?_, rfl⟩
        change s.answers[s.results.length]? = _
        rw [answers, results, ← lengths]
        simp
      | write u x => simp [readRecord] at new
  | @done rq r completing =>
    obtain ⟨before, earlier, _, run, _, _, requests, _, answers, lengths, results⟩ :=
      stage.of_completing completing
    refine ⟨history.entered, history.decoded, history.readBack, ?_⟩
    intro k r' at_k
    by_cases last : k = s.results.length
    · subst last
      obtain rfl : r = r' := by simpa using at_k
      refine ⟨rq, s.comm, ?_, ?_, run⟩
      · simp [requests, results]
      · simp [answers, results, ← lengths]
    · refine history.returned (k := k) (r := r') ?_
      have := (List.getElem?_eq_some_iff.mp at_k).1
      rw [List.getElem?_append_left (by grind)] at at_k
      exact at_k

theorem DspStep.history (step : DspStep dspOrder handlers s s')
    (stage : Stage order dspOrder translate handlers s) (history : History order translate s) :
    History order translate s' := by
  cases step with
  | call => exact ⟨history.entered, history.decoded, history.readBack, history.returned⟩
  | @access o next here =>
    have extended : History order translate { s.dspAccess o next with dspReads := s.dspReads } :=
      history.extend rfl rfl rfl rfl List.prefix_rfl extends_ite
    refine ⟨history.entered, ?_, extended.readBack, extended.returned⟩
    intro k w v member
    by_cases processing : s.phase = .processing
    · simp only [State.dspAccess, if_pos processing] at member
      rcases List.mem_append.mp member with old | new
      · exact history.decoded old
      cases o with
      | write u x => simp [readRecord] at new
      | read u =>
        obtain ⟨rfl, rfl, rfl⟩ : k = s.requests.length - 1 ∧ w = u ∧ v = s.comm u := by
          simpa [readRecord] using new
        cases stage with
        | quiet host flags resting => exact absurd processing resting.phase_ne
        | published waits agrees dsp =>
          rcases dsp with resting | entering
          · exact absurd processing resting.phase_ne
          · simp [entering.1] at processing
        | @processing rq before p waits flags phase dsp holds requests =>
          rw [here] at dsp
          cases dsp
          refine ⟨rq, ?_, holds.1.2⟩
          simp [State.dspAccess, requests]
        | answered host flags resting => exact absurd processing resting.phase_ne
    · simp only [State.dspAccess, if_neg processing] at member
      exact history.decoded member
  | @enter next here =>
    refine ⟨?_, history.decoded, history.readBack, history.returned⟩
    have current : s.requests.length - 1 = s.entries.length := by
      cases stage with
      | quiet host flags resting => exact absurd here resting.not_enter
      | published waits agrees dsp requests entries => simp [requests, entries]
      | processing waits flags phase dsp holds =>
        rw [here] at dsp
        cases dsp
        exact absurd holds.1 (by simp [dspRules])
      | answered host flags resting => exact absurd here resting.not_enter
    simp only [State.enter, List.length_append, List.length_singleton, List.range_succ, current]
    rw [← history.entered]
  | other => exact ⟨history.entered, history.decoded, history.readBack, history.returned⟩
  | leave => exact ⟨history.entered, history.decoded, history.readBack, history.returned⟩
  | handshake => exact ⟨history.entered, history.decoded, history.readBack, history.returned⟩

theorem Initial.stage (initial : Initial s) : Stage order dspOrder translate handlers s := by
  refine .quiet (.inl initial.host) ?_ (.waiting initial.dsp initial.phase) ?_ ?_ ?_
  · rw [initial.idle]
    decide
  · rw [initial.entries, initial.requests]
    rfl
  · rw [initial.answers, initial.requests]
    rfl
  · rw [initial.results, initial.requests]
    rfl

theorem Initial.history (initial : Initial s) : History order translate s := by
  constructor
  · simp [initial.entries]
  · simp [initial.dspReads]
  · simp [initial.hostReads]
  · simp [initial.results]

theorem Reach.inv (reach : Reach order dspOrder translate handlers s) :
    Stage order dspOrder translate handlers s ∧ History order translate s := by
  obtain ⟨s₀, initial, run⟩ := reach
  induction run with
  | refl => exact ⟨initial.stage, initial.history⟩
  | tail _ step ih =>
    obtain ⟨stage, history⟩ := ih
    cases step with
    | host step => exact ⟨step.stage stage, step.history stage history⟩
    | dsp step => exact ⟨step.stage stage, step.history stage history⟩

end Steps

/-! ## The DSP serves what is published -/

section Served

variable {order dspOrder : ByteOrder} {translate : ULong → U32} {handlers : Handlers}
variable {s s' : State}

/-- Steps of the DSP alone that enter `entries` requests and answer one. -/
def Serves (dspOrder : ByteOrder) (handlers : Handlers) (entries : ℕ) (s : State) : Prop :=
  ∃ s', Relation.ReflTransGen (DspStep dspOrder handlers) s s' ∧ s'.requests = s.requests ∧
    s'.entries.length = s.entries.length + entries ∧ s'.answers.length = s.answers.length + 1

theorem Serves.head {entries : ℕ} (step : DspStep dspOrder handlers s s')
    (serves : Serves dspOrder handlers entries s') (requests : s'.requests = s.requests)
    (same : s'.entries = s.entries) (answers : s'.answers = s.answers) :
    Serves dspOrder handlers entries s := by
  obtain ⟨t, run, requests', entries', answers'⟩ := serves
  exact ⟨t, .head step run, requests'.trans requests, same ▸ entries', answers ▸ answers'⟩

/-- `process_command` comes to its answer, whatever memory and `malloc` answer. -/
theorem serves_processing {rq : XrpRequest} {p : DspProgram Dispatch}
    (phase : s.phase = .processing) (dsp : s.dsp = .dispatching p)
    (holds : p.wp (dspRules order translate rq) Finished (s.comm, .processing)) :
    Serves dspOrder handlers 0 s := by
  induction p generalizing s with
  | ret d => exact absurd holds.1 (by simp)
  | ask o next ih =>
    have other : ∀ r, Private o →
        (next r).wp (dspRules order translate rq) Finished (s.comm, .processing) →
        Serves dspOrder handlers 0 s := fun r priv kept =>
      (ih r (s := { s with dsp := .dispatching (next r) }) phase rfl kept).head
        (.other r dsp priv) rfl rfl rfl
    cases o with
    | comm o =>
      by_cases completes : WritesFlags o
      · refine ⟨s.dspAccess o next, .single (.access dsp), rfl, rfl, ?_⟩
        simp [State.dspAccess, completes]
      · have kept : (next (o.act s.comm).1).wp (dspRules order translate rq) Finished
            ((o.act s.comm).2, .processing) := by
          cases o with
          | read w => exact holds.2 _ _ ⟨rfl, rfl⟩
          | write w v =>
            have kept := holds.2 () _ rfl
            rwa [if_neg (show ¬ w = DspCmd.flags from completes)] at kept
        have still : (s.dspAccess o next).phase = .processing := (if_neg completes).trans phase
        exact (ih _ still rfl kept).head (.access dsp) rfl rfl (if_neg completes)
    | enter => exact absurd holds.1 (by simp [dspRules])
    | load a => exact other 0 trivial (holds.2 0 _ rfl)
    | store a v => exact other () trivial (holds.2 () _ rfl)
    | malloc => exact other true trivial (holds.2 true _ rfl)
    | invoke h => exact other () trivial (holds.2 () _ rfl)

theorem serves_entering {rq : XrpRequest} (agrees : Agrees order translate rq s.comm)
    (entering : Entering dspOrder handlers s rq) : Serves dspOrder handlers 1 s := by
  obtain ⟨outside, device, dsp⟩ := entering
  have whole := wp_dispatched dspOrder handlers device agrees
  obtain ⟨next, program⟩ : ∃ next,
    (Dispatch.status <$> processCommand dspOrder handlers device rq.flagsWord) =
      .ask .enter next := ⟨_, rfl⟩
  rw [program] at dsp whole
  obtain ⟨t, run, requests, entries, answers⟩ : Serves dspOrder handlers 0 (s.enter next) :=
    serves_processing rfl rfl (whole.2 () _ rfl)
  refine ⟨t, .head (.enter dsp) run, requests, ?_, answers⟩
  simpa [State.enter] using entries

theorem serves_called {rq : XrpRequest} {device : XrpDevice}
    (agrees : Agrees order translate rq s.comm) (outside : s.phase = .outside)
    (called : s.dsp = .dispatching (xrpDeviceDispatch dspOrder handlers device)) :
    Serves dspOrder handlers 1 s := by
  rw [xrpDeviceDispatch_eq] at called
  have read : Serves dspOrder handlers 1 (s.dspAccess (.read DspCmd.flags) _) :=
    serves_entering agrees (entering_of_read agrees outside device)
  exact read.head (.access called) rfl rfl rfl

theorem serves_waiting {rq : XrpRequest} (agrees : Agrees order translate rq s.comm)
    (waiting : s.dsp = .waiting) (outside : s.phase = .outside) :
    Serves dspOrder handlers 1 s := by
  let device : XrpDevice := ⟨0, 0, fun _ => ⟨0, 0, 0⟩⟩
  have called : Serves dspOrder handlers 1
      { s with dsp := .dispatching (xrpDeviceDispatch dspOrder handlers device) } :=
    serves_called agrees outside rfl
  exact called.head (.call device waiting) rfl rfl rfl

theorem serves_silent {rq : XrpRequest} {p : DspProgram Dispatch}
    (agrees : Agrees order translate rq s.comm) (dsp : s.dsp = .dispatching p)
    (silent : Silent p) : Serves dspOrder handlers 1 s := by
  induction p generalizing s with
  | ret d =>
    cases d with
    | status status =>
      have waiting : Serves dspOrder handlers 1 { s with dsp := .waiting, phase := .outside } :=
        serves_waiting agrees rfl rfl
      exact waiting.head (.leave dsp) rfl rfl rfl
    | handshake => exact absurd rfl silent
  | ask o next ih =>
    have other : ∀ r, Serves dspOrder handlers 1 s := fun r =>
      (ih r (s := { s with dsp := .dispatching (next r) }) agrees rfl
        (silent.2 r () trivial)).head (.other r dsp silent.1) rfl rfl rfl
    cases o with
    | comm o => exact silent.1.elim
    | enter => exact silent.1.elim
    | load a => exact other 0
    | store a v => exact other ()
    | malloc => exact other true
    | invoke h => exact other ()

theorem serves_published {rq : XrpRequest} (agrees : Agrees order translate rq s.comm)
    (dsp : Resting dspOrder handlers s ∨ Entering dspOrder handlers s rq) :
    Serves dspOrder handlers 1 s := by
  rcases dsp with resting | entering
  · cases resting with
    | waiting at_dsp outside => exact serves_waiting agrees at_dsp outside
    | called device at_dsp outside => exact serves_called agrees outside at_dsp
    | pending at_dsp => exact serves_silent agrees at_dsp (by simp [Silent])
    | silent at_dsp silent => exact serves_silent agrees at_dsp silent
  · exact serves_entering agrees entering

/-- The DSP alone enters and answers what is published. -/
theorem Stage.served (stage : Stage order dspOrder translate handlers s)
    (pending : s.answers.length < s.requests.length) :
    ∃ s', Relation.ReflTransGen (DspStep dspOrder handlers) s s' ∧ s'.requests = s.requests ∧
      s'.entries.length = s.requests.length ∧ s'.answers.length = s.requests.length := by
  cases stage with
  | quiet host flags resting entries answers => omega
  | published waits agrees dsp requests entries answers =>
    obtain ⟨s', run, same, entered, answered⟩ : Serves dspOrder handlers 1 s :=
      serves_published agrees dsp
    exact ⟨s', run, same, by grind, by grind⟩
  | processing waits flags phase dsp holds requests entries answers =>
    obtain ⟨s', run, same, entered, answered⟩ : Serves dspOrder handlers 0 s :=
      serves_processing phase dsp holds
    exact ⟨s', run, same, by grind, by grind⟩
  | answered host flags resting requests entries answers => grind

end Served

/-! ## The host gets its request through -/

section Submitted

variable {order dspOrder : ByteOrder} {translate : ULong → U32} {handlers : Handlers}
variable {s s' : State} {rq : XrpRequest}

theorem run_dsp_host (run : Relation.ReflTransGen (DspStep dspOrder handlers) s s') :
    s'.host = s.host := by
  induction run with
  | refl => rfl
  | tail _ step ih => cases step <;> exact ih

/-- The host comes to the end of what it writes. -/
theorem run_fills (order : ByteOrder) (translate : ULong → U32) {p : CommProgram Unit}
    (filling : s.host = .filling rq p) :
    ∃ s' n, Relation.ReflTransGen (HostStep order translate) s s' ∧ s'.host = .polling rq ∧
      s'.requests = s.requests ++ List.replicate n rq ∧ s'.results = s.results := by
  induction p generalizing s with
  | ret u => exact ⟨_, 0, .single (.filled filling), rfl, (List.append_nil _).symm, rfl⟩
  | ask o next ih =>
    obtain ⟨s', n, run, polling, requests, results⟩ :=
      ih (o.act s.comm).1 (s := s.fill rq o next) rfl
    refine ⟨s', if WritesFlags o then n + 1 else n, .head (.fill filling) run, polling, ?_, results⟩
    rw [requests, State.fill]
    split_ifs
    · rw [List.append_assoc, List.replicate_succ]
      rfl
    · rfl

/-- The host comes to the end of what it reads back. -/
theorem run_readsBack (order : ByteOrder) (translate : ULong → U32) {p : CommProgram HwResult}
    (completing : s.host = .completing rq p) :
    ∃ s', Relation.ReflTransGen (HostStep order translate) s s' ∧ s'.host = .idle ∧
      s'.requests = s.requests ∧ s'.results.length = s.results.length + 1 := by
  induction p generalizing s with
  | ret r => exact ⟨_, .single (.done completing), rfl, rfl, List.length_append⟩
  | ask o next ih =>
    obtain ⟨s', run, idle, requests, results⟩ :=
      ih (o.act s.comm).1 (s := s.readBack rq o next) rfl
    exact ⟨s', .head (.readBack completing) run, idle, requests, results⟩

theorem Reach.trans_host (reach : Reach order dspOrder translate handlers s)
    (run : Relation.ReflTransGen (HostStep order translate) s s') :
    Reach order dspOrder translate handlers s' := by
  obtain ⟨s₀, initial, before⟩ := reach
  exact ⟨s₀, initial, before.trans (Relation.ReflTransGen.mono (fun _ _ => .host) _ _ run)⟩

theorem Reach.trans_dsp (reach : Reach order dspOrder translate handlers s)
    (run : Relation.ReflTransGen (DspStep dspOrder handlers) s s') :
    Reach order dspOrder translate handlers s' := by
  obtain ⟨s₀, initial, before⟩ := reach
  exact ⟨s₀, initial, before.trans (Relation.ReflTransGen.mono (fun _ _ => .dsp) _ _ run)⟩

/-- While the host polls there is one request more than results. -/
theorem Stage.polling (stage : Stage order dspOrder translate handlers s)
    (polling : s.host = .polling rq) :
    s.requests.length = s.results.length + 1 ∧
      (s.requests.length ≤ s.answers.length → Answered (s.comm DspCmd.flags)) := by
  cases stage with
  | quiet host =>
    rcases host with idle | ⟨rq, rest, filling, -⟩
    · simp [polling] at idle
    · simp [polling] at filling
  | published waits agrees dsp requests entries answers results =>
    simp [requests, answers, results]
  | processing waits flags phase dsp holds requests entries answers results =>
    simp [requests, answers, results]
  | answered host flags resting requests entries answers earlier results =>
    simp [requests, results, flags]

/-- An idle host has the results of all requests. -/
theorem Stage.idle (stage : Stage order dspOrder translate handlers s) (idle : s.host = .idle) :
    s.results.length = s.requests.length := by
  cases stage with
  | quiet _ _ _ _ _ results => exact results
  | published waits => simp [HostWaits, idle] at waits
  | processing waits => simp [HostWaits, idle] at waits
  | answered host => simp [HostWaits, idle] at host

/-- A run in which the answer comes. -/
theorem Reach.answered (reach : Reach order dspOrder translate handlers s)
    (polling : s.host = .polling rq) :
    ∃ s', Reach order dspOrder translate handlers s' ∧ s'.host = .polling rq ∧
      s'.requests = s.requests ∧ Answered (s'.comm DspCmd.flags) := by
  obtain ⟨stage, -⟩ := reach.inv
  by_cases pending : s.answers.length < s.requests.length
  · obtain ⟨s', run, requests, -, answers⟩ := stage.served pending
    have reach' := reach.trans_dsp run
    have still : s'.host = .polling rq := (run_dsp_host run).trans polling
    refine ⟨s', reach', still, requests, (reach'.inv.1.polling still).2 ?_⟩
    rw [answers, requests]
  · exact ⟨s, reach, polling, rfl, (stage.polling polling).2 (not_lt.mp pending)⟩

/-- An idle host can submit any request and get it back. -/
theorem Reach.submit (reach : Reach order dspOrder translate handlers s) (idle : s.host = .idle)
    (rq : XrpRequest) :
    ∃ s', Reach order dspOrder translate handlers s' ∧ s'.host = .idle ∧
      s'.requests = s.requests ++ [rq] ∧ s'.results.length = s.results.length + 1 := by
  have count : s.results.length = s.requests.length := reach.inv.1.idle idle
  obtain ⟨t, n, fills, polling, requests, results⟩ :=
    run_fills order translate
      (s := { s with host := .filling rq (xrpFillHwRequest order translate rq) }) rfl
  have published := reach.trans_host (.head (.start rq idle) fills)
  obtain ⟨u, answered, polling', requests', flags⟩ := published.answered polling
  -- one request was published, since one result is missing
  have one : n = 1 := by
    have missing := (published.inv.1.polling polling).1
    rw [requests, results, List.length_append, List.length_replicate] at missing
    simp only at missing
    omega
  obtain ⟨v, reads, idle', requests'', results''⟩ :=
    run_readsBack order translate
      (s := { u with host := .completing rq (xrpCompleteHwRequest order rq) }) rfl
  have complete : xrpCmdComplete (u.comm DspCmd.flags) = true := by
    simpa [xrpCmdComplete] using flags
  refine ⟨v, answered.trans_host (.head (.complete polling' complete) reads), idle', ?_, ?_⟩
  · rw [requests'', requests', requests, one]
    rfl
  · have missing := (answered.inv.1.polling polling').1
    rw [requests', requests, one, List.length_append] at missing
    rw [results'', count]
    simpa using missing.symm

end Submitted

/-! ## The theorem -/

section Theorem

variable (order dspOrder : ByteOrder) (translate : ULong → U32) (handlers : Handlers)

/-- Exactly-once exchange, in a state of a run. -/
structure ExactlyOnce (s : State) : Prop where
  /-- The `n`-th entry into `process_command` is for the `n`-th request. -/
  entered_once : s.entries = List.range s.entries.length
  entered_published : s.entries.length ≤ s.requests.length
  completed_entered : s.results.length ≤ s.entries.length
  /-- The DSP alone, from here, enters and answers what is published. -/
  served : s.answers.length < s.requests.length →
    ∃ s', Relation.ReflTransGen (DspStep dspOrder handlers) s s' ∧ s'.requests = s.requests ∧
      s'.entries.length = s.requests.length ∧ s'.answers.length = s.requests.length
  /-- What the DSP reads while it processes request `k` was written for request `k`, but for
  output data of its own. -/
  decoded : ∀ {k w : ℕ} {v : U32}, (k, w, v) ∈ s.dspReads → ∃ rq, s.requests[k]? = some rq ∧
    ((w, v) ∈ requestWords order translate rq ∨ OutWord rq w)
  undisturbed : s.phase = .processing → ¬ HostWrites s
  /-- What the host reads for request `k` is in the comm area when the DSP completes it. -/
  readBack : ∀ {k w : ℕ} {v : U32}, (k, w, v) ∈ s.hostReads → ∃ m, s.answers[k]? = some m ∧ v = m w
  returned : ∀ {k : ℕ} {r : HwResult}, s.results[k]? = some r → ∃ rq m, s.requests[k]? = some rq ∧
    s.answers[k]? = some m ∧ r = ((xrpCompleteHwRequest order rq).run CommOp.act m).1

variable {order dspOrder translate handlers} {s : State}

theorem HostWaits.not_hostWrites {rq : XrpRequest} (waits : HostWaits s rq) : ¬ HostWrites s := by
  rintro ⟨rq', w, v, ⟨next, filling⟩ | ⟨next, completing⟩⟩
  · simp [HostWaits, filling] at waits
  · simp [HostWaits, completing] at waits

/-- In every state of every run of host and DSP the exchange is exactly-once. -/
theorem exchange_exactlyOnce (reach : Reach order dspOrder translate handlers s) :
    ExactlyOnce order dspOrder translate handlers s := by
  obtain ⟨stage, history⟩ := reach.inv
  refine ⟨history.entered, ?_, ?_, ?_, history.decoded, ?_, history.readBack, history.returned⟩
  · cases stage <;> grind
  · cases stage <;> grind
  · exact stage.served
  · intro processing
    cases stage with
    | quiet host flags resting => exact absurd processing resting.phase_ne
    | published waits => exact waits.not_hostWrites
    | processing waits => exact waits.not_hostWrites
    | answered host flags resting => exact absurd processing resting.phase_ne

/-- A request without data and buffers. -/
def emptyRequest : XrpRequest :=
  ⟨⟨0, 0, 0, 0, valid_noFlags⟩, 0, 0, 0, fun _ => 0, ⟨0, 0, 0⟩, fun _ => 0⟩

/-- Handlers that succeed at once. -/
def idleHandlers : Handlers := fun _ _ => .ret .success

theorem valid_nsid : queueFlagNsid &&& ~~~queueValidFlags = 0 := by decide

/-- A request with four bytes of data each way, a buffer and an identifier. -/
def dataRequest (value : U8) : XrpRequest :=
  ⟨⟨queueFlagNsid, 4, 4, 16, valid_nsid⟩, 0, 0, 0, fun _ => value, ⟨3, 16, 0x80001000⟩,
    fun _ => value⟩

/-- A run in which two requests are published, served and read back. -/
theorem exchange_exactlyOnce_served :
    ∃ s, Reach .little .little (fun _ => 0) idleHandlers s ∧
      s.requests = [dataRequest 1, dataRequest 2] ∧ s.entries = [0, 1] ∧ s.results.length = 2 ∧
      ExactlyOnce .little .little (fun _ => 0) idleHandlers s := by
  have initial : Initial ⟨fun _ => 0, .idle, .waiting, .outside, [], [], [], [], [], []⟩ := by
    constructor <;> rfl
  have start : Reach .little .little (fun _ => 0) idleHandlers _ := ⟨_, initial, .refl⟩
  obtain ⟨s, reach, idle, requests, results⟩ := start.submit rfl (dataRequest 1)
  obtain ⟨s', reach', -, requests', results'⟩ := reach.submit idle (dataRequest 2)
  have both : s'.requests = [dataRequest 1, dataRequest 2] := by
    rw [requests', requests]
    rfl
  have two : s'.results.length = 2 := by
    rw [results', results]
    rfl
  have once := exchange_exactlyOnce reach'
  have entered : s'.entries.length = 2 := by
    have published := once.entered_published
    have completed := once.completed_entered
    rw [both] at published
    rw [two] at completed
    exact le_antisymm published completed
  refine ⟨s', reach', both, ?_, two, once⟩
  rw [once.entered_once, entered]
  rfl

end Theorem

end Xrp.Exchange
