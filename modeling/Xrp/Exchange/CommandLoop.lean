import Xrp.Dsp.Machine
import Xrp.Exchange.Answers

/-!
# The command loop of the DSP framework

`run_command_loop` of `xrp_dsp_framework.c`. The host publishes commands one after another, each
once the one before was answered, and the DSP may poll any number of times in between. A published
command comes with all of the memory of the DSP, about which nothing is assumed.
`xrp_hw_wait_device_irq` returns at the next turn of the host. Every execution of
`complete_request` is recorded, with the number of the command that was published last.
-/

namespace Xrp.Exchange.CommandLoop

open Dsp

/-- A command that the host has published, with the namespace table when it is dispatched. -/
structure Command : Type where
  machine : Machine
  device : XrpDevice
  requesting : Requesting (machine.comm DspCmd.flags)
  notStart : machine.comm DspCmd.flags ≠ syncStart

/-- The host before a round of the loop: nothing is new and the DSP has the given namespace table,
or a command was published. -/
inductive Turn : Type
  | poll (device : XrpDevice)
  | command (c : Command)

/-- The DSP in its loop: its memory, the number of commands that were published, and for which of
them `complete_request` was executed. -/
structure LoopState : Type where
  machine : Machine
  published : ℕ
  completed : List ℕ

/-- The record of completions after an operation: `complete_request` writes the flags word. -/
def LoopState.record (s : LoopState) : DspOp → List ℕ
  | .comm c => if WritesFlags c then s.completed ++ [s.published - 1] else s.completed
  | _ => s.completed

/-- What an operation of the DSP does. -/
def LoopState.act (o : DspOp) (s : LoopState) : o.Answer × LoopState :=
  ((o.act s.machine).1, ⟨(o.act s.machine).2, s.published, s.record o⟩)

/-- The state when the loop comes to `xrp_device_dispatch`. -/
def Turn.apply : Turn → LoopState → LoopState
  | poll _, s => s
  | command c, s => { s with machine := c.machine, published := s.published + 1 }

/-- The namespace table at the dispatch. -/
def Turn.device : Turn → XrpDevice
  | poll device => device
  | command c => c.device

/-- A command was published. -/
def Turn.isCommand : Turn → Bool
  | poll _ => false
  | command _ => true

/-- How a round ends: the loop goes on, `run_command_loop` returns, or `do_handshake` is called. -/
inductive Round : Type
  | again
  | returned (status : XrpStatus)
  | handshake
  deriving DecidableEq

/-- What the loop does with the result of `xrp_device_dispatch`. -/
def afterDispatch : Dispatch → Round
  | .status .pending => .again
  | .status .success => .again
  | .status .failure => .returned .failure
  | .handshake => .handshake

section Model

variable (order : ByteOrder) (handlers : Handlers)

/-- One round of the loop. -/
def round (turn : Turn) (s : LoopState) : Round × LoopState :=
  let r := (xrpDeviceDispatch order handlers turn.device).run LoopState.act (turn.apply s)
  (afterDispatch r.1, r.2)

/-- `run_command_loop`, for the turns of the host. After a return the host goes on to publish, but
nothing is dispatched. -/
def runCommandLoop : List Turn → LoopState → LoopState
  | [], s => s
  | turn :: turns, s =>
    let r := round order handlers turn s
    match r.1 with
    | .again => runCommandLoop turns r.2
    | .returned _ => r.2
    | .handshake => r.2

/-- The number of commands. -/
def commands (turns : List Turn) : ℕ := turns.countP Turn.isCommand

/-- `complete_request` is executed once for each command, in their order. -/
def Served (turns : List Turn) (s : LoopState) : Prop :=
  (runCommandLoop order handlers turns s).completed =
    s.completed ++ List.range' s.published (commands turns)

/-- The command fails: no handler is found for it, there is no memory for its buffers, or the
handler fails. -/
def Command.Fails (c : Command) : Prop :=
  match selected order c.device c.machine.comm with
  | .fail => True
  | .call handler =>
    c.machine.HasRoom (bufferCount c.machine.comm) →
      (handlerRun handlers handler (bufferCount c.machine.comm)
        (buffersOf order (dspBufferOf c.machine.comm) c.machine (bufferCount c.machine.comm))
        c.machine).1.1 = .failure

/-- A command fails that is not the last one. -/
def FailsEarly (turns : List Turn) : Prop :=
  ∃ before c after, turns = before ++ .command c :: after ∧ 0 < commands after ∧
    c.Fails order handlers

end Model

/-! ## One dispatch -/

section Dispatch

variable {order : ByteOrder} {handlers : Handlers} {s : LoopState}

/-- The record does not change what a program does. -/
theorem run_act {α : Type} (p : DspProgram α) (s : LoopState) :
    (p.run LoopState.act s).1 = (p.run DspOp.act s.machine).1 ∧
      (p.run LoopState.act s).2.machine = (p.run DspOp.act s.machine).2 ∧
      (p.run LoopState.act s).2.published = s.published := by
  induction p generalizing s with
  | ret a => exact ⟨rfl, rfl, rfl⟩
  | ask o next ih => exact ih _ _

/-- A program that answers once completes the last command once. -/
theorem completed_of_wp {α : Type} {post : α → Bool → Prop} {p : DspProgram α} {answered : Bool}
    (holds : p.wp answerRules post answered) (s : LoopState) :
    ∃ answered', post (p.run LoopState.act s).1 answered' ∧ (answered = true → answered' = true) ∧
      (p.run LoopState.act s).2.completed =
        s.completed ++ if answered' = true ∧ answered = false then [s.published - 1] else [] := by
  induction p generalizing s answered with
  | ret a =>
    refine ⟨answered, holds, id, ?_⟩
    cases answered <;> simp
  | ask o next ih =>
    obtain ⟨allowed, rest⟩ := holds
    cases o with
    | comm c =>
      have first : answered = false := allowed.1
      subst first
      obtain ⟨answered', done, kept, record⟩ := ih _ (rest _ _ rfl) (LoopState.act (.comm c) s).2
      refine ⟨answered', done, nofun, ?_⟩
      rw [Program.run_ask, record]
      by_cases writes : WritesFlags c
      · have last : answered' = true := kept (by simp [writes])
        simp [LoopState.act, LoopState.record, writes, last]
      · simp [LoopState.act, LoopState.record, writes]
    | _ => exact ih _ (rest _ _ rfl) (LoopState.act _ s).2

/-- A poll without a request. -/
theorem run_xrpDeviceDispatch_idle (order : ByteOrder) (handlers : Handlers) (device : XrpDevice)
    (idle : ¬ Requesting (s.machine.comm DspCmd.flags)) :
    (xrpDeviceDispatch order handlers device).run LoopState.act s = (.status .pending, s) := by
  have read : (commRead DspCmd.flags).run LoopState.act s = (s.machine.comm DspCmd.flags, s) := rfl
  have invalid : xrpRequestValid (s.machine.comm DspCmd.flags) = false := decide_eq_false idle
  rw [xrpDeviceDispatch, Program.run_bind, read]
  simp [invalid]

section Processed

variable {flags : U32} {m m' : Machine} {delivery : Delivery} {status : XrpStatus}

theorem status_of_fail (processed : Processed flags m .fail status m') : status = .failure := by
  cases processed with
  | fail => rfl

theorem status_of_noRoom {handler : Option (ℕ × ℕ)}
    (processed : Processed flags m (.call handler) status m')
    (full : ¬ m.HasRoom (bufferCount m.comm)) : status = .failure := by
  cases processed with
  | noRoom => rfl
  | handled _ _ _ _ room => exact absurd room full

/-- However the command ends, the request is answered. -/
theorem answered_of_processed (processed : Processed flags m delivery status m')
    (requesting : Requesting flags) : Answered (m'.comm DspCmd.flags) := by
  cases processed with
  | fail =>
    dsimp only
    rw [Function.update_self]
    exact requesting.deliveryFail.answered
  | noRoom =>
    dsimp only
    rw [Function.update_self]
    exact requesting.answered
  | handled =>
    dsimp only
    rw [Function.update_self, statusFlags]
    split_ifs
    · exact requesting.deliveryFail.answered
    · exact requesting.answered

end Processed

variable (c : Command)

/-- What `process_command` returns for the command. -/
def Command.status (order : ByteOrder) (handlers : Handlers) : XrpStatus :=
  ((processCommand order handlers c.device (c.machine.comm DspCmd.flags)).run DspOp.act
    c.machine).1

theorem Command.status_eq_failure_iff :
    c.status order handlers = .failure ↔ c.Fails order handlers := by
  have processed := run_processCommand order handlers c.device (c.machine.comm DspCmd.flags)
    c.machine
  unfold Command.Fails
  cases chosen : selected order c.device c.machine.comm with
  | fail =>
    rw [chosen] at processed
    exact iff_of_true (status_of_fail processed) trivial
  | call handler =>
    rw [chosen] at processed
    by_cases room : c.machine.HasRoom (bufferCount c.machine.comm)
    · rw [Command.status, run_processCommand_handled order handlers _ c.machine chosen room]
      simp only [room, true_imp_iff]
    · exact iff_of_true (status_of_noRoom processed room) fun has => absurd has room

/-- The dispatch of a command: its status is returned, it is completed once, and there is no request
in the comm area after it. -/
theorem run_xrpDeviceDispatch_command (order : ByteOrder) (handlers : Handlers) (s : LoopState) :
    let r := (xrpDeviceDispatch order handlers c.device).run LoopState.act
      ((Turn.command c).apply s)
    r.1 = .status (c.status order handlers) ∧ r.2.published = s.published + 1 ∧
      r.2.completed = s.completed ++ [s.published] ∧
      ¬ Requesting (r.2.machine.comm DspCmd.flags) := by
  intro r
  let s' := (Turn.command c).apply s
  let body := processCommand order handlers c.device (c.machine.comm DspCmd.flags)
  have read : (commRead DspCmd.flags).run LoopState.act s' = (c.machine.comm DspCmd.flags, s') :=
    rfl
  have valid : xrpRequestValid (c.machine.comm DspCmd.flags) = true := decide_eq_true c.requesting
  have rest : r = (Dispatch.status <$> body).run LoopState.act s' := by
    dsimp only [r]
    rw [xrpDeviceDispatch, Program.run_bind, read]
    simp [valid, c.notStart, body]
  have plain : (Dispatch.status <$> body).run DspOp.act c.machine =
      (.status (body.run DspOp.act c.machine).1, (body.run DspOp.act c.machine).2) := by
    rw [map_eq_pure_bind, Program.run_bind]
    rfl
  obtain ⟨result, machine, published⟩ := run_act (Dispatch.status <$> body) s'
  obtain ⟨answered, done, -, record⟩ :=
    completed_of_wp (wp_processCommand_answers order handlers c.device c.requesting) s'
  rw [rest]
  refine ⟨?_, published, ?_, ?_⟩
  · exact result.trans (congrArg Prod.fst plain)
  · rw [record, if_pos ⟨done.1, rfl⟩]
    rfl
  · have last : ((Dispatch.status <$> body).run LoopState.act s').2.machine =
        (body.run DspOp.act c.machine).2 := machine.trans (congrArg Prod.snd plain)
    have processed := run_processCommand order handlers c.device (c.machine.comm DspCmd.flags)
      c.machine
    rw [last]
    intro requesting
    exact requesting.not_answered (answered_of_processed processed c.requesting)

end Dispatch

/-! ## The loop -/

section Loop

variable {order : ByteOrder} {handlers : Handlers} {s : LoopState} {turns : List Turn}

theorem failsEarly_poll (device : XrpDevice) :
    FailsEarly order handlers (.poll device :: turns) ↔ FailsEarly order handlers turns := by
  constructor
  · rintro ⟨before, c, after, split, more, fails⟩
    cases before with
    | nil => cases split
    | cons first before =>
      cases split
      exact ⟨before, c, after, rfl, more, fails⟩
  · rintro ⟨before, c, after, rfl, more, fails⟩
    exact ⟨.poll device :: before, c, after, rfl, more, fails⟩

theorem failsEarly_command (c : Command) :
    FailsEarly order handlers (.command c :: turns) ↔
      (0 < commands turns ∧ c.Fails order handlers) ∨ FailsEarly order handlers turns := by
  constructor
  · rintro ⟨before, c', after, split, more, fails⟩
    cases before with
    | nil =>
      cases split
      exact .inl ⟨more, fails⟩
    | cons first before =>
      cases split
      exact .inr ⟨before, c', after, rfl, more, fails⟩
  · rintro (⟨more, fails⟩ | ⟨before, c', after, rfl, more, fails⟩)
    · exact ⟨[], c, turns, rfl, more, fails⟩
    · exact ⟨.command c :: before, c', after, rfl, more, fails⟩

/-- Where a command fails early, there are commands. -/
theorem commands_pos_of_failsEarly (early : FailsEarly order handlers turns) :
    0 < commands turns := by
  obtain ⟨before, c, after, rfl, -, -⟩ := early
  simp [commands, Turn.isCommand]

theorem runCommandLoop_poll (device : XrpDevice) (turns : List Turn)
    (idle : ¬ Requesting (s.machine.comm DspCmd.flags)) :
    runCommandLoop order handlers (.poll device :: turns) s =
      runCommandLoop order handlers turns s := by
  have polled : round order handlers (.poll device) s = (.again, s) := by
    have pending := run_xrpDeviceDispatch_idle order handlers device idle
    unfold round Turn.device Turn.apply
    dsimp only
    rw [pending]
    rfl
  rw [runCommandLoop, polled]

/-- The loop after a command: it is left if the command fails. -/
theorem runCommandLoop_command (order : ByteOrder) (handlers : Handlers) (c : Command)
    (turns : List Turn) (s : LoopState) :
    ∃ s', s'.published = s.published + 1 ∧ s'.completed = s.completed ++ [s.published] ∧
      ¬ Requesting (s'.machine.comm DspCmd.flags) ∧
      (c.Fails order handlers → runCommandLoop order handlers (.command c :: turns) s = s') ∧
      (¬ c.Fails order handlers →
        runCommandLoop order handlers (.command c :: turns) s =
          runCommandLoop order handlers turns s') := by
  obtain ⟨result, published, completed, idle⟩ :=
    run_xrpDeviceDispatch_command c order handlers s
  refine ⟨_, published, completed, idle, ?_, ?_⟩
  · intro fails
    have status := c.status_eq_failure_iff.mpr fails
    rw [runCommandLoop, round]
    dsimp only [Turn.device]
    rw [result, status]
    rfl
  · intro fine
    have status := mt c.status_eq_failure_iff.mp fine
    rw [runCommandLoop, round]
    dsimp only [Turn.device]
    rw [result]
    cases returned : c.status order handlers with
    | success => rfl
    | pending => rfl
    | failure => exact absurd returned status

/-- From a comm area without a request, every command is served if and only if none fails before the
last one. -/
theorem served_iff_of_idle (idle : ¬ Requesting (s.machine.comm DspCmd.flags)) :
    Served order handlers turns s ↔ ¬ FailsEarly order handlers turns := by
  induction turns generalizing s with
  | nil =>
    refine iff_of_true (List.append_nil _).symm ?_
    rintro ⟨before, c, after, split, -⟩
    cases before <;> cases split
  | cons turn turns ih =>
    cases turn with
    | poll device =>
      rw [failsEarly_poll, ← ih idle, Served, runCommandLoop_poll device turns idle]
      rfl
    | command c =>
      obtain ⟨s', published, completed, idle', stops, goes⟩ :=
        runCommandLoop_command order handlers c turns s
      have all : s.completed ++ List.range' s.published (commands (.command c :: turns)) =
          s'.completed ++ List.range' s'.published (commands turns) := by
        have count : commands (.command c :: turns) = commands turns + 1 :=
          List.countP_cons_of_pos rfl
        rw [count, List.range'_succ, published, completed, List.append_assoc, List.singleton_append]
      rw [failsEarly_command, Served, all]
      by_cases fails : c.Fails order handlers
      · rw [stops fails, List.self_eq_append_right, List.range'_eq_nil_iff]
        constructor
        · rintro none (⟨more, -⟩ | early)
          · omega
          · have more := commands_pos_of_failsEarly early
            omega
        · intro fine
          by_contra some
          exact fine (.inl ⟨Nat.pos_of_ne_zero some, fails⟩)
      · rw [goes fails, ← Served, ih idle']
        simp [fails]

/-- A DSP without namespaces. -/
def noNamespaces : XrpDevice := ⟨0, 0, fun _ => ⟨fun _ => 0, 0, 0⟩⟩

/-- Memory with a command without data. -/
def emptyMachine (flags : U32) : Machine :=
  ⟨fun w => if w = DspCmd.flags then flags else 0, fun _ => 0, true, []⟩

theorem emptyCommand_requesting : Requesting ((emptyMachine 1).comm DspCmd.flags) := by decide

theorem emptyCommand_notStart : (emptyMachine 1).comm DspCmd.flags ≠ syncStart := by decide

/-- A command without namespace. -/
def emptyCommand : Command :=
  ⟨emptyMachine 1, noNamespaces, emptyCommand_requesting, emptyCommand_notStart⟩

theorem nsidCommand_requesting : Requesting ((emptyMachine 5).comm DspCmd.flags) := by decide

theorem nsidCommand_notStart : (emptyMachine 5).comm DspCmd.flags ≠ syncStart := by decide

/-- A command with a namespace that is not registered. -/
def nsidCommand : Command :=
  ⟨emptyMachine 5, noNamespaces, nsidCommand_requesting, nsidCommand_notStart⟩

/-- Handlers that succeed. -/
def succeeding : Handlers := fun _ _ => .ret .success

theorem emptyCommand_fine : ¬ emptyCommand.Fails .little succeeding := by
  have room : emptyCommand.machine.HasRoom (bufferCount emptyCommand.machine.comm) :=
    .inl (by decide)
  intro fails
  have failed := fails room
  cases failed

theorem nsidCommand_fails : nsidCommand.Fails .little succeeding := by
  have chosen : selected .little nsidCommand.device nsidCommand.machine.comm = .fail := by
    rfl
  rw [Command.Fails, chosen]
  trivial

/-- **The loop serves every command** if and only if no command fails before the last one. -/
theorem runCommandLoop_served_iff (order : ByteOrder) (handlers : Handlers) (turns : List Turn)
    (m : Machine) (idle : ¬ Requesting (m.comm DspCmd.flags)) :
    (runCommandLoop order handlers turns ⟨m, 0, []⟩).completed = List.range (commands turns) ↔
      ¬ FailsEarly order handlers turns := by
  have served : Served order handlers turns ⟨m, 0, []⟩ ↔ ¬ FailsEarly order handlers turns :=
    served_iff_of_idle idle
  rw [← served, Served, List.range_eq_range', List.nil_append]

/-- Two commands and a poll between them. -/
theorem runCommandLoop_served_twice :
    (runCommandLoop .little succeeding
      [.command emptyCommand, .poll noNamespaces, .command emptyCommand]
      ⟨emptyMachine 0, 0, []⟩).completed = List.range 2 := by
  refine (runCommandLoop_served_iff .little succeeding
    [.command emptyCommand, .poll noNamespaces, .command emptyCommand] (emptyMachine 0)
    (by decide)).mpr ?_
  rw [failsEarly_command, failsEarly_poll, failsEarly_command]
  rintro (⟨-, fails⟩ | ⟨more, -⟩ | early)
  · exact emptyCommand_fine fails
  · exact absurd more (by decide)
  · exact absurd (commands_pos_of_failsEarly early) (by decide)

/-- A command whose namespace is not registered, and then one that is never answered. -/
theorem runCommandLoop_not_served :
    commands [.command nsidCommand, .command emptyCommand] = 2 ∧
    (runCommandLoop .little succeeding [.command nsidCommand, .command emptyCommand]
      ⟨emptyMachine 0, 0, []⟩).completed = [0] := by
  obtain ⟨s', -, completed, -, stops, -⟩ := runCommandLoop_command .little succeeding nsidCommand
    [.command emptyCommand] ⟨emptyMachine 0, 0, []⟩
  refine ⟨by decide, ?_⟩
  rw [stops nsidCommand_fails, completed]
  rfl

end Loop

end Xrp.Exchange.CommandLoop
