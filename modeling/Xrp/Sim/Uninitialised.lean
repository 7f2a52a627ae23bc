import Xrp.Sim.UninitialisedRequest

/-!
# Commands and uninitialised memory

Two runs of a command are compared that differ in the contents of its request and of the array
`user_buffer_allocation` before the call, and in nothing else. Every member that is read is followed
to the store before it: the conditions of both agree except in three places. The member `event` is
not stored without `evt` but read always, and there are stores to the memory it points to. An inline
`out_data` is not stored and copied whole to the caller. The type of a buffer is asked for again
when the request is processed.
-/

namespace Xrp.Sim.Uninitialised

open Dsp Api

/-! ## Memory of an event -/

section UlongMemory

variable {order : ByteOrder} {m : ULong → U8} {p v : ULong}

@[simp] theorem length_ulongWords : (ulongWords order v).length = 2 := by
  cases order <;> rfl

end UlongMemory

section Event

variable {env : Env} {event : ULong} {status : XrpStatus} {c : Completed}

end Event

/-! ## What does not depend on the contents before -/

section Independence

variable {env : Env} {args : Args} {mem : Memory} {later : ℕ → Buffer}

/-- The sizes fit the fields of the command. -/
def Args.Fits (args : Args) : Prop :=
  args.inDataSize.toNat < 2 ^ 32 ∧ args.outDataSize.toNat < 2 ^ 32 ∧
    args.records.length * sizeofDspBuffer < 2 ^ 32

instance (args : Args) : Decidable args.Fits := inferInstanceAs (Decidable (_ ∧ _ ∧ _))

variable {inAllocation outAllocation table : Option ULong} {filled : Filled}

end Independence

/-! ## Which runs depend on the contents before -/

section Runs

variable {env : Env} {later : ℕ → Buffer} {args : Args} {mem : Memory}

/-- Contents before a call. -/
def zeroed : Request where
  cmd := ⟨0, 0, 0, 0, fun _ => 0, fun _ => 0, fun _ => 0, fun _ => 0⟩
  nBuffers := 0
  inDataSize := 0
  outDataPtr := .inline
  outDataSize := 0
  bufferGroup := false
  event := 0
  inDataAllocation := 0
  outDataAllocation := 0
  bufferAllocation := 0
  userBufferAllocation := fun _ => 0
  bufferPtr := .inline

/-- What the DSP answers, if the command is enqueued. -/
def answer (env : Env) (args : Args) (mem : Memory) : Option Reply :=
  match xrpEnqueueCommand env args mem with
  | .error _ => none
  | .ok result => some (replyTo env (result.1.fill zeroed) result.2)

end Runs

/-! ### Runs -/

/-- Three bytes of input, four of output and one buffer. -/
def small (buffer : Buffer) (evt : Bool) : Args where
  inData := 0x6000
  inDataSize := 3
  outDataSize := 4
  bufferGroup := some [⟨buffer, bufferFlagWrite⟩]
  evt := evt
  nsid := none

end Xrp.Sim.Uninitialised
