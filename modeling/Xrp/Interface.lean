import Xrp.Base.Bytes
import Xrp.Base.Program
import Xrp.Kernel.Alloc

/-!
# The interface between host and DSP

`xrp_kernel_dsp_interface.h`: the comm area holds one `struct xrp_dsp_cmd`, which
both sides access in 32-bit words. Words are numbered from the start of the area.
-/

namespace Xrp

/-- `__u8`. -/
abbrev U8 := BitVec 8

/-- The contents of the comm area. -/
abbrev Comm := ℕ → U32

/-- An access to the comm area. -/
inductive CommOp : Type
  | read (w : ℕ)
  | write (w : ℕ) (v : U32)
  deriving DecidableEq

namespace CommOp

/-- What an access answers. -/
@[reducible] def Answer : CommOp → Type
  | read _ => U32
  | write _ _ => Unit

/-- What an access does. -/
def act : (o : CommOp) → Comm → o.Answer × Comm
  | read w, m => (m w, m)
  | write w v, m => ((), Function.update m w v)

@[simp] theorem act_read (w : ℕ) (m : Comm) : (read w).act m = (m w, m) := rfl

@[simp] theorem act_write (w : ℕ) (v : U32) (m : Comm) :
    (write w v).act m = ((), Function.update m w v) := rfl

end CommOp

/-! ## `struct xrp_dsp_cmd` -/

namespace DspCmd

/-- The word of `flags`, where `struct xrp_dsp_sync` has `sync`. -/
abbrev flags : ℕ := 0

abbrev inDataSize : ℕ := 1

abbrev outDataSize : ℕ := 2

abbrev bufferSize : ℕ := 3

/-- The first word of `in_data`, and the word of `in_data_addr`. -/
abbrev inData : ℕ := 4

/-- The first word of `out_data`, and the word of `out_data_addr`. -/
abbrev outData : ℕ := 8

/-- The first word of `buffer_data`, and the word of `buffer_addr`. -/
abbrev bufferData : ℕ := 12

abbrev nsid : ℕ := 16

end DspCmd

/-- `XRP_DSP_SYNC_IDLE`. -/
def syncIdle : U32 := 0

/-- `XRP_DSP_SYNC_HOST_TO_DSP`. -/
def syncHostToDsp : U32 := 0x1

/-- `XRP_DSP_SYNC_DSP_TO_HOST`. -/
def syncDspToHost : U32 := 0x3

/-- `XRP_DSP_SYNC_START`. -/
def syncStart : U32 := 0x101

/-- `XRP_DSP_SYNC_DSP_READY`. -/
def syncDspReady : U32 := 0x203

/-- `XRP_DSP_CMD_FLAG_REQUEST_VALID`. -/
def requestValid : U32 := 1

/-- `XRP_DSP_CMD_FLAG_RESPONSE_VALID`. -/
def responseValid : U32 := 2

/-- `XRP_DSP_CMD_FLAG_REQUEST_NSID`. -/
def requestNsid : U32 := 4

/-- `XRP_DSP_CMD_FLAG_RESPONSE_DELIVERY_FAIL`. -/
def responseDeliveryFail : U32 := 8

/-- `XRP_DSP_BUFFER_FLAG_READ`. -/
def bufferFlagRead : U32 := 1

/-- `XRP_DSP_BUFFER_FLAG_WRITE`. -/
def bufferFlagWrite : U32 := 2

/-- `XRP_DSP_CMD_INLINE_DATA_SIZE`. -/
def inlineDataSize : ℕ := 16

/-- `XRP_DSP_CMD_INLINE_BUFFER_COUNT`. -/
def inlineBufferCount : ℕ := 1

/-- `sizeof(struct xrp_dsp_buffer)`. -/
def sizeofDspBuffer : ℕ := 12

/-- `struct xrp_dsp_buffer`. -/
structure XrpDspBuffer : Type where
  flags : U32
  size : U32
  addr : U32
  deriving DecidableEq

/-- The memory of a `struct xrp_dsp_buffer`, in words. -/
def XrpDspBuffer.words (b : XrpDspBuffer) : List U32 := [b.flags, b.size, b.addr]

/-- A flags word that carries a request and no response. -/
def Requesting (flags : U32) : Prop := flags &&& (requestValid ||| responseValid) = requestValid

/-- A flags word that carries a response. -/
def Answered (flags : U32) : Prop :=
  flags &&& (requestValid ||| responseValid) = requestValid ||| responseValid

instance (flags : U32) : Decidable (Requesting flags) := inferInstanceAs (Decidable (_ = _))

instance (flags : U32) : Decidable (Answered flags) := inferInstanceAs (Decidable (_ = _))

theorem Requesting.not_answered {flags : U32} (requesting : Requesting flags) :
    ¬ Answered flags := by
  rw [Answered, requesting]
  decide

theorem Requesting.deliveryFail {flags : U32} (requesting : Requesting flags) :
    Requesting (flags ||| responseDeliveryFail) := by
  rw [Requesting] at *
  rw [BitVec.and_or_distrib_right, requesting]
  decide

theorem Requesting.answered {flags : U32} (requesting : Requesting flags) :
    Answered (flags ||| responseValid) := by
  rw [Requesting] at requesting
  rw [Answered, BitVec.and_or_distrib_right, requesting]
  decide

end Xrp
