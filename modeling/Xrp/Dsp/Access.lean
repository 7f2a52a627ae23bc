import Xrp.Dsp.Confined

/-!
# Access to the buffers of a command

What a handler may map of a buffer is decided by the `flags` of its descriptor: only
`XRP_DSP_BUFFER_FLAG_READ` as the whole word takes write access away. So a buffer is safe from a
handler that was not given write access if and only if its flags are that word, or grant write
access.
-/

namespace Xrp.Dsp

/-- The group after a sequence of calls. -/
def afterCalls {n : ℕ} (group : Fin n → XrpBuffer) (calls : List (ApiCall n)) :
    Fin n → XrpBuffer :=
  calls.foldl (fun g c => (c.act g).2) group

/-- The group that `process_command` makes from descriptors. -/
def groupOf {n : ℕ} (descriptors : Fin n → XrpDspBuffer) : Fin n → XrpBuffer :=
  fun i => .ofDescriptor (descriptors i)

/-- Whatever handlers do, buffers with this descriptor are mapped inside their bounds, and for
writing only if the descriptor says so; and the host is told of writes only then. -/
structure Guarded (d : XrpDspBuffer) : Prop where
  inside : ∀ {n : ℕ} (descriptors : Fin n → XrpDspBuffer) (i : Fin n) (calls : List (ApiCall n))
    (offset size mapFlags p : U32), descriptors i = d →
    (xrpMapBuffer (afterCalls (groupOf descriptors) calls i) offset size mapFlags).1 = some p →
    block p size.toNat ⊆ block d.addr d.size.toNat
  write : ∀ {n : ℕ} (descriptors : Fin n → XrpDspBuffer) (i : Fin n) (calls : List (ApiCall n))
    (offset size mapFlags p : U32), descriptors i = d →
    (xrpMapBuffer (afterCalls (groupOf descriptors) calls i) offset size mapFlags).1 = some p →
    mapFlags &&& xrpWrite ≠ 0 → d.flags &&& bufferFlagWrite ≠ 0
  returned : ∀ (order : ByteOrder) (handlers : Handlers) (device : XrpDevice)
    (handler : Option (ℕ × ℕ)) (flags : U32) (s : Machine) (i : ℕ),
    selected order device s.comm = .call handler → s.HasRoom (bufferCount s.comm) →
    i < bufferCount s.comm → descriptorOf order (dspBufferOf s.comm) s i = d →
    (descriptorOf order (dspBufferOf s.comm)
      ((processCommand order handlers device flags).run DspOp.act s).2 i).flags &&&
        bufferFlagWrite ≠ 0 →
    d.flags &&& bufferFlagWrite ≠ 0

section Bounded

variable {d : XrpDspBuffer} {buffer : XrpBuffer}

/-- A buffer made from a descriptor, after any calls. -/
structure XrpBuffer.Bounded (d : XrpDspBuffer) (buffer : XrpBuffer) : Prop where
  ptr : buffer.ptr = d.addr
  size : buffer.size = d.size
  allowed : buffer.allowedAccess = dspBufferAllowedAccess d.flags
  mapped : buffer.mapFlags &&& xrpWrite ≠ 0 → d.flags ≠ bufferFlagRead

theorem XrpBuffer.Bounded.ofDescriptor (d : XrpDspBuffer) :
    XrpBuffer.Bounded d (.ofDescriptor d) where
  ptr := rfl
  size := rfl
  allowed := rfl
  mapped has := absurd BitVec.zero_and has

/-- Only `XRP_DSP_BUFFER_FLAG_READ` alone forbids writing. -/
theorem allowedAccess_write {flags mapFlags : U32}
    (allowed : dspBufferAllowedAccess flags &&& mapFlags = mapFlags)
    (write : mapFlags &&& xrpWrite ≠ 0) : flags ≠ bufferFlagRead := by
  intro readOnly
  rw [dspBufferAllowedAccess, if_pos readOnly] at allowed
  apply write
  rw [← allowed, BitVec.and_assoc, BitVec.and_comm mapFlags, ← BitVec.and_assoc]
  have apart : xrpRead &&& xrpWrite = 0 := by decide
  rw [apart]
  exact BitVec.zero_and

theorem XrpBuffer.Bounded.kept (d : XrpDspBuffer) : XrpBuffer.Kept (XrpBuffer.Bounded d) where
  retain _ bounded := { bounded with }
  release _ bounded := { bounded with }
  map buffer offset size mapFlags bounded := by
    unfold xrpMapBuffer
    split_ifs with fits
    · refine { bounded with mapped := fun has => ?_ }
      by_cases before : buffer.mapFlags &&& xrpWrite = 0
      · have now : mapFlags &&& xrpWrite ≠ 0 := by
          intro none
          apply has
          dsimp only
          rw [BitVec.and_or_distrib_right, before, none]
          rfl
        exact allowedAccess_write (bounded.allowed ▸ fits.2.2) now
      · exact bounded.mapped before
    · exact bounded
  unmap buffer p bounded := by
    unfold xrpUnmapBuffer
    split_ifs
    · exact { bounded with }
    · exact bounded

theorem bounded_afterCalls {n : ℕ} (descriptors : Fin n → XrpDspBuffer)
    (calls : List (ApiCall n)) (i : Fin n) :
    XrpBuffer.Bounded (descriptors i) (afterCalls (groupOf descriptors) calls i) := by
  unfold afterCalls
  induction calls using List.reverseRecOn generalizing i with
  | nil => exact .ofDescriptor _
  | append_singleton calls c ih =>
    rw [List.foldl_concat]
    exact ApiCall.act_kept (fun j => XrpBuffer.Bounded.kept (descriptors j)) ih c i

theorem XrpBuffer.Bounded.inside {offset size mapFlags p : U32} (bounded : buffer.Bounded d)
    (mapped : (xrpMapBuffer buffer offset size mapFlags).1 = some p) :
    block p size.toNat ⊆ block d.addr d.size.toNat := by
  intro a inside
  unfold xrpMapBuffer at mapped
  split_ifs at mapped with fits
  cases mapped
  rw [bounded.ptr, mem_block] at inside
  rw [bounded.size] at fits
  rw [mem_block]
  bv_omega

theorem XrpBuffer.Bounded.write {offset size mapFlags p : U32} (bounded : buffer.Bounded d)
    (mapped : (xrpMapBuffer buffer offset size mapFlags).1 = some p)
    (write : mapFlags &&& xrpWrite ≠ 0) : d.flags ≠ bufferFlagRead := by
  unfold xrpMapBuffer at mapped
  split_ifs at mapped with fits
  exact allowedAccess_write (bounded.allowed ▸ fits.2.2) write

end Bounded

/-! ## What the host is told -/

theorem write_of_accessFlags {buffer : XrpBuffer}
    (write : accessFlags buffer &&& bufferFlagWrite ≠ 0) : buffer.mapFlags &&& xrpWrite ≠ 0 := by
  intro none
  apply write
  unfold accessFlags
  rw [if_neg (not_not.mpr none)]
  split_ifs
  · rfl
  · rfl

/-- After a command the flags of a descriptor tell of writes only if they were not
`XRP_DSP_BUFFER_FLAG_READ` before it. -/
theorem returned_write {order : ByteOrder} {handlers : Handlers} {device : XrpDevice}
    {handler : Option (ℕ × ℕ)} {flags : U32} {s : Machine} {i : ℕ}
    (chosen : selected order device s.comm = .call handler)
    (room : s.HasRoom (bufferCount s.comm)) (lt : i < bufferCount s.comm)
    (write : (descriptorOf order (dspBufferOf s.comm)
      ((processCommand order handlers device flags).run DspOp.act s).2 i).flags &&&
        bufferFlagWrite ≠ 0) :
    (descriptorOf order (dspBufferOf s.comm) s i).flags ≠ bufferFlagRead := by
  have fits : 12 * bufferCount s.comm ≤ 2 ^ 32 :=
    (Nat.mul_div_le _ _).trans (s.comm DspCmd.bufferSize).isLt.le
  rw [run_processCommand_handled order handlers flags s chosen room] at write
  simp only [descriptorOf_update_flags, accessWritten, run_writeAccessFlags_flags fits lt,
    dif_pos lt] at write
  have start (j : Fin (bufferCount s.comm)) :
      XrpBuffer.Bounded (descriptorOf order (dspBufferOf s.comm) s j)
        (buffersOf order (dspBufferOf s.comm) s (bufferCount s.comm) j) := by
    rw [buffersOf, if_pos j.isLt]
    exact .ofDescriptor _
  have bounded := runHandler_kept
    (fun j : Fin (bufferCount s.comm) =>
      XrpBuffer.Bounded.kept (descriptorOf order (dspBufferOf s.comm) s j))
    (handlers handler (handlerArgs s.comm (bufferCount s.comm))) start
    { s with invoked := s.invoked ++ [handler] } ⟨i, lt⟩
  exact bounded.mapped (write_of_accessFlags write)

/-- A buffer is guarded if and only if its flags grant write access, or are exactly
`XRP_DSP_BUFFER_FLAG_READ`. -/
theorem guarded_iff (d : XrpDspBuffer) :
    Guarded d ↔ d.flags &&& bufferFlagWrite ≠ 0 ∨ d.flags = bufferFlagRead := by
  constructor
  · intro guarded
    by_cases readOnly : d.flags = bufferFlagRead
    · exact .inr readOnly
    · have mapped : (xrpMapBuffer (.ofDescriptor d) 0 0 xrpWrite).1 = some (d.addr + 0) := by
        rw [xrpMapBuffer, if_pos]
        · rfl
        · refine ⟨Nat.zero_le _, Nat.zero_le _, ?_⟩
          simp only [XrpBuffer.ofDescriptor, dspBufferAllowedAccess, if_neg readOnly]
          decide
      exact .inl (guarded.write (fun _ : Fin 1 => d) 0 [] 0 0 xrpWrite _ rfl mapped (by decide))
  · intro granted
    have write (ne : d.flags ≠ bufferFlagRead) : d.flags &&& bufferFlagWrite ≠ 0 :=
      granted.resolve_right ne
    constructor
    · intro n descriptors i calls offset size mapFlags p same mapped
      exact (same ▸ bounded_afterCalls descriptors calls i).inside mapped
    · intro n descriptors i calls offset size mapFlags p same mapped has
      exact write ((same ▸ bounded_afterCalls descriptors calls i).write mapped has)
    · intro order handlers device handler flags s i chosen room lt same has
      exact write (same ▸ returned_write chosen room lt has)

/-- A buffer without access flags is mapped for writing, and the host is told that it was written
to. -/
theorem map_not_guarded :
    (xrpMapBuffer (.ofDescriptor ⟨0, 16, 0x1000⟩) 0 16 xrpWrite).1 = some 0x1000 ∧
      accessFlags (xrpMapBuffer (.ofDescriptor ⟨0, 16, 0x1000⟩) 0 16 xrpWrite).2 =
        bufferFlagWrite ∧
      ¬ Guarded ⟨0, 16, 0x1000⟩ := by
  have mapped : (xrpMapBuffer (.ofDescriptor ⟨0, 16, 0x1000⟩) 0 16 xrpWrite).1 = some 0x1000 := by
    decide
  refine ⟨mapped, by decide, fun guarded => ?_⟩
  have write := guarded.write (fun _ : Fin 1 => ⟨0, 16, 0x1000⟩) 0 [] 0 16 xrpWrite _ rfl mapped
  exact write (by decide) (by decide)

end Xrp.Dsp
