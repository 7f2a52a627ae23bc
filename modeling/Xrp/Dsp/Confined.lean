import Xrp.Dsp.Machine

/-!
# What a command does to memory

The bytes of DSP memory that a command can change are those that its handler
stores and the `flags` of the buffer descriptors. A handler is confined to what
it mapped if it stores into a block only where `xrp_map_buffer` gave it a range
with `XRP_WRITE`; then what changes in a buffer of the command is also what
`map_flags` of that buffer tell.
-/

namespace Xrp.Dsp

/-! ## Blocks of memory -/

/-- The addresses of `size` bytes from `addr` on; they may wrap around. -/
def block (addr : U32) (size : ℕ) : Set U32 := {a | (a - addr).toNat < size}

theorem mem_block {a addr : U32} {size : ℕ} : a ∈ block addr size ↔ (a - addr).toNat < size :=
  Iff.rfl

/-- The memory with the given contents in a block. -/
def placed (memory : U32 → U8) (addr : U32) (size : ℕ) (contents : ℕ → U8) : U32 → U8 :=
  fun a => if (a - addr).toNat < size then contents (a - addr).toNat else memory a

section Blocks

variable {memory : U32 → U8} {addr a : U32} {size : ℕ} {contents : ℕ → U8}

theorem placed_of_notMem (outside : a ∉ block addr size) :
    placed memory addr size contents a = memory a := if_neg outside

/-- Byte `i` of a block. -/
theorem add_ofNat_sub {i : ℕ} (small : i < 2 ^ 32) :
    (addr + BitVec.ofNat 32 i - addr).toNat = i := by
  rw [add_sub_cancel_left, BitVec.toNat_ofNat, Nat.mod_eq_of_lt small]

end Blocks

/-! ## Words of memory -/

section Words

variable {order : ByteOrder} {s : Machine}

theorem run_load32 (a : U32) :
    (load32 order a).run DspOp.act s =
      (order.word fun j => s.memory (a + BitVec.ofNat 32 j), s) := by
  have bytes : (fun j : Fin 4 => s.memory (a + BitVec.ofNat 32 j)) =
      ![s.memory a, s.memory (a + 1), s.memory (a + 2), s.memory (a + 3)] := by
    funext j
    fin_cases j
    · exact congrArg s.memory (BitVec.add_zero a)
    · rfl
    · rfl
    · rfl
  rw [bytes]
  rfl

theorem run_store32 (a v : U32) :
    (store32 order a v).run DspOp.act s =
      ((), { s with memory := placed s.memory a 4 fun i => order.byte v (Fin.ofNat 4 i) }) := by
  have memory : ((store32 order a v).run DspOp.act s).2.memory =
      placed s.memory a 4 fun i => order.byte v (Fin.ofNat 4 i) := by
    funext b
    obtain ⟨d, rfl⟩ : ∃ d, b = a + d := ⟨b - a, (add_sub_cancel a b).symm⟩
    change Function.update (Function.update (Function.update (Function.update s.memory a _) _ _)
      _ _) _ _ _ = _
    rw [placed, add_sub_cancel_left]
    simp only [Function.update_apply, add_right_inj, add_eq_left]
    by_cases near : d.toNat < 4
    · have cases : d = 0 ∨ d = 1 ∨ d = 2 ∨ d = 3 := by bv_omega
      rcases cases with rfl | rfl | rfl | rfl <;> rfl
    · have apart : d ≠ 0 ∧ d ≠ 1 ∧ d ≠ 2 ∧ d ≠ 3 := by bv_omega
      rw [if_neg apart.2.2.2, if_neg apart.2.2.1, if_neg apart.2.1, if_neg apart.1, if_neg near]
  exact Prod.ext rfl (congrArg (fun m => { s with memory := m }) memory)

/-- A word that was written is read back. -/
theorem word_placed (memory : U32 → U8) (a v : U32) :
    order.word (fun j => placed memory a 4 (fun i => order.byte v (Fin.ofNat 4 i))
      (a + BitVec.ofNat 32 j)) = v := by
  refine Eq.trans (congrArg order.word (funext fun j => ?_)) (order.word_byte v)
  have offset : (a + BitVec.ofNat 32 j - a).toNat = j := add_ofNat_sub (by omega)
  rw [placed, if_pos (by omega), offset]
  exact congrArg (order.byte v) (Fin.ofNat_val_eq_self j)

/-- The descriptors are not changed by what is outside their table. -/
theorem descriptorOf_congr {s' : Machine} {dspBuffer : DspBufferPtr} {i n : ℕ} (lt : i < n)
    (fits : 12 * n ≤ 2 ^ 32) (comm : s'.comm = s.comm)
    (table : ∀ base, dspBuffer = some base → ∀ a ∈ block base (12 * n), s'.memory a = s.memory a) :
    descriptorOf order dspBuffer s' i = descriptorOf order dspBuffer s i := by
  have word (k : ℕ) (small : k < 3) : ((readDescriptor order dspBuffer i k).run DspOp.act s').1 =
      ((readDescriptor order dspBuffer i k).run DspOp.act s).1 := by
    cases dspBuffer with
    | none => exact congrFun comm _
    | some base =>
      simp only [readDescriptor, run_load32]
      refine congrArg order.word (funext fun j => table base rfl _ ?_)
      rw [mem_block, add_assoc, ← BitVec.ofNat_add, add_ofNat_sub (by omega)]
      omega
  simp only [descriptorOf, word 0 (by omega), word 1 (by omega), word 2 (by omega)]

/-- The descriptors are not changed when the command is completed. -/
theorem descriptorOf_update_flags (dspBuffer : DspBufferPtr) (s : Machine) (v : U32) (i : ℕ) :
    descriptorOf order dspBuffer { s with comm := Function.update s.comm DspCmd.flags v } i =
      descriptorOf order dspBuffer s i := by
  have apart (w : ℕ) : Function.update s.comm DspCmd.flags v (DspCmd.bufferData + w) =
      s.comm (DspCmd.bufferData + w) := Function.update_of_ne (by simp) _ _
  cases dspBuffer with
  | none => simp only [descriptorOf, readDescriptor, run_commRead, apart]
  | some base => rfl

end Words

/-! ## The flags of the descriptors -/

section AccessFlags

variable {order : ByteOrder} {dspBuffer : DspBufferPtr} {buffers : ℕ → XrpBuffer} {n : ℕ}
  {s : Machine}

/-- The second loop of `process_command` leaves the access that took place in each
descriptor. -/
theorem run_writeAccessFlags_flags {i : ℕ} (fits : 12 * n ≤ 2 ^ 32) (lt : i < n) :
    (descriptorOf order dspBuffer
      ((writeAccessFlags order dspBuffer buffers n).run DspOp.act s).2 i).flags =
      accessFlags (buffers i) := by
  induction n with
  | zero => exact absurd lt (Nat.not_lt_zero i)
  | succ n ih =>
    by_cases last : i = n
    · subst last
      cases dspBuffer with
      | none =>
        simp only [writeAccessFlags, Program.run_bind]
        exact Function.update_self _ _ _
      | some base =>
        simp only [writeAccessFlags, Program.run_bind, run_store32]
        exact (congrArg Prod.fst (run_load32 _)).trans (word_placed _ _ _)
    · rw [← ih (by omega) (by omega)]
      cases dspBuffer with
      | none =>
        simp only [writeAccessFlags, Program.run_bind]
        exact Function.update_of_ne (by omega) _ _
      | some base =>
        simp only [writeAccessFlags, Program.run_bind, run_store32]
        refine congrArg XrpDspBuffer.flags
          (descriptorOf_congr (n := n) (by omega) (by omega) rfl fun base' same a inside => ?_)
        cases same
        rw [mem_block] at inside
        have outside : a ∉ block (base + BitVec.ofNat 32 (12 * n)) 4 := by
          rw [mem_block]
          bv_omega
        dsimp only
        exact placed_of_notMem outside

end AccessFlags

/-! ## Confined handlers -/

/-- The addresses that a call hands out for writing. -/
def ApiCall.granted {n : ℕ} (group : Fin n → XrpBuffer) : ApiCall n → Set U32
  | mapBuffer b offset size mapFlags =>
    {a | mapFlags &&& xrpWrite ≠ 0 ∧
      ∃ p, (xrpMapBuffer (group b) offset size mapFlags).1 = some p ∧ a ∈ block p size.toNat}
  | _ => ∅

section Confined

variable {nIn nOut n : ℕ}

/-- Whatever the handler reads, it stores into the region only at addresses that are writable,
and these become more with each range that it maps for writing. -/
def Confined (region : Set U32) :
    Handler nIn nOut n → (Fin n → XrpBuffer) → Set U32 → Prop
  | .ret _, _, _ => True
  | .ask (.readIn _) next, group, writable => ∀ v, Confined region (next v) group writable
  | .ask (.readOut _) next, group, writable => ∀ v, Confined region (next v) group writable
  | .ask (.writeOut _ _) next, group, writable => Confined region (next ()) group writable
  | .ask (.load _) next, group, writable => ∀ v, Confined region (next v) group writable
  | .ask (.store a _) next, group, writable =>
    (a ∈ region → a ∈ writable) ∧ Confined region (next ()) group writable
  | .ask (.api c) next, group, writable =>
    Confined region (next (c.act group).1) (c.act group).2 (writable ∪ c.granted group)

/-- The addresses that a handler maps for writing when it runs. -/
def writeMapped : Handler nIn nOut n → (Fin n → XrpBuffer) → Machine → Set U32
  | .ret _, _, _ => ∅
  | .ask (.readIn i) next, group, s => writeMapped (next (s.comm (DspCmd.inData + i))) group s
  | .ask (.readOut i) next, group, s => writeMapped (next (s.comm (DspCmd.outData + i))) group s
  | .ask (.writeOut i v) next, group, s =>
    writeMapped (next ()) group ((DspOp.comm (.write (DspCmd.outData + i) v)).act s).2
  | .ask (.load a) next, group, s => writeMapped (next (s.memory a)) group s
  | .ask (.store a v) next, group, s => writeMapped (next ()) group ((DspOp.store a v).act s).2
  | .ask (.api c) next, group, s =>
    c.granted group ∪ writeMapped (next (c.act group).1) (c.act group).2 s

/-- A buffer stays where it is, and access that was mapped stays in `map_flags`. -/
structure XrpBuffer.Grows (buffer buffer' : XrpBuffer) : Prop where
  ptr : buffer'.ptr = buffer.ptr
  size : buffer'.size = buffer.size
  mapFlags : buffer.mapFlags &&& xrpWrite ≠ 0 → buffer'.mapFlags &&& xrpWrite ≠ 0

theorem XrpBuffer.Grows.refl (buffer : XrpBuffer) : buffer.Grows buffer := ⟨rfl, rfl, id⟩

theorem XrpBuffer.Grows.trans {a b c : XrpBuffer} (first : a.Grows b) (second : b.Grows c) :
    a.Grows c :=
  ⟨second.ptr.trans first.ptr, second.size.trans first.size, second.mapFlags ∘ first.mapFlags⟩

theorem or_and_write_ne_zero {flags more : U32}
    (has : flags &&& xrpWrite ≠ 0 ∨ more &&& xrpWrite ≠ 0) : (flags ||| more) &&& xrpWrite ≠ 0 := by
  rw [BitVec.and_or_distrib_right]
  intro none
  obtain ⟨first, second⟩ := BitVec.or_eq_zero_iff.mp none
  exact has.elim (absurd first) (absurd second)

/-- The calls on a buffer keep something. -/
structure XrpBuffer.Kept (kept : XrpBuffer → Prop) : Prop where
  retain : ∀ buffer, kept buffer → kept (xrpRetainBuffer buffer).2
  release : ∀ buffer, kept buffer → kept (xrpReleaseBuffer buffer).2
  map : ∀ buffer offset size mapFlags,
    kept buffer → kept (xrpMapBuffer buffer offset size mapFlags).2
  unmap : ∀ buffer p, kept buffer → kept (xrpUnmapBuffer buffer p).2

theorem onBuffer_kept {α : Type} {kept : Fin n → XrpBuffer → Prop} {group : Fin n → XrpBuffer}
    {b : Fin n} {f : XrpBuffer → α × XrpBuffer}
    (step : ∀ buffer, kept b buffer → kept b (f buffer).2)
    (all : ∀ i, kept i (group i)) (i : Fin n) : kept i ((onBuffer group b f).2 i) := by
  by_cases same : i = b
  · subst same
    have here : (onBuffer group i f).2 i = (f (group i)).2 := Function.update_self _ _ _
    rw [here]
    exact step _ (all i)
  · have away : (onBuffer group b f).2 i = group i := Function.update_of_ne same _ _
    rw [away]
    exact all i

/-- What the calls on a buffer keep, a call on the group keeps for every buffer. -/
theorem ApiCall.act_kept {kept : Fin n → XrpBuffer → Prop} (rule : ∀ i, XrpBuffer.Kept (kept i))
    {group : Fin n → XrpBuffer} (all : ∀ i, kept i (group i)) (c : ApiCall n) (i : Fin n) :
    kept i ((c.act group).2 i) := by
  cases c with
  | getBufferFromGroup idx =>
    simp only [ApiCall.act]
    split_ifs
    · exact onBuffer_kept (rule _).retain all i
    · exact all i
  | retainBuffer b => exact onBuffer_kept (rule b).retain all i
  | releaseBuffer b => exact onBuffer_kept (rule b).release all i
  | mapBuffer b offset size mapFlags =>
    have map (buffer : XrpBuffer) := (rule b).map buffer offset size mapFlags
    exact onBuffer_kept map all i
  | unmapBuffer b p =>
    have unmap (buffer : XrpBuffer) := (rule b).unmap buffer p
    exact onBuffer_kept unmap all i
  | bufferSize b => exact all i
  | bufferFlags b => exact all i

/-- And so does a handler. -/
theorem runHandler_kept {kept : Fin n → XrpBuffer → Prop} (rule : ∀ i, XrpBuffer.Kept (kept i))
    (handler : Handler nIn nOut n) {group : Fin n → XrpBuffer} (all : ∀ i, kept i (group i))
    (s : Machine) (i : Fin n) : kept i (((runHandler handler group).run DspOp.act s).1.2 i) := by
  induction handler generalizing group s with
  | ret status => exact all i
  | ask o next ih =>
    cases o with
    | readIn _ => exact ih _ all s
    | readOut _ => exact ih _ all s
    | writeOut _ _ => exact ih () all _
    | load _ => exact ih _ all s
    | store _ _ => exact ih () all _
    | api c => exact ih _ (ApiCall.act_kept rule all c) s

theorem XrpBuffer.Grows.kept (buffer : XrpBuffer) : XrpBuffer.Kept buffer.Grows where
  retain _ grows := grows.trans ⟨rfl, rfl, id⟩
  release _ grows := grows.trans ⟨rfl, rfl, id⟩
  map _ offset size mapFlags grows := by
    refine grows.trans ?_
    unfold xrpMapBuffer
    split_ifs
    · exact ⟨rfl, rfl, fun has => or_and_write_ne_zero (.inl has)⟩
    · exact .refl _
  unmap _ p grows := by
    refine grows.trans ?_
    unfold xrpUnmapBuffer
    split_ifs
    · exact ⟨rfl, rfl, id⟩
    · exact .refl _

end Confined

end Xrp.Dsp
