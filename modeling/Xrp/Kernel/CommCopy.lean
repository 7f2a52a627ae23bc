import Xrp.Base.Blit
import Xrp.Base.Word
import Xrp.Kernel.HwRequest

/-!
# Copies to and from the comm area

`xrp_comm_write` and `xrp_comm_read` of `xvp_main.c`, between bytes of kernel memory and words of
the comm area. Both copy whole words first and then a tail of at most three bytes, through a
variable of 32 bits. For data as it stands in memory they are the copies of words with which
requests are filled and completed.
-/

namespace Xrp.Kernel.CommCopy

/-- The contents of kernel memory. -/
abbrev Memory := ℕ → U8

section Model

variable (order : ByteOrder)

/-- A variable `v` after `memcpy(&v, p, sizeof(v))`. -/
def wordAt (mem : Memory) (p : ℕ) : U32 := order.word fun i => mem (p + i)

/-- A variable `v` after `v = 0` and `memcpy(&v, p, sz)`. -/
def tailAt (mem : Memory) (p sz : ℕ) : U32 := order.word fun i => if i < sz then mem (p + i) else 0

/-- The loop of `xrp_comm_write` for the given number of words; the last `addr` and `p`. -/
def writeLoop (mem : Memory) : ℕ → ℕ → ℕ → CommProgram (ℕ × ℕ)
  | 0, addr, p => pure (addr, p)
  | n + 1, addr, p => do
    xrpCommWrite32 addr (wordAt order mem p)
    writeLoop mem n (addr + 1) (p + 4)

/-- `xrp_comm_write`; `addr` is the number of a word. -/
def xrpCommWrite (mem : Memory) (addr p : ℕ) (sz : ULong) : CommProgram Unit := do
  let sz32 := sz &&& ~~~3
  let last ← writeLoop order mem (sz32.toNat / 4) addr p
  let sz := sz &&& 3
  if sz ≠ 0 then xrpCommWrite32 last.1 (tailAt order mem last.2 sz.toNat)

/-- `memcpy(p, &v, n)`. -/
def memcpyFrom (v : U32) (p n : ℕ) : Blit U8 := ⟨p, n, fun i => order.byte v (Fin.ofNat 4 i)⟩

/-- The loop of `xrp_comm_read` for the given number of words; the last `addr` and `p`, and memory
after it. -/
def readLoop : ℕ → ℕ → ℕ → Memory → CommProgram (ℕ × ℕ × Memory)
  | 0, addr, p, mem => pure (addr, p, mem)
  | n + 1, addr, p, mem => do
    let v ← xrpCommRead32 addr
    readLoop n (addr + 1) (p + 4) ((memcpyFrom order v p 4).apply mem)

/-- `xrp_comm_read`; the result is memory after it. -/
def xrpCommRead (addr p : ℕ) (sz : ULong) (mem : Memory) : CommProgram Memory := do
  let sz32 := sz &&& ~~~3
  let last ← readLoop order (sz32.toNat / 4) addr p mem
  let sz := sz &&& 3
  if sz ≠ 0 then
    let v ← xrpCommRead32 last.1
    pure ((memcpyFrom order v last.2.1 sz.toNat).apply last.2.2)
  else pure last.2.2

end Model

/-! ## As copies of words -/

/-- The bytes in memory from `p` on. -/
def bytesAt (mem : Memory) (p : ℕ) : ℕ → List U8
  | 0 => []
  | n + 1 => mem p :: bytesAt mem (p + 1) n

theorem bytesAt_getD (mem : Memory) (p n i : ℕ) :
    (bytesAt mem p n).getD i 0 = if i < n then mem (p + i) else 0 := by
  induction n generalizing p i with
  | zero => rfl
  | succ n ih =>
    cases i with
    | zero => rfl
    | succ i =>
      have next : p + 1 + i = p + (i + 1) := by omega
      rw [bytesAt, List.getD_cons_succ, ih, next]
      simp only [Nat.add_lt_add_iff_right]

@[simp] theorem length_bytesAt (mem : Memory) (p n : ℕ) : (bytesAt mem p n).length = n := by
  induction n generalizing p with
  | zero => rfl
  | succ n ih => rw [bytesAt, List.length_cons, ih]

theorem wordCount (sz : ULong) : (sz &&& ~~~3).toNat / 4 = sz.toNat / 4 := by
  have mask : (~~~3 : ULong) = -4 := by decide
  rw [mask, BitVec.toNat_and_neg (k := 2) (by decide) rfl]
  exact Nat.mul_div_cancel _ (by decide)

theorem tailLength (sz : ULong) : (sz &&& 3).toNat = sz.toNat % 4 :=
  (BitVec.toNat_and sz 3).trans (Nat.and_two_pow_sub_one_eq_mod sz.toNat 2)

theorem tail_eq_zero_iff (sz : ULong) : sz &&& 3 = 0 ↔ sz.toNat % 4 = 0 := by
  rw [← tailLength, ← BitVec.toNat_inj]
  rfl

section Words

variable (order : ByteOrder)

theorem words_bytesAt_tail (mem : Memory) (p : ℕ) {r : ℕ} (pos : r ≠ 0) (short : r < 4) :
    order.words (bytesAt mem p r) = [tailAt order mem p r] := by
  interval_cases r
  · exact absurd rfl pos
  all_goals
    refine congrArg (fun b => [order.word b]) (funext fun i => ?_)
    fin_cases i <;> rfl

theorem words_bytesAt_add_four (mem : Memory) (p n : ℕ) :
    order.words (bytesAt mem p (n + 4)) =
      wordAt order mem p :: order.words (bytesAt mem (p + 4) n) := by
  refine congrArg (fun b => order.word b :: order.words (bytesAt mem (p + 4) n)) ?_
  funext i
  fin_cases i <;> rfl

/-- The whole words and then the tail are all the words. -/
theorem writeLoop_bind (mem : Memory) (n addr p : ℕ) {r : ℕ} (short : r < 4) :
    (do
      let last ← writeLoop order mem n addr p
      if r ≠ 0 then xrpCommWrite32 last.1 (tailAt order mem last.2 r)) =
    Kernel.xrpCommWrite addr (order.words (bytesAt mem p (4 * n + r))) := by
  induction n generalizing addr p with
  | zero =>
    by_cases none : r = 0
    · subst none
      rfl
    · have length : 4 * 0 + r = r := by omega
      rw [length, words_bytesAt_tail order mem p none short]
      simp only [writeLoop, ne_eq, none, not_false_eq_true, if_true, pure_bind]
      rfl
  | succ n ih =>
    have length : 4 * (n + 1) + r = 4 * n + r + 4 := by omega
    rw [length, words_bytesAt_add_four, Kernel.xrpCommWrite, ← ih, writeLoop, bind_assoc]

/-- `xrp_comm_write` writes the words that hold the bytes in memory. -/
theorem xrpCommWrite_eq_words (mem : Memory) (addr p : ℕ) (sz : ULong) :
    xrpCommWrite order mem addr p sz =
      Kernel.xrpCommWrite addr (order.words (bytesAt mem p sz.toNat)) := by
  have split : 4 * (sz.toNat / 4) + sz.toNat % 4 = sz.toNat := Nat.div_add_mod sz.toNat 4
  have short : sz.toNat % 4 < 4 := Nat.mod_lt _ (by decide)
  have whole := congrArg (bytesAt mem p) split
  rw [xrpCommWrite, ← whole, ← writeLoop_bind order mem _ addr p short]
  simp only [wordCount, tailLength, ne_eq, tail_eq_zero_iff]

/-- The bytes of words, as a block in memory. -/
def bytesBlit (ws : List U32) (p n : ℕ) : Blit U8 :=
  ⟨p, n, fun i => (order.bytes ws).getD i 0⟩

theorem memcpyFrom_apply (v : U32) (ws : List U32) (p : ℕ) {n : ℕ} (le : n ≤ 4) (mem : Memory) :
    (memcpyFrom order v p n).apply mem = (bytesBlit order (v :: ws) p n).apply mem := by
  refine Blit.apply_congr fun i less => ?_
  rw [ByteOrder.bytes_getD, Nat.div_eq_of_lt (less.trans_le le)]
  rfl

theorem bytesBlit_apply_cons (v : U32) (ws : List U32) (p n : ℕ) (mem : Memory) :
    (bytesBlit order ws (p + 4) n).apply ((memcpyFrom order v p 4).apply mem) =
      (bytesBlit order (v :: ws) p (4 + n)).apply mem := by
  rw [memcpyFrom_apply order v ws p le_rfl, bytesBlit, bytesBlit, bytesBlit,
    ← Blit.apply_apply_adjacent fun i => (order.bytes (v :: ws)).getD i 0]
  refine Blit.apply_congr fun i _ => ?_
  rw [ByteOrder.bytes_cons, Nat.add_comm 4 i]
  rfl

/-- The whole words and then the tail are the bytes of all the words. -/
theorem readLoop_bind (n addr p : ℕ) {r : ℕ} (short : r < 4) (mem : Memory) :
    (do
      let last ← readLoop order n addr p mem
      if r ≠ 0 then
        let v ← xrpCommRead32 last.1
        pure ((memcpyFrom order v last.2.1 r).apply last.2.2)
      else pure last.2.2) =
    (do
      let ws ← Kernel.xrpCommRead addr ((4 * n + r + 3) / 4)
      pure ((bytesBlit order ws p (4 * n + r)).apply mem)) := by
  induction n generalizing addr p mem with
  | zero =>
    have length : 4 * 0 + r = r := by omega
    rw [length]
    by_cases none : r = 0
    · subst none
      have same : (bytesBlit order [] p 0).apply mem = mem := Blit.apply_of_size_eq_zero rfl
      exact congrArg Program.ret same.symm
    · have one : (r + 3) / 4 = 1 := by omega
      rw [one]
      simp only [readLoop, ne_eq, none, not_false_eq_true, if_true, pure_bind, Kernel.xrpCommRead,
        bind_assoc]
      refine bind_congr fun v => ?_
      rw [memcpyFrom_apply order v [] p short.le]
  | succ n ih =>
    have length : 4 * (n + 1) + r = 4 + (4 * n + r) := by omega
    have words : (4 + (4 * n + r) + 3) / 4 = (4 * n + r + 3) / 4 + 1 := by omega
    rw [length, words, readLoop, Kernel.xrpCommRead, bind_assoc, bind_assoc]
    refine bind_congr fun v => ?_
    rw [ih, bind_assoc]
    refine bind_congr fun ws => ?_
    rw [pure_bind, bytesBlit_apply_cons]

/-- `xrp_comm_read` stores the bytes of the words that it reads. -/
theorem xrpCommRead_eq_words (addr p : ℕ) (sz : ULong) (mem : Memory) :
    xrpCommRead order addr p sz mem =
      (do
        let ws ← Kernel.xrpCommRead addr ((sz.toNat + 3) / 4)
        pure ((bytesBlit order ws p sz.toNat).apply mem)) := by
  have split : 4 * (sz.toNat / 4) + sz.toNat % 4 = sz.toNat := Nat.div_add_mod sz.toNat 4
  have short : sz.toNat % 4 < 4 := Nat.mod_lt _ (by decide)
  have whole := readLoop_bind order (sz.toNat / 4) addr p short mem
  rw [split] at whole
  rw [← whole, xrpCommRead]
  simp only [wordCount, tailLength, ne_eq, tail_eq_zero_iff]

end Words

/-! ## Round trip -/

section RoundTrip

variable (order : ByteOrder)

/-- The words that are written are a block of the comm area. -/
theorem run_xrpCommWrite (w : ℕ) (vs : List U32) (m : Comm) :
    ((Kernel.xrpCommWrite w vs).run CommOp.act m).2 =
      (Blit.mk w vs.length fun i => vs.getD i 0).apply m := by
  induction vs generalizing w m with
  | nil => exact (Blit.apply_of_size_eq_zero rfl).symm
  | cons v vs ih =>
    have length : (v :: vs).length = 1 + vs.length := by
      rw [List.length_cons, Nat.add_comm]
    rw [length, ← Blit.apply_apply_adjacent, Blit.apply_one, Kernel.xrpCommWrite, Program.run_bind,
      ih]
    refine Blit.apply_congr fun i _ => ?_
    rw [Nat.add_comm 1 i, List.getD_cons_succ]

/-- The word has a byte of the range. -/
def Covering (addr sz i : ℕ) : Prop := ∃ a, addr ≤ a ∧ a < addr + sz ∧ a / 4 = i

theorem covering_iff {w sz i : ℕ} : Covering (4 * w) sz i ↔ w ≤ i ∧ i < w + (sz + 3) / 4 := by
  constructor
  · rintro ⟨a, lower, upper, rfl⟩
    omega
  · rintro ⟨lower, upper⟩
    exact ⟨4 * i, by omega, by omega, by omega⟩

/-- What `xrp_comm_write` leaves in the comm area. -/
theorem byte_run_xrpCommWrite (mem : Memory) (w p : ℕ) (sz : ULong) (m : Comm) (i : ℕ) :
    (¬ Covering (4 * w) sz.toNat i →
      ((xrpCommWrite order mem w p sz).run CommOp.act m).2 i = m i) ∧
    (Covering (4 * w) sz.toNat i → ∀ j : Fin 4,
      order.byte (((xrpCommWrite order mem w p sz).run CommOp.act m).2 i) j =
        if 4 * i + j < 4 * w + sz.toNat then mem (p + (4 * i + j - 4 * w)) else 0) := by
  rw [covering_iff, xrpCommWrite_eq_words, run_xrpCommWrite, ByteOrder.length_words,
    length_bytesAt]
  constructor
  · intro apart
    exact Blit.apply_outside (by omega)
  · intro covers j
    obtain ⟨k, rfl⟩ := Nat.exists_eq_add_of_le covers.1
    have inside : 4 * k + j.val < sz.toNat ↔ 4 * (w + k) + j.val < 4 * w + sz.toNat := by omega
    have index : 4 * k + j.val = 4 * (w + k) + j.val - 4 * w := by omega
    rw [Blit.apply_add (by omega), ByteOrder.byte_words_getD, bytesAt_getD]
    rw [← index]
    simp only [inside]

/-- What `xrp_comm_read` stores. -/
theorem run_xrpCommRead_bytes (w p : ℕ) (sz : ULong) (mem : Memory) (m : Comm) :
    (xrpCommRead order w p sz mem).run CommOp.act m =
      ((Blit.mk p sz.toNat fun i => order.byte (m (w + i / 4)) (Fin.ofNat 4 i)).apply mem, m) := by
  rw [xrpCommRead_eq_words, Program.run_bind, run_xrpCommRead]
  refine congrArg (·, m) (Blit.apply_congr fun i less => ?_)
  have inside : i / 4 < (sz.toNat + 3) / 4 := by omega
  rw [ByteOrder.bytes_getD]
  simp [List.getD_eq_getElem?_getD, inside]

/-- **Copies through the comm area round trip**: a write changes the words that cover the range and
no others, it stores the bytes and pads the last word with zeros, and a read of not more than was
written stores as many of the bytes and changes nothing else. -/
theorem xrpCommRead_xrpCommWrite (order : ByteOrder) (mem mem' : Memory) (w p p' : ℕ)
    {sz sz' : ULong} (le : sz' ≤ sz) (m : Comm) :
    let written := ((xrpCommWrite order mem w p sz).run CommOp.act m).2
    let read := (xrpCommRead order w p' sz' mem').run CommOp.act written
    (∀ i, ¬ Covering (4 * w) sz.toNat i → written i = m i) ∧
    (∀ i, Covering (4 * w) sz.toNat i → ∀ j : Fin 4, order.byte (written i) j =
      if 4 * i + j < 4 * w + sz.toNat then mem (p + (4 * i + j - 4 * w)) else 0) ∧
    (∀ k < sz'.toNat, read.1 (p' + k) = mem (p + k)) ∧
    (∀ a, (a < p' ∨ p' + sz'.toNat ≤ a) → read.1 a = mem' a) ∧ read.2 = written := by
  intro written read
  have stored (i : ℕ) := byte_run_xrpCommWrite order mem w p sz m i
  have result : read = _ := run_xrpCommRead_bytes order w p' sz' mem' written
  rw [result]
  refine ⟨fun i => (stored i).1, fun i => (stored i).2, ?_, ?_, rfl⟩
  · intro k less
    have less' : k < sz.toNat := less.trans_le (BitVec.le_def.mp le)
    have covers : Covering (4 * w) sz.toNat (w + k / 4) :=
      ⟨4 * w + k, by omega, by omega, by omega⟩
    have place : (Fin.ofNat 4 k).val = k % 4 := rfl
    have index : 4 * (w + k / 4) + k % 4 = 4 * w + k := by omega
    dsimp only
    rw [Blit.apply_add less, (stored _).2 covers, place, index, if_pos (by omega),
      Nat.add_sub_cancel_left]
  · intro a outside
    exact Blit.apply_outside outside

/-- Seven bytes are written from the second word on, and five are read back. -/
theorem xrpCommRead_xrpCommWrite_seven :
    (5 : ULong) ≤ 7 ∧
    ∀ k < (5 : ULong).toNat, ((xrpCommRead .big 2 0 5 fun _ => 0).run CommOp.act
      ((xrpCommWrite .big (fun a => .ofNat 8 (a * a)) 2 10 7).run CommOp.act fun _ => 0).2).1
        (0 + k) = .ofNat 8 ((10 + k) * (10 + k)) :=
  ⟨by decide, (xrpCommRead_xrpCommWrite .big (fun a => .ofNat 8 (a * a)) (fun _ => 0) 2 10 0
    (show (5 : ULong) ≤ 7 by decide) fun _ => 0).2.2.1⟩

end RoundTrip

end Xrp.Kernel.CommCopy
