import Mathlib

/-!
# Words and bytes

A 32-bit word is four bytes in memory order, and which byte of the word comes
first is a property of the machine. A byte string is stored in words with its
last word padded by zeros.
-/

/-- The order of the bytes of a word in memory. -/
inductive ByteOrder : Type
  | little
  | big
  deriving DecidableEq, Repr

namespace ByteOrder

-- for the indices of bytes, so that no definition makes a proof of its own
instance neZero_four : NeZero 4 := ⟨four_ne_zero⟩

/-- The `i`-th byte in memory of a word. -/
def byte : ByteOrder → BitVec 32 → Fin 4 → BitVec 8
  | little, v, i => v.extractLsb' (8 * i) 8
  | big, v, i => v.extractLsb' (24 - 8 * i) 8

/-- The word with the given bytes in memory. -/
def word : ByteOrder → (Fin 4 → BitVec 8) → BitVec 32
  | little, b => b 3 ++ b 2 ++ b 1 ++ b 0
  | big, b => b 0 ++ b 1 ++ b 2 ++ b 3

@[simp] theorem byte_word (order : ByteOrder) (b : Fin 4 → BitVec 8) (i : Fin 4) :
    order.byte (order.word b) i = b i := by
  ext j h
  cases order <;> fin_cases i <;>
    simp only [byte, word, BitVec.getElem_extractLsb', BitVec.getLsbD_append] <;>
    grind

@[simp] theorem word_byte (order : ByteOrder) (v : BitVec 32) : order.word (order.byte v) = v := by
  ext j h
  cases order <;> simp only [byte, word] <;> grind

/-- The bytes of consecutive words. -/
def bytes (order : ByteOrder) (ws : List (BitVec 32)) : List (BitVec 8) :=
  ws.flatMap fun v => List.ofFn (order.byte v)

/-- The words that hold a byte string, the last one padded with zeros. -/
def words (order : ByteOrder) : List (BitVec 8) → List (BitVec 32)
  | b₀ :: b₁ :: b₂ :: b₃ :: rest => order.word ![b₀, b₁, b₂, b₃] :: order.words rest
  | [b₀, b₁, b₂] => [order.word ![b₀, b₁, b₂, 0]]
  | [b₀, b₁] => [order.word ![b₀, b₁, 0, 0]]
  | [b₀] => [order.word ![b₀, 0, 0, 0]]
  | [] => []

@[simp] theorem length_words (order : ByteOrder) (bs : List (BitVec 8)) :
    (order.words bs).length = (bs.length + 3) / 4 := by
  fun_induction order.words bs with
  | case1 b₀ b₁ b₂ b₃ rest ih =>
    simp only [List.length_cons, ih]
    omega
  | _ => simp

theorem bytes_cons (order : ByteOrder) (v : BitVec 32) (vs : List (BitVec 32)) :
    order.bytes (v :: vs) =
      order.byte v 0 :: order.byte v 1 :: order.byte v 2 :: order.byte v 3 :: order.bytes vs := by
  rw [bytes, List.flatMap_cons, List.ofFn_succ, List.ofFn_succ, List.ofFn_succ, List.ofFn_succ,
    List.ofFn_zero]
  rfl

@[simp] theorem length_bytes (order : ByteOrder) (vs : List (BitVec 32)) :
    (order.bytes vs).length = 4 * vs.length := by
  induction vs with
  | nil => rfl
  | cons v vs ih =>
    rw [bytes_cons]
    simp only [List.length_cons, ih]
    omega

@[simp] theorem byte_zero (order : ByteOrder) (i : Fin 4) : order.byte 0#32 i = 0#8 := by
  cases order <;> simp [byte]

/-- The bytes of the words that hold a byte string: the string, and zeros behind it. -/
theorem byte_words_getD (order : ByteOrder) (bs : List (BitVec 8)) (k : ℕ) (i : Fin 4) :
    order.byte ((order.words bs).getD k 0) i = bs.getD (4 * k + i) 0 := by
  fun_induction order.words bs generalizing k with
  | case1 b₀ b₁ b₂ b₃ rest ih =>
    cases k with
    | zero => fin_cases i <;> simp
    | succ k =>
      have index : 4 * (k + 1) + i.val = 4 * k + i.val + 4 := by omega
      rw [index]
      exact ih k
  | case5 => simp
  | _ =>
    cases k with
    | zero => fin_cases i <;> simp
    | succ k => simp [show 4 * (k + 1) + i.val = 4 * k + i.val + 1 + 1 + 1 + 1 by omega]

/-- A byte of consecutive words. -/
theorem bytes_getD (order : ByteOrder) (vs : List (BitVec 32)) (k : ℕ) :
    (order.bytes vs).getD k 0 = order.byte (vs.getD (k / 4) 0) (Fin.ofNat 4 k) := by
  induction vs generalizing k with
  | nil => simp [bytes]
  | cons v vs ih =>
    rw [bytes_cons]
    match k with
    | 0 => rfl
    | 1 => rfl
    | 2 => rfl
    | 3 => rfl
    | k + 4 =>
      have word : (k + 4) / 4 = k / 4 + 1 := by omega
      have index : Fin.ofNat 4 (k + 4) = Fin.ofNat 4 k := Fin.ext (Nat.add_mod_right k 4)
      rw [word, index]
      exact ih k

/-- Words come back from their bytes. -/
theorem words_bytes (order : ByteOrder) (vs : List (BitVec 32)) :
    order.words (order.bytes vs) = vs := by
  induction vs with
  | nil => rfl
  | cons v vs ih =>
    have bytes : ![order.byte v 0, order.byte v 1, order.byte v 2, order.byte v 3] =
        order.byte v := by
      funext i
      fin_cases i <;> rfl
    rw [bytes_cons, words, ih, bytes, word_byte]

/-- A byte string comes back from the words that hold it. -/
theorem take_bytes_words (order : ByteOrder) (bs : List (BitVec 8)) :
    (order.bytes (order.words bs)).take bs.length = bs := by
  fun_induction order.words bs with
  | case1 b₀ b₁ b₂ b₃ rest ih =>
    rw [bytes_cons]
    simp [ih]
  | _ => simp [bytes_cons]

end ByteOrder
