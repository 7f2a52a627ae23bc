import Xrp.Dsp.Command
import Xrp.Kernel.HwRequest

/-!
# What the DSP reads of a published request

The rules under which `process_command` may access the comm area while it works
on a request: it reads words that the host wrote for the request, or output data
of its own; it writes output data, the access flags of the inline descriptor, and
at the end the flags word. `process_command` keeps these rules.
-/

namespace Xrp.Exchange

open Kernel Dsp

/-- Where the DSP is: outside `process_command`, in it, or in it after `complete_request`. -/
inductive DspPhase : Type
  | outside
  | processing
  | answered
  deriving DecidableEq

section Request

variable (order : ByteOrder) (translate : ULong → U32) (rq : XrpRequest)

/-- The words the host writes for a request. -/
def requestWords : List (ℕ × U32) :=
  rq.payload order translate ++ [(DspCmd.flags, rq.flagsWord)]

/-- A word of the output data, if that is in the comm area. -/
def OutWord (rq : XrpRequest) (w : ℕ) : Prop :=
  rq.ioctlQueue.outDataSize.toNat ≤ inlineDataSize ∧
    DspCmd.outData ≤ w ∧ w < DspCmd.outData + (rq.ioctlQueue.outDataSize.toNat + 3) / 4

/-- A word other than `flags` that the DSP may write for a request. -/
def ResponseWord (rq : XrpRequest) (w : ℕ) : Prop :=
  OutWord rq w ∨ rq.nBuffers = 1 ∧ w = DspCmd.bufferData

/-- The comm area holds the request. -/
def Agrees (m : Comm) : Prop := ∀ w v, (w, v) ∈ requestWords order translate rq → m w = v

/-- The rules of the DSP for a request. -/
def dspRules : Program.Rules DspOp DspOp.Answer (Comm × DspPhase) where
  allowed
    | .comm (.read w), s =>
      s.2 = .processing ∧ ((w, s.1 w) ∈ requestWords order translate rq ∨ OutWord rq w)
    | .comm (.write w v), s =>
      s.2 = .processing ∧ if w = DspCmd.flags then Answered v else ResponseWord rq w
    | .enter, s => s.2 = .outside
    | _, _ => True
  effect
    | .comm (.read w), s, r, s' => r = s.1 w ∧ s' = s
    | .comm (.write w v), s, _, s' =>
      s' = (Function.update s.1 w v, if w = DspCmd.flags then .answered else s.2)
    | .enter, s, _, s' => s' = (s.1, .processing)
    | _, s, _, s' => s' = s

end Request

/-! ## The words of a request -/

section Words

variable {order : ByteOrder} {translate : ULong → U32} {rq : XrpRequest}

theorem mem_requestWords {p : ℕ × U32} :
    p ∈ requestWords order translate rq ↔
      p ∈ rq.sizeWords ∨ p ∈ rq.inDataWords order translate ∨ p ∈ rq.outDataWords translate ∨
        p ∈ rq.bufferWords translate ∨ p ∈ rq.nsidWords order ∨
        p = (DspCmd.flags, rq.flagsWord) := by
  simp only [requestWords, XrpRequest.payload, List.mem_append, List.mem_singleton, or_assoc]

theorem mem_requestWords_flags :
    (DspCmd.flags, rq.flagsWord) ∈ requestWords order translate rq := by
  simp [mem_requestWords]

theorem mem_requestWords_inDataSize :
    (DspCmd.inDataSize, rq.ioctlQueue.inDataSize) ∈ requestWords order translate rq := by
  simp [mem_requestWords, XrpRequest.sizeWords]

theorem mem_requestWords_outDataSize :
    (DspCmd.outDataSize, rq.ioctlQueue.outDataSize) ∈ requestWords order translate rq := by
  simp [mem_requestWords, XrpRequest.sizeWords]

theorem mem_requestWords_bufferSize :
    (DspCmd.bufferSize, BitVec.ofNat 32 (rq.nBuffers * sizeofDspBuffer)) ∈
      requestWords order translate rq := by
  simp [mem_requestWords, XrpRequest.sizeWords]

theorem mem_requestWords_inDataAddr (long : rq.ioctlQueue.inDataSize.toNat > inlineDataSize) :
    (DspCmd.inData, translate rq.inDataPhys) ∈ requestWords order translate rq := by
  simp [mem_requestWords, XrpRequest.inDataWords, long]

theorem mem_requestWords_outDataAddr (long : rq.ioctlQueue.outDataSize.toNat > inlineDataSize) :
    (DspCmd.outData, translate rq.outDataPhys) ∈ requestWords order translate rq := by
  simp [mem_requestWords, XrpRequest.outDataWords, long]

theorem mem_requestWords_bufferAddr (many : rq.nBuffers > inlineBufferCount) :
    (DspCmd.bufferData, translate rq.dspBufferPhys) ∈ requestWords order translate rq := by
  simp [mem_requestWords, XrpRequest.bufferWords, many]

theorem exists_mem_numbered {w i : ℕ} {vs : List U32} (inside : i < vs.length) :
    ∃ v, (w + i, v) ∈ numbered w vs :=
  ⟨vs[i], mem_numbered.mpr ⟨Nat.le_add_right _ _, by simp [inside]⟩⟩

theorem exists_mem_requestWords_inData {i : ℕ}
    (short : rq.ioctlQueue.inDataSize.toNat ≤ inlineDataSize)
    (inside : i < (rq.ioctlQueue.inDataSize.toNat + 3) / 4) :
    ∃ v, (DspCmd.inData + i, v) ∈ requestWords order translate rq := by
  have fits : i < (order.words
      ((List.ofFn rq.inData).take rq.ioctlQueue.inDataSize.toNat)).length := by
    simp only [inlineDataSize] at short
    simp only [ByteOrder.length_words, List.length_take, List.length_ofFn]
    omega
  obtain ⟨v, member⟩ := exists_mem_numbered (w := DspCmd.inData) fits
  have part : (DspCmd.inData + i, v) ∈ rq.inDataWords order translate := by
    rwa [XrpRequest.inDataWords, if_neg (not_lt.mpr short)]
  exact ⟨v, mem_requestWords.mpr (.inr (.inl part))⟩

theorem exists_mem_requestWords_nsid {i : ℕ}
    (flagged : rq.ioctlQueue.flags &&& queueFlagNsid ≠ 0) (inside : i < 4) :
    ∃ v, (DspCmd.nsid + i, v) ∈ requestWords order translate rq := by
  have fits : i < (order.words (List.ofFn rq.nsid)).length := by simpa using inside
  obtain ⟨v, member⟩ := exists_mem_numbered (w := DspCmd.nsid) fits
  have part : (DspCmd.nsid + i, v) ∈ rq.nsidWords order := by
    rwa [XrpRequest.nsidWords, if_pos flagged]
  exact ⟨v, mem_requestWords.mpr (.inr (.inr (.inr (.inr (.inl part)))))⟩

theorem exists_mem_requestWords_descriptor {k : ℕ} (one : rq.nBuffers = 1) (inside : k < 3) :
    ∃ v, (DspCmd.bufferData + k, v) ∈ requestWords order translate rq := by
  have fits : k < rq.dspBuffer.words.length := by simpa [XrpDspBuffer.words] using inside
  obtain ⟨v, member⟩ := exists_mem_numbered (w := DspCmd.bufferData) fits
  have whole : rq.dspBuffer.words.take (rq.nBuffers * 3) = rq.dspBuffer.words := by
    simp [one, XrpDspBuffer.words]
  have part : (DspCmd.bufferData + k, v) ∈ rq.bufferWords translate := by
    rwa [XrpRequest.bufferWords, if_neg (by simp [one, inlineBufferCount]), whole]
  exact ⟨v, mem_requestWords.mpr (.inr (.inr (.inr (.inl part))))⟩

/-- Distinct words from `a` up to `b`. -/
structure KeysBetween (a b : ℕ) (l : List (ℕ × U32)) : Prop where
  nodup : (l.map Prod.fst).Nodup
  range : ∀ {w v}, (w, v) ∈ l → a ≤ w ∧ w < b

theorem KeysBetween.append {a b c : ℕ} {l l' : List (ℕ × U32)} (first : KeysBetween a b l)
    (second : KeysBetween b c l') (ab : a ≤ b) (bc : b ≤ c) : KeysBetween a c (l ++ l') where
  nodup := by
    rw [List.map_append, List.nodup_append]
    refine ⟨first.nodup, second.nodup, ?_⟩
    simp only [List.mem_map, Prod.exists, exists_and_right, exists_eq_right]
    rintro w ⟨v, left⟩ w' ⟨v', right⟩ rfl
    have := first.range left
    have := second.range right
    omega
  range := by
    intro w v member
    rcases List.mem_append.mp member with left | right
    · have := first.range left
      omega
    · have := second.range right
      omega

theorem keysBetween_numbered {w n : ℕ} {vs : List U32} (fits : w + vs.length ≤ n) :
    KeysBetween w n (numbered w vs) where
  nodup := by
    have keys : (numbered w vs).map Prod.fst = List.range' w vs.length := by
      clear fits
      induction vs generalizing w with
      | nil => rfl
      | cons v vs ih => simp [numbered, ih, List.range'_succ]
    rw [keys]
    exact List.nodup_range'
  range := by
    intro i v member
    obtain ⟨lower, value⟩ := mem_numbered.mp member
    have := (List.getElem?_eq_some_iff.mp value).1
    omega

theorem keysBetween_single {w n : ℕ} {v : U32} (inside : w < n) : KeysBetween w n [(w, v)] :=
  ⟨by simp, by simp [inside]⟩

theorem keysBetween_sizeWords : KeysBetween 1 4 rq.sizeWords := by
  have sizes : rq.sizeWords = numbered 1 [rq.ioctlQueue.inDataSize, rq.ioctlQueue.outDataSize,
      .ofNat 32 (rq.nBuffers * sizeofDspBuffer)] := rfl
  rw [sizes]
  exact keysBetween_numbered le_rfl

theorem keysBetween_inDataWords : KeysBetween 4 8 (rq.inDataWords order translate) := by
  rw [XrpRequest.inDataWords]
  split_ifs
  · exact keysBetween_single (by decide)
  · apply keysBetween_numbered
    simp only [ByteOrder.length_words, List.length_take, List.length_ofFn]
    grind

theorem keysBetween_outDataWords : KeysBetween 8 12 (rq.outDataWords translate) := by
  rw [XrpRequest.outDataWords]
  split_ifs
  · exact keysBetween_single (by decide)
  · exact ⟨by simp, by simp⟩

theorem keysBetween_bufferWords : KeysBetween 12 16 (rq.bufferWords translate) := by
  rw [XrpRequest.bufferWords]
  split_ifs
  · exact keysBetween_single (by decide)
  · apply keysBetween_numbered
    simp only [List.length_take, XrpDspBuffer.words, List.length_cons, List.length_nil]
    grind

theorem keysBetween_nsidWords : KeysBetween 16 20 (rq.nsidWords order) := by
  rw [XrpRequest.nsidWords]
  split_ifs
  · apply keysBetween_numbered
    simp
  · exact ⟨by simp, by simp⟩

theorem keysBetween_payload : KeysBetween 1 20 (rq.payload order translate) :=
  (((keysBetween_sizeWords.append keysBetween_inDataWords (by decide) (by decide)).append
    keysBetween_outDataWords (by decide) (by decide)).append
      keysBetween_bufferWords (by decide) (by decide)).append
        keysBetween_nsidWords (by decide) (by decide)

/-- The host writes no word of the output data. -/
theorem not_outWord_of_mem {w : ℕ} {v : U32} (member : (w, v) ∈ requestWords order translate rq) :
    ¬ OutWord rq w := by
  rintro ⟨short, lower, upper⟩
  have between : 8 ≤ w ∧ w < 12 := by grind [inlineDataSize]
  rcases mem_requestWords.mp member with size | input | output | buffer | nsid | flags
  · have := keysBetween_sizeWords.range size
    omega
  · have := keysBetween_inDataWords.range input
    omega
  · rw [XrpRequest.outDataWords, if_neg (not_lt.mpr short)] at output
    simp at output
  · have := keysBetween_bufferWords.range buffer
    omega
  · have := keysBetween_nsidWords.range nsid
    omega
  · grind

/-! ## The comm area after the host has filled it -/

theorem run_writeAll_of_notMem {w : ℕ} {l : List (ℕ × U32)} (absent : w ∉ l.map Prod.fst)
    (m : Comm) : ((writeAll l).run CommOp.act m).2 w = m w := by
  induction l generalizing m with
  | nil => rfl
  | cons p l ih =>
    rw [List.map_cons, List.mem_cons, not_or] at absent
    exact (ih absent.2 _).trans (Function.update_of_ne absent.1 _ _)

theorem run_writeAll_of_mem {w : ℕ} {v : U32} {l : List (ℕ × U32)} (nodup : (l.map Prod.fst).Nodup)
    (member : (w, v) ∈ l) (m : Comm) : ((writeAll l).run CommOp.act m).2 w = v := by
  induction l generalizing m with
  | nil => cases member
  | cons p l ih =>
    rw [List.map_cons, List.nodup_cons] at nodup
    rcases List.mem_cons.mp member with rfl | later
    · exact (run_writeAll_of_notMem nodup.1 _).trans (Function.update_self _ _ _)
    · exact ih nodup.2 later _

/-- `xrp_fill_hw_request` leaves the request in the comm area. -/
theorem agrees_xrpFillHwRequest (m : Comm) :
    Agrees order translate rq ((xrpFillHwRequest order translate rq).run CommOp.act m).2 := by
  intro w v member
  rw [xrpFillHwRequest_eq]
  refine run_writeAll_of_mem ?_ member m
  rw [requestWords, List.map_append, List.nodup_append]
  refine ⟨keysBetween_payload.nodup, List.nodup_singleton _, ?_⟩
  intro a inside b flags same
  rcases List.mem_map.mp inside with ⟨⟨w', v'⟩, payload, rfl⟩
  have lower := (keysBetween_payload.range payload).1
  have zero : w' = DspCmd.flags := same.trans (List.mem_singleton.mp flags)
  rw [zero] at lower
  exact absurd lower (by decide)

end Words

/-! ## The parts of `process_command` -/

section Parts

variable {order dspOrder : ByteOrder} {translate : ULong → U32} {rq : XrpRequest} {m : Comm}
variable {α : Type} {post : α → Comm × DspPhase → Prop}

/-- A word of the request is read as the host wrote it. -/
theorem wp_commRead {w : ℕ} {v : U32} {post : U32 → Comm × DspPhase → Prop}
    (member : (w, v) ∈ requestWords order translate rq) (value : m w = v)
    (rest : post v (m, .processing)) :
    (commRead w).wp (dspRules order translate rq) post (m, .processing) := by
  subst value
  refine ⟨⟨rfl, .inl member⟩, ?_⟩
  rintro _ _ ⟨rfl, rfl⟩
  exact rest

theorem wp_commRead_bind {w : ℕ} {v : U32} {f : U32 → DspProgram α}
    (member : (w, v) ∈ requestWords order translate rq) (value : m w = v)
    (rest : (f v).wp (dspRules order translate rq) post (m, .processing)) :
    (commRead w >>= f).wp (dspRules order translate rq) post (m, .processing) :=
  Program.wp_bind.mpr (wp_commRead member value rest)

/-- Operations that are not about the comm area change nothing the rules see. -/
theorem wp_load32 (a : U32) (s : Comm × DspPhase) :
    (load32 dspOrder a).wp (dspRules order translate rq) (fun _ s' => s' = s) s := by
  refine ⟨trivial, ?_⟩
  rintro _ _ rfl
  refine ⟨trivial, ?_⟩
  rintro _ _ rfl
  refine ⟨trivial, ?_⟩
  rintro _ _ rfl
  refine ⟨trivial, ?_⟩
  rintro _ _ rfl
  rfl

theorem wp_store32 (a v : U32) (s : Comm × DspPhase) :
    (store32 dspOrder a v).wp (dspRules order translate rq) (fun _ s' => s' = s) s := by
  refine ⟨trivial, ?_⟩
  rintro _ _ rfl
  refine ⟨trivial, ?_⟩
  rintro _ _ rfl
  refine ⟨trivial, ?_⟩
  rintro _ _ rfl
  refine ⟨trivial, ?_⟩
  rintro _ _ rfl
  rfl

theorem wp_compareCommNsid (dspOrder : ByteOrder) (agrees : Agrees order translate rq m)
    (flagged : rq.ioctlQueue.flags &&& queueFlagNsid ≠ 0) (slot : XrpCmdNs) :
    (compareCommNsid dspOrder slot).wp (dspRules order translate rq)
      (fun r s' => r = compareCmdNs (nsidBytes dspOrder ![m 16, m 17, m 18, m 19]) slot ∧
        s' = (m, .processing)) (m, .processing) := by
  have word : ∀ i < 4,
      (DspCmd.nsid + i, m (DspCmd.nsid + i)) ∈ requestWords order translate rq := by
    intro i inside
    obtain ⟨v, member⟩ : ∃ v, (DspCmd.nsid + i, v) ∈ requestWords order translate rq :=
      exists_mem_requestWords_nsid flagged inside
    rwa [agrees _ _ member]
  have read : (readNsid dspOrder).wp (dspRules order translate rq)
      (fun r s' => r = nsidBytes dspOrder ![m 16, m 17, m 18, m 19] ∧ s' = (m, .processing))
      (m, .processing) :=
    wp_commRead_bind (word 0 (by decide)) rfl (wp_commRead_bind (word 1 (by decide)) rfl
      (wp_commRead_bind (word 2 (by decide)) rfl (wp_commRead_bind (word 3 (by decide)) rfl
        ⟨rfl, rfl⟩)))
  refine read.bind ?_
  rintro _ _ ⟨rfl, rfl⟩
  exact ⟨rfl, rfl⟩

theorem flagsWord_nsid :
    rq.flagsWord &&& requestNsid ≠ 0 ↔ rq.ioctlQueue.flags &&& queueFlagNsid ≠ 0 := by
  rw [XrpRequest.flagsWord, requestNsid, queueFlagNsid, responseValid, requestValid]
  generalize rq.ioctlQueue.flags = f
  have same : (f &&& ~~~2 ||| 1) &&& 4 = f &&& 4 := by
    rw [BitVec.and_or_distrib_right, BitVec.and_assoc]
    simp
  rw [same]

/-- The search for a namespace only reads. -/
theorem wp_findCmdNs {compare : XrpCmdNs → DspProgram Ordering} {value : XrpCmdNs → Ordering}
    {s : Comm × DspPhase} (device : XrpDevice)
    (compared : ∀ slot, (compare slot).wp (dspRules order translate rq)
      (fun r s' => r = value slot ∧ s' = s) s) :
    (findCmdNs compare device).wp (dspRules order translate rq) (fun _ s' => s' = s) s := by
  have test : ∀ c, (do return (← compare (device.cmdNs c)) == .lt : DspProgram Bool).wp
      (dspRules order translate rq)
      (fun r s' => r = (value (device.cmdNs c) == .lt) ∧ s' = s) s := by
    intro c
    refine (compared (device.cmdNs c)).bind ?_
    rintro _ _ ⟨rfl, rfl⟩
    exact ⟨rfl, rfl⟩
  refine (Program.wp_bisect 0 device.nCmdNs test).bind ?_
  rintro ⟨a, b⟩ _ ⟨-, rfl⟩
  dsimp only
  split_ifs
  · refine (compared (device.cmdNs a)).bind ?_
    rintro _ _ ⟨rfl, rfl⟩
    split_ifs <;> rfl
  · rfl

theorem wp_cmdNsMatch {compare : XrpCmdNs → DspProgram Ordering} {value : XrpCmdNs → Ordering}
    {s : Comm × DspPhase} (device : XrpDevice) (p : ℕ)
    (compared : ∀ slot, (compare slot).wp (dspRules order translate rq)
      (fun r s' => r = value slot ∧ s' = s) s) :
    (cmdNsMatch compare device p).wp (dspRules order translate rq) (fun _ s' => s' = s) s := by
  rw [cmdNsMatch]
  split_ifs
  · rfl
  · refine (compared (device.cmdNs p)).bind ?_
    rintro _ _ ⟨rfl, rfl⟩
    rfl

theorem wp_selectHandler (agrees : Agrees order translate rq m) (device : XrpDevice) :
    (selectHandler dspOrder device).wp (dspRules order translate rq)
      (fun _ s' => s' = (m, .processing)) (m, .processing) := by
  refine wp_commRead_bind mem_requestWords_flags (agrees _ _ mem_requestWords_flags) ?_
  by_cases flagged : rq.flagsWord &&& requestNsid ≠ 0
  · rw [if_pos flagged]
    have compared := wp_compareCommNsid dspOrder agrees (flagsWord_nsid.mp flagged)
    refine (wp_findCmdNs device compared).bind ?_
    rintro p _ rfl
    refine (wp_cmdNsMatch device p compared).bind ?_
    rintro found _ rfl
    cases found <;> rfl
  · rw [if_neg flagged]
    rfl

theorem wp_bufferTable (agrees : Agrees order translate rq m) :
    (bufferTable rq.nBuffers).wp (dspRules order translate rq)
      (fun r s' => (r = none → rq.nBuffers ≤ inlineBufferCount) ∧ s' = (m, .processing))
      (m, .processing) := by
  rw [bufferTable]
  split_ifs with many
  · rw [map_eq_pure_bind]
    exact wp_commRead_bind (mem_requestWords_bufferAddr many)
      (agrees _ _ (mem_requestWords_bufferAddr many)) ⟨by simp, rfl⟩
  · exact ⟨fun _ => not_lt.mp many, rfl⟩

theorem wp_allocateBuffers (s : Comm × DspPhase) :
    (allocateBuffers rq.nBuffers).wp (dspRules order translate rq) (fun _ s' => s' = s) s := by
  rw [allocateBuffers]
  split_ifs
  · exact ⟨trivial, fun _ _ same => same⟩
  · rfl

/-- Descriptors that are in the request itself are the descriptor of one buffer. -/
theorem only_inline {i : ℕ} (inline : rq.nBuffers ≤ inlineBufferCount) (inside : i < rq.nBuffers) :
    rq.nBuffers = 1 ∧ i = 0 := by
  unfold inlineBufferCount at inline
  omega

theorem wp_readDescriptor {dspBuffer : DspBufferPtr} {i k : ℕ}
    (agrees : Agrees order translate rq m)
    (inline : dspBuffer = none → rq.nBuffers ≤ inlineBufferCount) (inside : i < rq.nBuffers)
    (field : k < 3) :
    (readDescriptor dspOrder dspBuffer i k).wp (dspRules order translate rq)
      (fun _ s' => s' = (m, .processing)) (m, .processing) := by
  cases dspBuffer with
  | none =>
    obtain ⟨one, rfl⟩ := only_inline (inline rfl) inside
    obtain ⟨v, member⟩ : ∃ v, (DspCmd.bufferData + k, v) ∈ requestWords order translate rq :=
      exists_mem_requestWords_descriptor one field
    simp only [readDescriptor, Nat.mul_zero, Nat.zero_add]
    exact wp_commRead member (agrees _ _ member) rfl
  | some base => exact wp_load32 _ _

theorem wp_readBuffers {dspBuffer : DspBufferPtr} (agrees : Agrees order translate rq m)
    (inline : dspBuffer = none → rq.nBuffers ≤ inlineBufferCount) {n : ℕ} (le : n ≤ rq.nBuffers) :
    (readBuffers dspOrder dspBuffer n).wp (dspRules order translate rq)
      (fun _ s' => s' = (m, .processing)) (m, .processing) := by
  induction n with
  | zero => rfl
  | succ i ih =>
    refine (ih (by omega)).bind ?_
    rintro buffers _ rfl
    refine (wp_readDescriptor agrees inline (by omega) (by decide)).bind ?_
    rintro flags _ rfl
    refine (wp_readDescriptor agrees inline (by omega) (by decide)).bind ?_
    rintro addr _ rfl
    refine (wp_readDescriptor agrees inline (by omega) (by decide)).bind ?_
    rintro size _ rfl
    rfl

/-- A write of output data keeps what the host wrote. -/
theorem Agrees.update {w : ℕ} {v : U32} (agrees : Agrees order translate rq m)
    (out : OutWord rq w) : Agrees order translate rq (Function.update m w v) := by
  intro w' v' member
  have ne : w' ≠ w := by
    rintro rfl
    exact not_outWord_of_mem member out
  rw [Function.update_of_ne ne]
  exact agrees w' v' member

/-- A handler reads its input data as the host wrote it, and leaves the request as it is. -/
theorem wp_runHandler {nIn nOut n : ℕ} (handler : Handler nIn nOut n) (group : Fin n → XrpBuffer)
    (input : ∀ i < nIn, ∃ v, (DspCmd.inData + i, v) ∈ requestWords order translate rq)
    (output : ∀ i < nOut, OutWord rq (DspCmd.outData + i))
    (agrees : Agrees order translate rq m) :
    (runHandler handler group).wp (dspRules order translate rq)
      (fun _ s' => Agrees order translate rq s'.1 ∧ s'.2 = .processing) (m, .processing) := by
  induction handler generalizing group m with
  | ret status => exact ⟨agrees, rfl⟩
  | ask o next ih =>
    cases o with
    | readIn i =>
      obtain ⟨v, member⟩ := input i i.isLt
      obtain rfl := agrees _ _ member
      refine ⟨⟨rfl, .inl member⟩, ?_⟩
      rintro r _ ⟨-, rfl⟩
      exact ih r group agrees
    | readOut i =>
      refine ⟨⟨rfl, .inr (output i i.isLt)⟩, ?_⟩
      rintro r _ ⟨-, rfl⟩
      exact ih r group agrees
    | writeOut i v =>
      have other : DspCmd.outData + (i : ℕ) ≠ DspCmd.flags := by grind
      refine ⟨⟨rfl, by rw [if_neg other]; exact .inl (output i i.isLt)⟩, ?_⟩
      rintro r _ rfl
      rw [if_neg other]
      exact ih () group (agrees.update (output i i.isLt))
    | load a =>
      refine ⟨trivial, ?_⟩
      rintro r _ rfl
      exact ih r group agrees
    | store a v =>
      refine ⟨trivial, ?_⟩
      rintro r _ rfl
      exact ih () group agrees
    | api c => exact ih _ _ agrees

/-- What holds of the request after the access flags are written. -/
def AgreesElsewhere (order : ByteOrder) (translate : ULong → U32) (rq : XrpRequest)
    (m : Comm) : Prop :=
  ∀ w v, (w, v) ∈ requestWords order translate rq → w ≠ DspCmd.bufferData → m w = v

theorem wp_writeAccessFlags {dspBuffer : DspBufferPtr} (buffers : ℕ → XrpBuffer)
    (agrees : Agrees order translate rq m)
    (inline : dspBuffer = none → rq.nBuffers ≤ inlineBufferCount) {n : ℕ} (le : n ≤ rq.nBuffers) :
    (writeAccessFlags dspOrder dspBuffer buffers n).wp (dspRules order translate rq)
      (fun _ s' => AgreesElsewhere order translate rq s'.1 ∧ s'.2 = .processing)
      (m, .processing) := by
  induction n with
  | zero => exact ⟨fun w v member _ => agrees w v member, rfl⟩
  | succ i ih =>
    refine (ih (by omega)).bind ?_
    rintro _ ⟨m', phase⟩ ⟨elsewhere, rfl⟩
    cases dspBuffer with
    | none =>
      obtain ⟨one, rfl⟩ := only_inline (inline rfl) (Nat.lt_of_succ_le le)
      have other : DspCmd.bufferData + 3 * 0 ≠ DspCmd.flags := by decide
      refine ⟨⟨rfl, by rw [if_neg other]; exact .inr ⟨one, rfl⟩⟩, ?_⟩
      rintro r _ rfl
      refine ⟨fun w v member ne => ?_, rfl⟩
      exact (Function.update_of_ne ne _ _).trans (elsewhere w v member ne)
    | some base =>
      refine (wp_store32 _ _ _).mono ?_
      rintro _ _ rfl
      exact ⟨elsewhere, rfl⟩

/-- `complete_request` ends the request, if its flags still say that there is one. -/
theorem wp_completeRequest_bind {f : Unit → DspProgram α} {flags : U32}
    (answered : Answered (flags ||| responseValid))
    (rest : ∀ m', (f ()).wp (dspRules order translate rq) post (m', .answered)) :
    (completeRequest flags >>= f).wp (dspRules order translate rq) post (m, .processing) := by
  refine ⟨⟨rfl, by rwa [if_pos rfl]⟩, ?_⟩
  rintro _ _ rfl
  exact rest _

end Parts

/-! ## The whole of `process_command` -/

section Whole

variable {order dspOrder : ByteOrder} {translate : ULong → U32} {rq : XrpRequest} {m : Comm}

/-- The DSP finds the number of buffers the host gave. -/
theorem nBuffers_decoded :
    (BitVec.ofNat 32 (rq.nBuffers * sizeofDspBuffer)).toNat / sizeofDspBuffer = rq.nBuffers := by
  have small : rq.nBuffers * sizeofDspBuffer < 2 ^ 32 := by
    have := rq.ioctlQueue.bufferSize.isLt
    simp only [XrpRequest.nBuffers, sizeofIoctlBuffer, sizeofDspBuffer]
    omega
  rw [BitVec.toNat_ofNat, Nat.mod_eq_of_lt small]
  exact Nat.mul_div_cancel _ (by decide)

theorem requesting_flagsWord : Requesting rq.flagsWord := by
  simp only [Requesting, XrpRequest.flagsWord, requestValid, responseValid]
  generalize rq.ioctlQueue.flags = f
  have low : (f &&& ~~~2 ||| 1) &&& (1 ||| 2) = f &&& 1 ||| 1 := by
    rw [BitVec.and_or_distrib_right, BitVec.and_assoc]
    simp
  rw [low]
  ext i
  simp

/-- A pointer argument is the address the host gave, or there is none. -/
theorem wp_readDataArg {sizeWord dataWord : ℕ} {size addr : U32}
    (sized : (sizeWord, size) ∈ requestWords order translate rq) (size_eq : m sizeWord = size)
    (data : size.toNat > inlineDataSize → (dataWord, addr) ∈ requestWords order translate rq ∧
      m dataWord = addr) :
    (readDataArg sizeWord dataWord).wp (dspRules order translate rq)
      (fun r s' => r = (if size.toNat > inlineDataSize then some addr else none) ∧
        s' = (m, .processing)) (m, .processing) := by
  refine wp_commRead_bind sized size_eq ?_
  split_ifs with long
  · exact wp_commRead_bind (data long).1 (data long).2 ⟨rfl, rfl⟩
  · exact ⟨rfl, rfl⟩

theorem wp_readCacheRange {sizeWord dataWord : ℕ} {size addr : U32}
    (sized : (sizeWord, size) ∈ requestWords order translate rq) (size_eq : m sizeWord = size)
    (data : size.toNat > inlineDataSize → (dataWord, addr) ∈ requestWords order translate rq ∧
      m dataWord = addr) :
    (readCacheRange sizeWord dataWord).wp (dspRules order translate rq)
      (fun _ s' => s' = (m, .processing)) (m, .processing) := by
  refine wp_commRead_bind sized size_eq ?_
  split_ifs with long
  · exact wp_commRead_bind (data long).1 (data long).2 (wp_commRead_bind sized size_eq rfl)
  · rfl

/-- Data has words in the comm area only if it fits there. -/
theorem short_of_lt_inlineWords {i : ℕ} {size addr : U32}
    (inside : i < HandlerArgs.inlineWords
      (if size.toNat > inlineDataSize then some addr else none) size) :
    size.toNat ≤ inlineDataSize ∧ i < (size.toNat + 3) / 4 := by
  by_cases long : size.toNat > inlineDataSize
  · simp [HandlerArgs.inlineWords, long] at inside
  · exact ⟨not_lt.mp long, by simpa [HandlerArgs.inlineWords, long] using inside⟩

theorem wp_callHandler {flags : U32} {dspBuffer : DspBufferPtr} (handlers : Handlers)
    (handler : Option (ℕ × ℕ)) (buffers : ℕ → XrpBuffer) (agrees : Agrees order translate rq m)
    (inline : dspBuffer = none → rq.nBuffers ≤ inlineBufferCount) (requesting : Requesting flags) :
    (callHandler dspOrder handlers flags handler dspBuffer rq.nBuffers buffers).wp
      (dspRules order translate rq) (fun _ s' => s'.2 = .answered) (m, .processing) := by
  refine (wp_readDataArg mem_requestWords_inDataSize (agrees _ _ mem_requestWords_inDataSize)
    fun long => ⟨mem_requestWords_inDataAddr long,
      agrees _ _ (mem_requestWords_inDataAddr long)⟩).bind ?_
  rintro inDataAddr _ ⟨in_addr, rfl⟩
  refine wp_commRead_bind mem_requestWords_inDataSize (agrees _ _ mem_requestWords_inDataSize) ?_
  refine (wp_readDataArg mem_requestWords_outDataSize (agrees _ _ mem_requestWords_outDataSize)
    fun long => ⟨mem_requestWords_outDataAddr long,
      agrees _ _ (mem_requestWords_outDataAddr long)⟩).bind ?_
  rintro outDataAddr _ ⟨out_addr, rfl⟩
  refine wp_commRead_bind mem_requestWords_outDataSize (agrees _ _ mem_requestWords_outDataSize) ?_
  refine ⟨trivial, ?_⟩
  rintro _ _ rfl
  refine (wp_runHandler _ _ ?_ ?_ agrees).bind ?_
  · intro i inside
    simp only [HandlerArgs.inWords, in_addr] at inside
    obtain ⟨short, inside⟩ := short_of_lt_inlineWords inside
    exact exists_mem_requestWords_inData short inside
  · intro i inside
    simp only [HandlerArgs.outWords, out_addr] at inside
    obtain ⟨short, inside⟩ := short_of_lt_inlineWords inside
    exact ⟨short, Nat.le_add_right _ _, by omega⟩
  rintro ⟨status, group⟩ ⟨m', phase⟩ ⟨agrees', rfl⟩
  refine (wp_writeAccessFlags _ agrees' inline le_rfl).bind ?_
  rintro _ ⟨m'', phase⟩ ⟨elsewhere, rfl⟩
  have sized := elsewhere _ _ mem_requestWords_outDataSize (by decide)
  refine (wp_readCacheRange mem_requestWords_outDataSize sized fun long =>
    ⟨mem_requestWords_outDataAddr long,
      elsewhere _ _ (mem_requestWords_outDataAddr long) (by decide)⟩).bind ?_
  rintro _ _ rfl
  refine wp_completeRequest_bind ?_ fun _ => rfl
  rw [statusFlags]
  split_ifs
  · exact requesting.deliveryFail.answered
  · exact requesting.answered

/-- On a request of the host `process_command` keeps the rules, and ends with an answer. -/
theorem wp_processCommand (handlers : Handlers) (device : XrpDevice)
    (agrees : Agrees order translate rq m) :
    (processCommand dspOrder handlers device rq.flagsWord).wp (dspRules order translate rq)
      (fun _ s' => s'.2 = .answered) (m, .outside) := by
  refine ⟨rfl, ?_⟩
  rintro _ _ rfl
  refine wp_commRead_bind mem_requestWords_bufferSize
    (agrees _ _ mem_requestWords_bufferSize) ?_
  simp only [nBuffers_decoded]
  refine (wp_selectHandler agrees device).bind ?_
  rintro (_ | handler) _ rfl
  · exact wp_completeRequest_bind requesting_flagsWord.deliveryFail.answered fun _ => rfl
  refine (wp_bufferTable agrees).bind ?_
  rintro dspBuffer _ ⟨inline, rfl⟩
  refine (wp_readCacheRange mem_requestWords_inDataSize (agrees _ _ mem_requestWords_inDataSize)
    fun long => ⟨mem_requestWords_inDataAddr long,
      agrees _ _ (mem_requestWords_inDataAddr long)⟩).bind ?_
  rintro _ _ rfl
  refine (wp_allocateBuffers _).bind ?_
  rintro (_ | _) _ rfl
  · exact wp_completeRequest_bind requesting_flagsWord.answered fun _ => rfl
  · refine (wp_readBuffers agrees inline le_rfl).bind ?_
    rintro buffers _ rfl
    exact wp_callHandler handlers handler buffers agrees inline requesting_flagsWord

end Whole

end Xrp.Exchange
