import Xrp.Base.LineCache
import Xrp.Exchange.ShadowCopy

/-!
# Sharing memory through the cache of the host

`__xrp_share_block` and `__xrp_unshare_block` of `xvp_main.c`, on a host with a write-back cache
that the DSP does not see. Memory that is shared as it is gets one cache operation when it is
shared, and none when it comes back: `hw_ops->invalidate_cache` is not used. A shadow copy is
synchronized by `_xrp_copy_user_phys`, where it is copied; a copy that is only written is not
copied when it is shared. Memory without `struct page`s is mapped by `ioremap` and copied past the
cache, and there nothing is synchronized.

What the DSP finds and what the user gets was told without a cache (`sharedContents`,
`unsharedContents`). Here is when a host with a cache does just that.
-/

namespace Xrp.Exchange

open Kernel

namespace Coherence

/-- The memory of the host and its cache, by physical address and line. -/
abbrev HostCache := LineCache ℕ ℕ U8

/-- What happens on the bus while a block is shared. -/
abbrev BusEvent := LineCache.Event ℕ ℕ U8

instance nontrivial_u8 : Nontrivial U8 := ⟨0, 1, by decide⟩

section Model

variable (width : ℕ)

/-- The line of an address. -/
def lineOf (a : ℕ) : ℕ := a / width

/-- The lines that cache operations on a range work on. -/
def linesOf (phys size : ℕ) : Finset ℕ := (Finset.range size).image fun k => lineOf width (phys + k)

/-- `clean_cache`. -/
def cleanCache (phys size : ℕ) (c : HostCache) : HostCache :=
  c.writeBack (lineOf width) (linesOf width phys size)

/-- `flush_cache`. -/
def flushCache (phys size : ℕ) (c : HostCache) : HostCache :=
  (c.writeBack (lineOf width) (linesOf width phys size)).invalidate (linesOf width phys size)

/-- `_xrp_copy_user_phys` to memory; `pages` is `pfn_valid`. The host copies through the cache and
then calls `dma_sync_single_for_device`, or it copies past the cache. -/
def copyToPhys (pages : Bool) (phys size : ℕ) (user : ℕ → U8) (c : HostCache) : HostCache :=
  if pages then
    (c.run (lineOf width) ((List.range size).map fun k => .write (phys + k) (user k))).writeBack
      (lineOf width) (linesOf width phys size)
  else c.run (lineOf width) ((List.range size).map fun k => .store (phys + k) (user k))

/-- `_xrp_copy_user_phys` from there: the host calls `dma_sync_single_for_cpu` and then reads
through the cache, or it reads past the cache. -/
def copyFromPhys (pages : Bool) (phys size : ℕ) (c : HostCache) (k : ℕ) : U8 :=
  if pages then (c.invalidate (linesOf width phys size)).view (lineOf width) (phys + k)
  else c.memory (phys + k)

variable (pages : Bool) (m : XrpMapping) (flags : U32)

/-- What `__xrp_share_block` does to the cache. -/
def shareBlock (phys size : ℕ) (user : ℕ → U8) (c : HostCache) : HostCache :=
  if IsCopy m then
    if flags &&& flagRead ≠ 0 then copyToPhys width pages phys size user c else c
  else if flags &&& flagWrite ≠ 0 then flushCache width phys size c
  else if flags &&& flagRead ≠ 0 then cleanCache width phys size c
  else c

/-- What the user reads after `__xrp_unshare_block`. -/
def unshareBlock (phys size : ℕ) (user : ℕ → U8) (c : HostCache) (k : ℕ) : U8 :=
  if IsCopy m then
    if flags &&& flagWrite ≠ 0 then copyFromPhys width pages phys size c k else user k
  else c.view (lineOf width) (phys + k)

end Model

/-- A block that is shared with given flags, the user's contents of it, whether the memory has
`struct page`s, and the host before. A block that is shared as it is has its contents in the memory
and the cache of the host, where the copies in the cache are not older than memory. -/
structure Sharing (m : XrpMapping) (flags : U32) : Type where
  width : ℕ
  pages : Bool
  phys : ℕ
  size : ℕ
  user : ℕ → U8
  host : HostCache
  direct : ¬ IsCopy m →
    host.Coherent (lineOf width) (linesOf width phys size) ∧
      ∀ k < size, user k = host.view (lineOf width) (phys + k)

namespace Sharing

variable {m : XrpMapping} {flags : U32} (s : Sharing m flags)

/-- The lines of the block. -/
def lines : Finset ℕ := linesOf s.width s.phys s.size

/-- The host after `__xrp_share_block` and what happens then. -/
def after (t : List BusEvent) : HostCache :=
  (shareBlock s.width s.pages m flags s.phys s.size s.user s.host).run (lineOf s.width) t

/-- What was in the memory of the pool. -/
def pool (k : ℕ) : U8 := s.host.memory (s.phys + k)

/-- What the DSP leaves in the block. -/
def left (t : List BusEvent) (k : ℕ) : U8 :=
  LineCache.lastStored t (s.phys + k) (sharedContents m flags s.user s.pool k)

/-- The user does not write to the lines of the block. -/
def Apart (h : List (LineCache.Event ℕ ℕ Unit)) : Prop :=
  ∀ e ∈ h, e.Apart (lineOf s.width) s.lines

/-- Whatever the DSP writes, it finds in the block what it should, and so does the user after
`__xrp_unshare_block` with flags `flags'`. -/
def Transparent (flags' : U32) (h : List (LineCache.Event ℕ ℕ Unit)) : Prop :=
  ∀ t : List BusEvent, t.map LineCache.Event.shape = h → ∀ k < s.size,
    (s.after t).memory (s.phys + k) = s.left t k ∧
      unshareBlock s.width s.pages m flags' s.phys s.size s.user (s.after t) k =
        unsharedContents m flags' (userContents m s.user (s.left t)) (s.left t) k

/-! ## Shared as it is -/

theorem mem_linesOf {width phys size k : ℕ} (lt : k < size) :
    lineOf width (phys + k) ∈ linesOf width phys size :=
  Finset.mem_image_of_mem _ (Finset.mem_range.mpr lt)

variable {s} {flags' : U32} {h : List (LineCache.Event ℕ ℕ Unit)} {t : List BusEvent} {k : ℕ}

/-- Without a copy the user has what the DSP left. -/
theorem unsharedContents_of_not_copy {user left : ℕ → U8} (direct : ¬ IsCopy m) :
    unsharedContents m flags' (userContents m user left) left = left := by
  unfold unsharedContents xrpWritebackAlienMapping userContents
  split_ifs with writes copy
  · rfl
  · rfl
  · rfl

theorem sharedContents_of_not_copy {user pool : ℕ → U8} (direct : ¬ IsCopy m) :
    sharedContents m flags user pool = user := if_neg direct

theorem shareBlock_flush (direct : ¬ IsCopy m) (writes : flags &&& flagWrite ≠ 0) :
    shareBlock s.width s.pages m flags s.phys s.size s.user s.host =
      flushCache s.width s.phys s.size s.host := by
  rw [shareBlock, if_neg direct, if_pos writes]

/-- The DSP finds what was there, and then what it writes. -/
theorem memory_after_flush (direct : ¬ IsCopy m) (writes : flags &&& flagWrite ≠ 0)
    (apart : ∀ e ∈ t, e.Apart (lineOf s.width) s.lines) (lt : k < s.size) :
    (s.after t).memory (s.phys + k) = s.left t k := by
  obtain ⟨coherent, user⟩ := s.direct direct
  have inside : lineOf s.width (s.phys + k) ∈ s.lines := mem_linesOf lt
  have before : (flushCache s.width s.phys s.size s.host).memory (s.phys + k) = s.user k := by
    rw [user k lt]
    exact LineCache.memory_writeBack coherent inside
  have settled : (flushCache s.width s.phys s.size s.host).Settled s.lines :=
    LineCache.settled_invalidate
  rw [after, shareBlock_flush direct writes, LineCache.memory_run settled apart inside, before,
    left, sharedContents_of_not_copy direct]

/-- **Memory that is shared as it is.** The user gets what the DSP wrote if and only if no byte of
the block has a stale copy in the end: one that the DSP wrote to while its line was in the cache,
where the line has stayed since. -/
theorem transparent_direct_iff (direct : ¬ IsCopy m) (writes : flags &&& flagWrite ≠ 0)
    (apart : s.Apart h) :
    s.Transparent flags' h ↔
      ∀ k < s.size, LineCache.copyAfter (lineOf s.width) h (s.phys + k) ≠ .stale := by
  have absent (k : ℕ) (lt : k < s.size) :
      (flushCache s.width s.phys s.size s.host).state (lineOf s.width (s.phys + k)) = .absent :=
    LineCache.state_invalidate (mem_linesOf lt)
  have reads (t : List BusEvent) (shape : t.map LineCache.Event.shape = h) (k : ℕ)
      (lt : k < s.size) :
      ((s.after t).memory (s.phys + k) = s.left t k ∧
        unshareBlock s.width s.pages m flags' s.phys s.size s.user (s.after t) k =
          unsharedContents m flags' (userContents m s.user (s.left t)) (s.left t) k) ↔
      ((flushCache s.width s.phys s.size s.host).run (lineOf s.width) t).view (lineOf s.width)
          (s.phys + k) =
        ((flushCache s.width s.phys s.size s.host).run (lineOf s.width) t).memory (s.phys + k) := by
    have memory : (s.after t).memory (s.phys + k) = s.left t k :=
      memory_after_flush direct writes (LineCache.apart_of_shape (shape ▸ apart)) lt
    have same : s.after t = (flushCache s.width s.phys s.size s.host).run (lineOf s.width) t := by
      rw [after, shareBlock_flush direct writes]
    rw [unsharedContents_of_not_copy direct, ← memory, and_iff_right rfl, unshareBlock,
      if_neg direct, same]
  constructor
  · intro transparent k lt
    rw [← LineCache.view_eq_memory_iff (α := U8) (absent k lt) apart (mem_linesOf lt)]
    exact fun t shape => (reads t shape k lt).mp (transparent t shape k lt)
  · intro fresh t shape k lt
    rw [reads t shape k lt]
    exact (LineCache.view_eq_memory_iff (absent k lt) apart (mem_linesOf lt)).mpr (fresh k lt) t
      shape

/-- A host with an empty cache. -/
def emptyCache : HostCache := ⟨fun _ => 0, fun _ => 0, fun _ => .absent⟩

theorem coherent_emptyCache (width phys size : ℕ) :
    emptyCache.Coherent (lineOf width) (linesOf width phys size) :=
  fun _ _ _ => rfl

theorem view_emptyCache (width phys : ℕ) (k : ℕ) :
    (0 : U8) = emptyCache.view (lineOf width) (phys + k) := rfl

/-- Four bytes of a line, shared as they are. -/
def fourBytes : Sharing nativeMapping flagWrite where
  width := 32
  pages := true
  phys := 32
  size := 4
  user _ := 0
  host := emptyCache
  direct _ := ⟨coherent_emptyCache 32 32 4, fun k _ => view_emptyCache 32 32 k⟩

/-- The line comes into the cache after the DSP has written, or before. -/
theorem transparent_direct_iff_fourBytes :
    fourBytes.Transparent flagWrite [.store 33 (), .fill 1] ∧
      ¬ fourBytes.Transparent flagWrite [.fill 1, .store 33 ()] := by
  have apart (h : List (LineCache.Event ℕ ℕ Unit)) (quiet : ∀ a v, .write a v ∉ h) :
      fourBytes.Apart h := by
    intro e member
    cases e with
    | write a v => exact absurd member (quiet a v)
    | _ => trivial
  rw [transparent_direct_iff (by decide) (by decide) (apart _ (by simp)),
    transparent_direct_iff (by decide) (by decide) (apart _ (by simp))]
  decide

/-! ## Shadow copies -/

/-- After the host has copied, every line of the copy is dirty. -/
theorem copied (width phys : ℕ) (user : ℕ → U8) (c : HostCache) {size : ℕ} (lt : k < size) :
    (c.run (lineOf width) ((List.range size).map fun k => .write (phys + k) (user k))).state
        (lineOf width (phys + k)) = .dirty ∧
      (c.run (lineOf width) ((List.range size).map fun k => .write (phys + k) (user k))).data
        (phys + k) = user k := by
  induction size with
  | zero => exact absurd lt (Nat.not_lt_zero k)
  | succ n ih =>
    rw [List.range_succ, List.map_append, List.map_singleton, LineCache.run_concat]
    by_cases last : k = n
    · subst last
      exact ⟨if_pos rfl, if_pos rfl⟩
    · obtain ⟨dirty, data⟩ := ih (by omega)
      refine ⟨?_, ?_⟩
      · dsimp only [LineCache.step, LineCache.write]
        split_ifs
        · rfl
        · exact dirty
      · dsimp only [LineCache.step, LineCache.write, LineCache.fill]
        rw [if_neg (by omega), if_neg, data]
        rintro ⟨same, absent⟩
        rw [← same, dirty] at absent
        cases absent

/-- What the host copies past the cache leaves the cache as it is. -/
theorem copiedPast (width phys size : ℕ) (user : ℕ → U8) (c : HostCache) :
    (copyToPhys width false phys size user c).state = c.state ∧
      (copyToPhys width false phys size user c).data = c.data ∧
      ∀ k < size, (copyToPhys width false phys size user c).memory (phys + k) = user k := by
  induction size with
  | zero => exact ⟨rfl, rfl, fun k lt => absurd lt (Nat.not_lt_zero k)⟩
  | succ n ih =>
    simp only [copyToPhys, Bool.false_eq_true, if_false] at ih ⊢
    rw [List.range_succ, List.map_append, List.map_singleton, LineCache.run_concat]
    obtain ⟨state, data, memory⟩ := ih
    refine ⟨state, data, fun k lt => ?_⟩
    dsimp only [LineCache.step, LineCache.store]
    by_cases last : k = n
    · rw [if_pos (by rw [last]), last]
    · rw [if_neg (by omega)]
      exact memory k (by omega)

theorem memory_copyToPhys {width phys size : ℕ} {user : ℕ → U8} {c : HostCache} (pages : Bool)
    (lt : k < size) : (copyToPhys width pages phys size user c).memory (phys + k) = user k := by
  cases pages with
  | true =>
    obtain ⟨dirty, data⟩ := copied width phys user c lt
    exact (if_pos ⟨mem_linesOf lt, dirty⟩).trans data
  | false => exact (copiedPast width phys size user c).2.2 k lt

/-- None of its lines is dirty when a copy is shared, or the cache is synchronized then. -/
def Clean (s : Sharing m flags) : Prop :=
  s.pages = true ∧ flags &&& flagRead ≠ 0 ∨ s.host.Settled s.lines

theorem settled_copyToPhys (clean : s.Clean) :
    (copyToPhys s.width s.pages s.phys s.size s.user s.host).Settled s.lines := by
  cases pages : s.pages with
  | true => exact LineCache.settled_writeBack
  | false =>
    have settled : s.host.Settled s.lines := by
      refine clean.resolve_left fun both => ?_
      rw [pages] at both
      exact Bool.false_ne_true both.1
    intro l inside
    rw [(copiedPast s.width s.phys s.size s.user s.host).1]
    exact settled l inside

/-- A clean copy is left to the DSP. -/
theorem memory_after_copy (copy : IsCopy m) (clean : s.Clean)
    (apart : ∀ e ∈ t, e.Apart (lineOf s.width) s.lines) (lt : k < s.size) :
    (s.after t).memory (s.phys + k) = s.left t k := by
  have inside : lineOf s.width (s.phys + k) ∈ s.lines := mem_linesOf lt
  by_cases reads : flags &&& flagRead ≠ 0
  · rw [after, shareBlock, if_pos copy, if_pos reads,
      LineCache.memory_run (settled_copyToPhys clean) apart inside,
      memory_copyToPhys s.pages lt, left, sharedContents, if_pos copy, if_pos reads]
  · have settled : s.host.Settled s.lines := clean.resolve_left fun both => reads both.2
    rw [after, shareBlock, if_pos copy, if_neg reads, LineCache.memory_run settled apart inside,
      left, sharedContents, if_pos copy, if_neg reads]
    rfl

/-- Unless it is clean, the cache is the same after a copy is shared. -/
theorem shareBlock_unclean (copy : IsCopy m)
    (unclean : ¬ (s.pages = true ∧ flags &&& flagRead ≠ 0)) :
    (shareBlock s.width s.pages m flags s.phys s.size s.user s.host).state = s.host.state ∧
      (shareBlock s.width s.pages m flags s.phys s.size s.user s.host).data = s.host.data := by
  rw [shareBlock, if_pos copy]
  split_ifs with reads
  · have pages : s.pages = false := by
      by_contra pages
      exact unclean ⟨Bool.eq_true_of_not_eq_false pages, reads⟩
    obtain ⟨state, data, -⟩ := copiedPast s.width s.phys s.size s.user s.host
    rw [pages]
    exact ⟨state, data⟩
  · exact ⟨rfl, rfl⟩

theorem isCopy_copyMapping : IsCopy (copyMapping 0 0 4) := by decide

/-- **Shadow copies.** The DSP finds the user's data and the user gets what the DSP wrote, whatever
comes into the cache and leaves it, if and only if the copy is to be read and has `struct page`s, or
none of its lines is dirty when it is shared. -/
theorem transparent_copy_iff (copy : IsCopy m) (writes : flags' &&& flagWrite ≠ 0) :
    (∀ h, s.Apart h → s.Transparent flags' h) ↔
      s.pages = true ∧ flags &&& flagRead ≠ 0 ∨ s.host.Settled s.lines := by
  constructor
  · intro transparent
    by_contra unclean
    obtain ⟨unsynchronized, unsettled⟩ := not_or.mp unclean
    obtain ⟨l, inside, dirty⟩ : ∃ l ∈ s.lines, s.host.state l = .dirty := by
      simpa [LineCache.Settled] using unsettled
    obtain ⟨k, member, rfl⟩ := Finset.mem_image.mp inside
    have lt : k < s.size := Finset.mem_range.mp member
    obtain ⟨v, differs⟩ := exists_ne (s.host.data (s.phys + k))
    -- the DSP writes, and then the host writes its line back over it
    let t : List BusEvent := [.store (s.phys + k) v, .evict (lineOf s.width (s.phys + k))]
    have apart : s.Apart (t.map LineCache.Event.shape) := by
      simp [t, Apart, LineCache.Event.shape, LineCache.Event.Apart]
    have found := (transparent _ apart t rfl k lt).1
    obtain ⟨state, data⟩ := shareBlock_unclean copy unsynchronized
    have lost : (s.after t).memory (s.phys + k) = s.host.data (s.phys + k) := by
      rw [← state] at dirty
      exact (if_pos ⟨rfl, dirty⟩).trans (congrFun data _)
    have wrote : s.left t k = v := if_pos rfl
    rw [lost, wrote] at found
    exact differs found.symm
  · intro clean h apart t shape k lt
    have memory : (s.after t).memory (s.phys + k) = s.left t k :=
      memory_after_copy copy clean (LineCache.apart_of_shape (shape ▸ apart)) lt
    have read : copyFromPhys s.width s.pages s.phys s.size (s.after t) k =
        (s.after t).memory (s.phys + k) := by
      cases s.pages with
      | true => exact LineCache.view_invalidate (mem_linesOf lt)
      | false => rfl
    refine ⟨memory, ?_⟩
    rw [unshareBlock, if_pos copy, if_pos writes, read, memory, unsharedContents,
      if_pos ⟨copy.1, writes⟩, xrpWritebackAlienMapping, if_pos copy.2]

/-- Four bytes of a line that is dirty, as a copy. -/
def fourBytesCopied (pages : Bool) (flags : U32) : Sharing (copyMapping 0 0 4) flags where
  width := 32
  pages := pages
  phys := 32
  size := 4
  user _ := 1
  host := ⟨fun _ => 0, fun _ => 0, fun _ => .dirty⟩
  direct direct := absurd isCopy_copyMapping direct

/-- A copy that is only written is not safe from the old contents of the line, nor is one without
`struct page`s. -/
theorem transparent_copy_iff_fourBytes :
    (∀ h, (fourBytesCopied true flagReadWrite).Apart h →
        (fourBytesCopied true flagReadWrite).Transparent flagWrite h) ∧
      (¬ ∀ h, (fourBytesCopied true flagWrite).Apart h →
        (fourBytesCopied true flagWrite).Transparent flagWrite h) ∧
      ¬ ∀ h, (fourBytesCopied false flagReadWrite).Apart h →
        (fourBytesCopied false flagReadWrite).Transparent flagWrite h := by
  rw [transparent_copy_iff isCopy_copyMapping (by decide),
    transparent_copy_iff isCopy_copyMapping (by decide),
    transparent_copy_iff isCopy_copyMapping (by decide)]
  refine ⟨.inl ⟨rfl, by decide⟩, ?_, ?_⟩
  · rintro (⟨-, reads⟩ | settled)
    · exact absurd reads (by decide)
    · exact settled 1 (by decide) rfl
  · rintro (⟨pages, -⟩ | settled)
    · exact Bool.false_ne_true pages
    · exact settled 1 (by decide) rfl

end Sharing

end Coherence

end Xrp.Exchange
