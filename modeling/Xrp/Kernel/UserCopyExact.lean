import Xrp.Base.Blit
import Xrp.Interface
import Xrp.Kernel.UserCopy

/-!
# What copies between user memory and physical memory do

The effect of the calls that `_xrp_copy_user_phys` makes, for calls that succeed. User memory and
physical memory are separate: nothing is said about user memory that is mapped to the physical range
itself.

Two calls whose ranges touch act as one. So the loop over the pages acts as the single call of the
other path, and everything else is read off from one call.
-/

namespace Xrp.Kernel

/-- The memory of a process, and physical memory. -/
structure Memories : Type where
  user : ULong → U8
  phys : ℕ → U8

namespace UserCopy

/-- The block that a call of `copy_from_user` writes. -/
def blit (copy : UserCopy) (user : ULong → U8) : Blit U8 :=
  ⟨copy.phys, copy.len, fun i => user (copy.user + .ofNat 64 i)⟩

/-- The distance of a user address from the start of the user range. -/
def distance (copy : UserCopy) (u : ULong) : ℕ := (u - copy.user).toNat

/-- User memory after a call of `copy_to_user`. -/
def userAfter (copy : UserCopy) (m : Memories) (u : ULong) : U8 :=
  if copy.distance u < copy.len then m.phys (copy.phys + copy.distance u) else m.user u

/-- What a call does: `copy_from_user` for a copy to physical memory, else `copy_to_user`. -/
def act (toPhys : Bool) (copy : UserCopy) (m : Memories) : Memories :=
  if toPhys then { m with phys := (copy.blit m.user).apply m.phys }
  else { m with user := copy.userAfter m }

/-- What calls do, one after another. -/
def actAll (toPhys : Bool) (copies : List UserCopy) (m : Memories) : Memories :=
  copies.foldl (fun m copy => copy.act toPhys m) m

variable {toPhys : Bool} {copy : UserCopy} {copies : List UserCopy} {m : Memories}

@[simp] theorem actAll_nil : actAll toPhys [] m = m := rfl

@[simp] theorem actAll_cons :
    actAll toPhys (copy :: copies) m = actAll toPhys copies (copy.act toPhys m) := rfl

/-! ## Calls that touch -/

theorem act_of_len_eq_zero (empty : copy.len = 0) : copy.act toPhys m = m := by
  cases toPhys with
  | true =>
    have same : (copy.blit m.user).apply m.phys = m.phys := Blit.apply_of_size_eq_zero empty
    rw [act, if_pos rfl, same]
  | false =>
    have same : copy.userAfter m = m.user := by
      funext u
      exact if_neg (by omega)
    rw [act, if_neg nofun, same]

/-- The distance from a later start, for an address from there on and for one before it. -/
theorem distance_add (u x : ULong) {n : ℕ} (small : n ≤ 2 ^ 64) (p q k l : ℕ) :
    (n ≤ distance ⟨x, p, k⟩ u →
      distance ⟨x + .ofNat 64 n, q, l⟩ u = distance ⟨x, p, k⟩ u - n) ∧
    (distance ⟨x, p, k⟩ u < n → 2 ^ 64 - n ≤ distance ⟨x + .ofNat 64 n, q, l⟩ u) := by
  have apart : u - (x + .ofNat 64 n) = u - x - .ofNat 64 n := (sub_sub u x _).symm
  unfold distance
  dsimp only
  rw [apart]
  generalize u - x = d
  have isLt := d.isLt
  rw [BitVec.toNat_sub, BitVec.toNat_ofNat]
  omega

/-- Two calls whose ranges touch are one call. -/
theorem act_act {x : ULong} {p n k : ℕ} (fits : n + k ≤ 2 ^ 64) :
    (mk (x + .ofNat 64 n) (p + n) k).act toPhys ((mk x p n).act toPhys m) =
      (mk x p (n + k)).act toPhys m := by
  cases toPhys with
  | true =>
    have index (i : ℕ) : x + .ofNat 64 n + .ofNat 64 i = x + .ofNat 64 (n + i) := by
      rw [BitVec.ofNat_add, add_assoc]
    simp only [act, if_true, blit, index]
    rw [Blit.apply_apply_adjacent fun i => m.user (x + .ofNat 64 i)]
  | false =>
    simp only [act, Bool.false_eq_true, if_false, Memories.mk.injEq, and_true]
    funext u
    have later := distance_add u x (Nat.le_of_add_right_le fits) p (p + n) n k
    have whole : distance ⟨x, p, n + k⟩ u = distance ⟨x, p, n⟩ u := rfl
    simp only [userAfter, whole]
    generalize distance ⟨x, p, n⟩ u = d at later ⊢
    generalize distance ⟨x + .ofNat 64 n, p + n, k⟩ u = e at later ⊢
    rcases Nat.lt_or_ge d n with before | beyond
    · have outside := later.2 before
      rw [if_neg (by omega), if_pos before, if_pos (by omega)]
    · rw [later.1 beyond, if_neg (Nat.not_lt.mpr beyond)]
      have within : d - n < k ↔ d < n + k := by omega
      have place : p + n + (d - n) = p + d := by omega
      simp only [within, place]

/-! ## One call -/

/-- The bytes of the physical range are those of the user range; nothing else is changed. -/
structure ToPhys (copy : UserCopy) (m m' : Memories) : Prop where
  copied : ∀ i < copy.len, m'.phys (copy.phys + i) = m.user (copy.user + .ofNat 64 i)
  others : ∀ a, (a < copy.phys ∨ copy.phys + copy.len ≤ a) → m'.phys a = m.phys a
  user : m'.user = m.user

/-- The bytes of the user range are those of the physical range; nothing else is changed. -/
structure FromPhys (copy : UserCopy) (m m' : Memories) : Prop where
  copied : ∀ i < copy.len, m'.user (copy.user + .ofNat 64 i) = m.phys (copy.phys + i)
  others : ∀ u, (∀ i < copy.len, u ≠ copy.user + .ofNat 64 i) → m'.user u = m.user u
  phys : m'.phys = m.phys

theorem toPhys_act (copy : UserCopy) (m : Memories) : copy.ToPhys m (copy.act true m) where
  copied _ less := Blit.apply_add less
  others _ outside := Blit.apply_outside outside
  user := rfl

theorem fromPhys_act {copy : UserCopy} (small : copy.len ≤ 2 ^ 64) (m : Memories) :
    copy.FromPhys m (copy.act false m) where
  copied i less := by
    have place : copy.distance (copy.user + .ofNat 64 i) = i := by
      rw [distance, add_sub_cancel_left, BitVec.toNat_ofNat, Nat.mod_eq_of_lt (by omega)]
    change copy.userAfter m (copy.user + .ofNat 64 i) = _
    rw [userAfter, place, if_pos less]
  others u outside := by
    refine if_neg fun inside => outside _ inside ?_
    rw [distance, BitVec.ofNat_toNat, BitVec.setWidth_eq, add_sub_cancel]
  phys := rfl

/-- The call stays inside one page. -/
def InPage (copy : UserCopy) : Prop :=
  ∃ page, page * 4096 ≤ copy.phys ∧ copy.phys + copy.len ≤ (page + 1) * 4096

end UserCopy

/-! ## The loop over the pages -/

/-- Pages and I/O memory can be mapped, and no access to user memory faults. -/
structure CopySystem.Succeeds (sys : CopySystem) : Prop where
  kmap : ∀ page, sys.kmap page = true
  ioremap : ∀ paddr size, sys.ioremap paddr size = true
  access : ∀ toPhys copy, sys.fault toPhys copy = false

section Loop

variable {sys : CopySystem} {toPhys : Bool} {vaddr : ULong}

theorem inPage_of_mem_copyPages {size page : ℕ} {pageOffs : Fin 4096} {offs : ℕ} {copy : UserCopy}
    (member : copy ∈ (copyPages sys toPhys vaddr size page pageOffs offs).2) : copy.InPage := by
  fun_induction copyPages sys toPhys vaddr size page pageOffs offs with
  | case1 page pageOffs offs more mapped copySz chunk fault =>
    rw [List.mem_singleton.mp member]
    refine ⟨page, Nat.le_add_right _ _, ?_⟩
    rw [Nat.succ_mul]
    dsimp only [chunk, copySz]
    omega
  | case2 page pageOffs offs more mapped copySz chunk fine rest ih =>
    rcases List.mem_cons.mp member with rfl | later
    · refine ⟨page, Nat.le_add_right _ _, ?_⟩
      rw [Nat.succ_mul]
      dsimp only [chunk, copySz]
      omega
    · exact ih later
  | case3 page pageOffs offs more unmapped => cases member
  | case4 page pageOffs offs done => cases member

/-- The loop acts as one call for what is left. -/
theorem actAll_copyPages (works : sys.Succeeds) (toPhys : Bool) (vaddr : ULong) (page : ℕ)
    (pageOffs : Fin 4096) {size offs : ℕ} (le : offs ≤ size) (small : size ≤ 2 ^ 64)
    (m : Memories) :
    (copyPages sys toPhys vaddr size page pageOffs offs).1 = .ok () ∧
      UserCopy.actAll toPhys (copyPages sys toPhys vaddr size page pageOffs offs).2 m =
        (UserCopy.mk (vaddr + .ofNat 64 offs) (page * 4096 + pageOffs.val) (size - offs)).act
          toPhys m := by
  fun_induction copyPages sys toPhys vaddr size page pageOffs offs generalizing m with
  | case1 page pageOffs offs more mapped copySz chunk fault =>
    rw [works.access] at fault
    cases fault
  | case2 page pageOffs offs more mapped copySz chunk fine rest ih =>
    have taken : copySz = min (4096 - pageOffs.val) (size - offs) := rfl
    obtain ⟨ok, acts⟩ := ih (by omega) (chunk.act toPhys m)
    refine ⟨ok, ?_⟩
    rw [UserCopy.actAll_cons, acts]
    by_cases last : copySz = size - offs
    · rw [UserCopy.act_of_len_eq_zero (show size - (offs + copySz) = 0 by omega)]
      dsimp only [chunk]
      rw [last]
    · -- the page was copied to its end, so that the next one starts where this call ended
      have next : (page + 1) * 4096 + (0 : Fin 4096).val =
          page * 4096 + pageOffs.val + copySz := by
        rw [Nat.succ_mul, show (0 : Fin 4096).val = 0 from rfl]
        omega
      have user : vaddr + BitVec.ofNat 64 (offs + copySz) =
          vaddr + .ofNat 64 offs + .ofNat 64 copySz := by
        rw [BitVec.ofNat_add, add_assoc]
      have left : copySz + (size - (offs + copySz)) = size - offs := by omega
      rw [next, user, UserCopy.act_act (by omega), left]
  | case3 page pageOffs offs more unmapped => exact absurd (works.kmap page) unmapped
  | case4 page pageOffs offs done =>
    refine ⟨rfl, ?_⟩
    rw [UserCopy.act_of_len_eq_zero (show size - offs = 0 by omega)]
    rfl

/-- Both paths act as one call. -/
theorem actAll_xrpCopyUserPhys (works : sys.Succeeds) (toPhys : Bool) (vaddr size paddr : ULong)
    (m : Memories) :
    (xrpCopyUserPhys sys toPhys vaddr size paddr).1 = .ok () ∧
      UserCopy.actAll toPhys (xrpCopyUserPhys sys toPhys vaddr size paddr).2 m =
        (UserCopy.mk vaddr paddr.toNat size.toNat).act toPhys m := by
  unfold xrpCopyUserPhys
  by_cases valid : sys.pfnValid (paddr.toNat / 4096)
  · have split : paddr.toNat / 4096 * 4096 + (Fin.ofNat 4096 paddr.toNat).val = paddr.toNat :=
      Nat.div_add_mod' paddr.toNat 4096
    obtain ⟨ok, acts⟩ := actAll_copyPages works toPhys vaddr (paddr.toNat / 4096)
      (Fin.ofNat 4096 paddr.toNat) (Nat.zero_le size.toNat) size.isLt.le m
    rw [if_pos valid]
    refine ⟨ok, acts.trans ?_⟩
    rw [split, BitVec.add_zero, Nat.sub_zero]
  · rw [if_neg valid, if_pos (works.ioremap paddr size)]
    dsimp only
    rw [works.access]
    exact ⟨rfl, rfl⟩

/-- **User copies are exact**, in both directions and on both paths. On the way back it does not
matter what has become of the user buffer in between. -/
theorem xrpCopyUserPhys_exact (works : sys.Succeeds) (vaddr size paddr : ULong) (m : Memories) :
    let range : UserCopy := ⟨vaddr, paddr.toNat, size.toNat⟩
    let there := xrpCopyUserPhys sys true vaddr size paddr
    let back := xrpCopyUserPhys sys false vaddr size paddr
    (there.1 = .ok () ∧ range.ToPhys m (UserCopy.actAll true there.2 m)) ∧
    (back.1 = .ok () ∧ range.FromPhys m (UserCopy.actAll false back.2 m)) ∧
    (sys.pfnValid (paddr.toNat / 4096) = true → ∀ copy ∈ there.2 ++ back.2, copy.InPage) ∧
    ∀ user, ∀ i < size.toNat,
      (UserCopy.actAll false back.2 { UserCopy.actAll true there.2 m with user := user }).user
        (vaddr + .ofNat 64 i) = m.user (vaddr + .ofNat 64 i) := by
  intro range there back
  obtain ⟨okThere, actThere⟩ := actAll_xrpCopyUserPhys works true vaddr size paddr m
  have stored := range.toPhys_act m
  have small : range.len ≤ 2 ^ 64 := size.isLt.le
  refine ⟨⟨okThere, actThere ▸ stored⟩, ?_, ?_, ?_⟩
  · obtain ⟨ok, acts⟩ := actAll_xrpCopyUserPhys works false vaddr size paddr m
    exact ⟨ok, acts ▸ UserCopy.fromPhys_act small m⟩
  · intro valid copy member
    dsimp only [there, back, xrpCopyUserPhys] at member
    rw [if_pos valid, if_pos valid] at member
    exact (List.mem_append.mp member).elim inPage_of_mem_copyPages inPage_of_mem_copyPages
  · intro user i less
    obtain ⟨-, acts⟩ := actAll_xrpCopyUserPhys works false vaddr size paddr
      { UserCopy.actAll true there.2 m with user := user }
    rw [acts, (UserCopy.fromPhys_act small _).copied i less]
    dsimp only
    rw [actThere, stored.copied i less]

/-- A system in which the physical addresses below 16 MiB have `struct page`s. -/
def lowMemory : CopySystem :=
  ⟨fun pfn => pfn < 4096, fun _ => true, fun _ _ => true, fun _ _ => false⟩

theorem lowMemory_succeeds : lowMemory.Succeeds :=
  ⟨fun _ => rfl, fun _ _ => rfl, fun _ _ => rfl⟩

/-- A copy of 9000 bytes that starts in the middle of a page. -/
theorem xrpCopyUserPhys_exact_lowMemory :
    lowMemory.pfnValid (0x1800 / 4096) = true ∧
    (UserCopy.mk 0x123 0x1800 9000).ToPhys ⟨fun u => u.setWidth 8, fun _ => 0⟩
      (UserCopy.actAll true (xrpCopyUserPhys lowMemory true 0x123 9000 0x1800).2
        ⟨fun u => u.setWidth 8, fun _ => 0⟩) :=
  ⟨by decide, (xrpCopyUserPhys_exact lowMemory_succeeds 0x123 9000 0x1800 _).1.2⟩

end Loop

end Xrp.Kernel
