import Xrp.Kernel.Alloc

/-!
# Copies between user memory and physical memory

`_xrp_copy_user_phys` of `xvp_main.c`. Physical memory with `struct page`s is copied page by page
through `kmap`, other physical memory at once through `ioremap`. The model lists the calls of
`copy_from_user` or `copy_to_user` that are made; the system decides which of them fail.
-/

namespace Xrp.Kernel

/-- One call of `copy_from_user` or `copy_to_user`. -/
structure UserCopy : Type where
  user : ULong
  phys : ℕ
  len : ℕ
  deriving DecidableEq

/-- What the system decides. -/
structure CopySystem : Type where
  pfnValid : ℕ → Bool
  /-- Whether `kmap` of a page succeeds. -/
  kmap : ℕ → Bool
  /-- Whether `ioremap` of an address and a size succeeds. -/
  ioremap : ULong → ULong → Bool
  /-- Whether a copy, to physical memory or from there, faults. -/
  fault : Bool → UserCopy → Bool

section Model

variable (sys : CopySystem) (toPhys : Bool)

/-- The loop over the pages; `pageOffs` is an offset in the page. -/
def copyPages (vaddr : ULong) (size page : ℕ) (pageOffs : Fin 4096) (offs : ℕ) :
    Except Errno Unit × List UserCopy :=
  if offs < size then
    if sys.kmap page then
      let copySz := min (4096 - pageOffs.val) (size - offs)
      let copy : UserCopy := ⟨vaddr + .ofNat 64 offs, page * 4096 + pageOffs.val, copySz⟩
      if sys.fault toPhys copy then (.error .efault, [copy])
      else
        let rest := copyPages vaddr size (page + 1) 0 (offs + copySz)
        (rest.1, copy :: rest.2)
    else (.error .enomem, [])
  else (.ok (), [])
termination_by size - offs
decreasing_by omega

/-- `_xrp_copy_user_phys`. -/
def xrpCopyUserPhys (vaddr size paddr : ULong) : Except Errno Unit × List UserCopy :=
  if sys.pfnValid (paddr.toNat / 4096) then
    copyPages sys toPhys vaddr size.toNat (paddr.toNat / 4096) (Fin.ofNat 4096 paddr.toNat) 0
  else if sys.ioremap paddr size then
    let copy : UserCopy := ⟨vaddr, paddr.toNat, size.toNat⟩
    (if sys.fault toPhys copy then .error .efault else .ok (), [copy])
  else (.error .einval, [])

end Model

/-! ## What a copy touches -/

section Touched

variable {sys : CopySystem} {toPhys : Bool} {vaddr : ULong} {copy : UserCopy}

theorem offs_lt_of_mem_copyPages {size page : ℕ} {pageOffs : Fin 4096} {offs : ℕ}
    (member : copy ∈ (copyPages sys toPhys vaddr size page pageOffs offs).2) : offs < size := by
  by_contra done
  rw [copyPages, if_neg done] at member
  cases member

/-- The pages that are copied follow each other, and only the first one is entered inside. -/
theorem mem_copyPages {size page : ℕ} {pageOffs : Fin 4096} {offs : ℕ}
    (member : copy ∈ (copyPages sys toPhys vaddr size page pageOffs offs).2) :
    page * 4096 + pageOffs.val ≤ copy.phys ∧
      copy.phys + copy.len + offs ≤ page * 4096 + pageOffs.val + size := by
  fun_induction copyPages sys toPhys vaddr size page pageOffs offs with
  | case1 page pageOffs offs more mapped copySz chunk fault =>
    rw [List.mem_singleton.mp member]
    dsimp only [chunk, copySz]
    omega
  | case2 page pageOffs offs more mapped copySz chunk fine rest ih =>
    rcases List.mem_cons.mp member with rfl | later
    · dsimp only [chunk, copySz]
      omega
    · have after := ih later
      -- there is a next page only if this one was left at its end
      have more' : offs + copySz < size := offs_lt_of_mem_copyPages later
      have taken : copySz = min (4096 - pageOffs.val) (size - offs) := rfl
      rw [show (0 : Fin 4096).val = 0 from rfl, Nat.add_zero, Nat.succ_mul] at after
      omega
  | case3 page pageOffs offs more unmapped => cases member
  | case4 page pageOffs offs done => cases member

/-- A copy touches no physical memory but its range. -/
theorem mem_xrpCopyUserPhys {size paddr : ULong}
    (member : copy ∈ (xrpCopyUserPhys sys toPhys vaddr size paddr).2) :
    paddr.toNat ≤ copy.phys ∧ copy.phys + copy.len ≤ paddr.toNat + size.toNat := by
  unfold xrpCopyUserPhys at member
  split_ifs at member with valid mapped
  · have inside := mem_copyPages member
    have split : paddr.toNat / 4096 * 4096 + (Fin.ofNat 4096 paddr.toNat).val = paddr.toNat :=
      Nat.div_add_mod' paddr.toNat 4096
    omega
  · rw [List.mem_singleton.mp member]
    exact ⟨le_rfl, le_rfl⟩
  · cases member

end Touched

end Xrp.Kernel
