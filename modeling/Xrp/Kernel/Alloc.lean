import Xrp.Base.Extent

/-!
# The private allocation pool

`xrp-kernel/xrp_alloc.c`: a pool of physical memory with a linked free list.
The list is a `List` of blocks in list order; a list node carries `phys_addr_t`
and `u32` fields, so every sum below wraps where the C expression does. The
width `w` of `phys_addr_t` is a parameter: 32 in the userspace build, 64 in a
64-bit kernel.
-/

namespace Xrp

/-- `u32`. -/
abbrev U32 := BitVec 32

/-- `unsigned long` and `phys_addr_t` of a 64-bit kernel. -/
abbrev ULong := BitVec 64

/-- The error codes the driver returns, without their sign. -/
inductive Errno
  | einval
  | enomem
  | efault
  | enodev
  | ebusy
  | enxio
  | erestartsys
  deriving DecidableEq, Repr

namespace Kernel

variable {w : ℕ}

/-- `PAGE_SIZE`. -/
def pageSize : U32 := 4096

/-- `PAGE_SHIFT`. -/
def pageShift : ℕ := 12

/-- `ALIGN(v, a)`; the kernel's macro converts `a` to the type of `v` first. -/
def ALIGN (v a : BitVec w) : BitVec w := (v + a - 1) &&& -a

/-- The `start` and `size` fields of a `struct xrp_allocation`. -/
@[ext] structure Block (w : ℕ) : Type where
  start : BitVec w
  size : U32
  deriving DecidableEq, Repr

/-- A `struct xrp_allocation` in the hands of a client, with its reference count. -/
@[ext] structure XrpAllocation (w : ℕ) : Type extends Block w where
  ref : U32
  deriving DecidableEq, Repr

/-- `struct xrp_private_pool`. -/
@[ext] structure XrpPrivatePool (w : ℕ) : Type where
  start : BitVec w
  size : U32
  freeList : List (Block w)
  deriving DecidableEq, Repr

namespace Block

/-- `start + size`, as the code computes it. -/
def tail (b : Block w) : BitVec w := b.start + b.size.setWidth w

/-- The addresses of a block, computed without wrap-around. -/
def extent (b : Block w) : Extent := ⟨b.start.toNat, b.size.toNat⟩

/-- The block does not pass the end of the address space. -/
def Fits (b : Block w) : Prop := b.extent.stop ≤ 2 ^ w

end Block

/-! ## Freeing -/

/-- The loop of `xrp_private_free`, from the node `*pcur` on. -/
def xrpPrivateFreeLoop (xrpAllocation : Block w) : List (Block w) → List (Block w)
  | [] => [xrpAllocation]
  | cur :: next =>
    if cur.tail = xrpAllocation.start then
      let cur : Block w := ⟨cur.start, cur.size + xrpAllocation.size⟩
      match next with
      | [] => [cur]
      | node :: rest =>
        if cur.tail = node.start then ⟨cur.start, cur.size + node.size⟩ :: rest
        else cur :: node :: rest
    else if xrpAllocation.start < cur.start then
      if xrpAllocation.tail = cur.start then
        ⟨xrpAllocation.start, cur.size + xrpAllocation.size⟩ :: next
      else xrpAllocation :: cur :: next
    else cur :: xrpPrivateFreeLoop xrpAllocation next

/-- `xrp_private_free`. -/
def xrpPrivateFree (pool : XrpPrivatePool w) (xrpAllocation : Block w) : XrpPrivatePool w :=
  { pool with freeList := xrpPrivateFreeLoop xrpAllocation pool.freeList }

/-! ## Allocating -/

/-- The locals of `xrp_private_alloc` when its loop breaks: the place found, whether `cur`
and `new` still point to a node the caller may use, and the changed free list. -/
@[ext] structure Found (w : ℕ) : Type where
  alignedStart : BitVec w
  cur : Bool
  new : Bool
  freeList : List (Block w)
  deriving DecidableEq, Repr

/-- The loop of `xrp_private_alloc`, from the node `*pcur` on; `none` when nothing fits. -/
def xrpPrivateAllocLoop (align size : U32) : List (Block w) → Option (Found w)
  | [] => none
  | cur :: next =>
    let alignedStart := ALIGN cur.start (align.setWidth w)
    if cur.start ≤ alignedStart ∧
        alignedStart - cur.start + size.setWidth w ≤ cur.size.setWidth w then
      if alignedStart = cur.start then
        if alignedStart + size.setWidth w = cur.tail then
          -- reusing complete block
          some ⟨alignedStart, true, true, next⟩
        else
          -- cutting block head
          some ⟨alignedStart, false, true,
            ⟨alignedStart + size.setWidth w,
              cur.size - (alignedStart + size.setWidth w - cur.start).setWidth 32⟩ :: next⟩
      else if alignedStart + size.setWidth w = cur.tail then
        -- cutting block tail
        some ⟨alignedStart, false, true,
          ⟨cur.start, (alignedStart - cur.start).setWidth 32⟩ :: next⟩
      else
        -- splitting block into two, `new` becomes the second one
        some ⟨alignedStart, false, false,
          ⟨cur.start, (alignedStart - cur.start).setWidth 32⟩ ::
            ⟨alignedStart + size.setWidth w,
              (cur.tail - (alignedStart + size.setWidth w)).setWidth 32⟩ :: next⟩
    else (xrpPrivateAllocLoop align size next).map fun found =>
      { found with freeList := cur :: found.freeList }

/-- `xrp_private_alloc`. `kzalloc` says whether the call of `kzalloc` before the loop
succeeds, `kzallocAgain` whether the one after it does, if it is made. -/
def xrpPrivateAlloc (kzalloc kzallocAgain : Bool) (pool : XrpPrivatePool w)
    (size align : U32) : Except Errno (XrpAllocation w) × XrpPrivatePool w :=
  if size = 0 ∨ align &&& (align - 1) ≠ 0 then (.error .einval, pool)
  else
    let align := if align = 0 then 1 else align
    if !kzalloc then (.error .enomem, pool)
    else
      let align := ALIGN align pageSize
      let size := ALIGN size pageSize
      match xrpPrivateAllocLoop align size pool.freeList with
      | none => (.error .enomem, pool)
      | some found =>
        let pool := { pool with freeList := found.freeList }
        -- a split leaves neither `cur` nor `new` for the caller
        if !found.cur && !found.new && !kzallocAgain then (.error .enomem, pool)
        else (.ok ⟨⟨found.alignedStart, size⟩, 1⟩, pool)

/-- `xrp_init_private_pool`, with both calls of `kmalloc` succeeding. -/
def xrpInitPrivatePool (start : BitVec w) (size : U32) : XrpPrivatePool w :=
  ⟨start, size, [⟨start, size⟩]⟩

end Kernel

end Xrp
