import Mathlib.Logic.Function.Basic
import Mathlib.Data.List.Basic

/-!
# The memory of a `ReaderWriterQueue`

The queue is a circular list of blocks, and each block a circular array. The producer owns the
tail indices and `tailBlock`, the consumer the front indices and `frontBlock`; `localFront` and
`localTail` are what each has last read of the other's.

A `Block *` is a number, in the order of the calls of `make_block`, and `nullptr` is `none`.
A slot is `none` while no element is constructed in it. The template parameter
`MAX_BLOCK_SIZE` has its default value. Indices and sizes are far below 2^64 once the
constructor has chosen them; only there and in `make_block` the arithmetic of `size_t` is kept.
-/
namespace LibcameraStreamer.Moodycamel

variable {α : Type*}

structure Block (α : Type*) where
  front : Nat
  localTail : Nat
  tail : Nat
  localFront : Nat
  next : Option Nat
  data : Nat → Option α
  sizeMask : Nat

structure ReaderWriterQueue (α : Type*) where
  frontBlock : Nat
  tailBlock : Nat
  largestBlockSize : Nat
  /-- The number of blocks that have been made. -/
  allocated : Nat
  block : Nat → Block α

def maxBlockSize : Nat := 512

def makeBlock (capacity : Nat) : Block α where
  front := 0
  localTail := 0
  tail := 0
  localFront := 0
  next := none
  data := fun _ => none
  -- wraps around when `ceilToPow2` has given zero
  sizeMask := (UInt64.ofNat capacity - 1).toNat

namespace ReaderWriterQueue

/-- Assign to members of one block. -/
def modify (q : ReaderWriterQueue α) (a : Nat) (f : Block α → Block α) : ReaderWriterQueue α :=
  { q with block := Function.update q.block a (f (q.block a)) }

section

variable (q : ReaderWriterQueue α) (a : Nat) (f : Block α → Block α)

@[simp] theorem modify_frontBlock : (q.modify a f).frontBlock = q.frontBlock := rfl
@[simp] theorem modify_tailBlock : (q.modify a f).tailBlock = q.tailBlock := rfl
@[simp] theorem modify_allocated : (q.modify a f).allocated = q.allocated := rfl
@[simp] theorem modify_largestBlockSize :
    (q.modify a f).largestBlockSize = q.largestBlockSize := rfl

@[simp] theorem modify_block_self : (q.modify a f).block a = f (q.block a) := by simp [modify]

@[grind =] theorem modify_block (b : Nat) :
    (q.modify a f).block b = if b = a then f (q.block a) else q.block b := by
  simp [modify, Function.update_apply]

@[simp] theorem modify_block_of_ne {a b : Nat} (other : b ≠ a) (f : Block α → Block α) :
    (q.modify a f).block b = q.block b := by simp [modify, other]

end

end ReaderWriterQueue

/-! ## The constructor -/

/-- The bits below the highest one are set, and one is added; `size_t` has 64 bits. -/
def ceilToPow2 (x : UInt64) : UInt64 :=
  let x := x - 1
  let x := x ||| (x >>> 1)
  let x := x ||| (x >>> 2)
  let x := x ||| (x >>> 4)
  let x := ([1, 2, 4] : List UInt64).foldl (fun (x i : UInt64) => x ||| (x >>> (i <<< 3))) x
  x + 1

/-- The blocks that the constructor has made, and its local pointers. -/
structure Building (α : Type*) where
  firstBlock : Option Nat
  lastBlock : Option Nat
  allocated : Nat
  block : Nat → Block α

/-- A round of the constructor's loop, or `none` for `std::bad_alloc`. -/
def Building.addBlock (malloc : Nat → Bool) (capacity : Nat) (b : Building α) :
    Option (Building α) :=
  if malloc b.allocated then
    let new := b.allocated
    let block := Function.update b.block new (makeBlock capacity)
    match b.firstBlock, b.lastBlock with
    | some first, some last =>
      let block := Function.update block last { block last with next := some new }
      some {
        firstBlock := some first
        lastBlock := some new
        allocated := new + 1
        block := Function.update block new { block new with next := some first } }
    | _, _ =>
      some {
        firstBlock := some new
        lastBlock := some new
        allocated := new + 1
        block := Function.update block new { block new with next := some new } }
  else none

def Building.addBlocks (malloc : Nat → Bool) (capacity : Nat) :
    Nat → Building α → Option (Building α)
  | 0, b => some b
  | n + 1, b => (b.addBlock malloc capacity).bind (addBlocks malloc capacity n)

/-- Several blocks of the largest size are made when one would be more than twice as large. -/
def initialBlocks (size : UInt64) : Nat × Nat :=
  let largestBlockSize := ceilToPow2 (size + 1)
  let max := UInt64.ofNat maxBlockSize
  if largestBlockSize > max * 2 then (((size + max * 2 - 3) / (max - 1)).toNat, maxBlockSize)
  else (1, largestBlockSize.toNat)

/-- The constructor. The result is `none` when it throws. -/
def readerWriterQueue (malloc : Nat → Bool) (size : UInt64) : Option (ReaderWriterQueue α) :=
  let (count, largestBlockSize) := initialBlocks size
  match Building.addBlocks malloc largestBlockSize count
      { firstBlock := none, lastBlock := none, allocated := 0, block := fun _ => makeBlock 0 } with
  | some { firstBlock := some first, lastBlock := _, allocated, block } =>
    some { frontBlock := first, tailBlock := first, largestBlockSize, allocated, block }
  | _ => none

/-! ## The destructor -/

/-- The inner loop, from index `i`: the slots whose elements are destroyed. The index runs around
forever if it misses `tail`; the result is then `none`. -/
def Block.destroyElements (b : Block α) : Nat → Nat → Option (List (Option α))
  | 0, _ => none
  | rounds + 1, i =>
    if i ≠ b.tail then
      (b.destroyElements rounds ((i + 1) &&& b.sizeMask)).map fun rest => b.data i :: rest
    else some []

/-- The blocks that are freed from `block` on, and the elements that are destroyed. The result is
`none` when a `next` is null or the blocks do not lead back to `frontBlock`. -/
def ReaderWriterQueue.destroyBlocks (q : ReaderWriterQueue α) :
    Nat → Nat → Option (List Nat × List (Option α))
  | 0, _ => none
  | rounds + 1, block =>
    let b := q.block block
    match b.destroyElements (b.sizeMask + 1) b.front, b.next with
    | some elements, some nextBlock =>
      if nextBlock ≠ q.frontBlock then
        (q.destroyBlocks rounds nextBlock).map fun (blocks, rest) =>
          (block :: blocks, elements ++ rest)
      else some ([block], elements)
    | _, _ => none

def ReaderWriterQueue.destroy (q : ReaderWriterQueue α) (rounds : Nat) :
    Option (List Nat × List (Option α)) := q.destroyBlocks rounds q.frontBlock

end LibcameraStreamer.Moodycamel
