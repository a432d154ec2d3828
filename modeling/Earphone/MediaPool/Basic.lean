import Mathlib.Algebra.GroupWithZero.Nat
import Earphone.Lib.Chain

/-!
This module contains the heap of a media pool.
-/

namespace MediaPool

structure Buffer where
  pNext : Nat
  size : Nat
  flags : UInt8

def poolHdrSize : Nat := 8

def poolBufferAlignSize : Nat := 8

def poolBufferMiniSize : Nat := 16

def mediaPoolBufferAllocated : UInt8 := 1

structure Pool where
  mem : Nat → Buffer
  poolStart : Nat
  poolEnd : Nat
  heapAddr : Nat
  heapSize : Nat
  heapSizeUnused : Nat
  heapSizeMark : Nat
  nextFreeBlockAfterGet : Nat

def alignUp (addr : Nat) : Nat :=
  if addr % poolBufferAlignSize ≠ 0 then
    (addr + (poolBufferAlignSize - 1)) / poolBufferAlignSize * poolBufferAlignSize
  else
    addr

def alignDown (addr : Nat) : Nat := addr / poolBufferAlignSize * poolBufferAlignSize

@[irreducible]
def sub32 (a b : Nat) : Nat := (a + 2 ^ 32 - b) % 2 ^ 32

@[irreducible]
def add32 (a b : Nat) : Nat := (a + b) % 2 ^ 32

namespace Pool

variable (p : Pool)

def next (addr : Nat) : Nat := (p.mem addr).pNext

def size (addr : Nat) : Nat := (p.mem addr).size

def setBuffer (addr : Nat) (b : Buffer) : Pool := { p with mem := Function.update p.mem addr b }

def setNext (addr pNext : Nat) : Pool := p.setBuffer addr { p.mem addr with pNext }

def setSize (addr size : Nat) : Pool := p.setBuffer addr { p.mem addr with size }

def setFlags (addr : Nat) (flags : UInt8) : Pool := p.setBuffer addr { p.mem addr with flags }

def setUnused (heapSizeUnused : Nat) : Pool := { p with heapSizeUnused }

def setNextFree (nextFreeBlockAfterGet : Nat) : Pool := { p with nextFreeBlockAfterGet }

def heapStart : Nat := alignUp p.heapAddr

def heapEnd (heapAddr heapSize : Nat) : Nat :=
  alignDown (alignUp heapAddr + (heapSize - (alignUp heapAddr - heapAddr)) - poolHdrSize)

def mediaPoolCreate (mem : Nat → Buffer) (poolStart heapAddr : Nat) (size : UInt16) : Pool :=
  let start := alignUp heapAddr
  let poolEnd := heapEnd heapAddr size.toNat
  let p : Pool :=
    { mem, poolStart, poolEnd, heapAddr
      heapSize := size.toNat
      heapSizeUnused := 0
      heapSizeMark := 0
      nextFreeBlockAfterGet := 0 }
  let p := (p.setNext poolStart start).setSize poolStart 0
  let p := (p.setNext poolEnd 0).setSize poolEnd 0
  let p := (p.setNext start poolEnd).setSize start ((poolEnd - start) % 2 ^ 16)
  { p with
    heapSizeUnused := p.size start
    heapSizeMark := p.size start }

def bufSize (n : Nat) : Nat :=
  if n > 0 then
    let n := (n + poolHdrSize) % 2 ^ 16
    if n % poolBufferAlignSize ≠ 0 then alignDown (n + (poolBufferAlignSize - 1)) % 2 ^ 16 else n
  else
    n

def fuel : Nat := p.heapSize + 1

def checkNext (n : Nat) : Option (Pool × Option Nat) :=
  if p.nextFreeBlockAfterGet ≠ 0 ∧ p.nextFreeBlockAfterGet ≠ p.poolEnd then do
    let prev ← Chain.walk p.next
      (fun curr => curr == p.poolEnd || curr == p.nextFreeBlockAfterGet) p.fuel p.poolStart
    let curr := p.next prev
    if curr = p.nextFreeBlockAfterGet ∧ ¬p.size curr < n then
      return (p, some prev)
    else
      return (p.setNextFree 0, none)
  else
    some (p, none)

def firstFit (n : Nat) : Option Nat :=
  Chain.walk p.next (fun curr => !(p.size curr < n && p.next curr != 0)) p.fuel p.poolStart

def findPrev (n : Nat) : Option (Pool × Nat) := do
  let (p, checked) ← p.checkNext n
  match checked with
  | some prev => return (p, prev)
  | none => return (p, ← p.firstFit n)

def cutBlock (prev n : Nat) : Pool :=
  let curr := p.next prev
  if p.size curr - n ≥ poolBufferMiniSize then
    let tmp := p.next prev + n
    let p := p.setBuffer tmp { pNext := p.next curr, size := p.size curr - n, flags := 0 }
    let p := (p.setNext prev tmp).setSize curr n
    p.setUnused (sub32 p.heapSizeUnused n)
  else
    let p := p.setNext prev (p.next curr)
    p.setUnused (sub32 p.heapSizeUnused (p.size curr))

def updateMark : Pool :=
  if p.heapSizeUnused < p.heapSizeMark then { p with heapSizeMark := p.heapSizeUnused } else p

def takeBlock (prev n : Nat) : Pool :=
  let curr := p.next prev
  let p := ((p.cutBlock prev n).setNext curr 0).setFlags curr mediaPoolBufferAllocated
  let p := p.updateMark
  p.setNextFree (p.next prev)

def mediaBufferGet (bufSize : UInt16) : Option (Pool × Option Nat) :=
  let n := Pool.bufSize bufSize.toNat
  if n = 0 ∨ n > p.heapSizeUnused then
    some (p, none)
  else do
    let (p, prev) ← p.findPrev n
    let curr := p.next prev
    if curr = p.poolEnd then
      return (p, none)
    else
      return (p.takeBlock prev n, some (curr + poolHdrSize))

def mergeLeft (hdr prev : Nat) : Pool × Nat :=
  if prev + p.size prev = hdr then
    (p.setSize prev ((p.size prev + p.size hdr) % 2 ^ 16), prev)
  else
    (p, hdr)

def mergeRight (hdr prev : Nat) : Pool :=
  if hdr + p.size hdr = p.next prev then
    let p :=
      if p.next prev ≠ p.poolEnd then
        let p := p.setSize hdr ((p.size hdr + p.size (p.next prev)) % 2 ^ 16)
        p.setNext hdr (p.next (p.next prev))
      else
        p.setNext hdr p.poolEnd
    if p.nextFreeBlockAfterGet = p.next prev then p.setNextFree hdr else p
  else
    p.setNext hdr (p.next prev)

def link (hdr prev : Nat) : Pool :=
  if prev ≠ hdr then p.setNext prev hdr else p

def putBlock (hdr prev : Nat) : Pool :=
  let (p, merged) := p.mergeLeft hdr prev
  (p.mergeRight merged prev).link merged prev

def release (hdr : Nat) : Pool :=
  let p := p.setFlags hdr 0
  p.setUnused (add32 p.heapSizeUnused (p.size hdr))

def mediaBufferPut (buf : Nat) : Option (Pool × Bool) :=
  let hdr := buf - poolHdrSize
  if buf = 0 ∨ buf % 4 ≠ 0 then
    some (p, false)
  else if (p.mem hdr).flags &&& mediaPoolBufferAllocated = 0 then
    some (p, false)
  else do
    let p := p.release hdr
    let prev ← Chain.walk p.next (fun curr => !(curr < hdr)) p.fuel p.poolStart
    return (p.putBlock hdr prev, true)

end Pool

end MediaPool
