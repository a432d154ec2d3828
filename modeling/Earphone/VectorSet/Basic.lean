import Mathlib.Algebra.GroupWithZero.Nat
import Mathlib.Tactic.Common

/-!
This module contains the vectors of `vector.c` and the operations on them as sets.
-/

namespace VectorSet

abbrev VectorEle := Nat

abbrev VCmp := VectorEle → VectorEle → Int

def u32 (n : Nat) : Nat := n % 2 ^ 32

structure VectorStruct where
  depth : Nat
  capacity : Nat
  array : List VectorEle
  deriving DecidableEq

structure VectorIterator where
  size : Nat
  array : List VectorEle

structure Memory where
  iteratorA : Bool
  iteratorB : Bool
  tmpA : Bool
  tmpB : Bool
  vector : Bool
  array : Bool
  resize : Nat → Bool

structure Memory.Granted (m : Memory) : Prop where
  iteratorA : m.iteratorA = true
  iteratorB : m.iteratorB = true
  tmpA : m.tmpA = true
  tmpB : m.tmpB = true
  vector : m.vector = true
  array : m.array = true
  resize : ∀ k, m.resize k = true

def packed : List VectorEle → Nat → Option (List VectorEle)
  | [], room => some (List.replicate room 0)
  | _ :: _, 0 => none
  | e :: es, room + 1 =>
    if e ≠ 0 then (packed es room).map (e :: ·) else packed es (room + 1)

def vectorResize (v : VectorStruct) (newSize : Nat) (granted : Bool) : VectorStruct :=
  if granted then
    if newSize ≥ v.array.length then
      { v with array := v.array ++ List.replicate (newSize - v.array.length) 0 }
    else
      match packed v.array newSize with
      | none => v
      | some array => { v with array := array }
  else
    v

def vectorCreate (capacity : Nat) (vector array : Bool) : Option VectorStruct :=
  if capacity = 0 then none
  else if vector && array then some { depth := 0, capacity := capacity, array := [0] }
  else none

def fillEmpty (element : VectorEle) : List VectorEle → Option (List VectorEle)
  | [] => none
  | e :: es => if e = 0 then some (element :: es) else (fillEmpty element es).map (e :: ·)

def vectorAdd (v : VectorStruct) (element : VectorEle) (granted : Bool) : VectorStruct :=
  if v.depth = v.capacity then
    v
  else
    let v :=
      if v.depth = v.array.length then vectorResize v (u32 (v.array.length * 2)) granted else v
    match fillEmpty element v.array with
    | some array => { v with array := array, depth := u32 (v.depth + 1) }
    | none => v

def collect : List VectorEle → Nat → List VectorEle
  | _, 0 => []
  | [], n + 1 => List.replicate (n + 1) 0
  | e :: es, n + 1 => if e ≠ 0 then e :: collect es n else collect es (n + 1)

def vectorIteratorCreate (v : VectorStruct) (granted : Bool) : Option VectorIterator :=
  -- the size of an iterator is a `uint8_t`
  if granted then some { size := v.depth % 2 ^ 8, array := collect v.array v.depth } else none

def vectorUpdateByIterator (v : VectorStruct) (it : VectorIterator) : VectorStruct :=
  { v with
    array := it.array.take it.size ++ List.replicate (v.array.length - it.size) 0 }

section

variable (cmp : VCmp)

def mergeRuns : List VectorEle → List VectorEle → List VectorEle
  | [], right => right
  | left, [] => left
  | l :: left, r :: right =>
    if cmp l r < 0 then l :: mergeRuns left (r :: right) else r :: mergeRuns (l :: left) right
termination_by left right => left.length + right.length

def vectorMerge (ori : List VectorEle) (lpos rpos rightend : Nat) : Option (List VectorEle) :=
  if rightend < ori.length then
    some (ori.take lpos ++
      mergeRuns cmp ((ori.take rpos).drop lpos) ((ori.take (rightend + 1)).drop rpos) ++
      ori.drop (rightend + 1))
  else
    none

def vectorMsort : Nat → List VectorEle → Nat → Nat → Option (List VectorEle)
  | 0, _, _, _ => none
  | fuel + 1, ori, left, right =>
    if left < right then do
      let center := u32 (left + right) / 2
      let ori ← vectorMsort fuel ori left center
      let ori ← vectorMsort fuel ori (center + 1) right
      vectorMerge cmp ori left (center + 1) right
    else
      some ori

def vectorIteratorMergeSort (fuel : Nat) (it : VectorIterator) (granted : Bool) :
    Option VectorIterator :=
  if granted then
    -- `size - 1` of an empty iterator is the largest index
    (vectorMsort cmp fuel it.array 0 (u32 (it.size + (2 ^ 32 - 1)))).map fun array =>
      { it with array := array }
  else
    some it

def shift (tmp : VectorEle) : Nat → List VectorEle → List VectorEle
  | 0, array => array.set 0 tmp
  | j + 1, array =>
    if array.getD j 0 > tmp then shift tmp j (array.set (j + 1) (array.getD j 0))
    else array.set (j + 1) tmp

def vectorIsort (array : List VectorEle) (n : Nat) : List VectorEle :=
  (List.range' 1 (n - 1)).foldl (fun array p => shift (array.getD p 0) p array) array

def vectorIteratorInsertSort (it : VectorIterator) : VectorIterator :=
  { it with array := vectorIsort it.array it.size }

def vectorIteratorBinarySearch (target : VectorEle) (array : List VectorEle) :
    Nat → Int → Int → Option Int
  | 0, _, _ => none
  | fuel + 1, low, high =>
    if low > high then
      some (-1)
    else do
      -- the indices are of type `int`, so the last one may be -1
      let mid := (low + high).tdiv 2
      let e ← array[mid.toNat]?
      if cmp target e = 0 then some mid
      else if cmp target e < 0 then
        vectorIteratorBinarySearch target array fuel low (mid - 1)
      else
        vectorIteratorBinarySearch target array fuel (mid + 1) high

end

inductive VectorSetOpType where
  | union
  | intersection
  | difference

structure VectorSetOpOutParam where
  vectorC : Option VectorStruct
  iteratorA : VectorIterator
  iteratorB : VectorIterator
  vectorA : VectorStruct
  vectorB : VectorStruct

def newVectorSize (op : VectorSetOpType) (sizeA sizeB : Nat) : Nat :=
  match op with
  | .union => sizeA + sizeB
  | .intersection => if sizeA < sizeB then sizeA else sizeB
  | .difference => sizeA

def sortIterators (cmp : VCmp) (mem : Memory) (fuel : Nat) (iteratorA iteratorB : VectorIterator) :
    Option (VectorIterator × VectorIterator) :=
  if iteratorA.size < 20 ∧ iteratorB.size < 20 then
    some (vectorIteratorInsertSort iteratorA, vectorIteratorInsertSort iteratorB)
  else do
    let iteratorA ← vectorIteratorMergeSort cmp fuel iteratorA mem.tmpA
    let iteratorB ← vectorIteratorMergeSort cmp fuel iteratorB mem.tmpB
    return (iteratorA, iteratorB)

def vectorSetOpPrepare (op : VectorSetOpType) (cmp : VCmp) (mem : Memory) (fuel : Nat)
    (vectorA vectorB : VectorStruct) : Option VectorSetOpOutParam := do
  let iteratorA ← vectorIteratorCreate vectorA mem.iteratorA
  let iteratorB ← vectorIteratorCreate vectorB mem.iteratorB
  let (iteratorA, iteratorB) ← sortIterators cmp mem fuel iteratorA iteratorB
  return {
    -- a vector of capacity 0 is not created
    vectorC := vectorCreate (newVectorSize op iteratorA.size iteratorB.size) mem.vector mem.array
    iteratorA := iteratorA
    iteratorB := iteratorB
    vectorA := vectorUpdateByIterator vectorA iteratorA
    vectorB := vectorUpdateByIterator vectorB iteratorB }

/--
A loop of `vector_iterator_step`: each element that is accepted is added, to a vector that may be
NULL.
-/
def addWhere (accept : VectorEle → Option Bool) (resize : Nat → Bool) :
    Nat → List VectorEle → Option VectorStruct → Option (Option VectorStruct)
  | _, [], v => some v
  | k, e :: es, v => do
    let accepted ← accept e
    addWhere accept resize (k + 1) es
      (if accepted then v.map fun v => vectorAdd v e (resize k) else v)

def VectorIterator.search (it : VectorIterator) (cmp : VCmp) (fuel : Nat) (e : VectorEle) :
    Option Int :=
  vectorIteratorBinarySearch cmp e it.array fuel 0 ((it.size : Int) - 1)

abbrev SetOpResult := Option VectorStruct × VectorStruct × VectorStruct

def setOp (op : VectorSetOpType) (cmp : Option VCmp) (mem : Memory) (fuel : Nat)
    (vectorA vectorB : VectorStruct)
    (loop : VCmp → VectorSetOpOutParam → Option (Option VectorStruct)) : Option SetOpResult :=
  match cmp with
  | none => some (none, vectorA, vectorB)
  | some cmp => do
    let out ← vectorSetOpPrepare op cmp mem fuel vectorA vectorB
    let c ← loop cmp out
    return (c, out.vectorA, out.vectorB)

def unionLoop (mem : Memory) (fuel : Nat) (cmp : VCmp) (out : VectorSetOpOutParam) :
    Option (Option VectorStruct) := do
  let c ← addWhere (fun _ => some true) mem.resize 0 (out.iteratorA.array.take out.iteratorA.size)
    out.vectorC
  addWhere (fun e => (out.iteratorA.search cmp fuel e).map fun r => r = -1) mem.resize
    out.iteratorA.size (out.iteratorB.array.take out.iteratorB.size) c

def vectorUnion (cmp : Option VCmp) (mem : Memory) (fuel : Nat) (vectorA vectorB : VectorStruct) :
    Option SetOpResult :=
  setOp .union cmp mem fuel vectorA vectorB (unionLoop mem fuel)

def intersectionOf (mem : Memory) (fuel : Nat) (cmp : VCmp) (c : Option VectorStruct)
    (base compare : VectorIterator) : Option (Option VectorStruct) :=
  addWhere (fun e => (compare.search cmp fuel e).map fun r => 0 ≤ r) mem.resize 0
    (base.array.take base.size) c

def intersectionLoop (mem : Memory) (fuel : Nat) (cmp : VCmp) (out : VectorSetOpOutParam) :
    Option (Option VectorStruct) :=
  if out.iteratorA.size ≤ out.iteratorB.size then
    intersectionOf mem fuel cmp out.vectorC out.iteratorA out.iteratorB
  else
    intersectionOf mem fuel cmp out.vectorC out.iteratorB out.iteratorA

def vectorIntersection (cmp : Option VCmp) (mem : Memory) (fuel : Nat)
    (vectorA vectorB : VectorStruct) : Option SetOpResult :=
  setOp .intersection cmp mem fuel vectorA vectorB (intersectionLoop mem fuel)

def differenceLoop (mem : Memory) (fuel : Nat) (cmp : VCmp) (out : VectorSetOpOutParam) :
    Option (Option VectorStruct) :=
  addWhere (fun e => (out.iteratorB.search cmp fuel e).map fun r => r = -1) mem.resize 0
    (out.iteratorA.array.take out.iteratorA.size) out.vectorC

def vectorDifference (cmp : Option VCmp) (mem : Memory) (fuel : Nat)
    (vectorA vectorB : VectorStruct) : Option SetOpResult :=
  setOp .difference cmp mem fuel vectorA vectorB (differenceLoop mem fuel)

def testCmp (val : VectorEle → Nat) : VCmp := fun a b =>
  if val a < val b then -1
  else if val a > val b then 1
  else 0

def VectorStruct.elements (v : VectorStruct) : List VectorEle := v.array.filter (· ≠ 0)

structure VectorStruct.Wf (v : VectorStruct) : Prop where
  depth_eq : v.depth = v.elements.length

end VectorSet
