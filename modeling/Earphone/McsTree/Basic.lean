import Earphone.Lib.First
import Earphone.Lib.Run

/-!
This module contains the groups and tracks of a media control server.
-/

namespace McsTree

open First

inductive Fault where
  | dangling
  | outOfBounds
  | endless

inductive ObjType where
  | group
  | track
  | segments
  deriving DecidableEq

structure Object where
  objId : Nat
  objType : ObjType
  allocBuf : List UInt8
  objSize0 : Nat
  objSize1 : Nat

structure TkElem where
  gpObjId : Nat
  objId : Nat
  segObjId : Nat

structure GpElem where
  parentGp : Option Nat
  trQueue : List TkElem
  objId : Nat

structure World where
  nextId : Nat
  objs : List Object
  gpObjQueue : List GpElem
  mcsGpTkNum : Nat

structure ObjMem where
  object : Bool
  buf : Bool

structure ValueMem where
  value : Bool
  buf : Nat → Bool

def objIdBase : Nat := 0x0100

def objIdMax : Nat := 64

def u16 (n : Nat) : Nat := n % 2 ^ 16

def World.start : World := { nextId := 0, objs := [], gpObjQueue := [], mcsGpTkNum := 0 }

def World.incNum (w : World) : World := { w with mcsGpTkNum := u16 (w.mcsGpTkNum + 1) }

def World.decNum (w : World) : World := { w with mcsGpTkNum := u16 (w.mcsGpTkNum + 65535) }

def World.gp? (w : World) (id : Nat) : Option GpElem := w.gpObjQueue.find? (·.objId == id)

def createOtsObject (w : World) (objType : ObjType) (value : List UInt8) (mem : ObjMem) :
    Option (World × Nat) :=
  if mem.object ∧ w.nextId < objIdMax ∧ (value = [] ∨ mem.buf) then
    some ({ w with
      nextId := w.nextId + 1
      objs := w.objs ++ [{
        objId := objIdBase + w.nextId
        objType
        allocBuf := value
        objSize0 := value.length
        objSize1 := value.length }] }, objIdBase + w.nextId)
  else
    none

def deleteOtsObject (w : World) (id : Nat) : World :=
  { w with objs := w.objs.eraseP (·.objId == id) }

def Object.setValue (value : List UInt8) (ob : Object) : Object :=
  { ob with allocBuf := value, objSize0 := value.length, objSize1 := value.length }

def updateObjValue (w : World) (id : Nat) (value : List UInt8) (mem : Nat → Bool) : World :=
  if id ≠ 0 ∧ (value = [] ∨ mem id) then
    { w with objs := modify (·.objId == id) (·.setValue value) w.objs }
  else
    w

def idBytes (id : Nat) : List UInt8 := (List.range 6).map fun i => UInt8.ofNat (id / 256 ^ i)

def gpObj (objType : ObjType) (id : Nat) : List UInt8 :=
  (if objType = .track then 0 else 1) :: idBytes id

def trackEntries (g : GpElem) : List (List UInt8) := g.trQueue.map fun t => gpObj .track t.objId

def groupEntries (gps : List GpElem) (g : GpElem) : List (List UInt8) :=
  (gps.filter (·.parentGp == some g.objId)).map fun c => gpObj .group c.objId

def writeValue (w : World) (id : Nat) (entries : List (List UInt8)) (mem : Nat → Bool) :
    Except Fault World :=
  if entries.length ≤ w.mcsGpTkNum then .ok (updateObjValue w id entries.flatten mem)
  else .error .outOfBounds

def writeValues (mem : Nat → Bool) : List GpElem → World → Except Fault World
  | [], w => .ok w
  | g :: gs, w => do
    let w ← writeValue w g.objId (trackEntries g ++ groupEntries w.gpObjQueue g) mem
    writeValues mem gs w

def mcsCreateObjsComplt (w : World) (mem : ValueMem) : Except Fault World :=
  if w.mcsGpTkNum = 0 ∨ mem.value = false then .ok w
  else writeValues mem.buf w.gpObjQueue w

def mcsUpdateGpValue (w : World) (id : Nat) (mem : ValueMem) : Except Fault World :=
  match w.gp? id with
  | none => .ok w
  | some g =>
    if w.mcsGpTkNum = 0 ∨ mem.value = false then .ok w
    else writeValue w id (groupEntries w.gpObjQueue g ++ trackEntries g) mem.buf

def addGp (w : World) (parentGp : Option Nat) (value : List UInt8) (mem : ObjMem) : World × Nat :=
  match createOtsObject w .group value mem with
  | none => (w, 0)
  | some (w, id) =>
    (World.incNum { w with
      gpObjQueue := w.gpObjQueue ++ [{ parentGp, trQueue := [], objId := id }] }, id)

def mcsCreateRootGp (w : World) (elem : Bool) (mem : ObjMem) : World × Nat :=
  if elem then addGp w none [] mem else (w, 0)

def mcsCreateSpecGp (w : World) (parentObjId : Nat) (value : List UInt8) (elem : Bool)
    (mem : ObjMem) : World × Nat :=
  match w.gp? parentObjId with
  | none => (w, 0)
  | some g => if elem then addGp w (some g.objId) value mem else (w, 0)

def createSegments (w : World) (segs : Option (List UInt8)) (mem : ObjMem) : World × Nat :=
  match segs with
  | none => (w, 0)
  | some value => (createOtsObject w .segments value mem).getD (w, 0)

def GpElem.push (t : TkElem) (g : GpElem) : GpElem := { g with trQueue := g.trQueue ++ [t] }

def mcsCreateTrack (w : World) (gpObjId : Nat) (fmt : List UInt8) (segs : Option (List UInt8))
    (elem : Bool) (mem segMem : ObjMem) : World × Nat :=
  match w.gp? gpObjId with
  | none => (w, 0)
  | some _ =>
    if elem then
      match createOtsObject w .track fmt mem with
      | none => (w, 0)
      | some (w, objId) =>
        let (w, segObjId) := createSegments w segs segMem
        (World.incNum { w with
          gpObjQueue := modify (·.objId == gpObjId) (·.push ⟨gpObjId, objId, segObjId⟩)
            w.gpObjQueue }, objId)
    else
      (w, 0)

def GpElem.erase (id : Nat) (g : GpElem) : GpElem :=
  { g with trQueue := g.trQueue.eraseP (·.objId == id) }

def mcsDeleteTrack (w : World) (gpObjId tkObjId : Nat) (mem : ValueMem) : Except Fault World :=
  match w.gp? gpObjId with
  | none => .ok w
  | some g =>
    match g.trQueue.find? (·.objId == tkObjId) with
    | none => .ok w
    | some _ =>
      let w := { w with gpObjQueue := modify (·.objId == gpObjId) (·.erase tkObjId) w.gpObjQueue }
      mcsUpdateGpValue (deleteOtsObject w tkObjId).decNum gpObjId mem

def findParentId (w : World) (id : Nat) : Except Fault Nat :=
  match w.gp? id with
  | none => .ok 0
  | some g =>
    match g.parentGp with
    | none => .ok id
    | some p =>
      match w.gp? p with
      | none => .error .dangling
      | some q => .ok q.objId

def walk (gps : List GpElem) (target : Nat) : Nat → Option Nat → Except Fault Bool
  | _, none => .ok false
  | 0, some _ => .error .endless
  | fuel + 1, some p =>
    match gps.find? (·.objId == p) with
    | none => .error .dangling
    | some q => if q.objId = target then .ok true else walk gps target fuel q.parentGp

def doomed (gps : List GpElem) (target objId : Nat) (parentGp : Option Nat) : Except Fault Bool :=
  if objId = target then .ok true else walk gps target objId parentGp

def popTracks (w : World) : List TkElem → World
  | [] => w
  | t :: ts => popTracks (deleteOtsObject w t.objId).decNum ts

def clearTracks (gps : List GpElem) (target : Nat) :
    List GpElem → World → Except Fault (List GpElem × World)
  | [], w => .ok ([], w)
  | g :: gs, w => do
    let found ← doomed gps target g.objId g.parentGp
    let r ← clearTracks gps target gs (if found then popTracks w g.trQueue else w)
    return ((if found then { g with trQueue := [] } else g) :: r.1, r.2)

def splitGps (gps : List GpElem) (target : Nat) :
    List GpElem → Except Fault (List GpElem × List GpElem)
  | [] => .ok ([], [])
  | g :: gs => do
    let found ← doomed gps target g.objId g.parentGp
    let r ← splitGps gps target gs
    return if found then (r.1, g :: r.2) else (g :: r.1, r.2)

def popGps (w : World) : List GpElem → World
  | [] => w
  | g :: gs => popGps (deleteOtsObject w g.objId).decNum gs

def removeGps (w : World) (target : Nat) : Except Fault World := do
  let (gps, w') ← clearTracks w.gpObjQueue target w.gpObjQueue w
  let (keep, del) ← splitGps w.gpObjQueue target gps
  return popGps { w' with gpObjQueue := keep } del

def mcsDeleteGp (w : World) (id : Nat) (mem : ValueMem) : Except Fault World := do
  let parent ← findParentId w id
  let w ← removeGps w id
  if parent ≠ 0 then mcsUpdateGpValue w parent mem else return w

inductive Op where
  | createRootGp (elem : Bool) (mem : ObjMem)
  | createSpecGp (parentObjId : Nat) (value : List UInt8) (elem : Bool) (mem : ObjMem)
  | createTrack (gpObjId : Nat) (fmt : List UInt8) (segs : Option (List UInt8)) (elem : Bool)
    (mem segMem : ObjMem)
  | deleteTrack (gpObjId tkObjId : Nat) (mem : ValueMem)
  | deleteGp (id : Nat) (mem : ValueMem)
  | createObjsComplt (mem : ValueMem)
  | updateGpValue (id : Nat) (mem : ValueMem)

def step1 (w : World) : Op → Except Fault World
  | .createRootGp elem mem => .ok (mcsCreateRootGp w elem mem).1
  | .createSpecGp parentObjId value elem mem => .ok (mcsCreateSpecGp w parentObjId value elem mem).1
  | .createTrack gpObjId fmt segs elem mem segMem =>
    .ok (mcsCreateTrack w gpObjId fmt segs elem mem segMem).1
  | .deleteTrack gpObjId tkObjId mem => mcsDeleteTrack w gpObjId tkObjId mem
  | .deleteGp id mem => mcsDeleteGp w id mem
  | .createObjsComplt mem => mcsCreateObjsComplt w mem
  | .updateGpValue id mem => mcsUpdateGpValue w id mem

def step (w : Except Fault World) (op : Op) : Except Fault World := do
  let w ← w
  step1 w op

def GpElem.size (g : GpElem) : Nat := 1 + g.trQueue.length

inductive Below (gps : List GpElem) (target : Nat) : GpElem → Prop where
  | self {g : GpElem} : g.objId = target → Below gps target g
  | child {g q : GpElem} : q ∈ gps → g.parentGp = some q.objId → Below gps target q →
    Below gps target g

def Listed (w : World) (g : GpElem) : Prop :=
  ∃ ob ∈ w.objs, ob.objId = g.objId ∧
    (ob.allocBuf = (trackEntries g ++ groupEntries w.gpObjQueue g).flatten ∨
      ob.allocBuf = (groupEntries w.gpObjQueue g ++ trackEntries g).flatten)

structure Sound (w : World) : Prop where
  unique : (w.objs.map (·.objId)).Nodup
  groups : ∀ id, (∃ g ∈ w.gpObjQueue, g.objId = id) ↔
    ∃ ob ∈ w.objs, ob.objId = id ∧ ob.objType = .group
  tracks : ∀ id, (∃ g ∈ w.gpObjQueue, ∃ t ∈ g.trQueue, t.objId = id) ↔
    ∃ ob ∈ w.objs, ob.objId = id ∧ ob.objType = .track
  segments : ∀ g ∈ w.gpObjQueue, ∀ t ∈ g.trQueue, t.segObjId ≠ 0 →
    ∃ ob ∈ w.objs, ob.objId = t.segObjId ∧ ob.objType = .segments
  num : w.mcsGpTkNum = (w.gpObjQueue.map (·.size)).sum
  parent : ∀ g ∈ w.gpObjQueue, ∀ p ∈ g.parentGp, ∃ q ∈ w.gpObjQueue, q.objId = p
  size : ∀ ob ∈ w.objs, ob.objSize0 = ob.objSize1 ∧ ob.allocBuf.length = ob.objSize1

def ValueMem.Enough (mem : ValueMem) : Prop := mem.value = true ∧ ∀ id, mem.buf id = true

structure StepSound (w : World) (op : Op) (w' : World) : Prop where
  subtree : ∀ id mem, op = .deleteGp id mem → w'.gpObjQueue.Sublist w.gpObjQueue ∧
    ∀ g ∈ w.gpObjQueue, g ∈ w'.gpObjQueue ↔ ¬Below w.gpObjQueue id g
  written : ∀ mem, op = .createObjsComplt mem → mem.Enough → ∀ g ∈ w'.gpObjQueue, Listed w' g
  kept : ∀ mem, mem.Enough →
    ((∃ id, op = .deleteGp id mem) ∨ ∃ id tk, op = .deleteTrack id tk mem) →
    (∀ g ∈ w.gpObjQueue, Listed w g) → ∀ g ∈ w'.gpObjQueue, Listed w' g

structure Exact (w : World) : Prop where
  sound : Sound w
  live : ∀ ob ∈ w.objs, ob.objType = .segments →
    ∃ g ∈ w.gpObjQueue, ∃ t ∈ g.trQueue, t.segObjId = ob.objId
  listed : ∀ g ∈ w.gpObjQueue, Listed w g

end McsTree
