import Earphone.Ots.Olcp

namespace OtsMeta

open Ots (le32)
open OtsOlcp (FiltType OlfCb)

def filtTypeOf (b : UInt8) : FiltType :=
  match b.toNat with
  | 0 => .noFilter
  | 1 => .nameStartsWith
  | 2 => .nameEndsWith
  | 3 => .nameContains
  | 4 => .nameIsExactly
  | 5 => .objType
  | 6 => .createBetweenTms
  | 7 => .modBetweenTms
  | 8 => .curSizeBetween
  | 9 => .allocSizeBetween
  | 10 => .markedObjs
  | _ => .rfu

def otsObjNameLenMax : Nat := 60

structure ObjectCb where
  ptr : Nat
  name : Vector UInt8 (otsObjNameLenMax + 1)
  nameLen : Nat
  objType : Nat → UInt8
  uuidSize : Nat
  curSize : Nat
  allocSize : Nat
  objProps : Nat

def ObjectCb.objName (o : ObjectCb) : List UInt8 := o.name.toList.take o.nameLen

def ObjectCb.seen (o : ObjectCb) : OtsOlcp.ObjectCb where
  ptr := o.ptr
  objId := 0
  nameLen := o.nameLen
  objType := o.objType
  curSize := o.curSize
  allocSize := o.allocSize
  objProps := o.objProps
  objLockState := 0

structure Client where
  olfCb : Fin 3 → OlfCb
  currentObj : Option Nat

def Client.zero : Client := ⟨fun _ => .none, none⟩

def Client.excludes (cl : Client) (o : ObjectCb) : Bool :=
  OtsOlcp.checkObjExcFilterList [cl.olfCb 0, cl.olfCb 1, cl.olfCb 2] o.seen

structure World where
  objQueue : List ObjectCb
  clients : Nat → Option Client

inductive Attr where
  | objName
  | objFirstCr
  | objLastMod
  | objProps
  | oacp
  | olcp
  | olf (olfIdx : Fin 3)
  | other
  deriving DecidableEq

inductive Cause where
  | success
  | reject
  | attrNotFound
  | invalidValueSize
  | insufficientResources
  | objNotSelected
  | writeRejected
  | objNameAlreadyExist
  deriving DecidableEq

inductive Effect where
  | nothing
  | select (ptr : Option Nat) (clears : Bool)
  | create (o : ObjectCb)
  | createInternal (o : ObjectCb)
  | delete (ptr : Nat)
  | clearMark (ptrs : List Nat)
  | resize (ptr curSize allocSize : Nat)

inductive Fault where
  | outside

namespace World

variable (w : World)

def setClient (conn : Nat) (cl : Option Client) : World :=
  { w with clients := fun c => if c = conn then cl else w.clients c }

def mapObj (ptr : Nat) (f : ObjectCb → ObjectCb) : World :=
  { w with objQueue := w.objQueue.map fun o => if o.ptr = ptr then f o else o }

def checkObjNameExist (name : List UInt8) : Bool :=
  w.objQueue.any fun o => o.nameLen == name.length && o.name.toList.take name.length == name

def storeFilter (conn : Nat) (cl : Client) (olfIdx : Fin 3) (f : OlfCb) (cause : Cause)
    (room : Bool) : World × Cause :=
  if 0 < (cl.olfCb olfIdx).param.length then
    if room then
      let olfCb := fun i => if i = olfIdx then f else cl.olfCb i
      (w.setClient conn (some { cl with olfCb }), cause)
    else
      (w, .insufficientResources)
  else
    (w, cause)

theorem bounds_param {param : List UInt8} (h : ¬ param.length + 1 < 9) : 8 ≤ param.length := by omega

def writeFilter (conn : Nat) (cl : Client) (olfIdx : Fin 3) (room : Bool) :
    List UInt8 → Except Fault (World × Cause)
  | [] => .error .outside
  | b :: param =>
    let filtType := filtTypeOf b
    if h : filtType = .curSizeBetween ∨ filtType = .allocSizeBetween then
      if hlen : param.length + 1 < 9 then
        .ok (w, .invalidValueSize)
      else if le32 param 0 > le32 param 4 then
        .ok (w, .writeRejected)
      else
        .ok (w.storeFilter conn cl olfIdx ⟨filtType, param, fun _ => bounds_param hlen⟩ .success room)
    else
      let cause :=
        if filtType = .createBetweenTms ∨ filtType = .modBetweenTms then .writeRejected
        else .success
      .ok (w.storeFilter conn cl olfIdx ⟨filtType, param, fun h' => absurd h' h⟩ cause room)

def otsAttrWriteCb (conn : Nat) (attr : Attr) (value : List UInt8) (room : Bool) :
    Except Fault (World × Cause) :=
  match w.clients conn, room with
  | none, false => .ok (w, .reject)
  | found, _ =>
    let cl := found.getD .zero
    let w := w.setClient conn (some cl)
    if (attr ≠ .oacp ∧ attr ≠ .olcp) ∧ cl.currentObj = none then
      .ok (w, .objNotSelected)
    else
      match attr with
      | .objName =>
        if value.length > otsObjNameLenMax then .ok (w, .writeRejected)
        else if w.checkObjNameExist value then .ok (w, .objNameAlreadyExist)
        else .ok (w, .success)
      | .objFirstCr | .objLastMod => .ok (w, .writeRejected)
      | .objProps => if value.length < 4 then .ok (w, .invalidValueSize) else .ok (w, .success)
      | .oacp | .olcp => .ok (w, .success)
      | .olf olfIdx => w.writeFilter conn cl olfIdx room value
      | .other => .ok (w, .attrNotFound)

def clearedMark (objProps : Nat) : Nat := objProps &&& (2 ^ 32 - 1 - 2 ^ OtsOlcp.objPropMarkBitNum)

def copyName (o : ObjectCb) (value : List UInt8) : ObjectCb :=
  { o with name := .ofFn fun i => (value[i.val]?).getD o.name[i] }

def effect (conn : Nat) : Effect → World
  | .nothing => w
  | .select ptr clears =>
    match w.clients conn with
    | some cl =>
      let olfCb := if clears then fun _ => .none else cl.olfCb
      w.setClient conn (some { olfCb, currentObj := ptr })
    | none => w
  | .create o =>
    let w := { w with objQueue := w.objQueue ++ [o] }
    w.setClient conn (some { olfCb := fun _ => .none, currentObj := some o.ptr })
  | .createInternal o => { w with objQueue := w.objQueue ++ [o] }
  | .delete ptr =>
    { objQueue := w.objQueue.filter (·.ptr ≠ ptr)
      clients := fun c => (w.clients c).map fun cl =>
        if cl.currentObj = some ptr then { cl with currentObj := none } else cl }
  | .clearMark ptrs =>
    { w with objQueue := w.objQueue.map fun o =>
        if o.ptr ∈ ptrs then { o with objProps := clearedMark o.objProps } else o }
  | .resize ptr curSize allocSize => w.mapObj ptr fun o => { o with curSize, allocSize }

def controlLen (attr : Attr) (value : List UInt8) (far : Bool) : Nat :=
  let params :=
    match attr, (value.headD 0).toNat with
    | .oacp, 0x06 => 9
    | .olcp, 0x05 => 6
    | .olcp, 0x06 => 1
    | _, _ => 0
  1 + if far then params else 0

def otsWritePostCallback (conn : Nat) (attr : Attr) (value : List UInt8) (effect : Effect)
    (far : Bool) : Except Fault World :=
  match w.clients conn with
  | none => .ok w
  | some cl =>
    match attr with
    | .objName =>
      match cl.currentObj with
      | some ptr =>
        if value.length > otsObjNameLenMax + 1 then .error .outside
        else .ok (w.mapObj ptr fun o => copyName o value)
      | none => .error .outside
    | .objProps =>
      match cl.currentObj with
      | some ptr =>
        if value.length < 4 then .error .outside
        else .ok (w.mapObj ptr fun o => { o with objProps := le32 value 0 })
      | none => .error .outside
    | .oacp | .olcp =>
      if value.length < controlLen attr value far then .error .outside
      else .ok (w.effect conn effect)
    | _ => .ok w

def current (conn : Nat) : Option Nat := (w.clients conn).bind (·.currentObj)

end World

structure Spec where
  filters : Nat → Fin 3 → OlfCb
  names : Nat → Option (List UInt8)
  props : Nat → Option Nat

def Spec.init : Spec := ⟨fun _ _ => .none, fun _ => none, fun _ => none⟩

def filterOf : List UInt8 → OlfCb
  | [] => .none
  | b :: param =>
    if h : filtTypeOf b = .curSizeBetween ∨ filtTypeOf b = .allocSizeBetween → 8 ≤ param.length then
      ⟨filtTypeOf b, param, h⟩
    else
      .none

namespace Spec

variable (s : Spec)

def forget (ptr : Nat) : Spec :=
  { s with
    names := fun p => if p = ptr then none else s.names p
    props := fun p => if p = ptr then none else s.props p }

def clear (conn : Nat) : Spec :=
  { s with filters := fun c => if c = conn then fun _ => .none else s.filters c }

def effect (conn : Nat) : Effect → Spec
  | .nothing | .resize .. => s
  | .select _ clears => if clears then s.clear conn else s
  | .create o => (s.forget o.ptr).clear conn
  | .createInternal o => s.forget o.ptr
  | .delete ptr => s.forget ptr
  | .clearMark ptrs =>
    { s with props := fun p =>
        if p ∈ ptrs then (s.props p).map World.clearedMark else s.props p }

def accept (current : Option Nat) (conn : Nat) (attr : Attr) (value : List UInt8)
    (effect : Effect) : Spec :=
  match attr with
  | .objName => { s with names := fun p => if some p = current then some value else s.names p }
  | .objProps =>
    { s with props := fun p => if some p = current then some (le32 value 0) else s.props p }
  | .oacp | .olcp => s.effect conn effect
  | .olf olfIdx =>
    { s with filters := fun c i =>
        if c = conn ∧ i = olfIdx then filterOf value else s.filters c i }
  | _ => s

end Spec

inductive Op where
  | write (conn : Nat) (attr : Attr) (value : List UInt8) (room : Bool) (effect : Effect)
      (far : Bool)
  | server (conn : Nat) (effect : Effect)
  | disconnect (conn : Nat)

structure State where
  world : World
  spec : Spec
  fault : Bool

namespace State

variable (s : State)

def init (objQueue : List ObjectCb) : State where
  world := ⟨objQueue, fun _ => none⟩
  spec := .init
  fault := false

def write (conn : Nat) (attr : Attr) (value : List UInt8) (room : Bool) (effect : Effect)
    (far : Bool) : State :=
  match s.world.otsAttrWriteCb conn attr value room with
  | .error _ => { s with fault := true }
  | .ok (w, cause) =>
    if cause = .success then
      match w.otsWritePostCallback conn attr value effect far with
      | .error _ => { s with world := w, fault := true }
      | .ok w' =>
        { s with world := w', spec := s.spec.accept (w.current conn) conn attr value effect }
    else
      { s with world := w }

def step (op : Op) : State :=
  if s.fault then s
  else
    match op with
    | .write conn attr value room effect far => s.write conn attr value room effect far
    | .server conn effect =>
      { s with world := s.world.effect conn effect, spec := s.spec.effect conn effect }
    | .disconnect conn =>
      { s with world := s.world.setClient conn none, spec := s.spec.clear conn }

end State

def Matches (f : OlfCb) (o : ObjectCb) : Prop :=
  match f.filtType with
  | .nameStartsWith => f.param <+: o.objName
  | .nameEndsWith => f.param <:+ o.objName
  | .nameContains => f.param <:+: o.objName
  | .nameIsExactly => o.objName = f.param
  | .objType => f.param = (List.range o.uuidSize).map o.objType
  | .curSizeBetween => le32 f.param 0 ≤ o.curSize ∧ o.curSize ≤ le32 f.param 4
  | .allocSizeBetween => le32 f.param 0 ≤ o.allocSize ∧ o.allocSize ≤ le32 f.param 4
  | .markedObjs => o.objProps.testBit OtsOlcp.objPropMarkBitNum = true
  | .noFilter | .createBetweenTms | .modBetweenTms | .rfu => True

structure Kept (s : State) : Prop where
  inside : s.fault = false
  filters : ∀ conn cl, s.world.clients conn = some cl → cl.olfCb = s.spec.filters conn
  excluded : ∀ conn cl, s.world.clients conn = some cl → ∀ o ∈ s.world.objQueue,
    (cl.excludes o = true ↔ ∃ i, ¬Matches (cl.olfCb i) o)
  names : ∀ o ∈ s.world.objQueue, ∀ name ∈ s.spec.names o.ptr,
    o.nameLen = name.length ∧ o.objName = name
  props : ∀ o ∈ s.world.objQueue, ∀ props ∈ s.spec.props o.ptr, o.objProps = props

def Refused : List UInt8 → Prop
  | [] => False
  | b :: param => filtTypeOf b = .createBetweenTms ∨ filtTypeOf b = .modBetweenTms ∨
    (filtTypeOf b = .curSizeBetween ∨ filtTypeOf b = .allocSizeBetween) ∧
      (param.length + 1 < 9 ∨ le32 param 0 > le32 param 4)

def SafeWrite (w : World) (conn : Nat) (attr : Attr) (value : List UInt8) (room far : Bool) :
    Prop :=
  match attr with
  | .objName => value.length ≤ otsObjNameLenMax → w.checkObjNameExist value = false →
    ∀ o ∈ w.objQueue, w.current conn = some o.ptr → o.nameLen = value.length
  | .oacp | .olcp => (w.clients conn).isSome = true ∨ room = true →
    World.controlLen attr value far ≤ value.length
  | .olf _ => w.current conn ≠ none → value = [0x00] ∨ Refused value
  | _ => True

def Safe (s : State) : Op → Prop
  | .write conn attr value room _ far => SafeWrite s.world conn attr value room far
  | _ => True

end OtsMeta
