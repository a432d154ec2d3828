import Earphone.GattcStorage.Instances

namespace GattcStorage

open Scan List

def attrTypeCccdDesc : UInt8 := 9

def gattUuidCharClientConfig : UInt16 := 0x2902

def charPropNotifyIndicate : UInt16 := 0x30

def SrvData.attrType : SrvData → UInt8
  | .uuid16 d => d.hdr.attrType
  | .uuid128 d => d.hdr.attrType

def CharData.declHandle : CharData → UInt16
  | .uuid16 d => d.hdr.attHandle
  | .uuid128 d => d.hdr.attHandle

def CharData.setEnd (endHandle : UInt16) : CharData → CharData
  | .uuid16 d => .uuid16 { d with endHandle }
  | .uuid128 d => .uuid128 { d with endHandle }

def CharData.clearProps (props : UInt16) : CharData → CharData
  | .uuid16 d => .uuid16 { d with properties := d.properties &&& ~~~props }
  | .uuid128 d => .uuid128 { d with properties := d.properties &&& ~~~props }

structure Handles where
  declHandle : UInt16
  valueHandle : UInt16

def CharData.handles (d : CharData) : Handles := ⟨d.declHandle, d.valueHandle⟩

structure CharUpdate where
  apply : DisChar → DisChar
  handles : ∀ c, (apply c).charData.handles = c.charData.handles
  is16 : ∀ c, (apply c).is16 = c.is16
  typed : ∀ c, c.charData.Typed → (apply c).charData.Typed

def CharUpdate.setEnd (startHandle endHandle : UInt16) : CharUpdate where
  apply c :=
    let data := c.charData.setEnd endHandle
    if endHandle < startHandle ∧ data.properties &&& charPropNotifyIndicate ≠ 0 then
      { c with charData := data.clearProps charPropNotifyIndicate }
    else
      { c with charData := data }
  handles c := by
    obtain ⟨descEnd, cccd, data⟩ := c
    cases data <;> simp only <;> split <;> rfl
  is16 c := by
    obtain ⟨descEnd, cccd, data⟩ := c
    cases data <;> simp only <;> split <;> rfl
  typed c h := by
    obtain ⟨descEnd, cccd, data⟩ := c
    cases data <;> simp only <;> split <;> exact h

def CharUpdate.addDesc (uuid16 : Option UInt16) (handle : UInt16) : CharUpdate where
  apply c :=
    let c := if uuid16 = some gattUuidCharClientConfig then
      { c with cccdDescriptor :=
          { c.cccdDescriptor with attrType := attrTypeCccdDesc, attHandle := handle } }
      else c
    if c.descEndHandle < handle then { c with descEndHandle := handle } else c
  handles c := by
    simp only
    split <;> split <;> rfl
  is16 c := by
    simp only
    split <;> split <;> rfl
  typed c h := by
    simp only
    split <;> split <;> exact h

theorem is16_modify (chars : List DisChar) (i : Nat) (u : CharUpdate) :
    (chars.modify i u.apply).map (·.is16) = chars.map (·.is16) := by
  apply ext_getElem?
  intro j
  rw [getElem?_map, getElem?_map, getElem?_modify]
  cases chars[j]? with
  | none => rfl
  | some c =>
    by_cases hij : i = j
    . simp [hij, u.is16]
    . simp [hij]

def DisSrv.modifyChar (s : DisSrv) (i : Nat) (u : CharUpdate) : DisSrv :=
  { s with
    charQueue := s.charQueue.modify i u.apply
    charTyped := by
      intro c hc
      obtain ⟨j, hj⟩ := List.mem_iff_getElem?.mp hc
      rw [List.getElem?_modify, Option.map_eq_map, Option.map_eq_some_iff] at hj
      obtain ⟨c', hc', rfl⟩ := hj
      have htyped := s.charTyped c' (List.mem_of_getElem? hc')
      split
      . exact u.typed c' htyped
      . exact htyped
    nums_eq := by
      have h16 : (s.charQueue.modify i u.apply).countP (·.is16) = s.charQueue.countP (·.is16) := by
        have hmap := congrArg (List.countP id) (is16_modify s.charQueue i u)
        rwa [List.countP_map, List.countP_map] at hmap
      have h128 : (s.charQueue.modify i u.apply).countP (!·.is16) =
          s.charQueue.countP (!·.is16) := by
        have hmap := congrArg (List.countP (!·)) (is16_modify s.charQueue i u)
        rwa [List.countP_map, List.countP_map] at hmap
      rw [s.nums_eq]
      simp only [Nums.of, h16, h128] }

inductive Request where
  | services
  | relations (startHandle endHandle : UInt16)
  | chars (startHandle endHandle : UInt16)
  | descs (startHandle endHandle : UInt16)

inductive DisState where
  | discovery
  | done
  | failed

structure DisCb where
  state : DisState
  disList : List DisSrv
  flags : Nat → UInt16
  curr : Option Nat
  requests : List Request
  cccds : List UInt16
  listed : List DisSrv

def DisCb.start : DisCb where
  state := .discovery
  disList := []
  flags := fun _ => 0
  curr := none
  requests := [.services]
  cccds := []
  listed := []

def DisCb.request (cb : DisCb) (r : Request) : DisCb := { cb with requests := r :: cb.requests }

structure NextRequest where
  cb : DisCb
  ok : Bool
  cmpl : Bool

def DisSrv.isSecondary (s : DisSrv) : Bool :=
  s.srvData.attrType == attrTypeSecondarySrvUuid16 ||
    s.srvData.attrType == attrTypeSecondarySrvUuid128

def gattClientDisNextSecondaryService (accepted : Bool) (cb : DisCb) : NextRequest :=
  match cb.curr with
  | none => ⟨cb, false, false⟩
  | some k =>
    match cb.disList[k + 1]? with
    | some s =>
      if s.isSecondary && accepted then
        ⟨{ cb with curr := some (k + 1) }.request
          (.chars s.srvData.startHandle s.srvData.endGroupHandle), true, false⟩
      else
        ⟨cb, false, false⟩
    | none => ⟨{ cb with curr := none }, true, true⟩

def DisCb.nextIndex (cb : DisCb) : Nat :=
  match cb.curr with
  | none => 0
  | some k => k + 1

def lastIndex (disList : List DisSrv) : Option Nat :=
  if disList = [] then none else some (disList.length - 1)

def gattClientDisNextService (m : DisMode) (accepted : Bool) (cb : DisCb) :
    Except Stuck NextRequest :=
  match cb.disList[cb.nextIndex]? with
  | some s =>
    if accepted then
      .ok ⟨{ cb with curr := some cb.nextIndex }.request
        (.relations s.srvData.startHandle s.srvData.endGroupHandle), true, false⟩
    else
      .ok ⟨cb, false, false⟩
  | none => do
    let c ← gattcStorageAddSecondaryService m cb.disList
    let cb := { cb with disList := c.disList, curr := lastIndex cb.disList }
    if c.isExist then
      return gattClientDisNextSecondaryService accepted cb
    else
      return ⟨{ cb with curr := none }, true, true⟩

def DisSrv.charEnd (s : DisSrv) (i : Nat) : UInt16 :=
  match s.charQueue[i + 1]? with
  | none => s.srvData.endGroupHandle
  | some next => next.charData.valueHandle - 2

def descLoop : Nat → UInt8 → DisSrv → Except Stuck (DisSrv × Option (UInt8 × UInt16 × UInt16))
  | 0, _, _ => .error .endless
  | rounds + 1, i, s =>
    match s.charQueue[i.toNat]? with
    | none => .ok (s, none)
    | some c =>
      let startHandle := c.charData.valueHandle + 1
      let endHandle := s.charEnd i.toNat
      let s := s.modifyChar i.toNat (.setEnd startHandle endHandle)
      if endHandle < startHandle then
        descLoop rounds (i + 1) s
      else
        .ok (s, some (i, startHandle, endHandle))

def isPrimary (s : DisSrv) : Bool :=
  s.srvData.attrType == attrTypePrimarySrvUuid16 ||
    s.srvData.attrType == attrTypePrimarySrvUuid128

def disNextSrv (m : DisMode) (accepted : Bool) (s : DisSrv) (cb : DisCb) :
    Except Stuck NextRequest :=
  if isPrimary s then gattClientDisNextService m accepted cb
  else .ok (gattClientDisNextSecondaryService accepted cb)

def DisCb.setFlags (cb : DisCb) (k : Nat) (flags : UInt16) : DisCb :=
  { cb with flags := Function.update cb.flags k flags }

def gattClientDisNextDesc (m : DisMode) (accepted : Bool) (cb : DisCb) (k : Nat) (s : DisSrv)
    (start : Bool) : Except Stuck NextRequest :=
  if s.charQueue = [] then
    disNextSrv m accepted s cb
  else do
    let flags := if start then 0 else cb.flags k + 1
    let cb := cb.setFlags k flags
    let (s, found) ← descLoop 257 flags.toUInt8 s
    let cb := { cb with disList := cb.disList.set k s }
    match found with
    | none => disNextSrv m accepted s cb
    | some (i, startHandle, endHandle) =>
      if accepted then
        return ⟨(cb.setFlags k i.toUInt16).request (.descs startHandle endHandle), true, false⟩
      else
        return ⟨cb, false, false⟩

inductive Completion where
  | srvDone
  | relationDone
  | charDone
  | charDescriptorDone
  | failed

structure DisAnswers where
  accepted : Bool
  gen : Bool

def nextRequest (m : DisMode) (c : Completion) (accepted : Bool) (cb : DisCb) :
    Except Stuck NextRequest :=
  let curr := cb.curr.bind fun k => cb.disList[k]?.map fun s => (k, s)
  match c, curr with
  | .srvDone, _ => gattClientDisNextService m accepted cb
  | .relationDone, some (_, s) =>
    if accepted then
      .ok ⟨cb.request (.chars s.srvData.startHandle s.srvData.endGroupHandle), true, false⟩
    else
      .ok ⟨cb, false, false⟩
  | .charDone, some (k, s) => gattClientDisNextDesc m accepted cb k s true
  | .charDescriptorDone, some (k, s) => gattClientDisNextDesc m accepted cb k s false
  | _, _ => .ok ⟨cb, false, false⟩

def DisCb.fail (cb : DisCb) : DisCb := { cb with state := .failed, disList := [], curr := none }

def gattClientDiscoverStateExtCb (m : DisMode) (c : Completion) (a : DisAnswers) (cb : DisCb) :
    Except Stuck DisCb := do
  let r ← nextRequest m c a.accepted cb
  if r.ok then
    if r.cmpl then
      if a.gen then
        return { r.cb with state := .done, listed := r.cb.disList, disList := [], curr := none }
      else
        return r.cb.fail
    else
      return r.cb
  else
    return r.cb.fail

inductive Result where
  | srv (f : SrvFound) (allocated : Bool)
  | relation (f : IncFound) (allocated : Bool)
  | char (f : CharFound) (allocated : Bool)
  | desc (uuid16 : Option UInt16) (handle : UInt16)

def DisCb.currIndex (cb : DisCb) : Nat := cb.curr.getD cb.disList.length

def addDescAt (i : Nat) (flags : UInt16) (uuid16 : Option UInt16) (handle : UInt16)
    (disList : List DisSrv) : List DisSrv :=
  match disList[i]? with
  | none => disList
  | some s => disList.set i (s.modifyChar flags.toNat (.addDesc uuid16 handle))

def gattClientDiscoverResultExtCb (m : DisMode) (r : Result) (cb : DisCb) : Except Stuck DisCb :=
  match r with
  | .srv f allocated => do
    let disList ← disCall m cb.disList (.addPrimary f allocated)
    return { cb with disList }
  | .relation f allocated => do
    let disList ← disCall m cb.disList (.addInclude cb.currIndex f allocated)
    return { cb with disList }
  | .char f allocated => do
    let disList ← disCall m cb.disList (.addChar cb.currIndex f allocated)
    return { cb with disList }
  | .desc uuid16 handle =>
    let cccds := if uuid16 = some gattUuidCharClientConfig then handle :: cb.cccds else cb.cccds
    let disList := addDescAt cb.currIndex (cb.flags cb.currIndex) uuid16 handle cb.disList
    .ok { cb with cccds, disList }

inductive DisOp where
  | result (r : Result)
  | complete (c : Completion) (a : DisAnswers)

def DisCb.step (m : DisMode) (cb : DisCb) : DisOp → Except Stuck DisCb
  | .result r => gattClientDiscoverResultExtCb m r cb
  | .complete c a => gattClientDiscoverStateExtCb m c a cb

def DisSrv.handles (s : DisSrv) (i : Nat) : Option Handles :=
  s.charQueue[i]?.map (·.charData.handles)

structure Ascending (s : DisSrv) : Prop where
  value : ∀ i h, s.handles i = some h →
    h.declHandle < h.valueHandle ∧ h.valueHandle ≤ s.srvData.endGroupHandle
  next : ∀ i h h', s.handles i = some h → s.handles (i + 1) = some h' →
    h.valueHandle < h'.declHandle

def DisSrv.lastHandle (s : DisSrv) (i : Nat) : UInt16 :=
  match s.handles (i + 1) with
  | none => s.srvData.endGroupHandle
  | some next => next.declHandle - 1

def DisChar.HasCccd (c : DisChar) : Prop := c.cccdDescriptor.attrType = attrTypeCccdDesc

structure CharDescribed (cccds : List UInt16) (s : DisSrv) (i : Nat) (c : DisChar) : Prop where
  endHandle : c.charData.endHandle = s.lastHandle i
  cccd : c.HasCccd → c.cccdDescriptor.attHandle ∈ cccds ∧
    c.charData.valueHandle < c.cccdDescriptor.attHandle ∧
    c.cccdDescriptor.attHandle ≤ c.charData.endHandle

def Described (cccds : List UInt16) (s : DisSrv) : Prop :=
  ∀ i c, s.charQueue[i]? = some c → CharDescribed cccds s i c

def DisCb.behind (cb : DisCb) : List DisSrv :=
  match cb.state with
  | .discovery => cb.disList.take (cb.curr.getD 0)
  | .done => cb.listed
  | .failed => []

def Answered (cb cb' : DisCb) : Prop :=
  (∃ r, cb'.requests = r :: cb.requests) ∧ cb'.state = cb.state ∨
    cb'.requests = cb.requests ∧ cb'.state ≠ .discovery

def DisOp.Possible (cb : DisCb) (op : DisOp) : Prop :=
  cb.state = .discovery ∧
    match op, cb.requests.head? with
    | .result (.srv _ _), some .services => True
    | .result (.relation _ _), some (.relations _ _) => True
    | .result (.char _ _), some (.chars _ _) => True
    | .result (.desc _ handle), some (.descs startHandle endHandle) =>
      startHandle ≤ handle ∧ handle ≤ endHandle
    | .complete .srvDone _, some .services => True
    | .complete .relationDone _, some (.relations _ _) => True
    | .complete .charDone _, some (.chars _ _) => True
    | .complete .charDescriptorDone _, some (.descs _ _) => True
    | .complete .failed _, _ => True
    | _, _ => False

structure Regular (s : DisSrv) : Prop where
  next : ∀ i h, s.handles (i + 1) = some h → h.valueHandle = h.declHandle + 1
  value : ∀ i h, s.handles i = some h → h.valueHandle ≠ 0xFFFF

def FewServices (disList : List DisSrv) : Prop :=
  disList.length + (disList.map (·.includeSrvQueue.length)).sum < 256
  deriving Decidable

def DisOp.Ok (cb : DisCb) : DisOp → Prop
  | .complete .failed _ => True
  | .complete _ _ => FewServices cb.disList ∧ ∀ k s, cb.curr = some k → cb.disList[k]? = some s →
      s.charQueue.length < 256 ∧ (Ascending s → Regular s)
  | .result (.srv _ _) => cb.disList.length < 256
  | .result (.char _ allocated) => allocated = true ∧ ∀ k s, cb.curr = some k →
      cb.disList[k]? = some s → s.charQueue.length < 256
  | .result _ => True

def disRun (m : DisMode) (r : Except Stuck DisCb) (op : DisOp) : Except Stuck DisCb :=
  r >>= fun cb => cb.step m op

abbrev OkOp (r : Except Stuck DisCb) (op : DisOp) : Prop :=
  ∀ cb, r = .ok cb → op.Possible cb ∧ op.Ok cb

section

variable {cccds : List UInt16} {s s' : DisSrv}

structure SameSrv (s s' : DisSrv) : Prop where
  handles : s'.handles = s.handles
  srvData : s'.srvData = s.srvData
  includes : s'.includeSrvQueue = s.includeSrvQueue
  length : s'.charQueue.length = s.charQueue.length

theorem SameSrv.refl (s : DisSrv) : SameSrv s s := ⟨rfl, rfl, rfl, rfl⟩

theorem SameSrv.trans (h : SameSrv s s') (h' : SameSrv s' s'') : SameSrv s s'' :=
  ⟨h'.handles.trans h.handles, h'.srvData.trans h.srvData, h'.includes.trans h.includes,
    h'.length.trans h.length⟩

theorem SameSrv.lastHandle (h : SameSrv s s') (i : Nat) : s'.lastHandle i = s.lastHandle i := by
  unfold DisSrv.lastHandle
  rw [h.handles, h.srvData]

theorem SameSrv.ascending (h : SameSrv s s') (hs : Ascending s') : Ascending s := by
  obtain ⟨hvalue, hnext⟩ := hs
  rw [h.handles, h.srvData] at hvalue
  rw [h.handles] at hnext
  exact ⟨hvalue, hnext⟩

theorem SameSrv.regular (h : SameSrv s s') (hs : Regular s) : Regular s' := by
  obtain ⟨hnext, hvalue⟩ := hs
  rw [← h.handles] at hnext hvalue
  exact ⟨hnext, hvalue⟩

theorem getElem?_modifyChar (i j : Nat) (u : CharUpdate) :
    (s.modifyChar i u).charQueue[j]? =
      s.charQueue[j]?.map fun c => if i = j then u.apply c else c :=
  getElem?_modify u.apply i s.charQueue j

theorem sameSrv_modifyChar (s : DisSrv) (i : Nat) (u : CharUpdate) :
    SameSrv s (s.modifyChar i u) := by
  refine ⟨?_, rfl, rfl, length_modify _ _ _⟩
  funext j
  unfold DisSrv.handles
  rw [getElem?_modifyChar, Option.map_map]
  congr 1
  funext c
  simp only [Function.comp_apply]
  split
  . exact u.handles c
  . rfl

def UpTo (cccds : List UInt16) (s : DisSrv) (n : Nat) : Prop :=
  ∀ i c, s.charQueue[i]? = some c → (i < n → CharDescribed cccds s i c) ∧ (n ≤ i → ¬ c.HasCccd)

theorem CharDescribed.same (h : SameSrv s s')
    (hc : CharDescribed cccds s i c) : CharDescribed cccds s' i c :=
  ⟨hc.endHandle.trans (h.lastHandle i).symm, hc.cccd⟩

theorem UpTo.described (h : UpTo cccds s n) (hn : s.charQueue.length ≤ n) : Described cccds s := by
  intro i c hc
  obtain ⟨hi, -⟩ := List.getElem?_eq_some_iff.mp hc
  exact (h i c hc).1 (Nat.lt_of_lt_of_le hi hn)

theorem UpTo.modifyChar
    (h : UpTo cccds s n) (hmono : ∀ handle ∈ cccds, handle ∈ cccds') (hn : n' = i + 1)
    (hle : n = i ∨ n = i + 1)
    (hu : ∀ c, s.charQueue[i]? = some c → CharDescribed cccds' (s.modifyChar i u) i (u.apply c)) :
    UpTo cccds' (s.modifyChar i u) n' := by
  intro j c hc
  rw [getElem?_modifyChar, Option.map_eq_some_iff] at hc
  obtain ⟨c', hc', rfl⟩ := hc
  by_cases hij : i = j
  . subst hij
    rw [if_pos rfl]
    exact ⟨fun _ => hu c' hc', fun hle' => absurd hle' (by omega)⟩
  . rw [if_neg hij]
    refine ⟨fun hlt => ?_, fun hle' => (h j c' hc').2 (by omega)⟩
    have hold := ((h j c' hc').1 (by omega)).same (sameSrv_modifyChar s i u)
    exact ⟨hold.endHandle, fun hcccd => (hold.cccd hcccd).imp_left (hmono _)⟩

theorem charEnd_eq (h : Regular s) (i : Nat) : s.charEnd i = s.lastHandle i := by
  unfold DisSrv.charEnd DisSrv.lastHandle DisSrv.handles
  cases hc : s.charQueue[i + 1]? with
  | none => rfl
  | some c =>
    have hnext : c.charData.valueHandle = c.charData.declHandle + 1 :=
      h.next i c.charData.handles (by unfold DisSrv.handles; rw [hc]; rfl)
    simp only [Option.map_some, hnext]
    simp only [CharData.handles]
    generalize c.charData.declHandle = d
    grind

theorem setEnd_apply (startHandle endHandle : UInt16) (c : DisChar) :
    ((CharUpdate.setEnd startHandle endHandle).apply c).charData.endHandle = endHandle ∧
      ((CharUpdate.setEnd startHandle endHandle).apply c).cccdDescriptor = c.cccdDescriptor := by
  obtain ⟨descEnd, cccd, data⟩ := c
  unfold CharUpdate.setEnd
  cases data <;> simp only <;> split <;> exact ⟨rfl, rfl⟩

theorem UpTo.setEnd (hs : Regular s) (h : UpTo cccds s i) (startHandle : UInt16) :
    UpTo cccds (s.modifyChar i (.setEnd startHandle (s.charEnd i))) (i + 1) := by
  refine h.modifyChar (fun _ hmem => hmem) rfl (.inl rfl) fun c hc => ?_
  obtain ⟨hend, hcccd⟩ := setEnd_apply startHandle (s.charEnd i) c
  refine ⟨?_, fun hhas => ?_⟩
  . rw [hend, charEnd_eq hs, (sameSrv_modifyChar s i _).lastHandle]
  . unfold DisChar.HasCccd at hhas
    rw [hcccd] at hhas
    exact absurd hhas ((h i c hc).2 (Nat.le_refl i))

structure Found (cccds : List UInt16) (s : DisSrv) (i : UInt8) (startHandle endHandle : UInt16) :
    Prop where
  char : ∃ c, s.charQueue[i.toNat]? = some c ∧ startHandle = c.charData.valueHandle + 1 ∧
    endHandle = c.charData.endHandle
  upTo : Regular s → UpTo cccds s (i.toNat + 1)

theorem toNat_succ {i : UInt8} (h : i.toNat < 255) : (i + 1).toNat = i.toNat + 1 := by
  have hone : (1 : UInt8).toNat = 1 := rfl
  rw [UInt8.toNat_add, hone]
  omega

theorem descLoop_ends (rounds : Nat) (i : UInt8) (hlen : s.charQueue.length < 256)
    (hpos : 0 < rounds) (hrounds : s.charQueue.length < i.toNat + rounds) :
    ∃ s' found, descLoop rounds i s = .ok (s', found) ∧ SameSrv s s' ∧
      ((Regular s → UpTo cccds s i.toNat) →
        match found with
        | none => Regular s' → Described cccds s'
        | some (j, startHandle, endHandle) => Found cccds s' j startHandle endHandle) := by
  induction rounds generalizing i s with
  | zero => omega
  | succ rounds ih =>
    rw [descLoop]
    cases hc : s.charQueue[i.toNat]? with
    | none =>
      refine ⟨s, none, rfl, .refl s, fun hupTo hs => (hupTo hs).described ?_⟩
      exact List.getElem?_eq_none_iff.mp hc
    | some c =>
      obtain ⟨hlt, -⟩ := List.getElem?_eq_some_iff.mp hc
      have hnext := @toNat_succ i (by omega)
      let startHandle := c.charData.valueHandle + 1
      let endHandle := s.charEnd i.toNat
      have hsame := sameSrv_modifyChar s i.toNat (.setEnd startHandle endHandle)
      have hround : (Regular s → UpTo cccds s i.toNat) →
          Regular (s.modifyChar i.toNat (.setEnd startHandle endHandle)) →
            UpTo cccds (s.modifyChar i.toNat (.setEnd startHandle endHandle)) (i.toNat + 1) := by
        intro hupTo hs
        have hregular : Regular s := ⟨hsame.handles ▸ hs.next, hsame.handles ▸ hs.value⟩
        exact UpTo.setEnd hregular (hupTo hregular) startHandle
      by_cases hroom : endHandle < startHandle
      . simp only [startHandle, endHandle] at hroom
        simp only [if_pos hroom]
        have hlength := hsame.length
        obtain ⟨s', found, hloop, hsame', hfound⟩ := ih (i + 1) (hlength ▸ hlen) (by omega)
          (by rw [hlength, hnext]; omega)
        rw [hnext] at hfound
        exact ⟨s', found, hloop, hsame.trans hsame', fun hupTo => hfound (hround hupTo)⟩
      . simp only [startHandle, endHandle] at hroom
        simp only [if_neg hroom]
        refine ⟨_, _, rfl, hsame, fun hupTo => ⟨?_, hround hupTo⟩⟩
        refine ⟨_, ?_, ?_, (setEnd_apply startHandle endHandle c).1.symm⟩
        . rw [getElem?_modifyChar, hc, Option.map_some, if_pos rfl]
        . have hhandles := (CharUpdate.setEnd startHandle endHandle).handles c
          exact congrArg (·.valueHandle + 1) hhandles.symm

def NoRoom (s : DisSrv) : Prop :=
  ∀ i c, s.charQueue[i]? = some c → s.charEnd i < c.charData.valueHandle + 1

theorem SameSrv.charEnd (h : SameSrv s s') (i : Nat) : s'.charEnd i = s.charEnd i := by
  have hhandles := congrFun h.handles (i + 1)
  unfold DisSrv.handles at hhandles
  unfold DisSrv.charEnd
  cases hc : s.charQueue[i + 1]? with
  | none =>
    rw [hc, Option.map_none, Option.map_eq_none_iff] at hhandles
    rw [hhandles]
    exact congrArg SrvData.endGroupHandle h.srvData
  | some c =>
    rw [hc, Option.map_some, Option.map_eq_some_iff] at hhandles
    obtain ⟨c', hc', heq⟩ := hhandles
    rw [hc']
    exact congrArg (·.valueHandle - 2) heq

theorem SameSrv.noRoom (h : SameSrv s s') (hs : NoRoom s) : NoRoom s' := by
  intro i c' hc'
  have hhandles := congrFun h.handles i
  unfold DisSrv.handles at hhandles
  rw [hc', Option.map_some, eq_comm, Option.map_eq_some_iff] at hhandles
  obtain ⟨c, hc, heq⟩ := hhandles
  have hvalue : c'.charData.valueHandle = c.charData.valueHandle :=
    congrArg Handles.valueHandle heq.symm
  rw [h.charEnd, hvalue]
  exact hs i c hc

theorem descLoop_endless (rounds : Nat) (i : UInt8) (hlen : s.charQueue.length = 256)
    (hs : NoRoom s) : descLoop rounds i s = .error .endless := by
  induction rounds generalizing i s with
  | zero => rfl
  | succ rounds ih =>
    have hlt : i.toNat < s.charQueue.length := hlen ▸ i.toNat_lt
    have hc := getElem?_eq_getElem hlt
    have hroom := hs i.toNat _ hc
    have hsame := sameSrv_modifyChar s i.toNat
      (.setEnd (s.charQueue[i.toNat].charData.valueHandle + 1) (s.charEnd i.toNat))
    rw [descLoop, hc]
    simp only [if_pos hroom]
    exact ih (i + 1) (hsame.length.trans hlen) (hsame.noRoom hs)

end

section

variable {m : DisMode} {c c' : Collected}

def Grows (c c' : Collected) (n : Nat) : Prop :=
  ∃ added, c'.disList = c.disList ++ added ∧ (∀ s ∈ added, s.charQueue = []) ∧ added.length ≤ n

theorem Grows.refl (c : Collected) (n : Nat) : Grows c c n :=
  ⟨[], (append_nil _).symm, nofun, Nat.zero_le n⟩

theorem Grows.trans (h : Grows c c' n) (h' : Grows c' c'' n') : Grows c c'' (n + n') := by
  obtain ⟨added, hlist, hchars, hlen⟩ := h
  obtain ⟨added', hlist', hchars', hlen'⟩ := h'
  refine ⟨added ++ added', by rw [hlist', hlist, append_assoc], ?_, ?_⟩
  . exact forall_mem_append.mpr ⟨hchars, hchars'⟩
  . rw [length_append]
    omega

theorem Grows.length (h : Grows c c' n) : c'.disList.length ≤ c.disList.length + n := by
  obtain ⟨added, hlist, -, hlen⟩ := h
  rw [hlist, length_append]
  omega

theorem addSecondaryInc_few (inc : DisInc) (hlen : c.disList.length < 256) :
    ∃ r, addSecondaryInc m c inc = .ok r ∧ ∀ c', r = some c' → Grows c c' 1 := by
  unfold addSecondaryInc
  split
  . exact ⟨some c, rfl, fun c' heq => Option.some.inj heq ▸ .refl c 1⟩
  . split
    . unfold gattcStorageGetSrvInstanceId
      rw [if_pos hlen]
      refine ⟨_, rfl, fun c' heq => ?_⟩
      obtain rfl := Option.some.inj heq
      refine ⟨_, rfl, ?_, Nat.le_refl 1⟩
      intro s hs
      rw [mem_singleton.mp hs]
      unfold DisInc.secondary
      cases inc <;> rfl
    . exact ⟨none, rfl, nofun⟩

theorem addSecondaryLoop_few (incs : List DisInc)
    (hlen : c.disList.length + incs.length < 256 + 1) (hpos : c.disList.length < 256) :
    ∃ c' left, addSecondaryLoop m incs c = .ok (c', left) ∧ Grows c c' incs.length := by
  induction incs generalizing c with
  | nil => exact ⟨c, false, rfl, .refl c 0⟩
  | cons inc incs ih =>
    obtain ⟨r, hrun, hgrows⟩ := @addSecondaryInc_few m c inc hpos
    rw [addSecondaryLoop, hrun]
    cases r with
    | none => exact ⟨c, true, rfl, .refl c _⟩
    | some c1 =>
      have hone := hgrows c1 rfl
      have hlen1 := hone.length
      rw [length_cons] at hlen
      by_cases hnil : incs = []
      . subst hnil
        exact ⟨c1, false, rfl, hone⟩
      . have hincs := length_pos_iff.mpr hnil
        obtain ⟨c', left, hloop, hgrows'⟩ := @ih c1 (by omega) (by omega)
        refine ⟨c', left, hloop, ?_⟩
        rw [length_cons, Nat.add_comm]
        exact hone.trans hgrows'

theorem addSecondarySrvs_few (srvs : List DisSrv)
    (hlen : c.disList.length + (srvs.map (·.includeSrvQueue.length)).sum < 256) :
    ∃ c', addSecondarySrvs m srvs c = .ok c' ∧
      Grows c c' (srvs.map (·.includeSrvQueue.length)).sum := by
  induction srvs generalizing c with
  | nil => exact ⟨c, rfl, .refl c 0⟩
  | cons s srvs ih =>
    rw [map_cons, sum_cons] at hlen ⊢
    have htake : s.includeSrvQueue.take 256 = s.includeSrvQueue := take_of_length_le (by omega)
    obtain ⟨c1, left, hloop, hgrows⟩ :=
      @addSecondaryLoop_few m c s.includeSrvQueue (by omega) (by omega)
    have hlen1 := hgrows.length
    obtain ⟨c', hrest, hgrows'⟩ := @ih c1 (by omega)
    refine ⟨c', ?_, hgrows.trans hgrows'⟩
    have hsmall : (left || decide (s.includeSrvQueue.length < 256)) = true := by
      rw [decide_eq_true (by omega), Bool.or_true]
    have hsrv : addSecondarySrv m s c = .ok c1 := by
      unfold addSecondarySrv
      rw [htake, hloop]
      simp only [bind, Except.bind, hsmall, if_true]
      rfl
    rw [addSecondarySrvs, hsrv]
    exact hrest

theorem addSecondary_few {disList : List DisSrv} (h : FewServices disList) :
    ∃ c added, gattcStorageAddSecondaryService m disList = .ok c ∧
      c.disList = disList ++ added ∧ ∀ s ∈ added, s.charQueue = [] := by
  unfold FewServices at h
  have htake : disList.take (disList.length % 256) = disList := by
    rw [Nat.mod_eq_of_lt (by omega), take_length]
  unfold gattcStorageAddSecondaryService
  rw [htake]
  obtain ⟨c, hrun, added, hlist, hchars, -⟩ := @addSecondarySrvs_few m ⟨disList, false⟩ disList h
  exact ⟨c, added, hrun, hlist, hchars⟩

end

section

variable {m : DisMode} {cb : DisCb} {accepted : Bool}

def Good (cccds : List UInt16) (s : DisSrv) : Prop := Ascending s → Described cccds s

structure Ready (cb : DisCb) (k : Nat) : Prop where
  before : ∀ j s, j < k → cb.disList[j]? = some s → Good cb.cccds s
  after : ∀ j s, k ≤ j → cb.disList[j]? = some s → s.charQueue = []

structure Current (cb : DisCb) (k : Nat) (s : DisSrv) : Prop where
  curr : cb.curr = some k
  srv : cb.disList[k]? = some s
  before : ∀ j s, j < k → cb.disList[j]? = some s → Good cb.cccds s
  after : ∀ j s, k < j → cb.disList[j]? = some s → s.charQueue = []

def Stage (cb : DisCb) : Prop :=
  match cb.requests.head? with
  | none => False
  | some .services => cb.curr = none ∧ Ready cb 0
  | some (.relations _ _) => ∃ k, cb.curr = some k ∧ Ready cb k
  | some (.chars _ _) => ∃ k s, Current cb k s ∧ UpTo cb.cccds s 0
  | some (.descs startHandle endHandle) => ∃ k s i, Current cb k s ∧
      cb.flags k = i.toUInt16 ∧ (Ascending s → Regular s) ∧
      Found cb.cccds s i startHandle endHandle

def Follows (r : NextRequest) : Prop :=
  r.ok = true → if r.cmpl then ∀ s ∈ r.cb.disList, Good r.cb.cccds s else Stage r.cb

def Issues (cb : DisCb) (r : NextRequest) : Prop :=
  r.cb.state = cb.state ∧
    if r.ok && !r.cmpl then ∃ q, r.cb.requests = q :: cb.requests
    else r.cb.requests = cb.requests

theorem good_of_empty (cccds : List UInt16) (h : s.charQueue = []) : Good cccds s := by
  intro _ i c hc
  rw [h] at hc
  cases hc

theorem upTo_of_empty (cccds : List UInt16) (h : s.charQueue = []) : UpTo cccds s 0 := by
  intro i c hc
  rw [h] at hc
  cases hc

theorem Ready.all (h : Ready cb k) (hk : cb.disList[k]? = none) :
    ∀ s ∈ cb.disList, Good cb.cccds s := by
  intro s hs
  obtain ⟨j, hj⟩ := List.mem_iff_getElem?.mp hs
  obtain ⟨hlt, -⟩ := List.getElem?_eq_some_iff.mp hj
  have hle := List.getElem?_eq_none_iff.mp hk
  exact h.before j s (by omega) hj

theorem follows_secondary {k : Nat} (hcurr : cb.curr = some k) (h : Ready cb (k + 1)) :
    Follows (gattClientDisNextSecondaryService accepted cb) := by
  unfold gattClientDisNextSecondaryService
  rw [hcurr]
  simp only
  cases hnext : cb.disList[k + 1]? with
  | none => exact fun _ => h.all hnext
  | some s =>
    simp only
    split
    . refine fun _ => ⟨k + 1, s, ⟨rfl, hnext, h.before, ?_⟩, ?_⟩
      . exact fun j s hlt hj => h.after j s (Nat.le_of_lt hlt) hj
      . exact upTo_of_empty cb.cccds (h.after (k + 1) s (Nat.le_refl _) hnext)
    . exact nofun

theorem follows_service (h : Ready cb cb.nextIndex) (hfew : FewServices cb.disList) :
    ∃ r, gattClientDisNextService m accepted cb = .ok r ∧ Follows r := by
  unfold gattClientDisNextService
  cases hnext : cb.disList[cb.nextIndex]? with
  | some s =>
    simp only
    split
    . exact ⟨_, rfl, fun _ => ⟨cb.nextIndex, rfl, h.before, h.after⟩⟩
    . exact ⟨_, rfl, nofun⟩
  | none =>
    obtain ⟨c, added, hadd, hlist, hchars⟩ := @addSecondary_few m cb.disList hfew
    have hall := h.all hnext
    have hgood : ∀ s ∈ c.disList, Good cb.cccds s := by
      rw [hlist]
      exact forall_mem_append.mpr
        ⟨hall, fun s hs => good_of_empty cb.cccds (hchars s hs)⟩
    simp only [hadd, bind, Except.bind]
    split
    . refine ⟨_, rfl, ?_⟩
      by_cases hnil : cb.disList = []
      . have hlast : lastIndex cb.disList = none := if_pos hnil
        unfold gattClientDisNextSecondaryService
        simp only [hlast]
        exact nofun
      . have hlast : lastIndex cb.disList = some (cb.disList.length - 1) := if_neg hnil
        have hpos := length_pos_iff.mpr hnil
        have hfollows := @follows_secondary
          { cb with disList := c.disList, curr := lastIndex cb.disList } accepted
          (cb.disList.length - 1) hlast
          ⟨fun j s _ hj => hgood s (mem_of_getElem? hj), fun j s hle hj => by
            rw [hlist, getElem?_append_right (by omega)] at hj
            exact hchars s (mem_of_getElem? hj)⟩
        exact hfollows
    . exact ⟨_, rfl, fun _ => hgood⟩

theorem nextIndex_some (hcurr : cb.curr = some k) : cb.nextIndex = k + 1 := by
  unfold DisCb.nextIndex
  rw [hcurr]

theorem follows_nextSrv (s : DisSrv) (hcurr : cb.curr = some k) (h : Ready cb (k + 1))
    (hfew : FewServices cb.disList) :
    ∃ r, disNextSrv m accepted s cb = .ok r ∧ Follows r := by
  unfold disNextSrv
  split
  . exact follows_service (nextIndex_some hcurr ▸ h) hfew
  . exact ⟨_, rfl, follows_secondary hcurr h⟩

theorem few_set (h : FewServices disList)
    (hs : disList[k]? = some s) (hsame : SameSrv s s') : FewServices (disList.set k s') := by
  have hmap : (disList.set k s').map (·.includeSrvQueue.length) =
      disList.map (·.includeSrvQueue.length) := by
    obtain ⟨hlt, -⟩ := List.getElem?_eq_some_iff.mp hs
    apply List.ext_getElem?
    intro j
    rw [getElem?_map, getElem?_map]
    by_cases hkj : k = j
    . subst hkj
      rw [getElem?_set_self hlt, hs, Option.map_some, Option.map_some, hsame.includes]
    . rw [getElem?_set_ne hkj]
  unfold FewServices
  rw [hmap, length_set]
  exact h

theorem Current.set {k : Nat} {s s' : DisSrv} (h : Current cb k s) (flags : Nat → UInt16) :
    Current { cb with disList := cb.disList.set k s', flags } k s' := by
  obtain ⟨hlt, -⟩ := List.getElem?_eq_some_iff.mp h.srv
  refine ⟨h.curr, ?_, fun j t hj ht => h.before j t hj ?_, fun j t hj ht => h.after j t hj ?_⟩
  . exact List.getElem?_set_self hlt
  . rwa [getElem?_set_ne (by omega)] at ht
  . rwa [getElem?_set_ne (by omega)] at ht

theorem Current.ready (h : Current cb k s) (hs : Good cb.cccds s) : Ready cb (k + 1) := by
  refine ⟨fun j t hj ht => ?_, fun j t hj ht => h.after j t hj ht⟩
  by_cases hjk : j = k
  . subst hjk
    rw [h.srv] at ht
    exact Option.some.inj ht ▸ hs
  . exact h.before j t (by omega) ht

theorem follows_desc {k : Nat} {s : DisSrv} {start : Bool} {i : UInt8} (h : Current cb k s)
    (hfew : FewServices cb.disList) (hlen : s.charQueue.length < 256)
    (hregular : Ascending s → Regular s)
    (hi : (if start then 0 else cb.flags k + 1).toUInt8 = i)
    (hupTo : Regular s → UpTo cb.cccds s i.toNat) :
    ∃ r, gattClientDisNextDesc m accepted cb k s start = .ok r ∧ Follows r := by
  unfold gattClientDisNextDesc
  split
  . next hnil => exact follows_nextSrv s h.curr (h.ready (good_of_empty cb.cccds hnil)) hfew
  . obtain ⟨s', found, hloop, hsame, hfound⟩ :=
      @descLoop_ends cb.cccds s 257 i hlen (by decide) (by omega)
    have hfound := hfound hupTo
    have hregular' : Ascending s' → Regular s' :=
      fun hs => hsame.regular (hregular (hsame.ascending hs))
    let flags := Function.update cb.flags k (if start then 0 else cb.flags k + 1)
    simp only [hi, hloop, bind, Except.bind]
    cases found with
    | none =>
      have hcurrent := @Current.set cb k s s' h flags
      exact follows_nextSrv s' hcurrent.curr
        (hcurrent.ready fun hs => hfound (hregular' hs)) (few_set hfew h.srv hsame)
    | some f =>
      obtain ⟨j, startHandle, endHandle⟩ := f
      simp only
      split
      . refine ⟨_, rfl, fun _ => ⟨k, s', j, ?_⟩⟩
        have hcurrent := @Current.set cb k s s' h (Function.update flags k j.toUInt16)
        exact ⟨⟨hcurrent.curr, hcurrent.srv, hcurrent.before, hcurrent.after⟩,
          Function.update_self k _ _, hregular', hfound⟩
      . exact ⟨_, rfl, nofun⟩

theorem curr_bind (hcurr : cb.curr = some k)
    (hs : cb.disList[k]? = some s) :
    (cb.curr.bind fun k => cb.disList[k]?.map fun s => (k, s)) = some (k, s) := by
  rw [hcurr, Option.bind_some, hs]
  rfl

theorem follows_completion (h : Stage cb) {c : Completion} {a : DisAnswers}
    (hpossible : DisOp.Possible cb (.complete c a)) (hok : DisOp.Ok cb (.complete c a)) :
    ∃ r, nextRequest m c accepted cb = .ok r ∧ Follows r := by
  obtain ⟨-, hpossible⟩ := hpossible
  unfold Stage at h
  unfold nextRequest
  cases hreq : cb.requests.head? with
  | none =>
    rw [hreq] at h
    exact h.elim
  | some q =>
    rw [hreq] at h hpossible
    cases c with
    | failed => exact ⟨_, rfl, nofun⟩
    | srvDone =>
      cases q with
      | services =>
        obtain ⟨hcurr, hready⟩ := h
        have hindex : cb.nextIndex = 0 := by
          unfold DisCb.nextIndex
          rw [hcurr]
        exact follows_service (hindex ▸ hready) hok.1
      | relations _ _ | chars _ _ | descs _ _ => exact hpossible.elim
    | relationDone =>
      cases q with
      | relations _ _ =>
        obtain ⟨k, hcurr, hready⟩ := h
        rw [hcurr]
        simp only [Option.bind_some]
        cases hs : cb.disList[k]? with
        | none => exact ⟨_, rfl, nofun⟩
        | some s =>
          simp only [Option.map_some]
          split
          . refine ⟨_, rfl, fun _ => ⟨k, s, ⟨hcurr, hs, hready.before, ?_⟩, ?_⟩⟩
            . exact fun j t hj ht => hready.after j t (by omega) ht
            . exact upTo_of_empty cb.cccds (hready.after k s (Nat.le_refl k) hs)
          . exact ⟨_, rfl, nofun⟩
      | services | chars _ _ | descs _ _ => exact hpossible.elim
    | charDone =>
      cases q with
      | chars _ _ =>
        obtain ⟨k, s, hcurrent, hclean⟩ := h
        obtain ⟨hlen, hregular⟩ := hok.2 k s hcurrent.curr hcurrent.srv
        rw [curr_bind hcurrent.curr hcurrent.srv]
        exact follows_desc hcurrent hok.1 hlen hregular rfl
          fun _ => hclean
      | services | relations _ _ | descs _ _ => exact hpossible.elim
    | charDescriptorDone =>
      cases q with
      | descs _ _ =>
        obtain ⟨k, s, i, hcurrent, hflags, -, hfound⟩ := h
        obtain ⟨hlen, hregular⟩ := hok.2 k s hcurrent.curr hcurrent.srv
        obtain ⟨c, hc, -, -⟩ := hfound.char
        obtain ⟨hlt, -⟩ := List.getElem?_eq_some_iff.mp hc
        have hnext := @toNat_succ i (by omega)
        rw [curr_bind hcurrent.curr hcurrent.srv]
        refine @follows_desc m cb accepted k s false (i + 1) hcurrent hok.1 hlen hregular ?_ ?_
        . rw [if_neg Bool.false_ne_true, hflags, UInt16.toUInt8_add, UInt8.toUInt8_toUInt16]
          rfl
        . rw [hnext]
          exact hfound.upTo
      | services | relations _ _ | chars _ _ => exact hpossible.elim

theorem issues_secondary : Issues cb (gattClientDisNextSecondaryService accepted cb) := by
  unfold gattClientDisNextSecondaryService
  cases cb.curr with
  | none => exact ⟨rfl, rfl⟩
  | some k =>
    simp only
    split
    . split
      . exact ⟨rfl, _, rfl⟩
      . exact ⟨rfl, rfl⟩
    . exact ⟨rfl, rfl⟩

theorem issues_service (hfew : FewServices cb.disList) :
    ∃ r, gattClientDisNextService m accepted cb = .ok r ∧ Issues cb r := by
  unfold gattClientDisNextService
  split
  . split
    . exact ⟨_, rfl, rfl, _, rfl⟩
    . exact ⟨_, rfl, rfl, rfl⟩
  . obtain ⟨c, added, hadd, -⟩ := @addSecondary_few m cb.disList hfew
    simp only [hadd, bind, Except.bind]
    split
    . exact ⟨_, rfl, @issues_secondary
        { cb with disList := c.disList, curr := lastIndex cb.disList } accepted⟩
    . exact ⟨_, rfl, rfl, rfl⟩

theorem issues_nextSrv (s : DisSrv) (hfew : FewServices cb.disList) :
    ∃ r, disNextSrv m accepted s cb = .ok r ∧ Issues cb r := by
  unfold disNextSrv
  split
  . exact issues_service hfew
  . exact ⟨_, rfl, issues_secondary⟩

theorem issues_desc (start : Bool) (hs : cb.disList[k]? = some s)
    (hfew : FewServices cb.disList) (hlen : s.charQueue.length < 256) :
    ∃ r, gattClientDisNextDesc m accepted cb k s start = .ok r ∧ Issues cb r := by
  unfold gattClientDisNextDesc
  split
  . exact issues_nextSrv s hfew
  . let flags := if start then 0 else cb.flags k + 1
    obtain ⟨s', found, hloop, hsame, -⟩ :=
      @descLoop_ends cb.cccds s 257 flags.toUInt8 hlen (by decide) (by omega)
    simp only [flags] at hloop
    simp only [hloop, bind, Except.bind]
    cases found with
    | none =>
      exact @issues_nextSrv m { cb.setFlags k flags with disList := cb.disList.set k s' }
        accepted s' (few_set hfew hs hsame)
    | some f =>
      simp only
      split
      . exact ⟨_, rfl, rfl, _, rfl⟩
      . exact ⟨_, rfl, rfl, rfl⟩

theorem issues_completion {c : Completion} {a : DisAnswers} (hok : DisOp.Ok cb (.complete c a)) :
    ∃ r, nextRequest m c accepted cb = .ok r ∧ Issues cb r := by
  have hcurr : ∀ k s, (cb.curr.bind fun k => cb.disList[k]?.map fun s => (k, s)) = some (k, s) →
      cb.curr = some k ∧ cb.disList[k]? = some s := by
    intro k s heq
    obtain ⟨k', hk', hmap⟩ := Option.bind_eq_some_iff.mp heq
    obtain ⟨s', hs', hpair⟩ := Option.map_eq_some_iff.mp hmap
    cases hpair
    exact ⟨hk', hs'⟩
  unfold nextRequest
  generalize hbind : (cb.curr.bind fun k => cb.disList[k]?.map fun s => (k, s)) = curr
  cases c with
  | srvDone => exact issues_service hok.1
  | failed => exact ⟨_, rfl, rfl, rfl⟩
  | relationDone =>
    cases curr with
    | none => exact ⟨_, rfl, rfl, rfl⟩
    | some p =>
      simp only
      split
      . exact ⟨_, rfl, rfl, _, rfl⟩
      . exact ⟨_, rfl, rfl, rfl⟩
  | charDone =>
    cases curr with
    | none => exact ⟨_, rfl, rfl, rfl⟩
    | some p =>
      obtain ⟨hk, hs⟩ := hcurr p.1 p.2 hbind
      exact issues_desc true hs hok.1 (hok.2 p.1 p.2 hk hs).1
  | charDescriptorDone =>
    cases curr with
    | none => exact ⟨_, rfl, rfl, rfl⟩
    | some p =>
      obtain ⟨hk, hs⟩ := hcurr p.1 p.2 hbind
      exact issues_desc false hs hok.1 (hok.2 p.1 p.2 hk hs).1

theorem answered_completion (hok : DisOp.Ok cb (.complete c a)) :
    ∃ cb', gattClientDiscoverStateExtCb m c a cb = .ok cb' ∧ Answered cb cb' := by
  obtain ⟨r, hrun, hstate, hrequests⟩ := @issues_completion m cb a.accepted c a hok
  unfold gattClientDiscoverStateExtCb
  simp only [hrun, bind, Except.bind]
  cases hr : r.ok with
  | false =>
    rw [hr] at hrequests
    exact ⟨_, rfl, .inr ⟨hrequests, nofun⟩⟩
  | true =>
    cases hcmpl : r.cmpl with
    | false =>
      rw [hr, hcmpl] at hrequests
      exact ⟨r.cb, rfl, .inl ⟨hrequests, hstate⟩⟩
    | true =>
      rw [hr, hcmpl] at hrequests
      simp only [if_true]
      split
      . exact ⟨_, rfl, .inr ⟨hrequests, nofun⟩⟩
      . exact ⟨_, rfl, .inr ⟨hrequests, nofun⟩⟩

end

section

variable {m : DisMode} {cb : DisCb} {cccds cccds' : List UInt16} {s : DisSrv}

theorem Described.mono (h : Described cccds s) (hmono : ∀ handle ∈ cccds, handle ∈ cccds') :
    Described cccds' s :=
  fun i c hc => ⟨(h i c hc).endHandle, fun hcccd => ((h i c hc).cccd hcccd).imp_left (hmono _)⟩

theorem addDesc_apply (uuid16 : Option UInt16) (handle : UInt16) (c : DisChar) :
    ((CharUpdate.addDesc uuid16 handle).apply c).charData = c.charData ∧
      ((CharUpdate.addDesc uuid16 handle).apply c).cccdDescriptor =
        if uuid16 = some gattUuidCharClientConfig then
          { c.cccdDescriptor with attrType := attrTypeCccdDesc, attHandle := handle }
        else c.cccdDescriptor := by
  unfold CharUpdate.addDesc
  simp only
  split <;> split <;> exact ⟨rfl, rfl⟩

theorem lt_of_succ_le {v h : UInt16} (hne : v ≠ 0xFFFF) (hle : v + 1 ≤ h) : v < h := by
  have hv : v.toNat ≠ 65535 := fun heq => hne (UInt16.toNat_inj.mp heq)
  have hlt := v.toNat_lt
  rw [UInt16.le_iff_toNat_le, UInt16.toNat_add] at hle
  rw [UInt16.lt_iff_toNat_lt]
  have : (1 : UInt16).toNat = 1 := rfl
  omega

theorem Found.addDesc {i : UInt8} {startHandle endHandle handle : UInt16}
    (h : Found cccds s i startHandle endHandle) (uuid16 : Option UInt16)
    (hrange : startHandle ≤ handle ∧ handle ≤ endHandle)
    (hmono : ∀ handle ∈ cccds, handle ∈ cccds')
    (hmem : uuid16 = some gattUuidCharClientConfig → handle ∈ cccds') :
    Found cccds' (s.modifyChar i.toNat (.addDesc uuid16 handle)) i startHandle endHandle := by
  have hsame := sameSrv_modifyChar s i.toNat (.addDesc uuid16 handle)
  obtain ⟨c, hc, hstart, hend⟩ := h.char
  obtain ⟨hdata, hcccd⟩ := addDesc_apply uuid16 handle c
  refine ⟨⟨(CharUpdate.addDesc uuid16 handle).apply c, ?_, ?_, ?_⟩, fun hs => ?_⟩
  . rw [getElem?_modifyChar, hc, Option.map_some, if_pos rfl]
  . rw [hdata, hstart]
  . rw [hdata, hend]
  . have hregular : Regular s := ⟨hsame.handles ▸ hs.next, hsame.handles ▸ hs.value⟩
    refine (h.upTo hregular).modifyChar hmono rfl (.inr rfl) fun c' hc' => ?_
    obtain rfl := Option.some.inj (hc.symm.trans hc')
    have hold := ((h.upTo hregular) i.toNat c hc).1 (Nat.lt_succ_self _)
    refine ⟨?_, fun hhas => ?_⟩
    . rw [hdata, hsame.lastHandle]
      exact hold.endHandle
    . rw [hdata, hcccd]
      unfold DisChar.HasCccd at hhas
      rw [hcccd] at hhas
      split
      . next huuid =>
        refine ⟨hmem huuid, lt_of_succ_le ?_ (hstart ▸ hrange.1), hend ▸ hrange.2⟩
        exact hregular.value i.toNat c.charData.handles (by
          unfold DisSrv.handles
          rw [hc]
          rfl)
      . next huuid =>
        rw [if_neg huuid] at hhas
        exact (hold.cccd hhas).imp_left (hmono _)

theorem stage_addPrimary (hreq : cb.requests.head? = some .services) (hcurr : cb.curr = none)
    (hready : Ready cb 0) (hlen : cb.disList.length < 256) (f : SrvFound) (allocated : Bool) :
    ∃ disList, gattcStorageAddPrimaryService m allocated f cb.disList = .ok disList ∧
      Stage { cb with disList } := by
  have hstage : ∀ disList, (∀ s ∈ disList, s.charQueue = []) → Stage { cb with disList } := by
    intro disList hchars
    unfold Stage
    rw [hreq]
    exact ⟨hcurr, fun j s hj _ => (nomatch hj), fun j s _ hj => hchars s
      (mem_of_getElem? hj)⟩
  have hold : ∀ s ∈ cb.disList, s.charQueue = [] := by
    intro s hs
    obtain ⟨j, hj⟩ := mem_iff_getElem?.mp hs
    exact hready.after j s (Nat.zero_le j) hj
  unfold gattcStorageAddPrimaryService gattcStorageGetSrvInstanceId
  split
  . exact ⟨_, rfl, hstage _ hold⟩
  . split
    . refine ⟨_, rfl, hstage _ (forall_mem_append.mpr ⟨hold, ?_⟩)⟩
      intro s hs
      rw [mem_singleton.mp hs]
      unfold SrvFound.primary
      split <;> rfl
    . exact ⟨_, rfl, hstage _ hold⟩

theorem stage_addInclude (hreq : cb.requests.head? = some (.relations startHandle endHandle))
    (hcurr : cb.curr = some k) (hready : Ready cb k) (f : IncFound) (allocated : Bool) :
    Stage { cb with disList := addIncludeAt k f allocated cb.disList } := by
  have hsame : Stage cb := by
    unfold Stage
    rw [hreq]
    exact ⟨k, hcurr, hready⟩
  unfold addIncludeAt
  cases hs : cb.disList[k]? with
  | none => exact hsame
  | some s =>
    cases allocated with
    | false => exact hsame
    | true =>
      have hcurrent : Current cb k s :=
        ⟨hcurr, hs, hready.before, fun j t hj ht => hready.after j t (by omega) ht⟩
      have hset := @Current.set cb k s (gattcStorageAddInclude s f.inc f.typed_inc)
        hcurrent cb.flags
      unfold Stage
      simp only [hreq, if_true]
      refine ⟨k, hcurr, hset.before, fun j t hj ht => ?_⟩
      by_cases hjk : j = k
      . subst hjk
        obtain rfl := Option.some.inj (hset.srv.symm.trans ht)
        exact hready.after j s (Nat.le_refl j) hs
      . exact hset.after j t (by omega) ht

theorem stage_addChar
    (hreq : cb.requests.head? = some (.chars startHandle endHandle)) (h : Current cb k s)
    (hclean : UpTo cb.cccds s 0) (hlen : s.charQueue.length < 256) (f : CharFound) :
    ∃ disList, addCharAt k f true cb.disList = .ok disList ∧ Stage { cb with disList } := by
  have hadd : ∃ instanceId, gattcStorageAddChar s f =
      .ok (s.pushChar ⟨0, ⟨0, 0, 0⟩, f.data instanceId⟩ (f.typed_data instanceId)) := by
    unfold gattcStorageAddChar gattcStorageGetCharInstanceId
    rw [if_pos hlen]
    exact ⟨_, rfl⟩
  obtain ⟨instanceId, hadd⟩ := hadd
  have hset := @Current.set cb k s
    (s.pushChar ⟨0, ⟨0, 0, 0⟩, f.data instanceId⟩ (f.typed_data instanceId)) h cb.flags
  unfold addCharAt
  simp only [h.srv, hadd, if_true]
  refine ⟨_, rfl, ?_⟩
  unfold Stage
  simp only [hreq]
  refine ⟨k, _, hset, fun j c hc => ⟨fun hlt => (by cases hlt), fun _ => ?_⟩⟩
  rcases mem_append.mp (mem_of_getElem? hc) with hmem | hmem
  . obtain ⟨j', hj'⟩ := mem_iff_getElem?.mp hmem
    exact (hclean j' c hj').2 (Nat.zero_le j')
  . rw [mem_singleton.mp hmem]
    exact fun hhas => absurd hhas (by decide : (0 : UInt8) ≠ attrTypeCccdDesc)

theorem stage_addDesc
    (hreq : cb.requests.head? = some (.descs startHandle endHandle)) (h : Current cb k s)
    (hflags : cb.flags k = i.toUInt16) (hregular : Ascending s → Regular s)
    (hfound : Found cb.cccds s i startHandle endHandle) (uuid16 : Option UInt16)
    (hrange : startHandle ≤ handle ∧ handle ≤ endHandle)
    (hmono : ∀ handle ∈ cb.cccds, handle ∈ cccds)
    (hmem : uuid16 = some gattUuidCharClientConfig → handle ∈ cccds) :
    Stage { cb with cccds, disList := addDescAt k (cb.flags k) uuid16 handle cb.disList } := by
  have hcurrent : Current { cb with cccds } k s :=
    ⟨h.curr, h.srv, fun j t hj ht ha => ((h.before j t hj ht) ha).mono hmono, h.after⟩
  have hset := @Current.set { cb with cccds } k s
    (s.modifyChar i.toNat (.addDesc uuid16 handle)) hcurrent cb.flags
  have hsame := sameSrv_modifyChar s i.toNat (.addDesc uuid16 handle)
  unfold addDescAt
  simp only [h.srv, hflags, UInt8.toNat_toUInt16]
  unfold Stage
  simp only [hreq]
  exact ⟨k, _, i, hset, hflags, fun ha => hsame.regular (hregular (hsame.ascending ha)),
    hfound.addDesc uuid16 hrange hmono hmem⟩

theorem currIndex_some (hcurr : cb.curr = some k) : cb.currIndex = k := by
  unfold DisCb.currIndex
  rw [hcurr]
  rfl

theorem stage_result (h : Stage cb) {r : Result} (hpossible : DisOp.Possible cb (.result r))
    (hok : DisOp.Ok cb (.result r)) :
    ∃ cb', gattClientDiscoverResultExtCb m r cb = .ok cb' ∧ cb'.state = .discovery ∧ Stage cb' := by
  obtain ⟨hstate, hpossible⟩ := hpossible
  unfold Stage at h
  cases hreq : cb.requests.head? with
  | none =>
    rw [hreq] at h
    exact h.elim
  | some q =>
    rw [hreq] at h hpossible
    unfold gattClientDiscoverResultExtCb
    cases r with
    | srv f allocated =>
      cases q with
      | services =>
        obtain ⟨disList, hadd, hstage⟩ := @stage_addPrimary m cb hreq h.1 h.2 hok f allocated
        simp only [disCall, hadd]
        exact ⟨_, rfl, hstate, hstage⟩
      | relations _ _ | chars _ _ | descs _ _ => exact hpossible.elim
    | relation f allocated =>
      cases q with
      | relations _ _ =>
        obtain ⟨k, hcurr, hready⟩ := h
        simp only [disCall, currIndex_some hcurr]
        exact ⟨_, rfl, hstate, stage_addInclude hreq hcurr hready f allocated⟩
      | services | chars _ _ | descs _ _ => exact hpossible.elim
    | char f allocated =>
      cases q with
      | chars _ _ =>
        obtain ⟨k, s, hcurrent, hclean⟩ := h
        obtain ⟨hallocated, hlen⟩ := hok
        obtain ⟨disList, hadd, hstage⟩ := stage_addChar hreq hcurrent hclean
          (hlen k s hcurrent.curr hcurrent.srv) f
        simp only [disCall, currIndex_some hcurrent.curr, hallocated, hadd]
        exact ⟨_, rfl, hstate, hstage⟩
      | services | relations _ _ | descs _ _ => exact hpossible.elim
    | desc uuid16 handle =>
      cases q with
      | descs startHandle endHandle =>
        obtain ⟨k, s, i, hcurrent, hflags, hregular, hfound⟩ := h
        simp only [currIndex_some hcurrent.curr]
        refine ⟨_, rfl, hstate,
          stage_addDesc hreq hcurrent hflags hregular hfound uuid16 hpossible ?_ ?_⟩
        . intro handle' hmem
          split
          . exact mem_cons_of_mem _ hmem
          . exact hmem
        . intro huuid
          rw [if_pos huuid]
          exact mem_cons_self
      | services | relations _ _ | chars _ _ => exact hpossible.elim

end

section

variable {m : DisMode} {cb : DisCb}

def DisInv (cb : DisCb) : Prop :=
  match cb.state with
  | .discovery => Stage cb
  | .done => ∀ s ∈ cb.listed, Good cb.cccds s
  | .failed => True

theorem inv_start : DisInv .start :=
  ⟨rfl, fun _ _ hj _ => (nomatch hj), fun _ _ _ hj => (nomatch hj)⟩

theorem inv_completion (h : DisInv cb)
    (hpossible : DisOp.Possible cb (.complete c a)) (hok : DisOp.Ok cb (.complete c a)) :
    ∃ cb', gattClientDiscoverStateExtCb m c a cb = .ok cb' ∧ DisInv cb' := by
  have hstate := hpossible.1
  unfold DisInv at h
  rw [hstate] at h
  obtain ⟨r, hrun, hfollows⟩ := @follows_completion m cb a.accepted h c a hpossible hok
  obtain ⟨r', hrun', hsame, -⟩ := @issues_completion m cb a.accepted c a hok
  obtain rfl := Except.ok.inj (hrun.symm.trans hrun')
  unfold gattClientDiscoverStateExtCb
  simp only [hrun, bind, Except.bind]
  cases hr : r.ok with
  | false => exact ⟨_, rfl, trivial⟩
  | true =>
    have hstage := hfollows hr
    cases hcmpl : r.cmpl with
    | false =>
      rw [hcmpl, if_neg Bool.false_ne_true] at hstage
      refine ⟨r.cb, rfl, ?_⟩
      unfold DisInv
      rw [hsame, hstate]
      exact hstage
    | true =>
      rw [hcmpl, if_pos rfl] at hstage
      simp only [if_true]
      split
      . exact ⟨_, rfl, hstage⟩
      . exact ⟨_, rfl, trivial⟩

theorem inv_step (h : DisInv cb) (hpossible : op.Possible cb) (hok : op.Ok cb) :
    ∃ cb', cb.step m op = .ok cb' ∧ DisInv cb' := by
  cases op with
  | result r =>
    have hstate := hpossible.1
    unfold DisInv at h
    rw [hstate] at h
    obtain ⟨cb', hrun, hstate', hstage⟩ := @stage_result m cb h r hpossible hok
    refine ⟨cb', hrun, ?_⟩
    unfold DisInv
    rw [hstate']
    exact hstage
  | complete c a => exact inv_completion h hpossible hok

theorem Stage.behind (h : Stage cb) : ∀ s ∈ cb.disList.take (cb.curr.getD 0), Good cb.cccds s := by
  have hall : ∀ k, (∀ j s, j < k → cb.disList[j]? = some s → Good cb.cccds s) →
      ∀ s ∈ cb.disList.take k, Good cb.cccds s := by
    intro k hbefore s hs
    obtain ⟨j, hj⟩ := mem_iff_getElem?.mp hs
    rw [getElem?_take] at hj
    split at hj
    . next hlt => exact hbefore j s hlt hj
    . cases hj
  unfold Stage at h
  cases hreq : cb.requests.head? with
  | none =>
    rw [hreq] at h
    exact h.elim
  | some q =>
    rw [hreq] at h
    cases q with
    | services =>
      rw [h.1]
      exact nofun
    | relations _ _ =>
      obtain ⟨k, hcurr, hready⟩ := h
      rw [hcurr]
      exact hall k hready.before
    | chars _ _ =>
      obtain ⟨k, s, hcurrent, -⟩ := h
      rw [hcurrent.curr]
      exact hall k hcurrent.before
    | descs _ _ =>
      obtain ⟨k, s, i, hcurrent, -⟩ := h
      rw [hcurrent.curr]
      exact hall k hcurrent.before

theorem DisInv.behind (h : DisInv cb) : ∀ s ∈ cb.behind, Good cb.cccds s := by
  unfold DisInv at h
  unfold DisCb.behind
  cases hstate : cb.state with
  | discovery =>
    rw [hstate] at h
    exact h.behind
  | done =>
    rw [hstate] at h
    exact h
  | failed => exact nofun

theorem discovers (m : DisMode) (ops : List DisOp)
    (hok : Run.Along (disRun m) OkOp (.ok .start) ops) :
    (∃ cb, Run.exec (disRun m) (.ok .start) ops = .ok cb ∧
      ∀ s ∈ cb.behind, Ascending s → Described cb.cccds s) ∧
      ∀ cb c a, DisOp.Ok cb (.complete c a) →
        ∃ cb', gattClientDiscoverStateExtCb m c a cb = .ok cb' ∧ Answered cb cb' := by
  have hstep : ∀ r op, (∃ cb, r = .ok cb ∧ DisInv cb) → OkOp r op →
      ∃ cb', disRun m r op = .ok cb' ∧ DisInv cb' := by
    rintro r op ⟨cb, rfl, hinv⟩ hop
    obtain ⟨hpossible, hop⟩ := hop cb rfl
    exact inv_step hinv hpossible hop
  obtain ⟨cb, hrun, hinv⟩ := Run.exec_inv hstep (.ok .start) ops ⟨.start, rfl, inv_start⟩ hok
  exact ⟨⟨cb, hrun, hinv.behind⟩, fun cb c a hop => answered_completion hop⟩

abbrev PossibleOp (r : Except Stuck DisCb) (op : DisOp) : Prop := ∀ cb, r = .ok cb → op.Possible cb

theorem okOp_ok (hpossible : op.Possible cb) (hok : op.Ok cb) : OkOp (.ok cb) op := by
  rintro _ ⟨⟩
  exact ⟨hpossible, hok⟩

theorem lt_of_handles {s : DisSrv} {i : Nat} {h : Handles} (hi : s.handles i = some h) :
    i < s.charQueue.length := by
  unfold DisSrv.handles at hi
  obtain ⟨c, hc, -⟩ := Option.map_eq_some_iff.mp hi
  exact (List.getElem?_eq_some_iff.mp hc).1

theorem regular_of_forall {s : DisSrv} (h : ∀ i < s.charQueue.length, ∀ d ∈ s.handles i,
    d.valueHandle ≠ 0xFFFF ∧ (i = 0 ∨ d.valueHandle = d.declHandle + 1)) : Regular s :=
  ⟨fun i d hd => ((h (i + 1) (lt_of_handles hd) d hd).2).resolve_left (Nat.succ_ne_zero i),
    fun i d hd => (h i (lt_of_handles hd) d hd).1⟩

def allMode : DisMode := ⟨fun _ => true, false, fun _ => true⟩

def twoChars : List DisOp :=
  [.result (.srv ⟨.uuid16 0x1800, 1, 9⟩ true), .complete .srvDone ⟨true, true⟩,
    .complete .relationDone ⟨true, true⟩, .result (.char ⟨2, 0x10, 3, .inl 0x2A00⟩ true),
    .result (.char ⟨6, 0x02, 7, .inl 0x2A01⟩ true), .complete .charDone ⟨true, true⟩,
    .result (.desc (some 0x2902) 4), .complete .charDescriptorDone ⟨true, true⟩,
    .complete .charDescriptorDone ⟨true, true⟩]

theorem along_twoChars : Run.Along (disRun allMode) OkOp (.ok .start) twoChars := by
  have hregular : ∀ (cb : DisCb) (k : Nat) (s : DisSrv), cb.curr = some k →
      cb.disList[k]? = some s → s.charQueue.length < 256 → Regular s →
      ∀ k' s', cb.curr = some k' → cb.disList[k']? = some s' →
        s'.charQueue.length < 256 ∧ (Ascending s' → Regular s') := by
    intro cb k s hcurr hs hlen hreg k' s' hcurr' hs'
    obtain rfl := Option.some.inj (hcurr.symm.trans hcurr')
    obtain rfl := Option.some.inj (hs.symm.trans hs')
    exact ⟨hlen, fun _ => hreg⟩
  refine ⟨okOp_ok ⟨rfl, trivial⟩ (Nat.zero_lt_succ 255), ?_⟩
  refine ⟨okOp_ok ⟨rfl, trivial⟩ ⟨by decide, nofun⟩, ?_⟩
  refine ⟨okOp_ok ⟨rfl, trivial⟩
    ⟨by decide, hregular _ _ _ rfl rfl (by decide) (regular_of_forall (by decide))⟩, ?_⟩
  refine ⟨okOp_ok ⟨rfl, trivial⟩ ⟨rfl, fun k s hcurr hs => ?_⟩, ?_⟩
  . exact (hregular _ _ _ rfl rfl (by decide) (regular_of_forall (by decide)) k s hcurr hs).1
  refine ⟨okOp_ok ⟨rfl, trivial⟩ ⟨rfl, fun k s hcurr hs => ?_⟩, ?_⟩
  . exact (hregular _ _ _ rfl rfl (by decide) (regular_of_forall (by decide)) k s hcurr hs).1
  refine ⟨okOp_ok ⟨rfl, trivial⟩
    ⟨by decide, hregular _ _ _ rfl rfl (by decide) (regular_of_forall (by decide))⟩, ?_⟩
  refine ⟨okOp_ok ⟨rfl, by decide, by decide⟩ trivial, ?_⟩
  refine ⟨okOp_ok ⟨rfl, trivial⟩
    ⟨by decide, hregular _ _ _ rfl rfl (by decide) (regular_of_forall (by decide))⟩, ?_⟩
  refine ⟨okOp_ok ⟨rfl, trivial⟩
    ⟨by decide, hregular _ _ _ rfl rfl (by decide) (regular_of_forall (by decide))⟩, trivial⟩

theorem discovers_twoChars :
    ∃ cb, Run.exec (disRun allMode) (.ok .start) twoChars = .ok cb ∧ cb.state = .done ∧
      ∀ s ∈ cb.behind, Ascending s → Described cb.cccds s := by
  obtain ⟨⟨cb, hrun, hbehind⟩, -⟩ := discovers allMode twoChars along_twoChars
  have hstate : (Run.exec (disRun allMode) (.ok .start) twoChars).map (·.state) = .ok .done := rfl
  rw [hrun] at hstate
  exact ⟨cb, hrun, Except.ok.inj hstate, hbehind⟩

theorem ascending_of_forall {s : DisSrv} (h : ∀ i < s.charQueue.length, ∀ d ∈ s.handles i,
    d.declHandle < d.valueHandle ∧ d.valueHandle ≤ s.srvData.endGroupHandle ∧
      ∀ d' ∈ s.handles (i + 1), d.valueHandle < d'.declHandle) : Ascending s :=
  ⟨fun i d hd => ⟨(h i (lt_of_handles hd) d hd).1, (h i (lt_of_handles hd) d hd).2.1⟩,
    fun i d d' hd hd' => (h i (lt_of_handles hd) d hd).2.2 d' hd'⟩

def lateValue : List DisOp :=
  [.result (.srv ⟨.uuid16 0x1800, 1, 9⟩ true), .complete .srvDone ⟨true, true⟩,
    .complete .relationDone ⟨true, true⟩, .result (.char ⟨2, 0x10, 3, .inl 0x2A00⟩ true),
    .result (.char ⟨6, 0x02, 8, .inl 0x2A01⟩ true), .complete .charDone ⟨true, true⟩,
    .complete .charDescriptorDone ⟨true, true⟩, .complete .charDescriptorDone ⟨true, true⟩]

def lastValue : List DisOp :=
  [.result (.srv ⟨.uuid16 0x1800, 0xFFFE, 0xFFFF⟩ true), .complete .srvDone ⟨true, true⟩,
    .complete .relationDone ⟨true, true⟩, .result (.char ⟨0xFFFE, 0x10, 0xFFFF, .inl 0x2A00⟩ true),
    .complete .charDone ⟨true, true⟩, .result (.desc (some 0x2902) 5),
    .complete .charDescriptorDone ⟨true, true⟩]

theorem possibleOp_ok (h : op.Possible cb) : PossibleOp (.ok cb) op := by
  rintro _ ⟨⟩
  exact h

def wideChar (i : Nat) : CharFound := ⟨.ofNat (2 * i + 2), 0x10, .ofNat (2 * i + 3), .inl 0x2A00⟩

def wideSrv : Nat → DisSrv
  | 0 => .new (.uuid16 ⟨⟨attrTypePrimarySrvUuid16, 0, 1⟩, 513, 0x1800⟩) rfl
  | n + 1 => (wideSrv n).pushChar ⟨0, ⟨0, 0, 0⟩, (wideChar n).data 0⟩ ((wideChar n).typed_data 0)

theorem wideSrv_charQueue (n : Nat) : (wideSrv n).charQueue =
    (List.range n).map fun i => ⟨0, ⟨0, 0, 0⟩, (wideChar i).data 0⟩ := by
  induction n with
  | zero => rfl
  | succ n ih =>
    rw [range_succ, map_append, ← ih]
    rfl

theorem noRoom_wideSrv : NoRoom (wideSrv 256) := by
  have hall : ∀ i < 256, (if i + 1 < 256 then UInt16.ofNat (2 * (i + 1) + 3) - 2 else 513) <
      UInt16.ofNat (2 * i + 3) + 1 := by decide +kernel
  have hend : (wideSrv 256).srvData.endGroupHandle = 513 := rfl
  intro i c hc
  rw [wideSrv_charQueue, List.getElem?_map, Option.map_eq_some_iff] at hc
  obtain ⟨i', hi', rfl⟩ := hc
  obtain ⟨hlt, heq⟩ := List.getElem?_eq_some_iff.mp hi'
  rw [List.getElem_range] at heq
  rw [List.length_range] at hlt
  subst heq
  unfold DisSrv.charEnd
  rw [wideSrv_charQueue, getElem?_map, hend]
  have hroom := hall i hlt
  by_cases hnext : i + 1 < 256
  . rw [if_pos hnext] at hroom
    rw [getElem?_range hnext]
    exact hroom
  . rw [if_neg hnext] at hroom
    rw [getElem?_eq_none (by rw [length_range]; omega)]
    exact hroom

theorem not_discovers :
    (¬ ∀ ops, Run.Along (disRun allMode) PossibleOp (.ok .start) ops → ∀ cb,
      Run.exec (disRun allMode) (.ok .start) ops = .ok cb →
        ∀ s ∈ cb.behind, Ascending s → ∀ (i : Nat) (c : DisChar), s.charQueue[i]? = some c →
          c.charData.endHandle = s.lastHandle i) ∧
      (¬ ∀ ops, Run.Along (disRun allMode) PossibleOp (.ok .start) ops → ∀ cb,
        Run.exec (disRun allMode) (.ok .start) ops = .ok cb →
          ∀ s ∈ cb.behind, Ascending s → ∀ (i : Nat) (c : DisChar), s.charQueue[i]? = some c →
            c.HasCccd → c.charData.valueHandle < c.cccdDescriptor.attHandle) ∧
      ∀ rounds, descLoop rounds 0 (wideSrv 256) = .error .endless := by
  refine ⟨fun h => ?_, fun h => ?_, fun rounds => ?_⟩
  . have hend := h lateValue
      ⟨possibleOp_ok ⟨rfl, trivial⟩, possibleOp_ok ⟨rfl, trivial⟩, possibleOp_ok ⟨rfl, trivial⟩,
        possibleOp_ok ⟨rfl, trivial⟩, possibleOp_ok ⟨rfl, trivial⟩, possibleOp_ok ⟨rfl, trivial⟩,
        possibleOp_ok ⟨rfl, trivial⟩, possibleOp_ok ⟨rfl, trivial⟩, trivial⟩ _ rfl _
      mem_cons_self (ascending_of_forall (by decide)) 0 _ rfl
    exact absurd hend (by decide)
  . have hlt := h lastValue
      ⟨possibleOp_ok ⟨rfl, trivial⟩, possibleOp_ok ⟨rfl, trivial⟩, possibleOp_ok ⟨rfl, trivial⟩,
        possibleOp_ok ⟨rfl, trivial⟩, possibleOp_ok ⟨rfl, trivial⟩,
        possibleOp_ok ⟨rfl, by decide, by decide⟩, possibleOp_ok ⟨rfl, trivial⟩, trivial⟩ _ rfl _
      mem_cons_self (ascending_of_forall (by decide)) 0 _ rfl rfl
    exact absurd hlt (by decide)
  . refine descLoop_endless rounds 0 ?_ noRoom_wideSrv
    rw [wideSrv_charQueue, length_map, length_range]

end

end GattcStorage
