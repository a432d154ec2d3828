import Earphone.GattcStorage.FindChar
import Earphone.GattcStorage.GenCore
import Earphone.GattcStorage.Secondary
import Earphone.Lib.Numbered
import Earphone.Lib.Run

namespace GattcStorage

open Scan Numbered List

structure SrvFound where
  uuid : AttrUuid
  attHandle : UInt16
  endGroupHandle : UInt16

def SrvFound.primary (f : SrvFound) (instanceId : UInt8) : DisSrv :=
  match f.uuid with
  | .uuid16 uuid16 =>
    .new (.uuid16 ⟨⟨attrTypePrimarySrvUuid16, instanceId, f.attHandle⟩, f.endGroupHandle,
      uuid16⟩) rfl
  | .uuid128 uuid128 =>
    .new (.uuid128 ⟨⟨attrTypePrimarySrvUuid128, instanceId, f.attHandle⟩, f.endGroupHandle, 0,
      uuid128⟩) rfl

def gattcStorageAddPrimaryService (m : DisMode) (allocated : Bool) (f : SrvFound)
    (disList : List DisSrv) : Except Stuck (List DisSrv) :=
  if m.takes f.uuid = false then
    .ok disList
  else if allocated then do
    let instanceId ← gattcStorageGetSrvInstanceId disList f.uuid
    return disList ++ [f.primary instanceId]
  else
    .ok disList

structure IncFound where
  declHandle : UInt16
  attHandle : UInt16
  endGroupHandle : UInt16
  uuid : AttrUuid

def IncFound.inc (f : IncFound) : DisInc :=
  match f.uuid with
  | .uuid16 uuid16 =>
    .uuid16 ⟨⟨attrTypeIncludeUuid16, 0, f.declHandle⟩, f.attHandle, f.endGroupHandle, uuid16, 0⟩
  | .uuid128 uuid128 =>
    .uuid128 ⟨⟨attrTypeIncludeUuid128, 0, f.declHandle⟩, f.attHandle, f.endGroupHandle, uuid128⟩

theorem IncFound.typed_inc (f : IncFound) : f.inc.Typed := by
  unfold IncFound.inc
  split <;> rfl

inductive DisCall where
  | addPrimary (f : SrvFound) (allocated : Bool)
  | addInclude (i : Nat) (f : IncFound) (allocated : Bool)
  | addChar (i : Nat) (f : CharFound) (allocated : Bool)

def addIncludeAt (i : Nat) (f : IncFound) (allocated : Bool) (disList : List DisSrv) :
    List DisSrv :=
  match disList[i]? with
  | none => disList
  | some s =>
    if allocated then disList.set i (gattcStorageAddInclude s f.inc f.typed_inc) else disList

def addCharAt (i : Nat) (f : CharFound) (allocated : Bool) (disList : List DisSrv) :
    Except Stuck (List DisSrv) :=
  match disList[i]? with
  | none => .ok disList
  | some s =>
    if allocated then do
      let s ← gattcStorageAddChar s f
      return disList.set i s
    else
      .ok disList

def disCall (m : DisMode) (disList : List DisSrv) : DisCall → Except Stuck (List DisSrv)
  | .addPrimary f allocated => gattcStorageAddPrimaryService m allocated f disList
  | .addInclude i f allocated => .ok (addIncludeAt i f allocated disList)
  | .addChar i f allocated => addCharAt i f allocated disList

def disStep (m : DisMode) (disList : Except Stuck (List DisSrv)) (call : DisCall) :
    Except Stuck (List DisSrv) := disList.bind (disCall m · call)

def SrvData.instanceId : SrvData → UInt8
  | .uuid16 d => d.hdr.instanceId
  | .uuid128 d => d.hdr.instanceId

def CharData.uuid : CharData → AttrUuid
  | .uuid16 d => .uuid16 d.uuid16
  | .uuid128 d => .uuid128 d.uuid128

def CharData.instanceId : CharData → UInt8
  | .uuid16 d => d.hdr.instanceId
  | .uuid128 d => d.hdr.instanceId

def SrvData.isAttr (uuid : AttrUuid) (instanceId : UInt8) (d : SrvData) : Bool :=
  match uuid, d with
  | .uuid16 u, .uuid16 d => instanceId == d.hdr.instanceId && u == d.uuid16
  | .uuid128 u, .uuid128 d => instanceId == d.hdr.instanceId && u == d.uuid128
  | _, _ => false

def gattcStorageFindSrvByUuid (srvList : List Srv) (uuid : AttrUuid) (instanceId : UInt8) :
    Except Stuck (Option Nat) :=
  match (srvList.take 256).findIdx? fun s => s.srvData.isAttr uuid instanceId with
  | some i => .ok (some i)
  | none => if srvList.length < 256 then .ok none else .error .endless

def gattcStorageFindCharByUuid (s : Srv) (uuid : AttrUuid) (instanceId : UInt8) : Option CharData :=
  match uuid with
  | .uuid16 uuid16 =>
    (s.char16.find? fun c => instanceId == c.charData.hdr.instanceId &&
      uuid16 == c.charData.uuid16).map fun c => .uuid16 c.charData
  | .uuid128 uuid128 =>
    (s.char128.find? fun c => instanceId == c.charData.hdr.instanceId &&
      uuid128 == c.charData.uuid128).map fun c => .uuid128 c.charData

def DisChar.closed (c : DisChar) : CharData :=
  match c.charData with
  | .uuid16 d => .uuid16 (d.closed c.descEndHandle)
  | .uuid128 d => .uuid128 (d.closed c.descEndHandle)

def srvPairs (disList : List DisSrv) : List (AttrUuid × UInt8) :=
  disList.map fun s => (s.srvData.uuid, s.srvData.instanceId)

def charPairs (chars : List DisChar) : List (AttrUuid × UInt8) :=
  chars.map fun c => (c.charData.uuid, c.charData.instanceId)

structure Addressable (disList : List DisSrv) : Prop where
  srvs : (srvPairs disList).Nodup
  chars : ∀ s ∈ disList, (charPairs s.charQueue).Nodup
  finds : ∀ mem l, gattcStorageSrvListGen mem disList = .ok (some l) →
    ∀ i s, disList[i]? = some s →
      gattcStorageFindSrvByUuid l.read s.srvData.uuid s.srvData.instanceId = .ok (some i) ∧
      ∃ r, l.read[i]? = some r ∧ r.srvData = s.srvData ∧ ∀ c ∈ s.charQueue,
        gattcStorageFindCharByUuid r c.charData.uuid c.charData.instanceId = some c.closed

def Books (m : DisMode) (calls : List DisCall) : Prop :=
  ∃ disList, Run.exec (disStep m) (.ok []) calls = .ok disList ∧ Addressable disList

def CallOk (m : DisMode) (disList : Except Stuck (List DisSrv)) (call : DisCall) : Prop :=
  match disList, call with
  | .ok disList, .addPrimary f allocated =>
    m.takes f.uuid = true → allocated = true → disList.length < 256
  | .ok _, .addInclude .. => True
  | .ok disList, .addChar i _ allocated =>
    ∀ s ∈ disList[i]?, allocated = true → s.charQueue.length < 256
  | .error _, _ => False

section

variable {m : DisMode} {disList : List DisSrv}

theorem SrvData.uuid_eq_iff (uuid : AttrUuid) (s : DisSrv) :
    s.sameUuid uuid = true ↔ s.srvData.uuid = uuid := by
  unfold DisSrv.sameUuid SrvData.uuid
  cases uuid <;> cases s.srvData <;> simp <;> exact eq_comm

theorem CharData.sameUuid_iff (d d' : CharData) : d.sameUuid d' = true ↔ d'.uuid = d.uuid := by
  unfold CharData.sameUuid CharData.uuid
  cases d <;> cases d' <;> simp <;> exact eq_comm

theorem srvInstanceId_eq (hlen : disList.length < 256) (uuid : AttrUuid) :
    gattcStorageGetSrvInstanceId disList uuid = .ok (next uuid (srvPairs disList)) := by
  unfold gattcStorageGetSrvInstanceId Numbered.next srvPairs
  rw [if_pos hlen, countP_map]
  congr 3
  funext s
  rw [Bool.eq_iff_iff, SrvData.uuid_eq_iff]
  simp

theorem charInstanceId_eq (hlen : chars.length < 256) (d : CharData) :
    gattcStorageGetCharInstanceId chars d.sameUuid = .ok (next d.uuid (charPairs chars)) := by
  unfold gattcStorageGetCharInstanceId Numbered.next charPairs
  rw [if_pos hlen, countP_map]
  congr 3
  funext c
  rw [Bool.eq_iff_iff, CharData.sameUuid_iff]
  simp

structure Inv (disList : List DisSrv) : Prop where
  length : disList.length ≤ 256
  srvs : Seq (srvPairs disList)
  chars : ∀ s ∈ disList, s.charQueue.length ≤ 256 ∧ Seq (charPairs s.charQueue)

theorem Inv.set (h : Inv disList) {i : Nat} {s s' : DisSrv} (hs : disList[i]? = some s)
    (hdata : s'.srvData = s.srvData)
    (hchars : s'.charQueue.length ≤ 256 ∧ Seq (charPairs s'.charQueue)) :
    Inv (disList.set i s') where
  length := by rw [length_set]; exact h.length
  srvs := by
    have hsame : srvPairs (disList.set i s') = srvPairs disList := by
      unfold srvPairs
      obtain ⟨hi, rfl⟩ := List.getElem?_eq_some_iff.mp hs
      rw [List.map_set, hdata]
      apply List.ext_getElem?
      intro j
      rw [getElem?_set, length_map]
      split_ifs with hij
      . subst hij
        rw [getElem?_map, getElem?_eq_getElem hi]
        rfl
      . rfl
    rw [hsame]
    exact h.srvs
  chars := by
    intro t ht
    rcases mem_or_eq_of_mem_set ht with ht | rfl
    . exact h.chars t ht
    . exact hchars

theorem inv_addPrimary (h : Inv disList)
    (hok : CallOk m (.ok disList) (.addPrimary f allocated)) :
    ∃ disList', disCall m disList (.addPrimary f allocated) = .ok disList' ∧ Inv disList' := by
  simp only [disCall, gattcStorageAddPrimaryService]
  cases htakes : m.takes f.uuid with
  | false => exact ⟨disList, rfl, h⟩
  | true =>
    cases allocated with
    | false => exact ⟨disList, rfl, h⟩
    | true =>
      have hlen : disList.length < 256 := hok htakes rfl
      have hsrv : ∀ n, (f.primary n).srvData.uuid = f.uuid ∧
          (f.primary n).srvData.instanceId = n ∧ (f.primary n).charQueue = [] := by
        intro n
        unfold SrvFound.primary
        split
        . next huuid => exact ⟨huuid.symm, rfl, rfl⟩
        . next huuid => exact ⟨huuid.symm, rfl, rfl⟩
      rw [if_neg (Bool.true_eq_false ▸ id), if_pos rfl, srvInstanceId_eq hlen]
      refine ⟨_, rfl, ?_, ?_, ?_⟩
      . rw [length_append, length_singleton]
        omega
      . obtain ⟨huuid, hid, -⟩ := hsrv (next f.uuid (srvPairs disList))
        unfold srvPairs at *
        rw [map_append, map_singleton, huuid, hid]
        exact h.srvs.snoc f.uuid
      . intro s hs
        rcases mem_append.mp hs with hs | hs
        . exact h.chars s hs
        . rw [mem_singleton.mp hs, (hsrv _).2.2]
          exact ⟨Nat.zero_le _, .nil⟩

theorem inv_addInclude (h : Inv disList) (i : Nat) (f : IncFound) (allocated : Bool) :
    Inv (addIncludeAt i f allocated disList) := by
  unfold addIncludeAt
  split
  . exact h
  . next s hs =>
    split_ifs
    . exact h.set hs rfl (h.chars s (mem_of_getElem? hs))
    . exact h

theorem inv_addChar (h : Inv disList)
    (hok : CallOk m (.ok disList) (.addChar i f allocated)) :
    ∃ disList', disCall m disList (.addChar i f allocated) = .ok disList' ∧ Inv disList' := by
  simp only [disCall, addCharAt]
  split
  . exact ⟨disList, rfl, h⟩
  . next s hs =>
    cases allocated with
    | false => exact ⟨disList, rfl, h⟩
    | true =>
      have hlen : s.charQueue.length < 256 := hok s hs rfl
      obtain ⟨-, hseq⟩ := h.chars s (mem_of_getElem? hs)
      have hchar : ∀ n, (f.data n).uuid = (f.data 0).uuid ∧ (f.data n).instanceId = n := by
        intro n
        unfold CharFound.data
        cases f.uuid <;> exact ⟨rfl, rfl⟩
      simp only [if_true, gattcStorageAddChar, charInstanceId_eq hlen, bind, Except.bind, pure,
        Except.pure]
      refine ⟨_, rfl, h.set hs rfl ⟨?_, ?_⟩⟩
      . simp only [DisSrv.pushChar, length_append, length_singleton]
        omega
      . obtain ⟨huuid, hid⟩ := hchar (next (f.data 0).uuid (charPairs s.charQueue))
        unfold charPairs DisSrv.pushChar at *
        rw [map_append, map_singleton, huuid, hid]
        exact hseq.snoc _

end

theorem SrvData.isAttr_iff (uuid : AttrUuid) (instanceId : UInt8) (d : SrvData) :
    d.isAttr uuid instanceId = true ↔ (d.uuid, d.instanceId) = (uuid, instanceId) := by
  unfold SrvData.isAttr SrvData.uuid SrvData.instanceId
  rw [Prod.mk.injEq]
  cases uuid <;> cases d <;> simp <;> tauto

theorem findIdx?_of_nodup {α β : Type} {l : List α} {f : α → β} {p : α → Bool} {a : α} {i : Nat}
    (hnodup : (l.map f).Nodup) (hi : l[i]? = some a) (hp : ∀ b, p b = true ↔ f b = f a) :
    l.findIdx? p = some i := by
  obtain ⟨hlt, rfl⟩ := List.getElem?_eq_some_iff.mp hi
  refine List.findIdx?_eq_some_iff_getElem.mpr ⟨hlt, (hp _).mpr rfl, ?_⟩
  intro j hj hpj
  have heq := (hp _).mp hpj
  have hinj := @List.Nodup.getElem_inj_iff β (l.map f) hnodup j (by rw [length_map]; omega) i
    (by rw [length_map]; exact hlt)
  rw [getElem_map, getElem_map] at hinj
  exact absurd (hinj.mp heq) (by omega)

theorem find?_of_nodup {α β γ : Type} {l : List α} {f : α → β} {as : α → Option γ} {p : γ → Bool}
    {a : α} {x : γ} (hnodup : (l.map f).Nodup) (ha : a ∈ l) (hx : as a = some x)
    (hp : ∀ b y, as b = some y → (p y = true ↔ f b = f a)) :
    (l.filterMap as).find? p = some x := by
  have hmem : x ∈ l.filterMap as := mem_filterMap.mpr ⟨a, ha, hx⟩
  cases hfind : (l.filterMap as).find? p with
  | none => exact absurd ((hp a x hx).mpr rfl) (find?_eq_none.mp hfind x hmem)
  | some y =>
    obtain ⟨b, hb, hy⟩ := mem_filterMap.mp (mem_of_find?_eq_some hfind)
    have heq := (hp b y hy).mp (find?_some hfind)
    have hsame : b = a := inj_on_of_nodup_map hnodup hb ha heq
    subst hsame
    exact hy.symm.trans hx

theorem exists_of_forall₂ {srvList : List Srv} (hreads : List.Forall₂ ReadsCore srvList disList)
    {i : Nat} {s : DisSrv} (hs : disList[i]? = some s) :
    ∃ r, srvList[i]? = some r ∧ ReadsCore r s := by
  obtain ⟨hi, rfl⟩ := List.getElem?_eq_some_iff.mp hs
  have hlen := hreads.length_eq
  exact ⟨srvList[i], List.getElem?_eq_getElem _, hreads.get (by omega) hi⟩

theorem findSrvByUuid_ok {srvList : List Srv} (hreads : List.Forall₂ ReadsCore srvList disList)
    (hlen : srvList.length < 256) (hnodup : (srvPairs disList).Nodup) {i : Nat} {s : DisSrv}
    (hs : disList[i]? = some s) :
    gattcStorageFindSrvByUuid srvList s.srvData.uuid s.srvData.instanceId = .ok (some i) := by
  have hpairs : srvList.map (fun r => (r.srvData.uuid, r.srvData.instanceId)) =
      srvPairs disList := by
    clear hnodup hs
    induction hreads with
    | nil => rfl
    | cons h _ ih =>
      have htail := ih (Nat.lt_of_succ_lt hlen)
      rw [map_cons, h.srvData, htail]
      rfl
  obtain ⟨r, hr, hrs⟩ := exists_of_forall₂ hreads hs
  have hfind := findIdx?_of_nodup (hpairs ▸ hnodup) hr fun b => by
    rw [SrvData.isAttr_iff s.srvData.uuid s.srvData.instanceId b.srvData, hrs.srvData]
  unfold gattcStorageFindSrvByUuid
  rw [take_of_length_le (Nat.le_of_lt hlen), hfind]

theorem findCharByUuid_ok {r : Srv} {s : DisSrv} (hreads : ReadsCore r s)
    (hnodup : (charPairs s.charQueue).Nodup) {c : DisChar} (hc : c ∈ s.charQueue) :
    gattcStorageFindCharByUuid r c.charData.uuid c.charData.instanceId = some c.closed := by
  cases hdata : c.charData with
  | uuid16 d =>
    have hc16 : c.as16 = some ⟨c.cccdDescriptor, d.closed c.descEndHandle⟩ := by
      simp only [DisChar.as16, hdata]
    have hfind : s.srv.char16.find? (fun x => d.hdr.instanceId == x.charData.hdr.instanceId &&
        d.uuid16 == x.charData.uuid16) = some ⟨c.cccdDescriptor, d.closed c.descEndHandle⟩ := by
      refine find?_of_nodup hnodup hc hc16 fun b y hy => ?_
      cases hb : b.charData with
      | uuid16 d' =>
        simp only [DisChar.as16, hb, Option.some.injEq] at hy
        subst hy
        simp [hdata, CharData.uuid, CharData.instanceId, AttrCharUuid16.closed]
        tauto
      | uuid128 d' => simp [DisChar.as16, hb] at hy
    rw [← hreads.char16] at hfind
    simp only [gattcStorageFindCharByUuid, CharData.uuid, CharData.instanceId, hfind,
      Option.map_some, DisChar.closed, hdata]
  | uuid128 d =>
    have hc128 : c.as128 = some ⟨c.cccdDescriptor, d.closed c.descEndHandle⟩ := by
      simp only [DisChar.as128, hdata]
    have hfind : s.srv.char128.find? (fun x => d.hdr.instanceId == x.charData.hdr.instanceId &&
        d.uuid128 == x.charData.uuid128) = some ⟨c.cccdDescriptor, d.closed c.descEndHandle⟩ := by
      refine find?_of_nodup hnodup hc hc128 fun b y hy => ?_
      cases hb : b.charData with
      | uuid16 d' => simp [DisChar.as128, hb] at hy
      | uuid128 d' =>
        simp only [DisChar.as128, hb, Option.some.injEq] at hy
        subst hy
        simp [hdata, CharData.uuid, CharData.instanceId, AttrCharUuid128.closed]
        tauto
    rw [← hreads.char128] at hfind
    simp only [gattcStorageFindCharByUuid, CharData.uuid, CharData.instanceId, hfind,
      Option.map_some, DisChar.closed, hdata]

theorem Inv.addressable (h : Inv disList) : Addressable disList where
  srvs := h.srvs.nodup (by simpa [srvPairs] using h.length)
  chars := fun s hs => (h.chars s hs).2.nodup (by simpa [charPairs] using (h.chars s hs).1)
  finds := by
    intro mem l hgen i s hs
    have hreads := gen_readsCore hgen fun s hs => (h.chars s hs).1
    refine ⟨findSrvByUuid_ok hreads (read_length_lt hgen)
      (h.srvs.nodup (by simpa [srvPairs] using h.length)) hs, ?_⟩
    obtain ⟨r, hr, hrs⟩ := exists_of_forall₂ hreads hs
    obtain ⟨hlen, hseq⟩ := h.chars s (mem_of_getElem? hs)
    exact ⟨r, hr, hrs.srvData, fun c hc =>
      findCharByUuid_ok hrs (hseq.nodup (by simpa [charPairs] using hlen)) hc⟩

section

variable {m : DisMode} {disList : List DisSrv}

theorem disCall_ok (call : DisCall) (h : Inv disList) (hok : CallOk m (.ok disList) call) :
    ∃ disList', disCall m disList call = .ok disList' ∧ Inv disList' := by
  cases call with
  | addPrimary f allocated => exact inv_addPrimary h hok
  | addInclude i f allocated => exact ⟨_, rfl, inv_addInclude h i f allocated⟩
  | addChar i f allocated => exact inv_addChar h hok

theorem disCall_endless (call : DisCall) (hok : ¬ CallOk m (.ok disList) call) :
    disCall m disList call = .error .endless := by
  cases call with
  | addPrimary f allocated =>
    simp only [CallOk, Classical.not_imp] at hok
    obtain ⟨htakes, rfl, hlen⟩ := hok
    simp only [disCall, gattcStorageAddPrimaryService, htakes, gattcStorageGetSrvInstanceId,
      if_neg hlen, Bool.true_eq_false, if_false, if_true]
    rfl
  | addInclude i f allocated => exact absurd trivial hok
  | addChar i f allocated =>
    simp only [CallOk, not_forall] at hok
    obtain ⟨s, hs, rfl, hlen⟩ := hok
    simp only [disCall, addCharAt, Option.mem_def.mp hs, gattcStorageAddChar,
      gattcStorageGetCharInstanceId, if_neg hlen, if_true]
    rfl

theorem exec_error (calls : List DisCall) (e : Stuck) :
    Run.exec (disStep m) (.error e) calls = .error e := by
  induction calls with
  | nil => rfl
  | cons call calls ih => exact ih

theorem exec_books (calls : List DisCall) (h : Inv disList) :
    (Run.Along (disStep m) (CallOk m) (.ok disList) calls →
      ∃ disList', Run.exec (disStep m) (.ok disList) calls = .ok disList' ∧ Inv disList') ∧
    (¬ Run.Along (disStep m) (CallOk m) (.ok disList) calls →
      Run.exec (disStep m) (.ok disList) calls = .error .endless) := by
  induction calls generalizing disList with
  | nil => exact ⟨fun _ => ⟨disList, rfl, h⟩, fun hnot => absurd trivial hnot⟩
  | cons call calls ih =>
    rw [Run.exec_cons, Run.along_cons]
    by_cases hok : CallOk m (.ok disList) call
    . obtain ⟨disList', hcall, hinv⟩ := disCall_ok call h hok
      have hstep : disStep m (.ok disList) call = .ok disList' := hcall
      rw [hstep]
      obtain ⟨halong, hnot⟩ := ih hinv
      exact ⟨fun h => halong h.2, fun h => hnot fun h' => h ⟨hok, h'⟩⟩
    . have hstep : disStep m (.ok disList) call = .error .endless := disCall_endless call hok
      rw [hstep]
      exact ⟨fun h => absurd h.1 hok, fun _ => exec_error calls .endless⟩

theorem inv_nil : Inv [] where
  length := Nat.zero_le _
  srvs := .nil
  chars := nofun

end

theorem books_iff (m : DisMode) (calls : List DisCall) :
    Books m calls ↔ Run.Along (disStep m) (CallOk m) (.ok []) calls := by
  obtain ⟨halong, hnot⟩ := @exec_books m [] calls inv_nil
  constructor
  . rintro ⟨disList, hexec, -⟩
    by_contra h
    rw [hnot h] at hexec
    cases hexec
  . intro h
    obtain ⟨disList, hexec, hinv⟩ := halong h
    exact ⟨disList, hexec, hinv.addressable⟩

def oneMore : DisCall := .addPrimary ⟨.uuid16 0x180F, 1, 1⟩ true

def anyMode : DisMode := ⟨fun _ => true, false, fun _ => true⟩

theorem oneMore_endless (hlen : ¬ disList.length < 256) :
    disStep anyMode (.ok disList) oneMore = .error .endless := by
  have hnot : ¬ CallOk anyMode (.ok disList) oneMore := fun hok => hlen (hok rfl rfl)
  exact disCall_endless oneMore hnot

theorem length_oneMore (n : Nat)
    (h : Run.exec (disStep anyMode) (.ok disList) (List.replicate n oneMore) = .ok disList') :
    disList'.length = disList.length + n := by
  induction n generalizing disList with
  | zero =>
    cases h
    rfl
  | succ n ih =>
    rw [replicate_succ, Run.exec_cons] at h
    by_cases hlen : disList.length < 256
    . have hstep : disStep anyMode (.ok disList) oneMore =
          .ok (disList ++ [SrvFound.primary ⟨.uuid16 0x180F, 1, 1⟩
            (.ofNat (disList.countP (·.sameUuid (.uuid16 0x180F))))]) := by
        simp only [disStep, Except.bind, oneMore, disCall, gattcStorageAddPrimaryService,
          gattcStorageGetSrvInstanceId, if_pos hlen]
        rfl
      rw [hstep] at h
      rw [ih h, length_append, length_singleton]
      omega
    . rw [oneMore_endless hlen, exec_error] at h
      cases h

theorem not_books : ¬ ∀ (m : DisMode) (calls : List DisCall), Books m calls := by
  intro h
  obtain ⟨disList', hexec, -⟩ := h anyMode (List.replicate 257 oneMore)
  rw [show 257 = 256 + 1 from rfl, replicate_succ', Run.exec_append] at hexec
  cases hfirst : Run.exec (disStep anyMode) (.ok []) (List.replicate 256 oneMore) with
  | error e =>
    rw [hfirst, exec_error] at hexec
    cases hexec
  | ok disList =>
    have hlen := length_oneMore 256 hfirst
    rw [hfirst] at hexec
    rw [Run.exec_cons, oneMore_endless (by rw [hlen]; decide)] at hexec
    cases hexec

end GattcStorage
