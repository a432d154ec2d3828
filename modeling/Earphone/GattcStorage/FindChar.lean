import Earphone.GattcStorage.Load
import Mathlib.Data.List.Pairwise

namespace GattcStorage

open Scan List

inductive GattCharType where
  | unknown
  | value
  | cccd
  | descriptor

structure CharCb where
  cccdHandle : UInt16
  charData : CharData
deriving DecidableEq

def AttrChar16Cb.cb (c : AttrChar16Cb) : CharCb := ⟨c.cccdDescriptor.attHandle, .uuid16 c.charData⟩

def AttrChar128Cb.cb (c : AttrChar128Cb) : CharCb :=
  ⟨c.cccdDescriptor.attHandle, .uuid128 c.charData⟩

def CharData.valueHandle : CharData → UInt16
  | .uuid16 d => d.valueHandle
  | .uuid128 d => d.valueHandle

def CharData.endHandle : CharData → UInt16
  | .uuid16 d => d.endHandle
  | .uuid128 d => d.endHandle

def CharData.properties : CharData → UInt16
  | .uuid16 d => d.properties
  | .uuid128 d => d.properties

def SrvData.startHandle : SrvData → UInt16
  | .uuid16 d => d.hdr.attHandle
  | .uuid128 d => d.hdr.attHandle

def SrvData.endGroupHandle : SrvData → UInt16
  | .uuid16 d => d.endGroupHandle
  | .uuid128 d => d.endGroupHandle

def Srv.table16 (s : Srv) : List CharCb := s.char16.map (·.cb)

def Srv.table128 (s : Srv) : List CharCb := s.char128.map (·.cb)

def Srv.InRange (s : Srv) (handle : UInt16) : Prop :=
  s.srvData.startHandle ≤ handle ∧ handle ≤ s.srvData.endGroupHandle
  deriving Decidable

def gattcStorageFindSrvByHandle (srvList : List Srv) (handle : UInt16) :
    Except Stuck (Option Srv) :=
  match (srvList.take 256).find? fun s => s.InRange handle with
  | some s => .ok (some s)
  | none => if srvList.length < 256 then .ok none else .error .endless

structure CharDesc where
  isFound : Bool
  charType : GattCharType
  charData : Option CharData

def CharCb.desc (c : CharCb) (handle : UInt16) (st : CharDesc) : CharDesc :=
  if handle = c.charData.valueHandle then
    { st with charType := .value, isFound := true }
  else if handle = c.cccdHandle then
    { st with charType := .cccd, isFound := true }
  else if c.charData.valueHandle < handle ∧ handle ≤ c.charData.endHandle then
    { st with charType := .descriptor, isFound := true }
  else
    st

def findCharLoop (handle : UInt16) : List CharCb → CharDesc → CharDesc
  | [], st => st
  | c :: table, st =>
    let st := c.desc handle st
    if st.isFound then { st with charData := some c.charData } else findCharLoop handle table st

def gattcStorageFindCharDesc (s : Srv) (handle : UInt16) : CharDesc :=
  let st : CharDesc := ⟨false, .unknown, none⟩
  if handle ≠ 0 then
    let st := findCharLoop handle s.table16 st
    findCharLoop handle s.table128 st
  else
    st

def gattCharPropRead : UInt16 := 0x02

def gattCharPropWrite : UInt16 := 0x08

def CharDesc.allows (d : CharDesc) (propertiesBit : UInt16) : Bool :=
  d.isFound &&
    match d.charType with
    | .cccd => (gattCharPropWrite ||| gattCharPropRead) &&& propertiesBit != 0
    | .value => ((d.charData.map (·.properties)).getD 0) &&& propertiesBit != 0
    | .descriptor => true
    | .unknown => false

def gattcStorageCheckProp (srvList : List Srv) (handle propertiesBit : UInt16) :
    Except Stuck Bool := do
  match ← gattcStorageFindSrvByHandle srvList handle with
  | none => return false
  | some s => return (gattcStorageFindCharDesc s handle).allows propertiesBit

def CharCb.Contains (c : CharCb) (handle : UInt16) : Prop :=
  c.charData.valueHandle ≤ handle ∧ handle ≤ c.charData.endHandle
  deriving Decidable

def CharCb.kind (c : CharCb) (handle : UInt16) : GattCharType :=
  if handle = c.charData.valueHandle then .value
  else if handle = c.cccdHandle then .cccd
  else .descriptor

def CharCb.Hit (c : CharCb) (handle : UInt16) : Prop :=
  c.Contains handle ∨ handle = c.cccdHandle ∨ handle = c.charData.valueHandle
  deriving Decidable

def Srv.chars (s : Srv) : List CharCb := s.table16 ++ s.table128

def Srv.Disjoint (s : Srv) : Prop :=
  s.chars.Pairwise fun c d => ∀ handle, ¬ (c.Contains handle ∧ d.Contains handle)

structure Looked (s : Srv) (handle : UInt16) : Prop where
  found : (gattcStorageFindCharDesc s handle).isFound = true ↔ ∃ c ∈ s.chars, c.Contains handle
  right : ∀ c ∈ s.chars, c.Contains handle →
    (gattcStorageFindCharDesc s handle).charType = c.kind handle ∧
      (gattcStorageFindCharDesc s handle).charData = some c.charData

def Right (s : Srv) (handle : UInt16) : Prop :=
  match s.table16.find? fun c => c.Hit handle, s.table128 with
  | some c, [] => c.Contains handle
  | some _, d :: _ => d.Contains handle
  | none, table => ∀ d ∈ table.find? fun d => d.Hit handle, d.Contains handle

def Allowed (s : Srv) (handle propertiesBit : UInt16) : Prop :=
  ∃ c ∈ s.chars, c.Contains handle ∧
    match c.kind handle with
    | .value => c.charData.properties &&& propertiesBit ≠ 0
    | .cccd => (gattCharPropWrite ||| gattCharPropRead) &&& propertiesBit ≠ 0
    | _ => True

section

variable {c d : CharCb} {handle : UInt16} {st : CharDesc} {table : List CharCb} {s : Srv}

theorem CharCb.desc_hit (h : c.Hit handle) :
    c.desc handle st = { st with isFound := true, charType := c.kind handle } := by
  unfold CharCb.desc CharCb.kind
  split_ifs with hv hc hr
  . rfl
  . rfl
  . rfl
  . rcases h with ⟨hlo, hhi⟩ | h | h
    . have hlt : c.charData.valueHandle < handle := by
        rw [UInt16.lt_iff_toNat_lt]
        rw [UInt16.le_iff_toNat_le] at hlo
        have hne : c.charData.valueHandle.toNat ≠ handle.toNat :=
          fun h => hv (UInt16.toNat_inj.mp h).symm
        omega
      exact absurd ⟨hlt, hhi⟩ hr
    . exact absurd h hc
    . exact absurd h hv

theorem CharCb.desc_miss (h : ¬ c.Hit handle) : c.desc handle st = st := by
  have hv : handle ≠ c.charData.valueHandle := fun hv => h (.inr (.inr hv))
  have hc : handle ≠ c.cccdHandle := fun hc => h (.inr (.inl hc))
  have hr : ¬ (c.charData.valueHandle < handle ∧ handle ≤ c.charData.endHandle) :=
    fun hr => h (.inl ⟨UInt16.le_of_lt hr.1, hr.2⟩)
  rw [CharCb.desc, if_neg hv, if_neg hc, if_neg hr]

theorem findCharLoop_first (hst : st.isFound = false) :
    findCharLoop handle table st =
      match table.find? fun c => c.Hit handle with
      | some c => ⟨true, c.kind handle, some c.charData⟩
      | none => st := by
  induction table with
  | nil => rfl
  | cons c table ih =>
    unfold findCharLoop
    rw [find?_cons]
    by_cases h : c.Hit handle
    . simp only [CharCb.desc_hit h, if_true, h, decide_true]
    . simp only [CharCb.desc_miss h, hst, Bool.false_eq_true, if_false, h, decide_false, ih]

theorem CharCb.desc_isFound (hst : st.isFound = true) : (d.desc handle st).isFound = true := by
  unfold CharCb.desc
  split_ifs
  . rfl
  . rfl
  . rfl
  . exact hst

theorem findCharLoop_found (hst : st.isFound = true) :
    findCharLoop handle (d :: table) st =
      { d.desc handle st with charData := some d.charData } :=
  if_pos (CharCb.desc_isFound hst)

theorem CharCb.hit_of_contains (h : c.Contains handle) : c.Hit handle := .inl h

theorem eq_of_contains (hs : s.Disjoint) (hc : c ∈ s.chars) (hd : d ∈ s.chars)
    (hch : c.Contains handle) (hdh : d.Contains handle) : c = d := by
  by_contra hne
  have : Std.Symm fun c d : CharCb => ∀ handle, ¬ (c.Contains handle ∧ d.Contains handle) :=
    ⟨fun _ _ h handle hboth => h handle hboth.symm⟩
  exact List.Pairwise.forall hs hc hd hne handle ⟨hch, hdh⟩

theorem looked_iff_of_copied (hs : s.Disjoint) (hc : c ∈ s.chars)
    (hfound : (gattcStorageFindCharDesc s handle).isFound = true)
    (hdata : (gattcStorageFindCharDesc s handle).charData = some c.charData)
    (hkind : c.Contains handle → (gattcStorageFindCharDesc s handle).charType = c.kind handle) :
    Looked s handle ↔ c.Contains handle := by
  constructor
  . intro h
    obtain ⟨d, hd, hdh⟩ := h.found.mp hfound
    have hsame := (h.right d hd hdh).2
    rw [hdata, Option.some.injEq] at hsame
    unfold CharCb.Contains
    rw [hsame]
    exact hdh
  . intro h
    refine ⟨⟨fun _ => ⟨c, hc, h⟩, fun _ => hfound⟩, fun d hd hdh => ?_⟩
    have heq := eq_of_contains hs hc hd h hdh
    subst heq
    exact ⟨hkind h, hdata⟩

theorem looked_iff (hs : s.Disjoint) (hne : handle ≠ 0) : Looked s handle ↔ Right s handle := by
  have hrun : gattcStorageFindCharDesc s handle =
      findCharLoop handle s.table128 (findCharLoop handle s.table16 ⟨false, .unknown, none⟩) :=
    if_pos hne
  rw [@findCharLoop_first handle ⟨false, .unknown, none⟩ s.table16 rfl] at hrun
  unfold Right
  cases h16 : s.table16.find? fun c => c.Hit handle with
  | some c =>
    rw [h16] at hrun
    have hc : c ∈ s.chars := mem_append_left _ (mem_of_find?_eq_some h16)
    cases h128 : s.table128 with
    | nil =>
      rw [h128] at hrun
      exact looked_iff_of_copied hs hc (by rw [hrun]; rfl) (by rw [hrun]; rfl)
        (fun _ => by rw [hrun]; rfl)
    | cons d table =>
      have hd : d ∈ s.chars := mem_append_right _ (h128 ▸ mem_cons_self)
      rw [h128, findCharLoop_found rfl] at hrun
      refine looked_iff_of_copied hs hd ?_ (by rw [hrun]) ?_
      . rw [hrun]
        exact CharCb.desc_isFound rfl
      . intro hdh
        rw [hrun, CharCb.desc_hit (CharCb.hit_of_contains hdh)]
  | none =>
    rw [h16, findCharLoop_first rfl] at hrun
    simp only
    cases h128 : s.table128.find? fun d => d.Hit handle with
    | some d =>
      rw [h128] at hrun
      have hd : d ∈ s.chars := mem_append_right _ (mem_of_find?_eq_some h128)
      rw [looked_iff_of_copied hs hd (by rw [hrun]) (by rw [hrun]) (fun _ => by rw [hrun])]
      simp
    | none =>
      rw [h128] at hrun
      have hno : ∀ c ∈ s.chars, ¬ c.Contains handle := by
        intro c hc hch
        rcases mem_append.mp hc with hc | hc
        . exact find?_eq_none.mp h16 c hc (by simpa using CharCb.hit_of_contains hch)
        . exact find?_eq_none.mp h128 c hc (by simpa using CharCb.hit_of_contains hch)
      have hlooked : Looked s handle := by
        constructor
        . rw [hrun]
          exact ⟨nofun, fun ⟨c, hc, hch⟩ => absurd hch (hno c hc)⟩
        . exact fun c hc hch => absurd hch (hno c hc)
      simp [hlooked]

end

theorem gattcStorageFindSrvByHandle_ok (hlen : srvList.length < 256)
    (hin : ∃ s ∈ srvList, s.InRange handle) :
    ∃ s ∈ srvList, s.InRange handle ∧
      gattcStorageFindSrvByHandle srvList handle = .ok (some s) := by
  unfold gattcStorageFindSrvByHandle
  rw [take_of_length_le (Nat.le_of_lt hlen)]
  cases hfind : srvList.find? fun s => s.InRange handle with
  | some s =>
    exact ⟨s, mem_of_find?_eq_some hfind, by simpa using find?_some hfind, rfl⟩
  | none =>
    obtain ⟨s, hs, hsh⟩ := hin
    exact absurd hsh (by simpa using find?_eq_none.mp hfind s hs)

theorem Looked.allows_iff (h : Looked s handle) (propertiesBit : UInt16) :
    (gattcStorageFindCharDesc s handle).allows propertiesBit = true ↔
      Allowed s handle propertiesBit := by
  unfold CharDesc.allows Allowed
  rw [Bool.and_eq_true, h.found]
  constructor
  . rintro ⟨⟨c, hc, hch⟩, hallows⟩
    obtain ⟨htype, hdata⟩ := h.right c hc hch
    rw [htype, hdata] at hallows
    refine ⟨c, hc, hch, ?_⟩
    cases hkind : c.kind handle <;> simp_all
  . rintro ⟨c, hc, hch, hallowed⟩
    obtain ⟨htype, hdata⟩ := h.right c hc hch
    rw [htype, hdata]
    refine ⟨⟨c, hc, hch⟩, ?_⟩
    have hknown : c.kind handle ≠ .unknown := by
      unfold CharCb.kind
      split_ifs <;> exact nofun
    cases hkind : c.kind handle <;> simp_all

theorem genLoop_length
    (h : genLoop mem table idx cbs disList = .ok (some r)) :
    r.2.2.length = cbs.length + disList.length := by
  induction disList generalizing table idx cbs with
  | nil =>
    cases h
    rfl
  | cons s rest ih =>
    unfold genLoop at h
    split at h
    . obtain ⟨⟨table', idx', cb⟩, -, h⟩ := bind_ok.mp h
      simp only at h
      split at h
      . rw [ih h]
        simp only [length_append, length_cons, length_nil]
        omega
      . cases h
    . cases h

theorem read_length_lt
    (h : gattcStorageSrvListGen mem disList = .ok (some l)) : l.read.length < 256 := by
  unfold gattcStorageSrvListGen at h
  split_ifs at h with hnil hlen hmem
  . cases h
    decide
  . obtain ⟨r, hloop, h⟩ := bind_ok.mp h
    split at h
    . next table idx cbs =>
      split at h
      . cases h
        have hcount := genLoop_length hloop
        simp only [length_nil, Nat.zero_add] at hcount
        simp only [SrvList.read, length_map]
        omega
      . cases h
    . cases h
  . cases h

structure Addressed (srvList : List Srv) (handle : UInt16) : Prop where
  looked : ∀ s ∈ srvList, s.InRange handle → Looked s handle
  checkProp : ∃ s ∈ srvList, s.InRange handle ∧ ∀ propertiesBit,
    ∃ allowed, gattcStorageCheckProp srvList handle propertiesBit = .ok allowed ∧
      (allowed = true ↔ Allowed s handle propertiesBit)

theorem addressed_iff (mem : Mem) (disList : List DisSrv) (l : SrvList) (handle : UInt16)
    (hgen : gattcStorageSrvListGen mem disList = .ok (some l))
    (hdisjoint : ∀ s ∈ l.read, s.Disjoint) (hne : handle ≠ 0)
    (hin : ∃ s ∈ l.read, s.InRange handle) :
    Addressed l.read handle ↔ ∀ s ∈ l.read, s.InRange handle → Right s handle := by
  constructor
  . intro h s hs hsh
    exact (looked_iff (hdisjoint s hs) hne).mp (h.looked s hs hsh)
  . intro h
    have hlooked : ∀ s ∈ l.read, s.InRange handle → Looked s handle :=
      fun s hs hsh => (looked_iff (hdisjoint s hs) hne).mpr (h s hs hsh)
    refine ⟨hlooked, ?_⟩
    obtain ⟨s, hs, hsh, hfind⟩ := gattcStorageFindSrvByHandle_ok (read_length_lt hgen) hin
    refine ⟨s, hs, hsh, fun propertiesBit => ?_⟩
    refine ⟨(gattcStorageFindCharDesc s handle).allows propertiesBit, ?_,
      (hlooked s hs hsh).allows_iff propertiesBit⟩
    rw [gattcStorageCheckProp, hfind]
    rfl

def single16 : DisSrv :=
  (DisSrv.new (.uuid16 ⟨⟨1, 0, 1⟩, 8, 0x180F⟩) rfl).pushChar
    ⟨0, ⟨0, 0, 0⟩, .uuid16 ⟨⟨7, 0, 2⟩, 0x02, 3, 0x2A19, 0⟩⟩ rfl

def mixed : DisSrv :=
  single16.pushChar
    ⟨0, ⟨0, 0, 0⟩, .uuid128 ⟨⟨8, 0, 5⟩, 0x08, 6, Vector.replicate 16 0xA5, 0, 0⟩⟩ rfl

def allMem : Mem := ⟨true, fun _ => true⟩

theorem gen_single16 : ∃ l, gattcStorageSrvListGen allMem [single16] = .ok (some l) ∧
    l.read = [single16.srv] := ⟨_, rfl, rfl⟩

theorem gen_mixed : ∃ l, gattcStorageSrvListGen allMem [mixed] = .ok (some l) ∧
    l.read = [mixed.srv] := ⟨_, rfl, rfl⟩

theorem disjoint_single16 : single16.srv.Disjoint := List.pairwise_singleton _ _

theorem disjoint_mixed : mixed.srv.Disjoint := by
  refine List.Pairwise.cons ?_ (pairwise_singleton _ _)
  intro d hd handle ⟨h16, h128⟩
  rw [mem_singleton.mp hd] at h128
  have hle : handle ≤ 3 := h16.2
  have hge : 6 ≤ handle := h128.1
  exact absurd (UInt16.le_trans hge hle) (by decide)

theorem addressed_iff_single16 :
    ∃ l, gattcStorageSrvListGen allMem [single16] = .ok (some l) ∧
      (Addressed l.read 3 ↔ ∀ s ∈ l.read, s.InRange 3 → Right s 3) := by
  obtain ⟨l, hgen, hread⟩ := gen_single16
  refine ⟨l, hgen, addressed_iff allMem [single16] l 3 hgen ?_ (by decide) ?_⟩
  . rw [hread]
    intro s hs
    rw [mem_singleton.mp hs]
    exact disjoint_single16
  . rw [hread]
    exact ⟨_, mem_singleton_self _, by decide⟩

theorem not_addressed :
    ¬ ∀ (mem : Mem) (disList : List DisSrv) (l : SrvList) (handle : UInt16),
      gattcStorageSrvListGen mem disList = .ok (some l) → (∀ s ∈ l.read, s.Disjoint) →
      handle ≠ 0 → (∃ s ∈ l.read, s.InRange handle) → Addressed l.read handle := by
  intro h
  obtain ⟨l, hgen, hread⟩ := gen_mixed
  have haddressed : Addressed l.read 3 := by
    apply h allMem [mixed] l 3 hgen ?_ (by decide) ?_
    . rw [hread]
      intro s hs
      rw [mem_singleton.mp hs]
      exact disjoint_mixed
    . rw [hread]
      exact ⟨_, mem_singleton_self _, by decide⟩
  rw [hread] at haddressed
  have hlooked := haddressed.looked mixed.srv (mem_singleton_self _) (by decide)
  have hright := (hlooked.right _ mem_cons_self (by decide)).2
  revert hright
  decide

end GattcStorage
