import Earphone.GattcStorage.Load

namespace GattcStorage

open Scan List

structure SrvKey where
  uuid : AttrUuid
  startHandle : UInt16
  endHandle : UInt16
deriving DecidableEq

def DisSrv.key (s : DisSrv) : SrvKey :=
  match s.srvData with
  | .uuid16 d => ⟨.uuid16 d.uuid16, d.hdr.attHandle, d.endGroupHandle⟩
  | .uuid128 d => ⟨.uuid128 d.uuid128, d.hdr.attHandle, d.endGroupHandle⟩

def DisInc.key : DisInc → SrvKey
  | .uuid16 d => ⟨.uuid16 d.uuid16, d.startHandle, d.endHandle⟩
  | .uuid128 d => ⟨.uuid128 d.uuid128, d.startHandle, d.endHandle⟩

def DisInc.isSrv (inc : DisInc) (s : DisSrv) : Bool :=
  match inc, s.srvData with
  | .uuid16 d, .uuid16 e =>
    d.uuid16 == e.uuid16 && d.startHandle == e.hdr.attHandle && d.endHandle == e.endGroupHandle
  | .uuid128 d, .uuid128 e =>
    d.startHandle == e.hdr.attHandle && d.endHandle == e.endGroupHandle && d.uuid128 == e.uuid128
  | _, _ => false

def DisSrv.sameUuid (uuid : AttrUuid) (s : DisSrv) : Bool :=
  match uuid, s.srvData with
  | .uuid16 uuid16, .uuid16 d => uuid16 == d.uuid16
  | .uuid128 uuid128, .uuid128 d => uuid128 == d.uuid128
  | _, _ => false

def gattcStorageGetSrvInstanceId (disList : List DisSrv) (uuid : AttrUuid) : Except Stuck UInt8 :=
  if disList.length < 256 then .ok (.ofNat (disList.countP (·.sameUuid uuid)))
  else .error .endless

def DisInc.secondary (inc : DisInc) (instanceId : UInt8) : DisSrv :=
  match inc with
  | .uuid16 d =>
    .new (.uuid16 ⟨⟨attrTypeSecondarySrvUuid16, instanceId, d.startHandle⟩, d.endHandle,
      d.uuid16⟩) rfl
  | .uuid128 d =>
    .new (.uuid128 ⟨⟨attrTypeSecondarySrvUuid128, instanceId, d.startHandle⟩, d.endHandle, 0,
      d.uuid128⟩) rfl

structure DisMode where
  known : AttrUuid → Bool
  regSvc : Bool
  mem : Nat → Bool

def DisMode.takes (m : DisMode) (uuid : AttrUuid) : Bool := m.known uuid || !m.regSvc

structure Collected where
  disList : List DisSrv
  isExist : Bool

def addSecondaryInc (m : DisMode) (c : Collected) (inc : DisInc) :
    Except Stuck (Option Collected) :=
  if (c.disList.take 256).any inc.isSrv then
    .ok (some c)
  -- the index has 8 bits: without a match among the first 256 the search starts again
  else if c.disList.length < 256 then
    if m.takes inc.key.uuid && m.mem c.disList.length then do
      let instanceId ← gattcStorageGetSrvInstanceId c.disList inc.key.uuid
      return some ⟨c.disList ++ [inc.secondary instanceId], true⟩
    else
      .ok none
  else
    .error .endless

def addSecondaryLoop (m : DisMode) : List DisInc → Collected → Except Stuck (Collected × Bool)
  | [], c => .ok (c, false)
  | inc :: incs, c => do
    match ← addSecondaryInc m c inc with
    | some c => addSecondaryLoop m incs c
    | none => return (c, true)

def addSecondarySrv (m : DisMode) (s : DisSrv) (c : Collected) : Except Stuck Collected := do
  let (c, left) ← addSecondaryLoop m (s.includeSrvQueue.take 256) c
  if left || s.includeSrvQueue.length < 256 then return c else throw .endless

def addSecondarySrvs (m : DisMode) : List DisSrv → Collected → Except Stuck Collected
  | [], c => .ok c
  | s :: srvs, c => do
    let c ← addSecondarySrv m s c
    addSecondarySrvs m srvs c

def gattcStorageAddSecondaryService (m : DisMode) (disList : List DisSrv) :
    Except Stuck Collected :=
  addSecondarySrvs m (disList.take (disList.length % 256)) ⟨disList, false⟩

def Needed (m : DisMode) (disList : List DisSrv) (key : SrvKey) : Prop :=
  (∃ s ∈ disList, ∃ inc ∈ s.includeSrvQueue, inc.key = key) ∧ key ∉ disList.map (·.key) ∧
    m.takes key.uuid = true

def DisSrv.IsSecondary (s : DisSrv) : Prop :=
  (∃ inc instanceId, s = DisInc.secondary inc instanceId)

def Collects (m : DisMode) (disList : List DisSrv) : Prop :=
  ∃ added isExist, gattcStorageAddSecondaryService m disList = .ok ⟨disList ++ added, isExist⟩ ∧
    (∀ s ∈ added, s.IsSecondary) ∧ (added.map (·.key)).Nodup ∧
    (∀ key, key ∈ added.map (·.key) ↔ Needed m disList key) ∧ (isExist = true ↔ added ≠ [])

def skipped (m : DisMode) (disList : List DisSrv) (inc : DisInc) : Bool :=
  !m.takes inc.key.uuid && decide (inc.key ∉ disList.map (·.key))

def upTo {α : Type} (p : α → Bool) : List α → List α
  | [] => []
  | a :: l => if p a then [a] else a :: upTo p l

def DisSrv.comesTo (m : DisMode) (disList : List DisSrv) (s : DisSrv) : List DisInc :=
  upTo (skipped m disList) (s.includeSrvQueue.take 256)

def comesTo (m : DisMode) (disList : List DisSrv) : List DisInc :=
  (disList.take (disList.length % 256)).flatMap (·.comesTo m disList)

def Few (m : DisMode) (disList : List DisSrv) (s : DisSrv) : Prop :=
  s.includeSrvQueue.length < 256 ∨ ∃ inc ∈ s.includeSrvQueue.take 256, skipped m disList inc = true

def grow (m : DisMode) (keys : List SrvKey) (key : SrvKey) : List SrvKey :=
  if key ∈ keys ∨ m.takes key.uuid = false then keys else keys ++ [key]

def Room (m : DisMode) : List SrvKey → List SrvKey → Prop
  | _, [] => True
  | keys, key :: rest =>
    (key ∈ keys.take 256 ∨ keys.length < 256) ∧ Room m (grow m keys key) rest

structure Reaches (m : DisMode) (disList : List DisSrv) : Prop where
  room : Room m (disList.map (·.key)) ((comesTo m disList).map (·.key))
  few : ∀ s ∈ disList.take (disList.length % 256), Few m disList s
  complete : ∀ key, Needed m disList key → key ∈ (comesTo m disList).map (·.key)

section

variable {m : DisMode} {keys : List SrvKey}

theorem DisInc.isSrv_iff (inc : DisInc) (s : DisSrv) : inc.isSrv s = true ↔ inc.key = s.key := by
  unfold DisInc.isSrv DisInc.key DisSrv.key
  cases inc <;> cases s.srvData <;> simp <;> tauto

theorem DisInc.key_secondary (inc : DisInc) (instanceId : UInt8) :
    (inc.secondary instanceId).key = inc.key := by
  cases inc <;> rfl

theorem any_isSrv_iff (inc : DisInc) (disList : List DisSrv) :
    (disList.take 256).any inc.isSrv = true ↔ inc.key ∈ (disList.map (·.key)).take 256 := by
  rw [← map_take, any_eq_true, mem_map]
  simp only [DisInc.isSrv_iff, eq_comm (a := inc.key)]

theorem foldl_grow (rest : List SrvKey) (keys : List SrvKey) :
    ∃ added, rest.foldl (grow m) keys = keys ++ added ∧ added.Nodup ∧
      ∀ key, key ∈ added ↔ key ∈ rest ∧ m.takes key.uuid = true ∧ key ∉ keys := by
  induction rest generalizing keys with
  | nil => exact ⟨[], by simp, nodup_nil, by simp⟩
  | cons k rest ih =>
    rw [foldl_cons]
    obtain ⟨added, hadded, hnodup, hmem⟩ := ih (grow m keys k)
    by_cases hk : k ∈ keys ∨ m.takes k.uuid = false
    . rw [show grow m keys k = keys from if_pos hk] at hadded hmem ⊢
      refine ⟨added, hadded, hnodup, fun key => ?_⟩
      rw [hmem, mem_cons]
      constructor
      . exact fun ⟨hrest, htakes, hkeys⟩ => ⟨.inr hrest, htakes, hkeys⟩
      . rintro ⟨rfl | hrest, htakes, hkeys⟩
        . rcases hk with hk | hk
          . exact absurd hk hkeys
          . rw [hk] at htakes
            contradiction
        . exact ⟨hrest, htakes, hkeys⟩
    . rw [show grow m keys k = keys ++ [k] from if_neg hk] at hadded hmem ⊢
      obtain ⟨hnew, htake⟩ := not_or.mp hk
      rw [Bool.not_eq_false] at htake
      refine ⟨k :: added, ?_, ?_, fun key => ?_⟩
      . rw [hadded, append_assoc]
        rfl
      . refine nodup_cons.mpr ⟨fun hin => ?_, hnodup⟩
        exact ((hmem k).mp hin).2.2 (mem_append_right _ (mem_singleton_self k))
      . rw [mem_cons, mem_cons, hmem, mem_append, mem_singleton]
        by_cases heq : key = k
        . subst heq
          simp [hnew, htake]
        . simp [heq]

theorem room_append (first rest : List SrvKey) (keys : List SrvKey) :
    Room m keys (first ++ rest) ↔ Room m keys first ∧ Room m (first.foldl (grow m) keys) rest := by
  induction first generalizing keys with
  | nil => simp [Room]
  | cons k first ih => simp only [cons_append, Room, foldl_cons, ih, and_assoc]

end

def GrownFrom (m : DisMode) (start : List SrvKey) (disList : List DisSrv) : Prop :=
  ∀ key, m.takes key.uuid = false → (key ∈ disList.map (·.key) ↔ key ∈ start)

section

variable {known : AttrUuid → Bool} {regSvc : Bool} {start : List DisSrv} {c : Collected}

def allTaken (known : AttrUuid → Bool) (regSvc : Bool) : DisMode := ⟨known, regSvc, fun _ => true⟩

structure Adds (m : DisMode) (incs : List DisInc) (c c' : Collected) : Prop where
  added : ∃ added, c'.disList = c.disList ++ added ∧ (∀ s ∈ added, s.IsSecondary) ∧
    c'.isExist = (c.isExist || !added.isEmpty)
  keys : c'.disList.map (·.key) = (incs.map (·.key)).foldl (grow m) (c.disList.map (·.key))

theorem Adds.refl (m : DisMode) (c : Collected) : Adds m [] c c where
  added := ⟨[], by simp, by simp, by simp⟩
  keys := rfl

theorem Adds.trans
    (h : Adds m incs c c') (h' : Adds m incs' c' c'') : Adds m (incs ++ incs') c c'' where
  added := by
    obtain ⟨added, hlist, hsec, hexist⟩ := h.added
    obtain ⟨added', hlist', hsec', hexist'⟩ := h'.added
    refine ⟨added ++ added', by rw [hlist', hlist, append_assoc], ?_, ?_⟩
    . intro s hs
      rcases mem_append.mp hs with hs | hs
      . exact hsec s hs
      . exact hsec' s hs
    . rw [hexist', hexist]
      cases added <;> simp
  keys := by rw [h'.keys, h.keys, map_append, foldl_append]

theorem Adds.grownFrom {m : DisMode} {incs : List DisInc} {c c' : Collected} {start : List SrvKey}
    (h : Adds m incs c c') (hc : GrownFrom m start c.disList) : GrownFrom m start c'.disList := by
  intro key hkey
  rw [← hc key hkey, h.keys]
  obtain ⟨added, hadded, -, hmem⟩ := @foldl_grow m (incs.map (·.key)) (c.disList.map (·.key))
  rw [hadded, mem_append, hmem, hkey]
  simp

theorem gattcStorageGetSrvInstanceId_ok (h : disList.length < 256)
    (uuid : AttrUuid) : ∃ instanceId, gattcStorageGetSrvInstanceId disList uuid = .ok instanceId :=
  ⟨_, if_pos h⟩

theorem addSecondaryInc_room
    (hc : GrownFrom (allTaken known regSvc) (start.map (·.key)) c.disList)
    (hroom : inc.key ∈ (c.disList.map (·.key)).take 256 ∨ c.disList.length < 256) :
    (skipped (allTaken known regSvc) start inc = true ∧ Adds (allTaken known regSvc) [inc] c c ∧
      addSecondaryInc (allTaken known regSvc) c inc = .ok none) ∨
    (skipped (allTaken known regSvc) start inc = false ∧
      ∃ c', addSecondaryInc (allTaken known regSvc) c inc = .ok (some c') ∧
        Adds (allTaken known regSvc) [inc] c c') := by
  unfold addSecondaryInc
  by_cases hany : (c.disList.take 256).any inc.isSrv = true
  . have hmem := mem_of_mem_take ((any_isSrv_iff inc c.disList).mp hany)
    have hkeys : grow (allTaken known regSvc) (c.disList.map (·.key)) inc.key =
        c.disList.map (·.key) := if_pos (.inl hmem)
    refine .inr ⟨?_, c, if_pos hany, ⟨[], by simp, by simp, by simp⟩, hkeys.symm⟩
    unfold skipped
    cases htakes : (allTaken known regSvc).takes inc.key.uuid with
    | true => rfl
    | false => simpa using (hc inc.key htakes).mp hmem
  . have hnot : inc.key ∉ (c.disList.map (·.key)).take 256 :=
      fun h => hany ((any_isSrv_iff inc c.disList).mpr h)
    have hlen := hroom.resolve_left hnot
    rw [take_of_length_le (by rw [length_map]; omega)] at hnot
    rw [if_neg hany, if_pos hlen]
    cases htakes : (allTaken known regSvc).takes inc.key.uuid with
    | false =>
      have hkeys : grow (allTaken known regSvc) (c.disList.map (·.key)) inc.key =
          c.disList.map (·.key) := if_pos (.inr htakes)
      refine .inl ⟨?_, ⟨⟨[], by simp, by simp, by simp⟩, hkeys.symm⟩, rfl⟩
      unfold skipped
      rw [htakes]
      simpa using fun h => hnot ((hc inc.key htakes).mpr h)
    | true =>
      obtain ⟨instanceId, hid⟩ := gattcStorageGetSrvInstanceId_ok hlen inc.key.uuid
      have hkeys : grow (allTaken known regSvc) (c.disList.map (·.key)) inc.key =
          c.disList.map (·.key) ++ [inc.key] := if_neg (by simp [hnot, htakes])
      refine .inr ⟨by simp [skipped, htakes], ⟨c.disList ++ [inc.secondary instanceId], true⟩, ?_, ?_⟩
      . rw [hid]
        rfl
      . refine ⟨⟨[inc.secondary instanceId], rfl, ?_, by simp⟩, ?_⟩
        . intro s hs
          rw [mem_singleton.mp hs]
          exact ⟨inc, instanceId, rfl⟩
        . rw [map_append, map_singleton, DisInc.key_secondary]
          exact hkeys.symm

theorem addSecondaryInc_full
    (hroom : ¬ (inc.key ∈ (c.disList.map (·.key)).take 256 ∨ c.disList.length < 256)) :
    addSecondaryInc m c inc = .error .endless := by
  obtain ⟨hnot, hlen⟩ := not_or.mp hroom
  unfold addSecondaryInc
  rw [if_neg fun h => hnot ((any_isSrv_iff inc c.disList).mp h), if_neg hlen]

section

variable (incs : List DisInc) (hc : GrownFrom (allTaken known regSvc) (start.map (·.key)) c.disList)

include incs hc

theorem addSecondaryLoop_room (hroom : Room (allTaken known regSvc) (c.disList.map (·.key))
      ((upTo (skipped (allTaken known regSvc) start) incs).map (·.key))) :
    ∃ c', addSecondaryLoop (allTaken known regSvc) incs c =
        .ok (c', incs.any (skipped (allTaken known regSvc) start)) ∧
      Adds (allTaken known regSvc) (upTo (skipped (allTaken known regSvc) start) incs) c c' := by
  induction incs generalizing c with
  | nil => exact ⟨c, rfl, .refl _ c⟩
  | cons inc incs ih =>
    have hhead : inc.key ∈ (c.disList.map (·.key)).take 256 ∨ c.disList.length < 256 := by
      unfold upTo at hroom
      split at hroom <;> simpa using hroom.1
    rcases addSecondaryInc_room hc hhead with ⟨hskip, hadds, hrun⟩ | ⟨hskip, c1, hrun, hadds⟩
    . refine ⟨c, ?_, ?_⟩
      . rw [any_cons, hskip]
        simp only [addSecondaryLoop, hrun, bind, Except.bind, pure, Except.pure, Bool.true_or]
      . rw [upTo, if_pos hskip]
        exact hadds
    . rw [upTo, hskip, if_neg Bool.false_ne_true, map_cons, Room] at hroom
      have hkeys : c1.disList.map (·.key) =
          grow (allTaken known regSvc) (c.disList.map (·.key)) inc.key := hadds.keys
      rw [← hkeys] at hroom
      obtain ⟨c', hloop, hadds'⟩ := ih (hadds.grownFrom hc) hroom.2
      refine ⟨c', ?_, ?_⟩
      . rw [any_cons, hskip, Bool.false_or, addSecondaryLoop, hrun]
        exact hloop
      . rw [upTo, hskip, if_neg Bool.false_ne_true]
        exact hadds.trans hadds'

theorem addSecondaryLoop_full (hroom : ¬ Room (allTaken known regSvc) (c.disList.map (·.key))
      ((upTo (skipped (allTaken known regSvc) start) incs).map (·.key))) :
    addSecondaryLoop (allTaken known regSvc) incs c = .error .endless := by
  induction incs generalizing c with
  | nil => exact absurd trivial hroom
  | cons inc incs ih =>
    by_cases hhead : inc.key ∈ (c.disList.map (·.key)).take 256 ∨ c.disList.length < 256
    . rcases addSecondaryInc_room hc hhead with ⟨hskip, -, -⟩ | ⟨hskip, c1, hrun, hadds⟩
      . rw [upTo, if_pos hskip] at hroom
        exact absurd ⟨by simpa using hhead, trivial⟩ hroom
      . rw [upTo, hskip, if_neg Bool.false_ne_true, map_cons, Room] at hroom
        have hkeys : c1.disList.map (·.key) =
            grow (allTaken known regSvc) (c.disList.map (·.key)) inc.key := hadds.keys
        rw [← hkeys] at hroom
        rw [addSecondaryLoop, hrun]
        exact ih (hadds.grownFrom hc) fun h => hroom ⟨by simpa using hhead, h⟩
    . rw [addSecondaryLoop, addSecondaryInc_full hhead]
      rfl

end

section

variable (hc : GrownFrom (allTaken known regSvc) (start.map (·.key)) c.disList)

include hc

theorem addSecondarySrv_room (hroom : Room (allTaken known regSvc) (c.disList.map (·.key))
      ((s.comesTo (allTaken known regSvc) start).map (·.key)))
    (hfew : Few (allTaken known regSvc) start s) :
    ∃ c', addSecondarySrv (allTaken known regSvc) s c = .ok c' ∧
      Adds (allTaken known regSvc) (s.comesTo (allTaken known regSvc) start) c c' := by
  obtain ⟨c', hloop, hadds⟩ := addSecondaryLoop_room (s.includeSrvQueue.take 256) hc hroom
  refine ⟨c', ?_, hadds⟩
  have hleft : ((s.includeSrvQueue.take 256).any (skipped (allTaken known regSvc) start) ||
      decide (s.includeSrvQueue.length < 256)) = true := by
    rw [Bool.or_eq_true, any_eq_true, decide_eq_true_iff]
    exact hfew.symm
  simp only [addSecondarySrv, hloop, bind, Except.bind, hleft, if_true]
  rfl

theorem addSecondarySrv_stuck (hstuck : ¬ (Room (allTaken known regSvc) (c.disList.map (·.key))
      ((s.comesTo (allTaken known regSvc) start).map (·.key)) ∧
      Few (allTaken known regSvc) start s)) :
    addSecondarySrv (allTaken known regSvc) s c = .error .endless := by
  by_cases hroom : Room (allTaken known regSvc) (c.disList.map (·.key))
      ((s.comesTo (allTaken known regSvc) start).map (·.key))
  . have hfew : ¬ Few (allTaken known regSvc) start s := fun h => hstuck ⟨hroom, h⟩
    obtain ⟨c', hloop, -⟩ := addSecondaryLoop_room (s.includeSrvQueue.take 256) hc hroom
    have hleft : ((s.includeSrvQueue.take 256).any (skipped (allTaken known regSvc) start) ||
        decide (s.includeSrvQueue.length < 256)) = false := by
      rw [← Bool.not_eq_true, Bool.or_eq_true, any_eq_true, decide_eq_true_iff]
      exact fun h => hfew h.symm
    simp only [addSecondarySrv, hloop, bind, Except.bind, hleft, Bool.false_eq_true, if_false]
    rfl
  . simp only [addSecondarySrv, addSecondaryLoop_full _ hc hroom, bind, Except.bind]

end

section

variable (srvs : List DisSrv) (hc : GrownFrom (allTaken known regSvc) (start.map (·.key)) c.disList)

include srvs hc

theorem addSecondarySrvs_room (hroom : Room (allTaken known regSvc) (c.disList.map (·.key))
      ((srvs.flatMap (·.comesTo (allTaken known regSvc) start)).map (·.key)))
    (hfew : ∀ s ∈ srvs, Few (allTaken known regSvc) start s) :
    ∃ c', addSecondarySrvs (allTaken known regSvc) srvs c = .ok c' ∧
      Adds (allTaken known regSvc) (srvs.flatMap (·.comesTo (allTaken known regSvc) start)) c
        c' := by
  induction srvs generalizing c with
  | nil => exact ⟨c, rfl, .refl _ c⟩
  | cons s srvs ih =>
    rw [flatMap_cons, map_append, room_append] at hroom
    obtain ⟨c1, hrun, hadds⟩ := addSecondarySrv_room hc hroom.1 (hfew s mem_cons_self)
    rw [← hadds.keys] at hroom
    obtain ⟨c', hloop, hadds'⟩ := ih (hadds.grownFrom hc) hroom.2
      fun s' hs' => hfew s' (mem_cons_of_mem _ hs')
    refine ⟨c', ?_, ?_⟩
    . rw [addSecondarySrvs, hrun]
      exact hloop
    . rw [flatMap_cons]
      exact hadds.trans hadds'

theorem addSecondarySrvs_stuck (hstuck : ¬ (Room (allTaken known regSvc) (c.disList.map (·.key))
      ((srvs.flatMap (·.comesTo (allTaken known regSvc) start)).map (·.key)) ∧
      ∀ s ∈ srvs, Few (allTaken known regSvc) start s)) :
    addSecondarySrvs (allTaken known regSvc) srvs c = .error .endless := by
  induction srvs generalizing c with
  | nil => exact absurd ⟨trivial, nofun⟩ hstuck
  | cons s srvs ih =>
    rw [flatMap_cons, map_append, room_append, forall_mem_cons] at hstuck
    by_cases hsrv : Room (allTaken known regSvc) (c.disList.map (·.key))
        ((s.comesTo (allTaken known regSvc) start).map (·.key)) ∧
        Few (allTaken known regSvc) start s
    . obtain ⟨c1, hrun, hadds⟩ := addSecondarySrv_room hc hsrv.1 hsrv.2
      rw [← hadds.keys] at hstuck
      rw [addSecondarySrvs, hrun]
      exact ih (hadds.grownFrom hc) fun h => hstuck ⟨⟨hsrv.1, h.1⟩, hsrv.2, h.2⟩
    . rw [addSecondarySrvs, addSecondarySrv_stuck hc hsrv]
      rfl

end

end

theorem mem_of_mem_upTo (h : a ∈ upTo p l) : a ∈ l := by
  induction l with
  | nil => exact h
  | cons b l ih =>
    unfold upTo at h
    split at h
    . rw [mem_singleton.mp h]
      exact mem_cons_self
    . rcases mem_cons.mp h with rfl | h
      . exact mem_cons_self
      . exact mem_cons_of_mem _ (ih h)

theorem exists_of_mem_comesTo
    (h : inc ∈ comesTo m disList) : ∃ s ∈ disList, inc ∈ s.includeSrvQueue := by
  obtain ⟨s, hs, hinc⟩ := mem_flatMap.mp h
  exact ⟨s, mem_of_mem_take hs, mem_of_mem_take (mem_of_mem_upTo hinc)⟩

theorem collects_iff (known : AttrUuid → Bool) (regSvc : Bool) (disList : List DisSrv) :
    Collects (allTaken known regSvc) disList ↔ Reaches (allTaken known regSvc) disList := by
  have hstart : GrownFrom (allTaken known regSvc) (disList.map (·.key)) disList :=
    fun key _ => Iff.rfl
  obtain ⟨keys, hgrow, hnodup, hkeys⟩ := @foldl_grow (allTaken known regSvc)
    ((comesTo (allTaken known regSvc) disList).map (·.key)) (disList.map (·.key))
  have hrun : (Room (allTaken known regSvc) (disList.map (·.key))
      ((comesTo (allTaken known regSvc) disList).map (·.key)) ∧
      ∀ s ∈ disList.take (disList.length % 256), Few (allTaken known regSvc) disList s) →
      ∃ added, gattcStorageAddSecondaryService (allTaken known regSvc) disList =
        .ok ⟨disList ++ added, !added.isEmpty⟩ ∧ (∀ s ∈ added, s.IsSecondary) ∧
        added.map (·.key) = keys := by
    rintro ⟨hroom, hfew⟩
    obtain ⟨⟨list, isExist⟩, hrun, hadds⟩ :=
      @addSecondarySrvs_room known regSvc disList ⟨disList, false⟩
        (disList.take (disList.length % 256)) hstart hroom hfew
    obtain ⟨added, hlist, hsec, hexist⟩ := hadds.added
    have hall := hadds.keys.trans hgrow
    simp only at hlist hexist hall
    subst hlist hexist
    rw [map_append] at hall
    exact ⟨added, hrun, hsec, append_cancel_left hall⟩
  constructor
  . rintro ⟨added, isExist, hcollects, -, -, hneeded, -⟩
    by_cases hends : Room (allTaken known regSvc) (disList.map (·.key))
        ((comesTo (allTaken known regSvc) disList).map (·.key)) ∧
        ∀ s ∈ disList.take (disList.length % 256), Few (allTaken known regSvc) disList s
    . obtain ⟨added', hcollects', -, hadded'⟩ := hrun hends
      rw [hcollects, Except.ok.injEq, Collected.mk.injEq, append_cancel_left_eq] at hcollects'
      rw [← hcollects'.1] at hadded'
      refine ⟨hends.1, hends.2, fun key hkey => ?_⟩
      rw [← hneeded key, hadded'] at hkey
      exact ((hkeys key).mp hkey).1
    . have hstuck := @addSecondarySrvs_stuck known regSvc disList ⟨disList, false⟩
        (disList.take (disList.length % 256)) hstart hends
      unfold gattcStorageAddSecondaryService at hcollects
      rw [hstuck] at hcollects
      cases hcollects
  . intro h
    obtain ⟨added, hcollects, hsec, hadded⟩ := hrun ⟨h.room, h.few⟩
    refine ⟨added, !added.isEmpty, hcollects, hsec, hadded ▸ hnodup, fun key => ?_, by simp⟩
    rw [hadded, hkeys]
    constructor
    . rintro ⟨hcomes, htakes, hnew⟩
      obtain ⟨inc, hinc, rfl⟩ := mem_map.mp hcomes
      obtain ⟨s, hs, hincs⟩ := exists_of_mem_comesTo hinc
      exact ⟨⟨s, hs, inc, hincs, rfl⟩, hnew, htakes⟩
    . intro hneeded
      exact ⟨h.complete key hneeded, hneeded.2.2, hneeded.2.1⟩

def twoIncludes : DisSrv :=
  gattcStorageAddInclude
    (gattcStorageAddInclude (.new (.uuid16 ⟨⟨1, 0, 1⟩, 8, 0x1801⟩) rfl)
      (.uuid16 ⟨⟨5, 0, 2⟩, 0x10, 0x1F, 0x180F, 0⟩) typed_include)
    (.uuid16 ⟨⟨5, 0, 3⟩, 0x20, 0x2F, 0x180A, 0⟩) rfl

theorem not_collects :
    ¬ ∀ (known : AttrUuid → Bool) (regSvc : Bool) (disList : List DisSrv),
      Collects (allTaken known regSvc) disList := by
  intro h
  obtain ⟨added, isExist, hrun, -, -, hneeded, -⟩ :=
    h (fun uuid => uuid == .uuid16 0x180A) true [twoIncludes]
  have hresult : gattcStorageAddSecondaryService
      (allTaken (fun uuid => uuid == .uuid16 0x180A) true) [twoIncludes] =
        .ok ⟨[twoIncludes], false⟩ := rfl
  rw [hresult, Except.ok.injEq, Collected.mk.injEq] at hrun
  have hnil : added = [] := by
    have hlen := congrArg List.length hrun.1
    simpa using hlen
  subst hnil
  have hneed : Needed (allTaken (fun uuid => uuid == .uuid16 0x180A) true) [twoIncludes]
      ⟨.uuid16 0x180A, 0x20, 0x2F⟩ :=
    ⟨⟨twoIncludes, mem_singleton_self _, .uuid16 ⟨⟨5, 0, 3⟩, 0x20, 0x2F, 0x180A, 0⟩, by decide, rfl⟩,
      by decide, rfl⟩
  exact absurd ((hneeded _).mpr hneed) (by simp)

end GattcStorage
