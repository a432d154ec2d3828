import Earphone.Bass.CpAgree
import Mathlib.Algebra.Ring.Parity
import Mathlib.Data.Nat.BitIndices

namespace Brs

open Scan Slices
open Bass (PaSyncState PaSync BigEncryptionState)

structure SyncParam where
  bis : Vector Nat 4
  numBis : Nat

open List

def storeBisIdx (bisIdx : Nat) (written : List Nat) (bisSync : Nat) : List Nat :=
  if bisSync % 2 = 1 then written ++ [bisIdx] else written

def bisIdxLoop (bisIdx : Nat) (written : List Nat) (bisSync : Nat) : Bool × List Nat :=
  if bisSync = 0 then
    (true, written)
  else if 4 < (storeBisIdx (bisIdx + 1) written bisSync).length then
    (false, storeBisIdx (bisIdx + 1) written bisSync)
  else
    bisIdxLoop (bisIdx + 1) (storeBisIdx (bisIdx + 1) written bisSync) (bisSync / 2)
termination_by bisSync
decreasing_by omega

structure BisIdxResult where
  ok : Bool
  param : SyncParam
  beyond : List Nat

theorem bis_lt (i : Fin 4) : i.val < 4 := i.isLt

def updateBisIdx (param : SyncParam) (bisSync : UInt32) : BisIdxResult :=
  let (ok, written) := bisIdxLoop 0 [] bisSync.toNat
  { ok
    param :=
      { bis := .ofFn fun i => written[i.val]?.getD (getElem param.bis i (bis_lt i))
        numBis := if ok then written.length else param.numBis }
    beyond := written.drop 4 }

def SyncParam.listed (param : SyncParam) : List Nat := param.bis.toList.take param.numBis

def bigSyncEstablish (ready asked : Bool) (param : SyncParam) (cpBigSync : UInt32) :
    Option SyncParam :=
  if ready = false then
    none
  else if asked = true ∧ (cpBigSync = noPrefer ∨ cpBigSync = 0) then
    none
  else
    some (updateBisIdx param cpBigSync).param

inductive Fill where
  | prefer (idx : Nat) (bisSync : UInt32)
  | bigInfo (numBis : Nat)

def fill (state : Option Nat × BrsDb) : Fill → Except Stuck (Option Nat × BrsDb)
  | .prefer idx bisSync => do
    let (accepted, db) ← cfgPreferBisSync idx bisSync state.2
    return (if accepted then some idx else state.1, db)
  | .bigInfo numBis => return (state.1, { state.2 with biginfoBisNum := numBis })

def select (answers : Answers) (isAdd : Bool) (tbl : SubgroupTbl) (events : List Fill)
    (db : BrsDb) : Except Stuck (Option (Option Nat × BrsDb)) := do
  let (updated, db) ← handleUpdateBisInfo answers isAdd tbl db
  if updated = false then
    return none
  else do
    let state ← events.foldlM fill (none, setPending tbl db)
    return some state

def finalBis (tbl : SubgroupTbl) (db : BrsDb) : List UInt32 := db.pPendingCpData.getD tbl.bis

def BrsData.reported (data : BrsData) : List UInt32 :=
  match data.pCpBisInfo with
  | none => []
  | some block => (block.infos.take data.numSubgroups).map BisInfo.bisSync

def union (masks : List UInt32) : UInt32 := masks.foldl (· ||| ·) 0

def Apart (masks : List UInt32) : Prop := masks.Pairwise fun a b => a &&& b = 0

def bisCount (mask : UInt32) : Nat := mask.toNat.bitIndices.length

structure Lists (mask : UInt32) (r : BisIdxResult) : Prop where
  inside : r.beyond = []
  ascending : r.param.listed.Pairwise (· < ·)
  exact : ∀ i, i ∈ r.param.listed ↔ ∃ j, i = j + 1 ∧ mask.toNat.testBit j = true

structure Exact (param : SyncParam) (masks : List UInt32) (bisState : UInt32) (db : BrsDb) :
    Prop where
  lists : Lists db.bisSyncInfo.cpBigSync (updateBisIdx param db.bisSyncInfo.cpBigSync)
  start : 4 < bisCount db.bisSyncInfo.cpBigSync → ∀ ready asked,
    bigSyncEstablish ready asked param db.bisSyncInfo.cpBigSync = none
  reports : ∃ db', setBisState bisState .bass db = .ok db' ∧
    db'.brsData.reported = masks.map (bisState &&& ·) ∧ Apart db'.brsData.reported ∧
    union db'.brsData.reported = bisState

section

variable {bisIdx bisSync : Nat} {written : List Nat}

theorem storeBisIdx_append :
    storeBisIdx (bisIdx + 1) written bisSync ++
        (bisSync / 2).bitIndices.map (· + (bisIdx + 1 + 1)) =
      written ++ bisSync.bitIndices.map (· + (bisIdx + 1)) := by
  have hnext : (· + (bisIdx + 1)) ∘ (· + 1) = fun i => i + (bisIdx + 1 + 1) := by
    funext i
    simp only [Function.comp_apply]
    omega
  unfold storeBisIdx
  rcases Nat.even_or_odd' bisSync with ⟨k, rfl | rfl⟩
  . have hdiv : 2 * k / 2 = k := by omega
    rw [if_neg (by omega), hdiv, Nat.bitIndices_two_mul, map_map, hnext]
  . have hdiv : (2 * k + 1) / 2 = k := by omega
    rw [if_pos (by omega), hdiv, Nat.bitIndices_two_mul_add_one, map_cons, map_map, hnext,
      append_assoc, singleton_append, Nat.zero_add]

theorem storeBisIdx_length :
    (storeBisIdx (bisIdx + 1) written bisSync).length + (bisSync / 2).bitIndices.length =
      written.length + bisSync.bitIndices.length := by
  have h := congrArg List.length (@storeBisIdx_append bisIdx bisSync written)
  simpa only [length_append, length_map] using h

theorem bisIdxLoop_few (h : written.length + bisSync.bitIndices.length ≤ 4) :
    bisIdxLoop bisIdx written bisSync =
      (true, written ++ bisSync.bitIndices.map (· + (bisIdx + 1))) := by
  induction bisIdx, written, bisSync using bisIdxLoop.induct with
  | case1 bisIdx written =>
    unfold bisIdxLoop
    simp
  | case2 bisIdx written bisSync hne hmany =>
    have hlen := @storeBisIdx_length bisIdx bisSync written
    omega
  | case3 bisIdx written bisSync hne hfew ih =>
    unfold bisIdxLoop
    rw [if_neg hne, if_neg hfew, ih (by rw [storeBisIdx_length]; exact h), storeBisIdx_append]

theorem bisIdxLoop_many (hroom : written.length ≤ 4)
    (h : 4 < written.length + bisSync.bitIndices.length) :
    4 < (bisIdxLoop bisIdx written bisSync).2.length := by
  induction bisIdx, written, bisSync using bisIdxLoop.induct with
  | case1 bisIdx written =>
    rw [Nat.bitIndices_zero, length_nil] at h
    omega
  | case2 bisIdx written bisSync hne hmany =>
    unfold bisIdxLoop
    rw [if_neg hne, if_pos hmany]
    exact hmany
  | case3 bisIdx written bisSync hne hfew ih =>
    unfold bisIdxLoop
    rw [if_neg hne, if_neg hfew]
    exact ih (by omega) (by rw [storeBisIdx_length]; exact h)

variable {param : SyncParam} {mask : UInt32}

theorem updateBisIdx_listed (h : bisCount mask ≤ 4) :
    (updateBisIdx param mask).beyond = [] ∧
      (updateBisIdx param mask).param.listed = mask.toNat.bitIndices.map (· + 1) := by
  have hloop := @bisIdxLoop_few 0 mask.toNat [] (by rw [length_nil, Nat.zero_add]; exact h)
  rw [nil_append] at hloop
  have hlen : (mask.toNat.bitIndices.map (· + (0 + 1))).length ≤ 4 := by
    rw [length_map]
    exact h
  simp only [updateBisIdx, hloop, if_true, SyncParam.listed]
  refine ⟨drop_eq_nil_of_le hlen, ?_⟩
  apply ext_getElem
  . rw [length_take, Vector.length_toList, Nat.min_eq_left hlen]
  . intro i hi hi'
    rw [getElem_take, Vector.getElem_toList, Vector.getElem_ofFn]
    simp only
    rw [getElem?_eq_getElem hi']
    rfl

theorem lists_iff : Lists mask (updateBisIdx param mask) ↔ bisCount mask ≤ 4 := by
  constructor
  . intro h
    by_contra hmany
    have hlong := @bisIdxLoop_many 0 mask.toNat [] (Nat.zero_le 4)
      (by rw [length_nil, Nat.zero_add]; exact Nat.lt_of_not_le hmany)
    have hinside : (bisIdxLoop 0 [] mask.toNat).2.drop 4 = [] := h.inside
    have hshort := drop_eq_nil_iff.mp hinside
    omega
  . intro h
    obtain ⟨hinside, hlisted⟩ := @updateBisIdx_listed param mask h
    refine ⟨hinside, ?_, ?_⟩
    . rw [hlisted, pairwise_map]
      exact Nat.bitIndices_sorted.pairwise.imp (fun hlt => Nat.add_lt_add_right hlt 1)
    . intro i
      rw [hlisted, mem_map]
      simp only [Nat.mem_bitIndices]
      constructor
      . rintro ⟨j, hj, rfl⟩
        exact ⟨j, rfl, hj⟩
      . rintro ⟨j, rfl, hj⟩
        exact ⟨j, hj, rfl⟩

end

section

variable {masks bis : List UInt32} {s acc mask u : UInt32}

theorem and_noPrefer : s &&& noPrefer = s := UInt32.and_neg_one

theorem noPrefer_or : noPrefer ||| s = noPrefer := UInt32.neg_one_or

theorem foldl_or_and :
    (masks.map (s &&& ·)).foldl (· ||| ·) (s &&& acc) = s &&& masks.foldl (· ||| ·) acc := by
  induction masks generalizing acc with
  | nil => rfl
  | cons m rest ih =>
    rw [map_cons, foldl_cons, foldl_cons, ← ih, UInt32.and_comm s, UInt32.and_comm s,
      UInt32.and_comm s, or_and_eq]

theorem apart_and (hapart : Apart masks) (hsub : s &&& union masks = s) :
    Apart (masks.map (s &&& ·)) ∧ union (masks.map (s &&& ·)) = s := by
  constructor
  . unfold Apart
    rw [pairwise_map]
    refine hapart.imp fun {a b} hab => ?_
    calc (s &&& a) &&& (s &&& b) = s &&& (a &&& (s &&& b)) := UInt32.and_assoc ..
      _ = s &&& (s &&& (a &&& b)) := by
        rw [← UInt32.and_assoc a, UInt32.and_comm a, UInt32.and_assoc]
      _ = 0 := by rw [hab, UInt32.and_zero, UInt32.and_zero]
  . have hfold := @foldl_or_and masks s 0
    rw [UInt32.and_zero] at hfold
    exact hfold.trans hsub

theorem preferLoop_left : preferLoop acc true bis ≠ some (u, false) := by
  induction bis generalizing acc with
  | nil => exact fun hnil => by cases hnil
  | cons b rest ih =>
    unfold preferLoop
    split_ifs
    . exact (Option.some_ne_none _).symm
    . exact ih
    . exact ih

theorem preferLoop_done (h : preferLoop acc false bis = some (u, false)) :
    noPrefer ∉ bis ∧ u = bis.foldl (· ||| ·) acc ∧ (∀ b ∈ bis, acc &&& b = 0) ∧ Apart bis := by
  induction bis generalizing acc with
  | nil =>
    cases h
    exact ⟨not_mem_nil, rfl, nofun, List.Pairwise.nil⟩
  | cons b rest ih =>
    unfold preferLoop at h
    split_ifs at h with hprefer hcommon
    . obtain ⟨hnot, hu, hacc, hapart⟩ := ih h
      have hcommon := not_not.mp hcommon
      have hparts : ∀ c ∈ rest, acc &&& c = 0 ∧ b &&& c = 0 := by
        intro c hc
        have hor := hacc c hc
        rw [or_and_eq] at hor
        exact UInt32.or_eq_zero_iff.mp hor
      refine ⟨?_, hu, ?_, ?_⟩
      . rw [mem_cons, not_or]
        exact ⟨fun heq => hprefer heq.symm, hnot⟩
      . rw [forall_mem_cons]
        exact ⟨hcommon, fun c hc => (hparts c hc).1⟩
      . exact pairwise_cons.mpr ⟨fun c hc => (hparts c hc).2, hapart⟩
    . exact absurd h preferLoop_left

theorem foldl_noPrefer :
    bis.foldl (fun bisSync b => if b ≠ noPrefer then bisSync ||| b else noPrefer) noPrefer =
      noPrefer := by
  induction bis with
  | nil => rfl
  | cons b rest ih =>
    rw [foldl_cons, noPrefer_or, ite_self]
    exact ih

theorem bisSyncOf_noPrefer (h : noPrefer ∈ bis) : bisSyncOf bis = noPrefer := by
  obtain ⟨before, after, rfl⟩ := append_of_mem h
  rw [bisSyncOf, foldl_append, foldl_cons, if_neg (not_not.mpr rfl)]
  exact foldl_noPrefer

theorem bisSyncOf_union (h : noPrefer ∉ bis) : bisSyncOf bis = union bis := by
  apply foldl_ext
  intro acc b hb
  rw [if_pos]
  rintro rfl
  exact h hb

theorem exclusive_apart (h : Exclusive bis) (hnot : noPrefer ∉ bis) : Apart bis :=
  List.Pairwise.imp_of_mem (fun ha hb hab => hab (fun heq => hnot (heq ▸ ha))
    (fun heq => hnot (heq ▸ hb))) h

end

section

variable {answers : Answers} {isAdd : Bool} {tbl : SubgroupTbl} {db db' : BrsDb}
  {stored : List UInt32}

structure BrsDb.Stores (db : BrsDb) (stored : List UInt32) : Prop where
  laid : Laid db.brsData.pCpBisInfo db.brsData.numSubgroups db.brsData.bisInfoSize db.supplied
  num : db.brsData.numSubgroups = stored.length
  cpNum : db.bisSyncInfo.cpSubgroupNum = stored.length
  masks : ∀ i : Nat, i < stored.length → db.bisSyncInfo.cpSubgroupBis[i]? = stored[i]?

theorem fillSubgroupBis_get (h : fillSubgroupBis array bis = .ok array') :
    bis.length ≤ 4 ∧ ∀ i : Nat, i < bis.length → array'[i]? = bis[i]? := by
  unfold fillSubgroupBis at h
  split_ifs at h with hfour
  cases h
  refine ⟨hfour, fun i hi => ?_⟩
  rw [Vector.getElem?_ofFn, dif_pos (by omega), getElem?_eq_getElem hi]
  rfl

theorem renewBisInfo_sync (hinv : db.Inv)
    (hfour : tbl.subgroups.length ≤ 4) (h : renewBisInfo answers isAdd tbl db = .ok r) :
    r.1 = bisSyncOf tbl.bis := by
  unfold renewBisInfo at h
  by_cases hsize : 0 < bisInfoSizeOf tbl.metadata
  . obtain ⟨equal, hequal, -⟩ := @bisInfoEqual_ok db tbl hinv
    simp only [if_pos hsize, hequal, bind, Except.bind] at h
    cases equal with
    | true =>
      cases h
      rfl
    | false =>
      simp only [Bool.false_eq_true, if_false] at h
      cases hfill : fillBisInfo id (tbl.bis.mapIdx (newBisSync answers db)) tbl.metadata
          (bisInfoSizeOf tbl.metadata) with
      | error stuck =>
        rw [hfill] at h
        cases h
      | ok block =>
        rw [hfill] at h
        cases h
        rfl
  . have hsizeOf := bisInfoSizeOf_roomy (roomy_of_le hfour)
    rw [SubgroupTbl.metadata_length] at hsizeOf
    have hnum : tbl.bis.length = 0 := by
      rw [SubgroupTbl.bis_length]
      unfold sizeofBisInfo at hsizeOf
      omega
    rw [if_neg hsize] at h
    cases h
    rw [eq_nil_of_length_eq_zero hnum]
    rfl

theorem handleUpdateBisInfo_stores (hinv : db.Inv)
    (h : handleUpdateBisInfo answers isAdd tbl db = .ok (true, db')) :
    db'.Stores tbl.bis ∧ tbl.bis.length ≤ 4 ∧ db'.pPendingCpData = db.pPendingCpData ∧
      db'.bisSyncInfo.cpBigSync = bisSyncOf tbl.bis := by
  obtain ⟨refused, hrefused⟩ := @refuses_ok db answers tbl hinv
  have hopen := h
  simp only [handleUpdateBisInfo, hrefused, bind, Except.bind] at hopen
  cases refused with
  | true => cases hopen
  | false =>
    simp only [Bool.false_eq_true, if_false] at hopen
    cases hrenew : renewBisInfo answers isAdd tbl db with
    | error stuck =>
      rw [hrenew] at hopen
      cases hopen
    | ok r =>
      cases hset : setCpSubgroupBis db.bisSyncInfo.cpSubgroupBis tbl.bis with
      | error stuck =>
        simp only [hrenew, setCpSubgroups, hset, bind, Except.bind] at hopen
        cases hopen
      | ok array =>
        have hmasks : tbl.bis.length ≤ 4 ∧
            ∀ i : Nat, i < tbl.bis.length → array[i]? = tbl.bis[i]? := by
          unfold setCpSubgroupBis at hset
          split_ifs at hset with hnum
          . exact fillSubgroupBis_get hset
          . exact ⟨by omega, fun i hi => by omega⟩
        have hfour : tbl.subgroups.length ≤ 4 := by
          rw [← SubgroupTbl.bis_length]
          exact hmasks.1
        obtain ⟨r', hr', hinv', -⟩ := @handleUpdateBisInfo_inv db answers tbl isAdd hinv
          (fun _ => hfour)
        rw [h] at hr'
        cases hr'
        simp only [hrenew, setCpSubgroups, hset, bind, Except.bind] at hopen
        cases hopen
        exact ⟨⟨hinv'.laid, (SubgroupTbl.bis_length tbl).symm, (SubgroupTbl.bis_length tbl).symm,
          hmasks.2⟩, hmasks.1, rfl, renewBisInfo_sync hinv hfour hrenew⟩

end

section

variable {tbl : SubgroupTbl} {db db' : BrsDb} {stored request bis : List UInt32}
  {state state' : Option Nat × BrsDb}

theorem BrsDb.Stores.frame (h : db.Stores stored) (hdata : db'.brsData = db.brsData)
    (hsupplied : db'.supplied = db.supplied)
    (hnum : db'.bisSyncInfo.cpSubgroupNum = db.bisSyncInfo.cpSubgroupNum)
    (hbis : db'.bisSyncInfo.cpSubgroupBis = db.bisSyncInfo.cpSubgroupBis) : db'.Stores stored := by
  constructor
  . rw [hdata, hsupplied]
    exact h.laid
  . rw [hdata]
    exact h.num
  . rw [hnum]
    exact h.cpNum
  . rw [hbis]
    exact h.masks

structure Complete (request bis : List UInt32) (last : Option Nat) (db : BrsDb) : Prop where
  filled : noPrefer ∉ bis
  stored : ∃ i b, last = some i ∧ request[i]? = some noPrefer ∧ bis[i]? = some b ∧
    db.Stores (request.set i b)
  sync : db.bisSyncInfo.cpBigSync = union bis
  apart : Apart bis

structure Waits (request bis : List UInt32) (state : Option Nat × BrsDb) : Prop where
  pending : state.2.pPendingCpData = some bis
  length : bis.length = request.length
  kept : ∀ (i : Nat) (b : UInt32), request[i]? = some b → b ≠ noPrefer → bis[i]? = some b
  phase : state.2.Stores request ∧ state.2.bisSyncInfo.cpBigSync = noPrefer ∨
    Complete request bis state.1 state.2

section

variable (h : Waits request bis state) (hfour : request.length ≤ 4)

include h hfour

theorem Waits.cfgPrefer (hcfg : cfgPreferBisSync idx bisSync state.2 = .ok (accepted, db')) :
    ∃ bis', Waits request bis' (if accepted then some idx else state.1, db') := by
  unfold cfgPreferBisSync at hcfg
  simp only [h.pending] at hcfg
  by_cases hidx : bis[idx]? = some noPrefer
  . rw [if_pos hidx] at hcfg
    have hlt := (List.getElem?_eq_some_iff.mp hidx).1
    have hroom : idx < 4 := by
      rw [h.length] at hlt
      omega
    have hset : (bis.set idx bisSync)[idx]? = some bisSync := getElem?_set_self hlt
    cases hloop : preferLoop 0 false (bis.set idx bisSync) with
    | none =>
      rw [hloop] at hcfg
      cases hcfg
      exact ⟨bis, h⟩
    | some result =>
      obtain ⟨cpBisSync, isNoPrefer⟩ := result
      simp only [hloop] at hcfg
      have hopen := h.phase.resolve_right (fun hdone => hdone.filled (mem_of_getElem? hidx))
      have hrequest : request[idx]? = some noPrefer := by
        rw [h.length] at hlt
        rw [getElem?_eq_getElem hlt]
        by_contra hne
        have hkept := h.kept idx _ (getElem?_eq_getElem hlt) (fun heq => hne (congrArg _ heq))
        rw [hidx] at hkept
        exact hne hkept.symm
      have hkept : ∀ (i : Nat) (b : UInt32), request[i]? = some b → b ≠ noPrefer →
          (bis.set idx bisSync)[i]? = some b := by
        intro i b hb hprefer
        have hne : idx ≠ i := by
          rintro rfl
          rw [hrequest] at hb
          exact hprefer (Option.some.inj hb).symm
        rw [getElem?_set_ne hne]
        exact h.kept i b hb hprefer
      rw [dif_pos hroom] at hcfg
      split_ifs at hcfg with hinfo hleft
      . cases hcfg
        exact ⟨bis, h⟩
      . cases hcfg
        exact ⟨bis.set idx bisSync, rfl, by rw [length_set, h.length], hkept,
          .inl ⟨hopen.1.frame rfl rfl rfl rfl, hopen.2⟩⟩
      . cases hcfg
        rw [Bool.not_eq_true] at hleft
        rw [hleft] at hloop
        obtain ⟨hfilled, hsync, -, hapart⟩ := preferLoop_done hloop
        refine ⟨bis.set idx bisSync, rfl, by rw [length_set, h.length], hkept,
          .inr ⟨hfilled, ⟨idx, bisSync, rfl, hrequest, hset, ?_⟩, hsync, hapart⟩⟩
        constructor
        . exact hopen.1.laid
        . rw [length_set]
          exact hopen.1.num
        . rw [length_set]
          exact hopen.1.cpNum
        . intro i hi
          rw [length_set] at hi
          have hmask := hopen.1.masks i hi
          simp only [Vector.getElem?_set]
          by_cases heq : idx = i
          . subst heq
            rw [if_pos rfl, getElem?_set_self hi]
          . rw [if_neg heq, getElem?_set_ne heq]
            exact hmask
  . rw [if_neg hidx] at hcfg
    cases hcfg
    exact ⟨bis, h⟩

theorem Waits.fill (hfill : Brs.fill state event = .ok state') :
    ∃ bis', Waits request bis' state' := by
  cases event with
  | prefer idx bisSync =>
    simp only [Brs.fill, bind, Except.bind] at hfill
    cases hcfg : cfgPreferBisSync idx bisSync state.2 with
    | error stuck =>
      rw [hcfg] at hfill
      cases hfill
    | ok result =>
      rw [hcfg] at hfill
      cases hfill
      exact h.cfgPrefer hfour hcfg
  | bigInfo numBis =>
    cases hfill
    refine ⟨bis, h.pending, h.length, h.kept, ?_⟩
    rcases h.phase with ⟨hstores, hwaits⟩ | hdone
    . exact .inl ⟨hstores.frame rfl rfl rfl rfl, hwaits⟩
    . obtain ⟨i, b, hlast, hi, hb, hstores⟩ := hdone.stored
      exact .inr ⟨hdone.filled, ⟨i, b, hlast, hi, hb, hstores.frame rfl rfl rfl rfl⟩, hdone.sync,
        hdone.apart⟩

theorem Waits.run {events : List Fill}
    (hrun : events.foldlM Brs.fill state = .ok state') : ∃ bis', Waits request bis' state' := by
  induction events generalizing bis state with
  | nil =>
    cases hrun
    exact ⟨bis, h⟩
  | cons event rest ih =>
    rw [foldlM_cons] at hrun
    cases hfill : Brs.fill state event with
    | error stuck =>
      rw [hfill] at hrun
      cases hrun
    | ok next =>
      obtain ⟨bis', hnext⟩ := h.fill hfour hfill
      rw [hfill] at hrun
      exact ih hnext hrun

end

theorem fill_idle (hidle : state.2.pPendingCpData = none)
    (hfill : fill state event = .ok state') :
    state' = (state.1, { state.2 with biginfoBisNum := state'.2.biginfoBisNum }) := by
  cases event with
  | prefer idx bisSync =>
    simp only [fill, cfgPreferBisSync, hidle, bind, Except.bind] at hfill
    cases hfill
    rfl
  | bigInfo numBis =>
    cases hfill
    rfl

theorem fills_idle (hidle : state.2.pPendingCpData = none) {events : List Fill}
    (hrun : events.foldlM fill state = .ok state') :
    state' = (state.1, { state.2 with biginfoBisNum := state'.2.biginfoBisNum }) := by
  induction events generalizing state with
  | nil =>
    cases hrun
    rfl
  | cons event rest ih =>
    rw [foldlM_cons] at hrun
    cases hfill : fill state event with
    | error stuck =>
      rw [hfill] at hrun
      cases hrun
    | ok next =>
      have hnext := fill_idle hidle hfill
      rw [hfill] at hrun
      have hrest := ih (by rw [hnext]; exact hidle) hrun
      rw [hrest, hnext]

end

section

variable {db : BrsDb} {stored masks : List UInt32} {bisState : UInt32}

theorem BrsDb.Stores.reports (h : db.Stores stored) (hnew : db.brsData.bisSyncState ≠ bisState)
    (hsync : bisState ≠ failedToSyncToBig) :
    ∃ db', setBisState bisState .bass db = .ok db' ∧
      db'.brsData.reported = stored.map (bisState &&& ·) := by
  have hwrite : ∀ i : Nat, i < stored.length →
      bisSyncFor .bass bisState db.bisSyncInfo i = some (bisState &&& stored[i]?.getD 0) := by
    intro i hi
    unfold bisSyncFor
    rw [if_neg hsync]
    by_cases hzero : bisState = 0
    . rw [if_pos hzero, hzero, UInt32.zero_and]
    . rw [if_neg hzero, if_pos rfl, if_pos (by rw [h.cpNum]; exact hi), h.masks i hi]
  unfold setBisState bigUpdateBisState
  rw [if_pos hnew]
  cases hblock : db.brsData.pCpBisInfo with
  | none =>
    have hnum := h.laid.null.mp hblock
    have hnil : stored = [] := eq_nil_of_length_eq_zero (h.num.symm.trans hnum)
    simp only [writeBisSync, if_pos hnum, bind, Except.bind]
    refine ⟨_, rfl, ?_⟩
    rw [hnil]
    rfl
  | some block =>
    have hlen := (h.laid.block block hblock).infos
    simp only [writeBisSync, if_pos (Nat.le_of_eq hlen.symm), bind, Except.bind]
    refine ⟨_, rfl, ?_⟩
    simp only [BrsData.reported, BisBlock.withBisSync]
    apply ext_getElem
    . simp [hlen, h.num]
    . intro i hi hi'
      rw [length_map] at hi'
      simp only [getElem_map, getElem_take, getElem_mapIdx]
      rw [if_pos (by rw [h.num]; exact hi'), hwrite i hi', getElem?_eq_getElem hi']
      rfl

def Whole (request masks : List UInt32) (last : Option Nat) (bisState : UInt32) : Prop :=
  ∀ i : Nat, request[i]? = some noPrefer → last ≠ some i → ∀ mask, masks[i]? = some mask →
    bisState &&& mask = bisState

theorem stored_iff (hlen : masks.length = request.length)
    (hkept : ∀ (j : Nat) (c : UInt32), request[j]? = some c → c ≠ noPrefer → masks[j]? = some c)
    (hlast : last = some i) (hb : masks[i]? = some b) :
    (request.set i b).map (bisState &&& ·) = masks.map (bisState &&& ·) ↔
      Whole request masks last bisState := by
  constructor
  . intro heq j hj hne mask hmask
    have hij : i ≠ j := fun hij => hne (hij ▸ hlast)
    have hboth := congrArg (·[j]?) heq
    simp only [getElem?_map, getElem?_set_ne hij, hj, hmask, Option.map_some,
      and_noPrefer] at hboth
    exact (Option.some.inj hboth).symm
  . intro hwhole
    apply ext_getElem?
    intro j
    simp only [getElem?_map]
    by_cases hij : i = j
    . subst hij
      have hi := (List.getElem?_eq_some_iff.mp hb).1
      rw [List.getElem?_set_self (by rw [← hlen]; exact hi), hb]
    . rw [List.getElem?_set_ne hij]
      cases hj : request[j]? with
      | none =>
        rw [List.getElem?_eq_none_iff] at hj
        rw [List.getElem?_eq_none (by rw [hlen]; exact hj)]
      | some c =>
        by_cases hc : c = noPrefer
        . subst hc
          have hjlt := (List.getElem?_eq_some_iff.mp hj).1
          rw [← hlen] at hjlt
          have hmask := List.getElem?_eq_getElem hjlt
          have hlastj : last ≠ some j := fun heq => hij (Option.some.inj (hlast.symm.trans heq))
          rw [hmask, Option.map_some, Option.map_some, and_noPrefer,
            hwhole j hj hlastj _ hmask]
        . rw [hkept j c hj hc]

theorem reports_iff (h : db.Stores stored) (hnew : db.brsData.bisSyncState ≠ bisState)
    (hsync : bisState ≠ failedToSyncToBig) (hapart : Apart masks)
    (hsub : bisState &&& union masks = bisState) :
    (∃ db', setBisState bisState .bass db = .ok db' ∧
      db'.brsData.reported = masks.map (bisState &&& ·) ∧ Apart db'.brsData.reported ∧
      union db'.brsData.reported = bisState) ↔
    stored.map (bisState &&& ·) = masks.map (bisState &&& ·) := by
  obtain ⟨db', hset, hreported⟩ := h.reports hnew hsync
  constructor
  . rintro ⟨db'', hset', hmasks, -⟩
    rw [hset] at hset'
    cases hset'
    rw [← hreported, hmasks]
  . intro heq
    obtain ⟨hpart, hunion⟩ := apart_and hapart hsub
    refine ⟨db', hset, ?_⟩
    rw [hreported, heq]
    exact ⟨rfl, hpart, hunion⟩

end

section

variable {answers : Answers} {isAdd : Bool} {tbl : SubgroupTbl} {events : List Fill}
  {db db' : BrsDb} {last : Option Nat} {param : SyncParam} {bisState : UInt32}

theorem select_ok (h : select answers isAdd tbl events db = .ok (some (last, db'))) :
    ∃ db₁, handleUpdateBisInfo answers isAdd tbl db = .ok (true, db₁) ∧
      events.foldlM fill (none, setPending tbl db₁) = .ok (last, db') := by
  unfold select at h
  cases hupdate : handleUpdateBisInfo answers isAdd tbl db with
  | error stuck =>
    rw [hupdate] at h
    cases h
  | ok result =>
    obtain ⟨updated, db₁⟩ := result
    simp only [hupdate, bind, Except.bind] at h
    cases updated with
    | false => cases h
    | true =>
      simp only [Bool.true_eq_false, if_false] at h
      cases hrun : events.foldlM fill (none, setPending tbl db₁) with
      | error stuck =>
        rw [hrun] at h
        cases h
      | ok state =>
        rw [hrun] at h
        cases h
        exact ⟨db₁, rfl, hrun⟩

theorem select_stores (hinv : db.Inv) (hexclusive : Exclusive tbl.bis)
    (hstale : noPrefer ∈ tbl.bis ∨ db.pPendingCpData = none)
    (h : select answers isAdd tbl events db = .ok (some (last, db')))
    (hdone : db'.bisSyncInfo.cpBigSync ≠ noPrefer) :
    db'.bisSyncInfo.cpBigSync = union (finalBis tbl db') ∧ Apart (finalBis tbl db') ∧
      ∃ stored, db'.Stores stored ∧ ((stored = finalBis tbl db' ∧ noPrefer ∉ tbl.bis) ∨
        (finalBis tbl db').length = tbl.bis.length ∧
        (∀ (i : Nat) (b : UInt32), tbl.bis[i]? = some b → b ≠ noPrefer →
          (finalBis tbl db')[i]? = some b) ∧
        ∃ i b, last = some i ∧ tbl.bis[i]? = some noPrefer ∧ (finalBis tbl db')[i]? = some b ∧
          stored = tbl.bis.set i b) := by
  obtain ⟨db₁, hupdate, hrun⟩ := select_ok h
  obtain ⟨hstores, hfour, hpending, hsync⟩ := handleUpdateBisInfo_stores hinv hupdate
  by_cases hwaits : db₁.bisSyncInfo.cpBigSync = noPrefer
  . rw [setPending, if_pos hwaits] at hrun
    have hfirst : Waits tbl.bis tbl.bis (none, { db₁ with pPendingCpData := some tbl.bis }) :=
      ⟨rfl, rfl, fun _ _ hb _ => hb, .inl ⟨hstores.frame rfl rfl rfl rfl, hwaits⟩⟩
    obtain ⟨bis, hbis⟩ := hfirst.run hfour hrun
    have hcomplete := hbis.phase.resolve_left (fun hopen => hdone hopen.2)
    have hfinal : finalBis tbl db' = bis := by rw [finalBis, hbis.pending, Option.getD_some]
    obtain ⟨i, b, hlast, hi, hb, hset⟩ := hcomplete.stored
    rw [hfinal]
    exact ⟨hcomplete.sync, hcomplete.apart, _, hset,
      .inr ⟨hbis.length, hbis.kept, i, b, hlast, hi, hb, rfl⟩⟩
  . have hnot : noPrefer ∉ tbl.bis := fun hmem => hwaits (hsync.trans (bisSyncOf_noPrefer hmem))
    have hidle := hpending.trans (hstale.resolve_left hnot)
    rw [setPending, if_neg hwaits] at hrun
    have hsame := fills_idle hidle hrun
    have hdb' := congrArg Prod.snd hsame
    simp only at hdb'
    have hfinal : finalBis tbl db' = tbl.bis := by
      rw [hdb', finalBis, hidle, Option.getD_none]
    rw [hfinal]
    refine ⟨?_, exclusive_apart hexclusive hnot, tbl.bis, ?_, .inl ⟨rfl, hnot⟩⟩
    . rw [hdb']
      exact hsync.trans (bisSyncOf_union hnot)
    . rw [hdb']
      exact hstores.frame rfl rfl rfl rfl

theorem sync_ne_failed (hdone : sync ≠ noPrefer)
    (hsub : bisState &&& sync = bisState) : bisState ≠ failedToSyncToBig := by
  rintro rfl
  exact hdone (UInt32.neg_one_and.symm.trans hsub)

theorem select_exact (hinv : db.Inv) (hexclusive : Exclusive tbl.bis)
    (hstale : noPrefer ∈ tbl.bis ∨ db.pPendingCpData = none)
    (h : select answers isAdd tbl events db = .ok (some (last, db')))
    (hdone : db'.bisSyncInfo.cpBigSync ≠ noPrefer)
    (hnew : db'.brsData.bisSyncState ≠ bisState)
    (hsub : bisState &&& db'.bisSyncInfo.cpBigSync = bisState) :
    Exact param (finalBis tbl db') bisState db' ↔
      bisCount (union (finalBis tbl db')) ≤ 4 ∧ Whole tbl.bis (finalBis tbl db') last bisState := by
  obtain ⟨hunion, hapart, stored, hstores, hmasks⟩ := select_stores hinv hexclusive hstale h hdone
  have hreports := reports_iff hstores hnew (sync_ne_failed hdone hsub) hapart (hunion ▸ hsub)
  have hwhole : stored.map (bisState &&& ·) = (finalBis tbl db').map (bisState &&& ·) ↔
      Whole tbl.bis (finalBis tbl db') last bisState := by
    rcases hmasks with ⟨heq, hnot⟩ | ⟨hlen, hkept, i, b, hlast, -, hb, hset⟩
    . rw [heq]
      exact ⟨fun _ i hi => absurd (mem_of_getElem? hi) hnot, fun _ => rfl⟩
    . rw [hset]
      exact stored_iff hlen hkept hlast hb
  rw [← hwhole, ← hreports, ← hunion]
  constructor
  . intro hexact
    exact ⟨lists_iff.mp hexact.lists, hexact.reports⟩
  . rintro ⟨hfew, hreport⟩
    exact ⟨lists_iff.mpr hfew, fun hmany => absurd hmany (Nat.not_lt.mpr hfew), hreport⟩

end

def openTbl : SubgroupTbl := ⟨[⟨noPrefer, [], Subgroup.short_nil⟩, ⟨1, [], Subgroup.short_nil⟩], by decide⟩

def bothTbl : SubgroupTbl := ⟨[⟨noPrefer, [], Subgroup.short_nil⟩, ⟨noPrefer, [], Subgroup.short_nil⟩], by decide⟩

def blankParam : SyncParam := ⟨.replicate 4 0, 0⟩

theorem select_exact_open :
    ∃ last db', select plenty true openTbl [.bigInfo 2, .prefer 0 1, .prefer 0 2]
        (BrsDb.zeroed 0) = .ok (some (last, db')) ∧
      Exact blankParam (finalBis openTbl db') 3 db' := by
  have hrun : ∃ last db', select plenty true openTbl [.bigInfo 2, .prefer 0 1, .prefer 0 2]
      (BrsDb.zeroed 0) = .ok (some (last, db')) ∧ last = some 0 ∧
      db'.bisSyncInfo.cpBigSync = 3 ∧ db'.brsData.bisSyncState = 0 ∧
      finalBis openTbl db' = [2, 1] := ⟨_, _, rfl, rfl, rfl, rfl, rfl⟩
  obtain ⟨last, db', hselect, hlast, hsync, hstate, hfinal⟩ := hrun
  refine ⟨last, db', hselect, (select_exact (inv_zeroed 0) (by decide) (.inr rfl) hselect
    (by rw [hsync]; decide) (by rw [hstate]; decide) (by rw [hsync]; decide)).mpr ⟨?_, ?_⟩⟩
  . have hthree : (union [2, 1]).toNat = 2 * (2 * 0 + 1) + 1 := by decide
    rw [hfinal, bisCount, hthree]
    simp only [Nat.bitIndices_two_mul_add_one]
    simp
  . rw [hfinal, hlast]
    intro i hi hne
    match i with
    | 0 => exact absurd rfl hne
    | 1 => exact absurd hi (by decide)
    | i + 2 => cases hi

theorem not_select_exact :
    ∃ last db' db'', select plenty true bothTbl [.bigInfo 5, .prefer 0 0x0F, .prefer 1 0x10]
        (BrsDb.zeroed 0) = .ok (some (last, db')) ∧
      finalBis bothTbl db' = [0x0F, 0x10] ∧
      (updateBisIdx blankParam db'.bisSyncInfo.cpBigSync).beyond = [5] ∧
      (bigSyncEstablish true true blankParam db'.bisSyncInfo.cpBigSync).isSome ∧
      setBisState 0x1F .bass db' = .ok db'' ∧ db''.brsData.reported = [0x1F, 0x10] ∧
      ¬Exact blankParam (finalBis bothTbl db') 0x1F db' := by
  have hrun : ∃ last db' db'', select plenty true bothTbl
      [.bigInfo 5, .prefer 0 0x0F, .prefer 1 0x10] (BrsDb.zeroed 0) = .ok (some (last, db')) ∧
      finalBis bothTbl db' = [0x0F, 0x10] ∧ db'.bisSyncInfo.cpBigSync = 0x1F ∧
      setBisState 0x1F .bass db' = .ok db'' ∧ db''.brsData.reported = [0x1F, 0x10] :=
    ⟨_, _, _, rfl, rfl, rfl, rfl, rfl⟩
  obtain ⟨last, db', db'', hselect, hfinal, hsync, hset, hreported⟩ := hrun
  have hbeyond : (updateBisIdx blankParam 0x1F).beyond = [5] := by
    simp [updateBisIdx, bisIdxLoop, storeBisIdx]
  refine ⟨last, db', db'', hselect, hfinal, ?_, ?_, hset, hreported, fun hexact => ?_⟩
  . rw [hsync]
    exact hbeyond
  . rw [hsync]
    rfl
  . have hinside := hexact.lists.inside
    rw [hsync, hbeyond] at hinside
    cases hinside

end Brs
