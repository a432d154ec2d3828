import Earphone.Bass.Brs

/-!
This module contains the table of the sources with the handles of the audio syncs.
-/

namespace SourceTable

open Scan
open Brs
open Bass (PaSync)

structure SyncDb where
  handle : Nat
  advSid : UInt8
  broadcastId : Vector UInt8 3
  terminated : Bool

structure Server where
  brsTbl : List BrsDb
  syncList : List SyncDb

abbrev SrcInfo := UInt8 × UInt8 × Vector UInt8 3

open List

def infoOf (db : BrsDb) : SrcInfo :=
  (db.brsData.sourceAddressType, db.brsData.sourceAdvSid, db.brsData.broadcastId)

def srcInfo (source : Source) : SrcInfo := (source.addressType, source.advSid, source.broadcastId)

def Used (db : BrsDb) : Prop := db.brsData.brsIsUsed = true
  deriving Decidable

/--
The index of the entry that is taken, and the table with it. `bass_brs_find_by_src_info` looks at
every entry.
-/
def brsAdd (source : Source) (tbl : List BrsDb) : Option (Nat × List BrsDb) :=
  if tbl.any (infoOf · = srcInfo source) then
    none
  else
    match tbl.findIdx? (¬ Used ·) with
    | none => none
    | some j => some (j, tbl.modify j (·.take source))

def handles (s : Server) : List Nat := s.syncList.map (·.handle)

def bleAudioSyncFind (source : Source) (s : Server) : Option Nat :=
  (s.syncList.find? fun d => d.advSid = source.advSid ∧ d.broadcastId = source.broadcastId).map
    (·.handle)

def handleReleasedIn (answers : Answers) (isLocal : Bool) (handle : Nat) (tbl : List BrsDb) :
    List BrsDb :=
  match tbl.findIdx? (·.handle = some handle) with
  | none => tbl
  | some i => tbl.modify i (handleReleased answers isLocal)

def Releasable (s : Server) (handle : Nat) : Prop :=
  ∃ d ∈ s.syncList, d.handle = handle ∧ d.terminated = true
  deriving Decidable

def bleAudioSyncReleaseInt (answers : Answers) (isLocal : Bool) (handle : Nat) (s : Server) :
    Bool × Server :=
  if Releasable s handle then
    (true,
      { brsTbl := handleReleasedIn answers isLocal handle s.brsTbl
        syncList := s.syncList.filter (·.handle ≠ handle) })
  else
    (false, s)

def brsDeleteAt (answers : Answers) (sendNotify : Bool) (j : Nat) (s : Server) : Server :=
  match s.brsTbl[j]? with
  | none => s
  | some db =>
    match (if Used db then db.handle else none) with
    | none =>
      { s with brsTbl := s.brsTbl.modify j fun db => (brsDelete answers sendNotify db).2 }
    | some handle =>
      let (released, s) := bleAudioSyncReleaseInt answers false handle s
      if released then
        { s with brsTbl := s.brsTbl.modify j fun db =>
            (brsDelete answers sendNotify { db with handle := none }).2 }
      else s

structure Write where
  source : Source
  paSync : PaSync
  tbl : SubgroupTbl
  noEmpty : List Nat
  address : Option Nat
  answers : Answers

def Write.created (w : Write) (s : Server) : Option Nat := w.address.filter (· ∉ handles s)

def release (answers : Answers) (l : List Nat) (s : Server) : Server :=
  l.foldl (fun s handle => (bleAudioSyncReleaseInt answers true handle s).2) s

def Write.asked (w : Write) (s : Server) : Server :=
  if (brsAdd w.source s.brsTbl).isSome then s else release w.answers w.noEmpty s

def Write.update (w : Write) (j handle : Nat) (s : Server) : Except Stuck (Bool × Server) :=
  let tbl := s.brsTbl.modify j fun db => { db with handle := some handle }
  match tbl[j]? with
  | none => .ok (false, s)
  | some db => do
    let (updated, db) ← handleUpdateBisInfo w.answers true w.tbl db
    let s := { s with brsTbl := tbl.set j db }
    if updated = false then
      return (false, brsDeleteAt w.answers false j s)
    else if db.bisSyncInfo.cpBigSync ≠ 0 ∧ w.paSync = .notSync then
      return (false, brsDeleteAt w.answers false j s)
    else
      let sendNotify := db.sendNotify || decide (db.bisSyncInfo.cpBigSync = 0 ∧ w.paSync = .notSync)
      return (true,
        { s with brsTbl := s.brsTbl.set j (setPending w.tbl { db with sendNotify }).notify })

def Write.place (w : Write) (j : Nat) (s : Server) : Except Stuck (Bool × Server) :=
  match bleAudioSyncFind w.source s with
  | some handle => w.update j handle s
  | none =>
    match w.created s with
    | none => .ok (false, brsDeleteAt w.answers false j s)
    | some handle =>
      w.update j handle
        { s with syncList := s.syncList ++ [⟨handle, w.source.advSid, w.source.broadcastId, true⟩] }

def addSource (w : Write) (s : Server) : Except Stuck (Bool × Server) :=
  match brsAdd w.source (w.asked s).brsTbl with
  | none => .ok (false, w.asked s)
  | some (j, brsTbl) => w.place j { w.asked s with brsTbl }

def localAdd (source : Source) (address : Nat) (s : Server) : Server :=
  if (bleAudioSyncFind source s).isSome ∨ address ∈ handles s ∨ ∀ db ∈ s.brsTbl, Used db then
    s
  else
    { brsTbl :=
        match brsAdd source s.brsTbl with
        | none => s.brsTbl
        | some (j, tbl) => tbl.modify j fun db => { db with handle := some address }
      syncList := s.syncList ++ [⟨address, source.advSid, source.broadcastId, true⟩] }

def deleteSource (answers : Answers) (isLocal : Bool) (j : Nat) (s : Server) : Server :=
  match s.brsTbl[j]? with
  | none => s
  | some db =>
    match db.handle with
    | none => brsDeleteAt answers true j s
    | some handle =>
      let (released, s) := bleAudioSyncReleaseInt answers isLocal handle s
      if released then
        brsDeleteAt answers true j
          { s with brsTbl := s.brsTbl.modify j fun db => { db with handle := none } }
      else s

structure Work where
  run : BrsDb → BrsDb
  info : ∀ db, infoOf (run db) = infoOf db
  used : ∀ db, Used (run db) ↔ Used db
  handle : ∀ db, (run db).handle = db.handle

inductive Op where
  | addSource (w : Write)
  | localAdd (source : Source) (address : Nat)
  | release (answers : Answers) (l : List Nat)
  | deleteSource (answers : Answers) (isLocal : Bool) (j : Nat)
  | syncState (handle : Nat) (terminated : Bool)
  | work (j : Nat) (w : Work)

def setTerminated (handle : Nat) (terminated : Bool) (d : SyncDb) : SyncDb :=
  if d.handle = handle then { d with terminated } else d

def step (s : Server) : Op → Except Stuck Server
  | .addSource w => (·.2) <$> addSource w s
  | .localAdd source address => .ok (localAdd source address s)
  | .release answers l => .ok (release answers l s)
  | .deleteSource answers isLocal j => .ok (deleteSource answers isLocal j s)
  | .syncState handle terminated =>
    .ok { s with syncList := s.syncList.map (setTerminated handle terminated) }
  | .work j w => .ok { s with brsTbl := s.brsTbl.modify j w.run }

def init (brsNum : Nat) : Server where
  brsTbl := (List.range brsNum).map fun i => BrsDb.zeroed (.ofNat (i + 1))
  syncList := []

def run (s : Server) : List Op → Except Stuck Server
  | [] => .ok s
  | op :: ops => do
    let s ← step s op
    run s ops

/--
`bass_brs_add` succeeds exactly when there is an entry that is not used and the source is not in
the table.
-/
def AddExact (source : Source) (tbl : List BrsDb) : Prop :=
  (brsAdd source tbl).isSome ↔
    (∃ db ∈ tbl, ¬ Used db) ∧ ∀ db ∈ tbl, Used db → infoOf db ≠ srcInfo source

def Distinct (tbl : List BrsDb) : Prop :=
  tbl.Pairwise fun a b => Used a → Used b → infoOf a ≠ infoOf b

structure Same (s s' : Server) : Prop where
  entries : ∀ (i : Nat) (db : BrsDb), Used db → (s'.brsTbl[i]? = some db ↔ s.brsTbl[i]? = some db)
  handles : ∀ handle, handle ∈ handles s' ↔ handle ∈ handles s

def Restores (w : Write) (s : Server) : Prop := ∀ s', addSource w s = .ok (false, s') → Same s s'

def Denies (w : Write) (db : BrsDb) : Prop :=
  ∃ updated db', handleUpdateBisInfo w.answers true w.tbl db = .ok (updated, db') ∧
    (updated = true → db'.bisSyncInfo.cpBigSync ≠ 0 ∧ w.paSync = .notSync)

def Fails (w : Write) (j : Nat) (s : Server) : Prop :=
  match (bleAudioSyncFind w.source s).or (w.created s) with
  | none => True
  | some handle => ∀ db ∈ s.brsTbl[j]?, Denies w { db.take w.source with handle := some handle }

def TakesBack (w : Write) (j : Nat) (s : Server) : Prop :=
  bleAudioSyncFind w.source s = none ∧
    ∀ handle ∈ w.created s, ∀ i < j, ∀ db ∈ s.brsTbl[i]?, db.handle ≠ some handle

def Fits (w : Write) (s : Server) : Prop :=
  if (brsAdd w.source s.brsTbl).isSome then
    ∀ j ∈ s.brsTbl.findIdx? (¬ Used ·), Fails w j s → TakesBack w j s
  else
    (∀ handle ∈ w.noEmpty, ¬ Releasable s handle) ∨
      ((brsAdd w.source (w.asked s).brsTbl).isSome ∧
        ∀ j ∈ (w.asked s).brsTbl.findIdx? (¬ Used ·), ¬ Fails w j (w.asked s))

def NotZero (source : Source) (s : Server) : Prop :=
  (∀ db ∈ s.brsTbl, Used db) ∨ srcInfo source ≠ infoOf (BrsDb.zeroed 0)

section

variable (answers : Answers) {tbl : List BrsDb} {j : Nat}

def zeroInfo : SrcInfo := (0, 0, .replicate 3 0)

def Clean (db : BrsDb) : Prop := ¬ Used db → infoOf db = zeroInfo ∧ db.handle = none

structure Keeps (db db' : BrsDb) : Prop where
  used : Used db' → Used db ∧ infoOf db' = infoOf db
  clean : Clean db → Clean db'

theorem Keeps.refl (db : BrsDb) : Keeps db db := ⟨fun h => ⟨h, rfl⟩, id⟩

theorem Keeps.trans (h : Keeps a b) (h' : Keeps b c) : Keeps a c where
  used hc := by
    obtain ⟨hb, hinfo'⟩ := h'.used hc
    obtain ⟨ha, hinfo⟩ := h.used hb
    exact ⟨ha, hinfo'.trans hinfo⟩
  clean ha := h'.clean (h.clean ha)

def TblKeeps (tbl tbl' : List BrsDb) : Prop :=
  ∀ (i : Nat) (db' : BrsDb), tbl'[i]? = some db' → ∃ db, tbl[i]? = some db ∧ Keeps db db'

theorem TblKeeps.refl (tbl : List BrsDb) : TblKeeps tbl tbl := fun _ db h => ⟨db, h, .refl db⟩

theorem TblKeeps.trans (h : TblKeeps a b) (h' : TblKeeps b c) : TblKeeps a c := by
  intro i db hdb
  obtain ⟨db1, h1, hkeeps1⟩ := h' i db hdb
  obtain ⟨db2, h2, hkeeps2⟩ := h i db1 h1
  exact ⟨db2, h2, hkeeps2.trans hkeeps1⟩

theorem modify_keeps (h : ∀ db, tbl[j]? = some db → Keeps db (f db)) :
    TblKeeps tbl (tbl.modify j f) := by
  intro i db' hdb'
  rw [getElem?_modify] at hdb'
  obtain ⟨db, hdb, rfl⟩ := Option.map_eq_some_iff.mp hdb'
  refine ⟨db, hdb, ?_⟩
  split
  . next heq =>
    subst heq
    exact h db hdb
  . exact .refl db

theorem set_keeps (hdb : tbl[j]? = some db) (h : Keeps db db') : TblKeeps tbl (tbl.set j db') := by
  intro i db1 hdb1
  rw [getElem?_set] at hdb1
  split at hdb1
  . next heq =>
    subst heq
    rw [if_pos (List.getElem?_eq_some_iff.mp hdb).1] at hdb1
    cases hdb1
    exact ⟨db, hdb, h⟩
  . exact ⟨db1, hdb1, .refl db1⟩

theorem zeroed_keeps (db : BrsDb) (sourceId : UInt8) (sendNotify brsModify : Bool) :
    Keeps db { BrsDb.zeroed sourceId with sendNotify, brsModify } :=
  ⟨fun h => Bool.noConfusion h, fun _ _ => ⟨rfl, rfl⟩⟩

theorem brsDelete_keeps (sendNotify : Bool) (db : BrsDb) :
    Keeps db (brsDelete answers sendNotify db).2 := by
  unfold brsDelete
  split
  . exact .refl db
  . split
    . exact .refl db
    . exact zeroed_keeps db _ _ _

theorem noHandle_keeps (db : BrsDb) : Keeps db { db with handle := none } :=
  ⟨fun h => ⟨h, rfl⟩, fun h hused => ⟨(h hused).1, rfl⟩⟩

theorem notify_keeps (db : BrsDb) : Keeps db db.notify := by
  unfold BrsDb.notify
  split
  . exact ⟨fun h => ⟨h, rfl⟩, id⟩
  . exact .refl db

theorem handleReleased_keeps (isLocal : Bool) (db : BrsDb) :
    Keeps db (handleReleased answers isLocal db) := by
  unfold handleReleased
  split
  . exact (noHandle_keeps db).trans ((brsDelete_keeps answers true _).trans (notify_keeps _))
  . exact noHandle_keeps db

theorem releaseInt_keeps (isLocal : Bool) (handle : Nat) (s : Server) :
    TblKeeps s.brsTbl (bleAudioSyncReleaseInt answers isLocal handle s).2.brsTbl := by
  unfold bleAudioSyncReleaseInt handleReleasedIn
  split
  . split
    . exact .refl _
    . exact modify_keeps fun db _ => handleReleased_keeps answers isLocal db
  . exact .refl _

theorem release_keeps (l : List Nat) (s : Server) :
    TblKeeps s.brsTbl (release answers l s).brsTbl := by
  unfold release
  induction l generalizing s with
  | nil => exact .refl _
  | cons handle l ih => exact (releaseInt_keeps answers true handle s).trans (ih _)

theorem brsDeleteAt_keeps (sendNotify : Bool) (j : Nat) (s : Server) :
    TblKeeps s.brsTbl (brsDeleteAt answers sendNotify j s).brsTbl := by
  unfold brsDeleteAt
  split
  . exact .refl _
  . split
    . exact modify_keeps fun db _ => brsDelete_keeps answers sendNotify db
    . next handle _ =>
      have hrelease := releaseInt_keeps answers false handle s
      simp only
      split
      . exact hrelease.trans (modify_keeps fun db _ =>
          (noHandle_keeps db).trans (brsDelete_keeps answers sendNotify _))
      . exact hrelease

theorem deleteSource_keeps (isLocal : Bool) (j : Nat) (s : Server) :
    TblKeeps s.brsTbl (deleteSource answers isLocal j s).brsTbl := by
  unfold deleteSource
  split
  . exact .refl _
  . split
    . exact brsDeleteAt_keeps answers true j s
    . next handle _ =>
      have hrelease := releaseInt_keeps answers isLocal handle s
      simp only
      split
      . exact hrelease.trans
          ((modify_keeps fun db _ => noHandle_keeps db).trans (brsDeleteAt_keeps answers true j _))
      . exact hrelease

structure SameSource (db db' : BrsDb) : Prop where
  used : Used db' ↔ Used db
  info : infoOf db' = infoOf db
  handle : db'.handle = db.handle

theorem SameSource.keeps (h : SameSource db db') : Keeps db db' where
  used hused := ⟨h.used.mp hused, h.info⟩
  clean hclean hused := by
    rw [h.info, h.handle]
    exact hclean (mt h.used.mpr hused)

theorem setCpSubgroups_same (h : setCpSubgroups bisSync bis db = .ok db') : SameSource db db' := by
  obtain ⟨array, -, h⟩ := bind_ok.mp h
  cases h
  exact ⟨Iff.rfl, rfl, rfl⟩

theorem handleUpdateBisInfo_same
    (h : handleUpdateBisInfo answers isAdd bis db = .ok (updated, db')) : SameSource db db' := by
  obtain ⟨refused, -, h⟩ := bind_ok.mp h
  cases refused with
  | true =>
    cases h
    exact ⟨Iff.rfl, rfl, rfl⟩
  | false =>
    obtain ⟨r, -, h⟩ := bind_ok.mp h
    obtain ⟨db1, hset, h⟩ := bind_ok.mp h
    have hsame := setCpSubgroups_same hset
    cases h
    exact ⟨hsame.used, hsame.info, hsame.handle⟩

end

section

variable {tbl tbl' : List BrsDb} {j : Nat} {source : Source}

structure Valid (tbl : List BrsDb) : Prop where
  clean : ∀ db ∈ tbl, Clean db
  nonzero : ∀ db ∈ tbl, Used db → infoOf db ≠ zeroInfo
  distinct : Distinct tbl

theorem distinct_iff : Distinct tbl ↔ ∀ (i k : Nat) (a b : BrsDb), i ≠ k → tbl[i]? = some a →
    tbl[k]? = some b → Used a → Used b → infoOf a ≠ infoOf b := by
  unfold Distinct
  rw [pairwise_iff_getElem]
  constructor
  . intro h i k a b hne ha hb hused hused'
    obtain ⟨hi, rfl⟩ := List.getElem?_eq_some_iff.mp ha
    obtain ⟨hk, rfl⟩ := List.getElem?_eq_some_iff.mp hb
    rcases Nat.lt_or_gt_of_ne hne with hlt | hlt
    . exact h i k hi hk hlt hused hused'
    . exact (h k i hk hi hlt hused' hused).symm
  . intro h i k hi hk hlt hused hused'
    exact h i k _ _ (Nat.ne_of_lt hlt) (getElem?_eq_getElem hi) (getElem?_eq_getElem hk)
      hused hused'

theorem Valid.of_keeps (h : Valid tbl) (hkeeps : TblKeeps tbl tbl') : Valid tbl' where
  clean db' hdb' := by
    obtain ⟨i, hi⟩ := mem_iff_getElem?.mp hdb'
    obtain ⟨db, hdb, hk⟩ := hkeeps i db' hi
    exact hk.clean (h.clean db (mem_of_getElem? hdb))
  nonzero db' hdb' hused := by
    obtain ⟨i, hi⟩ := mem_iff_getElem?.mp hdb'
    obtain ⟨db, hdb, hk⟩ := hkeeps i db' hi
    obtain ⟨hu, hinfo⟩ := hk.used hused
    rw [hinfo]
    exact h.nonzero db (mem_of_getElem? hdb) hu
  distinct := by
    rw [distinct_iff]
    intro i k a' b' hne ha' hb' hused hused'
    obtain ⟨a, ha, hka⟩ := hkeeps i a' ha'
    obtain ⟨b, hb, hkb⟩ := hkeeps k b' hb'
    obtain ⟨hua, hinfo⟩ := hka.used hused
    obtain ⟨hub, hinfo'⟩ := hkb.used hused'
    rw [hinfo, hinfo']
    exact distinct_iff.mp h.distinct i k a b hne ha hb hua hub

theorem brsAdd_some (h : brsAdd source tbl = some (j, tbl')) :
    (∀ db ∈ tbl, infoOf db ≠ srcInfo source) ∧ tbl.findIdx? (¬ Used ·) = some j ∧
      tbl' = tbl.modify j (·.take source) := by
  unfold brsAdd at h
  split at h
  . cases h
  . next hnone =>
    split at h
    . cases h
    . next k hk =>
      cases h
      exact ⟨by simpa using hnone, hk, rfl⟩

theorem findIdx?_unused (h : tbl.findIdx? (¬ Used ·) = some j) :
    ∃ db, tbl[j]? = some db ∧ ¬ Used db ∧ ∀ i < j, ∀ db, tbl[i]? = some db → Used db := by
  obtain ⟨hlt, hused, hbefore⟩ := List.findIdx?_eq_some_iff_getElem.mp h
  refine ⟨_, List.getElem?_eq_getElem hlt, of_decide_eq_true hused, fun i hi db hdb => ?_⟩
  obtain ⟨-, rfl⟩ := List.getElem?_eq_some_iff.mp hdb
  simpa using hbefore i hi

theorem Valid.brsAdd (h : Valid tbl) (hadd : brsAdd source tbl = some (j, tbl')) :
    Valid tbl' ∧ ∀ db, tbl'[j]? = some db → Used db := by
  obtain ⟨hnone, hfind, rfl⟩ := brsAdd_some hadd
  obtain ⟨idle, hidle, hunused, -⟩ := findIdx?_unused hfind
  have hsource : srcInfo source ≠ zeroInfo := by
    rw [← (h.clean idle (mem_of_getElem? hidle) hunused).1]
    exact (hnone idle (mem_of_getElem? hidle)).symm
  have hget : ∀ (i : Nat) (db' : BrsDb), (tbl.modify j (·.take source))[i]? = some db' →
      ∃ db, tbl[i]? = some db ∧ db' = if j = i then db.take source else db := by
    intro i db' hdb'
    rw [getElem?_modify] at hdb'
    obtain ⟨db, hdb, rfl⟩ := Option.map_eq_some_iff.mp hdb'
    refine ⟨db, hdb, ?_⟩
    split <;> rfl
  refine ⟨⟨fun db' hdb' => ?_, fun db' hdb' => ?_, distinct_iff.mpr ?_⟩, fun db' hdb' => ?_⟩
  . obtain ⟨i, hi⟩ := mem_iff_getElem?.mp hdb'
    obtain ⟨db, hdb, rfl⟩ := hget i db' hi
    split
    . exact fun hnot => absurd rfl hnot
    . exact h.clean db (mem_of_getElem? hdb)
  . obtain ⟨i, hi⟩ := mem_iff_getElem?.mp hdb'
    obtain ⟨db, hdb, rfl⟩ := hget i db' hi
    split
    . exact fun _ => hsource
    . exact h.nonzero db (mem_of_getElem? hdb)
  . intro i k a' b' hne ha' hb' hused hused'
    obtain ⟨a, ha, rfl⟩ := hget i a' ha'
    obtain ⟨b, hb, rfl⟩ := hget k b' hb'
    by_cases hi : j = i
    . rw [if_pos hi, if_neg (hi ▸ hne)]
      exact (hnone b (mem_of_getElem? hb)).symm
    . rw [if_neg hi] at hused ⊢
      by_cases hk : j = k
      . rw [if_pos hk]
        exact hnone a (mem_of_getElem? ha)
      . rw [if_neg hk] at hused' ⊢
        exact distinct_iff.mp h.distinct i k a b hne ha hb hused hused'
  . obtain ⟨db, -, rfl⟩ := hget j db' hdb'
    rw [if_pos rfl]
    rfl

theorem withHandle_keeps (handle : Nat) (h : ∀ db, tbl[j]? = some db → Used db) :
    TblKeeps tbl (tbl.modify j fun db => { db with handle := some handle }) :=
  modify_keeps fun db hdb => ⟨fun hused => ⟨hused, rfl⟩, fun _ hnot => absurd (h db hdb) hnot⟩

theorem setPending_same (bis : SubgroupTbl) (db : BrsDb) : SameSource db (setPending bis db) := by
  unfold setPending
  split <;> exact ⟨Iff.rfl, rfl, rfl⟩

theorem update_keeps {w : Write} {handle : Nat} {s s' : Server} {ok : Bool}
    (hused : ∀ db, s.brsTbl[j]? = some db → Used db) (h : w.update j handle s = .ok (ok, s')) :
    TblKeeps s.brsTbl s'.brsTbl := by
  have hhandle := withHandle_keeps handle hused
  unfold Write.update at h
  simp only at h
  split at h
  . cases h
    exact .refl _
  . next db hdb =>
    obtain ⟨⟨updated, db'⟩, hupdate, h⟩ := bind_ok.mp h
    have hsame := handleUpdateBisInfo_same w.answers hupdate
    have hset := hhandle.trans (set_keeps hdb hsame.keeps)
    simp only at h
    split at h
    . cases h
      exact hset.trans (brsDeleteAt_keeps w.answers false j _)
    . split at h
      . cases h
        exact hset.trans (brsDeleteAt_keeps w.answers false j _)
      . cases h
        refine hhandle.trans ?_
        simp only
        rw [set_set]
        refine set_keeps hdb (hsame.keeps.trans (Keeps.trans ?_
          ((setPending_same w.tbl _).keeps.trans (notify_keeps _))))
        exact ⟨fun hused => ⟨hused, rfl⟩, id⟩

theorem place_keeps {w : Write} {s s' : Server} {ok : Bool}
    (hused : ∀ db, s.brsTbl[j]? = some db → Used db) (h : w.place j s = .ok (ok, s')) :
    TblKeeps s.brsTbl s'.brsTbl := by
  unfold Write.place at h
  split at h
  . exact update_keeps hused h
  . split at h
    . cases h
      exact brsDeleteAt_keeps w.answers false j s
    . next handle _ =>
      exact @update_keeps j w handle { s with syncList := s.syncList ++ _ } s' ok hused h

theorem asked_keeps (w : Write) (s : Server) : TblKeeps s.brsTbl (w.asked s).brsTbl := by
  unfold Write.asked
  split
  . exact .refl _
  . exact release_keeps w.answers w.noEmpty s

theorem Valid.addSource (hs : Valid s.brsTbl)
    (h : addSource w s = .ok (ok, s')) : Valid s'.brsTbl := by
  have hasked := hs.of_keeps (asked_keeps w s)
  unfold SourceTable.addSource at h
  split at h
  . cases h
    exact hasked
  . next j tbl hadd =>
    obtain ⟨hvalid, hused⟩ := hasked.brsAdd hadd
    exact hvalid.of_keeps (@place_keeps j w { w.asked s with brsTbl := tbl } s' ok hused h)

theorem Valid.localAdd (hs : Valid s.brsTbl) : Valid (localAdd source address s).brsTbl := by
  unfold SourceTable.localAdd
  split
  . exact hs
  . split
    . exact hs
    . next j tbl hadd =>
      obtain ⟨hvalid, hused⟩ := hs.brsAdd hadd
      exact hvalid.of_keeps (withHandle_keeps address hused)

theorem work_keeps (w : Work) (s : Server) : TblKeeps s.brsTbl (s.brsTbl.modify j w.run) := by
  refine modify_keeps fun db _ => ⟨fun hused => ⟨(w.used db).mp hused, w.info db⟩, fun h hnot => ?_⟩
  rw [w.info, w.handle]
  exact h (mt (w.used db).mpr hnot)

theorem Valid.step (hs : Valid s.brsTbl) (h : step s op = .ok s') : Valid s'.brsTbl := by
  cases op with
  | addSource w =>
    rw [SourceTable.step] at h
    cases hadd : SourceTable.addSource w s with
    | error e =>
      rw [hadd] at h
      cases h
    | ok r =>
      rw [hadd] at h
      cases h
      exact hs.addSource hadd
  | localAdd source address =>
    cases h
    exact hs.localAdd
  | release answers l =>
    cases h
    exact hs.of_keeps (release_keeps answers l s)
  | deleteSource answers isLocal j =>
    cases h
    exact hs.of_keeps (deleteSource_keeps answers isLocal j s)
  | syncState handle terminated =>
    cases h
    exact hs
  | work j w =>
    cases h
    exact hs.of_keeps (work_keeps w s)

theorem valid_init (brsNum : Nat) : Valid (init brsNum).brsTbl where
  clean db hdb := by
    obtain ⟨i, -, rfl⟩ := mem_map.mp hdb
    exact fun _ => ⟨rfl, rfl⟩
  nonzero db hdb hused := by
    obtain ⟨i, -, rfl⟩ := mem_map.mp hdb
    cases hused
  distinct := by
    rw [distinct_iff]
    intro i k a b _ ha _ hused
    obtain ⟨n, -, rfl⟩ := mem_map.mp (mem_of_getElem? ha)
    cases hused

theorem Valid.run (hs : Valid s.brsTbl) (h : run s ops = .ok s') : Valid s'.brsTbl := by
  induction ops generalizing s with
  | nil =>
    cases h
    exact hs
  | cons op ops ih =>
    obtain ⟨s1, hstep, h⟩ := bind_ok.mp h
    exact ih (hs.step hstep) h

end

section

variable {tbl : List BrsDb} {source : Source} {s : Server}

theorem brsAdd_isSome : (brsAdd source tbl).isSome ↔
    (∃ db ∈ tbl, ¬ Used db) ∧ ∀ db ∈ tbl, infoOf db ≠ srcInfo source := by
  unfold brsAdd
  split
  . next hany =>
    simp only [Option.isSome_none, Bool.false_eq_true, false_iff, not_and]
    intro _ hall
    simp only [any_eq_true, decide_eq_true_eq] at hany
    obtain ⟨db, hdb, heq⟩ := hany
    exact hall db hdb heq
  . next hnone =>
    have hinfo : ∀ db ∈ tbl, infoOf db ≠ srcInfo source := by simpa using hnone
    cases hfind : tbl.findIdx? (¬ Used ·) with
    | none =>
      rw [findIdx?_eq_none_iff] at hfind
      simp only [Option.isSome_none, Bool.false_eq_true, false_iff, not_and]
      rintro ⟨db, hdb, hused⟩
      exact absurd (hfind db hdb) (by simpa using hused)
    | some j =>
      obtain ⟨db, hdb, hused, -⟩ := findIdx?_unused hfind
      simp only [Option.isSome_some, true_iff]
      exact ⟨⟨db, mem_of_getElem? hdb, hused⟩, hinfo⟩

theorem addExact_iff (hs : Valid s.brsTbl) : AddExact source s.brsTbl ↔ NotZero source s := by
  unfold AddExact NotZero
  rw [brsAdd_isSome]
  constructor
  . intro h
    rw [or_iff_not_imp_left]
    intro hunused heq
    simp only [not_forall] at hunused
    obtain ⟨db, hdb, hused⟩ := hunused
    have hall : ∀ db ∈ s.brsTbl, Used db → infoOf db ≠ srcInfo source :=
      fun db hdb hu => heq ▸ hs.nonzero db hdb hu
    exact (h.mpr ⟨⟨db, hdb, hused⟩, hall⟩).2 db hdb ((hs.clean db hdb hused).1.trans heq.symm)
  . rintro (hall | hne)
    . constructor
      . rintro ⟨⟨db, hdb, hused⟩, -⟩
        exact absurd (hall db hdb) hused
      . rintro ⟨⟨db, hdb, hused⟩, -⟩
        exact absurd (hall db hdb) hused
    . constructor
      . exact fun ⟨hex, hinfo⟩ => ⟨hex, fun db hdb _ => hinfo db hdb⟩
      . rintro ⟨hex, hinfo⟩
        refine ⟨hex, fun db hdb => ?_⟩
        by_cases hused : Used db
        . exact hinfo db hdb hused
        . rw [(hs.clean db hdb hused).1]
          exact hne.symm

structure Taken (j : Nat) (tbl tbl' : List BrsDb) (db : BrsDb) : Prop where
  idle : ∀ db0, tbl[j]? = some db0 → ¬ Used db0
  before : ∀ i < j, ∀ db0, tbl[i]? = some db0 → Used db0
  entry : tbl'[j]? = some db
  used : Used db
  others : ∀ i ≠ j, tbl'[i]? = tbl[i]?

variable {j handle : Nat} {db : BrsDb} {s' : Server}

theorem getElem?_modify_ne (h : i ≠ j) : (tbl.modify j f)[i]? = tbl[i]? := by
  rw [getElem?_modify]
  simp only [if_neg h.symm]
  exact Option.map_id'

theorem getElem?_modify_eq (h : tbl[j]? = some db) : (tbl.modify j f)[j]? = some (f db) := by
  rw [getElem?_modify, h]
  simp only [if_true]
  rfl

theorem brsDelete_zeroed (answers : Answers) (h : Used db) (hhandle : db.handle = none) :
    ¬ Used (brsDelete answers false db).2 := by
  unfold brsDelete
  rw [if_neg (by rw [h]; exact Bool.false_ne_true.symm), if_neg (fun hn => hn.1 hhandle)]
  exact Bool.false_ne_true

theorem brsDeleteAt_noHandle {answers : Answers} (hj : s.brsTbl[j]? = some db)
    (hhandle : db.handle = none) : brsDeleteAt answers false j s =
      { s with brsTbl := s.brsTbl.modify j fun db => (brsDelete answers false db).2 } := by
  unfold brsDeleteAt
  simp only [hj, hhandle, ite_self]

section

variable (hj : s.brsTbl[j]? = some db) (hused : Used db) (hhandle : db.handle = some handle)

include hj hused hhandle

theorem brsDeleteAt_releasable (h : Releasable s handle) :
    brsDeleteAt answers false j s =
      { brsTbl := (handleReleasedIn answers false handle s.brsTbl).modify j fun db =>
          (brsDelete answers false { db with handle := none }).2
        syncList := s.syncList.filter (·.handle ≠ handle) } := by
  unfold brsDeleteAt
  simp only [hj, hhandle, if_pos hused, bleAudioSyncReleaseInt, if_pos h, if_true]

theorem brsDeleteAt_stuck (h : ¬ Releasable s handle) : brsDeleteAt answers false j s = s := by
  unfold brsDeleteAt
  simp only [hj, hhandle, if_pos hused, bleAudioSyncReleaseInt, if_neg h, Bool.false_eq_true,
    if_false]

end

theorem not_mem_filter_handle (l : List SyncDb) (handle : Nat) :
    handle ∉ (l.filter (·.handle ≠ handle)).map (·.handle) := by
  intro h
  obtain ⟨d, hd, heq⟩ := mem_map.mp h
  exact absurd heq (by simpa using (mem_filter.mp hd).2)

theorem not_same_of_found
    (htaken : Taken j s.brsTbl s1.brsTbl db) (hhandle : db.handle = some handle)
    (hmem : handle ∈ handles s) :
    ¬ Same s (brsDeleteAt answers false j s1) := by
  intro hsame
  by_cases hrel : Releasable s1 handle
  . rw [brsDeleteAt_releasable htaken.entry htaken.used hhandle hrel] at hsame
    exact not_mem_filter_handle _ _ ((hsame.handles handle).mpr hmem)
  . rw [brsDeleteAt_stuck htaken.entry htaken.used hhandle hrel] at hsame
    exact htaken.idle db ((hsame.entries j db htaken.used).mp htaken.entry) htaken.used

theorem handleReleasedIn_some (h : tbl.findIdx? (·.handle = some handle) = some k) :
    handleReleasedIn answers false handle tbl =
      tbl.modify k fun db => { db with handle := none } := by
  unfold handleReleasedIn
  rw [h]
  rfl

theorem same_of_created {answers : Answers} {s1 : Server} {new : SyncDb}
    (htaken : Taken j s.brsTbl s1.brsTbl db) (hhandle : db.handle = some new.handle)
    (hsyncs : s1.syncList = s.syncList ++ [new]) (hnew : new.terminated = true)
    (hfresh : new.handle ∉ handles s) :
    (∀ x ∈ handles (brsDeleteAt answers false j s1), x ∈ handles s) ∧
      (Same s (brsDeleteAt answers false j s1) ↔
        ∀ i < j, ∀ db ∈ s.brsTbl[i]?, db.handle ≠ some new.handle) := by
  have hrel : Releasable s1 new.handle := ⟨new, by rw [hsyncs]; simp, rfl, hnew⟩
  have hfilter : s1.syncList.filter (·.handle ≠ new.handle) = s.syncList := by
    rw [hsyncs, filter_append, filter_eq_self.mpr, filter_eq_nil_iff.mpr,
      append_nil]
    . simp
    . intro d hd
      simp only [decide_eq_true_eq]
      exact fun heq => hfresh (mem_map.mpr ⟨d, hd, heq⟩)
  rw [brsDeleteAt_releasable htaken.entry htaken.used hhandle hrel]
  simp only [handles, hfilter]
  refine ⟨fun x hx => hx, ?_⟩
  -- The first entry with the handle.
  cases hfind : s1.brsTbl.findIdx? (·.handle = some new.handle) with
  | none =>
    rw [findIdx?_eq_none_iff] at hfind
    have := hfind db (mem_of_getElem? htaken.entry)
    simp [hhandle] at this
  | some k =>
    obtain ⟨hlt, hk, hfirst⟩ := findIdx?_eq_some_iff_getElem.mp hfind
    have hkget := getElem?_eq_getElem hlt
    have hkle : k ≤ j := by
      by_contra hgt
      obtain ⟨hj, hjget⟩ := List.getElem?_eq_some_iff.mp htaken.entry
      have := hfirst j (by omega)
      rw [hjget, hhandle] at this
      simp at this
    rw [handleReleasedIn_some hfind]
    constructor
    . intro hsame i hi db0 hdb0 heq
      have hklt : k < j := by
        rcases Nat.lt_or_eq_of_le hkle with hlt | heqk
        . exact hlt
        . rw [← htaken.others i (by omega)] at hdb0
          obtain ⟨hilt, rfl⟩ := List.getElem?_eq_some_iff.mp hdb0
          have := hfirst i (by omega)
          simp [heq] at this
      have hk0 := hkget
      rw [htaken.others k (by omega)] at hk0
      have hentry := (hsame.entries k _ (htaken.before k hklt _ hk0)).mpr hk0
      simp only at hentry
      rw [getElem?_modify_ne (by omega), getElem?_modify_eq hkget] at hentry
      have hhandle' := congrArg BrsDb.handle (Option.some.inj hentry)
      rw [of_decide_eq_true hk] at hhandle'
      cases hhandle'
    . intro hnone
      have hkj : k = j := by
        by_contra hne
        have hk0 := hkget
        rw [htaken.others k hne] at hk0
        exact hnone k (by omega) _ hk0 (of_decide_eq_true hk)
      subst hkj
      refine ⟨fun i db0 hused0 => ?_, fun _ => Iff.rfl⟩
      by_cases hi : i = k
      . subst hi
        rw [getElem?_modify_eq (getElem?_modify_eq htaken.entry)]
        constructor
        . intro h
          cases h
          exact absurd hused0 (brsDelete_zeroed answers htaken.used rfl)
        . exact fun h => absurd hused0 (htaken.idle db0 h)
      . rw [getElem?_modify_ne hi, getElem?_modify_ne hi, htaken.others i hi]

theorem brsDeleteAt_handles (answers : Answers) (j : Nat) (s : Server) :
    ∀ x ∈ handles (brsDeleteAt answers false j s), x ∈ handles s := by
  have hrelease : ∀ handle, ∀ x ∈ handles (bleAudioSyncReleaseInt answers false handle s).2,
      x ∈ handles s := by
    intro handle x hx
    unfold bleAudioSyncReleaseInt at hx
    split at hx
    . exact map_subset _ (filter_subset_self _) hx
    . exact hx
  intro x hx
  unfold brsDeleteAt at hx
  split at hx
  . exact hx
  . split at hx
    . exact hx
    . simp only at hx
      split at hx
      . exact hrelease _ x hx
      . exact hrelease _ x hx

variable {w : Write}

theorem update_denied (hj : s.brsTbl[j]? = some db)
    (hdenied : Denies w { db with handle := some handle }) :
    ∃ db', SameSource { db with handle := some handle } db' ∧
      w.update j handle s = .ok (false, brsDeleteAt w.answers false j
        ⟨(s.brsTbl.modify j fun db => { db with handle := some handle }).set j db',
          s.syncList⟩) := by
  obtain ⟨updated, db', hupdate, hdeny⟩ := hdenied
  refine ⟨db', handleUpdateBisInfo_same w.answers hupdate, ?_⟩
  unfold Write.update
  simp only [getElem?_modify_eq hj, hupdate, bind, Except.bind]
  cases updated with
  | false => rfl
  | true =>
    rw [if_neg (by simp), if_pos (hdeny rfl)]
    rfl

theorem update_accepted (hj : s.brsTbl[j]? = some db)
    (haccepted : ¬ Denies w { db with handle := some handle }) :
    w.update j handle s ≠ .ok (false, s') := by
  intro h
  unfold Write.update at h
  simp only [getElem?_modify_eq hj] at h
  obtain ⟨⟨updated, db'⟩, hupdate, h⟩ := bind_ok.mp h
  refine haccepted ⟨updated, db', hupdate, fun hupdated => ?_⟩
  simp only [hupdated, Bool.true_eq_false, if_false] at h
  split at h
  . assumption
  . cases h

theorem taken (hfind : s.brsTbl.findIdx? (¬ Used ·) = some j) (hdb : s.brsTbl[j]? = some db)
    {f : BrsDb → BrsDb} {db' : BrsDb} (hused : Used db') :
    Taken j s.brsTbl (((s.brsTbl.modify j (·.take w.source)).modify j f).set j db') db' := by
  obtain ⟨db1, hdb1, hidle, hbefore⟩ := findIdx?_unused hfind
  refine ⟨fun db0 hdb0 => ?_, hbefore, ?_, hused, fun i hi => ?_⟩
  . rw [hdb1] at hdb0
    cases hdb0
    exact hidle
  . rw [List.getElem?_set_self]
    simpa using (List.getElem?_eq_some_iff.mp hdb).1
  . rw [List.getElem?_set_ne (Ne.symm hi), getElem?_modify_ne hi, getElem?_modify_ne hi]

theorem place_fails (hs : Valid s.brsTbl) (hfind : s.brsTbl.findIdx? (¬ Used ·) = some j)
    (hfails : Fails w j s) :
    ∃ s', w.place j { s with brsTbl := s.brsTbl.modify j (·.take w.source) } = .ok (false, s') ∧
      (∀ x ∈ handles s', x ∈ handles s) ∧ (Same s s' ↔ TakesBack w j s) := by
  obtain ⟨db, hdb, hidle, hbefore⟩ := findIdx?_unused hfind
  have htake := @getElem?_modify_eq s.brsTbl j db (·.take w.source) hdb
  unfold Fails at hfails
  unfold Write.place TakesBack
  have hcreated : w.created { s with brsTbl := s.brsTbl.modify j (·.take w.source) } =
      w.created s := rfl
  have hsync : bleAudioSyncFind w.source
      { s with brsTbl := s.brsTbl.modify j (·.take w.source) } = bleAudioSyncFind w.source s := rfl
  rw [hcreated, hsync]
  cases hfound : bleAudioSyncFind w.source s with
  | some handle =>
    rw [hfound, Option.some_or] at hfails
    obtain ⟨db', hsame, hupdate⟩ := @update_denied
      { s with brsTbl := s.brsTbl.modify j (·.take w.source) } j handle _ w htake
      (hfails db hdb)
    refine ⟨_, hupdate, fun x hx => ?_, ?_⟩
    . have hmem := brsDeleteAt_handles w.answers j _ x hx
      exact hmem
    have hmem : handle ∈ handles s := by
      obtain ⟨d, hd, rfl⟩ := Option.map_eq_some_iff.mp hfound
      exact mem_map_of_mem (mem_of_find?_eq_some hd)
    refine ⟨fun h => absurd h ?_, fun h => by cases h.1⟩
    exact not_same_of_found (taken hfind hdb (hsame.used.mpr rfl)) hsame.handle hmem
  | none =>
    rw [hfound, Option.none_or] at hfails
    cases hnew : w.created s with
    | none =>
      refine ⟨_, rfl, fun x hx => ?_, fun _ => ⟨rfl, nofun⟩, fun _ => ?_⟩
      . have hmem := brsDeleteAt_handles w.answers j _ x hx
        exact hmem
      have hhandle : (db.take w.source).handle = none := (hs.clean db (mem_of_getElem? hdb) hidle).2
      rw [@brsDeleteAt_noHandle { s with brsTbl := s.brsTbl.modify j (·.take w.source) } j _
        w.answers htake hhandle]
      refine ⟨fun i db0 hused0 => ?_, fun _ => Iff.rfl⟩
      by_cases hi : i = j
      . subst hi
        rw [getElem?_modify_eq htake, hdb]
        constructor
        . intro h
          cases h
          exact absurd hused0 (brsDelete_zeroed w.answers rfl hhandle)
        . intro h
          cases h
          exact absurd hused0 hidle
      . rw [getElem?_modify_ne hi, getElem?_modify_ne hi]
    | some handle =>
      rw [hnew] at hfails
      have hfresh : handle ∉ handles s := by
        have := (Option.filter_eq_some_iff.mp hnew).2
        simpa using this
      obtain ⟨db', hsame, hupdate⟩ := @update_denied
        { brsTbl := s.brsTbl.modify j (·.take w.source)
          syncList := s.syncList ++ [⟨handle, w.source.advSid, w.source.broadcastId, true⟩] }
        j handle _ w htake (hfails db hdb)
      refine ⟨_, hupdate, ?_⟩
      obtain ⟨hhandles, hiff⟩ := @same_of_created s j _ w.answers ⟨_, s.syncList ++ [_]⟩
        ⟨handle, w.source.advSid, w.source.broadcastId, true⟩
        (taken hfind hdb (hsame.used.mpr rfl)) hsame.handle rfl rfl hfresh
      refine ⟨hhandles, hiff.trans ?_⟩
      simp

theorem place_accepted (hfind : s.brsTbl.findIdx? (¬ Used ·) = some j) (hfails : ¬ Fails w j s) :
    w.place j { s with brsTbl := s.brsTbl.modify j (·.take w.source) } ≠ .ok (false, s') := by
  obtain ⟨db, hdb, -, -⟩ := findIdx?_unused hfind
  have htake := @getElem?_modify_eq s.brsTbl j db (·.take w.source) hdb
  unfold Fails at hfails
  unfold Write.place
  have hcreated : w.created { s with brsTbl := s.brsTbl.modify j (·.take w.source) } =
      w.created s := rfl
  have hsync : bleAudioSyncFind w.source
      { s with brsTbl := s.brsTbl.modify j (·.take w.source) } = bleAudioSyncFind w.source s := rfl
  rw [hcreated, hsync]
  cases hfound : bleAudioSyncFind w.source s with
  | some handle =>
    rw [hfound, Option.some_or] at hfails
    refine @update_accepted { s with brsTbl := s.brsTbl.modify j (·.take w.source) } j handle _ s'
      w htake fun hdenied => hfails fun db0 hdb0 => ?_
    rw [hdb] at hdb0
    cases hdb0
    exact hdenied
  | none =>
    rw [hfound, Option.none_or] at hfails
    cases hnew : w.created s with
    | none =>
      rw [hnew] at hfails
      exact absurd trivial hfails
    | some handle =>
      rw [hnew] at hfails
      refine @update_accepted
        { brsTbl := s.brsTbl.modify j (·.take w.source)
          syncList := s.syncList ++ [⟨handle, w.source.advSid, w.source.broadcastId, true⟩] }
        j handle _ s' w htake fun hdenied => hfails fun db0 hdb0 => ?_
      rw [hdb] at hdb0
      cases hdb0
      exact hdenied

end

section

variable {w : Write} {s : Server}

theorem releaseInt_nothing (h : ¬ Releasable s handle) :
    (bleAudioSyncReleaseInt answers true handle s).2 = s := by
  unfold bleAudioSyncReleaseInt
  rw [if_neg h]

theorem release_nothing (h : ∀ handle ∈ l, ¬ Releasable s handle) : release answers l s = s := by
  unfold release
  induction l with
  | nil => rfl
  | cons handle l ih =>
    obtain ⟨hhead, hrest⟩ := forall_mem_cons.mp h
    rw [foldl_cons, releaseInt_nothing hhead]
    exact ih hrest

theorem releaseInt_syncs (answers : Answers) (handle : Nat) (s : Server) :
    (bleAudioSyncReleaseInt answers true handle s).2.syncList =
      if Releasable s handle then s.syncList.filter (·.handle ≠ handle) else s.syncList := by
  unfold bleAudioSyncReleaseInt
  split <;> rfl

theorem release_handles (answers : Answers) (l : List Nat) (s : Server) :
    ∀ x ∈ handles (release answers l s), x ∈ handles s := by
  unfold release
  induction l generalizing s with
  | nil => exact fun x hx => hx
  | cons handle l ih =>
    intro x hx
    have hstep := ih (bleAudioSyncReleaseInt answers true handle s).2 x hx
    unfold handles at hstep
    rw [releaseInt_syncs] at hstep
    split at hstep
    . exact map_subset _ (filter_subset_self _) hstep
    . exact hstep

theorem release_gone (answers : Answers)
    (h : ¬ ∀ handle ∈ l, ¬ Releasable s handle) :
    ∃ handle ∈ handles s, handle ∉ handles (release answers l s) := by
  induction l generalizing s with
  | nil => exact absurd nofun h
  | cons handle l ih =>
    by_cases hrel : Releasable s handle
    . obtain ⟨d, hd, hhandle, -⟩ := id hrel
      refine ⟨handle, mem_map.mpr ⟨d, hd, hhandle⟩, fun hmem => ?_⟩
      have hstep := release_handles answers l (bleAudioSyncReleaseInt answers true handle s).2
        handle hmem
      unfold handles at hstep
      rw [releaseInt_syncs, if_pos hrel] at hstep
      exact not_mem_filter_handle _ _ hstep
    . have hrest : ¬ ∀ x ∈ l, ¬ Releasable s x := by
        intro hall
        exact h (forall_mem_cons.mpr ⟨hrel, hall⟩)
      have hsame : release answers (handle :: l) s = release answers l s := by
        unfold release
        rw [foldl_cons, releaseInt_nothing hrel]
      rw [hsame]
      exact ih hrest

theorem Same.refl (s : Server) : Same s s := ⟨fun _ _ _ => Iff.rfl, fun _ => Iff.rfl⟩

theorem isSome_brsAdd (h : (brsAdd w.source tbl).isSome) :
    ∃ j, tbl.findIdx? (¬ Used ·) = some j ∧
      brsAdd w.source tbl = some (j, tbl.modify j (·.take w.source)) := by
  obtain ⟨⟨j, tbl'⟩, hadd⟩ := Option.isSome_iff_exists.mp h
  obtain ⟨-, hfind, rfl⟩ := brsAdd_some hadd
  exact ⟨j, hfind, hadd⟩

theorem addSource_some {j : Nat} {tbl : List BrsDb}
    (h : brsAdd w.source (w.asked s).brsTbl = some (j, tbl)) :
    addSource w s = w.place j { w.asked s with brsTbl := tbl } := by
  unfold addSource
  rw [h]

theorem addSource_none (h : brsAdd w.source (w.asked s).brsTbl = none) :
    addSource w s = .ok (false, w.asked s) := by
  unfold addSource
  rw [h]

theorem restores_had (hs : Valid s.brsTbl) (hadd : (brsAdd w.source s.brsTbl).isSome) :
    Restores w s ↔ ∀ j ∈ s.brsTbl.findIdx? (¬ Used ·), Fails w j s → TakesBack w j s := by
  have hasked : w.asked s = s := if_pos hadd
  obtain ⟨j, hfind, hsome⟩ := isSome_brsAdd hadd
  have heq := @addSource_some w s j _ (by rw [hasked]; exact hsome)
  rw [hasked] at heq
  unfold Restores
  rw [heq, hfind]
  by_cases hfails : Fails w j s
  . obtain ⟨s', hplace, -, hiff⟩ := place_fails hs hfind hfails
    rw [hplace]
    constructor
    . intro h j' hj' _
      cases hj'
      exact hiff.mp (h s' rfl)
    . intro h s'' heq'
      cases heq'
      exact hiff.mpr (h j rfl hfails)
  . constructor
    . intro _ j' hj' hfails'
      cases hj'
      exact absurd hfails' hfails
    . intro _ s' hplace
      exact absurd hplace (place_accepted hfind hfails)

theorem restores_asked (hs : Valid s.brsTbl) (hadd : ¬ (brsAdd w.source s.brsTbl).isSome) :
    Restores w s ↔ (∀ handle ∈ w.noEmpty, ¬ Releasable s handle) ∨
      ((brsAdd w.source (w.asked s).brsTbl).isSome ∧
        ∀ j ∈ (w.asked s).brsTbl.findIdx? (¬ Used ·), ¬ Fails w j (w.asked s)) := by
  have hasked : w.asked s = release w.answers w.noEmpty s := if_neg hadd
  by_cases hnothing : ∀ handle ∈ w.noEmpty, ¬ Releasable s handle
  . refine ⟨fun _ => .inl hnothing, fun _ s' h => ?_⟩
    rw [release_nothing hnothing] at hasked
    rw [addSource_none (by rw [hasked]; simpa using hadd), hasked] at h
    cases h
    exact .refl s
  . obtain ⟨gone, hmem, hgone⟩ := release_gone w.answers hnothing
    rw [← hasked] at hgone
    -- A failing end lacks the handle that has been released.
    have hnot : ∀ s', (∀ x ∈ handles s', x ∈ handles (w.asked s)) → ¬ Same s s' :=
      fun s' hsub hsame => hgone (hsub gone ((hsame.handles gone).mpr hmem))
    constructor
    . intro hrestores
      refine .inr ?_
      by_cases hsome : (brsAdd w.source (w.asked s).brsTbl).isSome
      . refine ⟨hsome, fun j hj hfails => ?_⟩
        obtain ⟨j', hfind, hadd'⟩ := isSome_brsAdd hsome
        rw [hfind] at hj
        cases hj
        obtain ⟨s', hplace, hsub, -⟩ := place_fails (hs.of_keeps (asked_keeps w s)) hfind hfails
        exact hnot s' hsub (hrestores s' ((addSource_some hadd').trans hplace))
      . exact absurd (hrestores _ (addSource_none (by simpa using hsome)))
          (hnot _ fun x hx => hx)
    . rintro (hnone | ⟨hsome, hfine⟩)
      . exact absurd hnone hnothing
      . intro s' h
        obtain ⟨j, hfind, hadd'⟩ := isSome_brsAdd hsome
        rw [addSource_some hadd'] at h
        exact absurd h (place_accepted hfind (hfine j hfind))

def answers : Answers := ⟨true, 0, none, true⟩

def zeroWrite : Write where
  source := ⟨0, .replicate 6 0, 0, .replicate 3 0⟩
  paSync := .notSync
  tbl := ⟨[], by decide⟩
  noEmpty := []
  address := none
  answers := answers

end

end SourceTable
