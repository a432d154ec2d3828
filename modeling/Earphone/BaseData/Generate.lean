import Earphone.BaseData.Parse
import Earphone.Lib.First

namespace BaseData

open Scan

def baseDataMaxLen : Nat := 256

structure Bis where
  bisIndex : Nat
  codecCfg : List UInt8
  deriving DecidableEq

structure Subgroup where
  subgroupIdx : Nat
  codecId : List UInt8
  numBis : Nat
  codecCfgLen : Nat
  codecMetadata : List UInt8
  bisQueue : List Bis

structure Group where
  groupIdx : Nat
  numBis : Nat
  numSubgroups : Nat
  subgroupQueue : List Subgroup
  presentationDelay : Nat

structure Db where
  baseGroupQueue : List Group
  baseGroupIdx : Nat

abbrev Ltv8 : Type := { l : List UInt8 // l.length < 2 ^ 8 }

def checkFormat (l : List UInt8) : Bool :=
  l.length = 0 || ltvUtilCheckFormat l 0 l.length = .ok true

def put (block : List UInt8) (i : Nat) (l : List UInt8) : List UInt8 :=
  (block.take i ++ l ++ block.drop (i + l.length)).take block.length

def codecMetadataBlock (codecCfg metadata : List UInt8) : List UInt8 :=
  let block := List.replicate ((codecCfg.length + metadata.length + 2) % 2 ^ 8) 0
  let block := put block 0 [UInt8.ofNat codecCfg.length]
  let block := put block 1 codecCfg
  let block := put block ((1 + codecCfg.length) % 2 ^ 8) [UInt8.ofNat metadata.length]
  put block ((2 + codecCfg.length) % 2 ^ 8) metadata

def baseDataFindGroup (groupIdx : Nat) (db : Db) : Option Group :=
  db.baseGroupQueue.find? (·.groupIdx = groupIdx)

def baseDataFindSubgroup (group : Group) (subgroupIdx : Nat) : Option Subgroup :=
  group.subgroupQueue.find? (·.subgroupIdx = subgroupIdx)

def Db.modifyGroup (groupIdx : Nat) (f : Group → Group) (db : Db) : Db :=
  { db with baseGroupQueue := First.modify (·.groupIdx = groupIdx) f db.baseGroupQueue }

def Group.modifySubgroup (subgroupIdx : Nat) (f : Subgroup → Subgroup) (group : Group) : Group :=
  { group with
    subgroupQueue := First.modify (·.subgroupIdx = subgroupIdx) f group.subgroupQueue }

def baseDataAddGroup (memory : Bool) (presentationDelay : Nat) (db : Db) : Db × Option Nat :=
  if memory then
    let group : Group :=
      { groupIdx := db.baseGroupIdx
        numBis := 0
        numSubgroups := 0
        subgroupQueue := []
        presentationDelay := presentationDelay }
    ({ baseGroupQueue := db.baseGroupQueue ++ [group]
       baseGroupIdx := (db.baseGroupIdx + 1) % 2 ^ 8 }, some db.baseGroupIdx)
  else
    (db, none)

def baseDataAddSubgroup (memory : Bool) (groupIdx : Nat) (codecId : Vector UInt8 5)
    (codecCfg metadata : Ltv8) (db : Db) : Db × Option Nat :=
  if checkFormat codecCfg.1 && checkFormat metadata.1 then
    match baseDataFindGroup groupIdx db with
    | none => (db, none)
    | some group =>
      if memory then
        let subgroup : Subgroup :=
          { subgroupIdx := group.numSubgroups
            codecId := codecId.toList
            numBis := 0
            codecCfgLen := codecCfg.1.length
            codecMetadata := codecMetadataBlock codecCfg.1 metadata.1
            bisQueue := [] }
        (db.modifyGroup groupIdx fun group =>
          { group with
            subgroupQueue := group.subgroupQueue ++ [subgroup]
            numSubgroups := (group.numSubgroups + 1) % 2 ^ 8 }, some group.numSubgroups)
      else
        (db, none)
  else
    (db, none)

def Subgroup.addBis (bis : Bis) (subgroup : Subgroup) : Subgroup :=
  { subgroup with
    bisQueue := subgroup.bisQueue ++ [bis]
    numBis := (subgroup.numBis + 1) % 2 ^ 8 }

def baseDataAddBis (memory : Bool) (groupIdx subgroupIdx : Nat) (codecCfg : Ltv8) (db : Db) :
    Db × Option Nat :=
  if checkFormat codecCfg.1 then
    match baseDataFindGroup groupIdx db with
    | none => (db, none)
    | some group =>
      match baseDataFindSubgroup group subgroupIdx with
      | none => (db, none)
      | some _ =>
        if memory then
          let bis : Bis := { bisIndex := (group.numBis + 1) % 2 ^ 8, codecCfg := codecCfg.1 }
          (db.modifyGroup groupIdx fun group =>
            { group.modifySubgroup subgroupIdx (Subgroup.addBis bis) with
              numBis := (group.numBis + 1) % 2 ^ 8 }, some bis.bisIndex)
        else
          (db, none)
  else
    (db, none)

def Subgroup.setMetadata (metadata : List UInt8) (subgroup : Subgroup) : Subgroup :=
  let codecCfg := (subgroup.codecMetadata.drop 1 ++ List.replicate subgroup.codecCfgLen 0).take
    subgroup.codecCfgLen
  { subgroup with codecMetadata := codecMetadataBlock codecCfg metadata }

def baseDataUpdateMetadata (memory : Bool) (groupIdx subgroupIdx : Nat) (metadata : Ltv8)
    (db : Db) : Db × Bool :=
  if checkFormat metadata.1 then
    match baseDataFindGroup groupIdx db with
    | none => (db, false)
    | some group =>
      match baseDataFindSubgroup group subgroupIdx with
      | none => (db, false)
      | some _ =>
        if memory then
          (db.modifyGroup groupIdx
            (Group.modifySubgroup subgroupIdx (Subgroup.setMetadata metadata.1)), true)
        else
          (db, false)
  else
    (db, false)

def genBises : List Bis → List UInt8 → Option (List UInt8)
  | [], out => some out
  | bis :: bises, out =>
    if out.length + 2 + bis.codecCfg.length > baseDataMaxLen then
      none
    else
      genBises bises
        (out ++ [UInt8.ofNat bis.bisIndex, UInt8.ofNat bis.codecCfg.length] ++ bis.codecCfg)

def genSubgroups (group : Group) : Nat → Nat → List UInt8 → Option (List UInt8)
  | 0, _, out => some out
  | n + 1, i, out =>
    match baseDataFindSubgroup group i with
    | none => none
    | some subgroup =>
      if subgroup.numBis = 0 then
        none
      else if out.length + 8 + subgroup.codecMetadata.length > baseDataMaxLen then
        none
      else
        match genBises subgroup.bisQueue
          (out ++ [UInt8.ofNat subgroup.numBis] ++ subgroup.codecId ++ subgroup.codecMetadata) with
        | none => none
        | some out => genSubgroups group n (i + 1) out

def le24 (n : Nat) : List UInt8 := [UInt8.ofNat n, UInt8.ofNat (n >>> 8), UInt8.ofNat (n >>> 16)]

def uuidBytes : List UInt8 :=
  [UInt8.ofNat basicAudioAnnouncementSrvUuid, UInt8.ofNat (basicAudioAnnouncementSrvUuid >>> 8)]

def baseDataGenPaData (memory : Bool) (groupIdx : Nat) (db : Db) : Option (List UInt8 × Nat) :=
  if memory then
    match baseDataFindGroup groupIdx db with
    | none => none
    | some group =>
      if group.numSubgroups = 0 then
        none
      else
        match genSubgroups group group.numSubgroups 0
          ([0, UInt8.ofNat gapAdtypeServiceData] ++ uuidBytes ++ le24 group.presentationDelay ++
            [UInt8.ofNat group.numSubgroups]) with
        | none => none
        | some out =>
          some (UInt8.ofNat (out.length - 1) :: out.tail ++
            List.replicate (baseDataMaxLen - out.length) 0, out.length)
  else
    none

structure BaseSubgroup where
  codecId : Vector UInt8 5
  codecCfg : Ltv8
  metadata : Ltv8
  bises : List Bis
  deriving DecidableEq

structure BaseGroup where
  groupIdx : Nat
  presentationDelay : Nat
  subgroups : List BaseSubgroup
  deriving DecidableEq

structure World where
  db : Db
  base : List BaseGroup

inductive Event where
  | addGroup (memory : Bool) (presentationDelay : Nat)
  | addSubgroup (memory : Bool) (groupIdx : Nat) (codecId : Vector UInt8 5)
      (codecCfg metadata : Ltv8)
  | addBis (memory : Bool) (groupIdx subgroupIdx : Nat) (codecCfg : Ltv8)
  | updateMetadata (memory : Bool) (groupIdx subgroupIdx : Nat) (metadata : Ltv8)

def modifyBase (groupIdx : Nat) (f : List BaseSubgroup → List BaseSubgroup)
    (base : List BaseGroup) : List BaseGroup :=
  First.modify (·.groupIdx = groupIdx) (fun group => { group with subgroups := f group.subgroups })
    base

def World.initial : World := { db := { baseGroupQueue := [], baseGroupIdx := 0 }, base := [] }

def World.step (w : World) : Event → World
  | .addGroup memory presentationDelay =>
    match baseDataAddGroup memory presentationDelay w.db with
    | (db, none) => { w with db := db }
    | (db, some groupIdx) => { db := db, base := w.base ++ [⟨groupIdx, presentationDelay, []⟩] }
  | .addSubgroup memory groupIdx codecId codecCfg metadata =>
    match baseDataAddSubgroup memory groupIdx codecId codecCfg metadata w.db with
    | (db, none) => { w with db := db }
    | (db, some _) =>
      { db := db
        base := modifyBase groupIdx (· ++ [⟨codecId, codecCfg, metadata, []⟩]) w.base }
  | .addBis memory groupIdx subgroupIdx codecCfg =>
    match baseDataAddBis memory groupIdx subgroupIdx codecCfg w.db with
    | (db, none) => { w with db := db }
    | (db, some bisIndex) =>
      { db := db
        base := modifyBase groupIdx (fun subgroups => subgroups.modify subgroupIdx fun subgroup =>
          { subgroup with bises := subgroup.bises ++ [⟨bisIndex, codecCfg.1⟩] }) w.base }
  | .updateMetadata memory groupIdx subgroupIdx metadata =>
    match baseDataUpdateMetadata memory groupIdx subgroupIdx metadata w.db with
    | (db, false) => { w with db := db }
    | (db, true) =>
      { db := db
        base := modifyBase groupIdx (fun subgroups => subgroups.modify subgroupIdx fun subgroup =>
          { subgroup with metadata := metadata }) w.base }

end BaseData
