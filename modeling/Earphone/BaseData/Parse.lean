import Earphone.Ascs.Basic
import Earphone.Lib.Visit

/-!
This module contains the parsing of the BASE.
-/

namespace BaseData

open Scan Visit
open Ascs (CodecCfg codecCfgNeed codecCfgUse codecCfgInit leNum)

def gapAdtypeServiceData : Nat := 0x16

def basicAudioAnnouncementSrvUuid : Nat := 0x1851

def codecIdLen : Nat := 5

def formatVisit (bytes : List UInt8) (base idx : Nat) (_ : Unit) :
    Except Stuck (Except Unit (Nat × Unit)) := do
  let length ← byteAt bytes (base + idx)
  return .ok (idx + (length + 1), ())

/--
`ltv_util_check_format_int`. The lengths its callers hand over have eight bits, so that its index
does not wrap.
-/
def ltvUtilCheckFormat (bytes : List UInt8) (base len : Nat) : Except Stuck Bool :=
  if len = 0 then
    return false
  else do
    match ← loop (formatVisit bytes base) len (len + 1) 0 () with
    | .ok (idx, _) => return idx = len
    | .error _ => return false

def codecCfgRefused (type : Nat) (value : List UInt8) (cfg : CodecCfg) : CodecCfg :=
  if type = 0x01 then
    { cfg with sampleFrequency := leNum value }
  else if type = 0x02 then
    { cfg with frameDuration := leNum value }
  else if type = 0x03 then
    { cfg with audioChannelAllocation := leNum value }
  else if type = 0x05 then
    { cfg with codecFrameBlocksPerSdu := leNum value }
  else
    cfg

def codecCfgVisit (bytes : List UInt8) (base idx : Nat) (cfg : CodecCfg) :
    Except Stuck (Except CodecCfg (Nat × CodecCfg)) := do
  let length ← byteAt bytes (base + idx)
  let type ← byteAt bytes (base + idx + 1)
  match codecCfgNeed type length with
  | .error _ => return .error cfg
  | .ok n =>
    let value ← bytesAt bytes (base + idx + 2) n
    match codecCfgUse type value cfg with
    | .error _ => return .error (codecCfgRefused type value cfg)
    | .ok cfg => return .ok (idx + 1 + length, cfg)

def codecCfgParse (bytes : List UInt8) (base valueLen : Nat) : Except Stuck (Bool × CodecCfg) :=
  if valueLen = 0 then
    return (false, .zero)
  else do
    match ← loop (codecCfgVisit bytes base) valueLen (valueLen + 1) 0 codecCfgInit with
    | .ok (idx, cfg) => return (idx = valueLen, cfg)
    | .error cfg => return (false, cfg)

/--
The check and the parsing of a codec configuration of level 2 or 3. What `codec_cfg_parse` returns
is not looked at.
-/
def readCodecCfg (bytes : List UInt8) (p len : Nat) : Except Stuck (Option CodecCfg) :=
  if len = 0 then
    return some .zero
  else do
    if ← ltvUtilCheckFormat bytes p len then
      -- a configuration that is refused halfway is used with the fields read so far
      let (_, cfg) ← codecCfgParse bytes p len
      return some cfg
    else
      return none

def checkVisit (bytes : List UInt8) (idx : Nat) (found : Option Nat) :
    Except Stuck (Except Unit (Nat × Option Nat)) := do
  let length ← byteAt bytes idx
  -- only `idx` was compared with the length
  let type ← byteAt bytes (idx + 1)
  let next := (idx + (length + 1)) % 2 ^ 16
  if type = gapAdtypeServiceData then
    let uuid ← bytesAt bytes (idx + 2) 2
    return .ok (next, if leNum uuid = basicAudioAnnouncementSrvUuid then some idx else found)
  else
    return .ok (next, found)

def baseDataCheckData (len : Nat) (bytes : List UInt8) (fuel : Nat) :
    Except Stuck (Except Nat Nat) :=
  if len = 0 then
    return .error 1
  else do
    match ← loop (checkVisit bytes) len fuel 0 none with
    | .ok (_, none) => return .error 2
    -- the structures have to end where the data do
    | .ok (idx, some offset) => return if idx = len then .ok offset else .error 3
    | .error _ => return .error 3

structure BisParam where
  subgroupIdx : Nat
  bisIndex : Nat
  codecId : List UInt8
  bisCodecCfg : CodecCfg

structure SubgroupParam where
  subgroupIdx : Nat
  numBis : Nat
  bisArray : Nat
  metadata : List UInt8
  bisParam : List BisParam

structure Mapping where
  numBis : Nat
  numSubgroups : Nat
  presentationDelay : Nat
  subgroups : List SubgroupParam

inductive Request where
  | mapping
  | subgroups
  | metadata (subgroupIdx : Nat)
  | bises (subgroupIdx : Nat)

def slotAt (i n : Nat) : Except Stuck Unit := if i < n then .ok () else .error .overflow

def samplingFrequencyExist : Nat := 0x0001

def frameDurationExist : Nat := 0x0002

def audioChannelAllocationExist : Nat := 0x0004

def octetPerCodecFrameExist : Nat := 0x0008

def blocksPerSduExist : Nat := 0x0010

def has (cfg : CodecCfg) (bit : Nat) : Bool := cfg.typeExist &&& bit ≠ 0

def pick (bit : Nat) (field : CodecCfg → Nat) (first second : CodecCfg) : Nat :=
  if has first bit then field first else if has second bit then field second else 0

def mergeCodecCfg (level2 level3 : CodecCfg) : CodecCfg :=
  let typeExist := level2.typeExist ||| level3.typeExist
  { typeExist := typeExist ||| blocksPerSduExist
    frameDuration := pick frameDurationExist CodecCfg.frameDuration level2 level3
    sampleFrequency := pick samplingFrequencyExist CodecCfg.sampleFrequency level3 level2
    codecFrameBlocksPerSdu :=
      if typeExist &&& blocksPerSduExist = 0 then
        1
      else
        pick blocksPerSduExist CodecCfg.codecFrameBlocksPerSdu level2 level3
    octetsPerCodecFrame := pick octetPerCodecFrameExist CodecCfg.octetsPerCodecFrame level2 level3
    audioChannelAllocation :=
      pick audioChannelAllocationExist CodecCfg.audioChannelAllocation level3 level2 }

def bisBit (bisIndex : Nat) : Nat :=
  if 1 ≤ bisIndex ∧ bisIndex ≤ 32 then 1 <<< (bisIndex - 1) else 0

def readBises (bytes codecId : List UInt8) (level2 : CodecCfg) (i numBis : Nat) :
    Nat → Nat → Nat → Except Stuck (Except Nat (List BisParam × Nat))
  | 0, _, p => return .ok ([], p)
  | n + 1, j, p => do
    slotAt j numBis
    let bisIndex ← byteAt bytes p
    let codecCfgLen ← byteAt bytes (p + 1)
    match ← readCodecCfg bytes (p + 2) codecCfgLen with
    | none => return .error 9
    | some level3 =>
      let bis : BisParam :=
        { subgroupIdx := i
          bisIndex := bisIndex
          codecId := codecId
          bisCodecCfg := mergeCodecCfg level2 level3 }
      match ← readBises bytes codecId level2 i numBis n (j + 1) (p + 2 + codecCfgLen) with
      | .error e => return .error e
      | .ok (bises, p) => return .ok (bis :: bises, p)

def readMetadata (memory : Request → Bool) (bytes : List UInt8) (i p len : Nat) :
    Except Stuck (Except Nat (List UInt8)) :=
  if len = 0 then
    return .ok []
  else do
    if ← ltvUtilCheckFormat bytes p len then
      if memory (.metadata i) then
        let metadata ← bytesAt bytes p len
        return .ok metadata
      else
        return .error 7
    else
      return .error 6

def readSubgroup (memory : Request → Bool) (bytes : List UInt8) (i p : Nat) :
    Except Stuck (Except Nat (SubgroupParam × Nat)) := do
  let numBis ← byteAt bytes p
  let codecId ← bytesAt bytes (p + 1) codecIdLen
  let codecCfgLen ← byteAt bytes (p + 6)
  -- read before the codec configuration is checked
  let metadataLen ← byteAt bytes (p + 7 + codecCfgLen)
  match ← readCodecCfg bytes (p + 7) codecCfgLen with
  | none => return .error 5
  | some level2 =>
    match ← readMetadata memory bytes i (p + 8 + codecCfgLen) metadataLen with
    | .error e => return .error e
    | .ok metadata =>
      if memory (.bises i) then
        match ← readBises bytes codecId level2 i numBis numBis 0
            (p + 8 + codecCfgLen + metadataLen) with
        | .error e => return .error e
        | .ok (bises, p) =>
          return .ok
            ({ subgroupIdx := i
               numBis := numBis
               bisArray := bises.foldl (fun array bis => array ||| bisBit bis.bisIndex) 0
               metadata := metadata
               bisParam := bises }, p)
      else
        return .error 8

def readSubgroups (memory : Request → Bool) (bytes : List UInt8) (numSubgroups : Nat) :
    Nat → Nat → Nat → Except Stuck (Except Nat (List SubgroupParam))
  | 0, _, _ => return .ok []
  | n + 1, i, p => do
    slotAt i numSubgroups
    match ← readSubgroup memory bytes i p with
    | .error e => return .error e
    | .ok (subgroup, p) =>
      match ← readSubgroups memory bytes numSubgroups n (i + 1) p with
      | .error e => return .error e
      | .ok subgroups => return .ok (subgroup :: subgroups)

def readBase (memory : Request → Bool) (bytes : List UInt8) (offset : Nat) :
    Except Stuck (Except Nat Mapping) :=
  if memory .mapping then do
    let presentationDelay ← bytesAt bytes (offset + 4) 3
    let numSubgroups ← byteAt bytes (offset + 7)
    if memory .subgroups then
      match ← readSubgroups memory bytes numSubgroups numSubgroups 0 (offset + 8) with
      | .error e => return .error e
      | .ok subgroups =>
        return .ok
          { numBis := (subgroups.map SubgroupParam.numBis).sum % 2 ^ 8
            numSubgroups := numSubgroups
            presentationDelay := leNum presentationDelay
            subgroups := subgroups }
    else
      return .error 4
  else
    return .error 2

def baseDataParseData (memory : Request → Bool) (len : Nat) (bytes : List UInt8) (fuel : Nat) :
    Except Stuck (Except Nat Mapping) := do
  match ← baseDataCheckData len bytes fuel with
  | .error _ => return .error 1
  | .ok offset => readBase memory bytes offset

end BaseData
