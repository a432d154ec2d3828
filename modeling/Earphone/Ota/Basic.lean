import Earphone.Lib.Run
import Mathlib.Tactic.Common

/-!
This module contains the download of an image.
-/

namespace Ota

inductive Fault where
  | outside
  | null

def sectionLen : Nat := 0x1000

def imgOta : Nat := 0x2790

inductive DfuArv where
  | success
  | failInvalidParameter
  | failOperation
  | failCrcError
  | failDataLengthError
  | failFlashWriteError
  | failFlashEraseError
  deriving DecidableEq

structure OtaDb where
  pOtaTempBufHead : Option (List UInt8)
  imageTotalLength : Nat
  curOffset : Nat
  bufferCheckOffset : Nat
  nextSubimageOffset : Nat
  imageId : Nat
  otaTempBufUsedSize : Nat
  bufferSize : Nat
  bufferCheckEn : Bool
  isOtaProcess : Bool

abbrev Flash := Nat → Option UInt8

structure Packet where
  bytes : List UInt8
  len_lt : bytes.length < 2 ^ 16

namespace Packet

def length (p : Packet) : Nat := p.bytes.length

def ofList (bytes : List UInt8) (h : bytes.length < 2 ^ 16 := by decide) : Packet := ⟨bytes, h⟩

end Packet

structure Answers where
  mem : Bool
  junk : Nat → UInt8
  base : Bool
  gap : Nat → UInt8
  written : Bool
  crcFails : Bool
  erase : Nat → Nat

def appOtaStartDfuHandle (db : OtaDb) (imageId payloadLen defaultHeaderSize : Nat)
    (fits bankSwitch : Bool) : OtaDb × DfuArv :=
  let db := { db with imageTotalLength := (payloadLen + defaultHeaderSize) % 2 ^ 32, imageId }
  if !fits then (db, .failInvalidParameter)
  else if !bankSwitch && imageId ≤ imgOta then (db, .failInvalidParameter)
  else ({ db with isOtaProcess := true, otaTempBufUsedSize := 0, curOffset := 0 }, .success)

def allocBuffer (max : Nat) (mem : Nat → Bool) (junk : Nat → UInt8) :
    Nat → Nat → Option (List UInt8) × Nat
  | 0, k => (none, max / 2 ^ k)
  | fuel + 1, k =>
    let size := max / 2 ^ k
    if mem k then (some ((List.range size).map junk), size)
    else if size = 0 then (none, size)
    else allocBuffer max mem junk fuel (k + 1)

def appOtaBufferCheckEn (db : OtaDb) (maxBufferSize : Nat) (mem : Nat → Bool)
    (junk : Nat → UInt8) : OtaDb :=
  let db :=
    match db.pOtaTempBufHead with
    | none =>
      let r := allocBuffer maxBufferSize mem junk 17 0
      { db with pOtaTempBufHead := r.1, bufferSize := r.2 }
    | some _ => db
  { db with bufferCheckEn := db.pOtaTempBufHead.isSome && db.bufferSize != 0 }

inductive Source where
  | buffer (len : Nat)
  | packet (bytes : List UInt8)

def readGap (db : OtaDb) (gap : Nat → UInt8) : Except Fault OtaDb :=
  let n := db.bufferCheckOffset
  if n = 0 then .ok db
  else
    match db.pOtaTempBufHead with
    | none => .error .null
    | some b =>
      if n ≤ b.length then
        .ok { db with pOtaTempBufHead := some ((List.range n).map gap ++ b.drop n) }
      else .error .outside

def Source.isNull (db : OtaDb) : Source → Bool
  | .buffer _ => db.pOtaTempBufHead.isNone
  | .packet _ => false

def sourceBytes (db : OtaDb) : Source → Except Fault (List UInt8)
  | .buffer len =>
    match db.pOtaTempBufHead with
    | none => .error .null
    | some b => if len ≤ b.length then .ok (b.take len) else .error .outside
  | .packet bytes => .ok bytes

def withGap (db : OtaDb) (bytes : List UInt8) : List UInt8 :=
  if db.bufferCheckEn then bytes
  else (db.pOtaTempBufHead.getD []).take db.bufferCheckOffset ++ bytes

def lay (flash : Flash) (offset gap : Nat) (bytes : List UInt8) : Flash := fun i =>
  if offset ≤ i + gap ∧ i + gap < offset + bytes.length then bytes[i + gap - offset]? else flash i

def spoil (flash : Flash) (offset gap : Nat) : Flash := fun i =>
  if i + gap < offset then flash i else none

def appOtaWriteToFlash (a : Answers) (db : OtaDb) (flash : Flash) (src : Source) :
    Except Fault (OtaDb × Flash × Bool) :=
  if src.isNull db || !a.base then .ok (db, flash, false)
  else do
    let db ← readGap db a.gap
    let bytes ← sourceBytes db src
    let gap := db.bufferCheckOffset
    if a.written then .ok (db, lay flash db.curOffset gap (withGap db bytes), true)
    else .ok (db, spoil flash db.curOffset gap, false)

def writePacket (a : Answers) (db : OtaDb) (flash : Flash) (bytes : List UInt8) :
    Except Fault (OtaDb × Flash × DfuArv) := do
  let db :=
    if db.bufferCheckOffset ≠ 0 ∧ db.pOtaTempBufHead = none ∧ a.mem = true then
      { db with pOtaTempBufHead := some ((List.range db.bufferCheckOffset).map a.junk) }
    else db
  let r ← appOtaWriteToFlash a db flash (.packet bytes)
  let db := r.1
  if r.2.2 then
    let db := { db with curOffset := db.curOffset + bytes.length }
    if db.bufferCheckOffset ≠ 0 ∧ db.pOtaTempBufHead ≠ none then
      .ok ({ db with bufferCheckOffset := 0, pOtaTempBufHead := none }, r.2.1, .success)
    else .ok (db, r.2.1, .success)
  else .ok (db, r.2.1, .failOperation)

def collectPacket (db : OtaDb) (bytes : List UInt8) : Except Fault (OtaDb × DfuArv) :=
  let start := db.otaTempBufUsedSize + db.bufferCheckOffset
  if start + bytes.length ≤ db.bufferSize then
    match db.pOtaTempBufHead with
    | none => .error .null
    | some b =>
      if start + bytes.length ≤ b.length then
        .ok ({ db with
          pOtaTempBufHead := some (b.take start ++ bytes ++ b.drop (start + bytes.length))
          otaTempBufUsedSize := db.otaTempBufUsedSize + bytes.length }, .success)
      else .error .outside
  else .ok (db, .failOperation)

def appOtaDataPacketHandle (a : Answers) (db : OtaDb) (flash : Flash) (p : Option Packet) :
    Except Fault (OtaDb × Flash × DfuArv) :=
  match p with
  | none => .ok (db, flash, .failOperation)
  | some p =>
    if !db.isOtaProcess then .ok (db, flash, .failOperation)
    else if db.imageTotalLength < (db.curOffset + p.length + db.otaTempBufUsedSize) % 2 ^ 32 then
      .ok (db, flash, .failInvalidParameter)
    else if !db.bufferCheckEn then writePacket a db flash p.bytes
    else do
      let r ← collectPacket db p.bytes
      .ok (r.1, flash, r.2)

def readCollected (db : OtaDb) : Except Fault Unit :=
  if db.otaTempBufUsedSize = 0 then .ok ()
  else
    match db.pOtaTempBufHead with
    | none => .error .null
    | some b =>
      if db.bufferCheckOffset + db.otaTempBufUsedSize ≤ b.length then .ok () else .error .outside

def resend (a : Answers) (db : OtaDb) : OtaDb × DfuArv :=
  let db := { db with otaTempBufUsedSize := 0 }
  let resendOffset := (db.nextSubimageOffset + db.curOffset) % 2 ^ 32 / sectionLen * sectionLen
  if resendOffset < db.nextSubimageOffset then (db, .failFlashEraseError)
  else
    let db := { db with curOffset := resendOffset - db.nextSubimageOffset }
    if (List.range 3).any (fun t => a.erase t == 1) then (db, .failFlashWriteError)
    else (db, .failFlashEraseError)

def appOtaBufferCheckHandle (a : Answers) (db : OtaDb) (flash : Flash) (p : Option Nat) :
    Except Fault (OtaDb × Flash × DfuArv) :=
  match p with
  | none => .ok ({ db with otaTempBufUsedSize := 0 }, flash, .failOperation)
  | some dataSize =>
    if !db.isOtaProcess then .ok ({ db with otaTempBufUsedSize := 0 }, flash, .failOperation)
    else if dataSize ≠ db.otaTempBufUsedSize then
      .ok ({ db with otaTempBufUsedSize := 0 }, flash, .failDataLengthError)
    else do
      readCollected db
      if a.crcFails then
        .ok ({ db with otaTempBufUsedSize := 0, bufferCheckOffset := 0 }, flash, .failCrcError)
      else do
        let used := db.otaTempBufUsedSize
        let r ← appOtaWriteToFlash a db flash (.buffer (used + db.bufferCheckOffset))
        let db := r.1
        if r.2.2 then
          .ok ({ db with
            curOffset := db.curOffset + used
            otaTempBufUsedSize := 0
            bufferCheckOffset := 0 }, r.2.1, .success)
        else
          let back := resend a db
          .ok (back.1, spoil r.2.1 back.1.curOffset 0, back.2)

def appOtaGetImgInfoHandle (db : OtaDb) (imageId : Nat) (known : Bool) (dfuBaseAddr : Nat) :
    OtaDb × Option Nat :=
  let db := if imageId ≠ db.imageId then { db with curOffset := 0, otaTempBufUsedSize := 0 } else db
  if !known then (db, none)
  else
    let gap := if dfuBaseAddr % sectionLen = 0 then 0 else dfuBaseAddr % 0x1000
    ({ db with bufferCheckOffset := gap }, some db.curOffset)

structure World where
  db : OtaDb
  flash : Flash
  accepted : List UInt8
  code : DfuArv
  reported : Option Nat

inductive Op where
  | getImgInfo (imageId : Nat) (known : Bool) (dfuBaseAddr : Nat)
  | bufferCheckEn (maxBufferSize : UInt16) (mem : Nat → Bool) (junk : Nat → UInt8)
  | dataPacket (p : Option Packet) (a : Answers)
  | bufferCheck (p : Option Nat) (a : Answers)

def taken (code : DfuArv) (p : Option Packet) : List UInt8 :=
  if code = .success then (p.map Packet.bytes).getD [] else []

def step1 (w : World) : Op → Except Fault World
  | .getImgInfo imageId known dfuBaseAddr =>
    let r := appOtaGetImgInfoHandle w.db imageId known dfuBaseAddr
    .ok { w with
      db := r.1
      code := if known then .success else .failInvalidParameter
      reported := r.2 }
  | .bufferCheckEn maxBufferSize mem junk =>
    .ok { w with
      db := appOtaBufferCheckEn w.db maxBufferSize.toNat mem junk
      code := .success
      reported := none }
  | .dataPacket p a => do
    let r ← appOtaDataPacketHandle a w.db w.flash p
    .ok { w with
      db := r.1
      flash := r.2.1
      accepted := w.accepted ++ taken r.2.2 p
      code := r.2.2
      reported := none }
  | .bufferCheck p a => do
    let r ← appOtaBufferCheckHandle a w.db w.flash p
    .ok { w with
      db := r.1
      flash := r.2.1
      accepted := w.accepted.take r.1.curOffset
      code := r.2.2
      reported := some r.1.curOffset }

def step (w : Except Fault World) (op : Op) : Except Fault World := do
  let w ← w
  step1 w op

def World.start (db : OtaDb) (flash : Flash) : World :=
  { db, flash, accepted := [], code := .success, reported := none }

end Ota
