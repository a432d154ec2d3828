import Earphone.Lib.Layout
import Earphone.Lib.Run

/-!
This module contains the buffer of the notification player.
-/

namespace Notification

open Layout

inductive BufferState where
  | idle
  | prequeue
  | empty
  | play
  | high
  deriving DecidableEq

inductive BufferEvent where
  | prequeue
  | play
  | ePlay
  | empty
  | fPlay
  | low
  | high
  | full

structure Db where
  queue : List Nat
  poolBuf : Bytes
  poolSize : Nat
  poolHead : Nat
  poolTail : Nat
  upperThreshold : Nat
  lowThreshold : Nat
  prequeueThreshold : Nat
  cachedSize : Nat
  state : BufferState
  dma : List (List UInt8)
  events : List (BufferEvent × Nat)

structure Frame where
  data : List UInt8
  length_lt : data.length < 0x100000000

def u32 (n : Nat) : Nat := n % 0x100000000

theorem u32_sub (hm : m ≤ n) (hn : n < 0x100000000) : u32 (n + 0x100000000 - m) = n - m := by
  unfold u32
  omega

theorem u32_of_lt (h : n < 0x100000000) : u32 n = n := Nat.mod_eq_of_lt h

def totalLen (len : Nat) : Nat := u32 (8 + len + 3) / 4 * 4

theorem totalLen_of_lt (h : len + 11 < 0x100000000) : totalLen len = (8 + len + 3) / 4 * 4 := by
  unfold totalLen
  rw [u32_of_lt (by omega)]

def bytesOf (data : List UInt8) : Bytes := fun i => data.getD i 0

def bytesAt (m : Bytes) (start len : Nat) : List UInt8 :=
  (List.range len).map fun i => m (start + i)

namespace Db

def cback (event : BufferEvent) (param : Nat) (db : Db) : Db :=
  { db with events := db.events ++ [(event, param)] }

def setCachedSize (n : Nat) (db : Db) : Db := { db with cachedSize := n }

def setQueue (queue : List Nat) (poolHead : Nat) (db : Db) : Db :=
  { db with queue := queue, poolHead := poolHead }

theorem cachedSize_setQueue (queue : List Nat) (poolHead : Nat) (db : Db) :
    (db.setQueue queue poolHead).cachedSize = db.cachedSize := rfl

theorem cachedSize_setCachedSize (n : Nat) (db : Db) : (db.setCachedSize n).cachedSize = n := rfl

def frameLen (db : Db) (head : Nat) : Nat := load ⟨head + 4, 4⟩ db.poolBuf

def frameData (db : Db) (head : Nat) : List UInt8 :=
  bytesAt db.poolBuf (head + 8) (db.frameLen head)

def framePeek (db : Db) : Option (Nat × Nat) :=
  db.queue.head?.map fun head => (head + 8, db.frameLen head)

def accept (head tail : Nat) (data : List UInt8) (db : Db) : Db :=
  let poolBuf := blit (bytesOf data) 0 (head + 8) data.length db.poolBuf
  { db with
    poolBuf := store ⟨head + 4, 4⟩ data.length poolBuf
    poolTail := tail
    queue := db.queue ++ [head] }

theorem cachedSize_accept (head tail : Nat) (data : List UInt8) (db : Db) :
    (db.accept head tail data).cachedSize = db.cachedSize := rfl

def afterWrite (db : Db) : Db :=
  match db.state with
  | .idle => if db.cachedSize > 0 then { db with state := .prequeue } else db
  | .prequeue =>
    if db.cachedSize ≥ db.prequeueThreshold then
      { db with state := .play }.cback .play db.cachedSize
    else
      db
  | .empty =>
    if db.cachedSize ≥ db.lowThreshold then
      { db with state := .play }.cback .ePlay db.cachedSize
    else
      db
  | .play =>
    if db.cachedSize ≥ db.upperThreshold then
      { db with state := .high }.cback .high db.cachedSize
    else
      db
  | .high => db

def countWritten (len : Nat) (db : Db) : Db :=
  (db.setCachedSize (u32 (db.cachedSize + len))).afterWrite

def wraps (db : Db) (len : Nat) : Bool :=
  u32 (db.poolTail + totalLen len) > u32 (db.poolSize + 0xFFFFFFFF)

def frameWrite (data : List UInt8) (db : Db) : Db × Bool :=
  let totalLen := totalLen data.length
  if db.wraps data.length then
    if totalLen ≤ db.poolHead then
      (countWritten data.length (db.accept 0 totalLen data), true)
    else
      (db.cback .full db.cachedSize, false)
  else
    if db.poolTail ≥ db.poolHead || u32 (db.poolTail + totalLen) ≤ db.poolHead then
      (countWritten data.length (db.accept db.poolTail (u32 (db.poolTail + totalLen)) data), true)
    else
      (db.cback .full db.cachedSize, false)

theorem frameWrite_of_wraps {db : Db} {data : List UInt8} (h : db.wraps data.length = true) :
    db.frameWrite data =
      if totalLen data.length ≤ db.poolHead then
        (countWritten data.length (db.accept 0 (totalLen data.length) data), true)
      else
        (db.cback .full db.cachedSize, false) := by
  unfold frameWrite
  exact if_pos h

theorem frameWrite_of_not_wraps {db : Db} {data : List UInt8} (h : ¬db.wraps data.length = true) :
    db.frameWrite data =
      if db.poolTail ≥ db.poolHead || u32 (db.poolTail + totalLen data.length) ≤ db.poolHead then
        (countWritten data.length
          (db.accept db.poolTail (u32 (db.poolTail + totalLen data.length)) data), true)
      else
        (db.cback .full db.cachedSize, false) := by
  unfold frameWrite
  exact if_neg h

def afterFlush (db : Db) : Db :=
  match db.state with
  | .play =>
    if db.cachedSize = 0 then
      { db with state := .empty }.cback .empty db.cachedSize
    else if db.cachedSize < db.lowThreshold then
      db.cback .low db.cachedSize
    else
      db
  | .high =>
    if db.cachedSize < db.upperThreshold then
      { db with state := .play }.cback .fPlay db.cachedSize
    else
      db
  | _ => db

def countFlushed (len : Nat) (db : Db) : Db :=
  (db.setCachedSize (u32 (db.cachedSize + 0x100000000 - len))).afterFlush

def frameFlush (db : Db) : Db :=
  match db.queue with
  | [] => db
  | head :: rest =>
    countFlushed (db.frameLen head) (db.setQueue rest (rest.headD db.poolTail))

def isEnd (data : List UInt8) : Bool := data = [0xFF, 0xFF]

def playEnd (written : Db × Bool) : Db × Bool :=
  if written.2 then
    ({ written.1 with state := .play }.cback .ePlay 0, true)
  else
    (written.1, false)

def framePush (data : List UInt8) (db : Db) : Db × Bool :=
  if isEnd data && db.state = .high then
    -- The marker is written, and written once more below.
    let written := db.frameWrite data
    (if written.2 then written.1 else written.1.frameFlush).frameWrite data
  else if isEnd data && db.state = .empty then
    playEnd (db.frameWrite data)
  else
    db.frameWrite data

def streamFrameLen (db : Db) (head : Nat) : Nat :=
  (db.poolBuf head).toNat * 2 ^ 8 + (db.poolBuf (head + 1)).toNat

def streamFrame (db : Db) (head : Nat) : Option Nat :=
  if head + 2 ≤ db.poolTail then
    let frameLen := db.streamFrameLen head
    if frameLen = 0xFFFF then
      some 2
    else if head + frameLen + 2 ≤ db.poolTail then
      some (frameLen + 2)
    else
      none
  else
    none

def streamPeek (db : Db) : Option (Nat × Nat) :=
  (db.streamFrame db.poolHead).map fun len => (db.poolHead, len)

def streamFlush (db : Db) : Db × Bool :=
  match db.streamFrame db.poolHead with
  | none => (db, false)
  | some len =>
    let db := { db with poolHead := db.poolHead + len }
    match db.streamFrame db.poolHead with
    | none => ({ db with state := .empty }.cback .empty db.poolHead, true)
    | some _ => (db, true)

def streamPush (data : List UInt8) (taken : Bool) (db : Db) : Db × Bool :=
  let data := data.take db.poolSize
  let db := { db with poolHead := 0, poolTail := data.length }
  if taken then
    let db := { db with dma := db.dma ++ [data] }
    (if db.state = .idle then { db with state := .prequeue } else db, true)
  else
    (db, false)

def dmaDone (db : Db) : Db :=
  match db.dma with
  | [] => db
  | data :: rest => { db with poolBuf := blit (bytesOf data) 0 0 data.length db.poolBuf, dma := rest }

def msgHandler (db : Db) : Db :=
  match db.state with
  | .prequeue => { db with state := .play }.cback .play 0
  | .empty => { db with state := .play }.cback .ePlay 0
  | _ => db

def init (poolSize : UInt16) (poolBuf : Bytes) : Db :=
  { queue := []
    poolBuf := poolBuf
    poolSize := poolSize.toNat
    poolHead := 0
    poolTail := 0
    upperThreshold := 0
    lowThreshold := 0
    prequeueThreshold := 0
    cachedSize := 0
    state := .idle
    dma := []
    events := [] }

def config (bufferSize upperScaling lowScaling prequeueScaling : Nat) (db : Db) : Db :=
  let size := min bufferSize db.poolSize
  { db with
    queue := []
    poolHead := 0
    poolTail := 0
    cachedSize := 0
    state := .idle
    upperThreshold := u32 (size * upperScaling) / 100
    lowThreshold := u32 (size * lowScaling) / 100
    prequeueThreshold := u32 (size * prequeueScaling) / 100 }

end Db

end Notification
