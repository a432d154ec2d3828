import Earphone.Lib.First
import Earphone.Lib.Run

/-!
This module contains the model of a media buffer entity.
-/

namespace MediaBuffer

inductive StreamType where
  | playback
  | voice
  | record
  deriving DecidableEq

inductive StreamMode where
  | normal
  | lowLatency
  | highStability
  | direct
  | ultraLowLatency
  deriving DecidableEq

inductive PoolHandle where
  | playback
  | voice
  | record
  deriving DecidableEq

inductive Direction where
  | downstream
  | upstream
  deriving DecidableEq

def StreamType.poolHandle : StreamType → PoolHandle
  | .record => .record
  | .playback => .playback
  | .voice => .voice

def StreamMode.BacksUp (mode : StreamMode) : Prop := mode = .lowLatency ∨ mode = .ultraLowLatency

instance (mode : StreamMode) : Decidable mode.BacksUp := inferInstanceAs (Decidable (_ ∨ _))

def mediaDataHdrSize : Nat := 20

def audioPathDataHdrSize : Nat := 24

structure Packet where
  ptr : Nat
  pool : PoolHandle
  timestamp : Nat
  upperSeqNumber : Nat
  frameNumber : UInt8
  status : Nat
  payload : List UInt8
  readOffset : Nat
  offset_le : readOffset ≤ payload.length
  deriving DecidableEq

def Packet.remainLen (p : Packet) : Nat := p.payload.length - p.readOffset

def Packet.remaining (p : Packet) : List UInt8 := p.payload.drop p.readOffset

def Packet.advance (p : Packet) (len : Nat) : Packet :=
  { p with
    readOffset := p.readOffset + min len p.remainLen
    offset_le := by
      have := p.offset_le
      simp only [remainLen]
      omega }

structure Lane where
  queue : List Packet
  frameNum : Nat

structure Entity where
  streamType : StreamType
  mode : StreamMode
  poolHandle : PoolHandle
  down : Lane
  up : Lane
  lastPacketPtr : Option Packet

structure World extends Entity where
  allocated : Nat
  freed : List (PoolHandle × Packet)

inductive Fault where
  | outOfBounds

def mediaBufferConstruct (streamType : StreamType) (mode : StreamMode) : World where
  streamType := streamType
  mode := mode
  poolHandle := streamType.poolHandle
  down := ⟨[], 0⟩
  up := ⟨[], 0⟩
  lastPacketPtr := none
  allocated := 0
  freed := []

namespace World

def lane (w : World) : Direction → Lane
  | .downstream => w.down
  | .upstream => w.up

def setLane (w : World) (lane : Lane) : Direction → World
  | .downstream => { w with down := lane }
  | .upstream => { w with up := lane }

def setBackup (w : World) (mediapacket : Option Packet) : World :=
  { w with lastPacketPtr := mediapacket }

def mediaBufferPut (w : World) (poolHandle : PoolHandle) (p : Packet) : World :=
  { w with freed := w.freed ++ [(poolHandle, p)] }

def mediaBufferBackupUpdate (w : World) (mediapacket : Option Packet) : World :=
  match w.lastPacketPtr with
  | some last => (w.mediaBufferPut .playback last).setBackup mediapacket
  | none => w.setBackup mediapacket

def dispose (w : World) (p : Packet) : World :=
  if w.mode.BacksUp then
    w.mediaBufferBackupUpdate (some p)
  else
    w.mediaBufferPut w.poolHandle p

def flushOne (w : World) (direction : Direction) : World :=
  match (w.lane direction).queue with
  | [] => w
  | p :: queue =>
    (w.setLane ⟨queue, ((w.lane direction).frameNum + 2 ^ 16 - p.frameNumber.toNat) % 2 ^ 16⟩
      direction).dispose p

def flushLoop (w : World) (direction : Direction) : Nat → World
  | 0 => w
  | n + 1 => (w.flushOne direction).flushLoop direction n

def mediaBufferFlush (w : World) (cnt : Nat) (direction : Direction) : World :=
  w.flushLoop direction (min cnt (w.lane direction).queue.length)

def mediaBufferGet (bufSize : Nat) (granted : Bool) : Bool := granted && bufSize != 0

def packetSize (len : Nat) : Nat := (mediaDataHdrSize + audioPathDataHdrSize + len) % 2 ^ 16

def newPacket (w : World) (timestamp seqNumber : Nat) (frameNumber : UInt8) (status : Nat)
    (data : List UInt8) : Packet where
  ptr := w.allocated
  pool := w.poolHandle
  timestamp := timestamp
  upperSeqNumber := seqNumber
  frameNumber := frameNumber
  status := status
  payload := data
  readOffset := 0
  offset_le := Nat.zero_le _

def queueIn (w : World) (p : Packet) (direction : Direction) : World :=
  let lane := w.lane direction
  { w.setLane ⟨lane.queue ++ [p], (lane.frameNum + p.frameNumber.toNat) % 2 ^ 16⟩ direction with
    allocated := w.allocated + 1 }

def mediaBufferWrite (w : World) (timestamp seqNumber : Nat) (frameNumber : UInt8) (status : Nat)
    (direction : Direction) (data : List UInt8) (granted : Bool) : Except Fault (World × Nat) :=
  if mediaBufferGet (packetSize data.length) granted then
    if packetSize data.length < mediaDataHdrSize + audioPathDataHdrSize + data.length then
      .error .outOfBounds
    else
      .ok (w.queueIn (w.newPacket timestamp seqNumber frameNumber status data) direction,
        data.length)
  else
    .ok (w, 0)

def mediaBufferShrink (w : World) (ptr len : Nat) (direction : Direction) : World × Nat :=
  let lane := w.lane direction
  match lane.queue.find? (·.ptr == ptr) with
  | none => (w, 0)
  | some p =>
    let shrinkLen := min len p.remainLen
    if shrinkLen = p.remainLen then
      ((w.setLane { lane with queue := lane.queue.eraseP (·.ptr == ptr) }
        direction).mediaBufferPut w.poolHandle (p.advance len), shrinkLen)
    else
      (w.setLane { lane with queue := First.modify (·.ptr == ptr) (·.advance len) lane.queue }
        direction, shrinkLen)

def mediaBufferReset (w : World) : World :=
  let w := w.mediaBufferFlush w.down.queue.length .downstream
  let w := w.mediaBufferFlush w.up.queue.length .upstream
  let w := { w with down := { w.down with frameNum := 0 }, up := { w.up with frameNum := 0 } }
  w.mediaBufferBackupUpdate none

structure ReadResult where
  data : List UInt8
  timestamp : Nat
  seqNum : Nat
  status : Nat
  frameNum : UInt8

def mediaBufferProxyUsRead (w : World) (len : Nat) : World × Option ReadResult :=
  match w.up.queue with
  | [] => (w, none)
  | p :: _ =>
    let readLen := if len > p.remainLen then p.remainLen else len
    ((w.mediaBufferShrink p.ptr readLen .upstream).1,
      some {
        data := p.remaining.take readLen
        timestamp := p.timestamp
        seqNum := p.upperSeqNumber
        status := p.status
        frameNum := p.frameNumber
      })

end World

inductive Op where
  | write (direction : Direction) (timestamp seqNumber : Nat) (frameNumber : UInt8) (status : Nat)
    (data : List UInt8) (granted : Bool)
  | flush (cnt : Nat) (direction : Direction)
  | shrink (ptr len : Nat) (direction : Direction)
  | usRead (len : Nat)
  | backupUpdate
  | reset

def step1 (w : World) : Op → Except Fault World
  | .write direction timestamp seqNumber frameNumber status data granted => do
    let r ← w.mediaBufferWrite timestamp seqNumber frameNumber status direction data granted
    return r.1
  | .flush cnt direction => .ok (w.mediaBufferFlush cnt direction)
  | .shrink ptr len direction => .ok (w.mediaBufferShrink ptr len direction).1
  | .usRead len => .ok (w.mediaBufferProxyUsRead len).1
  | .backupUpdate => .ok (w.mediaBufferBackupUpdate none)
  | .reset => .ok w.mediaBufferReset

def step (w : Except Fault World) (op : Op) : Except Fault World := do
  step1 (← w) op

def Op.Fits : Op → Prop
  | .write _ _ _ _ _ data granted =>
    World.mediaBufferGet (World.packetSize data.length) granted = true →
      mediaDataHdrSize + audioPathDataHdrSize + data.length < 2 ^ 16
  | _ => True

instance : (op : Op) → Decidable op.Fits
  | .write .. => inferInstanceAs (Decidable (_ → _))
  | .flush .. | .shrink .. | .usRead _ | .backupUpdate | .reset => .isTrue trivial

section

variable {w : World} {d d' : Direction} {lane : Lane} {p : Packet}

namespace World

@[simp]
theorem lane_setLane_self : (w.setLane lane d).lane d = lane := by
  cases d <;> rfl

theorem lane_setLane_ne (h : d' ≠ d) : (w.setLane lane d).lane d' = w.lane d' := by
  cases d <;> cases d' <;> first | rfl | exact absurd rfl h

@[simp]
theorem setLane_freed : (w.setLane lane d).freed = w.freed := by
  cases d <;> rfl

@[simp]
theorem setLane_lastPacketPtr : (w.setLane lane d).lastPacketPtr = w.lastPacketPtr := by
  cases d <;> rfl

@[simp]
theorem setLane_allocated : (w.setLane lane d).allocated = w.allocated := by
  cases d <;> rfl

@[simp]
theorem setLane_poolHandle : (w.setLane lane d).poolHandle = w.poolHandle := by
  cases d <;> rfl

@[simp]
theorem setLane_mode : (w.setLane lane d).mode = w.mode := by
  cases d <;> rfl

@[simp]
theorem setLane_streamType : (w.setLane lane d).streamType = w.streamType := by
  cases d <;> rfl

@[simp]
theorem lane_mediaBufferPut : (w.mediaBufferPut pool p).lane d = w.lane d := by
  cases d <;> rfl

@[simp]
theorem lane_mediaBufferBackupUpdate {p? : Option Packet} :
    (w.mediaBufferBackupUpdate p?).lane d = w.lane d := by
  unfold mediaBufferBackupUpdate
  split <;> cases d <;> rfl

@[simp]
theorem lane_dispose : (w.dispose p).lane d = w.lane d := by
  unfold dispose
  split <;> simp

theorem flushOne_nil (h : (w.lane d).queue = []) : w.flushOne d = w := by
  simp only [flushOne, h]

theorem flushOne_cons (h : (w.lane d).queue = p :: queue) :
    w.flushOne d =
      (w.setLane ⟨queue, ((w.lane d).frameNum + 2 ^ 16 - p.frameNumber.toNat) % 2 ^ 16⟩
        d).dispose p := by
  simp only [flushOne, h]

theorem flushOne_lane_ne (h : d' ≠ d) : (w.flushOne d).lane d' = w.lane d' := by
  cases hq : (w.lane d).queue with
  | nil => rw [flushOne_nil hq]
  | cons p queue => rw [flushOne_cons hq, lane_dispose, lane_setLane_ne h]

theorem flushOne_queue : ((w.flushOne d).lane d).queue = (w.lane d).queue.tail := by
  cases hq : (w.lane d).queue with
  | nil => rw [flushOne_nil hq, hq, List.tail_nil]
  | cons p queue => rw [flushOne_cons hq, lane_dispose, lane_setLane_self, List.tail_cons]

theorem flushLoop_lane_ne (h : d' ≠ d) (n : Nat) : (w.flushLoop d n).lane d' = w.lane d' := by
  induction n generalizing w with
  | zero => rfl
  | succ n ih => rw [flushLoop, ih, flushOne_lane_ne h]

theorem flushLoop_queue (n : Nat) : ((w.flushLoop d n).lane d).queue = (w.lane d).queue.drop n := by
  induction n generalizing w with
  | zero => rfl
  | succ n ih => rw [flushLoop, ih, flushOne_queue, List.drop_tail]

theorem flushLoop_inv {P : World → Prop} (hstep : ∀ w, P w → P (w.flushOne d)) (h : P w)
    (n : Nat) : P (w.flushLoop d n) := by
  induction n generalizing w with
  | zero => exact h
  | succ n ih => exact ih (hstep w h)

theorem mediaBufferShrink_none
    (h : (w.lane d).queue.find? (·.ptr == ptr) = none) :
    w.mediaBufferShrink ptr len d = (w, 0) := by
  simp only [mediaBufferShrink, h]

theorem mediaBufferShrink_all
    (h : (w.lane d).queue.find? (·.ptr == ptr) = some p) (hlen : p.remainLen ≤ len) :
    w.mediaBufferShrink ptr len d =
      ((w.setLane { w.lane d with queue := (w.lane d).queue.eraseP (·.ptr == ptr) }
        d).mediaBufferPut w.poolHandle (p.advance len), p.remainLen) := by
  simp only [mediaBufferShrink, h, Nat.min_eq_right hlen, if_true]

theorem mediaBufferShrink_part
    (h : (w.lane d).queue.find? (·.ptr == ptr) = some p) (hlen : len < p.remainLen) :
    w.mediaBufferShrink ptr len d =
      (w.setLane { w.lane d with
        queue := First.modify (·.ptr == ptr) (·.advance len) (w.lane d).queue } d, len) := by
  simp only [mediaBufferShrink, h, Nat.min_eq_left (Nat.le_of_lt hlen),
    if_neg (Nat.ne_of_lt hlen)]

end World

end

end MediaBuffer
