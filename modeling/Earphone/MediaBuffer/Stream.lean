import Earphone.MediaBuffer.Owner

namespace MediaBuffer

open List

inductive UsOp where
  | write (timestamp seq : Nat) (frameNum : UInt8) (status : Nat) (buf : List UInt8)
    (granted : Bool)
  | read (len : Nat)

structure Stream where
  world : World
  written : List UInt8
  returned : List UInt8

def ReadResult.bytes : Option World.ReadResult → List UInt8
  | some r => r.data
  | none => []

def usStep1 (s : Stream) : UsOp → Except Fault Stream
  | .write timestamp seq frameNum status buf granted => do
    let (w, writtenLen) ←
      s.world.mediaBufferWrite timestamp seq frameNum status .upstream buf granted
    return { s with world := w, written := s.written ++ buf.take writtenLen }
  | .read len =>
    let (w, r) := s.world.mediaBufferProxyUsRead len
    .ok { s with world := w, returned := s.returned ++ ReadResult.bytes r }

def usStep (s : Except Fault Stream) (op : UsOp) : Except Fault Stream := do
  usStep1 (← s) op

def Stream.construct (streamType : StreamType) (mode : StreamMode) : Stream where
  world := mediaBufferConstruct streamType mode
  written := []
  returned := []

def bytesOf (queue : List Packet) : List UInt8 := queue.flatMap Packet.remaining

def ReadSound (w : World) (len : Nat) : Prop :=
  match w.up.queue with
  | [] => w.mediaBufferProxyUsRead len = (w, none)
  | p :: queue =>
    ∃ r, (w.mediaBufferProxyUsRead len).2 = some r ∧ r.data.length = min len p.remainLen ∧
      r.data <+: p.remaining ∧ r.seqNum = p.upperSeqNumber ∧ r.timestamp = p.timestamp ∧
      (w.mediaBufferProxyUsRead len).1.up.queue =
        if p.remainLen ≤ len then queue else p.advance len :: queue

def Stream.Faithful (s : Stream) : Prop := s.returned ++ bytesOf s.world.up.queue = s.written

def UsOp.Fits : UsOp → Prop
  | .write timestamp seq frameNum status buf granted =>
    (Op.write .upstream timestamp seq frameNum status buf granted).Fits
  | .read _ => True

instance : (op : UsOp) → Decidable op.Fits
  | .write timestamp seq frameNum status buf granted =>
    inferInstanceAs (Decidable (Op.write .upstream timestamp seq frameNum status buf granted).Fits)
  | .read _ => .isTrue trivial

section

variable {w : World} {p : Packet} {queue : List Packet} {len : Nat}

theorem Packet.length_remaining (p : Packet) : p.remaining.length = p.remainLen := length_drop

theorem Packet.remaining_advance (h : len ≤ p.remainLen) :
    p.remaining.take len ++ (p.advance len).remaining = p.remaining := by
  have hdrop : (p.advance len).remaining = p.remaining.drop len := by
    simp only [remaining, advance, Nat.min_eq_left h, drop_drop]
  rw [hdrop, take_append_drop]

theorem mediaBufferProxyUsRead_nil (h : w.up.queue = []) :
    w.mediaBufferProxyUsRead len = (w, none) := by
  simp only [World.mediaBufferProxyUsRead, h]

theorem mediaBufferProxyUsRead_cons (h : w.up.queue = p :: queue) :
    ((w.mediaBufferProxyUsRead len).1.up.queue =
      if p.remainLen ≤ len then queue else p.advance len :: queue) ∧
    (w.mediaBufferProxyUsRead len).2 = some {
      data := p.remaining.take (min len p.remainLen)
      timestamp := p.timestamp
      seqNum := p.upperSeqNumber
      status := p.status
      frameNum := p.frameNumber } := by
  have hfind : (w.lane .upstream).queue.find? (·.ptr == p.ptr) = some p := by
    simp [World.lane, h]
  have hself : (p.ptr == p.ptr) = true := by simp
  have hread : (if len > p.remainLen then p.remainLen else len) = min len p.remainLen := by
    split <;> omega
  have hstep : w.mediaBufferProxyUsRead len =
      ((w.mediaBufferShrink p.ptr (min len p.remainLen) .upstream).1, some {
        data := p.remaining.take (min len p.remainLen)
        timestamp := p.timestamp
        seqNum := p.upperSeqNumber
        status := p.status
        frameNum := p.frameNumber }) := by
    simp only [World.mediaBufferProxyUsRead, h, hread]
  rw [hstep]
  refine ⟨?_, rfl⟩
  split
  . next hle =>
    rw [Nat.min_eq_right hle, World.mediaBufferShrink_all hfind (Nat.le_refl _)]
    simp only [World.mediaBufferPut, World.setLane, World.lane, h]
    exact eraseP_cons_of_pos hself
  . next hgt =>
    have hlt : len < p.remainLen := Nat.lt_of_not_le hgt
    rw [Nat.min_eq_left (Nat.le_of_lt hlt), World.mediaBufferShrink_part hfind hlt]
    simp only [World.setLane, World.lane, h]
    rw [First.modify, if_pos hself]

theorem readSound (w : World) (len : Nat) : ReadSound w len := by
  unfold ReadSound
  split
  . next h => exact mediaBufferProxyUsRead_nil h
  . next p queue h =>
    obtain ⟨hqueue, hresult⟩ := @mediaBufferProxyUsRead_cons w p queue len h
    refine ⟨_, hresult, ?_, take_prefix _ _, rfl, rfl, hqueue⟩
    rw [length_take, Packet.length_remaining]
    omega

end

section

variable {s : Stream} {op : UsOp}

theorem Stream.Faithful.step1 (h : s.Faithful) (hfits : op.Fits) :
    ∃ s', usStep1 s op = .ok s' ∧ s'.Faithful := by
  cases op with
  | write timestamp seq frameNum status buf granted =>
    simp only [usStep1, mediaBufferWrite_fits hfits]
    split
    . refine ⟨_, rfl, ?_⟩
      have hqueue : bytesOf (s.world.up.queue ++
          [s.world.newPacket timestamp seq frameNum status buf]) =
            bytesOf s.world.up.queue ++ buf := by
        simp [bytesOf, Packet.remaining, World.newPacket]
      simp only [Faithful] at h ⊢
      rw [take_length, ← h, append_assoc, ← hqueue]
      rfl
    . refine ⟨_, rfl, ?_⟩
      simpa [Faithful] using h
  | read len =>
    refine ⟨{ s with
      world := (s.world.mediaBufferProxyUsRead len).1
      returned := s.returned ++ ReadResult.bytes (s.world.mediaBufferProxyUsRead len).2 }, rfl, ?_⟩
    simp only [Faithful] at h ⊢
    cases hq : s.world.up.queue with
    | nil => rwa [mediaBufferProxyUsRead_nil hq, ReadResult.bytes, append_nil]
    | cons p queue =>
      obtain ⟨hqueue, hresult⟩ := @mediaBufferProxyUsRead_cons s.world p queue len hq
      rw [hqueue, hresult, ReadResult.bytes, ← h, hq, append_assoc]
      congr 1
      split
      . next hle =>
        rw [Nat.min_eq_right hle, ← Packet.length_remaining, take_length]
        rfl
      . next hgt =>
        have hle : len ≤ p.remainLen := Nat.le_of_lt (Nat.lt_of_not_le hgt)
        rw [Nat.min_eq_left hle]
        simp only [bytesOf, flatMap_cons]
        rw [← append_assoc, Packet.remaining_advance hle]

theorem usStep1_not_fits (h : ¬op.Fits) : usStep1 s op = .error .outOfBounds := by
  cases op with
  | write timestamp seq frameNum status buf granted =>
    simp only [UsOp.Fits, Op.Fits, Classical.not_imp, Nat.not_lt] at h
    obtain ⟨hget, hlen⟩ := h
    have hsize : World.packetSize buf.length <
        mediaDataHdrSize + audioPathDataHdrSize + buf.length :=
      Nat.lt_of_lt_of_le (Nat.mod_lt _ (by decide)) hlen
    simp only [usStep1, World.mediaBufferWrite, if_pos hget, if_pos hsize]
    rfl
  | read len => exact absurd trivial h

def FitsStep (s : Except Fault Stream) (op : UsOp) : Prop :=
  ∀ _ ∈ s.toOption, op.Fits
  deriving Decidable

theorem packetSize_wraps : World.packetSize 65500 = 8 := by
  decide

end

end MediaBuffer
