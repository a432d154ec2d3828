import Earphone.MediaBuffer.Basic

namespace MediaBuffer

def frames (queue : List Packet) : Nat := (queue.map fun p => p.frameNumber.toNat).sum

def Lane.Counted (lane : Lane) : Prop := lane.frameNum = frames lane.queue % 2 ^ 16

instance (lane : Lane) : Decidable lane.Counted := inferInstanceAs (Decidable (_ = _))

def World.FramesAgree (w : World) : Prop := ∀ d, (w.lane d).Counted

def Op.Counts (w : World) : Op → Prop
  | .shrink ptr len d =>
    ∀ p ∈ (w.lane d).queue.find? (·.ptr == ptr), p.remainLen ≤ len → p.frameNumber = 0
  | .usRead len => ∀ p ∈ w.up.queue.head?, p.remainLen ≤ len → p.frameNumber = 0
  | _ => True

instance (w : World) : (op : Op) → Decidable (op.Counts w)
  | .shrink ptr len d => inferInstanceAs (Decidable
      (∀ p ∈ (w.lane d).queue.find? (·.ptr == ptr), p.remainLen ≤ len → p.frameNumber = 0))
  | .usRead len => inferInstanceAs (Decidable
      (∀ p ∈ w.up.queue.head?, p.remainLen ≤ len → p.frameNumber = 0))
  | .write .. | .flush .. | .backupUpdate | .reset => .isTrue trivial

@[simp]
theorem frames_nil : frames [] = 0 := rfl

@[simp]
theorem frames_cons (p : Packet) (queue : List Packet) :
    frames (p :: queue) = p.frameNumber.toNat + frames queue := by
  simp [frames]

@[simp]
theorem frames_append (queue queue' : List Packet) :
    frames (queue ++ queue') = frames queue + frames queue' := by
  simp [frames]

theorem frames_eraseP (h : queue.find? f = some p) :
    frames queue = p.frameNumber.toNat + frames (queue.eraseP f) := by
  obtain ⟨hp, before, after, rfl, hbefore⟩ := List.find?_eq_some_iff_append.mp h
  have hnone : ∀ a ∈ before, ¬f a = true := fun a ha => by simpa using hbefore a ha
  rw [List.eraseP_append_right _ hnone, List.eraseP_cons_of_pos hp]
  simp only [frames_append, frames_cons]
  omega

theorem frames_modify (f : Packet → Bool) (len : Nat) (queue : List Packet) :
    frames (First.modify f (·.advance len) queue) = frames queue := by
  rw [frames, @First.map_modify _ _ f (·.advance len) (·.frameNumber.toNat) fun _ => rfl, frames]

theorem Lane.counted_empty {queue : List Packet} (h : queue = []) : Lane.Counted ⟨queue, 0⟩ := by
  rw [h]
  rfl

namespace World

variable {w w' : World} {d : Direction} {lane : Lane} {p : Packet}

theorem framesAgree_congr (h : ∀ d, w'.lane d = w.lane d) : w'.FramesAgree ↔ w.FramesAgree := by
  simp only [FramesAgree, h]

section

variable (h : w.FramesAgree)

include h

theorem FramesAgree.setLane_iff : (w.setLane lane d).FramesAgree ↔ lane.Counted := by
  constructor
  . intro h'
    have := h' d
    rwa [lane_setLane_self] at this
  . intro hlane d'
    by_cases hd : d' = d
    . rw [hd, lane_setLane_self]
      exact hlane
    . rw [lane_setLane_ne hd]
      exact h d'

theorem FramesAgree.flushOne : (w.flushOne d).FramesAgree := by
  cases hq : (w.lane d).queue with
  | nil => rwa [flushOne_nil hq]
  | cons p queue =>
    rw [flushOne_cons hq, framesAgree_congr fun _ => lane_dispose, h.setLane_iff]
    have hd := h d
    have hp := p.frameNumber.toNat_lt
    simp only [Lane.Counted, hq, frames_cons] at hd ⊢
    omega

theorem FramesAgree.mediaBufferFlush (cnt : Nat) : (w.mediaBufferFlush cnt d).FramesAgree :=
  flushLoop_inv (fun _ h => h.flushOne) h _

theorem FramesAgree.queueIn : (w.queueIn p d).FramesAgree := by
  have hagree : (w.queueIn p d).FramesAgree ↔ (w.setLane _ d).FramesAgree :=
    framesAgree_congr fun d' => by cases d' <;> rfl
  rw [hagree, h.setLane_iff]
  have hd := h d
  simp only [Lane.Counted, frames_append, frames_cons, frames_nil] at hd ⊢
  omega

theorem FramesAgree.mediaBufferShrink_iff (ptr len : Nat) :
    (w.mediaBufferShrink ptr len d).1.FramesAgree ↔ (Op.shrink ptr len d).Counts w := by
  have hd := h d
  cases hfind : (w.lane d).queue.find? (·.ptr == ptr) with
  | none =>
    rw [mediaBufferShrink_none hfind]
    exact iff_of_true h (by simp [Op.Counts, hfind])
  | some p =>
    simp only [Op.Counts, hfind, Option.mem_def, Option.some.injEq, forall_eq']
    by_cases hlen : p.remainLen ≤ len
    . -- the packet leaves the queue, the counter stays
      rw [mediaBufferShrink_all hfind hlen, framesAgree_congr fun _ => lane_mediaBufferPut,
        h.setLane_iff]
      have hlt := p.frameNumber.toNat_lt
      have hzero : p.frameNumber = 0 ↔ p.frameNumber.toNat = 0 := by
        rw [← UInt8.toNat_inj, UInt8.toNat_zero]
      have hframes := frames_eraseP hfind
      simp only [Lane.Counted, hlen, forall_const, hzero] at hd ⊢
      omega
    . rw [mediaBufferShrink_part hfind (Nat.lt_of_not_le hlen), h.setLane_iff]
      simp only [Lane.Counted, frames_modify]
      exact iff_of_true hd fun hle => absurd hle hlen

theorem FramesAgree.mediaBufferProxyUsRead_iff (len : Nat) :
    (w.mediaBufferProxyUsRead len).1.FramesAgree ↔ (Op.usRead len).Counts w := by
  unfold mediaBufferProxyUsRead Op.Counts
  cases hq : w.up.queue with
  | nil => simp [h]
  | cons p queue =>
    have hfind : (w.lane .upstream).queue.find? (·.ptr == p.ptr) = some p := by
      simp [lane, hq]
    simp only [h.mediaBufferShrink_iff, Op.Counts, hfind, Option.mem_def, Option.some.injEq,
      forall_eq', List.head?_cons]
    split
    . next hlt => simp only [Nat.le_refl, Nat.le_of_lt hlt]
    . rfl

end

theorem mediaBufferFlush_all (w : World) (d : Direction) :
    ((w.mediaBufferFlush (w.lane d).queue.length d).lane d).queue = [] := by
  rw [mediaBufferFlush, flushLoop_queue, Nat.min_self, List.drop_length]

theorem FramesAgree.mediaBufferReset (w : World) : w.mediaBufferReset.FramesAgree := by
  let w1 := w.mediaBufferFlush w.down.queue.length .downstream
  let w2 := w1.mediaBufferFlush w1.up.queue.length .upstream
  have hdown : (w2.lane .downstream).queue = [] := by
    rw [show w2.lane .downstream = w1.lane .downstream from flushLoop_lane_ne (by decide) _]
    exact mediaBufferFlush_all w .downstream
  have hup : (w2.lane .upstream).queue = [] := mediaBufferFlush_all w1 .upstream
  intro d
  rw [World.mediaBufferReset, lane_mediaBufferBackupUpdate]
  cases d with
  | downstream => exact Lane.counted_empty hdown
  | upstream => exact Lane.counted_empty hup

end World

section

variable {w : World} {op : Op}

theorem mediaBufferWrite_fits
    (h : (Op.write d timestamp seqNumber frameNumber status data granted).Fits) :
    w.mediaBufferWrite timestamp seqNumber frameNumber status d data granted =
      if World.mediaBufferGet (World.packetSize data.length) granted then
        .ok (w.queueIn (w.newPacket timestamp seqNumber frameNumber status data) d, data.length)
      else .ok (w, 0) := by
  unfold World.mediaBufferWrite
  split
  . next hget =>
    have hsize : World.packetSize data.length =
        mediaDataHdrSize + audioPathDataHdrSize + data.length := Nat.mod_eq_of_lt (h hget)
    rw [hsize, if_neg (Nat.lt_irrefl _)]
  . rfl

theorem framesAgree_step1 (h : w.FramesAgree) (hfits : op.Fits) :
    ∃ w', step1 w op = .ok w' ∧ (w'.FramesAgree ↔ op.Counts w) := by
  cases op with
  | write d timestamp seqNumber frameNumber status data granted =>
    rw [step1, mediaBufferWrite_fits hfits]
    split
    . exact ⟨_, rfl, iff_of_true h.queueIn trivial⟩
    . exact ⟨_, rfl, iff_of_true h trivial⟩
  | flush cnt d => exact ⟨_, rfl, iff_of_true (h.mediaBufferFlush cnt) trivial⟩
  | shrink ptr len d => exact ⟨_, rfl, h.mediaBufferShrink_iff ptr len⟩
  | usRead len => exact ⟨_, rfl, h.mediaBufferProxyUsRead_iff len⟩
  | backupUpdate =>
    refine ⟨_, rfl, iff_of_true ?_ trivial⟩
    exact (World.framesAgree_congr fun _ => World.lane_mediaBufferBackupUpdate).mpr h
  | reset => exact ⟨_, rfl, iff_of_true (World.FramesAgree.mediaBufferReset w) trivial⟩

def CountsStep (w : Except Fault World) (op : Op) : Prop :=
  ∀ w' ∈ w.toOption, op.Fits ∧ op.Counts w'
  deriving Decidable

end

end MediaBuffer
