import Earphone.MediaBuffer.Stream

namespace MediaBuffer

inductive BufferState where
  | idle
  | prequeue
  | sync
  | play
  deriving DecidableEq

inductive Exc where
  | packetLost
  | full

def maxPlcExcCnt : Nat := 1

def statusLost : Nat := 2

inductive Notice where
  | exception (exc : Exc)
  | lostPacket (count : UInt8)
  | levelHigh
  | bufferWrite

structure Downstream where
  world : World
  state : BufferState
  lastSeq : UInt16
  lastTs : Nat
  lastSeqUpdated : Bool
  upperThresholdMs : Nat
  exception : Option Exc

structure DsPacket where
  timestamp : Nat
  seq : UInt16
  status : Nat
  frameNum : UInt8
  buf : List UInt8

structure DsResult where
  buffer : Downstream
  ok : Bool
  writtenLen : Nat
  notices : List Notice

namespace Downstream

variable (e : Downstream)

def flush : Downstream :=
  { e with world := e.world.mediaBufferFlush e.world.down.queue.length .downstream }

def mediaBufferReset : Downstream :=
  { e with
    world := e.world.mediaBufferReset
    state := .idle
    lastSeq := 0
    lastSeqUpdated := false }

def bufferReset : Downstream :=
  match e.state with
  | .idle | .prequeue => e
  | .sync | .play => e.mediaBufferReset

def audioMgrException (exc : Exc) : Downstream :=
  let e := { e with exception := some exc }
  match exc with
  | .full => e.flush.bufferReset
  | .packetLost =>
    if e.state = .idle then e
    else if e.state = .prequeue then { e.flush with lastSeqUpdated := false }.bufferReset
    else e.bufferReset

def Unfilled : Prop := e.world.mode = .ultraLowLatency ∨ e.world.mode = .direct

instance : Decidable e.Unfilled := inferInstanceAs (Decidable (_ ∨ _))

def dupFlag (lastSeq seq : UInt16) : UInt8 := (seq - (lastSeq + 1)).toUInt8

def checkSeq (maxPlcCount : Nat) (p : DsPacket) :
    Except (Downstream × List Notice) (Downstream × UInt8 × List Notice) :=
  let updated := { e with lastSeq := p.seq, lastTs := p.timestamp }
  if e.lastSeqUpdated = false then
    .ok ({ updated with lastSeqUpdated := true }, 0, [])
  else if p.seq = e.lastSeq then
    .error (e, [])
  else if e.lastSeq + 1 ≠ p.seq then
    let dup := dupFlag e.lastSeq p.seq
    if dup.toNat ≥ maxPlcCount + maxPlcExcCnt ∧ ¬e.Unfilled ∧ e.world.streamType ≠ .voice then
      .error (e.audioMgrException .packetLost, [.exception .packetLost])
    else
      .ok (updated, if dup.toNat > maxPlcCount then UInt8.ofNat maxPlcCount else dup,
        [.lostPacket dup])
  else
    .ok (updated, 0, [])

def lostLoop (p : DsPacket) (granted : Nat → Bool) : (n k : Nat) → World → Except Fault World
  | 0, _, w => .ok w
  | n + 1, k, w => do
    let r ← w.mediaBufferWrite p.timestamp p.seq.toNat p.frameNum statusLost .downstream p.buf
      (granted k)
    lostLoop p granted n (k + 1) r.1

def mediaBufferProxyDsWrite (maxPlcCount : Nat) (level : Nat → Nat) (granted : Nat → Bool)
    (p : DsPacket) : Except Fault DsResult :=
  match e.checkSeq maxPlcCount p with
  | .error (e, notices) => .ok { buffer := e, ok := false, writtenLen := 0, notices }
  | .ok (e, dup, notices) => do
    let copies := if e.state = .play ∧ ¬e.Unfilled then dup.toNat else 0
    let bufferLevel := if e.state = .play then level e.world.down.frameNum else 0
    let w ← lostLoop p granted copies 0 e.world
    let r ← w.mediaBufferWrite p.timestamp p.seq.toNat p.frameNum p.status .downstream p.buf
      (granted copies)
    let e := { e with world := r.1 }
    if World.mediaBufferGet (World.packetSize p.buf.length) (granted copies) = false then
      return {
        buffer := e.audioMgrException .full
        ok := false
        writtenLen := 0
        notices := notices ++ [.exception .full] }
    else
      let high := e.state = .play ∧ e.world.mode = .normal ∧ bufferLevel < e.upperThresholdMs ∧
        e.upperThresholdMs ≤ level e.world.down.frameNum
      return {
        buffer := e
        ok := true
        writtenLen := r.2
        notices := notices ++ (if high then [.levelHigh] else []) ++ [.bufferWrite] }

def gap (lastSeq seq : UInt16) : Nat := (seq - lastSeq - 1).toNat

def Exceeds (maxPlcCount : Nat) (seq : UInt16) : Prop :=
  maxPlcCount + maxPlcExcCnt ≤ gap e.lastSeq seq ∧ ¬e.Unfilled ∧ e.world.streamType ≠ .voice
  deriving Decidable

structure IsCopy (p : DsPacket) (status : Nat) (x : Packet) : Prop where
  timestamp : x.timestamp = p.timestamp
  seq : x.upperSeqNumber = p.seq.toNat
  frameNum : x.frameNumber = p.frameNum
  status : x.status = status
  payload : x.payload = p.buf
  readOffset : x.readOffset = 0

def PoolGives (granted : Nat → Bool) (p : DsPacket) : Prop :=
  (∀ i, granted i = true) ∧ mediaDataHdrSize + audioPathDataHdrSize + p.buf.length < 2 ^ 16

variable {e} {p : DsPacket} {maxPlcCount : Nat} {granted : Nat → Bool} {w : World} {status : Nat}

theorem mediaBufferGet_gives (h : PoolGives granted p) (k : Nat) :
    World.mediaBufferGet (World.packetSize p.buf.length) (granted k) = true := by
  obtain ⟨hgranted, hlen⟩ := h
  unfold World.mediaBufferGet World.packetSize
  rw [hgranted, Nat.mod_eq_of_lt hlen]
  simp [mediaDataHdrSize, audioPathDataHdrSize]

theorem write_gives (h : PoolGives granted p) (k : Nat) :
    w.mediaBufferWrite p.timestamp p.seq.toNat p.frameNum status .downstream p.buf (granted k) =
      .ok (w.queueIn (w.newPacket p.timestamp p.seq.toNat p.frameNum status p.buf) .downstream,
        p.buf.length) := by
  rw [mediaBufferWrite_fits fun _ => h.2, if_pos (mediaBufferGet_gives h k)]

theorem isCopy_newPacket :
    IsCopy p status (w.newPacket p.timestamp p.seq.toNat p.frameNum status p.buf) :=
  ⟨rfl, rfl, rfl, rfl, rfl, rfl⟩

theorem lostLoop_gives (h : PoolGives granted p) (n k : Nat) : ∃ w' lost,
    lostLoop p granted n k w = .ok w' ∧ w'.down.queue = w.down.queue ++ lost ∧
    lost.length = n ∧ ∀ x ∈ lost, IsCopy p statusLost x := by
  induction n generalizing k w with
  | zero => exact ⟨w, [], rfl, (List.append_nil _).symm, rfl, nofun⟩
  | succ n ih =>
    obtain ⟨w', lost, hloop, hqueue, hlen, hcopy⟩ := @ih
      (w.queueIn (w.newPacket p.timestamp p.seq.toNat p.frameNum statusLost p.buf) .downstream)
      (k + 1)
    refine ⟨w', w.newPacket p.timestamp p.seq.toNat p.frameNum statusLost p.buf :: lost, ?_, ?_, ?_,
      List.forall_mem_cons.mpr ⟨isCopy_newPacket, hcopy⟩⟩
    . rw [lostLoop, write_gives h k]
      exact hloop
    . rw [hqueue]
      exact List.append_assoc ..
    . rw [List.length_cons, hlen]

theorem dupFlag_eq (lastSeq seq : UInt16) :
    (dupFlag lastSeq seq).toNat = gap lastSeq seq % 256 := by
  unfold dupFlag gap
  rw [UInt16.toNat_toUInt8]
  congr 2
  grind

theorem gap_self (seq : UInt16) : gap seq seq = 65535 := by
  unfold gap
  rw [UInt16.sub_self]
  rfl

theorem gap_eq_zero {lastSeq seq : UInt16} : gap lastSeq seq = 0 ↔ lastSeq + 1 = seq := by
  unfold gap
  rw [← UInt16.toNat_zero, UInt16.toNat_inj]
  grind

theorem checkSeq_self (h : e.lastSeqUpdated = true) (hseq : p.seq = e.lastSeq) :
    e.checkSeq maxPlcCount p = .error (e, []) := by
  unfold checkSeq
  dsimp only
  rw [if_neg (by simp [h]), if_pos hseq]

theorem seq_ne (hgap : gap e.lastSeq p.seq < 256) : p.seq ≠ e.lastSeq := by
  intro heq
  rw [heq, gap_self] at hgap
  omega

theorem checkSeq_exceeds (h : e.lastSeqUpdated = true) (hgap : gap e.lastSeq p.seq < 256)
    (hexceeds : e.Exceeds maxPlcCount p.seq) :
    e.checkSeq maxPlcCount p =
      .error (e.audioMgrException .packetLost, [.exception .packetLost]) := by
  obtain ⟨hmany, hmode, htype⟩ := hexceeds
  have hdup := dupFlag_eq e.lastSeq p.seq
  rw [Nat.mod_eq_of_lt hgap] at hdup
  have hnext : e.lastSeq + 1 ≠ p.seq := by
    rw [Ne, ← gap_eq_zero]
    unfold maxPlcExcCnt at hmany
    omega
  unfold checkSeq
  dsimp only
  rw [if_neg (by simp [h]), if_neg (seq_ne hgap), if_pos hnext, hdup,
    if_pos ⟨hmany, hmode, htype⟩]

theorem checkSeq_fills (h : e.lastSeqUpdated = true) (hgap : gap e.lastSeq p.seq < 256)
    (hpos : 0 < gap e.lastSeq p.seq) (hexceeds : ¬e.Exceeds maxPlcCount p.seq) : ∃ dup : UInt8,
    e.checkSeq maxPlcCount p = .ok ({ e with lastSeq := p.seq, lastTs := p.timestamp }, dup,
      [.lostPacket (dupFlag e.lastSeq p.seq)]) ∧
    dup.toNat = min (gap e.lastSeq p.seq) maxPlcCount := by
  have hdup := dupFlag_eq e.lastSeq p.seq
  rw [Nat.mod_eq_of_lt hgap] at hdup
  have hnext : e.lastSeq + 1 ≠ p.seq := by
    rw [Ne, ← gap_eq_zero]
    omega
  refine ⟨if gap e.lastSeq p.seq > maxPlcCount then UInt8.ofNat maxPlcCount
    else dupFlag e.lastSeq p.seq, ?_, ?_⟩
  . unfold checkSeq
    dsimp only
    rw [if_neg (by simp [h]), if_neg (seq_ne hgap), if_pos hnext, hdup]
    exact if_neg hexceeds
  . split
    . next hmore =>
      rw [UInt8.toNat_ofNat', Nat.mod_eq_of_lt (by omega), Nat.min_eq_right (by omega)]
    . next hless => rw [hdup, Nat.min_eq_left (by omega)]

theorem queue_flushAll (w : World) :
    (w.mediaBufferFlush w.down.queue.length .downstream).down.queue = [] := by
  have hflush := @World.flushLoop_queue w .downstream (min w.down.queue.length w.down.queue.length)
  exact hflush.trans (List.drop_eq_nil_of_le (Nat.le_of_eq (Nat.min_self _).symm))

theorem queue_mediaBufferReset (w : World) : w.mediaBufferReset.down.queue = [] := by
  have hdown := queue_flushAll w
  unfold World.mediaBufferReset
  dsimp only
  generalize w.mediaBufferFlush w.down.queue.length .downstream = w1 at *
  have hup : (w1.mediaBufferFlush w1.up.queue.length .upstream).down = w1.down :=
    @World.flushLoop_lane_ne w1 .upstream .downstream nofun _
  generalize w1.mediaBufferFlush w1.up.queue.length .upstream = w2 at *
  have hbackup := @World.lane_mediaBufferBackupUpdate
    { w2 with down := { w2.down with frameNum := 0 }, up := { w2.up with frameNum := 0 } }
    .downstream none
  have hqueue := congrArg Lane.queue hbackup
  exact hqueue.trans ((congrArg Lane.queue hup).trans hdown)

theorem audioMgrException_packetLost (e : Downstream) :
    (e.state = .idle → e.audioMgrException .packetLost = { e with exception := some .packetLost }) ∧
    (e.state = .prequeue → (e.audioMgrException .packetLost).world.down.queue = [] ∧
      (e.audioMgrException .packetLost).lastSeq = e.lastSeq ∧
      (e.audioMgrException .packetLost).lastSeqUpdated = false) ∧
    (e.state = .sync ∨ e.state = .play →
      (e.audioMgrException .packetLost).world.down.queue = [] ∧
      (e.audioMgrException .packetLost).lastSeqUpdated = false ∧
      (e.audioMgrException .packetLost).state = .idle) := by
  refine ⟨fun h => ?_, fun h => ?_, fun h => ?_⟩
  . simp [audioMgrException, h]
  . have hflush : (e.audioMgrException .packetLost) =
        { ({ e with exception := some .packetLost } : Downstream).flush with
          lastSeqUpdated := false } := by
      simp [audioMgrException, bufferReset, flush, h]
    rw [hflush]
    exact ⟨queue_flushAll e.world, rfl, rfl⟩
  . have hreset : (e.audioMgrException .packetLost) =
        ({ e with exception := some .packetLost } : Downstream).mediaBufferReset := by
      obtain h | h := h <;> simp [audioMgrException, bufferReset, h]
    rw [hreset]
    exact ⟨queue_mediaBufferReset e.world, rfl, rfl⟩

section

variable {level : Nat → Nat}

theorem mediaBufferProxyDsWrite_fills (hpool : PoolGives granted p) {e' : Downstream} {dup : UInt8}
    {notices : List Notice} (hcheck : e.checkSeq maxPlcCount p = .ok (e', dup, notices)) :
    ∃ r lost x, e.mediaBufferProxyDsWrite maxPlcCount level granted p = .ok r ∧ r.ok = true ∧
      r.buffer.lastSeq = e'.lastSeq ∧
      r.buffer.world.down.queue = e'.world.down.queue ++ lost ++ [x] ∧
      lost.length = (if e'.state = .play ∧ ¬e'.Unfilled then dup.toNat else 0) ∧
      (∀ y ∈ lost, IsCopy p statusLost y) ∧ IsCopy p p.status x := by
  obtain ⟨w, lost, hloop, hqueue, hlen, hcopy⟩ := @lostLoop_gives p granted e'.world hpool
    (if e'.state = .play ∧ ¬e'.Unfilled then dup.toNat else 0) 0
  have hgives := mediaBufferGet_gives hpool
    (if e'.state = .play ∧ ¬e'.Unfilled then dup.toNat else 0)
  let x := w.newPacket p.timestamp p.seq.toNat p.frameNum p.status p.buf
  have hwrite : ∃ notices', e.mediaBufferProxyDsWrite maxPlcCount level granted p = .ok {
      buffer := { e' with world := w.queueIn x .downstream }
      ok := true
      writtenLen := p.buf.length
      notices := notices' } := by
    unfold mediaBufferProxyDsWrite
    rw [hcheck]
    dsimp only
    rw [hloop]
    simp only [bind, Except.bind]
    rw [write_gives hpool]
    dsimp only
    rw [if_neg (by simp [hgives])]
    exact ⟨_, rfl⟩
  obtain ⟨notices', hwrite⟩ := hwrite
  refine ⟨_, lost, x, hwrite, rfl, rfl, ?_, hlen, hcopy, isCopy_newPacket⟩
  rw [← hqueue]
  rfl

theorem media_buffer_proxy_ds_write_gap (maxPlcCount : Nat) (level : Nat → Nat)
    (granted : Nat → Bool) (e : Downstream) (p : DsPacket) (hupdated : e.lastSeqUpdated = true) :
    (p.seq = e.lastSeq → e.mediaBufferProxyDsWrite maxPlcCount level granted p = .ok {
      buffer := e
      ok := false
      writtenLen := 0
      notices := [] }) ∧
    (gap e.lastSeq p.seq < 256 → e.Exceeds maxPlcCount p.seq →
      e.mediaBufferProxyDsWrite maxPlcCount level granted p = .ok {
        buffer := e.audioMgrException .packetLost
        ok := false
        writtenLen := 0
        notices := [.exception .packetLost] } ∧
      (e.state = .idle →
        e.audioMgrException .packetLost = { e with exception := some .packetLost }) ∧
      (e.state = .prequeue → (e.audioMgrException .packetLost).world.down.queue = [] ∧
        (e.audioMgrException .packetLost).lastSeq = e.lastSeq ∧
        (e.audioMgrException .packetLost).lastSeqUpdated = false) ∧
      (e.state = .sync ∨ e.state = .play →
        (e.audioMgrException .packetLost).world.down.queue = [] ∧
        (e.audioMgrException .packetLost).lastSeqUpdated = false ∧
        (e.audioMgrException .packetLost).state = .idle)) ∧
    (0 < gap e.lastSeq p.seq → gap e.lastSeq p.seq < 256 → ¬e.Exceeds maxPlcCount p.seq →
      e.state = .play → PoolGives granted p →
      ∃ r lost x, e.mediaBufferProxyDsWrite maxPlcCount level granted p = .ok r ∧ r.ok = true ∧
        r.buffer.lastSeq = p.seq ∧
        r.buffer.world.down.queue = e.world.down.queue ++ lost ++ [x] ∧
        lost.length = (if e.Unfilled then 0 else min (gap e.lastSeq p.seq) maxPlcCount) ∧
        (∀ y ∈ lost, IsCopy p statusLost y) ∧ IsCopy p p.status x) := by
  refine ⟨fun hseq => ?_, fun hgap hexceeds => ⟨?_, audioMgrException_packetLost e⟩,
    fun hpos hgap hexceeds hplay hpool => ?_⟩
  . unfold mediaBufferProxyDsWrite
    rw [checkSeq_self hupdated hseq]
  . unfold mediaBufferProxyDsWrite
    rw [checkSeq_exceeds hupdated hgap hexceeds]
  . obtain ⟨dup, hcheck, hdup⟩ := checkSeq_fills hupdated hgap hpos hexceeds
    obtain ⟨r, lost, x, hwrite, hok, hlast, hqueue, hlen, hcopies, hcopy⟩ :=
      @mediaBufferProxyDsWrite_fills e p maxPlcCount granted level hpool _ _ _ hcheck
    refine ⟨r, lost, x, hwrite, hok, hlast, hqueue, ?_, hcopies, hcopy⟩
    rw [hlen]
    by_cases hmode : e.Unfilled
    . rw [if_pos hmode]
      exact if_neg fun h => h.2 hmode
    . rw [if_neg hmode, ← hdup]
      exact if_pos ⟨hplay, hmode⟩

def playing : Downstream where
  world := (mediaBufferConstruct .playback .normal).queueIn
    ((mediaBufferConstruct .playback .normal).newPacket 0 9 1 0 [1]) .downstream
  state := .play
  lastSeq := 9
  lastTs := 0
  lastSeqUpdated := true
  upperThresholdMs := 100
  exception := none

theorem media_buffer_proxy_ds_write_gap_playing : ∃ r lost x,
    playing.mediaBufferProxyDsWrite 4 id (fun _ => true) ⟨0, 12, 0, 1, [2]⟩ = .ok r ∧
      r.buffer.world.down.queue = playing.world.down.queue ++ lost ++ [x] ∧ lost.length = 2 := by
  obtain ⟨-, -, hfills⟩ := media_buffer_proxy_ds_write_gap 4 id (fun _ => true) playing
    ⟨0, 12, 0, 1, [2]⟩ rfl
  obtain ⟨r, lost, x, hwrite, -, -, hqueue, hlen, -⟩ := hfills (by decide) (by decide) (by decide)
    rfl ⟨fun _ => rfl, by decide⟩
  exact ⟨r, lost, x, hwrite, hqueue, hlen⟩

theorem not_media_buffer_proxy_ds_write_gap :
    (gap 9 9 = 65535 ∧ playing.mediaBufferProxyDsWrite 4 id (fun _ => true) ⟨0, 9, 0, 1, [2]⟩ =
      .ok { buffer := playing, ok := false, writtenLen := 0, notices := [] }) ∧
    gap 9 20 = 10 ∧ ∃ r, playing.mediaBufferProxyDsWrite 4 id (fun _ => true) ⟨0, 20, 0, 1, [2]⟩ =
      .ok r ∧ r.buffer.world.down.queue ≠ playing.world.down.queue := by
  exact ⟨⟨by decide, rfl⟩, by decide, _, rfl, by decide⟩

end

end Downstream

end MediaBuffer
