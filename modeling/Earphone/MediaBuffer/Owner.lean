import Earphone.MediaBuffer.Frames

namespace MediaBuffer

open List

def holding (queue : List Packet) (ptr : Nat) : Nat := queue.countP (·.ptr == ptr)

namespace World

def placesOf (w : World) (ptr : Nat) : Nat :=
  holding w.down.queue ptr + holding w.up.queue ptr + holding w.lastPacketPtr.toList ptr +
    holding (w.freed.map (·.2)) ptr

def RightPool (w : World) : Prop := ∀ x ∈ w.freed, x.1 = x.2.pool

structure Held (w : World) : Prop where
  once : ∀ ptr, w.placesOf ptr = if ptr < w.allocated then 1 else 0
  queued : ∀ d, ∀ p ∈ (w.lane d).queue, p.pool = w.poolHandle
  backup : ∀ p ∈ w.lastPacketPtr, p.pool = w.poolHandle
  handle : w.poolHandle = w.streamType.poolHandle

def FlushRight (w : World) (n : Nat) : Prop :=
  w.streamType = .playback ∨ ¬w.mode.BacksUp ∨ n = 0 ∨ n = 1 ∧ w.lastPacketPtr = none
  deriving Decidable

end World

def Op.PutsRight (w : World) : Op → Prop
  | .flush cnt d => w.FlushRight (min cnt (w.lane d).queue.length)
  | .backupUpdate => w.streamType = .playback ∨ w.lastPacketPtr = none
  | .reset =>
    w.streamType = .playback ∨
      w.lastPacketPtr = none ∧ (¬w.mode.BacksUp ∨ w.down.queue = [] ∧ w.up.queue = [])
  | _ => True

instance (w : World) : (op : Op) → Decidable (op.PutsRight w)
  | .flush .. => inferInstanceAs (Decidable (w.FlushRight _))
  | .backupUpdate | .reset => instDecidableOr
  | .write .. | .shrink .. | .usRead _ => .isTrue trivial

section

variable {p : Packet} {queue queue' : List Packet} {ptr : Nat}

theorem holding_append : holding (queue ++ queue') ptr = holding queue ptr + holding queue' ptr :=
  countP_append

theorem holding_cons : holding (p :: queue) ptr = holding [p] ptr + holding queue ptr := by
  rw [← singleton_append, holding_append]

theorem holding_eraseP (h : queue.find? f = some p) :
    holding queue ptr = holding [p] ptr + holding (queue.eraseP f) ptr := by
  obtain ⟨hp, before, after, rfl, hbefore⟩ := find?_eq_some_iff_append.mp h
  have hnone : ∀ a ∈ before, ¬f a = true := fun a ha => by simpa using hbefore a ha
  rw [eraseP_append_right _ hnone, eraseP_cons_of_pos hp, holding_append, holding_append,
    @holding_cons p after]
  omega

theorem holding_modify (f : Packet → Bool) (len : Nat) :
    holding (First.modify f (·.advance len) queue) ptr = holding queue ptr := by
  have hptrs : ∀ q : List Packet, holding q ptr = (q.map (·.ptr)).countP (· == ptr) := fun q => by
    rw [countP_map]
    rfl
  rw [hptrs, @First.map_modify _ _ f (·.advance len) (·.ptr) fun _ => rfl, hptrs]

end

namespace World

variable {w w' : World} {d : Direction} {lane : Lane} {p : Packet} {pool : PoolHandle} {ptr : Nat}

theorem placesOf_setLane :
    (w.setLane lane d).placesOf ptr + holding (w.lane d).queue ptr =
      w.placesOf ptr + holding lane.queue ptr := by
  cases d <;> simp only [placesOf, setLane, World.lane] <;> omega

theorem placesOf_mediaBufferPut :
    (w.mediaBufferPut pool p).placesOf ptr = w.placesOf ptr + holding [p] ptr := by
  simp only [placesOf, mediaBufferPut, map_append, map_cons, map_nil,
    holding_append]
  omega

theorem placesOf_mediaBufferBackupUpdate :
    (w.mediaBufferBackupUpdate p?).placesOf ptr = w.placesOf ptr + holding p?.toList ptr := by
  unfold mediaBufferBackupUpdate
  split
  . next last hlast =>
    simp only [placesOf, setBackup, mediaBufferPut, map_append, map_cons, map_nil,
      holding_append, hlast, Option.toList_some]
    omega
  . next hlast =>
    simp only [placesOf, setBackup, hlast, Option.toList_none, holding, countP_nil]
    omega

theorem placesOf_dispose : (w.dispose p).placesOf ptr = w.placesOf ptr + holding [p] ptr := by
  unfold dispose
  split
  . rw [placesOf_mediaBufferBackupUpdate, Option.toList_some]
  . rw [placesOf_mediaBufferPut]

def Same (w w' : World) : Prop :=
  w'.streamType = w.streamType ∧ w'.mode = w.mode ∧ w'.poolHandle = w.poolHandle ∧
    w'.allocated = w.allocated

theorem same_setLane : w.Same (w.setLane lane d) := by
  simp [Same]

theorem Same.trans (h : w.Same w') (h' : w'.Same w'') : w.Same w'' := by
  obtain ⟨h1, h2, h3, h4⟩ := h
  obtain ⟨h1', h2', h3', h4'⟩ := h'
  exact ⟨h1'.trans h1, h2'.trans h2, h3'.trans h3, h4'.trans h4⟩

theorem same_mediaBufferBackupUpdate {p? : Option Packet} :
    w.Same (w.mediaBufferBackupUpdate p?) := by
  unfold mediaBufferBackupUpdate
  split <;> exact ⟨rfl, rfl, rfl, rfl⟩

theorem same_dispose : w.Same (w.dispose p) := by
  unfold dispose
  split
  . exact same_mediaBufferBackupUpdate
  . exact ⟨rfl, rfl, rfl, rfl⟩

@[simp]
theorem mediaBufferBackupUpdate_lastPacketPtr :
    (w.mediaBufferBackupUpdate p?).lastPacketPtr = p? := by
  unfold mediaBufferBackupUpdate
  split <;> rfl

theorem dispose_lastPacketPtr :
    (w.dispose p).lastPacketPtr = if w.mode.BacksUp then some p else w.lastPacketPtr := by
  unfold dispose
  split
  . exact mediaBufferBackupUpdate_lastPacketPtr
  . rfl

theorem rightPool_put : (w.mediaBufferPut pool p).RightPool ↔ w.RightPool ∧ pool = p.pool := by
  simp only [RightPool, mediaBufferPut, forall_mem_append, forall_mem_singleton]

theorem rightPool_backupUpdate :
    (w.mediaBufferBackupUpdate p?).RightPool ↔
      w.RightPool ∧ ∀ last ∈ w.lastPacketPtr, .playback = last.pool := by
  unfold mediaBufferBackupUpdate
  split
  . next last hlast =>
    have hset : ((w.mediaBufferPut .playback last).setBackup p?).RightPool ↔
        (w.mediaBufferPut .playback last).RightPool := Iff.rfl
    simp [hset, rightPool_put, hlast]
  . next hlast =>
    have hset : (w.setBackup p?).RightPool ↔ w.RightPool := Iff.rfl
    simp [hset, hlast]

theorem rightPool_setLane : (w.setLane lane d).RightPool ↔ w.RightPool := by
  simp only [RightPool, setLane_freed]

section

variable (h : w.Held)

include h

theorem Held.move {queue : List Packet} {frameNum : Nat} (hsame : w.Same w')
    (hlane : ∀ d', w'.lane d' = (w.setLane ⟨queue, frameNum⟩ d).lane d')
    (hsub : ∀ x ∈ queue, x ∈ (w.lane d).queue)
    (hplaces : ∀ ptr, w'.placesOf ptr = (w.setLane ⟨queue, frameNum⟩ d).placesOf ptr +
      holding [p] ptr)
    (hqueue : ∀ ptr, holding (w.lane d).queue ptr = holding [p] ptr + holding queue ptr)
    (hback : ∀ x ∈ w'.lastPacketPtr, x = p ∨ x ∈ w.lastPacketPtr)
    (hp : p ∈ (w.lane d).queue) : w'.Held := by
  obtain ⟨htype, -, hpool, halloc⟩ := hsame
  refine ⟨fun ptr => ?_, fun d' x hx => ?_, fun x hx => ?_, ?_⟩
  . have hset := @placesOf_setLane w d ⟨queue, frameNum⟩ ptr
    have honce := h.once ptr
    rw [hqueue] at hset
    rw [halloc, ← honce, hplaces]
    dsimp only at hset
    omega
  . rw [hpool]
    rw [hlane] at hx
    by_cases hd : d' = d
    . rw [hd, lane_setLane_self] at hx
      exact h.queued d x (hsub x hx)
    . rw [lane_setLane_ne hd] at hx
      exact h.queued d' x hx
  . rw [hpool]
    obtain rfl | hx := hback x hx
    . exact h.queued d x hp
    . exact h.backup x hx
  . rw [hpool, htype]
    exact h.handle

theorem Held.flushOne : (w.flushOne d).Held := by
  cases hq : (w.lane d).queue with
  | nil => rwa [flushOne_nil hq]
  | cons p queue =>
    rw [flushOne_cons hq]
    refine @Held.move w _ d p h queue _ (same_setLane.trans same_dispose) (fun _ => lane_dispose)
      (fun x hx => by rw [hq]; exact mem_cons_of_mem _ hx) (fun _ => placesOf_dispose)
      (fun ptr => by rw [hq]; exact holding_cons) (fun x hx => ?_)
      (by rw [hq]; exact mem_cons_self)
    rw [dispose_lastPacketPtr, setLane_lastPacketPtr] at hx
    split at hx
    . exact .inl (Option.some.inj hx).symm
    . exact .inr hx

theorem Held.flushLoop (n : Nat) : (w.flushLoop d n).Held :=
  flushLoop_inv (fun _ h => h.flushOne) h n

theorem Held.backupUpdate : (w.mediaBufferBackupUpdate none).Held := by
  obtain ⟨htype, -, hpool, halloc⟩ := @same_mediaBufferBackupUpdate w none
  refine ⟨fun ptr => ?_, fun d => ?_, fun x hx => ?_, ?_⟩
  . rw [placesOf_mediaBufferBackupUpdate, halloc]
    exact h.once ptr
  . rw [lane_mediaBufferBackupUpdate, hpool]
    exact h.queued d
  . rw [mediaBufferBackupUpdate_lastPacketPtr] at hx
    cases hx
  . rw [hpool, htype]
    exact h.handle

theorem Held.queueIn (hptr : p.ptr = w.allocated) (hpool : p.pool = w.poolHandle) :
    (w.queueIn p d).Held := by
  refine ⟨fun ptr => ?_, fun d' x hx => ?_, fun x hx => ?_, ?_⟩
  . have honce := h.once ptr
    have hadd : (w.queueIn p d).placesOf ptr = w.placesOf ptr + holding [p] ptr := by
      cases d <;> simp only [placesOf, World.queueIn, setLane, World.lane, holding_append] <;> omega
    have halloc : (w.queueIn p d).allocated = w.allocated + 1 := rfl
    have hone : holding [p] ptr = if ptr = w.allocated then 1 else 0 := by
      by_cases hp : ptr = w.allocated
      . simp [holding, hptr, hp]
      . simp [holding, hptr, hp, Ne.symm hp]
    rw [hadd, honce, hone, halloc]
    split <;> split <;> split <;> omega
  . have hpool' : (w.queueIn p d).poolHandle = w.poolHandle := by cases d <;> rfl
    rw [hpool']
    have hmem : x ∈ (w.lane d').queue ∨ x = p := by
      cases d <;> cases d' <;> simp only [World.queueIn, setLane, World.lane, mem_append,
        mem_singleton] at hx ⊢ <;> first | exact hx | exact .inl hx
    obtain hx | rfl := hmem
    . exact h.queued d' x hx
    . exact hpool
  . have hlast : (w.queueIn p d).lastPacketPtr = w.lastPacketPtr := by cases d <;> rfl
    have hpool' : (w.queueIn p d).poolHandle = w.poolHandle := by cases d <;> rfl
    rw [hpool']
    rw [hlast] at hx
    exact h.backup x hx
  . cases d <;> exact h.handle

theorem Held.shrink (ptr len : Nat) : (w.mediaBufferShrink ptr len d).1.Held := by
  cases hfind : (w.lane d).queue.find? (·.ptr == ptr) with
  | none => rwa [mediaBufferShrink_none hfind]
  | some p =>
    have hp := mem_of_find?_eq_some hfind
    by_cases hlen : p.remainLen ≤ len
    . rw [mediaBufferShrink_all hfind hlen]
      refine @Held.move w _ d p h ((w.lane d).queue.eraseP (·.ptr == ptr)) _
        (same_setLane.trans ⟨rfl, rfl, rfl, rfl⟩) (fun _ => lane_mediaBufferPut)
        (fun x hx => mem_of_mem_eraseP hx) (fun _ => placesOf_mediaBufferPut)
        (fun _ => holding_eraseP hfind) (fun x hx => ?_) hp
      exact .inr (by simpa [mediaBufferPut] using hx)
    . rw [mediaBufferShrink_part hfind (Nat.lt_of_not_le hlen)]
      refine ⟨fun a => ?_, fun d' x hx => ?_, fun x hx => ?_, ?_⟩
      . have hset := @placesOf_setLane w d { w.lane d with
          queue := First.modify (·.ptr == ptr) (·.advance len) (w.lane d).queue } a
        rw [holding_modify] at hset
        rw [Nat.add_right_cancel hset, setLane_allocated]
        exact h.once a
      . rw [setLane_poolHandle]
        by_cases hd : d' = d
        . rw [hd, lane_setLane_self] at hx
          have hpools := @First.map_modify _ _ (·.ptr == ptr) (·.advance len) Packet.pool
            (fun _ => rfl) (w.lane d).queue
          have hmem := mem_map_of_mem (f := Packet.pool) hx
          rw [hpools] at hmem
          obtain ⟨y, hy, hxy⟩ := mem_map.mp hmem
          rw [← hxy]
          exact h.queued d y hy
        . rw [lane_setLane_ne hd] at hx
          exact h.queued d' x hx
      . rw [setLane_lastPacketPtr] at hx
        rw [setLane_poolHandle]
        exact h.backup x hx
      . rw [setLane_poolHandle, setLane_streamType]
        exact h.handle

theorem Held.flush (n : Nat) : (w.mediaBufferFlush n d).Held := h.flushLoop _

theorem Held.zeroFrameNum :
    Held { w with down := { w.down with frameNum := 0 }, up := { w.up with frameNum := 0 } } := by
  refine ⟨h.once, fun d => ?_, h.backup, h.handle⟩
  cases d with
  | downstream => exact h.queued .downstream
  | upstream => exact h.queued .upstream

theorem Held.reset : w.mediaBufferReset.Held := by
  unfold World.mediaBufferReset
  exact ((h.flush _).flush _).zeroFrameNum.backupUpdate

end

theorem rightPool_of_dispose (h : (w.dispose p).RightPool) : w.RightPool := by
  unfold dispose at h
  split at h
  . exact (rightPool_backupUpdate.mp h).1
  . exact (rightPool_put.mp h).1

theorem rightPool_of_flushOne (h : (w.flushOne d).RightPool) : w.RightPool := by
  cases hq : (w.lane d).queue with
  | nil => rwa [flushOne_nil hq] at h
  | cons p queue =>
    rw [flushOne_cons hq] at h
    exact rightPool_setLane.mp (rightPool_of_dispose h)

theorem rightPool_of_flushLoop (h : (w.flushLoop d n).RightPool) : w.RightPool := by
  induction n generalizing w with
  | zero => exact h
  | succ n ih => exact rightPool_of_flushOne (ih h)

theorem same_flushOne : w.Same (w.flushOne d) := by
  cases hq : (w.lane d).queue with
  | nil =>
    rw [flushOne_nil hq]
    exact ⟨rfl, rfl, rfl, rfl⟩
  | cons p queue =>
    rw [flushOne_cons hq]
    exact same_setLane.trans same_dispose

theorem same_flushLoop (n : Nat) : w.Same (w.flushLoop d n) :=
  @flushLoop_inv w d (fun w' => w.Same w') (fun _ h => h.trans same_flushOne) ⟨rfl, rfl, rfl, rfl⟩ n

theorem Held.handle_iff (h : w.Held) : w.poolHandle = .playback ↔ w.streamType = .playback := by
  rw [h.handle]
  cases w.streamType <;> decide

theorem Held.rightPool_flushOne (h : w.Held) (hright : w.RightPool)
    (hne : 0 < (w.lane d).queue.length) :
    (w.flushOne d).RightPool ↔
      w.streamType = .playback ∨ ¬w.mode.BacksUp ∨ w.lastPacketPtr = none := by
  obtain ⟨p, queue, hq⟩ := exists_cons_of_length_pos hne
  have hp : p.pool = w.poolHandle := h.queued d p (by rw [hq]; exact mem_cons_self)
  rw [flushOne_cons hq, dispose, setLane_mode]
  split
  . next hback =>
    rw [rightPool_backupUpdate, rightPool_setLane, setLane_lastPacketPtr]
    cases hlast : w.lastPacketPtr with
    | none => simp [hright]
    | some last =>
      have hpool := h.backup last (by rw [hlast]; rfl)
      simp only [hright, hback, hpool, Option.mem_def, Option.some.injEq, forall_eq', true_and,
        not_true_eq_false, reduceCtorEq, or_false, ← h.handle_iff]
      exact eq_comm
  . next hback => simp [hback, rightPool_put, rightPool_setLane, hright, hp]

theorem flushOne_lastPacketPtr (hne : 0 < (w.lane d).queue.length) (hback : w.mode.BacksUp) :
    (w.flushOne d).lastPacketPtr ≠ none := by
  obtain ⟨p, queue, hq⟩ := exists_cons_of_length_pos hne
  rw [flushOne_cons hq, dispose_lastPacketPtr, setLane_mode, if_pos hback]
  rintro ⟨⟩

theorem Held.rightPool_flushLoop (h : w.Held) (hright : w.RightPool) {n : Nat}
    (hn : n ≤ (w.lane d).queue.length) : (w.flushLoop d n).RightPool ↔ w.FlushRight n := by
  induction n generalizing w with
  | zero => exact iff_of_true hright (.inr (.inr (.inl rfl)))
  | succ n ih =>
    have hne : 0 < (w.lane d).queue.length := by omega
    have hone := h.rightPool_flushOne hright hne
    obtain ⟨htype, hmode, -, -⟩ := @same_flushOne w d
    have hlen : n ≤ ((w.flushOne d).lane d).queue.length := by
      rw [flushOne_queue, length_tail]
      omega
    rw [World.flushLoop]
    by_cases hright1 : (w.flushOne d).RightPool
    . rw [ih h.flushOne hright1 hlen]
      have hcond := hone.mp hright1
      have hlast := @flushOne_lastPacketPtr w d hne
      simp only [FlushRight, htype, hmode, Nat.add_eq_zero_iff, Nat.one_ne_zero, and_false,
        false_or, Nat.add_eq_right] at hcond ⊢
      by_cases hback : w.mode.BacksUp
      . simp only [hback, hlast hback, not_true_eq_false, and_false, or_false, false_or] at hcond ⊢
        tauto
      . simp [hback]
    . refine iff_of_false (fun hall => hright1 (rightPool_of_flushLoop hall)) fun hcond => ?_
      rw [hone] at hright1
      simp only [FlushRight] at hcond
      tauto

theorem flushLoop_lastPacketPtr {n : Nat} (hn : n ≤ (w.lane d).queue.length)
    (hback : w.mode.BacksUp) :
    (w.flushLoop d n).lastPacketPtr = none ↔ n = 0 ∧ w.lastPacketPtr = none := by
  induction n generalizing w with
  | zero => simp [flushLoop]
  | succ n ih =>
    have hne : 0 < (w.lane d).queue.length := by omega
    have hlen : n ≤ ((w.flushOne d).lane d).queue.length := by
      rw [flushOne_queue, length_tail]
      omega
    obtain ⟨-, hmode, -, -⟩ := @same_flushOne w d
    rw [flushLoop, ih hlen (by rwa [hmode])]
    simp [flushOne_lastPacketPtr hne hback]

theorem flushLoop_lastPacketPtr_of_not (hback : ¬w.mode.BacksUp) (n : Nat) :
    (w.flushLoop d n).lastPacketPtr = w.lastPacketPtr := by
  have hinv := @flushLoop_inv w d
    (fun w' => w'.mode = w.mode ∧ w'.lastPacketPtr = w.lastPacketPtr) (fun w' h => ?_) ⟨rfl, rfl⟩ n
  . exact hinv.2
  . obtain ⟨-, hmode, -, -⟩ := @same_flushOne w' d
    refine ⟨hmode.trans h.1, ?_⟩
    cases hq : (w'.lane d).queue with
    | nil => rw [flushOne_nil hq, h.2]
    | cons p queue =>
      rw [flushOne_cons hq, dispose_lastPacketPtr, setLane_mode, h.1, if_neg hback,
        setLane_lastPacketPtr, h.2]

theorem Held.rightPool_backupUpdate (h : w.Held) (hright : w.RightPool) :
    (w.mediaBufferBackupUpdate none).RightPool ↔
      w.streamType = .playback ∨ w.lastPacketPtr = none := by
  rw [World.rightPool_backupUpdate, ← h.handle_iff]
  cases hlast : w.lastPacketPtr with
  | none => simp [hright]
  | some last =>
    have hpool := h.backup last (by rw [hlast]; rfl)
    simp only [hright, hpool, Option.mem_def, Option.some.injEq, forall_eq', true_and,
      reduceCtorEq, or_false]
    exact eq_comm

theorem Held.rightPool_reset (h : w.Held) (hright : w.RightPool) :
    w.mediaBufferReset.RightPool ↔ Op.reset.PutsRight w := by
  let w1 := w.mediaBufferFlush w.down.queue.length .downstream
  let w2 := w1.mediaBufferFlush w1.up.queue.length .upstream
  have h1 : w1.Held := h.flush _
  have h2 : w2.Held := h1.flush _
  have hlane : w1.up = w.up :=
    @flushLoop_lane_ne w .downstream .upstream (by decide) (min w.down.queue.length _)
  obtain ⟨htype1, hmode1, -, -⟩ : w.Same w1 := same_flushLoop _
  obtain ⟨htype2, -, -, -⟩ : w1.Same w2 := same_flushLoop _
  have hreset : w.mediaBufferReset.RightPool ↔ (w2.mediaBufferBackupUpdate none).RightPool := by
    unfold World.mediaBufferReset
    simp only [World.rightPool_backupUpdate]
    rfl
  have hright1 : w1.RightPool ↔ w.FlushRight w.down.queue.length := by
    have := @Held.rightPool_flushLoop w .downstream h hright _ (Nat.le_refl _)
    simpa only [w1, mediaBufferFlush, World.lane, Nat.min_self] using this
  have hback1 : w.mode.BacksUp → (w1.lastPacketPtr = none ↔
      w.down.queue.length = 0 ∧ w.lastPacketPtr = none) := fun hback => by
    have := @flushLoop_lastPacketPtr w .downstream _ (Nat.le_refl _) hback
    simpa only [w1, mediaBufferFlush, World.lane, Nat.min_self] using this
  have hback2 : w.mode.BacksUp → (w2.lastPacketPtr = none ↔
      w.up.queue.length = 0 ∧ w1.lastPacketPtr = none) := fun hback => by
    have := @flushLoop_lastPacketPtr w1 .upstream _ (Nat.le_refl _) (by rwa [hmode1])
    simpa only [w2, mediaBufferFlush, World.lane, Nat.min_self, hlane] using this
  have hnback : ¬w.mode.BacksUp → w2.lastPacketPtr = w.lastPacketPtr := fun hback => by
    rw [show w2.lastPacketPtr = w1.lastPacketPtr from
      flushLoop_lastPacketPtr_of_not (by rwa [hmode1]) _]
    exact flushLoop_lastPacketPtr_of_not hback _
  have hright2 : w1.RightPool → (w2.RightPool ↔ w1.FlushRight w.up.queue.length) := fun hr => by
    have := @Held.rightPool_flushLoop w1 .upstream h1 hr _ (Nat.le_refl _)
    simpa only [w2, mediaBufferFlush, World.lane, Nat.min_self, hlane] using this
  have hmono1 : w2.RightPool → w1.RightPool := rightPool_of_flushLoop
  have hmono2 : (w2.mediaBufferBackupUpdate none).RightPool → w2.RightPool := fun hr =>
    (World.rightPool_backupUpdate.mp hr).1
  have hlast : w2.RightPool → ((w2.mediaBufferBackupUpdate none).RightPool ↔
      w2.streamType = .playback ∨ w2.lastPacketPtr = none) := h2.rightPool_backupUpdate
  have hplay2 : w2.streamType = .playback ↔ w.streamType = .playback := by rw [htype2, htype1]
  rw [hreset]
  by_cases hplay : w.streamType = .playback
  . have hr1 := hright1.mpr (.inl hplay)
    have hr2 := (hright2 hr1).mpr (.inl (htype1.trans hplay))
    exact iff_of_true ((hlast hr2).mpr (.inl (hplay2.mpr hplay))) (.inl hplay)
  by_cases hback : w.mode.BacksUp
  . -- the backup that is put back at the end is the last packet that was taken out
    constructor
    . intro hr
      obtain hplay' | hnone2 := (hlast (hmono2 hr)).mp hr
      . exact absurd (hplay2.mp hplay') hplay
      . obtain ⟨hup, hnone1⟩ := (hback2 hback).mp hnone2
        obtain ⟨hdown, hnone⟩ := (hback1 hback).mp hnone1
        exact .inr ⟨hnone, .inr ⟨length_eq_zero_iff.mp hdown, length_eq_zero_iff.mp hup⟩⟩
    . rintro (hplay' | ⟨hnone, hback' | ⟨hdown, hup⟩⟩)
      . exact absurd hplay' hplay
      . exact absurd hback hback'
      . have hdown0 := length_eq_zero_iff.mpr hdown
        have hup0 := length_eq_zero_iff.mpr hup
        have hr1 := hright1.mpr (.inr (.inr (.inl hdown0)))
        have hr2 := (hright2 hr1).mpr (.inr (.inr (.inl hup0)))
        exact (hlast hr2).mpr (.inr ((hback2 hback).mpr ⟨hup0, (hback1 hback).mpr ⟨hdown0, hnone⟩⟩))
  . have hr1 := hright1.mpr (.inr (.inl hback))
    have hr2 := (hright2 hr1).mpr (.inr (.inl (by rwa [hmode1])))
    rw [hlast hr2, hplay2, hnback hback, Op.PutsRight]
    simp only [hback, not_false_eq_true, true_or, and_true]

end World

structure World.Owned (w : World) : Prop where
  onePlace : ∀ ptr < w.allocated, w.placesOf ptr = 1
  noOther : ∀ ptr, w.allocated ≤ ptr → w.placesOf ptr = 0
  rightPool : w.RightPool

section

variable {w : World} {op : Op}

theorem held_construct (streamType : StreamType) (mode : StreamMode) :
    (mediaBufferConstruct streamType mode).Held where
  once ptr := by simp [World.placesOf, mediaBufferConstruct, holding]
  queued d p hp := by cases d <;> cases hp
  backup p hp := by cases hp
  handle := rfl

theorem World.Held.owned_iff (h : w.Held) : w.Owned ↔ w.RightPool := by
  refine ⟨fun h' => h'.rightPool, fun hright => ⟨fun ptr hptr => ?_, fun ptr hptr => ?_, hright⟩⟩
  . rw [h.once, if_pos hptr]
  . rw [h.once, if_neg (by omega)]

theorem World.rightPool_queueIn : (w.queueIn p d).RightPool ↔ w.RightPool := by
  cases d <;> rfl

theorem World.Held.rightPool_shrink (h : w.Held) (hright : w.RightPool) (ptr len : Nat)
    (d : Direction) : (w.mediaBufferShrink ptr len d).1.RightPool := by
  cases hfind : (w.lane d).queue.find? (·.ptr == ptr) with
  | none => rwa [mediaBufferShrink_none hfind]
  | some p =>
    have hp := h.queued d p (mem_of_find?_eq_some hfind)
    by_cases hlen : p.remainLen ≤ len
    . rw [mediaBufferShrink_all hfind hlen, rightPool_put, rightPool_setLane]
      exact ⟨hright, hp.symm⟩
    . rw [mediaBufferShrink_part hfind (Nat.lt_of_not_le hlen), rightPool_setLane]
      exact hright

theorem mediaBufferProxyUsRead_eq (w : World) (len : Nat) :
    (w.mediaBufferProxyUsRead len).1 = w ∨
      ∃ ptr n, (w.mediaBufferProxyUsRead len).1 = (w.mediaBufferShrink ptr n .upstream).1 := by
  unfold World.mediaBufferProxyUsRead
  split
  . exact .inl rfl
  . exact .inr ⟨_, _, rfl⟩

theorem held_step1 (h : w.Held) (hright : w.RightPool) (hfits : op.Fits) :
    ∃ w', step1 w op = .ok w' ∧ w'.Held ∧ (w'.RightPool ↔ op.PutsRight w) := by
  cases op with
  | write d timestamp seqNumber frameNumber status data granted =>
    rw [step1, mediaBufferWrite_fits hfits]
    split
    . exact ⟨_, rfl, h.queueIn rfl rfl, iff_of_true (World.rightPool_queueIn.mpr hright) trivial⟩
    . exact ⟨_, rfl, h, iff_of_true hright trivial⟩
  | flush cnt d =>
    exact ⟨_, rfl, h.flushLoop _, h.rightPool_flushLoop hright (Nat.min_le_right _ _)⟩
  | shrink ptr len d =>
    exact ⟨_, rfl, h.shrink ptr len, iff_of_true (h.rightPool_shrink hright ptr len d) trivial⟩
  | usRead len =>
    refine ⟨_, rfl, ?_⟩
    obtain heq | ⟨ptr, n, heq⟩ := mediaBufferProxyUsRead_eq w len
    . rw [heq]
      exact ⟨h, iff_of_true hright trivial⟩
    . rw [heq]
      exact ⟨h.shrink ptr n, iff_of_true (h.rightPool_shrink hright ptr n _) trivial⟩
  | backupUpdate => exact ⟨_, rfl, h.backupUpdate, h.rightPool_backupUpdate hright⟩
  | reset => exact ⟨_, rfl, h.reset, h.rightPool_reset hright⟩

def PutsRightStep (w : Except Fault World) (op : Op) : Prop :=
  ∀ w' ∈ w.toOption, op.Fits ∧ op.PutsRight w'
  deriving Decidable

end

end MediaBuffer
