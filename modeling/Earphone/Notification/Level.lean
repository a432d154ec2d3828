import Earphone.Notification.Ring

namespace Notification

namespace Db

variable {db : Db} {data : List UInt8}

@[simp]
theorem queue_afterWrite (db : Db) : db.afterWrite.queue = db.queue :=
  (sameRing_afterWrite db).queue

@[simp]
theorem poolBuf_afterWrite (db : Db) : db.afterWrite.poolBuf = db.poolBuf :=
  (sameRing_afterWrite db).poolBuf

theorem frameWrite_cases (db : Db) (data : List UInt8) :
    (∃ head tail, db.frameWrite data =
      (countWritten data.length (db.accept head tail data), true)) ∨
    db.frameWrite data = (db.cback .full db.cachedSize, false) := by
  by_cases h : db.wraps data.length = true
  . rw [frameWrite_of_wraps h]
    split
    . exact .inl ⟨_, _, rfl⟩
    . exact .inr rfl
  . rw [frameWrite_of_not_wraps h]
    split
    . exact .inl ⟨_, _, rfl⟩
    . exact .inr rfl

theorem framePush_cases (hend : ¬(isEnd data = true ∧ db.state = .high)) :
    (∃ head tail, db.framePush data = (countWritten data.length (db.accept head tail data), true)) ∨
    (∃ head tail, db.state = .empty ∧ db.framePush data =
      ({ countWritten data.length (db.accept head tail data) with state := .play }.cback .ePlay 0,
        true)) ∨
    db.framePush data = (db.cback .full db.cachedSize, false) := by
  unfold framePush
  split
  . next hhigh =>
    rw [Bool.and_eq_true, decide_eq_true_eq] at hhigh
    exact absurd hhigh hend
  . split
    . next hempty =>
      rw [Bool.and_eq_true, decide_eq_true_eq] at hempty
      unfold playEnd
      obtain ⟨head, tail, hwrite⟩ | hwrite := frameWrite_cases db data
      . rw [hwrite]
        exact .inr (.inl ⟨head, tail, hempty.2, rfl⟩)
      . rw [hwrite]
        exact .inr (.inr rfl)
    . obtain hwrite | hwrite := frameWrite_cases db data
      . exact .inl hwrite
      . exact .inr (.inr hwrite)

def Appended (db : Db) (data : List UInt8) : Prop :=
  ∃ head, (db.framePush data).1.queue = db.queue ++ [head] ∧
    (db.framePush data).1.frameData head = data

def Refused (db : Db) (data : List UInt8) : Prop :=
  (db.framePush data).1 = db.cback .full db.cachedSize

theorem frameData_countWritten (head tail : Nat) (hlen : data.length < 0x100000000) (db : Db) :
    (countWritten data.length (db.accept head tail data)).frameData head = data := by
  apply frameData_of_stored (s := ⟨head, data⟩)
  have hbuf : (countWritten data.length (db.accept head tail data)).poolBuf =
      (db.accept head tail data).poolBuf := poolBuf_afterWrite _
  rw [hbuf]
  exact stored_accept head tail data hlen db

theorem queue_countWritten (head tail : Nat) (db : Db) :
    (countWritten data.length (db.accept head tail data)).queue = db.queue ++ [head] :=
  queue_afterWrite _

theorem framePush_result (hlen : data.length < 0x100000000)
    (hend : ¬(isEnd data = true ∧ db.state = .high)) :
    ((db.framePush data).2 = true → db.Appended data) ∧
      ((db.framePush data).2 = false → db.Refused data) := by
  unfold Appended Refused
  obtain ⟨head, tail, hpush⟩ | ⟨head, tail, -, hpush⟩ | hpush := framePush_cases hend
  . rw [hpush]
    refine ⟨fun _ => ⟨head, queue_countWritten head tail db, ?_⟩, nofun⟩
    exact frameData_countWritten head tail hlen db
  . rw [hpush]
    refine ⟨fun _ => ⟨head, queue_countWritten head tail db, ?_⟩, nofun⟩
    exact frameData_countWritten head tail hlen db
  . rw [hpush]
    exact ⟨nofun, fun _ => rfl⟩

theorem framePush_marker (hend : isEnd data = true) (hstate : db.state = .empty)
    (hres : (db.framePush data).2 = true) : (db.framePush data).1.state = .play := by
  unfold framePush at hres ⊢
  rw [if_neg (by rw [hstate]; simp), if_pos (by rw [hend, hstate]; rfl)] at hres ⊢
  unfold playEnd at hres ⊢
  split
  . rfl
  . next hrefused =>
    rw [if_neg hrefused] at hres
    cases hres

end Db

section

structure Level (db : Db) : Prop where
  empty : db.state = .empty → db.cachedSize = 0 ∨ db.cachedSize < db.lowThreshold
  playing : db.state = .play ∨ db.state = .high → db.queue ≠ []
  high : db.state = .high → db.upperThreshold ≤ db.cachedSize

variable {db : Db} {slots : List Slot}

theorem level_quiet (hstate : db.state = .idle ∨ db.state = .prequeue) : Level db := by
  obtain hstate | hstate := hstate
  all_goals
    refine ⟨?_, ?_, ?_⟩
    all_goals
      rw [hstate]
      simp

theorem level_play (hstate : db.state = .play) (hqueue : db.queue ≠ []) : Level db :=
  ⟨fun h => absurd (hstate.symm.trans h) (by decide), fun _ => hqueue,
    fun h => absurd (hstate.symm.trans h) (by decide)⟩

theorem level_high (hstate : db.state = .high) (hqueue : db.queue ≠ [])
    (hcached : db.upperThreshold ≤ db.cachedSize) : Level db :=
  ⟨fun h => absurd (hstate.symm.trans h) (by decide), fun _ => hqueue, fun _ => hcached⟩

theorem level_empty (hstate : db.state = .empty)
    (hcached : db.cachedSize = 0 ∨ db.cachedSize < db.lowThreshold) : Level db := by
  refine ⟨fun _ => hcached, fun h => ?_, fun h => absurd (hstate.symm.trans h) (by decide)⟩
  obtain h | h := h
  . exact absurd (hstate.symm.trans h) (by decide)
  . exact absurd (hstate.symm.trans h) (by decide)

theorem level_afterWrite (hqueue : db.queue ≠ [])
    (hhigh : db.state = .high → db.upperThreshold ≤ db.cachedSize) : Level db.afterWrite := by
  unfold Db.afterWrite
  split
  . next hstate =>
    split
    . exact level_quiet (.inr rfl)
    . exact level_quiet (.inl hstate)
  . next hstate =>
    split
    . exact level_play rfl hqueue
    . exact level_quiet (.inr hstate)
  . next hstate =>
    split
    . exact level_play rfl hqueue
    . next hlow => exact level_empty hstate (.inr (Nat.lt_of_not_le hlow))
  . next hstate =>
    split
    . next hupper => exact level_high rfl hqueue hupper
    . exact level_play hstate hqueue
  . next hstate => exact level_high hstate hqueue (hhigh hstate)

theorem level_framePush (h : Level db) (hholds : Holds db slots) (hok : PushOk db data) :
    Level (db.framePush data).1 := by
  have hend : ¬(Db.isEnd data = true ∧ db.state = .high) := fun hboth => hok.1 hboth.1 hboth.2
  have hcached : (db.framePush data).2 = true →
      db.cachedSize ≤ (db.framePush data).1.cachedSize := by
    intro hres
    obtain ⟨-, head, hnew⟩ | ⟨hres', -⟩ := holds_framePush hholds hok
    . rw [hholds.cached, hnew.cached, List.map_append, List.sum_append]
      exact Nat.le_add_right _ _
    . rw [hres] at hres'
      cases hres'
  obtain ⟨head, tail, hpush⟩ | ⟨head, tail, hstate, hpush⟩ | hpush := Db.framePush_cases hend
  . rw [hpush] at hcached ⊢
    have hcached' := hcached rfl
    apply level_afterWrite
    . exact List.append_ne_nil_of_right_ne_nil _ (List.cons_ne_nil _ _)
    . intro hhigh
      have hsame := (sameRing_afterWrite
        ((db.accept head tail data).setCachedSize (u32 (db.cachedSize + data.length)))).cachedSize
      exact Nat.le_trans (h.high hhigh) (Nat.le_trans hcached' (Nat.le_of_eq hsame))
  . rw [hpush]
    apply level_play rfl
    show (Db.countWritten data.length (db.accept head tail data)).queue ≠ []
    rw [Db.queue_countWritten]
    exact List.append_ne_nil_of_right_ne_nil _ (List.cons_ne_nil _ _)
  . rw [hpush]
    exact ⟨h.empty, h.playing, h.high⟩

theorem level_afterFlush (hempty : db.state = .empty →
      db.cachedSize = 0 ∨ db.cachedSize < db.lowThreshold)
    (hplay : db.state = .play → db.cachedSize ≠ 0 → db.queue ≠ [])
    (hhigh : db.state = .high → db.queue ≠ []) : Level db.afterFlush := by
  unfold Db.afterFlush
  split
  . next hstate =>
    split
    . next hzero => exact level_empty rfl (.inl hzero)
    . next hzero =>
      have hlevel := level_play hstate (hplay hstate hzero)
      split
      . exact ⟨hlevel.empty, hlevel.playing, hlevel.high⟩
      . exact hlevel
  . next hstate =>
    split
    . exact level_play rfl (hhigh hstate)
    . next hupper => exact level_high hstate (hhigh hstate) (Nat.le_of_not_lt hupper)
  . next hplay' hhigh' =>
    exact ⟨hempty, fun h => absurd h (not_or.mpr ⟨hplay', hhigh'⟩), fun h => absurd h hhigh'⟩

theorem level_frameFlush (h : Level db) (hholds : Holds db slots)
    (hok : db.state = .high → db.queue.length ≠ 1) : Level db.frameFlush := by
  have hnew := holds_frameFlush hholds
  unfold Db.frameFlush at hnew ⊢
  split
  . exact h
  . next head rest hqueue =>
    rw [hqueue] at hnew
    replace hnew : Holds (Db.countFlushed (db.frameLen head)
        (db.setQueue rest (rest.headD db.poolTail))) slots.tail := hnew
    generalize hflushed : db.setQueue rest (rest.headD db.poolTail) = flushed at hnew ⊢
    have hfields : flushed.cachedSize = db.cachedSize ∧ flushed.state = db.state ∧
        flushed.lowThreshold = db.lowThreshold ∧ flushed.queue = rest := by
      rw [← hflushed]
      exact ⟨rfl, rfl, rfl, rfl⟩
    obtain ⟨hcached, hstate, hlow, hrest⟩ := hfields
    generalize hcount : flushed.setCachedSize
      (u32 (flushed.cachedSize + 0x100000000 - db.frameLen head)) = counted
    have hnew' : Holds counted slots.tail := by
      rw [← hcount]
      exact hnew.congr ⟨(sameRing_afterFlush _).queue.symm, (sameRing_afterFlush _).poolBuf.symm,
        (sameRing_afterFlush _).poolSize.symm, (sameRing_afterFlush _).poolHead.symm,
        (sameRing_afterFlush _).poolTail.symm, (sameRing_afterFlush _).cachedSize.symm⟩
    have hfields' : counted.state = db.state ∧ counted.lowThreshold = db.lowThreshold ∧
        counted.queue = rest := by
      rw [← hcount]
      exact ⟨hstate, hlow, hrest⟩
    obtain ⟨hstate', hlow', hrest'⟩ := hfields'
    have hle : counted.cachedSize ≤ db.cachedSize := by
      rw [hnew'.cached, hholds.cached]
      cases slots with
      | nil => exact Nat.le_refl _
      | cons s slots => exact Nat.le_add_left _ _
    show Level (Db.countFlushed (db.frameLen head) flushed)
    unfold Db.countFlushed
    rw [hcount]
    apply level_afterFlush
    . intro hempty
      have hlevel := h.empty (hstate'.symm.trans hempty)
      rw [hlow']
      omega
    . intro _ hzero hnone
      -- the frames that are left have no byte, so nothing is cached
      have hnil : slots.tail = [] := List.map_eq_nil_iff.mp (hnew'.queue.symm.trans hnone)
      rw [hnew'.cached, hnil] at hzero
      exact hzero rfl
    . intro hhigh hnone
      apply hok (hstate'.symm.trans hhigh)
      rw [hqueue, ← hrest', hnone]
      rfl

def Op.LevelOk (r : Ring) : Op → Prop
  | .framePush _ => True
  | .framePeek => True
  | .frameFlush => r.db.state = .high → r.db.queue.length ≠ 1
  | _ => False

def Op.decidableLevelOk : ∀ (op : Op) (r : Ring), Decidable (op.LevelOk r)
  | .framePush _, _ => .isTrue trivial
  | .framePeek, _ => .isTrue trivial
  | .frameFlush, r => inferInstanceAs (Decidable (r.db.state = .high → r.db.queue.length ≠ 1))
  | .streamPush _ _, _ => .isFalse id
  | .streamFlush, _ => .isFalse id
  | .dmaDone, _ => .isFalse id
  | .msg, _ => .isFalse id

instance (r : Ring) (op : Op) : Decidable (op.LevelOk r) := op.decidableLevelOk r

structure Levelled (db : Db) : Prop where
  level : Level db
  appended : ∀ frame : Frame, ¬(Db.isEnd frame.data = true ∧ db.state = .high) →
    (db.framePush frame.data).2 = true → db.Appended frame.data
  refused : ∀ frame : Frame, ¬(Db.isEnd frame.data = true ∧ db.state = .high) →
    (db.framePush frame.data).2 = false → db.Refused frame.data
  marker : ∀ frame : Frame, Db.isEnd frame.data = true → db.state = .empty →
    (db.framePush frame.data).2 = true → (db.framePush frame.data).1.state = .play

theorem levelled_of_level (h : Level db) : Levelled db where
  level := h
  appended frame hend := (Db.framePush_result frame.length_lt hend).1
  refused frame hend := (Db.framePush_result frame.length_lt hend).2
  marker _ := Db.framePush_marker

theorem level_step (hinv : Inv r) (h : Level r.db) (hok : op.Ok r)
    (hlevel : op.LevelOk r) : Level (step r op).db := by
  obtain ⟨slots, hholds, -⟩ := hinv
  cases op with
  | framePush frame => exact level_framePush h hholds hok
  | framePeek => exact h
  | frameFlush => exact level_frameFlush h hholds hlevel
  | streamPush _ _ => cases hlevel
  | streamFlush => cases hlevel
  | dmaDone => cases hlevel
  | msg => cases hlevel

theorem levelled_of_along (poolSize : UInt16) (poolBuf : Layout.Bytes)
    (bufferSize upperScaling lowScaling prequeueScaling : Nat) (ops : List Op)
    (hok : Run.Along step (fun r op => op.Ok r ∧ op.LevelOk r)
      (start poolSize poolBuf bufferSize upperScaling lowScaling prequeueScaling) ops) :
    Levelled (Run.exec step
      (start poolSize poolBuf bufferSize upperScaling lowScaling prequeueScaling) ops).db := by
  apply levelled_of_level
  have hstep : ∀ r op, Inv r ∧ Level r.db → op.Ok r ∧ op.LevelOk r →
      Inv (step r op) ∧ Level (step r op).db :=
    fun r op hr hop => ⟨inv_step hr.1 hop.1, level_step hr.1 hr.2 hop.1 hop.2⟩
  exact (Run.exec_inv hstep _ ops ⟨inv_start .., level_quiet (.inl rfl)⟩ hok).2

theorem levelled_pushFlush :
    Levelled (Run.exec step (start 40 (fun _ => 0) 40 80 40 5)
      [.framePush ⟨[1, 2, 3], by decide⟩, .framePush ⟨[4], by decide⟩, .frameFlush]).db :=
  levelled_of_along 40 (fun _ => 0) 40 80 40 5 _ (by decide)

theorem not_empty_iff :
    ¬∀ poolSize poolBuf bufferSize upperScaling lowScaling prequeueScaling ops,
      (Run.exec step
          (start poolSize poolBuf bufferSize upperScaling lowScaling prequeueScaling)
            ops).db.state = .empty →
      (Run.exec step
          (start poolSize poolBuf bufferSize upperScaling lowScaling prequeueScaling)
            ops).db.cachedSize = 0 := by
  intro h
  have hcached := h 40 (fun _ => 0) 40 80 40 5
    [.framePush ⟨[1], by decide⟩, .framePush ⟨[2], by decide⟩, .frameFlush, .frameFlush,
      .framePush ⟨[3], by decide⟩]
  revert hcached
  decide

end

end Notification
