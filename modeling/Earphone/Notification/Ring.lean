import Earphone.Notification.Buffer

namespace Notification

open Layout List

structure Slot where
  head : Nat
  data : List UInt8

namespace Slot

def total (s : Slot) : Nat := (8 + s.data.length + 3) / 4 * 4

def stop (s : Slot) : Nat := s.head + s.total

def span (s : Slot) : Span := ⟨s.head, s.total⟩

def Stored (m : Bytes) (s : Slot) : Prop :=
  load ⟨s.head + 4, 4⟩ m = s.data.length ∧ bytesAt m (s.head + 8) s.data.length = s.data

theorem length_le_total (s : Slot) : 8 + s.data.length ≤ s.total := by
  unfold total
  omega

theorem stored_congr (h : ∀ i, s.head ≤ i → i < s.stop → m i = m' i)
    (hs : Stored m s) : Stored m' s := by
  have hlen := s.length_le_total
  have hstop : s.stop = s.head + s.total := rfl
  obtain ⟨hsize, hdata⟩ := hs
  refine ⟨?_, ?_⟩
  . rw [← hsize]
    apply load_congr
    intro i (hlow : s.head + 4 ≤ i) (hhigh : i < s.head + 4 + 4)
    exact (h i (by omega) (by omega)).symm
  . have hsame : bytesAt m' (s.head + 8) s.data.length = bytesAt m (s.head + 8) s.data.length := by
      apply map_congr_left
      intro i hi
      rw [mem_range] at hi
      exact (h _ (by omega) (by omega)).symm
    rw [hsame]
    exact hdata

end Slot

section

def Chain : Nat → List Slot → Nat → Prop
  | low, [], high => low ≤ high
  | low, s :: slots, high => low ≤ s.head ∧ Chain s.stop slots high

variable {low high : Nat} {slots : List Slot}

section

variable (h : Chain low slots high)

include h

theorem Chain.le : low ≤ high := by
  induction slots generalizing low with
  | nil => exact h
  | cons s slots ih =>
    have := ih h.2
    have := h.1
    unfold Slot.stop at *
    omega

theorem Chain.mem (hs : s ∈ slots) : low ≤ s.head ∧ s.stop ≤ high := by
  induction slots generalizing low with
  | nil => cases hs
  | cons s' slots ih =>
    obtain ⟨hlow, hrest⟩ := h
    obtain rfl | hs := mem_cons.mp hs
    . exact ⟨hlow, hrest.le⟩
    . obtain ⟨hs1, hs2⟩ := ih hrest hs
      have hstop : s'.head ≤ s'.stop := Nat.le_add_right _ _
      exact ⟨by omega, hs2⟩

theorem Chain.mono (hlow : low' ≤ low)
    (hhigh : high ≤ high') : Chain low' slots high' := by
  induction slots generalizing low low' with
  | nil => exact Nat.le_trans (Nat.le_trans hlow h) hhigh
  | cons s slots ih => exact ⟨Nat.le_trans hlow h.1, ih h.2 (Nat.le_refl _)⟩

theorem Chain.append {s : Slot} (hs : high ≤ s.head) : Chain low (slots ++ [s]) s.stop := by
  induction slots generalizing low with
  | nil => exact ⟨Nat.le_trans h hs, Nat.le_refl _⟩
  | cons s' slots ih => exact ⟨h.1, ih h.2⟩

theorem Chain.sum_le : low + (slots.map fun s => s.data.length).sum ≤ high := by
  induction slots generalizing low with
  | nil => exact h
  | cons s slots ih =>
    have hrest := ih h.2
    have hlow := h.1
    have hlen := s.length_le_total
    have hstop : s.stop = s.head + s.total := rfl
    rw [map_cons, sum_cons]
    omega

theorem Chain.apart : slots.Pairwise fun s s' => s.span.Apart s'.span := by
  induction slots generalizing low with
  | nil => exact List.Pairwise.nil
  | cons s slots ih =>
    rw [pairwise_cons]
    refine ⟨?_, ih h.2⟩
    intro s' hs'
    exact .inl (h.2.mem hs').1

end

end

inductive Lies (size tail : Nat) (slots : List Slot) : Prop where
  | straight (low : Nat) (run : Chain low slots tail) (tail_le : tail ≤ size)
  | wrapped (low : Nat) (old new : List Slot) (split : slots = old ++ new) (old_ne : old ≠ [])
    (old_run : Chain low old size) (new_run : Chain 0 new tail) (tail_le : tail ≤ low)

section

variable {size tail : Nat} {slots : List Slot}

section

variable (h : Lies size tail slots)

include h

theorem Lies.tail_le : tail ≤ size := by
  cases h with
  | straight _ _ htail => exact htail
  | wrapped _ _ _ _ _ hold _ htail => exact Nat.le_trans htail hold.le

theorem Lies.mem (hs : s ∈ slots) : s.stop ≤ size := by
  cases h with
  | straight _ hrun htail => exact Nat.le_trans (hrun.mem hs).2 htail
  | wrapped low old new hsplit _ hold hnew htail =>
    rw [hsplit] at hs
    obtain hs | hs := mem_append.mp hs
    . exact (hold.mem hs).2
    . have := (hnew.mem hs).2
      have := hold.le
      omega

theorem Lies.sum_le : (slots.map fun s => s.data.length).sum ≤ 2 * size := by
  cases h with
  | straight _ hrun htail =>
    have := hrun.sum_le
    omega
  | wrapped low old new hsplit _ hold hnew htail =>
    have := hold.sum_le
    have := hnew.sum_le
    have := hold.le
    rw [hsplit, map_append, sum_append]
    omega

theorem Lies.apart : slots.Pairwise fun s s' => s.span.Apart s'.span := by
  cases h with
  | straight _ hrun _ => exact hrun.apart
  | wrapped low old new hsplit _ hold hnew htail =>
    rw [hsplit, pairwise_append]
    refine ⟨hold.apart, hnew.apart, ?_⟩
    intro s hs s' hs'
    have := (hold.mem hs).1
    have := (hnew.mem hs').2
    right
    change s'.stop ≤ s.head
    omega

end

theorem Lies.nil (h : tail ≤ size) : Lies size tail [] := .straight 0 (Nat.zero_le _) h

theorem Lies.rest (h : Lies size tail (s :: slots)) : Lies size tail slots := by
  cases h with
  | straight low hrun htail => exact .straight s.stop hrun.2 htail
  | wrapped low old new hsplit hne hold hnew htail =>
    cases old with
    | nil => exact absurd rfl hne
    | cons s' old =>
      rw [cons_append, List.cons.injEq] at hsplit
      obtain ⟨rfl, rfl⟩ := hsplit
      cases old with
      | nil => exact .straight 0 hnew (Nat.le_trans htail hold.le)
      | cons s' old =>
        refine .wrapped s.stop (s' :: old) new rfl (by simp) hold.2 hnew ?_
        have := hold.1
        have : s.head ≤ s.stop := Nat.le_add_right _ _
        omega

theorem Lies.wrap (h : Lies size tail slots) {s : Slot} (hsize : s.stop ≤ size)
    (hfree : ∀ first ∈ slots.head?, first.head < tail ∧ s.stop ≤ first.head) :
    Lies size s.stop (slots ++ [s]) := by
  cases slots with
  | nil => exact .straight 0 ⟨Nat.zero_le _, Nat.le_refl _⟩ hsize
  | cons first slots =>
    obtain ⟨hfirst, hstop⟩ := hfree first rfl
    cases h with
    | straight low hrun htail =>
      refine .wrapped first.head (first :: slots) [s] rfl (by simp) ?_ ?_ hstop
      . exact ⟨Nat.le_refl _, hrun.2.mono (Nat.le_refl _) htail⟩
      . exact ⟨Nat.zero_le _, Nat.le_refl _⟩
    | wrapped low old new hsplit hne hold hnew htail =>
      cases old with
      | nil => exact absurd rfl hne
      | cons s' old =>
        rw [cons_append, List.cons.injEq] at hsplit
        obtain ⟨rfl, rfl⟩ := hsplit
        have := hold.1
        omega

theorem Lies.append (h : Lies size tail slots) {s : Slot} (hs : s.head = tail)
    (hsize : s.stop ≤ size)
    (hfree : ∀ first ∈ slots.head?, first.head < tail ∨ s.stop ≤ first.head) :
    Lies size s.stop (slots ++ [s]) := by
  cases h with
  | straight low hrun htail => exact .straight low (hrun.append (Nat.le_of_eq hs.symm)) hsize
  | wrapped low old new hsplit hne hold hnew htail =>
    cases old with
    | nil => exact absurd rfl hne
    | cons first old =>
      subst hsplit
      have hlow := hold.1
      obtain hfirst | hstop := hfree first rfl
      . omega
      . refine .wrapped first.head (first :: old) (new ++ [s]) (by simp) (by simp) ?_ ?_ hstop
        . exact ⟨Nat.le_refl _, hold.2⟩
        . exact hnew.append (Nat.le_of_eq hs.symm)

end

section

structure Holds (db : Db) (slots : List Slot) : Prop where
  queue : db.queue = slots.map Slot.head
  lies : Lies db.poolSize db.poolTail slots
  stored : ∀ s ∈ slots, s.Stored db.poolBuf
  cached : db.cachedSize = (slots.map fun s => s.data.length).sum
  size_lt : db.poolSize < 2 ^ 16
  head_le : db.poolHead ≤ db.poolSize

variable {db : Db} {slots : List Slot}

structure SameRing (db db' : Db) : Prop where
  queue : db'.queue = db.queue
  poolBuf : db'.poolBuf = db.poolBuf
  poolSize : db'.poolSize = db.poolSize
  poolHead : db'.poolHead = db.poolHead
  poolTail : db'.poolTail = db.poolTail
  cachedSize : db'.cachedSize = db.cachedSize

theorem Holds.congr (h : Holds db slots) (hsame : SameRing db db') : Holds db' slots where
  queue := hsame.queue.trans h.queue
  lies := by
    rw [hsame.poolSize, hsame.poolTail]
    exact h.lies
  stored := by
    rw [hsame.poolBuf]
    exact h.stored
  cached := hsame.cachedSize.trans h.cached
  size_lt := by
    rw [hsame.poolSize]
    exact h.size_lt
  head_le := by
    rw [hsame.poolSize, hsame.poolHead]
    exact h.head_le

theorem sameRing_cback (event : BufferEvent) (param : Nat) (state : BufferState) (db : Db) :
    SameRing db ({ db with state := state }.cback event param) :=
  ⟨rfl, rfl, rfl, rfl, rfl, rfl⟩

theorem sameRing_afterWrite (db : Db) : SameRing db db.afterWrite := by
  unfold Db.afterWrite
  split
  . split <;> exact ⟨rfl, rfl, rfl, rfl, rfl, rfl⟩
  . split <;> exact ⟨rfl, rfl, rfl, rfl, rfl, rfl⟩
  . split <;> exact ⟨rfl, rfl, rfl, rfl, rfl, rfl⟩
  . split <;> exact ⟨rfl, rfl, rfl, rfl, rfl, rfl⟩
  . exact ⟨rfl, rfl, rfl, rfl, rfl, rfl⟩

theorem sameRing_afterFlush (db : Db) : SameRing db db.afterFlush := by
  unfold Db.afterFlush
  split
  . split
    . exact ⟨rfl, rfl, rfl, rfl, rfl, rfl⟩
    . split <;> exact ⟨rfl, rfl, rfl, rfl, rfl, rfl⟩
  . split <;> exact ⟨rfl, rfl, rfl, rfl, rfl, rfl⟩
  . exact ⟨rfl, rfl, rfl, rfl, rfl, rfl⟩

theorem bytesAt_blit (data : List UInt8) (start : Nat) (m : Bytes) :
    bytesAt (blit (bytesOf data) 0 start data.length m) start data.length = data := by
  apply ext_getElem
  . simp [bytesAt]
  . intro i hi _
    simp only [bytesAt, length_map, length_range] at hi
    simp only [bytesAt, getElem_map, getElem_range, blit, bytesOf]
    rw [if_pos (by omega)]
    simp [List.getD, hi]

theorem stored_accept (head tail : Nat) (data : List UInt8) (hlen : data.length < 0x100000000)
    (db : Db) :
    Slot.Stored (db.accept head tail data).poolBuf ⟨head, data⟩ := by
  unfold Db.accept
  dsimp only
  have hsize : data.length < 2 ^ (8 * 4) := by
    simpa using hlen
  refine ⟨load_store hsize _, ?_⟩
  have hkeep : bytesAt (store ⟨head + 4, 4⟩ data.length
        (blit (bytesOf data) 0 (head + 8) data.length db.poolBuf)) (head + 8) data.length =
      bytesAt (blit (bytesOf data) 0 (head + 8) data.length db.poolBuf) (head + 8) data.length := by
    apply map_congr_left
    intro i _
    apply store_apart
    right
    change head + 4 + 4 ≤ head + 8 + i
    omega
  rw [hkeep]
  exact bytesAt_blit data (head + 8) db.poolBuf

theorem accept_apart (head tail : Nat) (data : List UInt8) (db : Db)
    (h : i < head ∨ (Slot.mk head data).stop ≤ i) :
    (db.accept head tail data).poolBuf i = db.poolBuf i := by
  have hlen := (Slot.mk head data).length_le_total
  have hstop : (Slot.mk head data).stop = head + (Slot.mk head data).total := rfl
  have hdata : (Slot.mk head data).data.length = data.length := rfl
  unfold Db.accept
  dsimp only
  rw [store_apart, blit_apart]
  . omega
  . change i < head + 4 ∨ head + 4 + 4 ≤ i
    omega

theorem holds_accept (h : Holds db slots) {head : Nat} {data : List UInt8}
    (hlen : data.length < 0x100000000)
    (hlies : Lies db.poolSize (Slot.mk head data).stop (slots ++ [⟨head, data⟩])) :
    Holds ((db.accept head (Slot.mk head data).stop data).countWritten data.length)
      (slots ++ [⟨head, data⟩]) := by
  apply Holds.congr (h := ?_) (sameRing_afterWrite _)
  refine ⟨?_, hlies, ?_, ?_, h.size_lt, h.head_le⟩
  . unfold Db.accept
    dsimp only
    rw [h.queue, map_append]
    rfl
  . intro s hs
    obtain hs | hs := mem_append.mp hs
    . have hpair := (pairwise_append.mp hlies.apart).2.2 s hs _ (mem_singleton_self _)
      apply Slot.stored_congr _ (h.stored s hs)
      intro i hlow hhigh
      refine (accept_apart head (Slot.mk head data).stop data db ?_).symm
      obtain hbefore | hbehind := hpair
      . left
        have : s.stop ≤ head := hbefore
        omega
      . right
        have : (Slot.mk head data).stop ≤ s.head := hbehind
        omega
    . rw [mem_singleton.mp hs]
      exact stored_accept head (Slot.mk head data).stop data hlen db
  . have hsum := hlies.sum_le
    have := h.size_lt
    rw [map_append, sum_append, map_singleton, sum_singleton] at hsum ⊢
    rw [Db.cachedSize_setCachedSize, Db.cachedSize_accept, h.cached]
    dsimp only at hsum ⊢
    exact u32_of_lt (by omega)

end

section

def WriteOk (db : Db) (len : Nat) : Prop :=
  0 < db.poolSize ∧ db.poolTail + len + 11 < 0x100000000 ∧
    ∀ oldest ∈ db.queue.head?,
      if db.poolTail + totalLen len > db.poolSize - 1 then
        totalLen len ≤ db.poolHead → oldest < db.poolTail ∧ totalLen len ≤ oldest
      else
        db.poolHead ≤ db.poolTail ∨ db.poolTail + totalLen len ≤ db.poolHead →
          oldest < db.poolTail ∨ db.poolTail + totalLen len ≤ oldest
  deriving Decidable

variable {db : Db} {slots : List Slot}

theorem wraps_iff {len : Nat} (hpos : 0 < db.poolSize) (hsize : db.poolSize < 2 ^ 16)
    (hsum : db.poolTail + totalLen len < 0x100000000) :
    db.wraps len = true ↔ db.poolTail + totalLen len > db.poolSize - 1 := by
  have hlast : u32 (db.poolSize + 0xFFFFFFFF) = db.poolSize - 1 := by
    unfold u32
    omega
  unfold Db.wraps
  rw [u32_of_lt hsum, hlast, decide_eq_true_eq]

theorem holds_frameWrite (h : Holds db slots) (hok : WriteOk db data.length) :
    ((db.frameWrite data).2 = true ∧
      ∃ head, Holds (db.frameWrite data).1 (slots ++ [⟨head, data⟩])) ∨
    ((db.frameWrite data).2 = false ∧ (db.frameWrite data).1 = db.cback .full db.cachedSize) := by
  obtain ⟨hpos, hlt, hfree⟩ := hok
  have hlen : data.length < 0x100000000 := by omega
  have htail := h.lies.tail_le
  have hhead := h.head_le
  have hsize := h.size_lt
  have htotal : totalLen data.length = (8 + data.length + 3) / 4 * 4 := totalLen_of_lt (by omega)
  have hstop : ∀ head, (Slot.mk head data).stop = head + totalLen data.length := by
    intro head
    rw [htotal]
    rfl
  have hsum : u32 (db.poolTail + totalLen data.length) = db.poolTail + totalLen data.length :=
    u32_of_lt (by omega)
  have hwraps := @wraps_iff db data.length hpos hsize (by omega)
  have hoff : ∀ first ∈ slots.head?, first.head ∈ db.queue.head? := by
    intro first hfirst
    rw [h.queue, head?_map]
    rw [Option.mem_def] at hfirst
    rw [hfirst]
    rfl
  -- the frame goes to the start of the pool, or behind the last one
  by_cases hwrap : db.wraps data.length = true
  . rw [Db.frameWrite_of_wraps hwrap]
    rw [hwraps] at hwrap
    split
    . next hfit =>
      left
      refine ⟨rfl, 0, ?_⟩
      have hacc := @holds_accept db slots h 0 data hlen
      rw [hstop, Nat.zero_add] at hacc
      apply hacc
      have hlies := @Lies.wrap _ _ _ h.lies ⟨0, data⟩
      rw [hstop, Nat.zero_add] at hlies
      apply hlies
      . omega
      . intro first hfirst
        have hfirst := hfree _ (hoff first hfirst)
        rw [if_pos hwrap] at hfirst
        exact hfirst hfit
    . exact .inr ⟨rfl, rfl⟩
  . rw [Db.frameWrite_of_not_wraps hwrap, hsum]
    rw [hwraps] at hwrap
    split
    . next hfit =>
      rw [Bool.or_eq_true, decide_eq_true_eq, decide_eq_true_eq] at hfit
      left
      refine ⟨rfl, db.poolTail, ?_⟩
      have hacc := @holds_accept db slots h db.poolTail data hlen
      rw [hstop] at hacc
      apply hacc
      have hlies := @Lies.append _ _ _ h.lies ⟨db.poolTail, data⟩ rfl
      rw [hstop] at hlies
      apply hlies
      . omega
      . intro first hfirst
        have hfirst := hfree _ (hoff first hfirst)
        rw [if_neg hwrap] at hfirst
        exact hfirst hfit
    . exact .inr ⟨rfl, rfl⟩

end

section

variable {db : Db}

theorem frameData_of_stored {s : Slot} (h : s.Stored db.poolBuf) :
    db.frameData s.head = s.data := by
  unfold Db.frameData Db.frameLen
  rw [h.1]
  exact h.2

theorem map_frameData (h : Holds db slots) : db.queue.map db.frameData = slots.map Slot.data := by
  rw [h.queue, map_map]
  apply map_congr_left
  intro s hs
  exact frameData_of_stored (h.stored s hs)

theorem holds_frameFlush (h : Holds db slots) : Holds db.frameFlush slots.tail := by
  have hqueue := h.queue
  unfold Db.frameFlush
  cases slots with
  | nil =>
    rw [hqueue]
    exact h
  | cons s slots =>
    rw [hqueue]
    apply Holds.congr (h := ?_) (sameRing_afterFlush _)
    refine ⟨rfl, h.lies.rest, ?_, ?_, h.size_lt, ?_⟩
    . intro s' hs'
      exact h.stored s' (mem_cons_of_mem _ hs')
    . have hcached := h.cached
      have hsum := h.lies.sum_le
      have hsize := h.size_lt
      have hlen : db.frameLen s.head = s.data.length := (h.stored s mem_cons_self).1
      rw [map_cons, sum_cons] at hcached hsum
      rw [Db.cachedSize_setCachedSize, Db.cachedSize_setQueue, hlen, tail_cons, hcached,
        u32_sub (Nat.le_add_right _ _) (by omega), Nat.add_sub_cancel_left]
    . cases slots with
      | nil => exact h.lies.tail_le
      | cons s' slots =>
        have := h.lies.mem (mem_cons_of_mem _ mem_cons_self)
        exact Nat.le_trans (Nat.le_add_right _ _) this

end

section

def PushOk (db : Db) (data : List UInt8) : Prop :=
  (Db.isEnd data = true → db.state ≠ .high) ∧ WriteOk db data.length
  deriving Decidable

variable {db : Db} {slots : List Slot}

theorem holds_playEnd (h : (written.2 = true ∧ ∃ head, Holds written.1 (slots ++ [⟨head, data⟩])) ∨
      (written.2 = false ∧ written.1 = db.cback .full db.cachedSize)) :
    ((Db.playEnd written).2 = true ∧
      ∃ head, Holds (Db.playEnd written).1 (slots ++ [⟨head, data⟩])) ∨
    ((Db.playEnd written).2 = false ∧ (Db.playEnd written).1 = db.cback .full db.cachedSize) := by
  unfold Db.playEnd
  obtain ⟨hres, head, hholds⟩ | ⟨hres, hsame⟩ := h
  . rw [if_pos hres]
    left
    exact ⟨rfl, head, hholds.congr (sameRing_cback ..)⟩
  . rw [if_neg (by simp [hres])]
    exact .inr ⟨rfl, hsame⟩

theorem holds_framePush (h : Holds db slots) (hok : PushOk db data) :
    ((db.framePush data).2 = true ∧ ∃ head, Holds (db.framePush data).1 (slots ++ [⟨head, data⟩])) ∨
    ((db.framePush data).2 = false ∧ (db.framePush data).1 = db.cback .full db.cachedSize) := by
  obtain ⟨hend, hwrite⟩ := hok
  have hwritten := holds_frameWrite h hwrite
  unfold Db.framePush
  split
  . next hhigh =>
    rw [Bool.and_eq_true, decide_eq_true_eq] at hhigh
    exact absurd hhigh.2 (hend hhigh.1)
  . split
    . exact holds_playEnd hwritten
    . exact hwritten

end

structure Ring where
  db : Db
  accepted : List (List UInt8)
  flushed : List (List UInt8)

inductive Op where
  | framePush (frame : Frame)
  | framePeek
  | frameFlush
  | streamPush (data : List UInt8) (taken : Bool)
  | streamFlush
  | dmaDone
  | msg

def step (r : Ring) : Op → Ring
  | .framePush frame =>
    { r with
      db := (r.db.framePush frame.data).1
      accepted := if (r.db.framePush frame.data).2 then r.accepted ++ [frame.data] else r.accepted }
  | .framePeek => r
  | .frameFlush =>
    { r with
      db := r.db.frameFlush
      flushed := r.flushed ++ r.db.queue.head?.toList.map r.db.frameData }
  | .streamPush data taken => { r with db := (r.db.streamPush data taken).1 }
  | .streamFlush => { r with db := r.db.streamFlush.1 }
  | .dmaDone => { r with db := r.db.dmaDone }
  | .msg => { r with db := r.db.msgHandler }

def Op.Ok (r : Ring) : Op → Prop
  | .framePush frame => PushOk r.db frame.data
  | .streamPush _ _ => r.db.queue = []
  | .dmaDone => ∀ data ∈ r.db.dma.head?, ∀ head ∈ r.db.queue, data.length ≤ head
  | _ => True

structure Sound (r : Ring) : Prop where
  inside : ∀ head ∈ r.db.queue, head + totalLen (r.db.frameLen head) ≤ r.db.poolSize
  apart : r.db.queue.Pairwise fun head head' =>
    Span.Apart ⟨head, totalLen (r.db.frameLen head)⟩ ⟨head', totalLen (r.db.frameLen head')⟩
  fifo : r.accepted = r.flushed ++ r.db.queue.map r.db.frameData
  peek : (r.db.framePeek.map fun frame => bytesAt r.db.poolBuf frame.1 frame.2) =
    r.accepted[r.flushed.length]?
  cached : r.db.cachedSize = ((r.accepted.drop r.flushed.length).map List.length).sum
  refused : ∀ frame : Frame, PushOk r.db frame.data → (r.db.framePush frame.data).2 = false →
    (r.db.framePush frame.data).1 = { r.db with events := (r.db.framePush frame.data).1.events }

def Inv (r : Ring) : Prop :=
  ∃ slots, Holds r.db slots ∧ r.accepted = r.flushed ++ slots.map Slot.data

def Op.decidableOk : ∀ (op : Op) (r : Ring), Decidable (op.Ok r)
  | .framePush frame, r => inferInstanceAs (Decidable (PushOk r.db frame.data))
  | .framePeek, _ => .isTrue trivial
  | .frameFlush, _ => .isTrue trivial
  | .streamPush _ _, r => inferInstanceAs (Decidable (r.db.queue = []))
  | .streamFlush, _ => .isTrue trivial
  | .dmaDone, r => inferInstanceAs
      (Decidable (∀ data ∈ r.db.dma.head?, ∀ head ∈ r.db.queue, data.length ≤ head))
  | .msg, _ => .isTrue trivial

instance (r : Ring) (op : Op) : Decidable (op.Ok r) := op.decidableOk r

theorem inv_framePush (h : Inv r) (hok : PushOk r.db frame.data) :
    Inv (step r (.framePush frame)) := by
  obtain ⟨slots, hholds, haccepted⟩ := h
  unfold step
  obtain ⟨hres, head, hnew⟩ | ⟨hres, hsame⟩ := holds_framePush hholds hok
  . refine ⟨slots ++ [⟨head, frame.data⟩], hnew, ?_⟩
    dsimp only
    rw [hres, if_pos rfl, haccepted, map_append, append_assoc]
    rfl
  . refine ⟨slots, ?_, ?_⟩
    . dsimp only
      rw [hsame]
      exact hholds.congr ⟨rfl, rfl, rfl, rfl, rfl, rfl⟩
    . dsimp only
      rw [hres]
      exact haccepted

theorem inv_frameFlush {r : Ring} (h : Inv r) : Inv (step r .frameFlush) := by
  obtain ⟨slots, hholds, haccepted⟩ := h
  refine ⟨slots.tail, holds_frameFlush hholds, ?_⟩
  unfold step
  dsimp only
  rw [haccepted]
  cases slots with
  | nil =>
    rw [hholds.queue]
    simp
  | cons s slots =>
    rw [hholds.queue, append_assoc]
    simp [frameData_of_stored (hholds.stored s mem_cons_self)]

theorem streamFlush_keeps (db : Db) :
    db.streamFlush.1.queue = db.queue ∧ db.streamFlush.1.poolBuf = db.poolBuf ∧
      db.streamFlush.1.poolSize = db.poolSize ∧ db.streamFlush.1.poolTail = db.poolTail ∧
        db.streamFlush.1.cachedSize = db.cachedSize := by
  unfold Db.streamFlush
  split
  . exact ⟨rfl, rfl, rfl, rfl, rfl⟩
  . dsimp only
    split <;> exact ⟨rfl, rfl, rfl, rfl, rfl⟩

theorem streamFrame_le {db : Db} {head len : Nat} (h : db.streamFrame head = some len) :
    head + len ≤ db.poolTail := by
  unfold Db.streamFrame at h
  split at h
  . dsimp only at h
    split at h
    . cases h
      assumption
    . split at h
      . cases h
        omega
      . cases h
  . cases h

theorem streamFlush_head_le {db : Db} (h : db.poolHead ≤ db.poolSize)
    (htail : db.poolTail ≤ db.poolSize) : db.streamFlush.1.poolHead ≤ db.poolSize := by
  unfold Db.streamFlush
  split
  . exact h
  . next len hlen =>
    have hle := streamFrame_le hlen
    dsimp only
    split <;> exact Nat.le_trans hle htail

theorem inv_streamFlush {r : Ring} (h : Inv r) : Inv (step r .streamFlush) := by
  obtain ⟨slots, hholds, haccepted⟩ := h
  obtain ⟨hqueue, hbuf, hsize, htail, hcached⟩ := streamFlush_keeps r.db
  refine ⟨slots, ⟨?_, ?_, ?_, ?_, ?_, ?_⟩, haccepted⟩
  . exact hqueue.trans hholds.queue
  . exact hsize.symm ▸ htail.symm ▸ hholds.lies
  . exact hbuf.symm ▸ hholds.stored
  . exact hcached.trans hholds.cached
  . exact hsize.symm ▸ hholds.size_lt
  . exact hsize.symm ▸ streamFlush_head_le hholds.head_le hholds.lies.tail_le

theorem inv_streamPush (h : Inv r)
    (hok : r.db.queue = []) : Inv (step r (.streamPush data taken)) := by
  obtain ⟨slots, hholds, haccepted⟩ := h
  have hslots : slots = [] := by
    have := hholds.queue
    rw [hok] at this
    exact map_eq_nil_iff.mp this.symm
  subst hslots
  refine ⟨[], ?_, haccepted⟩
  have hpushed : Holds
      { r.db with poolHead := 0, poolTail := (data.take r.db.poolSize).length } [] := by
    refine ⟨hholds.queue, .nil ?_, hholds.stored, hholds.cached, hholds.size_lt, Nat.zero_le _⟩
    exact length_take_le _ _
  unfold step Db.streamPush
  dsimp only
  split
  . split <;> exact hpushed.congr ⟨rfl, rfl, rfl, rfl, rfl, rfl⟩
  . exact hpushed

theorem inv_dmaDone (h : Inv r)
    (hok : ∀ data ∈ r.db.dma.head?, ∀ head ∈ r.db.queue, data.length ≤ head) :
    Inv (step r .dmaDone) := by
  obtain ⟨slots, hholds, haccepted⟩ := h
  refine ⟨slots, ?_, haccepted⟩
  unfold step Db.dmaDone
  dsimp only
  cases hdma : r.db.dma with
  | nil => exact hholds
  | cons data rest =>
    refine ⟨hholds.queue, hholds.lies, ?_, hholds.cached, hholds.size_lt, hholds.head_le⟩
    intro s hs
    have hmem : s.head ∈ r.db.queue := by
      rw [hholds.queue]
      exact mem_map_of_mem hs
    have hle := hok data (by rw [hdma]; rfl) s.head hmem
    apply Slot.stored_congr _ (hholds.stored s hs)
    intro i hlow _
    exact (blit_apart _ _ (.inr (by omega)) _).symm

theorem inv_msg (h : Inv r) : Inv (step r .msg) := by
  obtain ⟨slots, hholds, haccepted⟩ := h
  refine ⟨slots, ?_, haccepted⟩
  unfold step Db.msgHandler
  dsimp only
  split <;> exact hholds.congr ⟨rfl, rfl, rfl, rfl, rfl, rfl⟩

theorem inv_step (h : Inv r) (hok : op.Ok r) : Inv (step r op) := by
  cases op with
  | framePush frame => exact inv_framePush h hok
  | framePeek => exact h
  | frameFlush => exact inv_frameFlush h
  | streamPush data taken => exact inv_streamPush h hok
  | streamFlush => exact inv_streamFlush h
  | dmaDone => exact inv_dmaDone h hok
  | msg => exact inv_msg h

theorem sound_of_inv {r : Ring} (h : Inv r) : Sound r := by
  obtain ⟨slots, hholds, haccepted⟩ := h
  have hsize := hholds.size_lt
  have hspan : ∀ s ∈ slots, totalLen (r.db.frameLen s.head) = s.total := by
    intro s hs
    have hlen : r.db.frameLen s.head = s.data.length := (hholds.stored s hs).1
    have hstop : s.head + s.total ≤ r.db.poolSize := hholds.lies.mem hs
    have := s.length_le_total
    rw [hlen, totalLen_of_lt (by omega)]
    rfl
  refine ⟨?_, ?_, ?_, ?_, ?_, ?_⟩
  . intro head hhead
    rw [hholds.queue] at hhead
    obtain ⟨s, hs, rfl⟩ := mem_map.mp hhead
    rw [hspan s hs]
    exact hholds.lies.mem hs
  . rw [hholds.queue, pairwise_map]
    refine hholds.lies.apart.imp_of_mem ?_
    intro s s' hs hs' hpair
    rw [hspan s hs, hspan s' hs']
    exact hpair
  . rw [map_frameData hholds]
    exact haccepted
  . rw [haccepted, getElem?_append_right (Nat.le_refl _), Nat.sub_self]
    unfold Db.framePeek
    rw [hholds.queue]
    cases slots with
    | nil => rfl
    | cons s slots =>
      have hs := frameData_of_stored (hholds.stored s mem_cons_self)
      exact congrArg some hs
  . rw [haccepted, drop_left, hholds.cached, map_map]
    rfl
  . intro frame hok hres
    obtain ⟨hacc, _⟩ | ⟨_, hsame⟩ := holds_framePush hholds hok
    . rw [hacc] at hres
      cases hres
    . rw [hsame]
      rfl

def start (poolSize : UInt16) (poolBuf : Bytes)
    (bufferSize upperScaling lowScaling prequeueScaling : Nat) : Ring :=
  { db := (Db.init poolSize poolBuf).config bufferSize upperScaling lowScaling prequeueScaling
    accepted := []
    flushed := [] }

theorem inv_start (poolSize : UInt16) (poolBuf : Bytes)
    (bufferSize upperScaling lowScaling prequeueScaling : Nat) :
    Inv (start poolSize poolBuf bufferSize upperScaling lowScaling prequeueScaling) :=
  ⟨[], ⟨rfl, .nil (Nat.zero_le _), by simp, rfl, poolSize.toNat_lt, Nat.zero_le _⟩, rfl⟩

theorem sound_of_along (poolSize : UInt16) (poolBuf : Bytes)
    (bufferSize upperScaling lowScaling prequeueScaling : Nat) (ops : List Op)
    (hok : Run.Along step (fun r op => Op.Ok r op)
      (start poolSize poolBuf bufferSize upperScaling lowScaling prequeueScaling) ops) :
    Sound (Run.exec step
      (start poolSize poolBuf bufferSize upperScaling lowScaling prequeueScaling) ops) := by
  apply sound_of_inv
  apply Run.exec_inv _ _ ops (inv_start ..) hok
  intro r op hr hop
  exact inv_step hr hop

theorem sound_pushFlush :
    Sound (Run.exec step (start 40 (fun _ => 0) 40 80 40 60)
      [.framePush ⟨[1, 2, 3], by decide⟩, .framePush ⟨[4], by decide⟩, .framePeek, .frameFlush]) :=
  sound_of_along 40 (fun _ => 0) 40 80 40 60 _ (by decide)

theorem not_sound_wrapped :
    ¬ ∀ poolSize poolBuf bufferSize upperScaling lowScaling prequeueScaling ops,
      Sound (Run.exec step
        (start poolSize poolBuf bufferSize upperScaling lowScaling prequeueScaling) ops) := by
  intro h
  have hapart := (h 40 (fun _ => 0) 40 80 40 60
    [.framePush ⟨List.replicate 20 1, by decide⟩, .framePush ⟨[], by decide⟩, .frameFlush,
      .framePush ⟨List.replicate 4 2, by decide⟩, .framePush ⟨List.replicate 20 3, by decide⟩]).apart
  revert hapart
  decide

end Notification
