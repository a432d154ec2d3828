import Earphone.DataTransfer.Basic
import Earphone.Lib.Ring

namespace DataTransfer

open Ring List

def view (d : Data) : Option Data :=
  if d.used then some d else none

def numbers (ds : List Data) : List Nat := ds.flatMap fun d => d.pkt.toList.map (·.push)

def Justified (sent : List (Nat × Bool)) : Nat × Cause → Prop
  | (n, .sent) => (n, true) ∈ sent
  | (n, .acked) => (n, true) ∈ sent
  | (n, .exhausted) => ∃ b, (n, b) ∈ sent
  | (_, .reset) => True

namespace Db

structure Queued (s : Db) (held : List Data) : Prop where
  ring : Ring.Holds (s.queueData.map view) s.rIdx held
  wIdx : s.wIdx = (s.rIdx + held.length) % s.queueNum
  pkt : ∀ d ∈ held, ∃ p, d.pkt = some p
  freed : (s.freed.map Prod.fst ++ numbers held).Perm (List.range s.pushed)
  order : (s.sent.map Prod.fst ++ numbers held).Pairwise (· ≤ ·)
  pushed : ∀ n ∈ s.sent.map Prod.fst ++ numbers held, n < s.pushed
  cause : ∀ x ∈ s.freed, Justified s.sent x

structure Inv (s : Db) (held : List Data) : Prop extends s.Queued held where
  idle : s.state = .idle → held = [] ∧ s.timer = false
  next : s.state ≠ .next
  waiting : s.state = .waitAck ∨ s.state = .retry → s.timer = true
  nonempty : s.timer = true → held ≠ []
  progress : s.hold = false → held ≠ [] → s.timer = true
  acked : s.state = .waitAck → ∀ d ∈ held.head?, ∀ p ∈ d.pkt, (p.push, true) ∈ s.sent
  retried : s.state = .retry → ∀ d ∈ held.head?, ∀ p ∈ d.pkt, ∃ b, (p.push, b) ∈ s.sent

variable {s t : Db} {d : Data} {held : List Data} {p : Packet}

@[simp]
theorem numbers_nil : numbers [] = [] := rfl

theorem numbers_cons (h : d.pkt = some p) : numbers (d :: held) = p.push :: numbers held := by
  simp [numbers, h]

theorem numbers_append : numbers (held ++ ds) = numbers held ++ numbers ds := by
  simp [numbers]

theorem Justified.mono {sent sent' : List (Nat × Bool)} (hsub : ∀ x ∈ sent, x ∈ sent')
    {x : Nat × Cause} (h : Justified sent x) : Justified sent' x := by
  obtain ⟨n, c⟩ := x
  cases c with
  | sent => exact hsub _ h
  | acked => exact hsub _ h
  | exhausted =>
    obtain ⟨b, hb⟩ := h
    exact ⟨b, hsub _ hb⟩
  | reset => trivial

theorem Queued.length_le (h : s.Queued held) : held.length ≤ s.queueNum := by
  have hle := h.ring.le
  rwa [length_map] at hle

theorem Queued.queueNum_pos (h : s.Queued held) : 0 < s.queueNum := by
  have hlt := h.ring.lt
  rw [length_map] at hlt
  exact Nat.zero_lt_of_lt hlt

theorem Queued.rIdx_lt (h : s.Queued held) : s.rIdx < s.queueNum := by
  have hlt := h.ring.lt
  rwa [length_map] at hlt

theorem getElem?_data (hi : i < s.queueNum) : s.queueData[i]? = some (s.data i) := by
  unfold data
  rw [getD_eq_getElem?_getD, getElem?_eq_getElem hi]
  rfl

theorem view_data (hi : i < s.queueNum) : (s.queueData.map view)[i]? = some (view (s.data i)) := by
  rw [getElem?_map, getElem?_data hi]
  rfl

theorem Queued.front (h : s.Queued (d :: held)) : s.data s.rIdx = d ∧ d.used = true := by
  have hfront := h.ring.front
  rw [view_data h.rIdx_lt, Option.some.injEq] at hfront
  unfold view at hfront
  split at hfront
  . next hused =>
    rw [Option.some.injEq] at hfront
    exact ⟨hfront, hfront ▸ hused⟩
  . cases hfront

theorem Queued.wIdx_lt (h : s.Queued held) : s.wIdx < s.queueNum := by
  rw [h.wIdx]
  exact Nat.mod_lt _ h.queueNum_pos

theorem Queued.back (h : s.Queued held) :
    (s.data s.wIdx).used = true ↔ held.length = s.queueNum := by
  have hlen : (s.queueData.map view).length = s.queueNum := length_map ..
  constructor
  . intro hused
    by_contra hne
    have hroom : held.length < (s.queueData.map view).length := by
      rw [hlen]
      exact Nat.lt_of_le_of_ne h.length_le hne
    have hback := h.ring.back hroom
    rw [hlen, ← h.wIdx, view_data h.wIdx_lt, view, if_pos hused] at hback
    cases hback
  . intro hfull
    cases held with
    | nil => exact absurd h.queueNum_pos (by rw [← hfull]; exact Nat.lt_irrefl 0)
    | cons d held =>
      have hw : s.wIdx = s.rIdx := by
        rw [h.wIdx, hfull, Nat.add_mod_right, Nat.mod_eq_of_lt h.rIdx_lt]
      obtain ⟨hdata, hused⟩ := h.front
      rw [hw, hdata]
      exact hused

theorem Queued.idx_eq (h : s.Queued held) :
    s.wIdx = s.rIdx ↔ held = [] ∨ held.length = s.queueNum := by
  have hpos := h.queueNum_pos
  rw [h.wIdx]
  constructor
  . intro heq
    obtain hfull | hlt := Nat.eq_or_lt_of_le h.length_le
    . exact .inr hfull
    -- less than a full round ends at its start only without a step
    . have hzero := add_mod_inj (r := s.rIdx) hlt hpos
        (heq.trans (by rw [Nat.add_zero, Nat.mod_eq_of_lt h.rIdx_lt]))
      exact .inl (length_eq_zero_iff.mp hzero)
  . rintro (rfl | hfull)
    . exact Nat.mod_eq_of_lt h.rIdx_lt
    . rw [hfull, Nat.add_mod_right, Nat.mod_eq_of_lt h.rIdx_lt]

theorem succIdx_eq (hi : i < s.queueNum) : s.succIdx i = (i + 1) % s.queueNum := by
  unfold succIdx
  split
  . next hge =>
    have heq : i + 1 = s.queueNum := by omega
    rw [heq, Nat.mod_self]
  . next hlt => rw [Nat.mod_eq_of_lt (by omega)]

@[simp]
theorem queueNum_dropDataQueue (cause : Cause) : (s.dropDataQueue cause).queueNum = s.queueNum := by
  unfold dropDataQueue
  dsimp only
  split
  . exact length_set
  . rfl

@[simp]
theorem hold_dropDataQueue (cause : Cause) : (s.dropDataQueue cause).hold = s.hold := by
  unfold dropDataQueue
  dsimp only
  split <;> rfl

@[simp]
theorem timer_dropDataQueue (cause : Cause) : (s.dropDataQueue cause).timer = s.timer := by
  unfold dropDataQueue
  dsimp only
  split <;> rfl

theorem Queued.drop {cause : Cause} (h : s.Queued (d :: held))
    (hcause : ∀ p ∈ d.pkt, Justified s.sent (p.push, cause)) :
    (s.dropDataQueue cause).Queued held := by
  obtain ⟨hdata, hused⟩ := h.front
  obtain ⟨p, hp⟩ := h.pkt d mem_cons_self
  have hlen : (s.queueData.map view).length = s.queueNum := length_map ..
  have hdrop : s.dropDataQueue cause = { s with
      queueData := s.queueData.set s.rIdx .zero
      rIdx := (s.rIdx + 1) % s.queueNum
      resend := 0
      state := .idle
      freed := s.freed ++ [(p.push, cause)] } := by
    have hsucc : ((s.free d.pkt cause).setData s.rIdx .zero).succIdx s.rIdx =
        (s.rIdx + 1) % s.queueNum := by
      rw [← succIdx_eq h.rIdx_lt]
      simp [succIdx, queueNum, setData, free]
    unfold dropDataQueue
    rw [hdata]
    dsimp only
    rw [if_pos hused]
    simp only [setData, free] at hsucc ⊢
    rw [hsucc, hp]
    rfl
  have hset : (s.queueData.set s.rIdx Data.zero).map view =
      (s.queueData.map view).set s.rIdx none := by
    rw [map_set]
    rfl
  have hnum : (s.queueData.set s.rIdx Data.zero).length = s.queueNum := length_set
  have horder := h.order
  have hpushed := h.pushed
  have hfreed := h.freed
  rw [numbers_cons hp] at horder hpushed hfreed
  have hsub : List.Sublist (s.sent.map Prod.fst ++ numbers held)
      (s.sent.map Prod.fst ++ p.push :: numbers held) :=
    (List.Sublist.refl _).append (sublist_cons_self ..)
  rw [hdrop]
  refine {
    ring := ?_
    wIdx := ?_
    pkt := fun e he => h.pkt e (mem_cons_of_mem _ he)
    freed := ?_
    order := horder.sublist hsub
    pushed := fun n hn => hpushed n (hsub.subset hn)
    cause := ?_ }
  . have hpop := h.ring.pop
    rwa [hlen, ← hset] at hpop
  . show s.wIdx = ((s.rIdx + 1) % s.queueNum + held.length) % (s.queueData.set s.rIdx .zero).length
    rw [hnum, h.wIdx, Nat.mod_add_mod, length_cons, Nat.add_assoc, Nat.add_comm 1]
  . simpa [append_assoc] using hfreed
  . intro x hx
    obtain hx | hx := mem_append.mp hx
    . exact h.cause x hx
    . rw [mem_singleton.mp hx]
      exact hcause p hp

theorem Queued.sentFirst (h : s.Queued (d :: held)) (hp : d.pkt = some p) (state : State)
    (b timer : Bool) :
    ({ s with state, timer, sent := s.sent ++ [(p.push, b)] } : Db).Queued (d :: held) := by
  have horder := h.order
  have hpushed := h.pushed
  rw [numbers_cons hp] at horder hpushed
  refine { h with
    order := ?_
    pushed := ?_
    cause := fun x hx => Justified.mono (fun y hy => mem_append_left _ hy) (h.cause x hx) }
  . rw [numbers_cons hp]
    simp only [map_append, map_cons, map_nil, append_assoc,
      singleton_append]
    -- the packet was the next one already, so a further send of it keeps the order
    rw [pairwise_append, pairwise_cons, pairwise_cons] at *
    obtain ⟨hsent, ⟨hhead, htail⟩, hcross⟩ := horder
    refine ⟨hsent, ⟨?_, hhead, htail⟩, ?_⟩
    . intro n hn
      obtain rfl | hn := mem_cons.mp hn
      . exact Nat.le_refl _
      . exact hhead n hn
    . intro m hm n hn
      obtain rfl | hn := mem_cons.mp hn
      . exact hcross m hm _ mem_cons_self
      . exact hcross m hm n hn
  . intro n hn
    rw [numbers_cons hp] at hn
    apply hpushed n
    simp only [map_append, map_cons, map_nil, mem_append, mem_cons,
      not_mem_nil, or_false] at hn ⊢
    tauto

theorem Queued.push (h : s.Queued held) (hroom : held.length < s.queueNum) (hused : d.used = true)
    (hp : d.pkt = some p) (hnew : p.push = s.pushed) :
    (s.put s.wIdx d).Queued (held ++ [d]) := by
  have hlen : (s.queueData.map view).length = s.queueNum := length_map ..
  have hnum : (s.setData s.wIdx d).queueNum = s.queueNum := length_set
  have hview : view d = some d := if_pos hused
  have hone : numbers [d] = [s.pushed] := by rw [numbers_cons hp, hnew, numbers_nil]
  refine {
    ring := ?_
    wIdx := ?_
    pkt := ?_
    freed := ?_
    order := ?_
    pushed := ?_
    cause := h.cause }
  -- the write index is where the ring has its next free slot
  . have hpush := h.ring.push (x := d) (by rwa [hlen])
    rw [hlen, ← h.wIdx, ← hview, ← map_set] at hpush
    exact hpush
  . show (s.setData s.wIdx d).succIdx s.wIdx =
      (s.rIdx + (held ++ [d]).length) % (s.setData s.wIdx d).queueNum
    rw [succIdx_eq (by rw [hnum]; exact h.wIdx_lt), hnum, h.wIdx, Nat.mod_add_mod,
      length_append, length_singleton, Nat.add_assoc]
  . intro e he
    obtain he | he := mem_append.mp he
    . exact h.pkt e he
    . exact ⟨p, mem_singleton.mp he ▸ hp⟩
  . have hrange : List.range (s.put s.wIdx d).pushed = List.range s.pushed ++ [s.pushed] :=
      range_succ
    rw [numbers_append, hone, ← append_assoc, hrange]
    exact h.freed.append_right _
  . rw [numbers_append, hone, ← append_assoc, pairwise_append]
    refine ⟨h.order, pairwise_singleton .., fun n hn m hm => ?_⟩
    rw [mem_singleton.mp hm]
    exact Nat.le_of_lt (h.pushed n hn)
  . intro n hn
    rw [numbers_append, hone, ← append_assoc] at hn
    obtain hn | hn := mem_append.mp hn
    . exact Nat.lt_succ_of_lt (h.pushed n hn)
    . rw [mem_singleton.mp hn]
      exact Nat.lt_succ_self _

theorem Queued.used_perm (h : s.Queued held) : (s.queueData.filter (·.used)).Perm held := by
  have hperm := h.ring.perm
  rw [filterMap_map] at hperm
  have hfilter : s.queueData.filterMap (id ∘ view) = s.queueData.filter (·.used) := by
    rw [← filterMap_eq_filter]
    rfl
  rwa [hfilter] at hperm

@[simp]
theorem queueNum_queueReset : s.queueReset.queueNum = s.queueNum := length_map ..

theorem Queued.reset (h : s.Queued held) : s.queueReset.Queued [] := by
  have hpos := h.queueNum_pos
  have hview : s.queueReset.queueData.map view = List.replicate s.queueNum none := by
    rw [eq_replicate_iff]
    refine ⟨by simp [queueReset, queueNum], fun x hx => ?_⟩
    simp only [queueReset, map_map, mem_map, Function.comp_apply] at hx
    obtain ⟨d, -, rfl⟩ := hx
    by_cases hused : d.used = true
    . rw [if_pos hused]
      rfl
    . rw [if_neg hused]
      exact if_neg hused
  refine {
    ring := ?_
    wIdx := (Nat.zero_mod _).symm
    pkt := fun e he => nomatch he
    freed := ?_
    order := ?_
    pushed := ?_
    cause := ?_ }
  . rw [hview]
    exact holds_replicate hpos
  . have hnumbers : (s.queueReset.freed.map Prod.fst) =
        s.freed.map Prod.fst ++ numbers (s.queueData.filter (·.used)) := by
      simp [queueReset, numbers, map_flatMap, Function.comp_def]
    rw [numbers_nil, append_nil, hnumbers]
    refine List.Perm.trans ?_ h.freed
    exact (h.used_perm.flatMap_right _).append_left _
  . rw [numbers_nil, append_nil]
    exact h.order.sublist (sublist_append_left ..)
  . intro n hn
    rw [numbers_nil, append_nil] at hn
    exact h.pushed n (mem_append_left _ hn)
  . intro x hx
    obtain hx | hx := mem_append.mp hx
    . exact h.cause x hx
    . obtain ⟨d, -, hd⟩ := mem_flatMap.mp hx
      obtain ⟨q, -, rfl⟩ := mem_map.mp hd
      trivial

theorem getNextState_ne_idle (result : UInt8) (mode : Mode) : getNextState result mode ≠ .idle := by
  unfold getNextState
  cases mode <;> split_ifs <;> nofun

theorem popDataQueue_hold (hhold : s.hold = true) :
    popDataQueue send (fuel + 1) s = some { s with state := .waitReady } := by
  unfold popDataQueue
  exact if_pos hhold

theorem popDataQueue_busy (hhold : s.hold = false) (hstate : s.state ≠ .idle) :
    popDataQueue send (fuel + 1) s = some s := by
  unfold popDataQueue
  simp only [hhold, if_pos hstate]
  rfl

theorem Queued.inv_hold (h : s.Queued held) (hhold : s.hold = true)
    (hnonempty : s.timer = true → held ≠ []) :
    ({ s with state := .waitReady } : Db).Inv held where
  toQueued := { h with }
  idle := nofun
  next := nofun
  waiting := nofun
  nonempty := hnonempty
  progress hoff := by
    rw [show s.hold = false from hoff] at hhold
    cases hhold
  acked := nofun
  retried := nofun

theorem Queued.pop_inv (h : s.Queued held) (htimer : s.timer = false) (hstate : s.state = .idle)
    (hroom : s.hold = true ∨ held.length < s.queueNum) (hfuel : held.length < fuel) :
    ∃ s' held', popDataQueue send fuel s = some s' ∧ s'.Inv held' := by
  -- induction on the packets that wait: a round that goes on has dropped the first of them
  induction held generalizing s fuel with
  | nil =>
    obtain ⟨fuel, rfl⟩ := Nat.exists_eq_succ_of_ne_zero (Nat.ne_of_gt hfuel)
    by_cases hhold : s.hold = true
    . exact ⟨_, [], popDataQueue_hold hhold, h.inv_hold hhold (by rw [htimer]; nofun)⟩
    . refine ⟨{ s with state := .idle }, [], ?_, ?_⟩
      . unfold popDataQueue
        rw [if_neg hhold, if_neg (not_not_intro hstate), if_pos (h.idx_eq.mpr (.inl rfl))]
      . exact { h with
          idle := fun _ => ⟨rfl, htimer⟩
          next := nofun
          waiting := nofun
          nonempty := by rw [show _ = false from htimer]; nofun
          progress := fun _ hne => absurd rfl hne
          acked := nofun
          retried := nofun }
  | cons d rest ih =>
    obtain ⟨fuel, rfl⟩ := Nat.exists_eq_succ_of_ne_zero (Nat.ne_of_gt (Nat.zero_lt_of_lt hfuel))
    by_cases hhold : s.hold = true
    . exact ⟨_, d :: rest, popDataQueue_hold hhold, h.inv_hold hhold (by rw [htimer]; nofun)⟩
    . obtain ⟨hdata, hused⟩ := h.front
      obtain ⟨p, hp⟩ := h.pkt d mem_cons_self
      have hlt := hroom.resolve_left hhold
      -- the queue is not full, so different indices tell that a packet waits
      have hne : s.wIdx ≠ s.rIdx := by
        rw [Ne, h.idx_eq, not_or]
        exact ⟨cons_ne_nil _ _, Nat.ne_of_lt hlt⟩
      let state := getNextState (send s.sent.length) d.mode
      let sent := s.sent ++ [(p.push, state != .retry)]
      have hpop : popDataQueue send (fuel + 1) s =
          if state = .next then
            popDataQueue send fuel (({ s with state, sent } : Db).dropDataQueue .sent)
          else
            some { s with state, sent, timer := true } := by
        rw [popDataQueue, hdata]
        dsimp only
        rw [if_neg hhold, if_neg (not_not_intro hstate), if_neg hne, if_neg (by rw [hused]; nofun),
          hp]
        rfl
      rw [hpop]
      by_cases hnext : state = .next
      . rw [if_pos hnext]
        have hsent := h.sentFirst hp state (state != .retry) s.timer
        have hdrop : (({ s with state, sent } : Db).dropDataQueue .sent).Queued rest := by
          refine hsent.drop fun q hq => ?_
          rw [hp, Option.mem_some_iff] at hq
          rw [← hq, hnext]
          exact mem_append_right _ mem_cons_self
        refine ih hdrop ?_ rfl ?_ ?_
        . rw [timer_dropDataQueue]
          exact htimer
        . rw [hold_dropDataQueue, queueNum_dropDataQueue]
          exact .inr (Nat.lt_of_succ_lt hlt)
        . simpa using hfuel
      . rw [if_neg hnext]
        have hsent := h.sentFirst hp state (state != .retry) true
        refine ⟨_, d :: rest, rfl, { hsent with
          idle := fun hidle => absurd hidle (getNextState_ne_idle _ _)
          next := hnext
          waiting := fun _ => rfl
          nonempty := fun _ => cons_ne_nil _ _
          progress := fun _ _ => rfl
          acked := fun hack e he q hq => ?_
          retried := fun _ e he q hq => ?_ }⟩
        . rw [head?_cons, Option.mem_some_iff] at he
          rw [← he, hp, Option.mem_some_iff] at hq
          rw [← hq]
          refine mem_append_right _ ?_
          rw [show state = .waitAck from hack]
          exact mem_cons_self
        . rw [head?_cons, Option.mem_some_iff] at he
          rw [← he, hp, Option.mem_some_iff] at hq
          rw [← hq]
          exact ⟨_, mem_append_right _ mem_cons_self⟩

end Db

end DataTransfer
