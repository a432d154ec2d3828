import Earphone.Bond.PriorityRecord
import Mathlib.Data.List.Perm.Subperm

namespace Bond

open List (count_eq_zero count_erase_self drop_eq_getElem_cons ext_getElem? findIdx?_cons
  getElem?_append getElem?_eq_getElem getElem?_eq_none getElem?_eraseIdx getElem?_map
  getElem?_reverse getElem?_take head?_eq_getElem? length_append length_eq_zero_iff length_map
  length_range length_reverse length_singleton length_take map_cons mem_map mem_of_getElem?
  mem_range nodup_iff_count_le_one nodup_range subperm_of_subset take_succ_cons)

namespace PriorityRecord

open BondPriority (apply stepList)

section

variable {v v' : Vector UInt8 19} {i n : Nat}

theorem findLoop_eq (idx : UInt8) (h : i + n ≤ 19) :
    findLoop v idx n i = some (((((v.toList.drop i).take n).map UInt8.toNat).findIdx?
      (· == idx.toNat)).map (· + i)) := by
  induction n generalizing i with
  | zero => rfl
  | succ n ih =>
    have hi : i < v.toList.length := by
      rw [Vector.length_toList]
      omega
    have hget : v[i]? = some v.toList[i] := by
      rw [← Vector.getElem?_toList]
      exact getElem?_eq_getElem hi
    rw [drop_eq_getElem_cons hi, take_succ_cons, map_cons, findIdx?_cons,
      findLoop, hget]
    simp only [Option.bind_eq_bind, Option.bind_some]
    by_cases heq : v.toList[i] = idx
    . rw [if_pos heq, if_pos (by simp [heq])]
      simp
    . have hne : v.toList[i].toNat ≠ idx.toNat := fun hc => heq (UInt8.toNat_inj.mp hc)
      rw [if_neg heq, if_neg fun hc => hne (eq_of_beq hc), ih (by omega), Option.map_map]
      congr 2
      funext k
      simp only [Function.comp]
      omega

theorem store_eq {x : UInt8} (h : i < 19) :
    ∃ v', store v i x = some v' ∧ ∀ j : Nat, v'[j]? = if j = i then some x else v[j]? := by
  refine ⟨v.set i x, dif_pos h, fun j => ?_⟩
  rw [Vector.getElem?_set]
  by_cases hj : j = i
  . rw [if_pos hj, if_pos hj.symm]
  . rw [if_neg hj, if_neg (Ne.symm hj)]

theorem shiftLoop_eq (h : i + n ≤ 18) : ∃ v', shiftLoop n i v = some v' ∧
    ∀ j : Nat, v'[j]? = if i ≤ j ∧ j < i + n then v[j + 1]? else v[j]? := by
  induction n generalizing i v with
  | zero =>
    refine ⟨v, rfl, fun j => ?_⟩
    rw [if_neg (by omega)]
  | succ n ih =>
    obtain ⟨w, hstore, hw⟩ := @store_eq v i v[i + 1] (by omega)
    obtain ⟨v', hshift, hv'⟩ := @ih w (i + 1) (by omega)
    refine ⟨v', ?_, fun j => ?_⟩
    . rw [shiftLoop, Vector.getElem?_eq_getElem (by omega)]
      simp only [Option.bind_eq_bind, Option.bind_some, hstore]
      exact hshift
    . have hget : v[i + 1]? = some v[i + 1] := Vector.getElem?_eq_getElem (by omega)
      rw [hv', hw, hw]
      by_cases hj : j = i
      . subst hj
        rw [if_neg (by omega), if_pos rfl, if_pos (by omega), hget]
      . by_cases hin : i ≤ j ∧ j < i + (n + 1)
        . rw [if_pos (by omega), if_neg (by omega), if_pos hin]
        . rw [if_neg (by omega), if_neg hj, if_neg hin]

theorem shiftLoop_none (h : i + n = 19) (hn : 0 < n) : shiftLoop n i v = none := by
  induction n generalizing i v with
  | zero => exact absurd hn (Nat.lt_irrefl 0)
  | succ n ih =>
    rw [shiftLoop]
    cases n with
    | zero =>
      rw [Vector.getElem?_eq_none (by omega)]
      rfl
    | succ n =>
      obtain ⟨w, hstore, -⟩ := @store_eq v i v[i + 1] (by omega)
      rw [Vector.getElem?_eq_getElem (by omega)]
      simp only [Option.bind_eq_bind, Option.bind_some, hstore]
      exact ih (by omega) (by omega)

end

variable {r r' : PriorityRecord} {idx : UInt8} {maxNum : Nat}

theorem queue_getElem? (j : Nat) :
    r.queue[j]? = if j < r.bondNum then r.bondIdx[j]?.map UInt8.toNat else none := by
  unfold queue
  rw [getElem?_map, getElem?_take, Vector.getElem?_toList]
  split <;> rfl

theorem length_queue (h : r.bondNum ≤ 19) : r.queue.length = r.bondNum := by
  unfold queue
  rw [length_map, length_take, Vector.length_toList]
  omega

theorem queueFind_eq (h : r.bondNum ≤ 19) :
    r.queueFind idx = some (r.queue.queueFind idx.toNat) := by
  unfold queueFind
  split
  . next hzero =>
    unfold queue
    rw [hzero]
    rfl
  . rw [findLoop_eq idx (by omega)]
    simp [queue, BondPriority.queueFind]

theorem queue_erase (hr : r.bondNum ≤ 19)
    (hlt : result < r.bondNum)
    (hv : ∀ j : Nat, v[j]? = if result ≤ j ∧ j < result + (r.bondNum - result) then
      r.bondIdx[j + 1]? else r.bondIdx[j]?) :
    ({ bondNum := r.bondNum - 1, bondIdx := v } : PriorityRecord).queue =
      r.queue.eraseIdx result := by
  refine ext_getElem? fun j => ?_
  rw [queue_getElem?, getElem?_eraseIdx, queue_getElem?, queue_getElem?]
  dsimp only
  rw [hv]
  by_cases hj : j < result
  . rw [if_pos hj, if_pos (show j < r.bondNum - 1 by omega), if_neg (by omega),
      if_pos (by omega)]
  . rw [if_neg hj]
    by_cases hin : j < r.bondNum - 1
    . rw [if_pos hin, if_pos (by omega), if_pos (by omega)]
    . rw [if_neg hin, if_neg (by omega)]

theorem queue_append {v : Vector UInt8 19} (hr : r.bondNum < 19)
    (hv : ∀ j : Nat, v[j]? = if j = r.bondNum then some idx else r.bondIdx[j]?) :
    ({ bondNum := r.bondNum + 1, bondIdx := v } : PriorityRecord).queue =
      r.queue ++ [idx.toNat] := by
  have hlen := length_queue (Nat.le_of_lt hr)
  refine ext_getElem? fun j => ?_
  rw [queue_getElem?, getElem?_append, hlen, queue_getElem?]
  dsimp only
  rw [hv]
  by_cases hj : j < r.bondNum
  . rw [if_pos (by omega), if_neg (by omega), if_pos hj, if_pos hj]
  . rw [if_neg hj]
    by_cases hlast : j = r.bondNum
    . rw [if_pos (by omega), if_pos hlast, hlast, Nat.sub_self]
      rfl
    . rw [if_neg (by omega), getElem?_eq_none]
      rw [length_singleton]
      omega

theorem find_bounds (hr : r.bondNum ≤ 19)
    (h : r.queue.queueFind idx.toNat = some result) : result < r.bondNum := by
  obtain ⟨-, hlt, -⟩ := BondPriority.eraseIdx_of_queueFind h
  rwa [length_queue hr] at hlt

section

variable (hr : r.bondNum ≤ 18)

include hr

theorem queueDelete_sim : ∃ r', r'.bondNum ≤ r.bondNum ∧
    r.queueDelete idx = some (r', (r.queue.queueDelete idx.toNat).2) ∧
    r'.queue = (r.queue.queueDelete idx.toNat).1 := by
  unfold queueDelete BondPriority.queueDelete
  rw [queueFind_eq (by omega)]
  by_cases hzero : r.bondNum = 0
  . rw [if_pos hzero]
    have hnil : r.queue = [] := by
      rw [← length_eq_zero_iff, length_queue (by omega), hzero]
    rw [hnil]
    exact ⟨r, Nat.le_refl _, rfl, hnil⟩
  . rw [if_neg hzero]
    simp only [Option.bind_eq_bind, Option.bind_some]
    cases hfind : r.queue.queueFind idx.toNat with
    | none => exact ⟨r, Nat.le_refl _, rfl, rfl⟩
    | some result =>
      have hlt := find_bounds (by omega) hfind
      obtain ⟨v, hshift, hv⟩ := @shiftLoop_eq r.bondIdx result (r.bondNum - result) (by omega)
      dsimp only
      rw [hshift]
      exact ⟨_, Nat.sub_le _ _, rfl, queue_erase (by omega) hlt hv⟩

theorem setHighPriority_sim : ∃ r', r'.bondNum ≤ r.bondNum ∧
    r.setHighPriority idx = some (r', (r.queue.setHighPriority idx.toNat).2) ∧
    r'.queue = (r.queue.setHighPriority idx.toNat).1 := by
  unfold setHighPriority BondPriority.setHighPriority
  rw [queueFind_eq (by omega), length_queue (by omega)]
  by_cases hzero : r.bondNum = 0
  . rw [if_pos hzero]
    have hnil : r.queue = [] := by
      rw [← length_eq_zero_iff, length_queue (by omega), hzero]
    rw [hnil]
    exact ⟨r, Nat.le_refl _, rfl, hnil⟩
  . rw [if_neg hzero]
    simp only [Option.bind_eq_bind, Option.bind_some]
    cases hfind : r.queue.queueFind idx.toNat with
    | none => exact ⟨r, Nat.le_refl _, rfl, rfl⟩
    | some result =>
      dsimp only
      by_cases hlast : result = r.bondNum - 1
      . rw [if_pos hlast, if_pos hlast]
        exact ⟨r, Nat.le_refl _, rfl, rfl⟩
      . have hlt := find_bounds (by omega) hfind
        obtain ⟨v, hshift, hv⟩ := @shiftLoop_eq r.bondIdx result (r.bondNum - result) (by omega)
        obtain ⟨w, hstore, hw⟩ := @store_eq v (r.bondNum - 1) idx (by omega)
        rw [if_neg hlast, if_neg hlast, hshift]
        simp only [Option.bind_some, hstore]
        refine ⟨{ r with bondIdx := w }, Nat.le_refl _, rfl, ?_⟩
        have happend := @queue_append ⟨r.bondNum - 1, v⟩ idx w (by dsimp only; omega) hw
        rw [queue_erase (by omega) hlt hv] at happend
        dsimp only at happend
        rw [← happend, Nat.sub_add_cancel (by omega)]

theorem queueAdd_sim : ∃ r', r'.bondNum ≤ 19 ∧
    r.queueAdd idx maxNum = some (r', (r.queue.queueAdd maxNum idx.toNat).2) ∧
    r'.queue = (r.queue.queueAdd maxNum idx.toNat).1 := by
  unfold queueAdd BondPriority.queueAdd
  rw [queueFind_eq (by omega), length_queue (by omega)]
  simp only [Option.bind_eq_bind, Option.bind_some]
  cases hfind : r.queue.queueFind idx.toNat with
  | some result =>
    obtain ⟨r', hle, hraise, hqueue⟩ := @setHighPriority_sim r idx hr
    exact ⟨r', by omega, hraise, hqueue⟩
  | none =>
    dsimp only
    by_cases hfull : r.bondNum = maxNum
    . rw [if_pos hfull, if_pos hfull]
      exact ⟨r, by omega, rfl, rfl⟩
    . obtain ⟨v, hstore, hv⟩ := @store_eq r.bondIdx r.bondNum idx (by omega)
      rw [if_neg hfull, if_neg hfull, hstore]
      exact ⟨_, Nat.succ_le_succ hr, rfl, queue_append (by omega) hv⟩

theorem step_sim (op : Op) : ∃ r', r'.bondNum ≤ 19 ∧
    r.step maxNum op = some (r', (stepList maxNum r.queue op).2) ∧
    r'.queue = (stepList maxNum r.queue op).1 := by
  cases op with
  | add idx => exact queueAdd_sim hr
  | delete idx =>
    obtain ⟨r', hle, hstep, hqueue⟩ := @queueDelete_sim r idx hr
    exact ⟨r', by omega, hstep, hqueue⟩
  | setHigh idx =>
    obtain ⟨r', hle, hstep, hqueue⟩ := @setHighPriority_sim r idx hr
    exact ⟨r', by omega, hstep, hqueue⟩

end

theorem queueDelete_none (hr : r.bondNum = 19) (hmem : idx.toNat ∈ r.queue) :
    r.queueDelete idx = none := by
  unfold queueDelete
  rw [if_neg (by omega), queueFind_eq (by omega)]
  simp only [Option.bind_eq_bind, Option.bind_some]
  cases hfind : r.queue.queueFind idx.toNat with
  | none => exact absurd hmem (BondPriority.queueFind_none.mp hfind)
  | some result =>
    have hlt := find_bounds (by omega) hfind
    dsimp only
    rw [shiftLoop_none (by omega) (by omega)]
    rfl

theorem getLowPriority_eq (h : r.bondNum ≤ 19) :
    (r.getLowPriority).map UInt8.toNat = some (r.queue.head?.getD 0xff) := by
  unfold getLowPriority
  rw [head?_eq_getElem?, queue_getElem?]
  by_cases hzero : r.bondNum = 0
  . rw [if_pos hzero, if_neg (by omega)]
    rfl
  . rw [if_neg hzero, if_pos (by omega), Vector.getElem?_eq_getElem (by omega)]
    rfl

theorem getIndexByPriority_eq (h : r.bondNum ≤ 19) (hpos : 0 < priority) :
    (r.getIndexByPriority priority).map UInt8.toNat =
      some (r.queue.reverse[priority - 1]?.getD 0xff) := by
  have hlen := length_queue h
  unfold getIndexByPriority
  by_cases hzero : r.bondNum = 0
  . rw [if_pos hzero, getElem?_eq_none]
    . rfl
    . rw [length_reverse]
      omega
  . rw [if_neg hzero]
    by_cases hout : r.bondNum < priority ∨ priority = 0
    . rw [if_pos hout, getElem?_eq_none]
      . rfl
      . rw [length_reverse]
        omega
    . rw [if_neg hout, getElem?_reverse (by omega), hlen, queue_getElem?, if_pos (by omega)]
      have hsub : r.bondNum - 1 - (priority - 1) = r.bondNum - priority := by omega
      rw [hsub, Vector.getElem?_eq_getElem (by omega)]
      rfl

section

variable {r₀ : PriorityRecord}

def Tracks (maxNum : Nat) (r₀ : PriorityRecord) (ops : List Op) : Prop :=
  ∃ r, Run.exec (stepIn maxNum) (some r₀) ops = some r ∧ r.bondNum ≤ maxNum ∧
    r.queue = Run.exec (fun l op => (apply maxNum l op).1) r₀.queue ops ∧
    (∀ op, ∃ r', r.step maxNum op = some (r', (apply maxNum r.queue op).2)) ∧
    r.getLowPriority.map UInt8.toNat = some (r.queue.head?.getD 0xff) ∧
    ∀ priority, 0 < priority → (r.getIndexByPriority priority).map UInt8.toNat =
      some (r.queue.reverse[priority - 1]?.getD 0xff)

structure Sound (maxNum : Nat) (r : PriorityRecord) : Prop where
  num : r.bondNum ≤ maxNum
  nodup : r.queue.Nodup
  room : maxNum ≤ 18

theorem Sound.step (h : r.Sound maxNum) (op : Op) : ∃ r', r'.Sound maxNum ∧
    r.step maxNum op = some (r', (apply maxNum r.queue op).2) ∧
    r'.queue = (apply maxNum r.queue op).1 := by
  have hnum := h.num
  have hroom := h.room
  have hlen := @length_queue r (by omega)
  obtain ⟨r', hle, hstep, hqueue⟩ := @step_sim r maxNum (by omega) op
  rw [BondPriority.stepList_eq h.nodup (by omega)] at hstep hqueue
  obtain ⟨hnodup, hshort⟩ := @BondPriority.apply_inv r.queue maxNum h.nodup (by omega) op
  rw [← hqueue] at hnodup hshort
  rw [length_queue hle] at hshort
  exact ⟨r', ⟨hshort, hnodup, hroom⟩, hstep, hqueue⟩

theorem Sound.run (h : r₀.Sound maxNum) (ops : List Op) : ∃ r, r.Sound maxNum ∧
    Run.exec (stepIn maxNum) (some r₀) ops = some r ∧
    r.queue = Run.exec (fun l op => (apply maxNum l op).1) r₀.queue ops := by
  induction ops generalizing r₀ with
  | nil => exact ⟨r₀, h, rfl, rfl⟩
  | cons op ops ih =>
    obtain ⟨r1, h1, hstep, hqueue⟩ := h.step op
    obtain ⟨r, hr, hexec, hlist⟩ := ih h1
    refine ⟨r, hr, ?_, ?_⟩
    . rw [Run.exec_cons, stepIn, Option.bind_some, hstep]
      exact hexec
    . rw [hlist, hqueue, Run.exec_cons]

theorem exists_fresh {l : BondPriority} (h : l.length < 256) : ∃ idx : UInt8, idx.toNat ∉ l := by
  by_contra hall
  have hsub : List.range 256 ⊆ l := by
    intro k hk
    by_contra hnot
    have hlt := mem_range.mp hk
    refine hall ⟨UInt8.ofNat k, ?_⟩
    rwa [UInt8.toNat_ofNat', Nat.mod_eq_of_lt (by omega)]
  have hle := (subperm_of_subset nodup_range hsub).length_le
  rw [length_range] at hle
  omega

theorem exists_full (hmax : 19 ≤ maxNum) (hr : r₀.bondNum ≤ 19) (k : Nat) (hk : k ≤ 19) :
    ∃ ops r, Run.exec (stepIn maxNum) (some r₀) ops = some r ∧ k ≤ r.bondNum ∧ r.bondNum ≤ 19 := by
  induction k with
  | zero => exact ⟨[], r₀, rfl, Nat.zero_le _, hr⟩
  | succ k ih =>
    obtain ⟨ops, r, hexec, hlo, hhi⟩ := ih (by omega)
    by_cases hmore : k + 1 ≤ r.bondNum
    . exact ⟨ops, r, hexec, hmore, hhi⟩
    . have hlen := length_queue hhi
      obtain ⟨idx, hfresh⟩ := @exists_fresh r.queue (by omega)
      obtain ⟨r', hle, hstep, hqueue⟩ := @step_sim r maxNum (by omega) (.add idx)
      have hadd : stepList maxNum r.queue (.add idx) = (r.queue ++ [idx.toNat], true) :=
        BondPriority.queueAdd_not_mem hfresh (by omega)
      have hlen' := length_queue hle
      rw [hqueue, hadd, length_append, length_singleton] at hlen'
      refine ⟨ops ++ [.add idx], r', ?_, by omega, hle⟩
      rw [Run.exec_append, hexec, Run.exec_cons, stepIn, Option.bind_some, hstep]
      rfl

theorem exists_mem_queue (hpos : 0 < r.bondNum) : ∃ idx : UInt8, idx.toNat ∈ r.queue := by
  have hget : r.queue[0]? = some r.bondIdx[0].toNat := by
    rw [queue_getElem?, if_pos hpos]
    rfl
  exact ⟨_, mem_of_getElem? hget⟩

theorem Tracks.sound (hr : r₀.bondNum ≤ 19) (h : ∀ ops, r₀.Tracks maxNum ops) :
    r₀.Sound maxNum := by
  have hroom : maxNum ≤ 18 := by
    by_contra hmax
    obtain ⟨ops, r, hexec, hlo, hhi⟩ := @exists_full maxNum r₀ (by omega) hr 19 (Nat.le_refl 19)
    obtain ⟨idx, hmem⟩ := @exists_mem_queue r (by omega)
    obtain ⟨r', hexec', -, -, hstep, -⟩ := h ops
    obtain rfl : r = r' := Option.some.inj (hexec.symm.trans hexec')
    obtain ⟨r'', hdelete⟩ := hstep (.delete idx)
    rw [step, queueDelete_none (by omega) hmem] at hdelete
    cases hdelete
  obtain ⟨r', hexec, hnum, -⟩ := h []
  obtain rfl : r₀ = r' := Option.some.inj hexec
  refine ⟨hnum, nodup_iff_count_le_one.mpr fun x => ?_, hroom⟩
  -- an index that is deleted is not in the list any more
  by_cases hmem : x ∈ r₀.queue
  . obtain ⟨idx, -, rfl⟩ := mem_map.mp hmem
    obtain ⟨r1, -, hstep, hqueue⟩ := @step_sim r₀ maxNum (by omega) (.delete idx)
    obtain ⟨r2, hexec', -, hlist, -⟩ := h [.delete idx]
    rw [Run.exec_cons, stepIn, Option.bind_some, hstep] at hexec'
    obtain rfl : r1 = r2 := Option.some.inj hexec'
    rw [Run.exec_cons, Run.exec_nil, hqueue] at hlist
    have herase : r₀.queue.erase idx.toNat = r₀.queue.filter (· != idx.toNat) := by
      rw [stepList, BondPriority.queueDelete_eq] at hlist
      exact hlist
    have hgone : idx.toNat ∉ r₀.queue.erase idx.toNat := by
      rw [herase]
      simp
    have hcount := count_eq_zero.mpr hgone
    rw [count_erase_self] at hcount
    omega
  . rw [count_eq_zero.mpr hmem]
    omega

theorem bond_priority_tracks (maxNum : Nat) (loaded : Option PriorityRecord) (r : PriorityRecord)
    (hinit : queueInit zero loaded maxNum = (r, true)) :
    (∀ ops, r.Tracks maxNum ops) ↔ r.bondNum ≤ maxNum ∧ r.queue.Nodup ∧ maxNum ≤ 18 := by
  have hr : r.bondNum ≤ 19 := by
    unfold queueInit at hinit
    split at hinit
    . split at hinit
      . simp at hinit
      . next hnum =>
        rw [Prod.mk.injEq] at hinit
        rw [← hinit.1]
        omega
    . rw [Prod.mk.injEq] at hinit
      rw [← hinit.1]
      exact Nat.zero_le 19
  constructor
  . intro h
    obtain ⟨hnum, hnodup, hroom⟩ := Tracks.sound hr h
    exact ⟨hnum, hnodup, hroom⟩
  . rintro ⟨hnum, hnodup, hroom⟩ ops
    obtain ⟨r', hsound, hexec, hqueue⟩ := Sound.run ⟨hnum, hnodup, hroom⟩ ops
    have hle := hsound.num
    refine ⟨r', hexec, hle, hqueue, fun op => ?_, getLowPriority_eq (by omega),
      fun priority hpos => getIndexByPriority_eq (by omega) hpos⟩
    obtain ⟨r'', -, hstep, -⟩ := hsound.step op
    exact ⟨r'', hstep⟩

def threeSlots : PriorityRecord :=
  { bondNum := 3, bondIdx := ((Vector.replicate 19 0).set 0 4).set 1 2 |>.set 2 7 }

theorem bond_priority_tracks_threeSlots :
    threeSlots.Tracks 8 [.setHigh 4, .add 1, .delete 2, .add 7] := by
  refine (bond_priority_tracks 8 (some threeSlots) threeSlots rfl).mpr ?_
    [.setHigh 4, .add 1, .delete 2, .add 7]
  exact ⟨by decide, by decide, by decide⟩

theorem not_bond_priority_tracks :
    ¬(⟨19, Vector.ofFn fun i => UInt8.ofNat i⟩ : PriorityRecord).Tracks 19 [.delete 0] ∧
    ¬threeSlots.Tracks 2 [] ∧
    ¬(⟨2, Vector.replicate 19 5⟩ : PriorityRecord).Tracks 8 [.delete 5] := by
  refine ⟨fun ⟨r, hexec, _⟩ => ?_, fun ⟨r, hexec, hnum, _⟩ => ?_,
    fun ⟨r, hexec, _, hqueue, _⟩ => ?_⟩
  . have hnone : Run.exec (stepIn 19)
        (some (⟨19, Vector.ofFn fun i => UInt8.ofNat i⟩ : PriorityRecord)) [.delete 0] = none := by
      decide +kernel
    rw [hnone] at hexec
    cases hexec
  . obtain rfl := Option.some.inj hexec
    exact absurd hnum (by decide)
  . have hsome : Run.exec (stepIn 8) (some (⟨2, Vector.replicate 19 5⟩ : PriorityRecord))
        [.delete 5] = some ⟨1, Vector.replicate 19 5⟩ := by
      decide +kernel
    rw [hsome] at hexec
    obtain rfl := Option.some.inj hexec
    exact absurd hqueue (by decide +kernel)

end

end PriorityRecord

end Bond
