import Earphone.Lib.Run
import Earphone.Bond.Priority

namespace Bond

structure PriorityRecord where
  bondNum : Nat
  bondIdx : Vector UInt8 19
  deriving DecidableEq

namespace PriorityRecord

def zero : PriorityRecord := { bondNum := 0, bondIdx := Vector.replicate 19 0 }

def queueInit (r : PriorityRecord) (loaded : Option PriorityRecord) (_maxBondNum : Nat) :
    PriorityRecord × Bool :=
  match loaded with
  | some r => if r.bondNum > 19 then ({ r with bondNum := 0 }, false) else (r, true)
  | none => (r, true)

def store (v : Vector UInt8 19) (i : Nat) (x : UInt8) : Option (Vector UInt8 19) :=
  if h : i < 19 then some (v.set i x) else none

def findLoop (v : Vector UInt8 19) (idx : UInt8) : (n i : Nat) → Option (Option Nat)
  | 0, _ => some none
  | n + 1, i => do
    let x ← v[i]?
    if x = idx then some (some i) else findLoop v idx n (i + 1)

def shiftLoop : (n i : Nat) → Vector UInt8 19 → Option (Vector UInt8 19)
  | 0, _, v => some v
  | n + 1, i, v => do
    let x ← v[i + 1]?
    let v ← store v i x
    shiftLoop n (i + 1) v

open List

section

variable (r : PriorityRecord) (idx : UInt8)

def queueFind : Option (Option Nat) :=
  if r.bondNum = 0 then some none else findLoop r.bondIdx idx r.bondNum 0

def queueDelete : Option (PriorityRecord × Bool) :=
  if r.bondNum = 0 then
    some (r, false)
  else do
    match ← r.queueFind idx with
    | some result =>
      let bondIdx ← shiftLoop (r.bondNum - result) result r.bondIdx
      some ({ bondNum := r.bondNum - 1, bondIdx }, true)
    | none => some (r, false)

def setHighPriority : Option (PriorityRecord × Bool) :=
  if r.bondNum = 0 then
    some (r, false)
  else do
    match ← r.queueFind idx with
    | some result =>
      if result = r.bondNum - 1 then
        some (r, true)
      else
        let bondIdx ← shiftLoop (r.bondNum - result) result r.bondIdx
        let bondIdx ← store bondIdx (r.bondNum - 1) idx
        some ({ r with bondIdx }, true)
    | none => some (r, false)

def queueAdd (maxNum : Nat) : Option (PriorityRecord × Bool) := do
  match ← r.queueFind idx with
  | some _ => r.setHighPriority idx
  | none =>
    if r.bondNum = maxNum then
      some (r, false)
    else
      let bondIdx ← store r.bondIdx r.bondNum idx
      some ({ bondNum := r.bondNum + 1, bondIdx }, true)

def getLowPriority : Option UInt8 :=
  if r.bondNum = 0 then some 0xff else r.bondIdx[0]?

def getIndexByPriority (priority : Nat) : Option UInt8 :=
  if r.bondNum = 0 then some 0xff
  else if r.bondNum < priority ∨ priority = 0 then some 0xff
  else r.bondIdx[r.bondNum - priority]?

end

inductive Op where
  | add (idx : UInt8)
  | delete (idx : UInt8)
  | setHigh (idx : UInt8)

def step (maxNum : Nat) (r : PriorityRecord) : Op → Option (PriorityRecord × Bool)
  | .add idx => r.queueAdd idx maxNum
  | .delete idx => r.queueDelete idx
  | .setHigh idx => r.setHighPriority idx

def stepIn (maxNum : Nat) (r : Option PriorityRecord) (op : Op) : Option PriorityRecord :=
  r.bind fun r => (r.step maxNum op).map (·.1)

def queue (r : PriorityRecord) : BondPriority := (r.bondIdx.toList.take r.bondNum).map UInt8.toNat

end PriorityRecord

namespace BondPriority

open List
open PriorityRecord (Op)

def recent (l : BondPriority) (idx : Nat) : BondPriority := l.filter (· != idx) ++ [idx]

def apply (maxNum : Nat) (l : BondPriority) : Op → BondPriority × Bool
  | .add idx =>
    if idx.toNat ∈ l then (l.recent idx.toNat, true)
    else if l.length < maxNum then (l ++ [idx.toNat], true)
    else (l, false)
  | .delete idx => (l.filter (· != idx.toNat), decide (idx.toNat ∈ l))
  | .setHigh idx => if idx.toNat ∈ l then (l.recent idx.toNat, true) else (l, false)

def stepList (maxNum : Nat) (l : BondPriority) : Op → BondPriority × Bool
  | .add idx => l.queueAdd maxNum idx.toNat
  | .delete idx => l.queueDelete idx.toNat
  | .setHigh idx => l.setHighPriority idx.toNat

variable {l : BondPriority} {maxNum : Nat}

section

variable (hnodup : l.Nodup)

include hnodup

theorem recent_eq (idx : Nat) : l.recent idx = l.erase idx ++ [idx] := by
  unfold recent
  rw [hnodup.erase_eq_filter]

theorem stepList_eq (hlen : l.length ≤ maxNum) (op : Op) :
    l.stepList maxNum op = l.apply maxNum op := by
  cases op with
  | add idx =>
    unfold stepList apply
    dsimp only
    by_cases hmem : idx.toNat ∈ l
    . rw [queueAdd_mem hmem, if_pos hmem, recent_eq hnodup]
    . rw [if_neg hmem]
      by_cases hfull : l.length = maxNum
      . rw [if_neg (by omega), queueAdd, queueFind_none.mpr hmem]
        exact if_pos hfull
      . rw [if_pos (by omega), queueAdd_not_mem hmem hfull]
  | delete idx =>
    unfold stepList apply
    dsimp only
    rw [queueDelete_eq, hnodup.erase_eq_filter]
  | setHigh idx =>
    unfold stepList apply
    dsimp only
    by_cases hmem : idx.toNat ∈ l
    . rw [setHighPriority_mem hmem, if_pos hmem, recent_eq hnodup]
    . rw [setHighPriority_not_mem hmem, if_neg hmem]

theorem nodup_recent (idx : Nat) : (l.recent idx).Nodup := by
  rw [recent_eq hnodup]
  exact nodup_raise hnodup

theorem length_recent (hmem : idx ∈ l) : (l.recent idx).length = l.length := by
  have hpos := length_pos_of_mem hmem
  rw [recent_eq hnodup, length_append, length_erase_of_mem hmem, length_singleton]
  omega

theorem apply_inv (hlen : l.length ≤ maxNum) (op : Op) :
    (l.apply maxNum op).1.Nodup ∧ (l.apply maxNum op).1.length ≤ maxNum := by
  cases op with
  | add idx =>
    unfold apply
    dsimp only
    split
    . next hmem =>
      exact ⟨nodup_recent hnodup _, Nat.le_trans (Nat.le_of_eq (length_recent hnodup hmem)) hlen⟩
    . next hmem =>
      split
      . next hlt =>
        refine ⟨nodup_append.mpr ⟨hnodup, nodup_singleton _, ?_⟩, ?_⟩
        . rintro a ha b hb rfl
          rw [mem_singleton.mp hb] at ha
          exact hmem ha
        . rw [length_append]
          exact hlt
      . exact ⟨hnodup, hlen⟩
  | delete idx =>
    exact ⟨hnodup.filter _, Nat.le_trans (length_filter_le _ _) hlen⟩
  | setHigh idx =>
    unfold apply
    dsimp only
    split
    . next hmem =>
      exact ⟨nodup_recent hnodup _, Nat.le_trans (Nat.le_of_eq (length_recent hnodup hmem)) hlen⟩
    . exact ⟨hnodup, hlen⟩

end

end BondPriority

end Bond
