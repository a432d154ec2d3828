import Mathlib.Data.List.Perm.Basic
import Mathlib.Data.Nat.Bitwise

/-!
This module contains the parameters that the manager of the scan computes from those of its clients.
-/

namespace BleScan

open List

inductive ScanMode where
  | passive
  | active
  deriving DecidableEq

inductive FilterPolicy where
  | any
  | whiteList
  | anyRpa
  | whiteListRpa
  deriving DecidableEq

inductive FilterDuplicate where
  | disable
  | enable
  | enabledResetForEachPeriod
  deriving DecidableEq

inductive OwnAddrType where
  | lePublic
  | leRandom
  | leRapOrPublic
  | leRapOrRand
  deriving DecidableEq

structure ExtScanParam where
  scanType : ScanMode
  scanInterval : UInt16
  scanWindow : UInt16
  deriving DecidableEq

structure ScanParam where
  ownAddrType : OwnAddrType
  phys : UInt8
  extFilterPolicy : FilterPolicy
  extFilterDuplicate : FilterDuplicate
  scanParam1m : ExtScanParam
  scanParamCoded : ExtScanParam
  deriving DecidableEq

inductive Phy where
  | le1m
  | coded

def Phy.bit : Phy → UInt8
  | .le1m => 0x01
  | .coded => 0x04

namespace ScanParam

def zero : ScanParam where
  ownAddrType := .lePublic
  phys := 0
  extFilterPolicy := .any
  extFilterDuplicate := .disable
  scanParam1m := ⟨.passive, 0, 0⟩
  scanParamCoded := ⟨.passive, 0, 0⟩

def Uses (p : ScanParam) (phy : Phy) : Prop := p.phys &&& phy.bit ≠ 0
  deriving Decidable

def ofPhy (p : ScanParam) : Phy → ExtScanParam
  | .le1m => p.scanParam1m
  | .coded => p.scanParamCoded

def mergePhy (scanParam p : ScanParam) (phy : Phy) : ExtScanParam :=
  if p.Uses phy then
    if ¬scanParam.Uses phy then
      p.ofPhy phy
    else
      let merged := scanParam.ofPhy phy
      let merged :=
        if (p.ofPhy phy).scanType = .active then { merged with scanType := .active } else merged
      if (p.ofPhy phy).scanInterval < merged.scanInterval then
        { merged with
          scanInterval := (p.ofPhy phy).scanInterval
          scanWindow := (p.ofPhy phy).scanWindow }
      else
        merged
  else
    scanParam.ofPhy phy

def merge (scanParam p : ScanParam) : ScanParam where
  ownAddrType :=
    if scanParam.ownAddrType ≠ p.ownAddrType then .lePublic else scanParam.ownAddrType
  phys := scanParam.phys ||| p.phys
  extFilterPolicy := if p.extFilterPolicy = .any then .any else scanParam.extFilterPolicy
  extFilterDuplicate :=
    if p.extFilterDuplicate = .disable then .disable else scanParam.extFilterDuplicate
  scanParam1m := scanParam.mergePhy p .le1m
  scanParamCoded := scanParam.mergePhy p .coded

def mergeAll : List ScanParam → ScanParam
  | [] => zero
  | p :: ps => ps.foldl merge p

structure Covers (ps : List ScanParam) (m : ScanParam) : Prop where
  phys : ∀ i, m.phys.toNat.testBit i = true ↔ ∃ p ∈ ps, p.phys.toNat.testBit i = true
  active : ∀ phy, m.Uses phy → ((m.ofPhy phy).scanType = .active ↔
    ∃ p ∈ ps, p.Uses phy ∧ (p.ofPhy phy).scanType = .active)
  smallest : ∀ phy, ∀ p ∈ ps, p.Uses phy → (m.ofPhy phy).scanInterval ≤ (p.ofPhy phy).scanInterval
  asked : ∀ phy, m.Uses phy → ∃ p ∈ ps, p.Uses phy ∧
    (m.ofPhy phy).scanInterval = (p.ofPhy phy).scanInterval ∧
    (m.ofPhy phy).scanWindow = (p.ofPhy phy).scanWindow
  duplicate : m.extFilterDuplicate = .disable ↔ ∃ p ∈ ps, p.extFilterDuplicate = .disable
  policy : m.extFilterPolicy = .any ↔ ∃ p ∈ ps, p.extFilterPolicy = .any
  ownAddr : (∀ p ∈ ps, p.ownAddrType = m.ownAddrType) ∨
    m.ownAddrType = .lePublic ∧ ∃ p ∈ ps, ∃ q ∈ ps, p.ownAddrType ≠ q.ownAddrType

structure Alike (m n : ScanParam) : Prop where
  phys : m.phys = n.phys
  scanType : ∀ phy, m.Uses phy → (m.ofPhy phy).scanType = (n.ofPhy phy).scanType
  interval : ∀ phy, m.Uses phy → (m.ofPhy phy).scanInterval = (n.ofPhy phy).scanInterval
  duplicate : m.extFilterDuplicate = .disable ↔ n.extFilterDuplicate = .disable
  policy : m.extFilterPolicy = .any ↔ n.extFilterPolicy = .any
  ownAddr : m.ownAddrType = n.ownAddrType

section

variable {m n p : ScanParam} {ps qs : List ScanParam} {phy : Phy}

@[simp]
theorem ofPhy_merge : (m.merge p).ofPhy phy = m.mergePhy p phy := by
  cases phy <;> rfl

def bitIdx : Phy → Nat
  | .le1m => 0
  | .coded => 2

theorem uses_iff : p.Uses phy ↔ p.phys.toNat.testBit (bitIdx phy) = true := by
  have hbit : phy.bit.toNat = 2 ^ bitIdx phy := by
    cases phy <;> rfl
  unfold Uses
  rw [ne_eq, ← UInt8.toNat_inj, UInt8.toNat_and, hbit, Nat.and_two_pow]
  cases p.phys.toNat.testBit (bitIdx phy) <;> simp

theorem uses_merge : (m.merge p).Uses phy ↔ m.Uses phy ∨ p.Uses phy := by
  rw [uses_iff, uses_iff, uses_iff]
  unfold merge
  rw [UInt8.toNat_or, Nat.testBit_or, Bool.or_eq_true]

theorem Covers.uses (h : Covers ps m) : m.Uses phy ↔ ∃ p ∈ ps, p.Uses phy := by
  rw [uses_iff, h.phys]
  simp only [uses_iff]

theorem covers_singleton : Covers [p] p where
  phys i := by simp
  active phy hphy := by simp [hphy]
  smallest phy q hq _ := by
    rw [mem_singleton.mp hq]
    exact UInt16.le_refl _
  asked phy hphy := ⟨p, mem_singleton_self p, hphy, rfl, rfl⟩
  duplicate := by simp
  policy := by simp
  ownAddr := .inl fun q hq => by rw [mem_singleton.mp hq]

theorem mergePhy_not (hp : ¬p.Uses phy) : m.mergePhy p phy = m.ofPhy phy := by
  unfold mergePhy
  rw [if_neg hp]

theorem mergePhy_new (hp : p.Uses phy) (hm : ¬m.Uses phy) : m.mergePhy p phy = p.ofPhy phy := by
  unfold mergePhy
  rw [if_pos hp, if_pos hm]

theorem mergePhy_both (hp : p.Uses phy) (hm : m.Uses phy) :
    ((m.mergePhy p phy).scanType = .active ↔
      (m.ofPhy phy).scanType = .active ∨ (p.ofPhy phy).scanType = .active) ∧
    ((p.ofPhy phy).scanInterval < (m.ofPhy phy).scanInterval ∧
        (m.mergePhy p phy).scanInterval = (p.ofPhy phy).scanInterval ∧
        (m.mergePhy p phy).scanWindow = (p.ofPhy phy).scanWindow ∨
      (m.ofPhy phy).scanInterval ≤ (p.ofPhy phy).scanInterval ∧
        (m.mergePhy p phy).scanInterval = (m.ofPhy phy).scanInterval ∧
        (m.mergePhy p phy).scanWindow = (m.ofPhy phy).scanWindow) := by
  unfold mergePhy
  rw [if_pos hp, if_neg (not_not.mpr hm)]
  dsimp only
  by_cases hactive : (p.ofPhy phy).scanType = .active
  . rw [if_pos hactive]
    split
    . next hlt => exact ⟨⟨fun _ => .inr hactive, fun _ => rfl⟩, .inl ⟨hlt, rfl, rfl⟩⟩
    . next hlt =>
      exact ⟨⟨fun _ => .inr hactive, fun _ => rfl⟩, .inr ⟨UInt16.not_lt.mp hlt, rfl, rfl⟩⟩
  . rw [if_neg hactive]
    split
    . next hlt => exact ⟨⟨.inl, fun h => h.resolve_right hactive⟩, .inl ⟨hlt, rfl, rfl⟩⟩
    . next hlt =>
      exact ⟨⟨.inl, fun h => h.resolve_right hactive⟩, .inr ⟨UInt16.not_lt.mp hlt, rfl, rfl⟩⟩

theorem exists_append_one {P : ScanParam → Prop} :
    (∃ q ∈ ps ++ [p], P q) ↔ (∃ q ∈ ps, P q) ∨ P p := by
  simp [mem_append, or_and_right, exists_or]

section

variable (h : Covers ps m)

include h

theorem Covers.active_merge (hphy : (m.merge p).Uses phy) :
    (m.mergePhy p phy).scanType = .active ↔
      (∃ q ∈ ps, q.Uses phy ∧ (q.ofPhy phy).scanType = .active) ∨
        p.Uses phy ∧ (p.ofPhy phy).scanType = .active := by
  by_cases hp : p.Uses phy
  . by_cases hm : m.Uses phy
    . rw [(mergePhy_both hp hm).1, h.active phy hm]
      exact or_congr_right (iff_and_self.mpr fun _ => hp)
    . rw [mergePhy_new hp hm]
      refine ⟨fun hactive => .inr ⟨hp, hactive⟩, ?_⟩
      rintro (⟨q, hq, huses, -⟩ | ⟨-, hactive⟩)
      . exact absurd (h.uses.mpr ⟨q, hq, huses⟩) hm
      . exact hactive
  . have hm : m.Uses phy := (uses_merge.mp hphy).resolve_right hp
    rw [mergePhy_not hp, h.active phy hm]
    exact (or_iff_left fun h => hp h.1).symm

theorem Covers.smallest_merge (hq : q ∈ ps ++ [p])
    (huses : q.Uses phy) :
    (m.mergePhy p phy).scanInterval ≤ (q.ofPhy phy).scanInterval := by
  by_cases hp : p.Uses phy
  . by_cases hm : m.Uses phy
    . obtain ⟨-, ⟨hlt, heq, -⟩ | ⟨hle, heq, -⟩⟩ := mergePhy_both hp hm
      . rw [heq]
        obtain hq | hq := mem_append.mp hq
        . exact UInt16.le_trans (UInt16.le_of_lt hlt) (h.smallest phy q hq huses)
        . rw [mem_singleton.mp hq]
          exact UInt16.le_refl _
      . rw [heq]
        obtain hq | hq := mem_append.mp hq
        . exact h.smallest phy q hq huses
        . rw [mem_singleton.mp hq]
          exact hle
    . rw [mergePhy_new hp hm]
      obtain hq | hq := mem_append.mp hq
      . exact absurd (h.uses.mpr ⟨q, hq, huses⟩) hm
      . rw [mem_singleton.mp hq]
        exact UInt16.le_refl _
  . rw [mergePhy_not hp]
    obtain hq | hq := mem_append.mp hq
    . exact h.smallest phy q hq huses
    . rw [mem_singleton.mp hq] at huses
      exact absurd huses hp

theorem Covers.asked_merge (hphy : (m.merge p).Uses phy) :
    (∃ q ∈ ps, q.Uses phy ∧ (m.mergePhy p phy).scanInterval = (q.ofPhy phy).scanInterval ∧
      (m.mergePhy p phy).scanWindow = (q.ofPhy phy).scanWindow) ∨
    p.Uses phy ∧ (m.mergePhy p phy).scanInterval = (p.ofPhy phy).scanInterval ∧
      (m.mergePhy p phy).scanWindow = (p.ofPhy phy).scanWindow := by
  by_cases hp : p.Uses phy
  . by_cases hm : m.Uses phy
    . obtain ⟨-, ⟨-, hnew⟩ | ⟨-, hinterval, hwindow⟩⟩ := mergePhy_both hp hm
      . exact .inr ⟨hp, hnew⟩
      . rw [hinterval, hwindow]
        exact .inl (h.asked phy hm)
    . rw [mergePhy_new hp hm]
      exact .inr ⟨hp, rfl, rfl⟩
  . rw [mergePhy_not hp]
    exact .inl (h.asked phy ((uses_merge.mp hphy).resolve_right hp))

theorem Covers.ownAddr_merge (hne : ps ≠ []) :
    (∀ q ∈ ps ++ [p], q.ownAddrType = (m.merge p).ownAddrType) ∨
      (m.merge p).ownAddrType = .lePublic ∧
        ∃ q ∈ ps ++ [p], ∃ r ∈ ps ++ [p], q.ownAddrType ≠ r.ownAddrType := by
  obtain ⟨q, hq⟩ := exists_mem_of_ne_nil ps hne
  have hmem : p ∈ ps ++ [p] := mem_append_right _ (mem_singleton_self p)
  unfold merge
  dsimp only
  obtain hall | ⟨hpublic, q, hq, r, hr, hdiffer⟩ := h.ownAddr
  . by_cases hsame : m.ownAddrType = p.ownAddrType
    . rw [if_neg (not_not.mpr hsame)]
      refine .inl fun r hr => ?_
      obtain hr | hr := mem_append.mp hr
      . exact hall r hr
      . rw [mem_singleton.mp hr, hsame]
    . rw [if_pos hsame]
      refine .inr ⟨rfl, q, mem_append_left _ hq, p, hmem, ?_⟩
      rw [hall q hq]
      exact hsame
  . refine .inr ⟨?_, q, mem_append_left _ hq, r, mem_append_left _ hr, hdiffer⟩
    split
    . rfl
    . exact hpublic

theorem Covers.merge (hne : ps ≠ []) (p : ScanParam) : Covers (ps ++ [p]) (m.merge p) where
  phys i := by
    rw [exists_append_one, ← h.phys]
    unfold ScanParam.merge
    rw [UInt8.toNat_or, Nat.testBit_or, Bool.or_eq_true]
  active phy hphy := by
    rw [ofPhy_merge, exists_append_one]
    exact h.active_merge hphy
  smallest phy q hq huses := by
    rw [ofPhy_merge]
    exact h.smallest_merge hq huses
  asked phy hphy := by
    rw [ofPhy_merge, exists_append_one]
    exact h.asked_merge hphy
  duplicate := by
    rw [exists_append_one, ← h.duplicate]
    unfold ScanParam.merge
    dsimp only
    split
    . next hp => exact iff_of_true rfl (.inr hp)
    . next hp => exact (or_iff_left hp).symm
  policy := by
    rw [exists_append_one, ← h.policy]
    unfold ScanParam.merge
    dsimp only
    split
    . next hp => exact iff_of_true rfl (.inr hp)
    . next hp => exact (or_iff_left hp).symm
  ownAddr := h.ownAddr_merge hne

theorem covers_foldl (hne : ps ≠ []) (qs : List ScanParam) :
    Covers (ps ++ qs) (qs.foldl ScanParam.merge m) := by
  induction qs generalizing ps m with
  | nil =>
    rw [append_nil]
    exact h
  | cons q qs ih =>
    rw [append_cons]
    exact ih (h.merge hne q) (append_ne_nil_of_right_ne_nil _ (cons_ne_nil _ _))

end

theorem covers_mergeAll (hne : ps ≠ []) : Covers ps (mergeAll ps) := by
  cases ps with
  | nil => exact absurd rfl hne
  | cons p ps => exact covers_foldl covers_singleton (cons_ne_nil _ _) ps

theorem Covers.alike (h : Covers ps m) (h' : Covers qs n) (hperm : ps.Perm qs) (hne : ps ≠ []) :
    Alike m n := by
  have hexists : ∀ P : ScanParam → Prop, (∃ p ∈ ps, P p) ↔ ∃ p ∈ qs, P p := by
    intro P
    simp only [hperm.mem_iff]
  have huses : ∀ phy, m.Uses phy ↔ n.Uses phy := fun phy => by rw [h.uses, h'.uses, hexists]
  refine ⟨?_, fun phy hphy => ?_, fun phy hphy => ?_, ?_, ?_, ?_⟩
  . rw [← UInt8.toNat_inj]
    refine Nat.eq_of_testBit_eq fun i => Bool.eq_iff_iff.mpr ?_
    rw [h.phys, h'.phys, hexists]
  . have hactive := (h.active phy hphy).trans
      ((hexists _).trans (h'.active phy ((huses phy).mp hphy)).symm)
    revert hactive
    cases (m.ofPhy phy).scanType <;> cases (n.ofPhy phy).scanType <;> simp
  . obtain ⟨p, hp, hpuses, hpi, -⟩ := h.asked phy hphy
    obtain ⟨q, hq, hquses, hqi, -⟩ := h'.asked phy ((huses phy).mp hphy)
    refine UInt16.le_antisymm ?_ ?_
    . rw [hqi]
      exact h.smallest phy q (hperm.mem_iff.mpr hq) hquses
    . rw [hpi]
      exact h'.smallest phy p (hperm.mem_iff.mp hp) hpuses
  . rw [h.duplicate, h'.duplicate, hexists]
  . rw [h.policy, h'.policy, hexists]
  . obtain hall | ⟨hpublic, p, hp, q, hq, hne⟩ := h.ownAddr <;>
      obtain hall' | ⟨hpublic', p', hp', q', hq', hne'⟩ := h'.ownAddr
    . obtain ⟨p, hp⟩ := exists_mem_of_ne_nil ps hne
      rw [← hall p hp, hall' p (hperm.mem_iff.mp hp)]
    . refine absurd ?_ hne'
      rw [hall p' (hperm.mem_iff.mpr hp'), hall q' (hperm.mem_iff.mpr hq')]
    . refine absurd ?_ hne
      rw [hall' p (hperm.mem_iff.mp hp), hall' q (hperm.mem_iff.mp hq)]
    . rw [hpublic, hpublic']

end

end ScanParam

end BleScan
