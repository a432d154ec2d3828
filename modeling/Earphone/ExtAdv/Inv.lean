import Earphone.ExtAdv.Basic
import Mathlib.Data.List.Nodup

namespace ExtAdv

open List

def Event.StartStop (e : Event) (advHandle : Nat) : Bool :=
  e.advHandle == advHandle && e.expectedAction != .update

def count (advHandle : Nat) (queue : List Event) : Nat := queue.countP (·.StartStop advHandle)

def settle (advHandle : Nat) (advertising : Bool) : List Event → Bool
  | [] => advertising
  | e :: queue =>
    if e.StartStop advHandle then
      settle advHandle (e.expectedAction == .start) queue
    else
      settle advHandle advertising queue

section

variable {advHandle : Nat} {b b' : Bool} {e : Event} {queue : List Event}

theorem count_cons : count advHandle (e :: queue) =
    count advHandle queue + if e.StartStop advHandle then 1 else 0 := by
  simp [count, countP_cons]

theorem count_append : count advHandle (queue ++ [e]) =
    count advHandle queue + if e.StartStop advHandle then 1 else 0 := by
  simp [count, countP_append, countP_singleton]

theorem count_le : count advHandle queue ≤ queue.length := countP_le_length

theorem settle_append : settle advHandle b (queue ++ [e]) =
    if e.StartStop advHandle then e.expectedAction == .start else settle advHandle b queue := by
  induction queue generalizing b with
  | nil => rfl
  | cons e' queue ih =>
    simp only [cons_append, settle, ih]
    split <;> split <;> rfl

theorem settle_congr (h : count advHandle queue ≠ 0) :
    settle advHandle b queue = settle advHandle b' queue := by
  induction queue with
  | nil => exact absurd rfl h
  | cons e queue ih =>
    unfold settle
    split
    . rfl
    . next he =>
      rw [count_cons, if_neg he] at h
      exact ih h

theorem settle_eq_self (h : count advHandle queue = 0) : settle advHandle b queue = b := by
  induction queue with
  | nil => rfl
  | cons e queue ih =>
    rw [count_cons] at h
    unfold settle
    split
    . next he =>
      rw [if_pos he] at h
      cases h
    . exact ih (by omega)

end

namespace AdvSet

def target (s : AdvSet) : Bool :=
  match s.pendingAction with
  | .start => true
  | .stop => false
  | .idle | .update => s.extAdvState == .advertising

def Phase (s : AdvSet) : Prop :=
  match s.pendingAction with
  | .start => s.extAdvState = .idle ∨ s.extAdvState = .start
  | .stop => s.extAdvState = .advertising ∨ s.extAdvState = .stop
  | .idle | .update => s.extAdvState = .idle ∨ s.extAdvState = .advertising

structure Inv (queue : List Event) (s : AdvSet) : Prop where
  num : s.pendingStartStopNum = count s.advHandle queue
  settles : s.enabled = settle s.advHandle s.target queue
  phase : s.Phase

end AdvSet

namespace World

structure Inv (w : World) : Prop where
  distinct : (w.sets.map (·.advHandle)).Nodup
  room : w.queue.length ≤ maxNumOfExtendAdvEvent
  sets : ∀ s ∈ w.sets, s.Inv w.queue
  one : ∀ s ∈ w.sets, ∀ t ∈ w.sets, s.pendingAction ≠ .idle → t.pendingAction ≠ .idle →
    s.advHandle = t.advHandle
  busy : w.queue ≠ [] → w.findPending = true

section

variable {w : World} {s : AdvSet} {advHandle : Nat}

theorem set?_handle (h : w.set? advHandle = some s) : s.advHandle = advHandle := by
  have hp := find?_some h
  simpa using hp

theorem set?_mem (h : w.set? advHandle = some s) : s ∈ w.sets := mem_of_find?_eq_some h

theorem findPending_iff : w.findPending = true ↔ ∃ s ∈ w.sets, s.pendingAction ≠ .idle := by
  simp [findPending]

theorem findPending_false : w.findPending = false ↔ ∀ s ∈ w.sets, s.pendingAction = .idle := by
  simp [findPending]

theorem eq_of_handle (h : (w.sets.map (·.advHandle)).Nodup) (hs : s ∈ w.sets)
    (ht : t ∈ w.sets) (heq : s.advHandle = t.advHandle) : s = t :=
  inj_on_of_nodup_map h hs ht heq

theorem set?_of_mem (h : (w.sets.map (·.advHandle)).Nodup) (hs : s ∈ w.sets) :
    w.set? s.advHandle = some s := by
  cases hfind : w.set? s.advHandle with
  | none =>
    have hne := find?_eq_none.mp hfind s hs
    simp at hne
  | some t => rw [eq_of_handle h hs (set?_mem hfind) (set?_handle hfind).symm]

end

section

variable {w : World} {s s' : AdvSet} {advHandle : Nat} {f : AdvSet → AdvSet}

theorem mem_modify (h : (l.map (·.advHandle)).Nodup)
    (hs : s' ∈ First.modify (·.advHandle == advHandle) f l) :
    (s' ∈ l ∧ s'.advHandle ≠ advHandle) ∨
      ∃ s, l.find? (·.advHandle == advHandle) = some s ∧ s' = f s := by
  induction l with
  | nil => cases hs
  | cons a l ih =>
    obtain ⟨ha, hl⟩ := nodup_cons.mp h
    unfold First.modify at hs
    split at hs
    . next hp =>
      have hah : a.advHandle = advHandle := by simpa using hp
      obtain rfl | hs' := mem_cons.mp hs
      . exact .inr ⟨a, find?_cons_of_pos hp, rfl⟩
      . refine .inl ⟨mem_cons_of_mem _ hs', fun heq => ha ?_⟩
        exact mem_map.mpr ⟨s', hs', heq.trans hah.symm⟩
    . next hp =>
      have hne : a.advHandle ≠ advHandle := by simpa using hp
      obtain rfl | hs' := mem_cons.mp hs
      . exact .inl ⟨mem_cons_self, hne⟩
      . obtain ⟨hmem, hne'⟩ | ⟨t, ht, heq⟩ := ih hl hs'
        . exact .inl ⟨mem_cons_of_mem _ hmem, hne'⟩
        . refine .inr ⟨t, ?_, heq⟩
          have hp' : (a.advHandle == advHandle) = false := by simpa using hne
          rw [find?_cons, hp']
          exact ht

theorem mem_update (h : (w.sets.map (·.advHandle)).Nodup)
    (hs : s' ∈ (w.update advHandle f).sets) :
    (s' ∈ w.sets ∧ s'.advHandle ≠ advHandle) ∨ ∃ s, w.set? advHandle = some s ∧ s' = f s :=
  mem_modify h hs

theorem map_update (hf : ∀ s, (f s).advHandle = s.advHandle) :
    (w.update advHandle f).sets.map (·.advHandle) = w.sets.map (·.advHandle) :=
  First.map_modify hf _

theorem set?_update (hf : ∀ s, (f s).advHandle = s.advHandle) :
    (w.update advHandle f).set? advHandle = (w.set? advHandle).map f :=
  First.find?_modify_self f (fun s => by rw [hf]) _

theorem findPending_update (hf : ∀ s, (f s).pendingAction = s.pendingAction) :
    (w.update advHandle f).findPending = w.findPending := by
  have hmap := @First.map_modify _ _ (·.advHandle == advHandle) f
    (fun s : AdvSet => s.pendingAction != .idle) (fun s => by rw [hf]) w.sets
  have hany : ∀ l : List AdvSet, l.any (·.pendingAction != .idle) =
      (l.map (fun s : AdvSet => s.pendingAction != .idle)).any id := by
    intro l
    rw [any_map]
    rfl
  rw [findPending, findPending, hany, hany]
  exact congrArg (List.any · id) hmap

theorem findPending_of_update (hf : ∀ s, (f s).advHandle = s.advHandle)
    (h : w.set? advHandle = some s) (hs : (f s).pendingAction ≠ .idle) :
    (w.update advHandle f).findPending = true := by
  have hset := @set?_update w advHandle f hf
  rw [h] at hset
  exact findPending_iff.mpr ⟨f s, set?_mem hset, hs⟩

end

end World

end ExtAdv
