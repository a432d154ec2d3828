import Mathlib.Data.List.Nodup

/-!
This module contains the priority list of the bonds of one kind.
-/

namespace Bond

open List

abbrev BondPriority := List Nat

namespace BondPriority

variable (sort : BondPriority)

def queueFind (idx : Nat) : Option Nat := sort.findIdx? (· == idx)

def queueDelete (idx : Nat) : BondPriority × Bool :=
  match sort.queueFind idx with
  | some result => (sort.eraseIdx result, true)
  | none => (sort, false)

def setHighPriority (idx : Nat) : BondPriority × Bool :=
  match sort.queueFind idx with
  | some result =>
    if result = sort.length - 1 then
      (sort, true)
    else
      (sort.eraseIdx result ++ [idx], true)
  | none => (sort, false)

def queueAdd (maxNum idx : Nat) : BondPriority × Bool :=
  match sort.queueFind idx with
  | some _ => sort.setHighPriority idx
  | none => if sort.length = maxNum then (sort, false) else (sort ++ [idx], true)

def Moves (idx : Nat) : Prop :=
  sort.queueFind idx ≠ some (sort.length - 1)
  deriving Decidable

def getLowPriority : Option Nat := sort.head?

def getIndexByPriority (priority : Nat) : Option Nat :=
  if sort.length < priority ∨ priority = 0 then none else sort[sort.length - priority]?

section

variable {sort : BondPriority} {idx maxNum : Nat}

theorem queueFind_none : sort.queueFind idx = none ↔ idx ∉ sort := by
  rw [queueFind, findIdx?_eq_none_iff]
  constructor
  . intro h hidx
    simpa using h idx hidx
  . intro h x hx
    rw [beq_eq_false_iff_ne]
    rintro rfl
    exact h hx

theorem eraseIdx_of_queueFind (h : sort.queueFind idx = some result) :
    idx ∈ sort ∧ result < sort.length ∧ sort.eraseIdx result = sort.erase idx ∧
      sort[result]? = some idx := by
  obtain ⟨hlt, hfound, hbefore⟩ := findIdx?_eq_some_iff_getElem.mp h
  have hidx : sort[result] = idx := by simpa using hfound
  have hidxOf : sort.idxOf idx = result := by
    rw [List.idxOf, findIdx_eq hlt]
    exact ⟨hfound, fun j hj => by simpa using hbefore j hj⟩
  refine ⟨hidx ▸ getElem_mem hlt, hlt, ?_, ?_⟩
  . rw [erase_eq_eraseIdx_of_idxOf hidxOf]
  . rw [getElem?_eq_getElem hlt, hidx]

theorem queueDelete_eq : sort.queueDelete idx = (sort.erase idx, decide (idx ∈ sort)) := by
  unfold queueDelete
  split
  . next result h =>
    obtain ⟨hmem, -, herase, -⟩ := eraseIdx_of_queueFind h
    rw [herase, decide_eq_true hmem]
  . next h =>
    have hmem := queueFind_none.mp h
    rw [erase_of_not_mem hmem, decide_eq_false hmem]

theorem setHighPriority_mem (h : idx ∈ sort) :
    sort.setHighPriority idx = (sort.erase idx ++ [idx], true) := by
  unfold setHighPriority
  split
  . next result hfind =>
    obtain ⟨-, hlt, herase, hget⟩ := eraseIdx_of_queueFind hfind
    split
    . next hlast =>
      congr 1
      rw [← herase, hlast, eraseIdx_length_sub_one]
      rw [getElem?_eq_getElem hlt, Option.some.injEq] at hget
      have hne : sort ≠ [] := ne_nil_of_mem h
      have hlastElem : sort.getLast hne = idx := by
        rw [getLast_eq_getElem, ← hget]
        congr 1
        exact hlast.symm
      rw [← hlastElem, dropLast_append_getLast hne]
    . rw [herase]
  . next hfind => exact absurd h (queueFind_none.mp hfind)

theorem setHighPriority_not_mem (h : idx ∉ sort) : sort.setHighPriority idx = (sort, false) := by
  unfold setHighPriority
  rw [queueFind_none.mpr h]

theorem queueAdd_mem (h : idx ∈ sort) :
    sort.queueAdd maxNum idx = (sort.erase idx ++ [idx], true) := by
  unfold queueAdd
  split
  . exact setHighPriority_mem h
  . next hfind => exact absurd h (queueFind_none.mp hfind)

theorem queueAdd_not_mem (h : idx ∉ sort) (hlen : sort.length ≠ maxNum) :
    sort.queueAdd maxNum idx = (sort ++ [idx], true) := by
  unfold queueAdd
  rw [queueFind_none.mpr h]
  exact if_neg hlen

theorem nodup_raise (hnodup : sort.Nodup) : (sort.erase idx ++ [idx]).Nodup := by
  rw [nodup_append]
  refine ⟨hnodup.erase idx, nodup_singleton idx, fun a ha b hb => ?_⟩
  rw [mem_singleton.mp hb]
  exact ((hnodup.mem_erase_iff).mp ha).1

theorem mem_raise (hnodup : sort.Nodup) {i : Nat} :
    i ∈ sort.erase idx ++ [idx] ↔ i = idx ∨ i ∈ sort := by
  rw [mem_append, mem_singleton, hnodup.mem_erase_iff]
  by_cases hi : i = idx
  . simp [hi]
  . simp [hi]

end

end BondPriority

end Bond
