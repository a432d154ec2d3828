import Earphone.Lib.Scan

/-!
This module contains byte strings that a loop copies one behind the other.
-/

namespace Slices

open Scan List

variable {α : Type}

def copyTo (area : List α) (p : Nat) (src : List α) : Except Stuck (List α) :=
  if p + src.length ≤ area.length then .ok (area.take p ++ src ++ area.drop (p + src.length))
  else .error .overflow

def lay (advance : Nat → Nat) :
    List (List α) → Nat → List α → Except Stuck (List (Option Nat) × List α)
  | [], _, area => .ok ([], area)
  | c :: rest, p, area =>
    if 0 < c.length then do
      let area ← copyTo area p c
      let r ← lay advance rest (p + advance c.length) area
      return (some p :: r.1, r.2)
    else do
      let r ← lay advance rest p area
      return (none :: r.1, r.2)

def place : Nat → List (List α) → List (Option Nat)
  | _, [] => []
  | p, c :: rest => (if 0 < c.length then some p else none) :: place (p + c.length) rest

def Advances (advance : Nat → Nat) : List (List α) → Prop
  | [] => True
  | c :: rest =>
    (c ≠ [] → (∃ d ∈ rest, d ≠ []) → advance c.length = c.length) ∧ Advances advance rest

theorem copyTo_spec {area src : List α} {p : Nat} (h : p + src.length ≤ area.length) :
    ∃ area', copyTo area p src = .ok area' ∧ area'.length = area.length ∧
      ∀ j, area'[j]? = if p ≤ j ∧ j < p + src.length then src[j - p]? else area[j]? := by
  refine ⟨_, if_pos h, by simp; omega, fun j => ?_⟩
  rw [append_assoc, getElem?_append, length_take, getElem?_append,
    getElem?_take, getElem?_drop]
  have hmin : min p area.length = p := by omega
  rw [hmin]
  by_cases hp : j < p
  . rw [if_pos hp, if_pos hp, if_neg (by omega)]
  . rw [if_neg hp]
    by_cases hj : j - p < src.length
    . rw [if_pos hj, if_pos (by omega)]
    . rw [if_neg hj, if_neg (by omega)]
      congr 1
      omega

section

variable {advance : Nat → Nat} {chunks : List (List α)} {done tail : List α} {p q : Nat}

theorem advances_id : Advances id chunks := by
  induction chunks with
  | nil => trivial
  | cons c rest ih => exact ⟨fun _ _ => rfl, ih⟩

@[simp]
theorem place_length : (place p chunks).length = chunks.length := by
  induction chunks generalizing p with
  | nil => rfl
  | cons c rest ih => rw [place, length_cons, ih, length_cons]

theorem copyTo_done {src : List α} (h : src.length ≤ tail.length) :
    copyTo (done ++ tail) done.length src = .ok (done ++ src ++ tail.drop src.length) := by
  unfold copyTo
  rw [if_pos (by rw [length_append]; omega)]
  simp

theorem lay_ok (hadvance : Advances advance chunks) (htail : tail.length = chunks.flatten.length)
    (hp : (∃ d ∈ chunks, d ≠ []) → p = done.length) :
    lay advance chunks p (done ++ tail) =
      .ok (place done.length chunks, done ++ chunks.flatten) := by
  induction chunks generalizing p done tail with
  | nil =>
    have hnil : tail = [] := eq_nil_of_length_eq_zero htail
    rw [hnil]
    rfl
  | cons c rest ih =>
    obtain ⟨hc, hrest⟩ := hadvance
    rw [flatten_cons, length_append] at htail
    by_cases h0 : 0 < c.length
    . have hne : c ≠ [] := ne_nil_of_length_pos h0
      have hcopy := @copyTo_done α done tail c (by omega)
      rw [lay, if_pos h0, hp ⟨c, mem_cons_self, hne⟩, hcopy]
      have hnext := @ih (done ++ c) (tail.drop c.length) (done.length + advance c.length) hrest
        (by rw [length_drop]; omega) fun hleft => by rw [hc hne hleft, length_append]
      simp only [bind, Except.bind]
      rw [hnext]
      simp only [pure, Except.pure, place, if_pos h0, length_append, flatten_cons,
        append_assoc]
    . have hnil : c = [] := eq_nil_of_length_eq_zero (by omega)
      subst hnil
      have hnext := @ih done tail p hrest (by simpa using htail)
        fun ⟨d, hd, hne⟩ => hp ⟨d, mem_cons_of_mem _ hd, hne⟩
      rw [lay, if_neg h0, hnext, place, if_neg h0]
      rfl

theorem place_get {i : Nat} {c : List α} (hq : (place p chunks)[i]? = some (some q))
    (hc : chunks[i]? = some c) :
    p ≤ q ∧ q + c.length ≤ p + chunks.flatten.length ∧
      (chunks.flatten.drop (q - p)).take c.length = c := by
  induction chunks generalizing p i with
  | nil => simp at hc
  | cons d rest ih =>
    rw [flatten_cons, length_append]
    cases i with
    | zero =>
      simp only [getElem?_cons_zero, Option.some.injEq] at hc
      subst hc
      simp only [place, getElem?_cons_zero, Option.some.injEq] at hq
      split_ifs at hq
      simp only [Option.some.injEq] at hq
      subst hq
      exact ⟨Nat.le_refl _, by omega, by simp⟩
    | succ i =>
      simp only [place, getElem?_cons_succ] at hq hc
      obtain ⟨hle, hend, htake⟩ := ih hq hc
      refine ⟨by omega, by omega, ?_⟩
      have hdrop : q - p - d.length = q - (p + d.length) := by omega
      rw [drop_append, drop_eq_nil_of_le (by omega), hdrop, nil_append]
      exact htake

theorem place_lt {i j q' : Nat} {c : List α} (hij : i < j)
    (hq : (place p chunks)[i]? = some (some q)) (hq' : (place p chunks)[j]? = some (some q'))
    (hc : chunks[i]? = some c) : q + c.length ≤ q' := by
  induction chunks generalizing p i j with
  | nil => simp at hc
  | cons d rest ih =>
    cases j with
    | zero => omega
    | succ j =>
      cases i with
      | zero =>
        simp only [getElem?_cons_zero, Option.some.injEq] at hc
        subst hc
        simp only [place, getElem?_cons_zero, getElem?_cons_succ,
          Option.some.injEq] at hq hq'
        split_ifs at hq
        simp only [Option.some.injEq] at hq
        subst hq
        have hbound : j < rest.length := by
          have h := (List.getElem?_eq_some_iff.mp hq').1
          rwa [place_length] at h
        exact (place_get hq' (List.getElem?_eq_getElem hbound)).1
      | succ i =>
        simp only [place, getElem?_cons_succ] at hq hq' hc
        exact ih (by omega) hq hq' hc

theorem place_none {i : Nat} {c : List α} (hq : (place p chunks)[i]? = some none)
    (hc : chunks[i]? = some c) : c = [] := by
  induction chunks generalizing p i with
  | nil => simp at hc
  | cons d rest ih =>
    cases i with
    | zero =>
      simp only [getElem?_cons_zero, Option.some.injEq] at hc
      subst hc
      simp only [place, getElem?_cons_zero, Option.some.injEq] at hq
      split_ifs at hq with h0
      exact eq_nil_of_length_eq_zero (by omega)
    | succ i =>
      simp only [place, getElem?_cons_succ] at hq hc
      exact ih hq hc

end

end Slices
