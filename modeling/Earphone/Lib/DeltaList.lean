import Mathlib.Data.List.Nodup

/-!
This module contains delta lists.
-/

abbrev DeltaList (κ : Type) := List (κ × Nat)

namespace DeltaList

open List

variable {κ : Type}

def keys (xs : DeltaList κ) : List κ := xs.map Prod.fst

def charge : Nat → DeltaList κ → DeltaList κ
  | _, [] => []
  | d, (k, l) :: xs =>
    if d = 0 then
      (k, l) :: xs
    else if d ≤ l then
      (k, l - d) :: xs
    else
      (k, 0) :: charge (d - l) xs

def insert (k : κ) : Nat → DeltaList κ → DeltaList κ
  | l, [] => [(k, l)]
  | l, (j, m) :: xs =>
    if m ≤ l then
      (j, m) :: insert k (l - m) xs
    else
      (k, l) :: (j, m - l) :: xs

variable [DecidableEq κ]

def delete (k : κ) : DeltaList κ → DeltaList κ
  | [] => []
  | (j, m) :: xs =>
    if j = k then
      match xs with
      | [] => []
      | (i, n) :: ys => (i, n + m) :: ys
    else
      (j, m) :: delete k xs

def offset? (k : κ) : DeltaList κ → Option Nat
  | [] => none
  | (j, m) :: xs => if j = k then some m else (offset? k xs).map (m + ·)

omit [DecidableEq κ] in
@[simp]
theorem keys_nil : keys ([] : DeltaList κ) = [] := rfl

omit [DecidableEq κ] in
@[simp]
theorem keys_cons (k : κ) (l : Nat) (xs : DeltaList κ) : keys ((k, l) :: xs) = k :: keys xs := rfl

@[simp]
theorem offset?_nil (k : κ) : offset? k [] = none := rfl

@[simp]
theorem offset?_cons_self (k : κ) (l : Nat) (xs : DeltaList κ) :
    offset? k ((k, l) :: xs) = some l := by
  simp [offset?]

theorem offset?_cons_ne (h : j ≠ k) (l : Nat) (xs : DeltaList κ) :
    offset? k ((j, l) :: xs) = (offset? k xs).map (l + ·) := by
  simp [offset?, h]

theorem offset?_eq_none {k : κ} {xs : DeltaList κ} : offset? k xs = none ↔ k ∉ keys xs := by
  induction xs with
  | nil => simp
  | cons x xs ih =>
    obtain ⟨j, m⟩ := x
    by_cases h : j = k
    . subst h
      simp
    . rw [offset?_cons_ne h]
      simp [ih, Ne.symm h]

theorem mem_keys_of_offset? {k : κ} {xs : DeltaList κ} {l : Nat} (h : offset? k xs = some l) :
    k ∈ keys xs := by
  by_contra hk
  rw [offset?_eq_none.mpr hk] at h
  cases h

theorem exists_offset? {k : κ} {xs : DeltaList κ} (h : k ∈ keys xs) :
    ∃ l, offset? k xs = some l := by
  cases hk : offset? k xs with
  | none => exact absurd h (offset?_eq_none.mp hk)
  | some l => exact ⟨l, rfl⟩

theorem offset?_cons_eq_some {j k : κ} (h : j ≠ k) {l m : Nat} {xs : DeltaList κ}
    (hm : offset? k xs = some m) : offset? k ((j, l) :: xs) = some (l + m) := by
  rw [offset?_cons_ne h, hm]
  rfl

theorem pairwise_offset? {xs : DeltaList κ} (hnodup : (keys xs).Nodup) :
    (keys xs).Pairwise fun j k => ∀ l m, offset? j xs = some l → offset? k xs = some m → l ≤ m := by
  induction xs with
  | nil => exact List.Pairwise.nil
  | cons x xs ih =>
    obtain ⟨i, n⟩ := x
    rw [keys_cons, nodup_cons] at hnodup
    rw [keys_cons, pairwise_cons]
    have hne : ∀ k ∈ keys xs, i ≠ k := fun k hk hik => hnodup.1 (hik ▸ hk)
    have hsplit : ∀ {k l}, k ∈ keys xs → offset? k ((i, n) :: xs) = some l →
        ∃ l', offset? k xs = some l' ∧ l = n + l' := by
      intro k l hk hl
      obtain ⟨l', hl'⟩ := exists_offset? hk
      rw [offset?_cons_eq_some (hne k hk) hl', Option.some.injEq] at hl
      exact ⟨l', hl', hl.symm⟩
    constructor
    . intro k hk l m hl hm
      rw [offset?_cons_self, Option.some.injEq] at hl
      obtain ⟨m', -, rfl⟩ := hsplit hk hm
      omega
    . refine List.Pairwise.imp_of_mem (fun {j k} hj hk hle l m hl hm => ?_) (ih hnodup.2)
      obtain ⟨l', hl', rfl⟩ := hsplit hj hl
      obtain ⟨m', hm', rfl⟩ := hsplit hk hm
      have := hle l' m' hl' hm'
      omega

omit [DecidableEq κ] in
@[simp]
theorem charge_zero (xs : DeltaList κ) : charge 0 xs = xs := by
  cases xs <;> simp [charge]

omit [DecidableEq κ] in
omit [DecidableEq κ] in
@[simp]
theorem keys_charge (d : Nat) (xs : DeltaList κ) : keys (charge d xs) = keys xs := by
  induction xs generalizing d with
  | nil => rfl
  | cons x xs ih =>
    obtain ⟨j, m⟩ := x
    unfold charge
    split
    . rfl
    . split
      . rfl
      . simp [ih]

omit [DecidableEq κ] in
theorem charge_cons (d : Nat) (k : κ) (l : Nat) (xs : DeltaList κ) :
    charge d ((k, l) :: xs) = (k, l - d) :: charge (d - l) xs := by
  by_cases h0 : d = 0
  . subst h0
    simp
  . by_cases hl : d ≤ l
    . have : d - l = 0 := by omega
      simp [charge, h0, hl, this]
    . have : l - d = 0 := by omega
      simp [charge, h0, hl, this]

theorem offset?_charge (d : Nat) (k : κ) (xs : DeltaList κ) :
    offset? k (charge d xs) = (offset? k xs).map (· - d) := by
  induction xs generalizing d with
  | nil => rfl
  | cons x xs ih =>
    obtain ⟨j, m⟩ := x
    rw [charge_cons]
    by_cases h : j = k
    . subst h
      simp
    . rw [offset?_cons_ne h, offset?_cons_ne h, ih]
      cases offset? k xs with
      | none => rfl
      | some l =>
        simp only [Option.map_some, Option.some.injEq]
        omega

omit [DecidableEq κ] in
theorem mem_keys_insert : j ∈ keys (insert k l xs) ↔ j = k ∨ j ∈ keys xs := by
  induction xs generalizing l with
  | nil => simp [insert]
  | cons x xs ih =>
    obtain ⟨i, m⟩ := x
    unfold insert
    split
    . simp only [keys_cons, mem_cons, ih]
      tauto
    . simp

omit [DecidableEq κ] in
theorem nodup_keys_insert (hk : k ∉ keys xs)
    (hxs : (keys xs).Nodup) : (keys (insert k l xs)).Nodup := by
  induction xs generalizing l with
  | nil => simp [insert]
  | cons x xs ih =>
    obtain ⟨i, m⟩ := x
    simp only [keys_cons, mem_cons, not_or, nodup_cons] at hk hxs
    unfold insert
    split
    . simp only [keys_cons, nodup_cons, mem_keys_insert, not_or]
      exact ⟨⟨Ne.symm hk.1, hxs.1⟩, ih hk.2 hxs.2⟩
    . simp only [keys_cons, nodup_cons, mem_cons, not_or]
      exact ⟨⟨hk.1, hk.2⟩, hxs⟩

theorem offset?_insert_self {k : κ} {l : Nat} {xs : DeltaList κ} (hk : k ∉ keys xs) :
    offset? k (insert k l xs) = some l := by
  induction xs generalizing l with
  | nil => simp [insert]
  | cons x xs ih =>
    obtain ⟨j, m⟩ := x
    simp only [keys_cons, mem_cons, not_or] at hk
    unfold insert
    split
    . next h =>
      rw [offset?_cons_ne (Ne.symm hk.1), ih hk.2]
      simp only [Option.map_some, Option.some.injEq]
      omega
    . simp

theorem offset?_insert_ne (h : j ≠ k) (l : Nat) (xs : DeltaList κ) :
    offset? j (insert k l xs) = offset? j xs := by
  induction xs generalizing l with
  | nil => simp [insert, offset?, Ne.symm h]
  | cons x xs ih =>
    obtain ⟨i, m⟩ := x
    unfold insert
    split
    . by_cases hi : i = j
      . subst hi
        simp
      . rw [offset?_cons_ne hi, offset?_cons_ne hi, ih]
    . next hm =>
      rw [offset?_cons_ne (Ne.symm h)]
      by_cases hi : i = j
      . subst hi
        simp only [offset?_cons_self, Option.map_some, Option.some.injEq]
        omega
      . rw [offset?_cons_ne hi, offset?_cons_ne hi]
        cases offset? j xs with
        | none => rfl
        | some n =>
          simp only [Option.map_some, Option.some.injEq]
          omega

omit [DecidableEq κ] in
theorem insert_cons_zero (k j : κ) (l : Nat) (xs : DeltaList κ) :
    insert k l ((j, 0) :: xs) = (j, 0) :: insert k l xs := by
  simp [insert]

theorem keys_delete (k : κ) (xs : DeltaList κ) : keys (delete k xs) = (keys xs).erase k := by
  induction xs with
  | nil => rfl
  | cons x xs ih =>
    obtain ⟨j, m⟩ := x
    unfold delete
    split
    . next h =>
      subst h
      cases xs with
      | nil => simp
      | cons y ys =>
        obtain ⟨i, n⟩ := y
        simp
    . next h => simp [ih, erase_cons_tail, h]

theorem offset?_delete_ne (h : j ≠ k) (xs : DeltaList κ) :
    offset? j (delete k xs) = offset? j xs := by
  induction xs with
  | nil => rfl
  | cons x xs ih =>
    obtain ⟨i, m⟩ := x
    unfold delete
    split
    . next hi =>
      subst hi
      rw [offset?_cons_ne (Ne.symm h)]
      cases xs with
      | nil => rfl
      | cons y ys =>
        obtain ⟨i', n⟩ := y
        by_cases hj : i' = j
        . subst hj
          simp [Nat.add_comm]
        . dsimp only
          rw [offset?_cons_ne hj, offset?_cons_ne hj]
          cases offset? j ys with
          | none => rfl
          | some n =>
            simp only [Option.map_some, Option.some.injEq]
            omega
    . by_cases hi : i = j
      . subst hi
        simp
      . rw [offset?_cons_ne hi, offset?_cons_ne hi, ih]

end DeltaList
