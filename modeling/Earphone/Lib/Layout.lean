import Mathlib.Algebra.GroupWithZero.Nat
import Mathlib.Data.List.Pairwise
import Mathlib.Tactic.Common

/-!
This module contains structures as a compiler lays them out in memory.
-/

namespace Layout

structure Member (φ : Type) where
  name : φ
  size : Nat
  align : Nat
  align_pos : 0 < align := by decide

structure Span where
  offset : Nat
  size : Nat
  deriving DecidableEq

abbrev Bytes := Nat → UInt8

def Span.places (s : Span) : List Nat := (List.range s.size).map (s.offset + ·)

def Span.stop (s : Span) : Nat := s.offset + s.size

def Span.Apart (s t : Span) : Prop := s.stop ≤ t.offset ∨ t.stop ≤ s.offset
  deriving Decidable

def roundUp (n align : Nat) : Nat := (n + align - 1) / align * align

section

variable {φ : Type}

def place : Nat → List (Member φ) → List (φ × Span)
  | _, [] => []
  | n, m :: ms =>
    (m.name, ⟨roundUp n m.align, m.size⟩) :: place (roundUp n m.align + m.size) ms

def placeEnd : Nat → List (Member φ) → Nat
  | n, [] => n
  | n, m :: ms => placeEnd (roundUp n m.align + m.size) ms

def maxAlign (ms : List (Member φ)) : Nat := ms.foldr (fun m n => max m.align n) 1

def sizeof (ms : List (Member φ)) : Nat := roundUp (placeEnd 0 ms) (maxAlign ms)

def span [DecidableEq φ] (ms : List (Member φ)) (f : φ) : Span :=
  (((place 0 ms).find? (·.1 = f)).map (·.2)).getD ⟨0, 0⟩

theorem le_roundUp (n : Nat) (h : 0 < align) : n ≤ roundUp n align := by
  unfold roundUp
  have hdiv := Nat.div_add_mod (n + align - 1) align
  have hmod := Nat.mod_lt (n + align - 1) h
  rw [Nat.mul_comm] at hdiv
  omega

theorem le_placeEnd (n : Nat) (ms : List (Member φ)) : n ≤ placeEnd n ms := by
  induction ms generalizing n with
  | nil => exact Nat.le_refl n
  | cons m ms ih =>
    have hround := le_roundUp n m.align_pos
    have hrest := ih (roundUp n m.align + m.size)
    unfold placeEnd
    omega

theorem maxAlign_pos (ms : List (Member φ)) : 0 < maxAlign ms := by
  unfold maxAlign
  induction ms with
  | nil => exact Nat.one_pos
  | cons m ms ih => exact Nat.lt_of_lt_of_le ih (Nat.le_max_right ..)

theorem mem_place (h : e ∈ place n ms) : n ≤ e.2.offset ∧ e.2.stop ≤ placeEnd n ms := by
  induction ms generalizing n with
  | nil => cases h
  | cons m ms ih =>
    have hround := le_roundUp n m.align_pos
    unfold place at h
    unfold placeEnd
    cases h with
    | head => exact ⟨hround, le_placeEnd ..⟩
    | tail _ h =>
      have := ih h
      omega

variable [DecidableEq φ]

theorem span_cases (ms : List (Member φ)) (f : φ) :
    (f, span ms f) ∈ place 0 ms ∨ span ms f = ⟨0, 0⟩ := by
  unfold span
  cases h : (place 0 ms).find? (·.1 = f) with
  | none => exact .inr rfl
  | some e =>
    have hname := List.find?_some h
    rw [decide_eq_true_eq] at hname
    left
    rw [← hname]
    exact List.mem_of_find?_eq_some h

theorem span_stop_le (ms : List (Member φ)) (f : φ) : (span ms f).stop ≤ sizeof ms := by
  obtain h | h := span_cases ms f
  . exact Nat.le_trans (mem_place h).2 (le_roundUp _ (maxAlign_pos ms))
  . rw [h]
    exact Nat.zero_le _

end

def loadFrom (m : Bytes) : Nat → Nat → Nat
  | _, 0 => 0
  | i, n + 1 => (m i).toNat + 2 ^ 8 * loadFrom m (i + 1) n

def load (s : Span) (m : Bytes) : Nat := loadFrom m s.offset s.size

def blit (src : Bytes) (i j n : Nat) (m : Bytes) : Bytes :=
  fun k => if j ≤ k ∧ k < j + n then src (k - j + i) else m k

theorem blit_apart (src : Bytes) (i : Nat) (h : k < j ∨ j + n ≤ k) (m : Bytes) :
    blit src i j n m k = m k := by
  unfold blit
  apply if_neg
  omega

theorem load_eq (hsize : s.size = t.size)
    (h : ∀ i, i < t.size → m (s.offset + i) = m' (t.offset + i)) : load s m = load t m' := by
  unfold load
  rw [hsize]
  generalize t.size = n at h
  generalize s.offset = i at *
  generalize t.offset = j at *
  induction n generalizing i j with
  | zero => rfl
  | succ n ih =>
    unfold loadFrom
    have hrest := ih (i + 1) (j + 1) fun k hk => by
      rw [Nat.add_right_comm, Nat.add_right_comm j]
      exact h (k + 1) (by omega)
    have hfirst : m i = m' j := h 0 (by omega)
    rw [hrest, hfirst]

theorem load_congr (h : ∀ i, s.offset ≤ i → i < s.stop → m i = m' i) : load s m = load s m' := by
  apply load_eq rfl
  intro i hi
  apply h
  . omega
  . unfold Span.stop
    omega

theorem load_blit (src : Bytes) (s t : Span) (hsize : s.size = t.size) (m : Bytes) :
    load t (blit src s.offset t.offset t.size m) = load s src := by
  apply load_eq hsize.symm
  intro i hi
  unfold blit
  rw [if_pos (by omega)]
  congr 1
  omega

def store (s : Span) (v : Nat) (m : Bytes) : Bytes :=
  blit (fun i => UInt8.ofNat (v >>> (8 * i))) 0 s.offset s.size m

theorem store_apart (v : Nat) (h : k < s.offset ∨ s.stop ≤ k) (m : Bytes) : store s v m k = m k :=
  blit_apart _ _ h m

theorem loadFrom_digits (v i n : Nat) :
    loadFrom (fun k => UInt8.ofNat (v >>> (8 * k))) i n = (v >>> (8 * i)) % 2 ^ (8 * n) := by
  induction n generalizing i with
  | zero => simp [loadFrom, Nat.mod_one]
  | succ n ih =>
    unfold loadFrom
    have hnext : v >>> (8 * (i + 1)) = v >>> (8 * i) / 2 ^ 8 := by
      rw [Nat.mul_add, Nat.shiftRight_add, Nat.shiftRight_eq_div_pow]
    rw [ih, hnext, UInt8.toNat_ofNat', Nat.mul_add, Nat.add_comm (8 * n), Nat.pow_add, Nat.mod_mul]

theorem load_store (h : v < 2 ^ (8 * s.size)) (m : Bytes) : load s (store s v m) = v := by
  unfold store
  have hload := load_blit (fun i => UInt8.ofNat (v >>> (8 * i))) ⟨0, s.size⟩ s rfl m
  rw [hload]
  unfold load
  rw [loadFrom_digits]
  exact Nat.mod_eq_of_lt h

end Layout
