import Mathlib.Algebra.GroupWithZero.Nat
import Mathlib.Tactic.Common

/-!
This module contains the reading of bytes by a program that may go wrong.
-/

namespace Scan

inductive Stuck where
  | outside
  | slice
  | overflow
  | endless
  deriving DecidableEq

structure Slice where
  start : Nat
  len : Nat

def Slice.Within (s : Slice) (bytes : List UInt8) : Prop := s.start + s.len ≤ bytes.length
  deriving Decidable

def byteAt (bytes : List UInt8) (i : Nat) : Except Stuck Nat :=
  match bytes[i]? with
  | some b => .ok b.toNat
  | none => .error .outside

def be16At (bytes : List UInt8) (i : Nat) : Except Stuck Nat := do
  let hi ← byteAt bytes i
  let lo ← byteAt bytes (i + 1)
  return hi * 256 + lo

def bytesAt (bytes : List UInt8) (i n : Nat) : Except Stuck (List UInt8) :=
  if i + n ≤ bytes.length then .ok ((bytes.drop i).take n) else .error .outside

def sliceAt (bytes : List UInt8) (s : Slice) : Except Stuck Slice :=
  if s.Within bytes then .ok s else .error .slice

def sub16 (a b : Nat) : Nat := (a + (65536 - b % 65536)) % 65536

theorem sub16_le (hle : b ≤ a) (ha : a < 65536) : sub16 a b = a - b := by
  unfold sub16
  omega

section

variable {bytes : List UInt8} {i n : Nat}

theorem byteAt_lt (h : i < bytes.length) : byteAt bytes i = .ok bytes[i].toNat := by
  simp [byteAt, h]

theorem byteAt_ge (h : bytes.length ≤ i) : byteAt bytes i = .error .outside := by
  simp [byteAt, h]

theorem byteAt_ok (h : byteAt bytes i = .ok b) : i < bytes.length := by
  by_contra hi
  rw [byteAt_ge (by omega)] at h
  cases h

theorem bytesAt_le (h : i + n ≤ bytes.length) :
    bytesAt bytes i n = .ok ((bytes.drop i).take n) := by
  simp [bytesAt, h]

end

theorem bind_ok {x : Except Stuck α} {f : α → Except Stuck β} {r : β} :
    (x >>= f) = .ok r ↔ ∃ a, x = .ok a ∧ f a = .ok r := by
  cases x with
  | error e => simp [bind, Except.bind]
  | ok a => simp [bind, Except.bind]

theorem bind_error {x : Except Stuck α} {f : α → Except Stuck β} {e : Stuck} :
    (x >>= f) = .error e ↔ x = .error e ∨ ∃ a, x = .ok a ∧ f a = .error e := by
  cases x with
  | error e' => simp [bind, Except.bind]
  | ok a => simp [bind, Except.bind]

variable {α β : Type}

def Runs (f : Nat → Except Stuck α) (r : α) : Prop := ∃ fuel, f fuel = .ok r

def Halts (f : Nat → Except Stuck α) : Prop := ∃ r, Runs f r

def Mono (f : Nat → Except Stuck α) : Prop := ∀ fuel r, f fuel = .ok r → f (fuel + 1) = .ok r

theorem Mono.le (h : Mono f) (hnm : n ≤ m)
    (hr : f n = .ok r) : f m = .ok r := by
  induction hnm with
  | refl => exact hr
  | step _ ih => exact h _ _ ih

theorem mono_const (x : Except Stuck α) : Mono (fun _ => x) := by
  intro _ _ h
  exact h

theorem Mono.bind_of {f : Nat → Except Stuck α} {g : Nat → α → Except Stuck β} (hf : Mono f)
    (hg : ∀ a, Runs f a → Mono (fun n => g n a)) : Mono (fun n => f n >>= g n) := by
  intro n r h
  obtain ⟨a, ha, hr⟩ := bind_ok.mp h
  exact bind_ok.mpr ⟨a, hf _ _ ha, hg a ⟨n, ha⟩ _ _ hr⟩

theorem Mono.bind {f : Nat → Except Stuck α} {g : Nat → α → Except Stuck β} (hf : Mono f)
    (hg : ∀ a, Mono (fun n => g n a)) : Mono (fun n => f n >>= g n) :=
  hf.bind_of fun a _ => hg a

theorem Mono.ite [Decidable c] (hf : Mono f)
    (hg : Mono g) : Mono (fun n => if c then f n else g n) := by
  by_cases h : c
  . simpa [h] using hf
  . simpa [h] using hg

@[simp]
theorem runs_const : Runs (fun _ => x) r ↔ x = .ok r := by
  simp [Runs]

@[simp]
theorem halts_ok : Halts (fun _ => .ok r) := ⟨r, 0, rfl⟩

@[simp]
theorem halts_pure : Halts (fun _ => pure r) := ⟨r, 0, rfl⟩

theorem halts_const_bind {x : Except Stuck α} {g : Nat → α → Except Stuck β} :
    Halts (fun n => x >>= g n) ↔ ∃ a, x = .ok a ∧ Halts (fun n => g n a) := by
  constructor
  . rintro ⟨r, n, h⟩
    obtain ⟨a, ha, hr⟩ := bind_ok.mp h
    exact ⟨a, ha, r, n, hr⟩
  . rintro ⟨a, ha, r, n, hr⟩
    exact ⟨r, n, bind_ok.mpr ⟨a, ha, hr⟩⟩

theorem halts_byteAt_bind {bytes : List UInt8} {i : Nat} {g : Nat → Nat → Except Stuck β} :
    Halts (fun n => byteAt bytes i >>= g n) ↔
      i < bytes.length ∧ Halts (fun n => g n (bytes.getD i 0).toNat) := by
  rw [halts_const_bind]
  constructor
  . rintro ⟨b, hb, h⟩
    have hi := byteAt_ok hb
    rw [byteAt_lt hi] at hb
    cases hb
    exact ⟨hi, by simpa [hi] using h⟩
  . rintro ⟨hi, h⟩
    exact ⟨_, byteAt_lt hi, by simpa [hi] using h⟩

theorem halts_byteAt : Halts (fun _ => byteAt bytes i) ↔ i < bytes.length := by
  constructor
  . rintro ⟨b, n, h⟩
    exact byteAt_ok h
  . intro h
    exact ⟨_, 0, byteAt_lt h⟩

theorem halts_sliceAt : Halts (fun _ => sliceAt bytes s) ↔ s.Within bytes := by
  unfold Halts sliceAt
  split <;> simp_all

theorem runs_bind_of {f : Nat → Except Stuck α} {g : Nat → α → Except Stuck β} {r : β}
    (hf : Mono f) (hg : ∀ a, Runs f a → Mono (fun n => g n a)) :
    Runs (fun n => f n >>= g n) r ↔ ∃ a, Runs f a ∧ Runs (fun n => g n a) r := by
  constructor
  . rintro ⟨n, h⟩
    obtain ⟨a, ha, hr⟩ := bind_ok.mp h
    exact ⟨a, ⟨n, ha⟩, ⟨n, hr⟩⟩
  . rintro ⟨a, ⟨n, ha⟩, ⟨m, hr⟩⟩
    refine ⟨max n m, bind_ok.mpr ⟨a, ?_, ?_⟩⟩
    . exact hf.le (by omega) ha
    . exact (hg a ⟨n, ha⟩).le (by omega) hr

theorem runs_bind {f : Nat → Except Stuck α} {g : Nat → α → Except Stuck β} {r : β}
    (hf : Mono f) (hg : ∀ a, Mono (fun n => g n a)) :
    Runs (fun n => f n >>= g n) r ↔ ∃ a, Runs f a ∧ Runs (fun n => g n a) r :=
  runs_bind_of hf fun a _ => hg a

theorem halts_bind_of {f : Nat → Except Stuck α} {g : Nat → α → Except Stuck β}
    (hf : Mono f) (hg : ∀ a, Runs f a → Mono (fun n => g n a)) :
    Halts (fun n => f n >>= g n) ↔ ∃ a, Runs f a ∧ Halts (fun n => g n a) := by
  constructor
  . rintro ⟨r, h⟩
    obtain ⟨a, ha, hr⟩ := (runs_bind_of hf hg).mp h
    exact ⟨a, ha, r, hr⟩
  . rintro ⟨a, ha, r, hr⟩
    exact ⟨r, (runs_bind_of hf hg).mpr ⟨a, ha, hr⟩⟩

theorem halts_bind {f : Nat → Except Stuck α} {g : Nat → α → Except Stuck β}
    (hf : Mono f) (hg : ∀ a, Mono (fun n => g n a)) :
    Halts (fun n => f n >>= g n) ↔ ∃ a, Runs f a ∧ Halts (fun n => g n a) :=
  halts_bind_of hf fun a _ => hg a

theorem halts_bind_const {f : Nat → Except Stuck α} {g : Nat → α → Except Stuck β} {Q : Prop}
    (hf : Mono f) (hg : ∀ a, Mono (fun n => g n a))
    (h : ∀ a, Runs f a → (Halts (fun n => g n a) ↔ Q)) :
    Halts (fun n => f n >>= g n) ↔ Halts f ∧ Q := by
  rw [halts_bind hf hg]
  constructor
  . rintro ⟨a, ha, hq⟩
    exact ⟨⟨a, ha⟩, (h a ha).mp hq⟩
  . rintro ⟨⟨a, ha⟩, hq⟩
    exact ⟨a, ha, (h a ha).mpr hq⟩

theorem runs_succ (h0 : f 0 = .error e) : Runs f r ↔ Runs (fun n => f (n + 1)) r := by
  constructor
  . rintro ⟨n, hn⟩
    cases n with
    | zero => rw [h0] at hn; cases hn
    | succ n => exact ⟨n, hn⟩
  . rintro ⟨n, hn⟩
    exact ⟨n + 1, hn⟩

theorem mono_succ (h0 : f 0 = .error e)
    (h : Mono fun n => f (n + 1)) : Mono f := by
  intro n r hr
  cases n with
  | zero => rw [h0] at hr; cases hr
  | succ n => exact h n r hr

theorem halts_succ (h0 : f 0 = .error e) : Halts f ↔ Halts (fun n => f (n + 1)) :=
  exists_congr fun _ => runs_succ h0

theorem runs_const_bind {x : Except Stuck α} {g : Nat → α → Except Stuck β} {r : β} :
    Runs (fun n => x >>= g n) r ↔ ∃ a, x = .ok a ∧ Runs (fun n => g n a) r := by
  constructor
  . rintro ⟨n, h⟩
    obtain ⟨a, ha, hr⟩ := bind_ok.mp h
    exact ⟨a, ha, n, hr⟩
  . rintro ⟨a, ha, n, hr⟩
    exact ⟨n, bind_ok.mpr ⟨a, ha, hr⟩⟩

theorem halts_bind_pure {f : Nat → Except Stuck α} {h : α → β} :
    Halts (fun n => f n >>= fun a => pure (h a)) ↔ Halts f := by
  constructor
  . rintro ⟨r, n, hr⟩
    obtain ⟨a, ha, -⟩ := bind_ok.mp hr
    exact ⟨a, n, ha⟩
  . rintro ⟨a, n, ha⟩
    exact ⟨h a, n, bind_ok.mpr ⟨a, ha, rfl⟩⟩

theorem map_ok {x : Except Stuck α} {f : α → β} {r : β} :
    f <$> x = .ok r ↔ ∃ a, x = .ok a ∧ r = f a := by
  cases x <;> simp [Functor.map, Except.map, eq_comm]

@[simp]
theorem halts_map {x : Nat → Except Stuck α} {f : α → β} :
    Halts (fun n => f <$> x n) ↔ Halts x := by
  constructor
  . rintro ⟨r, n, h⟩
    obtain ⟨a, ha, _⟩ := map_ok.mp h
    exact ⟨a, n, ha⟩
  . rintro ⟨a, n, ha⟩
    exact ⟨f a, n, map_ok.mpr ⟨a, ha, rfl⟩⟩

end Scan
