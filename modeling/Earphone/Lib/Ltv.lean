import Earphone.Lib.Scan

/-!
This module contains the walk over bytes that are made of structures.
-/

namespace Ltv

open Scan

structure Format (ε σ : Type) where
  need : Nat → Nat → Except ε Nat
  use : Nat → List UInt8 → σ → Except ε σ
  short : ε

variable {ε σ : Type}

def octet (bytes : List UInt8) (i : Nat) : Nat := (bytes.getD i 0).toNat

def octets (bytes : List UInt8) (i n : Nat) : List UInt8 := (bytes.drop i).take n

def walk (fmt : Format ε σ) (bytes : List UInt8) (base len : Nat) :
    Nat → Nat → σ → Except Stuck (Except ε σ)
  | 0, _, _ => .error .endless
  | fuel + 1, idx, s =>
    if idx < len then do
      let length ← byteAt bytes (base + idx)
      let type ← byteAt bytes (base + idx + 1)
      match fmt.need type length with
      | .error e => return .error e
      | .ok n => do
        let value ← bytesAt bytes (base + idx + 2) n
        match fmt.use type value s with
        | .error e => return .error e
        | .ok s => walk fmt bytes base len fuel (idx + 1 + length) s
    else return if idx = len then .ok s else .error fmt.short

inductive Reached (fmt : Format ε σ) (bytes : List UInt8) (base len : Nat) :
    Nat → σ → Nat → σ → Prop where
  | here (idx : Nat) (s : σ) : Reached fmt bytes base len idx s idx s
  | next {idx n idx' : Nat} {s s' t : σ} (hlt : idx < len)
      (hneed : fmt.need (octet bytes (base + idx + 1)) (octet bytes (base + idx)) = .ok n)
      (huse : fmt.use (octet bytes (base + idx + 1)) (octets bytes (base + idx + 2) n) s = .ok s')
      (hrest : Reached fmt bytes base len (idx + 1 + octet bytes (base + idx)) s' idx' t) :
      Reached fmt bytes base len idx s idx' t

def InsideAt (fmt : Format ε σ) (bytes : List UInt8) (p : Nat) : Prop :=
  p + 2 ≤ bytes.length ∧
    ∀ n, fmt.need (octet bytes (p + 1)) (octet bytes p) = .ok n → p + 2 + n ≤ bytes.length

def Inside (fmt : Format ε σ) (bytes : List UInt8) (base len idx : Nat) (s : σ) : Prop :=
  ∀ idx' t, Reached fmt bytes base len idx s idx' t → idx' < len → InsideAt fmt bytes (base + idx')

section

variable {fmt : Format ε σ} {bytes : List UInt8} {base len idx : Nat} {s : σ}

theorem byteAt_octet (h : i < bytes.length) : byteAt bytes i = .ok (octet bytes i) := by
  rw [byteAt_lt h]
  simp [octet, h]

theorem reached_of_ge (hge : len ≤ idx) :
    Reached fmt bytes base len idx s idx' t ↔ idx' = idx ∧ t = s := by
  constructor
  . intro h
    cases h with
    | here => exact ⟨rfl, rfl⟩
    | next hlt => omega
  . rintro ⟨rfl, rfl⟩
    exact .here _ _

theorem Reached.unique (hge : len ≤ idx')
    (h : Reached fmt bytes base len idx s idx' t) (h' : Reached fmt bytes base len idx s idx' t') :
    t = t' := by
  induction h with
  | here =>
    obtain ⟨-, rfl⟩ := (reached_of_ge hge).mp h'
    rfl
  | next hlt hneed huse _ ih =>
    cases h' with
    | here => omega
    | next _ hneed' huse' hrest' =>
      rw [hneed, Except.ok.injEq] at hneed'
      subst hneed'
      rw [huse, Except.ok.injEq] at huse'
      subst huse'
      exact ih hge hrest'

theorem inside_of_ge (hge : len ≤ idx) : Inside fmt bytes base len idx s := by
  intro idx' t h hlt
  obtain ⟨rfl, -⟩ := (reached_of_ge hge).mp h
  omega

theorem inside_of_lt (hlt : idx < len) :
    Inside fmt bytes base len idx s ↔
      InsideAt fmt bytes (base + idx) ∧
        ∀ n s', fmt.need (octet bytes (base + idx + 1)) (octet bytes (base + idx)) = .ok n →
          fmt.use (octet bytes (base + idx + 1)) (octets bytes (base + idx + 2) n) s = .ok s' →
          Inside fmt bytes base len (idx + 1 + octet bytes (base + idx)) s' := by
  constructor
  . intro h
    exact ⟨h _ _ (.here _ _) hlt, fun n s' hn hs idx' t hr => h _ _ (.next hlt hn hs hr)⟩
  . rintro ⟨hat, hrest⟩ idx' t hr
    cases hr with
    | here => exact fun _ => hat
    | next _ hn hs hr => exact hrest _ _ hn hs _ _ hr

theorem walk_round (hlt : idx < len) (hat : InsideAt fmt bytes (base + idx)) :
    walk fmt bytes base len (fuel + 1) idx s =
      match fmt.need (octet bytes (base + idx + 1)) (octet bytes (base + idx)) with
      | .error e => .ok (.error e)
      | .ok n =>
        match fmt.use (octet bytes (base + idx + 1)) (octets bytes (base + idx + 2) n) s with
        | .error e => .ok (.error e)
        | .ok s => walk fmt bytes base len fuel (idx + 1 + octet bytes (base + idx)) s := by
  have hlen := byteAt_octet (show base + idx < bytes.length by have := hat.1; omega)
  have htype := byteAt_octet (show base + idx + 1 < bytes.length by have := hat.1; omega)
  rw [walk, if_pos hlt, hlen, htype]
  simp only [bind, Except.bind, pure, Except.pure]
  cases hneed : fmt.need (octet bytes (base + idx + 1)) (octet bytes (base + idx)) with
  | error e => rfl
  | ok n =>
    simp only [bytesAt_le (hat.2 n hneed)]
    rfl

theorem insideAt_of_halts (hlt : idx < len) (h : Halts fun n => walk fmt bytes base len n idx s) :
    InsideAt fmt bytes (base + idx) := by
  rw [halts_succ rfl] at h
  simp only [walk, if_pos hlt] at h
  obtain ⟨hlen, h⟩ := halts_byteAt_bind.mp h
  obtain ⟨htype, h⟩ := halts_byteAt_bind.mp h
  refine ⟨by omega, fun n hneed => ?_⟩
  simp only [octet] at hneed
  simp only [hneed] at h
  obtain ⟨v, hv, -⟩ := halts_const_bind.mp h
  unfold bytesAt at hv
  split_ifs at hv with hle
  exact hle

theorem halts_walk {idx : Nat} {s : σ} :
    Halts (fun n => walk fmt bytes base len n idx s) ↔ Inside fmt bytes base len idx s := by
  by_cases hlt : idx < len
  . rw [inside_of_lt hlt]
    constructor
    . intro h
      have hat := insideAt_of_halts hlt h
      refine ⟨hat, fun n s' hn hs => ?_⟩
      rw [halts_succ rfl] at h
      simp only [walk_round hlt hat, hn, hs] at h
      exact halts_walk.mp h
    . rintro ⟨hat, hrest⟩
      rw [halts_succ rfl]
      simp only [walk_round hlt hat]
      cases hn : fmt.need (octet bytes (base + idx + 1)) (octet bytes (base + idx)) with
      | error e => simp
      | ok n =>
        cases hs : fmt.use (octet bytes (base + idx + 1)) (octets bytes (base + idx + 2) n) s with
        | error e => simp [hs]
        | ok s' => simpa [hs] using halts_walk.mpr (hrest n s' hn hs)
  . refine iff_of_true ?_ (inside_of_ge (by omega))
    rw [halts_succ rfl]
    simp [walk, hlt]
termination_by len - idx

theorem runs_walk {idx : Nat} {s t : σ} (hin : Inside fmt bytes base len idx s) :
    Runs (fun n => walk fmt bytes base len n idx s) (.ok t) ↔
      Reached fmt bytes base len idx s len t := by
  rw [runs_succ rfl]
  by_cases hlt : idx < len
  . obtain ⟨hat, hrest⟩ := (inside_of_lt hlt).mp hin
    simp only [walk_round hlt hat]
    constructor
    . intro h
      cases hn : fmt.need (octet bytes (base + idx + 1)) (octet bytes (base + idx)) with
      | error e => simp [hn] at h
      | ok n =>
        cases hs : fmt.use (octet bytes (base + idx + 1)) (octets bytes (base + idx + 2) n) s with
        | error e => simp [hn, hs] at h
        | ok s' =>
          simp only [hn, hs] at h
          exact .next hlt hn hs ((runs_walk (hrest n s' hn hs)).mp h)
    . intro h
      cases h with
      | here => omega
      | next _ hn hs hr =>
        simp only [hn, hs]
        exact (runs_walk (hrest _ _ hn hs)).mpr hr
  . rw [reached_of_ge (by omega)]
    simp only [walk, if_neg hlt]
    by_cases heq : idx = len
    . simp [heq, pure, Except.pure, eq_comm]
    . simp [heq, pure, Except.pure, Ne.symm heq]
termination_by len - idx

theorem mono_walk : Mono fun n => walk fmt bytes base len n idx s := by
  intro fuel
  induction fuel generalizing idx s with
  | zero =>
    intro r h
    cases h
  | succ fuel ih =>
    intro r h
    simp only [walk] at h ih ⊢
    by_cases hlt : idx < len
    . rw [if_pos hlt] at h ⊢
      obtain ⟨length, hlength, h⟩ := bind_ok.mp h
      obtain ⟨type, htype, h⟩ := bind_ok.mp h
      refine bind_ok.mpr ⟨length, hlength, bind_ok.mpr ⟨type, htype, ?_⟩⟩
      cases hneed : fmt.need type length with
      | error e => simpa [hneed] using h
      | ok n =>
        simp only [hneed] at h ⊢
        obtain ⟨value, hvalue, h⟩ := bind_ok.mp h
        refine bind_ok.mpr ⟨value, hvalue, ?_⟩
        cases huse : fmt.use type value s with
        | error e => simpa [huse] using h
        | ok s' =>
          simp only [huse] at h ⊢
          exact ih _ h
    . rw [if_neg hlt] at h ⊢
      exact h

theorem walk_error {fuel : Nat} {e : ε} {P : ε → Prop}
    (hneed : ∀ type length e, fmt.need type length = .error e → P e)
    (huse : ∀ type value s e, fmt.use type value s = .error e → P e) (hshort : P fmt.short)
    (h : walk fmt bytes base len fuel idx s = .ok (.error e)) : P e := by
  induction fuel generalizing idx s with
  | zero => cases h
  | succ fuel ih =>
    rw [walk] at h
    split_ifs at h with hlt heq
    . obtain ⟨length, -, h⟩ := bind_ok.mp h
      obtain ⟨type, -, h⟩ := bind_ok.mp h
      cases hn : fmt.need type length with
      | error e' =>
        simp only [hn] at h
        cases h
        exact hneed _ _ _ hn
      | ok n =>
        simp only [hn] at h
        obtain ⟨value, -, h⟩ := bind_ok.mp h
        cases hu : fmt.use type value s with
        | error e' =>
          simp only [hu] at h
          cases h
          exact huse _ _ _ _ hu
        | ok s' =>
          simp only [hu] at h
          exact ih h
    . cases h
    . cases h
      exact hshort

end

end Ltv
