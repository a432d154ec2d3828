import Mathlib.Logic.Function.Iterate
import Earphone.Lib.Scan

/-!
This module contains a loop through a string of bytes.
-/

namespace Visit

open Scan

variable {ρ σ : Type}

def loop (visit : Nat → σ → Except Stuck (Except ρ (Nat × σ))) (len : Nat) :
    Nat → Nat → σ → Except Stuck (Except ρ (Nat × σ))
  | 0, _, _ => .error .endless
  | fuel + 1, idx, s =>
    if idx < len then
      match visit idx s with
      | .error e => .error e
      | .ok (.error r) => .ok (.error r)
      | .ok (.ok next) => loop visit len fuel next.1 next.2
    else
      .ok (.ok (idx, s))

inductive Reached (visit : Nat → σ → Except Stuck (Except ρ (Nat × σ))) (len : Nat) :
    Nat → σ → Nat → σ → Prop where
  | here (idx : Nat) (s : σ) : Reached visit len idx s idx s
  | next {idx idx' : Nat} {s s' : σ} {next : Nat × σ} (hlt : idx < len)
      (hvisit : visit idx s = .ok (.ok next))
      (hrest : Reached visit len next.1 next.2 idx' s') : Reached visit len idx s idx' s'

theorem Reached.snoc {visit : Nat → σ → Except Stuck (Except ρ (Nat × σ))} {len idx idx' : Nat}
    {s s' : σ} {next : Nat × σ} (h : Reached visit len idx s idx' s') (hlt : idx' < len)
    (hvisit : visit idx' s' = .ok (.ok next)) : Reached visit len idx s next.1 next.2 := by
  induction h with
  | here => exact .next hlt hvisit (.here _ _)
  | next hlt1 hvisit1 _ ih => exact .next hlt1 hvisit1 (ih hlt hvisit)

variable {visit : Nat → σ → Except Stuck (Except ρ (Nat × σ))} {len idx idx' : Nat} {s s' : σ}

theorem loop_next (hlt : idx < len) (hvisit : visit idx s = .ok (.ok next))
    (fuel : Nat) : loop visit len (fuel + 1) idx s = loop visit len fuel next.1 next.2 := by
  rw [loop, if_pos hlt, hvisit]

theorem Reached.loop (h : Reached visit len idx s idx' s') :
    ∃ rounds, ∀ fuel, loop visit len (fuel + rounds) idx s = loop visit len fuel idx' s' := by
  induction h with
  | here => exact ⟨0, fun _ => rfl⟩
  | next hlt hvisit _ ih =>
    obtain ⟨rounds, hrounds⟩ := ih
    refine ⟨rounds + 1, fun fuel => ?_⟩
    rw [← Nat.add_assoc, loop_next hlt hvisit, hrounds]

theorem reached_of_error (he : e ≠ .endless)
    (h : loop visit len fuel idx s = .error e) :
    ∃ idx' s', Reached visit len idx s idx' s' ∧ idx' < len ∧ visit idx' s' = .error e := by
  induction fuel generalizing idx s with
  | zero =>
    cases h
    exact absurd rfl he
  | succ fuel ih =>
    rw [loop] at h
    split at h
    . next hlt =>
      split at h
      . next hvisit =>
        cases h
        exact ⟨idx, s, .here _ _, hlt, hvisit⟩
      . cases h
      . next hvisit =>
        obtain ⟨idx', s', hreached, hrest⟩ := ih h
        exact ⟨idx', s', .next hlt hvisit hreached, hrest⟩
    . cases h

theorem loop_at_error (hlt : idx < len) (hvisit : visit idx s = .error e) (fuel : Nat) :
    loop visit len (fuel + 1) idx s = .error e := by
  rw [loop, if_pos hlt, hvisit]

theorem error_iff (he : e ≠ .endless) :
    (∃ fuel, loop visit len fuel idx s = .error e) ↔
      ∃ idx' s', Reached visit len idx s idx' s' ∧ idx' < len ∧ visit idx' s' = .error e := by
  constructor
  . rintro ⟨fuel, h⟩
    exact reached_of_error he h
  . rintro ⟨idx', s', hreached, hlt, hvisit⟩
    obtain ⟨rounds, hrounds⟩ := hreached.loop
    exact ⟨0 + 1 + rounds, by rw [hrounds, loop_at_error hlt hvisit]⟩

theorem reached_of_ok (h : loop visit len fuel idx s = .ok (.ok next)) :
    Reached visit len idx s next.1 next.2 ∧ len ≤ next.1 := by
  induction fuel generalizing idx s with
  | zero => cases h
  | succ fuel ih =>
    rw [loop] at h
    split at h
    . next hlt =>
      split at h
      . cases h
      . cases h
      . next hvisit =>
        obtain ⟨hreached, hle⟩ := ih h
        exact ⟨.next hlt hvisit hreached, hle⟩
    . next hge =>
      cases h
      exact ⟨.here _ _, Nat.le_of_not_lt hge⟩

theorem loop_at_end (hge : len ≤ idx) (fuel : Nat) :
    loop visit len (fuel + 1) idx s = .ok (.ok (idx, s)) := by
  rw [loop, if_neg (Nat.not_lt.mpr hge)]

theorem ok_iff {next : Nat × σ} : (∃ fuel, loop visit len fuel idx s = .ok (.ok next)) ↔
    Reached visit len idx s next.1 next.2 ∧ len ≤ next.1 := by
  constructor
  . rintro ⟨fuel, h⟩
    exact reached_of_ok h
  . rintro ⟨hreached, hge⟩
    obtain ⟨rounds, hrounds⟩ := hreached.loop
    exact ⟨0 + 1 + rounds, by rw [hrounds, loop_at_end hge]⟩

theorem runs_next (hlt : idx < len)
    (hvisit : visit idx s = .ok (.ok next)) :
    Runs (fun fuel => loop visit len fuel idx s) r ↔
      Runs (fun fuel => loop visit len fuel next.1 next.2) r := by
  rw [runs_succ rfl]
  simp only [loop_next hlt hvisit]

theorem runs_at_end (hge : len ≤ idx) :
    Runs (fun fuel => loop visit len fuel idx s) r ↔ r = .ok (idx, s) := by
  rw [runs_succ rfl]
  simp only [loop_at_end hge, runs_const, Except.ok.injEq, eq_comm]

theorem not_runs (hlt : idx < len)
    (hvisit : visit idx s = .error e) : ¬Runs (fun fuel => loop visit len fuel idx s) r := by
  rw [runs_succ rfl]
  rintro ⟨fuel, h⟩
  have herror := loop_at_error hlt hvisit fuel
  rw [show loop visit len (fuel + 1) idx s = .ok r from h] at herror
  cases herror

section

variable {next : Nat → Nat} {Good : Nat → Prop}

theorem le_iterate (hle : ∀ idx, idx ≤ next idx) (k idx : Nat) : idx ≤ next^[k] idx := by
  induction k generalizing idx with
  | zero => exact Nat.le_refl idx
  | succ k ih => exact Nat.le_trans (hle idx) (ih (next idx))

section

variable (hgood : ∀ idx s, Good idx → ∃ s', visit idx s = .ok (.ok (next idx, s')))

include hgood

theorem good_of_loop (hbad : ∀ idx s, ¬Good idx → ∃ e, visit idx s = .error e)
    (hle : ∀ idx, idx ≤ next idx)
    (h : loop visit len fuel idx s = .ok r) (k : Nat)
    (hk : next^[k] idx < len) :
    Good (next^[k] idx) ∧ next^[k] idx < next (next^[k] idx) := by
  induction fuel generalizing idx s k with
  | zero => cases h
  | succ fuel ih =>
    have hlt : idx < len := Nat.lt_of_le_of_lt (le_iterate hle k idx) hk
    by_cases hidx : Good idx
    . obtain ⟨s', hvisit⟩ := hgood idx s hidx
      rw [loop_next hlt hvisit] at h
      cases k with
      | zero =>
        refine ⟨hidx, Nat.lt_of_le_of_ne (hle idx) ?_⟩
        intro (heq : idx = next idx)
        -- at a place that names itself the loop would never end
        have hlt' : next idx < len := by
          rw [← heq]
          exact hlt
        have hself : next idx < next (next idx) := (ih h 0 hlt').2
        rw [← heq, ← heq] at hself
        exact Nat.lt_irrefl _ hself
      | succ k => exact ih h k hk
    . obtain ⟨e, hvisit⟩ := hbad idx s hidx
      rw [loop_at_error hlt hvisit] at h
      cases h

theorem halts_of_good
    (h : ∀ k, next^[k] idx < len → Good (next^[k] idx) ∧ next^[k] idx < next (next^[k] idx)) :
    Halts (fun fuel => loop visit len fuel idx s) := by
  induction hn : len - idx using Nat.strongRecOn generalizing idx s with
  | _ n ih =>
    by_cases hlt : idx < len
    . obtain ⟨hidx, hstep⟩ := h 0 hlt
      obtain ⟨s', hvisit⟩ := hgood idx s hidx
      have hstep' : idx < next idx := hstep
      obtain ⟨r, hr⟩ := ih (len - next idx) (by omega) (s := s') (fun k => h (k + 1)) rfl
      exact ⟨r, (runs_next hlt hvisit).mpr hr⟩
    . exact ⟨_, (runs_at_end (Nat.le_of_not_lt hlt)).mpr rfl⟩

theorem halts_iff (hbad : ∀ idx s, ¬Good idx → ∃ e, visit idx s = .error e)
    (hle : ∀ idx, idx ≤ next idx) :
    Halts (fun fuel => loop visit len fuel idx s) ↔
      ∀ k, next^[k] idx < len → Good (next^[k] idx) ∧ next^[k] idx < next (next^[k] idx) := by
  constructor
  . rintro ⟨r, fuel, h⟩ k hk
    exact good_of_loop hgood hbad hle h k hk
  . exact halts_of_good hgood

end

end

end Visit
