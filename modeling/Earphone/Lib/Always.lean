import Earphone.Lib.Run
import Mathlib.Data.List.Infix

/-!
This module contains the rule for what holds in every state of a run.
-/

namespace Run

variable {σ ε : Type} {step : σ → ε → σ}

def Always (step : σ → ε → σ) (P : σ → Prop) (s : σ) (es : List ε) : Prop :=
  ∀ es', es' <+: es → P (exec step s es')

theorem always_cons : Always step P s (e :: es) ↔ P s ∧ Always step P (step s e) es := by
  constructor
  . intro h
    refine ⟨h [] List.nil_prefix, fun es' hes' => ?_⟩
    exact h (e :: es') (List.prefix_cons_inj e |>.mpr hes')
  . rintro ⟨hs, h⟩ es' hes'
    cases es' with
    | nil => exact hs
    | cons e' es' =>
      obtain ⟨heq, htail⟩ := List.cons_prefix_cons.mp hes'
      subst heq
      exact h es' htail

theorem always_of_inv {P inv : σ → Prop} (hstep : ∀ s e, inv s → inv (step s e))
    (hP : ∀ s, inv s → P s) (s : σ) (es : List ε) (hs : inv s) : Always step P s es := by
  intro es' _
  exact hP _ (exec_inv (fun s e hs _ => hstep s e hs) s es' hs (along_true s es'))

theorem always_iff {P inv : σ → Prop} {ok : σ → ε → Prop} (hstep : ∀ s e, inv s → inv (step s e))
    (hok : ∀ s e, inv s → P s → (P (step s e) ↔ ok s e)) (s : σ) (es : List ε) (hs : inv s)
    (hPs : P s) : Always step P s es ↔ Along step ok s es := by
  induction es generalizing s with
  | nil =>
    refine iff_of_true (fun es' hes' => ?_) trivial
    rw [List.prefix_nil.mp hes']
    exact hPs
  | cons e es ih =>
    rw [always_cons, along_cons, ← hok s e hs hPs]
    constructor
    . rintro ⟨-, h⟩
      have he := h [] List.nil_prefix
      exact ⟨he, (ih _ (hstep s e hs) he).mp h⟩
    . rintro ⟨he, h⟩
      exact ⟨hPs, (ih _ (hstep s e hs) he).mpr h⟩

end Run
