import Earphone.Lib.Scan

/-!
This module contains the rules for checks that read a string of bytes.
-/

namespace Scan

variable {ε ε' α β : Type}

structure Judges (f : Nat → Except Stuck (Except ε α)) (safe : Prop) (taken : α → Prop) : Prop where
  mono : Mono f
  halts : Halts f ↔ safe
  runs : Halts f → ∀ a, Runs f (.ok a) ↔ taken a

def andThen (g : Nat → α → Except Stuck (Except ε' β)) (refuse : ε → ε') (n : Nat) :
    Except ε α → Except Stuck (Except ε' β)
  | .error e => .ok (.error (refuse e))
  | .ok a => g n a

theorem Mono.runs_unique (hf : Mono f) (ha : Runs f a)
    (hb : Runs f b) : a = b := by
  obtain ⟨n, hn⟩ := ha
  obtain ⟨m, hm⟩ := hb
  have hna := hf.le (Nat.le_max_left n m) hn
  have hmb := hf.le (Nat.le_max_right n m) hm
  rw [hna] at hmb
  exact Except.ok.inj hmb

namespace Judges

theorem congr (h : Judges f safe taken) (hs : safe ↔ safe') (ht : ∀ a, taken a ↔ taken' a) :
    Judges f safe' taken' :=
  ⟨h.mono, h.halts.trans hs, fun hh a => (h.runs hh a).trans (ht a)⟩

theorem pure (r : Except ε α) : Judges (fun _ => .ok r) True (fun a => r = .ok a) :=
  ⟨mono_const _, iff_of_true halts_ok trivial, fun _ _ => by simp⟩

theorem const_bind {x : Except Stuck β} {b : β} {s : Prop} (hx : s ↔ x = .ok b)
    {g : Nat → β → Except Stuck (Except ε α)} (h : Judges (fun n => g n b) safe taken)
    (hg : ∀ b, Mono fun n => g n b) (hb : ∀ c, x = .ok c → c = b) :
    Judges (fun n => x >>= g n) (s ∧ safe) taken := by
  refine ⟨(mono_const x).bind hg, ?_, fun hh a => ?_⟩
  . rw [halts_const_bind]
    constructor
    . rintro ⟨c, hc, hhalts⟩
      obtain rfl := hb c hc
      exact ⟨hx.mpr hc, h.halts.mp hhalts⟩
    . rintro ⟨hs, hsafe⟩
      exact ⟨b, hx.mp hs, h.halts.mpr hsafe⟩
  . obtain ⟨c, hc, hhalts⟩ := halts_const_bind.mp hh
    obtain rfl := hb c hc
    rw [runs_const_bind, ← h.runs hhalts a]
    constructor
    . rintro ⟨d, hd, hr⟩
      obtain rfl := hb d hd
      exact hr
    . exact fun hr => ⟨c, hc, hr⟩

theorem bind (h : Judges f safe taken) {g : Nat → α → Except Stuck (Except ε' β)}
    {refuse : ε → ε'} {safeG : α → Prop} {takenG : α → β → Prop}
    (hg : ∀ a, Judges (fun n => g n a) (safeG a) (takenG a)) :
    Judges (fun n => f n >>= andThen g refuse n) (safe ∧ ∀ a, taken a → safeG a)
      (fun b => ∃ a, taken a ∧ takenG a b) := by
  have hmono : ∀ r : Except ε α, Mono fun n => andThen g refuse n r := by
    intro r
    cases r with
    | error e => exact mono_const _
    | ok a => exact (hg a).mono
  refine ⟨h.mono.bind hmono, ?_, fun hh b => ?_⟩
  . rw [halts_bind h.mono hmono]
    constructor
    . rintro ⟨r, hr, hrest⟩
      have hhalts : Halts f := ⟨r, hr⟩
      refine ⟨h.halts.mp hhalts, fun a ha => ?_⟩
      obtain rfl := h.mono.runs_unique hr ((h.runs hhalts a).mpr ha)
      exact (hg a).halts.mp hrest
    . rintro ⟨hsafe, hrest⟩
      obtain ⟨r, hr⟩ := h.halts.mpr hsafe
      refine ⟨r, hr, ?_⟩
      cases r with
      | error e => exact halts_ok
      | ok a => exact (hg a).halts.mpr (hrest a ((h.runs ⟨_, hr⟩ a).mp hr))
  . rw [runs_bind h.mono hmono]
    obtain ⟨r, hr, hrest⟩ := (halts_bind h.mono hmono).mp hh
    have hhalts : Halts f := ⟨r, hr⟩
    constructor
    . rintro ⟨r', hr', hb⟩
      obtain rfl := h.mono.runs_unique hr hr'
      cases r with
      | error e => simp [andThen] at hb
      | ok a => exact ⟨a, (h.runs hhalts a).mp hr, ((hg a).runs hrest b).mp hb⟩
    . rintro ⟨a, ha, hb⟩
      have hra := (h.runs hhalts a).mpr ha
      obtain rfl := h.mono.runs_unique hr hra
      exact ⟨_, hra, ((hg a).runs hrest b).mpr hb⟩

theorem map (h : Judges f safe taken) {k : Except ε α → Except ε' β}
    (hk : ∀ e b, k (.error e) ≠ .ok b) :
    Judges (fun n => f n >>= fun r => Except.ok (k r)) safe
      (fun b => ∃ a, taken a ∧ k (.ok a) = .ok b) := by
  have hmono : ∀ r : Except ε α, Mono fun _ => (Except.ok (k r) : Except Stuck (Except ε' β)) :=
    fun r => mono_const _
  refine ⟨h.mono.bind hmono, ?_, fun hh b => ?_⟩
  . rw [← h.halts, halts_bind h.mono hmono]
    constructor
    . rintro ⟨r, hr, -⟩
      exact ⟨r, hr⟩
    . rintro ⟨r, hr⟩
      exact ⟨r, hr, halts_ok⟩
  . rw [runs_bind h.mono hmono]
    obtain ⟨r, hr, -⟩ := (halts_bind h.mono hmono).mp hh
    have hhalts : Halts f := ⟨r, hr⟩
    constructor
    . rintro ⟨r', hr', hb⟩
      obtain rfl := h.mono.runs_unique hr hr'
      rw [runs_const, Except.ok.injEq] at hb
      cases r with
      | error e => exact absurd hb (hk e b)
      | ok a => exact ⟨a, (h.runs hhalts a).mp hr, hb⟩
    . rintro ⟨a, ha, hb⟩
      exact ⟨.ok a, (h.runs hhalts a).mpr ha, by rw [runs_const, hb]⟩

end Judges

end Scan
