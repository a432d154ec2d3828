import Earphone.Lib.Ltv

/-!
This module contains weakest preconditions for a program that reads bytes and may refuse them.
-/

namespace Scan

open Ltv (octet octets byteAt_octet)

variable {ε ε' α β : Type}

def Wp (x : Except Stuck (Except ε α)) (post : α → Prop) : Prop :=
  match x with
  | .error _ => False
  | .ok (.error _) => True
  | .ok (.ok a) => post a

theorem wp_congr (h : ∀ a, post a ↔ post' a) : Wp x post ↔ Wp x post' := by
  match x with
  | .error _ => exact Iff.rfl
  | .ok (.error _) => exact Iff.rfl
  | .ok (.ok a) => exact h a

theorem wp_true : Wp x (fun _ => True) ↔ ∃ r, x = .ok r := by
  match x with
  | .error _ => exact iff_of_false id (by simp)
  | .ok (.error e) => exact iff_of_true trivial ⟨_, rfl⟩
  | .ok (.ok a) => exact iff_of_true trivial ⟨_, rfl⟩

theorem wp_bind {x : Except Stuck (Except ε α)} {f : Except ε α → Except Stuck (Except ε' β)}
    {post : β → Prop} (hrefuse : ∀ e, Wp (f (.error e)) post) :
    Wp (x >>= f) post ↔ Wp x fun a => Wp (f (.ok a)) post := by
  match x with
  | .error _ => exact Iff.rfl
  | .ok (.error e) => exact iff_of_true (hrefuse e) trivial
  | .ok (.ok _) => exact Iff.rfl

theorem wp_byteAt :
    Wp (byteAt bytes i >>= f) post ↔ i < bytes.length ∧ Wp (f (octet bytes i)) post := by
  by_cases hi : i < bytes.length
  . rw [byteAt_octet hi, and_iff_right hi]
    rfl
  . rw [byteAt_ge (Nat.le_of_not_lt hi)]
    exact iff_of_false id fun h => hi h.1

theorem wp_bytesAt :
    Wp (bytesAt bytes i n >>= f) post ↔ i + n ≤ bytes.length ∧ Wp (f (octets bytes i n)) post := by
  by_cases hi : i + n ≤ bytes.length
  . rw [bytesAt_le hi, and_iff_right hi]
    rfl
  . rw [show bytesAt bytes i n = .error .outside from if_neg hi]
    exact iff_of_false id fun h => hi h.1

end Scan
