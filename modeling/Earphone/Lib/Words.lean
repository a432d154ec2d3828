/-!
This module contains the words of a text.
-/

namespace Words

open List

variable {α : Type} {sep fine : α → Bool} {text : List α}

def of (sep : α → Bool) (text : List α) : List (List α) :=
  (text.splitOnP sep).filter fun w => !w.isEmpty

@[simp]
theorem of_nil : of sep ([] : List α) = [] := by
  simp [of]

theorem of_append_sep (before after : List α) (ha : sep a = true) :
    of sep (before ++ a :: after) = of sep before ++ of sep after := by
  rw [of, splitOnP_append_cons before after ha, filter_append]
  rfl

theorem of_cons_sep (ha : sep a = true) : of sep (a :: text) = of sep text := by
  have h := of_append_sep [] text ha
  simpa using h

theorem of_dropWhile : of sep (text.dropWhile sep) = of sep text := by
  induction text with
  | nil => rfl
  | cons a text ih =>
    rw [dropWhile_cons]
    split
    . next ha => rw [ih, of_cons_sep ha]
    . rfl

theorem of_single (hne : text ≠ []) (h : ∀ a ∈ text, sep a = false) : of sep text = [text] := by
  rw [of, splitOnP_eq_singleton h]
  simp [hne]

def Cut (sep : α → Bool) (text : List α) : Prop := ∀ a ∈ text.head?, sep a = true

theorem of_append_cut (before : List α) (h : Cut sep text) :
    of sep (before ++ text) = of sep before ++ of sep text := by
  cases text with
  | nil => simp
  | cons a text =>
    have ha : sep a = true := h a rfl
    rw [of_append_sep before text ha, of_cons_sep ha]

theorem cut_dropWhile (sep : α → Bool) (text : List α) :
    Cut sep (text.dropWhile fun a => !sep a) := by
  intro a ha
  have h := head?_dropWhile_not (fun a => !sep a) text
  rw [Option.mem_def.mp ha] at h
  simpa using h

theorem Cut.mono (hsub : ∀ a, sep a = true → fine a = true) (h : Cut sep text) :
    Cut fine text := fun a ha => hsub a (h a ha)

theorem not_sep_of_mem_takeWhile (ha : a ∈ text.takeWhile fun a => !sep a) : sep a = false := by
  have hall := all_takeWhile (p := fun a => !sep a) (l := text)
  simpa using all_eq_true.mp hall a ha

theorem of_cons (ha : sep a = false) :
    of sep (a :: text) =
      (a :: text).takeWhile (fun a => !sep a) ::
        of sep ((a :: text).dropWhile fun a => !sep a) := by
  have hword : of sep ((a :: text).takeWhile fun a => !sep a) =
      [(a :: text).takeWhile fun a => !sep a] := by
    apply of_single
    . simp [ha]
    . intro b hb
      exact not_sep_of_mem_takeWhile hb
  have happ := of_append_cut ((a :: text).takeWhile fun a => !sep a)
    (cut_dropWhile sep (a :: text))
  rw [takeWhile_append_dropWhile, hword] at happ
  exact happ

theorem byWords (sep : α → Bool) {P : List α → Prop} (nil : P [])
    (skip : ∀ a text, sep a = true → P text → P (a :: text))
    (word : ∀ a text, sep a = false → P ((a :: text).dropWhile fun a => !sep a) →
      P (a :: text)) (text : List α) : P text := by
  induction hn : text.length using Nat.strongRecOn generalizing text with
  | ind n ih =>
    subst hn
    cases text with
    | nil => exact nil
    | cons a text =>
      cases ha : sep a with
      | true => exact skip a text ha (ih text.length (Nat.lt_succ_self _) text rfl)
      | false =>
        have hlt : ((a :: text).dropWhile fun a => !sep a).length < (a :: text).length := by
          have hle := (dropWhile_sublist (l := text) fun a => !sep a).length_le
          simp only [dropWhile_cons, ha, Bool.not_false, if_true, length_cons]
          omega
        exact word a text ha (ih _ hlt _ rfl)

theorem of_flatMap (hsub : ∀ a, sep a = true → fine a = true) (text : List α) :
    (of sep text).flatMap (of fine) = of fine text := by
  induction text using byWords sep with
  | nil => simp
  | skip a text ha ih => rw [of_cons_sep ha, of_cons_sep (hsub a ha), ih]
  | word a text ha ih =>
    have hsplit := of_append_cut ((a :: text).takeWhile fun a => !sep a)
      (Cut.mono hsub (cut_dropWhile sep (a :: text)))
    rw [takeWhile_append_dropWhile] at hsplit
    rw [of_cons ha, flatMap_cons, ih, hsplit]

theorem not_sep_of_mem {w : List α} (hw : w ∈ of sep text) : ∀ a ∈ w, sep a = false := by
  induction text using byWords sep with
  | nil => simp at hw
  | skip a text ha ih =>
    rw [of_cons_sep ha] at hw
    exact ih hw
  | word a text ha ih =>
    rw [of_cons ha] at hw
    rcases mem_cons.mp hw with rfl | hw
    . exact fun b hb => not_sep_of_mem_takeWhile hb
    . exact ih hw

theorem of_eq_nil_iff : of sep text = [] ↔ ∀ a ∈ text, sep a = true := by
  induction text with
  | nil => simp
  | cons a text ih =>
    cases ha : sep a with
    | true => rw [of_cons_sep ha, ih, forall_mem_cons, and_iff_right ha]
    | false => simp [of_cons ha, ha]

theorem of_congr (h : ∀ a ∈ text, sep a = fine a) : of sep text = of fine text := by
  have hsplit : text.splitOnP sep = text.splitOnP fine := by
    induction text with
    | nil => rfl
    | cons a text ih =>
      obtain ⟨ha, htail⟩ := forall_mem_cons.mp h
      rw [splitOnP_cons_eq_if_modifyHead, splitOnP_cons_eq_if_modifyHead, ha, ih htail]
  rw [of, of, hsplit]

theorem of_takeWhile : of sep (text.takeWhile sep) = [] := by
  rw [of_eq_nil_iff]
  exact all_eq_true.mp all_takeWhile

theorem Cut.left {after : List α} (h : Cut sep (before ++ after)) : Cut sep before := by
  cases before with
  | nil => exact fun a ha => nomatch ha
  | cons b before => exact h

end Words
