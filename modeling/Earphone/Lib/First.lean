import Mathlib.Data.List.Forall2

/-!
This module contains changes of the first element of a list that has a property.
-/

namespace First

open List

variable {α β : Type}

def modify (p : α → Bool) (f : α → α) : List α → List α
  | [] => []
  | a :: l => if p a then f a :: l else a :: modify p f l

def modifyM {ε : Type} (p : α → Bool) (f : α → Except ε α) : List α → Except ε (List α)
  | [] => .ok []
  | a :: l =>
    if p a then do
      let b ← f a
      return b :: l
    else do
      let l ← modifyM p f l
      return a :: l

theorem modifyM_ok {ε : Type} {p : α → Bool} {f : α → Except ε α} {P : α → Prop} {l : List α}
    (hl : ∀ a ∈ l, P a) (hf : ∀ a, l.find? p = some a → P a → ∃ b, f a = .ok b ∧ P b) :
    ∃ l', modifyM p f l = .ok l' ∧ ∀ b ∈ l', P b := by
  induction l with
  | nil => exact ⟨[], rfl, hl⟩
  | cons a l ih =>
    have htail : ∀ b ∈ l, P b := fun b hb => hl b (mem_cons_of_mem _ hb)
    unfold modifyM
    cases hp : p a with
    | true =>
      obtain ⟨b, hb, hPb⟩ := hf a (find?_cons_of_pos hp) (hl a mem_cons_self)
      rw [if_pos rfl, hb]
      exact ⟨b :: l, rfl, forall_mem_cons.mpr ⟨hPb, htail⟩⟩
    | false =>
      have hfind : (a :: l).find? p = l.find? p := find?_cons_of_neg (by simp [hp])
      obtain ⟨l', hl', hPl'⟩ := ih htail fun b hb => hf b (hfind.trans hb)
      rw [if_neg Bool.false_ne_true, hl']
      exact ⟨a :: l', rfl, forall_mem_cons.mpr ⟨hl a mem_cons_self, hPl'⟩⟩

theorem modify_append_cons (hl : ∀ a ∈ l, p a = false)
    (ha : p a = true) (f : α → α) (l' : List α) : modify p f (l ++ a :: l') = l ++ f a :: l' := by
  induction l with
  | nil =>
    simp [modify, ha]
  | cons b l ih =>
    have hb := hl b mem_cons_self
    rw [cons_append, modify, if_neg (by simp [hb]),
      ih fun a ha => hl a (mem_cons_of_mem _ ha)]
    rfl

theorem modify_eq_self (hl : ∀ a ∈ l, p a = false) (f : α → α) : modify p f l = l := by
  induction l with
  | nil => rfl
  | cons b l ih =>
    have hb := hl b mem_cons_self
    rw [modify, if_neg (by simp [hb]), ih fun a ha => hl a (mem_cons_of_mem _ ha)]

theorem modify_of_find? (h : l.find? p = some a)
    (hf : f a = a) : modify p f l = l := by
  induction l with
  | nil => cases h
  | cons b l ih =>
    unfold modify
    split
    . next hp =>
      rw [find?_cons_of_pos hp, Option.some.injEq] at h
      rw [h, hf]
    . next hp =>
      rw [find?_cons_of_neg hp] at h
      rw [ih h]

theorem find?_modify_ne (f : α → α) (hqf : ∀ a, q (f a) = q a)
    (hne : ∀ a, q a = true → p a = false) (l : List α) : (modify p f l).find? q = l.find? q := by
  induction l with
  | nil => rfl
  | cons a l ih =>
    unfold modify
    split
    . next hp =>
      have hq : q a = false := by
        cases hq : q a with
        | false => rfl
        | true =>
          rw [hne a hq] at hp
          cases hp
      rw [find?_cons_of_neg (by simp [hqf, hq]), find?_cons_of_neg (by simp [hq])]
    . cases hq : q a with
      | false => rw [find?_cons_of_neg (by simp [hq]), find?_cons_of_neg (by simp [hq]), ih]
      | true => rw [find?_cons_of_pos hq, find?_cons_of_pos hq]

theorem find?_modify_self (f : α → α) (hpf : ∀ a, p (f a) = p a) (l : List α) :
    (modify p f l).find? p = (l.find? p).map f := by
  induction l with
  | nil => rfl
  | cons a l ih =>
    unfold modify
    split
    . next hp => rw [find?_cons_of_pos (by rw [hpf]; exact hp), find?_cons_of_pos hp]; rfl
    . next hp => rw [find?_cons_of_neg hp, find?_cons_of_neg hp, ih]

theorem map_modify {p : α → Bool} {f : α → α} {g : α → β} (h : ∀ a, g (f a) = g a) (l : List α) :
    (modify p f l).map g = l.map g := by
  induction l with
  | nil => rfl
  | cons a l ih =>
    unfold modify
    split
    . rw [map_cons, map_cons, h]
    . rw [map_cons, map_cons, ih]

theorem filter_eraseP_of_imp (h : ∀ a, p a = true → q a = true) (l : List α) :
    (l.eraseP p).filter q = (l.filter q).eraseP p := by
  rw [eraseP_filter]
  congr 2
  funext a
  cases hp : p a with
  | false => rfl
  | true => simp [h a hp]

theorem filter_eraseP_of_not (h : ∀ a, p a = true → q a = false) (l : List α) :
    (l.eraseP p).filter q = l.filter q := by
  induction l with
  | nil => rfl
  | cons a l ih =>
    cases hp : p a with
    | false => rw [eraseP_cons_of_neg (by simp [hp]), filter_cons, filter_cons, ih]
    | true => rw [eraseP_cons_of_pos hp, filter_cons_of_neg (by simp [h a hp])]

theorem forall₂_find? (hp : ∀ a b, R a b → p a = q b) (h : List.Forall₂ R l l') :
    Option.Rel R (l.find? p) (l'.find? q) := by
  induction h with
  | nil => exact .none
  | cons hab _ ih =>
    rw [find?_cons, find?_cons, hp _ _ hab]
    split
    . exact .some hab
    . exact ih

theorem exists_of_forall₂ (h : List.Forall₂ R l l') (hb : b ∈ l') : ∃ a ∈ l, R a b := by
  induction h with
  | nil => cases hb
  | @cons a b' l l' hab _ ih =>
    obtain rfl | hb := mem_cons.mp hb
    . exact ⟨a, mem_cons_self, hab⟩
    . obtain ⟨a', ha', hab'⟩ := ih hb
      exact ⟨a', mem_cons_of_mem _ ha', hab'⟩

theorem forall₂_modify_find (hp : ∀ a b, R a b → p a = q b)
    (h : List.Forall₂ R l l') (hf : ∀ a b, l.find? p = some a → R a b → R (f a) (g b)) :
    List.Forall₂ R (modify p f l) (modify q g l') := by
  induction h with
  | nil => exact .nil
  | @cons a b l l' hab htail ih =>
    unfold modify
    rw [← hp _ _ hab]
    split
    . next hpa => exact htail.cons (hf a b (find?_cons_of_pos hpa) hab)
    . next hpa =>
      refine (ih fun a b hfind => hf a b ?_).cons hab
      rw [find?_cons_of_neg hpa]
      exact hfind

end First
