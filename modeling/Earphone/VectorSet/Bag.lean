import Earphone.VectorSet.Basic
import Earphone.Lib.Run
import Mathlib.Data.Multiset.AddSub

/-!
This module contains the vectors of `vector.c` as bags of at most `capacity` elements.
-/

namespace VectorSet

def vectorAddResult (v : VectorStruct) (element : VectorEle) (granted : Bool) : Bool :=
  if v.depth = v.capacity then
    false
  else
    let v :=
      if v.depth = v.array.length then vectorResize v (u32 (v.array.length * 2)) granted else v
    (fillEmpty element v.array).isSome

def clearFirst (element : VectorEle) : List VectorEle → Option (List VectorEle)
  | [] => none
  | e :: es => if e = element then some (0 :: es) else (clearFirst element es).map (e :: ·)

def vectorRemove (v : VectorStruct) (element : VectorEle) (granted : Bool) : VectorStruct × Bool :=
  if v.depth = 0 then
    (v, false)
  else
    match clearFirst element v.array with
    | none => (v, false)
    | some array =>
      let v := { v with array := array, depth := v.depth - 1 }
      if 0 < v.depth ∧ v.depth = v.array.length / 4 then
        (vectorResize v (v.array.length / 2) granted, true)
      else
        (v, true)

inductive Op where
  | add (element : VectorEle) (zalloc : Nat → Bool)
  | remove (element : VectorEle) (zalloc : Nat → Bool)

def sizeofVectorEle : Nat := 4

def grant (zalloc : Nat → Bool) (newSize : Nat) : Bool := zalloc (u32 (newSize * sizeofVectorEle))

def addGrant (v : VectorStruct) (zalloc : Nat → Bool) : Bool :=
  grant zalloc (u32 (v.array.length * 2))

def removeGrant (v : VectorStruct) (zalloc : Nat → Bool) : Bool := grant zalloc (v.array.length / 2)

def VectorStruct.step (v : VectorStruct) : Op → VectorStruct
  | .add element zalloc => vectorAdd v element (addGrant v zalloc)
  | .remove element zalloc => (vectorRemove v element (removeGrant v zalloc)).1

def Op.Valid : Op → Prop
  | .add element zalloc | .remove element zalloc =>
    element ≠ 0 ∧ ∀ n, zalloc n = true → n < 2 ^ 31

def bag (array : List VectorEle) : Multiset VectorEle := ↑(array.filter (· ≠ 0))

structure Inv (v : VectorStruct) : Prop where
  depth : v.depth = (bag v.array).card
  full : v.depth ≤ v.capacity
  room : 0 < v.array.length
  small : v.array.length < 2 ^ 29

@[simp]
theorem bag_nil : bag [] = 0 := rfl

@[simp]
theorem bag_replicate (n : Nat) : bag (List.replicate n 0) = 0 := by
  simp [bag]

theorem bag_cons (e : VectorEle) (es : List VectorEle) :
    bag (e :: es) = if e = 0 then bag es else e ::ₘ bag es := by
  unfold bag
  split <;> simp [*]

theorem bag_append (es fs : List VectorEle) : bag (es ++ fs) = bag es + bag fs := by
  simp [bag]

theorem card_bag_le (array : List VectorEle) : (bag array).card ≤ array.length :=
  List.length_filter_le _ _

theorem mem_bag (he : e ≠ 0) : e ∈ bag array ↔ e ∈ array := by
  simp [bag, he]

theorem fillEmpty_bag (he : e ≠ 0) (array : List VectorEle) :
    match fillEmpty e array with
    | none => (bag array).card = array.length
    | some array' => bag array' = e ::ₘ bag array ∧ array'.length = array.length := by
  induction array with
  | nil => rfl
  | cons x xs ih =>
    rw [fillEmpty, bag_cons]
    by_cases hx : x = 0
    . rw [if_pos hx, if_pos hx]
      exact ⟨by rw [bag_cons, if_neg he], rfl⟩
    . rw [if_neg hx, if_neg hx]
      cases hfill : fillEmpty e xs with
      | none =>
        rw [hfill] at ih
        simpa using ih
      | some array' =>
        rw [hfill] at ih
        refine ⟨?_, by simpa using ih.2⟩
        rw [bag_cons, if_neg hx, ih.1, Multiset.cons_swap]

theorem clearFirst_bag (he : e ≠ 0) (array : List VectorEle) :
    match clearFirst e array with
    | none => e ∉ array
    | some array' => bag array = e ::ₘ bag array' ∧ array'.length = array.length := by
  induction array with
  | nil => exact List.not_mem_nil
  | cons x xs ih =>
    rw [clearFirst]
    by_cases hx : x = e
    . subst hx
      rw [if_pos rfl]
      exact ⟨by rw [bag_cons, if_neg he, bag_cons, if_pos rfl], rfl⟩
    . rw [if_neg hx]
      cases hclear : clearFirst e xs with
      | none =>
        rw [hclear] at ih
        simpa [Ne.symm hx] using ih
      | some array' =>
        rw [hclear] at ih
        refine ⟨?_, by simpa using ih.2⟩
        rw [bag_cons, bag_cons, ih.1]
        split
        . rfl
        . rw [Multiset.cons_swap]

theorem packed_bag (h : (bag array).card < room) :
    ∃ array', packed array room = some array' ∧ bag array' = bag array ∧ array'.length = room := by
  induction array generalizing room with
  | nil => exact ⟨_, rfl, by simp, by simp⟩
  | cons x xs ih =>
    rw [bag_cons] at h ⊢
    obtain ⟨room, rfl⟩ : ∃ n, room = n + 1 := ⟨room - 1, by omega⟩
    rw [packed]
    by_cases hx : x = 0
    . rw [if_pos hx] at h ⊢
      rw [if_neg (not_not_intro hx)]
      exact ih h
    . rw [if_neg hx, Multiset.card_cons] at h
      obtain ⟨array', hpacked, hbag, hlen⟩ := @ih room (by omega)
      rw [if_neg hx, if_pos hx, hpacked]
      exact ⟨x :: array', rfl, by rw [bag_cons, if_neg hx, hbag], by rw [List.length_cons, hlen]⟩

theorem resize_bag (granted : Bool)
    (h : v.array.length ≤ newSize ∨ (bag v.array).card < newSize) :
    bag (vectorResize v newSize granted).array = bag v.array ∧
      (vectorResize v newSize granted).array.length =
        if granted then newSize else v.array.length := by
  unfold vectorResize
  cases granted with
  | false => exact ⟨rfl, rfl⟩
  | true =>
    simp only [if_true]
    split
    . next hle => exact ⟨by simp [bag_append], by simp; omega⟩
    . next hlt =>
      obtain ⟨array', hpacked, hbag, hlen⟩ := packed_bag (h.resolve_left (by omega))
      rw [hpacked]
      exact ⟨hbag, hlen⟩

@[simp]
theorem vectorResize_depth (v : VectorStruct) (newSize : Nat) (granted : Bool) :
    (vectorResize v newSize granted).depth = v.depth := by
  unfold vectorResize
  split_ifs <;> first | rfl | (split <;> rfl)

@[simp]
theorem vectorResize_capacity (v : VectorStruct) (newSize : Nat) (granted : Bool) :
    (vectorResize v newSize granted).capacity = v.capacity := by
  unfold vectorResize
  split_ifs <;> first | rfl | (split <;> rfl)

theorem grant_small (hz : ∀ n, zalloc n = true → n < 2 ^ 31)
    (hsize : newSize < 2 ^ 30) (h : grant zalloc newSize = true) : newSize < 2 ^ 29 := by
  have hbytes := hz _ h
  unfold u32 sizeofVectorEle at hbytes
  omega

def Meets (v : VectorStruct) : Op → Prop
  | .add element zalloc =>
    (vectorAddResult v element (addGrant v zalloc) = true ∧
      bag (v.step (.add element zalloc)).array = element ::ₘ bag v.array) ∨
    (vectorAddResult v element (addGrant v zalloc) = false ∧ v.step (.add element zalloc) = v ∧
      (v.depth = v.capacity ∨ v.depth = v.array.length ∧ addGrant v zalloc = false))
  | .remove element zalloc =>
    ((vectorRemove v element (removeGrant v zalloc)).2 = true ∧
      bag v.array = element ::ₘ bag (v.step (.remove element zalloc)).array) ∨
    ((vectorRemove v element (removeGrant v zalloc)).2 = false ∧
      v.step (.remove element zalloc) = v ∧ element ∉ v.array)

theorem add_meets (hv : Inv v)
    (hop : (Op.add e zalloc).Valid) :
    Meets v (.add e zalloc) ∧ Inv (v.step (.add e zalloc)) := by
  obtain ⟨he, hz⟩ := hop
  have hdepth := hv.depth
  have hfull := hv.full
  have hroom := hv.room
  have hsmall := hv.small
  have hdouble : u32 (v.array.length * 2) = v.array.length * 2 := Nat.mod_eq_of_lt (by omega)
  unfold Meets VectorStruct.step vectorAdd vectorAddResult
  dsimp only
  by_cases hcap : v.depth = v.capacity
  . rw [if_pos hcap, if_pos hcap]
    exact ⟨.inr ⟨rfl, rfl, .inl hcap⟩, hv⟩
  . rw [if_neg hcap, if_neg hcap]
    -- the vector after the growth
    obtain ⟨w, hw, hbag, hlen, hwdepth, hwcap⟩ : ∃ w,
        (if v.depth = v.array.length then
          vectorResize v (u32 (v.array.length * 2)) (addGrant v zalloc) else v) = w ∧
        bag w.array = bag v.array ∧
        (w.array.length < 2 ^ 29 ∧ (v.depth = w.array.length →
          w = v ∧ addGrant v zalloc = false) ∧ 0 < w.array.length) ∧
        w.depth = v.depth ∧ w.capacity = v.capacity := by
      refine ⟨_, rfl, ?_⟩
      split
      . next hgrow =>
        have hgrown : v.array.length ≤ u32 (v.array.length * 2) := by omega
        obtain ⟨hbag, hlen⟩ := resize_bag (addGrant v zalloc) (.inl hgrown)
        refine ⟨hbag, ?_, by simp, by simp⟩
        rw [hlen, hdouble]
        cases hg : addGrant v zalloc with
        | false => exact ⟨hsmall, fun _ => ⟨rfl, rfl⟩, hroom⟩
        | true =>
          unfold addGrant at hg
          rw [hdouble] at hg
          simp only [if_true]
          exact ⟨grant_small hz (by omega) hg, fun h => absurd h (by omega), by omega⟩
      . next hne => exact ⟨rfl, ⟨hsmall, fun h => absurd h hne, hroom⟩, rfl, rfl⟩
    rw [hw]
    have hfill := fillEmpty_bag he w.array
    cases hf : fillEmpty e w.array with
    | none =>
      rw [hf] at hfill
      obtain ⟨rfl, hg⟩ := hlen.2.1 (by rw [hdepth, ← hbag, hfill])
      exact ⟨.inr ⟨rfl, rfl, .inr ⟨by rw [hdepth, hfill], hg⟩⟩, hv⟩
    | some array =>
      rw [hf] at hfill
      have hcard := card_bag_le w.array
      rw [hbag, ← hdepth] at hcard
      refine ⟨.inl ⟨rfl, by rw [hfill.1, hbag]⟩, ?_, ?_, ?_, ?_⟩
      . dsimp only
        rw [hfill.1, Multiset.card_cons, hbag, ← hdepth, hwdepth]
        exact Nat.mod_eq_of_lt (by omega)
      . dsimp only
        rw [hwdepth, hwcap, show u32 (v.depth + 1) = v.depth + 1 from Nat.mod_eq_of_lt (by omega)]
        omega
      . exact hfill.2 ▸ hlen.2.2
      . exact hfill.2 ▸ hlen.1

theorem remove_meets (hv : Inv v)
    (hop : (Op.remove e zalloc).Valid) :
    Meets v (.remove e zalloc) ∧ Inv (v.step (.remove e zalloc)) := by
  obtain ⟨he, hz⟩ := hop
  have hdepth := hv.depth
  unfold Meets VectorStruct.step vectorRemove
  dsimp only
  by_cases hempty : v.depth = 0
  . rw [if_pos hempty]
    refine ⟨.inr ⟨rfl, rfl, fun hmem => ?_⟩, hv⟩
    rw [hempty, eq_comm, Multiset.card_eq_zero] at hdepth
    have hin := (mem_bag he).mpr hmem
    rw [hdepth] at hin
    exact Multiset.notMem_zero e hin
  . rw [if_neg hempty]
    have hclear := clearFirst_bag he v.array
    cases hc : clearFirst e v.array with
    | none =>
      rw [hc] at hclear
      exact ⟨.inr ⟨rfl, rfl, hclear⟩, hv⟩
    | some array =>
      rw [hc] at hclear
      obtain ⟨hbag, hlen⟩ := hclear
      have hcard : v.depth - 1 = (bag array).card := by
        rw [hdepth, hbag, Multiset.card_cons, Nat.add_sub_cancel]
      have hfull := hv.full
      have hsmall := hv.small
      have hroom := hv.room
      dsimp only
      split
      . next hshrink =>
        have hshrunk : (bag array).card < array.length / 2 := by omega
        obtain ⟨hbag', hlen'⟩ := resize_bag (v := { v with array := array, depth := v.depth - 1 })
          (removeGrant v zalloc) (.inr hshrunk)
        refine ⟨.inl ⟨rfl, by rw [hbag', hbag]⟩, ?_, ?_, ?_, ?_⟩
        . rw [hbag', vectorResize_depth, hcard]
        . rw [vectorResize_depth, vectorResize_capacity]
          dsimp only
          omega
        . rw [hlen']
          dsimp only at hshrink ⊢
          split <;> omega
        . rw [hlen']
          dsimp only
          split <;> omega
      . exact ⟨.inl ⟨rfl, hbag⟩, hcard, by dsimp only; omega, hlen ▸ hroom, hlen ▸ hsmall⟩

theorem step_capacity (v : VectorStruct) (op : Op) : (v.step op).capacity = v.capacity := by
  cases op with
  | add e zalloc =>
    unfold VectorStruct.step vectorAdd
    dsimp only
    split_ifs
    . rfl
    . split <;> simp
    . split <;> simp
  | remove e zalloc =>
    unfold VectorStruct.step vectorRemove
    dsimp only
    split_ifs
    . rfl
    . split
      . rfl
      . split_ifs <;> simp

theorem step_meets (hv : Inv v) (hop : op.Valid) : Meets v op ∧ Inv (v.step op) := by
  cases op with
  | add e zalloc => exact add_meets hv hop
  | remove e zalloc => exact remove_meets hv hop

-- the loop ends with the last slot or after `depth` elements
def searchLoop (predicate : VectorEle → Bool) : List VectorEle → Nat → Option VectorEle
  | _, 0 | [], _ => none
  | e :: es, depth + 1 =>
    if e = 0 then searchLoop predicate es (depth + 1)
    else if predicate e then some e
    else searchLoop predicate es depth

def vectorSearch (v : VectorStruct) (predicate : VectorEle → Bool) : Option VectorEle :=
  if v.depth = 0 then none else searchLoop predicate v.array v.depth

def mappingLoop : List VectorEle → Nat → List VectorEle
  | _, 0 | [], _ => []
  | e :: es, depth + 1 =>
    if e = 0 then mappingLoop es (depth + 1) else e :: mappingLoop es depth

-- the elements for which `mapper` is called
def vectorMapping (v : VectorStruct) : List VectorEle × Bool :=
  if v.depth = 0 then ([], false) else (mappingLoop v.array v.depth, true)

theorem searchLoop_eq (predicate : VectorEle → Bool) (es : List VectorEle) (depth : Nat) :
    searchLoop predicate es depth = (mappingLoop es depth).find? predicate := by
  induction es generalizing depth with
  | nil => cases depth <;> rfl
  | cons e es ih =>
    cases depth with
    | zero => rfl
    | succ depth =>
      rw [searchLoop, mappingLoop]
      split
      . exact ih _
      . rw [List.find?_cons, ih]
        cases predicate e <;> rfl

theorem mappingLoop_eq (es : List VectorEle) :
    mappingLoop es (es.filter (· ≠ 0)).length = es.filter (· ≠ 0) := by
  induction es with
  | nil => rfl
  | cons e es ih =>
    by_cases he : e = 0
    . rw [List.filter_cons_of_neg (by simpa using he)]
      refine Eq.trans ?_ ih
      cases (es.filter (· ≠ 0)).length with
      | zero => rw [mappingLoop, mappingLoop]
      | succ n => rw [mappingLoop, if_pos he]
    . rw [List.filter_cons_of_pos (by simpa using he), List.length_cons, mappingLoop, if_neg he, ih]

theorem inv_run {v : VectorStruct} (hv : Inv v) (ops : List Op) (hops : ∀ op ∈ ops, op.Valid) :
    Inv (Run.exec VectorStruct.step v ops) := by
  induction ops generalizing v with
  | nil => exact hv
  | cons op ops ih =>
    obtain ⟨hop, hrest⟩ := List.forall_mem_cons.mp hops
    exact ih (step_meets hv hop).2 hrest

theorem vector_each {capacity : Nat} {v : VectorStruct} (vector array : Bool)
    (hv : vectorCreate capacity vector array = some v) (ops : List Op)
    (hops : ∀ op ∈ ops, op.Valid) :
    let w := Run.exec VectorStruct.step v ops
    ((vectorMapping w).1 : Multiset VectorEle) = bag w.array ∧
      ((vectorMapping w).2 = true ↔ bag w.array ≠ 0) ∧
      ∀ predicate, (∀ e ∈ vectorSearch w predicate, e ∈ bag w.array ∧ predicate e = true) ∧
        (vectorSearch w predicate = none → ∀ e ∈ bag w.array, predicate e = false) := by
  intro w
  have hinit : Inv v := by
    unfold vectorCreate at hv
    split_ifs at hv
    cases hv
    exact ⟨rfl, Nat.zero_le _, Nat.one_pos, show 1 < 2 ^ 29 by decide⟩
  have hdepth : w.depth = (w.array.filter (· ≠ 0)).length := (inv_run hinit ops hops).depth
  have hbag : bag w.array = ↑(w.array.filter (· ≠ 0)) := rfl
  have hloop := mappingLoop_eq w.array
  rw [vectorMapping, hbag]
  unfold vectorSearch
  simp only [searchLoop_eq, hdepth, hloop]
  cases w.array.filter (· ≠ 0) with
  | nil => exact ⟨rfl, by simp, fun _ => by simp⟩
  | cons e es =>
    refine ⟨rfl, by simp, fun predicate => ?_⟩
    rw [if_neg (by simp)]
    refine ⟨fun x hx => ⟨List.mem_of_find?_eq_some hx, List.find?_some hx⟩, fun hnone x hx => ?_⟩
    simpa using List.find?_eq_none.mp hnone x hx

theorem vector_each_two :
    let w := Run.exec VectorStruct.step ⟨0, 2, [0]⟩ [.add 5 (· < 100)]
    ((vectorMapping w).1 : Multiset VectorEle) = bag w.array ∧
      ((vectorMapping w).2 = true ↔ bag w.array ≠ 0) ∧
      ∀ predicate, (∀ e ∈ vectorSearch w predicate, e ∈ bag w.array ∧ predicate e = true) ∧
        (vectorSearch w predicate = none → ∀ e ∈ bag w.array, predicate e = false) :=
  vector_each true true (show vectorCreate 2 true true = some ⟨0, 2, [0]⟩ from rfl) _ (by
    rw [List.forall_mem_singleton]
    exact ⟨by decide, fun n hn => by rw [decide_eq_true_eq] at hn; omega⟩)

end VectorSet
