import Earphone.VectorSet.Basic
import Mathlib.Data.List.Sort

namespace VectorSet

open List

theorem shift_eq (tmp : VectorEle) (r : List VectorEle) (x : VectorEle) (post : List VectorEle) :
    shift tmp r.length (r.reverse ++ x :: post) =
      (r.orderedInsert (· ≥ ·) tmp).reverse ++ post := by
  induction r generalizing x post with
  | nil => rfl
  | cons a r ih =>
    have hlen : (r.reverse ++ [a]).length = r.length + 1 := by simp
    have hget : ((a :: r).reverse ++ x :: post).getD r.length 0 = a := by simp
    have hset : ∀ y, ((a :: r).reverse ++ x :: post).set (r.length + 1) y =
        r.reverse ++ a :: y :: post := by
      intro y
      rw [reverse_cons, set_append_right _ _ (by omega), hlen, Nat.sub_self]
      simp
    rw [length_cons, shift, hget, orderedInsert_cons]
    split
    . next hgt =>
      rw [if_neg (show ¬tmp ≥ a from Nat.not_le_of_gt hgt), hset, ih, reverse_cons]
      simp
    . next hle =>
      rw [if_pos (show tmp ≥ a from Nat.le_of_not_gt hle), hset]
      simp

theorem foldl_shift (k : Nat) (r post : List VectorEle) (hk : k ≤ post.length) :
    (List.range' r.length k).foldl (fun array p => shift (array.getD p 0) p array)
        (r.reverse ++ post) =
      ((post.take k).foldl (fun r e => r.orderedInsert (· ≥ ·) e) r).reverse ++ post.drop k := by
  induction k generalizing r post with
  | zero => simp
  | succ k ih =>
    cases post with
    | nil => simp at hk
    | cons e post =>
      have hget : (r.reverse ++ e :: post).getD r.length 0 = e := by simp
      have hlen : r.length + 1 = (r.orderedInsert (· ≥ ·) e).length := by
        rw [orderedInsert_length]
      rw [range'_succ, foldl_cons, hget, shift_eq, hlen, ih _ _ (by simpa using hk),
        take_succ_cons, foldl_cons, drop_succ_cons]

theorem foldl_orderedInsert (es r : List VectorEle) (hr : r.Pairwise (· ≥ ·)) :
    (es.foldl (fun r e => r.orderedInsert (· ≥ ·) e) r).Pairwise (· ≥ ·) ∧
      (es.foldl (fun r e => r.orderedInsert (· ≥ ·) e) r).Perm (es ++ r) := by
  induction es generalizing r with
  | nil => exact ⟨hr, .refl _⟩
  | cons e es ih =>
    obtain ⟨hsorted, hperm⟩ := ih _ (hr.orderedInsert e _)
    refine ⟨hsorted, hperm.trans ?_⟩
    refine (((perm_orderedInsert _ e r).append_left es)).trans ?_
    exact perm_middle

def byAddress (es : List VectorEle) : List VectorEle := es.insertionSort (· ≤ ·)

theorem vectorIsort_eq (array : List VectorEle) :
    vectorIsort array array.length = byAddress array := by
  unfold vectorIsort byAddress
  cases array with
  | nil => rfl
  | cons e es =>
    have hgo := foldl_shift es.length [e] es (Nat.le_refl _)
    simp only [length_singleton, reverse_singleton, singleton_append,
      take_length, drop_length, append_nil] at hgo
    obtain ⟨hsorted, hperm⟩ := foldl_orderedInsert es [e] (pairwise_singleton _ _)
    rw [length_cons, Nat.add_sub_cancel, hgo]
    refine List.Perm.eq_of_pairwise' ?_ (pairwise_insertionSort _ _) ?_
    . rw [pairwise_reverse]
      exact hsorted
    . refine (reverse_perm _).trans (hperm.trans ?_)
      exact (perm_append_comm.trans (perm_insertionSort _ _).symm)

structure Compares {V : Type} [LinearOrder V] (cmp : VCmp) (val : VectorEle → V) : Prop where
  neg_iff : ∀ a b, cmp a b < 0 ↔ val a < val b
  zero_iff : ∀ a b, cmp a b = 0 ↔ val a = val b

theorem compares_testCmp (val : VectorEle → Nat) : Compares (testCmp val) val := by
  constructor <;> intro a b <;> unfold testCmp <;> split
  . next hlt => exact iff_of_true (by decide) hlt
  . next hge => split <;> exact iff_of_false (by decide) hge
  . next hlt => exact iff_of_false (by decide) (Nat.ne_of_lt hlt)
  . next hge =>
    split
    . next hgt => exact iff_of_false (by decide) (Nat.ne_of_gt hgt)
    . next hle => exact iff_of_true rfl (by omega)

section

variable [LinearOrder V] {cmp : VCmp} {val : VectorEle → V}

theorem mergeRuns_perm (cmp : VCmp) (left right : List VectorEle) :
    (mergeRuns cmp left right).Perm (left ++ right) := by
  fun_induction mergeRuns cmp left right with
  | case1 right => exact .refl _
  | case2 left => rw [append_nil]
  | case3 l left r right hlt ih => exact ih.cons l
  | case4 l left r right hge ih => exact (ih.cons r).trans perm_middle.symm

theorem mergeRuns_pairwise (hcmp : Compares cmp val)
    (hleft : left.Pairwise fun a b => val a ≤ val b)
    (hright : right.Pairwise fun a b => val a ≤ val b) :
    (mergeRuns cmp left right).Pairwise fun a b => val a ≤ val b := by
  fun_induction mergeRuns cmp left right with
  | case1 right => exact hright
  | case2 left => exact hleft
  | case3 l left r right hlt ih =>
    rw [hcmp.neg_iff] at hlt
    have hl := pairwise_cons.mp hleft
    refine pairwise_cons.mpr ⟨?_, ih hl.2 hright⟩
    intro e he
    rw [(mergeRuns_perm cmp left (r :: right)).mem_iff, mem_append] at he
    obtain he | he := he
    . exact hl.1 e he
    . rw [mem_cons] at he
      obtain rfl | he := he
      . exact le_of_lt hlt
      . exact le_trans (le_of_lt hlt) ((pairwise_cons.mp hright).1 e he)
  | case4 l left r right hge ih =>
    rw [hcmp.neg_iff, not_lt] at hge
    have hr := pairwise_cons.mp hright
    refine pairwise_cons.mpr ⟨?_, ih hleft hr.2⟩
    intro e he
    rw [(mergeRuns_perm cmp (l :: left) right).mem_iff, mem_append] at he
    obtain he | he := he
    . rw [mem_cons] at he
      obtain rfl | he := he
      . exact hge
      . exact le_trans hge ((pairwise_cons.mp hleft).1 e he)
    . exact hr.1 e he

theorem vectorMerge_eq (cmp : VCmp) (pre s t post : List VectorEle) (ht : t ≠ []) :
    vectorMerge cmp (pre ++ (s ++ t) ++ post) pre.length (pre.length + s.length)
        (pre.length + s.length + t.length - 1) =
      some (pre ++ mergeRuns cmp s t ++ post) := by
  have hpos : 0 < t.length := length_pos_of_ne_nil ht
  have hend : pre.length + s.length + t.length - 1 + 1 = pre.length + s.length + t.length := by
    omega
  unfold vectorMerge
  rw [if_pos (by simp only [length_append]; omega), hend]
  congr 1
  have h1 : (pre ++ (s ++ t) ++ post).take pre.length = pre := by simp
  have h2 : ((pre ++ (s ++ t) ++ post).take (pre.length + s.length)).drop pre.length = s := by
    rw [show pre ++ (s ++ t) ++ post = (pre ++ s) ++ (t ++ post) by simp,
      show pre.length + s.length = (pre ++ s).length by simp, take_left, drop_left]
  have h3 : ((pre ++ (s ++ t) ++ post).take (pre.length + s.length + t.length)).drop
      (pre.length + s.length) = t := by
    rw [show pre ++ (s ++ t) ++ post = (pre ++ s ++ t) ++ post by simp,
      show pre.length + s.length + t.length = (pre ++ s ++ t).length by simp [Nat.add_assoc],
      take_left,
      show pre.length + s.length = (pre ++ s).length by simp, drop_left]
  have h4 : (pre ++ (s ++ t) ++ post).drop (pre.length + s.length + t.length) = post := by
    rw [show pre ++ (s ++ t) ++ post = (pre ++ s ++ t) ++ post by simp,
      show pre.length + s.length + t.length = (pre ++ s ++ t).length by simp [Nat.add_assoc],
      drop_left]
  rw [h1, h2, h3, h4]

theorem vectorMsort_eq (hcmp : Compares cmp val) (fuel : Nat) (pre seg post : List VectorEle)
    (hseg : seg ≠ []) (hfuel : seg.length ≤ fuel) (hsize : 2 * (pre.length + seg.length) < 2 ^ 32) :
    ∃ seg', vectorMsort cmp fuel (pre ++ seg ++ post) pre.length (pre.length + seg.length - 1) =
        some (pre ++ seg' ++ post) ∧
      seg'.Perm seg ∧ seg'.Pairwise fun a b => val a ≤ val b := by
  induction fuel generalizing pre seg post with
  | zero => exact absurd (length_eq_zero_iff.mp (Nat.le_zero.mp hfuel)) hseg
  | succ fuel ih =>
    have hpos : 0 < seg.length := length_pos_of_ne_nil hseg
    unfold vectorMsort
    split
    . next hlt =>
      have hcenter : u32 (pre.length + (pre.length + seg.length - 1)) / 2 =
          pre.length + ((seg.length - 1) / 2) := by
        unfold u32
        rw [Nat.mod_eq_of_lt (by omega)]
        omega
      -- the segment is cut where the code cuts it: the first half has the middle element
      obtain ⟨s, t, hst, hs⟩ : ∃ s t, seg = s ++ t ∧ s.length = (seg.length - 1) / 2 + 1 :=
        ⟨seg.take ((seg.length - 1) / 2 + 1), seg.drop ((seg.length - 1) / 2 + 1),
          (take_append_drop ..).symm, by rw [length_take]; omega⟩
      have hlen : seg.length = s.length + t.length := by rw [hst, length_append]
      have hs0 : s ≠ [] := by
        intro h
        rw [h] at hs
        cases hs
      have ht0 : t ≠ [] := by
        intro h
        rw [h, length_nil] at hlen
        omega
      obtain ⟨s', hs', hsperm, hssorted⟩ := ih pre s (t ++ post) hs0 (by omega) (by omega)
      obtain ⟨t', ht', htperm, htsorted⟩ := ih (pre ++ s') t post ht0
        (by have := length_pos_of_ne_nil hs0; omega)
        (by rw [length_append, hsperm.length_eq]; omega)
      rw [hcenter]
      dsimp only
      rw [show pre ++ seg ++ post = pre ++ s ++ (t ++ post) by rw [hst]; simp,
        show pre.length + (seg.length - 1) / 2 = pre.length + s.length - 1 by omega, hs',
        Option.bind_eq_bind, Option.bind_some]
      have hstart : pre.length + s.length - 1 + 1 = (pre ++ s').length := by
        have := length_pos_of_ne_nil hs0
        rw [length_append, hsperm.length_eq]
        omega
      have hend : pre.length + seg.length - 1 = (pre ++ s').length + t.length - 1 := by
        rw [length_append, hsperm.length_eq, hlen, Nat.add_assoc]
      rw [hstart, hend, show pre ++ s' ++ (t ++ post) = pre ++ s' ++ t ++ post by simp, ht',
        Option.bind_some]
      refine ⟨mergeRuns cmp s' t', ?_, ?_, mergeRuns_pairwise hcmp hssorted htsorted⟩
      . have ht0' : t' ≠ [] := by
          intro h
          rw [h] at htperm
          exact ht0 htperm.symm.eq_nil
        have hmerge := vectorMerge_eq cmp pre s' t' post ht0'
        rw [htperm.length_eq] at hmerge
        rw [length_append, ← hmerge, append_assoc pre s' t']
      . rw [hst]
        exact (mergeRuns_perm cmp s' t').trans (hsperm.append htperm)
    . next hge =>
      refine ⟨seg, rfl, .refl _, ?_⟩
      match seg, hpos with
      | [e], _ => exact pairwise_singleton _ _
      | _ :: _ :: _, _ =>
        exfalso
        simp only [length_cons] at hge
        omega

theorem vectorMerge_eq_some (hl : lpos ≤ rpos) (hr : rpos ≤ rightend + 1)
    (h : vectorMerge cmp ori lpos rpos rightend = some ori') :
    ori'.length = ori.length ∧ rightend < ori.length := by
  unfold vectorMerge at h
  split at h
  . next hlt =>
    cases h
    refine ⟨?_, hlt⟩
    rw [length_append, length_append, (mergeRuns_perm cmp _ _).length_eq]
    simp only [length_append, length_take, length_drop]
    omega
  . cases h

theorem vectorMsort_eq_some
    (hright : right < 2 ^ 31) (h : vectorMsort cmp fuel ori left right = some ori') :
    ori'.length = ori.length ∧ (left < right → right < ori.length) := by
  induction fuel generalizing ori ori' left right with
  | zero => cases h
  | succ fuel ih =>
    unfold vectorMsort at h
    split at h
    . next hlt =>
      have hcenter : u32 (left + right) / 2 = (left + right) / 2 := by
        rw [u32, Nat.mod_eq_of_lt (by omega)]
      dsimp only at h
      rw [hcenter] at h
      obtain ⟨ori1, h1, h⟩ := Option.bind_eq_some_iff.mp h
      obtain ⟨ori2, h2, h⟩ := Option.bind_eq_some_iff.mp h
      obtain ⟨hlen1, -⟩ := ih (by omega) h1
      obtain ⟨hlen2, -⟩ := ih hright h2
      obtain ⟨hlen, hend⟩ := vectorMerge_eq_some (by omega) (by omega) h
      omega
    . next hge =>
      cases h
      exact ⟨rfl, fun hlt => absurd hlt hge⟩

theorem vectorMsort_wrapped (hlen : ori.length < 2 ^ 31) (fuel : Nat) :
    vectorMsort cmp fuel ori 0 (2 ^ 32 - 1) = none := by
  cases fuel with
  | zero => rfl
  | succ fuel =>
    have hcenter : u32 (0 + (2 ^ 32 - 1)) / 2 = 2 ^ 31 - 1 := by decide
    unfold vectorMsort
    rw [if_pos (by decide)]
    dsimp only
    rw [hcenter]
    cases h : vectorMsort cmp fuel ori 0 (2 ^ 31 - 1) with
    | none => rfl
    | some ori' =>
      have := (vectorMsort_eq_some (by decide) h).2 (by decide)
      omega

end

end VectorSet
