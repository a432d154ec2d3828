import Earphone.Lib.Bisect
import Earphone.VectorSet.Sort

namespace VectorSet

open Bisect List

section

variable {V : Type} [LinearOrder V] {cmp : VCmp} {val : VectorEle → V}

def valueAt (val : VectorEle → V) (array : List VectorEle) (k : Nat) : V := val (array.getD k 0)

theorem vectorIteratorBinarySearch_eq (hcmp : Compares cmp val) (e : VectorEle)
    (fuel lo hi : Nat) (hhi : hi ≤ array.length) (hle : lo ≤ hi)
    (hfuel : hi - lo < fuel) :
    ∃ r, vectorIteratorBinarySearch cmp e array fuel lo ((hi : Int) - 1) = some r ∧
      (r = -1 ∨ 0 ≤ r) ∧ (0 ≤ r ↔ Bisects (valueAt val array) (val e) lo hi) := by
  induction fuel generalizing lo hi with
  | zero => omega
  | succ fuel ih =>
    unfold vectorIteratorBinarySearch
    split
    . next hgt =>
      refine ⟨-1, rfl, .inl rfl, ?_⟩
      exact iff_of_false (by omega) (not_bisects (by omega))
    . next hgt =>
      have hlt : lo < hi := by omega
      generalize hmid : (lo + hi - 1) / 2 = mid
      -- the last index of the code is one less than the end of the interval
      have hcenter : ((lo : Int) + ((hi : Int) - 1)).tdiv 2 = (mid : Int) := by
        rw [Int.tdiv_eq_ediv_of_nonneg (by omega)]
        omega
      have hget : array[mid]? = some (array.getD mid 0) := by
        rw [getD_eq_getElem?_getD, getElem?_eq_getElem (by omega)]
        rfl
      dsimp only
      rw [hcenter, Int.toNat_natCast, hget, Option.bind_eq_bind, Option.bind_some,
        bisects_iff hlt hmid.symm]
      split
      . next heq =>
        exact ⟨mid, rfl, .inr (by omega),
          iff_of_true (by omega) (.inl ((hcmp.zero_iff _ _).mp heq).symm)⟩
      . next hne =>
        rw [hcmp.zero_iff] at hne
        split
        . next hneg =>
          rw [hcmp.neg_iff] at hneg
          obtain ⟨r, hr, hcases, hiff⟩ := ih lo mid (by omega) (by omega) (by omega)
          refine ⟨r, hr, hcases, hiff.trans ?_⟩
          constructor
          . intro h
            exact .inr (.inl ⟨hneg, h⟩)
          . rintro (h | ⟨-, h⟩ | ⟨h, -⟩)
            . exact absurd h.symm hne
            . exact h
            . exact absurd h (lt_asymm hneg)
        . next hnonneg =>
          rw [hcmp.neg_iff, not_lt] at hnonneg
          have hpos := lt_of_le_of_ne hnonneg (Ne.symm hne)
          obtain ⟨r, hr, hcases, hiff⟩ := ih (mid + 1) hi hhi (by omega) (by omega)
          refine ⟨r, by simpa using hr, hcases, hiff.trans ?_⟩
          constructor
          . intro h
            exact .inr (.inr ⟨hpos, h⟩)
          . rintro (h | ⟨h, -⟩ | ⟨-, h⟩)
            . exact absurd h.symm hne
            . exact absurd h (lt_asymm hpos)
            . exact h

def Finds (val : VectorEle → V) (array : List VectorEle) (v : V) : Prop :=
  Bisects (valueAt val array) v 0 array.length

theorem search_eq (hcmp : Compares cmp val)
    (hfuel : array.length < fuel) (e : VectorEle) :
    ∃ r, VectorIterator.search ⟨array.length, array⟩ cmp fuel e = some r ∧
      (r = -1 ∨ 0 ≤ r) ∧ (0 ≤ r ↔ Finds val array (val e)) :=
  vectorIteratorBinarySearch_eq hcmp e fuel 0 array.length (Nat.le_refl _) (Nat.zero_le _) hfuel

theorem exists_of_finds (h : Finds val array v) : ∃ e ∈ array, val e = v := by
  obtain ⟨k, -, hk, hv, -⟩ := h
  refine ⟨array.getD k 0, ?_, hv⟩
  rw [getD_eq_getElem?_getD, getElem?_eq_getElem hk]
  exact getElem_mem hk

theorem finds_of_pairwise
    (h : array.Pairwise fun a b => val a ≤ val b) (he : e ∈ array) :
    Finds val array (val e) := by
  obtain ⟨k, hk, rfl⟩ := getElem_of_mem he
  have hget : ∀ i (hi : i < array.length), valueAt val array i = val array[i] := by
    intro i hi
    rw [valueAt, getD_eq_getElem?_getD, getElem?_eq_getElem hi]
    rfl
  rw [← hget k hk]
  refine bisects_of_ordered array.length (by omega) ?_ (Nat.zero_le _) hk
  intro i j _ hij hj
  rw [hget i (by omega), hget j hj]
  obtain rfl | hlt := Nat.eq_or_lt_of_le hij
  . exact le_refl _
  . exact pairwise_iff_getElem.mp h i j (by omega) hj hlt

end

structure Holds (v : VectorStruct) (xs : List VectorEle) : Prop where
  array : ∃ room, v.array = xs ++ List.replicate room 0
  depth : v.depth = xs.length
  nonnull : ∀ x ∈ xs, x ≠ 0
  pos : 0 < v.array.length

theorem Holds.elements (h : Holds v xs) : v.elements = xs := by
  obtain ⟨room, harray⟩ := h.array
  unfold VectorStruct.elements
  rw [harray, filter_append, filter_eq_self.mpr (by simpa using h.nonnull)]
  simp

theorem fillEmpty_eq (h : ∀ x ∈ xs, x ≠ 0) (e : VectorEle) (room : Nat) :
    fillEmpty e (xs ++ List.replicate (room + 1) 0) = some (xs ++ e :: List.replicate room 0) := by
  induction xs with
  | nil => rfl
  | cons x xs ih =>
    rw [forall_mem_cons] at h
    rw [cons_append, fillEmpty, if_neg h.1, ih h.2]
    rfl

theorem holds_vectorAdd (h : Holds v xs)
    (he : e ≠ 0) (hcap : xs.length < v.capacity) (hsmall : v.capacity < 2 ^ 16) :
    Holds (vectorAdd v e true) (xs ++ [e]) ∧ (vectorAdd v e true).capacity = v.capacity := by
  obtain ⟨room, harray⟩ := h.array
  have hdepth := h.depth
  have hlen : v.array.length = xs.length + room := by
    rw [harray, length_append, length_replicate]
  have hroom : ∃ room', (if v.depth = v.array.length then
      vectorResize v (u32 (v.array.length * 2)) true else v) =
        { v with array := xs ++ List.replicate (room' + 1) 0 } := by
    split
    . next hfull =>
      have hzero : room = 0 := by omega
      have hpos := h.pos
      have hwrap : u32 (v.array.length * 2) = v.array.length * 2 := Nat.mod_eq_of_lt (by omega)
      refine ⟨v.array.length - 1, ?_⟩
      unfold vectorResize
      rw [if_pos rfl, hwrap, if_pos (by omega),
        show v.array.length * 2 - v.array.length = v.array.length - 1 + 1 by omega, harray, hzero]
      simp
    . next hfree =>
      refine ⟨room - 1, ?_⟩
      rw [show room - 1 + 1 = room by omega, ← harray]
  obtain ⟨room', hresized⟩ := hroom
  have hcount : u32 (v.depth + 1) = xs.length + 1 := by
    rw [hdepth]
    exact Nat.mod_eq_of_lt (by omega)
  have hadd : vectorAdd v e true =
      { v with depth := xs.length + 1, array := xs ++ e :: List.replicate room' 0 } := by
    unfold vectorAdd
    rw [if_neg (by omega), hresized]
    dsimp only
    rw [fillEmpty_eq h.nonnull]
    dsimp only
    rw [hcount]
  rw [hadd]
  refine ⟨⟨⟨room', by simp⟩, by simp, ?_, by rw [length_append, length_cons]; omega⟩, rfl⟩
  intro x hx
  obtain hx | hx := mem_append.mp hx
  . exact h.nonnull x hx
  . rw [mem_singleton.mp hx]
    exact he

theorem addWhere_eq (hresize : ∀ k, resize k = true)
    (hkeep : ∀ e ∈ es, accept e = some (keep e)) (hes : ∀ e ∈ es, e ≠ 0) (k : Nat)
    (h : Holds v xs)
    (hcap : xs.length + (es.filter keep).length ≤ v.capacity) (hsmall : v.capacity < 2 ^ 16) :
    ∃ v', addWhere accept resize k es (some v) = some (some v') ∧
      Holds v' (xs ++ es.filter keep) ∧ v'.capacity = v.capacity := by
  induction es generalizing k v xs with
  | nil => exact ⟨v, rfl, by simpa using h, rfl⟩
  | cons e es ih =>
    rw [forall_mem_cons] at hkeep hes
    rw [addWhere, hkeep.1, Option.bind_eq_bind, Option.bind_some]
    cases he : keep e with
    | true =>
      rw [filter_cons_of_pos he, length_cons] at hcap
      obtain ⟨hadd, hcapacity⟩ := holds_vectorAdd h hes.1 (by omega) hsmall
      rw [if_pos rfl, Option.map_some, hresize, filter_cons_of_pos he]
      obtain ⟨v', hv', hholds, hcapacity'⟩ := ih hkeep.2 hes.2 (k + 1) hadd
        (by rw [length_append, length_singleton, hcapacity]; omega) (hcapacity ▸ hsmall)
      exact ⟨v', hv', by simpa using hholds, hcapacity'.trans hcapacity⟩
    | false =>
      rw [filter_cons_of_neg (by simp [he])] at hcap ⊢
      exact ih hkeep.2 hes.2 (k + 1) h hcap hsmall

theorem addWhere_none (k : Nat)
    (es : List VectorEle)
    (h : addWhere accept resize k es none = some c) : c = none := by
  induction es generalizing k with
  | nil => exact (Option.some.inj h).symm
  | cons e es ih =>
    unfold addWhere at h
    obtain ⟨accepted, -, h⟩ := Option.bind_eq_some_iff.mp h
    refine ih (k + 1) ?_
    rw [← h]
    split <;> rfl

theorem holds_vectorCreate (h : capacity ≠ 0) :
    ∃ v, vectorCreate capacity true true = some v ∧ Holds v [] ∧ v.capacity = capacity := by
  refine ⟨⟨0, capacity, [0]⟩, ?_, ⟨⟨1, rfl⟩, rfl, by simp, Nat.one_pos⟩, rfl⟩
  unfold vectorCreate
  rw [if_neg h]
  rfl

section

variable {V : Type} [LinearOrder V] {cmp : VCmp} {val : VectorEle → V}
variable {op : VectorSetOpType} {mem : Memory} {fuel : Nat} {a b : VectorStruct}

theorem collect_eq (h : (es.filter (· ≠ 0)).length = n) : collect es n = es.filter (· ≠ 0) := by
  induction es generalizing n with
  | nil =>
    cases h
    rfl
  | cons e es ih =>
    cases n with
    | zero =>
      rw [length_eq_zero_iff.mp h]
      rfl
    | succ n =>
      unfold collect
      split
      . next he =>
        rw [filter_cons_of_pos (by simpa using he)] at h ⊢
        rw [ih (by simpa using h)]
      . next he =>
        rw [filter_cons_of_neg (by simpa using he)] at h ⊢
        exact ih h

theorem vectorIteratorCreate_eq (ha : a.Wf) (hsize : a.elements.length < 2 ^ 8) :
    vectorIteratorCreate a true = some ⟨a.elements.length, a.elements⟩ := by
  unfold vectorIteratorCreate
  rw [if_pos rfl, ha.depth_eq, Nat.mod_eq_of_lt hsize]
  congr 2
  exact collect_eq rfl

def Short (as bs : List VectorEle) : Prop := as.length < 20 ∧ bs.length < 20

instance (as bs : List VectorEle) : Decidable (Short as bs) :=
  decidable_of_iff (as.length < 20 ∧ bs.length < 20) Iff.rfl

structure Sortable (as bs : List VectorEle) : Prop where
  lenA : as.length < 2 ^ 8
  lenB : bs.length < 2 ^ 8
  nonempty : Short as bs ∨ as ≠ [] ∧ bs ≠ []

structure SortedAs (val : VectorEle → V) (as bs sa sb : List VectorEle) : Prop where
  permA : sa.Perm as
  permB : sb.Perm bs
  short : Short as bs → sa = byAddress as ∧ sb = byAddress bs
  long : ¬Short as bs → (sa.Pairwise fun x y => val x ≤ val y) ∧
    sb.Pairwise fun x y => val x ≤ val y

def outParam (op : VectorSetOpType) (a b : VectorStruct) (sa sb : List VectorEle) :
    VectorSetOpOutParam where
  vectorC := vectorCreate (newVectorSize op sa.length sb.length) true true
  iteratorA := ⟨sa.length, sa⟩
  iteratorB := ⟨sb.length, sb⟩
  vectorA := vectorUpdateByIterator a ⟨sa.length, sa⟩
  vectorB := vectorUpdateByIterator b ⟨sb.length, sb⟩

theorem vectorIteratorMergeSort_eq (hcmp : Compares cmp val)
    (hne : es ≠ []) (hsize : es.length < 2 ^ 8) (hfuel : 2 ^ 8 ≤ fuel) :
    ∃ s, vectorIteratorMergeSort cmp fuel ⟨es.length, es⟩ true = some ⟨s.length, s⟩ ∧ s.Perm es ∧
      s.Pairwise fun x y => val x ≤ val y := by
  have hpos : 0 < es.length := length_pos_of_ne_nil hne
  obtain ⟨s, hs, hperm, hsorted⟩ := vectorMsort_eq hcmp fuel [] es [] hne (by omega)
    (by rw [length_nil]; omega)
  refine ⟨s, ?_, hperm, hsorted⟩
  have hlast : u32 (es.length + (2 ^ 32 - 1)) = es.length - 1 := by
    unfold u32
    omega
  rw [nil_append, append_nil, length_nil, Nat.zero_add, nil_append,
    append_nil] at hs
  unfold vectorIteratorMergeSort
  dsimp only
  rw [if_pos rfl, hlast, hs, Option.map_some, hperm.length_eq]

theorem sortIterators_eq (hcmp : Compares cmp val) (hmem : mem.Granted) (hfuel : 2 ^ 8 ≤ fuel)
    (h : Sortable as bs) :
    ∃ sa sb, sortIterators cmp mem fuel ⟨as.length, as⟩ ⟨bs.length, bs⟩ =
        some (⟨sa.length, sa⟩, ⟨sb.length, sb⟩) ∧ SortedAs val as bs sa sb := by
  unfold sortIterators
  rw [hmem.tmpA, hmem.tmpB]
  split
  . next hshort =>
    have hla : (byAddress as).length = as.length := length_insertionSort _ _
    have hlb : (byAddress bs).length = bs.length := length_insertionSort _ _
    refine ⟨byAddress as, byAddress bs, ?_, ?_⟩
    . unfold vectorIteratorInsertSort
      dsimp only
      rw [vectorIsort_eq, vectorIsort_eq, hla, hlb]
    . exact ⟨perm_insertionSort _ _, perm_insertionSort _ _, fun _ => ⟨rfl, rfl⟩,
        fun hlong => absurd hshort hlong⟩
  . next hlong =>
    obtain ⟨hneA, hneB⟩ := h.nonempty.resolve_left hlong
    obtain ⟨sa, hsa, hpermA, hsortedA⟩ := vectorIteratorMergeSort_eq hcmp hneA h.lenA hfuel
    obtain ⟨sb, hsb, hpermB, hsortedB⟩ := vectorIteratorMergeSort_eq hcmp hneB h.lenB hfuel
    rw [hsa, hsb]
    exact ⟨sa, sb, rfl, hpermA, hpermB, fun hshort => absurd hshort hlong,
      fun _ => ⟨hsortedA, hsortedB⟩⟩

theorem vectorSetOpPrepare_eq (hcmp : Compares cmp val) (ha : a.Wf) (hb : b.Wf)
    (hmem : mem.Granted) (hfuel : 2 ^ 8 ≤ fuel) (h : Sortable a.elements b.elements) :
    ∃ sa sb, vectorSetOpPrepare op cmp mem fuel a b = some (outParam op a b sa sb) ∧
      SortedAs val a.elements b.elements sa sb := by
  obtain ⟨sa, sb, hsort, hsorted⟩ := sortIterators_eq hcmp hmem hfuel h
  refine ⟨sa, sb, ?_, hsorted⟩
  unfold vectorSetOpPrepare outParam
  rw [hmem.iteratorA, hmem.iteratorB, hmem.vector, hmem.array, vectorIteratorCreate_eq ha h.lenA,
    vectorIteratorCreate_eq hb h.lenB, Option.bind_eq_bind, Option.bind_some, Option.bind_eq_bind,
    Option.bind_some, hsort]
  rfl

theorem vectorIteratorMergeSort_size
    (h : vectorIteratorMergeSort cmp fuel it granted = some it') : it'.size = it.size := by
  unfold vectorIteratorMergeSort at h
  split at h
  . obtain ⟨array, -, rfl⟩ := Option.map_eq_some_iff.mp h
    rfl
  . cases h
    rfl

theorem sortIterators_size
    (h : sortIterators cmp mem fuel itA itB = some (sa, sb)) :
    sa.size = itA.size ∧ sb.size = itB.size := by
  unfold sortIterators at h
  split at h
  . cases h
    exact ⟨rfl, rfl⟩
  . obtain ⟨sa', hsa, h⟩ := Option.bind_eq_some_iff.mp h
    obtain ⟨sb', hsb, h⟩ := Option.bind_eq_some_iff.mp h
    cases h
    exact ⟨vectorIteratorMergeSort_size hsa, vectorIteratorMergeSort_size hsb⟩

theorem vectorSetOpPrepare_vectors
    (h : vectorSetOpPrepare op cmp mem fuel a b = some out) :
    ∃ sa sb : VectorIterator, sa.size = a.depth % 2 ^ 8 ∧ sb.size = b.depth % 2 ^ 8 ∧
      out.vectorA = vectorUpdateByIterator a sa ∧ out.vectorB = vectorUpdateByIterator b sb := by
  have hsize : ∀ {v : VectorStruct} {granted : Bool} {it : VectorIterator},
      vectorIteratorCreate v granted = some it → it.size = v.depth % 2 ^ 8 := by
    intro v granted it hit
    unfold vectorIteratorCreate at hit
    split at hit <;> cases hit
    rfl
  unfold vectorSetOpPrepare at h
  obtain ⟨itA, hA, h⟩ := Option.bind_eq_some_iff.mp h
  obtain ⟨itB, hB, h⟩ := Option.bind_eq_some_iff.mp h
  obtain ⟨⟨sa, sb⟩, hsort, h⟩ := Option.bind_eq_some_iff.mp h
  cases h
  obtain ⟨hsa, hsb⟩ := sortIterators_size hsort
  exact ⟨sa, sb, hsa.trans (hsize hA), hsb.trans (hsize hB), rfl, rfl⟩

theorem length_elements_update (v : VectorStruct) (it : VectorIterator) :
    (vectorUpdateByIterator v it).elements.length ≤ it.size := by
  unfold vectorUpdateByIterator VectorStruct.elements
  rw [filter_append, length_append]
  have hzeros : ((List.replicate (v.array.length - it.size) 0).filter (· ≠ 0)).length = 0 := by simp
  have hfront := length_filter_le (fun e : VectorEle => decide (e ≠ 0))
    (it.array.take it.size)
  have htake := @List.length_take_le _ it.size it.array
  rw [hzeros]
  exact Nat.le_trans hfront htake

theorem vectorSetOpPrepare_eq_none (ha : a.Wf) (hb : b.Wf) (hmem : mem.Granted)
    (hlenA : a.elements.length < 2 ^ 8) (hlenB : b.elements.length < 2 ^ 8)
    (hlong : ¬Short a.elements b.elements) (hempty : a.elements = [] ∨ b.elements = []) :
    vectorSetOpPrepare op cmp mem fuel a b = none := by
  have hnone : ∀ es : List VectorEle, es = [] →
      vectorIteratorMergeSort cmp fuel ⟨es.length, es⟩ true = none := by
    rintro es rfl
    have hlast : u32 (([] : List VectorEle).length + (2 ^ 32 - 1)) = 2 ^ 32 - 1 := by decide
    unfold vectorIteratorMergeSort
    dsimp only
    rw [if_pos rfl, hlast, vectorMsort_wrapped (by decide)]
    rfl
  have hsort : sortIterators cmp mem fuel ⟨a.elements.length, a.elements⟩
      ⟨b.elements.length, b.elements⟩ = none := by
    unfold sortIterators
    dsimp only
    rw [if_neg (show ¬(a.elements.length < 20 ∧ b.elements.length < 20) from hlong), hmem.tmpA,
      hmem.tmpB]
    obtain h | h := hempty
    . rw [hnone _ h]
      rfl
    . rw [hnone _ h]
      cases vectorIteratorMergeSort cmp fuel ⟨a.elements.length, a.elements⟩ true <;> rfl
  unfold vectorSetOpPrepare
  rw [hmem.iteratorA, hmem.iteratorB, vectorIteratorCreate_eq ha hlenA,
    vectorIteratorCreate_eq hb hlenB, Option.bind_eq_bind, Option.bind_some, Option.bind_eq_bind,
    Option.bind_some, hsort]
  rfl

end

end VectorSet
