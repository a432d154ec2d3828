import Earphone.VectorSet.SetOp

namespace VectorSet

open List

variable {V : Type} {cmp : VCmp} {val : VectorEle → V}
variable {op : VectorSetOpType} {mem : Memory} {fuel : Nat} {a b : VectorStruct}

def values (val : VectorEle → V) (es : List VectorEle) : Set V := {v | ∃ e ∈ es, val e = v}

theorem values_perm (h : es.Perm es') : values val es = values val es' := by
  ext v
  exact exists_congr fun e => and_congr_left' h.mem_iff

theorem mem_values (h : e ∈ es) : val e ∈ values val es := ⟨e, h, rfl⟩

def Computes (val : VectorEle → V) (target : Set V → Set V → Set V) (a b : VectorStruct)
    (result : Option SetOpResult) : Prop :=
  ∃ c a' b', result = some (some c, a', b') ∧
    values val c.elements = target (values val a.elements) (values val b.elements) ∧
    a'.elements.Perm a.elements ∧ b'.elements.Perm b.elements

theorem computes_prepared (h : Computes val target a b (setOp op (some cmp) mem fuel a b loop)) :
    ∃ out c, vectorSetOpPrepare op cmp mem fuel a b = some out ∧ loop cmp out = some (some c) ∧
      values val c.elements = target (values val a.elements) (values val b.elements) ∧
      out.vectorA.elements.Perm a.elements ∧ out.vectorB.elements.Perm b.elements := by
  obtain ⟨c, a', b', hresult, hvalues, hpermA, hpermB⟩ := h
  unfold setOp at hresult
  obtain ⟨out, hout, hresult⟩ := Option.bind_eq_some_iff.mp hresult
  obtain ⟨c', hc, hresult⟩ := Option.bind_eq_some_iff.mp hresult
  cases hresult
  exact ⟨out, c, hout, hc, hvalues, hpermA, hpermB⟩

theorem sortable_of_computes (ha : a.Wf) (hb : b.Wf) (hmem : mem.Granted)
    (h : Computes val target a b (setOp op (some cmp) mem fuel a b loop)) :
    Sortable a.elements b.elements := by
  obtain ⟨out, c, hout, -, -, hpermA, hpermB⟩ := computes_prepared h
  obtain ⟨sa, sb, hsizeA, hsizeB, hvectorA, hvectorB⟩ := vectorSetOpPrepare_vectors hout
  have hlenA : a.elements.length < 2 ^ 8 := by
    have hle := length_elements_update a sa
    rw [← hvectorA, hpermA.length_eq, hsizeA, ha.depth_eq] at hle
    have := Nat.mod_lt a.elements.length (show 0 < 2 ^ 8 by decide)
    omega
  have hlenB : b.elements.length < 2 ^ 8 := by
    have hle := length_elements_update b sb
    rw [← hvectorB, hpermB.length_eq, hsizeB, hb.depth_eq] at hle
    have := Nat.mod_lt b.elements.length (show 0 < 2 ^ 8 by decide)
    omega
  refine ⟨hlenA, hlenB, ?_⟩
  by_contra hno
  rw [not_or, not_and_or, not_not, not_not] at hno
  rw [vectorSetOpPrepare_eq_none ha hb hmem hlenA hlenB hno.1 hno.2] at hout
  cases hout

theorem ne_zero_of_mem_elements {v : VectorStruct} {e : VectorEle} (h : e ∈ v.elements) :
    e ≠ 0 := by
  simpa using (mem_filter.mp h).2

theorem elements_update {v : VectorStruct} {s : List VectorEle} (h : s.Perm v.elements) :
    (vectorUpdateByIterator v ⟨s.length, s⟩).elements = s := by
  unfold vectorUpdateByIterator VectorStruct.elements
  dsimp only
  rw [take_length, filter_append, filter_eq_self.mpr]
  . simp
  . intro e he
    simpa using ne_zero_of_mem_elements (h.mem_iff.mp he)

theorem computes_iff
    (hout : vectorSetOpPrepare op cmp mem fuel a b = some (outParam op a b sa sb))
    (hpermA : sa.Perm a.elements) (hpermB : sb.Perm b.elements) :
    Computes val target a b (setOp op (some cmp) mem fuel a b loop) ↔
      ∃ c, loop cmp (outParam op a b sa sb) = some (some c) ∧
        values val c.elements = target (values val a.elements) (values val b.elements) := by
  constructor
  . intro h
    obtain ⟨out, c, hout', hc, hvalues, -⟩ := computes_prepared h
    cases Option.some.inj (hout.symm.trans hout')
    exact ⟨c, hc, hvalues⟩
  . rintro ⟨c, hc, hvalues⟩
    refine ⟨c, vectorUpdateByIterator a ⟨sa.length, sa⟩, vectorUpdateByIterator b ⟨sb.length, sb⟩,
      ?_, hvalues, ?_, ?_⟩
    . unfold setOp
      dsimp only
      rw [hout, Option.bind_eq_bind, Option.bind_some, hc, Option.bind_eq_bind, Option.bind_some]
      rfl
    . exact (elements_update hpermA).symm ▸ hpermA
    . exact (elements_update hpermB).symm ▸ hpermB

section

variable [LinearOrder V]

open Classical in
theorem accept_missing (hcmp : Compares cmp val)
    (hfuel : array.length < fuel) (e : VectorEle) :
    ((VectorIterator.search ⟨array.length, array⟩ cmp fuel e).map fun r => decide (r = -1)) =
      some (decide (¬Finds val array (val e))) := by
  obtain ⟨r, hr, hcases, hiff⟩ := search_eq hcmp hfuel e
  rw [hr, Option.map_some, ← hiff]
  congr 1
  rw [decide_eq_decide]
  omega

open Classical in
theorem accept_found (hcmp : Compares cmp val)
    (hfuel : array.length < fuel) (e : VectorEle) :
    ((VectorIterator.search ⟨array.length, array⟩ cmp fuel e).map fun r => decide (0 ≤ r)) =
      some (decide (Finds val array (val e))) := by
  obtain ⟨r, hr, -, hiff⟩ := search_eq hcmp hfuel e
  rw [hr, Option.map_some]
  congr 1
  rw [decide_eq_decide]
  exact hiff

theorem addWhere_created (hmem : mem.Granted) (hkeep : ∀ e, accept e = some (keep e))
    (hes : ∀ e ∈ es, e ≠ 0) (hcap : es.length ≤ capacity)
    (hsmall : capacity < 2 ^ 16) (P : List VectorEle → Prop) :
    (∃ c, addWhere accept mem.resize 0 es (vectorCreate capacity true true) = some (some c) ∧
      P c.elements) ↔ capacity ≠ 0 ∧ P (es.filter keep) := by
  by_cases hzero : capacity = 0
  . rw [hzero]
    refine iff_of_false ?_ fun h => h.1 rfl
    rintro ⟨c, hc, -⟩
    cases addWhere_none 0 es hc
  . obtain ⟨v, hv, hholds, hcapacity⟩ := holds_vectorCreate hzero
    have hfilter := length_filter_le keep es
    obtain ⟨c, hc, hc', -⟩ := addWhere_eq hmem.resize (fun e _ => hkeep e) hes 0 hholds
      (by rw [hcapacity, length_nil]; omega) (by omega)
    rw [nil_append] at hc'
    rw [hv, hc]
    constructor
    . rintro ⟨c', hc'', hP⟩
      cases hc''
      rw [hc'.elements] at hP
      exact ⟨hzero, hP⟩
    . rintro ⟨-, hP⟩
      exact ⟨c, rfl, hc'.elements.symm ▸ hP⟩

open Classical in
theorem values_filter_found (base compare : List VectorEle) :
    values val (base.filter fun e => decide (Finds val compare (val e))) =
        values val base ∩ values val compare ↔
      ∀ v ∈ values val base ∩ values val compare, Finds val compare v := by
  constructor
  . intro h v hv
    rw [← h] at hv
    obtain ⟨e, he, rfl⟩ := hv
    simpa using (mem_filter.mp he).2
  . intro h
    ext v
    constructor
    . rintro ⟨e, he, rfl⟩
      obtain ⟨he, hfinds⟩ := mem_filter.mp he
      exact ⟨mem_values he, exists_of_finds (by simpa using hfinds)⟩
    . rintro ⟨⟨e, he, rfl⟩, hcompare⟩
      exact ⟨e, mem_filter.mpr ⟨he, by simpa using h _ ⟨mem_values he, hcompare⟩⟩, rfl⟩

open Classical in
theorem values_filter_missing (base compare : List VectorEle) :
    values val (base.filter fun e => decide (¬Finds val compare (val e))) =
        values val base \ values val compare ↔
      ∀ v ∈ values val base ∩ values val compare, Finds val compare v := by
  constructor
  . rintro h v ⟨⟨e, he, rfl⟩, hcompare⟩
    -- a common value that is not found would count as missing
    by_contra hmissing
    have hmem : val e ∈ values val base \ values val compare := by
      rw [← h]
      exact ⟨e, mem_filter.mpr ⟨he, by simpa using hmissing⟩, rfl⟩
    exact hmem.2 hcompare
  . intro h
    ext v
    constructor
    . rintro ⟨e, he, rfl⟩
      obtain ⟨he, hmissing⟩ := mem_filter.mp he
      rw [decide_eq_true_eq] at hmissing
      exact ⟨mem_values he, fun hcompare => hmissing (h _ ⟨mem_values he, hcompare⟩)⟩
    . rintro ⟨⟨e, he, rfl⟩, hcompare⟩
      refine ⟨e, mem_filter.mpr ⟨he, ?_⟩, rfl⟩
      rw [decide_eq_true_eq]
      exact fun hfinds => hcompare (exists_of_finds hfinds)

theorem finds_all_iff
    (hshort : short → s = byAddress es) (hlong : ¬short → s.Pairwise fun x y => val x ≤ val y) :
    (∀ v ∈ ks ∩ values val s, Finds val s v) ↔
      (short → ∀ v ∈ ks ∩ values val s, Finds val (byAddress es) v) := by
  constructor
  . intro h hs
    rw [← hshort hs]
    exact h
  . intro h v hv
    by_cases hs : short
    . have hfinds := h hs v hv
      rwa [← hshort hs] at hfinds
    . obtain ⟨e, he, rfl⟩ := hv.2
      exact finds_of_pairwise (hlong hs) he

theorem nonnull_of_perm {s : List VectorEle} (h : s.Perm a.elements) : ∀ e ∈ s, e ≠ 0 :=
  fun _ he => ne_zero_of_mem_elements (h.mem_iff.mp he)

section

variable (hcmp : Compares cmp val) (hmem : mem.Granted) (hfuel : 2 ^ 8 ≤ fuel)
  (h : Sortable a.elements b.elements)

include hcmp hmem hfuel h

theorem unionLoop_iff {sa sb : List VectorEle} (hpermA : sa.Perm a.elements)
    (hpermB : sb.Perm b.elements) :
    (∃ c, unionLoop mem fuel cmp (outParam .union a b sa sb) = some (some c) ∧
      values val c.elements = values val a.elements ∪ values val b.elements) ↔
      a.elements ≠ [] ∨ b.elements ≠ [] := by
  classical
  have hlenA := h.lenA
  have hlenB := h.lenB
  rw [← hpermA.length_eq] at hlenA
  rw [← hpermB.length_eq] at hlenB
  unfold unionLoop outParam newVectorSize
  dsimp only
  rw [take_length, take_length]
  by_cases hempty : sa.length + sb.length = 0
  . have ha : a.elements = [] := by
      rw [← length_eq_zero_iff, ← hpermA.length_eq]
      omega
    have hb : b.elements = [] := by
      rw [← length_eq_zero_iff, ← hpermB.length_eq]
      omega
    refine iff_of_false ?_ (by simp [ha, hb])
    rintro ⟨c, hc, -⟩
    rw [hempty] at hc
    obtain ⟨c1, hc1, hc⟩ := Option.bind_eq_some_iff.mp hc
    rw [addWhere_none 0 sa hc1] at hc
    cases addWhere_none _ sb hc
  . refine iff_of_true ?_ ?_
    . obtain ⟨v, hv, hholds, hcapacity⟩ := holds_vectorCreate hempty
      obtain ⟨c1, hc1, hc1', hcapacity1⟩ := addWhere_eq hmem.resize
        (fun e _ => (rfl : (fun _ => some true) e = some ((fun _ : VectorEle => true) e)))
        (nonnull_of_perm hpermA) 0 hholds
        (by
          have := length_filter_le (fun _ : VectorEle => true) sa
          rw [hcapacity, length_nil]
          omega)
        (by omega)
      rw [nil_append, filter_true] at hc1'
      obtain ⟨c2, hc2, hc2', -⟩ := addWhere_eq hmem.resize
        (fun e _ => accept_missing hcmp (show sa.length < fuel by omega) e)
        (nonnull_of_perm hpermB) sa.length hc1'
        (by
          have := length_filter_le (fun e => decide (¬Finds val sa (val e))) sb
          rw [hcapacity1, hcapacity]
          omega)
        (by omega)
      rw [hv, hc1, Option.bind_eq_bind, Option.bind_some]
      refine ⟨c2, hc2, ?_⟩
      rw [hc2'.elements, ← values_perm hpermA, ← values_perm hpermB]
      ext v
      constructor
      . rintro ⟨e, he, rfl⟩
        obtain he | he := mem_append.mp he
        . exact .inl (mem_values he)
        . exact .inr (mem_values (mem_filter.mp he).1)
      . rintro (⟨e, he, rfl⟩ | ⟨e, he, rfl⟩)
        . exact mem_values (mem_append_left _ he)
        -- a value of the second vector is missing in the result only if it was found in the first
        . by_cases hfinds : Finds val sa (val e)
          . obtain ⟨e', he', heq⟩ := exists_of_finds hfinds
            exact ⟨e', mem_append_left _ he', heq⟩
          . refine mem_values (mem_append_right _ (mem_filter.mpr ⟨he, ?_⟩))
            simpa using hfinds
    . by_contra hno
      rw [not_or, not_not, not_not] at hno
      rw [hpermA.length_eq, hpermB.length_eq, hno.1, hno.2] at hempty
      exact hempty rfl

theorem intersectionLoop_iff {sa sb : List VectorEle}
    (hs : SortedAs val a.elements b.elements sa sb) :
    (∃ c, intersectionLoop mem fuel cmp (outParam .intersection a b sa sb) = some (some c) ∧
      values val c.elements = values val a.elements ∩ values val b.elements) ↔
      (a.elements ≠ [] ∧ b.elements ≠ []) ∧ (Short a.elements b.elements →
        ∀ v ∈ values val a.elements ∩ values val b.elements,
          Finds val (byAddress (if a.elements.length ≤ b.elements.length then b.elements
            else a.elements)) v) := by
  have hlenA := h.lenA
  have hlenB := h.lenB
  rw [← hs.permA.length_eq] at hlenA
  rw [← hs.permB.length_eq] at hlenB
  have hne : (a.elements ≠ [] ∧ b.elements ≠ []) ↔ sa.length ≠ 0 ∧ sb.length ≠ 0 := by
    rw [hs.permA.length_eq, hs.permB.length_eq, ne_eq, ne_eq, ne_eq, ne_eq,
      length_eq_zero_iff, length_eq_zero_iff]
  rw [hne, ← hs.permA.length_eq, ← hs.permB.length_eq]
  unfold intersectionLoop outParam newVectorSize intersectionOf
  dsimp only
  rw [take_length, take_length]
  split
  . next hle =>
    rw [addWhere_created hmem (accept_found hcmp (show sb.length < fuel by omega))
      (nonnull_of_perm hs.permA) (by split <;> omega) (by split <;> omega)
      (fun es => values val es = values val a.elements ∩ values val b.elements),
      ← values_perm hs.permA, ← values_perm hs.permB, values_filter_found,
      ← finds_all_iff (fun hshort => (hs.short hshort).2) fun hlong => (hs.long hlong).2]
    refine and_congr_left' ?_
    split <;> omega
  -- the roles of the vectors are exchanged: the larger one is searched
  . next hgt =>
    rw [Set.inter_comm (values val a.elements), addWhere_created hmem
      (accept_found hcmp (show sa.length < fuel by omega))
      (nonnull_of_perm hs.permB) (by split <;> omega) (by split <;> omega)
      (fun es => values val es = values val b.elements ∩ values val a.elements),
      ← values_perm hs.permA, ← values_perm hs.permB, values_filter_found,
      ← finds_all_iff (fun hshort => (hs.short hshort).1) fun hlong => (hs.long hlong).1]
    refine and_congr_left' ?_
    split <;> omega

theorem differenceLoop_iff {sa sb : List VectorEle}
    (hs : SortedAs val a.elements b.elements sa sb) :
    (∃ c, differenceLoop mem fuel cmp (outParam .difference a b sa sb) = some (some c) ∧
      values val c.elements = values val a.elements \ values val b.elements) ↔
      a.elements ≠ [] ∧ (Short a.elements b.elements →
        ∀ v ∈ values val a.elements ∩ values val b.elements,
          Finds val (byAddress b.elements) v) := by
  have hlenA := h.lenA
  have hlenB := h.lenB
  rw [← hs.permA.length_eq] at hlenA
  rw [← hs.permB.length_eq] at hlenB
  have hne : a.elements ≠ [] ↔ sa.length ≠ 0 := by
    rw [hs.permA.length_eq, ne_eq, ne_eq, length_eq_zero_iff]
  unfold differenceLoop outParam newVectorSize
  dsimp only
  rw [take_length, addWhere_created hmem
    (accept_missing hcmp (show sb.length < fuel by omega)) (nonnull_of_perm hs.permA)
    (Nat.le_refl _) (by omega)
    (fun es => values val es = values val a.elements \ values val b.elements), hne,
    ← values_perm hs.permA, ← values_perm hs.permB, values_filter_missing,
    ← finds_all_iff (fun hshort => (hs.short hshort).2) fun hlong => (hs.long hlong).2]

end

end

section

variable [LinearOrder V]

theorem setOps_compute (cmp : VCmp) (val : VectorEle → V) (hcmp : Compares cmp val)
    (a b : VectorStruct) (ha : a.Wf) (hb : b.Wf) (mem : Memory) (hmem : mem.Granted) (fuel : Nat)
    (hfuel : 2 ^ 8 ≤ fuel) :
    (Computes val (· ∪ ·) a b (vectorUnion (some cmp) mem fuel a b) ↔
      Sortable a.elements b.elements ∧ (a.elements ≠ [] ∨ b.elements ≠ [])) ∧
    (Computes val (· ∩ ·) a b (vectorIntersection (some cmp) mem fuel a b) ↔
      Sortable a.elements b.elements ∧ (a.elements ≠ [] ∧ b.elements ≠ []) ∧
        (Short a.elements b.elements →
          ∀ v ∈ values val a.elements ∩ values val b.elements,
            Finds val (byAddress (if a.elements.length ≤ b.elements.length then b.elements
              else a.elements)) v)) ∧
    (Computes val (· \ ·) a b (vectorDifference (some cmp) mem fuel a b) ↔
      Sortable a.elements b.elements ∧ a.elements ≠ [] ∧
        (Short a.elements b.elements →
          ∀ v ∈ values val a.elements ∩ values val b.elements,
            Finds val (byAddress b.elements) v)) := by
  -- each of the three needs vectors that the iterators hold and the sorts can order
  have hiff : ∀ {P Q : Prop}, (P → Sortable a.elements b.elements) →
      (Sortable a.elements b.elements → (P ↔ Q)) →
      (P ↔ Sortable a.elements b.elements ∧ Q) := by
    intro P Q hsort hPQ
    constructor
    . intro hP
      exact ⟨hsort hP, (hPQ (hsort hP)).mp hP⟩
    . rintro ⟨hs, hQ⟩
      exact (hPQ hs).mpr hQ
  refine ⟨hiff (sortable_of_computes ha hb hmem) ?_, hiff (sortable_of_computes ha hb hmem) ?_,
    hiff (sortable_of_computes ha hb hmem) ?_⟩
  . intro hsort
    obtain ⟨sa, sb, hout, hs⟩ := vectorSetOpPrepare_eq hcmp ha hb hmem hfuel hsort
    exact (computes_iff hout hs.permA hs.permB).trans
      (unionLoop_iff hcmp hmem hfuel hsort hs.permA hs.permB)
  . intro hsort
    obtain ⟨sa, sb, hout, hs⟩ := vectorSetOpPrepare_eq hcmp ha hb hmem hfuel hsort
    exact (computes_iff hout hs.permA hs.permB).trans
      (intersectionLoop_iff hcmp hmem hfuel hsort hs)
  . intro hsort
    obtain ⟨sa, sb, hout, hs⟩ := vectorSetOpPrepare_eq hcmp ha hb hmem hfuel hsort
    exact (computes_iff hout hs.permA hs.permB).trans
      (differenceLoop_iff hcmp hmem hfuel hsort hs)

theorem setOps_compute_one :
    Computes id (· ∪ ·) ⟨1, 1, [1]⟩ ⟨1, 1, [2]⟩
      (vectorUnion (some (testCmp id)) ⟨true, true, true, true, true, true, fun _ => true⟩ (2 ^ 8)
        ⟨1, 1, [1]⟩ ⟨1, 1, [2]⟩) :=
  (setOps_compute (testCmp id) id (compares_testCmp id) _ _ ⟨rfl⟩ ⟨rfl⟩ _
    ⟨rfl, rfl, rfl, rfl, rfl, rfl, fun _ => rfl⟩ _ (Nat.le_refl _)).1.mpr
    ⟨⟨by decide, by decide, .inl ⟨by decide, by decide⟩⟩, .inl (by decide)⟩

theorem not_setOps_compute :
    ¬∀ (cmp : VCmp) (val : VectorEle → Nat), Compares cmp val → ∀ a b : VectorStruct, a.Wf → b.Wf →
      ∀ mem : Memory, mem.Granted → ∀ fuel, 2 ^ 8 ≤ fuel →
        Computes val (· ∩ ·) a b (vectorIntersection (some cmp) mem fuel a b) := by
  intro h
  obtain ⟨c, a', b', hresult, hvalues, -⟩ := h (testCmp fun x => 10 - x % 10) (fun x => 10 - x % 10)
    (compares_testCmp _) ⟨1, 1, [11]⟩ ⟨3, 4, [1, 2, 3, 0]⟩ ⟨rfl⟩ ⟨rfl⟩
    ⟨true, true, true, true, true, true, fun _ => true⟩ ⟨rfl, rfl, rfl, rfl, rfl, rfl, fun _ => rfl⟩
    (2 ^ 8) (Nat.le_refl _)
  have hrun : some (some c, a', b') =
      some (some ⟨0, 1, [0]⟩, ⟨1, 1, [11]⟩, ⟨3, 4, [1, 2, 3, 0]⟩) := hresult.symm.trans (by decide)
  cases hrun
  have hcommon : (9 : Nat) ∈ values (fun x => 10 - x % 10) [11] ∩
      values (fun x => 10 - x % 10) [1, 2, 3] :=
    ⟨⟨11, by decide, rfl⟩, ⟨1, by decide, rfl⟩⟩
  obtain ⟨e, he, -⟩ : (9 : Nat) ∈ values (fun x => 10 - x % 10)
      (VectorStruct.elements ⟨0, 1, [0]⟩) := by
    rw [hvalues]
    exact hcommon
  cases (show e ∈ ([] : List VectorEle) from he)

end

end VectorSet
