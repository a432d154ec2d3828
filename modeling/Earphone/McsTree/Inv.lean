import Earphone.McsTree.Basic
import Mathlib.Data.List.Nodup

namespace McsTree

open First List

def World.gpIds (w : World) : List Nat := w.gpObjQueue.map (·.objId)

def GpElem.tkIds (g : GpElem) : List Nat := g.trQueue.map (·.objId)

def World.tkIds (w : World) : List Nat := w.gpObjQueue.flatMap (·.tkIds)

def World.total (w : World) : Nat := (w.gpObjQueue.map (·.size)).sum

def World.Has (w : World) (id : Nat) (objType : ObjType) : Prop :=
  ∃ ob ∈ w.objs, ob.objId = id ∧ ob.objType = objType

structure World.Core (w : World) : Prop where
  unique : (w.objs.map (·.objId)).Nodup
  given : ∀ ob ∈ w.objs, objIdBase ≤ ob.objId ∧ ob.objId < objIdBase + w.nextId
  gpNodup : w.gpIds.Nodup
  tkNodup : w.tkIds.Nodup
  groups : ∀ id, id ∈ w.gpIds ↔ w.Has id .group
  tracks : ∀ id, id ∈ w.tkIds ↔ w.Has id .track
  segments : ∀ g ∈ w.gpObjQueue, ∀ t ∈ g.trQueue, t.segObjId ≠ 0 → w.Has t.segObjId .segments
  size : ∀ ob ∈ w.objs, ob.objSize0 = ob.objSize1 ∧ ob.allocBuf.length = ob.objSize1

structure World.Inv (w : World) : Prop extends w.Core where
  parent : ∀ g ∈ w.gpObjQueue, ∀ p ∈ g.parentGp, p < g.objId ∧ ∃ q ∈ w.gpObjQueue, q.objId = p
  num : w.mcsGpTkNum = w.total
  room : w.total ≤ w.nextId
  max : w.nextId ≤ objIdMax

section

variable {α : Type} {key : α → Nat} {l : List α} {k : Nat} {a b : α}

theorem eraseP_eq_filter (h : (l.map key).Nodup) :
    l.eraseP (key · == k) = l.filter (key · != k) := by
  induction l with
  | nil => rfl
  | cons a l ih =>
    obtain ⟨hnot, hl⟩ := nodup_cons.mp h
    by_cases hk : key a = k
    . rw [eraseP_cons_of_pos (by simpa using hk), filter_cons_of_neg (by simpa using hk)]
      refine (filter_eq_self.mpr fun b hb => ?_).symm
      have hne : key b ≠ k := by
        intro heq
        exact hnot (mem_map.mpr ⟨b, hb, heq.trans hk.symm⟩)
      simpa using hne
    . rw [eraseP_cons_of_neg (by simpa using hk), filter_cons_of_pos (by simpa using hk),
        ih hl]

theorem eq_of_mem_flatMap (h : (l.flatMap f).Nodup) (ha : a ∈ l) (hb : b ∈ l)
    (hka : k ∈ f a) (hkb : k ∈ f b) : a = b := by
  induction l with
  | nil => cases ha
  | cons x l ih =>
    rw [flatMap_cons] at h
    obtain ⟨-, hl, hdisj⟩ := nodup_append.mp h
    obtain rfl | ha' := mem_cons.mp ha
    . obtain rfl | hb' := mem_cons.mp hb
      . rfl
      . exact absurd rfl (hdisj k hka k (mem_flatMap.mpr ⟨b, hb', hkb⟩))
    . obtain rfl | hb' := mem_cons.mp hb
      . exact absurd rfl (hdisj k hkb k (mem_flatMap.mpr ⟨a, ha', hka⟩))
      . exact ih hl ha' hb'

theorem sum_filter (f : α → Nat) (p : α → Bool) (l : List α) :
    (l.map f).sum = ((l.filter p).map f).sum + ((l.filter fun a => !p a).map f).sum := by
  induction l with
  | nil => rfl
  | cons a l ih =>
    cases hp : p a with
    | true =>
      rw [filter_cons_of_pos hp, filter_cons_of_neg (by simp [hp])]
      simp only [map_cons, sum_cons]
      omega
    | false =>
      rw [filter_cons_of_neg (by simp [hp]), filter_cons_of_pos (by simp [hp])]
      simp only [map_cons, sum_cons]
      omega

end

namespace World

variable {w w' : World} {id : Nat} {objType : ObjType} {g : GpElem}

theorem gp?_split (h : w.gp? id = some g) :
    g.objId = id ∧ ∃ before after, w.gpObjQueue = before ++ g :: after ∧
      ∀ x ∈ before, (x.objId == id) = false := by
  obtain ⟨hid, before, after, heq, hbefore⟩ := find?_eq_some_iff_append.mp h
  exact ⟨by simpa using hid, before, after, heq, fun x hx => by simpa using hbefore x hx⟩

theorem gp?_mem (h : w.gp? id = some g) : g ∈ w.gpObjQueue ∧ g.objId = id :=
  ⟨mem_of_find?_eq_some h, by simpa using find?_some h⟩

theorem find?_of_mem {l : List GpElem} (h : ∃ q ∈ l, q.objId = id) :
    ∃ q ∈ l, q.objId = id ∧ l.find? (·.objId == id) = some q := by
  obtain ⟨q, hq, hid⟩ := h
  cases hfind : l.find? (·.objId == id) with
  | none =>
    have := find?_eq_none.mp hfind q hq
    simp [hid] at this
  | some q' =>
    exact ⟨q', mem_of_find?_eq_some hfind, by simpa using find?_some hfind, rfl⟩

theorem Core.objEq (h : w.Core) (hob : ob ∈ w.objs) (hob' : ob' ∈ w.objs)
    (hid : ob.objId = ob'.objId) : ob = ob' :=
  inj_on_of_nodup_map h.unique hob hob' hid

theorem Core.gpEq (h : w.Core) (hg : g ∈ w.gpObjQueue) (hg' : g' ∈ w.gpObjQueue)
    (hid : g.objId = g'.objId) : g = g' :=
  inj_on_of_nodup_map h.gpNodup hg hg' hid

theorem Core.hasEq (h : w.Core) (ho : w.Has id objType)
    (ho' : w.Has id objType') : objType = objType' := by
  obtain ⟨ob, hob, hid, htype⟩ := ho
  obtain ⟨ob', hob', hid', htype'⟩ := ho'
  rw [← htype, ← htype', h.objEq hob hob' (hid.trans hid'.symm)]

theorem Core.base_le (h : w.Core) (ho : w.Has id objType) :
    objIdBase ≤ id ∧ id < objIdBase + w.nextId := by
  obtain ⟨ob, hob, rfl, -⟩ := ho
  exact h.given ob hob

theorem Core.shrink (h : w.Core) {objs : List Object} {gps : List GpElem} {num : Nat}
    {removed : List Nat} (hobjs : objs = w.objs.filter fun ob => !removed.contains ob.objId)
    (hgp : (gps.map (·.objId)).Sublist w.gpIds)
    (htk : (gps.flatMap (·.tkIds)).Sublist w.tkIds)
    (hkept : ∀ g ∈ gps, ∀ t ∈ g.trQueue, ∃ g' ∈ w.gpObjQueue, t ∈ g'.trQueue)
    (hremoved : ∀ id ∈ removed, w.Has id .group ∨ w.Has id .track)
    (hgpIff : ∀ id ∈ w.gpIds, id ∈ gps.map (·.objId) ↔ id ∉ removed)
    (htkIff : ∀ id ∈ w.tkIds, id ∈ gps.flatMap (·.tkIds) ↔ id ∉ removed) :
    ({ w with objs, gpObjQueue := gps, mcsGpTkNum := num } : World).Core := by
  have hmem : ∀ ob, ob ∈ objs ↔ ob ∈ w.objs ∧ ob.objId ∉ removed := by
    intro ob
    rw [hobjs, mem_filter]
    simp
  have hhas : ∀ id objType, ({ w with objs, gpObjQueue := gps, mcsGpTkNum := num } : World).Has id
      objType ↔ w.Has id objType ∧ id ∉ removed := by
    intro id objType
    constructor
    . rintro ⟨ob, hob, rfl, htype⟩
      obtain ⟨hob, hnot⟩ := (hmem ob).mp hob
      exact ⟨⟨ob, hob, rfl, htype⟩, hnot⟩
    . rintro ⟨⟨ob, hob, rfl, htype⟩, hnot⟩
      exact ⟨ob, (hmem ob).mpr ⟨hob, hnot⟩, rfl, htype⟩
  constructor
  . dsimp only
    rw [hobjs]
    exact h.unique.sublist (filter_sublist.map _)
  . exact fun ob hob => h.given ob ((hmem ob).mp hob).1
  . exact h.gpNodup.sublist hgp
  . exact h.tkNodup.sublist htk
  . intro id
    rw [hhas, ← h.groups]
    constructor
    . intro hid
      exact ⟨hgp.subset hid, (hgpIff id (hgp.subset hid)).mp hid⟩
    . rintro ⟨hid, hnot⟩
      exact (hgpIff id hid).mpr hnot
  . intro id
    rw [hhas, ← h.tracks]
    constructor
    . intro hid
      exact ⟨htk.subset hid, (htkIff id (htk.subset hid)).mp hid⟩
    . rintro ⟨hid, hnot⟩
      exact (htkIff id hid).mpr hnot
  . intro g hg t ht hseg
    obtain ⟨g', hg', ht'⟩ := hkept g hg t ht
    have hold := h.segments g' hg' t ht' hseg
    refine (hhas _ _).mpr ⟨hold, fun hrem => ?_⟩
    obtain hgroup | htrack := hremoved _ hrem
    . cases h.hasEq hold hgroup
    . cases h.hasEq hold htrack
  . exact fun ob hob => h.size ob ((hmem ob).mp hob).1

end World

section

variable {w w' : World} {id : Nat} {value : List UInt8} {mem : Nat → Bool}

theorem updateObjValue_eq :
    ∃ f : Object → Object, (∀ ob, (f ob).objId = ob.objId ∧ (f ob).objType = ob.objType ∧
      ((ob.objSize0 = ob.objSize1 ∧ ob.allocBuf.length = ob.objSize1) →
        (f ob).objSize0 = (f ob).objSize1 ∧ (f ob).allocBuf.length = (f ob).objSize1)) ∧
      updateObjValue w id value mem = { w with objs := First.modify (·.objId == id) f w.objs } := by
  unfold updateObjValue
  split
  . exact ⟨(·.setValue value), fun ob => ⟨rfl, rfl, fun _ => ⟨rfl, rfl⟩⟩, rfl⟩
  . refine ⟨fun ob => ob, fun ob => ⟨rfl, rfl, fun h => h⟩, ?_⟩
    have hid : First.modify (·.objId == id) (fun ob : Object => ob) w.objs = w.objs := by
      cases hfind : w.objs.find? (·.objId == id) with
      | none =>
        exact modify_eq_self (fun ob hob => by simpa using find?_eq_none.mp hfind ob hob) _
      | some ob => exact modify_of_find? hfind rfl
    rw [hid]

theorem mem_modify (h : b ∈ First.modify p f l) : b ∈ l ∨ ∃ a ∈ l, p a = true ∧ b = f a := by
  induction l with
  | nil => exact .inl h
  | cons a l ih =>
    unfold First.modify at h
    split at h
    . next hp =>
      obtain rfl | h := mem_cons.mp h
      . exact .inr ⟨a, mem_cons_self, hp, rfl⟩
      . exact .inl (mem_cons_of_mem _ h)
    . obtain rfl | h := mem_cons.mp h
      . exact .inl mem_cons_self
      . obtain h | ⟨a', ha', hp, rfl⟩ := ih h
        . exact .inl (mem_cons_of_mem _ h)
        . exact .inr ⟨a', mem_cons_of_mem _ ha', hp, rfl⟩

theorem updateObjValue_inv (h : w.Inv) :
    (updateObjValue w id value mem).Inv ∧
      (updateObjValue w id value mem).gpObjQueue = w.gpObjQueue ∧
      (updateObjValue w id value mem).mcsGpTkNum = w.mcsGpTkNum := by
  obtain ⟨f, hf, heq⟩ := @updateObjValue_eq w id value mem
  rw [heq]
  have hids : (First.modify (·.objId == id) f w.objs).map (fun ob => (ob.objId, ob.objType)) =
      w.objs.map fun ob => (ob.objId, ob.objType) :=
    map_modify (fun ob => by rw [(hf ob).1, (hf ob).2.1]) _
  have hhas : ∀ id' objType,
      ({ w with objs := First.modify (·.objId == id) f w.objs } : World).Has id' objType ↔
        w.Has id' objType := by
    intro id' objType
    have hpair : ∀ l : List Object, (∃ ob ∈ l, ob.objId = id' ∧ ob.objType = objType) ↔
        (id', objType) ∈ l.map fun ob => (ob.objId, ob.objType) := by
      intro l
      simp [mem_map]
    exact (hpair _).trans (hids ▸ (hpair w.objs).symm)
  refine ⟨?_, rfl, rfl⟩
  constructor
  . constructor
    . dsimp only
      rw [map_modify fun ob => (hf ob).1]
      exact h.unique
    . intro ob hob
      obtain hob | ⟨ob', hob', -, rfl⟩ := mem_modify hob
      . exact h.given ob hob
      . rw [(hf ob').1]
        exact h.given ob' hob'
    . exact h.gpNodup
    . exact h.tkNodup
    . exact fun id' => (h.groups id').trans (hhas id' _).symm
    . exact fun id' => (h.tracks id').trans (hhas id' _).symm
    . exact fun g hg t ht hseg => (hhas _ _).mpr (h.segments g hg t ht hseg)
    . intro ob hob
      obtain hob | ⟨ob', hob', -, rfl⟩ := mem_modify hob
      . exact h.size ob hob
      . exact (hf ob').2.2 (h.size ob' hob')
  . exact h.parent
  . exact h.num
  . exact h.room
  . exact h.max

theorem length_le_size {l : List GpElem} : l.length ≤ (l.map (·.size)).sum := by
  induction l with
  | nil => exact Nat.le_refl _
  | cons x l ih =>
    have hsize : x.size = 1 + x.trQueue.length := rfl
    simp only [map_cons, sum_cons, length_cons]
    omega

theorem length_add_le_size {l : List GpElem} {g : GpElem} (hg : g ∈ l) :
    l.length + g.trQueue.length ≤ (l.map (·.size)).sum := by
  induction l with
  | nil => cases hg
  | cons x l ih =>
    have hsize : x.size = 1 + x.trQueue.length := rfl
    simp only [map_cons, sum_cons, length_cons]
    obtain rfl | hg := mem_cons.mp hg
    . have := @length_le_size l
      omega
    . have := ih hg
      omega

theorem entries_le (h : w.Inv) {g : GpElem} (hg : g ∈ w.gpObjQueue) :
    (trackEntries g).length + (groupEntries w.gpObjQueue g).length ≤ w.mcsGpTkNum := by
  have hfilter := length_filter_le (·.parentGp == some g.objId) w.gpObjQueue
  have htotal := length_add_le_size hg
  rw [h.num, World.total]
  simp only [trackEntries, groupEntries, length_map]
  omega

theorem updateObjValue_value (h : w.Inv) {g g' : GpElem} (hg : g ∈ w.gpObjQueue)
    (hmem : mem g.objId = true) {ob : Object} (hob : ob ∈ w.objs) (hid : ob.objId = g'.objId) :
    ∃ ob' ∈ (updateObjValue w g.objId value mem).objs, ob'.objId = g'.objId ∧
      (if g'.objId = g.objId then ob'.allocBuf = value else ob' = ob) := by
  have hbase : g.objId ≠ 0 := by
    have := (h.base_le ((h.groups g.objId).mp (mem_map_of_mem hg))).1
    unfold objIdBase at this
    omega
  have hcond : g.objId ≠ 0 ∧ (value = [] ∨ mem g.objId = true) := ⟨hbase, .inr hmem⟩
  simp only [updateObjValue, if_pos hcond]
  split
  . next heq =>
    refine ⟨ob.setValue value, ?_, hid, rfl⟩
    obtain ⟨before, after, hsplit⟩ := append_of_mem hob
    have hbefore : ∀ x ∈ before, (x.objId == g.objId) = false := by
      intro x hx
      have hnodup := h.unique
      rw [hsplit, map_append, map_cons] at hnodup
      have hne : x.objId ≠ ob.objId := by
        intro heq'
        have hdisj := disjoint_of_nodup_append hnodup
        exact hdisj (mem_map_of_mem hx) (by rw [heq']; exact mem_cons_self)
      rw [hid, heq] at hne
      simpa using hne
    rw [hsplit, modify_append_cons hbefore (by rw [hid, heq, beq_self_eq_true])]
    exact mem_append_right _ mem_cons_self
  . next hne =>
    refine ⟨ob, ?_, hid, rfl⟩
    have hstay : ∀ l : List Object, ob ∈ l →
        ob ∈ First.modify (·.objId == g.objId) (·.setValue value) l := by
      intro l hl
      induction l with
      | nil => exact hl
      | cons x l ih =>
        unfold First.modify
        split
        . next hx =>
          obtain rfl | hl := mem_cons.mp hl
          . rw [hid] at hx
            exact absurd (by simpa using hx) hne
          . exact mem_cons_of_mem _ hl
        . obtain rfl | hl := mem_cons.mp hl
          . exact mem_cons_self
          . exact mem_cons_of_mem _ (ih hl)
    exact hstay _ hob

theorem World.Inv.obj (h : w.Inv) (hg : g ∈ w.gpObjQueue) : ∃ ob ∈ w.objs, ob.objId = g.objId := by
  obtain ⟨ob, hob, hid, -⟩ := (h.groups g.objId).mp (mem_map_of_mem hg)
  exact ⟨ob, hob, hid⟩

theorem writeValue_inv (h : w.Inv) {g : GpElem} (hg : g ∈ w.gpObjQueue)
    {entries : List (List UInt8)}
    (hentries : entries = trackEntries g ++ groupEntries w.gpObjQueue g ∨
      entries = groupEntries w.gpObjQueue g ++ trackEntries g) :
    ∃ w', writeValue w g.objId entries mem = .ok w' ∧ w'.Inv ∧ w'.gpObjQueue = w.gpObjQueue ∧
      w'.mcsGpTkNum = w.mcsGpTkNum ∧
      ((∀ id, mem id = true) → ∀ g' ∈ w.gpObjQueue, (g' = g ∨ Listed w g') → Listed w' g') := by
  have hle : entries.length ≤ w.mcsGpTkNum := by
    have := entries_le h hg
    obtain rfl | rfl := hentries
    . rw [length_append]
      omega
    . rw [length_append]
      omega
  obtain ⟨hw', hgps, hnum⟩ := @updateObjValue_inv w g.objId entries.flatten mem h
  refine ⟨_, if_pos hle, hw', hgps, hnum, fun hmem g' hg' hlisted => ?_⟩
  by_cases heq : g'.objId = g.objId
  . obtain rfl := h.gpEq hg' hg heq
    obtain ⟨ob, hob, hid⟩ := h.obj hg
    obtain ⟨ob', hob', hid', hval⟩ := @updateObjValue_value w entries.flatten mem h g' g' hg
      (hmem _) ob hob hid
    rw [if_pos rfl] at hval
    refine ⟨ob', hob', hid', ?_⟩
    rw [hgps, hval]
    exact hentries.imp (congrArg _) (congrArg _)
  . obtain rfl | ⟨ob, hob, hid, hval⟩ := hlisted
    . exact absurd rfl heq
    . obtain ⟨ob', hob', hid', hsame⟩ := @updateObjValue_value w entries.flatten mem h g g' hg
        (hmem _) ob hob hid
      rw [if_neg heq] at hsame
      refine ⟨ob', hob', hid', ?_⟩
      rw [hgps, hsame]
      exact hval

theorem mcsUpdateGpValue_inv (h : w.Inv) (mem : ValueMem) :
    ∃ w', mcsUpdateGpValue w id mem = .ok w' ∧ w'.Inv ∧ w'.gpObjQueue = w.gpObjQueue ∧
      (mem.Enough → ∀ g ∈ w.gpObjQueue, (g.objId = id ∨ Listed w g) → Listed w' g) := by
  unfold mcsUpdateGpValue
  cases hgp : w.gp? id with
  | none =>
    refine ⟨w, rfl, h, rfl, fun _ g hg hlisted => ?_⟩
    obtain hid | hlisted := hlisted
    . have := find?_eq_none.mp hgp g hg
      simp [hid] at this
    . exact hlisted
  | some g =>
    obtain ⟨hg, rfl⟩ := World.gp?_mem hgp
    dsimp only
    split
    . next hcond =>
      refine ⟨w, rfl, h, rfl, fun henough g' hg' _ => ?_⟩
      obtain hzero | hfail := hcond
      . have hnum := h.num
        have hlen := length_pos_of_mem hg'
        have hsize := @length_le_size w.gpObjQueue
        unfold World.total at hnum
        omega
      . rw [henough.1] at hfail
        cases hfail
    . obtain ⟨w', hrun, hw', hgps, -, hlisted⟩ := @writeValue_inv w mem.buf h g hg _ (.inr rfl)
      refine ⟨w', hrun, hw', hgps, fun henough g' hg' hl => hlisted henough.2 g' hg' ?_⟩
      exact hl.imp_left fun hid => h.gpEq hg' hg hid

theorem writeValues_inv (mem : Nat → Bool) {gs : List GpElem} (h : w.Inv)
    (hgs : ∀ g ∈ gs, g ∈ w.gpObjQueue) :
    ∃ w', writeValues mem gs w = .ok w' ∧ w'.Inv ∧ w'.gpObjQueue = w.gpObjQueue ∧
      ((∀ id, mem id = true) → ∀ g ∈ w.gpObjQueue, (g ∈ gs ∨ Listed w g) → Listed w' g) := by
  induction gs generalizing w with
  | nil =>
    refine ⟨w, rfl, h, rfl, fun _ g _ hl => hl.resolve_left ?_⟩
    exact not_mem_nil
  | cons g gs ih =>
    obtain ⟨w1, hrun, h1, hgps, -, hlisted⟩ :=
      @writeValue_inv w mem h g (hgs g mem_cons_self) _ (.inl rfl)
    obtain ⟨w2, hrun2, h2, hgps2, hlisted2⟩ := ih h1 fun g' hg' => by
      rw [hgps]
      exact hgs g' (mem_cons_of_mem _ hg')
    refine ⟨w2, ?_, h2, hgps2.trans hgps, fun hmem g' hg' hl => ?_⟩
    . simp only [writeValues, hrun, bind, Except.bind]
      exact hrun2
    . refine hlisted2 hmem g' (by rw [hgps]; exact hg') ?_
      obtain hin | hold := hl
      . obtain rfl | hin := mem_cons.mp hin
        . exact .inr (hlisted hmem g' hg' (.inl rfl))
        . exact .inl hin
      . exact .inr (hlisted hmem g' hg' (.inr hold))

end

end McsTree
