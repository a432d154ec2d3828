import Earphone.McsTree.Inv
import Mathlib.Data.List.Perm.Basic

namespace McsTree

open First List

namespace World

variable {w : World} {id : Nat} {g : GpElem}

def idsOf (objType : ObjType) (news : List Object) : List Nat :=
  (news.filter (·.objType == objType)).map (·.objId)

theorem mem_idsOf :
    id ∈ idsOf objType news ↔ ∃ ob ∈ news, ob.objId = id ∧ ob.objType = objType := by
  unfold idsOf
  simp only [mem_map, mem_filter, beq_iff_eq]
  constructor
  . rintro ⟨ob, ⟨hob, htype⟩, rfl⟩
    exact ⟨ob, hob, rfl, htype⟩
  . rintro ⟨ob, hob, rfl, htype⟩
    exact ⟨ob, ⟨hob, htype⟩, rfl⟩

theorem Core.grow (h : w.Core) {news : List Object} {gps : List GpElem} {nextId num : Nat}
    (hnodup : (news.map (·.objId)).Nodup) (hle : w.nextId ≤ nextId)
    (hnews : ∀ ob ∈ news, objIdBase + w.nextId ≤ ob.objId ∧ ob.objId < objIdBase + nextId ∧
      ob.objSize0 = ob.objSize1 ∧ ob.allocBuf.length = ob.objSize1)
    (hgp : (gps.map (·.objId)).Perm (w.gpIds ++ idsOf .group news))
    (htk : (gps.flatMap (·.tkIds)).Perm (w.tkIds ++ idsOf .track news))
    (hseg : ∀ g ∈ gps, ∀ t ∈ g.trQueue, t.segObjId ≠ 0 →
      w.Has t.segObjId .segments ∨ t.segObjId ∈ idsOf .segments news) :
    ({ nextId, objs := w.objs ++ news, gpObjQueue := gps, mcsGpTkNum := num } : World).Core := by
  have hfresh : ∀ id ∈ news.map (·.objId), ∀ objType, ¬w.Has id objType := by
    intro id hid objType hhas
    obtain ⟨ob, hob, rfl⟩ := mem_map.mp hid
    have hlt := (h.base_le hhas).2
    have hge := (hnews ob hob).1
    omega
  have hsub : ∀ objType, (idsOf objType news).Sublist (news.map (·.objId)) := fun _ =>
    filter_sublist.map _
  have hhas : ∀ id objType,
      ({ nextId, objs := w.objs ++ news, gpObjQueue := gps, mcsGpTkNum := num } : World).Has id
        objType ↔ w.Has id objType ∨ id ∈ idsOf objType news := by
    intro id objType
    rw [mem_idsOf]
    constructor
    . rintro ⟨ob, hob, hid⟩
      obtain hob | hob := mem_append.mp hob
      . exact .inl ⟨ob, hob, hid⟩
      . exact .inr ⟨ob, hob, hid⟩
    . rintro (⟨ob, hob, hid⟩ | ⟨ob, hob, hid⟩)
      . exact ⟨ob, mem_append_left _ hob, hid⟩
      . exact ⟨ob, mem_append_right _ hob, hid⟩
  have hadd : ∀ {old : List Nat} {objType : ObjType}, old.Nodup →
      (∀ id, id ∈ old ↔ w.Has id objType) → (old ++ idsOf objType news).Nodup := by
    intro old objType hold hiff
    refine nodup_append.mpr ⟨hold, hnodup.sublist (hsub _), fun a ha b hb heq => ?_⟩
    rw [heq] at ha
    exact hfresh b ((hsub _).subset hb) _ ((hiff b).mp ha)
  constructor
  . dsimp only
    rw [map_append]
    refine nodup_append.mpr ⟨h.unique, hnodup, fun a ha b hb heq => ?_⟩
    obtain ⟨ob, hob, rfl⟩ := mem_map.mp ha
    rw [← heq] at hb
    exact hfresh _ hb ob.objType ⟨ob, hob, rfl, rfl⟩
  . intro ob hob
    obtain hob | hob := mem_append.mp hob
    . have hgiven := h.given ob hob
      dsimp only
      omega
    . have hnew := hnews ob hob
      dsimp only
      omega
  . exact hgp.nodup_iff.mpr (hadd h.gpNodup h.groups)
  . exact htk.nodup_iff.mpr (hadd h.tkNodup h.tracks)
  . intro id
    rw [hhas, ← h.groups, ← mem_append]
    exact hgp.mem_iff
  . intro id
    rw [hhas, ← h.tracks, ← mem_append]
    exact htk.mem_iff
  . exact fun g hg t ht hne => (hhas _ _).mpr (hseg g hg t ht hne)
  . intro ob hob
    obtain hob | hob := mem_append.mp hob
    . exact h.size ob hob
    . exact (hnews ob hob).2.2

end World

section

variable {w w' : World} {id : Nat} {value : List UInt8} {objType : ObjType} {mem segMem : ObjMem}

def Object.make (objId : Nat) (objType : ObjType) (value : List UInt8) : Object where
  objId := objId
  objType := objType
  allocBuf := value
  objSize0 := value.length
  objSize1 := value.length

theorem createOtsObject_some (h : createOtsObject w objType value mem = some (w', id)) :
    id = objIdBase + w.nextId ∧ w.nextId < objIdMax ∧
      w' = { w with
        nextId := w.nextId + 1
        objs := w.objs ++ [Object.make (objIdBase + w.nextId) objType value] } := by
  unfold createOtsObject at h
  split at h
  . next hcond =>
    cases h
    exact ⟨rfl, hcond.2.1, rfl⟩
  . cases h

theorem incNum_eq (h : w.Inv) (hmax : w.nextId < objIdMax) :
    u16 (w.mcsGpTkNum + 1) = w.total + 1 := by
  have hroom := h.room
  rw [h.num]
  unfold u16
  unfold objIdMax at hmax
  omega

theorem addGp_inv (h : w.Inv) {parentGp : Option Nat}
    (hparent : ∀ p ∈ parentGp, ∃ q ∈ w.gpObjQueue, q.objId = p) :
    (addGp w parentGp value mem).1.Inv := by
  unfold addGp
  cases hcreate : createOtsObject w .group value mem with
  | none => exact h
  | some r =>
    obtain ⟨w1, id⟩ := r
    obtain ⟨rfl, hmax, rfl⟩ := createOtsObject_some hcreate
    have hnum := incNum_eq h hmax
    constructor
    . refine h.toCore.grow (nodup_singleton _) (Nat.le_succ _) ?_ ?_ ?_ ?_
      . intro ob hob
        rw [mem_singleton.mp hob]
        exact ⟨Nat.le_refl _, Nat.lt_succ_self _, rfl, rfl⟩
      . rw [map_append]
        exact List.Perm.refl _
      . rw [flatMap_append]
        exact List.Perm.refl _
      . intro g hg t ht hne
        obtain hg | hg := mem_append.mp hg
        . exact .inl (h.segments g hg t ht hne)
        . rw [mem_singleton.mp hg] at ht
          cases ht
    . intro g hg p hp
      obtain hg | hg := mem_append.mp hg
      . obtain ⟨hlt, q, hq, hid⟩ := h.parent g hg p hp
        exact ⟨hlt, q, mem_append_left _ hq, hid⟩
      . rw [mem_singleton.mp hg] at hp ⊢
        obtain ⟨q, hq, rfl⟩ := hparent p hp
        refine ⟨?_, q, mem_append_left _ hq, rfl⟩
        exact (h.base_le ((h.groups q.objId).mp (mem_map_of_mem hq))).2
    . dsimp only [World.incNum]
      rw [hnum, World.total, World.total, map_append, sum_append]
      rfl
    . dsimp only [World.incNum]
      have hroom := h.room
      unfold World.total at hroom ⊢
      dsimp only
      rw [map_append, sum_append]
      exact Nat.succ_le_succ hroom
    . dsimp only [World.incNum]
      omega

theorem createRootGp_inv (h : w.Inv) (elem : Bool) : (mcsCreateRootGp w elem mem).1.Inv := by
  unfold mcsCreateRootGp
  split
  . exact addGp_inv h (by rintro _ ⟨⟩)
  . exact h

theorem createSpecGp_inv (h : w.Inv) (parent : Nat) (elem : Bool) :
    (mcsCreateSpecGp w parent value elem mem).1.Inv := by
  unfold mcsCreateSpecGp
  split
  . exact h
  . next g hgp =>
    split
    . refine addGp_inv h ?_
      rintro _ ⟨⟩
      exact ⟨g, (World.gp?_mem hgp).1, rfl⟩
    . exact h

theorem createSegments_eq
    (h : createSegments w segs segMem = (w', seg)) (hle : w.nextId ≤ objIdMax) :
    ∃ news nextId, w' = { w with nextId, objs := w.objs ++ news } ∧
      w.nextId ≤ nextId ∧ nextId ≤ objIdMax ∧
      (news = [] ∧ seg = 0 ∨ ∃ value, nextId = w.nextId + 1 ∧ seg = objIdBase + w.nextId ∧
        news = [Object.make seg .segments value]) := by
  have hnone : (w, 0) = (w', seg) → ∃ news nextId, w' = { w with nextId, objs := w.objs ++ news } ∧
      w.nextId ≤ nextId ∧ nextId ≤ objIdMax ∧
      (news = [] ∧ seg = 0 ∨ ∃ value, nextId = w.nextId + 1 ∧ seg = objIdBase + w.nextId ∧
        news = [Object.make seg .segments value]) := by
    rintro ⟨⟩
    exact ⟨[], w.nextId, by rw [append_nil], Nat.le_refl _, hle, .inl ⟨rfl, rfl⟩⟩
  unfold createSegments at h
  split at h
  . exact hnone h
  . next value =>
    cases hcreate : createOtsObject w .segments value segMem with
    | none =>
      rw [hcreate] at h
      exact hnone h
    | some r =>
      rw [hcreate, Option.getD_some] at h
      subst h
      obtain ⟨hid, hmax, hw'⟩ := createOtsObject_some hcreate
      refine ⟨_, w.nextId + 1, hw', Nat.le_succ _, hmax, .inr ⟨value, rfl, hid, ?_⟩⟩
      rw [hid]

theorem createTrack_inv (h : w.Inv) (gpObjId : Nat) (fmt : List UInt8) (segs : Option (List UInt8))
    (elem : Bool) : (mcsCreateTrack w gpObjId fmt segs elem mem segMem).1.Inv := by
  unfold mcsCreateTrack
  cases hgp : w.gp? gpObjId with
  | none => exact h
  | some g =>
    dsimp only
    split
    . cases hcreate : createOtsObject w .track fmt mem with
      | none => exact h
      | some r =>
        obtain ⟨w1, id⟩ := r
        obtain ⟨rfl, hmax, rfl⟩ := createOtsObject_some hcreate
        dsimp only
        generalize hsegs : createSegments _ segs segMem = r
        obtain ⟨w2, seg⟩ := r
        obtain ⟨news, nextId, rfl, hle, hnext, hnews⟩ := createSegments_eq hsegs hmax
        have hnum := incNum_eq h hmax
        obtain ⟨hid, before, after, hsplit, hbefore⟩ := World.gp?_split hgp
        -- the track is put at the end of the queue of the group found
        have hmod : First.modify (·.objId == gpObjId)
            (·.push ⟨gpObjId, objIdBase + w.nextId, seg⟩) w.gpObjQueue =
            before ++ g.push ⟨gpObjId, objIdBase + w.nextId, seg⟩ :: after := by
          rw [hsplit]
          exact modify_append_cons hbefore (by rw [hid, beq_self_eq_true]) _ _
        have hold : ∀ x ∈ before ++ g :: after, x ∈ w.gpObjQueue := fun x hx => hsplit ▸ hx
        have hmem : ∀ x ∈ before ++ g.push ⟨gpObjId, objIdBase + w.nextId, seg⟩ :: after,
            x = g.push ⟨gpObjId, objIdBase + w.nextId, seg⟩ ∨ x ∈ w.gpObjQueue := by
          intro x hx
          obtain hx | hx := mem_append.mp hx
          . exact .inr (hold x (mem_append_left _ hx))
          . obtain rfl | hx := mem_cons.mp hx
            . exact .inl rfl
            . exact .inr (hold x (mem_append_right _ (mem_cons_of_mem _ hx)))
        have hids : (before ++ g.push ⟨gpObjId, objIdBase + w.nextId, seg⟩ :: after).map (·.objId) =
            w.gpObjQueue.map (·.objId) := by
          rw [hsplit, map_append, map_append]
          rfl
        have hsize : ((before ++ g.push ⟨gpObjId, objIdBase + w.nextId, seg⟩ :: after).map
            (·.size)).sum = w.total + 1 := by
          have hg : (g.push ⟨gpObjId, objIdBase + w.nextId, seg⟩).size = g.size + 1 := by
            simp [GpElem.push, GpElem.size, Nat.add_assoc]
          rw [World.total, hsplit]
          simp only [map_append, map_cons, sum_append, sum_cons, hg]
          omega
        dsimp only [World.incNum]
        rw [hmod]
        have hnewIds : ∀ objType, World.idsOf objType
            (Object.make (objIdBase + w.nextId) .track fmt :: news) =
            (if objType = .track then [objIdBase + w.nextId] else []) ++
              World.idsOf objType news := by
          intro objType
          cases objType <;> rfl
        have hnewsType : World.idsOf .group news = [] ∧ World.idsOf .track news = [] ∧
            (seg ≠ 0 → seg ∈ World.idsOf .segments news) := by
          obtain ⟨rfl, rfl⟩ | ⟨value, -, -, rfl⟩ := hnews
          . exact ⟨rfl, rfl, fun hne => absurd rfl hne⟩
          . exact ⟨rfl, rfl, fun _ => mem_singleton_self _⟩
        constructor
        . rw [append_assoc, singleton_append]
          refine h.toCore.grow ?_ ?_ ?_ ?_ ?_ ?_
          . obtain ⟨rfl, rfl⟩ | ⟨value, -, rfl, rfl⟩ := hnews
            . exact nodup_singleton _
            . simp [Object.make]
          . exact Nat.le_of_succ_le hle
          . intro ob hob
            obtain rfl | hob := mem_cons.mp hob
            . exact ⟨Nat.le_refl _, Nat.add_lt_add_left hle _, rfl, rfl⟩
            . obtain ⟨rfl, -⟩ | ⟨value, rfl, rfl, rfl⟩ := hnews
              . cases hob
              . rw [mem_singleton.mp hob]
                refine ⟨?_, ?_, rfl, rfl⟩
                . simp only [Object.make]
                  omega
                . simp only [Object.make]
                  omega
          . rw [hids, hnewIds, hnewsType.1]
            exact (append_nil _).symm ▸ List.Perm.refl _
          . rw [hnewIds, hnewsType.2.1, World.tkIds, hsplit]
            refine perm_iff_count.mpr fun a => ?_
            simp only [flatMap_append, flatMap_cons, GpElem.tkIds, GpElem.push,
              map_append, map_cons, map_nil, count_append, if_true,
              append_nil]
            omega
          . intro x hx t ht hne
            rw [hnewIds]
            obtain rfl | hx := hmem x hx
            . obtain ht | ht := mem_append.mp ht
              . exact .inl (h.segments g (World.gp?_mem hgp).1 t ht hne)
              . rw [mem_singleton.mp ht] at hne ⊢
                exact .inr (hnewsType.2.2 hne)
            . exact .inl (h.segments x hx t ht hne)
        . intro x hx p hp
          -- a push changes no id and no parent
          have hpar : ∃ y ∈ w.gpObjQueue, y.objId = x.objId ∧ y.parentGp = x.parentGp := by
            obtain rfl | hx := hmem x hx
            . exact ⟨g, (World.gp?_mem hgp).1, rfl, rfl⟩
            . exact ⟨x, hx, rfl, rfl⟩
          obtain ⟨y, hy, hyid, hyp⟩ := hpar
          obtain ⟨hlt, q, hq, hqid⟩ := h.parent y hy p (hyp ▸ hp)
          refine ⟨hyid ▸ hlt, ?_⟩
          have hqmem : q.objId ∈
              (before ++ g.push ⟨gpObjId, objIdBase + w.nextId, seg⟩ :: after).map (·.objId) := by
            rw [hids]
            exact mem_map_of_mem hq
          obtain ⟨q', hq', hq'id⟩ := mem_map.mp hqmem
          exact ⟨q', hq', hq'id.trans hqid⟩
        . dsimp only
          rw [hnum, World.total]
          exact hsize.symm
        . dsimp only [World.total]
          rw [hsize]
          have := h.room
          dsimp only at hle
          omega
        . exact hnext
    . exact h

end

end McsTree
