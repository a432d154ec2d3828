import Earphone.McsTree.Grow
import Earphone.McsTree.Shrink

namespace McsTree

open First List

namespace World

theorem Inv.sound (h : w.Inv) : Sound w where
  unique := h.unique
  groups id := by
    rw [show (∃ ob ∈ w.objs, ob.objId = id ∧ ob.objType = .group) ↔ w.Has id .group from Iff.rfl,
      ← h.groups]
    simp [gpIds, mem_map]
  tracks id := by
    rw [show (∃ ob ∈ w.objs, ob.objId = id ∧ ob.objType = .track) ↔ w.Has id .track from Iff.rfl,
      ← h.tracks]
    exact mem_tkIds.symm
  segments := h.segments
  num := h.num
  parent g hg p hp := (h.parent g hg p hp).2
  size := h.size

end World

theorem inv_start : World.start.Inv where
  unique := nodup_nil
  given := by rintro _ ⟨⟩
  gpNodup := nodup_nil
  tkNodup := nodup_nil
  groups id := iff_of_false (by rintro ⟨⟩) (by rintro ⟨_, ⟨⟩, _⟩)
  tracks id := iff_of_false (by rintro ⟨⟩) (by rintro ⟨_, ⟨⟩, _⟩)
  segments := by rintro _ ⟨⟩
  size := by rintro _ ⟨⟩
  parent := by rintro _ ⟨⟩
  num := rfl
  room := Nat.le_refl _
  max := by decide

section

variable {w w' : World} {id tk : Nat} {mem : ValueMem}

theorem find?_tk_split {ts : List TkElem} {t : TkElem}
    (h : ts.find? (·.objId == tk) = some t) :
    t.objId = tk ∧ ∃ before after, ts = before ++ t :: after ∧
      ts.eraseP (·.objId == tk) = before ++ after := by
  obtain ⟨hid, before, after, rfl, hbefore⟩ := find?_eq_some_iff_append.mp h
  refine ⟨by simpa using hid, before, after, rfl, ?_⟩
  have hcons : (t :: after).eraseP (·.objId == tk) = after := eraseP_cons_of_pos hid
  rw [eraseP_append_right _ fun x hx => by simpa using hbefore x hx, hcons]

theorem deleteTrack_core (h : w.Inv) (hgp : w.gp? id = some g)
    (htk : g.trQueue.find? (·.objId == tk) = some t) :
    (World.decNum (deleteOtsObject { w with
      gpObjQueue := modify (·.objId == id) (·.erase tk) w.gpObjQueue } tk)).Inv ∧
    ∃ before after, w.gpObjQueue = before ++ g :: after ∧
      modify (·.objId == id) (·.erase tk) w.gpObjQueue = before ++ g.erase tk :: after := by
  obtain ⟨hid, before, after, hsplit, hbefore⟩ := World.gp?_split hgp
  obtain ⟨htid, tbefore, tafter, htsplit, herase⟩ := find?_tk_split htk
  have hmod : First.modify (·.objId == id) (·.erase tk) w.gpObjQueue =
      before ++ g.erase tk :: after := by
    rw [hsplit]
    exact modify_append_cons hbefore (by rw [hid, beq_self_eq_true]) _ _
  refine ⟨?_, before, after, hsplit, hmod⟩
  have hg := (World.gp?_mem hgp).1
  have hrest : (g.erase tk).trQueue = tbefore ++ tafter := herase
  have ht : t ∈ g.trQueue := mem_of_find?_eq_some htk
  have htrack : w.Has tk .track := (h.tracks tk).mp (mem_tkIds.mpr ⟨g, hg, t, ht, htid⟩)
  have hids : (before ++ g.erase tk :: after).map (·.objId) = w.gpIds := by
    rw [World.gpIds, hsplit, map_append, map_append]
    rfl
  have htkIds : w.tkIds.Perm (tk :: (before ++ g.erase tk :: after).flatMap (·.tkIds)) := by
    rw [World.tkIds, hsplit]
    refine perm_iff_count.mpr fun a => ?_
    simp only [flatMap_append, flatMap_cons, GpElem.tkIds, hrest, htsplit,
      map_append, map_cons, count_append, count_cons, htid]
    omega
  have hsub : ((before ++ g.erase tk :: after).flatMap (·.tkIds)).Sublist w.tkIds := by
    have herased : (g.erase tk).tkIds.Sublist g.tkIds := eraseP_sublist.map _
    rw [World.tkIds, hsplit]
    simp only [flatMap_append, flatMap_cons]
    exact (List.Sublist.refl _).append (herased.append (List.Sublist.refl _))
  have hnodup := htkIds.nodup_iff.mp h.tkNodup
  -- each group is one of the old ones, with at most the tracks it had
  have hkept : ∀ x ∈ before ++ g.erase tk :: after, ∃ y ∈ w.gpObjQueue, y.objId = x.objId ∧
      y.parentGp = x.parentGp ∧ ∀ t ∈ x.trQueue, t ∈ y.trQueue := by
    intro x hx
    obtain hx | hx := mem_append.mp hx
    . exact ⟨x, hsplit ▸ mem_append_left _ hx, rfl, rfl, fun _ ht => ht⟩
    . obtain rfl | hx := mem_cons.mp hx
      . exact ⟨g, hg, rfl, rfl, fun t ht => mem_of_mem_eraseP ht⟩
      . exact ⟨x, hsplit ▸ mem_append_right _ (mem_cons_of_mem _ hx), rfl, rfl,
          fun _ ht => ht⟩
  have hsize : w.total = ((before ++ g.erase tk :: after).map (·.size)).sum + 1 := by
    have hgsize : g.size = (g.erase tk).size + 1 := by
      simp only [GpElem.size, hrest, htsplit, length_append, length_cons]
      omega
    rw [World.total, hsplit]
    simp only [map_append, map_cons, sum_append, sum_cons, hgsize]
    omega
  have hnum : u16 (w.mcsGpTkNum + 65535) = w.total - 1 := by
    rw [← h.num]
    refine decNum_eq ?_ h.lt
    rw [h.num]
    omega
  have hobjs : w.objs.eraseP (·.objId == tk) =
      w.objs.filter fun ob => !([tk].contains ob.objId) := by
    refine (@eraseP_eq_filter _ (·.objId) w.objs tk h.unique).trans ?_
    refine filter_congr fun ob _ => ?_
    rw [contains_cons, contains_nil, Bool.or_false]
    rfl
  rw [hmod]
  simp only [World.decNum, deleteOtsObject]
  constructor
  . refine @World.Core.shrink w h.toCore _ _ _ [tk] hobjs (hids ▸ List.Sublist.refl _) hsub ?_ ?_ ?_
      ?_
    . intro x hx t ht
      obtain ⟨y, hy, -, -, hty⟩ := hkept x hx
      exact ⟨y, hy, hty t ht⟩
    . intro id' hid'
      rw [mem_singleton.mp hid']
      exact .inr htrack
    . intro id' hid'
      rw [hids]
      refine iff_of_true hid' fun hin => ?_
      rw [mem_singleton.mp hin] at hid'
      cases h.hasEq ((h.groups tk).mp hid') htrack
    . intro id' hid'
      rw [mem_singleton]
      constructor
      . rintro hin rfl
        exact (nodup_cons.mp hnodup).1 hin
      . intro hne
        exact (mem_cons.mp (htkIds.mem_iff.mp hid')).resolve_left hne
  . intro x hx p hp
    obtain ⟨y, hy, hyid, hyp, -⟩ := hkept x hx
    obtain ⟨hlt, q, hq, hqid⟩ := h.parent y hy p (hyp ▸ hp)
    refine ⟨hyid ▸ hlt, ?_⟩
    have hqmem : q.objId ∈ (before ++ g.erase tk :: after).map (·.objId) := by
      rw [hids]
      exact mem_map_of_mem hq
    obtain ⟨q', hq', hq'id⟩ := mem_map.mp hqmem
    exact ⟨q', hq', hq'id.trans hqid⟩
  . dsimp only [World.total] at hsize ⊢
    rw [hnum, World.total, hsize]
    rfl
  . have hroom := h.room
    unfold World.total at hroom hsize ⊢
    dsimp only
    omega
  . exact h.max

theorem listed_of (hl : Listed w g) (hobj : ∀ ob ∈ w.objs, ob.objId = g.objId → ob ∈ w'.objs)
    (hgps : w'.gpObjQueue = gps)
    (hsame : groupEntries gps g = groupEntries w.gpObjQueue g) : Listed w' g := by
  obtain ⟨ob, hob, hid, hval⟩ := hl
  refine ⟨ob, hobj ob hob hid, hid, ?_⟩
  rw [hgps, hsame]
  exact hval

theorem groupEntries_congr
    (h : gps.map (fun x => (x.objId, x.parentGp)) = gps'.map fun x => (x.objId, x.parentGp)) :
    groupEntries gps g = groupEntries gps' g := by
  have hpair : ∀ l : List GpElem, groupEntries l g =
      ((l.map fun x => (x.objId, x.parentGp)).filter (·.2 == some g.objId)).map
        fun x => gpObj .group x.1 := by
    intro l
    rw [filter_map, map_map]
    rfl
  rw [hpair, hpair, h]

theorem deleteTrack_inv (h : w.Inv) (id tk : Nat) (mem : ValueMem) :
    ∃ w', mcsDeleteTrack w id tk mem = .ok w' ∧ w'.Inv ∧
      (mem.Enough → (∀ g ∈ w.gpObjQueue, Listed w g) → ∀ g ∈ w'.gpObjQueue, Listed w' g) := by
  unfold mcsDeleteTrack
  cases hgp : w.gp? id with
  | none => exact ⟨w, rfl, h, fun _ hl => hl⟩
  | some g =>
    dsimp only
    cases htk : g.trQueue.find? (·.objId == tk) with
    | none => exact ⟨w, rfl, h, fun _ hl => hl⟩
    | some t =>
      obtain ⟨h1, before, after, hsplit, hmod⟩ := deleteTrack_core h hgp htk
      obtain ⟨w', hrun, hw', hgps, hlisted⟩ := @mcsUpdateGpValue_inv _ id h1 mem
      refine ⟨w', hrun, hw', fun henough hall g' hg' => ?_⟩
      rw [hgps] at hg'
      refine hlisted henough g' hg' ?_
      have hid := (World.gp?_mem hgp).2
      have hgps1 : ∀ x ∈ before ++ g.erase tk :: after, x.objId = id ∨ x ∈ w.gpObjQueue := by
        intro x hx
        obtain hx | hx := mem_append.mp hx
        . exact .inr (hsplit ▸ mem_append_left _ hx)
        . obtain rfl | hx := mem_cons.mp hx
          . exact .inl hid
          . exact .inr (hsplit ▸ mem_append_right _ (mem_cons_of_mem _ hx))
      have hg'' : g' ∈ before ++ g.erase tk :: after := hmod ▸ hg'
      obtain heq | hold := hgps1 g' hg''
      . exact .inl heq
      . refine .inr (listed_of (hall g' hold) (fun ob hob hobid => ?_) hmod ?_)
        . have hmemf : ob ∈ w.objs.filter (·.objId != tk) := by
            refine mem_filter.mpr ⟨hob, ?_⟩
            have hne : ob.objId ≠ tk := by
              intro heq
              have hgroup := (h.groups g'.objId).mp (mem_map_of_mem hold)
              have htrack := (h.tracks tk).mp (mem_tkIds.mpr
                ⟨g, (World.gp?_mem hgp).1, t, mem_of_find?_eq_some htk,
                  (find?_tk_split htk).1⟩)
              rw [← hobid, heq] at hgroup
              cases h.hasEq hgroup htrack
            simpa using hne
          have hobjs := @eraseP_eq_filter _ (·.objId) w.objs tk h.unique
          simp only [World.decNum, deleteOtsObject]
          rw [hobjs]
          exact hmemf
        . apply groupEntries_congr
          rw [hsplit, map_append, map_append]
          rfl

theorem findParentId_ok (h : w.Inv) (id : Nat) : ∃ parent, findParentId w id = .ok parent ∧
    ∀ g ∈ w.gpObjQueue, g.objId = id → ∀ p ∈ g.parentGp, p = parent := by
  unfold findParentId
  cases hgp : w.gp? id with
  | none =>
    refine ⟨0, rfl, fun g hg hid => ?_⟩
    have := find?_eq_none.mp hgp g hg
    simp [hid] at this
  | some g =>
    obtain ⟨hg, hid⟩ := World.gp?_mem hgp
    have hsame : ∀ g' ∈ w.gpObjQueue, g'.objId = id → g' = g := fun g' hg' hid' =>
      h.gpEq hg' hg (hid'.trans hid.symm)
    dsimp only
    cases hpar : g.parentGp with
    | none =>
      refine ⟨id, rfl, fun g' hg' hid' p hp => ?_⟩
      rw [hsame g' hg' hid', hpar] at hp
      cases hp
    | some p =>
      obtain ⟨q, hq, hqid, hfind⟩ := World.find?_of_mem (h.parent g hg p hpar).2
      refine ⟨q.objId, ?_, fun g' hg' hid' p' hp => ?_⟩
      . simp only [World.gp?, hfind]
      . rw [hsame g' hg' hid', hpar] at hp
        rw [hqid]
        exact (Option.some.inj hp).symm

theorem deleteGp_inv (h : w.Inv) (id : Nat) (mem : ValueMem) :
    ∃ w', mcsDeleteGp w id mem = .ok w' ∧ w'.Inv ∧ w'.gpObjQueue.Sublist w.gpObjQueue ∧
      (∀ g ∈ w.gpObjQueue, g ∈ w'.gpObjQueue ↔ ¬Below w.gpObjQueue id g) ∧
      (mem.Enough → (∀ g ∈ w.gpObjQueue, Listed w g) → ∀ g ∈ w'.gpObjQueue, Listed w' g) := by
  obtain ⟨parent, hparent, hpar⟩ := findParentId_ok h id
  obtain ⟨w1, hremove, h1, hsub, hiff, hobjs⟩ := removeGps_inv h id
  have hkeep : ∀ g ∈ w1.gpObjQueue, (∀ c ∈ w.gpObjQueue, c.parentGp = some g.objId → c.objId ≠ id) →
      Listed w g → Listed w1 g := by
    intro g hg hchild hl
    refine listed_of hl (hobjs g hg) rfl ?_
    have hgw := hsub.subset hg
    have hfilter : ∀ l : List GpElem, l.Sublist w.gpObjQueue →
        (∀ c ∈ w.gpObjQueue, c.parentGp = some g.objId → c ∈ l) →
        l.filter (·.parentGp == some g.objId) =
          w.gpObjQueue.filter (·.parentGp == some g.objId) := by
      intro l hl hin
      refine (hl.filter _).eq_of_length_le ?_
      have hnodup : w.gpObjQueue.Nodup := h.gpNodup.of_map _
      refine (subperm_of_subset (hnodup.filter _) fun c hc => ?_).length_le
      obtain ⟨hc, hp⟩ := mem_filter.mp hc
      exact mem_filter.mpr ⟨hin c hc (by simpa using hp), hp⟩
    unfold groupEntries
    rw [hfilter _ hsub]
    intro c hc hp
    rw [hiff c hc]
    intro hbelow
    cases hbelow with
    | self heq => exact hchild c hc hp heq
    | child hq hqp hbelow =>
      rw [hp] at hqp
      obtain rfl := h.gpEq hq hgw (Option.some.inj hqp).symm
      exact (hiff _ hq).mp hg hbelow
  unfold mcsDeleteGp
  simp only [hparent, hremove, bind, Except.bind, pure, Except.pure]
  split
  . obtain ⟨w', hrun, hw', hgps, hlisted⟩ := @mcsUpdateGpValue_inv w1 parent h1 mem
    refine ⟨w', hrun, hw', hgps ▸ hsub, fun g hg => ?_, fun henough hall g hg => ?_⟩
    . rw [hgps]
      exact hiff g hg
    . rw [hgps] at hg
      refine hlisted henough g hg ?_
      by_cases hp : g.objId = parent
      . exact .inl hp
      . refine .inr (hkeep g hg (fun c hc hcp hcid => hp ?_) (hall g (hsub.subset hg)))
        exact hpar c hc hcid _ hcp
  . next hzero =>
    refine ⟨w1, rfl, h1, hsub, hiff, fun _ hall g hg => ?_⟩
    refine hkeep g hg (fun c hc hcp hcid => ?_) (hall g (hsub.subset hg))
    have hid := hpar c hc hcid _ hcp
    have hbase := (h.base_le ((h.groups _).mp (mem_map_of_mem (hsub.subset hg)))).1
    unfold objIdBase at hbase
    omega

end

theorem inv_step1 (h : w.Inv) (op : Op) :
    ∃ w', step1 w op = .ok w' ∧ w'.Inv ∧ StepSound w op w' := by
  cases op with
  | createRootGp elem mem =>
    exact ⟨_, rfl, createRootGp_inv h elem, by rintro _ _ ⟨⟩, by rintro _ ⟨⟩,
      by rintro _ _ (⟨_, ⟨⟩⟩ | ⟨_, _, ⟨⟩⟩)⟩
  | createSpecGp parentObjId value elem mem =>
    exact ⟨_, rfl, createSpecGp_inv h parentObjId elem, by rintro _ _ ⟨⟩, by rintro _ ⟨⟩,
      by rintro _ _ (⟨_, ⟨⟩⟩ | ⟨_, _, ⟨⟩⟩)⟩
  | createTrack gpObjId fmt segs elem mem segMem =>
    exact ⟨_, rfl, createTrack_inv h gpObjId fmt segs elem, by rintro _ _ ⟨⟩, by rintro _ ⟨⟩,
      by rintro _ _ (⟨_, ⟨⟩⟩ | ⟨_, _, ⟨⟩⟩)⟩
  | deleteTrack gpObjId tkObjId mem =>
    obtain ⟨w', hrun, hw', hlisted⟩ := deleteTrack_inv h gpObjId tkObjId mem
    refine ⟨w', hrun, hw', by rintro _ _ ⟨⟩, by rintro _ ⟨⟩, ?_⟩
    rintro mem' henough (⟨_, ⟨⟩⟩ | ⟨_, _, ⟨⟩⟩) hall
    exact hlisted henough hall
  | deleteGp id mem =>
    obtain ⟨w', hrun, hw', hsub, hiff, hlisted⟩ := deleteGp_inv h id mem
    refine ⟨w', hrun, hw', ?_, by rintro _ ⟨⟩, ?_⟩
    . rintro _ _ ⟨⟩
      exact ⟨hsub, hiff⟩
    . rintro mem' henough (⟨_, ⟨⟩⟩ | ⟨_, _, ⟨⟩⟩) hall
      exact hlisted henough hall
  | createObjsComplt mem =>
    simp only [step1, mcsCreateObjsComplt]
    split
    . next hcond =>
      refine ⟨w, rfl, h, by rintro _ _ ⟨⟩, ?_, by rintro _ _ (⟨_, ⟨⟩⟩ | ⟨_, _, ⟨⟩⟩)⟩
      rintro _ ⟨⟩ henough g hg
      obtain hzero | hfail := hcond
      . have hnum := h.num
        have hlen := length_pos_of_mem hg
        have hsize := @length_le_size w.gpObjQueue
        unfold World.total at hnum
        omega
      . rw [henough.1] at hfail
        cases hfail
    . obtain ⟨w', hrun, hw', hgps, hlisted⟩ :=
        @writeValues_inv w mem.buf w.gpObjQueue h fun _ hg => hg
      refine ⟨w', hrun, hw', by rintro _ _ ⟨⟩, ?_, by rintro _ _ (⟨_, ⟨⟩⟩ | ⟨_, _, ⟨⟩⟩)⟩
      rintro _ ⟨⟩ henough g hg
      rw [hgps] at hg
      exact hlisted henough.2 g hg (.inl hg)
  | updateGpValue id mem =>
    obtain ⟨w', hrun, hw', -, -⟩ := @mcsUpdateGpValue_inv w id h mem
    exact ⟨w', hrun, hw', by rintro _ _ ⟨⟩, by rintro _ ⟨⟩,
      by rintro _ _ (⟨_, ⟨⟩⟩ | ⟨_, _, ⟨⟩⟩)⟩

theorem runs_sound (ops : List Op) :
    ∃ w, Run.exec step (.ok .start) ops = .ok w ∧ Sound w ∧
      ∀ op, ∃ w', step1 w op = .ok w' ∧ StepSound w op w' := by
  have hinv := @Run.exec_inv _ _ step (fun _ _ => True) (fun r => ∃ w, r = .ok w ∧ w.Inv)
    (fun r op hr _ => by
      obtain ⟨w, rfl, hw⟩ := hr
      obtain ⟨w', hrun, hw', -⟩ := inv_step1 hw op
      exact ⟨w', hrun, hw'⟩) (.ok .start) ops ⟨_, rfl, inv_start⟩ (Run.along_true _ _)
  obtain ⟨w, hexec, hw⟩ := hinv
  refine ⟨w, hexec, hw.sound, fun op => ?_⟩
  obtain ⟨w', hrun, -, hstep⟩ := inv_step1 hw op
  exact ⟨w', hrun, hstep⟩

def ObjMem.full : ObjMem := { object := true, buf := true }

def ValueMem.full : ValueMem := { value := true, buf := fun _ => true }

theorem not_exact :
    (∃ w, Run.exec step (.ok .start)
      [.createRootGp true .full, .createTrack 0x100 [] none true .full .full] = .ok w ∧
        ¬∀ g ∈ w.gpObjQueue, Listed w g) ∧
    ∃ w, Run.exec step (.ok .start)
      [.createRootGp true .full, .createTrack 0x100 [] (some [1, 90, 0, 0, 0, 0]) true .full .full,
        .deleteTrack 0x100 0x101 .full] = .ok w ∧ ¬Exact w := by
  refine ⟨⟨_, rfl, fun h => ?_⟩, ⟨_, rfl, fun h => ?_⟩⟩
  . obtain ⟨ob, hob, hid, hval⟩ := h _ mem_cons_self
    obtain rfl | hob := mem_cons.mp hob
    . revert hval
      decide
    . rw [mem_singleton.mp hob] at hid
      revert hid
      decide
  . obtain ⟨g, hg, t, ht, -⟩ := h.live _ (mem_cons_of_mem _ mem_cons_self) rfl
    rw [mem_singleton.mp hg] at ht
    cases ht

end McsTree
