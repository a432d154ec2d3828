import Earphone.McsTree.Inv
import Mathlib.Data.List.Flatten

namespace McsTree

open First List

section

variable {w : World} {target : Nat} {g : GpElem}

theorem walk_ok (h : w.Inv) {fuel : Nat} (hg : g ∈ w.gpObjQueue) (hfuel : g.objId ≤ fuel) :
    ∃ found, walk w.gpObjQueue target fuel g.parentGp = .ok found ∧
      (found = true ↔ ∃ q ∈ w.gpObjQueue, g.parentGp = some q.objId ∧
        Below w.gpObjQueue target q) := by
  induction fuel generalizing g with
  | zero =>
    have hbase := (h.base_le ((h.groups g.objId).mp (mem_map_of_mem hg))).1
    unfold objIdBase at hbase
    omega
  | succ fuel ih =>
    cases hpar : g.parentGp with
    | none => exact ⟨false, by simp [walk], by simp⟩
    | some p =>
      obtain ⟨hlt, hex⟩ := h.parent g hg p hpar
      obtain ⟨q, hq, rfl, hfind⟩ := World.find?_of_mem hex
      simp only [walk, hfind]
      split
      . next heq => exact ⟨true, rfl, iff_of_true rfl ⟨q, hq, rfl, .self heq⟩⟩
      . next hne =>
        obtain ⟨found, hrun, hiff⟩ := @ih q hq (by omega)
        refine ⟨found, hrun, hiff.trans ?_⟩
        constructor
        . rintro ⟨r, hr, hrp, hbelow⟩
          exact ⟨q, hq, rfl, .child hr hrp hbelow⟩
        . rintro ⟨q', hq', hid, hbelow⟩
          obtain rfl := h.gpEq hq' hq (Option.some.inj hid).symm
          cases hbelow with
          | self heq => exact absurd heq hne
          | child hr hrp hbelow => exact ⟨_, hr, hrp, hbelow⟩

theorem doomed_ok (h : w.Inv) (target : Nat) :
    ∃ found : GpElem → Bool, (∀ g ∈ w.gpObjQueue,
      doomed w.gpObjQueue target g.objId g.parentGp = .ok (found g)) ∧
      ∀ g ∈ w.gpObjQueue, found g = true ↔ Below w.gpObjQueue target g := by
  have hone : ∀ g ∈ w.gpObjQueue, ∃ found,
      doomed w.gpObjQueue target g.objId g.parentGp = .ok found ∧
      (found = true ↔ Below w.gpObjQueue target g) := by
    intro g hg
    unfold doomed
    split
    . next heq => exact ⟨true, rfl, iff_of_true rfl (.self heq)⟩
    . next hne =>
      obtain ⟨found, hrun, hiff⟩ := @walk_ok w target g h g.objId hg (Nat.le_refl _)
      refine ⟨found, hrun, hiff.trans ?_⟩
      constructor
      . rintro ⟨q, hq, hp, hbelow⟩
        exact .child hq hp hbelow
      . intro hbelow
        cases hbelow with
        | self heq => exact absurd heq hne
        | child hq hp hbelow => exact ⟨_, hq, hp, hbelow⟩
  refine ⟨fun g => (doomed w.gpObjQueue target g.objId g.parentGp).toOption.getD false,
    fun g hg => ?_, fun g hg => ?_⟩
  . obtain ⟨found, hrun, -⟩ := hone g hg
    simp only [hrun, Except.toOption, Option.getD_some]
  . obtain ⟨found, hrun, hiff⟩ := hone g hg
    simp only [hrun, Except.toOption, Option.getD_some, hiff]

end

section

variable {w : World}

theorem decNum_eq (hpos : 0 < n) (hmax : n < 2 ^ 16) : u16 (n + 65535) = n - 1 := by
  unfold u16
  omega

theorem filter_not_mem {objs : List Object} {id : Nat} {ids : List Nat} :
    (objs.filter (·.objId != id)).filter (fun ob => !ids.contains ob.objId) =
      objs.filter fun ob => !(id :: ids).contains ob.objId := by
  rw [filter_filter]
  congr 1
  funext ob
  rw [Bool.and_comm, contains_cons, Bool.not_or]
  rfl

theorem filter_not_append {objs : List Object} {ids ids' : List Nat} :
    (objs.filter fun ob => !ids.contains ob.objId).filter (fun ob => !ids'.contains ob.objId) =
      objs.filter fun ob => !(ids ++ ids').contains ob.objId := by
  rw [filter_filter]
  congr 1
  funext ob
  simp only [contains_eq_mem, mem_append, Bool.decide_or, Bool.not_or]
  rw [Bool.and_comm]

theorem delete_decNum {id : Nat} (h : (w.objs.map (·.objId)).Nodup) (hpos : 0 < w.mcsGpTkNum)
    (hmax : w.mcsGpTkNum < 2 ^ 16) :
    (deleteOtsObject w id).decNum =
      { w with objs := w.objs.filter (·.objId != id), mcsGpTkNum := w.mcsGpTkNum - 1 } := by
  simp only [deleteOtsObject, World.decNum, eraseP_eq_filter h, decNum_eq hpos hmax]

theorem popTracks_eq {ts : List TkElem} (h : (w.objs.map (·.objId)).Nodup)
    (hle : ts.length ≤ w.mcsGpTkNum) (hmax : w.mcsGpTkNum < 2 ^ 16) :
    popTracks w ts = { w with
      objs := w.objs.filter fun ob => !(ts.map (·.objId)).contains ob.objId
      mcsGpTkNum := w.mcsGpTkNum - ts.length } := by
  induction ts generalizing w with
  | nil => simp [popTracks]
  | cons t ts ih =>
    rw [length_cons] at hle
    rw [popTracks, delete_decNum h (by omega) hmax, ih]
    . simp only [filter_not_mem, map_cons, length_cons, Nat.sub_sub, Nat.add_comm 1]
    . exact h.sublist (filter_sublist.map _)
    . dsimp only
      omega
    . dsimp only
      omega

theorem popGps_eq (h : (w.objs.map (·.objId)).Nodup)
    (hle : gs.length ≤ w.mcsGpTkNum) (hmax : w.mcsGpTkNum < 2 ^ 16) :
    popGps w gs = { w with
      objs := w.objs.filter fun ob => !(gs.map (·.objId)).contains ob.objId
      mcsGpTkNum := w.mcsGpTkNum - gs.length } := by
  induction gs generalizing w with
  | nil => simp [popGps]
  | cons g gs ih =>
    rw [length_cons] at hle
    rw [popGps, delete_decNum h (by omega) hmax, ih]
    . simp only [filter_not_mem, map_cons, length_cons, Nat.sub_sub, Nat.add_comm 1]
    . exact h.sublist (filter_sublist.map _)
    . dsimp only
      omega
    . dsimp only
      omega

end

section

variable {gps gs : List GpElem} {target : Nat} {found : GpElem → Bool} {w : World}

def GpElem.cleared (g : GpElem) : GpElem := { g with trQueue := [] }

theorem clearTracks_eq (h : (w.objs.map (·.objId)).Nodup) (hmax : w.mcsGpTkNum < 2 ^ 16)
    (hfound : ∀ g ∈ gs, doomed gps target g.objId g.parentGp = .ok (found g))
    (hle : ((gs.filter found).map (·.trQueue.length)).sum ≤ w.mcsGpTkNum) :
    clearTracks gps target gs w =
      .ok (gs.map fun g => if found g then g.cleared else g,
        { w with
          objs := w.objs.filter fun ob => !((gs.filter found).flatMap (·.tkIds)).contains ob.objId
          mcsGpTkNum := w.mcsGpTkNum - ((gs.filter found).map (·.trQueue.length)).sum }) := by
  induction gs generalizing w with
  | nil => simp [clearTracks]
  | cons g gs ih =>
    have hg := hfound g mem_cons_self
    have hrest : ∀ g ∈ gs, doomed gps target g.objId g.parentGp = .ok (found g) :=
      fun g' hg' => hfound g' (mem_cons_of_mem _ hg')
    simp only [clearTracks, hg, bind, Except.bind, pure, Except.pure]
    cases hf : found g with
    | false =>
      rw [filter_cons_of_neg (by simp [hf])] at hle ⊢
      simp only [Bool.false_eq_true, if_false]
      rw [ih h hmax hrest hle]
      simp [hf]
    | true =>
      rw [filter_cons_of_pos hf] at hle ⊢
      simp only [map_cons, sum_cons] at hle
      have hpop := @popTracks_eq w g.trQueue h (by omega) hmax
      simp only [if_true, hpop]
      rw [ih]
      . simp only [map_cons, hf, if_true, flatMap_cons, sum_cons, Nat.sub_sub]
        rw [show g.tkIds = g.trQueue.map (·.objId) from rfl, ← filter_not_append]
        rfl
      . exact h.sublist (filter_sublist.map _)
      . dsimp only
        omega
      . exact hrest
      . dsimp only
        omega

theorem splitGps_eq {f : GpElem → GpElem}
    (hf : ∀ g ∈ gs, (f g).objId = g.objId ∧ (f g).parentGp = g.parentGp)
    (hfound : ∀ g ∈ gs, doomed gps target g.objId g.parentGp = .ok (found g)) :
    splitGps gps target (gs.map f) =
      .ok ((gs.filter (!found ·)).map f, (gs.filter found).map f) := by
  induction gs with
  | nil => rfl
  | cons g gs ih =>
    obtain ⟨hid, hpar⟩ := hf g mem_cons_self
    have hg := hfound g mem_cons_self
    rw [← hid, ← hpar] at hg
    have hrest := ih (fun g' hg' => hf g' (mem_cons_of_mem _ hg'))
      fun g' hg' => hfound g' (mem_cons_of_mem _ hg')
    simp only [map_cons, splitGps, hg, hrest, bind, Except.bind, pure, Except.pure]
    cases hfg : found g with
    | false =>
      rw [filter_cons_of_pos (by simp [hfg]), filter_cons_of_neg (by simp [hfg])]
      rfl
    | true =>
      rw [filter_cons_of_neg (by simp [hfg]), filter_cons_of_pos hfg]
      rfl

end

section

variable {w : World} {target : Nat}

def World.gone (w : World) (found : GpElem → Bool) : List Nat :=
  (w.gpObjQueue.filter found).flatMap (·.tkIds) ++ (w.gpObjQueue.filter found).map (·.objId)

theorem World.Inv.lt (h : w.Inv) : w.mcsGpTkNum < 2 ^ 16 := by
  have hroom := h.room
  have hmax := h.max
  rw [h.num]
  unfold objIdMax at hmax
  omega

theorem removeGps_eq (h : w.Inv) {found : GpElem → Bool}
    (hfound : ∀ g ∈ w.gpObjQueue, doomed w.gpObjQueue target g.objId g.parentGp = .ok (found g)) :
    removeGps w target = .ok { w with
      objs := w.objs.filter fun ob => !(w.gone found).contains ob.objId
      gpObjQueue := w.gpObjQueue.filter (!found ·)
      mcsGpTkNum := ((w.gpObjQueue.filter (!found ·)).map (·.size)).sum } := by
  have hsum := sum_filter (·.size) found w.gpObjQueue
  have htotal : w.mcsGpTkNum = (w.gpObjQueue.map (·.size)).sum := h.num
  have hsizes : ∀ l : List GpElem,
      (l.map (·.size)).sum = l.length + (l.map (·.trQueue.length)).sum := by
    intro l
    induction l with
    | nil => rfl
    | cons g l ih =>
      have hsize : g.size = 1 + g.trQueue.length := rfl
      simp only [map_cons, sum_cons, length_cons]
      omega
  have hdoomed := hsizes (w.gpObjQueue.filter found)
  have hclear := @clearTracks_eq w.gpObjQueue w.gpObjQueue target found w h.unique h.lt hfound
    (by omega)
  have hsplit := @splitGps_eq w.gpObjQueue w.gpObjQueue target found
    (fun g => if found g then g.cleared else g)
    (fun g _ => by split <;> exact ⟨rfl, rfl⟩) hfound
  have hkeep : (w.gpObjQueue.filter (!found ·)).map (fun g => if found g then g.cleared else g) =
      w.gpObjQueue.filter (!found ·) := by
    refine (map_congr_left fun g hg => ?_).trans (map_id _)
    have hf := (mem_filter.mp hg).2
    rw [if_neg (by simpa using hf)]
    rfl
  have hdel : ((w.gpObjQueue.filter found).map
      (fun g => if found g then g.cleared else g)).map (·.objId) =
      (w.gpObjQueue.filter found).map (·.objId) := by
    rw [map_map]
    refine map_congr_left fun g _ => ?_
    simp only [Function.comp_apply]
    split <;> rfl
  unfold removeGps
  simp only [hclear, hsplit, bind, Except.bind, pure, Except.pure]
  rw [popGps_eq]
  . rw [hkeep, hdel, filter_not_append, length_map]
    congr 2
    dsimp only
    omega
  . exact h.unique.sublist (filter_sublist.map _)
  . dsimp only
    rw [length_map]
    omega
  . have := h.lt
    dsimp only
    omega

theorem mem_tkIds {l : List GpElem} {id : Nat} :
    id ∈ l.flatMap (·.tkIds) ↔ ∃ g ∈ l, ∃ t ∈ g.trQueue, t.objId = id := by
  simp [mem_flatMap, GpElem.tkIds]

theorem World.Core.tkEq (h : w.Core) (hg : g ∈ w.gpObjQueue)
    (hg' : g' ∈ w.gpObjQueue) (ht : t ∈ g.trQueue) (ht' : t' ∈ g'.trQueue)
    (hid : t.objId = t'.objId) : g = g' :=
  eq_of_mem_flatMap h.tkNodup hg hg' (mem_map_of_mem ht) (hid ▸ mem_map_of_mem ht')

theorem removeGps_inv (h : w.Inv) (target : Nat) :
    ∃ w', removeGps w target = .ok w' ∧ w'.Inv ∧ w'.gpObjQueue.Sublist w.gpObjQueue ∧
      (∀ g ∈ w.gpObjQueue, g ∈ w'.gpObjQueue ↔ ¬Below w.gpObjQueue target g) ∧
      (∀ g ∈ w'.gpObjQueue, ∀ ob ∈ w.objs, ob.objId = g.objId → ob ∈ w'.objs) := by
  obtain ⟨found, hfound, hbelow⟩ := doomed_ok h target
  have hmem : ∀ g, g ∈ w.gpObjQueue.filter (!found ·) ↔ g ∈ w.gpObjQueue ∧ found g = false := by
    intro g
    rw [mem_filter]
    simp
  -- no id is that of a group and of a track, so what is gone tells groups and tracks apart
  have hgoneGp : ∀ g ∈ w.gpObjQueue, g.objId ∈ w.gone found ↔ found g = true := by
    intro g hg
    unfold World.gone
    rw [mem_append, mem_tkIds]
    constructor
    . rintro (⟨g', hg', t, ht, hid⟩ | hid)
      . have htrack : w.Has g.objId .track :=
          (h.tracks _).mp (mem_tkIds.mpr ⟨g', mem_of_mem_filter hg', t, ht, hid⟩)
        cases h.hasEq ((h.groups _).mp (mem_map_of_mem hg)) htrack
      . obtain ⟨g', hg', hid⟩ := mem_map.mp hid
        obtain rfl := h.gpEq (mem_of_mem_filter hg') hg hid
        exact (mem_filter.mp hg').2
    . intro hf
      exact .inr (mem_map_of_mem (mem_filter.mpr ⟨hg, hf⟩))
  have hgoneTk : ∀ g ∈ w.gpObjQueue, ∀ t ∈ g.trQueue, t.objId ∈ w.gone found ↔ found g = true := by
    intro g hg t ht
    unfold World.gone
    rw [mem_append, mem_tkIds]
    constructor
    . rintro (⟨g', hg', t', ht', hid⟩ | hid)
      . obtain rfl := h.tkEq (mem_of_mem_filter hg') hg ht' ht hid
        exact (mem_filter.mp hg').2
      . obtain ⟨g', hg', hid⟩ := mem_map.mp hid
        have hgroup : w.Has t.objId .group :=
          (h.groups _).mp (hid ▸ mem_map_of_mem (mem_of_mem_filter hg'))
        cases h.hasEq hgroup ((h.tracks _).mp (mem_tkIds.mpr ⟨g, hg, t, ht, rfl⟩))
    . intro hf
      exact .inl ⟨g, mem_filter.mpr ⟨hg, hf⟩, t, ht, rfl⟩
  refine ⟨_, removeGps_eq h hfound, ?_, filter_sublist, fun g hg => ?_, ?_⟩
  . constructor
    . refine @World.Core.shrink w h.toCore _ _ _ (w.gone found) rfl
        (filter_sublist.map _) ?_ ?_ ?_ ?_ ?_
      . exact filter_sublist.flatMap _
      . exact fun g hg t ht => ⟨g, mem_of_mem_filter hg, ht⟩
      . intro id hid
        obtain hid | hid := mem_append.mp hid
        . obtain ⟨g, hg, t, ht, rfl⟩ := mem_tkIds.mp hid
          exact .inr ((h.tracks _).mp (mem_tkIds.mpr ⟨g, mem_of_mem_filter hg, t, ht, rfl⟩))
        . obtain ⟨g, hg, rfl⟩ := mem_map.mp hid
          exact .inl ((h.groups _).mp (mem_map_of_mem (mem_of_mem_filter hg)))
      . intro id hid
        obtain ⟨g, hg, rfl⟩ := mem_map.mp hid
        rw [hgoneGp g hg]
        constructor
        . intro hin
          obtain ⟨g', hg', hid'⟩ := mem_map.mp hin
          obtain ⟨hg', hf⟩ := (hmem g').mp hg'
          obtain rfl := h.gpEq hg' hg hid'
          simp [hf]
        . intro hf
          exact mem_map_of_mem ((hmem g).mpr ⟨hg, by simpa using hf⟩)
      . intro id hid
        obtain ⟨g, hg, t, ht, rfl⟩ := mem_tkIds.mp hid
        rw [hgoneTk g hg t ht]
        constructor
        . intro hin
          obtain ⟨g', hg', t', ht', hid'⟩ := mem_tkIds.mp hin
          obtain ⟨hg', hf⟩ := (hmem g').mp hg'
          obtain rfl := h.tkEq hg' hg ht' ht hid'
          simp [hf]
        . intro hf
          exact mem_tkIds.mpr ⟨g, (hmem g).mpr ⟨hg, by simpa using hf⟩, t, ht, rfl⟩
    . intro g hg p hp
      obtain ⟨hg, hf⟩ := (hmem g).mp hg
      obtain ⟨hlt, q, hq, rfl⟩ := h.parent g hg p hp
      refine ⟨hlt, q, (hmem q).mpr ⟨hq, ?_⟩, rfl⟩
      -- a parent that is gone has all its children gone with it
      by_contra hfq
      have hbq := (hbelow q hq).mp (by simpa using hfq)
      rw [(hbelow g hg).mpr (.child hq hp hbq)] at hf
      cases hf
    . rfl
    . have hsum := sum_filter (·.size) found w.gpObjQueue
      have hroom := h.room
      unfold World.total at hroom ⊢
      dsimp only
      omega
    . exact h.max
  . dsimp only
    rw [hmem, ← hbelow g hg]
    constructor
    . rintro ⟨-, hf⟩
      simp [hf]
    . intro hf
      exact ⟨hg, by simpa using hf⟩
  . intro g hg ob hob hid
    obtain ⟨hg, hf⟩ := (hmem g).mp hg
    refine mem_filter.mpr ⟨hob, ?_⟩
    have hnot : g.objId ∉ w.gone found := by
      rw [hgoneGp g hg, hf]
      exact Bool.false_ne_true
    rw [hid]
    simpa using hnot

end

end McsTree
