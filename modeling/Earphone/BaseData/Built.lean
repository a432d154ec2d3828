import Earphone.BaseData.Generate
import Earphone.Lib.Run

namespace BaseData

open Scan
open List (append_assoc cons_append drop_drop drop_left drop_replicate find?_cons_of_neg
  find?_cons_of_pos getElem?_modify length_append length_cons length_modify length_nil
  length_singleton map_append map_singleton mem_append mem_iff_getElem? mem_map mem_of_getElem?
  mem_singleton modify_nil modify_succ_cons modify_zero_cons nil_append nodup_append rel_append
  take_left take_length)

theorem put_append (a l : List UInt8) (n : Nat) :
    put (a ++ List.replicate (l.length + n) 0) a.length l = (a ++ l) ++ List.replicate n 0 := by
  have hdrop : (a ++ List.replicate (l.length + n) (0 : UInt8)).drop (a.length + l.length) =
      List.replicate n 0 := by
    rw [← drop_drop, drop_left, drop_replicate, Nat.add_sub_cancel_left]
  have hlength : (a ++ List.replicate (l.length + n) (0 : UInt8)).length =
      (a ++ l ++ List.replicate n (0 : UInt8)).length := by
    simp
  unfold put
  rw [take_left, hdrop, hlength, take_length]

def record (codecCfg metadata : List UInt8) : List UInt8 :=
  UInt8.ofNat codecCfg.length :: codecCfg ++ UInt8.ofNat metadata.length :: metadata

theorem record_length (codecCfg metadata : List UInt8) :
    (record codecCfg metadata).length = codecCfg.length + metadata.length + 2 := by
  simp [record]
  omega

theorem codecMetadataBlock_eq
    (h : codecCfg.length + metadata.length + 2 < 2 ^ 8) :
    codecMetadataBlock codecCfg metadata = record codecCfg metadata := by
  have hfirst := put_append [] [UInt8.ofNat codecCfg.length]
    (codecCfg.length + (1 + (metadata.length + 0)))
  have hcfg := put_append [UInt8.ofNat codecCfg.length] codecCfg (1 + (metadata.length + 0))
  have hlen := put_append ([UInt8.ofNat codecCfg.length] ++ codecCfg)
    [UInt8.ofNat metadata.length] (metadata.length + 0)
  have hmetadata := put_append
    ([UInt8.ofNat codecCfg.length] ++ codecCfg ++ [UInt8.ofNat metadata.length]) metadata 0
  simp only [nil_append, length_nil, length_append, length_singleton]
    at hfirst hcfg hlen hmetadata
  unfold codecMetadataBlock
  dsimp only
  rw [Nat.mod_eq_of_lt h, Nat.mod_eq_of_lt (by omega), Nat.mod_eq_of_lt (by omega),
    show codecCfg.length + metadata.length + 2 =
      1 + (codecCfg.length + (1 + (metadata.length + 0))) by omega, hfirst, hcfg, hlen,
    show 2 + codecCfg.length = 1 + codecCfg.length + 1 by omega, hmetadata]
  simp [record]

def BaseSubgroup.queued (i : Nat) (s : BaseSubgroup) : Subgroup :=
  { subgroupIdx := i % 2 ^ 8
    codecId := s.codecId.toList
    numBis := s.bises.length % 2 ^ 8
    codecCfgLen := s.codecCfg.1.length
    codecMetadata := record s.codecCfg.1 s.metadata.1
    bisQueue := s.bises }

def queueFrom : Nat → List BaseSubgroup → List Subgroup
  | _, [] => []
  | i, s :: subgroups => s.queued i :: queueFrom (i + 1) subgroups

theorem queueFrom_length (i : Nat) (subgroups : List BaseSubgroup) :
    (queueFrom i subgroups).length = subgroups.length := by
  induction subgroups generalizing i with
  | nil => rfl
  | cons s subgroups ih => simp [queueFrom, ih]

theorem queueFrom_append (i : Nat) (subgroups : List BaseSubgroup) (s : BaseSubgroup) :
    queueFrom i (subgroups ++ [s]) =
      queueFrom i subgroups ++ [s.queued (i + subgroups.length)] := by
  induction subgroups generalizing i with
  | nil => rfl
  | cons s' subgroups ih =>
    rw [cons_append, queueFrom, ih, queueFrom, cons_append, length_cons,
      show i + 1 + subgroups.length = i + (subgroups.length + 1) by omega]

theorem find?_queueFrom (hik : i ≤ k)
    (hfew : i + subgroups.length ≤ 2 ^ 8) :
    (queueFrom i subgroups).find? (·.subgroupIdx = k) =
      subgroups[k - i]?.map (BaseSubgroup.queued k) := by
  induction subgroups generalizing i with
  | nil => rfl
  | cons s subgroups ih =>
    rw [length_cons] at hfew
    have hidx : (s.queued i).subgroupIdx = i := Nat.mod_eq_of_lt (by omega)
    rw [queueFrom]
    by_cases heq : i = k
    . subst heq
      rw [find?_cons_of_pos (by simpa using hidx), Nat.sub_self]
      rfl
    . rw [find?_cons_of_neg (by simpa [hidx] using heq), ih (by omega) (by omega),
        show k - i = k - (i + 1) + 1 by omega]
      rfl

theorem modify_queueFrom {i k : Nat} {subgroups : List BaseSubgroup} (hik : i ≤ k)
    (hfew : i + subgroups.length ≤ 2 ^ 8) {f : Subgroup → Subgroup}
    {g : BaseSubgroup → BaseSubgroup}
    (hfg : ∀ s, subgroups[k - i]? = some s → f (s.queued k) = (g s).queued k) :
    First.modify (·.subgroupIdx = k) f (queueFrom i subgroups) =
      queueFrom i (subgroups.modify (k - i) g) := by
  induction subgroups generalizing i with
  | nil => rw [modify_nil]; rfl
  | cons s subgroups ih =>
    rw [length_cons] at hfew
    have hidx : (s.queued i).subgroupIdx = i := Nat.mod_eq_of_lt (by omega)
    rw [queueFrom, First.modify, hidx]
    by_cases heq : i = k
    . subst heq
      rw [Nat.sub_self] at hfg ⊢
      rw [if_pos (by simp), hfg s rfl, modify_zero_cons, queueFrom]
    . rw [show k - i = k - (i + 1) + 1 by omega] at hfg ⊢
      rw [if_neg (by simpa using heq), ih (by omega) (by omega) hfg, modify_succ_cons,
        queueFrom]

section

structure BaseSubgroup.Ok (s : BaseSubgroup) : Prop where
  fits : s.codecCfg.1.length + s.metadata.1.length + 2 < 2 ^ 8
  codecCfg : checkFormat s.codecCfg.1 = true
  metadata : checkFormat s.metadata.1 = true
  bises : ∀ bis ∈ s.bises, bis.bisIndex < 2 ^ 8 ∧ bis.codecCfg.length < 2 ^ 8 ∧
    checkFormat bis.codecCfg = true

structure Holds (group : Group) (b : BaseGroup) : Prop where
  groupIdx : group.groupIdx = b.groupIdx
  presentationDelay : group.presentationDelay = b.presentationDelay
  numSubgroups : group.numSubgroups = b.subgroups.length % 2 ^ 8
  few : b.subgroups.length ≤ 2 ^ 8
  queue : group.subgroupQueue = queueFrom 0 b.subgroups
  ok : ∀ s ∈ b.subgroups, s.Ok

structure Built (w : World) : Prop where
  holds : List.Forall₂ Holds w.db.baseGroupQueue w.base
  nodup : (w.base.map BaseGroup.groupIdx).Nodup

def World.Meets (w : World) : Event → Prop
  | .addGroup _ _ => ∀ group ∈ w.db.baseGroupQueue, group.groupIdx ≠ w.db.baseGroupIdx
  | .addSubgroup _ groupIdx _ codecCfg metadata =>
    codecCfg.1.length + metadata.1.length + 2 < 2 ^ 8 ∧
      ∀ group ∈ baseDataFindGroup groupIdx w.db, group.subgroupQueue.length < 2 ^ 8
  | .addBis _ _ _ _ => True
  | .updateMetadata _ groupIdx subgroupIdx metadata =>
    ∀ group ∈ baseDataFindGroup groupIdx w.db,
      ∀ subgroup ∈ baseDataFindSubgroup group subgroupIdx,
        subgroup.codecCfgLen + metadata.1.length + 2 < 2 ^ 8

instance (w : World) : (e : Event) → Decidable (w.Meets e)
  | .addGroup _ _ => List.decidableBAll _ _
  | .addSubgroup _ _ _ _ _ => instDecidableAnd
  | .addBis _ _ _ _ => instDecidableTrue
  | .updateMetadata _ _ _ _ => Option.decidableForallMem _

variable {w : World}

theorem holds_find (h : List.Forall₂ Holds queue base)
    (hfind : queue.find? (·.groupIdx = groupIdx) = some group) :
    ∃ b, base.find? (·.groupIdx = groupIdx) = some b ∧ Holds group b := by
  have hrel : Option.Rel Holds (queue.find? (·.groupIdx = groupIdx))
    (base.find? (·.groupIdx = groupIdx)) :=
      First.forall₂_find? (fun a b hab => by rw [hab.groupIdx]) h
  rw [hfind] at hrel
  cases hb : base.find? (·.groupIdx = groupIdx) with
  | none =>
    rw [hb] at hrel
    cases hrel
  | some b =>
    rw [hb] at hrel
    cases hrel with
    | some hab => exact ⟨b, rfl, hab⟩

theorem built_modify (h : Built w)
    (hfind : baseDataFindGroup groupIdx w.db = some group)
    (hfg : ∀ b, Holds group b → Holds (f group) { b with subgroups := g b.subgroups }) :
    Built { db := w.db.modifyGroup groupIdx f, base := modifyBase groupIdx g w.base } where
  holds := First.forall₂_modify_find (fun a b hab => by rw [hab.groupIdx]) h.holds
    fun a b ha hab => by
      rw [show a = group from Option.some.inj (ha.symm.trans hfind)] at hab ⊢
      exact hfg b hab
  nodup := by
    have hmap : (modifyBase groupIdx g w.base).map BaseGroup.groupIdx =
      w.base.map BaseGroup.groupIdx := by
        unfold modifyBase
        exact First.map_modify (fun _ => by rfl) w.base
    rw [hmap]
    exact h.nodup

theorem addGroup_eq (w : World) (presentationDelay : Nat) :
    w.step (.addGroup true presentationDelay) =
      { db := (baseDataAddGroup true presentationDelay w.db).1
        base := w.base ++ [⟨w.db.baseGroupIdx, presentationDelay, []⟩] } := rfl

theorem built_addGroup (h : Built w)
    (hok : w.Meets (.addGroup memory presentationDelay)) :
    Built (w.step (.addGroup memory presentationDelay)) := by
  cases memory with
  | false => exact h
  | true =>
    rw [addGroup_eq]
    refine ⟨rel_append h.holds (.cons ?_ .nil), ?_⟩
    . exact
        { groupIdx := rfl
          presentationDelay := rfl
          numSubgroups := rfl
          few := Nat.zero_le _
          queue := rfl
          ok := by simp }
    . rw [map_append, nodup_append]
      refine ⟨h.nodup, by simp, ?_⟩
      intro idx hidx idx' hidx'
      obtain ⟨b, hb, rfl⟩ := mem_map.mp hidx
      obtain ⟨group, hgroup, hab⟩ := First.exists_of_forall₂ h.holds hb
      rw [map_singleton, mem_singleton] at hidx'
      rw [hidx', ← hab.groupIdx]
      exact hok group hgroup

theorem addSubgroup_cases (w : World) (memory : Bool) (groupIdx : Nat) (codecId : Vector UInt8 5)
    (codecCfg metadata : Ltv8) :
    w.step (.addSubgroup memory groupIdx codecId codecCfg metadata) = w ∨
      ∃ group, memory = true ∧ checkFormat codecCfg.1 = true ∧ checkFormat metadata.1 = true ∧
        baseDataFindGroup groupIdx w.db = some group ∧
        w.step (.addSubgroup memory groupIdx codecId codecCfg metadata) =
          { db := w.db.modifyGroup groupIdx fun group' =>
              { group' with
                subgroupQueue := group'.subgroupQueue ++
                  [{ subgroupIdx := group.numSubgroups
                     codecId := codecId.toList
                     numBis := 0
                     codecCfgLen := codecCfg.1.length
                     codecMetadata := codecMetadataBlock codecCfg.1 metadata.1
                     bisQueue := [] }]
                numSubgroups := (group'.numSubgroups + 1) % 2 ^ 8 }
            base := modifyBase groupIdx (· ++ [⟨codecId, codecCfg, metadata, []⟩]) w.base } := by
  by_cases hcheck : (checkFormat codecCfg.1 && checkFormat metadata.1) = true
  . cases hfind : baseDataFindGroup groupIdx w.db with
    | none => exact .inl (by simp only [World.step, baseDataAddSubgroup, hcheck, hfind, if_pos])
    | some group =>
      cases memory with
      | false =>
        exact .inl (by
          simp only [World.step, baseDataAddSubgroup, hcheck, hfind, if_pos, Bool.false_eq_true,
            if_false])
      | true =>
        rw [Bool.and_eq_true] at hcheck
        refine .inr ⟨group, rfl, hcheck.1, hcheck.2, rfl, ?_⟩
        simp only [World.step, baseDataAddSubgroup, hcheck, hfind, if_pos, Bool.and_self]
  . exact .inl (by simp only [World.step, baseDataAddSubgroup, if_neg hcheck])

theorem built_addSubgroup (h : Built w)
    (hok : w.Meets (.addSubgroup memory groupIdx codecId codecCfg metadata)) :
    Built (w.step (.addSubgroup memory groupIdx codecId codecCfg metadata)) := by
  obtain hsame | ⟨group, -, hcfg, hmetadata, hfind, hstep⟩ :=
    addSubgroup_cases w memory groupIdx codecId codecCfg metadata
  . rw [hsame]
    exact h
  . obtain ⟨hfits, hfew⟩ := hok
    have hfew := hfew group hfind
    rw [hstep]
    refine built_modify h hfind fun b hb => ?_
    rw [hb.queue, queueFrom_length] at hfew
    exact
      { groupIdx := hb.groupIdx
        presentationDelay := hb.presentationDelay
        numSubgroups := by
          dsimp only
          rw [hb.numSubgroups, length_append, length_singleton]
          omega
        few := by
          rw [length_append, length_singleton]
          omega
        queue := by
          dsimp only
          rw [hb.queue, queueFrom_append, hb.numSubgroups, Nat.zero_add,
            codecMetadataBlock_eq hfits]
          rfl
        ok := by
          intro s hs
          obtain hs | hs := mem_append.mp hs
          . exact hb.ok s hs
          . rw [mem_singleton.mp hs]
            exact ⟨hfits, hcfg, hmetadata, by simp⟩ }

theorem holds_modify {group : Group} {b : BaseGroup} (hb : Holds group b) {k : Nat}
    {subgroup : Subgroup} (hfind : baseDataFindSubgroup group k = some subgroup)
    {f : Subgroup → Subgroup} {g : BaseSubgroup → BaseSubgroup}
    (hfg : ∀ s : BaseSubgroup, s.Ok → s.queued k = subgroup →
      f (s.queued k) = (g s).queued k ∧ (g s).Ok) :
    Holds (group.modifySubgroup k f) { b with subgroups := b.subgroups.modify k g } := by
  have hfew : 0 + b.subgroups.length ≤ 2 ^ 8 := by
    have := hb.few
    omega
  unfold baseDataFindSubgroup at hfind
  rw [hb.queue, find?_queueFrom (Nat.zero_le k) hfew, Nat.sub_zero, Option.map_eq_some_iff]
    at hfind
  obtain ⟨s, hs, hqueued⟩ := hfind
  obtain ⟨hf, hg⟩ := hfg s (hb.ok s (mem_of_getElem? hs)) hqueued
  exact
    { groupIdx := hb.groupIdx
      presentationDelay := hb.presentationDelay
      numSubgroups := by
        dsimp only
        rw [length_modify]
        exact hb.numSubgroups
      few := by
        dsimp only
        rw [length_modify]
        exact hb.few
      queue := by
        have hmodify := @modify_queueFrom 0 k b.subgroups (Nat.zero_le k) hfew f g
        rw [Nat.sub_zero] at hmodify
        unfold Group.modifySubgroup
        dsimp only
        rw [hb.queue]
        refine hmodify fun s' hs' => ?_
        rw [hs, Option.some_inj] at hs'
        rw [← hs']
        exact hf
      ok := by
        intro s' hs'
        obtain ⟨i, hi⟩ := mem_iff_getElem?.mp hs'
        rw [getElem?_modify, Option.map_eq_map, Option.map_eq_some_iff] at hi
        obtain ⟨s'', hs'', rfl⟩ := hi
        split
        . next hki =>
          rw [← hki, hs, Option.some_inj] at hs''
          rw [← hs'']
          exact hg
        . exact hb.ok s'' (mem_of_getElem? hs'') }

theorem addBis_cases (w : World) (memory : Bool) (groupIdx subgroupIdx : Nat) (codecCfg : Ltv8) :
    w.step (.addBis memory groupIdx subgroupIdx codecCfg) = w ∨
      ∃ group subgroup, checkFormat codecCfg.1 = true ∧
        baseDataFindGroup groupIdx w.db = some group ∧
        baseDataFindSubgroup group subgroupIdx = some subgroup ∧
        w.step (.addBis memory groupIdx subgroupIdx codecCfg) =
          { db := w.db.modifyGroup groupIdx fun group' =>
              { group'.modifySubgroup subgroupIdx
                  (Subgroup.addBis ⟨(group.numBis + 1) % 2 ^ 8, codecCfg.1⟩) with
                numBis := (group'.numBis + 1) % 2 ^ 8 }
            base := modifyBase groupIdx (fun subgroups =>
              subgroups.modify subgroupIdx fun subgroup =>
                { subgroup with
                  bises := subgroup.bises ++ [⟨(group.numBis + 1) % 2 ^ 8, codecCfg.1⟩] })
              w.base } := by
  by_cases hcheck : checkFormat codecCfg.1 = true
  . cases hfind : baseDataFindGroup groupIdx w.db with
    | none => exact .inl (by simp only [World.step, baseDataAddBis, hcheck, hfind, if_pos])
    | some group =>
      cases hsub : baseDataFindSubgroup group subgroupIdx with
      | none =>
        exact .inl (by simp only [World.step, baseDataAddBis, hcheck, hfind, hsub, if_pos])
      | some subgroup =>
        cases memory with
        | false =>
          exact .inl (by
            simp only [World.step, baseDataAddBis, hcheck, hfind, hsub, if_pos, Bool.false_eq_true,
              if_false])
        | true =>
          refine .inr ⟨group, subgroup, hcheck, rfl, hsub, ?_⟩
          simp only [World.step, baseDataAddBis, hcheck, hfind, hsub, if_pos]
  . exact .inl (by simp only [World.step, baseDataAddBis, if_neg hcheck])

theorem built_addBis (h : Built w) :
    Built (w.step (.addBis memory groupIdx subgroupIdx codecCfg)) := by
  obtain hsame | ⟨group, subgroup, hcfg, hfind, hsub, hstep⟩ :=
    addBis_cases w memory groupIdx subgroupIdx codecCfg
  . rw [hsame]
    exact h
  . rw [hstep]
    refine built_modify h hfind fun b hb => ?_
    have hholds := @holds_modify group b hb subgroupIdx subgroup hsub
      (Subgroup.addBis ⟨(group.numBis + 1) % 2 ^ 8, codecCfg.1⟩)
      (fun subgroup => { subgroup with
        bises := subgroup.bises ++ [⟨(group.numBis + 1) % 2 ^ 8, codecCfg.1⟩] }) fun s hs _ => by
        refine ⟨?_, hs.fits, hs.codecCfg, hs.metadata, ?_⟩
        . simp [Subgroup.addBis, BaseSubgroup.queued]
        . intro bis hbis
          obtain hbis | hbis := mem_append.mp hbis
          . exact hs.bises bis hbis
          . rw [mem_singleton.mp hbis]
            exact ⟨Nat.mod_lt _ (by decide), codecCfg.2, hcfg⟩
    exact ⟨hholds.groupIdx, hholds.presentationDelay, hholds.numSubgroups, hholds.few,
      hholds.queue, hholds.ok⟩

theorem updateMetadata_cases (w : World) (memory : Bool) (groupIdx subgroupIdx : Nat)
    (metadata : Ltv8) :
    w.step (.updateMetadata memory groupIdx subgroupIdx metadata) = w ∨
      ∃ group subgroup, memory = true ∧ checkFormat metadata.1 = true ∧
        baseDataFindGroup groupIdx w.db = some group ∧
        baseDataFindSubgroup group subgroupIdx = some subgroup ∧
        w.step (.updateMetadata memory groupIdx subgroupIdx metadata) =
          { db := w.db.modifyGroup groupIdx
              (Group.modifySubgroup subgroupIdx (Subgroup.setMetadata metadata.1))
            base := modifyBase groupIdx (fun subgroups =>
              subgroups.modify subgroupIdx fun subgroup => { subgroup with metadata := metadata })
              w.base } := by
  by_cases hcheck : checkFormat metadata.1 = true
  . cases hfind : baseDataFindGroup groupIdx w.db with
    | none => exact .inl (by simp only [World.step, baseDataUpdateMetadata, hcheck, hfind, if_pos])
    | some group =>
      cases hsub : baseDataFindSubgroup group subgroupIdx with
      | none =>
        exact .inl (by simp only [World.step, baseDataUpdateMetadata, hcheck, hfind, hsub, if_pos])
      | some subgroup =>
        cases memory with
        | false =>
          exact .inl (by
            simp only [World.step, baseDataUpdateMetadata, hcheck, hfind, hsub, if_pos,
              Bool.false_eq_true, if_false])
        | true =>
          refine .inr ⟨group, subgroup, rfl, hcheck, rfl, hsub, ?_⟩
          simp only [World.step, baseDataUpdateMetadata, hcheck, hfind, hsub, if_pos]
  . exact .inl (by simp only [World.step, baseDataUpdateMetadata, if_neg hcheck])

theorem built_updateMetadata (h : Built w)
    (hok : w.Meets (.updateMetadata memory groupIdx subgroupIdx metadata)) :
    Built (w.step (.updateMetadata memory groupIdx subgroupIdx metadata)) := by
  obtain hsame | ⟨group, subgroup, -, hcheck, hfind, hsub, hstep⟩ :=
    updateMetadata_cases w memory groupIdx subgroupIdx metadata
  . rw [hsame]
    exact h
  . have hfits := hok group hfind subgroup hsub
    rw [hstep]
    refine built_modify h hfind fun b hb => holds_modify hb hsub fun s hs hqueued => ?_
    rw [← hqueued] at hfits
    refine ⟨?_, hfits, hs.codecCfg, hcheck, hs.bises⟩
    have hold : ((record s.codecCfg.1 s.metadata.1).drop 1 ++
        List.replicate s.codecCfg.1.length 0).take s.codecCfg.1.length = s.codecCfg.1 := by
      simp [record, append_assoc]
    unfold Subgroup.setMetadata BaseSubgroup.queued
    dsimp only
    rw [hold, codecMetadataBlock_eq hfits]

theorem built_initial : Built World.initial := ⟨.nil, List.nodup_nil⟩

theorem built_step (w : World) (e : Event) (h : Built w) (hok : w.Meets e) : Built (w.step e) := by
  cases e with
  | addGroup memory presentationDelay => exact built_addGroup h hok
  | addSubgroup memory groupIdx codecId codecCfg metadata => exact built_addSubgroup h hok
  | addBis memory groupIdx subgroupIdx codecCfg => exact built_addBis h
  | updateMetadata memory groupIdx subgroupIdx metadata => exact built_updateMetadata h hok

theorem built_run
    (hok : Run.Along World.step World.Meets World.initial events) :
    Built (Run.exec World.step World.initial events) :=
  Run.exec_inv built_step _ events built_initial hok

end

end BaseData
