import Earphone.BaseData.Built

namespace BaseData

open List (append_cancel_left find?_cons_of_neg find?_cons_of_pos forall_mem_cons length_drop
  length_replicate length_take mem_append mem_of_find?_eq_some mem_singleton not_mem_nil
  take_append_of_le_length)

def recordWrites (codecCfgLen metadataLen : Nat) : List (Nat × Nat) :=
  [(0, 1), (1, codecCfgLen), ((1 + codecCfgLen) % 2 ^ 8, 1),
    ((2 + codecCfgLen) % 2 ^ 8, metadataLen)]

def InBlock (codecCfgLen metadataLen : Nat) : Prop :=
  ∀ write ∈ recordWrites codecCfgLen metadataLen, write.2 ≠ 0 →
    write.1 + write.2 ≤ (codecCfgLen + metadataLen + 2) % 2 ^ 8

structure Stored (codecCfg metadata : List UInt8) (s : Subgroup) : Prop where
  codecCfgLen : s.codecCfgLen = codecCfg.length
  codecMetadata : s.codecMetadata = record codecCfg metadata
  inside : InBlock codecCfg.length metadata.length

def RecordFits (codecCfgLen metadataLen : Nat) : Prop := codecCfgLen + metadataLen + 2 < 2 ^ 8

def Subgroup.codecCfg (s : Subgroup) : List UInt8 := (s.codecMetadata.drop 1).take s.codecCfgLen

def AddStores (memory : Bool) (groupIdx : Nat) (codecId : Vector UInt8 5)
    (codecCfg metadata : Ltv8) (db : Db) : Prop :=
  match baseDataAddSubgroup memory groupIdx codecId codecCfg metadata db with
  | (db', none) => db' = db
  | (db', some subgroupIdx) => ∃ group s, baseDataFindGroup groupIdx db = some group ∧
    (baseDataFindGroup groupIdx db').map Group.subgroupQueue = some (group.subgroupQueue ++ [s]) ∧
    s.subgroupIdx = subgroupIdx ∧ Stored codecCfg.1 metadata.1 s

def UpdateStores (memory : Bool) (groupIdx subgroupIdx : Nat) (metadata : Ltv8) (db : Db) : Prop :=
  match baseDataUpdateMetadata memory groupIdx subgroupIdx metadata db with
  | (db', false) => db' = db
  | (db', true) => ∃ group s s', baseDataFindGroup groupIdx db = some group ∧
    baseDataFindSubgroup group subgroupIdx = some s ∧
    (baseDataFindGroup groupIdx db').bind (baseDataFindSubgroup · subgroupIdx) = some s' ∧
    Stored s.codecCfg metadata.1 s'

def CallFits (db : Db) : Event → Prop
  | .addSubgroup memory groupIdx _ codecCfg metadata =>
    checkFormat codecCfg.1 → checkFormat metadata.1 → memory →
      (baseDataFindGroup groupIdx db).isSome → RecordFits codecCfg.1.length metadata.1.length
  | .updateMetadata memory groupIdx subgroupIdx metadata =>
    checkFormat metadata.1 → memory → ∀ group s, baseDataFindGroup groupIdx db = some group →
      baseDataFindSubgroup group subgroupIdx = some s → RecordFits s.codecCfgLen metadata.1.length
  | _ => True

def Db.Sound (db : Db) : Prop :=
  ∀ group ∈ db.baseGroupQueue, ∀ s ∈ group.subgroupQueue, s.codecCfgLen < s.codecMetadata.length

theorem put_length_le (block : List UInt8) (i : Nat) (l : List UInt8) :
    (put block i l).length ≤ block.length := by
  unfold put
  rw [length_take]
  omega

theorem codecMetadataBlock_length_le (codecCfg metadata : List UInt8) :
    (codecMetadataBlock codecCfg metadata).length ≤
      (codecCfg.length + metadata.length + 2) % 2 ^ 8 := by
  unfold codecMetadataBlock
  refine Nat.le_trans (put_length_le _ _ _) (Nat.le_trans (put_length_le _ _ _)
    (Nat.le_trans (put_length_le _ _ _) (Nat.le_trans (put_length_le _ _ _) ?_)))
  exact Nat.le_of_eq length_replicate

theorem stored_iff (hlen : s.codecCfgLen = codecCfg.length)
    (hblock : s.codecMetadata = codecMetadataBlock codecCfg metadata) :
    Stored codecCfg metadata s ↔ RecordFits codecCfg.length metadata.length := by
  unfold RecordFits
  constructor
  . intro h
    have hle := codecMetadataBlock_length_le codecCfg metadata
    rw [← hblock, h.codecMetadata, record_length] at hle
    omega
  . intro h
    refine ⟨hlen, hblock.trans (codecMetadataBlock_eq h), ?_⟩
    simp only [InBlock, recordWrites, forall_mem_cons, not_mem_nil, false_implies,
      implies_true, and_true]
    omega

theorem mem_modify {α : Type} {p : α → Bool} {f : α → α} {P : α → Prop} {l : List α}
    (hl : ∀ a ∈ l, P a) (hf : ∀ a, l.find? p = some a → P a → P (f a)) :
    ∀ a ∈ First.modify p f l, P a := by
  induction l with
  | nil => exact hl
  | cons a l ih =>
    rw [forall_mem_cons] at hl
    unfold First.modify
    split
    . next hp =>
      exact forall_mem_cons.mpr ⟨hf a (find?_cons_of_pos hp) hl.1, hl.2⟩
    . next hp =>
      refine forall_mem_cons.mpr ⟨hl.1, ih hl.2 fun b hb => hf b ?_⟩
      rwa [find?_cons_of_neg hp]

theorem find_modifyGroup
    (h : baseDataFindGroup groupIdx db = some group) (hf : ∀ g, (f g).groupIdx = g.groupIdx) :
    baseDataFindGroup groupIdx (db.modifyGroup groupIdx f) = some (f group) := by
  unfold baseDataFindGroup Db.modifyGroup at *
  rw [First.find?_modify_self f (fun g => by rw [hf]), h]
  rfl

theorem addStores_iff (memory : Bool) (groupIdx : Nat) (codecId : Vector UInt8 5)
    (codecCfg metadata : Ltv8) (db : Db) :
    AddStores memory groupIdx codecId codecCfg metadata db ↔
      CallFits db (.addSubgroup memory groupIdx codecId codecCfg metadata) := by
  unfold AddStores CallFits baseDataAddSubgroup
  dsimp only
  cases hcfg : checkFormat codecCfg.1 with
  | false => simp
  | true =>
    cases hmeta : checkFormat metadata.1 with
    | false => simp
    | true =>
      cases hfind : baseDataFindGroup groupIdx db with
      | none => simp
      | some group =>
        cases memory with
        | false => simp
        | true =>
          simp only [Bool.and_self, if_true, Option.some.injEq, Option.isSome_some, true_implies]
          rw [find_modifyGroup hfind]
          swap
          . exact fun _ => rfl
          constructor
          . rintro ⟨group', s, rfl, hqueue, -, hstored⟩
            cases append_cancel_left (Option.some.inj hqueue)
            exact (stored_iff rfl rfl).mp hstored
          . exact fun hfits => ⟨group, _, rfl, rfl, rfl, (stored_iff rfl rfl).mpr hfits⟩

theorem setMetadata_stored {s : Subgroup} (hs : s.codecCfgLen < s.codecMetadata.length)
    (metadata : List UInt8) :
    Stored s.codecCfg metadata (s.setMetadata metadata) ↔
      RecordFits s.codecCfgLen metadata.length := by
  have hlen : s.codecCfg.length = s.codecCfgLen := by
    rw [Subgroup.codecCfg, length_take, length_drop]
    omega
  have hcfg : (s.codecMetadata.drop 1 ++ List.replicate s.codecCfgLen 0).take s.codecCfgLen =
      s.codecCfg := by
    rw [take_append_of_le_length (by rw [length_drop]; omega)]
    rfl
  rw [← hlen]
  refine stored_iff hlen.symm ?_
  rw [← hcfg]
  rfl

theorem updateStores_iff {memory : Bool} {groupIdx subgroupIdx : Nat} {metadata : Ltv8} {db : Db}
    (hdb : db.Sound) :
    UpdateStores memory groupIdx subgroupIdx metadata db ↔
      CallFits db (.updateMetadata memory groupIdx subgroupIdx metadata) := by
  unfold UpdateStores CallFits baseDataUpdateMetadata
  dsimp only
  cases hmeta : checkFormat metadata.1 with
  | false => simp
  | true =>
    cases hfind : baseDataFindGroup groupIdx db with
    | none => simp
    | some group =>
      simp only [if_true, true_implies, Option.some.injEq]
      cases hsub : baseDataFindSubgroup group subgroupIdx with
      | none =>
        refine iff_of_true rfl ?_
        rintro - group' s rfl hs
        cases hsub.symm.trans hs
      | some s =>
        cases memory with
        | false => simp
        | true =>
          have hsound := hdb group (mem_of_find?_eq_some hfind) s
            (mem_of_find?_eq_some hsub)
          have hfound : (baseDataFindGroup groupIdx (db.modifyGroup groupIdx
              (Group.modifySubgroup subgroupIdx (Subgroup.setMetadata metadata.1)))).bind
              (baseDataFindSubgroup · subgroupIdx) = some (s.setMetadata metadata.1) := by
            rw [find_modifyGroup hfind]
            swap
            . exact fun _ => rfl
            unfold baseDataFindSubgroup at hsub
            exact (First.find?_modify_self (Subgroup.setMetadata metadata.1) (fun _ => rfl)
              group.subgroupQueue).trans (congrArg (Option.map _) hsub)
          simp only [if_true, true_implies]
          constructor
          . rintro ⟨group', s1, s', rfl, hs1, hs', hstored⟩ group' s2 rfl hs2
            cases hsub.symm.trans hs1
            cases hsub.symm.trans hs2
            cases hfound.symm.trans hs'
            exact (setMetadata_stored hsound metadata.1).mp hstored
          . exact fun hfits => ⟨group, s, _, rfl, hsub, hfound,
              (setMetadata_stored hsound metadata.1).mpr (hfits group s rfl hsub)⟩

theorem sound_modifyGroup {db : Db} (hdb : db.Sound) {groupIdx : Nat} {group : Group}
    (hfind : baseDataFindGroup groupIdx db = some group) {f : Group → Group}
    (hf : ∀ s ∈ (f group).subgroupQueue, s.codecCfgLen < s.codecMetadata.length) :
    (db.modifyGroup groupIdx f).Sound := by
  refine mem_modify hdb fun group' hgroup' _ => ?_
  cases hfind.symm.trans hgroup'
  exact hf

theorem sound_step {w : World} {e : Event} (hw : w.db.Sound) (he : CallFits w.db e) :
    (w.step e).db.Sound := by
  cases e with
  | addGroup memory presentationDelay =>
    cases memory with
    | false => exact hw
    | true =>
      intro group hgroup
      obtain hgroup | hgroup := mem_append.mp hgroup
      . exact hw group hgroup
      . rw [mem_singleton.mp hgroup]
        exact fun s hs => absurd hs not_mem_nil
  | addSubgroup memory groupIdx codecId codecCfg metadata =>
    obtain hsame | ⟨group, hmemory, hcfg, hmeta, hfind, hstep⟩ :=
      addSubgroup_cases w memory groupIdx codecId codecCfg metadata
    . rwa [hsame]
    . rw [hstep]
      refine sound_modifyGroup hw hfind fun s hs => ?_
      obtain hs | hs := mem_append.mp hs
      . exact hw group (mem_of_find?_eq_some hfind) s hs
      . have hfits := he hcfg hmeta hmemory (by rw [hfind]; rfl)
        rw [mem_singleton.mp hs]
        dsimp only
        rw [codecMetadataBlock_eq hfits, record_length]
        omega
  | addBis memory groupIdx subgroupIdx codecCfg =>
    obtain hsame | ⟨group, s, -, hfind, hsub, hstep⟩ :=
      addBis_cases w memory groupIdx subgroupIdx codecCfg
    . rwa [hsame]
    . rw [hstep]
      refine sound_modifyGroup hw hfind (mem_modify (hw group (mem_of_find?_eq_some hfind))
        fun s _ hs => hs)
  | updateMetadata memory groupIdx subgroupIdx metadata =>
    obtain hsame | ⟨group, s, hmemory, hmeta, hfind, hsub, hstep⟩ :=
      updateMetadata_cases w memory groupIdx subgroupIdx metadata
    . rwa [hsame]
    . rw [hstep]
      refine sound_modifyGroup hw hfind (mem_modify (hw group (mem_of_find?_eq_some hfind))
        fun s' hs' hlt => ?_)
      cases hsub.symm.trans hs'
      have hstored := (setMetadata_stored hlt metadata.1).mpr (he hmeta hmemory group s hfind hsub)
      rw [hstored.codecMetadata, record_length, hstored.codecCfgLen]
      omega

theorem record_stored_iff (db : Db) (events : List Event) :
    (db.Sound →
      (∀ memory groupIdx codecId codecCfg metadata,
        AddStores memory groupIdx codecId codecCfg metadata db ↔
          CallFits db (.addSubgroup memory groupIdx codecId codecCfg metadata)) ∧
      ∀ memory groupIdx subgroupIdx metadata,
        UpdateStores memory groupIdx subgroupIdx metadata db ↔
          CallFits db (.updateMetadata memory groupIdx subgroupIdx metadata)) ∧
    (Run.Along World.step (fun w e => CallFits w.db e) World.initial events →
      (Run.exec World.step World.initial events).db.Sound) := by
  refine ⟨fun hdb => ⟨fun _ _ _ _ _ => addStores_iff _ _ _ _ _ _, fun _ _ _ _ =>
    updateStores_iff hdb⟩, fun hevents => ?_⟩
  have hinit : World.initial.db.Sound := fun group hgroup => absurd hgroup not_mem_nil
  exact @Run.exec_inv World Event World.step (fun w e => CallFits w.db e) (fun w => w.db.Sound)
    (fun w e hw he => sound_step hw he) World.initial events hinit hevents

def oneGroup : Db := ⟨[⟨0, 0, 0, [], 0⟩], 1⟩

theorem oneGroup_sound : oneGroup.Sound := by
  intro group hgroup s hs
  rw [mem_singleton.mp hgroup] at hs
  cases hs

def longStructure : Ltv8 := ⟨126 :: List.replicate 126 0, by simp⟩

theorem record_stored_one :
    AddStores true 0 ⟨#[6, 0, 0, 0, 0], rfl⟩ longStructure ⟨[], by decide⟩ oneGroup ↔
      CallFits oneGroup
        (.addSubgroup true 0 ⟨#[6, 0, 0, 0, 0], rfl⟩ longStructure ⟨[], by decide⟩) :=
  ((record_stored_iff oneGroup []).1 oneGroup_sound).1 _ _ _ _ _

theorem not_addStores (codecId : Vector UInt8 5)
    (hcfg : checkFormat codecCfg.1 = true) (hmeta : checkFormat metadata.1 = true)
    (hlong : ¬ RecordFits codecCfg.1.length metadata.1.length) :
    ¬ AddStores true 0 codecId codecCfg metadata oneGroup := by
  rw [addStores_iff]
  exact fun h => hlong (h hcfg hmeta rfl rfl)

theorem not_record_stored :
    (baseDataAddSubgroup true 0 ⟨#[6, 0, 0, 0, 0], rfl⟩ longStructure longStructure
        oneGroup).2 = some 0 ∧
      ¬ AddStores true 0 ⟨#[6, 0, 0, 0, 0], rfl⟩ longStructure longStructure oneGroup := by
  have hcheck : checkFormat longStructure.1 = true := by decide +kernel
  refine ⟨by decide +kernel, not_addStores _ hcheck hcheck ?_⟩
  simp [RecordFits, longStructure]

end BaseData
