import Earphone.BaseData.Parse
import Mathlib.Data.List.Forall2

namespace BaseData

open Scan List
open Ascs (CodecCfg)
open Ltv (octet byteAt_octet)

inductive Item where
  | samplingFrequency
  | frameDuration
  | channelAllocation
  | octetsPerFrame
  | blocksPerSdu
  deriving DecidableEq

def Item.bit : Item → Nat
  | .samplingFrequency => samplingFrequencyExist
  | .frameDuration => frameDurationExist
  | .channelAllocation => audioChannelAllocationExist
  | .octetsPerFrame => octetPerCodecFrameExist
  | .blocksPerSdu => blocksPerSduExist

def Item.value : Item → CodecCfg → Nat
  | .samplingFrequency => CodecCfg.sampleFrequency
  | .frameDuration => CodecCfg.frameDuration
  | .channelAllocation => CodecCfg.audioChannelAllocation
  | .octetsPerFrame => CodecCfg.octetsPerCodecFrame
  | .blocksPerSdu => CodecCfg.codecFrameBlocksPerSdu

def Item.default : Item → Option Nat
  | .blocksPerSdu => some 1
  | _ => none

def Item.carried (item : Item) (cfg : CodecCfg) : Option Nat :=
  if has cfg item.bit then some (item.value cfg) else none

def Item.defined (item : Item) (level2 level3 : CodecCfg) : Option Nat :=
  (item.carried level3).or ((item.carried level2).or item.default)

structure Merged (levels : CodecCfg × CodecCfg) (cfg : CodecCfg) : Prop where
  value : ∀ item : Item, item.value cfg = (item.defined levels.1 levels.2).getD 0
  exist : ∀ item : Item, has cfg item.bit = (item.defined levels.1 levels.2).isSome

def Agree (levels : CodecCfg × CodecCfg) : Prop :=
  ∀ item ∈ [Item.frameDuration, .octetsPerFrame, .blocksPerSdu],
    has levels.1 item.bit → has levels.2 item.bit → item.value levels.1 = item.value levels.2

theorem or_and_ne (a b bit : Nat) :
    decide ((a ||| b) &&& bit ≠ 0) = (decide (a &&& bit ≠ 0) || decide (b &&& bit ≠ 0)) := by
  rw [Nat.and_or_distrib_right, ← Bool.decide_or]
  refine decide_eq_decide.mpr ?_
  rw [ne_eq, Nat.or_eq_zero_iff, not_and_or]

section

variable (level2 level3 : CodecCfg)

include level2 level3

theorem has_merge (bit : Nat) :
    has (mergeCodecCfg level2 level3) bit =
      ((has level2 bit || has level3 bit) || decide (blocksPerSduExist &&& bit ≠ 0)) := by
  unfold has
  rw [← or_and_ne, ← or_and_ne]
  rfl

theorem merge_exist (item : Item) :
    has (mergeCodecCfg level2 level3) item.bit = (item.defined level2 level3).isSome := by
  rw [has_merge]
  unfold Item.defined Item.carried
  cases has level2 item.bit <;> cases has level3 item.bit <;> cases item <;> rfl

theorem pick_level2 (item : Item) (hdefault : item.default = none) :
    pick item.bit item.value level2 level3 = (item.defined level2 level3).getD 0 ↔
      (has level2 item.bit → has level3 item.bit → item.value level2 = item.value level3) := by
  unfold pick Item.defined Item.carried
  rw [hdefault]
  cases has level2 item.bit <;> cases has level3 item.bit <;> simp

theorem merge_blocks :
    Item.blocksPerSdu.value (mergeCodecCfg level2 level3) =
        (Item.blocksPerSdu.defined level2 level3).getD 0 ↔
      (has level2 blocksPerSduExist → has level3 blocksPerSduExist →
        level2.codecFrameBlocksPerSdu = level3.codecFrameBlocksPerSdu) := by
  have hblocks : Item.blocksPerSdu.value (mergeCodecCfg level2 level3) =
      if has level2 blocksPerSduExist || has level3 blocksPerSduExist then
        pick blocksPerSduExist CodecCfg.codecFrameBlocksPerSdu level2 level3
      else 1 := by
    unfold has
    rw [← or_and_ne]
    simp only [Item.value, mergeCodecCfg, decide_eq_true_eq, ne_eq, ite_not]
  rw [hblocks]
  unfold pick Item.defined Item.carried Item.bit Item.value Item.default
  cases has level2 blocksPerSduExist <;> cases has level3 blocksPerSduExist <;> simp

theorem merged_iff :
    Merged (level2, level3) (mergeCodecCfg level2 level3) ↔ Agree (level2, level3) := by
  have hexist := merge_exist level2 level3
  have hduration := pick_level2 level2 level3 .frameDuration rfl
  have hoctets := pick_level2 level2 level3 .octetsPerFrame rfl
  have hblocks := merge_blocks level2 level3
  have hfirst : ∀ bit field, pick bit field level3 level2 =
      ((if has level3 bit then some (field level3) else none).or
        ((if has level2 bit then some (field level2) else none).or none)).getD 0 := by
    intro bit field
    unfold pick
    cases has level3 bit <;> cases has level2 bit <;> rfl
  unfold Agree
  rw [forall_mem_cons, forall_mem_cons, forall_mem_singleton]
  constructor
  . rintro ⟨hvalue, -⟩
    exact ⟨hduration.mp (hvalue .frameDuration), hoctets.mp (hvalue .octetsPerFrame),
      hblocks.mp (hvalue .blocksPerSdu)⟩
  . rintro ⟨h1, h2, h3⟩
    refine ⟨fun item => ?_, hexist⟩
    cases item with
    | samplingFrequency => exact hfirst _ _
    | frameDuration => exact hduration.mpr h1
    | channelAllocation => exact hfirst _ _
    | octetsPerFrame => exact hoctets.mpr h2
    | blocksPerSdu => exact hblocks.mpr h3

end

section

variable {bytes : List UInt8}

def cfgAt (bytes : List UInt8) (p : Nat) (len : Nat) : CodecCfg :=
  match readCodecCfg bytes p len with
  | .ok (some cfg) => cfg
  | _ => .zero

def bisLevels (bytes : List UInt8) (level2 : CodecCfg) :
    Nat → Nat → List (CodecCfg × CodecCfg) × Nat
  | 0, p => ([], p)
  | n + 1, p =>
    let len := octet bytes (p + 1)
    let (levels, q) := bisLevels bytes level2 n (p + 2 + len)
    ((level2, cfgAt bytes (p + 2) len) :: levels, q)

def subgroupLevels (bytes : List UInt8) : Nat → Nat → List (CodecCfg × CodecCfg)
  | 0, _ => []
  | n + 1, p =>
    let len := octet bytes (p + 6)
    let metadataLen := octet bytes (p + 7 + len)
    let (levels, q) := bisLevels bytes (cfgAt bytes (p + 7) len) (octet bytes p)
      (p + 8 + len + metadataLen)
    levels ++ subgroupLevels bytes n q

def Mapping.cfgs (mapping : Mapping) : List CodecCfg :=
  mapping.subgroups.flatMap fun subgroup => subgroup.bisParam.map BisParam.bisCodecCfg

def mergeLevels (levels : CodecCfg × CodecCfg) : CodecCfg := mergeCodecCfg levels.1 levels.2

theorem byteAt_eq_octet (h : byteAt bytes i = .ok b) : b = octet bytes i := by
  rw [byteAt_octet (byteAt_ok h), Except.ok.injEq] at h
  exact h.symm

theorem readBises_levels
    (h : readBises bytes codecId level2 i numBis n j p = .ok (.ok (bises, q))) :
    bises.map BisParam.bisCodecCfg = (bisLevels bytes level2 n p).1.map mergeLevels ∧
      q = (bisLevels bytes level2 n p).2 := by
  induction n generalizing j p bises with
  | zero =>
    cases h
    exact ⟨rfl, rfl⟩
  | succ n ih =>
    obtain ⟨-, -, h⟩ := bind_ok.mp h
    obtain ⟨bisIndex, -, h⟩ := bind_ok.mp h
    obtain ⟨len, hlen, h⟩ := bind_ok.mp h
    obtain ⟨level3, hlevel3, h⟩ := bind_ok.mp h
    obtain rfl := byteAt_eq_octet hlen
    match level3 with
    | none => cases h
    | some level3 =>
      obtain ⟨rest, hrest, h⟩ := bind_ok.mp h
      match rest with
      | .error e => cases h
      | .ok (bises', q') =>
        cases h
        obtain ⟨hcfgs, hq⟩ := ih hrest
        have hcfg : cfgAt bytes (p + 2) (octet bytes (p + 1)) = level3 := by
          unfold cfgAt
          rw [hlevel3]
        exact ⟨by simp only [bisLevels, map_cons, hcfgs, hcfg, mergeLevels], hq⟩

theorem readSubgroup_levels (h : readSubgroup memory bytes i p = .ok (.ok (subgroup, q))) :
    (subgroup.bisParam.map BisParam.bisCodecCfg, q) =
      Prod.map (List.map mergeLevels) id (bisLevels bytes
        (cfgAt bytes (p + 7) (octet bytes (p + 6))) (octet bytes p)
        (p + 8 + octet bytes (p + 6) + octet bytes (p + 7 + octet bytes (p + 6)))) := by
  obtain ⟨numBis, hnumBis, h⟩ := bind_ok.mp h
  obtain ⟨codecId, -, h⟩ := bind_ok.mp h
  obtain ⟨len, hlen, h⟩ := bind_ok.mp h
  obtain ⟨metadataLen, hmetadataLen, h⟩ := bind_ok.mp h
  obtain ⟨level2, hlevel2, h⟩ := bind_ok.mp h
  obtain rfl := byteAt_eq_octet hnumBis
  obtain rfl := byteAt_eq_octet hlen
  obtain rfl := byteAt_eq_octet hmetadataLen
  match level2 with
  | none => cases h
  | some level2 =>
    obtain ⟨metadata, -, h⟩ := bind_ok.mp h
    match metadata with
    | .error e => cases h
    | .ok metadata =>
      dsimp only at h
      split at h
      . obtain ⟨rest, hrest, h⟩ := bind_ok.mp h
        match rest with
        | .error e => cases h
        | .ok (bises, q') =>
          cases h
          obtain ⟨hcfgs, hq⟩ := readBises_levels hrest
          have hcfg : cfgAt bytes (p + 7) (octet bytes (p + 6)) = level2 := by
            unfold cfgAt
            rw [hlevel2]
          rw [hcfg]
          exact Prod.ext hcfgs hq
      . cases h

theorem readSubgroups_levels
    (h : readSubgroups memory bytes numSubgroups n i p = .ok (.ok subgroups)) :
    (subgroups.flatMap fun subgroup => subgroup.bisParam.map BisParam.bisCodecCfg) =
      (subgroupLevels bytes n p).map mergeLevels := by
  induction n generalizing i p subgroups with
  | zero =>
    cases h
    rfl
  | succ n ih =>
    obtain ⟨-, -, h⟩ := bind_ok.mp h
    obtain ⟨subgroup, hsubgroup, h⟩ := bind_ok.mp h
    match subgroup with
    | .error e => cases h
    | .ok (subgroup, q) =>
      obtain ⟨rest, hrest, h⟩ := bind_ok.mp h
      match rest with
      | .error e => cases h
      | .ok rest =>
        cases h
        obtain ⟨hbises, hq⟩ := Prod.ext_iff.mp (readSubgroup_levels hsubgroup)
        rw [flatMap_cons, ih hrest, subgroupLevels, map_append]
        exact congrArg₂ _ hbises (congrArg _ (congrArg _ hq))

theorem baseDataParseData_levels (h : baseDataParseData memory len bytes fuel = .ok (.ok mapping)) :
    ∃ offset, baseDataCheckData len bytes fuel = .ok (.ok offset) ∧
      mapping.cfgs =
        (subgroupLevels bytes (octet bytes (offset + 7)) (offset + 8)).map mergeLevels := by
  obtain ⟨offset, hoffset, h⟩ := bind_ok.mp h
  match offset with
  | .error e => cases h
  | .ok offset =>
    refine ⟨offset, hoffset, ?_⟩
    dsimp only [readBase] at h
    split at h
    . obtain ⟨presentationDelay, -, h⟩ := bind_ok.mp h
      obtain ⟨numSubgroups, hnum, h⟩ := bind_ok.mp h
      obtain rfl := byteAt_eq_octet hnum
      split at h
      . obtain ⟨subgroups, hsubgroups, h⟩ := bind_ok.mp h
        match subgroups with
        | .error e => cases h
        | .ok subgroups =>
          cases h
          exact readSubgroups_levels hsubgroups
      . cases h
    . cases h

theorem cfgs_merged_iff (h : baseDataParseData memory len bytes fuel = .ok (.ok mapping)) :
    ∃ offset, baseDataCheckData len bytes fuel = .ok (.ok offset) ∧
      (List.Forall₂ Merged (subgroupLevels bytes (octet bytes (offset + 7)) (offset + 8))
          mapping.cfgs ↔
        ∀ levels ∈ subgroupLevels bytes (octet bytes (offset + 7)) (offset + 8),
          Agree levels) := by
  obtain ⟨offset, hoffset, hcfgs⟩ := baseDataParseData_levels h
  refine ⟨offset, hoffset, ?_⟩
  rw [hcfgs, forall₂_map_right_iff, forall₂_same]
  exact forall₂_congr fun levels _ => merged_iff levels.1 levels.2

def twoOctetsBytes : List UInt8 :=
  [25, 0x16, 0x51, 0x18, 0x40, 0x9C, 0, 1, 1, 6, 0, 0, 0, 0, 4, 3, 0x04, 40, 0, 0, 1, 4, 3, 0x04,
    60, 0]

def twoOctetsMapping : Mapping :=
  { numBis := 1
    numSubgroups := 1
    presentationDelay := 40000
    subgroups :=
      [{ subgroupIdx := 0
         numBis := 1
         bisArray := 1
         metadata := []
         bisParam :=
          [{ subgroupIdx := 0
             bisIndex := 1
             codecId := [6, 0, 0, 0, 0]
             bisCodecCfg := ⟨0x18, 0, 0, 1, 40, 0⟩ }] }] }

theorem cfgs_merged_twoOctets :
    ∃ offset, baseDataCheckData 26 twoOctetsBytes 2 = .ok (.ok offset) ∧
      (List.Forall₂ Merged
          (subgroupLevels twoOctetsBytes (octet twoOctetsBytes (offset + 7)) (offset + 8))
          twoOctetsMapping.cfgs ↔
        ∀ levels ∈
          subgroupLevels twoOctetsBytes (octet twoOctetsBytes (offset + 7)) (offset + 8),
          Agree levels) :=
  cfgs_merged_iff (show baseDataParseData (fun _ => true) 26 twoOctetsBytes 2 =
    .ok (.ok twoOctetsMapping) from rfl)

theorem not_cfgs_merged :
    baseDataParseData (fun _ => true) 26 twoOctetsBytes 2 = .ok (.ok twoOctetsMapping) ∧
      baseDataCheckData 26 twoOctetsBytes 2 = .ok (.ok 0) ∧
      ¬ List.Forall₂ Merged (subgroupLevels twoOctetsBytes (octet twoOctetsBytes 7) 8)
        twoOctetsMapping.cfgs := by
  refine ⟨rfl, rfl, fun h => ?_⟩
  cases h with
  | cons hmerged _ =>
    have hvalue := hmerged.value .octetsPerFrame
    exact absurd hvalue (by decide)

end

end BaseData
