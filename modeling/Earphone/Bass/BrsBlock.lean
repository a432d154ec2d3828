import Earphone.Bass.Brs
import Mathlib.Data.List.Forall2

namespace Brs

open Scan Slices List

def BisInfo.Leads (info : BisInfo) (area bytes : List UInt8) : Prop :=
  info.metadataLen = bytes.length ∧
    match info.pMetadata with
    | none => bytes = []
    | some p => p + bytes.length ≤ area.length ∧ (area.drop p).take bytes.length = bytes

structure BisBlock.Holds (block : BisBlock) (num size : Nat) (supplied : List (List UInt8)) :
    Prop where
  allocated : block.size = size
  infos : block.infos.length = num
  area : size = sizeofBisInfo * num + block.area.length
  total : block.area.length = supplied.flatten.length
  given : supplied.length = num
  slice : ∀ (i : Nat) (info : BisInfo) (bytes : List UInt8), block.infos[i]? = some info →
    supplied[i]? = some bytes → info.Leads block.area bytes
  apart : ∀ (i j : Nat) (info info' : BisInfo) (p p' : Nat), i < j → block.infos[i]? = some info →
    block.infos[j]? = some info' → info.pMetadata = some p → info'.pMetadata = some p' →
    p + info.metadataLen ≤ p'

def Roomy (metadata : List (List UInt8)) : Prop :=
  sizeofBisInfo * metadata.length + metadata.flatten.length < 65536

section

variable {advance : Nat → Nat} {bisSyncs : List UInt32} {metadata : List (List UInt8)}

theorem bisInfoSizeOf_roomy (hroomy : Roomy metadata) :
    bisInfoSizeOf metadata = sizeofBisInfo * metadata.length + metadata.flatten.length :=
  Nat.mod_eq_of_lt hroomy

def filled (bisSyncs : List UInt32) (metadata : List (List UInt8)) : BisBlock where
  size := bisInfoSizeOf metadata
  infos := (bisSyncs.zip (metadata.zip (place 0 metadata))).map fun x => mkBisInfo x.1 x.2.1 x.2.2
  area := metadata.flatten

theorem fillBisInfo_eq (hadvance : Advances advance metadata) (hroomy : Roomy metadata) :
    fillBisInfo advance bisSyncs metadata (bisInfoSizeOf metadata) =
      .ok (filled bisSyncs metadata) := by
  have hsize := bisInfoSizeOf_roomy hroomy
  have hrest : bisInfoSizeOf metadata - sizeofBisInfo * metadata.length =
      metadata.flatten.length := by
    omega
  have hlay := @lay_ok UInt8 advance metadata [] (List.replicate metadata.flatten.length 0) 0
    hadvance (length_replicate ..) fun _ => rfl
  rw [nil_append, nil_append] at hlay
  unfold fillBisInfo
  simp only [if_neg (show ¬bisInfoSizeOf metadata < sizeofBisInfo * metadata.length by omega),
    hrest, hlay]
  rfl

theorem filled_info {i : Nat} {info : BisInfo}
    (h : (filled bisSyncs metadata).infos[i]? = some info) :
    ∃ bytes, metadata[i]? = some bytes ∧ info.metadataLen = bytes.length ∧
      (place 0 metadata)[i]? = some info.pMetadata := by
  rw [filled, getElem?_map, Option.map_eq_some_iff] at h
  obtain ⟨x, hx, rfl⟩ := h
  rw [getElem?_zip_eq_some, getElem?_zip_eq_some] at hx
  exact ⟨x.2.1, hx.2.1, rfl, hx.2.2⟩

theorem filled_holds (hlen : bisSyncs.length = metadata.length) (hroomy : Roomy metadata) :
    (filled bisSyncs metadata).Holds metadata.length (bisInfoSizeOf metadata) metadata where
  allocated := rfl
  infos := by
    simp [filled, hlen]
  area := bisInfoSizeOf_roomy hroomy
  total := rfl
  given := rfl
  slice i info bytes hinfo hbytes := by
    obtain ⟨c, hc, hmetadata, hplace⟩ := filled_info hinfo
    rw [hbytes, Option.some.injEq] at hc
    subst hc
    refine ⟨hmetadata, ?_⟩
    cases hp : info.pMetadata with
    | none =>
      rw [hp] at hplace
      exact place_none hplace hbytes
    | some p =>
      rw [hp] at hplace
      obtain ⟨-, hend, htake⟩ := place_get hplace hbytes
      rw [Nat.zero_add] at hend
      exact ⟨hend, htake⟩
  apart i j info info' p p' hij hinfo hinfo' hp hp' := by
    obtain ⟨c, hc, hmetadata, hplace⟩ := filled_info hinfo
    obtain ⟨-, -, -, hplace'⟩ := filled_info hinfo'
    rw [hp] at hplace
    rw [hp'] at hplace'
    rw [hmetadata]
    exact place_lt hij hplace hplace' hc

end

section

variable {subgroups : Contents} {subgroup : UInt32 × List UInt8}

theorem subgroupBytes_length : (subgroupBytes subgroup).length = 5 + subgroup.2.length := by
  simp only [subgroupBytes, le32, length_append, length_cons, length_nil]

@[simp]
theorem Contents.bytes_cons : Contents.bytes (subgroup :: subgroups) =
    subgroupBytes subgroup ++ subgroups.bytes := List.flatMap_cons ..

@[simp]
theorem Contents.metadata_cons : Contents.metadata (subgroup :: subgroups) =
    subgroup.2 :: subgroups.metadata := rfl

@[simp]
theorem Contents.metadata_length : subgroups.metadata.length = subgroups.length := length_map ..

theorem Contents.bytes_length :
    subgroups.bytes.length = 5 * subgroups.length + subgroups.metadata.flatten.length := by
  induction subgroups with
  | nil => rfl
  | cons subgroup rest ih =>
    rw [Contents.bytes_cons, length_append, subgroupBytes_length, ih, Contents.metadata_cons,
      flatten_cons, length_append, length_cons]
    omega

end

section

variable {block : BisBlock} {num size : Nat} {supplied : List (List UInt8)}

namespace BisBlock.Holds

theorem get (h : block.Holds num size supplied) (hi : i < num) :
    ∃ info bytes, block.infos[i]? = some info ∧ supplied[i]? = some bytes ∧
      info.Leads block.area bytes := by
  have hinfo : i < block.infos.length := by rw [h.infos]; exact hi
  have hbytes : i < supplied.length := by rw [h.given]; exact hi
  have hget := getElem?_eq_getElem hinfo
  have hget' := getElem?_eq_getElem hbytes
  exact ⟨_, _, hget, hget', h.slice i _ _ hget hget'⟩

theorem lens (h : block.Holds num size supplied) :
    block.infos.map BisInfo.metadataLen = supplied.map List.length := by
  apply ext_getElem?
  intro i
  by_cases hi : i < num
  . obtain ⟨info, bytes, hinfo, hbytes, hleads⟩ := h.get hi
    rw [getElem?_map, getElem?_map, hinfo, hbytes, Option.map_some, Option.map_some,
      hleads.1]
  . have hinfo : block.infos.length ≤ i := by rw [h.infos]; omega
    have hbytes : supplied.length ≤ i := by rw [h.given]; omega
    rw [getElem?_map, getElem?_map, getElem?_eq_none hinfo,
      getElem?_eq_none hbytes]
    rfl

end BisBlock.Holds

theorem read_leads {info : BisInfo} {bytes : List UInt8} (h : info.Leads block.area bytes)
    (hne : bytes.length ≠ 0) : block.read info.pMetadata bytes.length = .ok bytes := by
  obtain ⟨-, hslice⟩ := h
  cases hp : info.pMetadata with
  | none =>
    rw [hp] at hslice
    rw [hslice] at hne
    exact absurd rfl hne
  | some p =>
    rw [hp] at hslice
    rw [BisBlock.read, if_pos hslice.1, hslice.2]

theorem genMetadata_leads {info : BisInfo} {bytes : List UInt8} (h : info.Leads block.area bytes) :
    genMetadata block info = .ok bytes := by
  rw [genMetadata, h.1]
  by_cases hne : 0 < bytes.length
  . rw [if_pos hne, read_leads h (by omega)]
  . rw [if_neg hne, eq_nil_of_length_eq_zero (show bytes.length = 0 by omega)]

theorem infoAt_eq (h : block.infos[i]? = some info) :
    infoAt (some block) i = .ok (block, info) := by
  simp only [infoAt, h]

theorem sameMetadataAt_ok (h : block.Holds num size supplied) (hi : i < num)
    (metadata : List UInt8) :
    ∃ same, sameMetadataAt (some block) i metadata = .ok same ∧
      (same = true → supplied[i]? = some metadata) := by
  obtain ⟨info, bytes, hinfo, hbytes, hleads⟩ := h.get hi
  simp only [sameMetadataAt, infoAt_eq hinfo, bind, Except.bind]
  by_cases hlen : info.metadataLen = metadata.length
  . rw [if_pos hlen]
    have hlen' : metadata.length = bytes.length := by rw [← hlen, hleads.1]
    by_cases hne : metadata.length ≠ 0
    . rw [if_pos hne, hlen', read_leads hleads (by omega)]
      refine ⟨_, rfl, fun hsame => ?_⟩
      rw [hbytes, eq_of_beq hsame]
    . have hnil : metadata = [] := eq_nil_of_length_eq_zero (by omega)
      have hnil' : bytes = [] := eq_nil_of_length_eq_zero (by omega)
      rw [if_neg hne]
      refine ⟨true, rfl, fun _ => ?_⟩
      rw [hbytes, hnil, hnil']
  . rw [if_neg hlen]
    exact ⟨false, rfl, fun hsame => by cases hsame⟩

theorem sameMetadata_ok (h : block.Holds num size supplied)
    (hi : i + metadata.length = num) :
    ∃ same, sameMetadata (some block) i metadata = .ok same ∧
      (same = true → metadata = supplied.drop i) := by
  induction metadata generalizing i with
  | nil =>
    refine ⟨true, rfl, fun _ => ?_⟩
    rw [drop_eq_nil_of_le (Nat.le_of_eq (by rw [h.given, ← hi]; rfl))]
  | cons c rest ih =>
    rw [length_cons] at hi
    obtain ⟨same, hsame, heq⟩ := sameMetadataAt_ok h (show i < num by omega) c
    simp only [sameMetadata, hsame, bind, Except.bind]
    cases same with
    | false =>
      exact ⟨false, rfl, fun hsame => by cases hsame⟩
    | true =>
      rw [if_pos rfl]
      obtain ⟨same, hsame, hrest⟩ := ih (show i + 1 + rest.length = num by omega)
      refine ⟨same, hsame, fun htrue => ?_⟩
      obtain ⟨hbound, hget⟩ := List.getElem?_eq_some_iff.mp (heq rfl)
      rw [List.drop_eq_getElem_cons hbound, hget, hrest htrue]

theorem withBisSync_info {bisSync : Nat → Option UInt32} {n i : Nat} {info : BisInfo}
    (h : (block.withBisSync n bisSync).infos[i]? = some info) :
    ∃ old, block.infos[i]? = some old ∧ info.metadataLen = old.metadataLen ∧
      info.pMetadata = old.pMetadata := by
  rw [BisBlock.withBisSync, getElem?_mapIdx, Option.map_eq_some_iff] at h
  obtain ⟨old, hold, rfl⟩ := h
  exact ⟨old, hold, rfl, rfl⟩

theorem withBisSync_holds (h : block.Holds num size supplied) (n : Nat)
    (bisSync : Nat → Option UInt32) : (block.withBisSync n bisSync).Holds num size supplied where
  allocated := h.allocated
  infos := by
    rw [BisBlock.withBisSync, length_mapIdx]
    exact h.infos
  area := h.area
  total := h.total
  given := h.given
  slice i info bytes hinfo hbytes := by
    obtain ⟨old, hold, hlen, hp⟩ := withBisSync_info hinfo
    have hleads := h.slice i old bytes hold hbytes
    rw [BisInfo.Leads, hlen, hp]
    exact hleads
  apart i j info info' p p' hij hinfo hinfo' hp hp' := by
    obtain ⟨old, hold, hlen, hpold⟩ := withBisSync_info hinfo
    obtain ⟨old', hold', -, hpold'⟩ := withBisSync_info hinfo'
    rw [hlen]
    rw [hpold] at hp
    rw [hpold'] at hp'
    exact h.apart i j old old' p p' hij hold hold' hp hp'

theorem contentsOf_eq
    (h : List.Forall₂ (fun info bytes => info.Leads block.area bytes) infos supplied) :
    contentsOf block infos = .ok ((infos.map BisInfo.bisSync).zip supplied) := by
  induction h with
  | nil => rfl
  | @cons info bytes infos supplied hleads _ ih =>
    have hread : genMetadata block info = .ok bytes := genMetadata_leads hleads
    simp only [contentsOf, hread, ih, bind, Except.bind]
    rfl

theorem BisBlock.Holds.forall₂ (h : block.Holds num size supplied) :
    List.Forall₂ (fun info bytes => info.Leads block.area bytes) block.infos supplied := by
  rw [forall₂_iff_get]
  refine ⟨h.infos.trans h.given.symm, fun i hinfo hbytes => ?_⟩
  exact h.slice i _ _ (getElem?_eq_getElem hinfo) (getElem?_eq_getElem hbytes)

def BisBlock.held (block : BisBlock) (supplied : List (List UInt8)) : Contents :=
  (block.infos.map BisInfo.bisSync).zip supplied

section

variable (h : block.Holds num size supplied)

include h

theorem BisBlock.Holds.held_length : (block.held supplied).length = num := by
  rw [BisBlock.held, length_zip, length_map, h.infos, h.given, Nat.min_self]

theorem BisBlock.Holds.held_metadata : (block.held supplied).metadata = supplied := by
  apply map_snd_zip
  exact Nat.le_of_eq (by rw [length_map, h.infos, h.given])

theorem BisBlock.Holds.contents_eq : block.contents = .ok (block.held supplied) :=
  contentsOf_eq h.forall₂

end

theorem drop_zip_cons {α β : Type} {l : List α} {l' : List β} {i : Nat} {a : α} {b : β}
    (ha : l[i]? = some a) (hb : l'[i]? = some b) :
    (l.zip l').drop i = (a, b) :: (l.zip l').drop (i + 1) := by
  have hzip : (l.zip l')[i]? = some (a, b) := List.getElem?_zip_eq_some.mpr ⟨ha, hb⟩
  obtain ⟨hbound, hget⟩ := List.getElem?_eq_some_iff.mp hzip
  rw [List.drop_eq_getElem_cons hbound, hget]

theorem genSubgroups_bytes (h : block.Holds num size supplied) {i n : Nat} (hi : i + n = num) :
    genSubgroups (some block) i n = .ok (Contents.bytes ((block.held supplied).drop i)) := by
  induction n generalizing i with
  | zero =>
    rw [drop_eq_nil_of_le]
    . rfl
    . rw [h.held_length]
      omega
  | succ n ih =>
    obtain ⟨info, bytes, hinfo, hbytes, hleads⟩ := h.get (show i < num by omega)
    have hrest := @ih (i + 1) (by omega)
    have hbis : (block.infos.map BisInfo.bisSync)[i]? = some info.bisSync := by
      rw [getElem?_map, hinfo]
      rfl
    rw [BisBlock.held, drop_zip_cons hbis hbytes, Contents.bytes_cons, ← BisBlock.held]
    simp only [genSubgroups, infoAt_eq hinfo, genMetadata_leads hleads, hrest, bind, Except.bind,
      pure, Except.pure, subgroupBytes, hleads.1]

end

end Brs
