import Earphone.BaseData.Built
import Earphone.BaseData.Fits
import Earphone.Lib.Table

/-!
This module contains the way of a BASE from its groups through the advertising data and back.
-/

namespace BaseData

open Scan Visit
open Ltv (octet octets byteAt_octet)
open Ascs (CodecCfg codecCfgNeed codecCfgFormat codecCfgInit leNum)

def Bis.bytes (bis : Bis) : List UInt8 :=
  [UInt8.ofNat bis.bisIndex, UInt8.ofNat bis.codecCfg.length] ++ bis.codecCfg

def BaseSubgroup.bytes (s : BaseSubgroup) : List UInt8 :=
  [UInt8.ofNat s.bises.length] ++ s.codecId.toList ++ record s.codecCfg.1 s.metadata.1 ++
    s.bises.flatMap Bis.bytes

theorem genBises_some (h : genBises bises out = some out') (hout : out.length ≤ baseDataMaxLen) :
    out' = out ++ bises.flatMap Bis.bytes ∧ out'.length ≤ baseDataMaxLen := by
  induction bises generalizing out with
  | nil =>
    cases h
    exact ⟨by simp, hout⟩
  | cons bis bises ih =>
    rw [genBises] at h
    split at h
    . cases h
    . next hfits =>
      obtain ⟨hbytes, hlength⟩ := ih h (by
        simp only [List.length_append, List.length_cons, List.length_nil]
        omega)
      refine ⟨?_, hlength⟩
      rw [hbytes]
      simp [Bis.bytes]

theorem UInt8_ofNat_mod (n : Nat) : UInt8.ofNat (n % 2 ^ 8) = UInt8.ofNat n := by
  apply UInt8.toNat_inj.mp
  simp

theorem genSubgroups_some (hb : Holds group b)
    (hn : i + n = b.subgroups.length)
    (h : genSubgroups group n i out = some out') (hout : out.length ≤ baseDataMaxLen) :
    out' = out ++ (b.subgroups.drop i).flatMap BaseSubgroup.bytes ∧
      out'.length ≤ baseDataMaxLen := by
  have hfew : 0 + b.subgroups.length ≤ 2 ^ 8 := by
    have := hb.few
    omega
  induction n generalizing i out with
  | zero =>
    cases h
    rw [List.drop_of_length_le (by omega)]
    exact ⟨by simp, hout⟩
  | succ n ih =>
    have hi : i < b.subgroups.length := by omega
    have hfind : baseDataFindSubgroup group i = some (b.subgroups[i].queued i) := by
      unfold baseDataFindSubgroup
      rw [hb.queue, find?_queueFrom (Nat.zero_le i) hfew, Nat.sub_zero,
        List.getElem?_eq_getElem hi]
      rfl
    rw [genSubgroups, hfind] at h
    dsimp only at h
    split at h
    . cases h
    . split at h
      . cases h
      . next hfits =>
        split at h
        . cases h
        . next out1 hbises =>
          have hid : (b.subgroups[i].queued i).codecId.length = 5 := by
            simp [BaseSubgroup.queued]
          obtain ⟨hbytes, hlength⟩ := genBises_some hbises (by
            simp only [List.length_append, List.length_cons, List.length_nil, hid]
            omega)
          obtain ⟨hrest, hlength'⟩ := ih (by omega) h hlength
          refine ⟨?_, hlength'⟩
          have hdrop : (b.subgroups.drop i).flatMap BaseSubgroup.bytes =
              b.subgroups[i].bytes ++ (b.subgroups.drop (i + 1)).flatMap BaseSubgroup.bytes := by
            rw [List.drop_eq_getElem_cons hi, List.flatMap_cons]
          have hnum : UInt8.ofNat (b.subgroups[i].queued i).numBis =
            UInt8.ofNat b.subgroups[i].bises.length := UInt8_ofNat_mod _
          rw [hrest, hbytes, hdrop, hnum]
          simp [BaseSubgroup.bytes, BaseSubgroup.queued]

theorem byteAt_mid (pre post : List UInt8) (b : UInt8) :
    byteAt (pre ++ b :: post) pre.length = .ok b.toNat := by
  unfold byteAt
  rw [List.getElem?_append_right (Nat.le_refl _), Nat.sub_self]
  rfl

theorem bytesAt_mid (pre l post : List UInt8) :
    bytesAt (pre ++ (l ++ post)) pre.length l.length = .ok l := by
  rw [bytesAt_le (by simp), List.drop_left, List.take_left]

theorem octet_mid (h : idx < l.length) :
    octet (pre ++ (l ++ post)) (pre.length + idx) = octet l idx := by
  unfold octet
  rw [List.getD_eq_getElem?_getD, List.getD_eq_getElem?_getD,
    List.getElem?_append_right (by omega), Nat.add_sub_cancel_left, List.getElem?_append_left h]

section

variable {bytes : List UInt8} {base len : Nat}

theorem Chain.le (h : Chain bytes base len idx idx') : idx ≤ idx' := by
  induction h with
  | here => exact Nat.le_refl _
  | next _ _ ih => omega

theorem Chain.rest (h : Chain bytes base len idx mid)
    (hlast : Chain bytes base len idx last) (hle : mid ≤ last) : Chain bytes base len mid last := by
  induction h with
  | here => exact hlast
  | next _ hrest ih =>
    cases hlast with
    | here =>
      have := hrest.le
      omega
    | next _ hlast => exact ih hlast hle

theorem chain_mid :
    Chain (pre ++ (l ++ post)) pre.length l.length idx idx' ↔ Chain l 0 l.length idx idx' := by
  constructor
  . intro h
    induction h with
    | here => exact .here _
    | next hlt _ ih =>
      refine .next hlt ?_
      rw [octet_mid hlt] at ih
      rw [Nat.zero_add]
      exact ih
  . intro h
    induction h with
    | here => exact .here _
    | next hlt _ ih =>
      refine .next hlt ?_
      rw [octet_mid hlt]
      rw [Nat.zero_add] at ih
      exact ih

theorem chain_of_reached (h : Ltv.Reached codecCfgFormat bytes base len idx cfg idx' cfg') :
    Chain bytes base len idx idx' := by
  induction h with
  | here => exact .here _
  | next hlt _ _ _ ih =>
    refine .next hlt ?_
    rw [Nat.add_comm (octet _ _) 1, ← Nat.add_assoc]
    exact ih

theorem codecCfgNeed_ok (h : codecCfgNeed type length = .ok n) : n = 0 ∨ n + 1 = length := by
  unfold codecCfgNeed at h
  split_ifs at h <;> cases h <;> omega

def OpenEnd (l : List UInt8) : Prop :=
  ∃ idx, Chain l 0 l.length 0 idx ∧ idx + 1 = l.length ∧ octet l idx = 0

theorem cfgFits_mid {pre l post : List UInt8} (hend : post ≠ [] ∨ ¬OpenEnd l) :
    CfgFits (pre ++ (l ++ post)) pre.length l.length := by
  have hlength : (pre ++ (l ++ post)).length = pre.length + l.length + post.length := by
    simp [Nat.add_assoc]
  refine fun _ => ⟨fun idx _ hlt => by omega, fun hwhole => ?_⟩
  intro idx cfg hreached hlt
  have hat := chain_of_reached hreached
  have hrest := hat.rest hwhole (Nat.le_of_lt hlt)
  have hnext : idx + (octet (pre ++ (l ++ post)) (pre.length + idx) + 1) ≤ l.length := by
    cases hrest with
    | here => omega
    | next _ hrest => exact hrest.le
  have hroom : pre.length + idx + 2 ≤ (pre ++ (l ++ post)).length := by
    by_cases hopen : idx + 1 = l.length
    . obtain hpost | hopenEnd := hend
      . have := List.length_pos_iff.mpr hpost
        omega
      . refine absurd ⟨idx, chain_mid.mp hat, hopen, ?_⟩ hopenEnd
        rw [octet_mid hlt] at hnext
        omega
    . omega
  refine ⟨hroom, fun n hneed => ?_⟩
  obtain hzero | hn := codecCfgNeed_ok hneed
  . rw [hzero]
    exact hroom
  . omega

end

section

variable {pre post : List UInt8}

theorem checkFormat_chain (h : checkFormat l = true) :
    l.length ≠ 0 → Chain l 0 l.length 0 l.length := by
  intro hlen
  unfold checkFormat at h
  rw [decide_eq_false hlen, Bool.false_or, decide_eq_true_eq] at h
  exact (ltvUtilCheckFormat_taken hlen h).mp rfl

theorem readCodecCfg_mid {l : List UInt8} (h : checkFormat l = true)
    (hend : post ≠ [] ∨ ¬OpenEnd l) :
    ∃ cfg, readCodecCfg (pre ++ (l ++ post)) pre.length l.length = .ok (some cfg) := by
  obtain ⟨r, hr⟩ := readCodecCfg_ok.mpr (@cfgFits_mid pre l post hend)
  have htaken : CfgTaken (pre ++ (l ++ post)) pre.length l.length := fun hlen =>
    chain_mid.mpr (checkFormat_chain h hlen)
  have hsome := (readCodecCfg_taken hr).mpr htaken
  cases r with
  | none => cases hsome
  | some cfg => exact ⟨cfg, hr⟩

theorem readMetadata_mid {l : List UInt8} (h : checkFormat l = true) (i : Nat) :
    readMetadata (fun _ => true) (pre ++ (l ++ post)) i pre.length l.length = .ok (.ok l) := by
  unfold readMetadata
  split
  . next hlen =>
    rw [List.length_eq_zero_iff.mp hlen]
    rfl
  . next hlen =>
    obtain ⟨taken, htaken⟩ := (ltvUtilCheckFormat_ok hlen).mpr
      (show FormatFits (pre ++ (l ++ post)) pre.length l.length from fun idx _ hlt => by
        simp only [List.length_append]
        omega)
    have htrue := (ltvUtilCheckFormat_taken hlen htaken).mpr
      (chain_mid.mpr (checkFormat_chain h hlen))
    rw [htaken, htrue]
    simp only [bind, Except.bind, pure, Except.pure, bytesAt_mid, if_pos]

def BisParam.view (bis : BisParam) : Nat × List UInt8 := (bis.bisIndex, bis.codecId)

theorem toNat_ofNat (h : n < 2 ^ 8) : (UInt8.ofNat n).toNat = n := by
  rw [UInt8.toNat_ofNat', Nat.mod_eq_of_lt h]

theorem readBises_mid {bytes : List UInt8} {bises : List Bis} (codecId : List UInt8)
    (level2 : CodecCfg) (i : Nat) {numBis j : Nat} (hj : j + bises.length ≤ numBis)
    (hbytes : bytes = pre ++ (bises.flatMap Bis.bytes ++ post))
    (hok : ∀ bis ∈ bises, bis.bisIndex < 2 ^ 8 ∧ bis.codecCfg.length < 2 ^ 8 ∧
      checkFormat bis.codecCfg = true)
    (hend : post ≠ [] ∨ ∀ bis ∈ bises.getLast?, ¬OpenEnd bis.codecCfg) :
    ∃ params, readBises bytes codecId level2 i numBis bises.length j pre.length =
        .ok (.ok (params, (pre ++ bises.flatMap Bis.bytes).length)) ∧
      params.map BisParam.view = bises.map fun bis => (bis.bisIndex, codecId) := by
  induction bises generalizing pre j with
  | nil => exact ⟨[], by simp [readBises]; rfl, rfl⟩
  | cons bis bises ih =>
    obtain ⟨hidx, hlen, hcheck⟩ := hok bis List.mem_cons_self
    rw [List.length_cons] at hj
    have hidxAt : byteAt bytes pre.length = .ok bis.bisIndex := by
      have := byteAt_mid pre (UInt8.ofNat bis.codecCfg.length ::
        (bis.codecCfg ++ (bises.flatMap Bis.bytes ++ post))) (UInt8.ofNat bis.bisIndex)
      rw [toNat_ofNat hidx] at this
      rw [← this, hbytes]
      simp [Bis.bytes]
    have hlenAt : byteAt bytes (pre.length + 1) = .ok bis.codecCfg.length := by
      have := byteAt_mid (pre ++ [UInt8.ofNat bis.bisIndex])
        (bis.codecCfg ++ (bises.flatMap Bis.bytes ++ post)) (UInt8.ofNat bis.codecCfg.length)
      rw [toNat_ofNat hlen, List.length_append, List.length_singleton] at this
      rw [← this, hbytes]
      simp [Bis.bytes]
    have hendBis : bises.flatMap Bis.bytes ++ post ≠ [] ∨ ¬OpenEnd bis.codecCfg := by
      cases bises with
      | nil =>
        obtain hpost | hlast := hend
        . exact .inl hpost
        . exact .inr (hlast bis rfl)
      | cons bis' bises => exact .inl (by simp [Bis.bytes])
    have hendRest : post ≠ [] ∨ ∀ bis ∈ bises.getLast?, ¬OpenEnd bis.codecCfg := by
      refine hend.imp_right fun hlast bis' hbis' => hlast bis' ?_
      rw [List.getLast?_cons, Option.mem_def.mp hbis']
      rfl
    obtain ⟨level3, hcfg⟩ := @readCodecCfg_mid
      (pre ++ [UInt8.ofNat bis.bisIndex, UInt8.ofNat bis.codecCfg.length])
      (bises.flatMap Bis.bytes ++ post) bis.codecCfg hcheck hendBis
    have hcfgAt : readCodecCfg bytes (pre.length + 2) bis.codecCfg.length = .ok (some level3) := by
      rw [← hcfg, hbytes]
      simp [Bis.bytes]
    obtain ⟨params, hread, hview⟩ := @ih (pre ++ bis.bytes) (j + 1) (by omega)
      (by rw [hbytes]; simp) (fun bis hbis => hok bis (List.mem_cons_of_mem _ hbis)) hendRest
    have hnext : (pre ++ bis.bytes).length = pre.length + 2 + bis.codecCfg.length := by
      simp [Bis.bytes]
      omega
    rw [hnext] at hread
    refine ⟨{ subgroupIdx := i
              bisIndex := bis.bisIndex
              codecId := codecId
              bisCodecCfg := mergeCodecCfg level2 level3 } :: params, ?_, ?_⟩
    . rw [List.length_cons, readBises, show slotAt j numBis = .ok () from if_pos (by omega),
        hidxAt, hlenAt]
      simp only [bind, Except.bind, pure, Except.pure, hcfgAt, hread]
      simp
    . rw [List.map_cons, List.map_cons, hview]
      rfl

def SubgroupParam.view (subgroup : SubgroupParam) : List UInt8 × List (Nat × List UInt8) :=
  (subgroup.metadata, subgroup.bisParam.map BisParam.view)

def BaseSubgroup.view (s : BaseSubgroup) : List UInt8 × List (Nat × List UInt8) :=
  (s.metadata.1, s.bises.map fun bis => (bis.bisIndex, s.codecId.toList))

theorem readSubgroup_mid {bytes : List UInt8} {s : BaseSubgroup} (i : Nat)
    (hbytes : bytes = pre ++ (s.bytes ++ post)) (hok : s.Ok) (hfew : s.bises.length < 2 ^ 8)
    (hend : post ≠ [] ∨ ∀ bis ∈ s.bises.getLast?, ¬OpenEnd bis.codecCfg) :
    ∃ param, readSubgroup (fun _ => true) bytes i pre.length =
        .ok (.ok (param, (pre ++ s.bytes).length)) ∧ param.view = s.view := by
  have hid : s.codecId.toList.length = 5 := by simp
  -- each field is read at the length of what stands in front of it
  have hparts : bytes = pre ++ UInt8.ofNat s.bises.length :: (s.codecId.toList ++
      (UInt8.ofNat s.codecCfg.1.length :: (s.codecCfg.1 ++
        (UInt8.ofNat s.metadata.1.length :: (s.metadata.1 ++
          (s.bises.flatMap Bis.bytes ++ post)))))) := by
    rw [hbytes]
    simp [BaseSubgroup.bytes, record]
  have hnum : byteAt bytes pre.length = .ok s.bises.length := by
    rw [hparts, byteAt_mid, toNat_ofNat hfew]
  have hcodecId : bytesAt bytes (pre.length + 1) codecIdLen = .ok s.codecId.toList := by
    have := bytesAt_mid (pre ++ [UInt8.ofNat s.bises.length]) s.codecId.toList
      (UInt8.ofNat s.codecCfg.1.length :: (s.codecCfg.1 ++ (UInt8.ofNat s.metadata.1.length ::
        (s.metadata.1 ++ (s.bises.flatMap Bis.bytes ++ post)))))
    rw [List.length_append, List.length_singleton, hid] at this
    rw [← this, hparts]
    simp [codecIdLen]
  have hcfgLen : byteAt bytes (pre.length + 6) = .ok s.codecCfg.1.length := by
    have := byteAt_mid (pre ++ [UInt8.ofNat s.bises.length] ++ s.codecId.toList)
      (s.codecCfg.1 ++ (UInt8.ofNat s.metadata.1.length ::
        (s.metadata.1 ++ (s.bises.flatMap Bis.bytes ++ post)))) (UInt8.ofNat s.codecCfg.1.length)
    rw [toNat_ofNat s.codecCfg.2, List.length_append, List.length_append, List.length_singleton,
      hid] at this
    rw [← this, hparts]
    simp
  have hlength : (pre ++ [UInt8.ofNat s.bises.length] ++ s.codecId.toList ++
      [UInt8.ofNat s.codecCfg.1.length]).length = pre.length + 7 := by
    simp
  have hmetadataLen : byteAt bytes (pre.length + 7 + s.codecCfg.1.length) =
      .ok s.metadata.1.length := by
    have := byteAt_mid (pre ++ [UInt8.ofNat s.bises.length] ++ s.codecId.toList ++
      [UInt8.ofNat s.codecCfg.1.length] ++ s.codecCfg.1)
      (s.metadata.1 ++ (s.bises.flatMap Bis.bytes ++ post)) (UInt8.ofNat s.metadata.1.length)
    rw [toNat_ofNat s.metadata.2, List.length_append, hlength] at this
    rw [← this, hparts]
    simp
  obtain ⟨level2, hcfg⟩ := @readCodecCfg_mid (pre ++ [UInt8.ofNat s.bises.length] ++
    s.codecId.toList ++ [UInt8.ofNat s.codecCfg.1.length])
    (UInt8.ofNat s.metadata.1.length :: (s.metadata.1 ++ (s.bises.flatMap Bis.bytes ++ post)))
    s.codecCfg.1 hok.codecCfg (.inl (by simp))
  have hcfgAt : readCodecCfg bytes (pre.length + 7) s.codecCfg.1.length = .ok (some level2) := by
    rw [← hcfg, hlength, hparts]
    simp
  have hmetadata : readMetadata (fun _ => true) bytes i (pre.length + 8 + s.codecCfg.1.length)
      s.metadata.1.length = .ok (.ok s.metadata.1) := by
    have := @readMetadata_mid (pre ++ [UInt8.ofNat s.bises.length] ++ s.codecId.toList ++
      [UInt8.ofNat s.codecCfg.1.length] ++ s.codecCfg.1 ++ [UInt8.ofNat s.metadata.1.length])
      (s.bises.flatMap Bis.bytes ++ post) s.metadata.1 hok.metadata i
    rw [List.length_append, List.length_append, hlength, List.length_singleton,
      show pre.length + 7 + s.codecCfg.1.length + 1 = pre.length + 8 + s.codecCfg.1.length by omega]
      at this
    rw [← this, hparts]
    simp
  obtain ⟨params, hread, hview⟩ := @readBises_mid (pre ++ [UInt8.ofNat s.bises.length] ++
    s.codecId.toList ++ record s.codecCfg.1 s.metadata.1) post bytes s.bises s.codecId.toList level2
    i s.bises.length 0 (by omega) (by rw [hparts]; simp [record]) hok.bises hend
  have hstart : (pre ++ [UInt8.ofNat s.bises.length] ++ s.codecId.toList ++
      record s.codecCfg.1 s.metadata.1).length =
        pre.length + 8 + s.codecCfg.1.length + s.metadata.1.length := by
    simp [record_length]
    omega
  rw [hstart] at hread
  refine ⟨{ subgroupIdx := i
            numBis := s.bises.length
            bisArray := params.foldl (fun array bis => array ||| bisBit bis.bisIndex) 0
            metadata := s.metadata.1
            bisParam := params }, ?_, ?_⟩
  . unfold readSubgroup
    simp only [bind, Except.bind, pure, Except.pure, hnum, hcodecId, hcfgLen, hmetadataLen, hcfgAt,
      hmetadata, hread, if_pos]
    simp [BaseSubgroup.bytes]
  . unfold SubgroupParam.view BaseSubgroup.view
    rw [hview]

theorem readSubgroups_mid {bytes : List UInt8} {subgroups : List BaseSubgroup}
    {numSubgroups i : Nat}
    (hi : i + subgroups.length ≤ numSubgroups)
    (hbytes : bytes = pre ++ (subgroups.flatMap BaseSubgroup.bytes ++ post))
    (hok : ∀ s ∈ subgroups, s.Ok ∧ s.bises.length < 2 ^ 8)
    (hend : post ≠ [] ∨ ∀ s ∈ subgroups.getLast?, ∀ bis ∈ s.bises.getLast?, ¬OpenEnd bis.codecCfg) :
    ∃ params, readSubgroups (fun _ => true) bytes numSubgroups subgroups.length i pre.length =
        .ok (.ok params) ∧ params.map SubgroupParam.view = subgroups.map BaseSubgroup.view := by
  induction subgroups generalizing pre i with
  | nil => exact ⟨[], rfl, rfl⟩
  | cons s subgroups ih =>
    obtain ⟨hsok, hfew⟩ := hok s List.mem_cons_self
    rw [List.length_cons] at hi
    -- behind every subgroup but the last one stands a further one
    have hendSub : subgroups.flatMap BaseSubgroup.bytes ++ post ≠ [] ∨
        ∀ bis ∈ s.bises.getLast?, ¬OpenEnd bis.codecCfg := by
      cases subgroups with
      | nil =>
        obtain hpost | hlast := hend
        . exact .inl hpost
        . exact .inr (hlast s rfl)
      | cons s' subgroups => exact .inl (by simp [BaseSubgroup.bytes])
    have hendRest : post ≠ [] ∨
        ∀ s ∈ subgroups.getLast?, ∀ bis ∈ s.bises.getLast?, ¬OpenEnd bis.codecCfg := by
      refine hend.imp_right fun hlast s' hs' => hlast s' ?_
      rw [List.getLast?_cons, Option.mem_def.mp hs']
      rfl
    obtain ⟨param, hread, hview⟩ := @readSubgroup_mid pre
      (subgroups.flatMap BaseSubgroup.bytes ++ post) bytes s i (by rw [hbytes]; simp) hsok hfew
      hendSub
    obtain ⟨params, hrest, hviews⟩ := @ih (pre ++ s.bytes) (i + 1) (by omega)
      (by rw [hbytes]; simp) (fun s hs => hok s (List.mem_cons_of_mem _ hs)) hendRest
    refine ⟨param :: params, ?_, by rw [List.map_cons, List.map_cons, hview, hviews]⟩
    rw [List.length_cons, readSubgroups, show slotAt i numSubgroups = .ok () from if_pos (by omega)]
    simp only [bind, Except.bind, pure, Except.pure, hread, hrest]

end

def BaseGroup.OpenEnd (b : BaseGroup) : Prop :=
  ∃ s ∈ b.subgroups.getLast?, ∃ bis ∈ s.bises.getLast?, BaseData.OpenEnd bis.codecCfg

structure RoundTrip (b : BaseGroup) (data : List UInt8) (len : Nat) : Prop where
  buffer : data.length = baseDataMaxLen
  fits : len ≤ baseDataMaxLen
  total : data[0]?.map UInt8.toNat = some (len - 1)
  parsed : ∃ mapping,
    (∀ fuel, baseDataParseData (fun _ => true) len data (fuel + 2) = .ok (.ok mapping)) ∧
    mapping.presentationDelay = b.presentationDelay % 2 ^ 24 ∧
    mapping.subgroups.map SubgroupParam.view = b.subgroups.map BaseSubgroup.view

theorem leNum_le24 (n : Nat) : leNum (le24 n) = n % 2 ^ 24 := by
  simp only [le24, leNum, UInt8.toNat_ofNat', Nat.shiftRight_eq_div_pow]
  omega

theorem bises_length_le (bises : List Bis) : bises.length ≤ (bises.flatMap Bis.bytes).length := by
  induction bises with
  | nil => exact Nat.le_refl _
  | cons bis bises ih =>
    rw [List.flatMap_cons, List.length_append, List.length_cons]
    have : 1 ≤ bis.bytes.length := by simp [Bis.bytes]
    omega

theorem bises_length_lt {subgroups : List BaseSubgroup} {s : BaseSubgroup} (hs : s ∈ subgroups) :
    s.bises.length < (subgroups.flatMap BaseSubgroup.bytes).length := by
  induction subgroups with
  | nil => cases hs
  | cons s' subgroups ih =>
    rw [List.flatMap_cons, List.length_append]
    obtain rfl | hs := List.mem_cons.mp hs
    . have := bises_length_le s.bises
      have : (s.bises.flatMap Bis.bytes).length < s.bytes.length := by
        simp only [BaseSubgroup.bytes, List.length_append, List.length_singleton]
        omega
      omega
    . have := ih hs
      omega

theorem baseDataCheckData_gen (hpos : 0 < len) (hlen : len ≤ baseDataMaxLen)
    (rest : List UInt8) (fuel : Nat) :
    baseDataCheckData len (UInt8.ofNat (len - 1) :: UInt8.ofNat gapAdtypeServiceData ::
      (uuidBytes ++ rest)) (fuel + 2) = .ok (.ok 0) := by
  have hlength : (UInt8.ofNat (len - 1)).toNat = len - 1 := toNat_ofNat (by
    simp only [baseDataMaxLen] at hlen
    omega)
  have hvisit : checkVisit (UInt8.ofNat (len - 1) :: UInt8.ofNat gapAdtypeServiceData ::
      (uuidBytes ++ rest)) 0 none = .ok (.ok (len, some 0)) := by
    have hnext : (0 + (len - 1 + 1)) % 2 ^ 16 = len := by
      simp only [baseDataMaxLen] at hlen
      omega
    unfold checkVisit
    rw [show byteAt (UInt8.ofNat (len - 1) :: UInt8.ofNat gapAdtypeServiceData ::
        (uuidBytes ++ rest)) 0 = .ok (len - 1) from congrArg Except.ok hlength,
      show byteAt (UInt8.ofNat (len - 1) :: UInt8.ofNat gapAdtypeServiceData ::
        (uuidBytes ++ rest)) (0 + 1) = .ok gapAdtypeServiceData from rfl,
      show bytesAt (UInt8.ofNat (len - 1) :: UInt8.ofNat gapAdtypeServiceData ::
        (uuidBytes ++ rest)) (0 + 2) 2 = .ok uuidBytes from
          bytesAt_mid [UInt8.ofNat (len - 1), UInt8.ofNat gapAdtypeServiceData] uuidBytes rest]
    simp only [bind, Except.bind, pure, Except.pure, hnext]
    rfl
  unfold baseDataCheckData
  rw [if_neg (by omega), loop_next hpos hvisit, loop_at_end (Nat.le_refl _)]
  simp [bind, Except.bind, pure, Except.pure]

theorem readBase_gen (total : UInt8) (presentationDelay : Nat) {subgroups : List BaseSubgroup}
    {zeros : List UInt8} (hlt : subgroups.length < 2 ^ 8)
    (hok : ∀ s ∈ subgroups, s.Ok ∧ s.bises.length < 2 ^ 8)
    (hend : zeros ≠ [] ∨
      ∀ s ∈ subgroups.getLast?, ∀ bis ∈ s.bises.getLast?, ¬OpenEnd bis.codecCfg) :
    ∃ mapping, readBase (fun _ => true) (total :: UInt8.ofNat gapAdtypeServiceData :: (uuidBytes ++
        (le24 presentationDelay ++ (UInt8.ofNat subgroups.length ::
          (subgroups.flatMap BaseSubgroup.bytes ++ zeros))))) 0 = .ok (.ok mapping) ∧
      mapping.presentationDelay = presentationDelay % 2 ^ 24 ∧
      mapping.subgroups.map SubgroupParam.view = subgroups.map BaseSubgroup.view := by
  obtain ⟨params, hread, hviews⟩ := @readSubgroups_mid
    ([total, UInt8.ofNat gapAdtypeServiceData] ++ uuidBytes ++ le24 presentationDelay ++
      [UInt8.ofNat subgroups.length]) zeros _ subgroups subgroups.length 0 (by omega) rfl hok hend
  have hdelay := bytesAt_mid ([total, UInt8.ofNat gapAdtypeServiceData] ++ uuidBytes)
    (le24 presentationDelay)
    (UInt8.ofNat subgroups.length :: (subgroups.flatMap BaseSubgroup.bytes ++ zeros))
  have hcount := byteAt_mid ([total, UInt8.ofNat gapAdtypeServiceData] ++ uuidBytes ++
    le24 presentationDelay) (subgroups.flatMap BaseSubgroup.bytes ++ zeros)
    (UInt8.ofNat subgroups.length)
  rw [toNat_ofNat hlt] at hcount
  -- the positions are numbers in the code, and lengths of what was written here
  generalize hdata : total :: UInt8.ofNat gapAdtypeServiceData :: (uuidBytes ++
    (le24 presentationDelay ++ (UInt8.ofNat subgroups.length ::
      (subgroups.flatMap BaseSubgroup.bytes ++ zeros)))) = data
  have hdelay : bytesAt data (0 + 4) 3 = .ok (le24 presentationDelay) := by
    rw [← hdata]
    exact hdelay
  have hcount : byteAt data (0 + 7) = .ok subgroups.length := by
    rw [← hdata]
    exact hcount
  have hread : readSubgroups (fun _ => true) data subgroups.length subgroups.length 0 (0 + 8) =
      .ok (.ok params) := by
    rw [← hdata]
    exact hread
  refine ⟨{ numBis := (params.map SubgroupParam.numBis).sum % 2 ^ 8
            numSubgroups := subgroups.length
            presentationDelay := leNum (le24 presentationDelay)
            subgroups := params }, ?_, leNum_le24 _, hviews⟩
  unfold readBase
  simp only [bind, Except.bind, pure, Except.pure, if_pos, hdelay, hcount, hread]

theorem holds_of_mem (h : Built w) (hb : b ∈ w.base)
    (hfind : baseDataFindGroup b.groupIdx w.db = some group) : Holds group b := by
  obtain ⟨b', hb', hholds⟩ := holds_find h.holds hfind
  have hmem := List.mem_of_find?_eq_some hb'
  have hidx : b'.groupIdx = b.groupIdx := by simpa using List.find?_some hb'
  rw [← Table.eq_of_key_eq h.nodup hmem hb hidx]
  exact hholds

theorem roundTrip_of_holds {group : Group} {b : BaseGroup} (hb : Holds group b)
    (hnum : group.numSubgroups ≠ 0) {out : List UInt8}
    (hgen : genSubgroups group group.numSubgroups 0
      ([0, UInt8.ofNat gapAdtypeServiceData] ++ uuidBytes ++ le24 group.presentationDelay ++
        [UInt8.ofNat group.numSubgroups]) = some out)
    (hend : out.length < baseDataMaxLen ∨ ¬b.OpenEnd) :
    RoundTrip b (UInt8.ofNat (out.length - 1) :: out.tail ++
      List.replicate (baseDataMaxLen - out.length) 0) out.length := by
  have hfew := hb.few
  have hcount : group.numSubgroups = b.subgroups.length := by
    have := hb.numSubgroups
    omega
  have hlt : b.subgroups.length < 2 ^ 8 := by
    have := hb.numSubgroups
    omega
  -- what was generated is the bytes of what was built
  obtain ⟨hout, hlen⟩ := genSubgroups_some hb (by rw [hcount, Nat.zero_add]) hgen
    (by simp [uuidBytes, le24, baseDataMaxLen])
  rw [List.drop_zero] at hout
  have hok : ∀ s ∈ b.subgroups, s.Ok ∧ s.bises.length < 2 ^ 8 := by
    intro s hs
    refine ⟨hb.ok s hs, ?_⟩
    have := bises_length_lt hs
    rw [hout, List.length_append] at hlen
    simp only [baseDataMaxLen] at hlen
    omega
  have hpos : 0 < out.length := by
    rw [hout]
    simp
  -- the zeros behind the data are what an empty last structure is read from
  have hend : List.replicate (baseDataMaxLen - out.length) (0 : UInt8) ≠ [] ∨
      ∀ s ∈ b.subgroups.getLast?, ∀ bis ∈ s.bises.getLast?, ¬OpenEnd bis.codecCfg := by
    refine hend.imp (fun hlt => ?_) fun hclosed s hs bis hbis hopen =>
      hclosed ⟨s, hs, bis, hbis, hopen⟩
    rw [Ne, List.replicate_eq_nil_iff]
    omega
  generalize hzeros : List.replicate (baseDataMaxLen - out.length) (0 : UInt8) = zeros at hend
  have hdata : UInt8.ofNat (out.length - 1) :: out.tail ++ zeros =
      UInt8.ofNat (out.length - 1) :: UInt8.ofNat gapAdtypeServiceData :: (uuidBytes ++
        (le24 b.presentationDelay ++ (UInt8.ofNat b.subgroups.length ::
          (b.subgroups.flatMap BaseSubgroup.bytes ++ zeros)))) := by
    rw [hb.presentationDelay, hcount] at hout
    have htail : out.tail = UInt8.ofNat gapAdtypeServiceData :: (uuidBytes ++
        (le24 b.presentationDelay ++ (UInt8.ofNat b.subgroups.length ::
          b.subgroups.flatMap BaseSubgroup.bytes))) := by
      rw [hout]
      simp
    rw [htail]
    simp
  have hlength : (UInt8.ofNat (out.length - 1) :: out.tail ++ zeros).length = baseDataMaxLen := by
    rw [← hzeros, List.length_append, List.length_cons, List.length_tail, List.length_replicate]
    omega
  have htotal : (UInt8.ofNat (out.length - 1)).toNat = out.length - 1 := toNat_ofNat (by
    simp only [baseDataMaxLen] at hlen
    omega)
  rw [hdata] at hlength ⊢
  obtain ⟨mapping, hbase, hdelay, hviews⟩ := readBase_gen (UInt8.ofNat (out.length - 1))
    b.presentationDelay hlt hok hend
  refine ⟨hlength, hlen, congrArg some htotal, mapping, fun fuel => ?_, hdelay, hviews⟩
  unfold baseDataParseData
  rw [baseDataCheckData_gen hpos hlen]
  exact hbase

theorem base_roundTrip {events : List Event}
    (hok : Run.Along World.step World.Meets World.initial events) {b : BaseGroup}
    (hb : b ∈ (Run.exec World.step World.initial events).base) {memory : Bool} {data : List UInt8}
    {len : Nat}
    (hgen : baseDataGenPaData memory b.groupIdx (Run.exec World.step World.initial events).db =
      some (data, len))
    (hend : len < baseDataMaxLen ∨ ¬b.OpenEnd) : RoundTrip b data len := by
  have hbuilt := built_run hok
  generalize Run.exec World.step World.initial events = w at hbuilt hb hgen
  unfold baseDataGenPaData at hgen
  split at hgen
  . split at hgen
    . cases hgen
    . next group hfind =>
      split at hgen
      . cases hgen
      . next hnum =>
        split at hgen
        . cases hgen
        . next out hout =>
          cases hgen
          exact roundTrip_of_holds (holds_of_mem hbuilt hb hfind) hnum hout hend
  . cases hgen

def lc3Id : Vector UInt8 5 := ⟨#[6, 0, 0, 0, 0], rfl⟩

def stereo : List Event :=
  [.addGroup true 40000,
    .addSubgroup true 0 lc3Id ⟨[2, 1, 8], by decide⟩ ⟨[3, 2, 4, 0], by decide⟩,
    .addBis true 0 0 ⟨[5, 3, 1, 0, 0, 0], by decide⟩,
    .addBis true 0 0 ⟨[5, 3, 2, 0, 0, 0], by decide⟩]

theorem base_roundTrip_stereo :
    RoundTrip
      ⟨0, 40000, [⟨lc3Id, ⟨[2, 1, 8], by decide⟩, ⟨[3, 2, 4, 0], by decide⟩,
        [⟨1, [5, 3, 1, 0, 0, 0]⟩, ⟨2, [5, 3, 2, 0, 0, 0]⟩]⟩]⟩
      ([0x26, 0x16, 0x51, 0x18, 0x40, 0x9C, 0x00, 1, 2, 6, 0, 0, 0, 0, 3, 2, 1, 8, 4, 3, 2, 4, 0,
        1, 6, 5, 3, 1, 0, 0, 0, 2, 6, 5, 3, 2, 0, 0, 0] ++ List.replicate 217 0) 39 :=
  @base_roundTrip stereo (by decide) _ (by decide) true _ _ rfl (.inl (by decide))

def longLtv : Ltv8 := ⟨0x7F :: List.replicate 127 0, by simp⟩

def wrapped : List Event :=
  [.addGroup true 40000, .addSubgroup true 0 lc3Id longLtv longLtv,
    .addBis true 0 0 ⟨[], by decide⟩]

def wrappedData : List UInt8 :=
  [0x11, 0x16, 0x51, 0x18, 0x40, 0x9C, 0x00, 1, 1, 6, 0, 0, 0, 0, 0x80, 0x7F, 1, 0] ++
    List.replicate 238 0

def wrappedGroup : BaseGroup := ⟨0, 40000, [⟨lc3Id, longLtv, longLtv, [⟨1, []⟩]⟩]⟩

set_option maxRecDepth 4096 in
theorem wrapped_base : (Run.exec World.step World.initial wrapped).base = [wrappedGroup] := rfl

set_option maxRecDepth 4096 in
theorem wrapped_gen :
    baseDataGenPaData true 0 (Run.exec World.step World.initial wrapped).db =
      some (wrappedData, 18) := rfl

set_option maxRecDepth 4096 in
theorem wrapped_parse : ∃ mapping,
    baseDataParseData (fun _ => true) 18 wrappedData 2 = .ok (.ok mapping) ∧
      mapping.subgroups.map SubgroupParam.view = [([], [(0, lc3Id.toList)])] := ⟨_, rfl, rfl⟩

theorem not_base_roundTrip :
    ¬∀ (events : List Event) (b : BaseGroup) (data : List UInt8) (len : Nat),
      b ∈ (Run.exec World.step World.initial events).base →
      baseDataGenPaData true b.groupIdx (Run.exec World.step World.initial events).db =
        some (data, len) →
      RoundTrip b data len := by
  intro h
  obtain ⟨mapping, hparse, -, hviews⟩ := (h wrapped wrappedGroup wrappedData 18
    (by rw [wrapped_base]; exact List.mem_singleton_self _) wrapped_gen).parsed
  obtain ⟨mapping', hparse', hviews'⟩ := wrapped_parse
  cases (hparse 0).symm.trans hparse'
  rw [hviews'] at hviews
  cases hviews

end BaseData
