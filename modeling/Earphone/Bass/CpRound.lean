import Earphone.Bass.Cp

namespace Brs

open Scan Slices
open List (append_assoc append_nil drop_append drop_eq_nil_of_le drop_zero
  eq_nil_of_length_eq_zero flatten_cons foldlM_cons foldlM_nil forall_mem_cons
  getElem?_append_right getElem_append_left getElem_append_right length_append length_cons
  length_drop length_nil length_replicate map_cons map_nil nil_append)
open Bass (PaSyncState PaSync BigEncryptionState)

def Contents.Short (subgroups : Contents) : Prop := ∀ subgroup ∈ subgroups, subgroup.2.length < 256

section

variable {pre l : List UInt8} {i n : Nat}

theorem readAt_pre : readAt (pre ++ l) (pre.length + i) = readAt l i := by
  unfold readAt
  rw [getElem?_append_right (Nat.le_add_right ..), Nat.add_sub_cancel_left]

theorem readArray_pre : readArray n (pre ++ l) (pre.length + i) = readArray n l i := by
  unfold readArray
  by_cases h : i + n ≤ l.length
  . rw [dif_pos h, dif_pos (by rw [length_append]; omega)]
    congr
    funext k
    simp [getElem_append_right, Nat.add_assoc]
  . rw [dif_neg h, dif_neg (by rw [length_append]; omega)]

theorem bytesAt_pre : bytesAt (pre ++ l) (pre.length + i) n = bytesAt l i n := by
  unfold bytesAt
  by_cases h : i + n ≤ l.length
  . rw [if_pos h, if_pos (by rw [length_append]; omega), drop_append,
      drop_eq_nil_of_le (Nat.le_add_right ..), Nat.add_sub_cancel_left, nil_append]
  . rw [if_neg h, if_neg (by rw [length_append]; omega)]

theorem read32_pre : read32 (pre ++ l) (pre.length + i) = read32 l i := by
  unfold read32
  rw [readArray_pre]

theorem readArray_toList (v : Vector UInt8 n) : readArray n (v.toList ++ l) 0 = .ok v := by
  unfold readArray
  rw [dif_pos (by simp)]
  congr
  ext k hk
  simp [getElem_append_left]

theorem read32_le32 (b : UInt32) : read32 (le32 b ++ l) 0 = .ok b := by
  have harray := @readArray_toList l 4 ⟨(le32 b).toArray, rfl⟩
  rw [show (⟨(le32 b).toArray, rfl⟩ : Vector UInt8 4).toList = le32 b from rfl] at harray
  simp only [read32, harray, bind, Except.bind, pure, Except.pure]
  congr
  apply UInt32.toNat_inj.mp
  have hlt := b.toNat_lt
  simp [le32, UInt32.toNat_ofNat', Nat.shiftRight_eq_div_pow]
  omega

theorem read16_le16 (b : UInt16) : read16 (le16 b ++ l) 0 = .ok b := by
  have harray := @readArray_toList l 2 ⟨(le16 b).toArray, rfl⟩
  rw [show (⟨(le16 b).toArray, rfl⟩ : Vector UInt8 2).toList = le16 b from rfl] at harray
  simp only [read16, harray, bind, Except.bind, pure, Except.pure]
  congr
  apply UInt16.toNat_inj.mp
  have hlt := b.toNat_lt
  simp [le16, UInt16.toNat_ofNat', Nat.shiftRight_eq_div_pow]
  omega

end

section

variable {subgroups : Contents} {subgroup : UInt32 × List UInt8} {pre post done tail : List UInt8}
  {add : UInt32 → UInt32 → Option UInt32}

theorem toNat_ofNat_length (hshort : subgroup.2.length < 256) :
    (UInt8.ofNat subgroup.2.length).toNat = subgroup.2.length := by
  rw [UInt8.toNat_ofNat']
  exact Nat.mod_eq_of_lt hshort

theorem readAt_len (hshort : subgroup.2.length < 256) :
    ∃ len, readAt (subgroupBytes subgroup ++ post) 4 = .ok len ∧ len.toNat = subgroup.2.length :=
  ⟨UInt8.ofNat subgroup.2.length, rfl, toNat_ofNat_length hshort⟩

theorem bytesAt_metadata :
    bytesAt (subgroupBytes subgroup ++ post) 5 subgroup.2.length = .ok subgroup.2 := by
  unfold bytesAt
  rw [if_pos (by rw [length_append, subgroupBytes_length]; omega)]
  simp [subgroupBytes, le32]

theorem genCpSubgroups_ok (hmem : memSize ≤ allocated)
    (hroom : idx + subgroups.bytes.length ≤ memSize) :
    genCpSubgroups allocated memSize idx subgroups = .ok (some subgroups.bytes) := by
  induction subgroups generalizing idx with
  | nil => rfl
  | cons subgroup rest ih =>
    rw [Contents.bytes_cons, length_append, subgroupBytes_length] at hroom
    have hrest := @ih (idx + 5 + subgroup.2.length) (by omega)
    unfold genCpSubgroups
    rw [if_neg (by omega), if_neg (by omega), hrest]
    rfl

theorem countSubgroups_bytes {base size metadataLen : Nat} (hshort : subgroups.Short)
    (hpre : base + size = pre.length) (hsize : size + subgroups.bytes.length < 65536)
    (hlen : metadataLen + subgroups.metadata.flatten.length < 65536) :
    countSubgroups (pre ++ (subgroups.bytes ++ post)) base subgroups.length size metadataLen =
      .ok (some (size + subgroups.bytes.length,
        metadataLen + subgroups.metadata.flatten.length)) := by
  induction subgroups generalizing pre size metadataLen with
  | nil => rfl
  | cons subgroup rest ih =>
    obtain ⟨hfirst, hrest⟩ := forall_mem_cons.mp hshort
    rw [Contents.bytes_cons, length_append, subgroupBytes_length] at hsize
    rw [Contents.metadata_cons, flatten_cons, length_append] at hlen
    have hnext := @ih (pre ++ subgroupBytes subgroup) (size + 5 + subgroup.2.length)
      (metadataLen + subgroup.2.length) hrest
      (by rw [length_append, subgroupBytes_length]; omega) (by omega) (by omega)
    obtain ⟨len, hread, htoNat⟩ := @readAt_len subgroup (Contents.bytes rest ++ post) hfirst
    have hbytes : pre ++ (Contents.bytes (subgroup :: rest) ++ post) =
        pre ++ (subgroupBytes subgroup ++ (Contents.bytes rest ++ post)) := by
      rw [Contents.bytes_cons, append_assoc]
    have hlength : (pre ++ (subgroupBytes subgroup ++ (Contents.bytes rest ++ post))).length =
        pre.length + (5 + subgroup.2.length) + (Contents.bytes rest ++ post).length := by
      rw [length_append, length_append, subgroupBytes_length]
      omega
    have hat : base + (size + 5) - 1 = pre.length + 4 := by omega
    rw [hbytes, length_cons, countSubgroups]
    simp only [Nat.mod_eq_of_lt (show size + 5 < 65536 by omega), hlength, hat, readAt_pre, hread,
      htoNat, bind, Except.bind,
      Nat.mod_eq_of_lt (show size + 5 + subgroup.2.length < 65536 by omega),
      Nat.mod_eq_of_lt (show metadataLen + subgroup.2.length < 65536 by omega)]
    rw [if_neg (by omega), if_neg (by omega)]
    rw [append_assoc] at hnext
    rw [hnext, Contents.bytes_cons, Contents.metadata_cons, flatten_cons, length_append,
      length_append, subgroupBytes_length]
    congr 3
    . omega
    . omega

def infosAt : Nat → Contents → List BisInfo
  | _, [] => []
  | p, subgroup :: rest =>
    mkBisInfo subgroup.1 subgroup.2 (if 0 < subgroup.2.length then some p else none) ::
      infosAt (p + subgroup.2.length) rest

theorem infosAt_eq :
    infosAt p subgroups =
      (subgroups.bis.zip (subgroups.metadata.zip (place p subgroups.metadata))).map
        fun x => mkBisInfo x.1 x.2.1 x.2.2 := by
  induction subgroups generalizing p with
  | nil => rfl
  | cons subgroup rest ih =>
    rw [infosAt, ih]
    rfl

theorem copyMetadata_bytes (htail : subgroup.2.length ≤ tail.length) :
    copyMetadata (pre ++ (subgroupBytes subgroup ++ post)) (pre.length + 5) subgroup.2.length
      done.length (done ++ tail) =
      .ok (done ++ subgroup.2 ++ tail.drop subgroup.2.length) := by
  unfold copyMetadata
  by_cases h0 : 0 < subgroup.2.length
  . rw [if_pos h0, bytesAt_pre, bytesAt_metadata]
    exact copyTo_done htail
  . have hnil : subgroup.2 = [] := eq_nil_of_length_eq_zero (by omega)
    rw [if_neg h0, hnil, append_nil, length_nil, drop_zero]

theorem praseSubgroups_bytes {room : Nat} {bisSync bisSync' : UInt32} (hshort : subgroups.Short)
    (hadd : subgroups.bis.foldlM add bisSync = some bisSync') (hroom : subgroups.length ≤ room)
    (htail : tail.length = subgroups.metadata.flatten.length) :
    praseSubgroups add (pre ++ (subgroups.bytes ++ post)) subgroups.length room pre.length bisSync
      done.length (done ++ tail) =
      .ok (some (bisSync', infosAt done.length subgroups,
        done ++ subgroups.metadata.flatten)) := by
  induction subgroups generalizing pre done tail room bisSync with
  | nil =>
    have hnil : tail = [] := eq_nil_of_length_eq_zero htail
    simp only [Contents.bis, map_nil, foldlM_nil, pure, Option.some.injEq] at hadd
    rw [hnil, ← hadd]
    rfl
  | cons subgroup rest ih =>
    obtain ⟨hfirst, hrest⟩ := forall_mem_cons.mp hshort
    rw [Contents.metadata_cons, flatten_cons, length_append] at htail
    cases room with
    | zero => simp at hroom
    | succ room =>
      simp only [Contents.bis, map_cons, foldlM_cons, Option.bind_eq_bind] at hadd
      obtain ⟨bisSync1, hadd1, hadd⟩ := Option.bind_eq_some_iff.mp hadd
      have hnext := @ih (pre ++ subgroupBytes subgroup) (done ++ subgroup.2)
        (tail.drop subgroup.2.length) room bisSync1 hrest hadd
        (by rw [length_cons] at hroom; omega) (by rw [length_drop]; omega)
      obtain ⟨len, hread, htoNat⟩ := @readAt_len subgroup (Contents.bytes rest ++ post) hfirst
      have hbis : read32 (pre ++ (subgroupBytes subgroup ++ (Contents.bytes rest ++ post)))
          pre.length = .ok subgroup.1 := by
        have h := @read32_pre pre (subgroupBytes subgroup ++ (Contents.bytes rest ++ post)) 0
        rw [Nat.add_zero] at h
        rw [h, subgroupBytes, append_assoc, append_assoc]
        exact read32_le32 _
      have hcopy := @copyMetadata_bytes subgroup pre (Contents.bytes rest ++ post) done tail
        (by omega)
      rw [append_assoc, length_append, length_append, subgroupBytes_length,
        ← Nat.add_assoc] at hnext
      rw [Contents.bytes_cons, append_assoc, length_cons, praseSubgroups]
      simp only [hbis, hadd1, readAt_pre, hread, htoNat, hcopy, bind, Except.bind]
      rw [hnext]
      simp only [pure, Except.pure, Option.map_some, infosAt, mkBisInfo, Contents.metadata_cons,
        flatten_cons, append_assoc]

theorem praseBlock_bytes {bisSync : UInt32} (hshort : subgroups.Short)
    (hadd : subgroups.bis.foldlM add 0 = some bisSync) (hroomy : Roomy subgroups.metadata) :
    praseBlock add (pre ++ (subgroups.bytes ++ post)) subgroups.length pre.length
      (bisInfoSizeOf subgroups.metadata) =
      .ok (some (bisSync, filled subgroups.bis subgroups.metadata)) := by
  have hsize := bisInfoSizeOf_roomy hroomy
  rw [Contents.metadata_length] at hsize
  have hroom : subgroups.length ≤ bisInfoSizeOf subgroups.metadata / sizeofBisInfo := by
    rw [Nat.le_div_iff_mul_le (by decide), Nat.mul_comm]
    omega
  have hparse := @praseSubgroups_bytes subgroups pre post []
    (.replicate (bisInfoSizeOf subgroups.metadata - sizeofBisInfo * subgroups.length) 0) add _ 0
    bisSync hshort hadd hroom (by rw [length_replicate]; omega)
  rw [nil_append, nil_append] at hparse
  simp only [praseBlock, bind, Except.bind]
  rw [show ([] : List UInt8).length = 0 from rfl] at hparse
  rw [hparse]
  simp only [pure, Except.pure, Option.map_some, filled, infosAt_eq]

theorem infosAt_bis : (infosAt p subgroups).map BisInfo.bisSync = subgroups.bis := by
  induction subgroups generalizing p with
  | nil => rfl
  | cons subgroup rest ih =>
    rw [infosAt, map_cons, ih]
    rfl

theorem zip_bis_metadata : subgroups.bis.zip subgroups.metadata = subgroups := by
  induction subgroups with
  | nil => rfl
  | cons subgroup rest ih =>
    have hcons : (Contents.bis (subgroup :: rest)).zip (Contents.metadata (subgroup :: rest)) =
        subgroup :: (Contents.bis rest).zip (Contents.metadata rest) := rfl
    rw [hcons, ih]

theorem filled_contents (hroomy : Roomy subgroups.metadata) :
    (filled subgroups.bis subgroups.metadata).contents = .ok subgroups := by
  have hlen : subgroups.bis.length = subgroups.metadata.length := by
    simp [Contents.bis, Contents.metadata]
  have hbis : (filled subgroups.bis subgroups.metadata).infos.map BisInfo.bisSync =
      subgroups.bis := by
    rw [filled, ← infosAt_eq, infosAt_bis]
  rw [(filled_holds hlen hroomy).contents_eq, BisBlock.held, hbis, zip_bis_metadata]

end

end Brs
