import Earphone.Avdtp.Basic

namespace Avdtp

open List

structure Item where
  category : UInt8
  body : List UInt8

def items : List UInt8 → List Item
  | [] => []
  | [category] => [⟨category, []⟩]
  | category :: len :: rest =>
    ⟨category, rest.take len.toNat⟩ :: items (rest.drop len.toNat)
termination_by l => l.length
decreasing_by
  simp only [List.length_drop, List.length_cons]
  omega

def Item.Noted (item : Item) : Prop :=
  item.category = srvCategMediaTrans ∨ item.category = srvCategCp ∨
    item.category = srvCategMediaCodec ∨ item.category = srvCategDelayReport

instance (item : Item) : Decidable item.Noted := inferInstanceAs (Decidable (_ ∨ _))

def noted (its : List Item) : Nat := its.countP fun item => decide item.Noted

def lastBody : List Item → Option (List UInt8)
  | [] => none
  | item :: its =>
    if item.category = srvCategMediaCodec then some ((lastBody its).getD item.body)
    else lastBody its

inductive Codec where
  | ldac | lc3 | lhdc | usac | aac | sbc | other

def Codec.rank : Codec → Nat
  | .ldac | .lc3 | .lhdc => 0
  | .usac => 1
  | .aac => 2
  | .sbc => 3
  | .other => 4

def Codec.Fits : Codec → LocalSep → Prop
  | .ldac, sep => sep.subCodecType = codecTypeLdac ∧ sep.mediaCodecInfo.take 6 = avdtpLdacCodecInfo
  | .lc3, sep => sep.subCodecType = codecTypeLc3 ∧ sep.mediaCodecInfo.take 6 = avdtpLc3CodecInfo
  | .lhdc, sep =>
    sep.subCodecType = codecTypeLhdc ∧ sep.mediaCodecInfo.take 6 = avdtpLhdcV5CodecInfo
  | .usac, sep => sep.subCodecType = codecTypeUsac
  | .aac, sep => sep.subCodecType = codecTypeAac
  | .sbc, sep => sep.subCodecType = codecTypeSbc
  | .other, _ => False

instance (codec : Codec) (sep : LocalSep) : Decidable (codec.Fits sep) := by
  cases codec <;> unfold Codec.Fits <;> infer_instance

def Codec.Served (localSepList : List LocalSep) (role : Role) (codec : Codec) : Prop :=
  ∃ sep ∈ localSepList, codec.Fits sep ∧ sep.tsep ≠ role

instance (localSepList : List LocalSep) (role : Role) (codec : Codec) :
    Decidable (codec.Served localSepList role) :=
  inferInstanceAs (Decidable (∃ sep ∈ localSepList, _))

def vendorOf (info : List UInt8) : Option Codec :=
  if 8 ≤ info.length ∧ info.take 6 = avdtpLdacCodecInfo then
    some .ldac
  else if 9 ≤ info.length ∧ info.take 6 = avdtpLc3CodecInfo then
    some .lc3
  else if 11 ≤ info.length ∧ info.take 6 = avdtpLhdcV5CodecInfo then
    some .lhdc
  else
    none

def codecOf : List UInt8 → Option Codec
  | _ :: type :: info =>
    if type = sbcMediaCodecType then
      if 4 ≤ info.length then some .sbc else none
    else if type = aacMediaCodecType then
      if 6 ≤ info.length then some .aac else none
    else if type = usacMediaCodecType then
      if 7 ≤ info.length then some .usac else none
    else if type = vendorCodecType then
      vendorOf info
    else
      some .other
  | _ => none

def heardIn (payload : List UInt8) : Option Codec := (lastBody (items payload)).bind codecOf

def offers (role : Role) : List UInt8 → List UInt8
  | seid :: type :: rest =>
    if seid &&& 0x02 = seidNotInUse ∧
        (role = avdtpTsepSrc ∧ type &&& 0xF8 = audioSrc ∨
          role = avdtpTsepSnk ∧ type &&& 0xF8 = audioSnk) then
      (seid &&& 0xFC) :: offers role rest
    else
      offers role rest
  | _ => []

def RemoteSep.Tells (sep : RemoteSep) : Codec → Prop
  | .ldac => sep.mediaCodecType = vendorCodecType ∧ sep.mediaCodecSubtype = codecTypeLdac ∧
      sep.mediaCodecInfo.take 6 = avdtpLdacCodecInfo
  | .lc3 => sep.mediaCodecType = vendorCodecType ∧ sep.mediaCodecSubtype = codecTypeLc3 ∧
      sep.mediaCodecInfo.take 6 = avdtpLc3CodecInfo
  | .lhdc => sep.mediaCodecType = vendorCodecType ∧ sep.mediaCodecSubtype = codecTypeLhdc ∧
      sep.mediaCodecInfo.take 6 = avdtpLhdcV5CodecInfo
  | .usac => sep.mediaCodecType = usacMediaCodecType
  | .aac => sep.mediaCodecType = aacMediaCodecType
  | .sbc => sep.mediaCodecType = sbcMediaCodecType
  | .other => sep.mediaCodecType ≠ vendorCodecType ∧ sep.mediaCodecType ≠ usacMediaCodecType ∧
      sep.mediaCodecType ≠ aacMediaCodecType ∧ sep.mediaCodecType ≠ sbcMediaCodecType

structure RemoteSep.SameCodec (sep sep' : RemoteSep) : Prop where
  type : sep'.mediaCodecType = sep.mediaCodecType
  subtype : sep'.mediaCodecSubtype = sep.mediaCodecSubtype
  info : sep'.mediaCodecInfo = sep.mediaCodecInfo

theorem RemoteSep.SameCodec.tells {sep sep' : RemoteSep} (h : sep.SameCodec sep') {codec : Codec}
    (htells : sep.Tells codec) : sep'.Tells codec := by
  obtain ⟨htype, hsubtype, hinfo⟩ := h
  cases codec <;> simpa only [Tells, htype, hsubtype, hinfo] using htells

section

variable {rd : Nat → UInt8} {pos i : Nat} {sep sep' : RemoteSep}

theorem octets_eq_take {body : List UInt8} {n : Nat} (hrd : ∀ k (hk : k < body.length),
    rd (pos + k) = body[k]) (hn : n ≤ body.length) : octets rd pos n = body.take n := by
  apply ext_getElem
  . simp [octets, hn]
  . intro k hk hk'
    simp only [octets, length_map, length_range] at hk
    simp only [octets, getElem_map, getElem_range, getElem_take]
    exact hrd k (by omega)

theorem take_copyInfo (info : List UInt8) (h : m ≤ n) :
    (copyInfo rd info pos n).take m = octets rd pos m := by
  rw [copyInfo, take_append_of_le_length (by simpa [octets] using h), octets, octets,
    ← map_take, take_range, Nat.min_eq_left h]

section

variable (htype : rd (pos + 1) = vendorCodecType)

include htype

theorem codecParse_ldac (hid : octets rd (pos + 2) 6 = avdtpLdacCodecInfo) :
    (codecParse rd pos sep).Tells .ldac := by
  have hparse : codecParse rd pos sep = { sep with
      mediaType := (rd pos &&& 0xF0) >>> 4
      mediaCodecType := vendorCodecType
      mediaCodecSubtype := codecTypeLdac
      mediaCodecInfo := copyInfo rd sep.mediaCodecInfo (pos + 2) 8 } := by
    unfold codecParse
    rw [htype, hid]
    rfl
  rw [hparse]
  exact ⟨rfl, rfl, by rw [take_copyInfo _ (by decide), hid]⟩

theorem codecParse_lc3 (hid : octets rd (pos + 2) 6 = avdtpLc3CodecInfo) :
    (codecParse rd pos sep).Tells .lc3 := by
  have hparse : codecParse rd pos sep = { sep with
      mediaType := (rd pos &&& 0xF0) >>> 4
      mediaCodecType := vendorCodecType
      mediaCodecSubtype := codecTypeLc3
      mediaCodecInfo := copyInfo rd sep.mediaCodecInfo (pos + 2) 9 } := by
    unfold codecParse
    rw [htype, hid]
    rfl
  rw [hparse]
  exact ⟨rfl, rfl, by rw [take_copyInfo _ (by decide), hid]⟩

theorem codecParse_lhdc (hid : octets rd (pos + 2) 6 = avdtpLhdcV5CodecInfo) :
    (codecParse rd pos sep).Tells .lhdc := by
  have hparse : codecParse rd pos sep = { sep with
      mediaType := (rd pos &&& 0xF0) >>> 4
      mediaCodecType := vendorCodecType
      mediaCodecSubtype := codecTypeLhdc
      mediaCodecInfo := copyInfo rd sep.mediaCodecInfo (pos + 2) 11 } := by
    unfold codecParse
    rw [htype, hid]
    rfl
  rw [hparse]
  exact ⟨rfl, rfl, by rw [take_copyInfo _ (by decide), hid]⟩

end

theorem codecParse_vendor {info : List UInt8} {codec : Codec}
    (htype : rd (pos + 1) = vendorCodecType)
    (hrd : ∀ k (hk : k < info.length), rd (pos + 2 + k) = info[k])
    (h : vendorOf info = some codec) : (codecParse rd pos sep).Tells codec := by
  unfold vendorOf at h
  split at h
  . next hldac =>
    cases h
    exact codecParse_ldac htype (by rw [octets_eq_take hrd (by omega), hldac.2])
  . split at h
    . next hlc3 =>
      cases h
      exact codecParse_lc3 htype (by rw [octets_eq_take hrd (by omega), hlc3.2])
    . split at h
      . next hlhdc =>
        cases h
        exact codecParse_lhdc htype (by rw [octets_eq_take hrd (by omega), hlhdc.2])
      . cases h

theorem codecParse_type : (codecParse rd pos sep).mediaCodecType = rd (pos + 1) := by
  simp only [codecParse]
  repeat' split
  all_goals rfl

theorem codecParse_tells
    (hrd : ∀ k (hk : k < body.length), rd (pos + k) = body[k]) (h : codecOf body = some codec) :
    (codecParse rd pos sep).Tells codec := by
  match body, hrd, h with
  | media :: type :: info, hrd, h =>
    have htype : rd (pos + 1) = type := hrd 1 (by simp)
    have hinfo : ∀ k (hk : k < info.length), rd (pos + 2 + k) = info[k] := by
      intro k hk
      rw [Nat.add_assoc, Nat.add_comm 2]
      exact hrd (k + 2) (by simpa using hk)
    simp only [codecOf] at h
    split at h
    . next hsbc =>
      split at h <;> cases h
      exact codecParse_type.trans (htype.trans hsbc)
    . next hsbc =>
      split at h
      . next haac =>
        split at h <;> cases h
        exact codecParse_type.trans (htype.trans haac)
      . next haac =>
        split at h
        . next husac =>
          split at h <;> cases h
          exact codecParse_type.trans (htype.trans husac)
        . next husac =>
          split at h
          . next hvendor => exact codecParse_vendor (htype.trans hvendor) hinfo h
          . next hvendor =>
            cases h
            refine ⟨?_, ?_, ?_, ?_⟩ <;> rw [codecParse_type, htype] <;> assumption

theorem categoryParse_spec (rd : Nat → UInt8) (pos i : Nat) (sep : RemoteSep) (category : UInt8)
    (body : List UInt8) (hi : i + noted [⟨category, body⟩] ≤ 8) :
    ∃ sep', categoryParse rd category pos i sep = some (i + noted [⟨category, body⟩], sep') ∧
      sep'.sepId = sep.sepId ∧
      (category ≠ srvCategMediaCodec → sep.SameCodec sep') ∧
      ∀ codec, category = srvCategMediaCodec →
        (∀ k (hk : k < body.length), rd (pos + k) = body[k]) → codecOf body = some codec →
        sep'.Tells codec := by
  by_cases hnoted : Item.Noted ⟨category, body⟩
  . have hone : noted [⟨category, body⟩] = 1 := by simp [noted, hnoted]
    rw [hone] at hi ⊢
    have hlt : i < 8 := hi
    unfold categoryParse orderCategory
    simp only [if_pos hlt, Option.map_some]
    obtain rfl | rfl | rfl | rfl := hnoted
    . exact ⟨_, rfl, rfl, fun _ => ⟨rfl, rfl, rfl⟩, fun _ h => absurd h (by decide)⟩
    . exact ⟨_, rfl, rfl, fun _ => ⟨rfl, rfl, rfl⟩, fun _ h => absurd h (by decide)⟩
    . refine ⟨_, rfl, ?_, fun h => absurd rfl h, fun codec _ hrd hcodec => ?_⟩
      . simp only [codecParse]
        repeat' split
        all_goals rfl
      . exact codecParse_tells hrd hcodec
    . exact ⟨_, rfl, rfl, fun _ => ⟨rfl, rfl, rfl⟩, fun _ h => absurd h (by decide)⟩
  . have hzero : noted [⟨category, body⟩] = 0 := by simp [noted, hnoted]
    simp only [Item.Noted, not_or] at hnoted
    obtain ⟨htrans, hcp, hcodec, hdelay⟩ := hnoted
    rw [hzero]
    refine ⟨sep, ?_, rfl, fun _ => ⟨rfl, rfl, rfl⟩, fun _ h => absurd h hcodec⟩
    unfold categoryParse
    rw [if_neg htrans, if_neg hcp, if_neg hcodec, if_neg hdelay]
    rfl

structure LoopLeaves (its : List Item) (sep sep' : RemoteSep) : Prop where
  sepId : sep'.sepId = sep.sepId
  same : lastBody its = none → sep.SameCodec sep'
  tells : ∀ body codec, lastBody its = some body → codecOf body = some codec → sep'.Tells codec

theorem LoopLeaves.refl (sep : RemoteSep) : LoopLeaves [] sep sep where
  sepId := rfl
  same _ := ⟨rfl, rfl, rfl⟩
  tells _ _ h := nomatch h

theorem RemoteSep.SameCodec.trans (h : sep.SameCodec sep')
    (h' : sep'.SameCodec sep'') : sep.SameCodec sep'' where
  type := h'.type.trans h.type
  subtype := h'.subtype.trans h.subtype
  info := h'.info.trans h.info

theorem LoopLeaves.cons {category : UInt8} {body : List UInt8} {its : List Item}
    {sep'' : RemoteSep} (hrest : LoopLeaves its sep' sep'') (hid : sep'.sepId = sep.sepId)
    (hsame : category ≠ srvCategMediaCodec → sep.SameCodec sep')
    (htells : ∀ codec, category = srvCategMediaCodec → codecOf body = some codec →
      sep'.Tells codec) : LoopLeaves (⟨category, body⟩ :: its) sep sep'' where
  sepId := hrest.sepId.trans hid
  same := by
    intro hnone
    simp only [lastBody] at hnone
    split at hnone
    . cases hnone
    . next hne => exact (hsame hne).trans (hrest.same hnone)
  tells := by
    intro last codec hlast hcodec
    simp only [lastBody] at hlast
    split at hlast
    . next heq =>
      cases htail : lastBody its with
      | none =>
        rw [htail] at hlast
        cases hlast
        exact (hrest.same htail).tells (htells codec heq hcodec)
      | some body' =>
        rw [htail] at hlast
        cases hlast
        exact hrest.tells _ codec htail hcodec
    . exact hrest.tells last codec hlast hcodec

theorem noted_cons (item : Item) (its : List Item) :
    noted (item :: its) = noted [item] + noted its := by
  simp only [noted, countP_cons, countP_nil]
  omega

theorem capabilityLoop_spec (rd : Nat → UInt8) (pos i : Nat) (sep : RemoteSep) (rest : List UInt8)
    (hfuel : rest.length ≤ fuel)
    (hrd : ∀ k (hk : k < rest.length), rd (pos + k) = rest[k])
    (hnoted : i + noted (items rest) ≤ 8) :
    ∃ sep', capabilityLoop rd fuel pos rest.length i sep = some sep' ∧
      LoopLeaves (items rest) sep sep' := by
  induction fuel generalizing rest pos i sep with
  | zero =>
    obtain rfl : rest = [] := length_eq_zero_iff.mp (by omega)
    exact ⟨sep, rfl, by rw [items]; exact LoopLeaves.refl sep⟩
  | succ fuel ih =>
    match rest, hfuel, hrd, hnoted with
    | [], _, _, _ => exact ⟨sep, rfl, by rw [items]; exact LoopLeaves.refl sep⟩
    | [category], _, hrd, hnoted =>
      -- the length behind the last octet is not part of the answer, and ends the loop
      rw [items] at hnoted ⊢
      obtain ⟨sep', hparse, hid, hsame, -⟩ :=
        categoryParse_spec rd (pos + 2) i sep category [] hnoted
      refine ⟨sep', ?_, (LoopLeaves.refl sep').cons hid hsame fun _ _ h => nomatch h⟩
      have hhead : rd pos = category := hrd 0 (by simp)
      unfold capabilityLoop
      rw [if_neg (by simp)]
      simp only [hhead, hparse]
      rw [if_neg (by simp)]
    | category :: len :: rest, hfuel, hrd, hnoted =>
      rw [items] at hnoted ⊢
      rw [noted_cons] at hnoted
      have hhead : rd pos = category := hrd 0 (by simp)
      have hlen : rd (pos + 1) = len := hrd 1 (by simp)
      have hrest : ∀ k (hk : k < rest.length), rd (pos + 2 + k) = rest[k] := by
        intro k hk
        rw [Nat.add_assoc, Nat.add_comm 2]
        exact hrd (k + 2) (by simpa using hk)
      obtain ⟨mid, hparse, hid, hsame, htells⟩ := categoryParse_spec rd (pos + 2) i sep
        category (rest.take len.toNat) (by omega)
      have hbody : ∀ k (hk : k < (rest.take len.toNat).length),
          rd (pos + 2 + k) = (rest.take len.toNat)[k] := by
        intro k hk
        rw [getElem_take]
        exact hrest k (by simp at hk; omega)
      unfold capabilityLoop
      rw [if_neg (by simp)]
      simp only [hhead, hlen, hparse]
      by_cases hmore : len.toNat + 2 < (category :: len :: rest).length
      . simp only [length_cons] at hmore hfuel
        have hdrop : rest.length + 1 + 1 - (len.toNat + 2) = (rest.drop len.toNat).length := by
          rw [length_drop]
          omega
        obtain ⟨sep', hloop, hleaves⟩ := ih (pos + 2 + len.toNat)
          (i + noted [⟨category, rest.take len.toNat⟩]) mid (rest.drop len.toNat)
          (by rw [length_drop]; omega)
          (by
            intro k hk
            rw [getElem_drop, Nat.add_assoc]
            exact hrest _ (by rw [length_drop] at hk; omega))
          (by omega)
        refine ⟨sep', ?_, hleaves.cons hid hsame fun codec h => htells codec h hbody⟩
        rw [if_pos (by simpa using hmore), length_cons, length_cons, hdrop, hloop]
      . refine ⟨mid, by rw [if_neg hmore], ?_⟩
        have hnil : rest.drop len.toNat = [] := by
          simp only [length_cons] at hmore
          exact drop_of_length_le (by omega)
        rw [hnil, items]
        exact (LoopLeaves.refl mid).cons hid hsame fun codec h => htells codec h hbody

theorem read_payload (r : Rsp) (past : Nat → UInt8) (k : Nat) (hk : k < r.payload.length) :
    r.read past (2 + k) = r.payload[k] := by
  have hpos : (r.trans :: r.signal :: r.payload)[2 + k]? = r.payload[k]? := by
    rw [Nat.add_comm]
    rfl
  rw [Rsp.read, getD_eq_getElem?_getD, hpos, getElem?_eq_getElem hk]
  rfl

theorem avdtpRemoteCapabilityParse_spec (sep : RemoteSep) (r : Rsp) (past : Nat → UInt8)
    (hnoted : noted (items r.payload) ≤ 8) :
    ∃ sep', avdtpRemoteCapabilityParse (r.read past) sep 2 (r.pktLen - 2) = some sep' ∧
      sep'.sepId = sep.sepId ∧ ∀ codec, heardIn r.payload = some codec → sep'.Tells codec := by
  have hlen : r.pktLen - 2 = r.payload.length := Nat.add_sub_cancel _ _
  obtain ⟨sep', hloop, hleaves⟩ := capabilityLoop_spec (r.read past) 2 0
    { sep with cpbsMask := 0, cpbsOrder := List.replicate 8 0xff } r.payload
    (Nat.le_refl r.payload.length)
    (read_payload r past) (by omega)
  refine ⟨sep', by rw [avdtpRemoteCapabilityParse, hlen, hloop], hleaves.sepId, ?_⟩
  intro codec hcodec
  obtain ⟨body, hlast, hbody⟩ := Option.bind_eq_some_iff.mp hcodec
  exact hleaves.tells body codec hlast hbody

end

section

variable {rd : Nat → UInt8} {role : Role}

theorem wantedSep_iff (seid type : UInt8) :
    wantedSep role seid type = true ↔ seid &&& 0x02 = seidNotInUse ∧
      (role = avdtpTsepSrc ∧ type &&& 0xF8 = audioSrc ∨
        role = avdtpTsepSnk ∧ type &&& 0xF8 = audioSnk) := by
  have hne : avdtpTsepSnk ≠ avdtpTsepSrc := by decide
  unfold wantedSep
  by_cases hsrc : role = avdtpTsepSrc
  . simp [hsrc, hne.symm]
  . by_cases hsnk : role = avdtpTsepSnk
    . simp [hsnk, hne]
    . simp [hsrc, hsnk]

def picked (rd : Nat → UInt8) (role : Role) (base n : Nat) : List UInt8 :=
  ((List.range n).filter fun i => wantedSep role (rd (base + 2 * i)) (rd (base + 1 + 2 * i))).map
    fun i => rd (base + 2 * i) &&& 0xFC

theorem picked_succ (base n : Nat) :
    picked rd role base (n + 1) =
      if wantedSep role (rd base) (rd (base + 1)) then
        (rd base &&& 0xFC) :: picked rd role (base + 2) n
      else
        picked rd role (base + 2) n := by
  have hshift : ∀ i, base + 2 * (i + 1) = base + 2 + 2 * i := by
    intro i
    omega
  have hshift' : ∀ i, base + 1 + 2 * (i + 1) = base + 2 + 1 + 2 * i := by
    intro i
    omega
  have htail : (((List.range n).map Nat.succ).filter fun i =>
      wantedSep role (rd (base + 2 * i)) (rd (base + 1 + 2 * i))).map
        (fun i => rd (base + 2 * i) &&& 0xFC) = picked rd role (base + 2) n := by
    simp only [filter_map, map_map, Function.comp_def, Nat.succ_eq_add_one, hshift,
      hshift', picked]
  rw [picked, range_succ_eq_map, filter_cons]
  simp only [Nat.mul_zero, Nat.add_zero]
  split
  . rw [map_cons, htail]
    rfl
  . exact htail

theorem picked_eq_offers (base : Nat) (payload : List UInt8)
    (hrd : ∀ k (hk : k < payload.length), rd (base + k) = payload[k]) :
    picked rd role base (payload.length / 2) = offers role payload := by
  match payload with
  | [] =>
    rw [offers]
    . rfl
    . intro seid type rest h
      cases h
  | [octet] =>
    have hlen : [octet].length / 2 = 0 := by simp
    rw [hlen, offers]
    . rfl
    . intro seid type rest h
      cases h
  | seid :: type :: rest =>
    have hseid : rd base = seid := hrd 0 (by simp)
    have htype : rd (base + 1) = type := hrd 1 (by simp)
    have hrest := picked_eq_offers (base + 2) rest fun k hk => by
      rw [Nat.add_assoc, Nat.add_comm 2]
      exact hrd (k + 2) (by simpa using hk)
    have hlen : (seid :: type :: rest).length / 2 = rest.length / 2 + 1 := by
      simp only [length_cons]
      omega
    rw [hlen, picked_succ, hseid, htype, hrest, offers]
    simp only [wantedSep_iff]

end

end Avdtp
