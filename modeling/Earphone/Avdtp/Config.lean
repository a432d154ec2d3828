import Mathlib.Data.Nat.Bitwise
import Earphone.Lib.Run

/-!
This module contains the choice of a codec configuration by the initiator.
-/

namespace AvdtpConfig

def maxCodecInfoSize : Nat := 12

def srvCategCp : UInt8 := 0x04
def srvCategMediaCodec : UInt8 := 0x07
def srvCategDelayReport : UInt8 := 0x08

def categCpMask : UInt8 := 0x08
def categDelayReportMask : UInt8 := 0x80

def mediaCodecSbcLosc : UInt8 := 0x06
def mediaCodecAacLosc : UInt8 := 0x08

def audioMediaType : UInt8 := 0x00

def sbcMediaCodecType : UInt8 := 0x00
def aacMediaCodecType : UInt8 := 0x02
def usacMediaCodecType : UInt8 := 0x03
def vendorCodecType : UInt8 := 0xff

def codecTypeLdac : UInt8 := 0xf0
def codecTypeLc3 : UInt8 := 0xf1
def codecTypeLhdc : UInt8 := 0xf2

def avdtpLc3CodecInfo : List UInt8 := [0x5d, 0x00, 0x00, 0x00, 0x08, 0x00]
def avdtpLdacCodecInfo : List UInt8 := [0x2d, 0x01, 0x00, 0x00, 0xaa, 0x00]
def avdtpLhdcV5CodecInfo : List UInt8 := [0x3a, 0x05, 0x00, 0x00, 0x35, 0x4c]

def invalidCodecType : UInt8 := 0xc1
def notSupportedCodecType : UInt8 := 0xc2
def invalidSamplingFrequency : UInt8 := 0xc3
def notSupportedSamplingFrequency : UInt8 := 0xc4
def invalidChannelMode : UInt8 := 0xc5
def notSupportedChannelMode : UInt8 := 0xc6
def invalidSubbands : UInt8 := 0xc7
def notSupportedSubbands : UInt8 := 0xc8
def invalidAllocationMethod : UInt8 := 0xc9
def notSupportedAllocationMethod : UInt8 := 0xca
def invalidMinimumBitpoolValue : UInt8 := 0xcb
def invalidMaximumBitpoolValue : UInt8 := 0xcd
def invalidObjectType : UInt8 := 0xd6
def notSupportedObjectType : UInt8 := 0xd7
def invalidChannels : UInt8 := 0xd8
def notSupportedChannels : UInt8 := 0xd9
def invalidBlockLength : UInt8 := 0xdd
def invalidDrc : UInt8 := 0xe4
def notSupportedDrc : UInt8 := 0xe5

abbrev CodecInfo := Vector UInt8 12

open List

def firstCommon : List UInt8 → UInt8 → UInt8 → UInt8 → UInt8
  | [], _, _, otherwise => otherwise
  | bit :: bits, remote, local', otherwise =>
    if remote &&& bit ≠ 0 ∧ local' &&& bit ≠ 0 then bit
    else firstCommon bits remote local' otherwise

def sbcFrequencies : List UInt8 := [0x10, 0x20, 0x40, 0x80]
def sbcChannelModes : List UInt8 := [0x01, 0x02, 0x04, 0x08]
def sbcBlocks : List UInt8 := [0x10, 0x20, 0x40, 0x80]
def sbcSubbands : List UInt8 := [0x04, 0x08]
def sbcAllocations : List UInt8 := [0x01, 0x02]

def avdtpCodecSbcHandler (remote localSep : CodecInfo) : List UInt8 :=
  [mediaCodecSbcLosc, audioMediaType <<< 4, sbcMediaCodecType,
    firstCommon sbcFrequencies remote[0] localSep[0] 0x10 |||
      firstCommon sbcChannelModes remote[0] localSep[0] 0x08,
    firstCommon sbcBlocks remote[1] localSep[1] 0x10 |||
      firstCommon sbcSubbands remote[1] localSep[1] 0x04 |||
      firstCommon sbcAllocations remote[1] localSep[1] 0x01,
    if remote[2] > localSep[2] then remote[2] else localSep[2],
    if remote[3] < localSep[3] then remote[3] else localSep[3]]

def aacObjectTypes : List UInt8 := [0x80, 0x40, 0x20, 0x10, 0x08, 0x04, 0x02, 0x01]
def aacChannels : List UInt8 := [0x04, 0x08]
def aacFrequencies : List UInt8 := [0x01, 0x02, 0x04, 0x08, 0x10, 0x20, 0x40, 0x80]
def aacHighFrequencies : List UInt8 := [0x80, 0x40, 0x20, 0x10]

def aacFrequency (remote localSep : CodecInfo) : UInt8 × UInt8 :=
  let low := firstCommon aacFrequencies remote[1] localSep[1] 0x00
  if low ≠ 0 then (low, 0x00)
  else (0x00, firstCommon aacHighFrequencies remote[2] localSep[2] 0x80)

def aacBitRate (info : CodecInfo) : Nat :=
  (info[3] &&& 0x7f).toNat * 65536 + info[4].toNat * 256 + info[5].toNat

def avdtpCodecAacHandler (remote localSep : CodecInfo) : List UInt8 :=
  let frequency := aacFrequency remote localSep
  let vbr : UInt8 := if remote[3] &&& 0x80 ≠ 0 ∧ localSep[3] &&& 0x80 ≠ 0 then 0x80 else 0x00
  let rate := if aacBitRate localSep > aacBitRate remote then remote else localSep
  [mediaCodecAacLosc, audioMediaType <<< 4, aacMediaCodecType,
    firstCommon aacObjectTypes remote[0] localSep[0] 0x80,
    frequency.1,
    firstCommon aacChannels remote[2] localSep[2] 0x08 ||| frequency.2,
    vbr ||| rate[3] &&& 0x7f,
    rate[4],
    rate[5]]

structure LocalSep where
  codecType : UInt8
  mediaCodecInfo : CodecInfo

structure SigChann where
  codecType : UInt8
  codecSubtype : UInt8
  codecInfo : CodecInfo
  enableCpFlag : UInt8
  delayReportFlag : UInt8

def checkField (values : List UInt8) (invalid notSupported value supported : UInt8) : UInt8 :=
  if value ∉ values then invalid
  else if value &&& supported = 0 then notSupported
  else 0

def firstError : List UInt8 → UInt8
  | [] => 0
  | e :: es => if e ≠ 0 then e else firstError es

def checkSbc (sep : LocalSep) (cap : Nat → UInt8) : UInt8 :=
  let info := sep.mediaCodecInfo
  firstError
    [checkField [0x80, 0x40, 0x20, 0x10] invalidSamplingFrequency notSupportedSamplingFrequency
      (cap 2 &&& 0xf0) (info[0] &&& 0xf0),
     checkField [0x08, 0x04, 0x02, 0x01] invalidChannelMode notSupportedChannelMode
      (cap 2 &&& 0x0f) (info[0] &&& 0x0f),
     checkField [0x80, 0x40, 0x20, 0x10] invalidBlockLength invalidBlockLength
      (cap 3 &&& 0xf0) (info[1] &&& 0xf0),
     checkField [0x08, 0x04] invalidSubbands notSupportedSubbands
      (cap 3 &&& 0x0c) (info[1] &&& 0x0c),
     checkField [0x02, 0x01] invalidAllocationMethod notSupportedAllocationMethod
      (cap 3 &&& 0x03) (info[1] &&& 0x03),
     if cap 4 < info[2] then invalidMinimumBitpoolValue else 0,
     if cap 5 > info[3] then invalidMaximumBitpoolValue else 0]

def aacFrequencyValues : List Nat :=
  [0x8000, 0x4000, 0x2000, 0x1000, 0x0800, 0x0400, 0x0200, 0x0100, 0x0080, 0x0040, 0x0020, 0x0010]

def checkDrc (objectType drc supported : UInt8) : UInt8 :=
  if objectType = 0x80 ∧ drc ≠ 0 then invalidDrc
  else if drc ≠ supported then notSupportedDrc
  else 0

def checkFrequency (high low supportedHigh supportedLow : UInt8) : UInt8 :=
  let samplingFrequency := high.toNat * 256 + low.toNat
  if samplingFrequency ∉ aacFrequencyValues then invalidSamplingFrequency
  else if samplingFrequency &&& (supportedHigh.toNat * 256 + supportedLow.toNat) = 0 then
    notSupportedSamplingFrequency
  else 0

def checkAac (sep : LocalSep) (cap : Nat → UInt8) : UInt8 :=
  let info := sep.mediaCodecInfo
  firstError
    [checkField [0x80, 0x40, 0x20, 0x10, 0x08, 0x04, 0x02] invalidObjectType notSupportedObjectType
      (cap 2 &&& 0xfe) (info[0] &&& 0xfe),
     checkDrc (cap 2 &&& 0xfe) (cap 2 &&& 0x01) (info[0] &&& 0x01),
     checkFrequency (cap 3) (cap 4 &&& 0xf0) info[1] (info[2] &&& 0xf0),
     checkField [0x08, 0x04, 0x02, 0x01] invalidChannels notSupportedChannels
      (cap 4 &&& 0x0f) (info[2] &&& 0x0f)]

def checkCodec (sep : LocalSep) (cap : Nat → UInt8) : UInt8 :=
  if cap 1 ≠ sbcMediaCodecType ∧ cap 1 ≠ aacMediaCodecType ∧ cap 1 ≠ usacMediaCodecType ∧
      cap 1 ≠ vendorCodecType then
    invalidCodecType
  else if sep.codecType ≠ cap 1 then notSupportedCodecType
  else if sep.codecType = sbcMediaCodecType then checkSbc sep cap
  else if sep.codecType = aacMediaCodecType then checkAac sep cap
  else 0

def bytesFrom (cap : Nat → UInt8) (pos n : Nat) : List UInt8 :=
  (List.range n).map fun i => cap (pos + i)

def vendorSubtype (codecSubtype : UInt8) (cap : Nat → UInt8) : UInt8 :=
  if bytesFrom cap 2 6 = avdtpLdacCodecInfo then codecTypeLdac
  else if bytesFrom cap 2 6 = avdtpLc3CodecInfo then codecTypeLc3
  else if bytesFrom cap 2 6 = avdtpLhdcV5CodecInfo then codecTypeLhdc
  else codecSubtype

def storeInfo (codecInfo : CodecInfo) (cap : Nat → UInt8) (serviceLen : Nat) : CodecInfo :=
  Vector.ofFn fun i => if i.val < min (serviceLen - 2) maxCodecInfoSize then cap (2 + i.val)
    else codecInfo[i.val]

def storeCodec (chann : SigChann) (cap : Nat → UInt8) (serviceLen : Nat) : SigChann :=
  { chann with
    codecType := cap 1
    codecSubtype :=
      if cap 1 = vendorCodecType then vendorSubtype chann.codecSubtype cap else chann.codecSubtype
    codecInfo := storeInfo chann.codecInfo cap serviceLen }

def parseService (serviceCategory : UInt8) (sep : LocalSep) (chann : SigChann) (category : UInt8)
    (cap : Nat → UInt8) (serviceLen : Nat) : Except UInt8 SigChann :=
  if category = srvCategMediaCodec then
    if checkCodec sep cap ≠ 0 then .error (checkCodec sep cap)
    else .ok (storeCodec chann cap serviceLen)
  else if category = srvCategCp then
    if serviceCategory &&& categCpMask ≠ 0 then .ok { chann with enableCpFlag := 1 } else .ok chann
  else if category = srvCategDelayReport then
    if serviceCategory &&& categDelayReportMask ≠ 0 then .ok { chann with delayReportFlag := 1 }
    else .ok chann
  else .ok chann

def avdtpConfigParse (serviceCategory : UInt8) (sep : LocalSep) :
    Nat → SigChann → (Nat → UInt8) → Nat → SigChann × UInt8
  | 0, chann, _, _ => (chann, 0)
  | fuel + 1, chann, cap, capabilityLen =>
    if capabilityLen ≠ 0 then
      let category := cap 0
      let serviceLen := (cap 1).toNat
      match parseService serviceCategory sep chann category (fun i => cap (2 + i)) serviceLen with
      | .error e => (chann, e)
      | .ok chann =>
        if capabilityLen > serviceLen + 2 then
          avdtpConfigParse serviceCategory sep fuel chann (fun i => cap (2 + serviceLen + i))
            (capabilityLen - (serviceLen + 2))
        else (chann, 0)
    else (chann, 0)

def HasCommon (values : List UInt8) (remote localInfo : UInt8) : Prop :=
  ∃ v ∈ values, remote &&& v ≠ 0 ∧ localInfo &&& v ≠ 0

instance (values : List UInt8) (remote localInfo : UInt8) :
    Decidable (HasCommon values remote localInfo) :=
  inferInstanceAs (Decidable (∃ v ∈ values, _))

def OneCommon (values : List UInt8) (v remote localInfo : UInt8) : Prop :=
  v ∈ values ∧ remote &&& v ≠ 0 ∧ localInfo &&& v ≠ 0

section

variable {values bits more : List UInt8} {remote localInfo otherwise v invalid notSupported : UInt8}

theorem firstCommon_common (otherwise : UInt8) (h : HasCommon bits remote localInfo) :
    OneCommon bits (firstCommon bits remote localInfo otherwise) remote localInfo := by
  induction bits with
  | nil => simp [HasCommon] at h
  | cons bit bits ih =>
    unfold firstCommon
    split
    case isTrue hboth => exact ⟨mem_cons_self, hboth⟩
    case isFalse hnot =>
      obtain ⟨v, hv, hboth⟩ := h
      have hrest : HasCommon bits remote localInfo := by
        obtain rfl | hv := mem_cons.mp hv
        . exact absurd hboth hnot
        . exact ⟨v, hv, hboth⟩
      exact ⟨mem_cons_of_mem _ (ih hrest).1, (ih hrest).2⟩

theorem firstCommon_cases :
    OneCommon bits (firstCommon bits remote localInfo otherwise) remote localInfo ∨
      firstCommon bits remote localInfo otherwise = otherwise := by
  by_cases h : HasCommon bits remote localInfo
  . exact .inl (firstCommon_common otherwise h)
  . right
    induction bits with
    | nil => rfl
    | cons bit bits ih =>
      unfold firstCommon
      rw [if_neg fun hboth => h ⟨bit, mem_cons_self, hboth⟩]
      exact ih fun ⟨v, hv, hboth⟩ => h ⟨v, mem_cons_of_mem _ hv, hboth⟩

theorem firstCommon_append (h : HasCommon bits remote localInfo) :
    firstCommon (bits ++ more) remote localInfo otherwise =
      firstCommon bits remote localInfo otherwise := by
  induction bits with
  | nil => simp [HasCommon] at h
  | cons bit bits ih =>
    rw [cons_append]
    unfold firstCommon
    split
    . rfl
    case isFalse hnot =>
      apply ih
      obtain ⟨v, hv, hboth⟩ := h
      obtain rfl | hv := mem_cons.mp hv
      . exact absurd hboth hnot
      . exact ⟨v, hv, hboth⟩

theorem and_mask (h : v &&& mask = v) : v &&& (x &&& mask) = x &&& v := by
  rw [UInt8.and_comm x mask, ← UInt8.and_assoc, h, UInt8.and_comm]

theorem checkField_ok (hv : v ∈ values) (hmask : v &&& mask = v)
    (hx : x &&& v ≠ 0) : checkField values invalid notSupported v (x &&& mask) = 0 := by
  unfold checkField
  rw [if_neg (not_not_intro hv), and_mask hmask, if_neg hx]

theorem firstError_eq_zero : firstError es = 0 ↔ ∀ e ∈ es, e = 0 := by
  induction es with
  | nil => simp [firstError]
  | cons e es ih =>
    unfold firstError
    split
    case isTrue he => simp [he]
    case isFalse he =>
      rw [ne_eq, not_not] at he
      simp [he, ih]

end

structure Service where
  category : UInt8
  payload : List UInt8
  payload_lt : payload.length < 256
  notCodec : category ≠ srvCategMediaCodec

def Service.bytes (s : Service) : List UInt8 :=
  s.category :: UInt8.ofNat s.payload.length :: s.payload

def capabilityBytes (before : List Service) (cfg : List UInt8) (after : List Service) :
    List UInt8 :=
  (before.map Service.bytes).flatten ++
    (srvCategMediaCodec :: cfg ++ (after.map Service.bytes).flatten)

def memory (bytes : List UInt8) (past : Nat → UInt8) : Nat → UInt8 :=
  fun i => bytes.getD i (past i)

def Accepted (codecType : UInt8) (acceptor : CodecInfo) (cfg : List UInt8) : Prop :=
  ∀ serviceCategory chann before after past, ∃ chann',
    avdtpConfigParse serviceCategory ⟨codecType, acceptor⟩
      (capabilityBytes before cfg after).length chann
      (memory (capabilityBytes before cfg after) past)
      (capabilityBytes before cfg after).length = (chann', 0) ∧
    chann'.codecType = codecType ∧
    ∀ i (hi : i < 12), i + 3 < cfg.length → chann'.codecInfo[i] = cfg.getD (i + 3) 0

theorem memory_drop :
    (fun i => memory bytes past (n + i)) = memory (bytes.drop n) fun i => past (n + i) := by
  funext i
  simp [memory, List.getD, getElem?_drop]

theorem parseService_other (serviceCategory : UInt8) (sep : LocalSep) (chann : SigChann)
    (cap : Nat → UInt8) (serviceLen : Nat)
    (hcategory : category ≠ srvCategMediaCodec) :
    ∃ chann', parseService serviceCategory sep chann category cap serviceLen = .ok chann' ∧
      chann'.codecType = chann.codecType ∧ chann'.codecInfo = chann.codecInfo := by
  unfold parseService
  rw [if_neg hcategory]
  split_ifs <;> exact ⟨_, rfl, rfl, rfl⟩

theorem parse_done : avdtpConfigParse serviceCategory sep fuel chann cap 0 = (chann, 0) := by
  cases fuel <;> rfl

theorem parse_round (hlt : payload.length < 256) :
    avdtpConfigParse serviceCategory sep (fuel + 1) chann
        (memory (category :: UInt8.ofNat payload.length :: payload ++ rest) past)
        (category :: UInt8.ofNat payload.length :: payload ++ rest).length =
      match parseService serviceCategory sep chann category
          (memory (payload ++ rest) fun i => past (2 + i)) payload.length with
      | .error e => (chann, e)
      | .ok chann =>
        avdtpConfigParse serviceCategory sep fuel chann
          (memory rest fun i => past (2 + payload.length + i)) rest.length := by
  have hcategory : memory (category :: UInt8.ofNat payload.length :: payload ++ rest) past 0 =
      category := rfl
  have hserviceLen : (memory (category :: UInt8.ofNat payload.length :: payload ++ rest) past
      1).toNat = payload.length := by
    have h : memory (category :: UInt8.ofNat payload.length :: payload ++ rest) past 1 =
        UInt8.ofNat payload.length := rfl
    rw [h, UInt8.toNat_ofNat']
    exact Nat.mod_eq_of_lt hlt
  have hlen : (category :: UInt8.ofNat payload.length :: payload ++ rest).length =
      payload.length + 2 + rest.length := by
    simp only [cons_append, length_cons, length_append]
    omega
  have hpayload : (category :: UInt8.ofNat payload.length :: payload ++ rest).drop 2 =
      payload ++ rest := rfl
  have hrest : (category :: UInt8.ofNat payload.length :: payload ++ rest).drop
      (2 + payload.length) = rest := by
    rw [← drop_drop, hpayload, drop_left]
  rw [avdtpConfigParse, if_pos (by rw [hlen]; omega)]
  simp only [hcategory, hserviceLen, memory_drop, hpayload, hrest, hlen]
  cases parseService serviceCategory sep chann category
      (memory (payload ++ rest) fun i => past (2 + i)) payload.length with
  | error e => rfl
  | ok chann1 =>
    simp only
    split
    . have hsub : payload.length + 2 + rest.length - (payload.length + 2) = rest.length := by omega
      rw [hsub]
    . have hnil : rest.length = 0 := by omega
      rw [hnil, parse_done]

theorem parse_others (serviceCategory : UInt8) (sep : LocalSep) (fuel : Nat) (chann : SigChann)
    (after : List Service) (past : Nat → UInt8)
    (hfuel : ((after.map Service.bytes).flatten).length ≤ fuel) :
    ∃ chann', avdtpConfigParse serviceCategory sep fuel chann
        (memory (after.map Service.bytes).flatten past) (after.map Service.bytes).flatten.length =
        (chann', 0) ∧
      chann'.codecType = chann.codecType ∧ chann'.codecInfo = chann.codecInfo := by
  induction after generalizing fuel chann past with
  | nil => exact ⟨chann, parse_done, rfl, rfl⟩
  | cons s after ih =>
    rw [map_cons, flatten_cons, Service.bytes] at hfuel ⊢
    cases fuel with
    | zero => simp at hfuel
    | succ fuel =>
      rw [parse_round s.payload_lt]
      obtain ⟨chann1, hservice, htype, hinfo⟩ := parseService_other serviceCategory sep chann
        (memory (s.payload ++ (after.map Service.bytes).flatten) fun i => past (2 + i))
        s.payload.length s.notCodec
      rw [hservice]
      have hrestFuel : (after.map Service.bytes).flatten.length ≤ fuel := by
        simp only [cons_append, length_cons, length_append] at hfuel
        omega
      obtain ⟨chann', hrest, htype', hinfo'⟩ := ih fuel chann1
        (fun i => past (2 + s.payload.length + i)) hrestFuel
      exact ⟨chann', hrest, htype'.trans htype, hinfo'.trans hinfo⟩

theorem parse_before (serviceCategory : UInt8) (sep : LocalSep) (rest : List UInt8)
    (chann : SigChann) (before : List Service) (past : Nat → UInt8)
    (hfuel : ((before.map Service.bytes).flatten ++ rest).length ≤ fuel) :
    ∃ fuel' chann' past', rest.length ≤ fuel' ∧
      avdtpConfigParse serviceCategory sep fuel chann
        (memory ((before.map Service.bytes).flatten ++ rest) past)
        ((before.map Service.bytes).flatten ++ rest).length =
      avdtpConfigParse serviceCategory sep fuel' chann' (memory rest past') rest.length := by
  induction before generalizing fuel chann past with
  | nil => exact ⟨fuel, chann, past, hfuel, rfl⟩
  | cons s before ih =>
    rw [map_cons, flatten_cons, append_assoc, Service.bytes] at hfuel ⊢
    cases fuel with
    | zero => simp at hfuel
    | succ fuel =>
      rw [parse_round s.payload_lt]
      obtain ⟨chann1, hservice, _, _⟩ := parseService_other serviceCategory sep chann
        (memory (s.payload ++ ((before.map Service.bytes).flatten ++ rest)) fun i => past (2 + i))
        s.payload.length s.notCodec
      rw [hservice]
      exact ih chann1 (fun i => past (2 + s.payload.length + i)) (by
        simp only [cons_append, length_cons, length_append] at hfuel ⊢
        omega)

theorem checkCodec_congr (h : ∀ i, i < 6 → cap i = cap' i) :
    checkCodec sep cap = checkCodec sep cap' := by
  simp only [checkCodec, checkSbc, checkAac, h 1 (by decide), h 2 (by decide), h 3 (by decide),
    h 4 (by decide), h 5 (by decide)]

theorem memory_append (hi : i < payload.length) :
    memory (payload ++ rest) past i = payload.getD i 0 := by
  simp [memory, List.getD, getElem?_append_left hi, getElem?_eq_getElem hi]

theorem checkCodec_type (h : checkCodec sep cap = 0) : sep.codecType = cap 1 := by
  by_contra hne
  unfold checkCodec at h
  split at h
  . revert h
    decide
  . revert h
    decide

theorem storeInfo_get (hi : i < 12)
    (hlt : i < serviceLen - 2) : (storeInfo codecInfo cap serviceLen)[i] = cap (2 + i) := by
  have hmin : i < min (serviceLen - 2) maxCodecInfoSize := by
    unfold maxCodecInfoSize
    omega
  rw [storeInfo, Vector.getElem_ofFn]
  exact if_pos hmin

theorem accepted_iff (payload : List UInt8)
    (hlen : 6 ≤ payload.length) (hlt : payload.length < 256) :
    Accepted codecType acceptor (UInt8.ofNat payload.length :: payload) ↔
      checkCodec ⟨codecType, acceptor⟩ (fun i => payload.getD i 0) = 0 := by
  have hround : ∀ serviceCategory fuel chann rest past,
      avdtpConfigParse serviceCategory ⟨codecType, acceptor⟩ (fuel + 1) chann
        (memory (srvCategMediaCodec :: UInt8.ofNat payload.length :: payload ++ rest) past)
        (srvCategMediaCodec :: UInt8.ofNat payload.length :: payload ++ rest).length =
      if checkCodec ⟨codecType, acceptor⟩ (fun i => payload.getD i 0) ≠ 0 then
        (chann, checkCodec ⟨codecType, acceptor⟩ (fun i => payload.getD i 0))
      else
        avdtpConfigParse serviceCategory ⟨codecType, acceptor⟩ fuel
          (storeCodec chann (memory (payload ++ rest) fun i => past (2 + i)) payload.length)
          (memory rest fun i => past (2 + payload.length + i)) rest.length := by
    intro serviceCategory fuel chann rest past
    rw [parse_round hlt, parseService, if_pos rfl]
    have hcheck : checkCodec ⟨codecType, acceptor⟩
        (memory (payload ++ rest) fun i => past (2 + i)) =
        checkCodec ⟨codecType, acceptor⟩ (fun i => payload.getD i 0) :=
      checkCodec_congr fun i hi => memory_append (by omega)
    rw [hcheck]
    split_ifs <;> rfl
  constructor
  . intro h
    obtain ⟨chann', hparse, _⟩ := h 0 ⟨0, 0, acceptor, 0, 0⟩ [] [] fun _ => 0
    by_contra hne
    have hbytes : capabilityBytes [] (UInt8.ofNat payload.length :: payload) [] =
        srvCategMediaCodec :: UInt8.ofNat payload.length :: payload ++ [] := rfl
    rw [hbytes] at hparse
    have hfuel : (srvCategMediaCodec :: UInt8.ofNat payload.length :: payload ++ []).length =
        payload.length + 1 + 1 := by simp
    rw [hfuel] at hparse
    have h1 := hround 0 (payload.length + 1) ⟨0, 0, acceptor, 0, 0⟩ [] fun _ => 0
    rw [hfuel] at h1
    rw [h1, if_pos hne] at hparse
    exact hne (Prod.mk.inj hparse).2
  . intro hcheck serviceCategory chann before after past
    obtain ⟨fuel, chann1, past1, hfuel, hbefore⟩ := parse_before serviceCategory
      ⟨codecType, acceptor⟩ (srvCategMediaCodec ::
        (UInt8.ofNat payload.length :: payload) ++ (after.map Service.bytes).flatten)
      chann before past (Nat.le_refl _)
    have hbytes : capabilityBytes before (UInt8.ofNat payload.length :: payload) after =
        (before.map Service.bytes).flatten ++ (srvCategMediaCodec ::
          (UInt8.ofNat payload.length :: payload) ++ (after.map Service.bytes).flatten) := rfl
    rw [hbytes, hbefore]
    cases fuel with
    | zero => simp at hfuel
    | succ fuel =>
      have hnot : ¬checkCodec ⟨codecType, acceptor⟩ (fun i => payload.getD i 0) ≠ 0 := by
        rw [ne_eq, not_not]
        exact hcheck
      have h1 := hround serviceCategory fuel chann1 (after.map Service.bytes).flatten past1
      rw [if_neg hnot] at h1
      obtain ⟨chann', hrest, htype, hinfo⟩ := parse_others serviceCategory
        ⟨codecType, acceptor⟩ fuel
        (storeCodec chann1 (memory (payload ++ (after.map Service.bytes).flatten)
          fun i => past1 (2 + i)) payload.length) after
        (fun i => past1 (2 + payload.length + i)) (by
          simp only [cons_append, length_cons, length_append] at hfuel
          omega)
      refine ⟨chann', h1.trans hrest, ?_, ?_⟩
      . rw [htype]
        have h := checkCodec_type hcheck
        simp only [storeCodec, memory_append (show 1 < payload.length by omega)]
        exact h.symm
      . intro i hi hcfg
        simp only [length_cons] at hcfg
        simp only [hinfo, storeCodec]
        rw [storeInfo_get hi (by omega), memory_append (by omega)]
        rw [show i + 3 = (2 + i) + 1 by omega, getD_cons_succ]

structure SbcCommon (acceptor initiator : CodecInfo) : Prop where
  frequency : HasCommon [0x80, 0x40, 0x20, 0x10] acceptor[0] initiator[0]
  channelMode : HasCommon [0x08, 0x04, 0x02, 0x01] acceptor[0] initiator[0]
  block : HasCommon [0x80, 0x40, 0x20, 0x10] acceptor[1] initiator[1]
  subbands : HasCommon [0x08, 0x04] acceptor[1] initiator[1]
  allocation : HasCommon [0x02, 0x01] acceptor[1] initiator[1]
  bitpool : max acceptor[2].toNat initiator[2].toNat ≤ min acceptor[3].toNat initiator[3].toNat

structure SbcSelected (acceptor initiator : CodecInfo) (cfg : List UInt8) : Prop where
  length : cfg.length = 7
  frequency : OneCommon [0x80, 0x40, 0x20, 0x10] (cfg.getD 3 0 &&& 0xf0) acceptor[0] initiator[0]
  channelMode : OneCommon [0x08, 0x04, 0x02, 0x01] (cfg.getD 3 0 &&& 0x0f) acceptor[0] initiator[0]
  block : OneCommon [0x80, 0x40, 0x20, 0x10] (cfg.getD 4 0 &&& 0xf0) acceptor[1] initiator[1]
  subbands : OneCommon [0x08, 0x04] (cfg.getD 4 0 &&& 0x0c) acceptor[1] initiator[1]
  allocation : OneCommon [0x02, 0x01] (cfg.getD 4 0 &&& 0x03) acceptor[1] initiator[1]
  minBitpool : (cfg.getD 5 0).toNat = max acceptor[2].toNat initiator[2].toNat
  maxBitpool : (cfg.getD 6 0).toNat = min acceptor[3].toNat initiator[3].toNat
  bitpool : (cfg.getD 5 0).toNat ≤ (cfg.getD 6 0).toNat

def aacTypes : List UInt8 := [0x80, 0x40, 0x20, 0x10, 0x08, 0x04, 0x02]

def aacChannelSettings : List UInt8 := [0x08, 0x04, 0x02, 0x01]

structure AacCommon (acceptor initiator : CodecInfo) : Prop where
  objectType : HasCommon aacTypes acceptor[0] initiator[0]
  frequency : HasCommon aacFrequencies acceptor[1] initiator[1] ∨
    HasCommon aacHighFrequencies acceptor[2] initiator[2]
  channels : HasCommon aacChannelSettings acceptor[2] initiator[2]

def FrequencyCommon (high low : UInt8) (acceptor initiator : CodecInfo) : Prop :=
  OneCommon aacFrequencies high acceptor[1] initiator[1] ∧ low = 0 ∨
    high = 0 ∧ OneCommon aacHighFrequencies low acceptor[2] initiator[2]

structure AacSelected (acceptor initiator : CodecInfo) (cfg : List UInt8) : Prop where
  length : cfg.length = 9
  objectType : OneCommon aacTypes (cfg.getD 3 0 &&& 0xfe) acceptor[0] initiator[0]
  drc : cfg.getD 3 0 &&& 0x01 ≠ 0 → acceptor[0] &&& 0x01 ≠ 0 ∧ initiator[0] &&& 0x01 ≠ 0
  frequency : FrequencyCommon (cfg.getD 4 0) (cfg.getD 5 0 &&& 0xf0) acceptor initiator
  channels : OneCommon aacChannelSettings (cfg.getD 5 0 &&& 0x0f) acceptor[2] initiator[2]
  vbr : cfg.getD 6 0 &&& 0x80 ≠ 0 → acceptor[3] &&& 0x80 ≠ 0 ∧ initiator[3] &&& 0x80 ≠ 0
  bitRate : (cfg.getD 6 0 &&& 0x7f).toNat * 65536 + (cfg.getD 7 0).toNat * 256 +
    (cfg.getD 8 0).toNat = min (aacBitRate acceptor) (aacBitRate initiator)

section

variable {acceptor initiator : CodecInfo}

theorem all_of {P : UInt8 → Prop} [DecidablePred P] {values : List UInt8}
    (h : (values.all fun v => decide (P v)) = true) : ∀ v ∈ values, P v :=
  fun v hv => of_decide_eq_true (all_eq_true.mp h v hv)

theorem HasCommon.perm {values : List UInt8} {remote localInfo : UInt8}
    (h : HasCommon values remote localInfo) (values' : List UInt8)
    (hperm : (values.all fun v => decide (v ∈ values')) = true) :
    HasCommon values' remote localInfo := by
  obtain ⟨v, hv, hboth⟩ := h
  exact ⟨v, all_of hperm v hv, hboth⟩

theorem OneCommon.perm {values : List UInt8} {v remote localInfo : UInt8}
    (h : OneCommon values v remote localInfo) (values' : List UInt8)
    (hperm : (values.all fun v => decide (v ∈ values')) = true) :
    OneCommon values' v remote localInfo :=
  ⟨all_of hperm v h.1, h.2⟩

theorem sbc_fields {a b : UInt8} (ha : a ∈ sbcFrequencies) (hb : b ∈ sbcChannelModes) :
    (a ||| b) &&& 0xf0 = a ∧ (a ||| b) &&& 0x0f = b ∧ a &&& 0xf0 = a ∧ b &&& 0x0f = b := by
  have key : (sbcFrequencies.all fun a => sbcChannelModes.all fun b => decide
      ((a ||| b) &&& 0xf0 = a ∧ (a ||| b) &&& 0x0f = b ∧ a &&& 0xf0 = a ∧ b &&& 0x0f = b)) =
      true := by decide
  exact all_of (all_eq_true.mp key a ha) b hb

theorem sbc_moreFields {a b c : UInt8} (ha : a ∈ sbcBlocks) (hb : b ∈ sbcSubbands)
    (hc : c ∈ sbcAllocations) :
    (a ||| b ||| c) &&& 0xf0 = a ∧ (a ||| b ||| c) &&& 0x0c = b ∧ (a ||| b ||| c) &&& 0x03 = c ∧
      a &&& 0xf0 = a ∧ b &&& 0x0c = b ∧ c &&& 0x03 = c := by
  have key : (sbcBlocks.all fun a => sbcSubbands.all fun b => sbcAllocations.all fun c => decide
      ((a ||| b ||| c) &&& 0xf0 = a ∧ (a ||| b ||| c) &&& 0x0c = b ∧
        (a ||| b ||| c) &&& 0x03 = c ∧ a &&& 0xf0 = a ∧ b &&& 0x0c = b ∧ c &&& 0x03 = c)) =
      true := by decide
  exact all_of (all_eq_true.mp (all_eq_true.mp key a ha) b hb) c hc

theorem checkCodec_sbc (h : cap 1 = sbcMediaCodecType) :
    checkCodec ⟨sbcMediaCodecType, info⟩ cap = checkSbc ⟨sbcMediaCodecType, info⟩ cap := by
  simp [checkCodec, h]

theorem checkCodec_aac (h : cap 1 = aacMediaCodecType) :
    checkCodec ⟨aacMediaCodecType, info⟩ cap = checkAac ⟨aacMediaCodecType, info⟩ cap := by
  have hne : aacMediaCodecType ≠ sbcMediaCodecType := by decide
  simp [checkCodec, h, hne]

theorem sbc_agree (h : SbcCommon acceptor initiator) :
    SbcSelected acceptor initiator (avdtpCodecSbcHandler acceptor initiator) ∧
      Accepted sbcMediaCodecType acceptor (avdtpCodecSbcHandler acceptor initiator) := by
  have hf := firstCommon_common 0x10
    (h.frequency.perm sbcFrequencies (by decide))
  have hm := firstCommon_common 0x08
    (h.channelMode.perm sbcChannelModes (by decide))
  have hb := firstCommon_common 0x10
    (h.block.perm sbcBlocks (by decide))
  have hs := firstCommon_common 0x04
    (h.subbands.perm sbcSubbands (by decide))
  have ha := firstCommon_common 0x01
    (h.allocation.perm sbcAllocations (by decide))
  have hpool := h.bitpool
  unfold avdtpCodecSbcHandler
  generalize firstCommon sbcFrequencies acceptor[0] initiator[0] 0x10 = f at hf ⊢
  generalize firstCommon sbcChannelModes acceptor[0] initiator[0] 0x08 = m at hm ⊢
  generalize firstCommon sbcBlocks acceptor[1] initiator[1] 0x10 = b at hb ⊢
  generalize firstCommon sbcSubbands acceptor[1] initiator[1] 0x04 = s at hs ⊢
  generalize firstCommon sbcAllocations acceptor[1] initiator[1] 0x01 = a at ha ⊢
  have hmin : (if acceptor[2] > initiator[2] then acceptor[2] else initiator[2]).toNat =
      max acceptor[2].toNat initiator[2].toNat := by
    split
    case isTrue hgt =>
      have := UInt8.lt_iff_toNat_lt.mp hgt
      omega
    case isFalse hle =>
      have := UInt8.le_iff_toNat_le.mp (UInt8.not_lt.mp hle)
      omega
  have hmax : (if acceptor[3] < initiator[3] then acceptor[3] else initiator[3]).toNat =
      min acceptor[3].toNat initiator[3].toNat := by
    split
    case isTrue hlt =>
      have := UInt8.lt_iff_toNat_lt.mp hlt
      omega
    case isFalse hge =>
      have := UInt8.le_iff_toNat_le.mp (UInt8.not_lt.mp hge)
      omega
  generalize (if acceptor[2] > initiator[2] then acceptor[2] else initiator[2]) = lo at hmin ⊢
  generalize (if acceptor[3] < initiator[3] then acceptor[3] else initiator[3]) = hi at hmax ⊢
  obtain ⟨hf1, hm1, hf2, hm2⟩ := sbc_fields hf.1 hm.1
  obtain ⟨hb1, hs1, ha1, hb2, hs2, ha2⟩ := sbc_moreFields hb.1 hs.1 ha.1
  constructor
  . constructor
    . rfl
    . show OneCommon _ ((f ||| m) &&& 0xf0) _ _
      rw [hf1]
      exact hf.perm _ (by decide)
    . show OneCommon _ ((f ||| m) &&& 0x0f) _ _
      rw [hm1]
      exact hm.perm _ (by decide)
    . show OneCommon _ ((b ||| s ||| a) &&& 0xf0) _ _
      rw [hb1]
      exact hb.perm _ (by decide)
    . show OneCommon _ ((b ||| s ||| a) &&& 0x0c) _ _
      rw [hs1]
      exact hs.perm _ (by decide)
    . show OneCommon _ ((b ||| s ||| a) &&& 0x03) _ _
      rw [ha1]
      exact ha.perm _ (by decide)
    . exact hmin
    . exact hmax
    . show lo.toNat ≤ hi.toNat
      omega
  . apply (accepted_iff [_, _, _, _, _, _] (by simp) (by simp)).mpr
    rw [checkCodec_sbc rfl]
    have hlo : ¬lo < acceptor[2] := by
      rw [UInt8.lt_iff_toNat_lt]
      omega
    have hhi : ¬hi > acceptor[3] := by
      intro hgt
      have := UInt8.lt_iff_toNat_lt.mp hgt
      omega
    simp only [checkSbc, getD_cons_succ, getD_cons_zero]
    rw [hf1, hm1, hb1, hs1, ha1, if_neg hlo, if_neg hhi,
      checkField_ok (hf.perm [0x80, 0x40, 0x20, 0x10] (by decide)).1 hf2 hf.2.1,
      checkField_ok (hm.perm [0x08, 0x04, 0x02, 0x01] (by decide)).1 hm2 hm.2.1,
      checkField_ok (hb.perm [0x80, 0x40, 0x20, 0x10] (by decide)).1 hb2 hb.2.1,
      checkField_ok (hs.perm [0x08, 0x04] (by decide)).1 hs2 hs.2.1,
      checkField_ok (ha.perm [0x02, 0x01] (by decide)).1 ha2 ha.2.1]
    decide

theorem bytes_and (a b c d : UInt8) :
    (a.toNat * 256 + b.toNat) &&& (c.toNat * 256 + d.toNat) =
      (a &&& c).toNat * 256 + (b &&& d).toNat := by
  have hb := b.toNat_lt
  have hd := d.toNat_lt
  have hbd := (b &&& d).toNat_lt
  apply Nat.eq_of_testBit_eq
  intro j
  have h1 := Nat.testBit_two_pow_mul_add a.toNat (i := 8) hb j
  have h2 := Nat.testBit_two_pow_mul_add c.toNat (i := 8) hd j
  have h3 := Nat.testBit_two_pow_mul_add (a &&& c).toNat (i := 8) hbd j
  rw [Nat.mul_comm] at h1 h2 h3
  rw [Nat.testBit_and]
  change ((a.toNat * 2 ^ 8 + b.toNat).testBit j && (c.toNat * 2 ^ 8 + d.toNat).testBit j) =
    ((a &&& c).toNat * 2 ^ 8 + (b &&& d).toNat).testBit j
  rw [h1, h2, h3, UInt8.toNat_and, UInt8.toNat_and]
  split <;> simp

theorem toNat_pos {v : UInt8} (h : v ≠ 0) : v.toNat ≠ 0 := by
  intro hz
  exact h (UInt8.toNat_inj.mp hz)

theorem frequency_ok (h : HasCommon aacFrequencies acceptor[1] initiator[1] ∨
    HasCommon aacHighFrequencies acceptor[2] initiator[2]) :
    FrequencyCommon (aacFrequency acceptor initiator).1 (aacFrequency acceptor initiator).2 acceptor
        initiator ∧
      (aacFrequency acceptor initiator).2 ∈ ([0, 0x80, 0x40, 0x20, 0x10] : List UInt8) := by
  simp only [aacFrequency]
  have hnonzero : ∀ v ∈ aacFrequencies, v ≠ 0 := all_of (by decide)
  by_cases hlow : HasCommon aacFrequencies acceptor[1] initiator[1]
  . have hcommon := firstCommon_common 0x00 hlow
    rw [if_pos (hnonzero _ hcommon.1)]
    exact ⟨.inl ⟨hcommon, rfl⟩, by simp⟩
  . have hzero : firstCommon aacFrequencies acceptor[1] initiator[1] 0x00 = 0 := by
      obtain hcommon | hzero := @firstCommon_cases aacFrequencies acceptor[1] initiator[1] 0x00
      . exact absurd ⟨_, hcommon.1, hcommon.2⟩ hlow
      . exact hzero
    have hhigh := firstCommon_common 0x80 (h.resolve_left hlow)
    have hmem : ∀ v ∈ aacHighFrequencies, v ∈ ([0, 0x80, 0x40, 0x20, 0x10] : List UInt8) :=
      all_of (by decide)
    simp only [hzero, ne_eq, not_true_eq_false, if_false]
    exact ⟨.inr ⟨rfl, hhigh⟩, hmem _ hhigh.1⟩

theorem checkFrequency_ok {high low : UInt8} (h : FrequencyCommon high low acceptor initiator) :
    checkFrequency high low acceptor[1] (acceptor[2] &&& 0xf0) = 0 := by
  simp only [checkFrequency, bytes_and]
  obtain ⟨⟨hv, hboth, _⟩, rfl⟩ | ⟨rfl, hv, hboth, _⟩ := h
  . have hmem : ∀ v ∈ aacFrequencies, v.toNat * 256 + (0 : UInt8).toNat ∈ aacFrequencyValues :=
      all_of (by decide)
    rw [UInt8.and_comm] at hboth
    have hpos := toNat_pos hboth
    rw [if_neg (not_not_intro (hmem _ hv)), if_neg (by omega)]
  . have hmem : ∀ v ∈ aacHighFrequencies, (0 : UInt8).toNat * 256 + v.toNat ∈ aacFrequencyValues ∧
        v &&& 0xf0 = v := all_of (by decide)
    have hpos := toNat_pos hboth
    rw [if_neg (not_not_intro (hmem _ hv).1), and_mask (hmem _ hv).2, if_neg (by omega)]

theorem aac_channelBits {c f : UInt8} (hc : c ∈ aacChannels)
    (hf : f ∈ ([0, 0x80, 0x40, 0x20, 0x10] : List UInt8)) :
    (c ||| f) &&& 0xf0 = f ∧ (c ||| f) &&& 0x0f = c ∧ c &&& 0x0f = c := by
  have key : (aacChannels.all fun c => ([0, 0x80, 0x40, 0x20, 0x10] : List UInt8).all fun f =>
      decide ((c ||| f) &&& 0xf0 = f ∧ (c ||| f) &&& 0x0f = c ∧ c &&& 0x0f = c)) = true := by
    decide
  exact all_of (all_eq_true.mp key c hc) f hf

theorem aac_channel_mem (remote localInfo : UInt8) :
    firstCommon aacChannels remote localInfo 0x08 ∈ aacChannels := by
  obtain h | h := @firstCommon_cases aacChannels remote localInfo 0x08
  . exact h.1
  . rw [h]
    decide

theorem or_and (a b c : UInt8) : (a ||| b) &&& c = a &&& c ||| b &&& c := by
  apply UInt8.toBitVec_inj.mp
  ext i hi
  simp [Bool.and_or_distrib_right]

theorem rate_bits (vbr x : UInt8) (h : vbr = 0x80 ∨ vbr = 0) :
    (vbr ||| x &&& 0x7f) &&& 0x7f = x &&& 0x7f ∧ (vbr ||| x &&& 0x7f) &&& 0x80 = vbr := by
  have hself : x &&& 0x7f &&& 0x7f = x &&& 0x7f := by
    rw [UInt8.and_assoc]
    rfl
  have hnone : x &&& 0x7f &&& 0x80 = 0 := by
    rw [UInt8.and_assoc]
    exact UInt8.and_zero
  constructor
  . rw [or_and, hself]
    obtain rfl | rfl := h
    . exact UInt8.zero_or
    . exact UInt8.zero_or
  . rw [or_and, hnone]
    obtain rfl | rfl := h
    . exact UInt8.or_zero
    . exact UInt8.or_zero

theorem aac_object (h : HasCommon aacTypes acceptor[0] initiator[0]) :
    OneCommon aacTypes (firstCommon aacObjectTypes acceptor[0] initiator[0] 0x80) acceptor[0]
        initiator[0] ∧
      firstCommon aacObjectTypes acceptor[0] initiator[0] 0x80 &&& (0xfe : UInt8) =
        firstCommon aacObjectTypes acceptor[0] initiator[0] 0x80 ∧
      firstCommon aacObjectTypes acceptor[0] initiator[0] 0x80 &&& (0x01 : UInt8) = 0 := by
  have hsplit : aacObjectTypes = aacTypes ++ [0x01] := rfl
  rw [hsplit, firstCommon_append h]
  have hcommon := firstCommon_common 0x80 h
  have key : ∀ v ∈ aacTypes, v &&& 0xfe = v ∧ v &&& 0x01 = 0 := all_of (by decide)
  exact ⟨hcommon, key _ hcommon.1⟩

theorem aac_agree_iff (h : AacCommon acceptor initiator) :
    AacSelected acceptor initiator (avdtpCodecAacHandler acceptor initiator) ∧
        Accepted aacMediaCodecType acceptor (avdtpCodecAacHandler acceptor initiator) ↔
      acceptor[0] &&& 0x01 = 0 ∧ HasCommon aacChannels acceptor[2] initiator[2] := by
  obtain ⟨ho, ho1, ho2⟩ := aac_object h.objectType
  obtain ⟨hf, hfmem⟩ := frequency_ok h.frequency
  have hc := aac_channel_mem acceptor[2] initiator[2]
  have hchannel : HasCommon aacChannels acceptor[2] initiator[2] →
      OneCommon aacChannels (firstCommon aacChannels acceptor[2] initiator[2] 0x08) acceptor[2]
        initiator[2] := fun hcommon => firstCommon_common 0x08 hcommon
  unfold avdtpCodecAacHandler
  simp only
  generalize firstCommon aacObjectTypes acceptor[0] initiator[0] 0x80 = o at ho ho1 ho2 ⊢
  generalize aacFrequency acceptor initiator = f at hf hfmem ⊢
  generalize firstCommon aacChannels acceptor[2] initiator[2] 0x08 = c at hc hchannel ⊢
  have hvbr :
      (if acceptor[3] &&& 0x80 ≠ 0 ∧ initiator[3] &&& 0x80 ≠ 0 then (0x80 : UInt8) else 0x00) =
      0x80 ∧ acceptor[3] &&& 0x80 ≠ 0 ∧ initiator[3] &&& 0x80 ≠ 0 ∨
      (if acceptor[3] &&& 0x80 ≠ 0 ∧ initiator[3] &&& 0x80 ≠ 0 then (0x80 : UInt8) else 0x00) =
        0 := by
    split
    case isTrue hboth => exact .inl ⟨rfl, hboth⟩
    case isFalse => exact .inr rfl
  have hrate : aacBitRate (if aacBitRate initiator > aacBitRate acceptor then acceptor
      else initiator) = min (aacBitRate acceptor) (aacBitRate initiator) := by
    split <;> omega
  generalize (if acceptor[3] &&& 0x80 ≠ 0 ∧ initiator[3] &&& 0x80 ≠ 0 then (0x80 : UInt8)
    else 0x00) = vbr at hvbr ⊢
  generalize (if aacBitRate initiator > aacBitRate acceptor then acceptor else initiator) = rate
    at hrate ⊢
  obtain ⟨hrate1, hrate2⟩ := rate_bits vbr rate[3] (hvbr.imp And.left id)
  obtain ⟨hc1, hc2, hc3⟩ := aac_channelBits hc hfmem
  have haccepted : Accepted aacMediaCodecType acceptor
      [mediaCodecAacLosc, audioMediaType <<< 4, aacMediaCodecType, o, f.1, c ||| f.2,
        vbr ||| rate[3] &&& 0x7f, rate[4], rate[5]] ↔ _ :=
    accepted_iff [audioMediaType <<< 4, aacMediaCodecType, o, f.1, c ||| f.2,
      vbr ||| rate[3] &&& 0x7f, rate[4], rate[5]] (by simp) (by simp)
  rw [checkCodec_aac rfl] at haccepted
  simp only [checkAac, getD_cons_succ, getD_cons_zero, firstError_eq_zero,
    mem_cons, not_mem_nil, or_false, forall_eq_or_imp, forall_eq, ho1, ho2, hc1, hc2]
    at haccepted
  rw [haccepted]
  constructor
  . rintro ⟨hselected, _, hdrc, _, _⟩
    constructor
    . -- the configuration has no DRC, so the acceptor must not have it either
      unfold checkDrc at hdrc
      rw [if_neg (by simp)] at hdrc
      split at hdrc
      . exact absurd hdrc (by decide)
      case isFalse hsame =>
        rw [ne_eq, not_not] at hsame
        exact hsame.symm
    . have hchannels : OneCommon aacChannelSettings ((c ||| f.2) &&& 0x0f) acceptor[2]
          initiator[2] := hselected.channels
      rw [hc2] at hchannels
      exact ⟨c, hc, hchannels.2⟩
  . rintro ⟨hdrc, hcommon⟩
    have hchannels := hchannel hcommon
    refine ⟨?_, checkField_ok (ho.perm [0x80, 0x40, 0x20, 0x10, 0x08, 0x04, 0x02] (by decide)).1
      ho1 ho.2.1, ?_, checkFrequency_ok hf,
      checkField_ok (hchannels.perm [0x08, 0x04, 0x02, 0x01] (by decide)).1 hc3 hchannels.2.1⟩
    . constructor
      . rfl
      . show OneCommon _ (o &&& 0xfe) _ _
        rw [ho1]
        exact ho
      . intro hone
        exact absurd ho2 hone
      . show FrequencyCommon f.1 ((c ||| f.2) &&& 0xf0) _ _
        rw [hc1]
        exact hf
      . show OneCommon _ ((c ||| f.2) &&& 0x0f) _ _
        rw [hc2]
        exact hchannels.perm _ (by decide)
      . intro hset
        have hset' : (vbr ||| rate[3] &&& 0x7f) &&& 0x80 ≠ 0 := hset
        rw [hrate2] at hset'
        exact (hvbr.resolve_right hset').2
      . show ((vbr ||| rate[3] &&& 0x7f) &&& 0x7f).toNat * 65536 + rate[4].toNat * 256 +
          rate[5].toNat = _
        rw [hrate1]
        exact hrate
    . unfold checkDrc
      rw [if_neg (by simp), hdrc]
      rfl

end

theorem config_agree (acceptor initiator : CodecInfo) :
    (SbcCommon acceptor initiator →
      SbcSelected acceptor initiator (avdtpCodecSbcHandler acceptor initiator) ∧
        Accepted sbcMediaCodecType acceptor (avdtpCodecSbcHandler acceptor initiator)) ∧
    (AacCommon acceptor initiator →
      (AacSelected acceptor initiator (avdtpCodecAacHandler acceptor initiator) ∧
          Accepted aacMediaCodecType acceptor (avdtpCodecAacHandler acceptor initiator) ↔
        acceptor[0] &&& 0x01 = 0 ∧ HasCommon aacChannels acceptor[2] initiator[2])) :=
  ⟨sbc_agree, aac_agree_iff⟩

def plainAac : CodecInfo := #v[0x80, 0x01, 0x8c, 0x80, 0x00, 0x00, 0, 0, 0, 0, 0, 0]

def drcAac : CodecInfo := #v[0x81, 0x01, 0x8c, 0x80, 0x00, 0x00, 0, 0, 0, 0, 0, 0]

theorem drcAac_common (initiator : CodecInfo) (h : initiator = plainAac ∨ initiator = drcAac) :
    AacCommon drcAac initiator := by
  obtain rfl | rfl := h
  . exact ⟨by decide, by decide, by decide⟩
  . exact ⟨by decide, by decide, by decide⟩

theorem plainAac_agree :
    AacSelected plainAac drcAac (avdtpCodecAacHandler plainAac drcAac) ∧
      Accepted aacMediaCodecType plainAac (avdtpCodecAacHandler plainAac drcAac) :=
  ((config_agree plainAac drcAac).2 ⟨by decide, by decide, by decide⟩).mpr (by decide)

theorem not_config_agree :
    ¬∀ acceptor initiator : CodecInfo, AacCommon acceptor initiator →
      Accepted aacMediaCodecType acceptor (avdtpCodecAacHandler acceptor initiator) := by
  intro h
  have hcommon := drcAac_common drcAac (.inr rfl)
  have haccepted := (accepted_iff (avdtpCodecAacHandler drcAac drcAac).tail (by decide)
    (by decide)).mp (h drcAac drcAac hcommon)
  revert haccepted
  decide

end AvdtpConfig
