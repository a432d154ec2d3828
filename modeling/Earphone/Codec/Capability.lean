import Earphone.Codec.Config
import Mathlib.Data.Nat.Bitwise

namespace Codec

open Scan Ltv
open Ascs
open BaseData (Item has)

structure CodecCap where
  typeExist : Nat
  supportedSamplingFrequencies : Nat
  supportedFrameDurations : Nat
  audioChannelCounts : Nat
  maxSupportedCodecFramesPerSdu : Nat
  minOctetsPerCodecFrame : Nat
  maxOctetsPerCodecFrame : Nat

def CodecCap.has (cap : CodecCap) (bit : Nat) : Bool := cap.typeExist &&& bit ≠ 0

def samplingFrequencyMask : Nat := 0x1FFF

def codecCapNeed (type length : Nat) : Except Unit Nat :=
  if type = 0x01 then if length = 3 then .ok 2 else .error ()
  else if type = 0x02 then if length = 2 then .ok 1 else .error ()
  else if type = 0x03 then if length = 2 then .ok 1 else .error ()
  else if type = 0x04 then if length = 5 then .ok 4 else .error ()
  else if type = 0x05 then if length = 2 then .ok 1 else .error ()
  else .ok 0

def codecCapUse (type : Nat) (value : List UInt8) (cap : CodecCap) : Except Unit CodecCap :=
  if type = 0x01 then
    if leNum value ||| samplingFrequencyMask ≠ samplingFrequencyMask then .error ()
    else .ok { cap with
      supportedSamplingFrequencies := leNum value, typeExist := cap.typeExist ||| 0x0001 }
  else if type = 0x02 then
    .ok { cap with
      supportedFrameDurations := leNum value, typeExist := cap.typeExist ||| 0x0002 }
  else if type = 0x03 then
    .ok { cap with audioChannelCounts := leNum value, typeExist := cap.typeExist ||| 0x0004 }
  else if type = 0x04 then
    .ok { cap with
      minOctetsPerCodecFrame := leNum (value.take 2)
      maxOctetsPerCodecFrame := leNum (value.drop 2)
      typeExist := cap.typeExist ||| 0x0008 }
  else if type = 0x05 then
    if leNum value = 0 then .error ()
    else .ok { cap with
      maxSupportedCodecFramesPerSdu := leNum value, typeExist := cap.typeExist ||| 0x0010 }
  else .ok { cap with typeExist := cap.typeExist ||| 0x1000 }

def codecCapFormat : Format Unit CodecCap :=
  { need := codecCapNeed, use := codecCapUse, short := () }

def codecCapParse (bytes : List UInt8) (base valueLen fuel : Nat) :
    Except Stuck (Except Unit CodecCap) :=
  if valueLen = 0 then .ok (.error ())
  else walk codecCapFormat bytes base valueLen fuel 0 ⟨0, 0, 0, 0, 1, 0, 0⟩

def popcount (n : Nat) : Nat := (List.range 32).countP n.testBit

def checkSamplingFrequency (cap : CodecCap) (cfg : CodecCfg) : Bool :=
  if has cfg Item.samplingFrequency.bit then
    cap.has 0x0001 &&
      cap.supportedSamplingFrequencies &&& ((1 <<< (cfg.sampleFrequency - 1)) % 2 ^ 16) ≠ 0
  else true

def checkFrameDuration (cap : CodecCap) (cfg : CodecCfg) : Bool :=
  if has cfg Item.frameDuration.bit then
    cap.has 0x0002 &&
      !(cfg.frameDuration = 0x00 && cap.supportedFrameDurations &&& 0x01 = 0) &&
      !(cfg.frameDuration = 0x01 && cap.supportedFrameDurations &&& 0x02 = 0) &&
      !(cfg.frameDuration = 0x02 && cap.supportedFrameDurations &&& 0x04 = 0) &&
      !(cfg.frameDuration = 0x03 && cap.supportedFrameDurations &&& 0x08 = 0)
  else true

def channels (cfg : CodecCfg) : Nat :=
  if popcount cfg.audioChannelAllocation = 0 then 1 else popcount cfg.audioChannelAllocation

def channelNum (cfg : CodecCfg) : Nat :=
  if has cfg Item.channelAllocation.bit then channels cfg else 0

def checkChannelAllocation (cap : CodecCap) (cfg : CodecCfg) : Bool :=
  if has cfg Item.channelAllocation.bit then
    cap.has 0x0004 && cap.audioChannelCounts &&& ((1 <<< (channelNum cfg - 1)) % 2 ^ 8) ≠ 0
  else true

def checkOctetsPerFrame (cap : CodecCap) (cfg : CodecCfg) : Bool :=
  if has cfg Item.octetsPerFrame.bit then
    -- without octets in the capability nothing is compared
    !cap.has 0x0008 || !(cfg.octetsPerCodecFrame < cap.minOctetsPerCodecFrame ||
      cfg.octetsPerCodecFrame > cap.maxOctetsPerCodecFrame)
  else true

def checkBlocksPerSdu (cap : CodecCap) (cfg : CodecCfg) : Bool :=
  if has cfg Item.blocksPerSdu.bit then
    if cap.has 0x0010 then
      channelNum cfg * cfg.codecFrameBlocksPerSdu % 2 ^ 8 ≤ cap.maxSupportedCodecFramesPerSdu
    else
      cfg.codecFrameBlocksPerSdu ≤ 1
  else true

def codecCfgCheckCap (cap : CodecCap) (cfg : CodecCfg) : Bool :=
  checkSamplingFrequency cap cfg && checkFrameDuration cap cfg && checkChannelAllocation cap cfg &&
    checkOctetsPerFrame cap cfg && checkBlocksPerSdu cap cfg

def channelsOf (cfg : CodecCfg) : Nat :=
  if has cfg Item.channelAllocation.bit then channels cfg else 1

structure Listed (cap : CodecCap) (cfg : CodecCfg) : Prop where
  samplingFrequency : has cfg Item.samplingFrequency.bit →
    cap.has 0x0001 ∧ cap.supportedSamplingFrequencies.testBit (cfg.sampleFrequency - 1)
  frameDuration : has cfg Item.frameDuration.bit →
    cap.has 0x0002 ∧ cap.supportedFrameDurations.testBit cfg.frameDuration
  channelAllocation : has cfg Item.channelAllocation.bit →
    cap.has 0x0004 ∧ channelsOf cfg ≤ 8 ∧ cap.audioChannelCounts.testBit (channelsOf cfg - 1)

structure Within (cap : CodecCap) (cfg : CodecCfg) : Prop where
  listed : Listed cap cfg
  octetsPerFrame : has cfg Item.octetsPerFrame.bit →
    cap.minOctetsPerCodecFrame ≤ cfg.octetsPerCodecFrame ∧
      cfg.octetsPerCodecFrame ≤ cap.maxOctetsPerCodecFrame
  blocksPerSdu : has cfg Item.blocksPerSdu.bit →
    channelsOf cfg * cfg.codecFrameBlocksPerSdu ≤ cap.maxSupportedCodecFramesPerSdu

def CapParsed (cap : CodecCap) : Prop :=
  ∃ bytes base len fuel, codecCapParse bytes base len fuel = .ok (.ok cap)

def CfgParsed (cfg : CodecCfg) : Prop :=
  ∃ bytes base len fuel, codecCfgParse bytes base len fuel = .ok (.ok cfg)

structure Judged (cap : CodecCap) (cfg : CodecCfg) : Prop where
  octetsPerFrame : has cfg Item.octetsPerFrame.bit → cap.has 0x0008 ∨ cfg.octetsPerCodecFrame = 0
  blocksPerSdu : has cfg Item.blocksPerSdu.bit →
    if cap.has 0x0010 then
      if has cfg Item.channelAllocation.bit then
        channelsOf cfg * cfg.codecFrameBlocksPerSdu < 2 ^ 8
      else
        cfg.codecFrameBlocksPerSdu ≤ cap.maxSupportedCodecFramesPerSdu
    else
      channelsOf cfg ≤ 1

def Refused (cap : CodecCap) (cfg : CodecCfg) : Prop :=
  (has cfg Item.octetsPerFrame.bit ∧ cap.has 0x0008 ∧
    ¬ (cap.minOctetsPerCodecFrame ≤ cfg.octetsPerCodecFrame ∧
      cfg.octetsPerCodecFrame ≤ cap.maxOctetsPerCodecFrame)) ∨
  (has cfg Item.blocksPerSdu.bit ∧
    if cap.has 0x0010 then
      has cfg Item.channelAllocation.bit ∧ cap.maxSupportedCodecFramesPerSdu <
        channelsOf cfg * cfg.codecFrameBlocksPerSdu % 2 ^ 8
    else
      1 < cfg.codecFrameBlocksPerSdu)

theorem and_two_pow_ne (n i : Nat) : n &&& 2 ^ i ≠ 0 ↔ n.testBit i = true := by
  rw [Nat.land_comm, Nat.two_pow_and]
  cases n.testBit i <;> simp

theorem and_shift_ne (n i w : Nat) :
    n &&& ((1 <<< i) % 2 ^ w) ≠ 0 ↔ i < w ∧ n.testBit i = true := by
  rw [Nat.one_shiftLeft]
  by_cases hi : i < w
  . rw [Nat.mod_eq_of_lt (Nat.pow_lt_pow_right (by decide) hi), and_two_pow_ne,
      and_iff_right hi]
  . rw [Nat.mod_eq_zero_of_dvd (Nat.pow_dvd_pow 2 (Nat.le_of_not_lt hi)), Nat.and_zero]
    simp [hi]

theorem walk_inv {σ : Type} {fmt : Format Unit σ} {inv : σ → Prop}
    (huse : ∀ type length value s s', fmt.need type length = .ok value.length → inv s →
      fmt.use type value s = .ok s' → inv s')
    {bytes : List UInt8} {base len fuel idx : Nat} {s t : σ} (hs : inv s)
    (h : walk fmt bytes base len fuel idx s = .ok (.ok t)) : inv t := by
  induction fuel generalizing idx s with
  | zero => cases h
  | succ fuel ih =>
    rw [walk] at h
    split_ifs at h
    . obtain ⟨length, -, h⟩ := bind_ok.mp h
      obtain ⟨type, -, h⟩ := bind_ok.mp h
      cases hneed : fmt.need type length with
      | error e => simp [hneed, pure, Except.pure] at h
      | ok n =>
        simp only [hneed] at h
        obtain ⟨value, hvalue, h⟩ := bind_ok.mp h
        have hlen : value.length = n := by
          unfold bytesAt at hvalue
          split_ifs at hvalue with hle
          cases hvalue
          rw [List.length_take, List.length_drop]
          omega
        cases hu : fmt.use type value s with
        | error e => simp [hu, pure, Except.pure] at h
        | ok s' =>
          simp only [hu] at h
          exact ih (huse type length value _ _ (hlen ▸ hneed) hs hu) h
    . cases h
      exact hs
    . cases h

theorem leNum_lt (l : List UInt8) : leNum l < 2 ^ (8 * l.length) := by
  induction l with
  | nil => exact Nat.one_pos
  | cons b l ih =>
    have hb := b.toNat_lt
    rw [leNum, List.length_cons, Nat.mul_succ, Nat.pow_add]
    omega

structure CfgInv (cfg : CodecCfg) : Prop where
  sampleFrequency : cfg.sampleFrequency ≤ 0x0A
  frameDuration : cfg.frameDuration ≤ 0x03
  codecFrameBlocksPerSdu : 1 ≤ cfg.codecFrameBlocksPerSdu

theorem CfgParsed.inv {cfg : CodecCfg} (h : CfgParsed cfg) : CfgInv cfg := by
  obtain ⟨bytes, base, len, fuel, h⟩ := h
  unfold codecCfgParse at h
  split_ifs at h
  . cases h
  . refine walk_inv (fun type length value s s' _ hs hu => ?_) ⟨by decide, by decide, by decide⟩ h
    obtain ⟨hf, hd, hb⟩ := hs
    simp only [codecCfgFormat, codecCfgUse] at hu
    split_ifs at hu <;> cases hu <;> constructor <;> dsimp only <;> omega

structure CapInv (cap : CodecCap) : Prop where
  octets : cap.has 0x0008 ∨ cap.minOctetsPerCodecFrame = 0 ∧ cap.maxOctetsPerCodecFrame = 0
  frames : cap.has 0x0010 ∨ cap.maxSupportedCodecFramesPerSdu = 1
  byte : cap.maxSupportedCodecFramesPerSdu < 2 ^ 8

theorem CapParsed.inv {cap : CodecCap} (h : CapParsed cap) : CapInv cap := by
  obtain ⟨bytes, base, len, fuel, h⟩ := h
  unfold codecCapParse at h
  split_ifs at h
  . cases h
  . refine walk_inv (fun type length value s s' hn hs hu => ?_)
      ⟨.inr ⟨rfl, rfl⟩, .inr rfl, by decide⟩ h
    obtain ⟨ho, hf, hb⟩ := hs
    have hbyte : type = 0x05 → leNum value < 2 ^ 8 := by
      rintro rfl
      have hlt := leNum_lt value
      rw [show codecCapFormat.need 0x05 length = if length = 2 then .ok 1 else .error () from rfl]
        at hn
      split_ifs at hn
      injection hn with hn
      rwa [← hn] at hlt
    clear hn
    simp only [codecCapFormat, codecCapUse] at hu
    split_ifs at hu <;> cases hu <;> constructor <;>
      simp_all [CodecCap.has, Nat.and_or_distrib_right]

theorem listed_iff (hcfg : CfgInv cfg) :
    (checkSamplingFrequency cap cfg && checkFrameDuration cap cfg &&
      checkChannelAllocation cap cfg) = true ↔ Listed cap cfg := by
  have hf : checkSamplingFrequency cap cfg = true ↔ (has cfg Item.samplingFrequency.bit →
      cap.has 0x0001 ∧ cap.supportedSamplingFrequencies.testBit (cfg.sampleFrequency - 1)) := by
    have hsmall := hcfg.sampleFrequency
    unfold checkSamplingFrequency
    split
    . next h =>
      rw [imp_iff_right h, Bool.and_eq_true, decide_eq_true_eq, and_shift_ne,
        and_iff_right (show cfg.sampleFrequency - 1 < 16 by omega)]
    . next h => exact iff_of_true rfl fun h' => absurd h' h
  have hd : checkFrameDuration cap cfg = true ↔ (has cfg Item.frameDuration.bit →
      cap.has 0x0002 ∧ cap.supportedFrameDurations.testBit cfg.frameDuration) := by
    have hbit := and_two_pow_ne cap.supportedFrameDurations
    have hsmall := hcfg.frameDuration
    unfold checkFrameDuration
    split
    . next h =>
      rw [imp_iff_right h]
      generalize cfg.frameDuration = d at hsmall
      rw [← hbit]
      obtain rfl | rfl | rfl | rfl : d = 0 ∨ d = 1 ∨ d = 2 ∨ d = 3 := by omega
      all_goals simp
    . next h => exact iff_of_true rfl fun h' => absurd h' h
  have hc : checkChannelAllocation cap cfg = true ↔ (has cfg Item.channelAllocation.bit →
      cap.has 0x0004 ∧ channelsOf cfg ≤ 8 ∧
        cap.audioChannelCounts.testBit (channelsOf cfg - 1)) := by
    unfold checkChannelAllocation channelNum channelsOf
    split
    . next h =>
      have hpos : 0 < channels cfg := by
        unfold channels
        split <;> omega
      rw [imp_iff_right h, Bool.and_eq_true, decide_eq_true_eq, and_shift_ne,
        show channels cfg - 1 < 8 ↔ channels cfg ≤ 8 by omega]
    . next h => exact iff_of_true rfl fun h' => absurd h' h
  rw [Bool.and_eq_true, Bool.and_eq_true, hf, hd, hc]
  exact ⟨fun ⟨⟨h1, h2⟩, h3⟩ => ⟨h1, h2, h3⟩, fun ⟨h1, h2, h3⟩ => ⟨⟨h1, h2⟩, h3⟩⟩

theorem refused_iff (cap : CodecCap) (cfg : CodecCfg) :
    (checkOctetsPerFrame cap cfg && checkBlocksPerSdu cap cfg) = true ↔ ¬ Refused cap cfg := by
  unfold checkOctetsPerFrame checkBlocksPerSdu Refused channelNum channelsOf
  rw [not_or, Bool.and_eq_true]
  refine and_congr ?_ ?_
  . cases has cfg Item.octetsPerFrame.bit <;> cases cap.has 0x0008 <;> simp
  . cases has cfg Item.blocksPerSdu.bit <;> cases cap.has 0x0010 <;>
      cases has cfg Item.channelAllocation.bit <;> simp

theorem judged_iff (hcap : CapInv cap) (hcfg : CfgInv cfg)
    (hr : ¬ Refused cap cfg) :
    Judged cap cfg ↔
      (has cfg Item.octetsPerFrame.bit → cap.minOctetsPerCodecFrame ≤ cfg.octetsPerCodecFrame ∧
        cfg.octetsPerCodecFrame ≤ cap.maxOctetsPerCodecFrame) ∧
      (has cfg Item.blocksPerSdu.bit →
        channelsOf cfg * cfg.codecFrameBlocksPerSdu ≤ cap.maxSupportedCodecFramesPerSdu) := by
  obtain ⟨ho, hf, hb⟩ := hcap
  have hblocks := hcfg.codecFrameBlocksPerSdu
  unfold Refused at hr
  rw [not_or] at hr
  have hoctets : has cfg Item.octetsPerFrame.bit →
      ((cap.has 0x0008 ∨ cfg.octetsPerCodecFrame = 0) ↔
        cap.minOctetsPerCodecFrame ≤ cfg.octetsPerCodecFrame ∧
          cfg.octetsPerCodecFrame ≤ cap.maxOctetsPerCodecFrame) := by
    intro hp
    cases hh : cap.has 0x0008 with
    | true =>
      have hin := hr.1
      simp only [hp, hh, true_and, not_not] at hin
      exact iff_of_true (.inl rfl) hin
    | false =>
      obtain h | ⟨hmin, hmax⟩ := ho
      . rw [hh] at h
        cases h
      . rw [hmin, hmax]
        simp
  have hframes : has cfg Item.blocksPerSdu.bit →
      ((if cap.has 0x0010 then
          if has cfg Item.channelAllocation.bit then
            channelsOf cfg * cfg.codecFrameBlocksPerSdu < 2 ^ 8
          else
            cfg.codecFrameBlocksPerSdu ≤ cap.maxSupportedCodecFramesPerSdu
        else
          channelsOf cfg ≤ 1) ↔
        channelsOf cfg * cfg.codecFrameBlocksPerSdu ≤ cap.maxSupportedCodecFramesPerSdu) := by
    intro hp
    have hnot := hr.2
    rw [not_and] at hnot
    specialize hnot hp
    cases hh : cap.has 0x0010 with
    | true =>
      rw [hh] at hnot
      simp only [if_true] at hnot ⊢
      cases ha : has cfg Item.channelAllocation.bit with
      | true =>
        simp only [ha, true_and, if_true] at hnot ⊢
        generalize channelsOf cfg * cfg.codecFrameBlocksPerSdu = frames at hnot ⊢
        constructor
        . intro hlt
          rw [Nat.mod_eq_of_lt hlt] at hnot
          omega
        . omega
      | false => simp [channelsOf, ha]
    | false =>
      obtain h | hmax := hf
      . rw [hh] at h
        cases h
      . rw [hh] at hnot
        simp only [Bool.false_eq_true, if_false, Nat.not_lt] at hnot ⊢
        rw [show cfg.codecFrameBlocksPerSdu = 1 by omega, hmax, Nat.mul_one]
  constructor
  . rintro ⟨h1, h2⟩
    exact ⟨fun hp => (hoctets hp).mp (h1 hp), fun hp => (hframes hp).mp (h2 hp)⟩
  . rintro ⟨h1, h2⟩
    exact ⟨fun hp => (hoctets hp).mpr (h1 hp), fun hp => (hframes hp).mpr (h2 hp)⟩

theorem check_sound_iff {cap : CodecCap} {cfg : CodecCfg} (hcap : CapParsed cap)
    (hcfg : CfgParsed cfg) :
    (codecCfgCheckCap cap cfg = true → Within cap cfg) ↔
      (Listed cap cfg → ¬ Refused cap cfg → Judged cap cfg) := by
  have hcheck : codecCfgCheckCap cap cfg = true ↔ Listed cap cfg ∧ ¬ Refused cap cfg := by
    rw [← listed_iff hcfg.inv, ← refused_iff, ← Bool.and_eq_true, ← Bool.and_assoc]
    rfl
  rw [hcheck, and_imp]
  refine imp_congr_right fun hl => imp_congr_right fun hr => ?_
  rw [judged_iff hcap.inv hcfg.inv hr]
  exact ⟨fun h => ⟨h.octetsPerFrame, h.blocksPerSdu⟩, fun h => ⟨hl, h.1, h.2⟩⟩

def stereoCap : CodecCap := ⟨0x17, 0x80, 0x03, 0x03, 2, 0, 0⟩

def stereoCapBytes : List UInt8 := [3, 1, 0x80, 0, 2, 2, 3, 2, 3, 3, 2, 5, 2]

theorem stereoCap_parsed : CapParsed stereoCap := ⟨stereoCapBytes, 0, 13, 5, rfl⟩

def blocks128 : CodecCfg := ⟨0x17, 1, 8, 128, 0, 3⟩

theorem blocks128_parsed : CfgParsed blocks128 :=
  ⟨[2, 1, 8, 2, 2, 1, 5, 3, 3, 0, 0, 0, 2, 5, 128], 0, 15, 5, rfl⟩

theorem check_sound_stereo :
    (codecCfgCheckCap stereoCap blocks128 = true → Within stereoCap blocks128) ↔
      (Listed stereoCap blocks128 → ¬ Refused stereoCap blocks128 → Judged stereoCap blocks128) :=
  check_sound_iff stereoCap_parsed blocks128_parsed

theorem not_check_sound :
    (CapParsed stereoCap ∧ CfgParsed blocks128) ∧
      codecCfgCheckCap stereoCap blocks128 = true ∧ ¬ Within stereoCap blocks128 := by
  refine ⟨⟨stereoCap_parsed, blocks128_parsed⟩, by decide, fun h => ?_⟩
  exact absurd (h.blocksPerSdu (by decide)) (by decide)

end Codec
