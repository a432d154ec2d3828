import Earphone.BaseData.Merge

/-!
This module contains the codec configurations and their parser.
-/

namespace Codec

open Scan Ltv List
open Ascs
open BaseData (Item has)

def le (n : Nat) : Nat → List UInt8
  | 0 => []
  | k + 1 => UInt8.ofNat n :: le (n / 2 ^ 8) k

def audioLocationMono : Nat := 0

def field (present : Bool) (type : UInt8) (value : List UInt8) : List UInt8 :=
  if present then UInt8.ofNat (value.length + 1) :: type :: value else []

def codecCfgGen (cfg : CodecCfg) : List UInt8 :=
  field (has cfg Item.samplingFrequency.bit) 0x01 (le cfg.sampleFrequency 1) ++
    (field (has cfg Item.frameDuration.bit) 0x02 (le cfg.frameDuration 1) ++
    (field (has cfg Item.channelAllocation.bit && cfg.audioChannelAllocation ≠ audioLocationMono)
      0x03 (le cfg.audioChannelAllocation 4) ++
    (field (has cfg Item.octetsPerFrame.bit) 0x04 (le cfg.octetsPerCodecFrame 2) ++
    field (has cfg Item.blocksPerSdu.bit) 0x05 (le cfg.codecFrameBlocksPerSdu 1))))

structure InRange (cfg : CodecCfg) : Prop where
  sampleFrequency : has cfg Item.samplingFrequency.bit →
    1 ≤ cfg.sampleFrequency ∧ cfg.sampleFrequency ≤ 0x0A
  frameDuration : has cfg Item.frameDuration.bit → cfg.frameDuration ≤ 0x03
  audioChannelAllocation : has cfg Item.channelAllocation.bit →
    cfg.audioChannelAllocation < 2 ^ 32 ∧ cfg.audioChannelAllocation ||| 0x0FFFFFFF = 0x0FFFFFFF
  octetsPerCodecFrame : has cfg Item.octetsPerFrame.bit → cfg.octetsPerCodecFrame < 2 ^ 16
  codecFrameBlocksPerSdu : has cfg Item.blocksPerSdu.bit →
    cfg.codecFrameBlocksPerSdu ≠ 0 ∧ cfg.codecFrameBlocksPerSdu < 2 ^ 8

def shown (cfg : CodecCfg) (item : Item) : Bool :=
  has cfg item.bit &&
    (item ≠ .channelAllocation || cfg.audioChannelAllocation ≠ audioLocationMono)

def encoded (item : Item) (cfg : CodecCfg) : Option Nat :=
  if shown cfg item then some (item.value cfg) else none

def RoundTrips (cfg : CodecCfg) : Prop :=
  ∃ fuel cfg', codecCfgParse (codecCfgGen cfg) 0 (codecCfgGen cfg).length fuel = .ok (.ok cfg') ∧
    ∀ item, Item.carried item cfg' = encoded item cfg

theorem leNum_le (n k : Nat) (h : n < 2 ^ (8 * k)) : leNum (le n k) = n := by
  induction k generalizing n with
  | zero =>
    rw [le, leNum]
    omega
  | succ k ih =>
    rw [Nat.mul_succ, Nat.add_comm, Nat.pow_add] at h
    rw [le, leNum, ih _ (Nat.div_lt_of_lt_mul h), UInt8.toNat_ofNat']
    omega

theorem length_le (n k : Nat) : (le n k).length = k := by
  induction k generalizing n with
  | zero => rfl
  | succ k ih => rw [le, length_cons, ih]

def Takes (part : List UInt8) (s s' : CodecCfg) : Prop :=
  ∀ bytes pre post, bytes = pre ++ part ++ post → ∃ k, ∀ fuel,
    walk codecCfgFormat bytes 0 bytes.length (fuel + k) pre.length s =
      walk codecCfgFormat bytes 0 bytes.length fuel (pre.length + part.length) s'

theorem Takes.append {a b : List UInt8} {s s' s'' : CodecCfg} (ha : Takes a s s')
    (hb : Takes b s' s'') : Takes (a ++ b) s s'' := by
  intro bytes pre post hbytes
  obtain ⟨k, hk⟩ := ha bytes pre (b ++ post) (by simp [hbytes])
  obtain ⟨k', hk'⟩ := hb bytes (pre ++ a) post (by simp [hbytes])
  refine ⟨k' + k, fun fuel => ?_⟩
  rw [length_append] at hk'
  rw [← Nat.add_assoc, hk, hk', length_append, Nat.add_assoc]

theorem takes_field (hlen : value.length + 1 < 2 ^ 8)
    (hneed : codecCfgNeed type.toNat (value.length + 1) = .ok value.length)
    (huse : present = true → codecCfgUse type.toNat value s = .ok s') :
    Takes (field present type value) s (if present then s' else s) := by
  intro bytes pre post hbytes
  cases present with
  | false => exact ⟨0, fun fuel => rfl⟩
  | true =>
    have hl : octet bytes pre.length = value.length + 1 := by
      simp [octet, hbytes, field]
      omega
    have ht : octet bytes (pre.length + 1) = type.toNat := by
      simp [octet, hbytes, field]
    have hv : octets bytes (pre.length + 2) value.length = value := by
      simp [octets, hbytes, field, drop_append, take_append]
    have hsize : pre.length + 2 + value.length ≤ bytes.length := by
      simp only [hbytes, field, length_append, if_true, length_cons]
      omega
    refine ⟨1, fun fuel => ?_⟩
    rw [walk_round (by omega) ⟨by omega, fun n hn => ?_⟩]
    . simp only [Nat.zero_add, hl, ht, codecCfgFormat, hneed, hv, huse rfl]
      simp [field, Nat.add_comm, Nat.add_left_comm]
    . simp only [Nat.zero_add, hl, ht, codecCfgFormat, hneed, Except.ok.injEq] at hn
      omega

def setItem : Item → Nat → CodecCfg → CodecCfg
  | .samplingFrequency, v, s =>
    { s with sampleFrequency := v, typeExist := s.typeExist ||| 0x0001 }
  | .frameDuration, v, s => { s with frameDuration := v, typeExist := s.typeExist ||| 0x0002 }
  | .channelAllocation, v, s =>
    { s with audioChannelAllocation := v, typeExist := s.typeExist ||| 0x0004 }
  | .octetsPerFrame, v, s =>
    { s with octetsPerCodecFrame := v, typeExist := s.typeExist ||| 0x0008 }
  | .blocksPerSdu, v, s =>
    { s with codecFrameBlocksPerSdu := v, typeExist := s.typeExist ||| 0x0010 }

def take (cfg : CodecCfg) (s : CodecCfg) (item : Item) : CodecCfg :=
  if shown cfg item then setItem item (item.value cfg) s else s

theorem carried_setItem (item item' : Item) (v : Nat) (s : CodecCfg) :
    item'.carried (setItem item v s) = if item' = item then some v else item'.carried s := by
  have hbit : has (setItem item v s) item'.bit =
      (has s item'.bit || decide (item.bit &&& item'.bit ≠ 0)) := by
    unfold has
    rw [← BaseData.or_and_ne]
    cases item <;> rfl
  unfold Item.carried
  rw [hbit]
  cases has s item'.bit <;> cases item <;> cases item' <;> rfl

theorem carried_take (cfg s : CodecCfg) (item item' : Item) (hs : item.carried s = none) :
    item'.carried (take cfg s item) =
      if item' = item then encoded item cfg else item'.carried s := by
  unfold take encoded
  cases shown cfg item with
  | true => exact carried_setItem item item' (item.value cfg) s
  | false =>
    by_cases heq : item' = item
    . simpa [heq] using hs
    . simp [heq]

def items : List Item :=
  [.samplingFrequency, .frameDuration, .channelAllocation, .octetsPerFrame, .blocksPerSdu]

def parsed (cfg : CodecCfg) : CodecCfg := items.foldl (take cfg) codecCfgInit

theorem carried_foldl (cfg s : CodecCfg) (l : List Item) (hnodup : l.Nodup)
    (hs : ∀ item ∈ l, item.carried s = none) (item : Item) :
    item.carried (l.foldl (take cfg) s) =
      if item ∈ l then encoded item cfg else item.carried s := by
  induction l generalizing s with
  | nil => rfl
  | cons i l ih =>
    obtain ⟨hi, hl⟩ := nodup_cons.mp hnodup
    have htake := carried_take cfg s i
    rw [forall_mem_cons] at hs
    rw [foldl_cons, ih _ hl, htake item hs.1]
    . by_cases heq : item = i
      . subst heq
        simp [hi]
      . simp [heq]
    . intro j hj
      rw [htake j hs.1, if_neg (ne_of_mem_of_not_mem hj hi)]
      exact hs.2 j hj

theorem carried_parsed (cfg : CodecCfg) (item : Item) :
    item.carried (parsed cfg) = encoded item cfg := by
  have hinit : ∀ item : Item, item.carried codecCfgInit = none := by
    intro item
    cases item <;> rfl
  rw [parsed, carried_foldl cfg codecCfgInit items (by decide) fun item _ => hinit item]
  cases item <;> rfl

theorem codecCfgGen_eq (cfg : CodecCfg) :
    codecCfgGen cfg =
      field (shown cfg .samplingFrequency) 0x01 (le cfg.sampleFrequency 1) ++
        (field (shown cfg .frameDuration) 0x02 (le cfg.frameDuration 1) ++
        (field (shown cfg .channelAllocation) 0x03 (le cfg.audioChannelAllocation 4) ++
        (field (shown cfg .octetsPerFrame) 0x04 (le cfg.octetsPerCodecFrame 2) ++
        field (shown cfg .blocksPerSdu) 0x05 (le cfg.codecFrameBlocksPerSdu 1)))) := by
  simp [codecCfgGen, shown]

theorem takes_item (hneed : codecCfgNeed type.toNat (k + 1) = .ok k) (hk : k + 1 < 2 ^ 8)
    (hsmall : shown cfg item → item.value cfg < 2 ^ (8 * k))
    (huse : shown cfg item → ∀ value, leNum value = item.value cfg →
      codecCfgUse type.toNat value s = .ok (setItem item (item.value cfg) s)) :
    Takes (field (shown cfg item) type (le (item.value cfg) k)) s (take cfg s item) := by
  refine takes_field ?_ ?_ fun hs => huse hs _ (leNum_le _ k (hsmall hs))
  . rw [length_le]
    exact hk
  . rw [length_le]
    exact hneed

theorem takes_gen (h : InRange cfg) : Takes (codecCfgGen cfg) codecCfgInit (parsed cfg) := by
  have hhas : ∀ {item}, shown cfg item → has cfg item.bit = true :=
    fun hs => (Bool.and_eq_true_iff.mp hs).1
  rw [codecCfgGen_eq]
  refine (takes_item rfl (by omega) ?_ ?_).append ((takes_item rfl (by omega) ?_ ?_).append
    ((takes_item rfl (by omega) ?_ ?_).append ((takes_item rfl (by omega) ?_ ?_).append
      (takes_item rfl (by omega) ?_ ?_)))) <;> intro hs
  . exact Nat.lt_of_le_of_lt (h.sampleFrequency (hhas hs)).2 (by decide)
  . intro value hv
    have hrange := h.sampleFrequency (hhas hs)
    simp only [Item.value] at hv
    simp only [codecCfgUse, UInt8.reduceToNat, hv]
    exact if_neg (show ¬ (cfg.sampleFrequency > 0x0A ∨ cfg.sampleFrequency < 0x01) by omega)
  . exact Nat.lt_of_le_of_lt (h.frameDuration (hhas hs)) (by decide)
  . intro value hv
    simp only [Item.value] at hv
    simp only [codecCfgUse, UInt8.reduceToNat, hv]
    exact if_neg (Nat.not_lt.mpr (h.frameDuration (hhas hs)))
  . exact (h.audioChannelAllocation (hhas hs)).1
  . intro value hv
    simp only [Item.value] at hv
    simp only [codecCfgUse, UInt8.reduceToNat, hv]
    exact if_neg (not_not_intro (h.audioChannelAllocation (hhas hs)).2)
  . exact h.octetsPerCodecFrame (hhas hs)
  . intro value hv
    simp only [Item.value] at hv
    simp only [codecCfgUse, UInt8.reduceToNat, hv]
    rfl
  . exact (h.codecFrameBlocksPerSdu (hhas hs)).2
  . intro value hv
    simp only [Item.value] at hv
    simp only [codecCfgUse, UInt8.reduceToNat, hv]
    exact if_neg (h.codecFrameBlocksPerSdu (hhas hs)).1

theorem codecCfgGen_eq_nil (cfg : CodecCfg) :
    codecCfgGen cfg = [] ↔ ∀ item, encoded item cfg = none := by
  have hfield : ∀ present type value, field present type value = [] ↔ present = false := by
    intro present type value
    cases present <;> simp [field]
  have hencoded : ∀ item, encoded item cfg = none ↔ shown cfg item = false := by
    intro item
    unfold encoded
    cases shown cfg item <;> simp
  simp only [codecCfgGen_eq, append_eq_nil_iff, hfield, hencoded]
  constructor
  . rintro ⟨h1, h2, h3, h4, h5⟩ item
    cases item <;> assumption
  . exact fun h => ⟨h _, h _, h _, h _, h _⟩

theorem codec_roundTrips {cfg : CodecCfg} (h : InRange cfg) :
    RoundTrips cfg ↔ ∃ item, encoded item cfg ≠ none := by
  rw [← not_forall, ← codecCfgGen_eq_nil]
  constructor
  . rintro ⟨fuel, cfg', hparse, -⟩ hnil
    rw [hnil] at hparse
    cases hparse
  . intro hne
    obtain ⟨k, hk⟩ := takes_gen h (codecCfgGen cfg) [] [] (by simp)
    refine ⟨1 + k, parsed cfg, ?_, carried_parsed cfg⟩
    rw [codecCfgParse, if_neg (by simpa using hne)]
    refine (hk 1).trans ?_
    simp [walk, pure, Except.pure]

section

inductive Items : List UInt8 → Prop where
  | nil : Items []
  | cons (l type : UInt8) (value rest : List UInt8) (hl : l.toNat = value.length + 1)
      (hrest : Items rest) : Items (l :: type :: value ++ rest)

structure Strict (bytes : List UInt8) : Prop where
  inside : Halts fun fuel => codecCfgParse bytes 0 bytes.length fuel
  items : ∀ cfg, Runs (fun fuel => codecCfgParse bytes 0 bytes.length fuel) (.ok cfg) → Items bytes

structure Covered (bytes : List UInt8) : Prop where
  inside : Inside codecCfgFormat bytes 0 bytes.length 0 codecCfgInit
  lengths : ∀ cfg, Reached codecCfgFormat bytes 0 bytes.length 0 codecCfgInit bytes.length cfg →
    ∀ idx s, Reached codecCfgFormat bytes 0 bytes.length 0 codecCfgInit idx s →
      idx < bytes.length → octet bytes idx ≠ 0

variable {bytes : List UInt8} {s t : CodecCfg} {idx : Nat}

theorem reached_le (h : Reached codecCfgFormat bytes 0 len idx s idx' t) : idx ≤ idx' := by
  induction h with
  | here => exact Nat.le_refl _
  | next _ _ _ _ ih => omega

theorem octet_lt (h : idx < bytes.length) : octet bytes idx = bytes[idx].toNat := by
  simp [octet, h]

theorem drop_item (hat : InsideAt codecCfgFormat bytes idx) (hl : octet bytes idx ≠ 0)
    (hle : idx + 1 + octet bytes idx ≤ bytes.length) :
    ∃ l type value, l.toNat = value.length + 1 ∧ octet bytes idx = l.toNat ∧
      bytes.drop idx = l :: type :: value ++ bytes.drop (idx + 1 + octet bytes idx) := by
  have hsize := hat.1
  have hidx := octet_lt (show idx < bytes.length by omega)
  refine ⟨bytes[idx], bytes[idx + 1], octets bytes (idx + 2) (octet bytes idx - 1), ?_, hidx, ?_⟩
  . rw [← hidx, octets, length_take, length_drop]
    omega
  . have hrest := take_append_drop (octet bytes idx - 1) (bytes.drop (idx + 2))
    rw [drop_drop, show idx + 2 + (octet bytes idx - 1) = idx + 1 + octet bytes idx by omega]
      at hrest
    rw [drop_eq_getElem_cons (by omega), drop_eq_getElem_cons (by omega),
      cons_append, cons_append, octets, hrest]

theorem Items.tail {l : UInt8} {tail : List UInt8} (h : Items (l :: tail)) :
    l.toNat ≠ 0 ∧ Items (tail.drop l.toNat) := by
  cases h with
  | cons _ type value rest hl hrest =>
    refine ⟨by omega, ?_⟩
    have hdrop : List.drop (value.length + 1) (type :: value ++ rest) = rest := drop_left
    rw [hl]
    exact (congrArg Items hdrop).mpr hrest

theorem items_iff (hlen : len = bytes.length)
    (hin : Inside codecCfgFormat bytes 0 len idx s)
    (h : Reached codecCfgFormat bytes 0 len idx s last t) (hlast : last = len) :
    Items (bytes.drop idx) ↔ ∀ idx' s', Reached codecCfgFormat bytes 0 len idx s idx' s' →
      idx' < len → octet bytes idx' ≠ 0 := by
  induction h with
  | here idx s =>
    rw [hlast, hlen, drop_length]
    refine iff_of_true .nil fun idx' s' hr hlt => ?_
    obtain ⟨rfl, -⟩ := (reached_of_ge (Nat.le_refl _)).mp hr
    omega
  | @next idx n last s s' t hlt hneed huse hrest ih =>
    obtain ⟨hat, hrest'⟩ := (inside_of_lt hlt).mp hin
    have htail := ih (hrest' n s' hneed huse) hlast
    have hle := reached_le hrest
    rw [Nat.zero_add] at hat htail hle
    constructor
    . intro hitems idx' s'' hr hlt'
      rw [drop_eq_getElem_cons (by omega)] at hitems
      obtain ⟨hne, hitems⟩ := hitems.tail
      have hidx := octet_lt (show idx < bytes.length by omega)
      rw [drop_drop, ← hidx] at hitems
      cases hr with
      | here => rwa [hidx]
      | next _ hneed' huse' hr =>
        cases hneed.symm.trans hneed'
        cases huse.symm.trans huse'
        rw [Nat.zero_add] at hr
        exact htail.mp hitems _ _ hr hlt'
    . intro hne
      obtain ⟨l, type, value, hl, -, hdrop⟩ := drop_item hat (hne _ _ (.here _ _) hlt) (by omega)
      rw [hdrop]
      refine .cons l type value _ hl (htail.mpr fun idx' s'' hr => ?_)
      refine hne idx' s'' (.next hlt hneed huse ?_)
      rwa [Nat.zero_add]

theorem halts_parse : (Halts fun fuel => codecCfgParse bytes 0 bytes.length fuel) ↔
    Inside codecCfgFormat bytes 0 bytes.length 0 codecCfgInit := by
  unfold codecCfgParse
  by_cases hlen : bytes.length = 0
  . simp only [hlen, if_true]
    exact iff_of_true ⟨_, 0, rfl⟩ (inside_of_ge (Nat.le_refl 0))
  . simp only [if_neg hlen]
    exact halts_walk

theorem strict_iff (bytes : List UInt8) : Strict bytes ↔ Covered bytes := by
  have hruns : Inside codecCfgFormat bytes 0 bytes.length 0 codecCfgInit → bytes ≠ [] → ∀ cfg,
      (Runs (fun fuel => codecCfgParse bytes 0 bytes.length fuel) (.ok cfg) ↔
        Reached codecCfgFormat bytes 0 bytes.length 0 codecCfgInit bytes.length cfg) := by
    intro hin hne cfg
    unfold codecCfgParse
    simp only [if_neg (show bytes.length ≠ 0 by simpa using hne)]
    exact runs_walk hin
  by_cases hnil : bytes = []
  . subst hnil
    refine iff_of_true ⟨halts_parse.mpr (inside_of_ge (Nat.le_refl 0)), fun _ _ => .nil⟩
      ⟨inside_of_ge (Nat.le_refl 0), fun _ _ _ _ _ hlt => absurd hlt (Nat.not_lt_zero _)⟩
  . constructor
    . rintro ⟨hhalts, hitems⟩
      have hin := halts_parse.mp hhalts
      exact ⟨hin, fun cfg hr => (items_iff rfl hin hr rfl).mp
        (hitems cfg ((hruns hin hnil cfg).mpr hr))⟩
    . rintro ⟨hin, hlengths⟩
      refine ⟨halts_parse.mpr hin, fun cfg hr => ?_⟩
      have hreached := (hruns hin hnil cfg).mp hr
      exact (items_iff rfl hin hreached rfl).mpr (hlengths cfg hreached)

theorem codec_cfg_iff (cfg : CodecCfg) (bytes : List UInt8) :
    (InRange cfg → (RoundTrips cfg ↔ ∃ item, encoded item cfg ≠ none)) ∧
      (Strict bytes ↔ Covered bytes) :=
  ⟨codec_roundTrips, strict_iff bytes⟩

theorem codec_cfg_iff_stereo :
    RoundTrips ⟨0x05, 0, 8, 1, 0, 3⟩ ↔ ∃ item, encoded item ⟨0x05, 0, 8, 1, 0, 3⟩ ≠ none :=
  (codec_cfg_iff ⟨0x05, 0, 8, 1, 0, 3⟩ []).1
    ⟨by decide, by decide, by decide, by decide, by decide⟩

theorem not_codec_cfg :
    codecCfgParse [2, 1] 0 2 2 = .error .outside ∧
      (InRange ⟨0x04, 0, 0, 1, 0, 0⟩ ∧ ¬ RoundTrips ⟨0x04, 0, 0, 1, 0, 0⟩) ∧
      Runs (fun fuel => codecCfgParse [0, 6, 0x10, 0, 0, 0, 0, 0] 0 8 fuel)
        (.ok ⟨0x1000, 0, 0, 1, 0, 0⟩) ∧
      ¬ Items [0, 6, 0x10, 0, 0, 0, 0, 0] := by
  refine ⟨rfl, ⟨⟨by decide, by decide, by decide, by decide, by decide⟩, ?_⟩, ⟨4, rfl⟩, ?_⟩
  . rintro ⟨fuel, cfg', hparse, -⟩
    cases hparse
  . exact fun h => h.tail.1 rfl

end

end Codec
