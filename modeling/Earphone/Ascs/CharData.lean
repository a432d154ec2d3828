import Earphone.Ascs.Effect

namespace Ascs

open Scan

def AseState.toByte : AseState → Nat
  | .idle => 0
  | .codecConfigured => 1
  | .qosConfigured => 2
  | .enabling => 3
  | .streaming => 4
  | .disabling => 5
  | .releasing => 6

def leArray : Nat → Nat → List Nat
  | 0, _ => []
  | n + 1, v => v % 256 :: leArray n (v / 256)

def CodecStateData.bytes (d : CodecStateData) : List Nat :=
  leArray 1 d.supportedFraming ++ leArray 1 d.preferredPhy ++ leArray 1 d.preferredRetransNumber ++
    leArray 2 d.maxTransportLatency ++ leArray 3 d.presentationDelayMin ++
    leArray 3 d.presentationDelayMax ++ leArray 3 d.preferredPresentationDelayMin ++
    leArray 3 d.preferredPresentationDelayMax ++
    (List.range 5).map (fun i => d.codecId.getD i 0) ++ leArray 1 d.codecSpecCfgLen

def QosStateData.bytes (d : QosStateData) : List Nat :=
  leArray 1 d.cigId ++ leArray 1 d.cisId ++ leArray 3 d.sduInterval ++ leArray 1 d.framing ++
    leArray 1 d.phy ++ leArray 2 d.maxSdu ++ leArray 1 d.retransmissionNumber ++
    leArray 2 d.maxTransportLatency ++ leArray 3 d.presentationDelay

def codecStateDataSize : Nat := 23

def qosStateDataSize : Nat := 15

def copyBytes (p : Option (List UInt8)) (len : Nat) : Except Stuck (List Nat) :=
  if len = 0 then .ok []
  else
    match p with
    | none => .error .outside
    | some bytes =>
      if len ≤ bytes.length then .ok ((bytes.take len).map UInt8.toNat) else .error .outside

def charDataLen (e : AseEntry) : Nat :=
  match e.aseState with
  | .codecConfigured => 2 + (codecStateDataSize + e.codecSpecCfgLen)
  | .enabling => 2 + (3 + e.metadataLen)
  | .streaming => 2 + (3 + e.metadataLen)
  | .disabling => 2 + (3 + e.metadataLen)
  | .qosConfigured => 2 + qosStateDataSize
  | .idle => 2
  | .releasing => 2

def metadataBytes (e : AseEntry) : Except Stuck (List Nat) :=
  (copyBytes e.metadata e.metadataLen).map fun bytes =>
    [e.qosStateData.cigId, e.qosStateData.cisId, e.metadataLen] ++ bytes

def stateBytes (e : AseEntry) : Except Stuck (List Nat) :=
  match e.aseState with
  | .codecConfigured =>
    (copyBytes e.codecSpecCfg e.codecSpecCfgLen).map fun bytes => e.codecStateData.bytes ++ bytes
  | .qosConfigured => .ok e.qosStateData.bytes
  | .enabling => metadataBytes e
  | .streaming => metadataBytes e
  | .disabling => metadataBytes e
  | .idle => .ok []
  | .releasing => .ok []

def shownState (e : AseEntry) : AseState :=
  if e.direction = .sink ∧ e.aseState = .disabling then .streaming else e.aseState

def aseGenCharData (e : AseEntry) : Except Stuck (List Nat) :=
  (stateBytes e).map fun bytes => [e.aseId, (shownState e).toByte] ++ bytes

def Holds (len : Nat) : Option (List UInt8) → Prop
  | none => len = 0
  | some bytes => 0 < len ∧ bytes.length = len

structure Good (e : AseEntry) : Prop where
  codec : Holds e.codecSpecCfgLen e.codecSpecCfg
  metadata : Holds e.metadataLen e.metadata
  stateData : e.codecStateData.codecSpecCfgLen = e.codecSpecCfgLen

@[simp]
theorem leArray_length : (leArray n v).length = n := by
  induction n generalizing v with
  | zero => rfl
  | succ n ih => rw [leArray, List.length_cons, ih]

theorem codecStateData_length (d : CodecStateData) : d.bytes.length = codecStateDataSize := by
  simp [CodecStateData.bytes, codecStateDataSize]

theorem qosStateData_length (d : QosStateData) : d.bytes.length = qosStateDataSize := by
  simp [QosStateData.bytes, qosStateDataSize]

theorem Holds.copy (h : Holds len p) :
    ∃ bytes, copyBytes p len = .ok bytes ∧ bytes.length = len := by
  unfold copyBytes
  by_cases h0 : len = 0
  . exact ⟨[], by rw [if_pos h0], by rw [h0]; rfl⟩
  . rw [if_neg h0]
    cases p with
    | none => exact absurd h h0
    | some bytes =>
      refine ⟨_, if_pos (Nat.le_of_eq h.2.symm), ?_⟩
      rw [List.length_map, List.length_take, h.2, Nat.min_self]

theorem metadataBytes_ok (h : Good e) :
    ∃ bytes, metadataBytes e = .ok bytes ∧ bytes.length = 3 + e.metadataLen := by
  obtain ⟨bytes, hbytes, hlen⟩ := h.metadata.copy
  refine ⟨_, by rw [metadataBytes, hbytes]; rfl, ?_⟩
  rw [List.length_append, hlen]
  rfl

theorem Good.charData (h : Good e) :
    ∃ data, aseGenCharData e = .ok data ∧ data.length = charDataLen e := by
  have hstate : ∃ bytes, stateBytes e = .ok bytes ∧ 2 + bytes.length = charDataLen e := by
    unfold stateBytes charDataLen
    cases e.aseState with
    | idle => exact ⟨[], rfl, rfl⟩
    | releasing => exact ⟨[], rfl, rfl⟩
    | qosConfigured => exact ⟨_, rfl, by rw [qosStateData_length]⟩
    | codecConfigured =>
      obtain ⟨bytes, hbytes, hlen⟩ := h.codec.copy
      refine ⟨e.codecStateData.bytes ++ bytes, by rw [hbytes]; rfl, ?_⟩
      rw [List.length_append, codecStateData_length, hlen]
    | enabling =>
      obtain ⟨bytes, hbytes, hlen⟩ := metadataBytes_ok h
      exact ⟨bytes, hbytes, by rw [hlen]⟩
    | streaming =>
      obtain ⟨bytes, hbytes, hlen⟩ := metadataBytes_ok h
      exact ⟨bytes, hbytes, by rw [hlen]⟩
    | disabling =>
      obtain ⟨bytes, hbytes, hlen⟩ := metadataBytes_ok h
      exact ⟨bytes, hbytes, by rw [hlen]⟩
  obtain ⟨bytes, hbytes, hlen⟩ := hstate
  refine ⟨[e.aseId, (shownState e).toByte] ++ bytes, by rw [aseGenCharData, hbytes]; rfl, ?_⟩
  rw [List.length_append, ← hlen]
  rfl

structure Room (mtu : Nat) (e : AseEntry) : Prop where
  value : charDataLen e + 3 ≤ mtu
  metadata : e.metadataLen + 8 ≤ mtu

section

variable {e : AseEntry} {s : AseState} {mtu : Nat}

theorem changeState_good (h : Good e) : Good (ascsChangeState e s) := by
  unfold ascsChangeState
  by_cases hs : e.aseState = s
  . rw [if_pos hs]
    exact h
  . rw [if_neg hs]
    obtain ⟨hcodec, hmetadata, hdata⟩ := h
    cases s with
    | idle => exact ⟨rfl, rfl, rfl⟩
    | codecConfigured => exact ⟨hcodec, rfl, hdata⟩
    | qosConfigured =>
      refine ⟨hcodec, ?_, hdata⟩
      cases hm : e.metadata with
      | none =>
        rw [hm] at hmetadata
        exact hmetadata
      | some bytes => rfl
    | enabling => exact ⟨hcodec, hmetadata, hdata⟩
    | streaming => exact ⟨hcodec, hmetadata, hdata⟩
    | disabling => exact ⟨hcodec, hmetadata, hdata⟩
    | releasing => exact ⟨hcodec, hmetadata, hdata⟩

theorem changeState_metadataLen_le : (ascsChangeState e s).metadataLen ≤ e.metadataLen := by
  unfold ascsChangeState
  by_cases hs : e.aseState = s
  . exact Nat.le_of_eq (by rw [if_pos hs])
  . rw [if_neg hs]
    cases s with
    | idle => exact Nat.zero_le _
    | codecConfigured => exact Nat.zero_le _
    | qosConfigured =>
      show (if e.metadata.isSome then 0 else e.metadataLen) ≤ e.metadataLen
      split_ifs
      . exact Nat.zero_le _
      . exact Nat.le_refl _
    | enabling => exact Nat.le_refl _
    | streaming => exact Nat.le_refl _
    | disabling => exact Nat.le_refl _
    | releasing => exact Nat.le_refl _

theorem charDataLen_le (h : e.aseState ≠ .codecConfigured) :
    charDataLen e ≤ max 17 (5 + e.metadataLen) := by
  unfold charDataLen qosStateDataSize
  cases hs : e.aseState with
  | codecConfigured => exact absurd hs h
  | idle => simp only; omega
  | qosConfigured => simp only; omega
  | enabling => simp only; omega
  | streaming => simp only; omega
  | disabling => simp only; omega
  | releasing => simp only; omega

theorem room_of_metadata (hmtu : 23 ≤ mtu) (hs : e.aseState ≠ .codecConfigured)
    (h : e.metadataLen + 8 ≤ mtu) : Room mtu e :=
  { value := by
      have := charDataLen_le hs
      omega
    metadata := h }

theorem changeState_room (hmtu : 23 ≤ mtu) (h : Room mtu e) (hs : s ≠ .codecConfigured) :
    Room mtu (ascsChangeState e s) := by
  have hle := @changeState_metadataLen_le e s
  have hroom := h.metadata
  exact room_of_metadata hmtu (by rw [changeState_aseState]; exact hs) (by omega)

end

end Ascs
