import Earphone.Ascs.CheckLen
import Earphone.Lib.Judge

namespace Ascs

open Scan Ltv

def CodecCfgInside (bytes : List UInt8) (base len : Nat) : Prop :=
  Inside codecCfgFormat bytes base len 0 codecCfgInit

def MetadataInside (bytes : List UInt8) (base len : Nat) : Prop :=
  Inside metadataFormat bytes base len 0 0xFFFF

def CodecCfgTaken (bytes : List UInt8) (base len : Nat) (cfg : CodecCfg) : Prop :=
  len ≠ 0 ∧ Reached codecCfgFormat bytes base len 0 codecCfgInit len cfg

def MetadataTaken (bytes : List UInt8) (base len contexts : Nat) : Prop :=
  Reached metadataFormat bytes base len 0 0xFFFF len contexts

def EntryInside (table : AseTable) (op : Op) (bytes : List UInt8) (p : Nat) : Prop :=
  ∀ e, checkAse table op (octet bytes p) = .ok e →
    match op with
    | .configCodec =>
      checkCodecHead (codecCfgParam bytes p) = .ok () → octet bytes (p + 8) ≠ 0 →
        CodecCfgInside bytes (p + 9) (octet bytes (p + 8))
    | .enable => octet bytes (p + 1) ≠ 0 → MetadataInside bytes (p + 2) (octet bytes (p + 1))
    | .updateMetadata =>
      octet bytes (p + 1) ≠ 0 → MetadataInside bytes (p + 2) (octet bytes (p + 1))
    | _ => True

def MetadataOk (app : App) (e : AseEntry) (op : Op) (bytes : List UInt8) (p : Nat) : Prop :=
  octet bytes (p + 1) ≠ 0 →
    ∃ contexts, MetadataTaken bytes (p + 2) (octet bytes (p + 1)) contexts ∧
      checkContexts app e op (octet bytes p) (.ok contexts) = .ok ()

def Takes (app : App) (table : AseTable) (op : Op) (bytes : List UInt8) (p : Nat)
    (param : CpParam) : Prop :=
  ∃ e, checkAse table op (octet bytes p) = .ok e ∧
    match op with
    | .configCodec =>
      checkCodecHead (codecCfgParam bytes p) = .ok () ∧
        ∃ cfg, CodecCfgTaken bytes (p + 9) (octet bytes (p + 8)) cfg ∧
          checkCodecCap app e (codecCfgParam bytes p) (.ok cfg) = .ok cfg ∧
          param = .configCodec (codecCfgParam bytes p) cfg
            (octets bytes (p + 9) (octet bytes (p + 8)))
    | .configQos =>
      aseCheckCfgQosParam e (qosCfgParam bytes p).qos = .ok () ∧
        checkCisMapping table e (qosCfgParam bytes p).qos = .ok () ∧
        param = .configQos (qosCfgParam bytes p)
    | .enable =>
      MetadataOk app e op bytes p ∧
        param = .metadata (octet bytes p) (octet bytes (p + 1))
          (octets bytes (p + 2) (octet bytes (p + 1)))
    | .updateMetadata =>
      MetadataOk app e op bytes p ∧
        param = .metadata (octet bytes p) (octet bytes (p + 1))
          (octets bytes (p + 2) (octet bytes (p + 1)))
    | _ => param = .aseId (octet bytes p)

def Stores (app : App) (table : AseTable) (op : Op) (bytes : List UInt8) (p : Nat) : Prop :=
  ∃ e, checkAse table op (octet bytes p) = .ok e ∧
    match op with
    | .configCodec => checkCodecHead (codecCfgParam bytes p) = .ok () ∧ octet bytes (p + 8) ≠ 0
    | .configQos => aseCheckCfgQosParam e (qosCfgParam bytes p).qos = .ok ()
    | .enable => MetadataOk app e op bytes p
    | .updateMetadata => MetadataOk app e op bytes p
    | _ => True

theorem judges_codecCfgParse :
    Judges (fun n => codecCfgParse bytes base len n) (len ≠ 0 → CodecCfgInside bytes base len)
      (CodecCfgTaken bytes base len) := by
  unfold codecCfgParse CodecCfgTaken
  by_cases h0 : len = 0
  . simp only [h0, if_true]
    exact (Judges.pure _).congr (by simp) (by simp)
  . simp only [h0, if_false]
    exact ⟨mono_walk, halts_walk.trans ⟨fun h _ => h, fun h => h h0⟩,
      fun h cfg => (runs_walk (halts_walk.mp h)).trans ⟨fun h => ⟨h0, h⟩, And.right⟩⟩

theorem judges_metadataCheckFormat (h0 : len ≠ 0) :
    Judges (fun n => metadataCheckFormat bytes base len 0xFFFF n) (MetadataInside bytes base len)
      (MetadataTaken bytes base len) := by
  unfold metadataCheckFormat
  simp only [h0, if_false]
  exact ⟨mono_walk, halts_walk, fun h contexts => runs_walk (halts_walk.mp h)⟩

theorem entryAt_ok : i < n ↔ entryAt i n = .ok () := by
  unfold entryAt
  split_ifs with h <;> simp [h]

theorem judges_entryAt (h : Judges f safe taken) :
    Judges (fun m => entryAt i n >>= fun _ => f m) (i < n ∧ safe) taken :=
  .const_bind entryAt_ok h (fun _ => h.mono) fun _ _ => rfl

theorem checkCodecCap_ok :
    checkCodecCap app e param (.ok cfg) = .ok cfg' ↔
      cfg' = cfg ∧ checkCodecCap app e param (.ok cfg) = .ok cfg := by
  simp only [checkCodecCap]
  split_ifs <;> simp [eq_comm]

theorem judges_aseCheckCfgCodecParam
    (hhead : checkCodecHead param = .ok ()) :
    Judges (fun n => aseCheckCfgCodecParam app e param bytes base i n)
      ((param.codecSpecCfgLen ≠ 0 → i < 7) ∧
        (param.codecSpecCfgLen ≠ 0 → CodecCfgInside bytes base param.codecSpecCfgLen))
      (fun cfg => CodecCfgTaken bytes base param.codecSpecCfgLen cfg ∧
        checkCodecCap app e param (.ok cfg) = .ok cfg) := by
  unfold aseCheckCfgCodecParam
  simp only [hhead]
  refine (judges_entryAt (judges_codecCfgParse.map (k := checkCodecCap app e param) ?_)).congr ?_ ?_
  . intro _ _ h
    cases h
  . refine and_congr_left fun _ => ?_
    by_cases h0 : param.codecSpecCfgLen = 0
    . simp [h0, ascsAesCharMaxNum]
    . simp [h0, ascsAesCharMaxNum]
  . intro cfg
    constructor
    . rintro ⟨cfg', htaken, hcap⟩
      obtain ⟨rfl, hcap⟩ := checkCodecCap_ok.mp hcap
      exact ⟨htaken, hcap⟩
    . rintro ⟨htaken, hcap⟩
      exact ⟨cfg, htaken, hcap⟩

theorem checkContexts_error : checkContexts app e op aseId (.error resp) ≠ .ok r := by
  intro h
  cases h

theorem judges_checkMetadata :
    Judges (fun n => checkMetadata app e op aseId bytes base len n)
      (len ≠ 0 → MetadataInside bytes base len)
      (fun _ => len ≠ 0 → ∃ contexts, MetadataTaken bytes base len contexts ∧
        checkContexts app e op aseId (.ok contexts) = .ok ()) := by
  unfold checkMetadata
  by_cases h0 : len = 0
  . simp only [h0, if_true]
    exact (Judges.pure _).congr (by simp) (by simp)
  . simp only [h0, if_false]
    exact ((judges_metadataCheckFormat h0).map fun _ _ => checkContexts_error).congr (by simp [h0])
      fun _ => by simp [h0]

theorem structAt_ok {α : Type} {get : List UInt8 → Nat → α} {n : Nat}
    (h : p + n ≤ bytes.length) : structAt get bytes p n = .ok (get bytes p) := by
  rw [structAt, if_pos h]

section

variable {app : App} {table : AseTable} {op : Op} {bytes : List UInt8} {p i : Nat}

theorem judges_checkEntry_refused
    (h : checkAse table op (octet bytes p) = .error resp) :
    Judges (fun n => checkEntry app table op bytes p i (octet bytes p) n)
      (EntryInside table op bytes p ∧ (Stores app table op bytes p → i < ascsAesCharMaxNum))
      (fun r => Takes app table op bytes p r.1 ∧
        r.2 = p + (fixedLen op + countedLen op bytes p)) := by
  simp only [checkEntry, h]
  refine (Judges.pure _).congr ?_ fun r => ?_
  . simp [EntryInside, Stores, h]
  . simp [Takes, h]

variable {e : AseEntry}

def storeEntry (i next : Nat) (param : CpParam) : Except Stuck (Except Resp (CpParam × Nat)) := do
  entryAt i ascsAesCharMaxNum
  return .ok (param, next)

theorem judges_storeEntry :
    Judges (fun _ => storeEntry i next param) (i < ascsAesCharMaxNum) (fun r => r = (param, next)) :=
  (judges_entryAt (Judges.pure _)).congr (iff_of_eq (and_true _)) fun r => by simp [eq_comm]

theorem checkEntry_configCodec {n : Nat} (hp : p + codecCfgParamLen ≤ bytes.length)
    (h : checkAse table .configCodec (octet bytes p) = .ok e) :
    checkEntry app table .configCodec bytes p i (octet bytes p) n =
      aseCheckCfgCodecParam app e (codecCfgParam bytes p) bytes (add16 p codecCfgParamLen) i n >>=
        andThen (fun _ cfg => storeEntry i
          (add16 (add16 p codecCfgParamLen) (octet bytes (p + 8)))
          (.configCodec (codecCfgParam bytes p) cfg
            (octets bytes (add16 p codecCfgParamLen) (octet bytes (p + 8))))) id n := by
  simp only [checkEntry, h]
  rw [structAt_ok hp]
  refine congrArg (aseCheckCfgCodecParam app e (codecCfgParam bytes p) bytes
    (add16 p codecCfgParamLen) i n >>= ·) (funext fun r => ?_)
  cases r <;> rfl

theorem judges_checkEntry_configCodec (hlen : bytes.length < 65536)
    (hend : p + (9 + octet bytes (p + 8)) ≤ bytes.length)
    (h : checkAse table .configCodec (octet bytes p) = .ok e) :
    Judges (fun n => checkEntry app table .configCodec bytes p i (octet bytes p) n)
      (EntryInside table .configCodec bytes p ∧
        (Stores app table .configCodec bytes p → i < ascsAesCharMaxNum))
      (fun r => Takes app table .configCodec bytes p r.1 ∧
        r.2 = p + (9 + octet bytes (p + 8))) := by
  have hidx : add16 p codecCfgParamLen = p + 9 := by
    unfold add16 codecCfgParamLen
    omega
  have hnext : add16 (p + 9) (octet bytes (p + 8)) = p + (9 + octet bytes (p + 8)) := by
    unfold add16
    omega
  have hp : p + codecCfgParamLen ≤ bytes.length := by
    unfold codecCfgParamLen
    omega
  simp only [checkEntry_configCodec hp h, hidx, hnext]
  cases hhead : checkCodecHead (codecCfgParam bytes p) with
  | error resp =>
    have hres : ∀ n, aseCheckCfgCodecParam app e (codecCfgParam bytes p) bytes (p + 9) i n =
        .ok (.error resp) := fun n => by simp only [aseCheckCfgCodecParam, hhead]
    simp only [hres]
    refine (Judges.pure (.error resp)).congr ?_ fun r => ?_
    . simp [EntryInside, Stores, h, hhead]
    . simp [Takes, h, hhead]
  | ok u =>
    refine ((judges_aseCheckCfgCodecParam hhead).bind fun cfg => judges_storeEntry).congr ?_
      fun r => ?_
    . have hcounted : (codecCfgParam bytes p).codecSpecCfgLen = octet bytes (p + 8) := rfl
      simp only [EntryInside, Stores, h, hhead, hcounted, Except.ok.injEq, exists_eq_left',
        forall_eq', true_and, forall_const]
      constructor
      . rintro ⟨⟨hroom, hin⟩, -⟩
        exact ⟨hin, hroom⟩
      . rintro ⟨hin, hroom⟩
        exact ⟨⟨hroom, hin⟩, fun _ hcfg => hroom hcfg.1.1⟩
    . obtain ⟨param, next⟩ := r
      simp only [Takes, h, hhead, Except.ok.injEq, exists_eq_left', true_and, Prod.mk.injEq]
      constructor
      . rintro ⟨cfg, ⟨htaken, hcap⟩, rfl, rfl⟩
        exact ⟨⟨cfg, htaken, hcap, rfl⟩, rfl⟩
      . rintro ⟨⟨cfg, htaken, hcap, rfl⟩, rfl⟩
        exact ⟨cfg, ⟨htaken, hcap⟩, rfl, rfl⟩

theorem checkEntry_configQos {n : Nat} (hp : p + qosCfgParamLen ≤ bytes.length)
    (h : checkAse table .configQos (octet bytes p) = .ok e)
    (hqos : aseCheckCfgQosParam e (qosCfgParam bytes p).qos = .ok ()) :
    checkEntry app table .configQos bytes p i (octet bytes p) n =
      entryAt i ascsAesCharMaxNum >>= fun _ =>
        .ok ((checkCisMapping table e (qosCfgParam bytes p).qos).map fun _ =>
          (.configQos (qosCfgParam bytes p), add16 p qosCfgParamLen)) := by
  simp only [checkEntry, h]
  rw [structAt_ok hp]
  simp only [bind, Except.bind, hqos]
  cases entryAt i ascsAesCharMaxNum with
  | error e => rfl
  | ok u => cases checkCisMapping table e (qosCfgParam bytes p).qos <;> rfl

theorem judges_checkEntry_configQos (hlen : bytes.length < 65536)
    (hend : p + (16 + 0) ≤ bytes.length)
    (h : checkAse table .configQos (octet bytes p) = .ok e) :
    Judges (fun n => checkEntry app table .configQos bytes p i (octet bytes p) n)
      (EntryInside table .configQos bytes p ∧
        (Stores app table .configQos bytes p → i < ascsAesCharMaxNum))
      (fun r => Takes app table .configQos bytes p r.1 ∧ r.2 = p + (16 + 0)) := by
  have hnext : add16 p qosCfgParamLen = p + (16 + 0) := by
    unfold add16 qosCfgParamLen
    omega
  have hp : p + qosCfgParamLen ≤ bytes.length := by
    unfold qosCfgParamLen
    omega
  cases hqos : aseCheckCfgQosParam e (qosCfgParam bytes p).qos with
  | error resp =>
    have hres : ∀ n, checkEntry app table .configQos bytes p i (octet bytes p) n =
        .ok (.error resp) := by
      intro n
      simp only [checkEntry, h]
      rw [structAt_ok hp]
      simp only [bind, Except.bind, hqos]
      rfl
    simp only [hres]
    refine (Judges.pure (.error resp)).congr ?_ fun r => ?_
    . simp [EntryInside, Stores, h, hqos]
    . simp [Takes, h, hqos]
  | ok u =>
    simp only [checkEntry_configQos hp h hqos, hnext]
    refine (judges_entryAt (Judges.pure _)).congr ?_ fun r => ?_
    . simp [EntryInside, Stores, h, hqos]
    . obtain ⟨param, next⟩ := r
      simp only [Takes, h, hqos, Except.ok.injEq, exists_eq_left', true_and]
      cases hcis : checkCisMapping table e (qosCfgParam bytes p).qos with
      | error resp => simp [Except.map]
      | ok u => simp [Except.map, eq_comm]

section

variable (hop : op = .enable ∨ op = .updateMetadata)
  (h : checkAse table op (octet bytes p) = .ok e)

include hop h

theorem entryInside_metadata :
    EntryInside table op bytes p ↔
      (octet bytes (p + 1) ≠ 0 → MetadataInside bytes (p + 2) (octet bytes (p + 1))) := by
  rcases hop with rfl | rfl <;> simp [EntryInside, h]

theorem stores_metadata : Stores app table op bytes p ↔ MetadataOk app e op bytes p := by
  rcases hop with rfl | rfl <;> simp [Stores, h]

theorem takes_metadata :
    Takes app table op bytes p param ↔ MetadataOk app e op bytes p ∧
      param = .metadata (octet bytes p) (octet bytes (p + 1))
        (octets bytes (p + 2) (octet bytes (p + 1))) := by
  rcases hop with rfl | rfl <;> simp [Takes, h]

theorem checkEntry_metadata (hidx : add16 p 1 = p + 1) (hbase : add16 (p + 1) 1 = p + 2)
    (hp : p + 1 < bytes.length) :
    checkEntry app table op bytes p i (octet bytes p) n =
      checkMetadata app e op (octet bytes p) bytes (p + 2) (octet bytes (p + 1)) n >>=
        andThen (fun _ _ => storeEntry i (add16 (p + 2) (octet bytes (p + 1)))
          (.metadata (octet bytes p) (octet bytes (p + 1))
            (octets bytes (p + 2) (octet bytes (p + 1))))) id n := by
  rcases hop with rfl | rfl
  all_goals
    simp only [checkEntry, h]
    rw [hidx, hbase, byteAt_octet hp]
    refine congrArg (checkMetadata app e _ (octet bytes p) bytes (p + 2) (octet bytes (p + 1)) n >>= ·)
      (funext fun r => ?_)
    cases r <;> rfl

theorem judges_checkEntry_metadata (hlen : bytes.length < 65536)
    (hend : p + (2 + octet bytes (p + 1)) ≤ bytes.length) :
    Judges (fun n => checkEntry app table op bytes p i (octet bytes p) n)
      (EntryInside table op bytes p ∧ (Stores app table op bytes p → i < ascsAesCharMaxNum))
      (fun r => Takes app table op bytes p r.1 ∧ r.2 = p + (2 + octet bytes (p + 1))) := by
  have hidx : add16 p 1 = p + 1 := Nat.mod_eq_of_lt (by omega)
  have hbase : add16 (p + 1) 1 = p + 2 := Nat.mod_eq_of_lt (by omega)
  have hnext : add16 (p + 2) (octet bytes (p + 1)) = p + (2 + octet bytes (p + 1)) := by
    unfold add16
    omega
  simp only [checkEntry_metadata hop h hidx hbase (show p + 1 < bytes.length by omega), hnext]
  refine (judges_checkMetadata.bind fun _ => judges_storeEntry).congr ?_ fun r => ?_
  . rw [entryInside_metadata hop h, stores_metadata hop h]
    exact and_congr_right fun _ => ⟨fun hs hm => hs () hm, fun hs _ hm => hs hm⟩
  . obtain ⟨param, next⟩ := r
    rw [takes_metadata hop h, Prod.mk.injEq]
    constructor
    . rintro ⟨-, hm, rfl, rfl⟩
      exact ⟨⟨hm, rfl⟩, rfl⟩
    . rintro ⟨⟨hm, rfl⟩, rfl⟩
      exact ⟨(), hm, rfl, rfl⟩

end

theorem judges_checkEntry_aseId (hop : fixedLen op = 1) (hlen : bytes.length < 65536)
    (hp : p + (1 + 0) ≤ bytes.length) (h : checkAse table op (octet bytes p) = .ok e) :
    Judges (fun n => checkEntry app table op bytes p i (octet bytes p) n)
      (EntryInside table op bytes p ∧ (Stores app table op bytes p → i < ascsAesCharMaxNum))
      (fun r => Takes app table op bytes p r.1 ∧ r.2 = p + (1 + 0)) := by
  have hnext : add16 p 1 = p + 1 := by
    unfold add16
    omega
  have heq : ∀ n, checkEntry app table op bytes p i (octet bytes p) n =
      storeEntry i (p + 1) (.aseId (octet bytes p)) := by
    intro n
    rw [← hnext]
    cases op with
    | configCodec => cases hop
    | configQos => cases hop
    | enable => cases hop
    | updateMetadata => cases hop
    | recStartReady => simp only [checkEntry, h]; rfl
    | recStopReady => simp only [checkEntry, h]; rfl
    | disable => simp only [checkEntry, h]; rfl
    | release => simp only [checkEntry, h]; rfl
  simp only [heq]
  refine judges_storeEntry.congr ?_ fun r => ?_
  . cases op <;> simp_all [EntryInside, Stores, fixedLen]
  . obtain ⟨param, next⟩ := r
    cases op <;> simp_all [Takes, fixedLen]

theorem judges_checkEntry (hlen : bytes.length < 65536)
    (hend : p + (fixedLen op + countedLen op bytes p) ≤ bytes.length) :
    Judges (fun n => checkEntry app table op bytes p i (octet bytes p) n)
      (EntryInside table op bytes p ∧ (Stores app table op bytes p → i < ascsAesCharMaxNum))
      (fun r => Takes app table op bytes p r.1 ∧
        r.2 = p + (fixedLen op + countedLen op bytes p)) := by
  cases h : checkAse table op (octet bytes p) with
  | error resp => exact judges_checkEntry_refused h
  | ok e =>
    cases op with
    | configCodec => exact judges_checkEntry_configCodec hlen hend h
    | configQos => exact judges_checkEntry_configQos hlen hend h
    | enable => exact judges_checkEntry_metadata (.inl rfl) h hlen hend
    | updateMetadata => exact judges_checkEntry_metadata (.inr rfl) h hlen hend
    | recStartReady => exact judges_checkEntry_aseId rfl hlen hend h
    | recStopReady => exact judges_checkEntry_aseId rfl hlen hend h
    | disable => exact judges_checkEntry_aseId rfl hlen hend h
    | release => exact judges_checkEntry_aseId rfl hlen hend h

end

end Ascs
