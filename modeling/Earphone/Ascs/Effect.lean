import Earphone.Ascs.Action
import Earphone.Ascs.CheckLen

namespace Ascs

open Scan Ltv

inductive Asked where
  | codec (codecId : List Nat) (codec : List UInt8)
  | qos (qos : QosStateData)
  | metadata (metadata : List UInt8)
  | nothing

def CpParam.asked : CpParam → Asked
  | .configCodec data _ codec => .codec data.codecId codec
  | .configQos data => .qos data.qos
  | .metadata _ _ bytes => .metadata bytes
  | .aseId _ => .nothing

def CpParam.Fits (op : Op) : CpParam → Prop
  | .configCodec data _ codec =>
    op = .configCodec ∧ data.codecSpecCfgLen = codec.length ∧ codec ≠ []
  | .configQos _ => op = .configQos
  | .metadata _ metadataLen bytes =>
    (op = .enable ∨ op = .updateMetadata) ∧ metadataLen = bytes.length
  | .aseId _ => fixedLen op = 1

def AseEntry.HasMetadata (e : AseEntry) (metadata : List UInt8) : Prop :=
  e.metadataLen = metadata.length ∧ e.metadata.getD [] = metadata

def Has (op : Op) (asked : Asked) (old e : AseEntry) : Prop :=
  match op, asked with
  | .configCodec, .codec codecId codec =>
    e.aseState = .codecConfigured ∧ e.codecStateData.codecId = codecId ∧
      e.codecStateData.codecSpecCfgLen = codec.length ∧ e.codecSpecCfgLen = codec.length ∧
      e.codecSpecCfg = some codec
  | .configQos, .qos qos => e.aseState = .qosConfigured ∧ e.qosStateData = qos
  | .enable, .metadata metadata =>
    (e.aseState = .enabling ∨ e.aseState = .streaming) ∧ e.HasMetadata metadata
  | .updateMetadata, .metadata metadata => e.aseState = old.aseState ∧ e.HasMetadata metadata
  | .recStartReady, .nothing =>
    e.aseState = .enabling ∧ e.recStartReady = true ∨ e.aseState = .streaming
  | .recStopReady, .nothing =>
    e.aseState = .disabling ∧ e.recStopReady = true ∨ e.aseState = .qosConfigured
  | .disable, .nothing =>
    e.aseState = if old.direction = .sink then .qosConfigured else .disabling
  | .release, .nothing => e.aseState = .releasing ∨ e.aseState = .idle
  | _, _ => False

def StateOk (op : Op) (e : AseEntry) : Prop :=
  ¬((op = .recStartReady ∨ op = .recStopReady) ∧ e.direction = .sink) ∧
    aseCpCheckSmState e.aseState e.direction op true = true

theorem find_cons :
    aseFindByAseId (e :: rest) x = if e.aseId = x then some e else aseFindByAseId rest x := by
  unfold aseFindByAseId
  rw [List.find?_cons]
  split_ifs with h <;> simp [h]

theorem find_aseId (h : aseFindByAseId table x = some e) : e.aseId = x := by
  have := List.find?_some h
  simpa using this

theorem find_setAse :
    aseFindByAseId (setAse table e) x =
      if e.aseId = x then (aseFindByAseId table x).map fun _ => e else aseFindByAseId table x := by
  induction table with
  | nil => simp [setAse, aseFindByAseId]
  | cons old rest ih =>
    rw [setAse]
    by_cases hold : old.aseId = e.aseId
    . rw [if_pos hold, find_cons, find_cons, hold]
      split_ifs <;> rfl
    . rw [if_neg hold, find_cons, find_cons, ih]
      by_cases hx : old.aseId = x
      . have : ¬e.aseId = x := fun h => hold (by rw [hx, h])
        simp [hx, this]
      . simp [hx]

theorem find_setAse_self (h : aseFindByAseId table x = some old)
    (hid : e.aseId = x) : aseFindByAseId (setAse table e) x = some e := by
  rw [find_setAse, if_pos hid, h]
  rfl

theorem find_setAse_ne (hid : e.aseId ≠ x) :
    aseFindByAseId (setAse table e) x = aseFindByAseId table x := by
  rw [find_setAse, if_neg hid]

theorem checkAse_ok : checkAse table op x = .ok e ↔
    aseFindByAseId table x = some e ∧ StateOk op e := by
  unfold checkAse StateOk
  cases h : aseFindByAseId table x with
  | none => simp
  | some e' =>
    simp only [Option.some.injEq]
    split_ifs with h1 h2
    . simp only [false_iff]
      rintro ⟨rfl, h3, -⟩
      exact h3 h1
    . simp only [false_iff]
      rintro ⟨rfl, -, h3⟩
      rw [h2] at h3
      cases h3
    . simp only [Except.ok.injEq]
      constructor
      . rintro rfl
        exact ⟨rfl, h1, by simpa using h2⟩
      . exact And.left

section

variable {e : AseEntry} {s : AseState}

@[simp]
theorem changeState_aseState : (ascsChangeState e s).aseState = s := by
  unfold ascsChangeState
  by_cases h : e.aseState = s
  . rw [if_pos h]
    exact h
  . rw [if_neg h]
    cases s <;> rfl

@[simp]
theorem changeState_aseId : (ascsChangeState e s).aseId = e.aseId := by
  unfold ascsChangeState
  by_cases h : e.aseState = s
  . rw [if_pos h]
  . rw [if_neg h]
    cases s <;> rfl

@[simp]
theorem changeState_direction : (ascsChangeState e s).direction = e.direction := by
  unfold ascsChangeState
  by_cases h : e.aseState = s
  . rw [if_pos h]
  . rw [if_neg h]
    cases s <;> rfl

@[simp]
theorem changeState_cisConnHandle : (ascsChangeState e s).cisConnHandle = e.cisConnHandle := by
  unfold ascsChangeState
  by_cases h : e.aseState = s
  . rw [if_pos h]
  . rw [if_neg h]
    cases s <;> rfl

theorem changeState_metadata (h : s = .enabling ∨ s = .streaming) :
    (ascsChangeState e s).metadata = e.metadata ∧
      (ascsChangeState e s).metadataLen = e.metadataLen := by
  unfold ascsChangeState
  by_cases hs : e.aseState = s
  . rw [if_pos hs]
    exact ⟨rfl, rfl⟩
  . rw [if_neg hs]
    rcases h with rfl | rfl <;> exact ⟨rfl, rfl⟩

theorem checkCurrentState_cases (cig : Cig) (e : AseEntry) :
    (∃ d, ascsCheckCurrentState cig e = ({ e with addedPathDirection := d }, [])) ∨
      e.aseState = .releasing ∧ ascsCheckCurrentState cig e =
        (ascsChangeState e .idle, [ascsChangeState e .idle]) := by
  have hsame : ∃ d, ((e, []) : AseEntry × List AseEntry) =
      ({ e with addedPathDirection := d }, []) := ⟨e.addedPathDirection, rfl⟩
  have hset : ∃ d, ((ascsSetupDataPath cig e, []) : AseEntry × List AseEntry) =
      ({ e with addedPathDirection := d }, []) := ⟨_, rfl⟩
  unfold ascsCheckCurrentState
  split
  . split_ifs
    . exact .inl hset
    . exact .inl hsame
  . split_ifs
    . exact .inl hset
    . exact .inl hsame
  . next info hstate hinfo =>
    split_ifs with hidle
    . refine .inr ⟨hstate, ?_⟩
      simp [aseActionReleased, aseSmCheckIsochStatus, hinfo, hidle, hstate]
    . exact .inl hsame
  . next hstate hinfo =>
    refine .inr ⟨hstate, ?_⟩
    simp [aseActionReleased, aseSmCheckIsochStatus, hinfo, hstate]
  . exact .inl hsame

@[simp]
theorem checkCurrentState_aseId : (ascsCheckCurrentState cig e).1.aseId = e.aseId := by
  rcases checkCurrentState_cases cig e with ⟨d, h⟩ | ⟨-, h⟩ <;> simp [h]

@[simp]
theorem checkCurrentState_direction : (ascsCheckCurrentState cig e).1.direction = e.direction := by
  rcases checkCurrentState_cases cig e with ⟨d, h⟩ | ⟨-, h⟩ <;> simp [h]

theorem tableQos_same (env : Env) (e : AseEntry) (param : CodecCfgParam) :
    ∃ data : CodecStateData, tableQos env e param = { e with codecStateData := data } ∧
      data.codecId = e.codecStateData.codecId ∧
      data.codecSpecCfgLen = e.codecStateData.codecSpecCfgLen := by
  unfold tableQos
  split
  . split <;> exact ⟨_, rfl, rfl, rfl⟩
  . exact ⟨_, rfl, rfl, rfl⟩

theorem preferQos_same (env : Env) (e : AseEntry) (param : CodecCfgParam) :
    ∃ data : CodecStateData, preferQos env e param = { e with codecStateData := data } ∧
      data.codecId = e.codecStateData.codecId ∧
      data.codecSpecCfgLen = e.codecStateData.codecSpecCfgLen := by
  obtain ⟨data, heq, hid, hlen⟩ := tableQos_same env e param
  unfold preferQos
  rw [heq]
  split
  . unfold ascsCfgAsePreferQos
    split <;> exact ⟨_, rfl, hid, hlen⟩
  . exact ⟨_, rfl, hid, hlen⟩

end

section

variable {env : Env} {op : Op} {e : AseEntry}

@[simp]
theorem notifyAndCheck_aseId : (notifyAndCheck cig e).entry.aseId = e.aseId :=
  checkCurrentState_aseId

@[simp]
theorem notifyAndCheck_direction : (notifyAndCheck cig e).entry.direction = e.direction :=
  checkCurrentState_direction

@[simp]
theorem checkNotified_aseId : (checkNotified cig old e).entry.aseId = e.aseId :=
  checkCurrentState_aseId

@[simp]
theorem checkNotified_direction : (checkNotified cig old e).entry.direction = e.direction :=
  checkCurrentState_direction

theorem cpAction_same (param : CpParam) :
    (cpAction env op e param).entry.aseId = e.aseId ∧
      (cpAction env op e param).entry.direction = e.direction := by
  cases param with
  | configCodec data cfg codec =>
    simp only [cpAction, aseActionCfgCodec]
    split_ifs
    . simp [setCodec]
    . obtain ⟨stored, h, -, -⟩ := preferQos_same env
        (setCodec (ascsChangeState e .codecConfigured) data cfg (some codec)) data
      rw [h]
      simp [setCodec]
    . obtain ⟨stored, h, -, -⟩ := preferQos_same env
        (setCodec (ascsChangeState e .codecConfigured) data cfg none) data
      rw [h]
      simp [setCodec]
    . simp
  | configQos data =>
    simp only [cpAction, aseActionCfgQos]
    split_ifs <;> simp
  | metadata ase metadataLen metadata =>
    simp only [cpAction, aseActionEnable, aseActionUpdateMetadata, setMetadata]
    split_ifs <;> simp
  | aseId ase =>
    cases op <;>
      simp only [cpAction, aseActionRecStartReady, aseActionRecStopReady, aseActionDisable,
        aseActionRelease] <;> split_ifs <;> simp

end

section

variable {env : Env} {op : Op} {e old : AseEntry} {asked : Asked}

theorem Has.addedPath (h : Has op asked old e) :
    Has op asked old { e with addedPathDirection := d } := by
  cases op <;> cases asked <;> exact h

theorem Has.notifyAndCheck (cig : Cig) (h : Has op asked old e)
    (hrel : e.aseState = .releasing → op = .release) :
    Has op asked old (Ascs.notifyAndCheck cig e).entry := by
  rcases checkCurrentState_cases cig e with ⟨d, hc⟩ | ⟨hr, hc⟩
  . simp only [Ascs.notifyAndCheck, hc]
    exact h.addedPath
  . obtain rfl := hrel hr
    simp only [Ascs.notifyAndCheck, hc]
    cases asked with
    | nothing => exact .inr changeState_aseState
    | codec _ _ => exact h
    | qos _ => exact h
    | metadata _ => exact h

theorem Has.checkNotified (cig : Cig) (h : Has op asked old e)
    (hrel : e.aseState = .releasing → op = .release) :
    Has op asked old (Ascs.checkNotified cig before e).entry :=
  h.notifyAndCheck cig hrel

theorem has_cfgCodec
    (hmem : env.memory = true) (hlen : data.codecSpecCfgLen = codec.length) (hne : codec ≠ [])
    (hs : e.aseState = .idle ∨ e.aseState = .codecConfigured ∨ e.aseState = .qosConfigured) :
    Has .configCodec (.codec data.codecId codec) old
      (aseActionCfgCodec env e data codec (.ok cfg)).entry := by
  have hpos : data.codecSpecCfgLen ≠ 0 := by
    rw [hlen]
    simpa using hne
  obtain ⟨stored, heq, hid, hstored⟩ := preferQos_same env
    (setCodec (ascsChangeState e .codecConfigured) data cfg (some codec)) data
  simp only [aseActionCfgCodec, if_pos hs, hmem, Bool.true_eq_false, and_false, if_false,
    if_pos hpos, heq]
  refine Has.notifyAndCheck _ ⟨?_, hid, hstored.trans hlen, hlen, rfl⟩ ?_
  . exact changeState_aseState
  . intro h
    rw [show (setCodec (ascsChangeState e .codecConfigured) data cfg (some codec)).aseState =
      .codecConfigured from changeState_aseState] at h
    cases h

theorem has_cfgQos
    (hs : e.aseState = .codecConfigured ∨ e.aseState = .qosConfigured) :
    Has .configQos (.qos qos) old (aseActionCfgQos env e qos).entry := by
  simp only [aseActionCfgQos, if_pos hs]
  refine Has.notifyAndCheck _ ⟨changeState_aseState, rfl⟩ fun h => ?_
  rw [show ({ ascsChangeState e .qosConfigured with qosStateData := qos } : AseEntry).aseState =
    .qosConfigured from changeState_aseState] at h
  cases h

theorem setMetadata_has {metadata : List UInt8} (hmem : env.memory = true) :
    (setMetadata env e metadata.length metadata).HasMetadata metadata := by
  refine ⟨rfl, ?_⟩
  by_cases h : metadata = []
  . simp [setMetadata, h]
  . simp [setMetadata, h, hmem]

theorem has_enable (hmem : env.memory = true)
    (hs : e.aseState = .qosConfigured ∨ Has .enable (.metadata metadata) old e) :
    Has .enable (.metadata metadata) old
      (aseActionEnable env e metadata.length metadata).entry := by
  by_cases hq : e.aseState = .qosConfigured
  . have hset := @setMetadata_has env (ascsChangeState e .enabling) metadata hmem
    simp only [aseActionEnable, if_pos hq, hmem, Bool.true_eq_false, and_false, if_false]
    split_ifs
    . obtain ⟨hm, hl⟩ := @changeState_metadata
        (setMetadata env (ascsChangeState e .enabling) metadata.length metadata) .streaming (.inr rfl)
      refine Has.notifyAndCheck _ ⟨.inr changeState_aseState, ?_⟩ (by simp)
      exact ⟨hl.trans hset.1, by rw [hm]; exact hset.2⟩
    . refine Has.notifyAndCheck _ ⟨.inl changeState_aseState, hset⟩ fun h => ?_
      rw [show (setMetadata env (ascsChangeState e .enabling) metadata.length metadata).aseState =
        .enabling from changeState_aseState] at h
      cases h
  . simp only [aseActionEnable, if_neg hq]
    exact hs.resolve_left hq

theorem has_updateMetadata (hmem : env.memory = true)
    (hold : old.aseState = .enabling ∨ old.aseState = .streaming) (hs : e.aseState = old.aseState) :
    Has .updateMetadata (.metadata metadata) old
      (aseActionUpdateMetadata env e metadata.length metadata).entry := by
  have hstate : ¬(e.aseState ≠ .enabling ∧ e.aseState ≠ .streaming) := by
    rw [hs]
    tauto
  simp only [aseActionUpdateMetadata, if_neg hstate, hmem, Bool.true_eq_false, and_false, if_false]
  refine Has.notifyAndCheck _ ⟨hs, setMetadata_has hmem⟩ fun h => ?_
  rw [show (setMetadata env e metadata.length metadata).aseState = old.aseState from hs] at h
  rcases hold with h' | h' <;> rw [h'] at h <;> cases h

theorem has_recStartReady
    (hs : e.aseState = .enabling ∧ e.direction = .source ∨ Has .recStartReady .nothing old e) :
    Has .recStartReady .nothing old (aseActionRecStartReady env e).entry := by
  unfold aseActionRecStartReady
  by_cases hc : e.aseState = .enabling ∧ e.direction = .source
  . rw [if_pos hc]
    simp only
    split_ifs
    . exact Has.checkNotified _ (.inr changeState_aseState) (by simp)
    . refine Has.checkNotified _ (.inl ⟨hc.1, rfl⟩) fun h => ?_
      rw [show ({ e with recStartReady := true } : AseEntry).aseState = .enabling from hc.1] at h
      cases h
  . rw [if_neg hc]
    exact hs.resolve_left hc

theorem has_recStopReady
    (hs : e.aseState = .disabling ∧ e.direction = .source ∨ Has .recStopReady .nothing old e) :
    Has .recStopReady .nothing old (aseActionRecStopReady env e).entry := by
  unfold aseActionRecStopReady
  by_cases hc : e.aseState = .disabling ∧ e.direction = .source
  . rw [if_pos hc]
    simp only
    split_ifs
    . exact Has.checkNotified _ (.inr changeState_aseState) (by simp)
    . refine Has.checkNotified _ (.inl ⟨hc.1, rfl⟩) fun h => ?_
      rw [show ({ e with recStopReady := true } : AseEntry).aseState = .disabling from hc.1] at h
      cases h
  . rw [if_neg hc]
    exact hs.resolve_left hc

theorem has_disable (hdir : e.direction = old.direction)
    (hs : e.aseState = .enabling ∨ e.aseState = .streaming ∨ Has .disable .nothing old e) :
    Has .disable .nothing old (aseActionDisable env e).entry := by
  unfold aseActionDisable
  by_cases hc : e.aseState = .enabling ∨ e.aseState = .streaming
  . rw [if_pos hc]
    refine Has.notifyAndCheck _ ?_ ?_
    . rw [hdir]
      exact changeState_aseState
    . rw [changeState_aseState]
      intro h
      split_ifs at h
  . rw [if_neg hc]
    tauto

theorem has_release
    (hs : e.aseState ≠ .idle ∧ e.aseState ≠ .releasing ∨ Has .release .nothing old e) :
    Has .release .nothing old (aseActionRelease env e).entry := by
  unfold aseActionRelease
  by_cases hc : e.aseState ≠ .idle ∧ e.aseState ≠ .releasing
  . rw [if_pos hc]
    exact Has.notifyAndCheck _ (.inl changeState_aseState) fun _ => rfl
  . rw [if_neg hc]
    exact hs.resolve_left hc

theorem cpAction_has (hmem : env.memory = true) (hfit : param.Fits op)
    (hok : StateOk op old) (hdir : e.direction = old.direction)
    (hs : e.aseState = old.aseState ∨ Has op param.asked old e) :
    Has op param.asked old (cpAction env op e param).entry := by
  cases param with
  | configCodec data cfg codec =>
    obtain ⟨rfl, hlen, hne⟩ := hfit
    refine has_cfgCodec hmem hlen hne ?_
    rcases hs with hs | hs
    . rw [hs]
      simpa [StateOk, aseCpCheckSmState, or_assoc] using hok
    . exact .inr (.inl hs.1)
  | configQos data =>
    obtain rfl : op = .configQos := hfit
    refine has_cfgQos ?_
    rcases hs with hs | hs
    . rw [hs]
      simpa [StateOk, aseCpCheckSmState] using hok
    . exact .inr hs.1
  | metadata ase metadataLen metadata =>
    obtain ⟨rfl | rfl, rfl⟩ := hfit
    . refine has_enable hmem (hs.imp_left fun hs => ?_)
      rw [hs]
      simpa [StateOk, aseCpCheckSmState] using hok
    . refine has_updateMetadata hmem ?_ ?_
      . simpa [StateOk, aseCpCheckSmState] using hok
      . rcases hs with hs | hs
        . exact hs
        . exact hs.1
  | aseId ase =>
    cases op with
    | configCodec => cases hfit
    | configQos => cases hfit
    | enable => cases hfit
    | updateMetadata => cases hfit
    | recStartReady =>
      refine has_recStartReady (hs.imp_left fun hs => ?_)
      rw [hs, hdir]
      simpa [StateOk, aseCpCheckSmState] using hok.2
    | recStopReady =>
      refine has_recStopReady (hs.imp_left fun hs => ?_)
      rw [hs, hdir]
      simpa [StateOk, aseCpCheckSmState] using hok.2
    | disable =>
      refine has_disable hdir ?_
      rcases hs with hs | hs
      . rw [hs]
        have := hok.2
        simp only [aseCpCheckSmState, Bool.or_eq_true, decide_eq_true_eq] at this
        tauto
      . exact .inr (.inr hs)
    | release =>
      refine has_release (hs.imp_left fun hs => ?_)
      rw [hs]
      simpa [StateOk, aseCpCheckSmState] using hok.2

theorem Has.asked_eq (h : Has op asked old e) (h' : Has op asked' old e) : asked = asked' := by
  cases op <;> cases asked <;> cases asked' <;> simp_all [Has, AseEntry.HasMetadata]

end

end Ascs
