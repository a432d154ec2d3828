import Earphone.Ascs.Link

namespace Ascs

def QosStateData.cis (qos : QosStateData) : Nat × Nat := (qos.cigId, qos.cisId)

def Streamable (cig : Cig) (e : AseEntry) : Prop :=
  ∃ info, cig.isochInfo e.cisConnHandle = some info ∧ info.state = .conn ∧
    (info.dataPathFlags &&& dataPathFlag e.direction) ≠ 0

structure Moves (cig : Cig) (e e' : AseEntry) : Prop where
  aseId : e'.aseId = e.aseId
  direction : e'.direction = e.direction
  handle : e'.cisConnHandle = e.cisConnHandle
  streams : e'.aseState = .streaming → e.aseState = .streaming ∨ Streamable cig e

structure MovesCis (cig : Cig) (e e' : AseEntry) : Prop extends Moves cig e e' where
  cis : e'.aseState.hasCis = true → e.aseState.hasCis = true ∧ e'.qosStateData = e.qosStateData

theorem check_streamable : aseSmCheckIsochStatus cig .enable e = true ↔ Streamable cig e := by
  unfold aseSmCheckIsochStatus Streamable
  cases cig.isochInfo e.cisConnHandle <;> simp

theorem movesCis_refl : MovesCis cig e e :=
  { aseId := rfl, direction := rfl, handle := rfl, streams := .inl, cis := fun h => ⟨h, rfl⟩ }

theorem changeState_qos (h : s.hasCis = true) :
    (ascsChangeState e s).qosStateData = e.qosStateData := by
  unfold ascsChangeState
  by_cases hs : e.aseState = s
  . rw [if_pos hs]
  . rw [if_neg hs]
    cases s with
    | idle => cases h
    | codecConfigured => cases h
    | releasing => cases h
    | qosConfigured => rfl
    | enabling => rfl
    | streaming => rfl
    | disabling => rfl

theorem MovesCis.changeState (h : MovesCis cig e e')
    (hcis : s.hasCis = true → e'.aseState.hasCis = true)
    (hstreams : s = .streaming → Streamable cig e) : MovesCis cig e (ascsChangeState e' s) :=
  { aseId := changeState_aseId.trans h.aseId
    direction := changeState_direction.trans h.direction
    handle := changeState_cisConnHandle.trans h.handle
    streams := fun hs => .inr (hstreams (changeState_aseState.symm.trans hs))
    cis := fun hs => by
      rw [changeState_aseState] at hs
      obtain ⟨hcis', hqos⟩ := h.cis (hcis hs)
      exact ⟨hcis', (changeState_qos hs).trans hqos⟩ }

theorem Moves.check (h : Moves cig e e') : Moves cig e (ascsCheckCurrentState cig e').1 := by
  rcases checkCurrentState_cases cig e' with ⟨d, hc⟩ | ⟨-, hc⟩
  . rw [hc]
    exact ⟨h.aseId, h.direction, h.handle, h.streams⟩
  . rw [hc]
    exact { aseId := changeState_aseId.trans h.aseId
            direction := changeState_direction.trans h.direction
            handle := changeState_cisConnHandle.trans h.handle
            streams := fun hs => by
              rw [changeState_aseState] at hs
              cases hs }

theorem MovesCis.check (h : MovesCis cig e e') :
    MovesCis cig e (ascsCheckCurrentState cig e').1 := by
  refine { h.toMoves.check with cis := fun hs => ?_ }
  rcases checkCurrentState_cases cig e' with ⟨d, hc⟩ | ⟨-, hc⟩
  . rw [hc] at hs ⊢
    exact h.cis hs
  . rw [hc, changeState_aseState] at hs
    cases hs

theorem movesCis_same (hid : e'.aseId = e.aseId) (hdir : e'.direction = e.direction)
    (hhandle : e'.cisConnHandle = e.cisConnHandle) (hs : e'.aseState = e.aseState)
    (hqos : e'.qosStateData = e.qosStateData) : MovesCis cig e e' :=
  { aseId := hid, direction := hdir, handle := hhandle
    streams := fun h => .inl (hs ▸ h)
    cis := fun h => ⟨hs ▸ h, hqos⟩ }

section

variable {env : Env} {e : AseEntry}

theorem moves_cfgCodec : MovesCis env.cig e (aseActionCfgCodec env e param codec parsed).entry := by
  have hconf : MovesCis env.cig e (ascsChangeState e .codecConfigured) :=
    movesCis_refl.changeState (fun h => by cases h) fun h => by cases h
  have hset : ∀ e', e'.aseId = (ascsChangeState e .codecConfigured).aseId →
      e'.direction = (ascsChangeState e .codecConfigured).direction →
      e'.cisConnHandle = (ascsChangeState e .codecConfigured).cisConnHandle →
      e'.aseState = (ascsChangeState e .codecConfigured).aseState → MovesCis env.cig e e' := by
    intro e' hid hdir hhandle hs
    rw [changeState_aseState] at hs
    exact { aseId := hid.trans hconf.aseId
            direction := hdir.trans hconf.direction
            handle := hhandle.trans hconf.handle
            streams := fun h => by
              rw [hs] at h
              cases h
            cis := fun h => by
              rw [hs] at h
              cases h }
  have hprefer : ∀ cfg stored, MovesCis env.cig e
      (preferQos env (setCodec (ascsChangeState e .codecConfigured) param cfg stored) param) := by
    intro cfg stored
    obtain ⟨data, heq, -, -⟩ := preferQos_same env
      (setCodec (ascsChangeState e .codecConfigured) param cfg stored) param
    rw [heq]
    exact hset _ rfl rfl rfl rfl
  unfold aseActionCfgCodec
  by_cases hs : e.aseState = .idle ∨ e.aseState = .codecConfigured ∨ e.aseState = .qosConfigured
  . rw [if_pos hs]
    cases parsed with
    | error left => exact hset _ rfl rfl rfl rfl
    | ok cfg =>
      simp only
      split_ifs
      . exact hset _ rfl rfl rfl rfl
      . exact (hprefer cfg (some codec)).check
      . exact (hprefer cfg none).check
  . rw [if_neg hs]
    exact movesCis_refl

theorem moves_cfgQos {qos : QosStateData} :
    (aseActionCfgQos env e qos).entry = e ∨
      Moves env.cig e (aseActionCfgQos env e qos).entry ∧
        (aseActionCfgQos env e qos).entry.qosStateData = qos := by
  unfold aseActionCfgQos
  by_cases hs : e.aseState = .codecConfigured ∨ e.aseState = .qosConfigured
  . rw [if_pos hs]
    have hstate : (ascsChangeState e .qosConfigured).aseState = .qosConfigured :=
      changeState_aseState
    have hmoves : Moves env.cig e { ascsChangeState e .qosConfigured with qosStateData := qos } :=
      { aseId := changeState_aseId
        direction := changeState_direction
        handle := changeState_cisConnHandle
        streams := fun h => by
          rw [hstate] at h
          cases h }
    refine .inr ⟨hmoves.check, ?_⟩
    rcases checkCurrentState_cases env.cig
      { ascsChangeState e .qosConfigured with qosStateData := qos } with ⟨d, hc⟩ | ⟨hr, -⟩
    . show (ascsCheckCurrentState env.cig _).1.qosStateData = qos
      rw [hc]
    . rw [hstate] at hr
      cases hr
  . rw [if_neg hs]
    exact .inl rfl

theorem moves_enable : MovesCis env.cig e (aseActionEnable env e metadataLen metadata).entry := by
  unfold aseActionEnable
  by_cases hs : e.aseState = .qosConfigured
  . rw [if_pos hs]
    have henabling : MovesCis env.cig e (ascsChangeState e .enabling) :=
      movesCis_refl.changeState (fun _ => by rw [hs]; rfl) fun h => by cases h
    have hstate : (ascsChangeState e .enabling).aseState = .enabling := changeState_aseState
    have hset : MovesCis env.cig e
        (setMetadata env (ascsChangeState e .enabling) metadataLen metadata) :=
      { aseId := henabling.aseId, direction := henabling.direction, handle := henabling.handle
        streams := henabling.streams, cis := henabling.cis }
    simp only
    split_ifs with hmem hopen
    . exact hset
    . obtain ⟨-, hcheck, -⟩ := hopen
      refine MovesCis.check (hset.changeState (fun _ => ?_) fun _ => ?_)
      . show (ascsChangeState e .enabling).aseState.hasCis = true
        rw [hstate]
        rfl
      . obtain ⟨info, hinfo, hconn, hflags⟩ := check_streamable.mp hcheck
        rw [hset.handle] at hinfo
        rw [hset.direction] at hflags
        exact ⟨info, hinfo, hconn, hflags⟩
    . exact hset.check
  . rw [if_neg hs]
    exact movesCis_refl

theorem moves_recStartReady : MovesCis env.cig e (aseActionRecStartReady env e).entry := by
  unfold aseActionRecStartReady
  by_cases hs : e.aseState = .enabling ∧ e.direction = .source
  . rw [if_pos hs]
    have hready : MovesCis env.cig e { e with recStartReady := true } :=
      movesCis_same rfl rfl rfl rfl rfl
    simp only
    split_ifs with hopen
    . exact MovesCis.check (hready.changeState (fun _ => by rw [hs.1]; rfl)
        fun _ => check_streamable.mp hopen)
    . exact hready.check
  . rw [if_neg hs]
    exact movesCis_refl

theorem moves_recStopReady : MovesCis env.cig e (aseActionRecStopReady env e).entry := by
  unfold aseActionRecStopReady
  by_cases hs : e.aseState = .disabling ∧ e.direction = .source
  . rw [if_pos hs]
    have hready : MovesCis env.cig e { e with recStopReady := true } :=
      movesCis_same rfl rfl rfl rfl rfl
    simp only
    split_ifs
    . exact MovesCis.check (hready.changeState (fun _ => by rw [hs.1]; rfl) fun h => by cases h)
    . exact hready.check
  . rw [if_neg hs]
    exact movesCis_refl

theorem moves_disable : MovesCis env.cig e (aseActionDisable env e).entry := by
  unfold aseActionDisable
  by_cases hs : e.aseState = .enabling ∨ e.aseState = .streaming
  . rw [if_pos hs]
    have hcis : e.aseState.hasCis = true := by
      rcases hs with hs | hs <;> rw [hs] <;> rfl
    refine MovesCis.check (movesCis_refl.changeState (fun _ => hcis) fun h => ?_)
    split_ifs at h
  . rw [if_neg hs]
    exact movesCis_refl

theorem moves_updateMetadata :
    MovesCis env.cig e (aseActionUpdateMetadata env e metadataLen metadata).entry := by
  have hset : MovesCis env.cig e (setMetadata env e metadataLen metadata) :=
    movesCis_same rfl rfl rfl rfl rfl
  unfold aseActionUpdateMetadata
  split_ifs
  . exact movesCis_refl
  . exact hset
  . exact hset.check

theorem moves_release : MovesCis env.cig e (aseActionRelease env e).entry := by
  unfold aseActionRelease
  split_ifs
  . exact MovesCis.check (movesCis_refl.changeState (fun h => by cases h) fun h => by cases h)
  . exact movesCis_refl

theorem moves_released : MovesCis cig e (aseActionReleased cig e).entry := by
  unfold aseActionReleased
  split_ifs
  . exact movesCis_refl
  . exact movesCis_refl.changeState (fun h => by cases h) fun h => by cases h
  . exact movesCis_refl

theorem moves_switchToStreaming (h : MovesCis cig e e')
    (hopen : Streamable cig e) : MovesCis cig e (aseSwitchToStreaming cig e').entry := by
  unfold aseSwitchToStreaming
  by_cases hs : e'.aseState = .enabling
  . rw [if_pos hs]
    exact MovesCis.check (h.changeState (fun _ => by rw [hs]; rfl) fun _ => hopen)
  . rw [if_neg hs]
    exact h

theorem moves_switchToQosCfg (h : MovesCis cig e e') :
    MovesCis cig e (aseSwitchToQosCfg cig e').entry := by
  unfold aseSwitchToQosCfg
  by_cases hs : e'.aseState = .disabling
  . rw [if_pos hs]
    exact MovesCis.check (h.changeState (fun _ => by rw [hs]; rfl) fun h => by cases h)
  . rw [if_neg hs]
    exact h

theorem moves_cpAction {op : Op} {param : CpParam} (hqos : ∀ data, param ≠ .configQos data) :
    MovesCis env.cig e (cpAction env op e param).entry := by
  cases param with
  | configCodec data cfg codec => exact moves_cfgCodec
  | configQos data => exact absurd rfl (hqos data)
  | metadata ase metadataLen metadata =>
    simp only [cpAction]
    split_ifs
    . exact moves_enable
    . exact moves_updateMetadata
  | aseId ase =>
    simp only [cpAction]
    split
    . exact moves_recStartReady
    . exact moves_recStopReady
    . exact moves_disable
    . exact moves_release

theorem moves_actionRelease : MovesCis env.cig e (ascsActionRelease env e).entry := by
  unfold ascsActionRelease
  cases env.cig.isochInfo e.cisConnHandle with
  | none => exact moves_release
  | some info =>
    simp only
    split_ifs
    . exact movesCis_refl
    . exact moves_release

theorem moves_releaseByCig : MovesCis env.cig e (ascsActionReleaseByCig cigId env e).entry := by
  unfold ascsActionReleaseByCig
  split_ifs
  . exact movesCis_refl
  . exact movesCis_refl
  . exact moves_release

theorem moves_recReady
    (hswitch : ∀ e', MovesCis env.cig e e' → aseSmCheckIsochStatus env.cig check e' = true →
      MovesCis env.cig e (switch env.cig e').entry) :
    MovesCis env.cig e (recReady cpOp check switch env e).entry := by
  have hrec : MovesCis env.cig e { e with appHandshakeRec := true } :=
    movesCis_same rfl rfl rfl rfl rfl
  unfold recReady
  split_ifs with hs hh
  . exact movesCis_refl
  . simp only
    split_ifs with hcheck
    . exact hswitch _ hrec hcheck
    . exact hrec.check
  . exact movesCis_refl

theorem moves_actionRecStartReady : MovesCis env.cig e (ascsActionRecStartReady env e).entry :=
  moves_recReady fun e' h hcheck => by
    obtain ⟨info, hinfo, hconn, hflags⟩ := check_streamable.mp hcheck
    rw [h.handle] at hinfo
    rw [h.direction] at hflags
    exact moves_switchToStreaming h ⟨info, hinfo, hconn, hflags⟩

theorem moves_actionRecStopReady : MovesCis env.cig e (ascsActionRecStopReady env e).entry :=
  moves_recReady fun _ h _ => moves_switchToQosCfg h

theorem moves_cfgCodecOr : MovesCis env.cig e (cfgCodecOr param codec left env e).entry := by
  unfold cfgCodecOr ascsActionCfgCodec
  cases codecCfgParse codec 0 param.codecSpecCfgLen (param.codecSpecCfgLen + 1) with
  | error => exact movesCis_refl
  | ok parsed => exact moves_cfgCodec

theorem moves_setupDataPath :
    MovesCis env.cig e (handleSetupDataPath cisConnHandle path success env e).entry := by
  unfold handleSetupDataPath
  split_ifs with hcis hpath hsuccess hopen hready
  . exact moves_switchToStreaming movesCis_refl (check_streamable.mp hopen.2)
  . exact movesCis_refl
  . exact movesCis_same rfl rfl rfl rfl rfl
  . exact movesCis_refl.check
  . exact movesCis_refl
  . exact movesCis_refl

theorem moves_removeDataPath :
    MovesCis env.cig e (handleRemoveDataPath cisConnHandle path env e).entry := by
  unfold handleRemoveDataPath
  by_cases hcis : e.cisConnHandle = cisConnHandle
  . rw [if_pos hcis]
    have hleft : MovesCis env.cig e
        (if e.addedPathDirection = path then { e with addedPathDirection := 0 } else e) := by
      split_ifs
      . exact movesCis_same rfl rfl rfl rfl rfl
      . exact movesCis_refl
    simp only
    split_ifs at hleft ⊢
    . exact moves_switchToQosCfg hleft
    . exact hleft
    . exact moves_switchToQosCfg hleft
    . exact hleft
  . rw [if_neg hcis]
    exact movesCis_refl

end

end Ascs
