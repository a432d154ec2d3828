import Earphone.Ascs.Mapping

namespace Ascs

open Scan Ltv Run List

structure Carries (e e' : AseEntry) : Prop where
  aseId : e'.aseId = e.aseId
  direction : e'.direction = e.direction
  handshake : e'.appHandshake = e.appHandshake
  kept : e.direction = .sink → e'.appHandshakeRec = true →
    e.appHandshakeRec = true ∧ (e.aseState = .enabling → e'.aseState = .enabling)
  disabling : e.direction = .sink → e'.aseState = .disabling → e.aseState = .disabling
  streams : e.direction = .sink → e.appHandshake = true → e'.aseState = .streaming →
    e.aseState = .streaming ∨ e.appHandshakeRec = true

section

variable {e e' e'' : AseEntry}

theorem Carries.refl (e : AseEntry) : Carries e e :=
  { aseId := rfl, direction := rfl, handshake := rfl
    kept := fun _ h => ⟨h, id⟩
    disabling := fun _ => id
    streams := fun _ _ => .inl }

theorem Carries.trans (h : Carries e e') (h' : Carries e' e'') : Carries e e'' where
  aseId := h'.aseId.trans h.aseId
  direction := h'.direction.trans h.direction
  handshake := h'.handshake.trans h.handshake
  kept hsink hrec := by
    obtain ⟨hrec', hstate'⟩ := h'.kept (h.direction.trans hsink) hrec
    obtain ⟨hrec, hstate⟩ := h.kept hsink hrec'
    exact ⟨hrec, fun hs => hstate' (hstate hs)⟩
  disabling hsink hs := h.disabling hsink (h'.disabling (h.direction.trans hsink) hs)
  streams hsink hhand hs := by
    obtain hs | hrec := h'.streams (h.direction.trans hsink) (h.handshake.trans hhand) hs
    . exact h.streams hsink hhand hs
    . exact .inr (h.kept hsink hrec).1

theorem carries_same (hid : e'.aseId = e.aseId) (hdir : e'.direction = e.direction)
    (hhand : e'.appHandshake = e.appHandshake) (hrec : e'.appHandshakeRec = e.appHandshakeRec)
    (hs : e'.aseState = e.aseState) : Carries e e' :=
  { aseId := hid, direction := hdir, handshake := hhand
    kept := fun _ h => ⟨hrec ▸ h, fun h => hs ▸ h⟩
    disabling := fun _ h => hs ▸ h
    streams := fun _ _ h => .inl (hs ▸ h) }

theorem changeState_appHandshake : (ascsChangeState e s).appHandshake = e.appHandshake := by
  unfold ascsChangeState
  by_cases h : e.aseState = s
  . rw [if_pos h]
  . rw [if_neg h]
    cases s <;> rfl

theorem changeState_rec (h : (ascsChangeState e s).appHandshakeRec = true) :
    e.appHandshakeRec = true := by
  unfold ascsChangeState at h
  by_cases hs : e.aseState = s
  . rwa [if_pos hs] at h
  . rw [if_neg hs] at h
    cases s with
    | idle => exact h
    | codecConfigured => exact h
    | enabling => exact h
    | disabling => exact h
    | qosConfigured => cases h
    | streaming => cases h
    | releasing => cases h

theorem changeState_norec (hs : s = .qosConfigured ∨ s = .streaming ∨ s = .releasing)
    (hne : e.aseState ≠ s) : (ascsChangeState e s).appHandshakeRec = false := by
  unfold ascsChangeState
  rw [if_neg hne]
  obtain rfl | rfl | rfl := hs <;> rfl

section

variable (h : Carries e e')

include h

theorem Carries.changeState (hkept : e.direction = .sink → e.aseState = .enabling →
      s = .qosConfigured ∨ s = .streaming ∨ s = .releasing)
    (hdis : e.direction = .sink → s ≠ .disabling)
    (hstreams : e.direction = .sink → e.appHandshake = true → s = .streaming →
      e.appHandshakeRec = true) : Carries e (ascsChangeState e' s) where
  aseId := changeState_aseId.trans h.aseId
  direction := changeState_direction.trans h.direction
  handshake := changeState_appHandshake.trans h.handshake
  kept hsink hrec := by
    obtain ⟨hrec', hstate⟩ := h.kept hsink (changeState_rec hrec)
    refine ⟨hrec', fun hs => ?_⟩
    have hto := hkept hsink hs
    have hne : e'.aseState ≠ s := by
      rw [hstate hs]
      obtain rfl | rfl | rfl := hto <;> decide
    rw [changeState_norec hto hne] at hrec
    cases hrec
  disabling hsink hs := absurd (changeState_aseState.symm.trans hs) (hdis hsink)
  streams hsink hhand hs := .inr (hstreams hsink hhand (changeState_aseState.symm.trans hs))

theorem Carries.leave (hne : e.aseState ≠ .enabling)
    (hs : s ≠ .disabling ∧ s ≠ .streaming) : Carries e (ascsChangeState e' s) :=
  h.changeState (fun _ henabling => absurd henabling hne) (fun _ => hs.1)
    fun _ _ hstreaming => absurd hstreaming hs.2

theorem Carries.clear (hs : s = .qosConfigured ∨ s = .releasing) :
    Carries e (ascsChangeState e' s) := by
  obtain rfl | rfl := hs
  . exact h.changeState (fun _ _ => .inl rfl) (fun _ h => nomatch h) fun _ _ h => nomatch h
  . exact h.changeState (fun _ _ => .inr (.inr rfl)) (fun _ h => nomatch h) fun _ _ h => nomatch h

theorem Carries.stream
    (hdone : e.direction = .sink → e.appHandshake = true → e.appHandshakeRec = true) :
    Carries e (ascsChangeState e' .streaming) :=
  h.changeState (fun _ _ => .inr (.inl rfl)) (fun _ h => nomatch h)
    fun hsink hhand _ => hdone hsink hhand

theorem Carries.check : Carries e (ascsCheckCurrentState cig e').1 := by
  refine h.trans ?_
  rcases checkCurrentState_cases cig e' with ⟨d, hc⟩ | ⟨hs, hc⟩
  . rw [hc]
    exact carries_same rfl rfl rfl rfl rfl
  . rw [hc]
    exact (Carries.refl e').leave (by rw [hs]; decide) (by decide)

end

theorem handshakeDone_rec (h : e.handshakeDone = true) (hhand : e.appHandshake = true) :
    e.appHandshakeRec = true := by
  unfold AseEntry.handshakeDone at h
  rwa [hhand, Bool.not_true, Bool.false_or] at h

end

theorem carries_cfgCodec : Carries e (aseActionCfgCodec env e param codec parsed).entry := by
  unfold aseActionCfgCodec
  by_cases hs : e.aseState = .idle ∨ e.aseState = .codecConfigured ∨ e.aseState = .qosConfigured
  . rw [if_pos hs]
    have hne : e.aseState ≠ .enabling := by
      obtain hs | hs | hs := hs <;> rw [hs] <;> decide
    have hconf : Carries e (ascsChangeState e .codecConfigured) :=
      (Carries.refl e).leave hne (by decide)
    have hprefer : ∀ cfg stored, Carries e
        (preferQos env (setCodec (ascsChangeState e .codecConfigured) param cfg stored) param) := by
      intro cfg stored
      obtain ⟨data, heq, -, -⟩ := preferQos_same env
        (setCodec (ascsChangeState e .codecConfigured) param cfg stored) param
      rw [heq]
      exact hconf.trans (carries_same rfl rfl rfl rfl rfl)
    cases parsed with
    | error left => exact hconf.trans (carries_same rfl rfl rfl rfl rfl)
    | ok cfg =>
      simp only
      split_ifs
      . exact hconf.trans (carries_same rfl rfl rfl rfl rfl)
      . exact (hprefer cfg (some codec)).check
      . exact (hprefer cfg none).check
  . rw [if_neg hs]
    exact .refl e

theorem carries_cfgQos : Carries e (aseActionCfgQos env e qos).entry := by
  unfold aseActionCfgQos
  by_cases hs : e.aseState = .codecConfigured ∨ e.aseState = .qosConfigured
  . rw [if_pos hs]
    have hconf : Carries e { ascsChangeState e .qosConfigured with qosStateData := qos } :=
      ((Carries.refl e).clear (.inl rfl)).trans (carries_same rfl rfl rfl rfl rfl)
    exact hconf.check
  . rw [if_neg hs]
    exact .refl e

theorem carries_enable : Carries e (aseActionEnable env e metadataLen metadata).entry := by
  unfold aseActionEnable
  by_cases hs : e.aseState = .qosConfigured
  . rw [if_pos hs]
    have hset : Carries e (setMetadata env (ascsChangeState e .enabling) metadataLen metadata) :=
      ((Carries.refl e).leave (by rw [hs]; decide) (by decide)).trans
        (carries_same rfl rfl rfl rfl rfl)
    simp only
    split_ifs with hmem hopen
    . exact hset
    . exact (hset.stream fun _ => handshakeDone_rec hopen.2.2).check
    . exact hset.check
  . rw [if_neg hs]
    exact .refl e

theorem carries_recStartReady : Carries e (aseActionRecStartReady env e).entry := by
  unfold aseActionRecStartReady
  by_cases hs : e.aseState = .enabling ∧ e.direction = .source
  . rw [if_pos hs]
    have hready : Carries e { e with recStartReady := true } := carries_same rfl rfl rfl rfl rfl
    simp only
    split_ifs
    . refine (hready.stream fun hsink => ?_).check
      rw [hs.2] at hsink
      cases hsink
    . exact hready.check
  . rw [if_neg hs]
    exact .refl e

theorem carries_recStopReady : Carries e (aseActionRecStopReady env e).entry := by
  unfold aseActionRecStopReady
  split_ifs
  . have hready : Carries e { e with recStopReady := true } := carries_same rfl rfl rfl rfl rfl
    simp only
    split_ifs
    . exact (hready.clear (.inl rfl)).check
    . exact hready.check
  . exact .refl e

theorem carries_disable : Carries e (aseActionDisable env e).entry := by
  unfold aseActionDisable
  split_ifs with hs hsink
  . exact ((Carries.refl e).clear (.inl rfl)).check
  . refine ((Carries.refl e).changeState ?_ ?_ ?_).check
    . exact fun h => absurd h hsink
    . exact fun h => absurd h hsink
    . exact fun h => absurd h hsink
  . exact .refl e

theorem carries_updateMetadata :
    Carries e (aseActionUpdateMetadata env e metadataLen metadata).entry := by
  have hset : Carries e (setMetadata env e metadataLen metadata) := carries_same rfl rfl rfl rfl rfl
  unfold aseActionUpdateMetadata
  split_ifs
  . exact .refl e
  . exact hset
  . exact hset.check

theorem carries_release : Carries e (aseActionRelease env e).entry := by
  unfold aseActionRelease
  split_ifs
  . exact ((Carries.refl e).clear (.inr rfl)).check
  . exact .refl e

theorem carries_released (h : Carries e e') : Carries e (aseActionReleased cig e').entry := by
  unfold aseActionReleased
  split_ifs with _ hs
  . exact h
  . exact h.trans ((Carries.refl e').leave (by rw [hs]; decide) (by decide))
  . exact h

theorem carries_switchToQosCfg (h : Carries e e') : Carries e (aseSwitchToQosCfg cig e').entry := by
  unfold aseSwitchToQosCfg
  split_ifs
  . exact (h.clear (.inl rfl)).check
  . exact h

theorem carries_cpAction : Carries e (cpAction env op e param).entry := by
  cases param with
  | configCodec data cfg codec => exact carries_cfgCodec
  | configQos data => exact carries_cfgQos
  | metadata ase metadataLen metadata =>
    simp only [cpAction]
    split_ifs
    . exact carries_enable
    . exact carries_updateMetadata
  | aseId ase =>
    simp only [cpAction]
    split
    . exact carries_recStartReady
    . exact carries_recStopReady
    . exact carries_disable
    . exact carries_release

theorem carries_actionRelease : Carries e (ascsActionRelease env e).entry := by
  unfold ascsActionRelease
  cases env.cig.isochInfo e.cisConnHandle with
  | none => exact carries_release
  | some info =>
    simp only
    split_ifs
    . exact .refl e
    . exact carries_release

theorem carries_releaseByCig : Carries e (ascsActionReleaseByCig cigId env e).entry := by
  unfold ascsActionReleaseByCig
  split_ifs
  . exact .refl e
  . exact .refl e
  . exact carries_release

theorem carries_cfgCodecOr : Carries e (cfgCodecOr param codec left env e).entry := by
  unfold cfgCodecOr ascsActionCfgCodec
  cases codecCfgParse codec 0 param.codecSpecCfgLen (param.codecSpecCfgLen + 1) with
  | error => exact .refl e
  | ok parsed => exact carries_cfgCodec

theorem carries_removeDataPath :
    Carries e (handleRemoveDataPath cisConnHandle path env e).entry := by
  unfold handleRemoveDataPath
  by_cases hcis : e.cisConnHandle = cisConnHandle
  . rw [if_pos hcis]
    have hleft : Carries e
        (if e.addedPathDirection = path then { e with addedPathDirection := 0 } else e) := by
      split_ifs
      . exact carries_same rfl rfl rfl rfl rfl
      . exact .refl e
    simp only
    generalize (if e.addedPathDirection = path then { e with addedPathDirection := 0 } else e) =
      left at hleft ⊢
    split_ifs
    . exact carries_switchToQosCfg hleft
    . exact hleft
  . rw [if_neg hcis]
    exact .refl e

theorem carries_disconnectInfo : Carries e (handleDisconnectInfo cisConnHandle env e).entry := by
  unfold handleDisconnectInfo
  by_cases hcis : e.cisConnHandle = cisConnHandle
  . rw [if_pos hcis]
    have hleft : Carries e { e with cisConnHandle := 0, addedPathDirection := 0 } :=
      carries_same rfl rfl rfl rfl rfl
    simp only
    split_ifs
    . exact carries_released hleft
    . exact (hleft.clear (.inl rfl)).check
    . exact hleft
  . rw [if_neg hcis]
    exact .refl e

theorem carries_setupDataPath
    (hdone : e.cisConnHandle = cisConnHandle → e.addedPathDirection = addingFlag path →
      success = true → e.aseState = .enabling →
        aseSmCheckIsochStatus env.cig .enable e = true → e.direction = .sink →
          e.appHandshake = true → e.appHandshakeRec = true) :
    Carries e (handleSetupDataPath cisConnHandle path success env e).entry := by
  unfold handleSetupDataPath
  split_ifs with hcis hpath hsuccess hopen hready
  . unfold aseSwitchToStreaming
    rw [if_pos hopen.1]
    exact ((Carries.refl e).stream (hdone hcis hpath hsuccess hopen.1 hopen.2)).check
  . exact .refl e
  . exact carries_same rfl rfl rfl rfl rfl
  . exact (Carries.refl e).check
  . exact .refl e
  . exact .refl e

section

structure AllCarry (table table' : AseTable) : Prop where
  ids : table'.map AseEntry.aseId = table.map AseEntry.aseId
  entry : ∀ e' ∈ table', ∃ e ∈ table, Carries e e'

variable {table table' table'' : AseTable} {e entry : AseEntry}

theorem AllCarry.refl (table : AseTable) : AllCarry table table :=
  ⟨rfl, fun e he => ⟨e, he, .refl e⟩⟩

theorem AllCarry.trans (h : AllCarry table table') (h' : AllCarry table' table'') :
    AllCarry table table'' where
  ids := h'.ids.trans h.ids
  entry e'' he'' := by
    obtain ⟨e', he', hcarries'⟩ := h'.entry e'' he''
    obtain ⟨e, he, hcarries⟩ := h.entry e' he'
    exact ⟨e, he, hcarries.trans hcarries'⟩

theorem AllCarry.nodup (h : AllCarry table table') (hnodup : (table.map AseEntry.aseId).Nodup) :
    (table'.map AseEntry.aseId).Nodup := by
  rw [h.ids]
  exact hnodup

theorem allCarry_set (hnodup : (table.map AseEntry.aseId).Nodup) (hmem : e ∈ table)
    (h : Carries e entry) : AllCarry table (setAse table entry) where
  ids := setAse_ids
  entry e' he' := by
    rcases mem_setAse hnodup he' with rfl | ⟨he', -⟩
    . exact ⟨e, hmem, h⟩
    . exact ⟨e', he', .refl e'⟩

theorem allCarry_each (h : ∀ k, ∀ e ∈ table, Carries e (action (envs k) e).entry) :
    AllCarry table (eachAse envs action table).1 where
  ids := by
    induction table with
    | nil => rfl
    | cons e rest ih =>
      rw [eachAse, map_cons, map_cons, (h rest.length e mem_cons_self).aseId,
        ih fun k e he => h k e (mem_cons_of_mem _ he)]
  entry e' he' := by
    obtain ⟨e, he, k, rfl⟩ := mem_eachAse he'
    exact ⟨e, he, h k e he⟩

section

variable (hnodup : (table.map AseEntry.aseId).Nodup)

include hnodup

theorem allCarry_cpActions : AllCarry table (cpActions envs op table params).1 := by
  induction params generalizing table with
  | nil => exact .refl table
  | cons param params ih =>
    rw [cpActions]
    cases he : aseFindByAseId table param.ase with
    | none => exact .refl table
    | some e =>
      have hset : AllCarry table
          (setAse table (cpAction (envs params.length) op e param).entry) :=
        allCarry_set hnodup (find_mem he) carries_cpAction
      exact hset.trans (ih (hset.nodup hnodup))

theorem allCarry_minLatency : AllCarry table (setMinLatency latency table params) := by
  unfold setMinLatency
  induction params generalizing table with
  | nil => exact .refl table
  | cons param params ih =>
    rw [foldl_cons]
    cases he : aseFindByAseId table param.ase with
    | none => exact ih hnodup
    | some e =>
      have hset : AllCarry table (setAse table { e with minTransportLatency := latency }) :=
        allCarry_set hnodup (find_mem he) (carries_same rfl rfl rfl rfl rfl)
      exact hset.trans (ih (hset.nodup hnodup))

theorem allCarry_remoteCp : AllCarry table (aseHandleRemoteCp envs sduInterval table cp).1 := by
  unfold aseHandleRemoteCp
  split_ifs
  . exact (allCarry_minLatency hnodup).trans
      (allCarry_cpActions ((allCarry_minLatency hnodup).nodup hnodup))
  . exact allCarry_cpActions hnodup

theorem allCarry_connectCis (hfound : ∀ e, found = some e → e ∈ table) :
    AllCarry table (connectCis cig cisConnHandle table found).1 := by
  cases found with
  | none => exact .refl table
  | some e =>
    have hhandle : Carries e { e with cisConnHandle := cisConnHandle } :=
      carries_same rfl rfl rfl rfl rfl
    exact allCarry_set hnodup (hfound e rfl) hhandle.check

theorem allCarry_cisEstablished :
    AllCarry table (handleCisEstablished cigs cisConnHandle cigId cisId table).1 := by
  have hsink : AllCarry table (connectCis (cigs 0) cisConnHandle table
      (aseFindByCigCis table .sink cigId cisId)).1 :=
    allCarry_connectCis hnodup fun e he => (findByCigCis_direction he).1
  refine hsink.trans (allCarry_connectCis (hsink.nodup hnodup) fun e he => ?_)
  exact connectCis_mem hnodup (findByCigCis_direction he).1 (findByCigCis_direction he).2

end

theorem allCarry_act {link : Link} {around : Around} {aseId : Nat} {action : Env → AseEntry → Done}
    (hnodup : (link.table.map AseEntry.aseId).Nodup)
    (h : ∀ e, aseFindByAseId link.table aseId = some e →
      Carries e (action (around.envs 0) e).entry) :
    AllCarry link.table (link.act around aseId action).table := by
  unfold Link.act
  cases he : aseFindByAseId link.table aseId with
  | none => exact .refl link.table
  | some e => exact allCarry_set hnodup (find_mem he) (h e he)

theorem allCarry_write {link : Link} {around : Around} {app : App} {verdict : AseCp → Nat}
    {memory : Bool} {sduInterval : CodecCfg → Option Nat} {write : Write} {fuel : Nat}
    (hnodup : (link.table.map AseEntry.aseId).Nodup) :
    AllCarry link.table (link.write around app verdict memory sduInterval write fuel).table := by
  unfold Link.write
  split
  . exact allCarry_remoteCp hnodup
  . exact .refl link.table

end

section

structure Watch where
  link : Link
  confirmed : Nat → Bool

def Link.confirms (link : Link) : Event → Nat → Bool
  | .actionRecStartReady aseId, x =>
    aseId = x && (aseFindByAseId link.table aseId).any fun e =>
      e.direction = .sink && e.appHandshake && e.aseState = .enabling
  | _, _ => false

def Link.enabling (link : Link) (x : Nat) : Bool :=
  link.table.any fun e => e.aseId = x && e.aseState = .enabling

def Watch.step (w : Watch) (event : Event × Around) : Watch :=
  { link := w.link.step event
    confirmed := fun x =>
      (w.confirmed x || w.link.confirms event.1 x) && (w.link.step event).enabling x }

def Watch.init : Watch := { link := Link.init, confirmed := fun _ => false }

def StreamsConfirmed (w : Watch) (event : Event × Around) : Prop :=
  ∀ e' ∈ (w.link.step event).table, e'.direction = .sink → e'.appHandshake = true →
    e'.aseState = .streaming →
      (∃ e ∈ w.link.table, e.aseId = e'.aseId ∧ e.aseState = .streaming) ∨
        (w.confirmed e'.aseId || w.link.confirms event.1 e'.aseId) = true

structure Handshakes (w : Watch) (event : Event × Around) : Prop where
  streams : StreamsConfirmed w event
  start : ∀ aseId e, event.1 = .actionRecStartReady aseId →
    aseFindByAseId w.link.table aseId = some e → e.aseState ≠ .enabling →
      ascsActionRecStartReady (event.2.envs 0) e = ⟨false, e, []⟩
  stop : ∀ aseId e, event.1 = .actionRecStopReady aseId →
    aseFindByAseId w.link.table aseId = some e → e.aseState ≠ .disabling →
      ascsActionRecStopReady (event.2.envs 0) e = ⟨false, e, []⟩

structure Watch.StepOk (w : Watch) (event : Event × Around) : Prop where
  start : ∀ aseId e, event.1 = .actionRecStartReady aseId →
    aseFindByAseId w.link.table aseId = some e → e.direction = .sink → e.appHandshake = true →
      e.aseState = .enabling
  stop : ∀ aseId e, event.1 = .actionRecStopReady aseId →
    aseFindByAseId w.link.table aseId = some e → e.direction = .sink → e.appHandshake = true →
      e.aseState = .disabling
  setup : ∀ cisConnHandle path, event.1 = .setupDataPath cisConnHandle path true →
    ∀ e ∈ w.link.table, e.cisConnHandle = cisConnHandle → e.addedPathDirection = addingFlag path →
      e.aseState = .enabling → e.direction = .sink → e.appHandshake = true →
        (∃ k, aseSmCheckIsochStatus (event.2.envs k).cig .enable e = true) →
          e.appHandshakeRec = true

structure Watched (w : Watch) : Prop where
  nodup : (w.link.table.map AseEntry.aseId).Nodup
  confirmed : ∀ e ∈ w.link.table, e.direction = .sink → e.appHandshakeRec = true →
    e.aseState = .enabling ∧ w.confirmed e.aseId = true
  disabling : ∀ e ∈ w.link.table, e.direction = .sink → e.aseState ≠ .disabling

variable {w : Watch} {event : Event × Around}

theorem enabling_of_mem {link : Link} {e : AseEntry} (hmem : e ∈ link.table)
    (hs : e.aseState = .enabling) : link.enabling e.aseId = true := by
  unfold Link.enabling
  rw [any_eq_true]
  exact ⟨e, hmem, by simp [hs]⟩

theorem watched_of_carry (h : Watched w)
    (hcarry : AllCarry w.link.table (w.link.step event).table) :
    Watched (w.step event) ∧ StreamsConfirmed w event := by
  refine ⟨⟨hcarry.nodup h.nodup, ?_, ?_⟩, ?_⟩
  . intro e' he' hsink hrec
    obtain ⟨e, he, hcarries⟩ := hcarry.entry e' he'
    have hsink' := hcarries.direction.symm.trans hsink
    obtain ⟨hrec', hstate⟩ := hcarries.kept hsink' hrec
    obtain ⟨henabling, hconfirmed⟩ := h.confirmed e he hsink' hrec'
    have hgoes : (w.link.step event).enabling e'.aseId = true :=
      enabling_of_mem he' (hstate henabling)
    refine ⟨hstate henabling, ?_⟩
    show ((w.confirmed e'.aseId || _) && (w.link.step event).enabling e'.aseId) = true
    rw [hgoes, hcarries.aseId, hconfirmed]
    rfl
  . intro e' he' hsink hs
    obtain ⟨e, he, hcarries⟩ := hcarry.entry e' he'
    have hsink' := hcarries.direction.symm.trans hsink
    exact h.disabling e he hsink' (hcarries.disabling hsink' hs)
  . intro e' he' hsink hhand hs
    obtain ⟨e, he, hcarries⟩ := hcarry.entry e' he'
    have hsink' := hcarries.direction.symm.trans hsink
    obtain hstreaming | hrec := hcarries.streams hsink' (hcarries.handshake.symm.trans hhand) hs
    . exact .inl ⟨e, he, hcarries.aseId.symm, hstreaming⟩
    . right
      rw [hcarries.aseId, (h.confirmed e he hsink' hrec).2]
      rfl

theorem watched_of_set (entry : AseEntry) {e : AseEntry} (h : Watched w) (hmem : e ∈ w.link.table)
    (htable : (w.link.step event).table = setAse w.link.table entry)
    (hid : entry.aseId = e.aseId)
    (hconfirmed : entry.direction = .sink → entry.appHandshakeRec = true →
      entry.aseState = .enabling ∧ (w.confirmed e.aseId || w.link.confirms event.1 e.aseId) = true)
    (hdisabling : entry.direction = .sink → entry.aseState ≠ .disabling)
    (hstreams : entry.direction = .sink → entry.appHandshake = true → entry.aseState = .streaming →
      e.aseState = .streaming ∨ (w.confirmed e.aseId || w.link.confirms event.1 e.aseId) = true) :
    Watched (w.step event) ∧ StreamsConfirmed w event := by
  refine ⟨⟨?_, ?_, ?_⟩, ?_⟩
  . show ((w.link.step event).table.map AseEntry.aseId).Nodup
    rw [htable, setAse_ids]
    exact h.nodup
  . intro n hn hsink hrec
    have hgoes (hs : n.aseState = .enabling) : (w.link.step event).enabling n.aseId = true :=
      enabling_of_mem hn hs
    show _ ∧ ((w.confirmed n.aseId || w.link.confirms event.1 n.aseId) &&
      (w.link.step event).enabling n.aseId) = true
    have hn' : n ∈ setAse w.link.table entry := htable ▸ hn
    rcases mem_setAse h.nodup hn' with rfl | ⟨hold, -⟩
    . obtain ⟨hs, hc⟩ := hconfirmed hsink hrec
      rw [hgoes hs, hid, hc]
      exact ⟨hs, rfl⟩
    . obtain ⟨hs, hc⟩ := h.confirmed n hold hsink hrec
      rw [hgoes hs, hc]
      exact ⟨hs, rfl⟩
  . intro n hn hsink
    have hn' : n ∈ setAse w.link.table entry := htable ▸ hn
    rcases mem_setAse h.nodup hn' with rfl | ⟨hold, -⟩
    . exact hdisabling hsink
    . exact h.disabling n hold hsink
  . intro n hn hsink hhand hs
    have hn' : n ∈ setAse w.link.table entry := htable ▸ hn
    rcases mem_setAse h.nodup hn' with rfl | ⟨hold, -⟩
    . rw [hid]
      obtain hstreaming | hc := hstreams hsink hhand hs
      . exact .inl ⟨e, hmem, rfl, hstreaming⟩
      . exact .inr hc
    . exact .inl ⟨n, hold, rfl, hs⟩

theorem recReady_refused
    (h : aseCpCheckSmState e.aseState e.direction cpOp false = false ∨ e.appHandshake = false) :
    recReady cpOp check switch env e = ⟨false, e, []⟩ := by
  unfold recReady
  split_ifs with hs hhand
  . rfl
  . rw [h.resolve_left hs] at hhand
    cases hhand
  . rfl

theorem checkSmState_rec (hop : cpOp = .recStartReady ∨ cpOp = .recStopReady) :
    aseCpCheckSmState aseState direction cpOp false = false ↔ direction ≠ .sink := by
  obtain rfl | rfl := hop <;> simp [aseCpCheckSmState]

theorem recStartReady_refused (h : e.direction ≠ .sink ∨ e.appHandshake = false) :
    ascsActionRecStartReady env e = ⟨false, e, []⟩ :=
  recReady_refused (h.imp_left (checkSmState_rec (.inl rfl)).mpr)

theorem recStopReady_refused (h : e.direction ≠ .sink ∨ e.appHandshake = false) :
    ascsActionRecStopReady env e = ⟨false, e, []⟩ :=
  recReady_refused (h.imp_left (checkSmState_rec (.inr rfl)).mpr)

theorem check_same {cig : Cig} {e : AseEntry} (hs : e.aseState ≠ .releasing) :
    ∃ d, (ascsCheckCurrentState cig e).1 = { e with addedPathDirection := d } := by
  rcases checkCurrentState_cases cig e with ⟨d, hc⟩ | ⟨hrel, -⟩
  . exact ⟨d, by rw [hc]⟩
  . exact absurd hrel hs

theorem recStartReady_entry {env : Env} {e : AseEntry} (hs : e.aseState = .enabling) :
    (ascsActionRecStartReady env e).entry.aseId = e.aseId ∧
      ((ascsActionRecStartReady env e).entry.aseState = .enabling ∨
        (ascsActionRecStartReady env e).entry.aseState = .streaming ∧
          (ascsActionRecStartReady env e).entry.appHandshakeRec = false) := by
  unfold ascsActionRecStartReady recReady
  split_ifs with hstate hhand
  . exact ⟨rfl, .inl hs⟩
  . simp only
    split_ifs
    . unfold aseSwitchToStreaming
      rw [if_pos hs]
      have hnew : (ascsChangeState { e with appHandshakeRec := true } .streaming).aseState =
          .streaming := changeState_aseState
      have hnorec : (ascsChangeState { e with appHandshakeRec := true }
          .streaming).appHandshakeRec = false :=
        changeState_norec (.inr (.inl rfl)) (by
          show e.aseState ≠ .streaming
          rw [hs]
          decide)
      obtain ⟨d, hd⟩ := @check_same env.cig
        (ascsChangeState { e with appHandshakeRec := true } .streaming) (by rw [hnew]; decide)
      show (ascsCheckCurrentState env.cig _).1.aseId = _ ∧ _
      unfold notifyAndCheck
      dsimp only
      rw [hd]
      exact ⟨changeState_aseId, .inr ⟨hnew, hnorec⟩⟩
    . obtain ⟨d, hd⟩ := @check_same env.cig { e with appHandshakeRec := true }
        (by
          show e.aseState ≠ .releasing
          rw [hs]
          decide)
      unfold checkOnly
      dsimp only
      rw [hd]
      exact ⟨rfl, .inl hs⟩
  . exact ⟨rfl, .inl hs⟩

theorem refused_or {e : AseEntry} {P : Prop} (hP : ¬P)
    (h : e.direction = .sink → e.appHandshake = true → P) :
    e.direction ≠ .sink ∨ e.appHandshake = false := by
  by_cases hsink : e.direction = .sink
  . right
    rw [← Bool.not_eq_true]
    exact fun hhand => hP (h hsink hhand)
  . exact .inl hsink

theorem watched_recStartReady {around : Around} {aseId : Nat} (h : Watched w)
    (hok : w.StepOk (.actionRecStartReady aseId, around)) :
    Watched (w.step (.actionRecStartReady aseId, around)) ∧
      StreamsConfirmed w (.actionRecStartReady aseId, around) := by
  cases hfind : aseFindByAseId w.link.table aseId with
  | none =>
    refine watched_of_carry h (allCarry_act h.nodup fun e he => ?_)
    rw [hfind] at he
    cases he
  | some e =>
    by_cases hwaits : e.direction = .sink ∧ e.appHandshake = true
    . have hs := hok.start aseId e rfl hfind hwaits.1 hwaits.2
      have hconfirms : w.link.confirms (.actionRecStartReady aseId) e.aseId = true := by
        simp [Link.confirms, hfind, find_aseId hfind, hwaits.1, hwaits.2, hs]
      have hc : (w.confirmed e.aseId ||
          w.link.confirms (.actionRecStartReady aseId) e.aseId) = true := by
        rw [hconfirms, Bool.or_true]
      obtain ⟨hid, hentry⟩ := @recStartReady_entry (around.envs 0) e hs
      refine watched_of_set (ascsActionRecStartReady (around.envs 0) e).entry h
        (find_mem hfind) ?_ hid ?_ ?_ fun _ _ _ => .inr hc
      . show (w.link.act around aseId ascsActionRecStartReady).table = _
        unfold Link.act
        rw [hfind]
        rfl
      . intro _ hrec
        obtain hs' | ⟨-, hnorec⟩ := hentry
        . exact ⟨hs', hc⟩
        . rw [hnorec] at hrec
          cases hrec
      . intro _
        obtain hs' | ⟨hs', -⟩ := hentry <;> rw [hs'] <;> decide
    . refine watched_of_carry h (allCarry_act h.nodup fun n hn => ?_)
      rw [hfind] at hn
      cases hn
      rw [recStartReady_refused (refused_or hwaits fun hsink hhand => ⟨hsink, hhand⟩)]
      exact .refl e

theorem watched_step (h : Watched w) (hok : w.StepOk event) :
    Watched (w.step event) ∧ StreamsConfirmed w event := by
  obtain ⟨event, around⟩ := event
  have hact : ∀ {aseId : Nat} {action : Env → AseEntry → Done},
      (∀ env e, Carries e (action env e).entry) →
        AllCarry w.link.table (w.link.act around aseId action).table :=
    fun hm => allCarry_act h.nodup fun e _ => hm (around.envs 0) e
  cases event with
  | connected memory snkAseNum srcAseNum mtu =>
    have htable : (w.link.connect memory snkAseNum srcAseNum mtu).table = w.link.table ∨
        ((w.link.connect memory snkAseNum srcAseNum mtu).table.map AseEntry.aseId).Nodup ∧
          ∀ e ∈ (w.link.connect memory snkAseNum srcAseNum mtu).table,
            e.aseState = .idle ∧ e.appHandshakeRec = false := by
      unfold Link.connect
      split_ifs
      . exact .inl rfl
      . refine .inr ⟨(@linkInit_ok 23 snkAseNum srcAseNum (Nat.le_refl _)).nodup, ?_⟩
        intro e he
        rcases mem_append.mp he with he | he
        . obtain ⟨i, -, rfl⟩ := mem_map.mp he
          exact ⟨rfl, rfl⟩
        . obtain ⟨i, -, rfl⟩ := mem_map.mp he
          exact ⟨rfl, rfl⟩
      . exact .inr ⟨nodup_nil, fun e he => absurd he not_mem_nil⟩
    obtain htable | ⟨hnodup, hidle⟩ := htable
    . refine watched_of_carry h ?_
      show AllCarry _ (w.link.connect memory snkAseNum srcAseNum mtu).table
      rw [htable]
      exact .refl _
    . refine ⟨⟨hnodup, ?_, ?_⟩, ?_⟩
      . intro e he _ hrec
        rw [(hidle e he).2] at hrec
        cases hrec
      . intro e he _
        rw [(hidle e he).1]
        decide
      . intro e he _ _ hs
        rw [(hidle e he).1] at hs
        cases hs
  | attrWrite app verdict memory sduInterval write fuel =>
    exact watched_of_carry h (allCarry_write h.nodup)
  | actionCfgCodec aseId param codec left =>
    exact watched_of_carry h (hact fun env e => carries_cfgCodecOr)
  | actionDisable aseId => exact watched_of_carry h (hact fun env e => carries_disable)
  | actionRelease aseId => exact watched_of_carry h (hact fun env e => carries_actionRelease)
  | actionReleaseByCig cigId =>
    exact watched_of_carry h (allCarry_each fun k e _ => carries_releaseByCig)
  | actionUpdateMetadata aseId metadata =>
    exact watched_of_carry h (hact fun env e => carries_updateMetadata)
  | actionRecStartReady aseId => exact watched_recStartReady h hok
  | actionRecStopReady aseId =>
    -- no sink is disabling, so the call comes for no sink with a handshake
    refine watched_of_carry h (allCarry_act h.nodup fun e he => ?_)
    have hnot : ¬(e.direction = .sink ∧ e.appHandshake = true) := fun hboth =>
      h.disabling e (find_mem he) hboth.1 (hok.stop aseId e rfl he hboth.1 hboth.2)
    rw [recStopReady_refused (refused_or hnot fun hsink hhand => ⟨hsink, hhand⟩)]
    exact .refl e
  | appCtlHandshake aseId appHandshake =>
    cases hfind : aseFindByAseId w.link.table aseId with
    | none =>
      refine watched_of_carry h (allCarry_act h.nodup fun e he => ?_)
      rw [hfind] at he
      cases he
    | some e =>
      have hmem := find_mem hfind
      refine watched_of_set { e with appHandshake := appHandshake } h hmem ?_ rfl ?_
        (h.disabling e hmem) fun _ _ => .inl
      . show (w.link.act around aseId _).table = _
        unfold Link.act
        rw [hfind]
        rfl
      . intro hsink hrec
        obtain ⟨hs, hc⟩ := h.confirmed e hmem hsink hrec
        rw [hc]
        exact ⟨hs, rfl⟩
  | cisEstablished cisConnHandle cigId cisId =>
    have hcarry : AllCarry w.link.table (handleCisEstablished (fun n => (around.envs n).cig)
        cisConnHandle cigId cisId w.link.table).1 := allCarry_cisEstablished h.nodup
    exact watched_of_carry h hcarry
  | setupDataPath cisConnHandle path success =>
    refine watched_of_carry h (allCarry_each fun k e he => carries_setupDataPath ?_)
    intro hcis hpath hsuccess hs hopen hsink hhand
    subst hsuccess
    exact hok.setup cisConnHandle path rfl e he hcis hpath hs hsink hhand ⟨k, hopen⟩
  | removeDataPath cisConnHandle path =>
    exact watched_of_carry h (allCarry_each fun k e _ => carries_removeDataPath)
  | disconnectInfo cisConnHandle =>
    exact watched_of_carry h (allCarry_each fun k e _ => carries_disconnectInfo)
  | mtuInfo mtu => exact watched_of_carry h (.refl _)
  | authenInfo pending => exact watched_of_carry h (allCarry_each fun k e _ => .refl e)
  | disconnected =>
    exact ⟨⟨nodup_nil, fun e he => absurd he not_mem_nil,
      fun e he => absurd he not_mem_nil⟩, fun e he => absurd he not_mem_nil⟩

theorem handshakes_step (h : Watched w) (hok : w.StepOk event) : Handshakes w event where
  streams := (watched_step h hok).2
  start aseId e hevent he hs := recStartReady_refused (refused_or hs (hok.start aseId e hevent he))
  stop aseId e hevent he hs := recStopReady_refused (refused_or hs (hok.stop aseId e hevent he))

def openEnv : Env :=
  { quietEnv with
    cig := { isochInfo := fun _ => some ⟨.conn, 2, false, false⟩, setup := fun _ => true } }

def opened : Around := { envs := fun _ => openEnv, sent := fun _ => true }

def enableEvent : Event :=
  .attrWrite openApp (fun _ => 0) true (fun _ => none) ⟨[3, 1, 1, 0], by decide⟩ 8

def handshakeRun : List (Event × Around) :=
  configureRun ++ [(qosEvent [(1, 2)] qosWrite_one, quiet), (.appCtlHandshake 1 true, quiet)]

theorem stepOk_other {w : Watch} {event : Event} {around : Around}
    (hstart : ∀ aseId, event ≠ .actionRecStartReady aseId)
    (hstop : ∀ aseId, event ≠ .actionRecStopReady aseId)
    (hsetup : ∀ h path success, event ≠ .setupDataPath h path success) :
    w.StepOk (event, around) :=
  ⟨fun aseId _ h => absurd h (hstart aseId), fun aseId _ h => absurd h (hstop aseId),
    fun h path hevent => absurd hevent (hsetup h path true)⟩

end

end Ascs
