import Earphone.Ascs.Respond
import Earphone.Ascs.Settle
import Earphone.Lib.Run
import Mathlib.Data.List.Nodup

namespace Ascs

open Scan Ltv Run List

structure Consistent (link : Link) : Prop where
  codec : ∀ e ∈ link.table, Holds e.codecSpecCfgLen e.codecSpecCfg
  stateData : ∀ e ∈ link.table, e.aseState ≠ .idle →
    e.codecStateData.codecSpecCfgLen = e.codecSpecCfgLen
  metadata : ∀ e ∈ link.table, Holds e.metadataLen e.metadata
  written : ∀ e ∈ link.table, ∃ data, aseGenCharData e = .ok data ∧ data.length = charDataLen e
  told : ∀ e ∈ link.table, Told link.told e
  kept : link.kept = true

structure TableOk (mtu : Nat) (told : Nat → Option (List Nat)) (table : AseTable) : Prop where
  nodup : (table.map AseEntry.aseId).Nodup
  entry : ∀ e ∈ table, Good e ∧ Room mtu e ∧ Told told e

section

variable {mtu : Nat} {told : Nat → Option (List Nat)} {table : AseTable} {e entry n : AseEntry}
  {notified : List AseEntry}

theorem setAse_ids : (setAse table e).map AseEntry.aseId = table.map AseEntry.aseId := by
  induction table with
  | nil => rfl
  | cons old rest ih =>
    rw [setAse]
    split_ifs with h
    . rw [map_cons, map_cons, h]
    . rw [map_cons, map_cons, ih]

theorem mem_setAse (hnodup : (table.map AseEntry.aseId).Nodup) (h : n ∈ setAse table e) :
    n = e ∨ n ∈ table ∧ n.aseId ≠ e.aseId := by
  induction table with
  | nil => exact absurd h not_mem_nil
  | cons old rest ih =>
    rw [map_cons, nodup_cons] at hnodup
    rw [setAse] at h
    split_ifs at h with hid
    . rcases mem_cons.mp h with h | h
      . exact .inl h
      . refine .inr ⟨mem_cons_of_mem _ h, fun hn => hnodup.1 ?_⟩
        rw [hid, ← hn]
        exact mem_map_of_mem h
    . rcases mem_cons.mp h with h | h
      . exact .inr ⟨by rw [h]; exact mem_cons_self, by rw [h]; exact hid⟩
      . exact (ih hnodup.2 h).imp_right (And.imp_left (mem_cons_of_mem _))

theorem mem_setAse_ne (h : n ∈ table) (hne : n.aseId ≠ e.aseId) : n ∈ setAse table e := by
  induction table with
  | nil => exact absurd h not_mem_nil
  | cons old rest ih =>
    rw [setAse]
    split_ifs with hid
    . rcases mem_cons.mp h with h | h
      . exact absurd (by rw [h]; exact hid) hne
      . exact mem_cons_of_mem _ h
    . rcases mem_cons.mp h with h | h
      . rw [h]
        exact mem_cons_self
      . exact mem_cons_of_mem _ (ih h)

theorem find_mem (h : aseFindByAseId table x = some e) : e ∈ table := mem_of_find?_eq_some h

theorem TableOk.set (h : TableOk mtu told table) (hs : Settles mtu e entry notified)
    (hmem : e ∈ table) : TableOk mtu (notified.foldl (tell mtu) told) (setAse table entry) := by
  refine ⟨by rw [setAse_ids]; exact h.nodup, fun n hn => ?_⟩
  rcases mem_setAse h.nodup hn with rfl | ⟨hn, hne⟩
  . exact ⟨hs.good, hs.room, hs.told_of (h.entry e hmem).2.2⟩
  . obtain ⟨hgood, hroom, htold⟩ := h.entry n hn
    refine ⟨hgood, hroom, fun value hvalue => htold value ?_⟩
    rw [hs.aseId] at hne
    rwa [tells_ne fun m hm => by rw [hs.ids m hm]; exact hne.symm] at hvalue

theorem TableOk.each (h : TableOk mtu told table)
    (hs : ∀ env, ∀ e ∈ table, Settles mtu e (action env e).entry (action env e).notified) :
    TableOk mtu ((eachAse envs action table).2.foldl (tell mtu) told)
        (eachAse envs action table).1 ∧
      (eachAse envs action table).1.map AseEntry.aseId = table.map AseEntry.aseId ∧
      ∀ n ∈ (eachAse envs action table).2, n.aseId ∈ table.map AseEntry.aseId := by
  induction table generalizing told with
  | nil => exact ⟨h, rfl, fun _ h => absurd h not_mem_nil⟩
  | cons e rest ih =>
    have hnodup := h.nodup
    rw [map_cons, nodup_cons] at hnodup
    have hhead := hs (envs rest.length) e mem_cons_self
    have hrest :
    TableOk mtu ((action (envs rest.length) e).notified.foldl (tell mtu) told) rest := by
      refine ⟨hnodup.2, fun n hn => ?_⟩
      obtain ⟨hgood, hroom, htold⟩ := h.entry n (mem_cons_of_mem _ hn)
      refine ⟨hgood, hroom, fun value hvalue => htold value ?_⟩
      have hne : e.aseId ≠ n.aseId := fun heq => hnodup.1 (heq ▸ mem_map_of_mem hn)
      rwa [tells_ne fun m hm => by rw [hhead.ids m hm]; exact hne] at hvalue
    obtain ⟨hok, hids, hnotified⟩ := ih hrest fun env n hn => hs env n (mem_cons_of_mem _ hn)
    have hother : ∀ n ∈ (eachAse envs action rest).2, n.aseId ≠ e.aseId :=
      fun n hn heq => hnodup.1 (heq ▸ hnotified n hn)
    refine ⟨⟨?_, fun n hn => ?_⟩, ?_, fun n hn => ?_⟩
    . rw [eachAse, map_cons, hids, hhead.aseId]
      exact h.nodup
    . rw [eachAse, foldl_append]
      rcases mem_cons.mp hn with rfl | hn
      . refine ⟨hhead.good, hhead.room, fun value hvalue => ?_⟩
        rw [hhead.aseId, tells_ne hother, ← hhead.aseId] at hvalue
        exact hhead.told_of (h.entry e mem_cons_self).2.2 value hvalue
      . exact hok.entry n hn
    . rw [eachAse, map_cons, hids, hhead.aseId, map_cons]
    . rcases mem_append.mp hn with hn | hn
      . rw [hhead.ids n hn]
        exact mem_cons_self
      . exact mem_cons_of_mem _ (hnotified n hn)

end

def CpParam.FitsIn (mtu : Nat) : CpParam → Prop
  | .configCodec data _ _ => data.codecSpecCfgLen + 28 ≤ mtu
  | .configQos _ => True
  | .metadata _ metadataLen _ => metadataLen + 8 ≤ mtu
  | .aseId _ => True

section

variable {mtu : Nat} {told : Nat → Option (List Nat)} {table : AseTable} {e : AseEntry}
  {envs : Nat → Env} {env : Env} {op : Op} {params : List CpParam}

theorem cpAction_settles (hmtu : 23 ≤ mtu) (hmem : env.memory = true)
    (hfit : param.Fits op) (hroomy : param.FitsIn mtu) (hgood : Good e) (hroom : Room mtu e) :
    Settles mtu e (cpAction env op e param).entry (cpAction env op e param).notified := by
  cases param with
  | configCodec data cfg codec =>
    exact cfgCodec_settles hmtu hmem hfit.2.1 hfit.2.2 hroomy hgood hroom
  | configQos data => exact cfgQos_settles hmtu hgood hroom
  | metadata ase metadataLen metadata =>
    simp only [cpAction]
    split_ifs
    . exact enable_settles hmtu hmem hfit.2 hroomy hgood hroom
    . exact updateMetadata_settles hmtu hmem hfit.2 hroomy hgood hroom
  | aseId ase =>
    simp only [cpAction]
    split
    . exact recStartReady_settles hmtu hgood hroom
    . exact recStopReady_settles hmtu hgood hroom
    . exact disable_settles hmtu hgood hroom
    . exact release_settles hmtu hgood hroom

theorem cpAction_keeps (hmem : env.memory = true)
    (h : (cpAction env op e param).ok = false) : (cpAction env op e param).entry = e := by
  have hnot : ∀ n : Nat, ¬(n ≠ 0 ∧ env.memory = false) := by
    rw [hmem]
    exact fun n hn => absurd hn.2 (by decide)
  cases param with
  | configCodec data cfg codec =>
    simp only [cpAction, aseActionCfgCodec, if_neg (hnot data.codecSpecCfgLen)] at h ⊢
    split_ifs at h ⊢ <;> first | rfl | simp [notifyAndCheck] at h
  | configQos data =>
    simp only [cpAction, aseActionCfgQos] at h ⊢
    split_ifs at h ⊢ <;> first | rfl | simp [notifyAndCheck] at h
  | metadata ase metadataLen metadata =>
    simp only [cpAction, aseActionEnable, aseActionUpdateMetadata, if_neg (hnot metadataLen)] at h ⊢
    split_ifs at h ⊢ <;> first | rfl | simp [notifyAndCheck] at h
  | aseId ase =>
    cases op <;>
      simp only [cpAction, aseActionRecStartReady, aseActionRecStopReady, aseActionDisable,
        aseActionRelease] at h ⊢ <;>
      split_ifs at h ⊢ <;> first | rfl | simp [notifyAndCheck, checkNotified] at h

theorem TableOk.cpActions (hmtu : 23 ≤ mtu) (hmem : ∀ n, (envs n).memory = true)
    (hparams : ∀ param ∈ params, param.Fits op ∧ param.FitsIn mtu) (h : TableOk mtu told table) :
    TableOk mtu ((cpActions envs op table params).2.foldl (tell mtu) told)
        (cpActions envs op table params).1 ∧
      cpKept envs op table params = true := by
  induction params generalizing table told with
  | nil => exact ⟨h, rfl⟩
  | cons param params ih =>
    cases he : aseFindByAseId table param.ase with
    | none =>
      simp only [Ascs.cpActions, cpKept, he]
      exact ⟨h, trivial⟩
    | some e =>
      have hin := find_mem he
      obtain ⟨hfit, hroomy⟩ := hparams param mem_cons_self
      obtain ⟨hgood, hroom, -⟩ := h.entry e hin
      have hs := cpAction_settles hmtu (hmem params.length) hfit hroomy hgood hroom
      obtain ⟨hok, hkept⟩ := ih (fun q hq => hparams q (mem_cons_of_mem _ hq)) (h.set hs hin)
      simp only [Ascs.cpActions, cpKept, he, foldl_append]
      refine ⟨hok, ?_⟩
      rw [hkept, Bool.and_true]
      cases hdone : (cpAction (envs params.length) op e param).ok with
      | true => rfl
      | false =>
        rw [cpAction_keeps (hmem params.length) hdone]
        simp

theorem TableOk.minLatency (h : TableOk mtu told table) :
    TableOk mtu told (setMinLatency latency table params) := by
  unfold setMinLatency
  induction params generalizing table with
  | nil => exact h
  | cons param params ih =>
    rw [foldl_cons]
    refine ih ?_
    cases he : aseFindByAseId table param.ase with
    | none => exact h
    | some e =>
      have hin := find_mem he
      obtain ⟨hgood, hroom, -⟩ := h.entry e hin
      have hs : Settles mtu e { e with minTransportLatency := latency } [] :=
        { settles_refl hgood hroom with
          aseId := rfl
          good := ⟨hgood.codec, hgood.metadata, hgood.stateData⟩
          room := ⟨hroom.value, hroom.metadata⟩
          ids := fun _ h => absurd h not_mem_nil
          value := rfl }
      exact h.set hs hin

theorem TableOk.remoteCp {sduInterval : CodecCfg → Option Nat} {cp : AseCp} (hmtu : 23 ≤ mtu)
    (hmem : ∀ n, (envs n).memory = true)
    (hparams : ∀ param ∈ cp.params, param.Fits cp.op ∧ param.FitsIn mtu)
    (h : TableOk mtu told table) :
    TableOk mtu ((aseHandleRemoteCp envs sduInterval table cp).2.foldl (tell mtu) told)
        (aseHandleRemoteCp envs sduInterval table cp).1 ∧
      remoteCpKept envs sduInterval table cp = true := by
  unfold aseHandleRemoteCp remoteCpKept
  split_ifs
  . exact h.minLatency.cpActions hmtu hmem hparams
  . exact h.cpActions hmtu hmem hparams

theorem cpData_noMemory
    (h : aseCheckCpData app verdict false table bytes fuel = .ok r) : r.2 = none := by
  unfold aseCheckCpData at h
  obtain ⟨opcode, -, h⟩ := bind_ok.mp h
  cases hop : Op.ofByte opcode with
  | none =>
    rw [hop] at h
    cases h
    rfl
  | some op =>
    rw [hop] at h
    obtain ⟨lenOk, -, h⟩ := bind_ok.mp h
    cases lenOk with
    | false =>
      cases h
      rfl
    | true =>
      rw [if_neg (by decide)] at h
      obtain ⟨aseNum, -, h⟩ := bind_ok.mp h
      by_cases hnum : aseNum = 0 ∧ 2 ≠ bytes.length
      . rw [if_pos hnum] at h
        cases h
        rfl
      . rw [if_neg hnum, if_pos rfl] at h
        cases h
        rfl

section

variable (hlen : bytes.length < 65536)
  (h : aseCheckCpData app verdict memory table bytes fuel = .ok (notify, some cp))

include hlen h

theorem cpData_takes :
    ∀ param ∈ cp.params, ∃ p, Takes app table cp.op bytes p param ∧
      p + (fixedLen cp.op + countedLen cp.op bytes p) ≤ bytes.length := by
  cases memory with
  | false => exact absurd (cpData_noMemory h) (by simp)
  | true =>
    rcases cpData_result hlen h with ⟨-, -, hnone⟩ | ⟨op, ⟨resps, parsed⟩, hwf, hpass, heq⟩
    . cases hnone
    . obtain ⟨-, -, hend⟩ := wellFormed_iff.mp hwf
      cases parsed with
      | none => simp [finish] at heq
      | some params =>
        have hall := hpass.takesAll hend
        have hcp : cp = ⟨op, octet bytes 1, params⟩ := by
          simp only [finish] at heq
          by_cases h0 : (if op = .recStartReady ∨ op = .recStopReady then 0
              else verdict ⟨op, octet bytes 1, params⟩) = 0
          . rw [if_pos h0, Prod.mk.injEq, Option.some.injEq] at heq
            exact heq.2
          . rw [if_neg h0] at heq
            cases heq
        rw [hcp]
        intro param hparam
        obtain ⟨k, hk, -, htakes⟩ := hall.mem hparam
        exact ⟨_, htakes, entryEnd_lt hend hk⟩

theorem cpData_fits : ∀ param ∈ cp.params, param.Fits cp.op := by
  intro param hparam
  obtain ⟨p, htakes, hend⟩ := cpData_takes hlen h param hparam
  exact htakes.fits hend

end

end

def Around.Sent (around : Around) : Prop := ∀ n, around.sent n = true

def Link.CfgCodecOk (link : Link) (env : Env) (aseId : Nat) (codec : List UInt8) : Prop :=
  ∀ e, aseFindByAseId link.table aseId = some e →
    (e.aseState = .idle ∨ e.aseState = .codecConfigured ∨ e.aseState = .qosConfigured) →
    codecCfgParse codec 0 codec.length (codec.length + 1) = .ok (.error ()) ∧
        e.aseState = .codecConfigured ∨
      (∃ cfg, codecCfgParse codec 0 codec.length (codec.length + 1) = .ok (.ok cfg)) ∧
        env.memory = true ∧ codec.length + 28 ≤ link.mtu

def Link.UpdateMetadataOk (link : Link) (env : Env) (aseId : Nat) (metadata : List UInt8) : Prop :=
  ∀ e, aseFindByAseId link.table aseId = some e →
    (e.aseState = .enabling ∨ e.aseState = .streaming) →
    env.memory = true ∧ metadata.length + 8 ≤ link.mtu

structure Link.WriteOk (link : Link) (around : Around) (app : App) (verdict : AseCp → Nat)
    (memory : Bool) (bytes : List UInt8) : Prop where
  parsed : CpOk app memory link.table bytes
  allocated : ∀ n, (around.envs n).memory = true
  room : ∀ fuel notify cp,
    aseCheckCpData app verdict memory link.table bytes fuel = .ok (notify, some cp) →
    ∀ param ∈ cp.params, param.FitsIn link.mtu

def Link.StepOk (link : Link) (event : Event × Around) : Prop :=
  event.2.Sent ∧
    match event.1 with
    | .connected _ _ _ mtu => 23 ≤ mtu
    | .attrWrite app verdict memory _ write _ =>
      link.WriteOk event.2 app verdict memory write.bytes
    | .actionCfgCodec aseId _ codec _ => link.CfgCodecOk (event.2.envs 0) aseId codec
    | .actionUpdateMetadata aseId metadata =>
      link.UpdateMetadataOk (event.2.envs 0) aseId metadata
    | .mtuInfo mtu => link.mtu ≤ mtu
    | _ => True

structure Settled (link : Link) : Prop where
  mtu : 23 ≤ link.mtu
  table : TableOk link.mtu link.told link.table
  kept : link.kept = true

structure Fine (mtu : Nat) (e : AseEntry) (done : Done) : Prop where
  settles : Settles mtu e done.entry done.notified
  keeps : done.ok = false → done.entry.aseState = e.aseState

section

variable {mtu : Nat} {e : AseEntry} {env : Env} (hmtu : 23 ≤ mtu) (hgood : Good e)
  (hroom : Room mtu e)

include hmtu hgood hroom

omit hmtu in
theorem fine_refl : Fine mtu e ⟨ok, e, []⟩ := ⟨settles_refl hgood hroom, fun _ => rfl⟩

theorem fine_disable : Fine mtu e (aseActionDisable env e) := by
  refine ⟨disable_settles hmtu hgood hroom, ?_⟩
  unfold aseActionDisable
  by_cases hs : e.aseState = .enabling ∨ e.aseState = .streaming
  . rw [if_pos hs]
    exact fun h => absurd h (by simp [notifyAndCheck])
  . rw [if_neg hs]
    exact fun _ => rfl

theorem fine_release : Fine mtu e (aseActionRelease env e) := by
  refine ⟨release_settles hmtu hgood hroom, ?_⟩
  unfold aseActionRelease
  by_cases hs : e.aseState ≠ .idle ∧ e.aseState ≠ .releasing
  . rw [if_pos hs]
    exact fun h => absurd h (by simp [notifyAndCheck])
  . rw [if_neg hs]
    exact fun _ => rfl

theorem fine_actionRelease : Fine mtu e (ascsActionRelease env e) := by
  unfold ascsActionRelease
  cases env.cig.isochInfo e.cisConnHandle with
  | none => exact fine_release hmtu hgood hroom
  | some info =>
    simp only
    split_ifs
    . exact fine_refl hgood hroom
    . exact fine_release hmtu hgood hroom

theorem fine_releaseByCig : Fine mtu e (ascsActionReleaseByCig cigId env e) := by
  unfold ascsActionReleaseByCig
  split_ifs
  . exact fine_refl hgood hroom
  . exact fine_refl hgood hroom
  . exact fine_release hmtu hgood hroom

theorem fine_updateMetadata
    (hok : (e.aseState = .enabling ∨ e.aseState = .streaming) →
      env.memory = true ∧ metadata.length + 8 ≤ mtu) :
    Fine mtu e (aseActionUpdateMetadata env e metadata.length metadata) := by
  by_cases hs : e.aseState = .enabling ∨ e.aseState = .streaming
  . obtain ⟨hmem, hfits⟩ := hok hs
    refine ⟨updateMetadata_settles hmtu hmem rfl hfits hgood hroom, ?_⟩
    unfold aseActionUpdateMetadata
    rw [if_neg (by tauto)]
    simp only
    rw [if_neg (by rw [hmem]; exact fun h => absurd h.2 (by decide))]
    exact fun h => absurd h (by simp [notifyAndCheck])
  . have hsame : aseActionUpdateMetadata env e metadata.length metadata = ⟨false, e, []⟩ :=
      if_pos (by tauto)
    rw [hsame]
    exact fine_refl hgood hroom

omit hgood hroom in
theorem fine_checkOnly (hid : e'.aseId = e.aseId) (hgood' : Good e')
    (hroom' : Room mtu e') (hvalue : aseGenCharData e' = aseGenCharData e) :
    Fine mtu e (checkOnly cig e') :=
  ⟨settles_checkOnly hmtu hid hgood' hroom' hvalue, fun h => absurd h (by simp [checkOnly])⟩

theorem fine_recReady (hswitch : ∀ cig e', e'.aseId = e.aseId → Good e' → Room mtu e' →
      aseGenCharData e' = aseGenCharData e →
      Settles mtu e (switch cig e').entry (switch cig e').notified) :
    Fine mtu e (recReady cpOp check switch env e) := by
  have hrec : Good { e with appHandshakeRec := true } :=
    ⟨hgood.codec, hgood.metadata, hgood.stateData⟩
  have hrecRoom : Room mtu { e with appHandshakeRec := true } := ⟨hroom.value, hroom.metadata⟩
  unfold recReady
  by_cases hs : aseCpCheckSmState e.aseState e.direction cpOp false = false
  . rw [if_pos hs]
    exact fine_refl hgood hroom
  . rw [if_neg hs]
    by_cases hh : e.appHandshake = true
    . simp only [if_pos hh]
      split_ifs
      . exact ⟨hswitch _ _ rfl hrec hrecRoom rfl, fun h => absurd h (by simp)⟩
      . exact fine_checkOnly hmtu rfl hrec hrecRoom rfl
    . rw [if_neg hh]
      exact fine_refl hgood hroom

theorem fine_cfgCodec {param : CodecCfgParam} {codec : List UInt8} {left : CodecCfg}
    (hok : (e.aseState = .idle ∨ e.aseState = .codecConfigured ∨ e.aseState = .qosConfigured) →
      codecCfgParse codec 0 codec.length (codec.length + 1) = .ok (.error ()) ∧
          e.aseState = .codecConfigured ∨
        (∃ cfg, codecCfgParse codec 0 codec.length (codec.length + 1) = .ok (.ok cfg)) ∧
          env.memory = true ∧ codec.length + 28 ≤ mtu) :
    Fine mtu e (cfgCodecOr { param with codecSpecCfgLen := codec.length } codec left env e) := by
  by_cases hs : e.aseState = .idle ∨ e.aseState = .codecConfigured ∨ e.aseState = .qosConfigured
  . rcases hok hs with ⟨hparse, hconf⟩ | ⟨⟨cfg, hparse⟩, hmem, hfits⟩
    . have hdone : cfgCodecOr { param with codecSpecCfgLen := codec.length } codec left env e =
          ⟨false, { e with codecCfg := left }, []⟩ := by
        simp only [cfgCodecOr, ascsActionCfgCodec, hparse, Except.map, Except.mapError,
          aseActionCfgCodec, if_pos hs]
        rw [ascsChangeState, if_pos hconf]
      rw [hdone]
      exact ⟨{ settles_refl hgood hroom with
               aseId := rfl
               good := ⟨hgood.codec, hgood.metadata, hgood.stateData⟩
               room := ⟨hroom.value, hroom.metadata⟩
               ids := fun _ h => absurd h not_mem_nil
               value := rfl }, fun _ => rfl⟩
    . have hdone : cfgCodecOr { param with codecSpecCfgLen := codec.length } codec left env e =
          aseActionCfgCodec env e { param with codecSpecCfgLen := codec.length } codec (.ok cfg) := by
        simp only [cfgCodecOr, ascsActionCfgCodec, hparse, Except.map, Except.mapError]
      have hne : codec ≠ [] := by
        rintro rfl
        simp [codecCfgParse] at hparse
      rw [hdone]
      refine ⟨cfgCodec_settles hmtu hmem rfl hne hfits hgood hroom, ?_⟩
      simp only [aseActionCfgCodec, if_pos hs]
      rw [if_neg (by rw [hmem]; exact fun h => absurd h.2 (by decide))]
      exact fun h => absurd h (by simp [notifyAndCheck])
  . have hsame : ∀ parsed, aseActionCfgCodec env e { param with codecSpecCfgLen := codec.length }
        codec parsed = ⟨false, e, []⟩ := fun parsed => if_neg hs
    unfold cfgCodecOr ascsActionCfgCodec
    cases codecCfgParse codec 0 codec.length (codec.length + 1) with
    | error => exact fine_refl hgood hroom
    | ok parsed =>
      simp only [Except.map, hsame]
      exact fine_refl hgood hroom

theorem settles_setupDataPath :
    Settles mtu e (handleSetupDataPath cisConnHandle path success env e).entry
      (handleSetupDataPath cisConnHandle path success env e).notified := by
  have hsame := settles_refl hgood hroom
  unfold handleSetupDataPath
  split_ifs
  . exact switchToStreaming_settles hmtu rfl hgood hroom rfl
  . exact hsame
  . exact { hsame with
            aseId := rfl, good := hgood.addedPath, room := hroom.addedPath
            ids := fun _ h => absurd h not_mem_nil, value := rfl }
  . exact settles_checkOnly hmtu rfl hgood hroom rfl
  . exact hsame
  . exact hsame

theorem settles_removeDataPath :
    Settles mtu e (handleRemoveDataPath cisConnHandle path env e).entry
      (handleRemoveDataPath cisConnHandle path env e).notified := by
  unfold handleRemoveDataPath
  by_cases hcis : e.cisConnHandle = cisConnHandle
  . rw [if_pos hcis]
    by_cases hpath : e.addedPathDirection = path
    . simp only [if_pos hpath]
      split_ifs
      . exact switchToQosCfg_settles hmtu rfl hgood.addedPath hroom.addedPath rfl
      . exact { settles_refl hgood hroom with
                aseId := rfl, good := hgood.addedPath, room := hroom.addedPath
                ids := fun _ h => absurd h not_mem_nil, value := rfl }
    . simp only [if_neg hpath]
      split_ifs
      . exact switchToQosCfg_settles hmtu rfl hgood hroom rfl
      . exact settles_refl hgood hroom
  . rw [if_neg hcis]
    exact settles_refl hgood hroom

theorem settles_disconnectInfo :
    Settles mtu e (handleDisconnectInfo cisConnHandle env e).entry
      (handleDisconnectInfo cisConnHandle env e).notified := by
  have hleft : Good { e with cisConnHandle := 0, addedPathDirection := 0 } :=
    ⟨hgood.codec, hgood.metadata, hgood.stateData⟩
  have hleftRoom : Room mtu { e with cisConnHandle := 0, addedPathDirection := 0 } :=
    ⟨hroom.value, hroom.metadata⟩
  unfold handleDisconnectInfo
  by_cases hcis : e.cisConnHandle = cisConnHandle
  . simp only [if_pos hcis]
    split_ifs
    . exact released_settles hmtu rfl hleft hleftRoom rfl
    . exact settles_changeState hmtu rfl hleft hleftRoom (by decide)
    . exact { settles_refl hgood hroom with
              aseId := rfl, good := hleft, room := hleftRoom
              ids := fun _ h => absurd h not_mem_nil, value := rfl }
  . rw [if_neg hcis]
    exact settles_refl hgood hroom

omit hmtu in
theorem settles_pendingCccd :
    Settles mtu e (handlePendingCccd pending env e).entry
      (handlePendingCccd pending env e).notified := by
  unfold handlePendingCccd
  split_ifs
  . exact { settles_refl hgood hroom with
            ids := fun n hn => by rw [mem_singleton.mp hn]
            fits := fun n hn => by
              rw [mem_singleton.mp hn]
              exact ⟨hgood, hroom⟩
            value := rfl }
  . exact settles_refl hgood hroom

end

section

variable {link : Link} {around : Around}

theorem Settled.become {result : AseTable × List AseEntry} (h : Settled link)
    (hsent : around.Sent)
    (hok : TableOk link.mtu (result.2.foldl (tell link.mtu) link.told) result.1) :
    Settled (link.become around result) := by
  refine ⟨h.mtu, ?_, h.kept⟩
  show TableOk link.mtu (tellAll around.sent link.mtu link.told result.2) result.1
  rw [tellAll_sent hsent]
  exact hok

theorem Settled.act (h : Settled link)
    (hsent : around.Sent)
    (hfine : ∀ e, aseFindByAseId link.table aseId = some e → Good e → Room link.mtu e →
      Fine link.mtu e (action (around.envs 0) e)) :
    Settled (link.act around aseId action) := by
  unfold Link.act
  cases he : aseFindByAseId link.table aseId with
  | none => exact h
  | some e =>
    have hin := find_mem he
    obtain ⟨hgood, hroom, -⟩ := h.table.entry e hin
    have hf := hfine e he hgood hroom
    have hb := @Settled.become link around (setAse link.table (action (around.envs 0) e).entry,
      (action (around.envs 0) e).notified) h hsent (h.table.set hf.settles hin)
    refine ⟨hb.mtu, hb.table, ?_⟩
    show (link.kept && _) = true
    rw [h.kept, Bool.true_and]
    cases hok : (action (around.envs 0) e).ok with
    | true => rfl
    | false => simp [hf.keeps hok]

theorem Settled.each (h : Settled link) (hsent : around.Sent)
    (hs : ∀ env e, Good e → Room link.mtu e →
      Settles link.mtu e (action env e).entry (action env e).notified) :
    Settled (link.become around (eachAse around.envs action link.table)) :=
  h.become hsent (h.table.each fun env e he =>
    hs env e (h.table.entry e he).1 (h.table.entry e he).2.1).1

theorem connectCis_ok (hmtu : 23 ≤ mtu) (h : TableOk mtu told table)
    (hfound : ∀ e, found = some e → e ∈ table) :
    TableOk mtu ((connectCis cig cisConnHandle table found).2.foldl (tell mtu) told)
      (connectCis cig cisConnHandle table found).1 := by
  cases found with
  | none => exact h
  | some e =>
    obtain ⟨hgood, hroom, -⟩ := h.entry e (hfound e rfl)
    have hgood' : Good { e with cisConnHandle := cisConnHandle } :=
      ⟨hgood.codec, hgood.metadata, hgood.stateData⟩
    have hroom' : Room mtu { e with cisConnHandle := cisConnHandle } :=
      ⟨hroom.value, hroom.metadata⟩
    have hs : Settles mtu e
        (ascsCheckCurrentState cig { e with cisConnHandle := cisConnHandle }).1
        (ascsCheckCurrentState cig { e with cisConnHandle := cisConnHandle }).2 :=
      settles_checkOnly hmtu rfl hgood' hroom' rfl
    exact h.set hs (hfound e rfl)

theorem findByCigCis_direction (h : aseFindByCigCis table direction cigId cisId = some e) :
    e ∈ table ∧ e.direction = direction := by
  refine ⟨mem_of_find?_eq_some h, ?_⟩
  have := find?_some h
  simp only [Bool.and_eq_true, decide_eq_true_eq] at this
  exact this.1.1.2

theorem aseId_inj {table : AseTable} (h : (table.map AseEntry.aseId).Nodup) {e n : AseEntry}
    (he : e ∈ table) (hn : n ∈ table) (hid : e.aseId = n.aseId) : e = n :=
  inj_on_of_nodup_map h he hn hid

theorem connectCis_mem {table : AseTable} {cig : Cig} {cisConnHandle cigId cisId : Nat}
    {n : AseEntry} (hnodup : (table.map AseEntry.aseId).Nodup) (hn : n ∈ table)
    (hdir : n.direction = .source) :
    n ∈ (connectCis cig cisConnHandle table (aseFindByCigCis table .sink cigId cisId)).1 := by
  cases hsink : aseFindByCigCis table .sink cigId cisId with
  | none => exact hn
  | some e =>
    obtain ⟨he, hedir⟩ := findByCigCis_direction hsink
    refine mem_setAse_ne hn fun hid => ?_
    rw [checkCurrentState_aseId] at hid
    rw [aseId_inj hnodup hn he hid, hedir] at hdir
    cases hdir

theorem cisEstablished_ok (hmtu : 23 ≤ mtu)
    (h : TableOk mtu told table) :
    TableOk mtu ((handleCisEstablished cigs cisConnHandle cigId cisId table).2.foldl (tell mtu) told)
      (handleCisEstablished cigs cisConnHandle cigId cisId table).1 := by
  unfold handleCisEstablished
  rw [foldl_append]
  refine connectCis_ok hmtu (connectCis_ok hmtu h fun e he => (findByCigCis_direction he).1) ?_
  intro e he
  obtain ⟨hin, hdir⟩ := findByCigCis_direction he
  exact connectCis_mem h.nodup hin hdir

theorem linkInit_ids (snkAseNum srcAseNum : Nat) :
    (aseSmLinkInit snkAseNum srcAseNum).map AseEntry.aseId =
      (List.range (snkAseNum + srcAseNum)).map (· + 1) := by
  rw [range_add]
  simp [aseSmLinkInit, aseInit, Function.comp_def]

theorem linkInit_ok {mtu snkAseNum srcAseNum : Nat} (hmtu : 23 ≤ mtu) :
    TableOk mtu noneTold (aseSmLinkInit snkAseNum srcAseNum) := by
  refine ⟨?_, fun e he => ?_⟩
  . rw [linkInit_ids]
    exact nodup_range.map fun a b h => Nat.add_right_cancel h
  . have hinit : ∃ aseId direction, e = aseInit aseId direction := by
      rcases mem_append.mp he with he | he <;>
      . obtain ⟨i, -, rfl⟩ := mem_map.mp he
        exact ⟨_, _, rfl⟩
    obtain ⟨aseId, direction, rfl⟩ := hinit
    refine ⟨⟨rfl, rfl, rfl⟩, ⟨?_, ?_⟩, fun value hvalue => by cases hvalue⟩
    . show 2 + 3 ≤ mtu
      omega
    . show 0 + 8 ≤ mtu
      omega

theorem Room.mono (hle : mtu ≤ mtu') (h : Room mtu e) : Room mtu' e :=
  ⟨Nat.le_trans h.value hle, Nat.le_trans h.metadata hle⟩

theorem tableOk_nil : TableOk mtu told [] := ⟨nodup_nil, fun _ h => absurd h not_mem_nil⟩

theorem Settled.write {app : App} {verdict : AseCp → Nat} {memory : Bool}
    {sduInterval : CodecCfg → Option Nat} {write : Write} {fuel : Nat} (h : Settled link)
    (hsent : around.Sent) (hok : link.WriteOk around app verdict memory write.bytes) :
    Settled (link.write around app verdict memory sduInterval write fuel) := by
  unfold Link.write
  split
  . next notify cp hcp =>
    obtain ⟨htable, hkept⟩ := @TableOk.remoteCp link.mtu link.told link.table around.envs
      sduInterval cp h.mtu hok.allocated
      (fun param hparam =>
        ⟨cpData_fits write.len_lt hcp param hparam, hok.room fuel notify cp hcp param hparam⟩)
      h.table
    have hb := h.become hsent htable
    refine ⟨hb.mtu, hb.table, ?_⟩
    show (link.kept && _) = true
    rw [h.kept, hkept]
    rfl
  . exact h

theorem step_settled (link : Link) (event : Event × Around) (h : Settled link)
    (hok : link.StepOk event) : Settled (link.step event) := by
  obtain ⟨event, around⟩ := event
  obtain ⟨hsent, hok⟩ := hok
  have hmtu := h.mtu
  cases event with
  | connected memory snkAseNum srcAseNum mtu =>
    show Settled (link.connect memory snkAseNum srcAseNum mtu)
    unfold Link.connect
    split_ifs
    . exact h
    . exact ⟨hok, linkInit_ok hok, h.kept⟩
    . exact ⟨hok, tableOk_nil, h.kept⟩
  | attrWrite app verdict memory sduInterval write fuel => exact h.write hsent hok
  | actionCfgCodec aseId param codec left =>
    exact h.act hsent fun e he hgood hroom => fine_cfgCodec hmtu hgood hroom (hok e he)
  | actionDisable aseId => exact h.act hsent fun e _ hgood hroom => fine_disable hmtu hgood hroom
  | actionRelease aseId =>
    exact h.act hsent fun e _ hgood hroom => fine_actionRelease hmtu hgood hroom
  | actionReleaseByCig cigId =>
    exact h.each hsent fun env e hgood hroom => (fine_releaseByCig hmtu hgood hroom).settles
  | actionUpdateMetadata aseId metadata =>
    show Settled (link.act around aseId fun env e =>
      aseActionUpdateMetadata env e metadata.length metadata)
    exact h.act hsent fun e he hgood hroom => fine_updateMetadata hmtu hgood hroom (hok e he)
  | actionRecStartReady aseId =>
    exact h.act hsent fun e _ hgood hroom => fine_recReady hmtu hgood hroom
      fun cig e' => switchToStreaming_settles hmtu
  | actionRecStopReady aseId =>
    exact h.act hsent fun e _ hgood hroom => fine_recReady hmtu hgood hroom
      fun cig e' => switchToQosCfg_settles hmtu
  | appCtlHandshake aseId appHandshake =>
    show Settled (link.act around aseId fun _ e =>
      ⟨true, { e with appHandshake := appHandshake }, []⟩)
    exact h.act hsent fun e _ hgood hroom =>
      ⟨{ settles_refl hgood hroom with
         aseId := rfl
         good := ⟨hgood.codec, hgood.metadata, hgood.stateData⟩
         room := ⟨hroom.value, hroom.metadata⟩
         ids := fun _ h => absurd h not_mem_nil
         value := rfl }, fun h => absurd h (by simp)⟩
  | cisEstablished cisConnHandle cigId cisId =>
    exact h.become hsent (cisEstablished_ok hmtu h.table)
  | setupDataPath cisConnHandle path success =>
    exact h.each hsent fun env e hgood hroom => settles_setupDataPath hmtu hgood hroom
  | removeDataPath cisConnHandle path =>
    exact h.each hsent fun env e hgood hroom => settles_removeDataPath hmtu hgood hroom
  | disconnectInfo cisConnHandle =>
    exact h.each hsent fun env e hgood hroom => settles_disconnectInfo hmtu hgood hroom
  | mtuInfo mtu =>
    have hle : link.mtu ≤ mtu := hok
    exact ⟨Nat.le_trans hmtu hle, ⟨h.table.nodup, fun e he =>
      ⟨(h.table.entry e he).1, (h.table.entry e he).2.1.mono hle, (h.table.entry e he).2.2⟩⟩,
      h.kept⟩
  | authenInfo pending =>
    exact h.each hsent fun env e hgood hroom => settles_pendingCccd hgood hroom
  | disconnected => exact ⟨hmtu, tableOk_nil, h.kept⟩

theorem Settled.consistent (h : Settled link) : Consistent link :=
  { codec := fun e he => (h.table.entry e he).1.codec
    stateData := fun e he _ => (h.table.entry e he).1.stateData
    metadata := fun e he => (h.table.entry e he).1.metadata
    written := fun e he => (h.table.entry e he).1.charData
    told := fun e he => (h.table.entry e he).2.2
    kept := h.kept }

theorem run_consistent (events : List (Event × Around))
    (hok : Along Link.step Link.StepOk Link.init events) :
    Consistent (exec Link.step Link.init events) :=
  (exec_inv step_settled Link.init events ⟨Nat.le_refl _, tableOk_nil, rfl⟩ hok).consistent

def quietEnv : Env :=
  { memory := true
    cig := { isochInfo := fun _ => none, setup := fun _ => false }
    qosPreferred := fun _ _ => none
    preferQos := fun _ => none }

def quiet : Around := { envs := fun _ => quietEnv, sent := fun _ => true }

def lc3Param : CodecCfgParam :=
  { aseId := 1, targetLatency := 1, targetPhy := 1, codecId := [6, 0, 0, 0, 0], codecSpecCfgLen := 0 }

def configureRun : List (Event × Around) :=
  [(.connected true 1 0 64, quiet), (.actionCfgCodec 1 lc3Param [2, 1, 3] .zero, quiet)]

theorem run_consistent_configure :
    Along Link.step Link.StepOk Link.init configureRun ∧
      Consistent (exec Link.step Link.init configureRun) := by
  have hok : Along Link.step Link.StepOk Link.init configureRun := by
    refine ⟨⟨fun _ => rfl, ?_⟩, ⟨fun _ => rfl, fun e _ _ => .inr ⟨⟨_, rfl⟩, rfl, ?_⟩⟩, trivial⟩
    . show 23 ≤ 64
      decide
    . show 3 + 28 ≤ 64
      decide
  exact ⟨hok, run_consistent configureRun hok⟩

theorem not_run_consistent : ¬∀ events, Consistent (exec Link.step Link.init events) := by
  intro h
  have hrun := h (configureRun ++
    [(.actionRelease 1, quiet), (.actionCfgCodec 1 lc3Param [] .zero, quiet)])
  have htold := hrun.told _ mem_cons_self [1, 0] rfl
  revert htold
  decide

end

end Ascs
