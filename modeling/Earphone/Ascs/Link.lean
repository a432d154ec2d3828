import Earphone.Ascs.CharData
import Earphone.Ascs.CheckSafe

namespace Ascs

open Scan

structure Link where
  table : AseTable
  mtu : Nat
  told : Nat → Option (List Nat)
  kept : Bool

def noneTold : Nat → Option (List Nat) := fun _ => none

def tell (mtu : Nat) (told : Nat → Option (List Nat)) (e : AseEntry) : Nat → Option (List Nat) :=
  match aseGenCharData e with
  | .ok data => fun x => if x = e.aseId then some (data.take (mtu - 3)) else told x
  | .error _ => told

def tellAll (sent : Nat → Bool) (mtu : Nat) :
    (Nat → Option (List Nat)) → List AseEntry → Nat → Option (List Nat)
  | told, [] => told
  | told, e :: rest => tellAll sent mtu (if sent rest.length then tell mtu told e else told) rest

def Direction.opposite : Direction → Direction
  | .sink => .source
  | .source => .sink

def ascsActionRelease (env : Env) (e : AseEntry) : Done :=
  match env.cig.isochInfo e.cisConnHandle with
  | some info =>
    if info.state = .conn ∧ (info.dataPathFlags &&& dataPathFlag e.direction.opposite) ≠ 0 then
      ⟨false, e, []⟩
    else aseActionRelease env e
  | none => aseActionRelease env e

def ascsActionReleaseByCig (cigId : Nat) (env : Env) (e : AseEntry) : Done :=
  if e.aseState.toByte < AseState.qosConfigured.toByte ∨ e.aseState = .releasing then ⟨true, e, []⟩
  else if e.qosStateData.cigId ≠ cigId then ⟨true, e, []⟩
  else aseActionRelease env e

def checkOnly (cig : Cig) (e : AseEntry) : Done :=
  ⟨true, (ascsCheckCurrentState cig e).1, (ascsCheckCurrentState cig e).2⟩

def recReady (cpOp : Op) (check : CheckType) (switch : Cig → AseEntry → Done) (env : Env)
    (e : AseEntry) : Done :=
  if aseCpCheckSmState e.aseState e.direction cpOp false = false then ⟨false, e, []⟩
  else if e.appHandshake = true then
    let rec' := { e with appHandshakeRec := true }
    if aseSmCheckIsochStatus env.cig check rec' = true then
      { switch env.cig rec' with ok := true }
    else checkOnly env.cig rec'
  else ⟨false, e, []⟩

def ascsActionRecStartReady : Env → AseEntry → Done :=
  recReady .recStartReady .enable aseSwitchToStreaming

def ascsActionRecStopReady : Env → AseEntry → Done :=
  recReady .recStopReady .disable aseSwitchToQosCfg

def connectCis (cig : Cig) (cisConnHandle : Nat) (table : AseTable) :
    Option AseEntry → AseTable × List AseEntry
  | none => (table, [])
  | some e =>
    let checked := ascsCheckCurrentState cig { e with cisConnHandle := cisConnHandle }
    (setAse table checked.1, checked.2)

def handleCisEstablished (cigs : Nat → Cig) (cisConnHandle cigId cisId : Nat) (table : AseTable) :
    AseTable × List AseEntry :=
  let sink := connectCis (cigs 0) cisConnHandle table (aseFindByCigCis table .sink cigId cisId)
  let source := connectCis (cigs 1) cisConnHandle sink.1 (aseFindByCigCis table .source cigId cisId)
  (source.1, sink.2 ++ source.2)

def addingFlag (dataPathAddingPath : Nat) : Nat :=
  if dataPathAddingPath = 0x00 then 0x01 else if dataPathAddingPath = 0x01 then 0x02 else 0

def handleSetupDataPath (cisConnHandle dataPathAddingPath : Nat) (success : Bool) (env : Env)
    (e : AseEntry) : Done :=
  if e.cisConnHandle = cisConnHandle then
    if e.addedPathDirection = addingFlag dataPathAddingPath then
      if success = true then
        if e.aseState = .enabling ∧ aseSmCheckIsochStatus env.cig .enable e = true then
          aseSwitchToStreaming env.cig e
        else ⟨true, e, []⟩
      else ⟨true, { e with addedPathDirection := 0 }, []⟩
    else if success = true ∧ e.aseState = .enabling ∧ e.direction = .source ∧
        e.recStartReady = true then
      checkOnly env.cig e
    else ⟨true, e, []⟩
  else ⟨true, e, []⟩

def handleRemoveDataPath (cisConnHandle dataPathRemovingPath : Nat) (env : Env) (e : AseEntry) :
    Done :=
  if e.cisConnHandle = cisConnHandle then
    let left :=
      if e.addedPathDirection = dataPathRemovingPath then { e with addedPathDirection := 0 } else e
    if left.aseState = .disabling ∧ aseSmCheckIsochStatus env.cig .disable left = true then
      aseSwitchToQosCfg env.cig left
    else ⟨true, left, []⟩
  else ⟨true, e, []⟩

def handleDisconnectInfo (cisConnHandle : Nat) (env : Env) (e : AseEntry) : Done :=
  if e.cisConnHandle = cisConnHandle then
    let left := { e with cisConnHandle := 0, addedPathDirection := 0 }
    if left.aseState = .releasing then aseActionReleased env.cig left
    else if left.aseState = .streaming ∨ left.aseState = .disabling then
      notifyAndCheck env.cig (ascsChangeState left .qosConfigured)
    else ⟨true, left, []⟩
  else ⟨true, e, []⟩

def handlePendingCccd (pending : Nat → Bool) (_ : Env) (e : AseEntry) : Done :=
  ⟨true, e, if pending e.aseId then [e] else []⟩

def eachAse (envs : Nat → Env) (action : Env → AseEntry → Done) :
    AseTable → AseTable × List AseEntry
  | [] => ([], [])
  | e :: rest =>
    let done := action (envs rest.length) e
    let others := eachAse envs action rest
    (done.entry :: others.1, done.notified ++ others.2)

def ascsActionCfgCodec (param : CodecCfgParam) (codec : List UInt8) (left : CodecCfg) (env : Env)
    (e : AseEntry) : Except Stuck Done :=
  (codecCfgParse codec 0 param.codecSpecCfgLen (param.codecSpecCfgLen + 1)).map fun parsed =>
    aseActionCfgCodec env e param codec (parsed.mapError fun _ => left)

def cpKept (envs : Nat → Env) (op : Op) : AseTable → List CpParam → Bool
  | _, [] => true
  | table, param :: params =>
    match aseFindByAseId table param.ase with
    | none => true
    | some e =>
      let done := cpAction (envs params.length) op e param
      (done.ok || done.entry.aseState = e.aseState) &&
        cpKept envs op (setAse table done.entry) params

def remoteCpKept (envs : Nat → Env) (sduInterval : CodecCfg → Option Nat) (table : AseTable)
    (cp : AseCp) : Bool :=
  if cp.op = .configCodec then
    cpKept envs cp.op
      (setMinLatency (minTransportLatency sduInterval table cp.params) table cp.params) cp.params
  else cpKept envs cp.op table cp.params

inductive Event where
  | connected (memory : Bool) (snkAseNum srcAseNum mtu : Nat)
  | attrWrite (app : App) (verdict : AseCp → Nat) (memory : Bool)
      (sduInterval : CodecCfg → Option Nat) (write : Write) (fuel : Nat)
  | actionCfgCodec (aseId : Nat) (param : CodecCfgParam) (codec : List UInt8) (left : CodecCfg)
  | actionDisable (aseId : Nat)
  | actionRelease (aseId : Nat)
  | actionReleaseByCig (cigId : Nat)
  | actionUpdateMetadata (aseId : Nat) (metadata : List UInt8)
  | actionRecStartReady (aseId : Nat)
  | actionRecStopReady (aseId : Nat)
  | appCtlHandshake (aseId : Nat) (appHandshake : Bool)
  | cisEstablished (cisConnHandle cigId cisId : Nat)
  | setupDataPath (cisConnHandle dataPathAddingPath : Nat) (success : Bool)
  | removeDataPath (cisConnHandle dataPathRemovingPath : Nat)
  | disconnectInfo (cisConnHandle : Nat)
  | mtuInfo (mtu : Nat)
  | authenInfo (pending : Nat → Bool)
  | disconnected

structure Around where
  envs : Nat → Env
  sent : Nat → Bool

def Link.become (link : Link) (around : Around) (result : AseTable × List AseEntry) : Link :=
  { link with
    table := result.1
    told := tellAll around.sent link.mtu link.told result.2 }

def Link.act (link : Link) (around : Around) (aseId : Nat) (action : Env → AseEntry → Done) :
    Link :=
  match aseFindByAseId link.table aseId with
  | none => link
  | some e =>
    let done := action (around.envs 0) e
    { link.become around (setAse link.table done.entry, done.notified) with
      kept := link.kept && (done.ok || done.entry.aseState = e.aseState) }

def Link.write (link : Link) (around : Around) (app : App) (verdict : AseCp → Nat) (memory : Bool)
    (sduInterval : CodecCfg → Option Nat) (write : Write) (fuel : Nat) : Link :=
  match aseCheckCpData app verdict memory link.table write.bytes fuel with
  | .ok (_, some cp) =>
    { link.become around (aseHandleRemoteCp around.envs sduInterval link.table cp) with
      kept := link.kept && remoteCpKept around.envs sduInterval link.table cp }
  | _ => link

def Link.connect (link : Link) (memory : Bool) (snkAseNum srcAseNum mtu : Nat) : Link :=
  if link.table ≠ [] then link
  else
    { link with
      table := if memory then aseSmLinkInit snkAseNum srcAseNum else []
      mtu := mtu
      told := noneTold }

def cfgCodecOr (param : CodecCfgParam) (codec : List UInt8) (left : CodecCfg) (env : Env)
    (e : AseEntry) : Done :=
  match ascsActionCfgCodec param codec left env e with
  | .ok done => done
  | .error _ => ⟨true, e, []⟩

def Link.step (link : Link) (event : Event × Around) : Link :=
  match event.1 with
  | .connected memory snkAseNum srcAseNum mtu => link.connect memory snkAseNum srcAseNum mtu
  | .attrWrite app verdict memory sduInterval write fuel =>
    link.write event.2 app verdict memory sduInterval write fuel
  | .actionCfgCodec aseId param codec left =>
    link.act event.2 aseId
      (cfgCodecOr { param with codecSpecCfgLen := codec.length } codec left)
  | .actionDisable aseId => link.act event.2 aseId aseActionDisable
  | .actionRelease aseId => link.act event.2 aseId ascsActionRelease
  | .actionReleaseByCig cigId =>
    link.become event.2 (eachAse event.2.envs (ascsActionReleaseByCig cigId) link.table)
  | .actionUpdateMetadata aseId metadata =>
    link.act event.2 aseId fun env e => aseActionUpdateMetadata env e metadata.length metadata
  | .actionRecStartReady aseId => link.act event.2 aseId ascsActionRecStartReady
  | .actionRecStopReady aseId => link.act event.2 aseId ascsActionRecStopReady
  | .appCtlHandshake aseId appHandshake =>
    link.act event.2 aseId fun _ e => ⟨true, { e with appHandshake := appHandshake }, []⟩
  | .cisEstablished cisConnHandle cigId cisId =>
    link.become event.2
      (handleCisEstablished (fun n => (event.2.envs n).cig) cisConnHandle cigId cisId link.table)
  | .setupDataPath cisConnHandle dataPathAddingPath success =>
    link.become event.2
      (eachAse event.2.envs (handleSetupDataPath cisConnHandle dataPathAddingPath success)
        link.table)
  | .removeDataPath cisConnHandle dataPathRemovingPath =>
    link.become event.2
      (eachAse event.2.envs (handleRemoveDataPath cisConnHandle dataPathRemovingPath) link.table)
  | .disconnectInfo cisConnHandle =>
    link.become event.2 (eachAse event.2.envs (handleDisconnectInfo cisConnHandle) link.table)
  | .mtuInfo mtu => { link with mtu := mtu }
  | .authenInfo pending =>
    link.become event.2 (eachAse event.2.envs (handlePendingCccd pending) link.table)
  | .disconnected => { link with table := [], told := noneTold }

def Link.init : Link := { table := [], mtu := 23, told := noneTold, kept := true }

end Ascs
