import Earphone.Ascs.CheckCp

namespace Ascs

open Scan Ltv

inductive IsochState where
  | idle
  | connecting
  | conn
  | disconnecting
  | connectingCancel
  deriving DecidableEq

structure IsochInfo where
  state : IsochState
  dataPathFlags : Nat
  dataPathAdding : Bool
  dataPathRemoving : Bool

structure Cig where
  isochInfo : Nat → Option IsochInfo
  setup : Nat → Bool

structure QosPreferred where
  retransmissionNumber : Nat
  maxTransportLatency : Nat
  presentationDelay : Nat

structure PreferQos where
  supportedFraming : Nat
  preferredPhy : Nat
  preferredRetransNumber : Nat
  maxTransportLatency : Nat
  presentationDelayMin : Nat
  presentationDelayMax : Nat
  preferredPresentationDelayMin : Nat
  preferredPresentationDelayMax : Nat

structure Env where
  memory : Bool
  cig : Cig
  qosPreferred : CodecCfg → Nat → Option QosPreferred
  preferQos : AseEntry → Option PreferQos

inductive CheckType where
  | disable
  | enable
  | release

structure Done where
  ok : Bool
  entry : AseEntry
  notified : List AseEntry

def dataPathFlag : Direction → Nat
  | .sink => 0x02
  | .source => 0x01

def ascsChangeState (e : AseEntry) (aseState : AseState) : AseEntry :=
  if e.aseState = aseState then e
  else
    match aseState with
    | .idle =>
      { e with
        codecSpecCfg := none
        codecSpecCfgLen := 0
        metadata := none
        metadataLen := 0
        codecStateData := .zero
        qosStateData := .zero
        codecCfg := .zero
        aseState := .idle }
    | .codecConfigured =>
      { e with
        metadata := none
        metadataLen := 0
        qosStateData := .zero
        aseState := .codecConfigured }
    | .qosConfigured =>
      { e with
        recStartReady := false
        recStopReady := false
        appHandshakeRec := false
        metadata := none
        metadataLen := if e.metadata.isSome then 0 else e.metadataLen
        aseState := .qosConfigured }
    | .streaming =>
      { e with
        recStartReady := false
        recStopReady := false
        appHandshakeRec := false
        aseState := .streaming }
    | .releasing =>
      { e with
        recStartReady := false
        recStopReady := false
        appHandshakeRec := false
        aseState := .releasing }
    | .enabling => { e with aseState := .enabling }
    | .disabling => { e with aseState := .disabling }

def aseSmCheckIsochStatus (cig : Cig) (type : CheckType) (e : AseEntry) : Bool :=
  match type, cig.isochInfo e.cisConnHandle with
  | .enable, some info =>
    info.state = .conn && (info.dataPathFlags &&& dataPathFlag e.direction) ≠ 0
  | .enable, none => false
  | .disable, some info =>
    info.state = .idle ||
      (info.state = .conn && (info.dataPathFlags &&& dataPathFlag e.direction) = 0)
  | .disable, none => true
  | .release, some info => info.state = .idle
  | .release, none => true

def ascsSetupDataPath (cig : Cig) (e : AseEntry) : AseEntry :=
  { e with
    addedPathDirection := if cig.setup e.cisConnHandle then dataPathFlag e.direction else 0 }

def AseEntry.handshakeDone (e : AseEntry) : Bool := !e.appHandshake || e.appHandshakeRec

def aseActionReleased (cig : Cig) (e : AseEntry) : Done :=
  if aseSmCheckIsochStatus cig .release e = false then ⟨false, e, []⟩
  else if e.aseState = .releasing then
    ⟨true, ascsChangeState e .idle, [ascsChangeState e .idle]⟩
  else ⟨false, e, []⟩

def ascsCheckCurrentState (cig : Cig) (e : AseEntry) : AseEntry × List AseEntry :=
  match e.aseState, cig.isochInfo e.cisConnHandle with
  | .enabling, some info =>
    if info.state = .conn ∧ info.dataPathAdding = false ∧
        (e.direction = .source ∧ (info.dataPathFlags &&& dataPathFlag e.direction) = 0 ∧
            e.recStartReady = true ∨
          e.direction = .sink ∧ e.handshakeDone = true) then
      (ascsSetupDataPath cig e, [])
    else (e, [])
  | .streaming, some info =>
    if info.state = .conn ∧ (info.dataPathFlags &&& dataPathFlag e.direction) = 0 ∧
        info.dataPathAdding = false then
      (ascsSetupDataPath cig e, [])
    else (e, [])
  | .releasing, some info =>
    if info.state = .idle then
      ((aseActionReleased cig e).entry, (aseActionReleased cig e).notified)
    else (e, [])
  | .releasing, none => ((aseActionReleased cig e).entry, (aseActionReleased cig e).notified)
  | _, _ => (e, [])

def notifyAndCheck (cig : Cig) (e : AseEntry) : Done :=
  let checked := ascsCheckCurrentState cig e
  ⟨true, checked.1, e :: checked.2⟩

def checkNotified (cig : Cig) (old e : AseEntry) : Done :=
  let checked := ascsCheckCurrentState cig e
  ⟨true, checked.1, if old.aseState ≠ e.aseState then e :: checked.2 else checked.2⟩

def setPreferred (e : AseEntry) (param : CodecCfgParam) (qos : QosPreferred) : AseEntry :=
  let latency :=
    if e.minTransportLatency ≠ 0 ∧ qos.maxTransportLatency < e.minTransportLatency then
      e.minTransportLatency
    else qos.maxTransportLatency
  { e with
    codecStateData :=
      { e.codecStateData with
        supportedFraming := 0
        preferredRetransNumber := qos.retransmissionNumber
        preferredPhy := 2 ^ (param.targetPhy - 1) ||| 0x02
        maxTransportLatency := latency
        presentationDelayMin := 0
        presentationDelayMax := (qos.presentationDelay + 10000) % 2 ^ 24
        preferredPresentationDelayMin := 0
        preferredPresentationDelayMax := 0 } }

def ascsCfgAsePreferQos (e : AseEntry) (qos : PreferQos) : AseEntry :=
  if e.aseState = .codecConfigured then
    { e with
      codecStateData :=
        { e.codecStateData with
          supportedFraming := qos.supportedFraming
          preferredRetransNumber := qos.preferredRetransNumber
          preferredPhy := qos.preferredPhy
          maxTransportLatency := qos.maxTransportLatency
          presentationDelayMin := qos.presentationDelayMin
          presentationDelayMax := qos.presentationDelayMax
          preferredPresentationDelayMin := qos.preferredPresentationDelayMin
          preferredPresentationDelayMax := qos.preferredPresentationDelayMax } }
  else e

def tableQos (env : Env) (e : AseEntry) (param : CodecCfgParam) : AseEntry :=
  if param.codecId.head? = some lc3CodecId then
    match env.qosPreferred e.codecCfg param.targetLatency with
    | some qos => setPreferred e param qos
    | none => e
  else e

def preferQos (env : Env) (e : AseEntry) (param : CodecCfgParam) : AseEntry :=
  match env.preferQos (tableQos env e param) with
  | some qos => ascsCfgAsePreferQos (tableQos env e param) qos
  | none => tableQos env e param

def setCodec (e : AseEntry) (param : CodecCfgParam) (cfg : CodecCfg) (codec : Option (List UInt8)) :
    AseEntry :=
  { e with
    codecCfg := cfg
    codecStateData :=
      { e.codecStateData with
        codecSpecCfgLen := param.codecSpecCfgLen
        codecId := param.codecId }
    codecSpecCfg := codec
    codecSpecCfgLen := param.codecSpecCfgLen }

def aseActionCfgCodec (env : Env) (e : AseEntry) (param : CodecCfgParam) (codec : List UInt8)
    (parsed : Except CodecCfg CodecCfg) : Done :=
  if e.aseState = .idle ∨ e.aseState = .codecConfigured ∨ e.aseState = .qosConfigured then
    match parsed with
    | .error left => ⟨false, { ascsChangeState e .codecConfigured with codecCfg := left }, []⟩
    | .ok cfg =>
      if param.codecSpecCfgLen ≠ 0 ∧ env.memory = false then
        ⟨false, setCodec (ascsChangeState e .codecConfigured) param cfg none, []⟩
      else
        notifyAndCheck env.cig (preferQos env
          (setCodec (ascsChangeState e .codecConfigured) param cfg
            (if param.codecSpecCfgLen ≠ 0 then some codec else none)) param)
  else ⟨false, e, []⟩

def aseActionCfgQos (env : Env) (e : AseEntry) (qos : QosStateData) : Done :=
  if e.aseState = .codecConfigured ∨ e.aseState = .qosConfigured then
    notifyAndCheck env.cig { ascsChangeState e .qosConfigured with qosStateData := qos }
  else ⟨false, e, []⟩

def setMetadata (env : Env) (e : AseEntry) (metadataLen : Nat) (metadata : List UInt8) : AseEntry :=
  { e with
    metadataLen := metadataLen
    metadata := if metadataLen ≠ 0 ∧ env.memory = true then some metadata else none }

def aseActionEnable (env : Env) (e : AseEntry) (metadataLen : Nat) (metadata : List UInt8) : Done :=
  if e.aseState = .qosConfigured then
    let enabled := setMetadata env (ascsChangeState e .enabling) metadataLen metadata
    if metadataLen ≠ 0 ∧ env.memory = false then ⟨false, enabled, []⟩
    else if e.direction = .sink ∧ aseSmCheckIsochStatus env.cig .enable enabled = true ∧
        e.handshakeDone = true then
      notifyAndCheck env.cig (ascsChangeState enabled .streaming)
    else notifyAndCheck env.cig enabled
  else ⟨false, e, []⟩

def aseActionRecStartReady (env : Env) (e : AseEntry) : Done :=
  if e.aseState = .enabling ∧ e.direction = .source then
    let ready := { e with recStartReady := true }
    if aseSmCheckIsochStatus env.cig .enable ready = true then
      checkNotified env.cig e (ascsChangeState ready .streaming)
    else checkNotified env.cig e ready
  else ⟨false, e, []⟩

def aseActionRecStopReady (env : Env) (e : AseEntry) : Done :=
  if e.aseState = .disabling ∧ e.direction = .source then
    let ready := { e with recStopReady := true }
    if aseSmCheckIsochStatus env.cig .disable ready = true then
      checkNotified env.cig e (ascsChangeState ready .qosConfigured)
    else checkNotified env.cig e ready
  else ⟨false, e, []⟩

def aseSwitchToStreaming (cig : Cig) (e : AseEntry) : Done :=
  if e.aseState = .enabling then notifyAndCheck cig (ascsChangeState e .streaming)
  else ⟨false, e, []⟩

def aseSwitchToQosCfg (cig : Cig) (e : AseEntry) : Done :=
  if e.aseState = .disabling then notifyAndCheck cig (ascsChangeState e .qosConfigured)
  else ⟨false, e, []⟩

def aseActionDisable (env : Env) (e : AseEntry) : Done :=
  if e.aseState = .enabling ∨ e.aseState = .streaming then
    notifyAndCheck env.cig
      (ascsChangeState e (if e.direction = .sink then .qosConfigured else .disabling))
  else ⟨false, e, []⟩

def aseActionUpdateMetadata (env : Env) (e : AseEntry) (metadataLen : Nat)
    (metadata : List UInt8) : Done :=
  if e.aseState ≠ .enabling ∧ e.aseState ≠ .streaming then ⟨false, e, []⟩
  else
    let updated := setMetadata env e metadataLen metadata
    if metadataLen ≠ 0 ∧ env.memory = false then ⟨false, updated, []⟩
    else notifyAndCheck env.cig updated

def aseActionRelease (env : Env) (e : AseEntry) : Done :=
  if e.aseState ≠ .idle ∧ e.aseState ≠ .releasing then
    notifyAndCheck env.cig (ascsChangeState e .releasing)
  else ⟨false, e, []⟩

def setAse : AseTable → AseEntry → AseTable
  | [], _ => []
  | old :: rest, e => if old.aseId = e.aseId then e :: rest else old :: setAse rest e

def cpAction (env : Env) (op : Op) (e : AseEntry) : CpParam → Done
  | .configCodec data cfg codec => aseActionCfgCodec env e data codec (.ok cfg)
  | .configQos data => aseActionCfgQos env e data.qos
  | .metadata _ metadataLen metadata =>
    if op = .enable then aseActionEnable env e metadataLen metadata
    else aseActionUpdateMetadata env e metadataLen metadata
  | .aseId _ =>
    match op with
    | .recStartReady => aseActionRecStartReady env e
    | .recStopReady => aseActionRecStopReady env e
    | .disable => aseActionDisable env e
    | _ => aseActionRelease env e

def cpActions (envs : Nat → Env) (op : Op) : AseTable → List CpParam → AseTable × List AseEntry
  | table, [] => (table, [])
  | table, param :: params =>
    match aseFindByAseId table param.ase with
    | none => (table, [])
    | some e =>
      let done := cpAction (envs params.length) op e param
      let rest := cpActions envs op (setAse table done.entry) params
      (rest.1, done.notified ++ rest.2)

def sduIntervalMax (sduInterval : CodecCfg → Option Nat) (table : AseTable) (direction : Direction)
    (params : List CpParam) : Nat :=
  params.foldl (fun longest param =>
    match param, aseFindByAseId table param.ase with
    | .configCodec _ cfg _, some e =>
      if e.direction = direction then max longest ((sduInterval cfg).getD 0) else longest
    | _, _ => longest) 0

def minTransportLatency (sduInterval : CodecCfg → Option Nat) (table : AseTable)
    (params : List CpParam) : Nat :=
  let sduIntervalMS := sduIntervalMax sduInterval table .sink params
  let sduIntervalSM := sduIntervalMax sduInterval table .source params
  if sduIntervalMS ≠ 0 ∧ sduIntervalSM ≠ 0 then
    ((Nat.lcm sduIntervalMS sduIntervalSM + 999) / 1000) % 65536
  else 0

def setMinLatency (latency : Nat) (table : AseTable) (params : List CpParam) : AseTable :=
  params.foldl (fun table param =>
    match aseFindByAseId table param.ase with
    | some e => setAse table { e with minTransportLatency := latency }
    | none => table) table

def aseHandleRemoteCp (envs : Nat → Env) (sduInterval : CodecCfg → Option Nat) (table : AseTable)
    (cp : AseCp) : AseTable × List AseEntry :=
  if cp.op = .configCodec then
    cpActions envs cp.op
      (setMinLatency (minTransportLatency sduInterval table cp.params) table cp.params) cp.params
  else cpActions envs cp.op table cp.params

def ascsAttrWriteCb (app : App) (verdict : AseCp → Nat) (memory : Bool) (envs : Nat → Env)
    (sduInterval : CodecCfg → Option Nat) (table : AseTable) (bytes : List UInt8) (fuel : Nat) :
    Except Stuck (Option CpNotify × AseTable × List AseEntry) := do
  let checked ← aseCheckCpData app verdict memory table bytes fuel
  match checked.2 with
  | some cp => return (checked.1, aseHandleRemoteCp envs sduInterval table cp)
  | none => return (checked.1, table, [])

end Ascs
