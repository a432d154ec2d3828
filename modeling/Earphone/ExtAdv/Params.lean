import Earphone.ExtAdv.Run

namespace ExtAdvParams

open ExtAdv

structure AdvParam where
  advEventProp : UInt16
  advIntervalMin : Nat
  advIntervalMax : Nat
  primaryAdvChannelMap : UInt8
  ownAddressType : UInt8
  peerAddressType : UInt8
  peerAddress : Option (Vector UInt8 6)
  filterPolicy : UInt8
  advTxPower : Int
  primaryAdvPhy : UInt8
  secondaryAdvMaxSkip : UInt8
  secondaryAdvPhy : UInt8
  advSid : UInt8

abbrev Data := Nat × Nat

structure Stored where
  param : AdvParam
  advData : Data
  scanResponseData : Data
  randomAddr : Vector UInt8 6

structure Given where
  param : Option (AdvParam × Bool)
  advData : Option Data
  scanResponseData : Option Data
  randomAddr : Option (Vector UInt8 6)

structure Managed where
  set : AdvSet
  queue : List (Action × Nat)
  stored : Stored
  given : Given
  items : Nat
  flight : Option Nat
  done : Bool
  started : Bool

def findPendingAdvAction (others : Bool) (m : Managed) : Bool :=
  others || m.set.pendingAction != .idle

def sendMsg (action : Action) (param : Nat) (sent : Bool) (m : Managed) : Managed × Bool :=
  if sent then
    ({ m with
        queue := m.queue ++ [(action, param)]
        set := if action = .update then m.set else m.set.incNum }, true)
  else
    (m, false)

def settingFlags (s : AdvSet) (updateFlags : Nat) : Nat :=
  if s.advParamSet then updateFlags else updateFlags ||| s.initFlags ||| extAdvSetAdvParas

def actionUpdate (updateFlags : Nat) (accepted : Bool) (m : Managed) : Managed :=
  { m with
    set := m.set.actionUpdate updateFlags accepted
    flight := if accepted then some (settingFlags m.set updateFlags) else m.flight }

def actionStart (accepted : Bool) (m : Managed) : Managed :=
  { m with
    set := m.set.actionStart accepted
    started := m.started || accepted }

def startSetAdvParam (updateFlags : Nat) (others : Bool) (a : Answers) (m : Managed) :
    Managed × Bool :=
  if a.ready then
    if findPendingAdvAction others m then
      sendMsg .update updateFlags a.sendUpdate m
    else
      (actionUpdate updateFlags a.update m, a.update)
  else
    (m, false)

def requestStart (duration : Nat) (others : Bool) (a : Answers) (m : Managed) : Managed × Bool :=
  if findPendingAdvAction others m then
    sendMsg .start duration a.sendStart m
  else
    (actionStart a.start m, a.start)

def tellStarted (duration : Nat) (r : Managed × Bool) : Managed :=
  if r.2 then { r.1 with set := r.1.set.tellEnabled duration } else r.1

def enable (duration : Nat) (others : Bool) (a : Answers) (m : Managed) : Managed :=
  if m.set.enabled then
    m
  else
    let m := if m.set.advParamSet then m else (startSetAdvParam m.set.initFlags others a m).1
    tellStarted duration (requestStart duration others a m)

def requestStop (appCause : Nat) (others : Bool) (a : Answers) (m : Managed) : Managed × Bool :=
  if findPendingAdvAction others m then
    sendMsg .stop appCause a.sendStop m
  else
    ({ m with set := m.set.actionStop appCause a.stop }, a.stop)

def disable (appCause : Nat) (others : Bool) (a : Answers) (m : Managed) : Managed :=
  if m.set.enabled then
    let r := requestStop appCause others a m
    if r.2 ∧ appCause ≠ appStopForUpdate then { r.1 with set := r.1.set.tell false } else r.1
  else
    m

def setOrRestart (updateFlags : Nat) (others : Bool) (a : Answers) (m : Managed) : Managed × Bool :=
  if m.set.enabled then
    sendMsg .start m.set.duration a.sendStart
      (startSetAdvParam updateFlags others a (disable appStopForUpdate others a m)).1
  else
    startSetAdvParam updateFlags others a m

def AdvParam.store (p old : AdvParam) : AdvParam :=
  { p with
    advIntervalMin := p.advIntervalMin % 2 ^ 16
    advIntervalMax := p.advIntervalMax % 2 ^ 16
    peerAddress := p.peerAddress.or old.peerAddress }

def giveParam (p : AdvParam) (scanReq : Bool) (m : Managed) : Managed :=
  { m with given := { m.given with param := some (p, scanReq) } }

def setAdvParam (p : AdvParam) (scanReq : Bool) (others : Bool) (a : Answers) (m : Managed) :
    Managed :=
  let m := { m with stored := { m.stored with param := p.store m.stored.param } }
  (setOrRestart extAdvSetAdvParas others a (giveParam p scanReq m)).1

inductive Change where
  | advInterval (advInterval : UInt16)
  | peerAddr (peerAddrType : UInt8) (peerAddr : Option (Vector UInt8 6))
  | advTxPower (advTxPower : Int)
  | advEventProp (advEventProp : UInt16)
  | advPhy (primaryAdvPhy secondaryAdvPhy : UInt8)
  | channelMap (primaryAdvChannelMap : UInt8)
  | filterPolicy (filterPolicy : UInt8)
  | ownAddressType (ownAddrType : UInt8)

def gapPhysPrimAdv1m : UInt8 := 1

def gapPhysPrimAdvCoded : UInt8 := 3

def Change.param (s : AdvParam) : Change → Option AdvParam
  | .advInterval v =>
    if s.advIntervalMin ≤ v.toNat ∧ v.toNat ≤ s.advIntervalMax then none
    else some { s with advIntervalMin := v.toNat, advIntervalMax := v.toNat }
  | .peerAddr _ none => none
  | .peerAddr type (some addr) =>
    if s.peerAddressType = type ∧ s.peerAddress = some addr then none
    else some { s with peerAddressType := type, peerAddress := some addr }
  | .advTxPower v =>
    if s.advTxPower = v then none
    else if v < -127 ∨ 20 < v ∧ v ≠ 127 then none
    else some { s with advTxPower := v }
  | .advEventProp v => if s.advEventProp = v then none else some { s with advEventProp := v }
  | .advPhy primary secondary =>
    if s.primaryAdvPhy = primary ∧ s.secondaryAdvPhy = secondary then none
    else if primary ≠ gapPhysPrimAdv1m ∧ primary ≠ gapPhysPrimAdvCoded then none
    else some { s with primaryAdvPhy := primary, secondaryAdvPhy := secondary }
  | .channelMap v =>
    if s.primaryAdvChannelMap = v then none else some { s with primaryAdvChannelMap := v }
  | .filterPolicy v => if s.filterPolicy = v then none else some { s with filterPolicy := v }
  | .ownAddressType v => if s.ownAddressType = v then none else some { s with ownAddressType := v }

def change (c : Change) (others : Bool) (a : Answers) (m : Managed) : Managed :=
  match c.param m.stored.param with
  | none => m
  | some p => setAdvParam p false others a m

def gapLocalAddrLePublic : UInt8 := 0

def gapLocalAddrLeRandom : UInt8 := 1

def gapLocalAddrLeRapOrPublic : UInt8 := 2

def gapLocalAddrLeRapOrRand : UInt8 := 3

def giveRandom (addr : Vector UInt8 6) (m : Managed) : Managed :=
  { m with
    stored := { m.stored with randomAddr := addr }
    given := { m.given with randomAddr := some addr } }

def giveAdvData (d : Data) (m : Managed) : Managed :=
  { m with
    stored := { m.stored with advData := d }
    given := { m.given with advData := some d } }

def giveScanResponseData (d : Data) (m : Managed) : Managed :=
  { m with
    stored := { m.stored with scanResponseData := d }
    given := { m.given with scanResponseData := some d } }

def setRandom (addr : Option (Vector UInt8 6)) (others : Bool) (a : Answers) (m : Managed) :
    Managed :=
  match addr with
  | none => m
  | some addr =>
    if m.stored.param.ownAddressType = gapLocalAddrLePublic ∨
        m.stored.param.ownAddressType = gapLocalAddrLeRapOrPublic then
      m
    else
      (setOrRestart extAdvSetRandomAddr others a (giveRandom addr m)).1

def setAdvData (d : Option Data) (others : Bool) (a : Answers) (m : Managed) : Managed :=
  match d with
  | none => m
  | some d => (startSetAdvParam extAdvSetAdvData others a (giveAdvData d m)).1

def setScanResponseData (d : Option Data) (others : Bool) (a : Answers) (m : Managed) : Managed :=
  match d with
  | none => m
  | some d => (startSetAdvParam extAdvSetScanRspData others a (giveScanResponseData d m)).1

structure Multi where
  randomAddress : Option (Vector UInt8 6)
  advInterval : UInt16
  advData : Option Data
  scanData : Option Data

def giveIf {α : Type} (give : α → Managed → Managed) (flag : Nat) (v : Option α)
    (r : Managed × Nat) : Managed × Nat :=
  match v with
  | none => r
  | some v => (give v r.1, r.2 ||| flag)

def usesRandom (p : AdvParam) : Prop :=
  p.ownAddressType = gapLocalAddrLeRandom ∨ p.ownAddressType = gapLocalAddrLeRapOrRand
  deriving Decidable

def multiRandom (v : Multi) (r : Managed × Nat) : Managed × Nat :=
  if usesRandom r.1.stored.param then
    giveIf giveRandom extAdvSetRandomAddr v.randomAddress r
  else r

def multiInterval (v : Multi) (r : Managed × Nat) : Managed × Nat :=
  let p := r.1.stored.param
  if v.advInterval.toNat ≤ p.advIntervalMin ∨ p.advIntervalMax ≤ v.advInterval.toNat then
    (giveParam
      { p with advIntervalMin := v.advInterval.toNat, advIntervalMax := v.advInterval.toNat }
      false r.1, r.2 ||| extAdvSetAdvParas)
  else r

def multiGive (v : Multi) (m : Managed) : Managed × Nat :=
  giveIf giveScanResponseData extAdvSetScanRspData v.scanData
    (giveIf giveAdvData extAdvSetAdvData v.advData
      (multiInterval v (multiRandom v (m, m.set.initFlags))))

def multiStart (setFlag : Nat) (others : Bool) (a : Answers) (m : Managed) : Managed × Bool :=
  if setFlag &&& (extAdvSetRandomAddr ||| extAdvSetAdvParas) ≠ 0 then
    setOrRestart setFlag others a m
  else
    startSetAdvParam setFlag others a m

def setMultiParam (v : Multi) (others : Bool) (a : Answers) (m : Managed) : Managed :=
  let (m, setFlag) := multiGive v m
  if setFlag = 0 then
    m
  else
    let r := multiStart setFlag others a m
    if r.2 ∧ setFlag &&& extAdvSetAdvParas ≠ 0 then
      { r.1 with set := { r.1.set with advParamSet := true } }
    else
      r.1

def settingRsp (success : Bool) (m : Managed) : Managed :=
  { m with
    set := m.set.complete .update
    done := m.done || success && m.flight.any fun flags => flags ||| m.items == flags
    flight := none }

def nextMessage (accepted : Bool) (m : Managed) : Managed :=
  match m.queue with
  | [] => m
  | (.update, flags) :: queue => actionUpdate flags accepted { m with queue }
  | (action, param) :: queue =>
    { m with
      queue
      set := (m.set.perform action param accepted).1
      started := m.started || action == .start && m.set.extAdvState == .idle && accepted }

def advState (newState : ExtAdvState) (cause : Nat) (m : Managed) : Managed :=
  let set := m.set.report newState cause
  { m with set :=
      if m.set.extAdvState = .start then set.complete .start
      else if m.set.extAdvState = .stop then set.complete .stop
      else set }

inductive Op where
  | enable (duration : Nat) (others : Bool) (a : Answers)
  | disable (appCause : Nat) (others : Bool) (a : Answers)
  | setAdvParam (p : AdvParam) (scanReq : Bool) (others : Bool) (a : Answers)
  | change (c : Change) (others : Bool) (a : Answers)
  | setRandom (addr : Option (Vector UInt8 6)) (others : Bool) (a : Answers)
  | setAdvData (d : Option Data) (others : Bool) (a : Answers)
  | setScanResponseData (d : Option Data) (others : Bool) (a : Answers)
  | setMultiParam (v : Multi) (others : Bool) (a : Answers)
  | settingRsp (success : Bool)
  | nextMessage (accepted : Bool)
  | advState (newState : ExtAdvState) (cause : Nat)
  | connected

def step (m : Managed) : Op → Managed
  | .enable duration others a => enable duration others a m
  | .disable appCause others a => disable appCause others a m
  | .setAdvParam p scanReq others a => setAdvParam p scanReq others a m
  | .change c others a => change c others a m
  | .setRandom addr others a => setRandom addr others a m
  | .setAdvData d others a => setAdvData d others a m
  | .setScanResponseData d others a => setScanResponseData d others a m
  | .setMultiParam v others a => setMultiParam v others a m
  | .settingRsp success => settingRsp success m
  | .nextMessage accepted => nextMessage accepted m
  | .advState newState cause => advState newState cause m
  | .connected => { m with queue := [] }

def run (m : Managed) (ops : List Op) : Managed := Run.exec step m ops

def gapExtAdvEvtPropScannableAdv : UInt16 := 0x02

def gapExtAdvEvtPropDirectedAdv : UInt16 := 0x04

structure Init where
  advHandle : Nat
  param : AdvParam
  advData : Option Data
  scanData : Option Data
  randomAddress : Option (Vector UInt8 6)

def Init.blank (i : Init) : Managed where
  set := { AdvSet.default with advHandle := i.advHandle, initFlags := extAdvSetAdvParas }
  queue := []
  stored :=
    { param := i.param.store { i.param with peerAddress := some (.replicate 6 0) }
      advData := (0, 0)
      scanResponseData := (0, 0)
      randomAddr := .replicate 6 0 }
  given := ⟨none, none, none, none⟩
  items := 0
  flight := none
  done := false
  started := false

def initAdvParamsAll (i : Init) : Managed :=
  let r := (giveParam i.param false i.blank, extAdvSetAdvParas)
  let r := if usesRandom i.param then
    giveIf giveRandom extAdvSetRandomAddr i.randomAddress r else r
  let r := if i.param.advEventProp &&& gapExtAdvEvtPropDirectedAdv = 0 then
    giveIf giveAdvData extAdvSetAdvData i.advData r else r
  let r := if i.param.advEventProp &&& gapExtAdvEvtPropScannableAdv ≠ 0 then
    giveIf giveScanResponseData extAdvSetScanRspData i.scanData r else r
  { r.1 with items := r.2, set := { r.1.set with initFlags := r.2 } }

structure AdvParam.Agrees (p stored : AdvParam) : Prop where
  values : { p with peerAddress := none } = { stored with peerAddress := none }
  peer : ∀ addr ∈ p.peerAddress, stored.peerAddress = some addr

structure Agree (m : Managed) : Prop where
  param : ∀ p ∈ m.given.param, p.1.Agrees m.stored.param
  advData : ∀ d ∈ m.given.advData, d = m.stored.advData
  scanResponseData : ∀ d ∈ m.given.scanResponseData, d = m.stored.scanResponseData
  randomAddr : ∀ addr ∈ m.given.randomAddr, addr = m.stored.randomAddr

structure Sound (m : Managed) : Prop where
  agree : Agree m
  started : m.started = true → m.done = true

def Op.Possible (m : Managed) : Op → Prop
  | .settingRsp _ => m.set.pendingAction = .update
  | .nextMessage _ => m.set.pendingAction = .idle
  | .advState newState _ => m.set.Moves newState
  | .connected => m.started = true
  | _ => True

def AdvParam.Short (p : AdvParam) : Prop := p.advIntervalMin < 2 ^ 16 ∧ p.advIntervalMax < 2 ^ 16

def Covers (m : Managed) (flags : Nat) : Prop := flags ||| m.items = flags

def Calm (m : Managed) : Prop :=
  m.set.advParamSet = false ∧ m.set.enabled = false ∧ ∀ e ∈ m.queue, e.1 ≠ .start

def TakesSetting (others : Bool) (a : Answers) (m : Managed) : Prop :=
  a.ready = true ∧ (if findPendingAdvAction others m then a.sendUpdate else a.update) = true

def TakesStart (others : Bool) (a : Answers) (m : Managed) : Prop :=
  (if findPendingAdvAction others m then a.sendStart else a.start) = true

def Op.Ok (m : Managed) : Op → Prop
  | .setAdvParam p _ _ _ => p.Short
  | .setMultiParam v _ _ =>
    m.stored.param.advIntervalMin < v.advInterval.toNat ∧
      v.advInterval.toNat < m.stored.param.advIntervalMax ∨
    m.stored.param.advIntervalMin = v.advInterval.toNat ∧
      m.stored.param.advIntervalMax = v.advInterval.toNat
  | .enable _ others a => m.done = false → m.set.enabled = false →
      if m.set.advParamSet then findPendingAdvAction others m = true ∨ a.start = false
      else TakesSetting others a m ∨ ¬ TakesStart others a m
  | .settingRsp success => m.done = false → (∃ flags ∈ m.flight, Covers m flags) → success = true
  | .nextMessage accepted => m.done = false → ∀ flags queue, m.queue = (.update, flags) :: queue →
      Covers m (settingFlags m.set flags) → accepted = true ∨ Calm m
  | _ => True

abbrev PossibleStep (m : Managed) (op : Op) : Prop := op.Possible m

abbrev OkStep (m : Managed) (op : Op) : Prop := op.Possible m ∧ op.Ok m

section

def Has (items : Nat) (queue : List (Action × Nat)) : Prop :=
  ∃ flags, (Action.update, flags) ∈ queue ∧ flags ||| items = flags

def Guarded (items : Nat) : List (Action × Nat) → Prop
  | [] => True
  | (.update, flags) :: queue => flags ||| items = flags ∨ Guarded items queue
  | (.start, _) :: _ => False
  | (.stop, _) :: queue => Guarded items queue

def Armed (m : Managed) : Prop :=
  m.done = true ∨ (∃ flags ∈ m.flight, Covers m flags) ∨ Has m.items m.queue

structure Order (m : Managed) : Prop where
  flight : m.flight.isSome = true ↔ m.set.pendingAction = .update
  started : m.started = true → m.done = true
  items : m.set.advParamSet = false → m.set.initFlags = m.items
  armed : m.set.enabled = true ∨ m.set.advParamSet = true → Armed m
  guarded : m.done = true ∨ (∃ flags ∈ m.flight, Covers m flags) ∨ Guarded m.items m.queue

variable {m : Managed} {others : Bool} {a : Answers}

theorem has_append (e : Action × Nat)
    (h : Has items queue) : Has items (queue ++ [e]) := by
  obtain ⟨flags, hmem, hflags⟩ := h
  exact ⟨flags, List.mem_append_left _ hmem, hflags⟩

theorem guarded_append (h : Guarded items queue) (he : e.1 = .start → Has items queue) :
    Guarded items (queue ++ [e]) := by
  induction queue with
  | nil =>
    obtain ⟨action, flags⟩ := e
    cases action with
    | start =>
      obtain ⟨flags, hmem, -⟩ := he rfl
      cases hmem
    | update => exact .inr trivial
    | stop => exact trivial
  | cons e' queue ih =>
    obtain ⟨action, flags⟩ := e'
    cases action with
    | start => exact h
    | update =>
      by_cases hflags : flags ||| items = flags
      . exact .inl hflags
      . refine .inr (ih (h.resolve_left hflags) fun hstart => ?_)
        obtain ⟨flags', hmem, hflags'⟩ := he hstart
        rcases List.mem_cons.mp hmem with heq | hmem
        . cases heq
          exact absurd hflags' hflags
        . exact ⟨flags', hmem, hflags'⟩
    | stop =>
      refine ih h fun hstart => ?_
      obtain ⟨flags', hmem, hflags'⟩ := he hstart
      rcases List.mem_cons.mp hmem with heq | hmem
      . cases heq
      . exact ⟨flags', hmem, hflags'⟩

theorem guarded_of_no_start (h : ∀ e ∈ queue, e.1 ≠ .start) : Guarded items queue := by
  induction queue with
  | nil => trivial
  | cons e queue ih =>
    obtain ⟨hhead, hrest⟩ := List.forall_mem_cons.mp h
    obtain ⟨action, flags⟩ := e
    cases action with
    | start => exact absurd rfl hhead
    | update => exact .inr (ih hrest)
    | stop => exact ih hrest

theorem Order.sendMsg (h : Order m) (action : Action) (param : Nat) (sent : Bool)
    (harmed : action = .start → Armed m) : Order (sendMsg action param sent m).1 := by
  unfold ExtAdvParams.sendMsg
  cases sent with
  | false => exact h
  | true =>
    have hguarded : m.done = true ∨ (∃ flags ∈ m.flight, Covers m flags) ∨
        Guarded m.items (m.queue ++ [(action, param)]) := by
      by_cases hstart : action = .start
      . rcases harmed hstart with hdone | hflight | hhas
        . exact .inl hdone
        . exact .inr (.inl hflight)
        . exact h.guarded.imp_right (.imp_right fun hg => guarded_append hg fun _ => hhas)
      . exact h.guarded.imp_right
          (.imp_right fun hg => guarded_append hg fun he => absurd he hstart)
    have harm : Armed m → m.done = true ∨ (∃ flags ∈ m.flight, Covers m flags) ∨
        Has m.items (m.queue ++ [(action, param)]) :=
      .imp_right (.imp_right (has_append _))
    cases action <;>
      exact ⟨h.flight, h.started, h.items, fun hset => harm (h.armed hset), hguarded⟩

theorem settingFlags_covers (h : Order m) (flags : Nat) :
    Covers m (settingFlags m.set flags) ∨
      m.set.advParamSet = true ∧ settingFlags m.set flags = flags := by
  unfold settingFlags Covers
  cases hset : m.set.advParamSet with
  | true => exact .inr ⟨rfl, rfl⟩
  | false =>
    refine .inl ?_
    rw [h.items hset]
    simp only [Bool.false_eq_true, if_false]
    apply Nat.eq_of_testBit_eq
    intro i
    simp only [Nat.testBit_or]
    cases flags.testBit i <;> cases m.items.testBit i <;> cases extAdvSetAdvParas.testBit i <;> rfl

theorem actionUpdate_set (s : AdvSet) (flags : Nat) :
    (s.actionUpdate flags true).advParamSet =
        (s.advParamSet || settingFlags s flags &&& extAdvSetAdvParas != 0) ∧
      (s.actionUpdate flags true).pendingAction = .update ∧
      (s.actionUpdate flags true).enabled = s.enabled := by
  unfold AdvSet.actionUpdate settingFlags
  simp only [if_true]
  generalize (if s.advParamSet = true then flags else
    flags ||| s.initFlags ||| extAdvSetAdvParas) = f
  by_cases hf : f &&& extAdvSetAdvParas = 0
  . simp [hf]
  . simp [hf]

theorem settingFlags_paras (h : s.advParamSet = false) (flags : Nat) :
    settingFlags s flags &&& extAdvSetAdvParas ≠ 0 := by
  intro hzero
  have hbit := congrArg (Nat.testBit · 0) hzero
  simp [settingFlags, h, extAdvSetAdvParas] at hbit

theorem Order.actionUpdate (h : Order m) (hidle : m.set.pendingAction = .idle) (flags : Nat)
    (hqueue : m.set.advParamSet = true → ¬ Covers m flags →
      (Has m.items m.queue → Has m.items queue) ∧
        (Guarded m.items m.queue → Guarded m.items queue)) :
    Order (actionUpdate flags true { m with queue }) := by
  have hnone : ¬ m.flight.isSome = true := by
    rw [h.flight, hidle]
    exact nofun
  have hno : ¬ ∃ flags ∈ m.flight, Covers m flags := by
    rintro ⟨f, hf, -⟩
    rw [Option.mem_def.mp hf] at hnone
    exact hnone rfl
  obtain ⟨hset, hpending, henabled⟩ := actionUpdate_set m.set flags
  have hcases : Covers m (settingFlags m.set flags) ∨ m.set.advParamSet = true ∧
      (m.done = true ∨ Has m.items queue ∧ (Guarded m.items m.queue → Guarded m.items queue)) := by
    rcases settingFlags_covers h flags with hcovers | ⟨hset', hflags⟩
    . exact .inl hcovers
    . by_cases hcovers : Covers m flags
      . exact .inl (by rw [hflags]; exact hcovers)
      . obtain ⟨hhas, hguard⟩ := hqueue hset' hcovers
        rcases h.armed (.inr hset') with hdone | hflight | hm
        . exact .inr ⟨hset', .inl hdone⟩
        . exact absurd hflight hno
        . exact .inr ⟨hset', .inr ⟨hhas hm, hguard⟩⟩
  refine ⟨⟨fun _ => hpending, fun _ => rfl⟩, h.started, fun hfalse => ?_, fun _ => ?_, ?_⟩
  . have hunset : (m.set.actionUpdate flags true).advParamSet = false := hfalse
    rw [hset, Bool.or_eq_false_iff] at hunset
    exact absurd (by simpa using hunset.2) (settingFlags_paras hunset.1 flags)
  . rcases hcases with hcovers | ⟨-, hdone | ⟨hhas, -⟩⟩
    . exact .inr (.inl ⟨_, rfl, hcovers⟩)
    . exact .inl hdone
    . exact .inr (.inr hhas)
  . rcases hcases with hcovers | ⟨-, hdone | ⟨-, hguard⟩⟩
    . exact .inr (.inl ⟨_, rfl, hcovers⟩)
    . exact .inl hdone
    . rcases h.guarded with hdone | hflight | hg
      . exact .inl hdone
      . exact absurd hflight hno
      . exact .inr (.inr (hguard hg))

theorem actionUpdate_refused (flags : Nat) (m : Managed) : actionUpdate flags false m = m := by
  unfold ExtAdvParams.actionUpdate AdvSet.actionUpdate
  simp

theorem idle_of_not_pending (h : findPendingAdvAction others m = false) :
    m.set.pendingAction = .idle := by
  unfold findPendingAdvAction at h
  rw [Bool.or_eq_false_iff] at h
  simpa using h.2

theorem Order.startSetAdvParam (h : Order m) (flags : Nat) :
    Order (startSetAdvParam flags others a m).1 := by
  unfold ExtAdvParams.startSetAdvParam
  split
  . split
    . exact h.sendMsg .update flags a.sendUpdate nofun
    . next hpending =>
      have hidle := idle_of_not_pending (Bool.not_eq_true _ ▸ hpending)
      cases hupdate : a.update with
      | false =>
        rw [actionUpdate_refused]
        exact h
      | true => exact h.actionUpdate hidle flags fun _ _ => ⟨id, id⟩
  . exact h

theorem startSetAdvParam_enabled (flags : Nat) :
    (startSetAdvParam flags others a m).1.set.enabled = m.set.enabled := by
  unfold ExtAdvParams.startSetAdvParam
  split
  . split
    . unfold ExtAdvParams.sendMsg
      cases a.sendUpdate <;> rfl
    . cases hupdate : a.update with
      | false => rw [actionUpdate_refused]
      | true => exact (actionUpdate_set m.set flags).2.2
  . rfl

theorem armed_of_taken (h : Order m)
    (hflags : m.set.advParamSet = false → Covers m flags)
    (htaken : (startSetAdvParam flags others a m).2 = true) :
    Armed (startSetAdvParam flags others a m).1 := by
  cases hset : m.set.advParamSet with
  | true =>
    refine (h.startSetAdvParam flags).armed (.inr ?_)
    unfold ExtAdvParams.startSetAdvParam
    split
    . split
      . unfold ExtAdvParams.sendMsg
        cases a.sendUpdate <;> exact hset
      . cases hupdate : a.update with
        | false =>
          rw [actionUpdate_refused]
          exact hset
        | true =>
          have hor := (actionUpdate_set m.set flags).1
          rw [hset, Bool.true_or] at hor
          exact hor
    . exact hset
  | false =>
    unfold ExtAdvParams.startSetAdvParam at htaken ⊢
    split at htaken
    . next hready =>
      rw [if_pos hready]
      split at htaken
      . next hpending =>
        rw [if_pos hpending]
        unfold ExtAdvParams.sendMsg at htaken ⊢
        cases hsend : a.sendUpdate with
        | false =>
          rw [hsend] at htaken
          cases htaken
        | true => exact .inr (.inr ⟨flags, List.mem_append_right _ (.head _), hflags hset⟩)
      . next hpending =>
        have hupdate : a.update = true := htaken
        rw [if_neg hpending, hupdate]
        refine .inr (.inl ⟨_, rfl, ?_⟩)
        rcases settingFlags_covers h flags with hcovers | ⟨htrue, -⟩
        . exact hcovers
        . rw [hset] at htrue
          cases htrue
    . cases htaken

theorem Order.requestStop (h : Order m) (appCause : Nat) :
    Order (requestStop appCause others a m).1 := by
  unfold ExtAdvParams.requestStop
  split
  . exact h.sendMsg .stop appCause a.sendStop nofun
  . next hpending =>
    have hidle := idle_of_not_pending (Bool.not_eq_true _ ▸ hpending)
    unfold AdvSet.actionStop
    cases a.stop with
    | false => exact ⟨h.flight, h.started, h.items, h.armed, h.guarded⟩
    | true =>
      have hflight := h.flight
      rw [hidle] at hflight
      exact ⟨⟨fun hsome => (nomatch hflight.mp hsome), nofun⟩, h.started, h.items, h.armed,
        h.guarded⟩

theorem Order.disable (h : Order m) (appCause : Nat) : Order (disable appCause others a m) := by
  unfold ExtAdvParams.disable
  split
  . have hstop := @Order.requestStop m others a h appCause
    simp only
    split
    . refine ⟨hstop.flight, hstop.started, hstop.items, fun hset => ?_, hstop.guarded⟩
      exact hstop.armed (.inr (hset.resolve_left nofun))
    . exact hstop
  . exact h

theorem disable_update_enabled :
    (disable appStopForUpdate others a m).set.enabled = m.set.enabled := by
  unfold ExtAdvParams.disable
  split
  . rw [if_neg (fun hn => hn.2 rfl)]
    unfold ExtAdvParams.requestStop
    split
    . unfold ExtAdvParams.sendMsg
      cases a.sendStop <;> rfl
    . unfold AdvSet.actionStop
      cases a.stop <;> rfl
  . rfl

theorem Order.setOrRestart (h : Order m) (flags : Nat) :
    Order (setOrRestart flags others a m).1 := by
  unfold ExtAdvParams.setOrRestart
  split
  . next henabled =>
    have hprepared := @Order.startSetAdvParam _ others a
      (@Order.disable m others a h appStopForUpdate) flags
    refine hprepared.sendMsg .start _ _ fun _ => hprepared.armed (.inl ?_)
    rw [startSetAdvParam_enabled, disable_update_enabled, henabled]
  . exact h.startSetAdvParam flags

theorem Order.requestStart (h : Order m) (duration : Nat)
    (hstart : m.done = true ∨ findPendingAdvAction others m = true ∧ Armed m) :
    Order (tellStarted duration (requestStart duration others a m)) := by
  have harmed : Armed m := hstart.elim .inl And.right
  have htell : ∀ r : Managed × Bool, Order r.1 → Armed r.1 → Order (tellStarted duration r) := by
    intro r hr harm
    unfold tellStarted
    split
    . exact ⟨hr.flight, hr.started, hr.items, fun _ => harm, hr.guarded⟩
    . exact hr
  unfold ExtAdvParams.requestStart
  split
  . refine htell _ (h.sendMsg .start duration a.sendStart fun _ => harmed) ?_
    unfold ExtAdvParams.sendMsg
    cases a.sendStart with
    | false => exact harmed
    | true => exact harmed.imp_right (.imp_right (has_append _))
  . next hpending =>
    have hdone : m.done = true := hstart.resolve_right fun hn => hpending hn.1
    have hidle := idle_of_not_pending (Bool.not_eq_true _ ▸ hpending)
    have hflight := h.flight
    rw [hidle] at hflight
    refine htell _ ?_ (.inl hdone)
    unfold ExtAdvParams.actionStart AdvSet.actionStart
    cases a.start with
    | false => exact ⟨h.flight, fun _ => hdone, h.items, fun _ => .inl hdone, .inl hdone⟩
    | true =>
      exact ⟨⟨fun hsome => (nomatch hflight.mp hsome), nofun⟩, fun _ => hdone, h.items,
        fun _ => .inl hdone, .inl hdone⟩

theorem startSetAdvParam_done (flags : Nat) :
    (startSetAdvParam flags others a m).1.done = m.done := by
  unfold ExtAdvParams.startSetAdvParam ExtAdvParams.sendMsg
  split
  . split
    . cases a.sendUpdate <;> rfl
    . rfl
  . rfl

theorem startSetAdvParam_refused (flags : Nat) (h : ¬ TakesSetting others a m) :
    (startSetAdvParam flags others a m).1 = m := by
  unfold ExtAdvParams.startSetAdvParam
  split
  . next hready =>
    have hrefused : ¬ (if findPendingAdvAction others m then a.sendUpdate else a.update) = true :=
      fun htaken => h ⟨hready, htaken⟩
    split
    . next hpending =>
      rw [if_pos hpending, Bool.not_eq_true] at hrefused
      unfold ExtAdvParams.sendMsg
      rw [hrefused]
      rfl
    . next hpending =>
      rw [if_neg hpending, Bool.not_eq_true] at hrefused
      rw [hrefused]
      exact actionUpdate_refused flags m
  . rfl

theorem startSetAdvParam_taken (flags : Nat) (h : TakesSetting others a m) :
    (startSetAdvParam flags others a m).2 = true ∧
      findPendingAdvAction others (startSetAdvParam flags others a m).1 = true := by
  obtain ⟨hready, htaken⟩ := h
  unfold ExtAdvParams.startSetAdvParam
  rw [if_pos hready]
  split
  . next hpending =>
    rw [if_pos hpending] at htaken
    unfold ExtAdvParams.sendMsg
    rw [if_pos htaken]
    exact ⟨rfl, hpending⟩
  . next hpending =>
    rw [if_neg hpending] at htaken
    refine ⟨htaken, ?_⟩
    rw [htaken]
    unfold findPendingAdvAction ExtAdvParams.actionUpdate
    rw [(actionUpdate_set m.set _).2.1]
    cases others <;> rfl

theorem Order.requestStart_refused (h : Order m) (duration : Nat)
    (hrefused : ¬ TakesStart others a m) :
    Order (tellStarted duration (ExtAdvParams.requestStart duration others a m)) := by
  unfold TakesStart at hrefused
  unfold ExtAdvParams.requestStart
  split
  . next hpending =>
    rw [if_pos hpending, Bool.not_eq_true] at hrefused
    unfold ExtAdvParams.sendMsg
    rw [hrefused]
    exact h
  . next hpending =>
    rw [if_neg hpending, Bool.not_eq_true] at hrefused
    unfold ExtAdvParams.actionStart AdvSet.actionStart
    rw [hrefused]
    refine ⟨h.flight, fun hstarted => h.started ?_, h.items, fun hset => ?_, h.guarded⟩
    . exact (Bool.or_false _).symm.trans hstarted
    . exact h.armed (.inr (hset.resolve_left nofun))

theorem Order.enable (h : Order m) (duration : Nat)
    (hok : Op.Ok m (.enable duration others a)) : Order (enable duration others a m) := by
  unfold ExtAdvParams.enable
  cases henabled : m.set.enabled with
  | true => exact h
  | false =>
    simp only [Bool.false_eq_true, if_false]
    have hprepared : Order (ExtAdvParams.startSetAdvParam m.set.initFlags others a m).1 :=
      h.startSetAdvParam m.set.initFlags
    cases hdone : m.done with
    | true =>
      cases hset : m.set.advParamSet with
      | true => exact h.requestStart duration (.inl hdone)
      | false =>
        refine hprepared.requestStart duration (.inl ?_)
        rw [startSetAdvParam_done, hdone]
    | false =>
      have hcond := hok hdone henabled
      cases hset : m.set.advParamSet with
      | true =>
        rw [hset, if_pos rfl] at hcond
        by_cases hpending : findPendingAdvAction others m = true
        . exact h.requestStart duration (.inr ⟨hpending, h.armed (.inr hset)⟩)
        . refine h.requestStart_refused duration fun htakes => ?_
          unfold TakesStart at htakes
          rw [if_neg hpending, hcond.resolve_left hpending] at htakes
          cases htakes
      | false =>
        rw [hset, if_neg Bool.false_ne_true] at hcond
        by_cases htakes : TakesSetting others a m
        . have hcovers : m.set.advParamSet = false → Covers m m.set.initFlags := by
            intro hunset
            unfold Covers
            rw [h.items hunset, Nat.or_self]
          obtain ⟨htaken, hpending⟩ := startSetAdvParam_taken m.set.initFlags htakes
          exact hprepared.requestStart duration
            (.inr ⟨hpending, armed_of_taken h hcovers htaken⟩)
        . simp only [Bool.false_eq_true, if_false]
          rw [startSetAdvParam_refused _ htakes]
          exact h.requestStart_refused duration (hcond.resolve_left htakes)

theorem checkState_order (s : AdvSet) (cause : Nat) (stateChange : Bool) :
    (s.checkState cause stateChange).advParamSet = s.advParamSet ∧
      (s.checkState cause stateChange).initFlags = s.initFlags ∧
      (s.checkState cause stateChange).pendingAction = s.pendingAction ∧
      ((s.checkState cause stateChange).enabled = true → s.enabled = true) := by
  unfold AdvSet.checkState
  cases stateChange <;> simp only [if_true, Bool.false_eq_true, if_false] <;> split_ifs <;>
    exact ⟨rfl, rfl, rfl, by simp⟩

theorem perform_order {s : AdvSet} {action : Action} (haction : action ≠ .update)
    (hidle : s.pendingAction = .idle) (param : Nat) (accepted : Bool) :
    (s.perform action param accepted).1.advParamSet = s.advParamSet ∧
      (s.perform action param accepted).1.initFlags = s.initFlags ∧
      (s.perform action param accepted).1.pendingAction ≠ .update ∧
      ((s.perform action param accepted).1.enabled = true → s.enabled = true) := by
  have hne : s.pendingAction ≠ .update := by
    rw [hidle]
    exact nofun
  cases action with
  | update => exact absurd rfl haction
  | start =>
    unfold AdvSet.perform AdvSet.actionStart
    cases accepted with
    | true =>
      simp only [if_true, Bool.true_eq_false, and_false, if_false]
      split_ifs
      . exact ⟨rfl, rfl, nofun, id⟩
      . exact ⟨rfl, rfl, hne, id⟩
    | false =>
      simp only [Bool.false_eq_true, if_false]
      split_ifs
      . obtain ⟨hset, hflags, hpending, henabled⟩ :=
          checkState_order { s.decNum with enabled := false } 0 false
        exact ⟨hset, hflags, fun heq => hne (hpending.symm.trans heq), fun hen => by
          cases henabled hen⟩
      . exact ⟨rfl, rfl, hne, nofun⟩
      . exact ⟨rfl, rfl, hne, id⟩
  | stop =>
    unfold AdvSet.perform AdvSet.actionStop
    cases accepted with
    | true =>
      simp only [if_true, Bool.true_eq_false, and_false, if_false]
      split_ifs
      . exact ⟨rfl, rfl, nofun, id⟩
      . exact ⟨rfl, rfl, hne, id⟩
    | false =>
      simp only [Bool.false_eq_true, if_false]
      split_ifs
      . obtain ⟨hset, hflags, hpending, henabled⟩ :=
          checkState_order { s.decNum with appCause := param } 0 false
        exact ⟨hset, hflags, fun heq => hne (hpending.symm.trans heq), henabled⟩
      . exact ⟨rfl, rfl, hne, id⟩
      . exact ⟨rfl, rfl, hne, id⟩

theorem Has.tail
    (h : Has items (e :: queue)) (he : e.1 = .update → e.2 ||| items ≠ e.2) : Has items queue := by
  obtain ⟨flags, hmem, hflags⟩ := h
  rcases List.mem_cons.mp hmem with heq | hmem
  . subst heq
    exact absurd hflags (he rfl)
  . exact ⟨flags, hmem, hflags⟩

theorem Order.no_flight (h : Order m) (hidle : m.set.pendingAction = .idle) : m.flight = none := by
  cases hflight : m.flight with
  | none => rfl
  | some flags =>
    have hpending := h.flight.mp (by rw [hflight]; rfl)
    rw [hidle] at hpending
    cases hpending

theorem Order.settingRsp (h : Order m) (success : Bool)
    (hpossible : Op.Possible m (.settingRsp success)) (hok : Op.Ok m (.settingRsp success)) :
    Order (settingRsp success m) := by
  have hpending : m.set.pendingAction = .update := hpossible
  have hset : m.set.complete .update = { m.set with pendingAction := .idle } := if_pos hpending
  have hdone : m.done = true ∨ (∃ flags ∈ m.flight, Covers m flags) →
      (ExtAdvParams.settingRsp success m).done = true := by
    intro hor
    unfold ExtAdvParams.settingRsp
    cases hm : m.done with
    | true => rfl
    | false =>
      have hflight := hor.resolve_left (hm ▸ Bool.false_ne_true)
      rw [hok hm hflight]
      obtain ⟨flags, hmem, hcovers⟩ := hflight
      rw [Option.mem_def.mp hmem]
      simpa [Covers] using hcovers
  have hcases : ∀ {p : Prop}, m.done = true ∨ (∃ flags ∈ m.flight, Covers m flags) ∨ p →
      (ExtAdvParams.settingRsp success m).done = true ∨
        (∃ flags ∈ (none : Option Nat), Covers m flags) ∨ p := by
    rintro p (hm | hflight | hp)
    . exact .inl (hdone (.inl hm))
    . exact .inl (hdone (.inr hflight))
    . exact .inr (.inr hp)
  refine ⟨?_, fun hstarted => hdone (.inl (h.started hstarted)), ?_, ?_, hcases h.guarded⟩
  . unfold ExtAdvParams.settingRsp
    rw [hset]
    exact ⟨nofun, nofun⟩
  . unfold ExtAdvParams.settingRsp
    rw [hset]
    exact h.items
  . intro hor
    refine hcases (h.armed ?_)
    unfold ExtAdvParams.settingRsp at hor
    rw [hset] at hor
    exact hor

theorem Order.nextMessage (h : Order m) (accepted : Bool)
    (hpossible : Op.Possible m (.nextMessage accepted)) (hok : Op.Ok m (.nextMessage accepted)) :
    Order (nextMessage accepted m) := by
  have hidle : m.set.pendingAction = .idle := hpossible
  have hnone := h.no_flight hidle
  have hno : ¬ ∃ flags ∈ m.flight, Covers m flags := by
    rintro ⟨flags, hmem, -⟩
    rw [hnone] at hmem
    cases hmem
  -- what is not pending has been answered, or waits
  have harmed : ∀ {p : Prop}, m.done = true ∨ (∃ flags ∈ m.flight, Covers m flags) ∨ p →
      m.done = true ∨ p := fun hor => hor.imp_right fun hp => hp.resolve_left hno
  obtain ⟨set, queue, stored, given, items, flight, done, started⟩ := m
  unfold ExtAdvParams.nextMessage
  cases queue with
  | nil => exact h
  | cons e queue =>
    obtain ⟨action, param⟩ := e
    have htail : (action = .update → param ||| items ≠ param) →
        (Has items ((action, param) :: queue) → Has items queue) ∧
          (Guarded items ((action, param) :: queue) → Guarded items queue) := by
      intro he
      refine ⟨fun hhas => hhas.tail he, fun hg => ?_⟩
      cases action with
      | update => exact hg.resolve_left (he rfl)
      | start => exact hg.elim
      | stop => exact hg
    cases action with
    | update =>
      cases accepted with
      | true => exact h.actionUpdate hidle param fun _ hcovers => htail fun _ => hcovers
      | false =>
        simp only [actionUpdate_refused]
        cases hdone : done with
        | true =>
          subst hdone
          exact ⟨h.flight, h.started, h.items, fun _ => .inl rfl, .inl rfl⟩
        | false =>
          have hcond := hok hdone param queue rfl
          subst hdone
          rcases settingFlags_covers h param with hcovers | ⟨hset, hflags⟩
          . obtain ⟨hset, henabled, hstart⟩ := (hcond hcovers).resolve_left nofun
            refine ⟨h.flight, h.started, h.items, fun hor => ?_, ?_⟩
            . rcases hor with hor | hor
              . exact absurd (henabled.symm.trans hor) nofun
              . exact absurd (hset.symm.trans hor) nofun
            . exact .inr (.inr (guarded_of_no_start (List.forall_mem_cons.mp hstart).2))
          . by_cases hcovers : param ||| items = param
            . have hcalm := (hcond (by rw [hflags]; exact hcovers)).resolve_left nofun
              exact absurd (hcalm.1.symm.trans hset) nofun
            . obtain ⟨hhas, hguard⟩ := htail fun _ => hcovers
              exact ⟨h.flight, h.started, h.items,
                fun hor => (harmed (h.armed hor)).imp_right fun hm => .inr (hhas hm),
                (harmed h.guarded).imp_right fun hm => .inr (hguard hm)⟩
    | start =>
      have hdone : done = true := (harmed h.guarded).resolve_right id
      obtain ⟨hset, hflags, hpending, henabled⟩ :=
        @perform_order set .start nofun hidle param accepted
      subst hnone
      refine ⟨⟨nofun, fun heq => absurd heq hpending⟩, fun _ => hdone, fun hunset => ?_,
        fun _ => .inl hdone, .inl hdone⟩
      exact hflags.trans (h.items (hset.symm.trans hunset))
    | stop =>
      obtain ⟨hset, hflags, hpending, henabled⟩ :=
        @perform_order set .stop nofun hidle param accepted
      obtain ⟨hhas, hguard⟩ := htail nofun
      subst hnone
      refine ⟨⟨nofun, fun heq => absurd heq hpending⟩, fun hstarted => h.started ?_,
        fun hunset => ?_, fun hor => ?_, ?_⟩
      . simpa using hstarted
      . exact hflags.trans (h.items (hset.symm.trans hunset))
      . refine (harmed (h.armed (hor.imp henabled fun hs => hset.symm.trans hs))).imp_right ?_
        exact fun hm => .inr (hhas hm)
      . exact (harmed h.guarded).imp_right fun hm => .inr (hguard hm)

theorem complete_order {s : AdvSet} {action : PendingAction} (haction : action ≠ .update) :
    (s.complete action).advParamSet = s.advParamSet ∧
      (s.complete action).initFlags = s.initFlags ∧
      ((s.complete action).pendingAction = .update ↔ s.pendingAction = .update) ∧
      (s.complete action).enabled = s.enabled := by
  unfold AdvSet.complete
  split
  . next heq => exact ⟨rfl, rfl, ⟨nofun, fun hup => absurd (heq.symm.trans hup) haction⟩, rfl⟩
  . exact ⟨rfl, rfl, .rfl, rfl⟩

theorem Order.set (h : Order m) {set : AdvSet} (hset : set.advParamSet = m.set.advParamSet)
    (hflags : set.initFlags = m.set.initFlags)
    (hpending : set.pendingAction = .update ↔ m.set.pendingAction = .update)
    (henabled : set.enabled = true → m.set.enabled = true) : Order { m with set } :=
  ⟨h.flight.trans hpending.symm, h.started,
    fun hunset => hflags.trans (h.items (hset.symm.trans hunset)),
    fun hor => h.armed (hor.imp henabled fun hs => hset.symm.trans hs), h.guarded⟩

theorem Order.advState (h : Order m) (newState : ExtAdvState) (cause : Nat) :
    Order (advState newState cause m) := by
  obtain ⟨hset, hflags, hpending, henabled⟩ :=
    checkState_order { m.set with extAdvState := newState } cause true
  have hcomplete : ∀ action : PendingAction, action ≠ .update →
      Order { m with set := (m.set.report newState cause).complete action } := by
    intro action haction
    obtain ⟨hset', hflags', hpending', henabled'⟩ :=
      @complete_order (m.set.report newState cause) action haction
    refine h.set (hset'.trans hset) (hflags'.trans hflags) (hpending'.trans ?_) fun hen =>
      henabled (henabled'.symm.trans hen)
    exact ⟨fun heq => hpending.symm.trans heq, fun heq => hpending.trans heq⟩
  unfold ExtAdvParams.advState
  simp only
  split_ifs
  . exact hcomplete .start nofun
  . exact hcomplete .stop nofun
  . exact h.set hset hflags
      ⟨fun heq => hpending.symm.trans heq, fun heq => hpending.trans heq⟩ henabled

theorem Order.connected (h : Order m) (hpossible : Op.Possible m .connected) :
    Order { m with queue := [] } :=
  ⟨h.flight, h.started, h.items, fun _ => .inl (h.started hpossible), .inl (h.started hpossible)⟩

def Gives (m m' : Managed) : Prop := m' = { m with stored := m'.stored, given := m'.given }

theorem Order.gives (h : Order m) (hgives : Gives m m') : Order m' := by
  rw [hgives]
  exact ⟨h.flight, h.started, h.items, h.armed, h.guarded⟩

theorem sendMsg_enabled (action : Action) (param : Nat) (sent : Bool) :
    (sendMsg action param sent m).1.set.enabled = m.set.enabled := by
  unfold ExtAdvParams.sendMsg
  cases sent with
  | false => rfl
  | true => cases action <;> rfl

theorem Order.multiStart (h : Order m) {setFlag : Nat}
    (hflags : m.set.advParamSet = false → Covers m setFlag) :
    Order (multiStart setFlag others a m).1 ∧
      ((multiStart setFlag others a m).2 = true → Armed (multiStart setFlag others a m).1) := by
  have hplain : Order (ExtAdvParams.startSetAdvParam setFlag others a m).1 ∧
      ((ExtAdvParams.startSetAdvParam setFlag others a m).2 = true →
        Armed (ExtAdvParams.startSetAdvParam setFlag others a m).1) :=
    ⟨h.startSetAdvParam setFlag, armed_of_taken h hflags⟩
  unfold ExtAdvParams.multiStart
  split
  . cases henabled : m.set.enabled with
    | false =>
      unfold ExtAdvParams.setOrRestart
      rw [henabled]
      exact hplain
    | true =>
      have hrestart := @Order.setOrRestart m others a h setFlag
      refine ⟨hrestart, fun _ => hrestart.armed (.inl ?_)⟩
      unfold ExtAdvParams.setOrRestart
      rw [if_pos henabled, sendMsg_enabled, startSetAdvParam_enabled, disable_update_enabled,
        henabled]
  . exact hplain

theorem Order.setMultiParam (h : Order m) (v : Multi) (hgives : Gives m (multiGive v m).1)
    (hflags : (multiGive v m).2 ||| m.set.initFlags = (multiGive v m).2) :
    Order (setMultiParam v others a m) := by
  unfold ExtAdvParams.setMultiParam
  have hgiven := h.gives hgives
  have hcovers : (multiGive v m).1.set.advParamSet = false →
      Covers (multiGive v m).1 (multiGive v m).2 := by
    intro hunset
    unfold Covers
    rw [hgives] at hunset ⊢
    rw [← h.items hunset]
    exact hflags
  obtain ⟨horder, harmed⟩ := @Order.multiStart _ others a hgiven _ hcovers
  simp only
  split
  . exact hgiven
  . split
    . next hset =>
      exact ⟨horder.flight, horder.started, nofun, fun _ => harmed hset.1, horder.guarded⟩
    . exact horder

end

section

variable {m m' : Managed} {others : Bool} {a : Answers}

def Keeps (m m' : Managed) : Prop := m'.stored = m.stored ∧ m'.given = m.given

theorem Keeps.trans (h : Keeps m m') (h' : Keeps m' m'') : Keeps m m'' :=
  ⟨h'.1.trans h.1, h'.2.trans h.2⟩

theorem keeps_sendMsg (action : Action) (param : Nat) (sent : Bool) :
    Keeps m (sendMsg action param sent m).1 := by
  unfold sendMsg
  cases sent <;> exact ⟨rfl, rfl⟩

theorem keeps_startSetAdvParam (flags : Nat) : Keeps m (startSetAdvParam flags others a m).1 := by
  unfold startSetAdvParam
  split
  . split
    . exact keeps_sendMsg .update flags a.sendUpdate
    . exact ⟨rfl, rfl⟩
  . exact ⟨rfl, rfl⟩

theorem keeps_tellStarted (duration : Nat) (r : Managed × Bool) :
    Keeps r.1 (tellStarted duration r) := by
  unfold tellStarted
  split <;> exact ⟨rfl, rfl⟩

theorem keeps_requestStart (duration : Nat) : Keeps m (requestStart duration others a m).1 := by
  unfold requestStart
  split
  . exact keeps_sendMsg .start duration a.sendStart
  . exact ⟨rfl, rfl⟩

theorem keeps_enable (duration : Nat) : Keeps m (enable duration others a m) := by
  have hstart : ∀ m : Managed, Keeps m (tellStarted duration (requestStart duration others a m)) :=
    fun m => (keeps_requestStart duration).trans (keeps_tellStarted duration _)
  unfold enable
  split
  . exact ⟨rfl, rfl⟩
  . simp only
    split
    . exact hstart m
    . exact (keeps_startSetAdvParam m.set.initFlags).trans (hstart _)

theorem keeps_requestStop (appCause : Nat) : Keeps m (requestStop appCause others a m).1 := by
  unfold requestStop
  split
  . exact keeps_sendMsg .stop appCause a.sendStop
  . exact ⟨rfl, rfl⟩

theorem keeps_disable (appCause : Nat) : Keeps m (disable appCause others a m) := by
  have hstop := @keeps_requestStop m others a appCause
  unfold disable
  split
  . simp only
    split <;> exact hstop
  . exact ⟨rfl, rfl⟩

theorem keeps_setOrRestart (flags : Nat) : Keeps m (setOrRestart flags others a m).1 := by
  unfold setOrRestart
  split
  . exact ((keeps_disable appStopForUpdate).trans (keeps_startSetAdvParam flags)).trans
      (keeps_sendMsg .start _ a.sendStart)
  . exact keeps_startSetAdvParam flags

theorem keeps_nextMessage (accepted : Bool) : Keeps m (nextMessage accepted m) := by
  unfold nextMessage
  split <;> exact ⟨rfl, rfl⟩

structure Values (m : Managed) : Prop where
  agree : Agree m
  short : m.stored.param.Short

theorem Values.keeps (h : Values m) (hkeeps : Keeps m m') : Values m' := by
  obtain ⟨⟨hparam, hadv, hscan, hrandom⟩, hshort⟩ := h
  obtain ⟨hstored, hgiven⟩ := hkeeps
  exact ⟨⟨by rwa [hstored, hgiven], by rwa [hstored, hgiven], by rwa [hstored, hgiven],
    by rwa [hstored, hgiven]⟩, by rwa [hstored]⟩

theorem AdvParam.agrees_self (p : AdvParam) : p.Agrees p := ⟨rfl, fun _ haddr => haddr⟩

theorem AdvParam.agrees_store {p : AdvParam} (hp : p.Short) (old : AdvParam) :
    p.Agrees (p.store old) := by
  refine ⟨?_, fun addr haddr => ?_⟩
  . unfold AdvParam.store
    rw [Nat.mod_eq_of_lt hp.1, Nat.mod_eq_of_lt hp.2]
  . unfold AdvParam.store
    rw [Option.mem_def.mp haddr]
    rfl

theorem AdvParam.short_store (p old : AdvParam) : (p.store old).Short :=
  ⟨Nat.mod_lt _ (by decide), Nat.mod_lt _ (by decide)⟩

theorem Values.giveRandom (h : Values m) (addr : Vector UInt8 6) : Values (giveRandom addr m) :=
  ⟨⟨h.agree.param, h.agree.advData, h.agree.scanResponseData,
    fun _ haddr => (Option.mem_some_iff.mp haddr).symm⟩, h.short⟩

theorem Values.giveAdvData (h : Values m) (d : Data) : Values (giveAdvData d m) :=
  ⟨⟨h.agree.param, fun _ hd => (Option.mem_some_iff.mp hd).symm, h.agree.scanResponseData,
    h.agree.randomAddr⟩, h.short⟩

theorem Values.giveScanResponseData (h : Values m) (d : Data) : Values (giveScanResponseData d m) :=
  ⟨⟨h.agree.param, h.agree.advData, fun _ hd => (Option.mem_some_iff.mp hd).symm,
    h.agree.randomAddr⟩, h.short⟩

theorem Values.giveParam (h : Values m) (hp : p.Agrees m.stored.param)
    (scanReq : Bool) : Values (giveParam p scanReq m) :=
  ⟨⟨fun _ hgiven => Option.mem_some_iff.mp hgiven ▸ hp, h.agree.advData,
    h.agree.scanResponseData, h.agree.randomAddr⟩, h.short⟩

theorem Values.setAdvParam (h : Values m) (hp : p.Short) (scanReq : Bool) :
    Values (setAdvParam p scanReq others a m) := by
  have hgiven : Values (ExtAdvParams.giveParam p scanReq
      { m with stored := { m.stored with param := p.store m.stored.param } }) :=
    ⟨⟨fun _ hgiven => Option.mem_some_iff.mp hgiven ▸ AdvParam.agrees_store hp m.stored.param,
      h.agree.advData, h.agree.scanResponseData, h.agree.randomAddr⟩, p.short_store m.stored.param⟩
  exact hgiven.keeps (keeps_setOrRestart extAdvSetAdvParas)

theorem Change.param_short {s p : AdvParam} {c : Change} (hs : s.Short)
    (hp : c.param s = some p) : p.Short := by
  cases c with
  | advInterval v =>
    simp only [Change.param] at hp
    split_ifs at hp
    cases hp
    exact ⟨v.toNat_lt, v.toNat_lt⟩
  | peerAddr type addr =>
    cases addr with
    | none => cases hp
    | some addr =>
      simp only [Change.param] at hp
      split_ifs at hp
      cases hp
      exact hs
  | _ =>
    simp only [Change.param] at hp
    split_ifs at hp
    cases hp
    exact hs

theorem Values.change (h : Values m) (c : Change) : Values (change c others a m) := by
  unfold ExtAdvParams.change
  split
  . exact h
  . next p hp => exact h.setAdvParam (Change.param_short h.short hp) false

structure Gave (m : Managed) (r : Managed × Nat) : Prop where
  gives : Gives m r.1
  flags : r.2 ||| m.set.initFlags = r.2
  param : r.1.stored.param = m.stored.param
  values : Values r.1

theorem or_flag (h : flags ||| items = flags) (flag : Nat) :
    flags ||| flag ||| items = flags ||| flag := by
  rw [Nat.or_assoc, Nat.or_comm flag items, ← Nat.or_assoc, h]

theorem Gave.give {r : Managed × Nat} (h : Gave m r) {give : Managed → Managed} (flag : Nat)
    (hgives : Gives r.1 (give r.1)) (hparam : (give r.1).stored.param = r.1.stored.param)
    (hvalues : Values (give r.1)) : Gave m (give r.1, r.2 ||| flag) := by
  refine ⟨?_, or_flag h.flags flag, hparam.trans h.param, hvalues⟩
  unfold Gives at hgives ⊢
  rw [hgives, h.gives]

theorem Gave.giveIf {α : Type} {r : Managed × Nat} (h : Gave m r) {give : α → Managed → Managed}
    (flag : Nat) (v : Option α) (hgives : ∀ v m, Gives m (give v m))
    (hparam : ∀ v m, (give v m).stored.param = m.stored.param)
    (hvalues : ∀ v m, Values m → Values (give v m)) : Gave m (giveIf give flag v r) := by
  cases v with
  | none => exact h
  | some v => exact h.give flag (hgives v r.1) (hparam v r.1) (hvalues v r.1 h.values)

theorem Gave.giveRandom {r : Managed × Nat} (h : Gave m r) (addr : Option (Vector UInt8 6)) :
    Gave m (ExtAdvParams.giveIf ExtAdvParams.giveRandom extAdvSetRandomAddr addr r) :=
  h.giveIf _ addr (fun _ _ => rfl) (fun _ _ => rfl) fun addr _ hm => hm.giveRandom addr

theorem Gave.giveAdvData {r : Managed × Nat} (h : Gave m r) (d : Option Data) :
    Gave m (ExtAdvParams.giveIf ExtAdvParams.giveAdvData extAdvSetAdvData d r) :=
  h.giveIf _ d (fun _ _ => rfl) (fun _ _ => rfl) fun d _ hm => hm.giveAdvData d

theorem Gave.giveScanResponseData {r : Managed × Nat} (h : Gave m r) (d : Option Data) :
    Gave m (ExtAdvParams.giveIf ExtAdvParams.giveScanResponseData extAdvSetScanRspData d r) :=
  h.giveIf _ d (fun _ _ => rfl) (fun _ _ => rfl) fun d _ hm => hm.giveScanResponseData d

theorem Gave.multiRandom (h : Gave m r) (v : Multi) : Gave m (ExtAdvParams.multiRandom v r) := by
  unfold ExtAdvParams.multiRandom
  split
  . exact h.giveRandom v.randomAddress
  . exact h

theorem Gave.multiInterval (h : Gave m r)
    (hok : Op.Ok m (.setMultiParam v others a)) : Gave m (multiInterval v r) := by
  unfold ExtAdvParams.multiInterval
  simp only [h.param]
  rcases hok with ⟨hmin, hmax⟩ | ⟨hmin, hmax⟩
  . rw [if_neg (by omega)]
    exact h
  . rw [if_pos (by omega)]
    refine h.give _ rfl rfl (h.values.giveParam ?_ false)
    rw [h.param, ← hmin]
    nth_rewrite 2 [hmin]
    rw [← hmax]
    exact m.stored.param.agrees_self

theorem Values.multiGive (h : Values m)
    (hok : Op.Ok m (.setMultiParam v others a)) : Gave m (multiGive v m) := by
  have hstart : Gave m (m, m.set.initFlags) := ⟨rfl, Nat.or_self _, rfl, h⟩
  exact (((hstart.multiRandom v).multiInterval hok).giveAdvData v.advData).giveScanResponseData
    v.scanData

theorem keeps_multiStart (setFlag : Nat) : Keeps m (multiStart setFlag others a m).1 := by
  unfold multiStart
  split
  . exact keeps_setOrRestart setFlag
  . exact keeps_startSetAdvParam setFlag

theorem Values.setMultiParam (h : Values m)
    (hok : Op.Ok m (.setMultiParam v others a)) : Values (setMultiParam v others a m) := by
  have hgave := h.multiGive hok
  have hstart := @keeps_multiStart (ExtAdvParams.multiGive v m).1 others a
    (ExtAdvParams.multiGive v m).2
  unfold ExtAdvParams.setMultiParam
  simp only
  split
  . exact hgave.values
  . split
    . exact hgave.values.keeps ⟨hstart.1, hstart.2⟩
    . exact hgave.values.keeps hstart

end

section

variable {m : Managed}

theorem Values.step (h : Values m) (hok : op.Ok m) : Values (step m op) := by
  cases op with
  | enable duration others a => exact h.keeps (keeps_enable duration)
  | disable appCause others a => exact h.keeps (keeps_disable appCause)
  | setAdvParam p scanReq others a => exact h.setAdvParam hok scanReq
  | change c others a => exact h.change c
  | setRandom addr others a =>
    simp only [ExtAdvParams.step, setRandom]
    cases addr with
    | none => exact h
    | some addr =>
      simp only
      split
      . exact h
      . exact (h.giveRandom addr).keeps (keeps_setOrRestart extAdvSetRandomAddr)
  | setAdvData d others a =>
    cases d with
    | none => exact h
    | some d => exact (h.giveAdvData d).keeps (keeps_startSetAdvParam extAdvSetAdvData)
  | setScanResponseData d others a =>
    cases d with
    | none => exact h
    | some d =>
      exact (h.giveScanResponseData d).keeps (keeps_startSetAdvParam extAdvSetScanRspData)
  | setMultiParam v others a => exact h.setMultiParam hok
  | settingRsp success => exact h.keeps ⟨rfl, rfl⟩
  | nextMessage accepted => exact h.keeps (keeps_nextMessage accepted)
  | advState newState cause => exact h.keeps ⟨rfl, rfl⟩
  | connected => exact h.keeps ⟨rfl, rfl⟩

theorem Order.step (h : Order m) (hvalues : Values m) (hpossible : op.Possible m)
    (hok : op.Ok m) : Order (step m op) := by
  have hset : ∀ (m' : Managed) (flags : Nat) (others : Bool) (a : Answers), Gives m m' →
      Order (ExtAdvParams.setOrRestart flags others a m').1 :=
    fun m' flags others a hgives => @Order.setOrRestart m' others a (h.gives hgives) flags
  have hstart : ∀ (m' : Managed) (flags : Nat) (others : Bool) (a : Answers), Gives m m' →
      Order (ExtAdvParams.startSetAdvParam flags others a m').1 :=
    fun m' flags others a hgives => @Order.startSetAdvParam m' others a (h.gives hgives) flags
  cases op with
  | enable duration others a => exact h.enable duration hok
  | disable appCause others a => exact h.disable appCause
  | setAdvParam p scanReq others a => exact hset _ extAdvSetAdvParas others a rfl
  | change c others a =>
    simp only [ExtAdvParams.step, change]
    split
    . exact h
    . exact hset _ extAdvSetAdvParas others a rfl
  | setRandom addr others a =>
    simp only [ExtAdvParams.step, setRandom]
    cases addr with
    | none => exact h
    | some addr =>
      simp only
      split
      . exact h
      . exact hset _ extAdvSetRandomAddr others a rfl
  | setAdvData d others a =>
    cases d with
    | none => exact h
    | some d => exact hstart _ extAdvSetAdvData others a rfl
  | setScanResponseData d others a =>
    cases d with
    | none => exact h
    | some d => exact hstart _ extAdvSetScanRspData others a rfl
  | setMultiParam v others a =>
    have hgave := hvalues.multiGive hok
    exact h.setMultiParam v hgave.gives hgave.flags
  | settingRsp success => exact h.settingRsp success hpossible hok
  | nextMessage accepted => exact h.nextMessage accepted hpossible hok
  | advState newState cause => exact h.advState newState cause
  | connected => exact h.connected hpossible

theorem init_given (hi : i.param.Short) :
    ∃ r : Managed × Nat, Gave i.blank r ∧ initAdvParamsAll i =
      { r.1 with items := r.2, set := { r.1.set with initFlags := r.2 } } := by
  have hstart : Gave i.blank (giveParam i.param false i.blank, extAdvSetAdvParas) :=
    ⟨rfl, Nat.or_self _, rfl,
      ⟨⟨fun _ hgiven => Option.mem_some_iff.mp hgiven ▸ AdvParam.agrees_store hi _, nofun, nofun,
        nofun⟩, AdvParam.short_store _ _⟩⟩
  unfold initAdvParamsAll
  refine ⟨_, ?_, rfl⟩
  have hrandom : ∀ r, Gave i.blank r → Gave i.blank (if usesRandom i.param then
      giveIf giveRandom extAdvSetRandomAddr i.randomAddress r else r) := by
    intro r hr
    split
    . exact hr.giveRandom i.randomAddress
    . exact hr
  have hadv : ∀ r, Gave i.blank r → Gave i.blank
      (if i.param.advEventProp &&& gapExtAdvEvtPropDirectedAdv = 0 then
        giveIf giveAdvData extAdvSetAdvData i.advData r else r) := by
    intro r hr
    split
    . exact hr.giveAdvData i.advData
    . exact hr
  have hscan : ∀ r, Gave i.blank r → Gave i.blank
      (if i.param.advEventProp &&& gapExtAdvEvtPropScannableAdv ≠ 0 then
        giveIf giveScanResponseData extAdvSetScanRspData i.scanData r else r) := by
    intro r hr
    split
    . exact hr.giveScanResponseData i.scanData
    . exact hr
  exact hscan _ (hadv _ (hrandom _ hstart))

theorem order_init (hi : i.param.Short) : Order (initAdvParamsAll i) := by
  obtain ⟨r, hgave, hinit⟩ := init_given hi
  rw [hinit, hgave.gives]
  exact ⟨⟨nofun, nofun⟩, nofun, fun _ => rfl, fun hor => hor.elim nofun nofun,
    .inr (.inr trivial)⟩

theorem values_init (hi : i.param.Short) : Values (initAdvParamsAll i) := by
  obtain ⟨r, hgave, hinit⟩ := init_given hi
  rw [hinit]
  exact hgave.values.keeps ⟨rfl, rfl⟩

theorem run_sound (i : Init) (ops : List Op) (hi : i.param.Short)
    (hok : Run.Along step OkStep (initAdvParamsAll i) ops) :
    Sound (run (initAdvParamsAll i) ops) := by
  have hstep : ∀ m op, Order m ∧ Values m → OkStep m op → Order (step m op) ∧ Values (step m op) :=
    fun m op hm h => ⟨hm.1.step hm.2 h.1 h.2, hm.2.step h.2⟩
  have hinv : Order (run (initAdvParamsAll i) ops) ∧ Values (run (initAdvParamsAll i) ops) :=
    Run.exec_inv hstep _ ops ⟨order_init hi, values_init hi⟩ hok
  exact ⟨hinv.2.agree, hinv.1.started⟩

def plainInit : Init where
  advHandle := 0
  param :=
    { advEventProp := 0, advIntervalMin := 0x20, advIntervalMax := 0x20
      primaryAdvChannelMap := 7, ownAddressType := 0, peerAddressType := 0, peerAddress := none
      filterPolicy := 0, advTxPower := 127, primaryAdvPhy := 1, secondaryAdvMaxSkip := 0
      secondaryAdvPhy := 1, advSid := 0 }
  advData := some (3, 0)
  scanData := none
  randomAddress := none

def accepting : Answers := ⟨true, true, true, true, true, true, true⟩

theorem run_sound_enable :
    plainInit.param.Short ∧
      Sound (run (initAdvParamsAll plainInit)
        [.enable 0 false accepting, .settingRsp true, .nextMessage true]) ∧
      (run (initAdvParamsAll plainInit)
        [.enable 0 false accepting, .settingRsp true, .nextMessage true]).started = true := by
  have hshort : plainInit.param.Short := ⟨by decide, by decide⟩
  refine ⟨hshort, run_sound plainInit _ hshort ⟨⟨trivial, ?_⟩, ⟨rfl, ?_⟩, ⟨rfl, ?_⟩, trivial⟩, rfl⟩
  . exact fun _ _ => .inl ⟨rfl, rfl⟩
  . exact fun _ _ => rfl
  . exact nofun

theorem not_run_sound :
    ¬ (∀ i ops, Run.Along step PossibleStep (initAdvParamsAll i) ops →
        Agree (run (initAdvParamsAll i) ops)) ∧
      ¬ ∀ i ops, Run.Along step PossibleStep (initAdvParamsAll i) ops →
        (run (initAdvParamsAll i) ops).started = true →
          (run (initAdvParamsAll i) ops).done = true := by
  refine ⟨fun h => ?_, fun h => ?_⟩
  . have hagree := h plainInit [.setMultiParam ⟨none, 0x40, none, none⟩ false accepting]
      ⟨trivial, trivial⟩
    have hvalues := (hagree.param _ rfl).values
    exact absurd (congrArg AdvParam.advIntervalMin hvalues) (by decide)
  . have hdone := h plainInit
      [.enable 0 false accepting, .settingRsp false, .nextMessage true]
      ⟨trivial, rfl, rfl, trivial⟩ rfl
    exact absurd hdone (by decide)

end

end ExtAdvParams
