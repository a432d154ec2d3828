import Earphone.Lib.Run
import Mathlib.Tactic.Common

/-!
This module contains the preferred parameters of a connection.
-/

namespace BleConn

structure ConnParam where
  connIntervalMin : UInt16
  connIntervalMax : UInt16
  connLatency : UInt16
  supervisionTimeout : UInt16
  deriving DecidableEq

inductive UpdateState where
  | idle
  | req
  | pending
  | reqToIdle
  deriving DecidableEq

structure Link where
  preferParamSet : Bool
  connected : Bool
  state : UpdateState
  currParam : ConnParam
  preferParam : ConnParam

structure LeUpdate where
  param : ConnParam
  ceLengthMin : UInt16
  ceLengthMax : UInt16

inductive Status where
  | success
  | fail
  | pending
  deriving DecidableEq

structure UpdateInfo where
  status : Status
  rejected : Bool
  connInterval : UInt16
  connLatency : UInt16
  supervisionTimeout : UInt16

def UpdateInfo.currParam (info : UpdateInfo) : ConnParam where
  connIntervalMin := info.connInterval
  connIntervalMax := info.connInterval
  connLatency := info.connLatency
  supervisionTimeout := info.supervisionTimeout

namespace Link

variable (l : Link)

def Satisfied (curr prefer : ConnParam) : Prop :=
  curr.connLatency = prefer.connLatency ∧ curr.supervisionTimeout = prefer.supervisionTimeout ∧
    prefer.connIntervalMin ≤ curr.connIntervalMin ∧
    curr.connIntervalMin ≤
      (if prefer.connIntervalMax < 0x18 then 0x18 else prefer.connIntervalMax)
  deriving Decidable

def compareConnUpdateParam : Bool :=
  l.preferParamSet && !decide (Satisfied l.currParam l.preferParam)

def checkConnUpdateParam (accepted : Bool) : Link × Option LeUpdate × Bool :=
  if l.state = .idle ∧ l.compareConnUpdateParam = true then
    let update : LeUpdate :=
      { param := l.preferParam
        ceLengthMin := 2 * (l.preferParam.connIntervalMin - 1)
        ceLengthMax := 2 * (l.preferParam.connIntervalMax - 1) }
    (if accepted then { l with state := .req } else l, some update, accepted)
  else
    (l, none, false)

def updateInfo (info : UpdateInfo) : Link × Bool :=
  match info.status with
  | .success =>
    let state :=
      match l.state with
      | .pending => .idle
      | .req => .reqToIdle
      | s => s
    ({ l with currParam := info.currParam, state }, true)
  | .fail =>
    match l.state with
    | .pending => ({ l with state := .idle }, false)
    | .req =>
      ({ l with preferParamSet := l.preferParamSet && !info.rejected, state := .idle }, false)
    | _ => (l, false)
  | .pending =>
    match l.state with
    | .req => ({ l with state := .pending }, true)
    | .reqToIdle => ({ l with state := .idle }, true)
    | _ => (l, true)

def connect (currParam : ConnParam) : Link where
  preferParamSet := false
  connected := true
  state := .idle
  currParam := currParam
  preferParam := ⟨0, 0, 0, 0⟩

end Link

inductive Phase where
  | requested
  | pending
  | succeeded

def Phase.next : Phase → Status → Option (Option Phase)
  | .requested, .success => some (some .succeeded)
  | .requested, .pending => some (some .pending)
  | .requested, .fail => some none
  | .pending, .success => some none
  | .pending, .fail => some none
  | .pending, .pending => none
  | .succeeded, .pending => some none
  | .succeeded, _ => none

def Phase.state : Phase → UpdateState
  | .requested => .req
  | .pending => .pending
  | .succeeded => .reqToIdle

structure Request where
  update : LeUpdate
  phase : Phase

structure World where
  link : Link
  requests : List Request
  accepted : Option ConnParam
  failed : Bool

inductive Op where
  | setPrefer (param : ConnParam) (answer : Bool)
  | remote (info : UpdateInfo) (answer : Bool)
  | ours (info : UpdateInfo) (answer : Bool)

namespace World

variable (w : World)

def connect (currParam : ConnParam) : World where
  link := Link.connect currParam
  requests := []
  accepted := none
  failed := false

def check (answer : Bool) : World :=
  match w.link.checkConnUpdateParam answer with
  | (link, some update, true) =>
    { w with link, requests := w.requests ++ [{ update, phase := .requested }] }
  | (link, some _, false) => { w with link, failed := true }
  | (link, none, _) => { w with link }

def handleConnUpdateInfo (info : UpdateInfo) (answer : Bool) : World :=
  let r := w.link.updateInfo info
  let w := { w with link := r.1 }
  if r.2 then w.check answer else w

def setPreferConnParam (param : ConnParam) (answer : Bool) : World × Bool :=
  if w.link.connected then
    let link := { w.link with preferParamSet := true, preferParam := param }
    (check { w with link, accepted := some param, failed := false } answer, true)
  else
    (w, false)

def report (info : UpdateInfo) : Option World :=
  match w.requests with
  | [] => none
  | r :: rest => do
    let next ← Phase.next r.phase info.status
    return { w with
      requests := (next.map fun phase => { r with phase }).toList ++ rest
      failed := w.failed || (info.status == .fail && decide (w.accepted = some r.update.param)) }

def step : Op → World
  | .setPrefer param answer => (w.setPreferConnParam param answer).1
  | .remote info answer => w.handleConnUpdateInfo info answer
  | .ours info answer =>
    match w.report info with
    | some w => w.handleConnUpdateInfo info answer
    | none => w

structure Kept : Prop where
  single : w.requests.length ≤ 1
  idle : w.link.state = .idle ↔ w.requests = []
  met : w.link.state = .idle → ∀ param ∈ w.accepted,
    Link.Satisfied w.link.currParam param ∨ w.failed = true

def Taken : UpdateState → Status → Prop
  | .idle, _ => False
  | .req, _ => True
  | .pending, status => status ≠ .pending
  | .reqToIdle, status => status = .pending

instance : (state : UpdateState) → (status : Status) → Decidable (Taken state status)
  | .idle, _ => inferInstanceAs (Decidable False)
  | .req, _ => inferInstanceAs (Decidable True)
  | .pending, _ => inferInstanceAs (Decidable (_ ≠ _))
  | .reqToIdle, _ => inferInstanceAs (Decidable (_ = _))

def Safe : Op → Prop
  | .setPrefer .. => True
  | .remote info _ => ¬Taken w.link.state info.status
  | .ours info _ =>
    info.status = .fail → ∀ r ∈ w.requests.head?,
      w.accepted = some r.update.param ∨
        (Link.Satisfied w.link.currParam w.link.preferParam ∧
          ¬(w.link.state = .req ∧ info.rejected = true))

instance : (op : Op) → Decidable (w.Safe op)
  | .setPrefer .. => .isTrue trivial
  | .remote .. => inferInstanceAs (Decidable (¬_))
  | .ours .. => inferInstanceAs (Decidable (_ → _))

def Matches : UpdateState → List Request → Prop
  | .idle, requests => requests = []
  | .req, requests => ∃ update, requests = [⟨update, .requested⟩]
  | .pending, requests => ∃ update, requests = [⟨update, .pending⟩]
  | .reqToIdle, requests => ∃ update, requests = [⟨update, .succeeded⟩]

structure Ready : Prop where
  matched : Matches w.link.state w.requests
  prefer : ∀ param ∈ w.accepted, param = w.link.preferParam
  unset : w.link.preferParamSet = false → ∀ param ∈ w.accepted, w.failed = true

structure Inv : Prop extends w.Ready where
  met : w.link.state = .idle → ∀ param ∈ w.accepted,
    Link.Satisfied w.link.currParam param ∨ w.failed = true

variable {w} {w' : World} {answer : Bool} {info : UpdateInfo} {param : ConnParam}

theorem Matches.idle_iff {state : UpdateState} {requests : List Request}
    (h : Matches state requests) : state = .idle ↔ requests = [] := by
  cases state with
  | idle => exact iff_of_true rfl h
  | req | pending | reqToIdle =>
    obtain ⟨update, rfl⟩ := h
    exact iff_of_false nofun nofun

theorem Matches.single {state : UpdateState} {requests : List Request}
    (h : Matches state requests) : requests.length ≤ 1 := by
  cases state with
  | idle =>
    obtain rfl : requests = [] := h
    exact Nat.zero_le 1
  | req | pending | reqToIdle =>
    obtain ⟨update, rfl⟩ := h
    exact Nat.le_refl 1

theorem Inv.kept (h : w.Inv) : w.Kept := ⟨h.matched.single, h.matched.idle_iff, h.met⟩

theorem Ready.check (h : w.Ready) (answer : Bool) : (w.check answer).Inv := by
  unfold World.check Link.checkConnUpdateParam
  by_cases hask : w.link.state = .idle ∧ w.link.compareConnUpdateParam = true
  . rw [if_pos hask]
    have hrequests : w.requests = [] := h.matched.idle_iff.mp hask.1
    cases answer with
    | true =>
      refine ⟨⟨?_, h.prefer, h.unset⟩, nofun⟩
      dsimp only
      rw [hrequests]
      exact ⟨_, rfl⟩
    | false =>
      exact ⟨⟨h.matched, h.prefer, fun _ _ _ => rfl⟩, fun _ _ _ => .inr rfl⟩
  . rw [if_neg hask]
    refine ⟨h, fun hidle param hparam => ?_⟩
    dsimp only at hidle ⊢
    cases hset : w.link.preferParamSet with
    | false => exact .inr (h.unset hset param hparam)
    | true =>
      left
      rw [h.prefer param hparam]
      by_contra hnot
      exact hask ⟨hidle, by simp [Link.compareConnUpdateParam, hset, hnot]⟩

theorem Inv.setPreferConnParam (h : w.Inv) (param : ConnParam) (answer : Bool) :
    (w.setPreferConnParam param answer).1.Inv := by
  unfold World.setPreferConnParam
  split
  . have hready : Ready { w with
        link := { w.link with preferParamSet := true, preferParam := param }
        accepted := some param
        failed := false } := by
      refine ⟨h.matched, fun param' hparam => (Option.some.inj hparam).symm, fun hset => ?_⟩
      simp at hset
    exact hready.check answer
  . exact h

theorem handle_check (h : w.link.updateInfo info = (l, true)) :
    w.handleConnUpdateInfo info answer = check { w with link := l } answer := by
  unfold handleConnUpdateInfo
  rw [h]
  rfl

theorem handle_no_check (h : w.link.updateInfo info = (l, false)) :
    w.handleConnUpdateInfo info answer = { w with link := l } := by
  unfold handleConnUpdateInfo
  rw [h]
  rfl

theorem updateInfo_not_taken {l : Link} (h : ¬Taken l.state info.status) : l.updateInfo info =
    match info.status with
    | .success => ({ l with currParam := info.currParam }, true)
    | .fail => (l, false)
    | .pending => (l, true) := by
  obtain ⟨preferParamSet, connected, state, currParam, preferParam⟩ := l
  unfold Link.updateInfo
  cases hstatus : info.status <;> rw [hstatus] at h <;> cases state <;>
    first | rfl | exact absurd trivial h | exact absurd rfl h | exact absurd nofun h

theorem Inv.remote (h : w.Inv) (hsafe : ¬Taken w.link.state info.status) :
    (w.handleConnUpdateInfo info answer).Inv := by
  have hsame := updateInfo_not_taken hsafe
  cases hstatus : info.status with
  | success =>
    rw [hstatus] at hsame
    rw [handle_check hsame]
    have hready : Ready { w with link := { w.link with currParam := info.currParam } } :=
      ⟨h.matched, h.prefer, h.unset⟩
    exact hready.check answer
  | fail =>
    rw [hstatus] at hsame
    rw [handle_no_check hsame]
    exact h
  | pending =>
    rw [hstatus] at hsame
    rw [handle_check hsame]
    exact h.check answer

theorem Matches.phase {state : UpdateState} {requests : List Request} {r : Request}
    {rest : List Request} (h : Matches state requests) (hr : requests = r :: rest) :
    state = r.phase.state ∧ rest = [] := by
  cases state with
  | idle =>
    rw [hr] at h
    cases h
  | req | pending | reqToIdle =>
    obtain ⟨update, hone⟩ := h
    rw [hr] at hone
    obtain ⟨rfl, rfl⟩ := List.cons.inj hone
    exact ⟨rfl, rfl⟩

theorem matches_phase {r : Request} : Matches r.phase.state [r] := by
  obtain ⟨update, phase⟩ := r
  cases phase <;> exact ⟨update, rfl⟩

theorem updateInfo_ours {l : Link} {phase : Phase} {next : Option Phase}
    (hstate : l.state = phase.state) (hnext : Phase.next phase info.status = some next)
    (hfail : info.status ≠ .fail) : ∃ currParam, l.updateInfo info =
      ({ l with currParam, state := (next.map Phase.state).getD .idle }, true) := by
  obtain ⟨preferParamSet, connected, state, currParam, preferParam⟩ := l
  unfold Link.updateInfo
  cases hstatus : info.status <;> rw [hstatus] at hnext hfail <;> cases phase <;> cases hnext <;>
    cases hstate <;> first | exact ⟨_, rfl⟩ | exact absurd rfl hfail

theorem updateInfo_fail {l : Link} {phase : Phase} {next : Option Phase}
    (hstate : l.state = phase.state) (hnext : Phase.next phase info.status = some next)
    (hfail : info.status = .fail) : next = none ∧ ∃ preferParamSet, l.updateInfo info =
      ({ l with preferParamSet, state := .idle }, false) ∧
      (preferParamSet = l.preferParamSet ∨ l.state = .req ∧ info.rejected = true) := by
  obtain ⟨preferParamSet, connected, state, currParam, preferParam⟩ := l
  unfold Link.updateInfo
  rw [hfail] at hnext ⊢
  cases phase <;> cases hnext <;> cases hstate
  . refine ⟨rfl, _, rfl, ?_⟩
    cases hrejected : info.rejected with
    | false => exact .inl (Bool.and_true _)
    | true => exact .inr ⟨rfl, rfl⟩
  . exact ⟨rfl, _, rfl, .inl rfl⟩

theorem report_cases (h : w.Inv) (hreport : w.report info = some w') : ∃ r next,
    w.requests = [r] ∧ w.link.state = r.phase.state ∧ Phase.next r.phase info.status = some next ∧
    w'.link = w.link ∧ w'.accepted = w.accepted ∧
    w'.failed = (w.failed || (info.status == .fail && decide (w.accepted = some r.update.param))) ∧
    w'.requests = (next.map fun phase => { r with phase }).toList := by
  unfold report at hreport
  cases hrequests : w.requests with
  | nil =>
    rw [hrequests] at hreport
    cases hreport
  | cons r rest =>
    rw [hrequests] at hreport
    obtain ⟨hstate, rfl⟩ := h.matched.phase hrequests
    obtain ⟨next, hnext, hw'⟩ := Option.bind_eq_some_iff.mp hreport
    obtain rfl := Option.some.inj hw'
    exact ⟨r, next, rfl, hstate, hnext, rfl, rfl, rfl, List.append_nil _⟩

theorem Inv.oursFail (h : w.Inv) (hsafe : w.Safe (.ours info answer))
    (hreport : w.report info = some w') (hfail : info.status = .fail) :
    (w'.handleConnUpdateInfo info answer).Inv := by
  obtain ⟨r, next, hrequests, hstate, hnext, hlink, haccepted, hfailed, hnow⟩ :=
    report_cases h hreport
  obtain ⟨rfl, preferParamSet, hupdate, hset⟩ := updateInfo_fail hstate hnext hfail
  have hsafe := hsafe hfail r (by rw [hrequests]; rfl)
  have hfailed : w'.failed = true ↔ w.failed = true ∨ w.accepted = some r.update.param := by
    rw [hfailed, hfail]
    simp
  rw [← hlink] at hupdate
  rw [handle_no_check hupdate]
  refine ⟨⟨hnow, ?_, fun hunset param hparam => ?_⟩, fun _ param hparam => ?_⟩
  . dsimp only
    rw [haccepted, hlink]
    exact h.prefer
  . dsimp only at hunset hparam ⊢
    rw [haccepted] at hparam
    rw [hfailed]
    obtain hsame | ⟨-, hkept⟩ := hsafe
    . exact .inr hsame
    . obtain hset | hrejected := hset
      . exact .inl (h.unset (hset.symm.trans hunset) param hparam)
      . exact absurd hrejected hkept
  . dsimp only at hparam ⊢
    rw [haccepted] at hparam
    rw [hfailed, hlink]
    obtain hsame | ⟨hsatisfied, -⟩ := hsafe
    . exact .inr (.inr hsame)
    . rw [h.prefer param hparam]
      exact .inl hsatisfied

theorem Inv.oursGood (h : w.Inv) (hreport : w.report info = some w')
    (hfail : info.status ≠ .fail) : (w'.handleConnUpdateInfo info answer).Inv := by
  obtain ⟨r, next, -, hstate, hnext, hlink, haccepted, hfailed, hnow⟩ := report_cases h hreport
  obtain ⟨currParam, hupdate⟩ := updateInfo_ours hstate hnext hfail
  have hfailed : w'.failed = w.failed := by
    rw [hfailed]
    simp [hfail]
  rw [← hlink] at hupdate
  rw [handle_check hupdate]
  refine Ready.check ⟨?_, ?_, ?_⟩ answer
  . dsimp only
    rw [hnow]
    cases next with
    | none => rfl
    | some phase => exact @matches_phase { r with phase }
  . dsimp only
    rw [haccepted, hlink]
    exact h.prefer
  . dsimp only
    rw [haccepted, hlink, hfailed]
    exact h.unset

theorem Inv.step (h : w.Inv) (hsafe : w.Safe op) : (w.step op).Inv := by
  cases op with
  | setPrefer param answer => exact h.setPreferConnParam param answer
  | remote info answer => exact h.remote hsafe
  | ours info answer =>
    have hstep : w.step (.ours info answer) = match w.report info with
        | some w => w.handleConnUpdateInfo info answer
        | none => w := rfl
    rw [hstep]
    cases hreport : w.report info with
    | none => exact h
    | some w' =>
      by_cases hfail : info.status = .fail
      . exact h.oursFail hsafe hreport hfail
      . exact h.oursGood hreport hfail

theorem ble_conn_kept (currParam : ConnParam) (ops : List Op)
    (hsafe : Run.Along World.step Safe (connect currParam) ops) :
    (Run.exec World.step (connect currParam) ops).Kept := by
  have hinv : (connect currParam).Inv := ⟨⟨rfl, nofun, fun _ _ hparam => nomatch hparam⟩, nofun⟩
  exact (Run.exec_inv (fun w op hw hop => hw.step hop) _ ops hinv hsafe).kept

theorem ble_conn_kept_two :
    (Run.exec World.step (connect ⟨40, 40, 0, 500⟩) [
      .setPrefer ⟨12, 24, 0, 500⟩ true,
      .ours ⟨.success, false, 24, 0, 500⟩ true,
      .setPrefer ⟨80, 100, 4, 500⟩ true,
      .ours ⟨.pending, false, 24, 0, 500⟩ true,
      .ours ⟨.pending, false, 24, 0, 500⟩ true,
      .ours ⟨.success, false, 90, 4, 500⟩ true]).Kept :=
  ble_conn_kept ⟨40, 40, 0, 500⟩ _ (by decide)

theorem not_ble_conn_kept :
    ¬(Run.exec World.step (connect ⟨40, 40, 0, 500⟩) [
      .setPrefer ⟨12, 24, 0, 500⟩ true,
      .setPrefer ⟨80, 100, 4, 500⟩ true,
      .ours ⟨.fail, true, 40, 0, 500⟩ true]).Kept ∧
    (Run.exec World.step (connect ⟨40, 40, 0, 500⟩) [
      .setPrefer ⟨12, 24, 0, 500⟩ true,
      .remote ⟨.success, false, 60, 0, 500⟩ true,
      .ours ⟨.pending, false, 60, 0, 500⟩ true]).requests.length = 2 := by
  refine ⟨fun h => ?_, by decide⟩
  exact absurd (h.met (by decide) ⟨80, 100, 4, 500⟩ (by decide)) (by decide)

end World

end BleConn
