import Earphone.BleMgr.ScanParam
import Earphone.Lib.Always
import Mathlib.Data.List.Chain

namespace BleScan

open List

inductive ScanAction where
  | stoped
  | started
  | pause
  deriving DecidableEq

inductive ScanUpdate where
  | idle
  | req
  | stop
  | start
  deriving DecidableEq

inductive GapScanState where
  | idle
  | start
  | scanning
  | stop
  deriving DecidableEq

structure ScanClient where
  hdl : Nat
  param : ScanParam

structure Scanner where
  scanUpdate : ScanUpdate
  scanAction : ScanAction
  scanState : GapScanState
  queue : List ScanClient
  param : ScanParam
  gapScanState : GapScanState
  inUse : ScanParam
  reports : List GapScanState

inductive ScanOp where
  | start (param : ScanParam) (memory : Option Nat)
  | setParam (hdl : Nat) (param : ScanParam)
  | stop (hdl : Nat)
  | pause
  | resume
  | settle
  | ended
  | report

namespace Scanner

variable (w : Scanner)

def init : Scanner where
  scanUpdate := .idle
  scanAction := .stoped
  scanState := .idle
  queue := []
  param := .zero
  gapScanState := .idle
  inUse := .zero
  reports := []

def enter (gapScanState : GapScanState) : Scanner :=
  { w with gapScanState, reports := w.reports ++ [gapScanState] }

def scanStart : Scanner := enter { w with inUse := w.param } .start

def scanStop : Scanner := w.enter .stop

def checkState : Scanner :=
  match w.gapScanState with
  | .scanning =>
    if w.scanAction = .started then
      match w.scanUpdate with
      | .req =>
        let w := w.scanStop
        { w with scanUpdate := .stop }
      | .start => { w with scanUpdate := .idle }
      | _ => w
    else
      w.scanStop
  | .idle =>
    if w.scanAction = .started then
      let w := w.scanStart
      if w.scanUpdate = .stop then { w with scanUpdate := .start } else w
    else
      w
  | _ => w

def params : List ScanParam := w.queue.map (·.param)

def paramUpdate : Scanner :=
  let scanParam := ScanParam.mergeAll w.params
  if w.param = scanParam then
    w
  else
    let w := { w with param := scanParam }
    if w.scanAction = .started ∧ (w.gapScanState = .scanning ∨ w.gapScanState = .start) then
      { w with scanUpdate := .req }
    else
      w

def start (param : ScanParam) (memory : Option Nat) : Scanner :=
  match memory with
  | some hdl =>
    let client : ScanClient := { hdl, param }
    let w := { w with queue := w.queue ++ [client] }
    let w := if w.scanAction ≠ .pause then { w with scanAction := .started } else w
    w.paramUpdate.checkState
  | none => w

def setParamByHdl (hdl : Nat) (param : ScanParam) : Scanner :=
  if w.queue.any (·.hdl == hdl) then
    let queue := w.queue.map fun c => if c.hdl = hdl then { c with param } else c
    (paramUpdate { w with queue }).checkState
  else
    w

def stop (hdl : Nat) : Scanner :=
  if w.queue.any (·.hdl == hdl) then
    let w := { w with queue := w.queue.eraseP (·.hdl == hdl) }
    let w :=
      if w.queue.length = 0 then
        if w.scanAction ≠ .pause then { w with scanAction := .stoped } else w
      else
        w.paramUpdate
    w.checkState
  else
    w

def resume : Scanner :=
  if w.scanAction = .pause then
    let w :=
      if w.queue.length = 0 then { w with scanAction := .stoped }
      else { w with scanAction := .started }
    w.checkState
  else
    w

def pause : Scanner :=
  if w.scanAction ≠ .pause then checkState { w with scanAction := .pause } else w

def handleState (gapScanState : GapScanState) : Scanner :=
  if w.scanState = gapScanState then w
  else checkState { w with scanState := gapScanState }

def step : ScanOp → Scanner
  | .start param memory => w.start param memory
  | .setParam hdl param => w.setParamByHdl hdl param
  | .stop hdl => w.stop hdl
  | .pause => w.pause
  | .resume => w.resume
  | .settle =>
    match w.gapScanState with
    | .start => w.enter .scanning
    | .stop => w.enter .idle
    | _ => w
  | .ended => if w.gapScanState = .scanning then w.enter .idle else w
  | .report =>
    match w.reports with
    | gapScanState :: reports => handleState { w with reports } gapScanState
    | [] => w

def Steady : Prop := w.gapScanState = .scanning ∧ w.reports = [] ∧ w.scanUpdate = .idle

def Kept : Prop :=
  w.Steady → w.queue ≠ [] ∧ w.scanAction ≠ .pause ∧ w.inUse = ScanParam.mergeAll w.params

def Merged : Prop :=
  w.queue ≠ [] → ScanParam.Covers w.params w.param ∧
    ∀ ps, ps.Perm w.params → ScanParam.Alike (ScanParam.mergeAll ps) w.param

def UpToDate : Prop :=
  w.gapScanState = .start ∨ w.gapScanState = .scanning → w.inUse = w.param ∨ w.scanUpdate = .req

def Safe : ScanOp → Prop
  | .resume => w.scanAction = .pause → w.queue ≠ [] → w.UpToDate
  | .start param (some _) => w.scanAction = .stoped → param = w.param → w.UpToDate
  | _ => True

instance : Decidable w.UpToDate := inferInstanceAs (Decidable (_ → _))

instance : (op : ScanOp) → Decidable (w.Safe op)
  | .resume => inferInstanceAs (Decidable (_ → _ → _))
  | .start _ (some _) => inferInstanceAs (Decidable (_ → _ → _))
  | .start _ none | .setParam .. | .stop _ | .pause | .settle | .ended | .report => .isTrue trivial

structure Inv : Prop where
  chain : (w.scanState :: w.reports).IsChain (· ≠ ·)
  last : (w.scanState :: w.reports).getLast? = some w.gapScanState
  started : w.scanAction = .started → w.queue ≠ []
  stoped : w.scanAction = .stoped → w.queue = []
  merged : w.queue ≠ [] → w.param = ScanParam.mergeAll w.params
  settled : w.gapScanState = .scanning → w.reports = [] →
    w.scanAction = .started ∧ w.scanUpdate ≠ .req

def Current : Prop := w.scanAction = .started → w.UpToDate

structure Base : Prop where
  chain : (w.scanState :: w.reports).IsChain (· ≠ ·)
  last : (w.scanState :: w.reports).getLast? = some w.gapScanState
  started : w.scanAction = .started → w.queue ≠ []
  stoped : w.scanAction = .stoped → w.queue = []
  merged : w.queue ≠ [] → w.param = ScanParam.mergeAll w.params

variable {w}

structure Checked (w w' : Scanner) : Prop where
  queue : w'.queue = w.queue
  action : w'.scanAction = w.scanAction
  param : w'.param = w.param
  scanState : w'.scanState = w.scanState
  stack : w'.gapScanState = w.gapScanState ∧ w'.reports = w.reports ∧ w'.inUse = w.inUse ∧
      (w'.scanUpdate = w.scanUpdate ∨ w.gapScanState = .scanning ∧ w.scanUpdate = .start) ∨
    w.gapScanState = .scanning ∧ w'.gapScanState = .stop ∧ w'.reports = w.reports ++ [.stop] ∨
    w.gapScanState = .idle ∧ w'.gapScanState = .start ∧ w'.reports = w.reports ++ [.start] ∧
      w'.inUse = w.param

theorem checkState_checked : Checked w w.checkState := by
  unfold checkState
  cases hgap : w.gapScanState with
  | start | stop => exact ⟨rfl, rfl, rfl, rfl, .inl ⟨rfl, rfl, rfl, .inl rfl⟩⟩
  | scanning =>
    dsimp only
    split
    . cases hupdate : w.scanUpdate with
      | req => exact ⟨rfl, rfl, rfl, rfl, .inr (.inl ⟨hgap, rfl, rfl⟩)⟩
      | start =>
        exact ⟨rfl, rfl, rfl, rfl, .inl ⟨hgap.symm, rfl, rfl, .inr ⟨hgap, hupdate⟩⟩⟩
      | idle | stop => exact ⟨rfl, rfl, rfl, rfl, .inl ⟨rfl, rfl, rfl, .inl rfl⟩⟩
    . exact ⟨rfl, rfl, rfl, rfl, .inr (.inl ⟨hgap, rfl, rfl⟩)⟩
  | idle =>
    dsimp only
    split
    . split <;> exact ⟨rfl, rfl, rfl, rfl, .inr (.inr ⟨hgap, rfl, rfl, rfl⟩)⟩
    . exact ⟨rfl, rfl, rfl, rfl, .inl ⟨rfl, rfl, rfl, .inl rfl⟩⟩

theorem checkState_settled (h : w.checkState.gapScanState = .scanning) :
    w.checkState.scanAction = .started ∧ w.checkState.scanUpdate ≠ .req := by
  revert h
  unfold checkState
  cases hgap : w.gapScanState with
  | start | stop =>
    intro h
    dsimp only at h
    rw [hgap] at h
    cases h
  | scanning =>
    dsimp only
    split
    . next hstarted =>
      cases hupdate : w.scanUpdate with
      | req => exact nofun
      | start => exact fun _ => ⟨hstarted, nofun⟩
      | idle | stop =>
        refine fun _ => ⟨hstarted, ?_⟩
        dsimp only
        rw [hupdate]
        nofun
    . exact nofun
  | idle =>
    dsimp only
    split
    . split <;> exact nofun
    . intro h
      rw [hgap] at h
      cases h

theorem chain_concat (hchain : l.IsChain (· ≠ ·))
    (hlast : l.getLast? = some s) (hne : s ≠ t) : (l ++ [t]).IsChain (· ≠ ·) := by
  refine isChain_append.mpr ⟨hchain, isChain_singleton t, fun a ha b hb => ?_⟩
  rw [hlast] at ha
  obtain rfl := Option.some.inj ha
  obtain rfl := Option.some.inj hb
  exact hne

theorem Base.reports {w' : Scanner} {t : GapScanState} (h : w.Base) (hqueue : w'.queue = w.queue)
    (haction : w'.scanAction = w.scanAction) (hparam : w'.param = w.param)
    (hscan : w'.scanState = w.scanState) (hgap : w'.gapScanState = t)
    (hreports : w'.reports = w.reports ++ [t]) (hne : w.gapScanState ≠ t) : w'.Base where
  chain := by
    rw [hscan, hreports, ← cons_append]
    exact chain_concat h.chain h.last hne
  last := by
    rw [hscan, hreports, ← cons_append, getLast?_concat, hgap]
  started := by
    rw [haction, hqueue]
    exact h.started
  stoped := by
    rw [haction, hqueue]
    exact h.stoped
  merged := by
    unfold params
    rw [hparam, hqueue]
    exact h.merged

theorem Base.checkState (h : w.Base) : w.checkState.Inv := by
  have hbase : w.checkState.Base := by
    obtain ⟨hqueue, haction, hparam, hscan, hstack⟩ := @checkState_checked w
    obtain ⟨hgap, hreports, -, -⟩ | ⟨hwas, hgap, hreports⟩ | ⟨hwas, hgap, hreports, -⟩ := hstack
    . refine ⟨?_, ?_, ?_, ?_, ?_⟩
      . rw [hscan, hreports]
        exact h.chain
      . rw [hscan, hreports, hgap]
        exact h.last
      . rw [haction, hqueue]
        exact h.started
      . rw [haction, hqueue]
        exact h.stoped
      . unfold params
        rw [hparam, hqueue]
        exact h.merged
    . exact h.reports hqueue haction hparam hscan hgap hreports (by rw [hwas]; decide)
    . exact h.reports hqueue haction hparam hscan hgap hreports (by rw [hwas]; decide)
  exact ⟨hbase.chain, hbase.last, hbase.started, hbase.stoped, hbase.merged,
    fun hscanning _ => checkState_settled hscanning⟩

theorem Current.checkState (h : w.Current) : w.checkState.Current := by
  obtain ⟨-, haction, hparam, -, hstack⟩ := @checkState_checked w
  intro hstarted hrunning
  have hkept := h (haction.symm.trans hstarted)
  obtain ⟨hgap, -, huse, hupdate⟩ | ⟨-, hgap, -⟩ | ⟨-, -, -, huse⟩ := hstack
  . rw [hgap] at hrunning
    rw [huse, hparam]
    obtain hsame | hreq := hkept hrunning
    . exact .inl hsame
    . obtain hupdate | ⟨-, hstart⟩ := hupdate
      . exact .inr (hupdate.trans hreq)
      . rw [hreq] at hstart
        cases hstart
  . rw [hgap] at hrunning
    exact absurd hrunning (by decide)
  . exact .inl (huse.trans hparam.symm)

theorem paramUpdate_cases : (w.param = ScanParam.mergeAll w.params ∧ w.paramUpdate = w) ∨
    ∃ scanUpdate, w.paramUpdate = { w with param := ScanParam.mergeAll w.params, scanUpdate } ∧
      (w.scanAction = .started → w.gapScanState = .scanning ∨ w.gapScanState = .start →
        scanUpdate = .req) := by
  unfold paramUpdate
  dsimp only
  by_cases h : w.param = ScanParam.mergeAll w.params
  . rw [if_pos h]
    exact .inl ⟨h, rfl⟩
  . rw [if_neg h]
    refine .inr ?_
    split
    . exact ⟨.req, rfl, fun _ _ => rfl⟩
    . next hnot => exact ⟨w.scanUpdate, rfl, fun ha hg => absurd ⟨ha, hg⟩ hnot⟩

theorem base_paramUpdate (hchain : (w.scanState :: w.reports).IsChain (· ≠ ·))
    (hlast : (w.scanState :: w.reports).getLast? = some w.gapScanState)
    (hstarted : w.scanAction = .started → w.queue ≠ [])
    (hstoped : w.scanAction = .stoped → w.queue = []) : w.paramUpdate.Base := by
  obtain ⟨hparam, heq⟩ | ⟨scanUpdate, heq, -⟩ := @paramUpdate_cases w
  . rw [heq]
    exact ⟨hchain, hlast, hstarted, hstoped, fun _ => hparam⟩
  . rw [heq]
    exact ⟨hchain, hlast, hstarted, hstoped, fun _ => rfl⟩

theorem current_paramUpdate (h : w.param = ScanParam.mergeAll w.params → w.Current) :
    w.paramUpdate.Current := by
  obtain ⟨hparam, heq⟩ | ⟨scanUpdate, heq, hreq⟩ := @paramUpdate_cases w
  . rw [heq]
    exact h hparam
  . rw [heq]
    exact fun hstarted hrunning => .inr (hreq hstarted hrunning.symm)

theorem Inv.base (h : w.Inv) : w.Base := ⟨h.chain, h.last, h.started, h.stoped, h.merged⟩

theorem Inv.start (h : w.Inv) (param : ScanParam) (memory : Option Nat) :
    (w.start param memory).Inv := by
  unfold Scanner.start
  cases memory with
  | none => exact h
  | some hdl =>
    refine Base.checkState (base_paramUpdate ?_ ?_ ?_ ?_) <;> dsimp only <;> split
    . exact h.chain
    . exact h.chain
    . exact h.last
    . exact h.last
    . exact fun _ => append_ne_nil_of_right_ne_nil _ (cons_ne_nil _ _)
    . exact fun _ => append_ne_nil_of_right_ne_nil _ (cons_ne_nil _ _)
    . nofun
    . next hpause =>
      intro hstoped
      rw [not_not] at hpause
      rw [show w.scanAction = .stoped from hstoped] at hpause
      cases hpause

theorem Current.start (h : w.Current) (hinv : w.Inv) {param : ScanParam} {memory : Option Nat}
    (hsafe : w.Safe (.start param memory)) : (w.start param memory).Current := by
  unfold Scanner.start
  cases memory with
  | none => exact h
  | some hdl =>
    refine Current.checkState (current_paramUpdate ?_)
    dsimp only
    split
    . next hnot =>
      intro hparam _
      cases haction : w.scanAction with
      | pause => exact absurd haction hnot
      | started => exact h haction
      | stoped =>
        refine hsafe haction (Eq.symm ?_)
        have hqueue := hinv.stoped haction
        unfold params at hparam
        dsimp only at hparam
        rw [hqueue] at hparam
        exact hparam
    . next hpause =>
      intro _ hstarted
      rw [not_not] at hpause
      rw [show w.scanAction = .started from hstarted] at hpause
      cases hpause

theorem Inv.setParamByHdl (h : w.Inv) (hdl : Nat) (param : ScanParam) :
    (w.setParamByHdl hdl param).Inv := by
  unfold Scanner.setParamByHdl
  split
  . refine Base.checkState (base_paramUpdate h.chain h.last (fun hstarted => ?_) fun hstoped => ?_)
    . exact fun hnil => h.started hstarted (map_eq_nil_iff.mp hnil)
    . exact map_eq_nil_iff.mpr (h.stoped hstoped)
  . exact h

theorem Current.setParamByHdl (h : w.Current) (hdl : Nat) (param : ScanParam) :
    (w.setParamByHdl hdl param).Current := by
  unfold Scanner.setParamByHdl
  split
  . exact Current.checkState (current_paramUpdate fun _ => h)
  . exact h

theorem Inv.stop (h : w.Inv) (hdl : Nat) : (w.stop hdl).Inv := by
  unfold Scanner.stop
  split
  . next hany =>
    have hused : w.queue ≠ [] := fun hnil => by
      rw [hnil] at hany
      cases hany
    have hnot : w.scanAction ≠ .stoped := fun hstoped => hused (h.stoped hstoped)
    dsimp only
    refine Base.checkState ?_
    split
    . next hempty =>
      have hempty := eq_nil_of_length_eq_zero hempty
      split
      . exact ⟨h.chain, h.last, nofun, fun _ => hempty, fun hne => absurd hempty hne⟩
      . next hpause =>
        rw [not_not] at hpause
        refine ⟨h.chain, h.last, fun hstarted => ?_, fun _ => hempty, fun hne => absurd hempty hne⟩
        rw [show w.scanAction = .started from hstarted] at hpause
        cases hpause
    . next hne =>
      have hne : w.queue.eraseP (·.hdl == hdl) ≠ [] := fun hnil => hne (congrArg List.length hnil)
      exact base_paramUpdate h.chain h.last (fun _ => hne) fun hstoped => absurd hstoped hnot
  . exact h

theorem Current.stop (h : w.Current) (hdl : Nat) : (w.stop hdl).Current := by
  unfold Scanner.stop
  split
  . dsimp only
    refine Current.checkState ?_
    split
    . split
      . exact nofun
      . exact h
    . exact current_paramUpdate fun _ => h
  . exact h

theorem Inv.resume (h : w.Inv) : w.resume.Inv := by
  unfold Scanner.resume
  split
  . dsimp only
    refine Base.checkState ?_
    split
    . next hempty =>
      have hempty := eq_nil_of_length_eq_zero hempty
      exact ⟨h.chain, h.last, nofun, fun _ => hempty, h.merged⟩
    . next hne =>
      exact ⟨h.chain, h.last, fun _ hnil => hne (congrArg List.length hnil), nofun, h.merged⟩
  . exact h

theorem Current.resume (h : w.Current) (hsafe : w.Safe .resume) : w.resume.Current := by
  unfold Scanner.resume
  split
  . next hpause =>
    dsimp only
    refine Current.checkState ?_
    split
    . exact nofun
    . next hne => exact fun _ => hsafe hpause fun hnil => hne (congrArg List.length hnil)
  . exact h

theorem Inv.pause (h : w.Inv) : w.pause.Inv := by
  unfold Scanner.pause
  split
  . exact Base.checkState ⟨h.chain, h.last, nofun, nofun, h.merged⟩
  . exact h

theorem Current.pause (h : w.Current) : w.pause.Current := by
  unfold Scanner.pause
  split
  . exact Current.checkState nofun
  . exact h

theorem Inv.enter (h : w.Inv) (hne : w.gapScanState ≠ t) : (w.enter t).Inv := by
  have hbase : (w.enter t).Base := h.base.reports rfl rfl rfl rfl rfl rfl hne
  refine ⟨hbase.chain, hbase.last, hbase.started, hbase.stoped, hbase.merged, fun _ hnone => ?_⟩
  exact absurd hnone (append_ne_nil_of_right_ne_nil _ (cons_ne_nil _ _))

theorem Inv.step (h : w.Inv) (op : ScanOp) : (w.step op).Inv := by
  cases op with
  | start param memory => exact h.start param memory
  | setParam hdl param => exact h.setParamByHdl hdl param
  | stop hdl => exact h.stop hdl
  | pause => exact h.pause
  | resume => exact h.resume
  | settle =>
    unfold Scanner.step
    cases hgap : w.gapScanState with
    | start => exact h.enter (by rw [hgap]; decide)
    | stop => exact h.enter (by rw [hgap]; decide)
    | idle | scanning => exact h
  | ended =>
    unfold Scanner.step
    dsimp only
    split
    . next hgap => exact h.enter (by rw [hgap]; decide)
    . exact h
  | report =>
    unfold Scanner.step
    dsimp only
    cases hreports : w.reports with
    | nil => exact h
    | cons r rest =>
      have hchain := h.chain
      have hlast := h.last
      rw [hreports] at hchain hlast
      obtain ⟨hne, hchain⟩ := isChain_cons_cons.mp hchain
      rw [getLast?_cons_cons] at hlast
      unfold handleState
      dsimp only
      rw [if_neg hne]
      exact Base.checkState ⟨hchain, hlast, h.started, h.stoped, h.merged⟩

theorem Current.step (h : w.Current) (hinv : w.Inv) (hsafe : w.Safe op) : (w.step op).Current := by
  cases op with
  | start param memory => exact h.start hinv hsafe
  | setParam hdl param => exact h.setParamByHdl hdl param
  | stop hdl => exact h.stop hdl
  | pause => exact h.pause
  | resume => exact h.resume hsafe
  | settle =>
    unfold Scanner.step
    cases hgap : w.gapScanState with
    | start => exact fun hstarted _ => h hstarted (.inl hgap)
    | stop => exact fun _ hrunning => absurd hrunning (by simp [enter])
    | idle | scanning => exact h
  | ended =>
    unfold Scanner.step
    dsimp only
    split
    . exact fun _ hrunning => absurd hrunning (by simp [enter])
    . exact h
  | report =>
    unfold Scanner.step
    dsimp only
    cases hreports : w.reports with
    | nil => exact h
    | cons r rest =>
      unfold handleState
      dsimp only
      by_cases hsame : w.scanState = r
      . rw [if_pos hsame]
        exact h
      . rw [if_neg hsame]
        exact Current.checkState h

theorem Inv.merged_covers (h : w.Inv) : w.Merged := by
  intro hne
  have hparams : w.params ≠ [] := fun hnil => hne (map_eq_nil_iff.mp hnil)
  have hcovers := ScanParam.covers_mergeAll hparams
  rw [h.merged hne]
  refine ⟨hcovers, fun ps hperm => ?_⟩
  have hps : ps ≠ [] := fun hnil => hparams (by rw [hnil] at hperm; exact hperm.symm.eq_nil)
  exact (ScanParam.covers_mergeAll hps).alike hcovers hperm hps

theorem Inv.kept (h : w.Inv) (hcurrent : w.Current) : w.Kept := by
  rintro ⟨hgap, hreports, hidle⟩
  obtain ⟨hstarted, -⟩ := h.settled hgap hreports
  have hne := h.started hstarted
  refine ⟨hne, by rw [hstarted]; decide, ?_⟩
  obtain hsame | hreq := hcurrent hstarted (.inr hgap)
  . rw [hsame]
    exact h.merged hne
  . rw [hidle] at hreq
    cases hreq

theorem init_inv : init.Inv := ⟨isChain_singleton _, rfl, nofun, fun _ => rfl, nofun, nofun⟩

theorem ble_scan_params_merged (ops : List ScanOp) :
    Run.Always step Merged init ops ∧
      (Run.Along step Safe init ops → Run.Always step Kept init ops) := by
  refine ⟨Run.always_of_inv (fun w op hw => hw.step op) (fun w hw => hw.merged_covers) _ ops
    init_inv, fun hsafe es hes => ?_⟩
  obtain ⟨fs, rfl⟩ := hes
  have hsafe := ((Run.along_append _ _ _ _).mp hsafe).1
  have hboth := @Run.exec_inv _ _ step Safe (fun w => w.Inv ∧ w.Current)
    (fun w op hw hop => ⟨hw.1.step op, hw.2.step hw.1 hop⟩) init es ⟨init_inv, nofun⟩ hsafe
  exact hboth.1.kept hboth.2

def client1m (scanWindow : UInt16) : ScanParam :=
  { ScanParam.zero with
    phys := 0x01
    extFilterDuplicate := .enable
    scanParam1m := ⟨.passive, 0x40, scanWindow⟩ }

theorem ble_scan_params_merged_two : Run.Always step Kept init [
    .start (client1m 0x20) (some 1), .start { client1m 0x20 with phys := 0x05 } (some 2), .report,
    .settle, .report, .report, .settle, .report, .report, .settle, .report, .stop 1] :=
  (ble_scan_params_merged _).2 (by decide)

theorem not_ble_scan_params_merged :
    ScanParam.mergeAll [client1m 0x20, client1m 0x40] ≠
      ScanParam.mergeAll [client1m 0x40, client1m 0x20] ∧
    ¬(Run.exec step init [
      .start (client1m 0x20) (some 1), .pause, .start { client1m 0x20 with phys := 0x05 } (some 2),
      .resume, .report, .settle, .report]).Kept := by
  refine ⟨by decide, fun h => ?_⟩
  exact absurd (h ⟨by decide, by decide, by decide⟩).2.2 (by decide)

end Scanner

end BleScan
