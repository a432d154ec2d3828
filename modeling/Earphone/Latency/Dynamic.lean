import Earphone.Latency.Basic
import Earphone.Lib.Run

namespace Latency

def proxyLatencySet (latency : Nat) (fixed : Bool) (db : BufferDb) : BufferDb :=
  { db with
    dynamicLatencyOn := false
    ent := { db.ent with
      latencyFixed := fixed
      latency := latency
      latencyBackUp := latency
      plcCount := 0
      latencyOverride := 0 } }

def proxyReset (db : BufferDb) : BufferDb :=
  bufferReset (reset { db with
    dynamicLatencyOn := false
    ent := { restore db.ent with plcCount := 0 } })

structure Override where
  dynamicLatencyOn : Bool
  plcCount : Nat
  latency : Nat
  latencyOverride : Nat
  latencyBackup : Nat

def takeOver (msg : Override) (db : BufferDb) : BufferDb :=
  { db with
    dynamicLatencyOn := msg.dynamicLatencyOn
    ent := { db.ent with
      plcCount := msg.plcCount
      latency := msg.latency
      latencyOverride := msg.latencyOverride
      latencyBackUp := msg.latencyBackup } }

def setPlcCount (plcCount : Nat) (db : BufferDb) : BufferDb :=
  { db with ent := { db.ent with plcCount := plcCount } }

def timerOf (kind : TimerKind) (db : BufferDb) : Option SysTimer :=
  match kind with
  | .decCheck => db.decCheckTimer
  | .latResume => db.resumeTimer
  | .check => db.checkTimer

def isPending (timer : Option SysTimer) : Bool :=
  match timer with
  | none => false
  | some t => t.pending

inductive Event where
  | decrease (created : Bool) (plcCount : Nat)
  | increase (created : Bool) (plcCount : Nat) (autoDec : Bool)
  | relayedDecrease (created : Bool) (previous plcCount : Nat)
  | relayedIncrease (created : Bool) (previous plcCount : Nat) (autoDec : Bool)
  | plc (env : Env) (localSeq plcLocalSeq frameNum : Nat)
  | timeout (kind : TimerKind)
  | intervalStable
  | intervalUnstable
  | bufferReset
  | reset
  | resume
  | dynamicSet (created : Bool) (latency : Nat) (autoResume : Bool)
  | setDynamicLatencyOn (on : Bool)
  | proxyLatencySet (latency : Nat) (fixed : Bool)
  | proxyReset
  | takeOver (msg : Override)
  | ultraLowLatencyPlcReq (frameNum : Nat)
  | recordUpdate (latencyReport : Nat)
  | bufferWrite (maxLatencyPlcCount : Nat)
  | bufferState (playing : Bool)

def step (db : BufferDb) : Event → BufferDb
  | .decrease created n => (lowLatDynamicDecrease created n db).1
  | .increase created n autoDec => (lowLatDynamicIncrease created n autoDec db).1
  | .relayedDecrease created previous n =>
    if db.ent.latencyFixed then db
    else (lowLatDynamicDecrease created n (setPlcCount previous db)).1
  | .relayedIncrease created previous n autoDec =>
    if db.ent.latencyFixed then db
    else (lowLatDynamicIncrease created n autoDec (setPlcCount previous db)).1
  | .plc env localSeq plcLocalSeq n => (handlePlcEvent env localSeq plcLocalSeq n db).1
  | .timeout kind => if isPending (timerOf kind db) then (timeoutAction kind db).1 else db
  | .intervalStable => (handleIntervalStableEvt db).1
  | .intervalUnstable => handleIntervalUnstableEvt db
  | .bufferReset => bufferReset db
  | .reset => reset db
  | .resume => resume db
  | .dynamicSet created latency autoResume => dynamicSet created latency autoResume db
  | .setDynamicLatencyOn on => setDynamicLatencyOn on db
  | .proxyLatencySet latency fixed => proxyLatencySet latency fixed db
  | .proxyReset => proxyReset db
  | .takeOver msg => takeOver msg db
  | .ultraLowLatencyPlcReq n => ultraLowLatencyPlcReq n db
  | .recordUpdate latencyReport => recordUpdate latencyReport db
  | .bufferWrite n => { db with ent := { db.ent with maxLatencyPlcCount := n } }
  | .bufferState playing => { db with ent := { db.ent with playing := playing } }

structure Sound (lo hi : Nat) (db : BufferDb) : Prop where
  settled : db.dynamicLatencyOn = false → db.ent.latency = db.ent.latencyBackUp
  range : lo ≤ db.ent.latency ∧ db.ent.latency ≤ hi

def TakesExactly (db db' : BufferDb) : Prop :=
  db'.ent.plcCount = 0 ∨
    db'.ent.latency + framesDuration db.ent (db.ent.plcCount - db'.ent.plcCount) = db.ent.latency

def AddsExactly (db db' : BufferDb) (plcCount : Nat) : Prop :=
  db'.ent.latency = db.ent.latency + framesDuration db.ent plcCount

def NoWrap (db : BufferDb) (e : Event) : Prop :=
  match e with
  | .decrease _ _ => TakesExactly db (step db e)
  | .increase _ n _ => AddsExactly db (step db e) n
  | .relayedDecrease _ previous _ =>
    db.ent.latencyFixed = false → TakesExactly (setPlcCount previous db) (step db e)
  | .relayedIncrease _ _ n _ => db.ent.latencyFixed = false → AddsExactly db (step db e) n
  | _ => True

def FitsDecrease (lo n : Nat) (db : BufferDb) : Prop :=
  db.dynamicLatencyOn → n < db.ent.plcCount → lo + framesDuration db.ent n ≤ db.ent.latency

def FitsIncrease (hi n : Nat) (db : BufferDb) : Prop :=
  db.ent.latency + framesDuration db.ent n ≤ hi ∧
    (db.dynamicLatencyOn → db.ent.plcCount + n < 2 ^ 16)

def Fits (lo hi : Nat) (db : BufferDb) : Event → Prop
  | .decrease _ n => FitsDecrease lo n db
  | .increase _ n _ => FitsIncrease hi n db
  | .relayedDecrease _ previous n =>
    db.ent.latencyFixed = false → FitsDecrease lo n (setPlcCount previous db)
  | .relayedIncrease _ previous n _ =>
    db.ent.latencyFixed = false → FitsIncrease hi n (setPlcCount previous db)
  | .dynamicSet _ latency _ => lo ≤ latency ∧ latency ≤ hi
  | .setDynamicLatencyOn on => on = false → db.ent.latency = db.ent.latencyBackUp
  | .proxyLatencySet latency _ => lo ≤ latency ∧ latency ≤ hi
  | .takeOver msg =>
    (msg.dynamicLatencyOn = false → msg.latency = msg.latencyBackup) ∧
      (lo ≤ msg.latency ∧ msg.latency ≤ hi) ∧ lo ≤ msg.latencyBackup ∧ msg.latencyBackup ≤ hi
  | _ => True

def Event.IsAdjustment : Event → Prop
  | .decrease _ _ => True
  | .increase _ _ _ => True
  | _ => False

structure Inv (lo hi : Nat) (db : BufferDb) : Prop where
  sound : Sound lo hi db
  backUp : lo ≤ db.ent.latencyBackUp ∧ db.ent.latencyBackUp ≤ hi

section

variable {lo hi n : Nat} {created : Bool} {db : BufferDb}

theorem framesDuration_zero (ent : BufferEnt) : framesDuration ent 0 = 0 := by
  simp [framesDuration, u32, u16]

theorem inv_congr (h : Inv lo hi db)
    (hon : db'.dynamicLatencyOn = db.dynamicLatencyOn) (hlat : db'.ent.latency = db.ent.latency)
    (hback : db'.ent.latencyBackUp = db.ent.latencyBackUp) : Inv lo hi db' := by
  obtain ⟨⟨hsettled, hrange⟩, hbackUp⟩ := h
  refine ⟨⟨?_, ?_⟩, ?_⟩
  . rw [hon, hlat, hback]
    exact hsettled
  . rw [hlat]
    exact hrange
  . rw [hback]
    exact hbackUp

theorem inv_restored (h : Inv lo hi db)
    (hlat : db'.ent.latency = db.ent.latencyBackUp)
    (hback : db'.ent.latencyBackUp = db.ent.latencyBackUp) : Inv lo hi db' := by
  refine ⟨⟨fun _ => hlat.trans hback.symm, ?_⟩, ?_⟩
  . rw [hlat]
    exact h.backUp
  . rw [hback]
    exact h.backUp

theorem startDecCheck_ent (timeoutUs : Nat) :
    (startDecCheck created timeoutUs db).ent = db.ent := by
  unfold startDecCheck
  split <;> rfl

theorem startDecCheck_on (timeoutUs : Nat) :
    (startDecCheck created timeoutUs db).dynamicLatencyOn = db.dynamicLatencyOn := by
  unfold startDecCheck
  split <;> rfl

theorem decrease_cases (created : Bool) (n : Nat) (db : BufferDb) :
    (lowLatDynamicDecrease created n db).1 = db ∧
      (db.ent.plcCount = 0 ∨ db.dynamicLatencyOn = false) ∨
    (db.ent.plcCount ≤ n ∧ db.dynamicLatencyOn = true ∧
      (lowLatDynamicDecrease created n db).1.dynamicLatencyOn = false ∧
      (lowLatDynamicDecrease created n db).1.ent = { restore db.ent with plcCount := 0 }) ∨
    (n < db.ent.plcCount ∧ db.dynamicLatencyOn = true ∧
      (lowLatDynamicDecrease created n db).1.dynamicLatencyOn = true ∧
      (lowLatDynamicDecrease created n db).1.ent =
        { db.ent with
          latency := sub16 db.ent.latency (framesDuration db.ent n)
          plcCount := db.ent.plcCount - n }) := by
  unfold lowLatDynamicDecrease
  split_ifs with hnone
  . exact .inl ⟨rfl, hnone⟩
  . rw [not_or] at hnone
    have hon : db.dynamicLatencyOn = true := by simpa using hnone.2
    right
    rcases Nat.lt_or_ge n db.ent.plcCount with hlt | hle
    . right
      have hmin : min db.ent.plcCount n = n := Nat.min_eq_right (by omega)
      have hleft : db.ent.plcCount - n ≠ 0 := by omega
      refine ⟨hlt, hon, ?_, ?_⟩
      . simp [hmin, takeBack, hleft, startDecCheck_on]
      . simp [hmin, takeBack, hleft, startDecCheck_ent]
    . left
      have hmin : min db.ent.plcCount n = db.ent.plcCount := Nat.min_eq_left hle
      refine ⟨hle, hon, ?_, ?_⟩
      . simp [hmin, takeBack]
      . simp [hmin, takeBack]

theorem sub16_eq (h : b ≤ a) (ha : a < 2 ^ 16) : sub16 a b = a - b := by
  unfold sub16 u16
  omega

theorem inv_decrease (hhi : hi < 2 ^ 16) (h : Inv lo hi db) (hfits : FitsDecrease lo n db) :
    Inv lo hi (lowLatDynamicDecrease created n db).1 ∧
      TakesExactly db (lowLatDynamicDecrease created n db).1 := by
  have hrange := h.sound.range
  rcases decrease_cases created n db with
    ⟨hsame, -⟩ | ⟨-, -, -, hent⟩ | ⟨hlt, hon, hon', hent⟩
  . rw [hsame]
    refine ⟨h, .inr ?_⟩
    rw [Nat.sub_self, framesDuration_zero, Nat.add_zero]
  . refine ⟨inv_restored h (by rw [hent]; rfl) (by rw [hent]; rfl), .inl ?_⟩
    rw [hent]
  . have hdur := hfits hon hlt
    have hsub := sub16_eq (show framesDuration db.ent n ≤ db.ent.latency by omega) (by omega)
    rw [hsub] at hent
    refine ⟨⟨⟨?_, ?_⟩, ?_⟩, .inr ?_⟩
    . intro hoff
      rw [hon'] at hoff
      cases hoff
    . rw [hent]
      dsimp only
      omega
    . rw [hent]
      exact h.backUp
    . rw [hent]
      dsimp only
      rw [show db.ent.plcCount - (db.ent.plcCount - n) = n by omega]
      omega

theorem increase_fields (autoDec : Bool) :
    (lowLatDynamicIncrease created n autoDec db).1.dynamicLatencyOn = true ∧
    (lowLatDynamicIncrease created n autoDec db).1.ent = add db.dynamicLatencyOn n db.ent := by
  cases autoDec with
  | true => exact ⟨rfl, by simp [lowLatDynamicIncrease, startDecCheck_ent, startDecCheck_on]⟩
  | false => exact ⟨rfl, rfl⟩

theorem inv_increase (hhi : hi < 2 ^ 16) (autoDec : Bool) (h : Inv lo hi db)
    (hfits : FitsIncrease hi n db) :
    Inv lo hi (lowLatDynamicIncrease created n autoDec db).1 ∧
      AddsExactly db (lowLatDynamicIncrease created n autoDec db).1 n := by
  obtain ⟨hon, hent⟩ := @increase_fields n created db autoDec
  have hdur := hfits.1
  have hrange := h.sound.range
  have hlat : (add db.dynamicLatencyOn n db.ent).latency =
      db.ent.latency + framesDuration db.ent n := by
    simp only [add, u16]
    omega
  refine ⟨⟨⟨?_, ?_⟩, ?_⟩, ?_⟩
  . intro hoff
    rw [hon] at hoff
    cases hoff
  . rw [hent, hlat]
    omega
  . rw [hent]
    exact h.backUp
  . unfold AddsExactly
    rw [hent, hlat]

def SameBuffer (db db' : BufferDb) : Prop :=
  db'.ent = db.ent ∧ db'.dynamicLatencyOn = db.dynamicLatencyOn

theorem inv_sameBuffer (h : Inv lo hi db) (hsame : SameBuffer db db') : Inv lo hi db' :=
  inv_congr h hsame.2 (by rw [hsame.1]) (by rw [hsame.1])

theorem same_countStable (db : BufferDb) : SameBuffer db (countStable db).2 := by
  unfold countStable
  dsimp only
  split_ifs <;> exact ⟨rfl, rfl⟩

theorem same_adjustCheck (env : Env) (db : BufferDb) : SameBuffer db (adjustCheck env db).2 := by
  unfold adjustCheck
  split_ifs
  . exact ⟨rfl, rfl⟩
  . exact same_countStable db
  . split
    . exact ⟨rfl, rfl⟩
    . exact ⟨rfl, rfl⟩
    . exact same_countStable db
  . exact ⟨rfl, rfl⟩

theorem same_secondaryPlc (env : Env) (n : Nat) (db : BufferDb) :
    SameBuffer db (secondaryPlc env n db).1 :=
  same_adjustCheck env db

theorem same_plcNext (env : Env) (n : Nat) (db : BufferDb) :
    SameBuffer db (plcNext env n db).1 := by
  unfold plcNext
  dsimp only
  split_ifs
  . exact ⟨rfl, rfl⟩
  . exact ⟨rfl, rfl⟩
  . exact ⟨rfl, rfl⟩
  . exact same_secondaryPlc env n db
  . exact same_adjustCheck env db
  . exact same_adjustCheck env db

theorem same_plcOther (env : Env) (n : Nat) (db : BufferDb) :
    SameBuffer db (plcOther env n db).1 := by
  unfold plcOther
  split_ifs
  . exact ⟨rfl, rfl⟩
  . exact ⟨rfl, rfl⟩
  . exact same_secondaryPlc env n db
  . exact ⟨rfl, rfl⟩
  . exact ⟨rfl, rfl⟩

theorem same_handlePlcEvent (env : Env) (localSeq plcLocalSeq n : Nat) (db : BufferDb) :
    SameBuffer db (handlePlcEvent env localSeq plcLocalSeq n db).1 := by
  unfold handlePlcEvent
  dsimp only
  split_ifs
  . exact same_plcNext env n { db with decCheckTimer := sysTimerStart db.decCheckTimer }
  . exact same_plcOther env n { db with decCheckTimer := sysTimerStart db.decCheckTimer }

theorem same_intervalStable (db : BufferDb) : SameBuffer db (handleIntervalStableEvt db).1 := by
  unfold handleIntervalStableEvt
  split_ifs <;> exact ⟨rfl, rfl⟩

theorem inv_setPlcCount (h : Inv lo hi db) (n : Nat) : Inv lo hi (setPlcCount n db) :=
  inv_congr h rfl rfl rfl

theorem inv_bufferReset (h : Inv lo hi db) : Inv lo hi (bufferReset db) := by
  cases hon : db.dynamicLatencyOn with
  | true =>
    refine inv_congr h rfl ?_ ?_ <;> simp [bufferReset, bufferResetEnt, hon]
  | false =>
    have hlat := h.sound.settled hon
    refine inv_congr h rfl ?_ ?_ <;>
      (simp only [bufferReset, bufferResetEnt, hon]
       split_ifs <;> simp_all [restore])

theorem inv_dynamicSet (h : Inv lo hi db) (autoResume : Bool)
    (hlat : lo ≤ latency ∧ latency ≤ hi) :
    Inv lo hi (dynamicSet created latency autoResume db) := by
  unfold dynamicSet
  dsimp only
  split_ifs
  . split <;> exact ⟨⟨nofun, hlat⟩, h.backUp⟩
  . exact ⟨⟨nofun, hlat⟩, h.backUp⟩

theorem inv_timeout (h : Inv lo hi db) (kind : TimerKind) :
    Inv lo hi (timeoutAction kind db).1 := by
  cases kind with
  | latResume => exact inv_restored h rfl rfl
  | check => exact inv_congr h rfl rfl rfl
  | decCheck => exact inv_congr h rfl rfl rfl

theorem inv_step (hhi : hi < 2 ^ 16) (db : BufferDb) (e : Event) (h : Inv lo hi db)
    (hfits : Fits lo hi db e) : Inv lo hi (step db e) ∧ NoWrap db e := by
  cases e with
  | decrease created n => exact inv_decrease hhi h hfits
  | increase created n autoDec => exact inv_increase hhi autoDec h hfits
  | relayedDecrease created previous n =>
    simp only [NoWrap, step]
    cases hfixed : db.ent.latencyFixed with
    | true => exact ⟨h, nofun⟩
    | false =>
      have hdone := @inv_decrease lo hi n created _ hhi (inv_setPlcCount h previous) (hfits hfixed)
      exact ⟨hdone.1, fun _ => hdone.2⟩
  | relayedIncrease created previous n autoDec =>
    simp only [NoWrap, step]
    cases hfixed : db.ent.latencyFixed with
    | true => exact ⟨h, nofun⟩
    | false =>
      have hdone := @inv_increase lo hi n created _ hhi autoDec (inv_setPlcCount h previous)
        (hfits hfixed)
      exact ⟨hdone.1, fun _ => hdone.2⟩
  | plc env localSeq plcLocalSeq n =>
    exact ⟨inv_sameBuffer h (same_handlePlcEvent ..), trivial⟩
  | timeout kind =>
    refine ⟨?_, trivial⟩
    simp only [step]
    split_ifs
    . exact inv_timeout h kind
    . exact h
  | intervalStable => exact ⟨inv_sameBuffer h (same_intervalStable db), trivial⟩
  | intervalUnstable => exact ⟨inv_congr h rfl rfl rfl, trivial⟩
  | bufferReset => exact ⟨inv_bufferReset h, trivial⟩
  | reset => exact ⟨inv_congr h rfl rfl rfl, trivial⟩
  | resume => exact ⟨inv_restored h rfl rfl, trivial⟩
  | dynamicSet created latency autoResume => exact ⟨inv_dynamicSet h autoResume hfits, trivial⟩
  | setDynamicLatencyOn on => exact ⟨⟨⟨hfits, h.sound.range⟩, h.backUp⟩, trivial⟩
  | proxyLatencySet latency fixed => exact ⟨⟨⟨fun _ => rfl, hfits⟩, hfits⟩, trivial⟩
  | proxyReset =>
    refine ⟨inv_bufferReset ?_, trivial⟩
    exact inv_restored h rfl rfl
  | takeOver msg =>
    obtain ⟨hoff, hlat, hback⟩ := hfits
    exact ⟨⟨⟨hoff, hlat⟩, hback⟩, trivial⟩
  | ultraLowLatencyPlcReq n => exact ⟨inv_congr h rfl rfl rfl, trivial⟩
  | recordUpdate latencyReport => exact ⟨inv_congr h rfl rfl rfl, trivial⟩
  | bufferWrite n => exact ⟨inv_congr h rfl rfl rfl, trivial⟩
  | bufferState playing => exact ⟨inv_congr h rfl rfl rfl, trivial⟩

def Counted (db : BufferDb) : Prop :=
  (db.ent.plcCount = 0 ∨ db.dynamicLatencyOn = false) → db.ent.latency = db.ent.latencyBackUp

theorem counted_step (hhi : hi < 2 ^ 16) (hadj : e.IsAdjustment) (h : Inv lo hi db)
    (hfits : Fits lo hi db e) (hcount : Counted db) : Counted (step db e) := by
  cases e with
  | decrease created n =>
    simp only [step]
    rcases decrease_cases created n db with
      ⟨hsame, -⟩ | ⟨-, -, -, hent⟩ | ⟨hlt, -, hon, hent⟩
    . rwa [hsame]
    . intro
      rw [hent]
      rfl
    . rintro (hzero | hoff)
      . rw [hent] at hzero
        dsimp only at hzero
        omega
      . rw [hon] at hoff
        cases hoff
  | increase created n autoDec =>
    simp only [step]
    obtain ⟨hon, hent⟩ := @increase_fields n created db autoDec
    obtain ⟨hdur, hplc⟩ := hfits
    have hrange := h.sound.range
    rintro (hzero | hoff)
    . rw [hent] at hzero ⊢
      cases hdyn : db.dynamicLatencyOn with
      | true =>
        have hsmall := hplc hdyn
        simp only [add, hdyn, if_true, u16] at hzero
        obtain ⟨hplc0, hn0⟩ : db.ent.plcCount = 0 ∧ n = 0 := by omega
        have hlat := hcount (.inl hplc0)
        simp only [add, hn0, framesDuration_zero, u16]
        omega
      | false =>
        have hlat := hcount (.inr hdyn)
        have hn0 : n = 0 := by simpa [add, hdyn] using hzero
        simp only [add, hn0, framesDuration_zero, u16]
        omega
    . rw [hon] at hoff
      cases hoff
  | _ => cases hadj

end

variable {lo hi : Nat}

section

variable (hhi : hi < 2 ^ 16) (db : BufferDb) (events : List Event) (h : Inv lo hi db)
  (hfits : Run.Along step (Fits lo hi) db events)

include hhi db events h hfits

theorem inv_run : Inv lo hi (Run.exec step db events) ∧ Run.Along step NoWrap db events := by
  induction events generalizing db with
  | nil => exact ⟨h, trivial⟩
  | cons e es ih =>
    obtain ⟨he, hes⟩ := hfits
    obtain ⟨hstep, hwrap⟩ := inv_step hhi db e h he
    obtain ⟨hrun, hwraps⟩ := ih _ hstep hes
    exact ⟨hrun, hwrap, hwraps⟩

theorem counted_run (hadj : ∀ e ∈ events, e.IsAdjustment)
    (hcount : Counted db) : Counted (Run.exec step db events) := by
  induction events generalizing db with
  | nil => exact hcount
  | cons e es ih =>
    obtain ⟨he, hes⟩ := hfits
    obtain ⟨hone, hrest⟩ := List.forall_mem_cons.mp hadj
    exact ih _ (inv_step hhi db e h he).1 hes hrest (counted_step hhi hone h he hcount)

end

def BufferEnt.twenty : BufferEnt where
  mode := .normal
  playing := true
  latency := 20
  latencyBackUp := 20
  latencyFixed := false
  latencyOverride := 0
  plcCount := 0
  maxLatencyPlcCount := 8
  sbc := false
  frameDurationUs := 15000

end Latency
