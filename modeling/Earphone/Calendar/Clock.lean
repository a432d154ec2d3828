import Earphone.Calendar.Date
import Earphone.Lib.Run

namespace Calendar

open Run (exec Along)

section

def rtcClockSourceFreq : Nat := 32000

structure Clock where
  secondCntRtc : Nat
  preRtcTickCount : Nat
  comp : Nat
  now : Nat
  dueLast : Nat
  due : Nat
  preAt : Nat
  setAt : Nat
  setTo : UtcTime
  lead : Nat
  late : Nat
  lastRead : Nat

inductive Event where
  | tick (n : Nat)
  | serve
  | set (d : UtcTime)
  | read

-- a counter of `bits` bits, and `rtc_calendar_update_time_sec`
variable (bits updateTime : Nat)

def rtcCntMaxValue : Nat := 2 ^ bits - 1

def getCounter (now : Nat) : Nat := now % 2 ^ bits

def compUpdate (comp : Nat) : Nat :=
  let compareValue := (comp + rtcClockSourceFreq * updateTime) % 2 ^ 32
  let compareValue :=
    if compareValue > rtcCntMaxValue bits then compareValue - rtcCntMaxValue bits else compareValue
  compareValue % 2 ^ bits

def calculateDiffSecond (cur pre : Nat) : Nat :=
  if cur > pre then
    (cur - pre) / rtcClockSourceFreq
  else
    (cur + rtcCntMaxValue bits - pre) % 2 ^ 32 / rtcClockSourceFreq

def Clock.getTimestamp (c : Clock) : Nat :=
  (c.secondCntRtc + calculateDiffSecond bits (getCounter bits c.now) c.preRtcTickCount) % 2 ^ 32

def nextMatch (now comp : Nat) : Nat :=
  now + 1 + (comp + 2 ^ bits - (now + 1) % 2 ^ bits) % 2 ^ bits

def Clock.init (d : UtcTime) : Clock :=
  let comp := rtcClockSourceFreq * updateTime
  { secondCntRtc := rtcCalendarDateToTimestamp d, preRtcTickCount := 0, comp := comp, now := 0
    dueLast := 0, due := nextMatch bits 0 comp, preAt := 0, setAt := 0, setTo := d, lead := 0
    late := 0, lastRead := 0 }

def Clock.step (c : Clock) : Event → Clock
  | .tick n => { c with now := c.now + n }
  | .serve =>
    if c.due ≤ c.now then
      let comp := compUpdate bits updateTime c.comp
      { c with
        secondCntRtc := (c.secondCntRtc + updateTime) % 2 ^ 32
        preRtcTickCount := getCounter bits c.now
        comp := comp
        dueLast := c.due
        due := nextMatch bits c.now comp
        preAt := c.now
        late := c.late + (c.due - (c.dueLast + rtcClockSourceFreq * updateTime)) }
    else
      c
  | .set d =>
    if rtcCalendarCheckUtcTime d then
      -- `pre_rtc_tick_count` stays that of the last interrupt
      { c with
        secondCntRtc := rtcCalendarDateToTimestamp d
        setAt := c.now
        setTo := d
        lead := c.now - c.dueLast
        late := 0
        lastRead := 0 }
    else
      c
  | .read => { c with lastRead := c.getTimestamp bits }

end

section

structure Right (bits : Nat) (c : Clock) : Prop where
  setting : c.now = c.setAt → rtcCalendarTimestampToDate (c.getTimestamp bits) = c.setTo
  forward : c.lastRead ≤ c.getTimestamp bits
  close : c.getTimestamp bits ≤
      rtcCalendarDateToTimestamp c.setTo + (c.now - c.setAt) / rtcClockSourceFreq + 1 ∧
    rtcCalendarDateToTimestamp c.setTo + (c.now - c.setAt) / rtcClockSourceFreq ≤
      c.getTimestamp bits + 1

structure Settable (d : UtcTime) : Prop where
  real : Real d
  small : secondsTo d + 1 < 2 ^ 32
  taken : rtcCalendarCheckUtcTime d = true

def Clock.Ok (updateTime : Nat) (c : Clock) : Event → Prop
  | .tick n =>
    c.now + n + c.late < c.dueLast + rtcClockSourceFreq * (updateTime + 1) ∧
      rtcCalendarDateToTimestamp c.setTo + (c.now + n - c.setAt) / rtcClockSourceFreq + 1 < 2 ^ 32
  | .serve => True
  | .set d => rtcCalendarCheckUtcTime d = true → Settable d ∧ c.now < c.dueLast + rtcClockSourceFreq
  | .read => c.now ≠ c.preAt

def Clock.shown (bits : Nat) (c : Clock) : Nat :=
  if c.now = c.preAt then c.secondCntRtc else c.getTimestamp bits

structure Core (bits updateTime : Nat) (c : Clock) : Prop where
  pre : c.preRtcTickCount = c.preAt % 2 ^ bits
  comp : c.comp = c.due % 2 ^ bits
  due : c.dueLast + 32000 * updateTime ≤ c.due ∧ c.due ≤ c.dueLast + 32000 * updateTime + 1
  order : c.dueLast ≤ c.preAt ∧ c.preAt ≤ c.now ∧ c.setAt ≤ c.now
  soon : c.now + c.late < c.dueLast + 32000 * (updateTime + 1)
  served : c.preAt + c.late < c.dueLast + 32000
  lead : c.lead < 32000
  second : ∃ n, c.secondCntRtc = rtcCalendarDateToTimestamp c.setTo + n ∧
    c.dueLast + c.lead = c.setAt + 32000 * n + c.late
  small : rtcCalendarDateToTimestamp c.setTo + (c.now - c.setAt) / 32000 + 1 < 2 ^ 32
  settable : Settable c.setTo

structure Inv (bits updateTime : Nat) (c : Clock) : Prop extends Core bits updateTime c where
  lastRead : c.lastRead ≤ c.shown bits

def Clock.passed (bits : Nat) (c : Clock) : Nat :=
  (c.now - c.preAt - (c.now / 2 ^ bits - c.preAt / 2 ^ bits)) / 32000

variable {bits updateTime : Nat} {c : Clock}

section

variable (hbits : bits = 24 ∨ bits = 32)

include hbits

theorem diff_eq (hlt : pre < now)
    (hnow : now < pre + 2 ^ 23) :
    calculateDiffSecond bits (now % 2 ^ bits) (pre % 2 ^ bits) =
      (now - pre - (now / 2 ^ bits - pre / 2 ^ bits)) / 32000 := by
  unfold calculateDiffSecond rtcCntMaxValue rtcClockSourceFreq
  obtain rfl | rfl := hbits
  . split
    . exact congrArg (· / 32000) (by omega)
    . exact congrArg (· / 32000) (by omega)
  . split
    . exact congrArg (· / 32000) (by omega)
    . exact congrArg (· / 32000) (by omega)

theorem match_eq (hup : 1 ≤ updateTime ∧ updateTime ≤ 240)
    (hdue : due ≤ now) (hnow : now < due + 32000) :
    compUpdate bits updateTime (due % 2 ^ bits) =
        nextMatch bits now (compUpdate bits updateTime (due % 2 ^ bits)) % 2 ^ bits ∧
      due + 32000 * updateTime ≤
        nextMatch bits now (compUpdate bits updateTime (due % 2 ^ bits)) ∧
      nextMatch bits now (compUpdate bits updateTime (due % 2 ^ bits)) ≤
        due + 32000 * updateTime + 1 := by
  unfold nextMatch compUpdate rtcCntMaxValue rtcClockSourceFreq
  obtain rfl | rfl := hbits
  . dsimp only
    split <;> omega
  . dsimp only
    split <;> omega

theorem wraps_le (hle : pre ≤ now)
    (hnow : now < pre + 2 ^ 23) :
    now / 2 ^ bits - pre / 2 ^ bits ≤ 1 ∧ now / 2 ^ bits - pre / 2 ^ bits ≤ now - pre := by
  obtain rfl | rfl := hbits <;> omega

end

section

variable (hbits : bits = 24 ∨ bits = 32) (hup : 1 ≤ updateTime ∧ updateTime ≤ 240)
  (h : Core bits updateTime c)

include hup h in
theorem Core.near : c.now < c.preAt + 2 ^ 23 := by
  have hsoon := h.soon
  have horder := h.order
  omega

include hbits hup h in
theorem Core.bounds :
    (c.secondCntRtc + c.passed bits ≤
        rtcCalendarDateToTimestamp c.setTo + (c.now - c.setAt) / 32000 + 1 ∧
      rtcCalendarDateToTimestamp c.setTo + (c.now - c.setAt) / 32000 ≤
        c.secondCntRtc + c.passed bits + 1) ∧
    (c.now = c.setAt → c.secondCntRtc + c.passed bits = rtcCalendarDateToTimestamp c.setTo) := by
  obtain ⟨n, hsecond, hn⟩ := h.second
  obtain ⟨hlast, hpre, hset⟩ := h.order
  have hserved := h.served
  have hlead := h.lead
  obtain ⟨hw, hw'⟩ := wraps_le hbits hpre (h.near hup)
  unfold Clock.passed
  rw [hsecond]
  generalize rtcCalendarDateToTimestamp c.setTo = s
  generalize c.now / 2 ^ bits - c.preAt / 2 ^ bits = w at hw hw' ⊢
  refine ⟨⟨?_, ?_⟩, fun heq => ?_⟩ <;> omega

include hbits hup h in
theorem Core.shown_eq : c.shown bits = c.secondCntRtc + c.passed bits := by
  have hbounds := (h.bounds hbits hup).1.1
  have hsmall := h.small
  unfold Clock.shown
  split
  . next heq =>
    unfold Clock.passed
    rw [heq]
    simp
  . next hne =>
    have hpre := h.order.2.1
    unfold Clock.getTimestamp getCounter
    rw [h.pre, diff_eq hbits (by omega) (h.near hup)]
    exact Nat.mod_eq_of_lt (by unfold Clock.passed at hbounds; omega)

include hbits hup h in
theorem Core.serve (hdue : c.due ≤ c.now) :
    Core bits updateTime (c.step bits updateTime .serve) ∧
      c.secondCntRtc + c.passed bits ≤ (c.step bits updateTime .serve).secondCntRtc := by
  obtain ⟨n, hsecond, hn⟩ := h.second
  obtain ⟨hlast, hpre, hset⟩ := h.order
  obtain ⟨hdue1, hdue2⟩ := h.due
  have hsoon := h.soon
  have hserved := h.served
  have hlead := h.lead
  have hsmall := h.small
  obtain ⟨hcomp, hnext1, hnext2⟩ := match_eq hbits hup hdue (by omega)
  have hcount : (c.secondCntRtc + updateTime) % 2 ^ 32 = c.secondCntRtc + updateTime :=
    Nat.mod_eq_of_lt (by omega)
  unfold Clock.step
  simp only [if_pos hdue]
  rw [← h.comp] at hcomp hnext1 hnext2
  refine ⟨⟨rfl, hcomp, ⟨hnext1, hnext2⟩, ⟨hdue, Nat.le_refl _, hset⟩, ?_, ?_, hlead,
    ⟨n + updateTime, ?_, ?_⟩, hsmall, h.settable⟩, ?_⟩
  . dsimp only [rtcClockSourceFreq]
    omega
  . dsimp only [rtcClockSourceFreq]
    omega
  . dsimp only
    rw [hcount, hsecond, Nat.add_assoc]
  . dsimp only [rtcClockSourceFreq]
    omega
  . rw [hcount]
    unfold Clock.passed
    generalize c.now / 2 ^ bits - c.preAt / 2 ^ bits = w
    omega

end

section

variable (hbits : bits = 24 ∨ bits = 32) (hup : 1 ≤ updateTime ∧ updateTime ≤ 240)

include hbits hup

theorem Inv.step (h : Inv bits updateTime c) (he : c.Ok updateTime e) :
    Inv bits updateTime (c.step bits updateTime e) := by
  have hshown := h.shown_eq hbits hup
  have hlast := h.lastRead
  cases e with
  | tick n =>
    obtain ⟨hsoon, hsmall⟩ := he
    obtain ⟨horder1, horder2, horder3⟩ := h.order
    have hcore : Core bits updateTime (c.step bits updateTime (.tick n)) :=
      { h.toCore with
        order := ⟨horder1, Nat.le_add_right_of_le horder2, Nat.le_add_right_of_le horder3⟩
        soon := hsoon
        small := hsmall }
    refine ⟨hcore, ?_⟩
    rw [hcore.shown_eq hbits hup]
    refine Nat.le_trans (hshown ▸ hlast) (Nat.add_le_add_left (Nat.div_le_div_right ?_) _)
    obtain ⟨hw, hw'⟩ := wraps_le hbits hcore.order.2.1 (hcore.near hup)
    unfold Clock.step at hw hw' ⊢
    dsimp only at hw hw' ⊢
    obtain rfl | rfl := hbits <;> omega
  | serve =>
    by_cases hdue : c.due ≤ c.now
    . obtain ⟨hcore, hle⟩ := h.serve hbits hup hdue
      refine ⟨hcore, ?_⟩
      rw [hcore.shown_eq hbits hup]
      unfold Clock.step at hle ⊢
      simp only [if_pos hdue] at hle ⊢
      omega
    . unfold Clock.step
      rwa [if_neg hdue]
  | set d =>
    unfold Clock.step
    dsimp only
    split
    . next hcheck =>
      obtain ⟨hset, hnow⟩ := he hcheck
      obtain ⟨horder1, horder2, horder3⟩ := h.order
      have hahead : ∃ lead, c.now = c.dueLast + lead := Nat.exists_eq_add_of_le (by omega)
      obtain ⟨lead, hlead⟩ := hahead
      have hlt : lead < 32000 := Nat.lt_of_add_lt_add_left (hlead ▸ hnow)
      have htime : rtcCalendarDateToTimestamp d + 1 < 2 ^ 32 := by
        rw [toTimestamp_eq hset.real hcheck]
        have hsmall := hset.small
        omega
      refine ⟨⟨h.pre, h.comp, h.due, ⟨horder1, horder2, Nat.le_refl _⟩, ?_, ?_, ?_,
        ⟨0, rfl, ?_⟩, ?_, hset⟩, Nat.zero_le _⟩
      . dsimp only
        omega
      . dsimp only
        omega
      . dsimp only
        omega
      . dsimp only
        omega
      . dsimp only
        rwa [Nat.sub_self, Nat.zero_div]
    . exact h
  | read =>
    have hread : c.shown bits = c.getTimestamp bits := if_neg he
    exact ⟨{ h.toCore with }, hread ▸ Nat.le_refl _⟩

theorem Inv.init (hd : Settable d) : Inv bits updateTime (Clock.init bits updateTime d) := by
  have htime : rtcCalendarDateToTimestamp d + 1 < 2 ^ 32 := by
    rw [toTimestamp_eq hd.real hd.taken]
    have hsmall := hd.small
    omega
  have hmatch : nextMatch bits 0 (rtcClockSourceFreq * updateTime) = 32000 * updateTime := by
    unfold nextMatch rtcClockSourceFreq
    obtain rfl | rfl := hbits <;> omega
  unfold Clock.init
  dsimp only
  refine ⟨⟨by simp, ?_, ?_, by simp, ?_, by simp, by simp, ⟨0, rfl, rfl⟩, ?_, hd⟩, Nat.zero_le _⟩
  . dsimp only
    rw [hmatch]
    unfold rtcClockSourceFreq
    obtain rfl | rfl := hbits <;> omega
  . dsimp only
    rw [hmatch]
    omega
  . dsimp only
    omega
  . dsimp only
    omega

end

theorem clock_right (hbits : bits = 24 ∨ bits = 32) (hup : 1 ≤ updateTime ∧ updateTime ≤ 240)
    {d : UtcTime} (hd : Settable d) {events : List Event}
    (h : Along (Clock.step bits updateTime) (Clock.Ok updateTime) (.init bits updateTime d) events)
    (hread : (exec (Clock.step bits updateTime) (.init bits updateTime d) events).Ok updateTime
      .read) :
    Right bits (exec (Clock.step bits updateTime) (.init bits updateTime d) events) := by
  have hinv := @Run.exec_inv Clock Event (Clock.step bits updateTime) (Clock.Ok updateTime)
    (Inv bits updateTime) (fun c e hc he => hc.step hbits hup he) (.init bits updateTime d) events
    (Inv.init hbits hup hd) h
  generalize exec (Clock.step bits updateTime) (.init bits updateTime d) events = c at hinv hread
  have hshown : c.getTimestamp bits = c.secondCntRtc + c.passed bits := by
    rw [← hinv.shown_eq hbits hup, Clock.shown, if_neg hread]
  obtain ⟨hclose, hset⟩ := hinv.bounds hbits hup
  refine ⟨fun heq => ?_, ?_, ?_⟩
  . obtain ⟨hreal, hsmall, htaken⟩ := hinv.settable
    rw [hshown, hset heq, toTimestamp_eq hreal htaken, Nat.mod_eq_of_lt (by omega),
      toDate_secondsTo hreal (by omega)]
  . rw [hshown, ← hinv.shown_eq hbits hup]
    exact hinv.lastRead
  . rw [hshown]
    exact hclose

def firstDay : UtcTime := ⟨2000, 1, 1, 0, 0, 0⟩

theorem firstDay_settable : Settable firstDay :=
  ⟨⟨⟨by decide, by decide, by decide, by decide⟩, by decide⟩, by decide, by decide⟩

theorem clock_right_set :
    Right 32 (exec (Clock.step 32 240) (.init 32 240 firstDay) [.tick 10, .set firstDay]) :=
  clock_right (.inr rfl) (by decide) firstDay_settable
    ⟨⟨by decide, by decide⟩, fun _ => ⟨firstDay_settable, by decide⟩, trivial⟩
    (show 10 ≠ 0 by decide)

theorem not_clock_right :
    (exec (Clock.step 32 240) (.init 32 240 firstDay) [.tick 96000, .set firstDay]).getTimestamp
        32 = 3 ∧
      ¬ Right 32 (exec (Clock.step 32 240) (.init 32 240 firstDay) [.tick 96000, .set firstDay]) ∧
      (Clock.init 24 240 firstDay).getTimestamp 24 = 524 := by
  refine ⟨by decide, fun h => ?_, by decide⟩
  exact absurd (h.setting rfl) (by decide)

end

end Calendar
