import Mathlib.Tactic.IntervalCases

/-!
This module contains the dates of the calendar over the real-time counter.
-/

namespace Calendar

section

def before (len : Nat → Nat) (first : Nat) : Nat → Nat
  | 0 => 0
  | count + 1 => len first + before len (first + 1) count

def locate (len : Nat → Nat) : Nat → Nat → Nat → Nat × Nat
  | 0, i, n => (i, n)
  | fuel + 1, i, n => if n ≥ len i then locate len fuel (i + 1) (n - len i) else (i, n)

variable {len : Nat → Nat}

theorem locate_before (hr : r < len (first + count))
    (hfuel : count ≤ fuel) :
    locate len fuel first (before len first count + r) = (first + count, r) := by
  induction count generalizing first fuel with
  | zero =>
    rw [before, Nat.zero_add]
    cases fuel with
    | zero => rfl
    | succ fuel => exact if_neg (Nat.not_le.mpr hr)
  | succ count ih =>
    obtain ⟨fuel, rfl⟩ : ∃ n, fuel = n + 1 := ⟨fuel - 1, by omega⟩
    rw [show first + (count + 1) = first + 1 + count by omega] at hr ⊢
    rw [locate, before, if_pos (by omega), Nat.add_assoc, Nat.add_sub_cancel_left]
    exact ih hr (by omega)

theorem exists_before {total first n : Nat} (hn : n < before len first total) :
    ∃ count r, count < total ∧ n = before len first count + r ∧ r < len (first + count) := by
  induction total generalizing first n with
  | zero => exact absurd hn (Nat.not_lt_zero n)
  | succ total ih =>
    rw [before] at hn
    by_cases hlt : n < len first
    . exact ⟨0, n, Nat.succ_pos total, by rw [before, Nat.zero_add], hlt⟩
    . obtain ⟨count, r, hcount, hsum, hr⟩ := @ih (first + 1) (n - len first) (by omega)
      refine ⟨count + 1, r, Nat.succ_lt_succ hcount, ?_, ?_⟩
      . rw [before]
        omega
      . rwa [show first + (count + 1) = first + 1 + count by omega]

theorem le_before (hlen : ∀ i, 0 < len i) (first count : Nat) : count ≤ before len first count := by
  induction count generalizing first with
  | zero => exact Nat.zero_le _
  | succ count ih =>
    have hpos := hlen first
    have hrest := ih (first + 1)
    rw [before]
    omega

theorem before_congr (h : ∀ i < count, len (first + i) = len' (first' + i)) :
    before len first count = before len' first' count := by
  induction count generalizing first first' with
  | zero => rfl
  | succ count ih =>
    rw [before, before, show len first = len' first' from h 0 (Nat.succ_pos count),
      ih fun i hi => ?_]
    have hi := h (i + 1) (Nat.succ_lt_succ hi)
    rwa [show first + 1 + i = first + (i + 1) by omega,
      show first' + 1 + i = first' + (i + 1) by omega]

end

structure UtcTime where
  year : Nat
  month : Nat
  day : Nat
  seconds : Nat
  minutes : Nat
  hour : Nat
  deriving DecidableEq

def begYear : Nat := 2000

def daySeconds : Nat := 86400

def isLeapYear (yr : Nat) : Nat := if yr % 400 = 0 ∨ yr % 100 ≠ 0 ∧ yr % 4 = 0 then 1 else 0

def yearLength (yr : Nat) : Nat := if isLeapYear yr = 1 then 366 else 365

def rtcCalendarMonthLengthCalc (lpyr mon : Nat) : Nat :=
  if mon = 1 then
    28 + lpyr
  else
    let mon := if mon > 6 then mon - 1 else mon
    if mon % 2 = 1 then 30 else 31

def rtcCalendarCheckUtcTime (d : UtcTime) : Bool :=
  !(d.year < begYear) && !(d.month = 0 || d.month > 12) &&
    -- the month counts from 1 here and from 0 in `rtc_calendar_month_length_calc`
    !(d.day = 0 || d.day > rtcCalendarMonthLengthCalc (isLeapYear d.year) d.month) &&
    !(d.hour > 23 || d.minutes > 59 || d.seconds > 59)

def rtcCalendarTimestampToDate (timestamp : Nat) : UtcTime :=
  let day := timestamp % daySeconds
  let numDays := timestamp / daySeconds % 2 ^ 16
  let (year, numDays) := locate yearLength numDays begYear numDays
  let (month, numDays) := locate (rtcCalendarMonthLengthCalc (isLeapYear year)) numDays 0 numDays
  { year := year
    month := month + 1
    day := numDays + 1
    seconds := day % 60
    minutes := day % 3600 / 60
    hour := day / 3600 }

def rtcCalendarDateToTimestamp (d : UtcTime) : Nat :=
  if rtcCalendarCheckUtcTime d then
    (d.seconds + d.minutes * 60 + d.hour * 3600 + daySeconds * (d.day - 1) +
      before (rtcCalendarMonthLengthCalc (isLeapYear d.year)) 0 (d.month - 1) * daySeconds +
      before yearLength begYear (d.year - begYear) * daySeconds) % 2 ^ 32
  else
    0

def monthDays (leap month : Nat) : Nat :=
  [31, 28 + leap, 31, 30, 31, 30, 31, 31, 30, 31, 30, 31].getD (month - 1) 0

structure InYear (d : UtcTime) : Prop where
  year : begYear ≤ d.year
  month : 1 ≤ d.month ∧ d.month ≤ 12
  day : 1 ≤ d.day
  time : d.hour ≤ 23 ∧ d.minutes ≤ 59 ∧ d.seconds ≤ 59

structure Real (d : UtcTime) : Prop extends InYear d where
  exist : d.day ≤ monthDays (isLeapYear d.year) d.month

def secondsTo (d : UtcTime) : Nat :=
  (before yearLength begYear (d.year - begYear) +
    before (monthDays (isLeapYear d.year)) 1 (d.month - 1) + (d.day - 1)) * daySeconds +
    (d.hour * 3600 + d.minutes * 60 + d.seconds)

def Cut (d : UtcTime) : Prop :=
  d.month = 1 ∧ 28 + isLeapYear d.year < d.day ∨ d.month ∈ [3, 5, 8, 10, 12] ∧ d.day = 31

def Extra (d : UtcTime) : Prop := InYear d ∧ d.month ∈ [2, 4, 6, 9, 11] ∧ d.day ≤ 31

theorem isLeapYear_le (yr : Nat) : isLeapYear yr ≤ 1 := by
  unfold isLeapYear
  split <;> omega

theorem check_iff (d : UtcTime) :
    rtcCalendarCheckUtcTime d = true ↔
      InYear d ∧ d.day ≤ rtcCalendarMonthLengthCalc (isLeapYear d.year) d.month := by
  simp only [rtcCalendarCheckUtcTime, Bool.and_eq_true, Bool.not_eq_true', Bool.or_eq_false_iff,
    decide_eq_false_iff_not]
  constructor
  . rintro ⟨⟨⟨hyear, hmonth⟩, hday⟩, htime⟩
    exact ⟨⟨Nat.le_of_not_lt hyear, by omega, by omega, by omega⟩, by omega⟩
  . rintro ⟨⟨hyear, hmonth, hday, htime⟩, hlen⟩
    exact ⟨⟨⟨Nat.not_lt.mpr hyear, by omega⟩, by omega⟩, by omega⟩

theorem monthLengthCalc_eq (hleap : leap ≤ 1) :
    ∀ mon < 12, rtcCalendarMonthLengthCalc leap mon = monthDays leap (mon + 1) := by
  interval_cases leap <;> decide

theorem months_le (hleap : leap ≤ 1) :
    ∀ mon < 12, before (rtcCalendarMonthLengthCalc leap) 0 mon +
      rtcCalendarMonthLengthCalc leap mon ≤ 365 + leap := by
  interval_cases leap <;> decide

theorem yearLength_eq (yr : Nat) : yearLength yr = 365 + isLeapYear yr := by
  have hle := isLeapYear_le yr
  unfold yearLength
  split <;> omega

theorem check_real (h : Real d) : rtcCalendarCheckUtcTime d = true ↔ ¬ Cut d := by
  have hleap := isLeapYear_le d.year
  have hexist := h.exist
  obtain ⟨hlow, hhigh⟩ := h.month
  rw [check_iff, and_iff_right h.toInYear]
  unfold Cut
  generalize isLeapYear d.year = leap at *
  generalize d.month = month at *
  interval_cases month <;> simp [monthDays, rtcCalendarMonthLengthCalc] at * <;> omega

theorem check_notReal (h : ¬ Real d) : rtcCalendarCheckUtcTime d = true ↔ Extra d := by
  have hleap := isLeapYear_le d.year
  rw [check_iff]
  unfold Extra
  refine and_congr_right fun hin => ?_
  have hexist : monthDays (isLeapYear d.year) d.month < d.day := by
    by_contra hle
    exact h ⟨hin, Nat.le_of_not_lt hle⟩
  obtain ⟨hlow, hhigh⟩ := hin.month
  generalize isLeapYear d.year = leap at *
  generalize d.month = month at *
  interval_cases month <;> simp [monthDays, rtcCalendarMonthLengthCalc] at * <;> omega

theorem months_eq (hleap : leap ≤ 1) :
    before (rtcCalendarMonthLengthCalc leap) 0 12 = 365 + leap := by
  interval_cases leap <;> rfl

theorem months_shift (hleap : leap ≤ 1) (hm : m ≤ 12) :
    before (monthDays leap) 1 m = before (rtcCalendarMonthLengthCalc leap) 0 m := by
  refine before_congr fun i hi => ?_
  rw [monthLengthCalc_eq hleap (0 + i) (by omega), show 0 + i + 1 = 1 + i by omega]

theorem monthLengthCalc_pos (leap mon : Nat) : 0 < rtcCalendarMonthLengthCalc leap mon := by
  unfold rtcCalendarMonthLengthCalc
  split
  . omega
  . dsimp only
    split <;> split <;> omega

theorem toDate_eq (hm : m < 12)
    (hq : q < rtcCalendarMonthLengthCalc (isLeapYear (begYear + y)) m) (htime : time < daySeconds)
    (hdays : before yearLength begYear y +
      (before (rtcCalendarMonthLengthCalc (isLeapYear (begYear + y))) 0 m + q) < 2 ^ 16) :
    rtcCalendarTimestampToDate ((before yearLength begYear y +
        (before (rtcCalendarMonthLengthCalc (isLeapYear (begYear + y))) 0 m + q)) * daySeconds +
        time) =
      { year := begYear + y, month := m + 1, day := q + 1, seconds := time % 60
        minutes := time % 3600 / 60, hour := time / 3600 } := by
  have hleap := isLeapYear_le (begYear + y)
  have hmonths := months_le hleap m hm
  have hyears : y ≤ before yearLength begYear y :=
    le_before (fun yr => by rw [yearLength_eq]; omega) begYear y
  have hcount := le_before (monthLengthCalc_pos (isLeapYear (begYear + y))) 0 m
  have hpos : 0 < daySeconds := by decide
  unfold rtcCalendarTimestampToDate
  dsimp only
  rw [Nat.add_comm (_ * daySeconds), Nat.add_mul_mod_self_right, Nat.mod_eq_of_lt htime,
    Nat.add_mul_div_right _ _ hpos, Nat.div_eq_of_lt htime, Nat.zero_add, Nat.mod_eq_of_lt hdays,
    locate_before (by rw [yearLength_eq]; omega) (by omega)]
  dsimp only
  rw [locate_before (by rwa [Nat.zero_add]) (by omega), Nat.zero_add]

theorem toDate_real (ht : t < 2 ^ 32) :
    Real (rtcCalendarTimestampToDate t) ∧ secondsTo (rtcCalendarTimestampToDate t) = t := by
  have hpos : ∀ yr, 0 < yearLength yr := fun yr => by rw [yearLength_eq]; omega
  obtain ⟨y, r, -, hyears, hr⟩ := exists_before (le_before hpos begYear (t / daySeconds + 1))
  have hleap := isLeapYear_le (begYear + y)
  rw [yearLength_eq, ← months_eq hleap] at hr
  obtain ⟨m, q, hm, hmonths, hq⟩ := exists_before hr
  rw [Nat.zero_add] at hq
  have htime : t % daySeconds < daySeconds := Nat.mod_lt _ (by decide)
  have hdays : t / daySeconds < 2 ^ 16 := by unfold daySeconds; omega
  have hdate := toDate_eq hm hq htime (by rwa [← hmonths, ← hyears])
  rw [← hmonths, ← hyears, Nat.div_add_mod' t daySeconds] at hdate
  have hlen := monthLengthCalc_eq hleap
  rw [hdate]
  refine ⟨⟨⟨Nat.le_add_right _ _, by dsimp only; omega, by dsimp only; omega, ?_⟩, ?_⟩, ?_⟩
  . dsimp only
    unfold daySeconds at *
    omega
  . dsimp only
    rw [← hlen m hm]
    omega
  . unfold secondsTo
    dsimp only
    rw [Nat.add_sub_cancel_left, Nat.add_sub_cancel, Nat.add_sub_cancel,
      months_shift hleap (Nat.le_of_lt hm), Nat.add_assoc (before yearLength begYear y), ← hmonths,
      ← hyears]
    unfold daySeconds
    omega

theorem toDate_secondsTo (h : Real d) (hd : secondsTo d < 2 ^ 32) :
    rtcCalendarTimestampToDate (secondsTo d) = d := by
  obtain ⟨⟨hyear, hmonth, hday, htime⟩, hexist⟩ := h
  obtain ⟨year, month, day, seconds, minutes, hour⟩ := d
  dsimp only at *
  obtain ⟨y, rfl⟩ := Nat.exists_eq_add_of_le hyear
  obtain ⟨m, rfl⟩ := Nat.exists_eq_add_of_le' hmonth.1
  obtain ⟨q, rfl⟩ := Nat.exists_eq_add_of_le' hday
  have hleap := isLeapYear_le (begYear + y)
  have hm : m < 12 := by omega
  unfold secondsTo at *
  simp only [Nat.add_sub_cancel_left, Nat.add_sub_cancel] at *
  rw [months_shift hleap (Nat.le_of_lt hm), Nat.add_assoc (before yearLength begYear y)] at *
  rw [← monthLengthCalc_eq hleap m hm] at hexist
  rw [toDate_eq hm (Nat.lt_of_succ_le hexist) (by unfold daySeconds; omega)
    (by unfold daySeconds at hd; omega)]
  simp only [UtcTime.mk.injEq, true_and]
  omega

theorem toTimestamp_eq (h : Real d) (hcheck : rtcCalendarCheckUtcTime d = true) :
    rtcCalendarDateToTimestamp d = secondsTo d % 2 ^ 32 := by
  have hmonth := h.month
  rw [rtcCalendarDateToTimestamp, if_pos hcheck]
  refine congrArg (fun n : Nat => n % 2 ^ 32) ?_
  rw [secondsTo, months_shift (isLeapYear_le d.year) (by omega)]
  unfold daySeconds
  omega

theorem calendar_iff (t : Nat) (d : UtcTime) :
    (t < 2 ^ 32 → ∃ d', Real d' ∧ secondsTo d' = t ∧
      (rtcCalendarDateToTimestamp (rtcCalendarTimestampToDate t) = t ↔ ¬ Cut d')) ∧
    (Real d → secondsTo d < 2 ^ 32 →
      (rtcCalendarCheckUtcTime d = true ∧
        rtcCalendarTimestampToDate (rtcCalendarDateToTimestamp d) = d ↔ ¬ Cut d)) ∧
    (¬ Real d → (rtcCalendarCheckUtcTime d = false ↔ ¬ Extra d)) := by
  have hround : ∀ d, Real d → secondsTo d < 2 ^ 32 → rtcCalendarCheckUtcTime d = true →
      rtcCalendarDateToTimestamp d = secondsTo d := by
    intro d hreal hd hcheck
    rw [toTimestamp_eq hreal hcheck, Nat.mod_eq_of_lt hd]
  refine ⟨fun ht => ?_, fun hreal hd => ?_, fun hnot => ?_⟩
  . obtain ⟨hreal, hseconds⟩ := toDate_real ht
    refine ⟨_, hreal, hseconds, ?_⟩
    rw [← check_real hreal]
    constructor
    . intro hback
      by_contra hcheck
      rw [rtcCalendarDateToTimestamp, if_neg hcheck] at hback
      rw [← hback] at hcheck
      exact hcheck (by decide)
    . intro hcheck
      rw [hround _ hreal (by rw [hseconds]; exact ht) hcheck, hseconds]
  . rw [← check_real hreal]
    refine and_iff_left_of_imp fun hcheck => ?_
    rw [hround d hreal hd hcheck, toDate_secondsTo hreal hd]
  . rw [← check_notReal hnot, Bool.not_eq_true]

theorem calendar_first :
    (rtcCalendarCheckUtcTime ⟨2000, 1, 1, 0, 0, 0⟩ = true ∧
      rtcCalendarTimestampToDate (rtcCalendarDateToTimestamp ⟨2000, 1, 1, 0, 0, 0⟩) =
        ⟨2000, 1, 1, 0, 0, 0⟩) ↔ ¬ Cut ⟨2000, 1, 1, 0, 0, 0⟩ :=
  (calendar_iff 0 ⟨2000, 1, 1, 0, 0, 0⟩).2.1
    ⟨⟨by decide, by decide, by decide, by decide⟩, by decide⟩ (by decide)

theorem not_calendar :
    rtcCalendarDateToTimestamp (rtcCalendarTimestampToDate 2678399) = 0 ∧
      (Real ⟨2000, 1, 31, 59, 59, 23⟩ ∧ rtcCalendarCheckUtcTime ⟨2000, 1, 31, 59, 59, 23⟩ = false) ∧
      ¬ Real ⟨2000, 2, 30, 0, 0, 0⟩ ∧ rtcCalendarCheckUtcTime ⟨2000, 2, 30, 0, 0, 0⟩ = true := by
  refine ⟨by decide, ⟨⟨⟨by decide, by decide, by decide, by decide⟩, by decide⟩, by decide⟩,
    fun h => absurd h.exist (by decide), by decide⟩

end Calendar
