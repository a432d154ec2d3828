import Earphone.Remote.Basic
import Mathlib.Tactic.Tauto

namespace Remote

def clkPeriod : Nat := 2 ^ 28

structure ClkRead.Valid (clk : ClkRead) : Prop where
  slot : clk.slot < clkPeriod
  first : clk.slot % 2 = 0 → clk.us ≤ 312
  second : clk.slot % 2 = 1 → 312 ≤ clk.us ∧ clk.us ≤ 624

def usUntil (clk : ClkRead) (slots : Nat) : Nat := (625 * (slots + clk.slot % 2) - 2 * clk.us) / 2

structure ReadAfter (clk : ClkRead) (elapsed : Nat) (r : ClkRead) : Prop where
  valid : r.Valid
  clkRef : r.clkRef = clk.clkRef
  slot : r.slot = (clk.slot + elapsed) % clkPeriod

theorem slotDiff_eq (a b : Nat) (hb : b < clkPeriod) :
    slotDiff a b = (a + (clkPeriod - b)) % clkPeriod := by
  unfold clkPeriod at *
  have h : slotDiff a b =
      (a * 2 ^ 4 % 2 ^ 32 + (2 ^ 32 - b * 2 ^ 4 % 2 ^ 32)) % 2 ^ 32 / 2 ^ 4 := by
    rw [slotDiff, Nat.shiftRight_eq_div_pow, Nat.shiftLeft_eq, Nat.shiftLeft_eq]
    rfl
  omega

theorem slotsToUs_eq (h : slots < 2 ^ 16) : slotsToUs slots = 625 * slots / 2 := by
  simp only [slotsToUs, u32, Nat.shiftRight_eq_div_pow]
  omega

theorem stampTimeOffset_bounds (clk : ClkRead) (hpos : 0 < msg.timeDuration)
    (hlt : msg.timeDuration < 2 ^ 16) :
    0 < stampTimeOffset msg clk ∧ stampTimeOffset msg clk < 2 ^ 16 := by
  -- the smallest distance of 30ms has 96 half slots
  have hmin : 2 * remoteRelayPeriodMin * 1000 / 625 = 96 := rfl
  unfold stampTimeOffset
  rw [hmin]
  dsimp only
  split
  . omega
  . split
    . omega
    . next h =>
      rw [Bool.or_eq_true, decide_eq_true_eq, decide_eq_true_eq, not_or] at h
      split <;> omega

theorem syncAhead_stamped (hclk : clk.slot < clkPeriod) (hr : ReadAfter clk elapsed r)
    (hlt : offset < 2 ^ 16) (he : elapsed < offset) :
    syncAhead (clk.slot + offset) r.slot = decide (clk.slot + elapsed < clkPeriod) := by
  have hslot := hr.slot
  unfold clkPeriod at *
  -- a reading after the wrap is smaller than the stamp by almost a full round
  by_cases hw : clk.slot + elapsed < 2 ^ 28
  . have : r.slot = clk.slot + elapsed := by omega
    simp only [syncAhead, this, hw, decide_true, Bool.or_eq_true, Bool.and_eq_true,
      decide_eq_true_eq]
    omega
  . have : r.slot = clk.slot + elapsed - 2 ^ 28 := by omega
    simp only [syncAhead, this, hw, decide_false, Bool.or_eq_false_iff, Bool.and_eq_false_iff,
      decide_eq_false_iff_not]
    omega

theorem slotDiff_stamped (hr : ReadAfter clk elapsed r) (hlt : offset < 2 ^ 16)
    (he : elapsed < offset) :
    slotDiff (clk.slot + offset) r.slot = offset - elapsed := by
  rw [slotDiff_eq _ _ hr.valid.slot, hr.slot]
  unfold clkPeriod at *
  omega

theorem usUntil_eq_iff (hr : r.Valid) (hpos : 0 < slots) :
    (if 625 * slots / 2 < r.us then 0 else 625 * slots / 2 - r.us) = usUntil r slots ↔
      r.slot % 2 = 0 := by
  unfold usUntil
  obtain h | h := Nat.mod_two_eq_zero_or_one r.slot
  . have := hr.first h
    rw [h, if_neg (by omega)]
    omega
  . have := hr.second h
    rw [h]
    split <;> omega

theorem stamp_timeInfo (hclk : clk.slot < clkPeriod) (hlt : stampTimeOffset msg clk < 2 ^ 16) :
    (stamp msg clk).timeInfo = clk.slot + stampTimeOffset msg clk := by
  unfold clkPeriod at hclk
  simp only [stamp, u32]
  omega

theorem stamp_timeDuration (hlt : stampTimeOffset msg clk < 2 ^ 16) :
    (stamp msg clk).timeDuration = stampTimeOffset msg clk :=
  Nat.mod_eq_of_lt hlt

theorem raiseTimeOffset_eq_iff (hclk : clk.slot < clkPeriod) (href : clk.clkRef ≠ .none)
    (hr : ReadAfter clk elapsed r) (hlt : stampTimeOffset msg clk < 2 ^ 16)
    (he : elapsed < stampTimeOffset msg clk) :
    raiseTimeOffset (stamp msg clk).timeInfo r = usUntil r (stampTimeOffset msg clk - elapsed) ↔
      r.slot % 2 = 0 ∧ (clk.slot + elapsed < clkPeriod ∨
        usUntil r (stampTimeOffset msg clk - elapsed) = 0) := by
  rw [stamp_timeInfo hclk hlt]
  unfold raiseTimeOffset
  rw [if_neg (by rw [hr.clkRef]; exact href), syncAhead_stamped hclk hr hlt he,
    slotDiff_stamped hr hlt he, slotsToUs_eq (by omega)]
  by_cases hw : clk.slot + elapsed < clkPeriod
  . simp only [hw, decide_true, if_true, true_or, and_true]
    exact usUntil_eq_iff hr.valid (by omega)
  . simp only [hw, decide_false, false_or, Bool.false_eq_true, if_false]
    constructor
    . intro h
      refine ⟨?_, h.symm⟩
      obtain h2 | h2 := Nat.mod_two_eq_zero_or_one r.slot
      . exact h2
      . have := hr.valid.second h2
        unfold usUntil at h
        rw [h2] at h
        omega
    . intro h
      exact h.2.symm

theorem dataIndSync_sameClk (ctrlClk : ClkRead) (href : clk.clkRef ≠ .none)
    (hr : r.clkRef = clk.clkRef) :
    dataIndSync (stamp msg clk) r ctrlClk = syncVerdict (stamp msg clk) r := by
  have h1 : r.clkRef ≠ .none := by rw [hr]; exact href
  have h2 : (stamp msg clk).clkRef = r.clkRef := by rw [hr]; rfl
  simp [dataIndSync, h1, h2]

section

variable (hclk : clk.slot < clkPeriod) (href : clk.clkRef ≠ .none) (hr : ReadAfter clk elapsed r)
  (hlt : stampTimeOffset msg clk < 2 ^ 16)

include hclk href hr hlt

theorem dataIndSync_eq_armed_iff (he : elapsed < stampTimeOffset msg clk) (ctrlClk : ClkRead) :
    dataIndSync (stamp msg clk) r ctrlClk = .armed (usUntil r (stampTimeOffset msg clk - elapsed)) ↔
      r.slot % 2 = 0 ∧ clk.slot + elapsed < clkPeriod := by
  rw [dataIndSync_sameClk ctrlClk href hr.clkRef]
  unfold syncVerdict
  dsimp only
  rw [stamp_timeInfo hclk hlt, stamp_timeDuration hlt, syncAhead_stamped hclk hr hlt he,
    slotDiff_stamped hr hlt he, slotsToUs_eq (by omega)]
  by_cases hw : clk.slot + elapsed < clkPeriod
  . have hle : ¬stampTimeOffset msg clk - elapsed > stampTimeOffset msg clk := by omega
    have hpos : 0 < stampTimeOffset msg clk - elapsed := by omega
    have hiff := usUntil_eq_iff hr.valid hpos
    simp only [hw, decide_true, if_true, hle, if_false, and_true]
    split
    . next hus =>
      rw [if_pos hus] at hiff
      obtain h2 | h2 := Nat.mod_two_eq_zero_or_one r.slot
      . have := hr.valid.first h2
        omega
      . simp [h2]
    . next hus =>
      rw [if_neg hus] at hiff
      simpa using hiff
  . simp [hw]

theorem dataIndSync_expired (he : stampTimeOffset msg clk ≤ elapsed) (hround : elapsed < clkPeriod)
    (ctrlClk : ClkRead) :
    dataIndSync (stamp msg clk) r ctrlClk = .expired := by
  rw [dataIndSync_sameClk ctrlClk href hr.clkRef]
  unfold syncVerdict
  rw [stamp_timeInfo hclk hlt, stamp_timeDuration hlt]
  split
  . next hahead =>
    -- past the instant the distance goes round the clock and exceeds the duration
    have hdiff :
    slotDiff (clk.slot + stampTimeOffset msg clk) r.slot > stampTimeOffset msg clk := by
      have hslot := hr.slot
      have hvalid := hr.valid.slot
      rw [slotDiff_eq _ _ hvalid]
      unfold clkPeriod at *
      simp only [syncAhead, Bool.or_eq_true, Bool.and_eq_true, decide_eq_true_eq] at hahead
      omega
    simp [hdiff]
  . rfl

end

theorem syncMsgTime_timeDuration (clk : ClkRead) (msg : RelayMsg)
    (hpos : 0 < timerPeriod) (hfit : 2 * timerPeriod * 1000 / 625 < 2 ^ 16) :
    0 < (syncMsgTime timerPeriod clk msg).timeDuration ∧
      (syncMsgTime timerPeriod clk msg).timeDuration < 2 ^ 16 := by
  have h32 : u32 (2 * timerPeriod * 1000) = 2 * timerPeriod * 1000 := Nat.mod_eq_of_lt (by omega)
  simp only [syncMsgTime, h32, u16, Nat.mod_eq_of_lt hfit]
  omega

theorem syncRelay_instant (msg : RelayMsg) (timerPeriod : Nat) (hpos : 0 < timerPeriod)
    (hfit : 2 * timerPeriod * 1000 / 625 < 2 ^ 16) (reqClk clk : ClkRead)
    (hclk : clk.slot < clkPeriod) (href : clk.clkRef ≠ .none) (ctrlClk : ClkRead) :
    let offset := stampTimeOffset (syncMsgTime timerPeriod reqClk msg) clk
    let sent := stamp (syncMsgTime timerPeriod reqClk msg) clk
    (∀ s r sClk rClk, ReadAfter clk s sClk → ReadAfter clk r rClk → s < offset → r < offset →
      ((raiseTimeOffset sent.timeInfo sClk = usUntil sClk (offset - s) ∧
          dataIndSync sent rClk ctrlClk = .armed (usUntil rClk (offset - r))) ↔
        ((sClk.slot % 2 = 0 ∧ (clk.slot + s < clkPeriod ∨ usUntil sClk (offset - s) = 0)) ∧
          rClk.slot % 2 = 0 ∧ clk.slot + r < clkPeriod))) ∧
      ∀ r rClk, ReadAfter clk r rClk → offset ≤ r → r < clkPeriod →
        dataIndSync sent rClk ctrlClk = .expired := by
  intro offset sent
  obtain ⟨hdpos, hdlt⟩ := syncMsgTime_timeDuration reqClk msg hpos hfit
  have hlt : offset < 2 ^ 16 := (stampTimeOffset_bounds clk hdpos hdlt).2
  constructor
  . intro s r sClk rClk hs hr hso hro
    exact and_congr (raiseTimeOffset_eq_iff hclk href hs hlt hso)
      (dataIndSync_eq_armed_iff hclk href hr hlt hro ctrlClk)
  . intro r rClk hr hle hround
    exact dataIndSync_expired hclk href hr hlt hle hround ctrlClk

theorem syncRelay_instant_default :
    let msg := syncMsgTime 60 ⟨.sniffing, 998, 5⟩ ⟨0, 1, 0, 7, [], .sync, .highPrecision, .none, 0, 0⟩
    let sent := stamp msg ⟨.sniffing, 1000, 7⟩
    raiseTimeOffset sent.timeInfo ⟨.sniffing, 1000, 9⟩ = usUntil ⟨.sniffing, 1000, 9⟩ 190 ∧
      dataIndSync sent ⟨.sniffing, 1040, 200⟩ ⟨.none, 0, 0⟩ =
        .armed (usUntil ⟨.sniffing, 1040, 200⟩ 150) := by
  intro msg sent
  have h := syncRelay_instant ⟨0, 1, 0, 7, [], .sync, .highPrecision, .none, 0, 0⟩ 60 (by decide)
    (by decide) ⟨.sniffing, 998, 5⟩ ⟨.sniffing, 1000, 7⟩ (by decide) (by decide) ⟨.none, 0, 0⟩
  refine (h.1 0 40 ⟨.sniffing, 1000, 9⟩ ⟨.sniffing, 1040, 200⟩ ?_ ?_ (by decide) (by decide)).mpr
    (by decide)
  . exact ⟨⟨by decide, by decide, by decide⟩, rfl, by decide⟩
  . exact ⟨⟨by decide, by decide, by decide⟩, rfl, by decide⟩

theorem syncRelay_expired_wrap :
    ¬∀ (msg : RelayMsg) (timerPeriod : Nat) (reqClk clk r ctrlClk : ClkRead) (elapsed : Nat),
      0 < timerPeriod → 2 * timerPeriod * 1000 / 625 < 2 ^ 16 → reqClk.Valid → clk.Valid →
        clk.clkRef ≠ .none → ReadAfter clk elapsed r →
          elapsed < stampTimeOffset (syncMsgTime timerPeriod reqClk msg) clk →
            dataIndSync (stamp (syncMsgTime timerPeriod reqClk msg) clk) r ctrlClk ≠ .expired := by
  intro h
  apply h ⟨0, 1, 0, 7, [], .sync, .highPrecision, .none, 0, 0⟩ 60 ⟨.sniffing, 2 ^ 28 - 12, 5⟩
    ⟨.sniffing, 2 ^ 28 - 10, 7⟩ ⟨.sniffing, 10, 100⟩ ⟨.none, 0, 0⟩ 20
  . decide
  . decide
  . exact ⟨by decide, by decide, by decide⟩
  . exact ⟨by decide, by decide, by decide⟩
  . decide
  . exact ⟨⟨by decide, by decide, by decide⟩, rfl, by decide⟩
  . decide
  . decide

end Remote
