import Earphone.Hid.Parser

namespace Hid

open Scan

def Parser.Inside (p : Parser) : Prop :=
  1 ≤ p.globals.reportSize ∧ p.reportPosInBit + p.globals.reportSize ≤ 8 * p.report.length

inductive Reached (c : Open) (fuel : Nat) (descriptor : List UInt8) (reportType : ReportType)
    (report : List UInt8) : Parser → Prop where
  | init {p : Parser} : btHidParserInit c fuel descriptor reportType report = .ok p →
      Reached c fuel descriptor reportType report p
  | access {p p' : Parser} {field : Field} : Reached c fuel descriptor reportType report p →
      btHidParserHasMore p = true → btHidParserAccessReportField c fuel p = .ok (field, p') →
      Reached c fuel descriptor reportType report p'

structure Parser.Sound (descriptor report : List UInt8) (p : Parser) : Prop where
  onDescriptor : p.descriptor = descriptor
  onReport : p.report = report
  pos : p.state = .usagesAvailable → p.descriptorPos < descriptor.length

def Safe (descriptor report : List UInt8) : Except Stuck Parser → Prop
  | .ok p => p.Sound descriptor report
  | .error stuck => stuck ≠ .outside

section

variable {c : Open} {fuel n pos stop : Nat} {descriptor report : List UInt8}
  {reportType : ReportType} {p : Parser} {item stale : Item} {s : UsageCursor}

theorem parse_total (hpos : pos < descriptor.length) :
    ∃ item, btHidParseDescriptorItem stale (descriptor.drop pos) (descriptor.length - pos) =
      .ok item := by
  have hlen : 0 < (descriptor.drop pos).length := by
    rw [List.length_drop]
    omega
  rw [← List.length_drop]
  cases hshort : shortLong (descriptor.drop pos) with
  | false => exact ⟨_, parse_eq hlen hshort⟩
  | true =>
    obtain ⟨item, hitem, -⟩ := parse_short stale hlen hshort
    exact ⟨item, hitem⟩

theorem findNextUsage_safe (hstop : stop ≤ descriptor.length) :
    btHidFindNextUsage c descriptor stop fuel s ≠ .error .outside := by
  induction fuel generalizing s with
  | zero => exact fun h => by cases h
  | succ fuel ih =>
    unfold btHidFindNextUsage
    by_cases hmore : s.availableUsages = 0 ∧ s.usagePos < stop
    . obtain ⟨item, hitem⟩ := @parse_total s.usagePos descriptor c.usageItem (by omega)
      rw [if_pos hmore]
      simp only [hitem, bind, Except.bind]
      exact ih
    . rw [if_neg hmore]
      exact fun h => by cases h

theorem takeReport_frame : (takeReport item p).descriptor = p.descriptor ∧
    (takeReport item p).descriptorPos = p.descriptorPos ∧ (takeReport item p).report = p.report ∧
    (takeReport item p).state = p.state := by
  unfold takeReport
  split_ifs <;> exact ⟨rfl, rfl, rfl, rfl⟩

theorem processItem_safe (hreport : p.report ≠ []) :
    ∃ q, btHidProcessItem item p = .ok q ∧ q.descriptor = p.descriptor ∧
      q.descriptorPos = p.descriptorPos ∧ q.report = p.report ∧ q.state = p.state := by
  have hbyte := byteAt_lt (List.length_pos_iff.mpr hreport)
  unfold btHidProcessItem
  simp only [hbyte, bind, Except.bind]
  split_ifs
  . exact ⟨_, rfl, rfl, rfl, rfl, rfl⟩
  . exact ⟨_, rfl, takeReport_frame⟩
  . exact ⟨_, rfl, takeReport_frame⟩
  . exact ⟨_, rfl, rfl, rfl, rfl, rfl⟩

theorem parserFindNextUsage_safe (h : p.Sound descriptor report) (hreport : report ≠ []) :
    Safe descriptor report (btHidParserFindNextUsage c fuel n p) := by
  induction n generalizing p with
  | zero => exact fun h => by cases h
  | succ n ih =>
    unfold btHidParserFindNextUsage
    by_cases hstate : p.state = .scanForReportItem
    . rw [if_pos hstate]
      by_cases hend : p.descriptor.length ≤ p.descriptorPos
      . rw [if_pos hend]
        exact ⟨h.onDescriptor, h.onReport, fun hdone => by cases hdone⟩
      . have hlt : p.descriptorPos < p.descriptor.length := by omega
        obtain ⟨item, hitem⟩ := @parse_total p.descriptorPos p.descriptor p.descriptorItem hlt
        obtain ⟨q, hq, hdescriptor, hpos, hqreport, hqstate⟩ :=
          @processItem_safe { p with descriptorItem := item } item (h.onReport ▸ hreport)
        rw [if_neg hend]
        simp only [hitem, bind, Except.bind, hq]
        have hsound : q.Sound descriptor report := by
          refine ⟨hdescriptor.trans h.onDescriptor, hqreport.trans h.onReport, fun havailable => ?_⟩
          rw [hqstate] at havailable
          simp only [hstate] at havailable
          cases havailable
        by_cases hrequired : q.requiredUsages ≠ 0
        . rw [if_pos hrequired]
          have hin : q.descriptorPos < q.descriptor.length := by
            rw [hpos, hdescriptor]
            exact hlt
          have husage := @findNextUsage_safe c fuel q.descriptorPos q.descriptor q.cursor
            (Nat.le_of_lt hin)
          cases hcursor : btHidFindNextUsage c q.descriptor q.descriptorPos fuel q.cursor with
          | error stuck =>
            rw [hcursor] at husage
            exact fun heq => husage (congrArg Except.error heq)
          | ok cursor =>
            exact ⟨hsound.onDescriptor, hsound.onReport, fun _ => hsound.onDescriptor ▸ hin⟩
        . rw [if_neg hrequired]
          refine ih ⟨hsound.onDescriptor, hsound.onReport, fun havailable => ?_⟩
          have hscan : q.state = .usagesAvailable := havailable
          rw [hqstate] at hscan
          simp only [hstate] at hscan
          cases hscan
    . rw [if_neg hstate]
      exact h

theorem init_safe (hreport : report ≠ []) :
    Safe descriptor report (btHidParserInit c fuel descriptor reportType report) := by
  apply parserFindNextUsage_safe _ hreport
  exact ⟨rfl, rfl, fun havailable => by cases havailable⟩

theorem goOn_safe (h : p.Sound descriptor report) (hstate : p.state = .usagesAvailable)
    (hreport : report ≠ []) : Safe descriptor report (goOn c fuel p) := by
  unfold goOn
  by_cases havailable : p.cursor.availableUsages ≠ 0
  . rw [if_pos havailable]
    exact h
  . rw [if_neg havailable]
    by_cases hrequired : p.requiredUsages = 0
    . rw [if_pos hrequired]
      apply parserFindNextUsage_safe _ hreport
      exact ⟨h.onDescriptor, h.onReport, fun hscan => by cases hscan⟩
    . rw [if_neg hrequired]
      have hin := h.pos hstate
      rw [← h.onDescriptor] at hin
      have husage := @findNextUsage_safe c fuel p.descriptorPos p.descriptor p.cursor
        (Nat.le_of_lt hin)
      cases hcursor : btHidFindNextUsage c p.descriptor p.descriptorPos fuel p.cursor with
      | error stuck =>
        rw [hcursor] at husage
        exact fun heq => husage (congrArg Except.error heq)
      | ok cursor => exact ⟨h.onDescriptor, h.onReport, fun _ => h.onDescriptor ▸ hin⟩

theorem readBytes_total (hin : pos + n ≤ report.length) :
    ∃ readData, readBytes c report pos n = .ok readData := by
  induction n with
  | zero => exact ⟨0, rfl⟩
  | succ n ih =>
    obtain ⟨readData, hread⟩ := ih (by omega)
    have hbyte := @byteAt_lt report (pos + n) (by omega)
    simp only [readBytes, hread, hbyte, bind, Except.bind]
    exact ⟨_, rfl⟩

theorem readField_total {size : Nat} (hone : 1 ≤ size) (hin : pos + size ≤ 8 * report.length) :
    ∃ tmpValue, readField c report pos size = .ok tmpValue := by
  have hend : posEndOf pos size = (pos + size - 1) / 8 := if_neg (by omega)
  have hfew : bytesToRead (pos / 8) ((pos + size - 1) / 8) ≤
      (pos + size - 1) / 8 + 1 - pos / 8 := by
    unfold bytesToRead
    omega
  obtain ⟨readData, hread⟩ := @readBytes_total c
    (bytesToRead (pos / 8) ((pos + size - 1) / 8)) (pos / 8) report (by omega)
  unfold readField
  rw [hend, Nat.min_eq_left (by omega), Nat.min_eq_left (by omega)]
  simp only [hread, bind, Except.bind]
  exact ⟨_, rfl⟩

theorem access_safe (h : p.Sound descriptor report) (hmore : btHidParserHasMore p = true)
    (hreport : report ≠ []) :
    (∀ field p', btHidParserAccessReportField c fuel p = .ok (field, p') →
      p'.Sound descriptor report) ∧
    (p.Inside → btHidParserAccessReportField c fuel p ≠ .error .outside) := by
  have hstate : p.state = .usagesAvailable := of_decide_eq_true hmore
  have hgo : Safe descriptor report (goOn c fuel (afterField p)) :=
    goOn_safe ⟨h.onDescriptor, h.onReport, h.pos⟩ hstate hreport
  unfold btHidParserAccessReportField
  constructor
  . intro field p' haccess
    cases hread : readField c p.report p.reportPosInBit p.globals.reportSize with
    | error stuck =>
      rw [hread] at haccess
      cases haccess
    | ok tmpValue =>
      simp only [hread, bind, Except.bind] at haccess
      cases hgoOn : goOn c fuel (afterField p) with
      | error stuck =>
        rw [hgoOn] at haccess
        cases haccess
      | ok q =>
        rw [hgoOn] at haccess hgo
        cases haccess
        exact hgo
  . intro hinside
    obtain ⟨tmpValue, hread⟩ := @readField_total c p.reportPosInBit p.report _ hinside.1 hinside.2
    simp only [hread, bind, Except.bind]
    cases hgoOn : goOn c fuel (afterField p) with
    | error stuck =>
      rw [hgoOn] at hgo
      intro heq
      cases heq
      exact hgo rfl
    | ok q => exact fun heq => by cases heq

theorem Reached.sound (h : Reached c fuel descriptor reportType report p) (hreport : report ≠ []) :
    p.Sound descriptor report := by
  induction h with
  | init hinit =>
    have hsafe := @init_safe c fuel descriptor report reportType hreport
    rw [hinit] at hsafe
    exact hsafe
  | access _ hmore haccess ih => exact (access_safe ih hmore hreport).1 _ _ haccess

theorem Reached.safe (h : Reached c fuel descriptor reportType report p)
    (hmore : btHidParserHasMore p = true) (hreport : report ≠ []) (hinside : p.Inside) :
    btHidParserAccessReportField c fuel p ≠ .error .outside :=
  (access_safe (h.sound hreport) hmore hreport).2 hinside

end

end Hid
