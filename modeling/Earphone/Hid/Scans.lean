import Earphone.Hid.Item

/-!
This module contains the four functions that go through the items of a descriptor.
-/

namespace Hid

open Scan List

def btHidMainItemTagInput : Nat := 0x08

def btHidMainItemTagOutput : Nat := 0x09

def btHidMainItemTagFeature : Nat := 0x0b

inductive ReportType where
  | reserved
  | input
  | output
  | feature
  deriving DecidableEq

inductive ReportIdStatus where
  | undeclared
  | valid
  | invalid

section

variable {σ ρ : Type}

def scan (stale : Item) (visit : Item → σ → Except ρ σ) :
    Nat → List UInt8 → Nat → σ → Except Stuck (Except ρ σ)
  | 0, _, _, _ => .error .endless
  | fuel + 1, desc, len, s => do
    if len ≠ 0 then
      let item ← btHidParseDescriptorItem stale desc len
      match visit item s with
      | .error r => return .error r
      | .ok s => scan stale visit fuel (desc.drop item.itemSize) (sub16 len item.itemSize) s
    else return .ok s

end

def ReportType.code : ReportType → Nat
  | .reserved => 0
  | .input => 1
  | .output => 2
  | .feature => 3

def mainReportType (itemTag : Nat) : ReportType :=
  if itemTag = btHidMainItemTagInput then .input
  else if itemTag = btHidMainItemTagOutput then .output
  else if itemTag = btHidMainItemTagFeature then .feature
  else .reserved

structure Sizes where
  totalReportSize : Nat
  currentReportSize : Nat
  currentReportCount : Nat
  currentReportId : Nat

def Sizes.zero : Sizes := ⟨0, 0, 0, 0⟩

def visitSize (reportId : Nat) (reportType : ReportType) (item : Item) (s : Sizes) :
    Except Empty Sizes :=
  if item.itemType = btHidItemTypeGlobal then
    if item.itemTag = btHidGlobalItemTagReportId then
      .ok { s with currentReportId := item.itemValue }
    else if item.itemTag = btHidGlobalItemTagReportCount then
      .ok { s with currentReportCount := item.itemValue }
    else if item.itemTag = btHidGlobalItemTagReportSize then
      .ok { s with currentReportSize := item.itemValue }
    else .ok s
  else if item.itemType = btHidItemTypeMain then
    if s.currentReportId = reportId ∧ reportType = mainReportType item.itemTag then
      .ok { s with totalReportSize :=
        (s.totalReportSize + s.currentReportCount * s.currentReportSize) % 2 ^ 32 }
    else .ok s
  else .ok s

def btHidReportSizeGetById (stale : Item) (reportId : Nat) (reportType : ReportType)
    (desc : List UInt8) (fuel : Nat) : Except Stuck Nat := do
  match ← scan stale (visitSize reportId reportType) fuel desc desc.length Sizes.zero with
  | .error e => nomatch e
  | .ok s => return (s.totalReportSize + 7) % 2 ^ 32 / 8

def isReportId (item : Item) : Bool :=
  item.itemType = btHidItemTypeGlobal ∧ item.itemTag = btHidGlobalItemTagReportId

def visitStatus (reportId : Nat) (item : Item) (currentReportId : Nat) :
    Except ReportIdStatus Nat :=
  if isReportId item then
    if reportId = item.itemValue then .error .valid else .ok item.itemValue
  else .ok currentReportId

def btHidGetReportIdStatus (stale : Item) (reportId : Nat) (desc : List UInt8) (fuel : Nat) :
    Except Stuck ReportIdStatus := do
  match ← scan stale (visitStatus reportId) fuel desc desc.length 0 with
  | .error status => return status
  | .ok currentReportId => return if currentReportId ≠ 0 then .invalid else .undeclared

def visitDeclared (item : Item) (s : Unit) : Except Bool Unit :=
  if isReportId item then .error true else .ok s

def btHidReportIdDeclared (stale : Item) (desc : List UInt8) (fuel : Nat) : Except Stuck Bool := do
  match ← scan stale visitDeclared fuel desc desc.length () with
  | .error declared => return declared
  | .ok _ => return false

def hasReports (reportType : Nat) (item : Item) : Bool :=
  item.itemType = btHidItemTypeMain ∧ mainReportType item.itemTag ≠ .reserved ∧
    reportType = (mainReportType item.itemTag).code

def visitType (reportType : Nat) (item : Item) (s : Unit) : Except Bool Unit :=
  if hasReports reportType item then .error true else .ok s

def btHidReportTypeIsValid (stale : Item) (reportType : Nat) (desc : List UInt8)
    (fuel : Nat) : Except Stuck Bool := do
  match ← scan stale (visitType reportType) fuel desc desc.length () with
  | .error valid => return valid
  | .ok _ => return false

def cutItems : Nat → List UInt8 → List Item × Bool
  | _, [] => ([], true)
  | 0, _ :: _ => ([], false)
  | n + 1, b :: bs =>
    let item := itemAt (b :: bs)
    if item.itemSize ≤ bs.length + 1 then
      let later := cutItems n ((b :: bs).drop item.itemSize)
      (item :: later.1, later.2)
    else ([item], false)

def itemsOf (desc : List UInt8) : List Item := (cutItems desc.length desc).1

def allComplete (desc : List UInt8) : Bool := (cutItems desc.length desc).2

section

variable {σ ρ : Type}

def visitAll (visit : Item → σ → Except ρ σ) : List Item → σ → Except ρ σ
  | [], s => .ok s
  | item :: items, s =>
    match visit item s with
    | .error r => .error r
    | .ok s => visitAll visit items s

def PassesReserved (visit : Item → σ → Except ρ σ) : Prop :=
  ∀ item s, item.itemType = btHidItemTypeReserved → visit item s = .ok s

variable {visit : Item → σ → Except ρ σ} {stale : Item} {desc : List UInt8} {s s' : σ} {r : ρ}

theorem sub16_length (hk : k ≤ n) (hn : n < 65536) : sub16 n k = n - k := sub16_le hk hn

theorem scan_step (hpos : 0 < desc.length) (hshort : shortLong desc = false) :
    scan stale visit (fuel + 1) desc desc.length s =
      match visit (itemAt desc) s with
      | .error r => .ok (.error r)
      | .ok s => scan stale visit fuel (desc.drop (itemAt desc).itemSize)
          (sub16 desc.length (itemAt desc).itemSize) s := by
  rw [scan, if_pos (by omega), parse_eq hpos hshort]
  simp only [bind, Except.bind]
  cases visit (itemAt desc) s with
  | error r => rfl
  | ok s => rfl

theorem complete_notShort (h : (itemAt desc).itemSize ≤ desc.length) : shortLong desc = false := by
  by_contra hshort
  have := (itemAt_short (by simpa using hshort)).1
  omega

theorem scan_past (hpast : desc.length < (itemAt desc).itemSize)
    (hlen : desc.length < 65536) :
    ∀ r, scan stale visit fuel (desc.drop (itemAt desc).itemSize)
      (sub16 desc.length (itemAt desc).itemSize) s ≠ .ok r := by
  intro r h
  have hle : (itemAt desc).itemSize ≤ 258 := itemAt_size_le
  cases fuel with
  | zero => cases h
  | succ fuel =>
    have hne : sub16 desc.length (itemAt desc).itemSize ≠ 0 := by
      unfold sub16
      omega
    rw [scan, if_pos hne, drop_of_length_le (by omega), parse_nil] at h
    cases h

theorem cutItems_last (hne : desc ≠ []) (h : ¬(itemAt desc).itemSize ≤ desc.length) :
    cutItems (n + 1) desc = ([itemAt desc], false) := by
  cases desc with
  | nil => exact absurd rfl hne
  | cons b bs =>
    rw [length_cons] at h
    simp only [cutItems, if_neg h]

theorem cutItems_next (hne : desc ≠ []) (h : (itemAt desc).itemSize ≤ desc.length) :
    cutItems (n + 1) desc =
      (itemAt desc :: (cutItems n (desc.drop (itemAt desc).itemSize)).1,
        (cutItems n (desc.drop (itemAt desc).itemSize)).2) := by
  cases desc with
  | nil => exact absurd rfl hne
  | cons b bs =>
    rw [length_cons] at h
    simp only [cutItems, if_pos h]

theorem scan_of_items (stale : Item) (hpass : PassesReserved visit) {n : Nat} (hn : desc.length ≤ n)
    (hlen : desc.length < 65536)
    (h : (cutItems n desc).2 = true ∨ ∃ r, visitAll visit (cutItems n desc).1 s = .error r) :
    ∃ fuel, scan stale visit fuel desc desc.length s =
      .ok (visitAll visit (cutItems n desc).1 s) := by
  induction n generalizing desc s with
  | zero =>
    have hnil : desc = [] := length_eq_zero_iff.mp (by omega)
    subst hnil
    exact ⟨1, rfl⟩
  | succ n ih =>
    by_cases hnil : desc = []
    . subst hnil
      exact ⟨1, rfl⟩
    have hpos : 0 < desc.length := length_pos_iff.mpr hnil
    by_cases hle : (itemAt desc).itemSize ≤ desc.length
    . have hsize : 0 < (itemAt desc).itemSize := itemAt_size_pos
      rw [cutItems_next hnil hle] at h ⊢
      simp only [visitAll] at h ⊢
      cases hvisit : visit (itemAt desc) s with
      | error r =>
        refine ⟨1, ?_⟩
        rw [scan_step hpos (complete_notShort hle), hvisit]
      | ok s1 =>
        simp only [hvisit] at h ⊢
        have hlen' : (desc.drop (itemAt desc).itemSize).length ≤ n := by
          rw [length_drop]
          omega
        obtain ⟨fuel, hfuel⟩ := ih hlen' (by rw [length_drop]; omega) h
        refine ⟨fuel + 1, ?_⟩
        rw [scan_step hpos (complete_notShort hle), hvisit, sub16_length hle hlen]
        rw [length_drop] at hfuel
        exact hfuel
    . rw [cutItems_last hnil hle] at h ⊢
      simp only [visitAll] at h ⊢
      cases hvisit : visit (itemAt desc) s with
      | error r =>
        have hshort : shortLong desc = false := by
          by_contra hshort
          rw [hpass _ _ (itemAt_short (by simpa using hshort)).2] at hvisit
          cases hvisit
        refine ⟨1, ?_⟩
        rw [scan_step hpos hshort, hvisit]
      | ok s1 => simp [hvisit] at h

theorem scan_short (hpass : PassesReserved visit) (hstale : stale.itemSize = 0)
    (hpos : 0 < desc.length) (hlen : desc.length < 65536) (hshort : shortLong desc = true)
    (fuel : Nat) (res : Except ρ σ) : scan stale visit fuel desc desc.length s ≠ .ok res := by
  induction fuel with
  | zero => exact nofun
  | succ fuel ih =>
    obtain ⟨item, hparse, htype, hsize⟩ := parse_short stale hpos hshort
    rw [scan, if_pos (by omega), hparse]
    simp only [bind, Except.bind, hpass item s htype, hsize, hstale, drop_zero,
      sub16_length (Nat.zero_le _) hlen, Nat.sub_zero]
    exact ih

theorem scan_of_incomplete (hpass : PassesReserved visit) (hstale : stale.itemSize = 0)
    (hn : desc.length ≤ n) (hlen : desc.length < 65536) (hinc : (cutItems n desc).2 = false)
    (hgo : visitAll visit (cutItems n desc).1 s = .ok s') (fuel : Nat) (res : Except ρ σ) :
    scan stale visit fuel desc desc.length s ≠ .ok res := by
  induction n generalizing desc s fuel with
  | zero =>
    have hnil : desc = [] := length_eq_zero_iff.mp (by omega)
    subst hnil
    cases hinc
  | succ n ih =>
    by_cases hnil : desc = []
    . subst hnil
      cases hinc
    have hpos : 0 < desc.length := length_pos_iff.mpr hnil
    by_cases hshort : shortLong desc = true
    . exact scan_short hpass hstale hpos hlen hshort fuel res
    rw [Bool.not_eq_true] at hshort
    cases fuel with
    | zero => exact nofun
    | succ fuel =>
      rw [scan_step hpos hshort]
      by_cases hle : (itemAt desc).itemSize ≤ desc.length
      . have hsize : 0 < (itemAt desc).itemSize := itemAt_size_pos
        rw [cutItems_next hnil hle] at hinc hgo
        simp only [visitAll] at hgo
        cases hvisit : visit (itemAt desc) s with
        | error r => simp [hvisit] at hgo
        | ok s1 =>
          simp only [hvisit] at hgo ⊢
          rw [sub16_length hle hlen, ← length_drop]
          apply ih _ _ hinc hgo
          . rw [length_drop]
            omega
          . rw [length_drop]
            omega
      . rw [cutItems_last hnil hle] at hgo
        simp only [visitAll] at hgo
        cases hvisit : visit (itemAt desc) s with
        | error r => simp [hvisit] at hgo
        | ok s1 => exact scan_past (by omega) hlen res

theorem scan_inside_iff (s : σ) (hpass : PassesReserved visit) (hlen : desc.length < 65536) :
    (∀ stale, Halts (fun fuel => scan stale visit fuel desc desc.length s)) ↔
      allComplete desc = true ∨ ∃ r, visitAll visit (itemsOf desc) s = .error r := by
  constructor
  . intro h
    by_contra hnot
    rw [not_or] at hnot
    obtain ⟨res, fuel, hrun⟩ := h ⟨0, 0, 0, 0, 0⟩
    cases hgo : visitAll visit (itemsOf desc) s with
    | error r => exact hnot.2 ⟨r, hgo⟩
    | ok s' =>
      have hinc : (cutItems desc.length desc).2 = false := Bool.eq_false_iff.mpr hnot.1
      exact scan_of_incomplete hpass rfl (Nat.le_refl _) hlen hinc hgo fuel res hrun
  . intro h stale
    obtain ⟨fuel, hrun⟩ := scan_of_items stale hpass (Nat.le_refl _) hlen h
    exact ⟨_, fuel, hrun⟩

theorem visitAll_error_iff {P : Item → Prop}
    (hvisit : ∀ item s, (∃ r, visit item s = .error r) ↔ P item) {items : List Item} :
    (∃ r, visitAll visit items s = .error r) ↔ ∃ item ∈ items, P item := by
  induction items generalizing s with
  | nil => simp [visitAll]
  | cons item items ih =>
    simp only [visitAll, mem_cons, exists_eq_or_imp]
    cases h : visit item s with
    | error r =>
      have hP : P item := (hvisit item s).mp ⟨r, h⟩
      simp [hP]
    | ok s1 =>
      have hP : ¬P item := by
        intro hP
        obtain ⟨r, hr⟩ := (hvisit item s).mpr hP
        rw [h] at hr
        cases hr
      simp only [hP, false_or]
      exact ih

end

theorem halts_total {α β : Type} {f : Nat → Except Stuck α} {k : α → Except Stuck β}
    (hk : ∀ a, ∃ b, k a = .ok b) : Halts (fun n => f n >>= k) ↔ Halts f := by
  constructor
  . rintro ⟨_, fuel, h⟩
    obtain ⟨a, ha, _⟩ := bind_ok.mp h
    exact ⟨a, fuel, ha⟩
  . rintro ⟨a, fuel, h⟩
    obtain ⟨b, hb⟩ := hk a
    exact ⟨b, fuel, bind_ok.mpr ⟨a, h, hb⟩⟩

structure Globals where
  reportId : Nat
  reportCount : Nat
  reportSize : Nat

def Globals.after (g : Globals) (item : Item) : Globals :=
  if item.itemType = btHidItemTypeGlobal then
    if item.itemTag = btHidGlobalItemTagReportId then { g with reportId := item.itemValue }
    else if item.itemTag = btHidGlobalItemTagReportCount then
      { g with reportCount := item.itemValue }
    else if item.itemTag = btHidGlobalItemTagReportSize then { g with reportSize := item.itemValue }
    else g
  else g

def fieldBits (reportId : Nat) (reportType : ReportType) (g : Globals) (item : Item) : Nat :=
  if item.itemType = btHidItemTypeMain ∧ g.reportId = reportId ∧
      mainReportType item.itemTag = reportType then
    g.reportCount * g.reportSize
  else 0

def reportBits (reportId : Nat) (reportType : ReportType) : Globals → List Item → Nat
  | _, [] => 0
  | g, item :: items =>
    fieldBits reportId reportType g item + reportBits reportId reportType (g.after item) items

def byteRounded (bits : Nat) : Nat := (bits + 7) / 8

section

variable {stale : Item} {desc : List UInt8} {reportId : Nat} {reportType : ReportType}

theorem size_passes (reportId : Nat) (reportType : ReportType) :
    PassesReserved (visitSize reportId reportType) := by
  intro item s h
  simp [visitSize, h, btHidItemTypeReserved, btHidItemTypeGlobal, btHidItemTypeMain]

theorem status_passes : PassesReserved (visitStatus reportId) := by
  intro item s h
  simp [visitStatus, isReportId, h, btHidItemTypeReserved, btHidItemTypeGlobal]

theorem declared_passes : PassesReserved visitDeclared := by
  intro item s h
  simp [visitDeclared, isReportId, h, btHidItemTypeReserved, btHidItemTypeGlobal]

theorem type_passes {reportType : Nat} : PassesReserved (visitType reportType) := by
  intro item s h
  simp [visitType, hasReports, h, btHidItemTypeReserved, btHidItemTypeMain]

def Sizes.globals (s : Sizes) : Globals :=
  ⟨s.currentReportId, s.currentReportCount, s.currentReportSize⟩

theorem visitSize_eq (reportId : Nat) (reportType : ReportType) (item : Item) (s : Sizes) :
    ∃ s', visitSize reportId reportType item s = .ok s' ∧
    s'.globals = s.globals.after item ∧
    s'.totalReportSize % 2 ^ 32 =
      (s.totalReportSize + fieldBits reportId reportType s.globals item) % 2 ^ 32 := by
  unfold visitSize
  by_cases hglobal : item.itemType = btHidItemTypeGlobal
  . have hmain : item.itemType ≠ btHidItemTypeMain := by
      rw [hglobal]
      decide
    simp only [if_pos hglobal, Globals.after, fieldBits, hmain, false_and, if_false, Nat.add_zero]
    split_ifs <;> exact ⟨_, rfl, rfl, rfl⟩
  . simp only [if_neg hglobal, Globals.after, fieldBits]
    by_cases hmain : item.itemType = btHidItemTypeMain
    . simp only [hmain, true_and]
      by_cases hfor : s.currentReportId = reportId ∧ reportType = mainReportType item.itemTag
      . have hfor' : s.globals.reportId = reportId ∧ mainReportType item.itemTag = reportType :=
          ⟨hfor.1, hfor.2.symm⟩
        rw [if_pos hfor, if_pos hfor']
        refine ⟨_, rfl, rfl, ?_⟩
        exact Nat.mod_mod _ _
      . have hfor' : ¬(s.globals.reportId = reportId ∧ mainReportType item.itemTag = reportType) :=
          fun h => hfor ⟨h.1, h.2.symm⟩
        rw [if_neg hfor, if_neg hfor']
        exact ⟨_, rfl, rfl, rfl⟩
    . simp only [hmain, false_and, if_false]
      exact ⟨_, rfl, rfl, rfl⟩

theorem visitAll_size (reportId : Nat) (reportType : ReportType) (items : List Item) (s : Sizes) :
    ∃ s', visitAll (visitSize reportId reportType) items s = .ok s' ∧
      s'.totalReportSize % 2 ^ 32 =
        (s.totalReportSize + reportBits reportId reportType s.globals items) % 2 ^ 32 := by
  induction items generalizing s with
  | nil => exact ⟨s, rfl, rfl⟩
  | cons item items ih =>
    obtain ⟨s1, hvisit, hglobals, htotal⟩ := visitSize_eq reportId reportType item s
    obtain ⟨s', hrest, hsum⟩ := ih s1
    refine ⟨s', by simp only [visitAll, hvisit, hrest], ?_⟩
    rw [hsum, hglobals, Nat.add_mod, htotal, ← Nat.add_mod, reportBits, Nat.add_assoc]

theorem status_error_iff :
    (∃ r, visitAll (visitStatus reportId) items s = .error r) ↔
      ∃ item ∈ items, isReportId item ∧ reportId = item.itemValue := by
  apply visitAll_error_iff
  intro item s
  unfold visitStatus
  split_ifs <;> simp_all

theorem declared_error_iff :
    (∃ r, visitAll visitDeclared items () = .error r) ↔ ∃ item ∈ items, isReportId item := by
  apply visitAll_error_iff
  intro item s
  unfold visitDeclared
  split_ifs <;> simp_all

theorem type_error_iff {items : List Item} {reportType : Nat} :
    (∃ r, visitAll (visitType reportType) items () = .error r) ↔
      ∃ item ∈ items, hasReports reportType item := by
  apply visitAll_error_iff
  intro item s
  unfold visitType
  split_ifs <;> simp_all

theorem size_inside_iff (hlen : desc.length < 65536) :
    (∀ stale, Halts (btHidReportSizeGetById stale reportId reportType desc)) ↔
      allComplete desc = true := by
  have h := scan_inside_iff Sizes.zero (size_passes reportId reportType) hlen
  have hnever : ¬∃ r, visitAll (visitSize reportId reportType) (itemsOf desc) Sizes.zero =
      .error r := by
    rintro ⟨r, _⟩
    cases r
  rw [or_iff_left hnever] at h
  rw [← h]
  apply forall_congr'
  intro stale
  apply halts_total
  rintro (e | s)
  . cases e
  . exact ⟨_, rfl⟩

theorem status_inside_iff (hlen : desc.length < 65536) :
    (∀ stale, Halts (btHidGetReportIdStatus stale reportId desc)) ↔
      allComplete desc = true ∨
        ∃ item ∈ itemsOf desc, isReportId item ∧ reportId = item.itemValue := by
  rw [← status_error_iff, ← scan_inside_iff 0 status_passes hlen]
  apply forall_congr'
  intro stale
  apply halts_total
  rintro (status | s)
  . exact ⟨_, rfl⟩
  . exact ⟨_, rfl⟩

theorem declared_inside_iff (hlen : desc.length < 65536) :
    (∀ stale, Halts (btHidReportIdDeclared stale desc)) ↔
      allComplete desc = true ∨ ∃ item ∈ itemsOf desc, isReportId item := by
  rw [← declared_error_iff, ← scan_inside_iff () declared_passes hlen]
  apply forall_congr'
  intro stale
  apply halts_total
  rintro (declared | s)
  . exact ⟨_, rfl⟩
  . exact ⟨_, rfl⟩

theorem type_inside_iff {reportType : Nat} (hlen : desc.length < 65536) :
    (∀ stale, Halts (btHidReportTypeIsValid stale reportType desc)) ↔
      allComplete desc = true ∨ ∃ item ∈ itemsOf desc, hasReports reportType item := by
  rw [← type_error_iff, ← scan_inside_iff () type_passes hlen]
  apply forall_congr'
  intro stale
  apply halts_total
  rintro (valid | s)
  . exact ⟨_, rfl⟩
  . exact ⟨_, rfl⟩

theorem mono_scan : Mono (fun fuel => scan stale visit fuel desc len s) := by
  intro fuel r h
  induction fuel generalizing desc len s with
  | zero => cases h
  | succ fuel ih =>
    dsimp only at h ⊢
    rw [scan] at h ⊢
    split_ifs at h ⊢
    . obtain ⟨item, hitem, h⟩ := bind_ok.mp h
      refine bind_ok.mpr ⟨item, hitem, ?_⟩
      cases hvisit : visit item s with
      | error r' => simpa [hvisit] using h
      | ok s1 =>
        simp only [hvisit] at h ⊢
        exact ih h
    . exact h

theorem runs_size (hlen : desc.length < 65536) (hcomplete : allComplete desc = true) :
    Runs (btHidReportSizeGetById stale reportId reportType desc) v ↔
      v = (reportBits reportId reportType ⟨0, 0, 0⟩ (itemsOf desc) + 7) % 2 ^ 32 / 8 := by
  obtain ⟨fuel, hscan⟩ := @scan_of_items _ _ _ desc Sizes.zero stale
    (size_passes reportId reportType) _ (Nat.le_refl _) hlen
    (.inl hcomplete)
  obtain ⟨s', hvisits, htotal⟩ := visitAll_size reportId reportType
    (itemsOf desc) Sizes.zero
  have hsum : (s'.totalReportSize + 7) % 2 ^ 32 =
      (reportBits reportId reportType ⟨0, 0, 0⟩ (itemsOf desc) + 7) % 2 ^ 32 := by
    rw [Nat.add_mod, htotal, ← Nat.add_mod]
    simp [Sizes.zero, Sizes.globals]
  have hrun : btHidReportSizeGetById stale reportId reportType desc fuel =
      .ok ((s'.totalReportSize + 7) % 2 ^ 32 / 8) := by
    unfold btHidReportSizeGetById
    rw [hscan, show (cutItems desc.length desc).1 = itemsOf desc from rfl, hvisits]
    rfl
  have hmono : Mono (btHidReportSizeGetById stale reportId reportType desc) := by
    apply mono_scan.bind
    rintro (e | s)
    . cases e
    . apply mono_const
  rw [← hsum]
  constructor
  . rintro ⟨fuel', hv⟩
    have h1 := hmono.le (Nat.le_max_left fuel fuel') hrun
    have h2 := hmono.le (Nat.le_max_right fuel fuel') hv
    exact Except.ok.inj (h2.symm.trans h1)
  . rintro rfl
    exact ⟨fuel, hrun⟩

end

theorem scans_iff (desc : List UInt8) (hlen : desc.length < 65536) :
    (∀ reportId reportType,
      (∀ stale, Halts (btHidReportSizeGetById stale reportId reportType desc)) ↔
        allComplete desc = true) ∧
    (∀ reportId, (∀ stale, Halts (btHidGetReportIdStatus stale reportId desc)) ↔
      allComplete desc = true ∨
        ∃ item ∈ itemsOf desc, isReportId item ∧ reportId = item.itemValue) ∧
    ((∀ stale, Halts (btHidReportIdDeclared stale desc)) ↔
      allComplete desc = true ∨ ∃ item ∈ itemsOf desc, isReportId item) ∧
    (∀ reportType, (∀ stale, Halts (btHidReportTypeIsValid stale reportType desc)) ↔
      allComplete desc = true ∨ ∃ item ∈ itemsOf desc, hasReports reportType item) ∧
    (allComplete desc = true → ∀ stale reportId reportType,
      Runs (btHidReportSizeGetById stale reportId reportType desc)
        (byteRounded (reportBits reportId reportType ⟨0, 0, 0⟩ (itemsOf desc))) ↔
      reportBits reportId reportType ⟨0, 0, 0⟩ (itemsOf desc) + 7 < 2 ^ 32) := by
  refine ⟨fun _ _ => size_inside_iff hlen, fun _ => status_inside_iff hlen,
    declared_inside_iff hlen, fun _ => type_inside_iff hlen, ?_⟩
  intro hcomplete stale reportId reportType
  rw [runs_size hlen hcomplete, byteRounded]
  generalize reportBits reportId reportType ⟨0, 0, 0⟩ (itemsOf desc) = bits
  omega

def mouseDesc : List UInt8 := [0x75, 0x08, 0x95, 0x03, 0x81, 0x02]

theorem scans_mouse : (∀ stale, Halts (btHidReportSizeGetById stale 0 .input mouseDesc)) ∧
    ∀ stale, Runs (btHidReportSizeGetById stale 0 .input mouseDesc) 3 := by
  have h := scans_iff mouseDesc (by decide)
  refine ⟨(h.1 0 .input).mpr (by decide), fun stale => ?_⟩
  exact (h.2.2.2.2 (by decide) stale 0 .input).mpr (by decide)

theorem not_scans_inside :
    ¬∀ desc : List UInt8, desc.length < 65536 → ∀ stale reportId reportType,
      Halts (btHidReportSizeGetById stale reportId reportType desc) := by
  intro h
  have hinside : ∀ stale, Halts (btHidReportSizeGetById stale 0 .input [0x75]) :=
    fun stale => h [0x75] (by decide) stale 0 .input
  rw [size_inside_iff (by decide)] at hinside
  revert hinside
  decide

end Hid
