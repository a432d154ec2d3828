import Earphone.Hid.Meaning
import Earphone.Hid.ParserSafe

namespace Hid

open Scan List

section

variable {c : Open} {desc : List UInt8} {pos stop : Nat} {item stale : Item}
  {items rest : List Item}

section

variable (h : Reads desc pos items stop)

include h

theorem Reads.le : pos ≤ stop := by
  induction items generalizing pos with
  | nil => exact Nat.le_of_eq h
  | cons item rest ih =>
    have hrest := ih h.2.2.2
    omega

theorem Reads.stop_le (hpos : pos ≤ desc.length) : stop ≤ desc.length := by
  induction items generalizing pos with
  | nil => exact h ▸ hpos
  | cons item rest ih => exact ih h.2.2.2 h.2.2.1

theorem Reads.snoc (hstop : Reads desc stop [item] (stop + n)) :
    Reads desc pos (items ++ [item]) (stop + n) := by
  induction items generalizing pos with
  | nil => exact h ▸ hstop
  | cons first rest ih => exact ⟨h.1, h.2.1, h.2.2.1, ih h.2.2.2⟩

theorem Reads.length_le : pos + items.length ≤ stop := by
  induction items generalizing pos with
  | nil => exact Nat.le_of_eq h
  | cons item rest ih =>
    have hrest := ih h.2.2.2
    have hsize := @itemAt_size_pos (desc.drop pos)
    rw [h.2.1] at hsize
    rw [length_cons]
    omega

end

theorem Reads.parse (h : Reads desc pos (item :: rest) stop) :
    btHidParseDescriptorItem stale (desc.drop pos) (desc.length - pos) = .ok item := by
  obtain ⟨hpos, hitem, hfits, -⟩ := h
  have hlen : 0 < (desc.drop pos).length := by
    rw [length_drop]
    omega
  have hshort : shortLong (desc.drop pos) = false := by
    by_contra hlong
    have hbeyond := (itemAt_short ((Bool.not_eq_false _).mp hlong)).1
    rw [hitem, length_drop] at hbeyond
    omega
  have hparse := @parse_eq stale (desc.drop pos) hlen hshort
  rw [length_drop, hitem] at hparse
  exact hparse

def Finds (desc : List UInt8) (stop : Nat) (s : UsageCursor) (blocks : List (Nat × Nat)) : Prop :=
  (∃ items, Reads desc s.usagePos items stop ∧
    declared s.usagePage none none items = some blocks ∧ ∀ item ∈ items, item.Sane) ∧
  s.haveUsageMin = false ∧ s.haveUsageMax = false

structure Bounds (lo hi : Option Nat) (s : UsageCursor) : Prop where
  min : s.haveUsageMin = lo.isSome
  max : s.haveUsageMax = hi.isSome
  minimum : ∀ v, lo = some v → s.usageMinimum = v
  maximum : ∀ v, hi = some v → s.usageMaximum = v
  one : lo = none ∨ hi = none

theorem bounds_none (hmin : s.haveUsageMin = false)
    (hmax : s.haveUsageMax = false) : Bounds none none s :=
  ⟨hmin, hmax, (fun _ h => nomatch h), (fun _ h => nomatch h), .inl rfl⟩

theorem takeUsage_pos : (takeUsage item s).usagePos = s.usagePos := by
  unfold takeUsage setRange setUsage
  split_ifs <;> rfl

theorem findNextUsage_done (h : s.availableUsages ≠ 0)
    (hfuel : 0 < fuel) : btHidFindNextUsage c desc stop fuel s = .ok s := by
  cases fuel with
  | zero => omega
  | succ fuel =>
    unfold btHidFindNextUsage
    rw [if_neg (fun hboth => h hboth.1)]
    rfl

theorem range_eq (hle : lo ≤ hi) (hsmall : hi - lo < 65535) :
    (hi + 1 + (65536 - lo % 65536)) % 65536 = hi - lo + 1 := by omega

def Takes (s : UsageCursor) (rest : List Item) (blocks : List (Nat × Nat)) : Prop :=
  (∃ lo hi, Bounds lo hi s ∧ s.availableUsages = 0 ∧
    declared s.usagePage lo hi rest = some blocks) ∨
  ∃ b later, blocks = b :: later ∧ s.availableUsages = b.2 ∧ b.2 ≠ 0 ∧ s.usageMinimum = b.1 ∧
    Bounds none none s ∧ declared s.usagePage none none rest = some later

theorem takes_usage (hbounds : Bounds none none s)
    (husage : item.itemTag = btHidLocalItemTagUsage)
    (hdecl : (declared s.usagePage none none rest).map ((usageValue s.usagePage item, 1) :: ·) =
      some blocks) : Takes (setRange (setUsage item s)) rest blocks := by
  obtain ⟨later, hlater, rfl⟩ := Option.map_eq_some_iff.mp hdecl
  have hmin := hbounds.min
  have hset : setRange (setUsage item s) =
      { s with availableUsages := 1, usageMinimum := usageValue s.usagePage item } := by
    rw [setUsage, if_pos husage, setRange]
    simp only [hmin]
    rfl
  rw [hset]
  exact .inr ⟨_, _, rfl, rfl, Nat.one_ne_zero, rfl, bounds_none hmin hbounds.max, hlater⟩

theorem takes_minimum (husage : item.itemTag ≠ btHidLocalItemTagUsage)
    (hminimum : item.itemTag = btHidLocalItemTagUsageMinimum)
    (hdecl : (match hi with
      | none => declared s.usagePage (some (usageValue s.usagePage item)) none rest
      | some hi =>
        if usageValue s.usagePage item ≤ hi ∧ hi - usageValue s.usagePage item < 65535 then
          (declared s.usagePage none none rest).map
            ((usageValue s.usagePage item, hi - usageValue s.usagePage item + 1) :: ·)
        else none) = some blocks)
    (hbounds : Bounds lo hi s) (hidle : s.availableUsages = 0) :
    Takes (setRange (setUsage item s)) rest blocks := by
  have hmax := hbounds.max
  cases hi with
  | none =>
    have hset : setRange (setUsage item s) =
        { s with usageMinimum := usageValue s.usagePage item, haveUsageMin := true } := by
      rw [setUsage, if_neg husage, if_pos hminimum, setRange]
      simp only [hmax]
      rfl
    rw [hset]
    exact .inl ⟨_, none, ⟨rfl, hmax, (fun _ hv => Option.some.inj hv), (fun _ hv => nomatch hv),
      .inr rfl⟩, hidle, hdecl⟩
  | some hi =>
    simp only at hdecl
    split_ifs at hdecl with hrange
    obtain ⟨later, hlater, rfl⟩ := Option.map_eq_some_iff.mp hdecl
    have hset : setRange (setUsage item s) =
        { s with
          usageMinimum := usageValue s.usagePage item
          availableUsages := hi - usageValue s.usagePage item + 1
          haveUsageMin := false
          haveUsageMax := false } := by
      rw [setUsage, if_neg husage, if_pos hminimum, setRange]
      simp only [hmax, Option.isSome_some, and_self, if_true, hbounds.maximum hi rfl]
      rw [range_eq hrange.1 hrange.2]
    rw [hset]
    exact .inr ⟨_, _, rfl, rfl, Nat.succ_ne_zero _, rfl, bounds_none rfl rfl, hlater⟩

theorem takes_maximum (husage : item.itemTag ≠ btHidLocalItemTagUsage)
    (hminimum : item.itemTag ≠ btHidLocalItemTagUsageMinimum)
    (hmaximum : item.itemTag = btHidLocalItemTagUsageMaximum)
    (hdecl : (match lo with
      | none => declared s.usagePage none (some (usageValue s.usagePage item)) rest
      | some lo =>
        if lo ≤ usageValue s.usagePage item ∧ usageValue s.usagePage item - lo < 65535 then
          (declared s.usagePage none none rest).map
            ((lo, usageValue s.usagePage item - lo + 1) :: ·)
        else none) = some blocks)
    (hbounds : Bounds lo hi s) (hidle : s.availableUsages = 0) :
    Takes (setRange (setUsage item s)) rest blocks := by
  have hmin := hbounds.min
  cases lo with
  | none =>
    have hset : setRange (setUsage item s) =
        { s with usageMaximum := usageValue s.usagePage item, haveUsageMax := true } := by
      rw [setUsage, if_neg husage, if_neg hminimum, if_pos hmaximum, setRange]
      simp only [hmin]
      rfl
    rw [hset]
    exact .inl ⟨none, _, ⟨hmin, rfl, (fun _ hv => nomatch hv), (fun _ hv => Option.some.inj hv),
      .inl rfl⟩, hidle, hdecl⟩
  | some lo =>
    simp only at hdecl
    split_ifs at hdecl with hrange
    obtain ⟨later, hlater, rfl⟩ := Option.map_eq_some_iff.mp hdecl
    have hset : setRange (setUsage item s) =
        { s with
          usageMaximum := usageValue s.usagePage item
          availableUsages := usageValue s.usagePage item - lo + 1
          haveUsageMin := false
          haveUsageMax := false } := by
      rw [setUsage, if_neg husage, if_neg hminimum, if_pos hmaximum, setRange]
      simp only [hmin, Option.isSome_some, and_self, if_true, hbounds.minimum lo rfl]
      rw [range_eq hrange.1 hrange.2]
    rw [hset]
    exact .inr ⟨_, _, rfl, rfl, Nat.succ_ne_zero _, hbounds.minimum lo rfl, bounds_none rfl rfl,
      hlater⟩

theorem takeUsage_takes
    (hbounds : Bounds lo hi s) (hidle : s.availableUsages = 0) (hsane : item.Sane)
    (hdecl : declared s.usagePage lo hi (item :: rest) = some blocks) :
    Takes (takeUsage item s) rest blocks := by
  unfold declared at hdecl
  unfold takeUsage
  by_cases hpage : isUsagePage item = true
  . have hitem : item.itemType = btHidItemTypeGlobal ∧
        item.itemTag = btHidGlobalItemTagUsagePage := of_decide_eq_true hpage
    have hsmall := (hsane hitem.1).1 hitem.2
    rw [if_pos hpage] at hdecl ⊢
    rw [Nat.mod_eq_of_lt hsmall]
    exact .inl ⟨lo, hi, ⟨hbounds.min, hbounds.max, hbounds.minimum, hbounds.maximum, hbounds.one⟩,
      hidle, hdecl⟩
  rw [if_neg hpage] at hdecl ⊢
  by_cases htype : item.itemType = btHidItemTypeLocal
  . rw [if_neg (not_not.mpr htype)] at hdecl
    rw [if_pos htype]
    by_cases husage : item.itemTag = btHidLocalItemTagUsage
    . rw [if_pos husage] at hdecl
      split_ifs at hdecl with hnone
      obtain ⟨rfl, rfl⟩ := hnone
      exact takes_usage hbounds husage hdecl
    rw [if_neg husage] at hdecl
    by_cases hminimum : item.itemTag = btHidLocalItemTagUsageMinimum
    . rw [if_pos hminimum] at hdecl
      exact takes_minimum husage hminimum hdecl hbounds hidle
    rw [if_neg hminimum] at hdecl
    by_cases hmaximum : item.itemTag = btHidLocalItemTagUsageMaximum
    . rw [if_pos hmaximum] at hdecl
      exact takes_maximum husage hminimum hmaximum hdecl hbounds hidle
    . rw [if_neg hmaximum] at hdecl
      have hset : setRange (setUsage item s) = s := by
        rw [setUsage, if_neg husage, if_neg hminimum, if_neg hmaximum, setRange, if_neg]
        rintro ⟨hmin, hmax⟩
        rw [hbounds.min] at hmin
        rw [hbounds.max] at hmax
        rcases hbounds.one with rfl | rfl
        . cases hmin
        . cases hmax
      rw [hset]
      exact .inl ⟨lo, hi, hbounds, hidle, hdecl⟩
  . rw [if_pos htype] at hdecl
    rw [if_neg htype]
    exact .inl ⟨lo, hi, hbounds, hidle, hdecl⟩

theorem findNextUsage_finds (hlen : desc.length < 65536)
    (hread : Reads desc s.usagePos items stop) (hbounds : Bounds lo hi s)
    (hidle : s.availableUsages = 0)
    (hdecl : declared s.usagePage lo hi items = some (b :: blocks))
    (hsane : ∀ item ∈ items, item.Sane) (hfuel : items.length < fuel) :
    ∃ s', btHidFindNextUsage c desc stop fuel s = .ok s' ∧ s'.availableUsages = b.2 ∧ b.2 ≠ 0 ∧
      s'.usageMinimum = b.1 ∧ Finds desc stop s' blocks ∧ s'.usagePos ≤ desc.length := by
  induction items generalizing fuel s lo hi with
  | nil => cases hdecl
  | cons item rest ih =>
    cases fuel with
    | zero => omega
    | succ fuel =>
      obtain ⟨hitem, hrest⟩ := forall_mem_cons.mp hsane
      have hparse := @Reads.parse desc s.usagePos stop item c.usageItem rest hread
      have hsize := @itemAt_size_pos (desc.drop s.usagePos)
      rw [hread.2.1] at hsize
      obtain ⟨-, -, hfits, hlater⟩ := hread
      have hlt : s.usagePos < stop := by
        have hle := hlater.le
        omega
      have hnext : (s.usagePos + item.itemSize) % 65536 = s.usagePos + item.itemSize :=
        Nat.mod_eq_of_lt (by omega)
      rw [length_cons] at hfuel
      unfold btHidFindNextUsage
      rw [if_pos ⟨hidle, hlt⟩]
      simp only [hparse, bind, Except.bind, takeUsage_pos, hnext]
      rcases takeUsage_takes hbounds hidle hitem hdecl with
        ⟨lo', hi', hbounds', hidle', hdecl'⟩ | ⟨b', later, heq, hb, hne, hmin, hbounds', hdecl'⟩
      . exact ih hlater ⟨hbounds'.min, hbounds'.max, hbounds'.minimum, hbounds'.maximum,
          hbounds'.one⟩ hidle' hdecl' hrest (by omega)
      . cases heq
        rw [findNextUsage_done (by rw [hb]; exact hne) (by omega)]
        exact ⟨_, rfl, hb, hne, hmin,
          ⟨⟨rest, hlater, hdecl', hrest⟩, hbounds'.min, hbounds'.max⟩, hfits⟩

theorem Finds.next {fuel : Nat} {s : UsageCursor} {b : Nat × Nat} {blocks : List (Nat × Nat)}
    (h : Finds desc stop s (b :: blocks)) (hlen : desc.length < 65536)
    (hpos : s.usagePos ≤ desc.length) (hidle : s.availableUsages = 0) (hfuel : desc.length < fuel) :
    ∃ s', btHidFindNextUsage c desc stop fuel s = .ok s' ∧ s'.availableUsages = b.2 ∧ b.2 ≠ 0 ∧
      s'.usageMinimum = b.1 ∧ Finds desc stop s' blocks ∧ s'.usagePos ≤ desc.length := by
  obtain ⟨⟨items, hread, hdecl, hsane⟩, hmin, hmax⟩ := h
  have hitems := hread.length_le
  have hstop := hread.stop_le hpos
  exact findNextUsage_finds hlen hread (bounds_none hmin hmax) hidle hdecl hsane
    (by omega)

end

def Yields (c : Open) (fuel : Nat) (p : Parser) (fields : List Field) : Prop :=
  ∀ n, fields.length < n → fieldsFrom c fuel n p = .ok fields

structure Scans (reportType : ReportType) (report : List UInt8) (id : Nat) (s : Meaning)
    (items : List Item) (p : Parser) : Prop where
  state : p.state = .scanForReportItem
  type : p.reportType = reportType
  report : p.report = report
  items : Reads p.descriptor p.descriptorPos items p.descriptor.length
  short : p.descriptor.length < 65536
  globals : p.globals = s.globals
  required : p.requiredUsages = 0
  active : p.activeRecord = decide (s.phase = .inside)
  own : s.phase = .inside → s.globals.reportId = id
  undeclared : id = 0 → s.globals.reportId = 0
  pos : p.reportPosInBit = if id ≠ 0 ∧ s.phase = .before then 0 else s.pos
  start : s.phase = .before → s.pos = if id = 0 then 0 else 8
  small : s.pos < 65536
  seen : ∃ ends : List Item, (∀ item ∈ ends, item.itemType = btHidItemTypeMain) ∧
    Reads p.descriptor p.cursor.usagePos (ends ++ s.locals) p.descriptorPos
  sane : ∀ item ∈ s.locals, item.Sane
  page : p.cursor.usagePage = s.page
  idle : p.cursor.availableUsages = 0
  noMin : p.cursor.haveUsageMin = false
  noMax : p.cursor.haveUsageMax = false

structure Accesses (reportType : ReportType) (report : List UInt8) (s : Meaning) (item : Item)
    (rest : List Item) (pos : Nat) (p : Parser) : Prop where
  state : p.state = .usagesAvailable
  current : p.descriptorItem = item
  type : p.reportType = reportType
  report : p.report = report
  left : Reads p.descriptor p.descriptorPos (item :: rest) p.descriptor.length
  short : p.descriptor.length < 65536
  globals : p.globals = s.globals
  active : p.activeRecord = true
  pos : p.reportPosInBit = pos
  usagePos : p.cursor.usagePos ≤ p.descriptor.length

section

variable {c : Open} {fuel id pos count : Nat} {p p' : Parser} {field : Field}
  {fields later : List Field} {reportType : ReportType} {report : List UInt8} {s : Meaning}
  {item : Item} {rest : List Item} {blocks : List (Nat × Nat)}

theorem yields_nil (h : p.state ≠ .usagesAvailable) : Yields c fuel p [] := by
  intro n hn
  cases n with
  | zero => omega
  | succ n =>
    unfold fieldsFrom
    rw [btHidParserHasMore, if_neg (by simpa using h)]
    rfl

theorem yields_cons (h : p.state = .usagesAvailable)
    (haccess : btHidParserAccessReportField c fuel p = .ok (field, p'))
    (hlater : Yields c fuel p' fields) : Yields c fuel p (field :: fields) := by
  intro n hn
  cases n with
  | zero => omega
  | succ n =>
    unfold fieldsFrom
    rw [btHidParserHasMore, if_pos (by simpa using h)]
    simp only [haccess, bind, Except.bind]
    rw [hlater n (by rw [length_cons] at hn; omega)]
    rfl

theorem Accesses.post (h : Accesses reportType report s item rest (s.pos + s.bits) p)
    (hmain : item.itemType = btHidItemTypeMain) (hid : s.globals.reportId = id)
    (hsmall : s.pos + s.bits < 65536) (hrequired : p.requiredUsages = 0)
    (hidle : p.cursor.availableUsages = 0) (hmin : p.cursor.haveUsageMin = false)
    (hmax : p.cursor.haveUsageMax = false) :
    Scans reportType report id (s.next s.bits .inside) rest
      { btHidPostProcessItem p.descriptorItem p with state := .scanForReportItem } := by
  obtain ⟨hlt, hitem, hfits, hrest⟩ := h.left
  have hshort := h.short
  have hnext : (p.descriptorPos + item.itemSize) % 65536 = p.descriptorPos + item.itemSize :=
    Nat.mod_eq_of_lt (by omega)
  rw [h.current]
  simp only [btHidPostProcessItem, if_pos hmain, hnext]
  exact
    { state := rfl
      type := h.type
      report := h.report
      items := hrest
      short := hshort
      globals := h.globals
      required := hrequired
      active := h.active
      own := fun _ => hid
      undeclared := fun hzero => hid.trans hzero
      pos := h.pos.trans (if_neg (by simp [Meaning.next])).symm
      start := fun hbefore => by cases hbefore
      small := hsmall
      seen := ⟨[item], by simpa using hmain, hlt, hitem, hfits, rfl⟩
      sane := fun _ hmem => absurd hmem not_mem_nil
      page := congrArg GlobalState.usagePage h.globals
      idle := hidle
      noMin := hmin
      noMax := hmax }

def Goes (c : Open) (fuel : Nat) (reportType : ReportType) (report : List UInt8) (id : Nat)
    (s : Meaning) (items : List Item) (fields : List Field) : Prop :=
  ∀ p, Scans reportType report id s items p → p.descriptor.length < fuel →
    ∃ p', btHidParserFindNextUsage c fuel fuel p = .ok p' ∧ Yields c fuel p' fields

theorem Finds.pass
    (h : Finds desc stop cursor blocks) : Finds desc stop (passUsage item n cursor) blocks := by
  unfold passUsage
  split_ifs
  . exact h
  . exact h
  . exact h

theorem passUsage_pos : (passUsage item n cursor).usagePos = cursor.usagePos := by
  unfold passUsage
  split_ifs <;> rfl

theorem Accesses.after (h : Accesses reportType report s item rest pos p)
    (hsmall : pos + s.globals.reportSize < 65536) :
    Accesses reportType report s item rest (pos + s.globals.reportSize) (afterField p) := by
  have husagePos := h.usagePos
  rw [← passUsage_pos] at husagePos
  refine ⟨h.state, h.current, h.type, h.report, h.left, h.short, h.globals, h.active, ?_, husagePos⟩
  show (p.reportPosInBit + p.globals.reportSize) % 65536 = _
  rw [h.pos, h.globals]
  exact Nat.mod_eq_of_lt hsmall

theorem Accesses.access (h : Accesses reportType report s item rest pos p)
    (hreadable : Readable report pos s.globals.reportSize)
    (hgo : goOn c fuel (afterField p) = .ok p') :
    btHidParserAccessReportField c fuel p =
      .ok (fieldOf c item s.globals p.cursor.usageMinimum
        (bitsAt report pos s.globals.reportSize), p') := by
  unfold btHidParserAccessReportField
  rw [h.report, h.pos, h.globals, h.current, readField_eq hreadable]
  simp only [bind, Except.bind, hgo]
  rfl

theorem Accesses.goOn_next (h : Accesses reportType report s item rest (s.pos + s.bits) p)
    (hgoes : Goes c fuel reportType report id (s.next s.bits .inside) rest later)
    (hmain : item.itemType = btHidItemTypeMain) (hid : s.globals.reportId = id)
    (hsmall : s.pos + s.bits < 65536) (hfuel : p.descriptor.length < fuel)
    (hrequired : p.requiredUsages = 0) (hidle : p.cursor.availableUsages = 0)
    (hfinds : Finds p.descriptor p.descriptorPos p.cursor blocks) :
    ∃ p', goOn c fuel p = .ok p' ∧ Yields c fuel p' later := by
  obtain ⟨p', hp', hyields⟩ :=
    hgoes _ (h.post hmain hid hsmall hrequired hidle hfinds.2.1 hfinds.2.2) hfuel
  refine ⟨p', ?_, hyields⟩
  unfold goOn
  rw [if_neg (not_not.mpr hidle), if_pos hrequired]
  exact hp'

theorem readable_tail (h : ∀ k < count + 1, Readable report (pos + k * size) size) :
    Readable report pos size ∧ ∀ k < count, Readable report (pos + size + k * size) size := by
  constructor
  . have hfirst := h 0 (by omega)
    rwa [Nat.zero_mul, Nat.add_zero] at hfirst
  . intro k hk
    have hnext := h (k + 1) (by omega)
    rwa [Nat.succ_mul, Nat.add_comm (k * size), ← Nat.add_assoc] at hnext

theorem Accesses.variables (h : Accesses reportType report s item rest pos p)
    (hgoes : Goes c fuel reportType report id (s.next s.bits .inside) rest later)
    (hmain : item.itemType = btHidItemTypeMain) (hid : s.globals.reportId = id)
    (hvariable : isVariable item = true) (hsmall : s.pos + s.bits < 65536)
    (hfuel : p.descriptor.length < fuel) (hcount : p.requiredUsages = count) (hfew : count < 256)
    (havailable : p.cursor.availableUsages = m) (hone : 1 ≤ m) (hle : m ≤ count)
    (hmin : p.cursor.usageMinimum % 2 ^ 32 = v % 2 ^ 32)
    (hfinds : Finds p.descriptor p.descriptorPos p.cursor blocks)
    (husages : usagesFor (count - m) blocks = some usages)
    (hend : pos + count * s.globals.reportSize = s.pos + s.bits)
    (hreadable : ∀ k < count,
      Readable report (pos + k * s.globals.reportSize) s.globals.reportSize) :
    Yields c fuel p
      (variableFields report s.globals pos (List.range' v m ++ usages) ++ later) := by
  induction count generalizing pos p m v usages blocks with
  | zero => omega
  | succ count ih =>
    obtain ⟨m, rfl⟩ : ∃ m', m = m' + 1 := ⟨m - 1, by omega⟩
    obtain ⟨hfirst, htail⟩ := readable_tail hreadable
    rw [Nat.succ_mul, Nat.add_comm (count * _), ← Nat.add_assoc] at hend
    have hfield := @fieldOf_variable c report pos item s.globals p.cursor.usageMinimum v hfirst
      hvariable hmin
    have hafter := h.after (by omega)
    have hpassed : Finds (afterField p).descriptor (afterField p).descriptorPos
        (afterField p).cursor blocks := hfinds.pass
    have hrequired : (afterField p).requiredUsages = count := by
      show (p.requiredUsages + 255) % 256 = count
      omega
    have hcursor : (afterField p).cursor =
        { p.cursor with
          usageMinimum := (p.cursor.usageMinimum + 1) % 2 ^ 32
          availableUsages := (p.cursor.availableUsages + 65535) % 65536 } := by
      show passUsage p.descriptorItem _ _ = _
      rw [passUsage, h.current, if_pos hvariable]
    have hleft : (afterField p).cursor.availableUsages = m := by
      rw [hcursor]
      show (p.cursor.availableUsages + 65535) % 65536 = m
      omega
    have hnext : (afterField p).cursor.usageMinimum % 2 ^ 32 = (v + 1) % 2 ^ 32 := by
      rw [hcursor]
      show (p.cursor.usageMinimum + 1) % 2 ^ 32 % 2 ^ 32 = (v + 1) % 2 ^ 32
      omega
    rw [range'_succ, cons_append, variableFields, cons_append, ← hfield]
    by_cases hmore : m = 0
    . subst hmore
      rw [range'_zero, nil_append]
      cases count with
      | zero =>
        have hnil : usages = [] := by
          rw [Nat.sub_self, usagesFor_zero] at husages
          exact (Option.some.inj husages).symm
        rw [Nat.zero_mul, Nat.add_zero] at hend
        rw [hend] at hafter
        obtain ⟨p', hgo, hyields⟩ := hafter.goOn_next hgoes hmain hid hsmall hfuel hrequired hleft
          hpassed
        rw [hnil]
        exact yields_cons h.state (h.access hfirst hgo) hyields
      | succ count =>
        rw [Nat.add_sub_cancel] at husages
        cases blocks with
        | nil => simp [usagesFor] at husages
        | cons b blocks =>
          rw [usagesFor] at husages
          split_ifs at husages with hn
          obtain ⟨usages', husages', rfl⟩ := Option.map_eq_some_iff.mp husages
          obtain ⟨cursor, hcursor', hn', hne, hlo, hfinds', hpos'⟩ :=
            hpassed.next hafter.short hafter.usagePos hleft (c := c) hfuel
          have hgo : goOn c fuel (afterField p) = .ok { afterField p with cursor } := by
            unfold goOn
            rw [if_neg (not_not.mpr hleft), if_neg (by rw [hrequired]; omega), hcursor']
            simp only [bind, Except.bind]
            rw [if_neg (by rw [hn']; exact hne)]
            rfl
          refine yields_cons h.state (h.access hfirst hgo) ?_
          exact ih ⟨hafter.state, hafter.current, hafter.type, hafter.report, hafter.left,
            hafter.short, hafter.globals, hafter.active, hafter.pos, hpos'⟩ hfuel hrequired
            (by omega) hn' (by omega) hn (by rw [hlo]) hfinds' husages' hend htail
    . have hgo : goOn c fuel (afterField p) = .ok (afterField p) := by
        unfold goOn
        rw [if_pos (by rw [hleft]; exact hmore)]
        rfl
      refine yields_cons h.state (h.access hfirst hgo) ?_
      refine ih hafter hfuel hrequired (by omega) hleft (by omega) (by omega) hnext hpassed ?_ hend
        htail
      rw [← husages]
      congr 1
      omega

theorem Accesses.array (h : Accesses reportType report s item rest pos p)
    (hgoes : Goes c fuel reportType report id (s.next s.bits .inside) rest later)
    (hmain : item.itemType = btHidItemTypeMain) (hid : s.globals.reportId = id)
    (hvariable : isVariable item = false) (hsmall : s.pos + s.bits < 65536)
    (hfuel : p.descriptor.length < fuel) (hcount : p.requiredUsages = count) (hone : 1 ≤ count)
    (hfew : count < 256) (havailable : p.cursor.availableUsages ≠ 0)
    (hmin : p.cursor.usageMinimum = v)
    (hfinds : Finds p.descriptor p.descriptorPos p.cursor blocks)
    (hend : pos + count * s.globals.reportSize = s.pos + s.bits)
    (hreadable : ∀ k < count,
      Readable report (pos + k * s.globals.reportSize) s.globals.reportSize) :
    Yields c fuel p (arrayFields report s.globals v pos count ++ later) := by
  induction count generalizing pos p with
  | zero => omega
  | succ count ih =>
    obtain ⟨hfirst, htail⟩ := readable_tail hreadable
    rw [Nat.succ_mul, Nat.add_comm (count * _), ← Nat.add_assoc] at hend
    have hfield := @fieldOf_array c report pos item s.globals p.cursor.usageMinimum v hvariable
      (by rw [hmin])
    have hafter := h.after (by omega)
    have hpassed : Finds (afterField p).descriptor (afterField p).descriptorPos
        (afterField p).cursor blocks := hfinds.pass
    have hrequired : (afterField p).requiredUsages = count := by
      show (p.requiredUsages + 255) % 256 = count
      omega
    have hcursor : (afterField p).cursor =
        if count = 0 then { p.cursor with availableUsages := 0 } else p.cursor := by
      show passUsage p.descriptorItem (afterField p).requiredUsages _ = _
      rw [passUsage, h.current, if_neg (by rw [hvariable]; exact Bool.false_ne_true), hrequired]
    rw [arrayFields, cons_append, ← hfield]
    cases count with
    | zero =>
      have hidle : (afterField p).cursor.availableUsages = 0 := by
        rw [hcursor, if_pos rfl]
      rw [Nat.zero_mul, Nat.add_zero] at hend
      rw [hend] at hafter
      obtain ⟨p', hgo, hyields⟩ := hafter.goOn_next hgoes hmain hid hsmall hfuel hrequired hidle
        hpassed
      exact yields_cons h.state (h.access hfirst hgo) hyields
    | succ count =>
      rw [if_neg (Nat.succ_ne_zero _)] at hcursor
      have hgo : goOn c fuel (afterField p) = .ok (afterField p) := by
        unfold goOn
        rw [if_pos (by rw [hcursor]; exact havailable)]
        rfl
      exact yields_cons h.state (h.access hfirst hgo) (ih hafter hfuel hrequired (by omega)
        (by omega) (by rw [hcursor]; exact havailable) (by rw [hcursor]; exact hmin) hpassed hend
        htail)

end

section

variable {c : Open} {fuel id n : Nat} {p : Parser} {fields : List Field} {reportType : ReportType}
  {report : List UInt8} {s : Meaning} {item : Item} {items rest : List Item} {g : GlobalState}

theorem setGlobal_eq (h : item.Sane) : setGlobal item g = g.next item := by
  unfold setGlobal GlobalState.next
  by_cases htype : item.itemType = btHidItemTypeGlobal
  . obtain ⟨hpage, hsize, hcount, hid⟩ := h htype
    rw [if_pos htype, if_pos htype]
    by_cases h0 : item.itemTag = btHidGlobalItemTagUsagePage
    . rw [if_pos h0, Nat.mod_eq_of_lt (hpage h0), h0]
      rfl
    rw [if_neg h0]
    by_cases h1 : item.itemTag = btHidGlobalItemTagLogicalMinimun
    . rw [if_pos h1, h1]
      rfl
    rw [if_neg h1]
    by_cases h2 : item.itemTag = btHidGlobalItemTagLogicalMaximum
    . rw [if_pos h2, h2]
      rfl
    rw [if_neg h2]
    by_cases h7 : item.itemTag = btHidGlobalItemTagReportSize
    . rw [if_pos h7, Nat.mod_eq_of_lt (hsize h7), h7]
      rfl
    rw [if_neg h7]
    by_cases h8 : item.itemTag = btHidGlobalItemTagReportId
    . rw [if_pos h8, Nat.mod_eq_of_lt (hid h8).2, h8]
      rfl
    rw [if_neg h8]
    by_cases h9 : item.itemTag = btHidGlobalItemTagReportCount
    . rw [if_pos h9, Nat.mod_eq_of_lt (hcount h9), h9]
      rfl
    rw [if_neg h9]
    split
    . exact absurd ‹_› h0
    . exact absurd ‹_› h1
    . exact absurd ‹_› h2
    . exact absurd ‹_› h7
    . exact absurd ‹_› h8
    . exact absurd ‹_› h9
    . rfl
  . rw [if_neg htype, if_neg htype]

theorem setGlobal_main (h : item.itemType = btHidItemTypeMain) : setGlobal item g = g := by
  rw [setGlobal, if_neg]
  rw [h]
  decide

theorem isReportId_main (h : item.itemType = btHidItemTypeMain) : isReportId item = false := by
  simp [isReportId, h, btHidItemTypeMain, btHidItemTypeGlobal]

theorem next_reportId :
    (g.next item).reportId = if isReportId item then item.itemValue else g.reportId := by
  unfold GlobalState.next isReportId
  by_cases htype : item.itemType = btHidItemTypeGlobal
  . rw [if_pos htype]
    simp only [htype, true_and]
    by_cases h8 : item.itemTag = btHidGlobalItemTagReportId
    . simp only [h8, decide_true, if_true]
      rfl
    . simp only [h8, decide_false, Bool.false_eq_true, if_false]
      split
      . rfl
      . rfl
      . rfl
      . rfl
      . exact absurd ‹_› h8
      . rfl
      . rfl
  . rw [if_neg htype]
    simp [htype]

theorem next_reportCount (h : item.Sane) (hg : g.reportCount < 256) :
    (g.next item).reportCount < 256 := by
  unfold GlobalState.next
  by_cases htype : item.itemType = btHidItemTypeGlobal
  . rw [if_pos htype]
    split
    . exact hg
    . exact hg
    . exact hg
    . exact hg
    . exact hg
    . exact (h htype).2.2.1 ‹_›
    . exact hg
  . rw [if_neg htype]
    exact hg

theorem declared_ends (h : ∀ item ∈ ends, item.itemType = btHidItemTypeMain) :
    declared page none none (ends ++ items) = declared page none none items := by
  induction ends with
  | nil => rfl
  | cons item rest ih =>
    obtain ⟨hmain, hrest⟩ := forall_mem_cons.mp h
    have hpage : isUsagePage item = false := by
      simp [isUsagePage, hmain, btHidItemTypeMain, btHidItemTypeGlobal]
    have hlocal : item.itemType ≠ btHidItemTypeLocal := by
      rw [hmain]
      decide
    rw [cons_append, declared, if_neg (by rw [hpage]; exact Bool.false_ne_true),
      if_pos hlocal]
    exact ih hrest

theorem Scans.finds
    (h : Scans reportType report id s items p)
    (hdecl : declared s.page none none s.locals = some blocks) :
    Finds p.descriptor p.descriptorPos p.cursor blocks := by
  obtain ⟨ends, hends, hread⟩ := h.seen
  refine ⟨⟨ends ++ s.locals, hread, ?_, ?_⟩, h.noMin, h.noMax⟩
  . rw [h.page, declared_ends hends]
    exact hdecl
  . intro item hmem
    rcases mem_append.mp hmem with hend | hlocal
    . intro hglobal
      rw [hends item hend] at hglobal
      cases hglobal
    . exact h.sane item hlocal

theorem Scans.post {bits pos : Nat} {phase : Phase}
    (h : Scans reportType report id s (item :: rest) p) (hmain : item.itemType = btHidItemTypeMain)
    (hown : phase = .inside → s.globals.reportId = id)
    (hpos : pos = if id ≠ 0 ∧ phase = .before then 0 else s.pos + bits)
    (hstart : phase = .before → s.pos + bits = if id = 0 then 0 else 8)
    (hsmall : s.pos + bits < 65536) :
    Scans reportType report id (s.next bits phase) rest
      (btHidPostProcessItem item
        { p with
          descriptorItem := item
          activeRecord := decide (phase = .inside)
          reportPosInBit := pos }) := by
  obtain ⟨hlt, hitem, hfits, hrest⟩ := h.items
  have hshort := h.short
  have hnext : (p.descriptorPos + item.itemSize) % 65536 = p.descriptorPos + item.itemSize :=
    Nat.mod_eq_of_lt (by omega)
  simp only [btHidPostProcessItem, if_pos hmain, hnext]
  exact
    { state := h.state
      type := h.type
      report := h.report
      items := hrest
      short := hshort
      globals := h.globals
      required := h.required
      active := rfl
      own := hown
      undeclared := h.undeclared
      pos := hpos
      start := hstart
      small := hsmall
      seen := ⟨[item], by simpa using hmain, hlt, hitem, hfits, rfl⟩
      sane := fun _ hmem => absurd hmem not_mem_nil
      page := congrArg GlobalState.usagePage h.globals
      idle := h.idle
      noMin := h.noMin
      noMax := h.noMax }

theorem Scans.pass (h : Scans reportType report id s (item :: rest) p)
    (hmain : item.itemType ≠ btHidItemTypeMain) (hsane : item.Sane)
    (hno : id = 0 → isReportId item = false) :
    Scans reportType report id (s.pass id item) rest
      (btHidPostProcessItem item
        { p with
          descriptorItem := item
          globals := setGlobal item p.globals
          activeRecord := p.activeRecord &&
            !(isReportId item && decide (p.globals.reportId ≠ item.itemValue)) }) := by
  obtain ⟨hlt, hitem, hfits, hrest⟩ := h.items
  have hshort := h.short
  have hnext : (p.descriptorPos + item.itemSize) % 65536 = p.descriptorPos + item.itemSize :=
    Nat.mod_eq_of_lt (by omega)
  have hbefore : (s.pass id item).phase = .before ↔ s.phase = .before := by
    unfold Meaning.pass
    simp only
    split_ifs with hleft
    . rw [hleft.2.1]
      simp
    . exact Iff.rfl
  obtain ⟨ends, hends, hseen⟩ := h.seen
  simp only [btHidPostProcessItem, if_neg hmain, hnext]
  exact
    { state := h.state
      type := h.type
      report := h.report
      items := hrest
      short := hshort
      globals := by
        rw [h.globals, setGlobal_eq hsane]
        rfl
      required := h.required
      active := by
        rw [h.active, h.globals]
        unfold Meaning.pass
        simp only
        by_cases hinside : s.phase = .inside
        . have hid := h.own hinside
          by_cases hreport : isReportId item = true
          . by_cases hvalue : item.itemValue = id
            . simp [hinside, hreport, hvalue, hid]
            . have hne : ¬id = item.itemValue := fun heq => hvalue heq.symm
              simp [hinside, hreport, hvalue, hid, hne]
          . simp [hinside, hreport]
        . simp [hinside]
      own := by
        unfold Meaning.pass
        simp only
        intro hinside
        rw [next_reportId]
        split_ifs at hinside with hleft
        by_cases hreport : isReportId item = true
        . rw [if_pos hreport]
          by_contra hvalue
          exact hleft ⟨hreport, hinside, hvalue⟩
        . rw [if_neg hreport]
          exact h.own hinside
      undeclared := by
        intro hzero
        show (s.globals.next item).reportId = 0
        rw [next_reportId, if_neg (by rw [hno hzero]; exact Bool.false_ne_true)]
        exact h.undeclared hzero
      pos := by
        simp only [hbefore]
        exact h.pos
      start := fun hfirst => h.start (hbefore.mp hfirst)
      small := h.small
      seen := by
        refine ⟨ends, hends, ?_⟩
        show Reads p.descriptor p.cursor.usagePos (ends ++ (s.locals ++ [item])) _
        rw [← append_assoc]
        exact hseen.snoc ⟨hlt, hitem, hfits, rfl⟩
      sane := by
        intro x hx
        rcases mem_append.mp hx with hlocal | hlast
        . exact h.sane x hlocal
        . rw [mem_singleton.mp hlast]
          exact hsane
      page := h.page
      idle := h.idle
      noMin := h.noMin
      noMax := h.noMax }

theorem processItem_pass (h : isReport p.reportType item = false) :
    btHidProcessItem item p =
      .ok { p with
        globals := setGlobal item p.globals
        activeRecord := p.activeRecord &&
          !(isReportId item && decide (p.globals.reportId ≠ item.itemValue)) } := by
  unfold btHidProcessItem
  simp only [h, Bool.false_eq_true, if_false]
  rfl

section

variable (h : Scans reportType report id s (item :: rest) p)

include h

theorem Scans.other (hmain : item.itemType = btHidItemTypeMain) (hother : s.globals.reportId ≠ id)
    (hzero : s.globals.reportId ≠ 0) (hid : id ≠ 0 → byteAt report 0 = .ok id) :
    btHidProcessItem item { p with descriptorItem := item } =
      .ok { p with descriptorItem := item } := by
  have hbyte := hid (fun heq => hzero (h.undeclared heq))
  have hactive : p.activeRecord = false := by
    rw [h.active]
    exact decide_eq_false (fun hinside => hother (h.own hinside))
  have hmatch : s.globals.reportId ≠ 0 ∧ True := ⟨hzero, trivial⟩
  unfold btHidProcessItem
  simp only [setGlobal_main hmain, isReportId_main hmain, Bool.false_and, Bool.not_false,
    Bool.and_true, h.globals, hactive, h.report, hbyte, bind, Except.bind]
  rw [if_pos hmatch, if_pos (fun heq => hother heq.symm)]
  split_ifs <;> rfl

theorem Scans.own_item (hmain : item.itemType = btHidItemTypeMain)
    (hreport : isReport reportType item = true)
    (hown : s.globals.reportId = id) (hphase : s.phase ≠ .after)
    (hid : id ≠ 0 → byteAt report 0 = .ok id) :
    btHidProcessItem item { p with descriptorItem := item } =
      .ok (takeReport item
        { p with descriptorItem := item, activeRecord := true, reportPosInBit := s.pos }) := by
  have hpos := h.pos
  unfold btHidProcessItem
  simp only [setGlobal_main hmain, isReportId_main hmain, Bool.false_and, Bool.not_false,
    Bool.and_true, h.type, hreport, if_true]
  by_cases hfirst : p.globals.reportId ≠ 0 ∧ p.activeRecord = false
  . have hne : id ≠ 0 := by
      rw [h.globals, hown] at hfirst
      exact hfirst.1
    have hbefore : s.phase = .before := by
      have hinside := hfirst.2
      rw [h.active, decide_eq_false_iff_not] at hinside
      cases hcase : s.phase with
      | before => rfl
      | inside => exact absurd hcase hinside
      | after => exact absurd hcase hphase
    have hstart := h.start hbefore
    rw [if_neg hne] at hstart
    rw [if_pos ⟨hne, hbefore⟩] at hpos
    have height : (p.reportPosInBit + 8) % 65536 = s.pos := by rw [hpos, hstart]
    rw [if_pos hfirst, h.report, hid hne]
    simp only [bind, Except.bind, h.globals, hown, height]
    rw [if_neg (not_not.mpr rfl)]
    unfold takeReport
    split_ifs <;> rfl
  . have hsame : p.reportPosInBit = s.pos := by
      rw [hpos, if_neg]
      rintro ⟨hne, hbefore⟩
      apply hfirst
      rw [h.globals, hown, h.active, hbefore]
      exact ⟨hne, rfl⟩
    rw [if_neg hfirst, ← hsame]
    unfold takeReport
    split_ifs <;> rfl

section

variable (hprocess : btHidProcessItem item { p with descriptorItem := item } = .ok q)

include hprocess

theorem findNextUsage_skip (hrequired : q.requiredUsages = 0) :
    btHidParserFindNextUsage c fuel (n + 1) p =
      btHidParserFindNextUsage c fuel n (btHidPostProcessItem item q) := by
  have hlt := h.items.1
  have hparse := @Reads.parse p.descriptor p.descriptorPos _ item p.descriptorItem rest h.items
  rw [btHidParserFindNextUsage, if_pos h.state, if_neg (by omega)]
  simp only [hparse, bind, Except.bind, hprocess]
  rw [if_neg (not_not.mpr hrequired)]

theorem findNextUsage_stop (hrequired : q.requiredUsages ≠ 0)
    (hcursor : btHidFindNextUsage c q.descriptor q.descriptorPos fuel q.cursor = .ok cursor)
    (havailable : cursor.availableUsages ≠ 0) :
    btHidParserFindNextUsage c fuel (n + 1) p =
      .ok { q with cursor, state := .usagesAvailable } := by
  have hlt := h.items.1
  have hparse := @Reads.parse p.descriptor p.descriptorPos _ item p.descriptorItem rest h.items
  rw [btHidParserFindNextUsage, if_pos h.state, if_neg (by omega)]
  simp only [hparse, bind, Except.bind, hprocess]
  rw [if_pos hrequired]
  simp only [hcursor]
  rw [if_pos havailable]
  rfl

end

theorem Scans.item_fields (hmain : item.itemType = btHidItemTypeMain)
    (hreport : isReport reportType item = true) (hown : s.globals.reportId = id)
    (hphase : s.phase ≠ .after) (hid : id ≠ 0 → byteAt report 0 = .ok id)
    (hsmall : s.pos + s.bits < 65536) (hdata : isConstant item = false)
    (hcount : s.globals.reportCount < 256) (hne : s.globals.reportCount ≠ 0)
    (hdecl : declared s.page none none s.locals = some blocks)
    (hhere : mainFields report s.globals item s.pos blocks = some here)
    (hfuel : p.descriptor.length < fuel)
    (hgoes : Goes c fuel reportType report id (s.next s.bits .inside) rest later) :
    ∃ p', btHidParserFindNextUsage c fuel (n + 1) p = .ok p' ∧
      Yields c fuel p' (here ++ later) := by
  have hfinds := h.finds hdecl
  have hprocess := h.own_item hmain hreport hown hphase hid
  have hcountp : p.globals.reportCount = s.globals.reportCount := congrArg _ h.globals
  rw [takeReport, if_neg (by rw [hdata]; exact Bool.false_ne_true),
    if_pos (by rw [hcountp]; exact hne)] at hprocess
  have hpos : p.cursor.usagePos ≤ p.descriptor.length := by
    obtain ⟨ends, -, hseen⟩ := h.seen
    have hle := hseen.le
    have hlt := h.items.1
    omega
  rw [mainFields, if_neg hne] at hhere
  split_ifs at hhere with hfits hvariable
  . obtain ⟨usages, husages, rfl⟩ := Option.map_eq_some_iff.mp hhere
    obtain ⟨count, hsucc⟩ : ∃ count, s.globals.reportCount = count + 1 :=
      Nat.exists_eq_succ_of_ne_zero hne
    cases blocks with
    | nil =>
      rw [hsucc] at husages
      simp [usagesFor] at husages
    | cons b blocks =>
      obtain ⟨cursor, hcursor, hm, hmne, hlo, hfinds', hpos'⟩ :=
        hfinds.next h.short hpos h.idle (c := c) hfuel
      refine ⟨_, findNextUsage_stop h hprocess (by rw [hcountp]; exact hne) hcursor
        (by rw [hm]; exact hmne), ?_⟩
      rw [hsucc, usagesFor, ← hsucc] at husages
      split_ifs at husages with hle
      obtain ⟨usages', husages', rfl⟩ := Option.map_eq_some_iff.mp husages
      exact Accesses.variables
        ⟨rfl, rfl, h.type, h.report, h.items, h.short, h.globals, rfl, rfl, hpos'⟩ hgoes hmain hown
        (hfits.1.trans hvariable) hsmall hfuel hcountp hcount hm (Nat.one_le_iff_ne_zero.mpr hmne)
        hle (by rw [hlo]) hfinds' husages' (by rw [Meaning.bits, Nat.mul_comm]) hfits.2
  . obtain ⟨b, hb, rfl⟩ := Option.map_eq_some_iff.mp hhere
    cases blocks with
    | nil => cases hb
    | cons b' blocks =>
      cases hb
      obtain ⟨cursor, hcursor, hm, hmne, hlo, hfinds', hpos'⟩ :=
        hfinds.next h.short hpos h.idle (c := c) hfuel
      refine ⟨_, findNextUsage_stop h hprocess (by rw [hcountp]; exact hne) hcursor
        (by rw [hm]; exact hmne), ?_⟩
      exact Accesses.array
        ⟨rfl, rfl, h.type, h.report, h.items, h.short, h.globals, rfl, rfl, hpos'⟩ hgoes hmain hown
        (hfits.1.trans ((Bool.not_eq_true _).mp hvariable)) hsmall hfuel hcountp
        (Nat.one_le_iff_ne_zero.mpr hne) hcount (by rw [hm]; exact hmne) hlo hfinds'
        (by rw [Meaning.bits, Nat.mul_comm]) hfits.2

end

def Leads (c : Open) (fuel : Nat) (reportType : ReportType) (report : List UInt8) (id : Nat)
    (s : Meaning) (rest : List Item) (p : Parser) : Prop :=
  ∃ q, (∀ n, btHidParserFindNextUsage c fuel (n + 1) p = btHidParserFindNextUsage c fuel n q) ∧
    q.descriptor = p.descriptor ∧ Scans reportType report id s rest q

section

variable (h : Scans reportType report id s (item :: rest) p)
  (hmain : item.itemType = btHidItemTypeMain)

include h hmain

theorem Scans.skip (hprocess : btHidProcessItem item { p with descriptorItem := item } =
      .ok { p with descriptorItem := item }) :
    Leads c fuel reportType report id (s.next 0 s.phase) rest p := by
  have hsame : ({ p with descriptorItem := item, reportPosInBit := p.reportPosInBit } : Parser) =
      { p with
        descriptorItem := item
        activeRecord := decide (s.phase = .inside)
        reportPosInBit := p.reportPosInBit } := by rw [← h.active]
  have hpos : p.reportPosInBit = if id ≠ 0 ∧ s.phase = .before then 0 else s.pos + 0 := h.pos
  refine ⟨_, fun n => ?_, ?_, h.post hmain h.own hpos h.start h.small⟩
  . rw [findNextUsage_skip h hprocess h.required, hsame]
  . rfl

theorem Scans.empty (hown : s.globals.reportId = id)
    (hsmall : s.pos + s.bits < 65536)
    (hprocess : btHidProcessItem item { p with descriptorItem := item } =
      .ok { p with
        descriptorItem := item, activeRecord := true, reportPosInBit := s.pos + s.bits }) :
    Leads c fuel reportType report id (s.next s.bits .inside) rest p := by
  have hpos : s.pos + s.bits = if id ≠ 0 ∧ Phase.inside = .before then 0 else s.pos + s.bits :=
    (if_neg (fun hboth => by cases hboth.2)).symm
  have hpost : Scans reportType report id (s.next s.bits .inside) rest _ :=
    h.post hmain (fun _ => hown) hpos (fun hbefore => by cases hbefore) hsmall
  refine ⟨_, fun n => ?_, ?_, hpost⟩
  . rw [findNextUsage_skip h hprocess h.required]
    rfl
  . rfl

section

variable (hreport : isReport reportType item = true) (hown : s.globals.reportId = id)
  (hphase : s.phase ≠ .after) (hid : id ≠ 0 → byteAt report 0 = .ok id)
  (hsmall : s.pos + s.bits < 65536)

include hreport hown hphase hid hsmall

theorem Scans.constant (hconstant : isConstant item = true) :
    Leads c fuel reportType report id (s.next s.bits .inside) rest p := by
  have hprocess := h.own_item hmain hreport hown hphase hid
  have hbits : p.globals.reportSize * p.globals.reportCount = s.bits := by
    rw [h.globals]
    rfl
  rw [takeReport, if_pos hconstant, hbits, Nat.mod_eq_of_lt hsmall] at hprocess
  exact h.empty hmain hown hsmall hprocess

theorem Scans.none (hdata : isConstant item = false) (hzero : s.globals.reportCount = 0) :
    Leads c fuel reportType report id (s.next s.bits .inside) rest p := by
  have hprocess := h.own_item hmain hreport hown hphase hid
  have hcount : p.globals.reportCount = 0 := (congrArg _ h.globals).trans hzero
  have hbits : s.bits = 0 := by rw [Meaning.bits, hzero, Nat.mul_zero]
  rw [takeReport, if_neg (by rw [hdata]; exact Bool.false_ne_true), if_neg (not_not.mpr hcount)]
    at hprocess
  refine h.empty hmain hown hsmall ?_
  rw [hprocess, hbits]
  rfl

end

end

theorem Scans.goes (h : Scans reportType report id s items p)
    (hfields : fieldsOf reportType report id s items = some fields)
    (hsane : ∀ item ∈ items, item.Sane) (hid : id ≠ 0 → byteAt report 0 = .ok id)
    (hno : id = 0 → ∀ item ∈ items, isReportId item = false)
    (hcount : s.globals.reportCount < 256) (hfuel : p.descriptor.length < fuel)
    (hn : items.length < n) :
    ∃ p', btHidParserFindNextUsage c fuel n p = .ok p' ∧ Yields c fuel p' fields := by
  induction items generalizing s p fields n with
  | nil =>
    cases hfields
    cases n with
    | zero => omega
    | succ n =>
      have hend : p.descriptorPos = p.descriptor.length := h.items
      refine ⟨{ p with state := .complete }, ?_, yields_nil (by simp)⟩
      rw [btHidParserFindNextUsage, if_pos h.state, if_pos (by omega)]
      rfl
  | cons item rest ih =>
    cases n with
    | zero => omega
    | succ n =>
      obtain ⟨hitem, hrest⟩ := forall_mem_cons.mp hsane
      have hno' : id = 0 → isReportId item = false ∧ ∀ x ∈ rest, isReportId x = false :=
        fun hzero => forall_mem_cons.mp (hno hzero)
      have hn' : rest.length < n := by
        rw [length_cons] at hn
        omega
      have hleads : ∀ s' fs, Leads c fuel reportType report id s' rest p →
          s'.globals.reportCount < 256 → fieldsOf reportType report id s' rest = some fs →
          ∃ p', btHidParserFindNextUsage c fuel (n + 1) p = .ok p' ∧ Yields c fuel p' fs := by
        rintro s' fs ⟨q, hq, hdescriptor, hscans⟩ hcount' hfs
        rw [hq]
        exact ih hscans hfs hrest (fun hzero => (hno' hzero).2) hcount' (hdescriptor ▸ hfuel) hn'
      rw [fieldsOf] at hfields
      by_cases hmain : item.itemType = btHidItemTypeMain
      . rw [if_pos hmain] at hfields
        by_cases hreport : isReport reportType item = true
        . rw [if_pos hreport] at hfields
          by_cases hown : s.globals.reportId = id
          . rw [if_pos hown] at hfields
            split_ifs at hfields with hlast hconstant
            . rw [not_or, Nat.not_le] at hlast
              exact hleads _ _ (h.constant hmain hreport hown hlast.1 hid hlast.2 hconstant) hcount
                hfields
            . rw [not_or, Nat.not_le] at hlast
              rw [Bool.not_eq_true] at hconstant
              obtain ⟨blocks, hdecl, hfields⟩ := Option.bind_eq_some_iff.mp hfields
              obtain ⟨here, hhere, hfields⟩ := Option.bind_eq_some_iff.mp hfields
              obtain ⟨later, hlater, hfields⟩ := Option.bind_eq_some_iff.mp hfields
              cases hfields
              by_cases hzero : s.globals.reportCount = 0
              . rw [mainFields, if_pos hzero] at hhere
                cases hhere
                exact hleads _ _ (h.none hmain hreport hown hlast.1 hid hlast.2 hconstant hzero)
                  hcount hlater
              . have hfew : rest.length < fuel := by
                  have hle := h.items.length_le
                  rw [length_cons] at hle
                  omega
                have hgoes : Goes c fuel reportType report id (s.next s.bits .inside) rest later :=
                  fun q hq hqfuel =>
                    ih hq hlater hrest (fun hzero => (hno' hzero).2) hcount hqfuel hfew
                exact h.item_fields hmain hreport hown hlast.1 hid hlast.2 hconstant hcount hzero
                  hdecl hhere hfuel hgoes
          . rw [if_neg hown] at hfields
            split_ifs at hfields with hzero
            exact hleads _ _ (h.skip hmain (h.other hmain hown hzero hid)) hcount hfields
        . rw [if_neg hreport] at hfields
          have hpass := @processItem_pass { p with descriptorItem := item } item
            (by rw [← h.type] at hreport; simpa using hreport)
          refine hleads _ _ (h.skip hmain ?_) hcount hfields
          rw [hpass]
          simp only [setGlobal_main hmain, isReportId_main hmain, Bool.false_and, Bool.not_false,
            Bool.and_true]
      . rw [if_neg hmain] at hfields
        have hreport : isReport p.reportType item = false := by simp [isReport, hmain]
        have hpass := @processItem_pass { p with descriptorItem := item } item hreport
        have hpost := h.pass hmain hitem (fun hzero => (hno' hzero).1)
        refine hleads _ _ ⟨_, fun n => ?_, ?_, hpost⟩ (next_reportCount hitem hcount) hfields
        . exact findNextUsage_skip h hpass h.required
        . rfl

theorem scans_zero (h : WellFormed desc items report) :
    Scans reportType report (reportIdOf items report) (Meaning.start (reportIdOf items report))
      items (Parser.zero desc reportType report) where
  state := rfl
  type := rfl
  report := rfl
  items := h.reads
  short := h.short
  globals := rfl
  required := rfl
  active := rfl
  own := fun hinside => by cases hinside
  undeclared := fun _ => rfl
  pos := by
    by_cases hzero : reportIdOf items report = 0
    . rw [hzero]
      rfl
    . rw [if_pos ⟨hzero, rfl⟩]
      rfl
  start := fun _ => rfl
  small := by
    unfold Meaning.start
    simp only
    split_ifs <;> decide
  seen := ⟨[], nofun, rfl⟩
  sane := fun _ hmem => absurd hmem not_mem_nil
  page := rfl
  idle := rfl
  noMin := rfl
  noMax := rfl

theorem byteAt_reportIdOf (h : reportIdOf items report ≠ 0) :
    byteAt report 0 = .ok (reportIdOf items report) := by
  unfold reportIdOf at h ⊢
  split_ifs at h ⊢ with hany
  . cases report with
    | nil => exact absurd rfl h
    | cons b rest => rfl
  . exact absurd rfl h

theorem report_fields (c : Open) (desc report : List UInt8) (reportType : ReportType) :
    (∀ items fields, WellFormed desc items report →
      fieldsOf reportType report (reportIdOf items report)
        (Meaning.start (reportIdOf items report)) items = some fields →
      ∀ fuel n, desc.length < fuel → fields.length < n →
        reportFields c fuel n desc reportType report = .ok fields) ∧
    (report ≠ [] → ∀ fuel,
      btHidParserInit c fuel desc reportType report ≠ .error .outside ∧
      ∀ p, Reached c fuel desc reportType report p → btHidParserHasMore p = true → p.Inside →
        btHidParserAccessReportField c fuel p ≠ .error .outside) := by
  constructor
  . intro items fields hwell hfields fuel n hfuel hn
    have hlen := hwell.reads.length_le
    have hno : reportIdOf items report = 0 → ∀ item ∈ items, isReportId item = false := by
      intro hzero item hitem
      by_contra hreport
      have hany : items.any isReportId = true :=
        any_eq_true.mpr ⟨item, hitem, (Bool.not_eq_false _).mp hreport⟩
      exact hwell.id hany hzero
    have hscans : Scans reportType report _ _ items (Parser.zero desc reportType report) :=
      scans_zero hwell
    obtain ⟨p, hp, hyields⟩ := hscans.goes hfields hwell.sane byteAt_reportIdOf hno
      (by decide : 0 < 256) hfuel (by omega : items.length < fuel) (c := c)
    unfold reportFields btHidParserInit
    simp only [hp, bind, Except.bind]
    exact hyields n hn
  . intro hreport fuel
    constructor
    . have hsafe := @init_safe c fuel desc report reportType hreport
      intro heq
      rw [heq] at hsafe
      exact hsafe rfl
    . exact fun p hp hmore hinside => hp.safe hmore hreport hinside

def nothing : Open := ⟨⟨0, 0, 0, 0, 0⟩, fun _ _ => 0⟩

def mouse (flags : UInt8) : List UInt8 :=
  [0x05, 1, 0x09, 0x30, 0x09, 0x31, 0x15, 0x81, 0x25, 0x7f, 0x75, 8, 0x95, 2, 0x81, flags]

def keyboard : List UInt8 :=
  [0x05, 7, 0x19, 0, 0x29, 0x65, 0x15, 0, 0x25, 0x65, 0x75, 8, 0x95, 1, 0x81, 0]

theorem report_fields_mouse :
    reportFields nothing 17 3 (mouse 0x16) .input [5, 0xff] =
      .ok [⟨1, 0x30, 5⟩, ⟨1, 0x31, 2 ^ 32 - 1⟩] ∧
    btHidParserInit nothing 17 (mouse 0x16) .input [5] ≠ .error .outside := by
  have hwell : WellFormed (mouse 0x16) (cutItems 17 (mouse 0x16)).1 [5, 0xff] :=
    ⟨by decide, by decide, by decide, by decide⟩
  exact ⟨(report_fields nothing (mouse 0x16) [5, 0xff] .input).1 _
    [⟨1, 0x30, 5⟩, ⟨1, 0x31, 2 ^ 32 - 1⟩] hwell (by decide) 17 3 (by decide) (by decide),
    ((report_fields nothing (mouse 0x16) [5] .input).2 (by decide) 17).1⟩

theorem not_report_fields :
    (∃ field, reportFields nothing 17 3 keyboard .input [4] = .ok [field] ∧ field.usage = 4 ∧
      field.value ≠ bitsAt [4] 0 8) ∧
    reportFields nothing 17 3 (mouse 0x06) .input [5, 0xff] = .ok [⟨1, 5, 1⟩, ⟨1, 0xff, 1⟩] ∧
    reportFields nothing 17 3 (mouse 0x06) .input [5] = .error .outside :=
  ⟨⟨⟨7, 4, 1⟩, by decide, by decide, by decide⟩, by decide, by decide⟩

end

end Hid
