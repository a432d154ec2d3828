import Earphone.Hid.Parser
import Mathlib.Data.Nat.Bitwise
import Mathlib.Tactic.Ring

namespace Hid

open Scan List

def bitsAt (report : List UInt8) (pos size : Nat) : Nat := readValue report / 2 ^ pos % 2 ^ size

def Readable (report : List UInt8) (pos size : Nat) : Prop :=
  1 ≤ size ∧ size ≤ 31 ∧ pos % 8 + size ≤ 32 ∧ pos + size ≤ 8 * report.length
  deriving Decidable

def declared (page : Nat) (lo hi : Option Nat) : List Item → Option (List (Nat × Nat))
  | [] => some []
  | item :: rest =>
    if isUsagePage item then declared item.itemValue lo hi rest
    else if item.itemType ≠ btHidItemTypeLocal then declared page lo hi rest
    else if item.itemTag = btHidLocalItemTagUsage then
      if lo = none ∧ hi = none then
        (declared page none none rest).map ((usageValue page item, 1) :: ·)
      else none
    else if item.itemTag = btHidLocalItemTagUsageMinimum then
      match hi with
      | none => declared page (some (usageValue page item)) none rest
      | some hi =>
        if usageValue page item ≤ hi ∧ hi - usageValue page item < 65535 then
          (declared page none none rest).map
            ((usageValue page item, hi - usageValue page item + 1) :: ·)
        else none
    else if item.itemTag = btHidLocalItemTagUsageMaximum then
      match lo with
      | none => declared page none (some (usageValue page item)) rest
      | some lo =>
        if lo ≤ usageValue page item ∧ usageValue page item - lo < 65535 then
          (declared page none none rest).map ((lo, usageValue page item - lo + 1) :: ·)
        else none
    else declared page lo hi rest

def usagesFor : Nat → List (Nat × Nat) → Option (List Nat)
  | 0, [] => some []
  | _ + 1, [] => none
  | 0, _ :: _ => some []
  | count + 1, (lo, n) :: rest =>
    if n ≤ count + 1 then (usagesFor (count + 1 - n) rest).map (List.range' lo n ++ ·) else none

def signExtend (size value : Nat) : Nat :=
  if value.testBit (size - 1) then value + (2 ^ 32 - 2 ^ size) else value

def variableField (report : List UInt8) (g : GlobalState) (pos usage : Nat) : Field where
  usagePage := usage / 65536 % 65536
  usage := usage % 65536
  value :=
    if 2 ^ 31 ≤ g.logicalMinimum then signExtend g.reportSize (bitsAt report pos g.reportSize)
    else bitsAt report pos g.reportSize

def arrayField (report : List UInt8) (g : GlobalState) (pos usage : Nat) : Field where
  usagePage := usage / 65536 % 65536
  usage := bitsAt report pos g.reportSize % 65536
  value := 1

def variableFields (report : List UInt8) (g : GlobalState) : Nat → List Nat → List Field
  | _, [] => []
  | pos, usage :: rest =>
    variableField report g pos usage :: variableFields report g (pos + g.reportSize) rest

def arrayFields (report : List UInt8) (g : GlobalState) (usage : Nat) : Nat → Nat → List Field
  | _, 0 => []
  | pos, count + 1 =>
    arrayField report g pos usage :: arrayFields report g usage (pos + g.reportSize) count

def declaresVariable (item : Item) : Bool := item.itemValue / 2 % 2 = 1

def mainFields (report : List UInt8) (g : GlobalState) (item : Item) (pos : Nat)
    (blocks : List (Nat × Nat)) : Option (List Field) :=
  if g.reportCount = 0 then some []
  else if isVariable item = declaresVariable item ∧
      ∀ k < g.reportCount, Readable report (pos + k * g.reportSize) g.reportSize then
    if declaresVariable item then
      (usagesFor g.reportCount blocks).map (variableFields report g pos)
    else blocks.head?.map fun b => arrayFields report g b.1 pos g.reportCount
  else none

def Item.Sane (item : Item) : Prop :=
  item.itemType = btHidItemTypeGlobal →
    (item.itemTag = btHidGlobalItemTagUsagePage → item.itemValue < 65536) ∧
    (item.itemTag = btHidGlobalItemTagReportSize → item.itemValue < 256) ∧
    (item.itemTag = btHidGlobalItemTagReportCount → item.itemValue < 256) ∧
    (item.itemTag = btHidGlobalItemTagReportId → 0 < item.itemValue ∧ item.itemValue < 256)

instance (item : Item) : Decidable item.Sane := by
  unfold Item.Sane
  infer_instance

def GlobalState.next (item : Item) (g : GlobalState) : GlobalState :=
  if item.itemType = btHidItemTypeGlobal then
    match item.itemTag with
    | 0 => { g with usagePage := item.itemValue }
    | 1 => { g with logicalMinimum := item.itemValue }
    | 2 => { g with logicalMaximum := item.itemValue }
    | 7 => { g with reportSize := item.itemValue }
    | 8 => { g with reportId := item.itemValue }
    | 9 => { g with reportCount := item.itemValue }
    | _ => g
  else g

inductive Phase where
  | before
  | inside
  | after
  deriving DecidableEq

structure Meaning where
  globals : GlobalState
  page : Nat
  locals : List Item
  pos : Nat
  phase : Phase

def Meaning.start (id : Nat) : Meaning where
  globals := ⟨0, 0, 0, 0, 0, 0⟩
  page := 0
  locals := []
  pos := if id = 0 then 0 else 8
  phase := .before

def Meaning.bits (s : Meaning) : Nat := s.globals.reportSize * s.globals.reportCount

def Meaning.next (s : Meaning) (bits : Nat) (phase : Phase) : Meaning :=
  { s with page := s.globals.usagePage, locals := [], pos := s.pos + bits, phase }

def Meaning.pass (id : Nat) (item : Item) (s : Meaning) : Meaning :=
  { s with
    globals := s.globals.next item
    locals := s.locals ++ [item]
    phase := if isReportId item = true ∧ s.phase = .inside ∧ item.itemValue ≠ id then .after
      else s.phase }

def fieldsOf (reportType : ReportType) (report : List UInt8) (id : Nat) :
    Meaning → List Item → Option (List Field)
  | _, [] => some []
  | s, item :: rest =>
    if item.itemType = btHidItemTypeMain then
      if isReport reportType item then
        if s.globals.reportId = id then
          if s.phase = .after ∨ 65536 ≤ s.pos + s.bits then none
          else if isConstant item then fieldsOf reportType report id (s.next s.bits .inside) rest
          else do
            let blocks ← declared s.page none none s.locals
            let fields ← mainFields report s.globals item s.pos blocks
            let later ← fieldsOf reportType report id (s.next s.bits .inside) rest
            return fields ++ later
        else if s.globals.reportId = 0 then none
        else fieldsOf reportType report id (s.next 0 s.phase) rest
      else fieldsOf reportType report id (s.next 0 s.phase) rest
    else fieldsOf reportType report id (s.pass id item) rest

def Reads (desc : List UInt8) : Nat → List Item → Nat → Prop
  | pos, [], stop => pos = stop
  | pos, item :: rest, stop =>
    pos < desc.length ∧ itemAt (desc.drop pos) = item ∧ pos + item.itemSize ≤ desc.length ∧
      Reads desc (pos + item.itemSize) rest stop

instance Reads.instDecidable (desc : List UInt8) :
    ∀ (pos : Nat) (items : List Item) (stop : Nat), Decidable (Reads desc pos items stop)
  | _, [], _ => inferInstanceAs (Decidable (_ = _))
  | pos, item :: rest, stop =>
    have := Reads.instDecidable desc (pos + item.itemSize) rest stop
    inferInstanceAs (Decidable (_ ∧ _ ∧ _ ∧ Reads ..))

def reportIdOf (items : List Item) (report : List UInt8) : Nat :=
  if items.any isReportId then (report.headD 0).toNat else 0

structure WellFormed (desc : List UInt8) (items : List Item) (report : List UInt8) : Prop where
  reads : Reads desc 0 items desc.length
  short : desc.length < 65536
  sane : ∀ item ∈ items, item.Sane
  id : items.any isReportId = true → reportIdOf items report ≠ 0

theorem usagesFor_zero : usagesFor 0 blocks = some [] := by
  cases blocks <;> rfl

section

variable {c : Open} {report bytes : List UInt8} {n pos size a : Nat}

theorem readValue_lt : readValue bytes < 2 ^ (8 * bytes.length) := by
  induction bytes with
  | nil => exact Nat.one_pos
  | cons b bs ih =>
    have hb := b.toNat_lt
    rw [readValue, length_cons, Nat.mul_succ, Nat.pow_add]
    omega

theorem readValue_append (bytes rest : List UInt8) :
    readValue (bytes ++ rest) = readValue bytes + 2 ^ (8 * bytes.length) * readValue rest := by
  induction bytes with
  | nil => simp [readValue]
  | cons b bs ih =>
    rw [cons_append, readValue, readValue, ih, length_cons, Nat.mul_succ, Nat.pow_add]
    ring

theorem readValue_drop : readValue (report.drop n) = readValue report / 2 ^ (8 * n) := by
  induction n generalizing report with
  | zero => simp
  | succ n ih =>
    cases report with
    | nil => simp [readValue]
    | cons b bs =>
      have hb := b.toNat_lt
      have hone : (b.toNat + 256 * readValue bs) / 2 ^ 8 = readValue bs := by omega
      rw [drop_succ_cons, ih, readValue, Nat.mul_succ, Nat.add_comm (8 * n), Nat.pow_add,
        ← Nat.div_div_eq_div_mul, hone]

theorem readValue_take : readValue (report.take n) = readValue report % 2 ^ (8 * n) := by
  by_cases hn : n ≤ report.length
  . have hsplit := readValue_append (report.take n) (report.drop n)
    have hlt := @readValue_lt (report.take n)
    rw [take_append_drop] at hsplit
    rw [length_take, Nat.min_eq_left hn] at hsplit hlt
    rw [hsplit, Nat.add_mul_mod_self_left, Nat.mod_eq_of_lt hlt]
  . have hlt := @readValue_lt report
    have hle : 2 ^ (8 * report.length) ≤ 2 ^ (8 * n) := Nat.pow_le_pow_right (by decide) (by omega)
    rw [take_of_length_le (by omega), Nat.mod_eq_of_lt (by omega)]

theorem readBytes_eq (hn : n ≤ 4) (hin : a + n ≤ report.length) :
    readBytes c report a n = .ok (readValue ((report.drop a).take n)) := by
  induction n with
  | zero => simp [readBytes, readValue]
  | succ n ih =>
    have hlt : a + n < report.length := by omega
    have hb := report[a + n].toNat_lt
    have hvalue := @readValue_lt ((report.drop a).take n)
    have hlen : ((report.drop a).take n).length = n := by
      rw [length_take, length_drop]
      omega
    have htake : (report.drop a).take (n + 1) = (report.drop a).take n ++ [report[a + n]] := by
      rw [take_add_one, getElem?_drop, getElem?_eq_getElem hlt]
      rfl
    rw [hlen] at hvalue
    have hpow : report[a + n].toNat * 2 ^ (8 * n) < 2 ^ 32 := by
      have hle : 2 ^ 8 * 2 ^ (8 * n) ≤ 2 ^ 32 := by
        rw [← Nat.pow_add]
        exact Nat.pow_le_pow_right (by decide) (by omega)
      calc report[a + n].toNat * 2 ^ (8 * n) < 2 ^ 8 * 2 ^ (8 * n) :=
            Nat.mul_lt_mul_of_pos_right hb (Nat.two_pow_pos _)
        _ ≤ 2 ^ 32 := hle
    have hshift : c.shiftLeft report[a + n].toNat (n * 8) = 2 ^ (8 * n) * report[a + n].toNat := by
      rw [Open.shiftLeft, if_pos (by omega), Nat.mul_comm n, Nat.mod_eq_of_lt hpow, Nat.mul_comm]
    rw [readBytes, ih (by omega) (by omega)]
    simp only [byteAt_lt hlt, bind, Except.bind, hshift]
    rw [htake, readValue_append, hlen, Nat.or_comm, ← Nat.two_pow_add_eq_or_of_lt hvalue, readValue,
      readValue, Nat.mul_zero, Nat.add_zero, Nat.add_comm]
    rfl

theorem mod_div_mod (h : k + s ≤ w) : x % 2 ^ w / 2 ^ k % 2 ^ s = x / 2 ^ k % 2 ^ s := by
  apply Nat.eq_of_testBit_eq
  intro i
  simp only [Nat.testBit_mod_two_pow, Nat.testBit_div_two_pow]
  by_cases hi : i < s
  . have hw : i + k < w := by omega
    simp [hw]
  . simp [hi]

theorem fieldMask_eq (hsize : size ≤ 31) : fieldMask c size = 2 ^ size - 1 := by
  have hpow : 2 ^ size ≤ 2 ^ 31 := Nat.pow_le_pow_right (by decide) hsize
  have hpos := Nat.two_pow_pos size
  rw [fieldMask, Open.shiftLeft, if_pos (by omega), Nat.one_mul]
  omega

theorem bytesToRead_eq (hle : first ≤ last) (hfew : last - first < 4) :
    bytesToRead first last = last + 1 - first := by
  unfold bytesToRead
  omega

theorem readField_eq (h : Readable report pos size) :
    readField c report pos size = .ok (bitsAt report pos size) := by
  obtain ⟨hone, hsize, hfour, hin⟩ := h
  have hend : posEndOf pos size = (pos + size - 1) / 8 := if_neg (by omega)
  have hlast : (pos + size - 1) / 8 < report.length := by omega
  have hbytes : bytesToRead (pos / 8) ((pos + size - 1) / 8) = (pos + size - 1) / 8 + 1 - pos / 8 :=
    bytesToRead_eq (by omega) (by omega)
  have hmod : pos % 8 + size ≤ 8 * ((pos + size - 1) / 8 + 1 - pos / 8) := by omega
  have hpos : 8 * (pos / 8) + pos % 8 = pos := by omega
  have hread := @readBytes_eq c report ((pos + size - 1) / 8 + 1 - pos / 8) (pos / 8) (by omega)
    (by omega)
  have hvalue : readValue ((report.drop (pos / 8)).take ((pos + size - 1) / 8 + 1 - pos / 8)) /
      2 ^ (pos % 8) % 2 ^ size = bitsAt report pos size := by
    rw [readValue_take, readValue_drop, mod_div_mod hmod, Nat.div_div_eq_div_mul, ← Nat.pow_add,
      hpos]
    rfl
  unfold readField
  rw [hend, Nat.min_eq_left (by omega), Nat.min_eq_left (by omega)]
  simp only [hbytes, hread, bind, Except.bind, fieldMask_eq hsize]
  rw [Nat.and_two_pow_sub_one_eq_mod, hvalue]
  rfl

theorem bitsAt_lt : bitsAt report pos size < 2 ^ size := Nat.mod_lt _ (Nat.two_pow_pos _)

theorem signExtend_eq {value : Nat} (hone : 1 ≤ size) (hsize : size ≤ 31) (hlt : value < 2 ^ size) :
    (if value &&& signBit c size ≠ 0 then (value + (2 ^ 32 - c.shiftLeft 1 size % 2 ^ 32)) % 2 ^ 32
      else value) = signExtend size value := by
  have hpow : 2 ^ size ≤ 2 ^ 31 := Nat.pow_le_pow_right (by decide) hsize
  have hhalf : 2 ^ (size - 1) ≤ 2 ^ 31 := Nat.pow_le_pow_right (by decide) (by omega)
  have hsign : signBit c size = 2 ^ (size - 1) := by
    rw [signBit, if_neg (by omega), Open.shiftLeft, if_pos (by omega), Nat.one_mul]
    exact Nat.mod_eq_of_lt (by omega)
  have hshift : c.shiftLeft 1 size = 2 ^ size := by
    rw [Open.shiftLeft, if_pos (by omega), Nat.one_mul]
    exact Nat.mod_eq_of_lt (by omega)
  have hbit := Nat.two_pow_pos (size - 1)
  rw [hsign, hshift, Nat.and_two_pow, signExtend]
  cases value.testBit (size - 1) with
  | false => simp
  | true =>
    have hne : true.toNat * 2 ^ (size - 1) ≠ 0 := by
      rw [Bool.toNat_true, Nat.one_mul]
      omega
    rw [if_pos hne, if_pos rfl, Nat.mod_eq_of_lt (by omega : 2 ^ size < 2 ^ 32)]
    exact Nat.mod_eq_of_lt (by omega)

section

variable {item : Item} {g : GlobalState} {usageMinimum usage : Nat}

theorem page_of_mod (h : usageMinimum % 2 ^ 32 = usage % 2 ^ 32) :
    usageMinimum / 65536 % 65536 = usage / 65536 % 65536 ∧
      usageMinimum % 65536 = usage % 65536 := by omega

theorem fieldOf_variable (h : Readable report pos g.reportSize) (hvariable : isVariable item = true)
    (husage : usageMinimum % 2 ^ 32 = usage % 2 ^ 32) :
    fieldOf c item g usageMinimum (bitsAt report pos g.reportSize) =
      variableField report g pos usage := by
  obtain ⟨hpage, hid⟩ := page_of_mod husage
  have hsign := @signExtend_eq c g.reportSize _ h.1 h.2.1 (@bitsAt_lt report pos g.reportSize)
  unfold fieldOf variableField
  simp only [hvariable, if_true, hpage, hid]
  congr 1
  by_cases hlow : 2 ^ 31 ≤ g.logicalMinimum
  . simp only [hlow, true_and, if_true]
    exact hsign
  . simp only [hlow, false_and, if_false]

theorem fieldOf_array (hvariable : isVariable item = false)
    (husage : usageMinimum % 2 ^ 32 = usage % 2 ^ 32) :
    fieldOf c item g usageMinimum (bitsAt report pos g.reportSize) =
      arrayField report g pos usage := by
  obtain ⟨hpage, -⟩ := page_of_mod husage
  unfold fieldOf arrayField
  simp only [hvariable, Bool.false_eq_true, if_false, hpage]

end

end

end Hid
