import Earphone.Hid.Scans

namespace Hid

open Scan

def btHidItemTypeLocal : Nat := 2

def btHidGlobalItemTagUsagePage : Nat := 0

def btHidGlobalItemTagLogicalMaximum : Nat := 2

def btHidLocalItemTagUsage : Nat := 0

def btHidLocalItemTagUsageMinimum : Nat := 1

def btHidLocalItemTagUsageMaximum : Nat := 2

inductive ParserState where
  | scanForReportItem
  | usagesAvailable
  | complete
  deriving DecidableEq

structure UsageCursor where
  usagePos : Nat
  usagePage : Nat
  usageMinimum : Nat
  usageMaximum : Nat
  availableUsages : Nat
  haveUsageMin : Bool
  haveUsageMax : Bool
  deriving DecidableEq

structure GlobalState where
  logicalMinimum : Nat
  logicalMaximum : Nat
  usagePage : Nat
  reportSize : Nat
  reportCount : Nat
  reportId : Nat

structure Parser where
  state : ParserState
  descriptor : List UInt8
  descriptorPos : Nat
  descriptorItem : Item
  report : List UInt8
  reportType : ReportType
  reportPosInBit : Nat
  requiredUsages : Nat
  activeRecord : Bool
  cursor : UsageCursor
  globals : GlobalState

structure Open where
  usageItem : Item
  shift : Nat → Nat → Nat

def Open.shiftLeft (c : Open) (n k : Nat) : Nat :=
  if k < 32 then n * 2 ^ k % 2 ^ 32 else c.shift n k

def isUsagePage (item : Item) : Bool :=
  item.itemType = btHidItemTypeGlobal ∧ item.itemTag = btHidGlobalItemTagUsagePage

def usageValue (usagePage : Nat) (item : Item) : Nat :=
  if 2 < item.dataSize then item.itemValue else usagePage * 65536 ||| item.itemValue

def setUsage (item : Item) (s : UsageCursor) : UsageCursor :=
  if item.itemTag = btHidLocalItemTagUsage then
    { s with availableUsages := 1, usageMinimum := usageValue s.usagePage item }
  else if item.itemTag = btHidLocalItemTagUsageMinimum then
    { s with usageMinimum := usageValue s.usagePage item, haveUsageMin := true }
  else if item.itemTag = btHidLocalItemTagUsageMaximum then
    { s with usageMaximum := usageValue s.usagePage item, haveUsageMax := true }
  else s

def setRange (s : UsageCursor) : UsageCursor :=
  if s.haveUsageMin = true ∧ s.haveUsageMax = true then
    { s with
      availableUsages := (s.usageMaximum + 1 + (65536 - s.usageMinimum % 65536)) % 65536
      haveUsageMin := false
      haveUsageMax := false }
  else s

def takeUsage (item : Item) (s : UsageCursor) : UsageCursor :=
  if isUsagePage item then { s with usagePage := item.itemValue % 65536 }
  else if item.itemType = btHidItemTypeLocal then setRange (setUsage item s)
  else s

def btHidFindNextUsage (c : Open) (descriptor : List UInt8) (descriptorPos : Nat) :
    Nat → UsageCursor → Except Stuck UsageCursor
  | 0, _ => .error .endless
  | fuel + 1, s => do
    if s.availableUsages = 0 ∧ s.usagePos < descriptorPos then
      let item ← btHidParseDescriptorItem c.usageItem (descriptor.drop s.usagePos)
        (descriptor.length - s.usagePos)
      let s := takeUsage item s
      btHidFindNextUsage c descriptor descriptorPos fuel
        { s with usagePos := (s.usagePos + item.itemSize) % 65536 }
    else return s

def setGlobal (item : Item) (g : GlobalState) : GlobalState :=
  if item.itemType = btHidItemTypeGlobal then
    if item.itemTag = btHidGlobalItemTagUsagePage then
      { g with usagePage := item.itemValue % 65536 }
    else if item.itemTag = btHidGlobalItemTagLogicalMinimun then
      { g with logicalMinimum := item.itemValue }
    else if item.itemTag = btHidGlobalItemTagLogicalMaximum then
      { g with logicalMaximum := item.itemValue }
    else if item.itemTag = btHidGlobalItemTagReportSize then
      { g with reportSize := item.itemValue % 256 }
    else if item.itemTag = btHidGlobalItemTagReportId then
      { g with reportId := item.itemValue % 256 }
    else if item.itemTag = btHidGlobalItemTagReportCount then
      { g with reportCount := item.itemValue % 256 }
    else g
  else g

def isReport (reportType : ReportType) (item : Item) : Bool :=
  item.itemType = btHidItemTypeMain ∧ reportType ≠ .reserved ∧
    mainReportType item.itemTag = reportType

def isConstant (item : Item) : Bool := item.itemValue % 2 = 1

def isVariable (item : Item) : Bool := item.itemValue / 16 % 2 = 1

def takeReport (item : Item) (p : Parser) : Parser :=
  if isConstant item then
    { p with
      activeRecord := true
      reportPosInBit := (p.reportPosInBit + p.globals.reportSize * p.globals.reportCount) % 65536 }
  else if p.globals.reportCount ≠ 0 then
    { p with activeRecord := true, requiredUsages := p.globals.reportCount }
  else
    { p with activeRecord := true }

def btHidProcessItem (item : Item) (p : Parser) : Except Stuck Parser := do
  let activeRecord := p.activeRecord &&
    !(isReportId item && decide (p.globals.reportId ≠ item.itemValue))
  let p := { p with globals := setGlobal item p.globals, activeRecord }
  if isReport p.reportType item then
    if p.globals.reportId ≠ 0 ∧ p.activeRecord = false then
      let id ← byteAt p.report 0
      if id ≠ p.globals.reportId then return p
      else return takeReport item { p with reportPosInBit := (p.reportPosInBit + 8) % 65536 }
    else return takeReport item p
  else return p

def btHidPostProcessItem (item : Item) (p : Parser) : Parser :=
  { p with
    descriptorPos := (p.descriptorPos + item.itemSize) % 65536
    cursor :=
      if item.itemType = btHidItemTypeMain then
        { p.cursor with usagePos := p.descriptorPos, usagePage := p.globals.usagePage }
      else p.cursor }

def btHidParserFindNextUsage (c : Open) (fuel : Nat) : Nat → Parser → Except Stuck Parser
  | 0, _ => .error .endless
  | n + 1, p => do
    if p.state = .scanForReportItem then
      if p.descriptor.length ≤ p.descriptorPos then return { p with state := .complete }
      else
        let item ← btHidParseDescriptorItem p.descriptorItem (p.descriptor.drop p.descriptorPos)
          (p.descriptor.length - p.descriptorPos)
        let p ← btHidProcessItem item { p with descriptorItem := item }
        if p.requiredUsages ≠ 0 then
          let cursor ← btHidFindNextUsage c p.descriptor p.descriptorPos fuel p.cursor
          return { p with
            cursor, state := if cursor.availableUsages ≠ 0 then .usagesAvailable else .complete }
        else btHidParserFindNextUsage c fuel n (btHidPostProcessItem item p)
    else return p

def Parser.zero (descriptor : List UInt8) (reportType : ReportType) (report : List UInt8) :
    Parser where
  state := .scanForReportItem
  descriptor
  descriptorPos := 0
  descriptorItem := ⟨0, 0, 0, 0, 0⟩
  report
  reportType
  reportPosInBit := 0
  requiredUsages := 0
  activeRecord := false
  cursor := ⟨0, 0, 0, 0, 0, false, false⟩
  globals := ⟨0, 0, 0, 0, 0, 0⟩

def btHidParserInit (c : Open) (fuel : Nat) (descriptor : List UInt8) (reportType : ReportType)
    (report : List UInt8) : Except Stuck Parser :=
  btHidParserFindNextUsage c fuel fuel (Parser.zero descriptor reportType report)

def btHidParserHasMore (p : Parser) : Bool := p.state = .usagesAvailable

def readBytes (c : Open) (report : List UInt8) (posStart : Nat) : Nat → Except Stuck Nat
  | 0 => .ok 0
  | n + 1 => do
    let readData ← readBytes c report posStart n
    let b ← byteAt report (posStart + n)
    return readData ||| c.shiftLeft b (n * 8)

def bytesToRead (posStart posEnd : Nat) : Nat := (posEnd + 1 + (256 - posStart % 256)) % 256

def fieldMask (c : Open) (size : Nat) : Nat := (c.shiftLeft 1 size + (2 ^ 32 - 1)) % 2 ^ 32

def posEndOf (pos size : Nat) : Nat := if pos + size = 0 then 2 ^ 32 - 1 else (pos + size - 1) / 8

def readField (c : Open) (report : List UInt8) (pos size : Nat) : Except Stuck Nat := do
  let posStart := min (pos / 8) report.length
  let posEnd := min (posEndOf pos size) report.length
  let readData ← readBytes c report posStart (bytesToRead posStart posEnd)
  return readData / 2 ^ (pos % 8) &&& fieldMask c size

def signBit (c : Open) (size : Nat) : Nat :=
  if size = 0 then c.shift 1 (2 ^ 32 - 1) else c.shiftLeft 1 (size - 1)

structure Field where
  usagePage : Nat
  usage : Nat
  value : Nat
  deriving DecidableEq

def fieldOf (c : Open) (item : Item) (g : GlobalState) (usageMinimum tmpValue : Nat) : Field where
  usagePage := usageMinimum / 65536 % 65536
  usage := if isVariable item then usageMinimum % 65536 else tmpValue % 65536
  value :=
    if isVariable item then
      if 2 ^ 31 ≤ g.logicalMinimum ∧ tmpValue &&& signBit c g.reportSize ≠ 0 then
        (tmpValue + (2 ^ 32 - c.shiftLeft 1 g.reportSize % 2 ^ 32)) % 2 ^ 32
      else tmpValue
    else 1

def passUsage (item : Item) (requiredUsages : Nat) (s : UsageCursor) : UsageCursor :=
  if isVariable item then
    { s with
      usageMinimum := (s.usageMinimum + 1) % 2 ^ 32
      availableUsages := (s.availableUsages + 65535) % 65536 }
  else if requiredUsages = 0 then
    { s with availableUsages := 0 }
  else s

def afterField (p : Parser) : Parser :=
  let requiredUsages := (p.requiredUsages + 255) % 256
  { p with
    requiredUsages
    reportPosInBit := (p.reportPosInBit + p.globals.reportSize) % 65536
    cursor := passUsage p.descriptorItem requiredUsages p.cursor }

def goOn (c : Open) (fuel : Nat) (p : Parser) : Except Stuck Parser := do
  if p.cursor.availableUsages ≠ 0 then return p
  else if p.requiredUsages = 0 then
    btHidParserFindNextUsage c fuel fuel
      { btHidPostProcessItem p.descriptorItem p with state := .scanForReportItem }
  else
    let cursor ← btHidFindNextUsage c p.descriptor p.descriptorPos fuel p.cursor
    return { p with cursor, state := if cursor.availableUsages = 0 then .complete else p.state }

def btHidParserAccessReportField (c : Open) (fuel : Nat) (p : Parser) :
    Except Stuck (Field × Parser) := do
  let tmpValue ← readField c p.report p.reportPosInBit p.globals.reportSize
  let field := fieldOf c p.descriptorItem p.globals p.cursor.usageMinimum tmpValue
  let p ← goOn c fuel (afterField p)
  return (field, p)

def fieldsFrom (c : Open) (fuel : Nat) : Nat → Parser → Except Stuck (List Field)
  | 0, _ => .error .endless
  | n + 1, p => do
    if btHidParserHasMore p then
      let (field, p) ← btHidParserAccessReportField c fuel p
      let fields ← fieldsFrom c fuel n p
      return field :: fields
    else return []

def reportFields (c : Open) (fuel n : Nat) (descriptor : List UInt8) (reportType : ReportType)
    (report : List UInt8) : Except Stuck (List Field) := do
  let p ← btHidParserInit c fuel descriptor reportType report
  fieldsFrom c fuel n p

end Hid
