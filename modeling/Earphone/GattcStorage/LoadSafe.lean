import Earphone.GattcStorage.RoundTrip

namespace GattcStorage

open Scan List

structure SrvRecord where
  srv : List UInt8
  nums : Nums
  inc16 : List (List UInt8)
  inc128 : List (List UInt8)
  char16 : List (List UInt8)
  char128 : List (List UInt8)

structure FormedTable (num : UInt8) (width offset : Nat) (type : UInt8)
    (records : List (List UInt8)) : Prop where
  length : records.length = num.toNat
  width : ∀ r ∈ records, r.length = width
  type : ∀ r ∈ records, r[offset]? = some type

def srvLen (type : UInt8) : Option Nat :=
  if isSrvUuid16 type then some attrSrvUuid16.width
  else if isSrvUuid128 type then some attrSrvUuid128.width
  else none

structure SrvRecord.Formed (r : SrvRecord) : Prop where
  srv : ∃ type, r.srv[0]? = some type ∧ srvLen type = some r.srv.length
  inc16 : FormedTable r.nums.inc16 attrIncludeUuid16.width 0 attrTypeIncludeUuid16 r.inc16
  inc128 : FormedTable r.nums.inc128 attrIncludeUuid128.width 0 attrTypeIncludeUuid128 r.inc128
  char16 : FormedTable r.nums.char16 attrChar16Cb.width attrHeader.width attrTypeCharUuid16 r.char16
  char128 : FormedTable r.nums.char128 attrChar128Cb.width attrHeader.width attrTypeCharUuid128
    r.char128

def SrvRecord.bytes (r : SrvRecord) : List UInt8 :=
  r.srv ++ (r.nums.bytes ++ (r.inc16.flatten ++ (r.inc128.flatten ++
    (r.char16.flatten ++ r.char128.flatten))))

def Concatenation (l : List SrvRecord) (bytes : List UInt8) : Prop :=
  (∀ r ∈ l, r.Formed) ∧ bytes = l.flatMap (·.bytes)

structure SvcData where
  bytes : List UInt8
  len_lt : bytes.length < 65536

structure GattcCb where
  srvTable : Option (List UInt8)
  srvTableLen : Nat
  srvList : List SrvCb

def gattcStorageSrvListRelease (_ : GattcCb) : GattcCb := ⟨none, 0, []⟩

def gattcStorageLoadCb (mem : Nat → Bool) (known : AttrUuid → Bool) (svcData : Option SvcData)
    (fuel : Nat) (cb : GattcCb) : Except Stuck (Bool × GattcCb) :=
  if cb.srvTable.isSome then
    .ok (false, cb)
  else
    match svcData with
    | none => .ok (false, cb)
    | some d => do
      match ← loadLoop mem known d.bytes fuel 0 cb.srvList with
      | some (idx, cbs) =>
        if idx = d.bytes.length ∧ cbs ≠ [] then
          return (true, ⟨some d.bytes, d.bytes.length, cbs⟩)
        else
          return (false, gattcStorageSrvListRelease ⟨some d.bytes, d.bytes.length, cbs⟩)
      | none => return (false, gattcStorageSrvListRelease cb)

def Robust (mem : Nat → Bool) (known : AttrUuid → Bool) (svcData : Option SvcData) : Prop :=
  ∀ cb : GattcCb, cb.srvTable = none → cb.srvList = [] →
    ∃ fuel success cb', gattcStorageLoadCb mem known svcData fuel cb = .ok (success, cb') ∧
      (success = true → ∃ d ∈ svcData, ∃ l, l ≠ [] ∧ Concatenation l d.bytes) ∧
      (success = false → cb'.srvTable = none ∧ cb'.srvList = [])

section

variable (mem : Nat → Bool) (known : AttrUuid → Bool) (table : List UInt8)

def HeaderAt (idx : Nat) (uuid : AttrUuid) (srvEnd : Nat) : Prop :=
  ∃ type, table[idx]? = some type ∧
    (isSrvUuid16 type = true ∧ srvEnd = idx + attrSrvUuid16.width ∧ srvEnd ≤ table.length ∧
      uuid = .uuid16 (attrSrvUuid16.readAt table idx).uuid16 ∨
    isSrvUuid128 type = true ∧ srvEnd = idx + attrSrvUuid128.width ∧ srvEnd ≤ table.length ∧
      uuid = .uuid128 (attrSrvUuid128.readAt table idx).uuid128)

def NumsAt (p : Nat) (n : Nums) : Prop := ∀ i, i < 4 → table[p + i]? = n.bytes[i]?

def typesFrom (base : Option Nat) (width offset : Nat) (type : UInt8) (j n : Nat) :
    List (Nat × UInt8) :=
  (List.range' j n).map fun j => (base.getD 0 + j * width + offset, type)

def SrvCb.types (cb : SrvCb) : List (Nat × UInt8) :=
  typesFrom cb.inc16Table attrIncludeUuid16.width 0 attrTypeIncludeUuid16 0 cb.nums.inc16.toNat ++
    (typesFrom cb.inc128Table attrIncludeUuid128.width 0 attrTypeIncludeUuid128 0
      cb.nums.inc128.toNat ++
    (typesFrom cb.char16Table attrChar16Cb.width attrHeader.width attrTypeCharUuid16 0
      cb.nums.char16.toNat ++
    typesFrom cb.char128Table attrChar128Cb.width attrHeader.width attrTypeCharUuid128 0
      cb.nums.char128.toNat))

inductive Rejects (idx : Nat) : Prop where
  | noSrv (type : UInt8) (htype : table[idx]? = some type) (hnone : srvLen type = none)
  | unknown (uuid : AttrUuid) (srvEnd : Nat) (hheader : HeaderAt table idx uuid srvEnd)
    (hknown : known uuid = false)
  | wrongType (uuid : AttrUuid) (srvEnd : Nat) (n : Nums) (before after : List (Nat × UInt8))
    (p : Nat) (type type' : UInt8) (hheader : HeaderAt table idx uuid srvEnd)
    (hknown : known uuid = true) (hnums : NumsAt table srvEnd n)
    (htypes : (tablesAt idx (srvEnd + 4) n).1.types = before ++ (p, type) :: after)
    (hbefore : ∀ e ∈ before, table[e.1]? = some e.2) (htype : table[p]? = some type')
    (hwrong : type' ≠ type)

structure Accepts (idx : Nat) (cb : SrvCb) (next stop : Nat) (uuid : AttrUuid) (srvEnd : Nat)
    (n : Nums) : Prop where
  header : HeaderAt table idx uuid srvEnd
  known : known uuid = true
  nums : NumsAt table srvEnd n
  tables : tablesAt idx (srvEnd + 4) n = (cb, next)
  stop : stop = (places idx (srvEnd - idx) n).stop
  types : ∀ e ∈ cb.types, table[e.1]? = some e.2

inductive Ends : Nat → Nat → Bool → Prop where
  | past (n idx : Nat) (wrapped : Bool) (hidx : table.length ≤ idx)
    (hwrapped : wrapped = true → idx ≠ table.length) : Ends n idx wrapped
  | noMem (n idx : Nat) (wrapped : Bool) (hidx : idx < table.length) (hmem : mem n = false) :
    Ends n idx wrapped
  | rejects (n idx : Nat) (wrapped : Bool) (hidx : idx < table.length) (hmem : mem n = true)
    (hrejects : Rejects known table idx) : Ends n idx wrapped
  | next (n idx : Nat) (wrapped : Bool) (cb : SrvCb) (next stop : Nat) (uuid : AttrUuid)
    (srvEnd : Nat) (nums : Nums) (hidx : idx < table.length) (hmem : mem n = true)
    (haccepts : Accepts known table idx cb next stop uuid srvEnd nums)
    (hnext : Ends (n + 1) next (wrapped || decide (65536 ≤ stop))) : Ends n idx wrapped

end

section

variable {table : List UInt8}

def checkTypes (table : List UInt8) : List (Nat × UInt8) → Except Stuck Bool
  | [] => .ok true
  | e :: types => do
    let b ← byteAt table e.1
    if b ≠ e.2.toNat then return false else checkTypes table types

theorem byteAt_ok_iff : byteAt table p = .ok b ↔ ∃ x, table[p]? = some x ∧ b = x.toNat := by
  unfold byteAt
  cases table[p]? with
  | none => simp
  | some x => simp [eq_comm]

theorem checkTypes_append (first rest : List (Nat × UInt8)) :
    checkTypes table (first ++ rest) = (do
      let ok ← checkTypes table first
      if ok then checkTypes table rest else return false) := by
  induction first with
  | nil => rfl
  | cons e first ih =>
    rw [cons_append, checkTypes, checkTypes, ih]
    cases byteAt table e.1 with
    | error e => rfl
    | ok b =>
      simp only [bind, Except.bind]
      split <;> rfl

theorem checkTypes_true (types : List (Nat × UInt8)) :
    checkTypes table types = .ok true ↔ ∀ e ∈ types, table[e.1]? = some e.2 := by
  induction types with
  | nil => simp [checkTypes]
  | cons e types ih =>
    rw [forall_mem_cons, ← ih, checkTypes, byteAt]
    cases hget : table[e.1]? with
    | none => simp [bind, Except.bind]
    | some x =>
      simp only [bind, Except.bind, Option.some.injEq]
      split
      . next hne => simp [pure, Except.pure, show x ≠ e.2 from fun h => hne (h ▸ rfl)]
      . next heq => simp [UInt8.toNat_inj.mp (not_not.mp heq)]

theorem checkTypes_false (types : List (Nat × UInt8)) :
    checkTypes table types = .ok false ↔ ∃ before after p type type',
      types = before ++ (p, type) :: after ∧ (∀ e ∈ before, table[e.1]? = some e.2) ∧
        table[p]? = some type' ∧ type' ≠ type := by
  constructor
  . intro h
    induction types with
    | nil => cases h
    | cons e types ih =>
      rw [checkTypes, byteAt] at h
      cases hget : table[e.1]? with
      | none => rw [hget] at h; cases h
      | some x =>
        rw [hget] at h
        simp only [bind, Except.bind] at h
        split at h
        . next hne =>
          exact ⟨[], types, e.1, e.2, x, rfl, forall_mem_nil _, hget, fun h => hne (h ▸ rfl)⟩
        . next heq =>
          obtain ⟨before, after, p, type, type', rfl, hbefore, hp, hwrong⟩ := ih h
          refine ⟨e :: before, after, p, type, type', rfl, ?_, hp, hwrong⟩
          rw [forall_mem_cons]
          exact ⟨by rw [hget, UInt8.toNat_inj.mp (not_not.mp heq)], hbefore⟩
  . rintro ⟨before, after, p, type, type', rfl, hbefore, hp, hwrong⟩
    rw [checkTypes_append, (checkTypes_true before).mpr hbefore]
    have hbyte : byteAt table p = .ok type'.toNat := byteAt_ok_iff.mpr ⟨type', hp, rfl⟩
    have hne : type'.toNat ≠ type.toNat := fun h => hwrong (UInt8.toNat_inj.mp h)
    simp only [bind, Except.bind, if_true, checkTypes, hbyte, ne_eq, hne, not_false_eq_true]
    rfl

theorem checkTable_eq (hbase : n ≠ 0 → ∃ p, base = some p) :
    checkTable table base width offset type j n =
      checkTypes table (typesFrom base width offset type j n) := by
  induction n generalizing j with
  | zero => cases base <;> rfl
  | succ n ih =>
    obtain ⟨p, rfl⟩ := hbase (Nat.succ_ne_zero n)
    rw [checkTable, typesFrom, range'_succ, map_cons, checkTypes, Option.getD_some,
      ih fun _ => ⟨p, rfl⟩]
    rfl

theorem tableAt_base (h : num.toNat ≠ 0) : ∃ p, (tableAt idx num width).1 = some p := by
  unfold tableAt
  rw [if_neg fun h0 => h (by rw [h0]; rfl)]
  exact ⟨idx, rfl⟩

theorem checkTables_eq (srvData idx : Nat) (n : Nums) :
    checkTables table (tablesAt srvData idx n).1 =
      checkTypes table (tablesAt srvData idx n).1.types := by
  unfold checkTables SrvCb.types
  rw [checkTypes_append, checkTypes_append, checkTypes_append]
  simp only [tablesAt]
  rw [checkTable_eq tableAt_base, checkTable_eq tableAt_base, checkTable_eq tableAt_base,
    checkTable_eq tableAt_base]

end

section

variable {table : List UInt8}

theorem loadSrvData_none : loadSrvData table idx = .ok none ↔
    ∃ type, table[idx]? = some type ∧ srvLen type = none := by
  unfold loadSrvData srvLen byteAt
  cases table[idx]? with
  | none => simp [bind, Except.bind]
  | some type =>
    simp only [bind, Except.bind, UInt8.ofNat_toNat, Option.some.injEq, exists_eq_left']
    cases isSrvUuid16 type with
    | true => cases bytesAt table idx attrSrvUuid16.width <;> simp [pure, Except.pure]
    | false =>
      cases isSrvUuid128 type with
      | true => cases bytesAt table idx attrSrvUuid128.width <;> simp [pure, Except.pure]
      | false => simp [pure, Except.pure]

theorem isSrvUuid128_of_isSrvUuid16 (h16 : isSrvUuid16 type = true) :
    isSrvUuid128 type = false := by
  cases h : isSrvUuid128 type with
  | false => rfl
  | true => rw [isSrvUuid128_not h] at h16; contradiction

theorem loadSrvData_some (hlen : table.length < 65536) :
    loadSrvData table idx = .ok (some (uuid, srvEnd)) ↔ HeaderAt table idx uuid srvEnd := by
  unfold loadSrvData HeaderAt byteAt bytesAt
  cases table[idx]? with
  | none => simp [bind, Except.bind]
  | some type =>
    simp only [bind, Except.bind, UInt8.ofNat_toNat, Option.some.injEq, exists_eq_left']
    cases h16 : isSrvUuid16 type with
    | true =>
      simp only [isSrvUuid128_of_isSrvUuid16 h16, if_true, Bool.false_eq_true, false_and, or_false,
        true_and]
      by_cases hle : idx + attrSrvUuid16.width ≤ table.length
      . rw [if_pos hle, w16_of_lt (by omega)]
        simp only [pure, Except.pure, Except.ok.injEq, Option.some.injEq, Prod.mk.injEq,
          Codec.readAt]
        constructor
        . rintro ⟨rfl, rfl⟩
          exact ⟨rfl, hle, rfl⟩
        . rintro ⟨rfl, -, rfl⟩
          exact ⟨rfl, rfl⟩
      . rw [if_neg hle]
        simp only [reduceCtorEq, false_iff]
        rintro ⟨rfl, h, -⟩
        exact hle h
    | false =>
      cases h128 : isSrvUuid128 type with
      | false => simp [pure, Except.pure]
      | true =>
        simp only [if_true, Bool.false_eq_true, if_false, false_and, false_or, true_and]
        by_cases hle : idx + attrSrvUuid128.width ≤ table.length
        . rw [if_pos hle, w16_of_lt (by omega)]
          simp only [pure, Except.pure, Except.ok.injEq, Option.some.injEq, Prod.mk.injEq,
            Codec.readAt]
          constructor
          . rintro ⟨rfl, rfl⟩
            exact ⟨rfl, hle, rfl⟩
          . rintro ⟨rfl, -, rfl⟩
            exact ⟨rfl, rfl⟩
        . rw [if_neg hle]
          simp only [reduceCtorEq, false_iff]
          rintro ⟨rfl, h, -⟩
          exact hle h

theorem lt_of_getElem? (h : table[p]? = some b) : p < table.length :=
  (List.getElem?_eq_some_iff.mp h).1

theorem loadNums_iff (hlen : table.length < 65536) :
    loadNums table p = .ok (n, stop) ↔ NumsAt table p n ∧ stop = p + 4 := by
  constructor
  . intro h
    unfold loadNums at h
    obtain ⟨b0, h0, h⟩ := bind_ok.mp h
    obtain ⟨b1, h1, h⟩ := bind_ok.mp h
    obtain ⟨b2, h2, h⟩ := bind_ok.mp h
    obtain ⟨b3, h3, h⟩ := bind_ok.mp h
    obtain ⟨x0, hx0, rfl⟩ := byteAt_ok_iff.mp h0
    have hlt0 := lt_of_getElem? hx0
    rw [w16_of_lt (by omega)] at h1
    obtain ⟨x1, hx1, rfl⟩ := byteAt_ok_iff.mp h1
    have hlt1 := lt_of_getElem? hx1
    rw [w16_of_lt (by omega)] at h2
    obtain ⟨x2, hx2, rfl⟩ := byteAt_ok_iff.mp h2
    have hlt2 := lt_of_getElem? hx2
    rw [w16_of_lt (by omega)] at h3
    obtain ⟨x3, hx3, rfl⟩ := byteAt_ok_iff.mp h3
    have hlt3 := lt_of_getElem? hx3
    rw [w16_of_lt (by omega)] at h
    simp only [UInt8.ofNat_toNat] at h
    cases h
    refine ⟨fun i hi => ?_, rfl⟩
    match i, hi with
    | 0, _ => exact hx0
    | 1, _ => exact hx1
    | 2, _ => exact hx2
    | 3, _ => exact hx3
  . rintro ⟨h, rfl⟩
    have hx0 : table[p]? = some n.inc16 := h 0 (by decide)
    have hx1 : table[p + 1]? = some n.inc128 := h 1 (by decide)
    have hx2 : table[p + 2]? = some n.char16 := h 2 (by decide)
    have hx3 : table[p + 3]? = some n.char128 := h 3 (by decide)
    have hlt := lt_of_getElem? hx3
    unfold loadNums
    rw [w16_of_lt (by omega), w16_of_lt (by omega), w16_of_lt (by omega), w16_of_lt (by omega),
      byteAt_ok_iff.mpr ⟨_, hx0, rfl⟩, byteAt_ok_iff.mpr ⟨_, hx1, rfl⟩,
      byteAt_ok_iff.mpr ⟨_, hx2, rfl⟩, byteAt_ok_iff.mpr ⟨_, hx3, rfl⟩]
    simp only [bind, Except.bind, pure, Except.pure, UInt8.ofNat_toNat]

theorem loadSrv_header (hlen : table.length < 65536)
    (h : HeaderAt table idx uuid srvEnd) :
    loadSrv known table idx =
      if known uuid then do
        let (n, numsEnd) ← loadNums table srvEnd
        if ← checkTypes table (tablesAt idx numsEnd n).1.types then
          return some (tablesAt idx numsEnd n)
        else return none
      else return none := by
  unfold loadSrv
  rw [(loadSrvData_some hlen).mpr h]
  simp only [bind, Except.bind, checkTables_eq]

theorem loadSrv_none (hlen : table.length < 65536) :
    loadSrv known table idx = .ok none ↔ Rejects known table idx := by
  constructor
  . intro h
    cases hdata : loadSrvData table idx with
    | error e =>
      unfold loadSrv at h
      rw [hdata] at h
      cases h
    | ok r =>
      cases r with
      | none =>
        obtain ⟨type, htype, hnone⟩ := loadSrvData_none.mp hdata
        exact .noSrv type htype hnone
      | some r =>
        obtain ⟨uuid, srvEnd⟩ := r
        have hheader := (loadSrvData_some hlen).mp hdata
        rw [loadSrv_header hlen hheader] at h
        cases hknown : known uuid with
        | false => exact .unknown uuid srvEnd hheader hknown
        | true =>
          rw [hknown, if_pos rfl] at h
          obtain ⟨⟨n, numsEnd⟩, hload, h⟩ := bind_ok.mp h
          obtain ⟨hnums, rfl⟩ := (loadNums_iff hlen).mp hload
          obtain ⟨ok, hcheck, h⟩ := bind_ok.mp h
          cases ok with
          | true => cases h
          | false =>
            obtain ⟨before, after, p, type, type', htypes, hbefore, htype, hwrong⟩ :=
              (checkTypes_false _).mp hcheck
            exact .wrongType uuid srvEnd n before after p type type' hheader hknown hnums htypes
              hbefore htype hwrong
  . intro h
    cases h with
    | noSrv type htype hnone =>
      unfold loadSrv
      rw [loadSrvData_none.mpr ⟨type, htype, hnone⟩]
      rfl
    | unknown uuid srvEnd hheader hknown =>
      rw [loadSrv_header hlen hheader, hknown]
      rfl
    | wrongType uuid srvEnd n before after p type type' hheader hknown hnums htypes hbefore htype
      hwrong =>
      have hcheck := (checkTypes_false _).mpr
        ⟨before, after, p, type, type', htypes, hbefore, htype, hwrong⟩
      rw [loadSrv_header hlen hheader, hknown, if_pos rfl, (loadNums_iff hlen).mpr ⟨hnums, rfl⟩]
      simp only [bind, Except.bind, hcheck]
      rfl

theorem loadSrv_some {next : Nat} (hlen : table.length < 65536) :
    loadSrv known table idx = .ok (some (cb, next)) ↔
      ∃ stop uuid srvEnd n, Accepts known table idx cb next stop uuid srvEnd n := by
  constructor
  . intro h
    cases hdata : loadSrvData table idx with
    | error e =>
      unfold loadSrv at h
      rw [hdata] at h
      cases h
    | ok r =>
      cases r with
      | none =>
        unfold loadSrv at h
        rw [hdata] at h
        cases h
      | some r =>
        obtain ⟨uuid, srvEnd⟩ := r
        have hheader := (loadSrvData_some hlen).mp hdata
        rw [loadSrv_header hlen hheader] at h
        cases hknown : known uuid with
        | false =>
          rw [hknown] at h
          cases h
        | true =>
          rw [hknown, if_pos rfl] at h
          obtain ⟨⟨n, numsEnd⟩, hload, h⟩ := bind_ok.mp h
          obtain ⟨hnums, rfl⟩ := (loadNums_iff hlen).mp hload
          obtain ⟨ok, hcheck, h⟩ := bind_ok.mp h
          cases ok with
          | false => cases h
          | true =>
            have htables : tablesAt idx (srvEnd + 4) n = (cb, next) := by
              simpa [pure, Except.pure] using h
            have htypes := (checkTypes_true _).mp hcheck
            rw [htables] at htypes
            exact ⟨_, uuid, srvEnd, n, hheader, hknown, hnums, htables, rfl, htypes⟩
  . rintro ⟨stop, uuid, srvEnd, n, h⟩
    have hcheck := (checkTypes_true _).mpr h.types
    rw [loadSrv_header hlen h.header, h.known, if_pos rfl, (loadNums_iff hlen).mpr ⟨h.nums, rfl⟩]
    simp only [bind, Except.bind, h.tables, hcheck]
    rfl

end

section

variable {table : List UInt8}

theorem drop_split (p k : Nat) : table.drop p = (table.drop p).take k ++ table.drop (p + k) := by
  rw [← drop_drop, take_append_drop]

def pieces (table : List UInt8) (width p : Nat) : Nat → List (List UInt8)
  | 0 => []
  | n + 1 => (table.drop p).take width :: pieces table width (p + width) n

theorem drop_pieces (width p n : Nat) :
    table.drop p = (pieces table width p n).flatten ++ table.drop (p + n * width) := by
  induction n generalizing p with
  | zero => simp [pieces]
  | succ n ih =>
    rw [pieces, flatten_cons, append_assoc, Nat.succ_mul, Nat.add_comm (n * width),
      ← Nat.add_assoc, ← ih (p + width)]
    exact drop_split p width

theorem length_pieces (width p n : Nat) : (pieces table width p n).length = n := by
  induction n generalizing p with
  | zero => rfl
  | succ n ih => rw [pieces, length_cons, ih]

theorem mem_pieces (h : r ∈ pieces table width p n) :
    ∃ j, j < n ∧ r = (table.drop (p + j * width)).take width := by
  induction n generalizing p with
  | zero => cases h
  | succ n ih =>
    rcases mem_cons.mp h with rfl | h
    . exact ⟨0, Nat.succ_pos n, by rw [Nat.zero_mul, Nat.add_zero]⟩
    . obtain ⟨j, hj, rfl⟩ := ih h
      refine ⟨j + 1, by omega, ?_⟩
      rw [Nat.succ_mul, Nat.add_comm (j * width), ← Nat.add_assoc]

theorem formed_pieces (hoffset : offset < width)
    (hle : p + num.toNat * width ≤ table.length)
    (htypes : ∀ e ∈ typesFrom (if num = 0 then none else some p) width offset type 0 num.toNat,
      table[e.1]? = some e.2) :
    FormedTable num width offset type (pieces table width p num.toNat) where
  length := length_pieces width p _
  width := by
    intro r hr
    obtain ⟨j, hj, rfl⟩ := mem_pieces hr
    have hmul : (j + 1) * width ≤ num.toNat * width := Nat.mul_le_mul_right _ hj
    rw [Nat.succ_mul] at hmul
    rw [length_take, length_drop]
    omega
  type := by
    intro r hr
    obtain ⟨j, hj, rfl⟩ := mem_pieces hr
    have hne : num ≠ 0 := by
      rintro rfl
      exact absurd hj (Nat.not_lt_zero j)
    rw [if_neg hne] at htypes
    rw [getElem?_take_of_lt hoffset, getElem?_drop]
    refine htypes (p + j * width + offset, type) (mem_map.mpr ⟨j, ?_, rfl⟩)
    rw [mem_range'_1]
    omega

end

section

variable {known : AttrUuid → Bool} {table : List UInt8} {idx next stop srvEnd : Nat} {cb : SrvCb}
variable {uuid : AttrUuid} {n : Nums}

theorem w16_add (a b : Nat) : w16 (w16 a + b) = w16 (a + b) := by
  unfold w16
  omega

theorem tableAt_next {idx : Nat} (hidx : idx < 65536) (num : UInt8) (width : Nat) :
    (tableAt idx num width).2 = w16 (idx + num.toNat * width) := by
  unfold tableAt
  split
  . next h0 =>
    subst h0
    simp [w16_of_lt hidx]
  . rfl

theorem HeaderAt.srvLen (h : HeaderAt table idx uuid srvEnd) :
    ∃ type len, table[idx]? = some type ∧ srvLen type = some len ∧ srvEnd = idx + len ∧
      srvEnd ≤ table.length := by
  obtain ⟨type, htype, ⟨h16, hend, hle, -⟩ | ⟨h128, hend, hle, -⟩⟩ := h
  . exact ⟨type, _, htype, if_pos h16, hend, hle⟩
  . refine ⟨type, _, htype, ?_, hend, hle⟩
    unfold GattcStorage.srvLen
    rw [if_neg (by rw [isSrvUuid128_not h128]; exact Bool.false_ne_true), if_pos h128]

theorem NumsAt.le (h : NumsAt table p n) : p + 4 ≤ table.length :=
  lt_of_getElem? (h 3 (by decide) : table[p + 3]? = some n.char128)

theorem Accepts.stop_eq (h : Accepts known table idx cb next stop uuid srvEnd n) :
    stop = srvEnd + 4 + n.inc16.toNat * attrIncludeUuid16.width +
      n.inc128.toNat * attrIncludeUuid128.width + n.char16.toNat * attrChar16Cb.width +
        n.char128.toNat * attrChar128Cb.width := by
  obtain ⟨type, len, -, -, rfl, -⟩ := h.header.srvLen
  rw [h.stop, Nat.add_sub_cancel_left]
  rfl

theorem Accepts.next_eq (h : Accepts known table idx cb next stop uuid srvEnd n)
    (hlen : table.length < 65536) : next = w16 stop := by
  have hle := h.nums.le
  have hlt : ∀ a, w16 a < 65536 := fun a => Nat.mod_lt a (by decide)
  have htables := congrArg Prod.snd h.tables
  simp only [tablesAt] at htables
  rw [@tableAt_next (srvEnd + 4) (by omega), tableAt_next (hlt _), w16_add, tableAt_next (hlt _),
    w16_add, tableAt_next (hlt _), w16_add] at htables
  rw [← htables, h.stop_eq]

theorem bytes_of_numsAt (h : NumsAt table p n) : table.drop p = n.bytes ++ table.drop (p + 4) := by
  have hholds : Area.Holds table p n.bytes := h
  have htake := Area.take_of_holds hholds
  rw [drop_split p 4]
  exact congrArg (· ++ _) htake

theorem Accepts.formed (h : Accepts known table idx cb next stop uuid srvEnd n)
    (hlen : table.length < 65536) (hstop : stop ≤ table.length) :
    ∃ r : SrvRecord, r.Formed ∧ table.drop idx = r.bytes ++ table.drop stop := by
  obtain ⟨type, len, htype, hsrvLen, rfl, hle⟩ := h.header.srvLen
  have heq := h.stop_eq
  have hplaces := h.stop
  rw [Nat.add_sub_cancel_left] at hplaces
  have htables := h.tables
  rw [tablesAt_eq (by omega), Prod.mk.injEq] at htables
  obtain ⟨rfl, -⟩ := htables
  have hlenPos : 0 < len := by
    unfold GattcStorage.srvLen at hsrvLen
    split at hsrvLen
    . cases hsrvLen; decide
    . split at hsrvLen
      . cases hsrvLen; decide
      . cases hsrvLen
  have htypes := h.types
  simp only [SrvCb.types, forall_mem_append] at htypes
  obtain ⟨h16, h128, hchar16, hchar128⟩ := htypes
  refine ⟨⟨(table.drop idx).take len, n, pieces table _ _ n.inc16.toNat,
    pieces table _ _ n.inc128.toNat, pieces table _ _ n.char16.toNat,
    pieces table _ _ n.char128.toNat⟩, ⟨⟨type, ?_, ?_⟩, formed_pieces (by decide) ?_ h16,
    formed_pieces (by decide) ?_ h128, formed_pieces (by decide) ?_ hchar16,
    formed_pieces (by decide) ?_ hchar128⟩, ?_⟩
  . rw [getElem?_take_of_lt hlenPos, getElem?_drop]
    exact htype
  . rw [length_take, length_drop, hsrvLen]
    congr 1
    omega
  . simp only [places]; omega
  . simp only [places]; omega
  . simp only [places]; omega
  . simp only [places]; omega
  . rw [heq]
    simp only [SrvRecord.bytes, places, append_assoc]
    rw [← drop_pieces, ← drop_pieces, ← drop_pieces, ← drop_pieces]
    exact (drop_split idx len).trans (congrArg (_ ++ ·) (bytes_of_numsAt h.nums))

theorem FormedTable.length_flatten {num type : UInt8} {width offset : Nat} {l : List (List UInt8)}
    (h : FormedTable num width offset type l) : l.flatten.length = num.toNat * width := by
  rw [List.length_flatten, ← h.length, List.map_congr_left h.width, List.map_const',
    List.sum_replicate_nat]

theorem Accepts.stop_of_formed (h : Accepts known table idx cb next stop uuid srvEnd n)
    {r : SrvRecord} {rest : List UInt8} (hr : r.Formed) (hdrop : table.drop idx = r.bytes ++ rest) :
    stop = idx + r.bytes.length := by
  obtain ⟨type, len, htype, hsrvLen, rfl, hle⟩ := h.header.srvLen
  have heq := h.stop_eq
  obtain ⟨type', htype', hsrvLen'⟩ := hr.srv
  have hget : ∀ i, table[idx + i]? = (r.bytes ++ rest)[i]? := by
    intro i
    rw [← hdrop, getElem?_drop]
  have hpos := lt_of_getElem? htype'
  obtain rfl : type = type' := by
    have h0 := hget 0
    rw [Nat.add_zero, htype, SrvRecord.bytes, append_assoc, getElem?_append_left hpos,
      htype'] at h0
    exact Option.some.inj h0
  obtain rfl : len = r.srv.length := Option.some.inj (hsrvLen.symm.trans hsrvLen')
  have hnums : ∀ i, i < 4 → n.bytes[i]? = r.nums.bytes[i]? := by
    intro i hi
    rw [← h.nums i hi, Nat.add_assoc, hget, SrvRecord.bytes, append_assoc,
      getElem?_append_right (Nat.le_add_right _ _), Nat.add_sub_cancel_left,
      append_assoc, getElem?_append_left hi]
  have heq16 : n.inc16 = r.nums.inc16 := Option.some.inj (hnums 0 (by decide))
  have heq128 : n.inc128 = r.nums.inc128 := Option.some.inj (hnums 1 (by decide))
  have heqChar16 : n.char16 = r.nums.char16 := Option.some.inj (hnums 2 (by decide))
  have heqChar128 : n.char128 = r.nums.char128 := Option.some.inj (hnums 3 (by decide))
  simp only [SrvRecord.bytes, length_append, hr.inc16.length_flatten,
    hr.inc128.length_flatten, hr.char16.length_flatten, hr.char128.length_flatten]
  rw [heq, heq16, heq128, heqChar16, heqChar128]
  have hfour : r.nums.bytes.length = 4 := rfl
  omega

end

section

variable {mem : Nat → Bool} {known : AttrUuid → Bool} {table : List UInt8}

theorem loadLoop_of_ends (hlen : table.length < 65536)
    (h : Ends mem known table n idx wrapped) (cbs : List SrvCb) (hn : cbs.length = n) :
    ∃ fuel r, loadLoop mem known table fuel idx cbs = .ok r ∧
      ∀ idx' cbs', r = some (idx', cbs') → idx' = table.length →
        wrapped = false ∧ idx ≤ table.length ∧
          ∃ l, n + l.length = cbs'.length ∧ Concatenation l (table.drop idx) := by
  induction h generalizing cbs with
  | past n idx wrapped hidx hwrapped =>
    refine ⟨1, some (idx, cbs), ?_, ?_⟩
    . rw [loadLoop, if_neg (Nat.not_lt.mpr hidx)]
    . intro idx' cbs' hr hend
      cases hr
      refine ⟨?_, Nat.le_of_eq hend, [], hn.symm, forall_mem_nil _, drop_eq_nil_of_le hidx⟩
      cases wrapped with
      | false => rfl
      | true => exact absurd hend (hwrapped rfl)
  | noMem n idx wrapped hidx hmem =>
    refine ⟨1, none, ?_, fun _ _ hr => by cases hr⟩
    rw [loadLoop, if_pos hidx, hn, hmem]
    rfl
  | rejects n idx wrapped hidx hmem hrejects =>
    refine ⟨1, none, ?_, fun _ _ hr => by cases hr⟩
    rw [loadLoop, if_pos hidx, hn, hmem, if_pos rfl, (loadSrv_none hlen).mpr hrejects]
    rfl
  | next n idx wrapped cb next stop uuid srvEnd nums hidx hmem haccepts _ ih =>
    obtain ⟨fuel, r, hload, hr⟩ := ih (cbs ++ [cb]) (by rw [length_append, hn]; rfl)
    refine ⟨fuel + 1, r, ?_, ?_⟩
    . rw [loadLoop, if_pos hidx, hn, hmem, if_pos rfl,
        (loadSrv_some hlen).mpr ⟨stop, uuid, srvEnd, nums, haccepts⟩]
      exact hload
    . intro idx' cbs' heq hend
      obtain ⟨hwrapped, hle, l, hlength, hformed, hdrop⟩ := hr idx' cbs' heq hend
      rw [Bool.or_eq_false_iff, decide_eq_false_iff_not] at hwrapped
      obtain ⟨hwrapped, hstop⟩ := hwrapped
      obtain rfl : next = stop := by
        rw [haccepts.next_eq hlen]
        exact w16_of_lt (by omega)
      obtain ⟨r, hr, hbytes⟩ := haccepts.formed hlen hle
      refine ⟨hwrapped, Nat.le_of_lt hidx, r :: l, ?_, forall_mem_cons.mpr ⟨hr, hformed⟩, ?_⟩
      . rw [length_cons]
        omega
      . rw [hbytes, hdrop, flatMap_cons]

theorem ends_of_loadLoop (hlen : table.length < 65536) {fuel idx : Nat} {cbs : List SrvCb}
    {r : Option (Nat × List SrvCb)} {wrapped : Bool}
    (h : loadLoop mem known table fuel idx cbs = .ok r) (hcbs : wrapped = true → cbs ≠ [])
    (hr : ∀ idx' cbs', r = some (idx', cbs') → idx' = table.length → cbs' ≠ [] →
      wrapped = false ∧ ∃ l, Concatenation l (table.drop idx)) :
    Ends mem known table cbs.length idx wrapped := by
  induction fuel generalizing idx cbs wrapped with
  | zero => cases h
  | succ fuel ih =>
    rw [loadLoop] at h
    by_cases hidx : idx < table.length
    . rw [if_pos hidx] at h
      cases hmem : mem cbs.length with
      | false => exact .noMem _ idx wrapped hidx hmem
      | true =>
        rw [hmem, if_pos rfl] at h
        obtain ⟨srv, hsrv, h⟩ := bind_ok.mp h
        cases srv with
        | none => exact .rejects _ idx wrapped hidx hmem ((loadSrv_none hlen).mp hsrv)
        | some srv =>
          obtain ⟨cb, next⟩ := srv
          obtain ⟨stop, uuid, srvEnd, n, haccepts⟩ := (loadSrv_some hlen).mp hsrv
          refine .next _ idx wrapped cb next stop uuid srvEnd n hidx hmem haccepts ?_
          have hends := @ih next (cbs ++ [cb]) (wrapped || decide (65536 ≤ stop)) h (by simp) ?_
          . rwa [length_append] at hends
          . intro idx' cbs' heq hend hne
            obtain ⟨hwrapped, l, hformed, hdrop⟩ := hr idx' cbs' heq hend hne
            have hlength := congrArg List.length hdrop
            rw [length_drop] at hlength
            cases l with
            | nil =>
              rw [flatMap_nil, length_nil] at hlength
              omega
            | cons record l =>
              rw [flatMap_cons] at hdrop hlength
              rw [length_append] at hlength
              have hstop := haccepts.stop_of_formed (hformed record mem_cons_self) hdrop
              obtain rfl : next = stop := by
                rw [haccepts.next_eq hlen]
                exact w16_of_lt (by omega)
              refine ⟨by simp only [hwrapped, Bool.false_or, decide_eq_false_iff_not]; omega, l,
                fun r h => hformed r (mem_cons_of_mem _ h), ?_⟩
              rw [hstop, ← drop_drop, hdrop, drop_left]
    . rw [if_neg hidx] at h
      cases h
      refine .past _ idx wrapped (Nat.le_of_not_lt hidx) fun hwrapped hend => ?_
      obtain ⟨hfalse, -⟩ := hr idx cbs rfl hend (hcbs hwrapped)
      rw [hwrapped] at hfalse
      cases hfalse

end

theorem robust_iff (mem : Nat → Bool) (known : AttrUuid → Bool) (svcData : Option SvcData) :
    Robust mem known svcData ↔ ∀ d ∈ svcData, Ends mem known d.bytes 0 0 false := by
  cases svcData with
  | none =>
    refine ⟨fun _ => nofun, fun _ cb htable hlist => ⟨0, false, cb, ?_, nofun,
      fun _ => ⟨htable, hlist⟩⟩⟩
    rw [gattcStorageLoadCb, htable]
    rfl
  | some d =>
    constructor
    . intro h d' hd
      cases hd
      obtain ⟨fuel, success, cb, hload, htrue, -⟩ := h ⟨none, 0, []⟩ rfl rfl
      rw [gattcStorageLoadCb, if_neg (by simp)] at hload
      obtain ⟨r, hloop, hload⟩ := bind_ok.mp hload
      refine @ends_of_loadLoop _ _ _ d.len_lt _ _ _ _ _ hloop nofun ?_
      intro idx' cbs' hr hend hne
      subst hr
      simp only [hend, ne_eq, hne, not_false_eq_true, and_self, if_true] at hload
      cases hload
      obtain ⟨d', hd, l, -, hl⟩ := htrue rfl
      cases hd
      exact ⟨rfl, l, hl⟩
    . intro h cb htable hlist
      obtain ⟨fuel, r, hloop, hr⟩ := loadLoop_of_ends d.len_lt (h d rfl) [] rfl
      cases r with
      | none =>
        refine ⟨fuel, false, gattcStorageSrvListRelease cb, ?_, nofun, fun _ => ⟨rfl, rfl⟩⟩
        rw [gattcStorageLoadCb, htable, hlist]
        simp only [Option.isSome_none, Bool.false_eq_true, if_false, hloop]
        rfl
      | some r =>
        obtain ⟨idx, cbs⟩ := r
        by_cases hok : idx = d.bytes.length ∧ cbs ≠ []
        . obtain ⟨-, -, l, hlength, hl⟩ := hr idx cbs rfl hok.1
          refine ⟨fuel, true, ⟨some d.bytes, d.bytes.length, cbs⟩, ?_, fun _ => ⟨d, rfl, l, ?_, hl⟩,
            nofun⟩
          . rw [gattcStorageLoadCb, htable, hlist]
            simp only [Option.isSome_none, Bool.false_eq_true, if_false, hloop, bind, Except.bind]
            rw [if_pos hok]
            rfl
          . rintro rfl
            exact hok.2 (eq_nil_of_length_eq_zero hlength.symm)
        . refine ⟨fuel, false, gattcStorageSrvListRelease ⟨some d.bytes, d.bytes.length, cbs⟩, ?_,
            nofun, fun _ => ⟨rfl, rfl⟩⟩
          rw [gattcStorageLoadCb, htable, hlist]
          simp only [Option.isSome_none, Bool.false_eq_true, if_false, hloop, bind, Except.bind]
          rw [if_neg hok]
          rfl

theorem not_robust : ¬ Robust (fun _ => true) (fun _ => true) (some ⟨[1], by decide⟩) := by
  intro h
  obtain ⟨fuel, success, cb, hload, -, -⟩ := h ⟨none, 0, []⟩ rfl rfl
  cases fuel with
  | zero => cases hload
  | succ fuel => cases hload

end GattcStorage
