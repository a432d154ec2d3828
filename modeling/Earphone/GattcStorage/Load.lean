import Earphone.GattcStorage.Gen

namespace GattcStorage

open Scan Slices Area List

theorem byteAt_of_holds (h : Holds table p (b :: bs)) : byteAt table p = .ok b.toNat := by
  have hget := h 0 (by simp)
  rw [Nat.add_zero, getElem?_cons_zero] at hget
  rw [byteAt, hget]

theorem bytesAt_of_holds (h : Holds table p c) (hc : c ≠ []) :
    bytesAt table p c.length = .ok c := by
  rw [bytesAt, if_pos (holds_le h hc), take_of_holds h]

theorem isSrvUuid128_not (h : isSrvUuid128 t = true) : isSrvUuid16 t = false := by
  simp only [isSrvUuid128, Bool.or_eq_true, beq_iff_eq] at h
  obtain rfl | rfl := h <;> rfl

def SrvData.uuid : SrvData → AttrUuid
  | .uuid16 d => .uuid16 d.uuid16
  | .uuid128 d => .uuid128 d.uuid128

theorem SrvData.bytes_ne_nil (d : SrvData) : d.bytes ≠ [] := by
  apply ne_nil_of_length_pos
  cases d with
  | uuid16 d => rw [bytes, attrSrvUuid16.length_encode]; decide
  | uuid128 d => rw [bytes, attrSrvUuid128.length_encode]; decide

section

variable {table : List UInt8} {idx : Nat} {d : SrvData}

theorem loadSrvData_ok (hd : d.Typed) (h : Holds table idx d.bytes)
    (hlen : idx + d.bytes.length < 65536) :
    loadSrvData table idx = .ok (some (d.uuid, idx + d.bytes.length)) := by
  have hall := bytesAt_of_holds h d.bytes_ne_nil
  cases d with
  | uuid16 d =>
    have hd16 : isSrvUuid16 d.hdr.attrType = true := hd
    have htype : byteAt table idx = .ok d.hdr.attrType.toNat := byteAt_of_holds h
    rw [SrvData.bytes, attrSrvUuid16.length_encode] at hall hlen
    simp only [loadSrvData, htype, bind, Except.bind, UInt8.ofNat_toNat]
    rw [if_pos hd16, hall, w16_of_lt hlen, SrvData.bytes, attrSrvUuid16.length_encode]
    simp only [attrSrvUuid16.decode_encode]
    rfl
  | uuid128 d =>
    have hd128 : isSrvUuid128 d.hdr.attrType = true := hd
    have htype : byteAt table idx = .ok d.hdr.attrType.toNat := byteAt_of_holds h
    rw [SrvData.bytes, attrSrvUuid128.length_encode] at hall hlen
    simp only [loadSrvData, htype, bind, Except.bind, UInt8.ofNat_toNat]
    rw [if_neg (by rw [isSrvUuid128_not hd128]; exact Bool.false_ne_true), if_pos hd128, hall,
      w16_of_lt hlen, SrvData.bytes, attrSrvUuid128.length_encode]
    simp only [attrSrvUuid128.decode_encode]
    rfl

theorem readSrvData_ok (hd : d.Typed) (h : Holds table idx d.bytes) :
    readSrvData table idx = d := by
  cases d with
  | uuid16 d =>
    have hd16 : isSrvUuid16 d.hdr.attrType = true := hd
    have hhdr : attrHeader.readAt table idx = d.hdr := Codec.readAt_of_holds (holds_append.mp h).1
    rw [readSrvData, hhdr, if_pos hd16, Codec.readAt_of_holds h]
  | uuid128 d =>
    have hd128 : isSrvUuid128 d.hdr.attrType = true := hd
    have hhdr : attrHeader.readAt table idx = d.hdr := Codec.readAt_of_holds (holds_append.mp h).1
    rw [readSrvData, hhdr, if_neg (by rw [isSrvUuid128_not hd128]; exact Bool.false_ne_true),
      Codec.readAt_of_holds h]

end

theorem loadNums_ok (h : Holds table idx n.bytes)
    (hlen : idx + 4 < 65536) : loadNums table idx = .ok (n, idx + 4) := by
  have hget : ∀ i, i < 4 → ∀ b, n.bytes[i]? = some b →
      byteAt table (w16 (idx + i)) = .ok b.toNat := by
    intro i hi b hb
    have := h i hi
    rw [w16_of_lt (by omega), byteAt, this, hb]
  have h0 := hget 0 (by omega) n.inc16 rfl
  rw [Nat.add_zero, w16_of_lt (by omega)] at h0
  simp only [loadNums, h0, hget 1 (by omega) n.inc128 rfl, hget 2 (by omega) n.char16 rfl,
    hget 3 (by omega) n.char128 rfl, bind, Except.bind, pure, Except.pure, UInt8.ofNat_toNat,
    w16_of_lt hlen]

theorem checkTable_ok {α : Type} {c : Codec α} {table : List UInt8} {base : Option Nat}
    {p offset : Nat} {type : UInt8} {l : List α} (hbase : l ≠ [] → base = some p)
    (h : Holds table p (c.encodeTable l))
    (htype : ∀ a ∈ l, ∃ pre post, c.encode a = pre ++ type :: post ∧ pre.length = offset)
    {j n : Nat} (hj : j + n = l.length) :
    checkTable table base c.width offset type j n = .ok true := by
  induction n generalizing j with
  | zero => rfl
  | succ n ih =>
    have hlt : j < l.length := by omega
    have hbase := hbase (ne_nil_of_length_pos (by omega))
    obtain ⟨pre, post, henc, hpre⟩ := htype _ (getElem_mem hlt)
    have hrec := Codec.holds_of_encodeTable h (getElem?_eq_getElem hlt)
    rw [henc, holds_append, hpre] at hrec
    have hbyte := byteAt_of_holds hrec.2
    subst hbase
    simp only [checkTable, hbyte, bind, Except.bind]
    rw [if_neg (fun hne => hne rfl)]
    exact ih (by omega)

section

variable {table : List UInt8} {idx : Nat} {s : DisSrv}

theorem typed_inc16 (hd : d ∈ s.srv.inc16) : d.hdr.attrType = attrTypeIncludeUuid16 := by
  obtain ⟨i, hi, heq⟩ := mem_filterMap.mp hd
  have htyped := s.incTyped i hi
  cases i with
  | uuid16 d' => cases heq; exact htyped
  | uuid128 d' => cases heq

theorem typed_inc128 (hd : d ∈ s.srv.inc128) : d.hdr.attrType = attrTypeIncludeUuid128 := by
  obtain ⟨i, hi, heq⟩ := mem_filterMap.mp hd
  have htyped := s.incTyped i hi
  cases i with
  | uuid16 d' => cases heq
  | uuid128 d' => cases heq; exact htyped

theorem typed_char16 (hd : d ∈ s.srv.char16) : d.charData.hdr.attrType = attrTypeCharUuid16 := by
  obtain ⟨⟨e, h, data⟩, hc, heq⟩ := mem_filterMap.mp hd
  have htyped := s.charTyped _ hc
  cases data with
  | uuid16 d' => cases heq; exact htyped
  | uuid128 d' => cases heq

theorem typed_char128 (hd : d ∈ s.srv.char128) : d.charData.hdr.attrType = attrTypeCharUuid128 := by
  obtain ⟨⟨e, h, data⟩, hc, heq⟩ := mem_filterMap.mp hd
  have htyped := s.charTyped _ hc
  cases data with
  | uuid16 d' => cases heq
  | uuid128 d' => cases heq; exact htyped

structure HoldsSrv (table : List UInt8) (idx : Nat) (s : DisSrv) : Prop where
  srvData : Holds table idx s.srvData.bytes
  nums : Holds table (idx + s.srvData.bytes.length) s.nums.bytes
  inc16 : Holds table (places idx s.srvData.bytes.length s.nums).inc16
    (attrIncludeUuid16.encodeTable s.srv.inc16)
  inc128 : Holds table (places idx s.srvData.bytes.length s.nums).inc128
    (attrIncludeUuid128.encodeTable s.srv.inc128)
  char16 : Holds table (places idx s.srvData.bytes.length s.nums).char16
    (attrChar16Cb.encodeTable s.srv.char16)
  char128 : Holds table (places idx s.srvData.bytes.length s.nums).char128
    (attrChar128Cb.encodeTable s.srv.char128)

theorem holdsSrv (hs : s.Small) (h : Holds table idx s.bytes) : HoldsSrv table idx s := by
  obtain ⟨hn1, hn2, hn3, hn4⟩ := hs.nums
  obtain ⟨h1, h⟩ := holds_append.mp h
  obtain ⟨h2, h⟩ := holds_append.mp h
  obtain ⟨h3, h⟩ := holds_append.mp h
  obtain ⟨h4, h⟩ := holds_append.mp h
  obtain ⟨h5, h6⟩ := holds_append.mp h
  rw [Codec.length_encodeTable, ← hn1] at h4 h5 h6
  rw [Codec.length_encodeTable, ← hn2] at h5 h6
  rw [Codec.length_encodeTable, ← hn3] at h6
  exact ⟨h1, h2, h3, h4, h5, h6⟩

theorem table_of_ne_nil {n : UInt8} {α : Type} {l : List α} (h : n.toNat = l.length) (p : Nat)
    (hl : l ≠ []) : (if n = 0 then none else some p) = some p := by
  rw [if_neg]
  rintro rfl
  exact hl (eq_nil_of_length_eq_zero h.symm)

theorem checkTables_ok (hs : s.Small) (h : HoldsSrv table idx s) :
    checkTables table (cbAt idx s.srvData.bytes.length s.nums) = .ok true := by
  obtain ⟨hn1, hn2, hn3, hn4⟩ := hs.nums
  have hc1 := @checkTable_ok _ attrIncludeUuid16 table _ _ 0 attrTypeIncludeUuid16 _
    (table_of_ne_nil hn1 _) h.inc16 (fun d hd => ⟨[], _, by rw [← typed_inc16 hd]; rfl, rfl⟩)
    0 _ (by rw [Nat.zero_add])
  have hc2 := @checkTable_ok _ attrIncludeUuid128 table _ _ 0 attrTypeIncludeUuid128 _
    (table_of_ne_nil hn2 _) h.inc128 (fun d hd => ⟨[], _, by rw [← typed_inc128 hd]; rfl, rfl⟩)
    0 _ (by rw [Nat.zero_add])
  have hc3 := @checkTable_ok _ attrChar16Cb table _ _ attrHeader.width attrTypeCharUuid16 _
    (table_of_ne_nil hn3 _) h.char16
    (fun d hd => ⟨attrHeader.encode d.cccdDescriptor, _, by rw [← typed_char16 hd]; rfl, rfl⟩)
    0 _ (by rw [Nat.zero_add])
  have hc4 := @checkTable_ok _ attrChar128Cb table _ _ attrHeader.width attrTypeCharUuid128 _
    (table_of_ne_nil hn4 _) h.char128
    (fun d hd => ⟨attrHeader.encode d.cccdDescriptor, _, by rw [← typed_char128 hd]; rfl, rfl⟩)
    0 _ (by rw [Nat.zero_add])
  rw [← hn1] at hc1
  rw [← hn2] at hc2
  rw [← hn3] at hc3
  rw [← hn4] at hc4
  simp only [checkTables, cbAt, hc1, hc2, hc3, hc4, bind, Except.bind, if_true]

theorem loadSrv_ok (hknown : known s.srvData.uuid = true) (hs : s.Small)
    (h : Holds table idx s.bytes) (hlen : idx + srvSize s < 65536) :
    loadSrv known table idx =
      .ok (some (cbAt idx s.srvData.bytes.length s.nums, idx + srvSize s)) := by
  have hsrv := holdsSrv hs h
  have hstop := stop_places idx s
  have hplaces := hstop
  simp only [places] at hplaces
  have hdata := loadSrvData_ok s.srvTyped hsrv.srvData (by omega)
  have hnums := loadNums_ok hsrv.nums (by omega)
  have htables := @tablesAt_eq idx s.srvData.bytes.length s.nums (by omega)
  rw [hstop] at htables
  simp only [loadSrv, hdata, bind, Except.bind]
  rw [if_pos hknown, hnums]
  simp only
  rw [htables, checkTables_ok hs hsrv]
  rfl

theorem readTable_table {α : Type} {c : Codec α} {n : UInt8} {p : Nat} {l : List α}
    (hn : n.toNat = l.length) (hl : Holds table p (c.encodeTable l)) :
    c.readTable table ((if n = 0 then none else some p).getD 0) n.toNat = l := by
  cases l with
  | nil =>
    rw [hn]
    rfl
  | cons a l =>
    rw [table_of_ne_nil hn p (cons_ne_nil a l), Option.getD_some, hn,
      Codec.readTable_of_holds hl]

theorem read_cbAt (hs : s.Small) (h : Holds table idx s.bytes) :
    (cbAt idx s.srvData.bytes.length s.nums).read table = s.srv := by
  have hsrv := holdsSrv hs h
  obtain ⟨hn1, hn2, hn3, hn4⟩ := hs.nums
  simp only [SrvCb.read, cbAt]
  rw [readSrvData_ok s.srvTyped hsrv.srvData, readTable_table hn1 hsrv.inc16,
    readTable_table hn2 hsrv.inc128, readTable_table hn3 hsrv.char16,
    readTable_table hn4 hsrv.char128]
  rfl

end

end GattcStorage
