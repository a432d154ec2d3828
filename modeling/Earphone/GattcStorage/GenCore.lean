import Earphone.GattcStorage.RoundTrip

namespace GattcStorage

open Scan Slices Area List

section

variable {α : Type} {base₁ base₂ : Option Nat} {width₁ width₂ p : Nat}
variable {items : List (Bool × List α)} {n₁ n₂ m₁ m₂ : UInt8} {area area' : List α}

theorem fill_frame (h : fill base₁ base₂ width₁ width₂ items n₁ n₂ area = .ok (area', m₁, m₂))
    (hbase1 : ∀ x, base₁ = some x → p ≤ x) (hbase2 : ∀ x, base₂ = some x → p ≤ x) :
    ∀ q s, q + s.length ≤ p → Holds area q s → Holds area' q s := by
  induction items generalizing n₁ n₂ area with
  | nil =>
    cases h
    exact fun _ _ _ hs => hs
  | cons item items ih =>
    obtain ⟨k, b⟩ := item
    cases k with
    | true =>
      obtain ⟨x, area1, hx, hcopy, hrest⟩ := storeAt_bind_ok h
      obtain ⟨-, -, -, hframe⟩ := copyTo_ok hcopy
      have hle := hbase1 x hx
      exact fun q s hq hs => ih hrest q s hq (hframe q s (by omega) hs)
    | false =>
      obtain ⟨x, area1, hx, hcopy, hrest⟩ := storeAt_bind_ok h
      obtain ⟨-, -, -, hframe⟩ := copyTo_ok hcopy
      have hle := hbase2 x hx
      exact fun q s hq hs => ih hrest q s hq (hframe q s (by omega) hs)

end

structure HoldsCore (table : List UInt8) (idx : Nat) (s : DisSrv) : Prop where
  srvData : Holds table idx s.srvData.bytes
  char16 : Holds table (places idx s.srvData.bytes.length s.nums).char16
    (attrChar16Cb.encodeTable s.srv.char16)
  char128 : Holds table (places idx s.srvData.bytes.length s.nums).char128
    (attrChar128Cb.encodeTable s.srv.char128)
  num16 : s.nums.char16.toNat = s.srv.char16.length
  num128 : s.nums.char128.toNat = s.srv.char128.length

section

variable {table table' : List UInt8} {idx idx' : Nat} {s : DisSrv} {cb : SrvCb}

theorem num_of_fill (hle : n ≤ 256) (hnum : num = UInt8.ofNat n)
    (hbase : 0 < n → ∃ x, (if num = 0 then none else some p) = some x) : num.toNat = n := by
  by_cases h : n = 256
  . subst h
    have hzero : num = 0 := hnum
    rw [if_pos hzero] at hbase
    obtain ⟨x, hx⟩ := hbase (by decide)
    cases hx
  . rw [hnum]
    exact toNat_ofNat_lt (by omega)

theorem base_of_num {num : UInt8} {p q : Nat} (h : p ≤ q) :
    ∀ x, (if num = 0 then none else some q) = some x → p ≤ x := by
  intro x hx
  split at hx
  . cases hx
  . cases hx
    exact h

theorem genSrv_core (h : genSrv table idx s = .ok (table', idx', cb))
    (hlen : table.length < 65536) (hchars : s.charQueue.length ≤ 256) :
    HoldsCore table' idx s ∧ ∀ q c, q + c.length ≤ idx → Holds table q c → Holds table' q c := by
  obtain ⟨hlen', hidx', hle', hcb⟩ := genSrv_le h hlen
  have hstop := stop_places idx s
  have hnums : s.nums.bytes.length = 4 := rfl
  have hplaces := hstop
  simp only [places] at hplaces
  unfold genSrv at h
  obtain ⟨t1, hcopy, h⟩ := bind_ok.mp h
  obtain ⟨hle1, hlen1, hhold1, hframe1⟩ := copyTo_ok hcopy
  obtain ⟨⟨t2, numsEnd⟩, hstore, h⟩ := bind_ok.mp h
  rw [w16_of_lt (by omega)] at hstore
  obtain ⟨t2', hstore', hlen2, -, hframe2⟩ :=
    @storeBytes_ok t1 (idx + s.srvData.bytes.length) s.nums.bytes (by omega) (by omega)
  rw [hstore, Except.ok.injEq, Prod.mk.injEq, hnums] at hstore'
  obtain ⟨rfl, rfl⟩ := hstore'
  have htables := @tablesAt_eq idx s.srvData.bytes.length s.nums (by omega)
  simp only at h
  rw [htables] at h
  simp only at h
  obtain ⟨⟨t3, m1, m2⟩, hfill3, h⟩ := bind_ok.mp h
  obtain ⟨⟨t4, m3, m4⟩, hfill4, h⟩ := bind_ok.mp h
  cases h
  obtain ⟨hlen3, -, -, -, -⟩ := fill_ok hfill3 (length_bank_inc s.includeSrvQueue)
  obtain ⟨-, -, -, hroom16, hroom128⟩ := fill_ok hfill4 (length_bank_char s.charQueue)
  have hframe3 := @fill_frame UInt8 _ _ _ _ (idx + s.srvData.bytes.length + 4) _ _ _ _ _ _ _ hfill3
    (base_of_num (Nat.le_refl _)) (base_of_num (by simp only [places]; omega))
  -- the numbers of the characteristics are right, so their tables are what has been written
  have hcount : (s.srv.char16.length ≤ 256 ∧ s.srv.char128.length ≤ 256) := by
    have h16 := length_filterMap_le (fun c : DisChar => c.as16) s.charQueue
    have h128 := length_filterMap_le (fun c : DisChar => c.as128) s.charQueue
    exact ⟨Nat.le_trans h16 hchars, Nat.le_trans h128 hchars⟩
  have hbank16 : (bank true (s.charQueue.map (·.item))).length = s.srv.char16.length := by
    rw [bank_char16, length_map]
    rfl
  have hbank128 : (bank false (s.charQueue.map (·.item))).length = s.srv.char128.length := by
    rw [bank_char128, length_map]
    rfl
  rw [hbank16] at hroom16
  rw [hbank128] at hroom128
  have hnum16 : s.nums.char16.toNat = s.srv.char16.length :=
    num_of_fill hcount.1 (by rw [s.nums_srv]) fun hpos => by
      obtain ⟨x, hx, -⟩ := hroom16 0 hpos
      exact ⟨x, hx⟩
  have hnum128 : s.nums.char128.toNat = s.srv.char128.length :=
    num_of_fill hcount.2 (by rw [s.nums_srv]) fun hpos => by
      obtain ⟨x, hx, -⟩ := hroom128 0 hpos
      exact ⟨x, hx⟩
  obtain ⟨t4', hfill4', -, hhold16, hhold128, hframe4⟩ :=
    @fill_all UInt8 attrChar16Cb.width attrChar128Cb.width
      (places idx s.srvData.bytes.length s.nums).char16
      (places idx s.srvData.bytes.length s.nums).char128 (s.charQueue.map (·.item)) t3
      s.nums.char16 s.nums.char128 (length_bank_char s.charQueue) (by rw [hbank16, hnum16])
      (by rw [hbank128, hnum128]) (Nat.le_refl _) (by simp only [places]; omega)
  simp only [cbAt] at hfill4
  rw [hfill4, Except.ok.injEq, Prod.mk.injEq] at hfill4'
  obtain ⟨rfl, -⟩ := hfill4'
  rw [bank_char16, ← flatMap_def] at hhold16
  rw [bank_char128, ← flatMap_def] at hhold128
  simp only [places] at hframe4
  have hkeep : ∀ q c, q + c.length ≤ idx + s.srvData.bytes.length → Holds t1 q c → Holds t4 q c :=
    fun q c hq hc => hframe4 q c (by omega) (by omega)
      (hframe3 q c (by omega) (hframe2 q c (by omega) hc))
  exact ⟨⟨hkeep idx _ (Nat.le_refl _) hhold1, hhold16, hhold128, hnum16, hnum128⟩,
    fun q c hq hc => hkeep q c (by omega) (hframe1 q c (by omega) hc)⟩

theorem HoldsCore.mono (h : HoldsCore table idx s)
    (hkeep : ∀ q c, q + c.length ≤ idx + srvSize s → Holds table q c → Holds table' q c) :
    HoldsCore table' idx s := by
  have hstop := stop_places idx s
  simp only [places] at hstop
  have h16 : (attrChar16Cb.encodeTable s.srv.char16).length =
      s.nums.char16.toNat * attrChar16Cb.width := by rw [Codec.length_encodeTable, h.num16]
  have h128 : (attrChar128Cb.encodeTable s.srv.char128).length =
      s.nums.char128.toNat * attrChar128Cb.width := by rw [Codec.length_encodeTable, h.num128]
  refine ⟨hkeep _ _ ?_ h.srvData, hkeep _ _ ?_ h.char16, hkeep _ _ ?_ h.char128, h.num16, h.num128⟩
  . omega
  . rw [h16]
    simp only [places]
    omega
  . rw [h128]
    simp only [places]
    omega

def HoldsCores (table : List UInt8) : Nat → List DisSrv → Prop
  | _, [] => True
  | idx, s :: l => HoldsCore table idx s ∧ HoldsCores table (idx + srvSize s) l

theorem genLoop_core (h : genLoop mem table idx cbs l = .ok (some (table', idx', cbs')))
    (hlen : table.length < 65536) (hchars : ∀ s ∈ l, s.charQueue.length ≤ 256) :
    HoldsCores table' idx l ∧ cbs' = cbs ++ cbsAt idx l ∧
      ∀ q c, q + c.length ≤ idx → Holds table q c → Holds table' q c := by
  induction l generalizing table idx cbs with
  | nil =>
    cases h
    exact ⟨trivial, by rw [cbsAt, append_nil], fun _ _ _ hc => hc⟩
  | cons s l ih =>
    unfold genLoop at h
    split at h
    . obtain ⟨⟨table1, idx1, cb⟩, hgen, h⟩ := bind_ok.mp h
      simp only at h
      split at h
      . obtain ⟨hlen1, hidx1, -, hcb⟩ := genSrv_le hgen hlen
        obtain ⟨hcore, hframe1⟩ := genSrv_core hgen hlen (hchars s mem_cons_self)
        obtain ⟨hcores, hcbs, hframe⟩ := ih h (by omega)
          fun s' hs' => hchars s' (mem_cons_of_mem _ hs')
        subst hidx1 hcb
        refine ⟨⟨hcore.mono hframe, hcores⟩, ?_, ?_⟩
        . rw [hcbs, cbsAt, append_assoc]
          rfl
        . exact fun q c hq hc => hframe q c (by omega) (hframe1 q c hq hc)
      . cases h
    . cases h

end

structure ReadsCore (r : Srv) (s : DisSrv) : Prop where
  srvData : r.srvData = s.srvData
  char16 : r.char16 = s.srv.char16
  char128 : r.char128 = s.srv.char128

theorem reads_cbAt (h : HoldsCore table idx s) :
    ReadsCore ((cbAt idx s.srvData.bytes.length s.nums).read table) s := by
  exact ⟨readSrvData_ok s.srvTyped h.srvData, readTable_table h.num16 h.char16,
    readTable_table h.num128 h.char128⟩

theorem reads_cbsAt (h : HoldsCores table idx l) :
    List.Forall₂ ReadsCore ((cbsAt idx l).map (·.read table)) l := by
  induction l generalizing idx with
  | nil => exact .nil
  | cons s l ih => exact .cons (reads_cbAt h.1) (ih h.2)

theorem gen_readsCore (h : gattcStorageSrvListGen mem disList = .ok (some l))
    (hchars : ∀ s ∈ disList, s.charQueue.length ≤ 256) :
    List.Forall₂ ReadsCore l.read disList := by
  unfold gattcStorageSrvListGen at h
  split_ifs at h with hnil hlen hmem
  . cases h
    subst hnil
    exact .nil
  . obtain ⟨r, hloop, h⟩ := bind_ok.mp h
    split at h
    . next table idx cbs =>
      split at h
      . cases h
        have hsize : (List.replicate (tableLen disList) (0 : UInt8)).length < 65536 := by
          rw [length_replicate, tableLen_eq]
          exact Nat.mod_lt _ (by decide)
        obtain ⟨hcores, hcbs, -⟩ := genLoop_core hloop hsize hchars
        subst hcbs
        exact reads_cbsAt hcores
      . cases h
    . cases h
  . cases h

end GattcStorage
