import Earphone.GattcStorage.Basic

namespace GattcStorage

open Scan Slices Area List

def DisSrv.bytes (s : DisSrv) : List UInt8 :=
  s.srvData.bytes ++ (s.nums.bytes ++ (attrIncludeUuid16.encodeTable s.srv.inc16 ++
    (attrIncludeUuid128.encodeTable s.srv.inc128 ++ (attrChar16Cb.encodeTable s.srv.char16 ++
      attrChar128Cb.encodeTable s.srv.char128))))

structure DisSrv.Small (s : DisSrv) : Prop where
  inc16 : s.srv.inc16.length < 256
  inc128 : s.srv.inc128.length < 256
  char16 : s.srv.char16.length < 256
  char128 : s.srv.char128.length < 256

section

theorem bank_map {ι α : Type} {f : ι → Bool × List UInt8} {g : ι → Option α} {c : Codec α}
    {k : Bool} (hsome : ∀ i a, g i = some a → f i = (k, c.encode a))
    (hnone : ∀ i, g i = none → (f i).1 ≠ k) (l : List ι) :
    bank k (l.map f) = (l.filterMap g).map c.encode := by
  induction l with
  | nil => rfl
  | cons i l ih =>
    rw [map_cons]
    cases hi : g i with
    | some a => rw [hsome i a hi, bank_cons_self, ih, filterMap_cons_some hi, map_cons]
    | none =>
      rw [filterMap_cons_none hi, ← ih, bank, bank, filter_cons_of_neg]
      simpa using hnone i hi

variable (incs : List DisInc) (chars : List DisChar)

theorem bank_inc16 :
    bank true (incs.map (·.item)) = (incs.filterMap (·.as16)).map attrIncludeUuid16.encode := by
  apply bank_map
  . rintro (d | d) a ⟨⟩
    rfl
  . rintro (d | d) ⟨⟩
    exact Bool.false_ne_true

theorem bank_inc128 :
    bank false (incs.map (·.item)) = (incs.filterMap (·.as128)).map attrIncludeUuid128.encode := by
  apply bank_map
  . rintro (d | d) a ⟨⟩
    rfl
  . rintro (d | d) ⟨⟩
    exact Bool.false_ne_true.symm

theorem bank_char16 :
    bank true (chars.map (·.item)) = (chars.filterMap (·.as16)).map attrChar16Cb.encode := by
  apply bank_map
  . rintro ⟨e, h, d | d⟩ a ⟨⟩
    rfl
  . rintro ⟨e, h, d | d⟩ ⟨⟩
    exact Bool.false_ne_true

theorem bank_char128 :
    bank false (chars.map (·.item)) = (chars.filterMap (·.as128)).map attrChar128Cb.encode := by
  apply bank_map
  . rintro ⟨e, h, d | d⟩ a ⟨⟩
    rfl
  . rintro ⟨e, h, d | d⟩ ⟨⟩
    exact Bool.false_ne_true.symm

theorem countP_inc16 : incs.countP (·.is16) = (incs.filterMap (·.as16)).length := by
  rw [length_filterMap_eq_countP]
  congr 1
  funext i
  cases i <;> rfl

theorem countP_inc128 : incs.countP (!·.is16) = (incs.filterMap (·.as128)).length := by
  rw [length_filterMap_eq_countP]
  congr 1
  funext i
  cases i <;> rfl

theorem countP_char16 : chars.countP (·.is16) = (chars.filterMap (·.as16)).length := by
  rw [length_filterMap_eq_countP]
  congr 1
  funext ⟨e, h, d⟩
  cases d <;> rfl

theorem countP_char128 : chars.countP (!·.is16) = (chars.filterMap (·.as128)).length := by
  rw [length_filterMap_eq_countP]
  congr 1
  funext ⟨e, h, d⟩
  cases d <;> rfl

theorem length_bank_inc (k : Bool) (b : List UInt8) (hb : b ∈ bank k (incs.map (·.item))) :
    b.length = if k then attrIncludeUuid16.width else attrIncludeUuid128.width := by
  cases k with
  | true =>
    rw [bank_inc16] at hb
    obtain ⟨d, -, rfl⟩ := mem_map.mp hb
    exact attrIncludeUuid16.length_encode d
  | false =>
    rw [bank_inc128] at hb
    obtain ⟨d, -, rfl⟩ := mem_map.mp hb
    exact attrIncludeUuid128.length_encode d

theorem length_bank_char (k : Bool) (b : List UInt8) (hb : b ∈ bank k (chars.map (·.item))) :
    b.length = if k then attrChar16Cb.width else attrChar128Cb.width := by
  cases k with
  | true =>
    rw [bank_char16] at hb
    obtain ⟨d, -, rfl⟩ := mem_map.mp hb
    exact attrChar16Cb.length_encode d
  | false =>
    rw [bank_char128] at hb
    obtain ⟨d, -, rfl⟩ := mem_map.mp hb
    exact attrChar128Cb.length_encode d

end

theorem DisSrv.nums_srv (s : DisSrv) :
    s.nums = ⟨.ofNat s.srv.inc16.length, .ofNat s.srv.inc128.length, .ofNat s.srv.char16.length,
      .ofNat s.srv.char128.length⟩ := by
  rw [s.nums_eq, Nums.of, countP_inc16, countP_inc128, countP_char16, countP_char128]
  rfl

theorem toNat_ofNat_lt (h : n < 256) : (UInt8.ofNat n).toNat = n := by
  rw [UInt8.toNat_ofNat']
  exact Nat.mod_eq_of_lt h

theorem w16_of_lt (h : n < 65536) : w16 n = n := Nat.mod_eq_of_lt h

theorem DisSrv.Small.nums {s : DisSrv} (h : s.Small) :
    s.nums.inc16.toNat = s.srv.inc16.length ∧ s.nums.inc128.toNat = s.srv.inc128.length ∧
      s.nums.char16.toNat = s.srv.char16.length ∧ s.nums.char128.toNat = s.srv.char128.length := by
  rw [s.nums_srv]
  exact ⟨toNat_ofNat_lt h.inc16, toNat_ofNat_lt h.inc128, toNat_ofNat_lt h.char16,
    toNat_ofNat_lt h.char128⟩

theorem tableAt_eq {idx width : Nat} {num : UInt8} (h : idx + num.toNat * width < 65536) :
    tableAt idx num width = (if num = 0 then none else some idx, idx + num.toNat * width) := by
  unfold tableAt
  split
  . next h0 =>
    subst h0
    simp
  . rw [w16_of_lt h]

structure Places where
  srvEnd : Nat
  inc16 : Nat
  inc128 : Nat
  char16 : Nat
  char128 : Nat
  stop : Nat

def places (idx : Nat) (srvLen : Nat) (n : Nums) : Places where
  srvEnd := idx + srvLen
  inc16 := idx + srvLen + 4
  inc128 := idx + srvLen + 4 + n.inc16.toNat * attrIncludeUuid16.width
  char16 := idx + srvLen + 4 + n.inc16.toNat * attrIncludeUuid16.width +
    n.inc128.toNat * attrIncludeUuid128.width
  char128 := idx + srvLen + 4 + n.inc16.toNat * attrIncludeUuid16.width +
    n.inc128.toNat * attrIncludeUuid128.width + n.char16.toNat * attrChar16Cb.width
  stop := idx + srvLen + 4 + n.inc16.toNat * attrIncludeUuid16.width +
    n.inc128.toNat * attrIncludeUuid128.width + n.char16.toNat * attrChar16Cb.width +
      n.char128.toNat * attrChar128Cb.width

def cbAt (idx : Nat) (srvLen : Nat) (n : Nums) : SrvCb where
  srvData := idx
  nums := n
  inc16Table := if n.inc16 = 0 then none else some (places idx srvLen n).inc16
  inc128Table := if n.inc128 = 0 then none else some (places idx srvLen n).inc128
  char16Table := if n.char16 = 0 then none else some (places idx srvLen n).char16
  char128Table := if n.char128 = 0 then none else some (places idx srvLen n).char128

theorem stop_places (idx : Nat) (s : DisSrv) :
    (places idx s.srvData.bytes.length s.nums).stop = idx + srvSize s := by
  simp only [places, srvSize]
  omega

theorem tablesAt_eq {idx srvLen : Nat} {n : Nums} (h : (places idx srvLen n).stop < 65536) :
    tablesAt idx (idx + srvLen + 4) n = (cbAt idx srvLen n, (places idx srvLen n).stop) := by
  simp only [places] at h
  unfold tablesAt
  rw [tableAt_eq (by omega)]
  simp only
  rw [tableAt_eq (by omega)]
  simp only
  rw [tableAt_eq (by omega)]
  simp only
  rw [tableAt_eq (by omega)]
  rfl

theorem storeBytes_ok {table : List UInt8} {idx : Nat} {bs : List UInt8}
    (h : idx + bs.length ≤ table.length) (hlen : table.length < 65536) :
    ∃ table', storeBytes table idx bs = .ok (table', idx + bs.length) ∧
      table'.length = table.length ∧ Holds table' idx bs ∧
      ∀ q c, q + c.length ≤ idx ∨ idx + bs.length ≤ q → Holds table q c → Holds table' q c := by
  induction bs generalizing idx table with
  | nil => exact ⟨table, rfl, rfl, holds_nil, fun _ _ _ hc => hc⟩
  | cons b bs ih =>
    rw [length_cons] at h
    obtain ⟨table1, hcopy, -⟩ := @copyTo_spec UInt8 table [b] idx (by
      rw [length_singleton]; omega)
    obtain ⟨-, hlen1, hhold1, hframe1⟩ := copyTo_ok hcopy
    rw [length_singleton] at hframe1
    obtain ⟨table', hstore, hlen', hhold, hframe⟩ := @ih table1 (idx + 1) (by omega) (by omega)
    refine ⟨table', ?_, hlen'.trans hlen1, ?_, fun q c hq hc => ?_⟩
    . simp only [storeBytes, hcopy, bind, Except.bind]
      rw [w16_of_lt (by omega), hstore, length_cons, Nat.add_assoc, Nat.add_comm 1]
    . exact (@holds_append UInt8 table' [b] bs idx).mpr ⟨hframe _ _ (by simp) hhold1, hhold⟩
    . rw [length_cons] at hq
      exact hframe q c (by omega) (hframe1 q c (by omega) hc)

theorem genSrv_ok {table : List UInt8} {idx : Nat} {s : DisSrv} (hs : s.Small)
    (h : idx + srvSize s ≤ table.length) (hlen : table.length < 65536) :
    ∃ table', genSrv table idx s =
        .ok (table', idx + srvSize s, cbAt idx s.srvData.bytes.length s.nums) ∧
      table'.length = table.length ∧ Holds table' idx s.bytes ∧
      ∀ q c, q + c.length ≤ idx ∨ idx + srvSize s ≤ q → Holds table q c → Holds table' q c := by
  have hstop := stop_places idx s
  obtain ⟨hn1, hn2, hn3, hn4⟩ := hs.nums
  have hplaces := hstop
  simp only [places] at hplaces
  obtain ⟨t1, hcopy, -⟩ := @copyTo_spec UInt8 table s.srvData.bytes idx (by omega)
  obtain ⟨-, hlen1, hhold1, hframe1⟩ := copyTo_ok hcopy
  obtain ⟨t2, hstore, hlen2, hhold2, hframe2⟩ :=
    @storeBytes_ok t1 (idx + s.srvData.bytes.length) s.nums.bytes
      (by rw [Nums.bytes, length_cons]; simp only [length_cons, length_nil]; omega)
      (by omega)
  have hnums : s.nums.bytes.length = 4 := rfl
  rw [hnums] at hstore hframe2
  have htables := @tablesAt_eq idx s.srvData.bytes.length s.nums (by omega)
  rw [hstop] at htables
  have hlenInc16 : (bank true (s.includeSrvQueue.map (·.item))).length = s.nums.inc16.toNat := by
    rw [bank_inc16, length_map, hn1]; rfl
  have hlenInc128 : (bank false (s.includeSrvQueue.map (·.item))).length = s.nums.inc128.toNat := by
    rw [bank_inc128, length_map, hn2]; rfl
  have hlenChar16 : (bank true (s.charQueue.map (·.item))).length = s.nums.char16.toNat := by
    rw [bank_char16, length_map, hn3]; rfl
  have hlenChar128 : (bank false (s.charQueue.map (·.item))).length = s.nums.char128.toNat := by
    rw [bank_char128, length_map, hn4]; rfl
  obtain ⟨t3, hfill3, hlen3, hinc16, hinc128, hframe3⟩ :=
    @fill_all UInt8 attrIncludeUuid16.width attrIncludeUuid128.width
      (places idx s.srvData.bytes.length s.nums).inc16
      (places idx s.srvData.bytes.length s.nums).inc128 (s.includeSrvQueue.map (·.item)) t2
      s.nums.inc16 s.nums.inc128 (length_bank_inc s.includeSrvQueue) hlenInc16 hlenInc128
      (Nat.le_refl _) (by simp only [places]; omega)
  obtain ⟨t4, hfill4, hlen4, hchar16, hchar128, hframe4⟩ :=
    @fill_all UInt8 attrChar16Cb.width attrChar128Cb.width
      (places idx s.srvData.bytes.length s.nums).char16
      (places idx s.srvData.bytes.length s.nums).char128 (s.charQueue.map (·.item)) t3
      s.nums.char16 s.nums.char128 (length_bank_char s.charQueue) hlenChar16 hlenChar128
      (Nat.le_refl _) (by simp only [places]; omega)
  rw [bank_inc16, ← flatMap_def] at hinc16
  rw [bank_inc128, ← flatMap_def] at hinc128
  rw [bank_char16, ← flatMap_def] at hchar16
  rw [bank_char128, ← flatMap_def] at hchar128
  change Holds t3 _ (attrIncludeUuid16.encodeTable s.srv.inc16) at hinc16
  change Holds t3 _ (attrIncludeUuid128.encodeTable s.srv.inc128) at hinc128
  simp only [places] at hinc16 hinc128 hframe3 hchar16 hchar128 hframe4
  have hl1 : (attrIncludeUuid16.encodeTable s.srv.inc16).length =
      s.nums.inc16.toNat * attrIncludeUuid16.width := by rw [Codec.length_encodeTable, hn1]
  have hl2 : (attrIncludeUuid128.encodeTable s.srv.inc128).length =
      s.nums.inc128.toNat * attrIncludeUuid128.width := by rw [Codec.length_encodeTable, hn2]
  have hl3 : (attrChar16Cb.encodeTable s.srv.char16).length =
      s.nums.char16.toNat * attrChar16Cb.width := by rw [Codec.length_encodeTable, hn3]
  refine ⟨t4, ?_, by omega, ?_, fun q c hq hc => ?_⟩
  . simp only [genSrv, hcopy, bind, Except.bind, pure, Except.pure]
    rw [w16_of_lt (by omega), hstore]
    simp only
    rw [htables]
    simp only [cbAt]
    rw [hfill3]
    simp only
    rw [hfill4]
  -- what was written first is kept by all that is written behind it
  . have hkeep1 := hframe4 _ _ (by omega) (by omega) (hframe3 _ _ (by omega) (by omega)
      (hframe2 _ _ (by omega) hhold1))
    have hkeep2 := hframe4 _ _ (by omega) (by omega) (hframe3 _ _ (by omega) (by omega) hhold2)
    have hkeep3 : Holds t4 _ (attrIncludeUuid16.encodeTable s.srv.inc16) :=
      hframe4 _ _ (by omega) (by omega) hinc16
    have hkeep4 : Holds t4 _ (attrIncludeUuid128.encodeTable s.srv.inc128) :=
      hframe4 _ _ (by omega) (by omega) hinc128
    refine holds_append.mpr ⟨hkeep1, holds_append.mpr ⟨hkeep2, ?_⟩⟩
    rw [hnums]
    refine holds_append.mpr ⟨hkeep3, holds_append.mpr ⟨?_, holds_append.mpr ⟨?_, ?_⟩⟩⟩
    . rw [hl1]
      exact hkeep4
    . rw [hl1, hl2]
      exact hchar16
    . rw [hl1, hl2, hl3]
      exact hchar128
  . exact hframe4 q c (by omega) (by omega) (hframe3 q c (by omega) (by omega)
      (hframe2 q c (by omega) (hframe1 q c (by omega) hc)))

end GattcStorage
