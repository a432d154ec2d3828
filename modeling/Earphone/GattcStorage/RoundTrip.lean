import Earphone.GattcStorage.Load

/-!
This module contains when the service table can be read again.
-/

namespace GattcStorage

open Scan Slices Area List

def dbSize (l : List DisSrv) : Nat := (l.map srvSize).sum

def cbsAt (idx : Nat) : List DisSrv → List SrvCb
  | [] => []
  | s :: l => cbAt idx s.srvData.bytes.length s.nums :: cbsAt (idx + srvSize s) l

theorem dbSize_cons (s : DisSrv) (l : List DisSrv) : dbSize (s :: l) = srvSize s + dbSize l := rfl

theorem srvSize_pos (s : DisSrv) : 0 < srvSize s := Nat.succ_pos _

theorem length_le_dbSize (l : List DisSrv) : l.length ≤ dbSize l := by
  induction l with
  | nil => exact Nat.le_refl _
  | cons s l ih =>
    have := srvSize_pos s
    rw [length_cons, dbSize_cons]
    omega

theorem tableLen_eq (l : List DisSrv) : tableLen l = dbSize l % 65536 := by
  have hfold : ∀ i, i < 65536 →
      l.foldl (fun idx s => w16 (idx + srvSize s)) i = (i + dbSize l) % 65536 := by
    induction l with
    | nil => exact fun i hi => (Nat.mod_eq_of_lt hi).symm
    | cons s l ih =>
      intro i hi
      rw [foldl_cons, ih (w16 (i + srvSize s)) (Nat.mod_lt _ (by decide)), dbSize_cons, w16]
      omega
  rw [tableLen, hfold 0 (by decide), Nat.zero_add]

theorem length_bytes (hs : s.Small) : s.bytes.length = srvSize s := by
  obtain ⟨hn1, hn2, hn3, hn4⟩ := hs.nums
  have hnums : s.nums.bytes.length = 4 := rfl
  simp only [DisSrv.bytes, srvSize, length_append, Codec.length_encodeTable, hnums, hn1, hn2,
    hn3, hn4]
  omega

section

variable {l : List DisSrv} {table : List UInt8} {idx : Nat}

theorem genLoop_ok {mem : Nat → Bool} {cbs : List SrvCb} (hs : ∀ s ∈ l, s.Small)
    (h : idx + dbSize l ≤ table.length) (hlen : table.length < 65536) :
    genLoop mem table idx cbs l = .ok none ∨
      ∃ table', genLoop mem table idx cbs l =
          .ok (some (table', idx + dbSize l, cbs ++ cbsAt idx l)) ∧
        table'.length = table.length ∧ Holds table' idx (l.flatMap (·.bytes)) ∧
        ∀ q c, q + c.length ≤ idx → Holds table q c → Holds table' q c := by
  induction l generalizing table idx cbs with
  | nil =>
    refine .inr ⟨table, ?_, rfl, holds_nil, fun _ _ _ hc => hc⟩
    rw [cbsAt, append_nil]
    rfl
  | cons s l ih =>
    rw [dbSize_cons] at h
    have hsmall := hs s mem_cons_self
    obtain ⟨table1, hgen, hlen1, hhold1, hframe1⟩ := @genSrv_ok table idx s hsmall (by omega) hlen
    unfold genLoop
    cases hmem : mem cbs.length with
    | false => exact .inl rfl
    | true =>
      rw [if_pos rfl, hgen]
      simp only [bind, Except.bind]
      rw [if_pos ⟨rfl, by omega⟩]
      have hnext := @ih table1 (idx + srvSize s)
        (cbs ++ [cbAt idx s.srvData.bytes.length s.nums])
        (fun s' hs' => hs s' (mem_cons_of_mem _ hs')) (by omega) (by omega)
      obtain hnone | ⟨table', hloop, hlen', hhold, hframe⟩ := hnext
      . exact .inl hnone
      . refine .inr ⟨table', ?_, hlen'.trans hlen1, ?_, fun q c hq hc => ?_⟩
        . rw [hloop, dbSize_cons, Nat.add_assoc, cbsAt, append_assoc]
          rfl
        . rw [flatMap_cons]
          refine holds_append.mpr ⟨hframe _ _ (by have := length_bytes hsmall; omega)
            hhold1, ?_⟩
          rw [length_bytes hsmall]
          exact hhold
        . exact hframe q c (by omega) (hframe1 q c (.inl hq) hc)

theorem loadLoop_ok {known : AttrUuid → Bool} {fuel : Nat} {cbs : List SrvCb}
    (hknown : ∀ s ∈ l, known s.srvData.uuid = true) (hs : ∀ s ∈ l, s.Small)
    (h : Holds table idx (l.flatMap (·.bytes))) (hend : idx + dbSize l = table.length)
    (hlen : table.length < 65536) (hfuel : l.length < fuel) :
    loadLoop (fun _ => true) known table fuel idx cbs =
      .ok (some (table.length, cbs ++ cbsAt idx l)) := by
  induction l generalizing idx cbs fuel with
  | nil =>
    obtain ⟨fuel, rfl⟩ := Nat.exists_eq_succ_of_ne_zero (Nat.ne_of_gt hfuel)
    have hidx : idx = table.length := hend
    rw [loadLoop, if_neg (by omega), cbsAt, append_nil, hidx]
  | cons s l ih =>
    obtain ⟨fuel, rfl⟩ := Nat.exists_eq_succ_of_ne_zero (Nat.ne_of_gt (Nat.zero_lt_of_lt hfuel))
    have hsmall := hs s mem_cons_self
    have hpos := srvSize_pos s
    rw [dbSize_cons] at hend
    rw [length_cons] at hfuel
    rw [flatMap_cons] at h
    obtain ⟨hsrv, hrest⟩ := holds_append.mp h
    rw [length_bytes hsmall] at hrest
    have hload := loadSrv_ok (hknown s mem_cons_self) hsmall hsrv (by omega)
    rw [loadLoop, if_pos (by omega), if_pos rfl, hload]
    simp only [bind, Except.bind]
    rw [ih (fun s' hs' => hknown s' (mem_cons_of_mem _ hs'))
      (fun s' hs' => hs s' (mem_cons_of_mem _ hs')) hrest (by omega) (by omega), cbsAt,
      append_assoc]
    rfl

theorem read_cbsAt (hs : ∀ s ∈ l, s.Small) (h : Holds table idx (l.flatMap (·.bytes))) :
    (cbsAt idx l).map (·.read table) = l.map (·.srv) := by
  induction l generalizing idx with
  | nil => rfl
  | cons s l ih =>
    have hsmall := hs s mem_cons_self
    rw [flatMap_cons] at h
    obtain ⟨hsrv, hrest⟩ := holds_append.mp h
    rw [length_bytes hsmall] at hrest
    rw [cbsAt, map_cons, map_cons, read_cbAt hsmall hsrv,
      ih (fun s' hs' => hs s' (mem_cons_of_mem _ hs')) hrest]

end

structure Fits (disList : List DisSrv) : Prop where
  ne_nil : disList ≠ []
  small : ∀ s ∈ disList, s.Small
  size : dbSize disList < 65536

def RoundTrips (disList : List DisSrv) : Prop :=
  ∀ mem, match gattcStorageSrvListGen mem disList with
    | .error e => e = .endless
    | .ok none => True
    | .ok (some l) => ∀ known : AttrUuid → Bool, (∀ s ∈ disList, known s.srvData.uuid = true) →
      gattcStorageLoad (fun _ => true) known l.srvTable = .ok (some l) ∧
        l.read = disList.map (·.srv)

theorem roundTrips_of_fits (h : Fits disList) : RoundTrips disList := by
  intro mem
  unfold gattcStorageSrvListGen
  rw [if_neg h.ne_nil]
  by_cases hcount : disList.length < 256
  . rw [if_pos hcount]
    cases hmem : mem.table with
    | false => trivial
    | true =>
      have hsize : tableLen disList = dbSize disList := by
        rw [tableLen_eq, Nat.mod_eq_of_lt h.size]
      have hlen : (List.replicate (tableLen disList) (0 : UInt8)).length = dbSize disList := by
        rw [length_replicate, hsize]
      have hsz := h.size
      rw [if_pos rfl]
      obtain hnone | ⟨table', hloop, hlen', hhold, -⟩ :=
        @genLoop_ok disList (List.replicate (tableLen disList) 0) 0 mem.srv [] h.small
          (by rw [hlen]; omega) (by rw [hlen]; exact hsz)
      . rw [hnone]
        trivial
      . rw [hlen] at hlen'
        rw [hloop]
        simp only [bind, Except.bind, Nat.zero_add, nil_append]
        rw [if_pos hlen'.symm]
        intro known hknown
        refine ⟨?_, read_cbsAt h.small hhold⟩
        have hload := @loadLoop_ok disList table' 0 known (table'.length + 1) [] hknown h.small
          hhold (by rw [hlen', Nat.zero_add]) (by rw [hlen']; exact hsz)
          (by have := length_le_dbSize disList; omega)
        simp only [gattcStorageLoad, hload, bind, Except.bind, nil_append]
        rw [if_pos]
        . rfl
        . refine ⟨trivial, ?_⟩
          cases hl : disList with
          | nil => exact absurd hl h.ne_nil
          | cons s l => exact cons_ne_nil _ _
  . rw [if_neg hcount]

section

variable {table table' : List UInt8} {idx idx' : Nat} {s : DisSrv} {cb : SrvCb}

theorem storeBytes_le (h : storeBytes table idx bs = .ok (table', idx'))
    (hlen : table.length < 65536) (hidx : idx ≤ table.length) :
    table'.length = table.length ∧ idx' = w16 (idx + bs.length) ∧
      idx + bs.length ≤ table.length := by
  induction bs generalizing table idx with
  | nil =>
    cases h
    exact ⟨rfl, (w16_of_lt (Nat.lt_of_le_of_lt hidx hlen)).symm, hidx⟩
  | cons b bs ih =>
    obtain ⟨table1, hcopy, hrest⟩ := bind_ok.mp h
    obtain ⟨hle, hlen1, -, -⟩ := copyTo_ok hcopy
    rw [length_singleton] at hle
    rw [w16_of_lt (by omega)] at hrest
    obtain ⟨hlen', hidx', hle'⟩ := ih hrest (by omega) (by omega)
    rw [length_cons]
    refine ⟨hlen'.trans hlen1, ?_, by omega⟩
    rw [hidx']
    congr 1
    omega

theorem tableAt_of_room {num : UInt8} {width len : Nat} (hidx : idx ≤ len)
    (hroom : num ≠ 0 → ∃ p, (tableAt idx num width).1 = some p ∧
      p + (num.toNat - 1) * width + width ≤ len) :
    idx + num.toNat * width ≤ len := by
  by_cases h0 : num = 0
  . subst h0
    simpa using hidx
  . obtain ⟨p, hp, hle⟩ := hroom h0
    rw [tableAt, if_neg h0, Option.some.injEq] at hp
    subst hp
    have hpos : num.toNat ≠ 0 := fun hz => h0 (UInt8.toNat_inj.mp hz)
    obtain ⟨n, hn⟩ := Nat.exists_eq_succ_of_ne_zero hpos
    rw [hn] at hle ⊢
    rw [Nat.succ_mul]
    simp only [Nat.succ_eq_add_one, Nat.add_sub_cancel] at hle
    omega

theorem room_of_fill (hnum : num = UInt8.ofNat n)
    (h : ∀ i < n, ∃ p, base = some p ∧ p + (0 + UInt8.ofNat i).toNat * width + width ≤ len)
    (h0 : num ≠ 0) : ∃ p, base = some p ∧ p + (num.toNat - 1) * width + width ≤ len := by
  have hpos : num.toNat ≠ 0 := fun hz => h0 (UInt8.toNat_inj.mp hz)
  have hlt := num.toNat_lt
  have hle : num.toNat ≤ n := by
    rw [hnum, UInt8.toNat_ofNat']
    exact Nat.mod_le _ _
  obtain ⟨p, hp, hroom⟩ := h (num.toNat - 1) (by omega)
  rw [UInt8.zero_add, toNat_ofNat_lt (by omega)] at hroom
  exact ⟨p, hp, hroom⟩

theorem genSrv_le (h : genSrv table idx s = .ok (table', idx', cb)) (hlen : table.length < 65536) :
    table'.length = table.length ∧ idx' = idx + srvSize s ∧ idx' ≤ table.length ∧
      cb = cbAt idx s.srvData.bytes.length s.nums := by
  unfold genSrv at h
  obtain ⟨t1, hcopy, h⟩ := bind_ok.mp h
  obtain ⟨hle1, hlen1, -, -⟩ := copyTo_ok hcopy
  obtain ⟨⟨t2, numsEnd⟩, hstore, h⟩ := bind_ok.mp h
  rw [w16_of_lt (by omega)] at hstore
  obtain ⟨hlen2, hnumsEnd, hle2⟩ := storeBytes_le hstore (by omega) (by omega)
  have hnums : s.nums.bytes.length = 4 := rfl
  rw [hnums] at hnumsEnd hle2
  rw [w16_of_lt (by omega)] at hnumsEnd
  subst hnumsEnd
  simp only at h
  generalize htab : tablesAt idx (idx + s.srvData.bytes.length + 4) s.nums = r at h
  obtain ⟨cb0, tablesEnd⟩ := r
  simp only at h
  have hcb0 : cb0 = (tablesAt idx (idx + s.srvData.bytes.length + 4) s.nums).1 := by rw [htab]
  obtain ⟨⟨t3, m1, m2⟩, hfill3, h⟩ := bind_ok.mp h
  obtain ⟨⟨t4, m3, m4⟩, hfill4, h⟩ := bind_ok.mp h
  obtain ⟨hlen3, hm1, hm2, hr1, hr2⟩ := fill_ok hfill3 (length_bank_inc s.includeSrvQueue)
  obtain ⟨hlen4, hm3, hm4, hr3, hr4⟩ := fill_ok hfill4 (length_bank_char s.charQueue)
  have hn := s.nums_srv
  have hn1 : s.nums.inc16 = .ofNat (bank true (s.includeSrvQueue.map (·.item))).length := by
    rw [bank_inc16, length_map, hn]; rfl
  have hn2 : s.nums.inc128 = .ofNat (bank false (s.includeSrvQueue.map (·.item))).length := by
    rw [bank_inc128, length_map, hn]; rfl
  have hn3 : s.nums.char16 = .ofNat (bank true (s.charQueue.map (·.item))).length := by
    rw [bank_char16, length_map, hn]; rfl
  have hn4 : s.nums.char128 = .ofNat (bank false (s.charQueue.map (·.item))).length := by
    rw [bank_char128, length_map, hn]; rfl
  have hlen3' : t3.length = table.length := by omega
  have hlen2' : t2.length = table.length := by omega
  rw [hlen2'] at hr1 hr2
  rw [hlen3'] at hr3 hr4
  -- each table is inside of the area, so that the index of the next one is right
  have hroom1 := room_of_fill hn1 hr1
  rw [hcb0] at hroom1
  have hle3 : (places idx s.srvData.bytes.length s.nums).inc128 ≤ table.length :=
    @tableAt_of_room (idx + s.srvData.bytes.length + 4) _ _ _ (by omega) hroom1
  have heq1 := @tableAt_eq (idx + s.srvData.bytes.length + 4) attrIncludeUuid16.width s.nums.inc16
    (Nat.lt_of_le_of_lt hle3 hlen)
  have hbase2 : cb0.inc128Table =
      (tableAt (places idx s.srvData.bytes.length s.nums).inc128 s.nums.inc128
        attrIncludeUuid128.width).1 := by
    simp only [hcb0, tablesAt, heq1]
    rfl
  have hroom2 := room_of_fill hn2 hr2
  rw [hbase2] at hroom2
  have hle4 : (places idx s.srvData.bytes.length s.nums).char16 ≤ table.length :=
    tableAt_of_room hle3 hroom2
  have heq2 := @tableAt_eq (places idx s.srvData.bytes.length s.nums).inc128
    attrIncludeUuid128.width s.nums.inc128 (Nat.lt_of_le_of_lt hle4 hlen)
  simp only [places] at heq2
  have hbase3 : cb0.char16Table =
      (tableAt (places idx s.srvData.bytes.length s.nums).char16 s.nums.char16
        attrChar16Cb.width).1 := by
    simp only [hcb0, tablesAt, heq1, heq2]
    rfl
  have hroom3 := room_of_fill hn3 hr3
  rw [hbase3] at hroom3
  have hle5 : (places idx s.srvData.bytes.length s.nums).char128 ≤ table.length :=
    tableAt_of_room hle4 hroom3
  have heq3 := @tableAt_eq (places idx s.srvData.bytes.length s.nums).char16
    attrChar16Cb.width s.nums.char16 (Nat.lt_of_le_of_lt hle5 hlen)
  simp only [places] at heq3
  have hbase4 : cb0.char128Table =
      (tableAt (places idx s.srvData.bytes.length s.nums).char128 s.nums.char128
        attrChar128Cb.width).1 := by
    simp only [hcb0, tablesAt, heq1, heq2, heq3]
    rfl
  have hroom4 := room_of_fill hn4 hr4
  rw [hbase4] at hroom4
  have hle6 : (places idx s.srvData.bytes.length s.nums).stop ≤ table.length :=
    tableAt_of_room hle5 hroom4
  have htables := @tablesAt_eq idx s.srvData.bytes.length s.nums (Nat.lt_of_le_of_lt hle6 hlen)
  rw [htables, Prod.mk.injEq] at htab
  obtain ⟨rfl, rfl⟩ := htab
  cases h
  rw [stop_places] at hle6 ⊢
  refine ⟨Eq.trans hlen4 hlen3', rfl, hle6, ?_⟩
  have hcounts : (⟨m1, m2, m3, m4⟩ : Nums) = s.nums := by
    rw [hm1, hm2, hm3, hm4, ← hn1, ← hn2, ← hn3, ← hn4]
    simp
  rw [hcounts]
  rfl

theorem copyTo_not_endless : copyTo table p b ≠ .error .endless := by
  unfold copyTo
  split <;> exact fun h => by cases h

theorem storeBytes_not_endless : storeBytes table idx bs ≠ .error .endless := by
  induction bs generalizing table idx with
  | nil => exact fun h => by cases h
  | cons b bs ih =>
    intro h
    obtain h | ⟨table1, -, h⟩ := bind_error.mp h
    . exact copyTo_not_endless h
    . exact ih h

theorem storeAt_not_endless : storeAt table base offset b ≠ .error .endless := by
  cases base with
  | none => exact fun h => by cases h
  | some p => exact copyTo_not_endless

theorem fill_not_endless : fill base₁ base₂ width₁ width₂ items n₁ n₂ table ≠ .error .endless := by
  induction items generalizing table n₁ n₂ with
  | nil => exact fun h => by cases h
  | cons item items ih =>
    obtain ⟨k, b⟩ := item
    intro h
    cases k with
    | true =>
      obtain h | ⟨table1, -, h⟩ := bind_error.mp h
      . exact storeAt_not_endless h
      . exact ih h
    | false =>
      obtain h | ⟨table1, -, h⟩ := bind_error.mp h
      . exact storeAt_not_endless h
      . exact ih h

theorem genSrv_not_endless : genSrv table idx s ≠ .error .endless := by
  intro h
  unfold genSrv at h
  obtain h | ⟨t1, -, h⟩ := bind_error.mp h
  . exact copyTo_not_endless h
  obtain h | ⟨⟨t2, numsEnd⟩, -, h⟩ := bind_error.mp h
  . exact storeBytes_not_endless h
  simp only at h
  generalize tablesAt idx numsEnd s.nums = r at h
  obtain ⟨cb0, tablesEnd⟩ := r
  obtain h | ⟨⟨t3, m1, m2⟩, -, h⟩ := bind_error.mp h
  . exact fill_not_endless h
  obtain h | ⟨⟨t4, m3, m4⟩, -, h⟩ := bind_error.mp h
  . exact fill_not_endless h
  cases h

theorem genLoop_le {l : List DisSrv} {cbs : List SrvCb} (hlen : table.length < 65536)
    (hidx : idx ≤ table.length) :
    (∃ e, genLoop (fun _ => true) table idx cbs l = .error e ∧ e ≠ .endless) ∨
      ∃ table', genLoop (fun _ => true) table idx cbs l =
          .ok (some (table', idx + dbSize l, cbs ++ cbsAt idx l)) ∧
        table'.length = table.length ∧ idx + dbSize l ≤ table.length := by
  induction l generalizing table idx cbs with
  | nil =>
    refine .inr ⟨table, ?_, rfl, hidx⟩
    rw [cbsAt, append_nil]
    rfl
  | cons s l ih =>
    unfold genLoop
    rw [if_pos rfl]
    cases hgen : genSrv table idx s with
    | error e => exact .inl ⟨e, rfl, fun he => genSrv_not_endless (he ▸ hgen)⟩
    | ok r =>
      obtain ⟨table1, idx1, cb⟩ := r
      obtain ⟨hlen1, hidx1, hle1, hcb⟩ := genSrv_le hgen hlen
      simp only [bind, Except.bind]
      rw [if_pos ⟨by rw [hcb]; rfl, by omega⟩]
      obtain hfault | ⟨table', hloop, hlen', hle'⟩ :=
        @ih table1 idx1 (cbs ++ [cb]) (by omega) (by omega)
      . exact .inl hfault
      . subst hidx1 hcb
        rw [dbSize_cons]
        refine .inr ⟨table', ?_, hlen'.trans hlen1, by omega⟩
        rw [hloop, Nat.add_assoc, cbsAt, append_assoc]
        rfl

end

theorem small_of_read {table : List UInt8} {idx srvLen : Nat} {n : Nums} {s : DisSrv}
    (h : (cbAt idx srvLen n).read table = s.srv) : s.Small := by
  have hlen : ∀ {α : Type} (c : Codec α) (p n : Nat), (c.readTable table p n).length = n := by
    intro α c p n
    induction n generalizing p with
    | zero => rfl
    | succ n ih => rw [Codec.readTable, length_cons, ih]
  constructor
  . rw [← h]
    simpa [SrvCb.read, hlen] using UInt8.toNat_lt _
  . rw [← h]
    simpa [SrvCb.read, hlen] using UInt8.toNat_lt _
  . rw [← h]
    simpa [SrvCb.read, hlen] using UInt8.toNat_lt _
  . rw [← h]
    simpa [SrvCb.read, hlen] using UInt8.toNat_lt _

theorem small_of_reads
    (h : (cbsAt idx l).map (·.read table) = l.map (·.srv)) : ∀ s ∈ l, s.Small := by
  induction l generalizing idx with
  | nil => simp
  | cons s l ih =>
    rw [cbsAt, map_cons, map_cons, List.cons.injEq] at h
    intro s' hs'
    obtain rfl | hs' := mem_cons.mp hs'
    . exact small_of_read h.1
    . exact ih h.2 s' hs'

theorem fits_of_roundTrips (h : RoundTrips disList)
    (hcount : disList.length < 256) : Fits disList := by
  have hall := h ⟨true, fun _ => true⟩
  unfold gattcStorageSrvListGen at hall
  by_cases hnil : disList = []
  . rw [if_pos hnil] at hall
    obtain ⟨hload, -⟩ := hall (fun _ => true) fun _ _ => rfl
    cases hload
  . rw [if_neg hnil, if_pos hcount, if_pos rfl] at hall
    have hmod := tableLen_eq disList
    have hlen : (List.replicate (tableLen disList) (0 : UInt8)).length = tableLen disList :=
      length_replicate
    have hlt : tableLen disList < 65536 := by
      rw [hmod]
      exact Nat.mod_lt _ (by decide)
    obtain ⟨e, hloop, he⟩ | ⟨table', hloop, hlen', hle⟩ :=
      @genLoop_le (List.replicate (tableLen disList) 0) 0 disList [] (by omega) (Nat.zero_le _)
    . rw [hloop] at hall
      exact absurd hall he
    . rw [Nat.zero_add, hlen] at hle
      have hsize : dbSize disList < 65536 := by omega
      have heq : dbSize disList = tableLen disList := by
        rw [hmod, Nat.mod_eq_of_lt hsize]
      rw [hloop] at hall
      simp only [bind, Except.bind, Nat.zero_add, nil_append] at hall
      rw [if_pos (by rw [hlen', hlen, heq])] at hall
      obtain ⟨-, hread⟩ := hall (fun _ => true) fun _ _ => rfl
      exact ⟨hnil, small_of_reads hread, hsize⟩

theorem roundTrips_iff (disList : List DisSrv) :
    RoundTrips disList ↔ 256 ≤ disList.length ∨ Fits disList := by
  constructor
  . intro h
    by_cases hcount : disList.length < 256
    . exact .inr (fits_of_roundTrips h hcount)
    . exact .inl (by omega)
  . rintro (hcount | hfits)
    . intro mem
      unfold gattcStorageSrvListGen
      rw [if_neg (by rintro rfl; exact absurd hcount (by decide)), if_neg (by omega)]
    . exact roundTrips_of_fits hfits

def withIncludes : Nat → DisSrv
  | 0 => .new (.uuid16 ⟨⟨1, 0, 1⟩, 0xffff, 0x1801⟩) rfl
  | n + 1 =>
    gattcStorageAddInclude (withIncludes n) (.uuid16 ⟨⟨5, 0, 2⟩, 0x10, 0x1f, 0x180f, 0⟩)
      typed_include

theorem length_withIncludes (n : Nat) : (withIncludes n).srv.inc16.length = n := by
  induction n with
  | zero => rfl
  | succ n ih =>
    have hsnoc : (withIncludes (n + 1)).srv.inc16 =
        (withIncludes n).srv.inc16 ++ [⟨⟨5, 0, 2⟩, 0x10, 0x1f, 0x180f, 0⟩] :=
      filterMap_append
    rw [hsnoc, length_append, ih]
    rfl

theorem not_roundTrips : ¬RoundTrips [withIncludes 256] := by
  intro h
  have hfits := fits_of_roundTrips h (by decide)
  have hsmall := (hfits.small _ mem_cons_self).inc16
  rw [length_withIncludes] at hsmall
  exact absurd hsmall (by decide)

end GattcStorage
