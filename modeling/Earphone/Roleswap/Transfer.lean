import Earphone.Roleswap.RecvSafe
import Mathlib.Algebra.Order.BigOperators.Group.List
import Mathlib.Algebra.Order.Group.Nat

namespace Roleswap

open Layout List

abbrev Answers := Data → Bytes × Bool

def asked : DataType → Bool
  | .acl | .sco | .sm | .l2c | .rfcCtrl | .btRfc => false
  | _ => true

def refresh (answers : Answers) (data : Data) : Data :=
  if asked data.type then { data with u := (answers data).1 } else data

def answered (answers : Answers) (data : Data) : Bool := !asked data.type || (answers data).2

def Record.bytes (r : Record) : List UInt8 :=
  [UInt8.ofNat r.module, UInt8.ofNat r.submodule, UInt8.ofNat r.len, UInt8.ofNat (r.len >>> 8)] ++
    (List.range r.len).map r.info

structure Message where
  allocated : Nat
  recs : List Record

def Message.bytes (m : Message) : List UInt8 := m.recs.flatMap Record.bytes

def buildMessage (size : DataType → Option Nat) (record : Data → Record) (answers : Answers)
    (infoList : List Data) : Option Message :=
  let len := infoList.foldl
    (fun len data => match size data.type with
      | none => len
      | some n => (len + (4 + n)) % 2 ^ 16) 0
  if len = 0 then
    none
  else
    some
      { allocated := len
        recs := (infoList.filter fun data => (size data.type).isSome && answered answers data).map
          fun data => record (refresh answers data) }

def transferCodes (data : Data) : Nat × Nat :=
  match data.type with
  | .acl => (0x00, 0)
  | .sco => (0x01, 0)
  | .sm => (0x02, 0)
  | .l2c => (0x03, 0)
  | .rfcCtrl => (0x04, 0)
  | .rfcData => (0x04, 2)
  | .a2dp => if Struct.a2dpInfo.get .streamCid data.u = 0 then (0x05, 0) else (0x05, 2)
  | .avrcp => (0x06, 0)
  | .hfp => (0x07, 0)
  | .spp => (0x08, 0)
  | .pbap => (0x09, 0)
  | .hidDevice => (0x0A, 0)
  | .hidHost => (0x0B, 0)
  | .iap => (0x0C, 0)
  | .avp => (0x0D, 0)
  | .btRfc => (0x0F, 0)
  | .att => (0x10, 0)

def transferRecord (data : Data) : Record :=
  { module := (transferCodes data).1
    submodule := (transferCodes data).2
    len := data.type.info.size
    info := data.u }

theorem transferCodes_lt (data : Data) :
    (transferCodes data).1 < 2 ^ 8 ∧ (transferCodes data).2 < 2 ^ 8 := by
  unfold transferCodes
  split
  case h_7 => split <;> decide
  all_goals decide

def btRoleswapTransfer : Answers → List Data → Option Message :=
  buildMessage (fun type => some type.info.size) transferRecord

def syncCodes : DataType → Option (Nat × Nat)
  | .acl => some (0x00, 2)
  | .rfcData => some (0x04, 4)
  | .spp => some (0x08, 2)
  | .a2dp => some (0x05, 4)
  | .avrcp => some (0x06, 2)
  | .hfp => some (0x07, 2)
  | .pbap => some (0x09, 2)
  | .hidDevice => some (0x0A, 2)
  | .hidHost => some (0x0B, 2)
  | .iap => some (0x0C, 2)
  | .avp => some (0x0D, 2)
  | .att => some (0x10, 2)
  | _ => none

theorem syncCodes_lt (h : syncCodes type = some codes) : codes.1 < 2 ^ 8 ∧ codes.2 < 2 ^ 8 := by
  cases type <;> cases h <;> decide

def syncFields (type : DataType) : List Field :=
  .bdAddr :: (transactKey type).toList ++ (transactStruct type).2

def syncRecord (bdAddr : Nat) (data : Data) : Record :=
  -- The address in the update of an iAP channel is the one of the link.
  let u := if data.type = .iap then Struct.iapInfo.set .bdAddr bdAddr data.u else data.u
  { module := ((syncCodes data.type).getD (0, 0)).1
    submodule := ((syncCodes data.type).getD (0, 0)).2
    len := (transactStruct data.type).1.size
    info := copyFields data.type.info (transactStruct data.type).1 (syncFields data.type) u
      fun _ => 0 }

def btRoleswapSync (bdAddr : Nat) : Answers → List Data → Option Message :=
  buildMessage (fun type => (syncCodes type).map fun _ => (transactStruct type).1.size)
    (syncRecord bdAddr)

def Message.buffer (m : Message) : Bytes := fun i => m.bytes.getD i 0

structure Record.Same (r r' : Record) : Prop where
  module : r.module = r'.module
  submodule : r.submodule = r'.submodule
  len : r.len = r'.len
  info : ∀ i < r.len, r.info i = r'.info i

structure Message.Fits (m : Message) : Prop where
  fits : m.bytes.length ≤ m.allocated
  parsed : List.Forall₂ Record.Same (records m.buffer 0 m.bytes.length) m.recs

theorem bytes_length (r : Record) : r.bytes.length = 4 + r.len := by
  unfold Record.bytes
  rw [length_append, length_map, length_range]
  rfl

theorem getD_append_right {l l' : List UInt8} {n i : Nat} (h : l.length = n) :
    (l ++ l').getD (n + i) 0 = l'.getD i 0 := by
  subst h
  simp [List.getD, getElem?_append_right]

theorem getD_append_left {l l' : List UInt8} {i : Nat} (h : i < l.length) :
    (l ++ l').getD i 0 = l.getD i 0 := by
  simp [List.getD, getElem?_append_left h]

theorem records_bytes (recs : List Record)
    (hrecs : ∀ r ∈ recs, r.module < 2 ^ 8 ∧ r.submodule < 2 ^ 8 ∧ r.len < 2 ^ 16) (data : Bytes)
    (start : Nat) (hdata : ∀ i < (recs.flatMap Record.bytes).length,
      data (start + i) = (recs.flatMap Record.bytes).getD i 0) :
    List.Forall₂ Record.Same (records data start (recs.flatMap Record.bytes).length) recs := by
  induction recs generalizing start with
  | nil =>
    unfold records
    exact List.Forall₂.nil
  | cons r recs ih =>
    obtain ⟨hmodule, hsubmodule, hlen⟩ := hrecs r mem_cons_self
    rw [flatMap_cons] at hdata ⊢
    rw [length_append, bytes_length] at hdata ⊢
    have hbyte : ∀ i < 4 + r.len, data (start + i) = r.bytes.getD i 0 := by
      intro i hi
      rw [hdata i (by omega)]
      exact getD_append_left (by rw [bytes_length]; exact hi)
    have h0 : data start = UInt8.ofNat r.module := hbyte 0 (by omega)
    have h1 : data (start + 1) = UInt8.ofNat r.submodule := hbyte 1 (by omega)
    have h2 : data (start + 2) = UInt8.ofNat r.len := hbyte 2 (by omega)
    have h3 : data (start + 3) = UInt8.ofNat (r.len >>> 8) := hbyte 3 (by omega)
    -- the length has its low byte first
    have hload : load ⟨start + 2, 2⟩ data = r.len := by
      unfold load loadFrom loadFrom loadFrom
      rw [h2, h3, UInt8.toNat_ofNat', UInt8.toNat_ofNat', Nat.shiftRight_eq_div_pow]
      omega
    unfold records
    rw [if_neg (by omega)]
    dsimp only
    rw [hload, if_neg (by omega)]
    refine List.Forall₂.cons ⟨?_, ?_, rfl, ?_⟩ ?_
    . rw [h0, UInt8.toNat_ofNat']
      exact Nat.mod_eq_of_lt hmodule
    . rw [h1, UInt8.toNat_ofNat']
      exact Nat.mod_eq_of_lt hsubmodule
    . intro i (hi : i < r.len)
      have hinfo := hbyte (4 + i) (by omega)
      change data (start + 4 + i) = r.info i
      rw [Nat.add_assoc, hinfo]
      unfold Record.bytes
      rw [getD_append_right (n := 4) rfl]
      simp [List.getD, getElem?_map, getElem?_range hi]
    . have hrest : 4 + r.len + (recs.flatMap Record.bytes).length - (r.len + 4) =
          (recs.flatMap Record.bytes).length := by omega
      rw [hrest]
      apply ih (fun r' hr' => hrecs r' (mem_cons_of_mem _ hr'))
      intro i hi
      have hnext := hdata (4 + r.len + i) (by omega)
      rw [getD_append_right (bytes_length r)] at hnext
      rw [← hnext]
      congr 1
      omega

def total (size : DataType → Option Nat) (infoList : List Data) : Nat :=
  (infoList.map fun data => ((size data.type).map (4 + ·)).getD 0).sum

theorem le_total (hmem : data ∈ infoList) (hsize : size data.type = some n) :
    4 + n ≤ total size infoList := by
  unfold total
  apply le_sum_of_mem
  rw [mem_map]
  refine ⟨data, hmem, ?_⟩
  rw [hsize]
  rfl

def transferTotal : List Data → Nat := total fun type => some type.info.size

def syncTotal : List Data → Nat :=
  total fun type => (syncCodes type).map fun _ => (transactStruct type).1.size

section

variable {size : DataType → Option Nat} {record : Data → Record} {answers : Answers}

theorem total_eq (infoList : List Data) :
    infoList.foldl
      (fun len data => match size data.type with
        | none => len
        | some n => (len + (4 + n)) % 2 ^ 16) 0 = total size infoList % 2 ^ 16 := by
  have hgeneral : ∀ (l : List Data) (n : Nat), n < 2 ^ 16 → l.foldl
      (fun len data => match size data.type with
        | none => len
        | some n => (len + (4 + n)) % 2 ^ 16) n = (n + total size l) % 2 ^ 16 := by
    intro l
    induction l with
    | nil =>
      intro n hn
      exact (Nat.mod_eq_of_lt hn).symm
    | cons data l ih =>
      intro n hn
      rw [foldl_cons]
      cases hsize : size data.type with
      | none =>
        dsimp only
        rw [ih n hn]
        simp [total, hsize]
      | some k =>
        dsimp only
        rw [ih _ (Nat.mod_lt _ (by decide))]
        simp only [total, map_cons, sum_cons, hsize, Option.map_some, Option.getD_some]
        omega
  have := hgeneral infoList 0 (by decide)
  rw [Nat.zero_add] at this
  exact this

theorem refresh_type (answers : Answers) (data : Data) :
    (refresh answers data).type = data.type := by
  unfold refresh
  split <;> rfl

theorem length_le_total (hlen : ∀ data n, size data.type = some n → (record data).len = n)
    (infoList : List Data) :
    (((infoList.filter fun data => (size data.type).isSome && answered answers data).map
      fun data => record (refresh answers data)).flatMap Record.bytes).length ≤
        total size infoList ∧
    ((∀ data, answered answers data = true) →
      (((infoList.filter fun data => (size data.type).isSome && answered answers data).map
        fun data => record (refresh answers data)).flatMap Record.bytes).length =
          total size infoList) := by
  induction infoList with
  | nil => simp [total]
  | cons data l ih =>
    have htotal : total size (data :: l) =
        ((size data.type).map (4 + ·)).getD 0 + total size l := by simp [total]
    rw [htotal]
    cases hsize : size data.type with
    | none =>
      rw [filter_cons_of_neg (by simp [hsize])]
      simp only [Option.map_none, Option.getD_none, Nat.zero_add]
      exact ih
    | some n =>
      have hrecord : (record (refresh answers data)).len = n :=
        hlen _ n (by rw [refresh_type]; exact hsize)
      simp only [Option.map_some, Option.getD_some]
      cases hanswered : answered answers data with
      | true =>
        rw [filter_cons_of_pos (by simp [hsize, hanswered]), map_cons, flatMap_cons,
          length_append, bytes_length, hrecord]
        refine ⟨by omega, ?_⟩
        intro hall
        rw [ih.2 hall]
      | false =>
        rw [filter_cons_of_neg (by simp [hanswered])]
        refine ⟨by omega, ?_⟩
        intro hall
        rw [hall data] at hanswered
        cases hanswered

theorem buildMessage_fits_iff
    (hrecord : ∀ data n, size data.type = some n → (record data).len = n ∧
      (record data).module < 2 ^ 8 ∧ (record data).submodule < 2 ^ 8) (infoList : List Data) :
    (∀ answers, ∀ m ∈ buildMessage size record answers infoList, m.Fits) ↔
      total size infoList < 2 ^ 16 ∨ total size infoList % 2 ^ 16 = 0 := by
  have hlen := fun data n h => (hrecord data n h).1
  unfold buildMessage
  simp only [total_eq]
  constructor
  . intro h
    by_cases hzero : total size infoList % 2 ^ 16 = 0
    . exact .inr hzero
    . left
      have hall : ∀ data, answered (fun data => (data.u, true)) data = true := by
        simp [answered]
      have hfits := (h (fun data => (data.u, true)) _ (by rw [if_neg hzero]; rfl)).fits
      unfold Message.bytes at hfits
      dsimp only at hfits
      rw [(length_le_total hlen infoList).2 hall] at hfits
      have := Nat.mod_lt (total size infoList) (show 2 ^ 16 > 0 by decide)
      omega
  . intro h answers m hm
    split at hm
    . cases hm
    . next hne =>
      have hlt : total size infoList < 2 ^ 16 := by omega
      cases hm
      have hle := (@length_le_total _ _ answers hlen infoList).1
      refine ⟨?_, ?_⟩
      . rw [Nat.mod_eq_of_lt hlt]
        exact hle
      . apply records_bytes
        . intro r hr
          obtain ⟨data, hdata, rfl⟩ := mem_map.mp hr
          have hsome := (mem_filter.mp hdata).2
          simp only [Bool.and_eq_true] at hsome
          obtain ⟨n, hn⟩ := Option.isSome_iff_exists.mp hsome.1
          obtain ⟨hrecordlen, hmodule, hsubmodule⟩ :=
            hrecord (refresh answers data) n (by rw [refresh_type]; exact hn)
          have hdatale := le_total (mem_filter.mp hdata).1 hn
          refine ⟨hmodule, hsubmodule, ?_⟩
          omega
        . intro i hi
          rw [Nat.zero_add]
          rfl

end

theorem records_sum_le (data : Bytes) (start n : Nat) :
    ((records data start n).map fun r => 4 + r.len).sum ≤ n := by
  induction n using Nat.strongRecOn generalizing start with
  | ind n ih =>
    unfold records
    split
    . simp
    . dsimp only
      split
      . simp
      . have := ih (n - (load ⟨start + 2, 2⟩ data + 4)) (by omega)
          (start + 4 + load ⟨start + 2, 2⟩ data)
        rw [map_cons, sum_cons]
        dsimp only
        omega

end Roleswap
