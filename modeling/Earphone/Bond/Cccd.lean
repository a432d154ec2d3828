import Earphone.Bond.Remove

namespace Bond

open List

structure SetCccd where
  flash : Flash
  result : Bool
  modify : Bool

structure Answers where
  alloc : Bool
  padding : UInt8 × UInt8 × UInt8
  addError : Nat
  lengthError : Nat
  saveError : Nat

namespace BondCb

variable (cb : BondCb) (flash : Flash) (type : DevType) (idx : Nat)

def ftlAddCccd (data : List UInt8) (offset hasError : Nat) : Flash × Nat :=
  if cb.cfg.gattCccdStorage then
    match cb.ftlGetCommonBlockOffset type idx with
    | none => (flash, 1)
    | some start =>
      impFtlSave flash data (start + cb.cfg.commonCccdDataOffset + offset)
        cb.cfg.commonLinkBlockSize idx hasError
  else
    (flash, 2)

def saveWhole (reserved : List UInt8) (data : List UInt8) (hasError : Nat) : SetCccd :=
  let record := UInt8.ofNat data.length :: reserved ++ data
  let saved := cb.ftlSaveCccd flash type (record.take ((4 + data.length) % 2 ^ 8)) idx hasError
  { flash := saved.1, result := saved.2 == 0, modify := saved.2 == 0 }

def saveTail (oldLength : Nat) (data : List UInt8) (a : Answers) : SetCccd :=
  let offset := (4 + oldLength) % 2 ^ 8
  let added := cb.ftlAddCccd flash type idx (data.drop oldLength) offset a.addError
  if added.2 ≠ 0 then
    { flash := added.1, result := false, modify := false }
  else
    let saved := cb.ftlSaveCccd added.1 type
      [UInt8.ofNat data.length, a.padding.1, a.padding.2.1, a.padding.2.2] idx a.lengthError
    { flash := saved.1, result := saved.2 == 0, modify := saved.2 == 0 }

def loadedRecord (loaded : Option (List UInt8)) : List UInt8 :=
  let bytes := loaded.getD []
  bytes ++ List.replicate (cb.cfg.cccdSize - bytes.length) 0

def btBondSetCccdData (data : List UInt8) (a : Answers) : SetCccd :=
  if a.alloc = false then
    { flash, result := false, modify := false }
  else
    let loaded := cb.btBondGetCccdData flash type idx
    let record := cb.loadedRecord loaded
    let oldLength := (record.headD 0).toNat
    let reserved := (record.drop 1).take 3
    if loaded.isSome ∧ oldLength ≠ 0 ∧ oldLength ≤ data.length ∧
        (record.drop 4).take oldLength = data.take oldLength then
      if oldLength < data.length then
        cb.saveTail flash type idx oldLength data a
      else
        { flash, result := true, modify := false }
    else
      cb.saveWhole flash type idx reserved data a.saveError

def Stores : Prop :=
  cb.cfg.gattCccdStorage = true ∧ (cb.ftlGetCommonBlockOffset type idx).isSome
  deriving Decidable

structure Holds (flash' : Flash) (data : List UInt8) : Prop where
  slot : ∃ record, cb.btBondGetCccdData flash' type idx = some record ∧
    record.head? = some (UInt8.ofNat data.length) ∧ record.drop 4 = data
  others : ∀ type' idx', ¬(type' = type ∧ idx' = idx) →
    cb.btBondGetCccdData flash' type' idx' = cb.btBondGetCccdData flash type' idx'

def RoundTrip (data : List UInt8) : Prop :=
  ∀ a, (cb.btBondSetCccdData flash type idx data a).result = true →
    cb.Holds flash type idx (cb.btBondSetCccdData flash type idx data a).flash data

end BondCb

section

variable {flash flash' : Flash} {offset m n : Nat} {data data' : List UInt8}

theorem Flash.load_append (h : flash.load offset m = some data)
    (h' : flash.load (offset + m) n = some data') :
    flash.load offset (m + n) = some (data ++ data') := by
  induction m generalizing offset data with
  | zero =>
    obtain rfl := Option.some.inj h
    rw [Nat.zero_add]
    exact h'
  | succ m ih =>
    rw [load] at h
    obtain ⟨b, hb, h⟩ := Option.bind_eq_some_iff.mp h
    obtain ⟨rest, hrest, h⟩ := Option.bind_eq_some_iff.mp h
    obtain rfl := Option.some.inj h
    rw [Nat.succ_add, load, hb, ih hrest (by rw [← h']; congr 1; omega)]
    rfl

theorem Flash.length_load (h : flash.load offset n = some data) : data.length = n := by
  induction n generalizing offset data with
  | zero =>
    obtain rfl := Option.some.inj h
    rfl
  | succ n ih =>
    rw [load] at h
    obtain ⟨b, hb, h⟩ := Option.bind_eq_some_iff.mp h
    obtain ⟨rest, hrest, h⟩ := Option.bind_eq_some_iff.mp h
    obtain rfl := Option.some.inj h
    rw [length_cons, ih hrest]

theorem Flash.load_drop (h : flash.load offset (m + n) = some data) :
    flash.load (offset + m) n = some (data.drop m) := by
  induction m generalizing offset data with
  | zero =>
    rw [Nat.zero_add] at h
    exact h
  | succ m ih =>
    rw [Nat.succ_add, load] at h
    obtain ⟨b, hb, h⟩ := Option.bind_eq_some_iff.mp h
    obtain ⟨rest, hrest, h⟩ := Option.bind_eq_some_iff.mp h
    obtain rfl := Option.some.inj h
    rw [drop_succ_cons, ← ih hrest]
    congr 1
    omega

theorem Flash.load_take (h : flash.load offset (m + n) = some data) :
    flash.load offset m = some (data.take m) := by
  induction m generalizing offset data with
  | zero => rfl
  | succ m ih =>
    rw [Nat.succ_add, load] at h
    obtain ⟨b, hb, h⟩ := Option.bind_eq_some_iff.mp h
    obtain ⟨rest, hrest, h⟩ := Option.bind_eq_some_iff.mp h
    obtain rfl := Option.some.inj h
    rw [load, hb, ih hrest]
    rfl

theorem Flash.load_head (h : flash.load offset n = some (b :: data)) : flash offset = some b := by
  cases n with
  | zero => cases h
  | succ n =>
    rw [load] at h
    obtain ⟨b', hb, h⟩ := Option.bind_eq_some_iff.mp h
    obtain ⟨rest, hrest, h⟩ := Option.bind_eq_some_iff.mp h
    rw [hb, (List.cons.inj (Option.some.inj h)).1]

end

namespace BondCb

variable {cb : BondCb} {flash : Flash} {type : DevType} {idx start : Nat} {data : List UInt8}

def base (cb : BondCb) (start idx : Nat) : Nat :=
  start + cb.cfg.commonCccdDataOffset + idx * cb.cfg.commonLinkBlockSize

section

variable (hstore : cb.cfg.gattCccdStorage = true)
variable (hstart : cb.ftlGetCommonBlockOffset type idx = some start)
include hstore hstart

theorem ftlSaveCccd_eq (hasError : Nat) : cb.ftlSaveCccd flash type data idx hasError =
    (if hasError = 0 then flash.save (cb.base start idx) data else flash, hasError) := by
  unfold ftlSaveCccd
  rw [if_pos hstore, hstart]
  rfl

theorem ftlAddCccd_eq (offset hasError : Nat) : cb.ftlAddCccd flash type idx data offset hasError =
    (if hasError = 0 then flash.save (cb.base start idx + offset) data else flash, hasError) := by
  have hoffset : start + cb.cfg.commonCccdDataOffset + offset + idx * cb.cfg.commonLinkBlockSize =
      cb.base start idx + offset := by
    unfold base
    omega
  unfold ftlAddCccd
  rw [if_pos hstore, hstart]
  dsimp only
  unfold impFtlSave
  rw [hoffset]

omit hstore in
theorem gapBondManager_eq : cb.cfg.gapBondManager = false := by
  cases hgap : cb.cfg.gapBondManager with
  | false => rfl
  | true =>
    cases type <;> simp [ftlGetCommonBlockOffset, commonLeStartOffset, commonBredrStartOffset,
      hgap] at hstart

theorem btBondGetCccdData_eq : cb.btBondGetCccdData flash type idx =
    (let length := (cb.ftlReadCccdLength flash type idx + 4) % 2 ^ 8
    if length = 4 ∨ length > cb.cfg.cccdSize % 2 ^ 8 then none
    else flash.load (cb.base start idx) length) := by
  unfold btBondGetCccdData ftlLoadCccd
  rw [gapBondManager_eq hstart, if_pos hstore, hstart]
  rfl

theorem ftlReadCccdLength_eq
    (h : flash.load (cb.base start idx) 4 = some [l, r1, r2, r3]) :
    cb.ftlReadCccdLength flash type idx = l.toNat := by
  unfold ftlReadCccdLength impFtlLoad
  rw [if_pos hstore, hstart]
  unfold base at h
  dsimp only
  rw [h]

theorem get_of_load (hreserved : reserved.length = 3)
    (hpos : 0 < data.length) (hlen : data.length + 4 ≤ cb.cfg.cccdSize % 2 ^ 8)
    (h : flash.load (cb.base start idx) (4 + data.length) =
      some (UInt8.ofNat data.length :: reserved ++ data)) :
    cb.btBondGetCccdData flash type idx = some (UInt8.ofNat data.length :: reserved ++ data) := by
  have hmod : cb.cfg.cccdSize % 2 ^ 8 < 2 ^ 8 := Nat.mod_lt _ (by decide)
  match reserved, hreserved with
  | [r1, r2, r3], _ =>
  have hhead : flash.load (cb.base start idx) 4 =
      some [UInt8.ofNat data.length, r1, r2, r3] := Flash.load_take h
  have hread := ftlReadCccdLength_eq hstore hstart hhead
  rw [UInt8.toNat_ofNat', Nat.mod_eq_of_lt (by omega)] at hread
  rw [btBondGetCccdData_eq hstore hstart, hread]
  dsimp only
  rw [Nat.mod_eq_of_lt (a := data.length + 4) (by omega), if_neg (by omega), Nat.add_comm, h]

theorem load_of_get (h : cb.btBondGetCccdData flash type idx = some record) :
    record.length ≤ cb.cfg.cccdSize % 2 ^ 8 ∧
      flash.load (cb.base start idx) record.length = some record ∧
      ∀ l rest, record = l :: rest → record.length = (l.toNat + 4) % 2 ^ 8 := by
  rw [btBondGetCccdData_eq hstore hstart] at h
  dsimp only at h
  split at h
  . cases h
  . next hlen =>
    rw [not_or] at hlen
    have hlength := Flash.length_load h
    refine ⟨by omega, by rw [hlength]; exact h, ?_⟩
    rintro l rest rfl
    -- the first byte is the one that the length was read from
    have hread : cb.ftlReadCccdLength flash type idx = l.toNat := by
      cases hhead : flash.load (cb.base start idx) 4 with
      | none =>
        have hzero : cb.ftlReadCccdLength flash type idx = 0 := by
          unfold ftlReadCccdLength impFtlLoad
          rw [if_pos hstore, hstart]
          unfold base at hhead
          dsimp only
          rw [hhead]
        rw [hzero] at hlen
        exact absurd rfl hlen.1
      | some bytes =>
        match bytes, Flash.length_load hhead with
        | [b, r1, r2, r3], _ =>
        have hb := Flash.load_head hhead
        rw [Flash.load_head h] at hb
        rw [ftlReadCccdLength_eq hstore hstart hhead, Option.some.inj hb]
    rw [hlength, hread]

end

theorem base_mem_block (hstore : cb.cfg.gattCccdStorage = true)
    (hstart : cb.ftlGetCommonBlockOffset type idx = some start)
    (hlo : cb.base start idx ≤ o) (hhi : o < cb.base start idx + cb.cfg.cccdSize) :
    cb.InBlock type idx o := by
  refine ⟨start, hstart, ?_⟩
  unfold base at hlo hhi
  rw [OtpBondCfg.commonLinkBlockSize, if_pos hstore] at *
  omega

theorem getOther_of_outside (h : ∀ o, ¬cb.InBlock type idx o → flash' o = flash o)
    (hne : ¬(type' = type ∧ idx' = idx)) :
    cb.btBondGetCccdData flash' type' idx' = cb.btBondGetCccdData flash type' idx' := by
  unfold btBondGetCccdData
  rw [(frame_of_outside h).cccd type' idx' hne]

section

variable (hstore : cb.cfg.gattCccdStorage = true)
variable (hstart : cb.ftlGetCommonBlockOffset type idx = some start)
variable (hpos : 0 < data.length) (hlen : data.length + 4 ≤ cb.cfg.cccdSize % 2 ^ 8)
include hstore hstart hpos hlen

theorem holds_of_load {flash' : Flash} {reserved : List UInt8} (hreserved : reserved.length = 3)
    (hload : flash'.load (cb.base start idx) (4 + data.length) =
      some (UInt8.ofNat data.length :: reserved ++ data))
    (hout : ∀ o, ¬cb.InBlock type idx o → flash' o = flash o) :
    cb.Holds flash type idx flash' data := by
  refine ⟨⟨_, get_of_load hstore hstart hreserved hpos hlen hload, rfl, ?_⟩,
    fun type' idx' hne => getOther_of_outside hout hne⟩
  rw [cons_append, drop_succ_cons, drop_left' hreserved]

theorem saveWhole_holds (hreserved : reserved.length = 3) (hasError : Nat)
    (h : (cb.saveWhole flash type idx reserved data hasError).result = true) :
    cb.Holds flash type idx (cb.saveWhole flash type idx reserved data hasError).flash data := by
  have hmod : cb.cfg.cccdSize % 2 ^ 8 < 2 ^ 8 := Nat.mod_lt _ (by decide)
  have hle := Nat.mod_le cb.cfg.cccdSize (2 ^ 8)
  have hrecord : (UInt8.ofNat data.length :: reserved ++ data).length = 4 + data.length := by
    rw [length_append, length_cons, hreserved]
  unfold saveWhole at h ⊢
  dsimp only at h ⊢
  rw [ftlSaveCccd_eq hstore hstart] at h ⊢
  dsimp only at h ⊢
  rw [if_pos (eq_of_beq h), Nat.mod_eq_of_lt (a := 4 + data.length) (by omega),
    take_of_length_le (Nat.le_of_eq hrecord)]
  refine holds_of_load hstore hstart hpos hlen hreserved ?_ fun o ho => ?_
  . rw [← hrecord]
    exact Flash.load_save ..
  . refine Flash.save_of_not fun hin => ho (base_mem_block hstore hstart hin.1 ?_)
    omega

theorem saveTail_holds (hold : oldLength < data.length)
    (hload : flash.load (cb.base start idx + 4) oldLength = some (data.take oldLength))
    (h : (cb.saveTail flash type idx oldLength data a).result = true) :
    cb.Holds flash type idx (cb.saveTail flash type idx oldLength data a).flash data := by
  have hmod : cb.cfg.cccdSize % 2 ^ 8 < 2 ^ 8 := Nat.mod_lt _ (by decide)
  have hle := Nat.mod_le cb.cfg.cccdSize (2 ^ 8)
  have hrest : (data.drop oldLength).length = data.length - oldLength := length_drop
  unfold saveTail at h ⊢
  dsimp only at h ⊢
  rw [ftlAddCccd_eq hstore hstart] at h ⊢
  dsimp only at h ⊢
  by_cases hadd : a.addError = 0
  . rw [if_neg (fun hc => hc hadd)] at h ⊢
    rw [if_pos hadd, Nat.mod_eq_of_lt (a := 4 + oldLength) (by omega)] at h ⊢
    rw [ftlSaveCccd_eq hstore hstart] at h ⊢
    dsimp only at h ⊢
    rw [if_pos (eq_of_beq h)]
    have hadded : ∀ o, o < cb.base start idx + (4 + oldLength) ∨
        cb.base start idx + (4 + data.length) ≤ o →
        flash.save (cb.base start idx + (4 + oldLength)) (data.drop oldLength) o = flash o :=
      fun o ho => Flash.save_of_not fun hin => by omega
    have htail := Flash.load_save flash (cb.base start idx + (4 + oldLength)) (data.drop oldLength)
    generalize flash.save (cb.base start idx + (4 + oldLength)) (data.drop oldLength) = added at *
    have hsaved : ∀ o, o < cb.base start idx ∨ cb.base start idx + 4 ≤ o →
        added.save (cb.base start idx)
          [UInt8.ofNat data.length, a.padding.1, a.padding.2.1, a.padding.2.2] o = added o :=
      fun o ho => Flash.save_of_not fun hin => by
        simp only [length_cons, length_nil] at hin
        omega
    have hhead := Flash.load_save added (cb.base start idx)
      [UInt8.ofNat data.length, a.padding.1, a.padding.2.1, a.padding.2.2]
    generalize added.save (cb.base start idx)
      [UInt8.ofNat data.length, a.padding.1, a.padding.2.1, a.padding.2.2] = saved at *
    refine @holds_of_load cb flash type idx start data hstore hstart hpos hlen saved
      [a.padding.1, a.padding.2.1, a.padding.2.2] rfl ?_ fun o ho => ?_
    . -- the length and its padding, the old data, the rest
      have hold' : saved.load (cb.base start idx + 4) oldLength = some (data.take oldLength) := by
        rw [← hload]
        refine Flash.load_congr fun o hlo hhi => ?_
        rw [hsaved o (.inr hlo), hadded o (.inl (by omega))]
      have htail' : saved.load (cb.base start idx + (4 + oldLength)) (data.drop oldLength).length =
          some (data.drop oldLength) := by
        rw [← htail]
        exact Flash.load_congr fun o hlo _ => hsaved o (.inr (by omega))
      have hfront := Flash.load_append hhead hold'
      have hall := Flash.load_append hfront htail'
      rw [append_assoc, take_append_drop] at hall
      have hsize : 4 + oldLength + (data.drop oldLength).length = 4 + data.length := by omega
      rw [← hsize]
      exact hall
    . have hin : o < cb.base start idx ∨ cb.base start idx + cb.cfg.cccdSize ≤ o := by
        by_contra hc
        exact ho (base_mem_block hstore hstart (by omega) (by omega))
      rw [hsaved o (by omega), hadded o (by omega)]
  . rw [if_pos hadd] at h
    cases h

theorem roundTrip_of_fits : cb.RoundTrip flash type idx data := by
  have hmod : cb.cfg.cccdSize % 2 ^ 8 < 2 ^ 8 := Nat.mod_lt _ (by decide)
  have hfour : 4 ≤ cb.cfg.cccdSize := by
    unfold OtpBondCfg.cccdSize
    omega
  intro a h
  have hreserved : ∀ loaded, (((cb.loadedRecord loaded).drop 1).take 3).length = 3 := by
    intro loaded
    rw [length_take, length_drop, loadedRecord, length_append, length_replicate]
    omega
  unfold btBondSetCccdData at h ⊢
  split at h
  . cases h
  . next halloc =>
    rw [if_neg halloc]
    dsimp only at h ⊢
    split at h
    . next hsame =>
      rw [if_pos hsame]
      obtain ⟨hsome, hne, hle, hbegins⟩ := hsame
      obtain ⟨bytes, hget⟩ := Option.isSome_iff_exists.mp hsome
      obtain ⟨hshort, hload, hlength⟩ := load_of_get hstore hstart hget
      rw [hget] at h hne hle hbegins ⊢
      cases bytes with
      | nil =>
        obtain ⟨n, hn⟩ := Nat.exists_eq_add_of_lt (Nat.lt_of_lt_of_le (by decide : 0 < 4) hfour)
        refine absurd ?_ hne
        simp [loadedRecord, hn, replicate_succ]
      | cons l rest =>
        have hhead : ((cb.loadedRecord (some (l :: rest))).headD 0).toNat = l.toNat := rfl
        rw [hhead] at h hne hle hbegins ⊢
        have hsize := hlength l rest rfl
        rw [Nat.mod_eq_of_lt (by omega)] at hsize
        have hrecord : ((cb.loadedRecord (some (l :: rest))).drop 4).take l.toNat =
            (l :: rest).drop 4 := by
          unfold loadedRecord
          rw [Option.getD_some, drop_append_of_le_length (by omega)]
          exact take_left' (by rw [length_drop, hsize, Nat.add_sub_cancel])
        rw [hrecord] at hbegins
        rw [hsize, Nat.add_comm] at hload
        have hold := Flash.load_drop hload
        rw [hbegins] at hold
        split at h
        . next hlt =>
          rw [if_pos hlt]
          exact saveTail_holds hstore hstart hpos hlen hlt hold h
        . next hge =>
          -- nothing is written
          rw [if_neg hge]
          have hsame : l.toNat = data.length := by omega
          refine ⟨⟨l :: rest, hget, ?_, ?_⟩, fun _ _ _ => rfl⟩
          . rw [← hsame, UInt8.ofNat_toNat]
            rfl
          . rw [hbegins, hsame, take_length]
    . next hdiffers =>
      rw [if_neg hdiffers]
      exact saveWhole_holds hstore hstart hpos hlen (hreserved _) _ h

end

theorem result_of_not_stores (h : ¬cb.Stores type idx) (a : Answers) :
    (cb.btBondSetCccdData flash type idx data a).result = false := by
  have hsave : ∀ bytes hasError, (cb.ftlSaveCccd flash type bytes idx hasError).2 ≠ 0 := by
    intro bytes hasError
    unfold ftlSaveCccd
    split
    . next hstore =>
      split
      . simp
      . next start hstart => exact absurd ⟨hstore, Option.isSome_of_mem hstart⟩ h
    . simp
  have hget : cb.btBondGetCccdData flash type idx = none := by
    unfold btBondGetCccdData ftlLoadCccd
    split
    . rfl
    . split
      . next hstore =>
        cases hstart : cb.ftlGetCommonBlockOffset type idx with
        | none => rfl
        | some start => exact absurd ⟨hstore, Option.isSome_of_mem hstart⟩ h
      . rfl
  unfold btBondSetCccdData
  split
  . rfl
  . rw [hget]
    dsimp only
    rw [if_neg (by simp)]
    exact beq_eq_false_iff_ne.mpr (hsave _ _)

theorem exists_result (h : cb.Stores type idx) :
    ∃ a, (cb.btBondSetCccdData flash type idx data a).result = true := by
  obtain ⟨hstore, hsome⟩ := h
  obtain ⟨start, hstart⟩ := Option.isSome_iff_exists.mp hsome
  refine ⟨⟨true, (0, 0, 0), 0, 0, 0⟩, ?_⟩
  unfold btBondSetCccdData saveTail saveWhole
  dsimp only
  rw [if_neg (by decide)]
  split
  . split
    . rw [ftlAddCccd_eq hstore hstart, ftlSaveCccd_eq hstore hstart]
      rfl
    . rfl
  . rw [ftlSaveCccd_eq hstore hstart]
    rfl

theorem bt_bond_set_cccd_data_round_trip (cb : BondCb) (flash : Flash) (type : DevType) (idx : Nat)
    (data : List UInt8) (hpos : 0 < data.length) :
    cb.RoundTrip flash type idx data ↔
      (cb.Stores type idx →
        data.length + 4 ≤ (4 + 4 * cb.cfg.gattStorageCccBitsCount) % 2 ^ 8) := by
  constructor
  . intro h hstores
    obtain ⟨a, ha⟩ := @exists_result cb flash type idx data hstores
    obtain ⟨record, hget, -, hdrop⟩ := (h a ha).slot
    obtain ⟨hstore, hsome⟩ := hstores
    obtain ⟨start, hstart⟩ := Option.isSome_iff_exists.mp hsome
    obtain ⟨hle, -, -⟩ := load_of_get hstore hstart hget
    have hlen := congrArg List.length hdrop
    rw [length_drop] at hlen
    have hsize : cb.cfg.cccdSize = 4 + 4 * cb.cfg.gattStorageCccBitsCount := rfl
    omega
  . intro h
    by_cases hstores : cb.Stores type idx
    . have hlen := h hstores
      obtain ⟨hstore, hsome⟩ := hstores
      obtain ⟨start, hstart⟩ := Option.isSome_iff_exists.mp hsome
      exact roundTrip_of_fits hstore hstart hpos hlen
    . intro a ha
      rw [result_of_not_stores hstores] at ha
      cases ha

theorem bt_bond_set_cccd_data_round_trip_dual :
    dual.RoundTrip (fun _ => some 0xff) .le 1 [3, 0, 1, 0, 6, 0, 2, 0] :=
  (bt_bond_set_cccd_data_round_trip dual (fun _ => some 0xff) .le 1 [3, 0, 1, 0, 6, 0, 2, 0]
    (by decide)).mpr fun _ => by decide

end BondCb

def BondCb.large : BondCb where
  cfg := { BondCb.dual.cfg with gattStorageCccBitsCount := 63 }
  fits := by decide

theorem not_bt_bond_set_cccd_data_round_trip :
    (BondCb.large.btBondSetCccdData (fun _ => none) .le 1 [3, 0, 1, 0]
      ⟨true, (0, 0, 0), 0, 0, 0⟩).result = true ∧
    BondCb.large.btBondGetCccdData (BondCb.large.btBondSetCccdData (fun _ => none) .le 1
      [3, 0, 1, 0] ⟨true, (0, 0, 0), 0, 0, 0⟩).flash .le 1 = none ∧
    ¬BondCb.large.RoundTrip (fun _ => none) .le 1 [3, 0, 1, 0] := by
  have hset : (BondCb.large.btBondSetCccdData (fun _ => none) .le 1 [3, 0, 1, 0]
      ⟨true, (0, 0, 0), 0, 0, 0⟩).result = true := by
    decide
  have hget : BondCb.large.btBondGetCccdData (BondCb.large.btBondSetCccdData (fun _ => none) .le 1
      [3, 0, 1, 0] ⟨true, (0, 0, 0), 0, 0, 0⟩).flash .le 1 = none := by
    decide
  refine ⟨hset, hget, fun h => ?_⟩
  obtain ⟨record, hsome, -⟩ := (h _ hset).slot
  rw [hget] at hsome
  cases hsome

end Bond
