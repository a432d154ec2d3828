import Earphone.Rfc.FrameSafe
import Earphone.Rfc.Kept

namespace Rfc

open List

set_option maxRecDepth 4096 in
theorem crc8EtsTable_lt : ∀ n ∈ crc8EtsTable, n < 2 ^ 8 := by decide

set_option maxRecDepth 4096 in
theorem length_crc8EtsTable : crc8EtsTable.length = 2 ^ 8 := rfl

set_option maxRecDepth 4096 in
theorem cf_not_mem_dropLast : 0xcf ∉ crc8EtsTable.dropLast := by decide

set_option maxRecDepth 4096 in
theorem getD_crc8EtsTable_ff : crc8EtsTable.getD 0xff 0 = 0xcf := rfl

theorem crc8EtsTable_eq_cf : ∀ i < 2 ^ 8, crc8EtsTable.getD i 0 = 0xcf ↔ i = 0xff := by
  intro i hi
  obtain hlt | rfl := Nat.lt_or_eq_of_le (Nat.le_of_lt_succ hi)
  . refine iff_of_false (fun hcf => cf_not_mem_dropLast ?_) (Nat.ne_of_lt hlt)
    have hdrop : i < crc8EtsTable.dropLast.length := by
      rw [length_dropLast, length_crc8EtsTable]
      exact hlt
    have hlength : i < crc8EtsTable.length := Nat.lt_of_lt_of_eq hi length_crc8EtsTable.symm
    rw [getD_eq_getElem?_getD, getElem?_eq_getElem hlength, Option.getD_some,
      ← getElem_dropLast hdrop] at hcf
    exact hcf ▸ getElem_mem hdrop
  . exact iff_of_true getD_crc8EtsTable_ff rfl

theorem crc8EtsStep_lt (fcs octet : Nat) : crc8EtsStep fcs octet < 2 ^ 8 := by
  unfold crc8EtsStep
  rw [getD_eq_getElem?_getD]
  cases hget : crc8EtsTable[fcs ^^^ octet]? with
  | none => decide
  | some n => exact crc8EtsTable_lt n (mem_of_getElem? hget)

theorem foldl_crc8EtsStep_lt (octets : List Nat) (h : fcs < 2 ^ 8) :
    octets.foldl crc8EtsStep fcs < 2 ^ 8 := by
  induction octets generalizing fcs with
  | nil => exact h
  | cons octet octets ih => exact ih (crc8EtsStep_lt fcs octet)

set_option maxRecDepth 4096 in
theorem complement_eq_xor : ∀ fcs < 2 ^ 8, 0xff - fcs = fcs ^^^ 0xff := by decide

theorem xor_eq_ff_iff (h : fcs < 2 ^ 8) : fcs ^^^ rfcs = 0xff ↔ rfcs = 0xff - fcs := by
  rw [complement_eq_xor fcs h]
  constructor
  . intro hxor
    rw [← hxor, ← Nat.xor_assoc, Nat.xor_self, Nat.zero_xor]
  . intro hrfcs
    rw [hrfcs, ← Nat.xor_assoc, Nat.xor_self, Nat.zero_xor]

theorem crc8EtsCheck_iff (octets : List Nat) (h : rfcs < 2 ^ 8) :
    crc8EtsCheck octets rfcs = true ↔ rfcs = crc8EtsGen octets := by
  have hfcs := foldl_crc8EtsStep_lt octets (show 0xff < 2 ^ 8 by decide)
  unfold crc8EtsCheck crc8EtsGen
  generalize octets.foldl crc8EtsStep 0xff = fcs at hfcs ⊢
  rw [decide_eq_true_eq, crc8EtsStep, crc8EtsTable_eq_cf _ (Nat.xor_lt_two_pow hfcs h),
    xor_eq_ff_iff hfcs]

def rfcCheckBlock (chann : Chann) (db : Db) : Bool :=
  if (db.ctrl chann).dsFlowCtrl &&& rfcFlowBit ≠ 0 then
    true
  else if chann.convergenceLayer = rfcConvergenceCreditCfm then
    chann.remoteRemainCredits = 0
  else
    chann.dsFlowCtrl &&& rfcFlowBit ≠ 0

def Chann.creditField (chann : Chann) : Bool :=
  chann.convergenceLayer = rfcConvergenceCreditCfm && chann.givenCredits ≠ 0

def dataFrame (ctrl chann : Chann) (data : List UInt8) : Frame :=
  { cid := ctrl.l2cCid
    addr := (chann.dlci <<< 2 ||| (if ctrl.initiator then 2 else 0) ||| rfcEaBit) % 2 ^ 8
    ctl := if chann.creditField then rfcUih ||| rfcPollBit else rfcUih
    credits := if chann.creditField then some chann.givenCredits else none
    info := data.map fun octet => .known octet.toNat }

def Chann.spendCredit (chann : Chann) : Chann :=
  let chann := if chann.creditField then { chann with givenCredits := 0 } else chann
  if chann.convergenceLayer = rfcConvergenceCreditCfm then
    { chann with remoteRemainCredits := (chann.remoteRemainCredits + 2 ^ 8 - 1) % 2 ^ 8 }
  else
    chann

def rfcDataReq (bdAddr dlci : Nat) (data : List UInt8) (db : Db) : Db × Bool :=
  match rfcFindChannByAddr bdAddr dlci db with
  | none => (db, false)
  | some chann =>
    if chann.state ≠ .connected || rfcCheckBlock chann db then
      (db, false)
    else if data.length > chann.frameSize || data.length = 0 then
      (db, false)
    else
      let (ok, db) := mpaGetL2cBuf db
      if ok then
        let db := mpaSendL2cDataReq (dataFrame (db.ctrl chann) chann data) db
        (rfcCheckSendCredits (db.modify chann.id Chann.spendCredit), true)
      else
        (db, false)

section

structure Carries (ind : DataInd) (f : Frame) : Prop where
  length : ind.length = f.bytes.length % 2 ^ 16
  octets : ∀ i n, i < ind.length → f.bytes[i]? = some (.known n) → ind.octet i = n

structure DataInd.Passes (ind : DataInd) : Prop where
  least : 4 ≤ ind.length
  syn : ind.len + 1 = ind.rest
  fcs : ind.checked = true

def DataInd.Info (ind : DataInd) (data : List Octet) : Prop :=
  ind.len = data.length ∧ ∀ i n, data[i]? = some (.known n) → ind.octet (ind.start + i) = n

def Frame.header (f : Frame) : List Nat := f.addr :: f.ctl :: lengthField f.info.length

def Frame.start (f : Frame) : Nat := f.header.length + f.credits.toList.length

def Frame.covered (f : Frame) : List Nat := f.header.take (if f.ctl &&& 0xEF = rfcUih then 2 else 3)

variable {f : Frame}

theorem bytes_eq (f : Frame) : f.bytes =
    ((f.header ++ f.credits.toList).map .known ++ f.info) ++ [.known (crc8EtsGen f.covered)] := rfl

theorem bytes_length (f : Frame) : f.bytes.length = f.start + f.info.length + 1 := by
  rw [bytes_eq]
  simp [Frame.start, Nat.add_assoc]

theorem bytes_header {i n : Nat} (h : f.header[i]? = some n) : f.bytes[i]? = some (.known n) := by
  obtain ⟨hi, rfl⟩ := List.getElem?_eq_some_iff.mp h
  rw [bytes_eq, List.append_assoc, List.getElem?_append_left (by simp; omega), List.map_append,
    List.getElem?_append_left (by simpa using hi), List.getElem?_map, h]
  rfl

theorem bytes_credits (h : f.credits = some n) : f.bytes[f.header.length]? = some (.known n) := by
  rw [bytes_eq, h, append_assoc, getElem?_append_left (by simp), map_append,
    getElem?_append_right (by simp)]
  simp

theorem bytes_info (h : i < f.info.length) : f.bytes[f.start + i]? = f.info[i]? := by
  have hlength : ((f.header ++ f.credits.toList).map Octet.known).length = f.start := by
    simp [Frame.start]
  rw [bytes_eq, getElem?_append_left (by simp only [length_append, hlength]; omega),
    getElem?_append_right (by rw [hlength]; omega), hlength, Nat.add_sub_cancel_left]

theorem bytes_fcs (f : Frame) :
    f.bytes[f.start + f.info.length]? = some (.known (crc8EtsGen f.covered)) := by
  have hlength : ((f.header ++ f.credits.toList).map Octet.known ++ f.info).length =
      f.start + f.info.length := by
    simp [Frame.start, Nat.add_assoc]
  rw [bytes_eq, getElem?_append_right (Nat.le_of_eq hlength), hlength,
    Nat.sub_self]
  rfl

theorem lengthField_length (len : Nat) : (lengthField len).length = if len > 127 then 2 else 1 := by
  unfold lengthField
  split <;> rfl

theorem header_length (f : Frame) : f.header.length = if f.info.length > 127 then 4 else 3 := by
  unfold Frame.header
  rw [length_cons, length_cons, lengthField_length]
  split <;> rfl

variable {ind : DataInd}

theorem credits_length_le (f : Frame) : f.credits.toList.length ≤ 1 := by
  cases f.credits <;> simp

theorem start_le (f : Frame) : f.start ≤ 5 := by
  have hheader := header_length f
  have hcredits := credits_length_le f
  unfold Frame.start
  split at hheader <;> omega

namespace Carries

section

variable (h : Carries ind f) (hlen : f.info.length < 2 ^ 15)

include h hlen

theorem length_eq : ind.length = f.start + f.info.length + 1 := by
  have hstart := start_le f
  rw [h.length, bytes_length, Nat.mod_eq_of_lt (by omega)]

theorem octet (hi : f.bytes[i]? = some (.known n)) : ind.octet i = n := by
  refine h.octets i n ?_ hi
  rw [h.length_eq hlen, ← bytes_length]
  exact (List.getElem?_eq_some_iff.mp hi).1

theorem octet_zero : ind.octet 0 = f.addr := h.octet hlen (bytes_header rfl)

theorem octet_one : ind.octet 1 = f.ctl := h.octet hlen (bytes_header rfl)

theorem octet_length {i n : Nat}
    (hi : (lengthField f.info.length)[i]? = some n) : ind.octet (i + 2) = n :=
  h.octet hlen (bytes_header hi)

theorem extended_len : ind.extended = decide (f.info.length > 127) ∧ ind.len = f.info.length := by
  have hoctet := fun i n => @octet_length f ind h hlen i n
  unfold DataInd.len DataInd.extended
  unfold lengthField at hoctet
  split at hoctet
  next hlong =>
    have h2 := hoctet 0 _ rfl
    have h3 := hoctet 1 _ rfl
    rw [h2, h3, Nat.and_one_is_mod, Nat.shiftLeft_eq, Nat.shiftRight_eq_div_pow,
      Nat.shiftRight_eq_div_pow, decide_eq_true hlong]
    have heven : f.info.length * 2 ^ 1 % 2 ^ 8 % 2 = 0 := by omega
    have hhigh : f.info.length / 2 ^ 7 % 2 ^ 8 = f.info.length / 2 ^ 7 := by omega
    have hlow : f.info.length * 2 ^ 1 % 2 ^ 8 / 2 ^ 1 = f.info.length % 2 ^ 7 := by omega
    rw [heven, hhigh, hlow, if_pos (by decide), Nat.or_comm,
      ← Nat.shiftLeft_add_eq_or_of_lt (by omega), Nat.shiftLeft_eq]
    exact ⟨by decide, by omega⟩
  next hshort =>
    have h2 := hoctet 0 _ rfl
    rw [h2, rfcEaBit, ← Nat.shiftLeft_add_eq_or_of_lt (by decide), Nat.and_one_is_mod,
      Nat.shiftLeft_eq, Nat.shiftRight_eq_div_pow, decide_eq_false hshort]
    have hodd : (f.info.length * 2 ^ 1 + 1) % 2 = 1 := by omega
    rw [hodd, if_neg (by decide)]
    exact ⟨by decide, by omega⟩

theorem start_eq : ind.start = f.header.length + ind.credited.toNat := by
  unfold DataInd.start
  rw [(h.extended_len hlen).1, header_length]
  by_cases hlong : f.info.length > 127 <;> simp [hlong]

theorem start_eq_of_credited (hcredited : ind.credited = f.credits.isSome) :
    ind.start = f.start := by
  rw [h.start_eq hlen, hcredited]
  unfold Frame.start
  cases f.credits <;> rfl

theorem rest_eq : ind.rest + ind.credited.toNat = f.credits.toList.length + f.info.length + 1 := by
  have hbounds := start_le f
  have hstart := h.start_eq hlen
  have hlength := h.length_eq hlen
  have hcredited : ind.credited.toNat ≤ 1 := Bool.toNat_le _
  have hheader := header_length f
  unfold DataInd.rest
  unfold Frame.start at hlength hbounds
  split at hheader <;> omega

theorem type_eq : ind.type = f.ctl &&& 0xEF := by
  unfold DataInd.type
  rw [h.octet_one hlen]

theorem octets_take {k : Nat}
    (hk : k ≤ f.header.length) : (List.range k).map ind.octet = f.header.take k := by
  refine ext_getElem (by simp [hk]) fun i hi hi' => ?_
  rw [getElem_map, getElem_range, getElem_take]
  exact h.octet hlen (bytes_header (getElem?_eq_getElem _))

section

variable (hcredited : ind.credited = f.credits.isSome)

include hcredited

theorem passes : ind.Passes where
  least := by
    have hheader := header_length f
    rw [h.length_eq hlen]
    unfold Frame.start
    split at hheader <;> omega
  syn := by
    have hrest := h.rest_eq hlen
    rw [hcredited] at hrest
    rw [(h.extended_len hlen).2]
    cases hcredits : f.credits with
    | none =>
      rw [hcredits] at hrest
      simp only [Option.isSome_none, Bool.toNat_false, Option.toList_none, length_nil] at hrest
      omega
    | some n =>
      rw [hcredits] at hrest
      simp only [Option.isSome_some, Bool.toNat_true, Option.toList_some, length_singleton]
        at hrest
      omega
  fcs := by
    unfold DataInd.checked
    rw [crc8EtsCheck_iff _ (octet_lt ind _), h.start_eq_of_credited hlen hcredited,
      (h.extended_len hlen).2, h.octet hlen (bytes_fcs f)]
    unfold DataInd.covered
    rw [h.type_eq hlen, h.octets_take hlen]
    . rfl
    . have hheader := header_length f
      split <;> split at hheader <;> omega

theorem info : ind.Info f.info := by
  refine ⟨(h.extended_len hlen).2, fun i n hi => ?_⟩
  rw [h.start_eq_of_credited hlen hcredited]
  refine h.octet hlen ?_
  rw [bytes_info (List.getElem?_eq_some_iff.mp hi).1]
  exact hi

theorem returnCredits_eq : ind.returnCredits = f.credits.getD 0 := by
  unfold DataInd.returnCredits
  rw [h.start_eq hlen, hcredited]
  cases hcredits : f.credits with
  | none => rfl
  | some n => exact h.octet hlen (bytes_credits hcredits)

end

end

end Carries

end

theorem address_dataFrame (dlci : Nat) (initiator : Bool) :
    (dlci <<< 2 ||| (if initiator then 2 else 0) ||| rfcEaBit) % 2 ^ 8 =
      dlci % 64 * 4 + 2 * initiator.toNat + 1 := by
  rw [Nat.or_assoc]
  cases initiator with
  | false =>
    rw [show (if false = true then 2 else 0) ||| rfcEaBit = 1 from rfl,
      ← Nat.shiftLeft_add_eq_or_of_lt (by decide), Nat.shiftLeft_eq, Bool.toNat_false]
    omega
  | true =>
    rw [show (if true = true then 2 else 0) ||| rfcEaBit = 3 from rfl,
      ← Nat.shiftLeft_add_eq_or_of_lt (by decide), Nat.shiftLeft_eq, Bool.toNat_true]
    omega

theorem address_ctrlFrame (dlci : Nat) (direction : Bool) :
    ((dlci <<< 2) % 2 ^ 8 ||| rfcEaBit) ||| (if direction then 2 else 0) =
      dlci % 64 * 4 + 2 * direction.toNat + 1 := by
  have hshift : (dlci <<< 2) % 2 ^ 8 = (dlci % 64) <<< 2 := by
    rw [Nat.shiftLeft_eq, Nat.shiftLeft_eq]
    omega
  have haddr := address_dataFrame (dlci % 64) direction
  have hlt : (dlci % 64) <<< 2 < 2 ^ 8 := by
    rw [Nat.shiftLeft_eq]
    omega
  rw [hshift, Nat.or_assoc, Nat.or_comm rfcEaBit, ← Nat.or_assoc]
  rw [Nat.mod_mod, Nat.mod_eq_of_lt] at haddr
  . exact haddr
  . refine Nat.or_lt_two_pow (Nat.or_lt_two_pow hlt ?_) (by decide)
    split <;> decide

namespace Carries

theorem dlci_eq (h : Carries ind f) (hlen : f.info.length < 2 ^ 15) {dlci : Nat} {direction : Bool}
    (haddr : f.addr = dlci % 64 * 4 + 2 * direction.toNat + 1) : ind.dlci = dlci % 64 := by
  have : direction.toNat ≤ 1 := Bool.toNat_le _
  unfold DataInd.dlci
  rw [h.octet_zero hlen, haddr, Nat.shiftRight_eq_div_pow]
  omega

theorem cr_eq (h : Carries ind f) (hlen : f.info.length < 2 ^ 15)
    (haddr : f.addr = dlci % 64 * 4 + 2 * direction.toNat + 1) : ind.cr = direction := by
  unfold DataInd.cr
  rw [h.octet_zero hlen, haddr, Nat.shiftRight_eq_div_pow, Nat.and_one_is_mod]
  cases direction with
  | false => exact decide_eq_false (by simp only [Bool.toNat_false]; omega)
  | true => exact decide_eq_true (by simp only [Bool.toNat_true]; omega)

end Carries

theorem dlci_lt (ind : DataInd) : ind.dlci < 64 := by
  have := octet_lt ind 0
  unfold DataInd.dlci
  rw [Nat.shiftRight_eq_div_pow]
  omega

section

variable {ind : DataInd} {ctrl peerCtrl : Chann} {dlci ctl : Nat} {cr poll : Bool}
  {data : List Octet} {db : Db}

def ctrlFrame (ctrl : Chann) (dlci ctl : Nat) (cr poll : Bool) (data : List Octet) : Frame :=
  { cid := ctrl.l2cCid
    addr := ((dlci <<< 2) % 2 ^ 8 ||| rfcEaBit) ||| (if cr = ctrl.initiator then 2 else 0)
    ctl := if poll then ctl ||| rfcPollBit else ctl
    credits := none
    info := data }

theorem rfcSendFrame_sent
    (h : (rfcSendFrame ctrl dlci ctl cr poll data db).log.sent = db.log.sent ++ [f]) :
    f = ctrlFrame ctrl dlci ctl cr poll data := by
  have hnone : db.log.sent ≠ db.log.sent ++ [f] := by
    intro heq
    have := congrArg List.length heq
    simp at this
  unfold rfcSendFrame at h
  dsimp only at h
  split at h
  . exact absurd h hnone
  . split at h
    . exact (singleton_inj.mp (append_cancel_left h)).symm
    . exact absurd h hnone

def controls : List Nat := [rfcSabm, rfcUa, rfcDm, rfcDisc, rfcUih]

theorem control_type : ∀ ctl ∈ controls, ∀ poll : Bool,
    (if poll then ctl ||| rfcPollBit else ctl) &&& 0xEF = ctl := by decide

theorem control_poll : ∀ ctl ∈ controls, ∀ poll : Bool,
    decide ((if poll then ctl ||| rfcPollBit else ctl) &&& rfcPollBit ≠ 0) = poll := by decide

structure Accepted (ind : DataInd) (peerCtrl : Chann) (dlci ctl : Nat) (cr poll : Bool)
    (data : List Octet) : Prop where
  handled : ∀ (peer : Db) (chann : Chann), rfcFindChannByDlci dlci ind.cid peer = some chann →
    ∃ offsets, rfcHandleL2cDataInd ind peer = handleFrame chann ind (peer.read ind offsets)
  passes : ind.Passes
  info : ind.Info data
  command : isCommand peerCtrl ind = cr
  dlci : ind.dlci = dlci
  type : ind.type = ctl
  poll : ind.poll = poll

theorem read_read (db : Db) (ind : DataInd) (offsets offsets' : List Nat) :
    (db.read ind offsets).read ind offsets' = db.read ind (offsets ++ offsets') := by
  simp [Db.read, map_append, append_assoc]

theorem rfcHandleL2cDataInd_of_passes (h : ind.Passes)
    (hfind : rfcFindChannByDlci ind.dlci ind.cid peer = some chann) :
    ∃ offsets, rfcHandleL2cDataInd ind peer = handleFrame chann ind (peer.read ind offsets) := by
  refine ⟨List.range ind.start ++ (List.range ind.covered ++ [ind.start + ind.len]), ?_⟩
  have hread : rfcFindChannByDlci ind.dlci ind.cid ((peer.read ind (List.range ind.start)).read ind
    (List.range ind.covered ++ [ind.start + ind.len])) = some chann := hfind
  rw [← read_read]
  unfold rfcHandleL2cDataInd
  rw [if_neg (Nat.not_lt.mpr h.least)]
  dsimp only
  rw [if_neg (not_not_intro h.syn), h.fcs, hread]
  rfl

theorem isCommand_eq (hinit : peerCtrl.initiator = !ctrl.initiator)
    (hcr : ind.cr = decide (cr = ctrl.initiator)) : isCommand peerCtrl ind = cr := by
  unfold isCommand
  rw [hcr, hinit]
  cases cr <;> cases ctrl.initiator <;> rfl

theorem accepted_iff (hctl : ctl ∈ controls) (hinit : peerCtrl.initiator = !ctrl.initiator)
    (h : Carries ind (ctrlFrame ctrl dlci ctl cr poll data)) :
    Accepted ind peerCtrl dlci ctl cr poll data ↔
      dlci < 64 ∧ data.length < 2 ^ 15 ∧ ¬(dlci ≠ 0 ∧ ctl = rfcUih ∧ poll = true) := by
  have haddr : (ctrlFrame ctrl dlci ctl cr poll data).addr =
      dlci % 64 * 4 + 2 * (decide (cr = ctrl.initiator)).toNat + 1 := by
    rw [← address_ctrlFrame]
    simp [ctrlFrame]
  have htype : data.length < 2 ^ 15 → ind.type = ctl := by
    intro hlen
    rw [h.type_eq hlen]
    exact control_type ctl hctl poll
  have hpoll : data.length < 2 ^ 15 → ind.poll = poll := by
    intro hlen
    unfold DataInd.poll
    rw [h.octet_one hlen]
    exact control_poll ctl hctl poll
  constructor
  . intro hacc
    have hlen : data.length < 2 ^ 15 := by
      rw [← hacc.info.1]
      exact len_lt ind
    refine ⟨?_, hlen, fun ⟨hdata, huih, hpolled⟩ => ?_⟩
    . rw [← hacc.dlci]
      exact dlci_lt ind
    . -- the credit octet the receiver takes off is missing at the end
      have hcredited : ind.credited = true := by
        unfold DataInd.credited
        rw [hacc.dlci, hacc.type, hacc.poll, huih, hpolled]
        simp [hdata]
      have hrest := h.rest_eq hlen
      have hsyn := hacc.passes.syn
      rw [hcredited, Bool.toNat_true] at hrest
      rw [(h.extended_len hlen).2] at hsyn
      have hnone : (ctrlFrame ctrl dlci ctl cr poll data).credits.toList.length = 0 := rfl
      omega
  . intro ⟨hdlci, hlen, hpolled⟩
    have hdlci' : ind.dlci = dlci := by rw [h.dlci_eq hlen haddr, Nat.mod_eq_of_lt hdlci]
    have hcredited : ind.credited = (ctrlFrame ctrl dlci ctl cr poll data).credits.isSome := by
      unfold DataInd.credited
      rw [hdlci', htype hlen, hpoll hlen]
      refine Bool.eq_false_iff.mpr fun hand => hpolled ?_
      simp only [Bool.and_eq_true, decide_eq_true_eq] at hand
      exact ⟨hand.1.1, hand.1.2, hand.2⟩
    have hpasses := h.passes hlen hcredited
    exact
      { dlci := hdlci'
        type := htype hlen
        poll := hpoll hlen
        info := h.info hlen hcredited
        passes := hpasses
        command := isCommand_eq hinit (h.cr_eq hlen haddr)
        handled := fun peer chann hfind =>
          rfcHandleL2cDataInd_of_passes hpasses (by rw [hdlci']; exact hfind) }

end

section

variable {db db' : Db}

def Chann.seen (chann : Chann) : Option Nat × Option Nat × Nat × Nat × Nat :=
  (chann.ctrlChann, chann.service, chann.dlci, chann.remoteRemainCredits, chann.bdAddr)

structure SendsOnly (db db' : Db) : Prop where
  serviceList : db'.serviceList = db.serviceList
  posted : db'.log.posted = db.log.posted
  sent : db.log.sent <+: db'.log.sent
  seen : ∀ id, (db'.chann id).seen = (db.chann id).seen

theorem SendsOnly.refl (db : Db) : SendsOnly db db := ⟨rfl, rfl, List.prefix_rfl, fun _ => rfl⟩

theorem SendsOnly.trans (h : SendsOnly db db') (h' : SendsOnly db' db'') : SendsOnly db db'' where
  serviceList := h'.serviceList.trans h.serviceList
  posted := h'.posted.trans h.posted
  sent := h.sent.trans h'.sent
  seen := fun id => (h'.seen id).trans (h.seen id)

theorem sendsOnly_checkSendCredits (db : Db) (id : Nat) :
    SendsOnly db (checkSendCredits db id) := by
  have hbuf : SendsOnly db (mpaGetL2cBuf db).2 := ⟨rfl, rfl, prefix_rfl, fun _ => rfl⟩
  unfold checkSendCredits
  dsimp only
  split
  . split
    . refine hbuf.trans ⟨rfl, rfl, prefix_append .., fun i => ?_⟩
      exact @chann_modify (mpaGetL2cBuf db).2 id i (fun chann => { chann with givenCredits := 0 })
        (fun _ => rfl) _ Chann.seen fun _ => rfl
    . exact hbuf
  . exact .refl db

theorem sendsOnly_rfcCheckSendCredits (db : Db) : SendsOnly db (rfcCheckSendCredits db) := by
  unfold rfcCheckSendCredits
  generalize db.channList.map Chann.id = l
  induction l generalizing db with
  | nil => exact .refl db
  | cons id l ih => exact (sendsOnly_checkSendCredits db id).trans (ih _)

theorem ctrl_bdAddr (hctrl : c'.ctrlChann = c.ctrlChann)
    (hseen : ∀ id, (db'.chann id).seen = (db.chann id).seen) :
    (db'.ctrl c').bdAddr = (db.ctrl c).bdAddr := by
  unfold Db.ctrl
  rw [hctrl]
  cases c.ctrlChann with
  | none => rfl
  | some id => exact congrArg (fun s => s.2.2.2.2) (hseen id)

end

section

variable {db peer : Db} {chann chann' : Chann} {ind : DataInd} {service : Nat}

def Chann.carried (chann : Chann) : Nat := if chann.creditField then chann.givenCredits else 0

theorem rfcMsgPost_registered (h : db.serviceList.any (·.id = service) = true) (msg : Msg) :
    (rfcMsgPost (some service) msg db).log.posted = db.log.posted ++ [(service, msg)] ∧
      (rfcMsgPost (some service) msg db).channList = db.channList := by
  unfold rfcMsgPost
  dsimp only
  rw [if_pos h]
  exact ⟨rfl, rfl⟩

def Chann.addCredits (credits : Nat) (chann : Chann) : Chann :=
  { chann with remoteRemainCredits := (chann.remoteRemainCredits + credits) % 2 ^ 8 }

section

variable (hdistinct : db.Distinct) (hmem : chann ∈ db.channList)
  (hconv : chann.convergenceLayer = rfcConvergenceCreditCfm)
  (hcredits : chann.remoteRemainCredits < 2 ^ 8) (hpoll : ind.credited = ind.poll)

include hdistinct hmem hconv hcredits hpoll

theorem creditsAdded :
    ∃ db' : Db, (if chann.convergenceLayer = rfcConvergenceCreditCfm && ind.poll &&
        ind.returnCredits ≠ 0 then
      rfcCheckSendCredits <| db.modify chann.id fun chann =>
        { chann with
          remoteRemainCredits := (chann.remoteRemainCredits + ind.returnCredits) % 2 ^ 8 }
    else
      db) = db' ∧ db'.serviceList = db.serviceList ∧ db'.log.posted = db.log.posted ∧
      (db'.chann chann.id).seen = (chann.addCredits ind.returnCredits).seen ∧
      (db'.ctrl chann).bdAddr = (db.ctrl chann).bdAddr := by
  refine ⟨_, rfl, ?_⟩
  split
  . next hadd =>
    have hsends := sendsOnly_rfcCheckSendCredits
      (db.modify chann.id (Chann.addCredits ind.returnCredits))
    have hself := @chann_modify_self db chann.id (mem_map_of_mem hmem)
      (Chann.addCredits ind.returnCredits) fun _ => rfl
    -- the credits that are sent back change no field that the delivery looks at
    refine ⟨hsends.serviceList, hsends.posted, ?_, ?_⟩
    . calc _ = ((db.modify chann.id (Chann.addCredits ind.returnCredits)).chann chann.id).seen :=
          hsends.seen _
        _ = (chann.addCredits ind.returnCredits).seen := by rw [hself, hdistinct.chann hmem]
    . refine (ctrl_bdAddr rfl hsends.seen).trans ?_
      unfold Db.ctrl
      cases chann.ctrlChann with
      | none => rfl
      | some id =>
        exact @chann_modify db chann.id id (Chann.addCredits ind.returnCredits) (fun _ => rfl) _
          Chann.bdAddr fun _ => rfl
  . next hnone =>
    -- there is no octet of credits, or it is zero
    have hzero : ind.returnCredits = 0 := by
      unfold DataInd.returnCredits at hnone ⊢
      rw [hconv, hpoll] at hnone
      rw [hpoll]
      by_cases hpolled : ind.poll = true
      . rw [if_pos hpolled] at hnone ⊢
        simpa [hpolled] using hnone
      . rw [if_neg hpolled]
    refine ⟨rfl, rfl, ?_, rfl⟩
    rw [hzero, Chann.addCredits, Nat.add_zero, Nat.mod_eq_of_lt hcredits, hdistinct.chann hmem]

theorem handleUserData_eq (hservice : chann.service = some service)
    (hreg : db.serviceList.any (·.id = service) = true) (hlen : 0 < ind.len) :
    (handleUserData chann ind db).log.posted = db.log.posted ++
        [(service, .dataInd (db.ctrl chann).bdAddr chann.dlci
          ((chann.remoteRemainCredits + ind.returnCredits) % 2 ^ 8)
          ((List.range ind.len).map fun i => ind.octet (ind.start + i)))] ∧
      ((handleUserData chann ind db).chann chann.id).remoteRemainCredits =
        (chann.remoteRemainCredits + ind.returnCredits) % 2 ^ 8 := by
  obtain ⟨db', hdb', hservices, hposted, hseen, haddr⟩ :=
    creditsAdded hdistinct hmem hconv hcredits hpoll
  simp only [Chann.seen, Chann.addCredits, Prod.mk.injEq] at hseen
  obtain ⟨hctrl, hservice', hdlci, hremain, -⟩ := hseen
  rw [← hservices] at hreg
  unfold handleUserData
  dsimp only
  rw [hdb', if_pos hlen, hservice', hservice]
  obtain ⟨hpost, hlist⟩ := rfcMsgPost_registered hreg (.dataInd
    (db'.ctrl (db'.chann chann.id)).bdAddr (db'.chann chann.id).dlci
    (db'.chann chann.id).remoteRemainCredits
    ((List.range ind.len).map fun i => ind.octet (ind.start + i)))
  rw [chann_congr hlist, hpost, hposted, ctrl_congr hctrl, haddr, hdlci, hremain]
  exact ⟨rfl, rfl⟩

end

structure DataSent (db : Db) (chann : Chann) (data : List UInt8) (ind : DataInd) (peer : Db)
    (chann' : Chann) (service : Nat) : Prop where
  dataChann : chann.dlci ≠ 0
  found : rfcFindChannByAddr (db.ctrl chann).bdAddr chann.dlci db = some chann
  frameSize : chann.frameSize < 2 ^ 15
  accepted : (rfcDataReq (db.ctrl chann).bdAddr chann.dlci data db).2 = true
  carries : ∃ f, (rfcDataReq (db.ctrl chann).bdAddr chann.dlci data db).1.log.sent[
    db.log.sent.length]? = some f ∧ Carries ind f
  distinct : peer.Distinct
  peerFound : rfcFindChannByDlci chann.dlci ind.cid peer = some chann'
  connected : chann'.state = .connected
  creditBased : chann'.convergenceLayer = rfcConvergenceCreditCfm
  credits : chann'.remoteRemainCredits < 2 ^ 8
  initiator : (peer.ctrl chann').initiator = !(db.ctrl chann).initiator
  registered : peer.serviceList.any (·.id = service) = true
  service : chann'.service = some service

structure Delivered (chann : Chann) (data : List UInt8) (ind : DataInd) (peer : Db)
    (chann' : Chann) (service : Nat) : Prop where
  passes : ind.Passes
  dlci : ind.dlci = chann.dlci
  command : isCommand (peer.ctrl chann') ind = true
  posted : (rfcHandleL2cDataInd ind peer).log.posted = peer.log.posted ++
    [(service, .dataInd (peer.ctrl chann').bdAddr chann.dlci
      (chann'.remoteRemainCredits + chann.carried) (data.map UInt8.toNat))]
  credits : ((rfcHandleL2cDataInd ind peer).chann chann'.id).remoteRemainCredits =
    chann'.remoteRemainCredits + chann.carried

theorem rfcDataReq_sent (hfound : rfcFindChannByAddr bdAddr dlci db = some chann)
    (hok : (rfcDataReq bdAddr dlci data db).2 = true) :
    (rfcDataReq bdAddr dlci data db).1.log.sent[db.log.sent.length]? =
      some (dataFrame (db.ctrl chann) chann data) ∧
      0 < data.length ∧ data.length ≤ chann.frameSize := by
  have hctrl : (mpaGetL2cBuf db).2.ctrl chann = db.ctrl chann := rfl
  unfold rfcDataReq at hok ⊢
  rw [hfound] at hok ⊢
  dsimp only at hok ⊢
  split at hok
  . cases hok
  . next hstate =>
    rw [if_neg hstate]
    split at hok
    . cases hok
    . next hlen =>
      rw [if_neg hlen]
      simp only [Bool.or_eq_true, decide_eq_true_eq] at hlen
      split at hok
      . next hbuf =>
        rw [if_pos hbuf, hctrl]
        refine ⟨?_, by omega, by omega⟩
        obtain ⟨rest, hrest⟩ := (sendsOnly_rfcCheckSendCredits ((mpaSendL2cDataReq
          (dataFrame (db.ctrl chann) chann data) (mpaGetL2cBuf db).2).modify chann.id
          Chann.spendCredit)).sent
        have hsent : ((mpaSendL2cDataReq (dataFrame (db.ctrl chann) chann data)
          (mpaGetL2cBuf db).2).modify chann.id Chann.spendCredit).log.sent =
          db.log.sent ++ [dataFrame (db.ctrl chann) chann data] := rfl
        rw [← hrest, hsent]
        simp
      . cases hok

theorem dataFrame_control (chann : Chann) :
    (if chann.creditField then rfcUih ||| rfcPollBit else rfcUih) &&& 0xEF = rfcUih ∧
      decide ((if chann.creditField then rfcUih ||| rfcPollBit else rfcUih) &&& rfcPollBit ≠ 0) =
        chann.creditField := by
  cases chann.creditField <;> decide

structure Arrived (chann : Chann) (data : List UInt8) (ind : DataInd) (peer : Db)
    (chann' : Chann) : Prop where
  passes : ind.Passes
  dlci : ind.dlci = chann.dlci
  type : ind.type = rfcUih
  credited : ind.credited = ind.poll
  returnCredits : ind.returnCredits = chann.carried
  len : ind.len = data.length
  payload : (List.range ind.len).map (fun i => ind.octet (ind.start + i)) = data.map UInt8.toNat
  command : isCommand (peer.ctrl chann') ind = true

section

variable (h : DataSent db chann data ind peer chann' service)

include h

theorem DataSent.frame :
    Carries ind (dataFrame (db.ctrl chann) chann data) ∧ 0 < data.length ∧
      (dataFrame (db.ctrl chann) chann data).info.length < 2 ^ 15 := by
  obtain ⟨f, hsent, hcarries⟩ := h.carries
  obtain ⟨hframe, hpos, hle⟩ := rfcDataReq_sent h.found h.accepted
  rw [hframe, Option.some_inj] at hsent
  subst hsent
  have hlength : (dataFrame (db.ctrl chann) chann data).info.length = data.length := length_map ..
  have hsize := h.frameSize
  exact ⟨hcarries, hpos, by omega⟩

theorem DataSent.arrived (hsix : chann.dlci < 64) : Arrived chann data ind peer chann' := by
  obtain ⟨hcarries, -, hlen⟩ := h.frame
  have haddr : (dataFrame (db.ctrl chann) chann data).addr =
      chann.dlci % 64 * 4 + 2 * (db.ctrl chann).initiator.toNat + 1 := address_dataFrame ..
  have hdlci := hcarries.dlci_eq hlen haddr
  rw [Nat.mod_eq_of_lt hsix] at hdlci
  obtain ⟨htype, hpoll⟩ := dataFrame_control chann
  have huih : ind.type = rfcUih := (hcarries.type_eq hlen).trans htype
  have hpolled : ind.poll = chann.creditField := by
    unfold DataInd.poll
    rw [hcarries.octet_one hlen]
    exact hpoll
  -- on a data channel the octet of credits is there exactly with the poll bit
  have hcreditedPoll : ind.credited = ind.poll := by
    unfold DataInd.credited
    rw [hdlci, huih]
    simp [h.dataChann]
  have hcredited : ind.credited = (dataFrame (db.ctrl chann) chann data).credits.isSome := by
    rw [hcreditedPoll, hpolled]
    unfold dataFrame
    cases chann.creditField <;> rfl
  have hinfo := hcarries.info hlen hcredited
  have hindLen : ind.len = data.length := hinfo.1.trans (length_map ..)
  exact {
    passes := hcarries.passes hlen hcredited
    dlci := hdlci
    type := huih
    credited := hcreditedPoll
    returnCredits := by
      rw [hcarries.returnCredits_eq hlen hcredited]
      unfold dataFrame Chann.carried
      cases chann.creditField <;> rfl
    len := hindLen
    payload := by
      refine ext_getElem (by simp [hindLen]) fun i hi hi' => ?_
      rw [getElem_map, getElem_range, getElem_map]
      refine hinfo.2 i _ ?_
      rw [length_map] at hi'
      simp [dataFrame, getElem?_eq_getElem hi']
    command := by
      unfold isCommand
      rw [hcarries.cr_eq hlen haddr, h.initiator]
      cases (db.ctrl chann).initiator <;> rfl }

theorem DataSent.handled (harrived : Arrived chann data ind peer chann') :
    (rfcHandleL2cDataInd ind peer).log.posted = peer.log.posted ++
        [(service, .dataInd (peer.ctrl chann').bdAddr chann.dlci
          ((chann'.remoteRemainCredits + chann.carried) % 2 ^ 8) (data.map UInt8.toNat))] ∧
      ((rfcHandleL2cDataInd ind peer).chann chann'.id).remoteRemainCredits =
        (chann'.remoteRemainCredits + chann.carried) % 2 ^ 8 := by
  obtain ⟨hmem, hdlci, -⟩ := mem_of_findByDlci h.peerFound
  have hfind : rfcFindChannByDlci ind.dlci ind.cid peer = some chann' := by
    rw [harrived.dlci]
    exact h.peerFound
  obtain ⟨offsets, hhandled⟩ := rfcHandleL2cDataInd_of_passes harrived.passes hfind
  have huser :
    rfcHandleL2cDataInd ind peer = handleUserData chann' ind (peer.read ind offsets) := by
    rw [hhandled, handleFrame, harrived.type, if_neg (by decide), if_neg (by decide),
      if_neg (by decide), if_neg (by decide), if_pos rfl, if_neg (not_not_intro h.connected),
      if_neg (by rw [harrived.dlci]; exact h.dataChann)]
  have hdistinct : (peer.read ind offsets).Distinct := ⟨h.distinct.nodup, h.distinct.fresh⟩
  have hpos : 0 < ind.len := harrived.len ▸ h.frame.2.1
  obtain ⟨hposted, hcredits⟩ := handleUserData_eq hdistinct hmem h.creditBased h.credits
    harrived.credited h.service h.registered hpos
  rw [harrived.returnCredits] at hposted hcredits
  rw [harrived.payload, hdlci] at hposted
  rw [huser]
  exact ⟨hposted, hcredits⟩

theorem delivered_iff :
    Delivered chann data ind peer chann' service ↔
      chann.dlci < 64 ∧ chann'.remoteRemainCredits + chann.carried < 2 ^ 8 := by
  by_cases hsix : chann.dlci < 64
  . have harrived := h.arrived hsix
    obtain ⟨hposted, hcredits⟩ := h.handled harrived
    constructor
    . intro hdelivered
      refine ⟨hsix, ?_⟩
      rw [← hdelivered.credits, hcredits]
      exact Nat.mod_lt _ (by decide)
    . intro ⟨_, hsum⟩
      rw [Nat.mod_eq_of_lt hsum] at hposted hcredits
      exact ⟨harrived.passes, harrived.dlci, harrived.command, hposted, hcredits⟩
  -- the address octet has six bits for the DLCI
  . refine iff_of_false (fun hdelivered => hsix ?_) fun hcond => hsix hcond.1
    rw [← hdelivered.dlci]
    exact dlci_lt ind

end

theorem roundTrip_iff (db : Db) (ind : DataInd) :
    (∀ (octets : List Nat) (rfcs : Nat), rfcs < 2 ^ 8 →
      (crc8EtsCheck octets rfcs = true ↔ rfcs = crc8EtsGen octets)) ∧
    (∀ (ctrl peerCtrl : Chann) (dlci ctl : Nat) (cr poll : Bool) (data : List Octet) (f : Frame),
      ctl ∈ controls → peerCtrl.initiator = !ctrl.initiator →
      (rfcSendFrame ctrl dlci ctl cr poll data db).log.sent = db.log.sent ++ [f] → Carries ind f →
      (Accepted ind peerCtrl dlci ctl cr poll data ↔
        dlci < 64 ∧ data.length < 2 ^ 15 ∧ ¬(dlci ≠ 0 ∧ ctl = rfcUih ∧ poll = true))) ∧
    (∀ (chann : Chann) (data : List UInt8) (peer : Db) (chann' : Chann) (service : Nat),
      DataSent db chann data ind peer chann' service →
      (Delivered chann data ind peer chann' service ↔
        chann.dlci < 64 ∧ chann'.remoteRemainCredits + chann.carried < 2 ^ 8)) := by
  refine ⟨fun octets _ h => crc8EtsCheck_iff octets h, ?_, fun _ _ _ _ _ h => delivered_iff h⟩
  intro ctrl peerCtrl dlci ctl cr poll data f hctl hinit hsent hcarries
  rw [rfcSendFrame_sent hsent] at hcarries
  exact accepted_iff hctl hinit hcarries

theorem Carries.of_octets (hlength : ind.length = f.bytes.length)
    (h : ∀ i < ind.length, f.bytes[i]? = some (.known (ind.octet i))) : Carries ind f where
  length := by
    rw [← hlength, Nat.mod_eq_of_lt ind.length_lt]
  octets := fun i n hi hn => by
    rw [h i hi] at hn
    cases hn
    rfl

def sendCtrl (initiator : Bool) : Chann :=
  { id := 0
    ctrlChann := some 0
    state := .connected
    initiator := initiator
    linkState := .connected
    l2cCid := 64
    bdAddr := 1 }

def sendData (remain given : Nat) : Chann :=
  { id := 1
    ctrlChann := some 0
    service := some 7
    dlci := 10
    state := .connected
    convergenceLayer := rfcConvergenceCreditCfm
    frameSize := 100
    remoteRemainCredits := remain
    givenCredits := given }

def sendDb (initiator : Bool) (remain given : Nat) : Db :=
  { serviceList := [{ id := 7, localServerChann := 5, serviceId := 1 }]
    channList := [sendCtrl initiator, sendData remain given]
    nextId := 2 }

def dataInd : DataInd where
  cid := 64
  length := 7
  gap := 0
  data := fun i => [0x2B, 0xFF, 0x05, 0x64, 0x68, 0x69, 0xAC].getD i 0
  length_lt := by decide

def sabmInd : DataInd where
  cid := 64
  length := 4
  gap := 0
  data := fun i => [0x2B, 0x3F, 0x01, 0x8C].getD i 0
  length_lt := by decide

theorem dataSent (remain : Nat) (h : remain < 2 ^ 8) :
    DataSent (sendDb true 3 100) (sendData 3 100) [0x68, 0x69] dataInd (sendDb false remain 0)
      (sendData remain 0) 7 where
  dataChann := by decide
  found := by decide
  frameSize := by decide
  accepted := by decide
  carries :=
    ⟨dataFrame (sendCtrl true) (sendData 3 100) [0x68, 0x69], by decide,
      Carries.of_octets (by decide) (by decide)⟩
  distinct := ⟨by simp [sendDb, sendCtrl, sendData], by simp [sendDb, sendCtrl, sendData]⟩
  peerFound := rfl
  connected := rfl
  creditBased := rfl
  credits := h
  initiator := rfl
  registered := rfl
  service := rfl

theorem roundTrip_hi :
    crc8EtsCheck [0x2B, 0xFF] 0xAC = true ∧
    Accepted sabmInd (sendCtrl false) 10 rfcSabm true true [] ∧
    Delivered (sendData 3 100) [0x68, 0x69] dataInd (sendDb false 5 0) (sendData 5 0) 7 :=
  ⟨((roundTrip_iff (sendDb true 3 100) sabmInd).1 [0x2B, 0xFF] 0xAC (by decide)).mpr (by decide),
    ((roundTrip_iff (sendDb true 3 100) sabmInd).2.1 (sendCtrl true) (sendCtrl false) 10 rfcSabm
      true true [] (ctrlFrame (sendCtrl true) 10 rfcSabm true true []) (by decide) (by decide)
      (by decide) (Carries.of_octets (by decide) (by decide))).mpr (by decide),
    ((roundTrip_iff _ _).2.2 _ _ _ _ _ (dataSent 5 (by decide))).mpr (by decide)⟩

theorem not_roundTrip :
    ¬∀ (db : Db) (chann : Chann) (data : List UInt8) (ind : DataInd) (peer : Db) (chann' : Chann)
        (service : Nat),
      DataSent db chann data ind peer chann' service →
      Delivered chann data ind peer chann' service := by
  intro h
  have hcredits := (h _ _ _ _ _ _ _ (dataSent 200 (by decide))).credits
  exact absurd hcredits (by decide)

end

end Rfc
