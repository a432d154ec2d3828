import Earphone.Avctp.Basic

namespace Avctp

open Scan

def Sound (chann : ControlChann) : Prop :=
  ∀ buf, chann.reassemblyBuf = some buf →
    buf.size = chann.reassemblyLen ∧ buf.written.length = chann.writeIdx ∧
      chann.writeIdx ≤ chann.reassemblyLen ∧ chann.reassemblyLen < 65536

def PktOk (data : List UInt8) : Prop :=
  0 < data.length ∧ (packetType (data.getD 0 0).toNat = .unfrag → 3 ≤ data.length)
  deriving Decidable

def heldLen (chann : ControlChann) : Nat :=
  match chann.reassemblyBuf with
  | some buf => buf.written.length
  | none => 0

def Effect.len : Effect → Nat
  | .dataInd _ _ data => data.length
  | .invalidPid _ _ => 0

def deliveredLen (effects : List Effect) : Nat := (effects.map Effect.len).sum

def receivedLen (inds : List DataInd) : Nat := (inds.map fun ind => ind.data.length).sum

def Kept (chann : ControlChann) (ind : DataInd) (out : ControlChann × List Effect) : Prop :=
  Sound out.1 ∧ deliveredLen out.2 + heldLen out.1 ≤ heldLen chann + ind.data.length

theorem sound_idle : Sound idle := nofun

@[simp]
theorem reset_buf : (avctpReassemblyBufReset chann).reassemblyBuf = none := by
  unfold avctpReassemblyBufReset
  split
  . rfl
  . assumption

theorem sound_of_none (h : chann.reassemblyBuf = none) : Sound chann := by
  intro buf hbuf
  rw [h] at hbuf
  cases hbuf

theorem heldLen_of_none (h : chann.reassemblyBuf = none) : heldLen chann = 0 := by
  simp [heldLen, h]

theorem deliver_kept (chann : ControlChann) (header : Nat) (data : List UInt8) (l2cBuf : Bool) :
    Sound (deliver chann header data l2cBuf).1 ∧
      deliveredLen (deliver chann header data l2cBuf).2 +
        heldLen (deliver chann header data l2cBuf).1 ≤ data.length := by
  refine ⟨sound_of_none reset_buf, ?_⟩
  have hnone : heldLen (deliver chann header data l2cBuf).1 = 0 := heldLen_of_none reset_buf
  rw [hnone]
  simp only [deliver]
  split_ifs <;> simp [deliveredLen, Effect.len]

theorem byteAt_getD (h : i < data.length) : byteAt data i = .ok (data.getD i 0).toNat := by
  rw [byteAt_lt h]
  simp [h]

theorem be16At_lt (data : List UInt8) (i : Nat) (h : i + 1 < data.length) :
    ∃ v, be16At data i = .ok v := by
  refine ⟨(data.getD i 0).toNat * 256 + (data.getD (i + 1) 0).toNat, ?_⟩
  simp only [be16At, byteAt_getD (by omega : i < data.length), byteAt_getD h, bind, Except.bind]
  rfl

theorem be16At_le (h : be16At data i = .ok v) : i + 1 < data.length := by
  obtain ⟨hi, _, h⟩ := bind_ok.mp h
  obtain ⟨lo, hlo, _⟩ := bind_ok.mp h
  exact byteAt_ok hlo

theorem fragment_kept (chann : ControlChann) (ind : DataInd) (header pos length : Nat)
    (hsound : Sound chann) (hpos : pos + length = ind.data.length) :
    ∃ out, fragmentInd chann ind header pos length = .ok out ∧ Kept chann ind out := by
  unfold fragmentInd
  cases hbuf : chann.reassemblyBuf with
  | none =>
    refine ⟨_, rfl, hsound, ?_⟩
    simp [deliveredLen]
  | some buf =>
    obtain ⟨hsize, hwritten, hle, hlt⟩ := hsound buf hbuf
    by_cases hreset : chann.pktNum = 0 ∨ packetType header = .end ∧ chann.pktNum > 1 ∨
        chann.writeIdx + length > chann.reassemblyLen
    . simp only [if_pos hreset]
      refine ⟨_, rfl, sound_of_none reset_buf, ?_⟩
      simp [heldLen_of_none reset_buf, deliveredLen]
    . simp only [if_neg hreset]
      have hfits : chann.writeIdx + length ≤ chann.reassemblyLen := by omega
      have hdata : ((ind.data.drop pos).take length).length = length := by
        simp only [List.length_take, List.length_drop]
        omega
      have hroom : chann.writeIdx + ((ind.data.drop pos).take length).length ≤ buf.size := by omega
      have hidx : (chann.writeIdx + length) % 65536 = chann.writeIdx + length :=
        Nat.mod_eq_of_lt (by omega)
      have htake : buf.written.take chann.writeIdx = buf.written :=
        List.take_of_length_le (by omega)
      have hheld : heldLen chann = chann.writeIdx := by simp [heldLen, hbuf, hwritten]
      simp only [bytesAt_le (by omega : pos + length ≤ ind.data.length), copyAt, if_pos hroom, hidx,
        htake, bind, Except.bind]
      have hlen : (buf.written ++ (ind.data.drop pos).take length).length =
          chann.writeIdx + length := by
        rw [List.length_append, hdata, hwritten]
      split
      case isTrue hend =>
        have hdel := deliver_kept
          { chann with
            reassemblyBuf := some { buf with
              written := buf.written ++ (ind.data.drop pos).take length }
            writeIdx := chann.writeIdx + length
            pktNum := chann.pktNum - 1 }
          header ((buf.written ++ (ind.data.drop pos).take length).take (chann.writeIdx + length))
          ind.l2cBuf
        refine ⟨_, rfl, hdel.1, Nat.le_trans hdel.2 ?_⟩
        rw [List.length_take, hlen, hheld]
        omega
      case isFalse hmore =>
        refine ⟨_, rfl, ?_, ?_⟩
        . rintro b hb
          cases hb
          exact ⟨hsize, hlen, hfits, hlt⟩
        . simp only [deliveredLen, heldLen, hbuf, hlen, hwritten]
          simp
          omega

theorem start_kept (header : Nat) (hsound : Sound chann) (hpos : 0 < ind.data.length) :
    ∃ out, startInd chann ind header (sub16 ind.data.length 1) = .ok out ∧ Kept chann ind out := by
  have hlt := ind.data_lt
  unfold startInd
  by_cases hshort : ind.data.length < avctpStartHdrLength
  . rw [if_pos hshort]
    refine ⟨_, rfl, hsound, ?_⟩
    simp [deliveredLen]
  . rw [if_neg hshort]
    have hlen : 4 ≤ ind.data.length := by
      unfold avctpStartHdrLength at hshort
      omega
    obtain ⟨profileId, hprofile⟩ := be16At_lt ind.data 2 (by omega)
    simp only [byteAt_getD (by omega : 1 < ind.data.length), hprofile, bind, Except.bind]
    have hrest : sub16 (sub16 (sub16 ind.data.length 1) 1) 2 = ind.data.length - 4 := by
      unfold sub16
      omega
    rw [hrest]
    obtain ⟨out, hout, hkept, hheld⟩ := fragment_kept
      { avctpReassemblyBufReset chann with
        pktNum := (ind.data.getD 1 0).toNat
        profileId := profileId
        reassemblyLen := (ind.data.getD 1 0).toNat * ind.data.length % 65536
        reassemblyBuf :=
          if ind.granted then some ⟨(ind.data.getD 1 0).toNat * ind.data.length % 65536, []⟩
          else none
        writeIdx := 0 } ind header 4 (ind.data.length - 4) (by
        intro buf hbuf
        simp only at hbuf
        split at hbuf
        . cases hbuf
          exact ⟨rfl, rfl, Nat.zero_le _, Nat.mod_lt _ (by decide)⟩
        . cases hbuf) (by omega)
    refine ⟨out, hout, hkept, Nat.le_trans hheld ?_⟩
    simp only [heldLen]
    split
    . next h =>
        split at h
        . cases h
          simp
        . cases h
    . omega

theorem unfrag_kept :
    (∃ out, unfragInd chann ind header (sub16 ind.data.length 1) = .ok out) ↔
      3 ≤ ind.data.length := by
  have hlt := ind.data_lt
  unfold unfragInd
  constructor
  . rintro ⟨out, h⟩
    obtain ⟨profileId, hprofile, _⟩ := bind_ok.mp h
    have := be16At_le hprofile
    omega
  . intro hlen
    obtain ⟨profileId, hprofile⟩ := be16At_lt ind.data 1 (by omega)
    have hrest : sub16 (sub16 ind.data.length 1) 2 = ind.data.length - 3 := by
      unfold sub16
      omega
    have hle : 3 + sub16 (sub16 ind.data.length 1) 2 ≤ ind.data.length := by omega
    exact ⟨_, bind_ok.mpr ⟨profileId, hprofile, bind_ok.mpr ⟨_, bytesAt_le hle, rfl⟩⟩⟩

theorem unfrag_out
    (h : unfragInd chann ind header (sub16 ind.data.length 1) = .ok out) : Kept chann ind out := by
  unfold unfragInd at h
  obtain ⟨profileId, _, h⟩ := bind_ok.mp h
  obtain ⟨data, hdata, h⟩ := bind_ok.mp h
  rw [← Except.ok.inj h]
  have hdel := deliver_kept
    { avctpReassemblyBufReset chann with profileId := profileId } header data ind.l2cBuf
  refine ⟨hdel.1, Nat.le_trans hdel.2 ?_⟩
  unfold bytesAt at hdata
  split at hdata
  . rw [← Except.ok.inj hdata, List.length_take, List.length_drop]
    omega
  . cases hdata

theorem handle_iff (hsound : Sound chann) :
    (∃ out, avctpHandleL2cDataInd chann ind = .ok out) ↔ PktOk ind.data := by
  have hlt := ind.data_lt
  by_cases hpos : 0 < ind.data.length
  . unfold avctpHandleL2cDataInd PktOk
    simp only [byteAt_getD hpos, bind, Except.bind, hpos, true_and]
    have hlen : sub16 ind.data.length 1 = ind.data.length - 1 := sub16_le (by omega) hlt
    cases htype : packetType (ind.data.getD 0 0).toNat with
    | unfrag =>
      simp only [forall_const]
      exact unfrag_kept
    | start =>
      obtain ⟨out, hout, _⟩ := start_kept (ind.data.getD 0 0).toNat hsound hpos
      simp only [reduceCtorEq, false_implies, iff_true]
      exact ⟨out, hout⟩
    | «continue» =>
      obtain ⟨out, hout, _⟩ := fragment_kept chann ind (ind.data.getD 0 0).toNat 1
        (sub16 ind.data.length 1) hsound (by omega)
      simp only [reduceCtorEq, false_implies, iff_true]
      exact ⟨out, hout⟩
    | «end» =>
      obtain ⟨out, hout, _⟩ := fragment_kept chann ind (ind.data.getD 0 0).toNat 1
        (sub16 ind.data.length 1) hsound (by omega)
      simp only [reduceCtorEq, false_implies, iff_true]
      exact ⟨out, hout⟩
  . have hnot : ¬PktOk ind.data := fun h => hpos h.1
    simp only [hnot, iff_false]
    rintro ⟨out, h⟩
    obtain ⟨header, hheader, _⟩ := bind_ok.mp h
    have := byteAt_ok hheader
    omega

theorem handle_kept (hsound : Sound chann)
    (h : avctpHandleL2cDataInd chann ind = .ok out) : Kept chann ind out := by
  have hlt := ind.data_lt
  have hpos := ((handle_iff hsound).mp ⟨out, h⟩).1
  unfold avctpHandleL2cDataInd at h
  simp only [byteAt_getD hpos, bind, Except.bind] at h
  have hlen : sub16 ind.data.length 1 = ind.data.length - 1 := sub16_le (by omega) hlt
  split at h
  . exact unfrag_out h
  . obtain ⟨out', hout, hkept⟩ := start_kept (ind.data.getD 0 0).toNat hsound hpos
    cases h.symm.trans hout
    exact hkept
  . obtain ⟨out', hout, hkept⟩ := fragment_kept chann ind (ind.data.getD 0 0).toNat 1
      (sub16 ind.data.length 1) hsound (by omega)
    cases h.symm.trans hout
    exact hkept

theorem receive_cons :
    receive chann (ind :: inds) = .ok out ↔
      ∃ first later, avctpHandleL2cDataInd chann ind = .ok first ∧
        receive first.1 inds = .ok later ∧ out = (later.1, first.2 ++ later.2) := by
  rw [receive, bind_ok]
  constructor
  . rintro ⟨first, hfirst, h⟩
    obtain ⟨later, hlater, h⟩ := bind_ok.mp h
    exact ⟨first, later, hfirst, hlater, (Except.ok.inj h).symm⟩
  . rintro ⟨first, later, hfirst, hlater, rfl⟩
    exact ⟨first, hfirst, bind_ok.mpr ⟨later, hlater, rfl⟩⟩

theorem receive_iff (hsound : Sound chann) :
    (∃ out, receive chann inds = .ok out) ↔ ∀ ind ∈ inds, PktOk ind.data := by
  induction inds generalizing chann with
  | nil => simp [receive]
  | cons ind inds ih =>
    rw [List.forall_mem_cons]
    constructor
    . rintro ⟨out, h⟩
      obtain ⟨first, later, hfirst, hlater, _⟩ := receive_cons.mp h
      exact ⟨(handle_iff hsound).mp ⟨first, hfirst⟩,
        (ih (handle_kept hsound hfirst).1).mp ⟨later, hlater⟩⟩
    . rintro ⟨hind, hinds⟩
      obtain ⟨first, hfirst⟩ := (handle_iff hsound).mpr hind
      obtain ⟨later, hlater⟩ := (ih (handle_kept hsound hfirst).1).mpr hinds
      exact ⟨_, receive_cons.mpr ⟨first, later, hfirst, hlater, rfl⟩⟩

theorem deliveredLen_append :
    deliveredLen (effects ++ later) = deliveredLen effects + deliveredLen later := by
  simp [deliveredLen]

theorem receive_len (hsound : Sound chann)
    (h : receive chann inds = .ok out) :
    deliveredLen out.2 + heldLen out.1 ≤ heldLen chann + receivedLen inds := by
  induction inds generalizing chann out with
  | nil =>
    rw [← Except.ok.inj h]
    simp [deliveredLen, receivedLen]
  | cons ind inds ih =>
    obtain ⟨first, later, hfirst, hlater, rfl⟩ := receive_cons.mp h
    obtain ⟨hsound1, hlen1⟩ := handle_kept hsound hfirst
    have hlen2 := ih hsound1 hlater
    simp only [deliveredLen_append, receivedLen, List.map_cons, List.sum_cons] at hlen2 ⊢
    omega

theorem browsing_iff :
    (∃ effects, avctpBrowsingHandleL2cDataInd ind = .ok effects) ↔ 3 ≤ ind.data.length := by
  have hlt := ind.data_lt
  unfold avctpBrowsingHandleL2cDataInd
  constructor
  . rintro ⟨effects, h⟩
    obtain ⟨header, _, h⟩ := bind_ok.mp h
    obtain ⟨profileId, hprofile, _⟩ := bind_ok.mp h
    have := be16At_le hprofile
    omega
  . intro hlen
    obtain ⟨profileId, hprofile⟩ := be16At_lt ind.data 1 (by omega)
    have hrest : sub16 (sub16 ind.data.length 1) 2 = ind.data.length - 3 := by
      unfold sub16
      omega
    have hheader := byteAt_getD (by omega : 0 < ind.data.length)
    have hle : 3 + sub16 (sub16 ind.data.length 1) 2 ≤ ind.data.length := by omega
    exact ⟨_, bind_ok.mpr ⟨_, hheader, bind_ok.mpr ⟨profileId, hprofile,
      bind_ok.mpr ⟨_, bytesAt_le hle, rfl⟩⟩⟩⟩

structure Fragment where
  header : UInt8
  payload : List UInt8

structure Message where
  start : Fragment
  conts : List Fragment
  last : Fragment
  start_type : packetType start.header.toNat = .start
  conts_type : ∀ f ∈ conts, packetType f.header.toNat = .continue
  last_type : packetType last.header.toNat = .end
  num_lt : conts.length + 2 < 256
  start_lt : start.payload.length + 4 < 65536
  conts_le : ∀ f ∈ conts, f.payload.length + 1 ≤ start.payload.length + 4
  last_le : last.payload.length + 1 ≤ start.payload.length + 4

namespace Message

def num (msg : Message) : Nat := msg.conts.length + 2

def bytes (msg : Message) : List UInt8 :=
  msg.start.payload ++ (msg.conts.map Fragment.payload).flatten ++ msg.last.payload

def startLen (msg : Message) : Nat := msg.start.payload.length + 4

def startInd (msg : Message) (l2cBuf : Bool) : DataInd where
  data := msg.start.header :: UInt8.ofNat msg.num :: 0x11 :: 0x0e :: msg.start.payload
  data_lt := by
    have := msg.start_lt
    simpa using this
  granted := true
  l2cBuf := l2cBuf

end Message

def restInd (f : Fragment) (hlt : f.payload.length + 1 < 65536) (granted l2cBuf : Bool) :
    DataInd where
  data := f.header :: f.payload
  data_lt := by simpa using hlt
  granted := granted
  l2cBuf := l2cBuf

inductive ContInds : List Fragment → List DataInd → Prop where
  | nil : ContInds [] []
  | cons {f : Fragment} {fs : List Fragment} {inds : List DataInd} {granted l2cBuf : Bool}
      (hlt : f.payload.length + 1 < 65536) (hrest : ContInds fs inds) :
      ContInds (f :: fs) (restInd f hlt granted l2cBuf :: inds)

def Delivered (chann : ControlChann) (msg : Message) (startBuf : Bool) (conts : List DataInd)
    (last : DataInd) : Prop :=
  ∃ held done, receive chann (msg.startInd startBuf :: conts) = .ok (held, []) ∧
    avctpHandleL2cDataInd held last =
      .ok (done, [.dataInd (transactLabel msg.last.header.toNat) (crtype msg.last.header.toNat)
        msg.bytes])

def midway (room num : Nat) (got : List UInt8) : ControlChann :=
  if got.length ≤ room then ⟨uuidAvRemoteControl, num, got.length, room, some ⟨room, got⟩⟩
  else idle

section

variable {room num : Nat} {got : List UInt8} {f : Fragment} {chann : ControlChann} {msg : Message}

theorem fragment_fits (hroom : room < 65536) (hgot : got.length + payload.length ≤ room)
    (hpayload : (ind.data.drop pos).take payload.length = payload)
    (hpos : pos + payload.length ≤ ind.data.length)
    (hend : packetType header = .end → num = 0) :
    fragmentInd (midway room (num + 1) got) ind header pos payload.length =
      if packetType header = .end then
        .ok (idle, [.dataInd (transactLabel header) (crtype header) (got ++ payload)])
      else .ok (midway room num (got ++ payload), []) := by
  have hle : got.length ≤ room := by omega
  have hlen : (got ++ payload).length = got.length + payload.length := List.length_append
  have hidx : (got.length + payload.length) % 65536 = got.length + payload.length :=
    Nat.mod_eq_of_lt (by omega)
  have hgo : ¬(num + 1 = 0 ∨ packetType header = .end ∧ num + 1 > 1 ∨
      got.length + payload.length > room) := by
    rintro (h | ⟨h, hnum⟩ | h)
    . omega
    . have := hend h
      omega
    . omega
  have htake : List.take (got.length + payload.length) (got ++ payload) = got ++ payload :=
    List.take_of_length_le (by omega)
  unfold fragmentInd
  simp only [midway, if_pos hle, if_neg hgo, bytesAt_le hpos, hpayload, copyAt,
    if_pos hgot, hidx, List.take_length, htake, bind, Except.bind]
  split
  . rfl
  . rw [if_pos (by omega)]
    simp only [hlen]
    rfl

theorem fragment_over (hover : room < got.length + length) :
    fragmentInd (midway room num got) ind header pos length = .ok (idle, []) := by
  unfold fragmentInd midway
  by_cases hle : got.length ≤ room
  . have hreset : num = 0 ∨ packetType header = .end ∧ num > 1 ∨ got.length + length > room :=
      .inr (.inr hover)
    simp only [if_pos hle, if_pos hreset]
    rfl
  . simp only [if_neg hle]
    rfl

theorem rest_handle (hlt : f.payload.length + 1 < 65536)
    (hstart : packetType f.header.toNat ≠ .start) (hunfrag : packetType f.header.toNat ≠ .unfrag) :
    avctpHandleL2cDataInd chann (restInd f hlt granted l2cBuf) =
      fragmentInd chann (restInd f hlt granted l2cBuf) f.header.toNat 1 f.payload.length := by
  have hlen : sub16 (restInd f hlt granted l2cBuf).data.length 1 = f.payload.length := by
    simp only [restInd, List.length_cons, sub16]
    omega
  have hheader : byteAt (restInd f hlt granted l2cBuf).data 0 = .ok f.header.toNat := rfl
  unfold avctpHandleL2cDataInd
  simp only [hheader, bind, Except.bind, hlen]

theorem cont_step (hroom : room < 65536) (hlt : f.payload.length + 1 < 65536)
    (htype : packetType f.header.toNat = .continue) :
    avctpHandleL2cDataInd (midway room (num + 1) got) (restInd f hlt granted l2cBuf) =
      .ok (midway room num (got ++ f.payload), []) := by
  rw [rest_handle hlt (by simp [htype]) (by simp [htype])]
  by_cases hfits : got.length + f.payload.length ≤ room
  . rw [fragment_fits hroom hfits (by simp [restInd]) (by simp [restInd]; omega)
      (by simp [htype])]
    simp [htype]
  . rw [fragment_over (by omega), midway, if_neg (by rw [List.length_append]; omega)]

theorem end_step (got : List UInt8) (granted l2cBuf : Bool) (hroom : room < 65536)
    (hlt : f.payload.length + 1 < 65536) (htype : packetType f.header.toNat = .end) :
    avctpHandleL2cDataInd (midway room 1 got) (restInd f hlt granted l2cBuf) =
      .ok (idle, if got.length + f.payload.length ≤ room then
        [.dataInd (transactLabel f.header.toNat) (crtype f.header.toNat) (got ++ f.payload)]
        else []) := by
  rw [rest_handle hlt (by simp [htype]) (by simp [htype])]
  by_cases hfits : got.length + f.payload.length ≤ room
  . rw [fragment_fits hroom hfits (by simp [restInd]) (by simp [restInd]; omega) (fun _ => rfl)]
    simp [htype, hfits]
  . rw [fragment_over (by omega), if_neg hfits]

theorem conts_receive (num : Nat) (got : List UInt8) (hroom : room < 65536)
    (hinds : ContInds fs inds) (htype : ∀ f ∈ fs, packetType f.header.toNat = .continue) :
    receive (midway room (num + fs.length) got) inds =
      .ok (midway room num (got ++ (fs.map Fragment.payload).flatten), []) := by
  induction hinds generalizing got with
  | nil => simp [receive]
  | cons hlt _ ih =>
    rw [List.forall_mem_cons] at htype
    refine receive_cons.mpr ⟨_, _, cont_step hroom hlt htype.1, ih _ htype.2, ?_⟩
    simp

theorem start_handle {l2cBuf : Bool} :
    avctpHandleL2cDataInd chann (msg.startInd l2cBuf) =
      .ok (midway (msg.num * msg.startLen % 65536) (msg.conts.length + 1) msg.start.payload,
        []) := by
  have hlt := msg.start_lt
  have hnum := msg.num_lt
  have hroom : msg.num * msg.startLen % 65536 < 65536 := Nat.mod_lt _ (by decide)
  have hlen : (msg.startInd l2cBuf).data.length = msg.startLen := by
    simp [Message.startInd, Message.startLen]
  have hpktNum : (UInt8.ofNat msg.num).toNat = msg.num := by
    rw [UInt8.toNat_ofNat']
    exact Nat.mod_eq_of_lt hnum
  have hrest : sub16 (sub16 (sub16 msg.startLen 1) 1) 2 = msg.start.payload.length := by
    unfold sub16 Message.startLen
    omega
  have hheader : byteAt (msg.startInd l2cBuf).data 0 = .ok msg.start.header.toNat := rfl
  have hbyte : byteAt (msg.startInd l2cBuf).data 1 = .ok msg.num := by
    rw [← hpktNum]
    rfl
  have hprofile : be16At (msg.startInd l2cBuf).data 2 = .ok uuidAvRemoteControl := rfl
  have hshort : ¬msg.startLen < avctpStartHdrLength := by
    unfold Message.startLen avctpStartHdrLength
    omega
  unfold avctpHandleL2cDataInd
  simp only [hheader, bind, Except.bind, msg.start_type, startInd, hlen, if_neg hshort, hbyte,
    hprofile, hrest]
  have hmid : (⟨uuidAvRemoteControl, msg.num, 0, msg.num * msg.startLen % 65536,
      some ⟨msg.num * msg.startLen % 65536, []⟩⟩ : ControlChann) =
      midway (msg.num * msg.startLen % 65536) (msg.conts.length + 1 + 1) [] := by
    simp [midway, Message.num]
  have hgranted : (msg.startInd l2cBuf).granted = true := rfl
  simp only [hgranted, if_true]
  rw [hmid]
  by_cases hfits : msg.start.payload.length ≤ msg.num * msg.startLen % 65536
  . rw [fragment_fits hroom (by simpa using hfits) (by simp [Message.startInd])
      (by rw [hlen]; unfold Message.startLen; omega) (by simp [msg.start_type])]
    simp [msg.start_type]
  . rw [fragment_over (by simpa using hfits), midway, if_neg hfits]

theorem delivered_iff
    (hconts : ContInds msg.conts conts) (hlt : msg.last.payload.length + 1 < 65536) :
    Delivered chann msg startBuf conts (restInd msg.last hlt granted l2cBuf) ↔
      msg.bytes.length ≤ msg.num * msg.startLen % 65536 := by
  have hroom : msg.num * msg.startLen % 65536 < 65536 := Nat.mod_lt _ (by decide)
  have hrun : receive chann (msg.startInd startBuf :: conts) =
      .ok (midway (msg.num * msg.startLen % 65536) 1
        (msg.start.payload ++ (msg.conts.map Fragment.payload).flatten), []) := by
    have h := conts_receive 1 msg.start.payload hroom hconts msg.conts_type
    rw [Nat.add_comm] at h
    exact receive_cons.mpr ⟨_, _, start_handle, h, rfl⟩
  have hlen : (msg.start.payload ++ (msg.conts.map Fragment.payload).flatten).length +
      msg.last.payload.length = msg.bytes.length := by
    simp only [Message.bytes, List.length_append]
  have hend := end_step (msg.start.payload ++ (msg.conts.map Fragment.payload).flatten) granted
    l2cBuf hroom hlt msg.last_type
  rw [hlen] at hend
  constructor
  . rintro ⟨held, done, hheld, hdone⟩
    cases hrun.symm.trans hheld
    rw [hend] at hdone
    by_contra hover
    rw [if_neg hover] at hdone
    cases hdone
  . intro hfits
    rw [if_pos hfits] at hend
    exact ⟨_, _, hrun, hend⟩

end

theorem reassembly_iff (inds : List DataInd) (ind : DataInd) :
    (∀ chann msg startBuf granted l2cBuf conts, ContInds (Message.conts msg) conts →
      ∀ hlt : msg.last.payload.length + 1 < 65536,
        (Delivered chann msg startBuf conts (restInd msg.last hlt granted l2cBuf) ↔
          msg.bytes.length ≤ msg.num * msg.startLen % 65536)) ∧
    ((∃ out, receive idle inds = .ok out) ↔ ∀ pkt ∈ inds, PktOk pkt.data) ∧
    (∀ out, receive idle inds = .ok out → deliveredLen out.2 ≤ receivedLen inds) ∧
    ((∃ effects, avctpBrowsingHandleL2cDataInd ind = .ok effects) ↔ 3 ≤ ind.data.length) := by
  refine ⟨fun chann msg startBuf granted l2cBuf conts hconts hlt => delivered_iff hconts hlt,
    receive_iff sound_idle, ?_, browsing_iff⟩
  intro out h
  have hlen := receive_len sound_idle h
  have hidle : heldLen idle = 0 := rfl
  omega

def threePkts : Message where
  start := ⟨0x54, [1, 2]⟩
  conts := [⟨0x58, [3, 4]⟩]
  last := ⟨0x5c, [5, 6]⟩
  start_type := by decide
  conts_type := by decide
  last_type := by decide
  num_lt := by decide
  start_lt := by decide
  conts_le := by decide
  last_le := by decide

def unfragShort : DataInd := ⟨[0x10], by decide, true, true⟩

theorem reassembly_threePkts :
    Delivered idle threePkts true [restInd ⟨0x58, [3, 4]⟩ (by decide) true true]
      (restInd threePkts.last (by decide) true true) :=
  ((reassembly_iff [] unfragShort).1 idle threePkts true true true _ (.cons (by decide) .nil)
    (by decide)).mpr (by decide)

theorem not_reassembly :
    ¬((∀ chann msg startBuf granted l2cBuf conts, ContInds (Message.conts msg) conts →
        ∀ hlt : msg.last.payload.length + 1 < 65536,
          Delivered chann msg startBuf conts (restInd msg.last hlt granted l2cBuf)) ∧
      ∀ inds, ∃ out, receive idle inds = .ok out) := by
  rintro ⟨_, h⟩
  have hpkts := (receive_iff sound_idle).mp (h [unfragShort])
  have hpkt : PktOk unfragShort.data := hpkts unfragShort List.mem_cons_self
  revert hpkt
  decide

end Avctp
