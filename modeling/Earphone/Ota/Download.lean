import Earphone.Ota.Basic

namespace Ota

structure OtaDb.Wf (db : OtaDb) : Prop where
  on : db.bufferCheckEn = true → ∃ b, db.pOtaTempBufHead = some b ∧ b.length = db.bufferSize
  off : db.bufferCheckEn = false → db.bufferSize = 0
  gap : db.bufferCheckOffset < sectionLen

def OtaDb.Room (db : OtaDb) : Prop :=
  db.bufferCheckOffset ≠ 0 → ∃ b ∈ db.pOtaTempBufHead, db.bufferCheckOffset ≤ b.length

def Op.Ok (w : World) : Op → Prop
  | .getImgInfo imageId known dfuBaseAddr =>
    w.db.otaTempBufUsedSize = 0 ∧ (imageId = w.db.imageId ∨ w.db.curOffset = 0) ∧
      (known = true → dfuBaseAddr % sectionLen = 0 ∨ w.db.curOffset = 0)
  | .bufferCheckEn _ _ _ => True
  | .dataPacket none _ => True
  | .dataPacket (some p) a =>
    w.db.curOffset + p.length + w.db.otaTempBufUsedSize < 2 ^ 32 ∧
      (w.db.bufferCheckEn = false → w.db.Room ∨ w.db.pOtaTempBufHead = none ∧ a.mem = true)
  | .bufferCheck none _ => True
  | .bufferCheck (some dataSize) a =>
    dataSize = w.db.otaTempBufUsedSize →
      if a.crcFails then w.db.bufferCheckOffset = 0
      else w.db.pOtaTempBufHead = none ∨ w.db.Room

instance (db : OtaDb) : Decidable db.Room :=
  inferInstanceAs (Decidable (_ → ∃ b ∈ db.pOtaTempBufHead, _))

instance (w : World) : (op : Op) → Decidable (op.Ok w)
  | .getImgInfo .. | .dataPacket (some _) _ => instDecidableAnd
  | .bufferCheckEn .. | .dataPacket none _ | .bufferCheck none _ => .isTrue trivial
  | .bufferCheck (some _) _ => inferInstanceAs (Decidable (_ → ite ..))

def Ok (w : Except Fault World) (op : Op) : Prop :=
  match w with
  | .ok w => op.Ok w
  | .error _ => False

instance : (w : Except Fault World) → (op : Op) → Decidable (Ok w op)
  | .ok w, op => inferInstanceAs (Decidable (op.Ok w))
  | .error _, _ => .isFalse id

structure Sound (w : World) : Prop where
  length : w.accepted.length = w.db.curOffset + w.db.otaTempBufUsedSize
  image : ∀ i < w.db.curOffset, w.flash i = w.accepted[i]?
  le : w.db.curOffset ≤ w.db.imageTotalLength
  reported : ∀ offset ∈ w.reported, offset = w.accepted.length

def Op.Refused (w : World) : Op → Prop
  | .dataPacket (some p) _ =>
    w.db.imageTotalLength < w.db.curOffset + p.length + w.db.otaTempBufUsedSize ∨
      w.db.bufferCheckEn = true ∧
        w.db.bufferSize < w.db.otaTempBufUsedSize + w.db.bufferCheckOffset + p.length
  | .bufferCheck (some dataSize) a => dataSize ≠ w.db.otaTempBufUsedSize ∨ a.crcFails = true
  | _ => False

structure Kept (w w' : World) : Prop where
  code : w'.code ≠ .success
  offset : w'.db.curOffset = w.db.curOffset
  flash : w'.flash = w.flash
  gap : w'.db.bufferCheckOffset = w.db.bufferCheckOffset
  used : w'.db.otaTempBufUsedSize = w.db.otaTempBufUsedSize ∨ w'.db.otaTempBufUsedSize = 0

def Collected (w : World) : Prop :=
  ∃ b ∈ w.db.pOtaTempBufHead,
    w.db.bufferCheckOffset + w.db.otaTempBufUsedSize ≤ b.length ∧
      (b.drop w.db.bufferCheckOffset).take w.db.otaTempBufUsedSize = w.accepted.drop w.db.curOffset

structure Inv (w : World) : Prop where
  wf : w.db.Wf
  process : w.db.isOtaProcess = true
  length : w.accepted.length = w.db.curOffset + w.db.otaTempBufUsedSize
  le : w.db.curOffset + w.db.otaTempBufUsedSize ≤ w.db.imageTotalLength
  image : ∀ i < w.db.curOffset, w.flash i = w.accepted[i]?
  off : w.db.bufferCheckEn = false → w.db.otaTempBufUsedSize = 0
  buffer : w.db.otaTempBufUsedSize ≠ 0 → Collected w
  gap : w.db.bufferCheckOffset ≠ 0 → w.db.curOffset = 0
  reported : ∀ offset ∈ w.reported, offset = w.accepted.length

theorem sound_of_inv (h : Inv w) : Sound w where
  length := h.length
  image := h.image
  le := by have := h.le; omega
  reported := h.reported

theorem lay_lt (h : i + gap < offset) : lay flash offset gap bytes i = flash i := by
  unfold lay
  rw [if_neg (by omega)]

theorem lay_payload (hfront : front.length = gap)
    (hj : j < payload.length) :
    lay flash offset gap (front ++ payload) (offset + j) = payload[j]? := by
  unfold lay
  rw [List.length_append, if_pos (by omega), List.getElem?_append_right (by omega)]
  congr 1
  omega

theorem spoil_lt (h : i + gap < offset) : spoil flash offset gap i = flash i := by
  unfold spoil
  rw [if_pos h]

section

variable {a : Answers} {db : OtaDb} {flash : Flash}

def gapped (db : OtaDb) (gap : Nat → UInt8) : OtaDb :=
  if db.bufferCheckOffset = 0 then db
  else
    { db with
      pOtaTempBufHead := db.pOtaTempBufHead.map fun b =>
        (List.range db.bufferCheckOffset).map gap ++ b.drop db.bufferCheckOffset }

theorem readGap_eq (h : db.Room) (gap : Nat → UInt8) : readGap db gap = .ok (gapped db gap) := by
  unfold readGap gapped
  by_cases h0 : db.bufferCheckOffset = 0
  . simp only [if_pos h0]
  . obtain ⟨b, hb, hle⟩ := h h0
    rw [Option.mem_def] at hb
    simp only [if_neg h0, hb, if_pos hle, Option.map_some]

theorem gapped_head (gap : Nat → UInt8)
    (hb : db.pOtaTempBufHead = some b) :
    ∃ front, front.length = db.bufferCheckOffset ∧
      (gapped db gap).pOtaTempBufHead = some (front ++ b.drop db.bufferCheckOffset) := by
  unfold gapped
  by_cases h0 : db.bufferCheckOffset = 0
  . refine ⟨[], by rw [h0, List.length_nil], ?_⟩
    rw [if_pos h0, hb, h0, List.drop_zero, List.nil_append]
  . refine ⟨(List.range db.bufferCheckOffset).map gap, by simp, ?_⟩
    rw [if_neg h0, hb]
    rfl

theorem gapped_eq (db : OtaDb) (gap : Nat → UInt8) :
    ∃ head, gapped db gap = { db with pOtaTempBufHead := head } := by
  unfold gapped
  split
  . exact ⟨_, rfl⟩
  . exact ⟨_, rfl⟩

@[simp]
theorem gapped_offset (gap : Nat → UInt8) :
    (gapped db gap).bufferCheckOffset = db.bufferCheckOffset := by
  unfold gapped
  split <;> rfl

@[simp]
theorem gapped_curOffset (gap : Nat → UInt8) : (gapped db gap).curOffset = db.curOffset := by
  unfold gapped
  split <;> rfl

@[simp]
theorem gapped_en (gap : Nat → UInt8) : (gapped db gap).bufferCheckEn = db.bufferCheckEn := by
  unfold gapped
  split <;> rfl

theorem write_spec {src : Source} {bytes front payload : List UInt8} (hroom : db.Room)
    (hgap : db.bufferCheckOffset ≠ 0 → db.curOffset = 0)
    (hsrc : sourceBytes (gapped db a.gap) src = .ok bytes)
    (hsplit : withGap (gapped db a.gap) bytes = front ++ payload)
    (hfront : front.length = db.bufferCheckOffset) :
    ∃ db' flash' written, appOtaWriteToFlash a db flash src = .ok (db', flash', written) ∧
      (db' = db ∨ db' = gapped db a.gap) ∧ (∀ i < db.curOffset, flash' i = flash i) ∧
      (written = true → ∀ j < payload.length, flash' (db.curOffset + j) = payload[j]?) := by
  have hold (i : Nat) (hi : i < db.curOffset) : i + db.bufferCheckOffset < db.curOffset := by
    by_cases h0 : db.bufferCheckOffset = 0
    . omega
    . have := hgap h0
      omega
  unfold appOtaWriteToFlash
  by_cases hnull : (src.isNull db || !a.base) = true
  . rw [if_pos hnull]
    exact ⟨db, flash, false, rfl, .inl rfl, fun _ _ => rfl, fun h => absurd h Bool.false_ne_true⟩
  . simp only [if_neg hnull, readGap_eq hroom, hsrc, hsplit, gapped_offset, gapped_curOffset, bind,
      Except.bind]
    by_cases hw : a.written = true
    . rw [if_pos hw]
      exact ⟨_, _, _, rfl, .inr rfl, fun i hi => lay_lt (hold i hi),
        fun _ j hj => lay_payload hfront hj⟩
    . rw [if_neg hw]
      exact ⟨_, _, _, rfl, .inr rfl, fun i hi => spoil_lt (hold i hi),
        fun h => absurd h Bool.false_ne_true⟩

end

section

variable {w : World}

theorem Inv.collected_nil (h : Inv w) (h0 : w.db.otaTempBufUsedSize = 0) :
    w.accepted.drop w.db.curOffset = [] := by
  have := h.length
  exact List.drop_eq_nil_of_le (by omega)

theorem reset_eq {db : OtaDb} (hcur : db.curOffset = 0) (hused : db.otaTempBufUsedSize = 0) :
    { db with curOffset := 0, otaTempBufUsedSize := 0 } = db := by
  cases db
  simp only at hcur hused
  rw [hcur, hused]

theorem inv_getImgInfo (h : Inv w)
    (hok : (Op.getImgInfo imageId known dfuBaseAddr).Ok w) :
    ∃ w', step1 w (.getImgInfo imageId known dfuBaseAddr) = .ok w' ∧ Inv w' := by
  obtain ⟨hused, hid, hbase⟩ := hok
  refine ⟨_, rfl, ?_⟩
  have hlength := h.length
  have hsame : (if imageId ≠ w.db.imageId then
      { w.db with curOffset := 0, otaTempBufUsedSize := 0 } else w.db) = w.db := by
    by_cases hne : imageId ≠ w.db.imageId
    . rw [if_pos hne]
      exact reset_eq (hid.resolve_left hne) hused
    . rw [if_neg hne]
  unfold appOtaGetImgInfoHandle
  rw [hsame]
  cases known with
  | false =>
    refine ⟨h.wf, h.process, h.length, h.le, h.image, h.off, h.buffer, h.gap, ?_⟩
    intro offset hoffset
    cases hoffset
  | true =>
    refine ⟨⟨h.wf.on, h.wf.off, ?_⟩, h.process, h.length, h.le, h.image, h.off, ?_, ?_, ?_⟩
    . change (if _ then _ else _) < sectionLen
      unfold sectionLen
      split
      . decide
      . exact Nat.mod_lt _ (by decide)
    . intro hne
      exact absurd hused hne
    . intro hne
      cases hbase rfl with
      | inl haligned =>
        refine absurd ?_ hne
        change (if _ then _ else _) = 0
        rw [if_pos haligned]
      | inr h0 => exact h0
    . intro offset hoffset
      cases hoffset
      change w.db.curOffset = w.accepted.length
      omega

theorem allocBuffer_spec (max : Nat) (hmax : max < 2 ^ 16) (mem : Nat → Bool) (junk : Nat → UInt8)
    (fuel k : Nat) (hfuel : 17 ≤ fuel + k) :
    (∀ b ∈ (allocBuffer max mem junk fuel k).1, b.length = (allocBuffer max mem junk fuel k).2) ∧
      ((allocBuffer max mem junk fuel k).1 = none → (allocBuffer max mem junk fuel k).2 = 0) := by
  induction fuel generalizing k with
  | zero =>
    refine ⟨fun b hb => (by cases hb), fun _ => Nat.div_eq_of_lt ?_⟩
    have hpow : 2 ^ 17 ≤ 2 ^ k := Nat.pow_le_pow_right (by decide) (by omega)
    omega
  | succ fuel ih =>
    unfold allocBuffer
    by_cases hmem : mem k = true
    . simp only [if_pos hmem]
      refine ⟨fun b hb => ?_, fun hnone => by cases hnone⟩
      rw [← Option.some.inj hb]
      simp
    . by_cases h0 : max / 2 ^ k = 0
      . simp only [if_neg hmem, if_pos h0]
        exact ⟨fun b hb => (by cases hb), fun _ => h0⟩
      . simp only [if_neg hmem, if_neg h0]
        exact ih (k + 1) (by omega)

theorem wf_bufferCheckEn (h : db.Wf) (max : UInt16) (mem : Nat → Bool)
    (junk : Nat → UInt8) : (appOtaBufferCheckEn db max.toNat mem junk).Wf := by
  have hlen := allocBuffer_spec max.toNat max.toNat_lt mem junk 17 0 (by decide)
  unfold appOtaBufferCheckEn
  cases hhead : db.pOtaTempBufHead with
  | none =>
    refine ⟨?_, ?_, h.gap⟩
    . intro hen
      simp only [Bool.and_eq_true, Option.isSome_iff_exists] at hen
      obtain ⟨⟨b, hb⟩, -⟩ := hen
      exact ⟨b, hb, hlen.1 b hb⟩
    . intro hen
      simp only [Bool.and_eq_false_iff, Option.isSome_eq_false_iff, Option.isNone_iff_eq_none,
        bne_eq_false_iff_eq] at hen
      cases hen with
      | inl hnone => exact hlen.2 hnone
      | inr h0 => exact h0
  | some b =>
    refine ⟨?_, ?_, h.gap⟩
    . intro hen
      simp only [hhead, Option.isSome_some, Bool.true_and, bne_iff_ne] at hen
      cases hwas : db.bufferCheckEn with
      | false => exact absurd (h.off hwas) hen
      | true => exact h.on hwas
    . intro hen
      simpa [hhead] using hen

theorem inv_bufferCheckEn (h : Inv w) (max : UInt16) (mem : Nat → Bool) (junk : Nat → UInt8) :
    ∃ w', step1 w (.bufferCheckEn max mem junk) = .ok w' ∧ Inv w' := by
  refine ⟨_, rfl, ?_⟩
  have hwf := wf_bufferCheckEn h.wf max mem junk
  unfold appOtaBufferCheckEn at hwf ⊢
  cases hhead : w.db.pOtaTempBufHead with
  | none =>
    have hoff : w.db.bufferCheckEn = false := by
      cases hen : w.db.bufferCheckEn with
      | false => rfl
      | true =>
        obtain ⟨b, hb, -⟩ := h.wf.on hen
        rw [hhead] at hb
        cases hb
    have hused := h.off hoff
    rw [hhead] at hwf
    refine ⟨hwf, h.process, h.length, h.le, h.image, fun _ => hused, ?_, h.gap, ?_⟩
    . intro hne
      exact absurd hused hne
    . intro offset hoffset
      cases hoffset
  | some b =>
    rw [hhead] at hwf
    refine ⟨hwf, h.process, h.length, h.le, h.image, ?_, ?_, h.gap, ?_⟩
    . intro hen
      have hzero := hwf.off hen
      by_contra hne
      obtain ⟨b', hb', hle, -⟩ := h.buffer hne
      cases hwas : w.db.bufferCheckEn with
      | false => exact hne (h.off hwas)
      | true =>
        obtain ⟨b'', hb'', hsize⟩ := h.wf.on hwas
        rw [Option.mem_def, hb''] at hb'
        change w.db.bufferSize = 0 at hzero
        rw [← Option.some.inj hb', hsize, hzero] at hle
        change w.db.otaTempBufUsedSize ≠ 0 at hne
        omega
    . intro hne
      exact h.buffer hne
    . intro offset hoffset
      cases hoffset

theorem taken_fail (h : code ≠ .success) : taken code p = [] := by
  unfold taken
  rw [if_neg h]

section

variable (h : Inv w)

include h

theorem Inv.quiet (code : DfuArv) : Inv { w with code, reported := none } where
  wf := h.wf
  process := h.process
  length := h.length
  le := h.le
  image := h.image
  off := h.off
  buffer := h.buffer
  gap := h.gap
  reported := by
    intro offset hoffset
    cases hoffset

theorem Inv.refill (hdb : ∃ head, db = { w.db with pOtaTempBufHead := head })
    (hwf : db.Wf) (hflash : ∀ i < w.db.curOffset, flash i = w.flash i)
    (hused : w.db.otaTempBufUsedSize = 0) :
    Inv { w with db, flash, code, reported := none } := by
  obtain ⟨head, rfl⟩ := hdb
  refine ⟨hwf, h.process, h.length, h.le, ?_, h.off, fun hne => absurd hused hne, h.gap, ?_⟩
  . intro i hi
    exact (hflash i hi).trans (h.image i hi)
  . intro offset hoffset
    cases hoffset

theorem Inv.append {p : Packet} {head : Option (List UInt8)} {flash : Flash} {gap : Nat}
    (hoff : w.db.bufferCheckEn = false)
    (hfits : w.db.curOffset + p.length ≤ w.db.imageTotalLength)
    (hold : ∀ i < w.db.curOffset, flash i = w.flash i)
    (hnew : ∀ j < p.bytes.length, flash (w.db.curOffset + j) = p.bytes[j]?) (hgap : gap = 0) :
    Inv { w with
      db := { w.db with
        pOtaTempBufHead := head
        curOffset := w.db.curOffset + p.bytes.length
        bufferCheckOffset := gap }
      flash
      accepted := w.accepted ++ taken .success (some p)
      code := .success
      reported := none } := by
  have hused := h.off hoff
  have hlength := h.length
  have htaken : taken .success (some p) = p.bytes := rfl
  rw [htaken]
  refine ⟨⟨?_, h.wf.off, ?_⟩, h.process, ?_, ?_, ?_, h.off, fun hne => absurd hused hne, ?_, ?_⟩
  . intro hon
    rw [show _ = false from hoff] at hon
    cases hon
  . change gap < sectionLen
    rw [hgap]
    decide
  . change (w.accepted ++ p.bytes).length =
      w.db.curOffset + p.bytes.length + w.db.otaTempBufUsedSize
    rw [List.length_append]
    omega
  . change w.db.curOffset + p.bytes.length + w.db.otaTempBufUsedSize ≤ w.db.imageTotalLength
    unfold Packet.length at hfits
    omega
  . intro i hi
    change i < w.db.curOffset + p.bytes.length at hi
    change flash i = (w.accepted ++ p.bytes)[i]?
    by_cases hlt : i < w.db.curOffset
    . rw [hold i hlt, h.image i hlt, List.getElem?_append_left (by omega)]
    . have hj := hnew (i - w.db.curOffset) (by omega)
      rw [Nat.add_sub_cancel' (by omega)] at hj
      rw [hj, List.getElem?_append_right (by omega), hlength, hused, Nat.add_zero]
  . exact fun hne => absurd hgap hne
  . intro offset hoffset
    cases hoffset

theorem inv_writePacket {p : Packet} {a : Answers}
    (hoff : w.db.bufferCheckEn = false)
    (hfits : w.db.curOffset + p.length ≤ w.db.imageTotalLength)
    (hroom : w.db.Room ∨ w.db.pOtaTempBufHead = none ∧ a.mem = true) :
    ∃ db flash code, writePacket a w.db w.flash p.bytes = .ok (db, flash, code) ∧
      Inv { w with
        db, flash, code
        accepted := w.accepted ++ taken code (some p)
        reported := none } := by
  have hused := h.off hoff
  have hlength := h.length
  unfold writePacket
  extract_lets db
  have hdb : ∃ head, db = { w.db with pOtaTempBufHead := head } := by
    by_cases hnew : w.db.bufferCheckOffset ≠ 0 ∧ w.db.pOtaTempBufHead = none ∧ a.mem = true
    . exact ⟨_, if_pos hnew⟩
    . exact ⟨_, if_neg hnew⟩
  have hroom' : db.Room := by
    by_cases hnew : w.db.bufferCheckOffset ≠ 0 ∧ w.db.pOtaTempBufHead = none ∧ a.mem = true
    . have heq : db = { w.db with
          pOtaTempBufHead := some ((List.range w.db.bufferCheckOffset).map a.junk) } := if_pos hnew
      rw [heq]
      exact fun _ => ⟨_, rfl, by simp⟩
    . have heq : db = w.db := if_neg hnew
      rw [heq]
      cases hroom with
      | inl hroom => exact hroom
      | inr hnone => exact fun hne => absurd ⟨hne, hnone⟩ hnew
  clear_value db
  obtain ⟨head, rfl⟩ := hdb
  have hfront : ((gapped { w.db with pOtaTempBufHead := head } a.gap).pOtaTempBufHead.getD []
      |>.take w.db.bufferCheckOffset).length = w.db.bufferCheckOffset := by
    by_cases h0 : w.db.bufferCheckOffset = 0
    . rw [h0, List.take_zero, List.length_nil]
    . obtain ⟨b, hb, hle⟩ := hroom' h0
      obtain ⟨front, hlen, hgapped⟩ := gapped_head a.gap (Option.mem_def.mp hb)
      rw [hgapped, Option.getD_some, List.take_append_of_le_length (Nat.le_of_eq hlen.symm),
        List.take_of_length_le (Nat.le_of_eq hlen)]
      exact hlen
  -- what is written: the bytes left in the buffer, and the packet behind them
  have hsplit : withGap (gapped { w.db with pOtaTempBufHead := head } a.gap) p.bytes =
      ((gapped { w.db with pOtaTempBufHead := head } a.gap).pOtaTempBufHead.getD []).take
        w.db.bufferCheckOffset ++ p.bytes := by
    unfold withGap
    rw [gapped_en, gapped_offset, if_neg (by rw [hoff]; exact Bool.false_ne_true)]
  obtain ⟨db', flash', written, hwrite, hdb', hold, hnew⟩ :=
    @write_spec a { w.db with pOtaTempBufHead := head } w.flash (.packet p.bytes) p.bytes _ p.bytes
      hroom' h.gap rfl hsplit hfront
  have hdb'' : ∃ head', db' = { w.db with pOtaTempBufHead := head' } ∧
      (w.db.bufferCheckOffset ≠ 0 → head' ≠ none) := by
    cases hdb' with
    | inl heq =>
      refine ⟨head, heq, fun hne hnone => ?_⟩
      obtain ⟨b, hb, -⟩ := hroom' hne
      have hb' : head = some b := hb
      rw [hb'] at hnone
      cases hnone
    | inr heq =>
      obtain ⟨head', hhead'⟩ := gapped_eq { w.db with pOtaTempBufHead := head } a.gap
      refine ⟨head', heq.trans hhead', fun hne hnone => ?_⟩
      obtain ⟨b, hb, -⟩ := hroom' hne
      obtain ⟨front, -, hgapped⟩ := gapped_head a.gap (Option.mem_def.mp hb)
      rw [hhead', hnone] at hgapped
      cases hgapped
  obtain ⟨head', rfl, hsome⟩ := hdb''
  simp only [hwrite, bind, Except.bind]
  cases written with
  | false =>
    rw [if_neg Bool.false_ne_true]
    refine ⟨_, _, _, rfl, ?_⟩
    rw [taken_fail (by decide), List.append_nil]
    refine h.refill ⟨head', rfl⟩ ⟨fun hon => ?_, h.wf.off, h.wf.gap⟩ hold hused
    rw [show _ = false from hoff] at hon
    cases hon
  | true =>
    rw [if_pos rfl]
    by_cases hgap : w.db.bufferCheckOffset ≠ 0 ∧ head' ≠ none
    . rw [if_pos hgap]
      exact ⟨_, _, _, rfl, h.append hoff hfits hold (hnew rfl) rfl⟩
    -- the buffer is there whenever bytes were left in it
    . have h0 : w.db.bufferCheckOffset = 0 := by
        by_contra hne
        exact hgap ⟨hne, hsome hne⟩
      rw [if_neg hgap]
      exact ⟨_, _, _, rfl, h.append hoff hfits hold (hnew rfl) h0⟩

theorem inv_collectPacket (hon : w.db.bufferCheckEn = true)
    (hfits : w.db.curOffset + p.length + w.db.otaTempBufUsedSize ≤ w.db.imageTotalLength) :
    ∃ db code, collectPacket w.db p.bytes = .ok (db, code) ∧
      Inv { w with
        db, code
        accepted := w.accepted ++ taken code (some p)
        reported := none } := by
  obtain ⟨b, hb, hsize⟩ := h.wf.on hon
  have hlength := h.length
  unfold collectPacket
  simp only
  by_cases hroom :
      w.db.otaTempBufUsedSize + w.db.bufferCheckOffset + p.bytes.length ≤ w.db.bufferSize
  . have hroom' :
        w.db.otaTempBufUsedSize + w.db.bufferCheckOffset + p.bytes.length ≤ b.length := by omega
    simp only [if_pos hroom, hb, if_pos hroom']
    refine ⟨_, _, rfl, ⟨?_, ?_, h.wf.gap⟩, h.process, ?_, ?_, ?_, ?_, ?_, h.gap, ?_⟩
    . intro _
      refine ⟨_, rfl, ?_⟩
      rw [← hsize]
      simp
      omega
    . exact h.wf.off
    . change (w.accepted ++ p.bytes).length = _
      rw [List.length_append, hlength, Nat.add_assoc]
    . change w.db.curOffset + (w.db.otaTempBufUsedSize + p.bytes.length) ≤ w.db.imageTotalLength
      unfold Packet.length at hfits
      omega
    . intro i hi
      change w.flash i = (w.accepted ++ p.bytes)[i]?
      rw [h.image i hi, List.getElem?_append_left]
      change i < w.db.curOffset at hi
      omega
    . intro hoff
      rw [hon] at hoff
      cases hoff
    . intro _
      refine ⟨_, rfl, ?_, ?_⟩
      . simp
        omega
      . have hold : (b.drop w.db.bufferCheckOffset).take w.db.otaTempBufUsedSize =
            w.accepted.drop w.db.curOffset := by
          by_cases h0 : w.db.otaTempBufUsedSize = 0
          . rw [h.collected_nil h0, h0, List.take_zero]
          . obtain ⟨b', hb', -, hbytes⟩ := h.buffer h0
            rw [Option.mem_def, hb] at hb'
            rw [Option.some.inj hb']
            exact hbytes
        change ((_ ++ p.bytes ++ _).drop w.db.bufferCheckOffset).take
          (w.db.otaTempBufUsedSize + p.bytes.length) = (w.accepted ++ p.bytes).drop w.db.curOffset
        have hlen : ((b.drop w.db.bufferCheckOffset).take w.db.otaTempBufUsedSize).length =
            w.db.otaTempBufUsedSize := by
          rw [List.length_take, List.length_drop]
          omega
        have hfront : (b.take (w.db.otaTempBufUsedSize + w.db.bufferCheckOffset)).drop
            w.db.bufferCheckOffset =
              (b.drop w.db.bufferCheckOffset).take w.db.otaTempBufUsedSize := by
          rw [List.drop_take, Nat.add_sub_cancel]
        rw [List.append_assoc, List.drop_append_of_le_length (by rw [List.length_take]; omega),
          hfront, ← List.append_assoc, List.take_left' (by rw [List.length_append, hlen]), hold,
          List.drop_append_of_le_length (by omega)]
    . intro offset hoffset
      cases hoffset
  . simp only [if_neg hroom]
    refine ⟨_, _, rfl, ?_⟩
    rw [taken_fail (by decide), List.append_nil]
    exact h.quiet _

theorem inv_dataPacket (hok : (Op.dataPacket p a).Ok w) :
    ∃ w', step1 w (.dataPacket p a) = .ok w' ∧ Inv w' := by
  cases p with
  | none =>
    have hnone : taken .failOperation none = [] := taken_fail (by decide)
    refine ⟨_, rfl, ?_⟩
    rw [hnone, List.append_nil]
    exact h.quiet _
  | some p =>
    obtain ⟨hsum, hroom⟩ := hok
    have hprocess : ¬(!w.db.isOtaProcess) = true := by
      rw [h.process]
      decide
    simp only [step1, appOtaDataPacketHandle, if_neg hprocess, Nat.mod_eq_of_lt hsum]
    by_cases htotal : w.db.imageTotalLength <
        w.db.curOffset + p.length + w.db.otaTempBufUsedSize
    . have hnone : taken .failInvalidParameter (some p) = [] := taken_fail (by decide)
      rw [if_pos htotal]
      refine ⟨_, rfl, ?_⟩
      rw [hnone, List.append_nil]
      exact h.quiet _
    . rw [if_neg htotal]
      by_cases hen : w.db.bufferCheckEn = true
      . obtain ⟨db, code, hcollect, hinv⟩ := inv_collectPacket h hen (Nat.le_of_not_lt htotal)
        simp only [hen, Bool.not_true, Bool.false_eq_true, if_false, hcollect, bind, Except.bind]
        exact ⟨_, rfl, hinv⟩
      . have hoff : w.db.bufferCheckEn = false := by simpa using hen
        obtain ⟨db, flash, code, hwrite, hinv⟩ :=
          @inv_writePacket w h p a hoff (by omega) (hroom hoff)
        simp only [hoff, Bool.not_false, if_true, hwrite, bind, Except.bind]
        exact ⟨_, rfl, hinv⟩

theorem Inv.giveUp {head : Option (List UInt8)} {flash : Flash} {offset gap : Nat}
    {code : DfuArv}
    (hon : w.db.bufferCheckEn = true → ∃ b, head = some b ∧ b.length = w.db.bufferSize)
    (hoffset : offset ≤ w.db.curOffset) (hgap : gap = 0 ∨ gap = w.db.bufferCheckOffset)
    (hflash : ∀ i < offset, flash i = w.flash i) :
    Inv { w with
      db := { w.db with
        pOtaTempBufHead := head
        curOffset := offset
        bufferCheckOffset := gap
        otaTempBufUsedSize := 0 }
      flash
      accepted := w.accepted.take offset
      code
      reported := some offset } := by
  have hlength := h.length
  have hle := h.le
  refine ⟨⟨hon, h.wf.off, ?_⟩, h.process, ?_, ?_, ?_, fun _ => rfl, fun hne => absurd rfl hne,
    ?_, ?_⟩
  . change gap < sectionLen
    cases hgap with
    | inl h0 => rw [h0]; decide
    | inr heq => rw [heq]; exact h.wf.gap
  . change (w.accepted.take offset).length = offset + 0
    rw [List.length_take]
    omega
  . change offset + 0 ≤ w.db.imageTotalLength
    omega
  . intro i hi
    change i < offset at hi
    change flash i = (w.accepted.take offset)[i]?
    rw [hflash i hi, h.image i (by omega), List.getElem?_take, if_pos hi]
  . intro hne
    change offset = 0
    cases hgap with
    | inl h0 => exact absurd h0 hne
    | inr heq =>
      have h0 := h.gap (by rw [← heq]; exact hne)
      omega
  . intro off hoff
    cases hoff
    change offset = (w.accepted.take offset).length
    rw [List.length_take]
    omega

end

theorem resend_spec (a : Answers) (db : OtaDb) :
    ∃ offset ≤ db.curOffset,
      (resend a db).1 = { db with curOffset := offset, otaTempBufUsedSize := 0 } := by
  unfold resend
  extract_lets db1 resendOffset
  have hle : resendOffset ≤ db.nextSubimageOffset + db.curOffset :=
    Nat.le_trans (Nat.div_mul_le_self _ _) (Nat.mod_le _ _)
  by_cases hlt : resendOffset < db1.nextSubimageOffset
  . rw [if_pos hlt]
    exact ⟨db.curOffset, Nat.le_refl _, rfl⟩
  . rw [if_neg hlt]
    refine ⟨resendOffset - db.nextSubimageOffset, by omega, ?_⟩
    split <;> rfl

theorem inv_resend (h : Inv w) {a : Answers} {head : Option (List UInt8)} {flash : Flash}
    (hon : w.db.bufferCheckEn = true → ∃ b, head = some b ∧ b.length = w.db.bufferSize)
    (hflash : ∀ i < w.db.curOffset, flash i = w.flash i) :
    Inv { w with
      db := (resend a { w.db with pOtaTempBufHead := head }).1
      flash := spoil flash (resend a { w.db with pOtaTempBufHead := head }).1.curOffset 0
      accepted := w.accepted.take (resend a { w.db with pOtaTempBufHead := head }).1.curOffset
      code := (resend a { w.db with pOtaTempBufHead := head }).2
      reported := some (resend a { w.db with pOtaTempBufHead := head }).1.curOffset } := by
  obtain ⟨offset, hle, hback⟩ := resend_spec a { w.db with pOtaTempBufHead := head }
  rw [hback]
  refine h.giveUp hon hle (.inr rfl) fun i hi => ?_
  change i < offset at hi
  rw [spoil_lt (by simpa using hi)]
  exact hflash i (Nat.lt_of_lt_of_le hi hle)

theorem Inv.advance (h : Inv w)
    (hon : w.db.bufferCheckEn = true → ∃ b, head = some b ∧ b.length = w.db.bufferSize)
    (hold : ∀ i < w.db.curOffset, flash i = w.flash i)
    (hnew : ∀ j < w.db.otaTempBufUsedSize,
      flash (w.db.curOffset + j) = (w.accepted.drop w.db.curOffset)[j]?) :
    Inv { w with
      db := { w.db with
        pOtaTempBufHead := head
        curOffset := w.db.curOffset + w.db.otaTempBufUsedSize
        otaTempBufUsedSize := 0
        bufferCheckOffset := 0 }
      flash
      accepted := w.accepted.take (w.db.curOffset + w.db.otaTempBufUsedSize)
      code := .success
      reported := some (w.db.curOffset + w.db.otaTempBufUsedSize) } := by
  have hlength := h.length
  rw [List.take_of_length_le (Nat.le_of_eq hlength)]
  have hzero : 0 < sectionLen := by decide
  refine ⟨⟨hon, h.wf.off, hzero⟩, h.process, hlength, h.le, ?_, fun _ => rfl,
    fun hne => absurd rfl hne, fun hne => absurd rfl hne, ?_⟩
  . intro i hi
    change i < w.db.curOffset + w.db.otaTempBufUsedSize at hi
    change flash i = w.accepted[i]?
    by_cases hlt : i < w.db.curOffset
    . rw [hold i hlt, h.image i hlt]
    . have hj := hnew (i - w.db.curOffset) (by omega)
      rw [Nat.add_sub_cancel' (by omega)] at hj
      rw [hj, List.getElem?_drop, Nat.add_sub_cancel' (by omega)]
  . intro offset hoffset
    cases hoffset
    exact hlength.symm

theorem gap_le {db : OtaDb} (hroom : db.Room) {b : List UInt8} (hb : db.pOtaTempBufHead = some b) :
    db.bufferCheckOffset ≤ b.length := by
  by_cases h0 : db.bufferCheckOffset = 0
  . omega
  . obtain ⟨b', hb', hle⟩ := hroom h0
    rw [Option.mem_def, hb] at hb'
    rw [Option.some.inj hb']
    exact hle

theorem buffer_source (h : Inv w) (gap : Nat → UInt8) {b : List UInt8}
    (hb : w.db.pOtaTempBufHead = some b) (hroom : w.db.Room) :
    ∃ bytes front payload,
      sourceBytes (gapped w.db gap) (.buffer (w.db.otaTempBufUsedSize + w.db.bufferCheckOffset)) =
        .ok bytes ∧ withGap (gapped w.db gap) bytes = front ++ payload ∧
      front.length = w.db.bufferCheckOffset ∧
      (w.db.otaTempBufUsedSize ≠ 0 → payload = w.accepted.drop w.db.curOffset) := by
  obtain ⟨front, hfront, hhead⟩ := gapped_head gap hb
  have hle : w.db.bufferCheckOffset + w.db.otaTempBufUsedSize ≤ b.length := by
    by_cases h0 : w.db.otaTempBufUsedSize = 0
    . have := gap_le hroom hb
      omega
    . obtain ⟨b', hb', hle, -⟩ := h.buffer h0
      rw [Option.mem_def, hb] at hb'
      rw [← Option.some.inj hb'] at hle
      exact hle
  have hsource : sourceBytes (gapped w.db gap)
      (.buffer (w.db.otaTempBufUsedSize + w.db.bufferCheckOffset)) =
        .ok (front ++ (b.drop w.db.bufferCheckOffset).take w.db.otaTempBufUsedSize) := by
    have hfits : w.db.otaTempBufUsedSize + w.db.bufferCheckOffset ≤
        (front ++ b.drop w.db.bufferCheckOffset).length := by
      rw [List.length_append, List.length_drop]
      omega
    unfold sourceBytes
    simp only [hhead, if_pos hfits]
    rw [List.take_append, hfront, Nat.add_sub_cancel, List.take_of_length_le (by omega)]
  by_cases hen : w.db.bufferCheckEn = true
  . refine ⟨_, front, (b.drop w.db.bufferCheckOffset).take w.db.otaTempBufUsedSize, hsource, ?_,
      hfront, fun hne => ?_⟩
    . unfold withGap
      rw [gapped_en, if_pos hen]
    . obtain ⟨b', hb', -, hbytes⟩ := h.buffer hne
      rw [Option.mem_def, hb] at hb'
      rw [Option.some.inj hb']
      exact hbytes
  . refine ⟨_, front, front ++ (b.drop w.db.bufferCheckOffset).take w.db.otaTempBufUsedSize,
      hsource, ?_, hfront, fun hne => absurd (h.off (by simpa using hen)) hne⟩
    unfold withGap
    rw [gapped_en, if_neg hen, hhead, gapped_offset, Option.getD_some,
      List.take_append_of_le_length (Nat.le_of_eq hfront.symm),
      List.take_of_length_le (Nat.le_of_eq hfront)]

theorem inv_bufferCheck (h : Inv w) {p : Option Nat} {a : Answers}
    (hok : (Op.bufferCheck p a).Ok w) :
    ∃ w', step1 w (.bufferCheck p a) = .ok w' ∧ Inv w' := by
  cases p with
  | none => exact ⟨_, rfl, h.giveUp h.wf.on (Nat.le_refl _) (.inr rfl) fun _ _ => rfl⟩
  | some dataSize =>
    have hprocess : ¬(!w.db.isOtaProcess) = true := by
      rw [h.process]
      decide
    simp only [step1, appOtaBufferCheckHandle, if_neg hprocess]
    by_cases hsize : dataSize ≠ w.db.otaTempBufUsedSize
    . rw [if_pos hsize]
      exact ⟨_, rfl, h.giveUp h.wf.on (Nat.le_refl _) (.inr rfl) fun _ _ => rfl⟩
    -- the checksum is computed over what was collected, which lies in the buffer
    . have hread : readCollected w.db = .ok () := by
        unfold readCollected
        by_cases h0 : w.db.otaTempBufUsedSize = 0
        . rw [if_pos h0]
        . obtain ⟨b, hb, hle, -⟩ := h.buffer h0
          rw [Option.mem_def] at hb
          simp only [if_neg h0, hb, if_pos hle]
      have hcond := hok (not_ne_iff.mp hsize)
      rw [if_neg hsize]
      simp only [hread, bind, Except.bind]
      by_cases hcrc : a.crcFails = true
      . rw [if_pos hcrc]
        exact ⟨_, rfl, h.giveUp h.wf.on (Nat.le_refl _) (.inl rfl) fun _ _ => rfl⟩
      . rw [if_neg hcrc] at hcond ⊢
        cases hhead : w.db.pOtaTempBufHead with
        | none =>
          have hwrite : appOtaWriteToFlash a w.db w.flash
              (.buffer (w.db.otaTempBufUsedSize + w.db.bufferCheckOffset)) =
                .ok (w.db, w.flash, false) := by
            unfold appOtaWriteToFlash Source.isNull
            rw [hhead]
            rfl
          simp only [hwrite, Bool.false_eq_true, if_false]
          exact ⟨_, rfl, @inv_resend w h a w.db.pOtaTempBufHead w.flash h.wf.on fun _ _ => rfl⟩
        | some b =>
          have hroom : w.db.Room := by
            cases hcond with
            | inl hnone => rw [hhead] at hnone; cases hnone
            | inr hroom => exact hroom
          obtain ⟨bytes, front, payload, hsource, hsplit, hfront, hpayload⟩ :=
            buffer_source h a.gap hhead hroom
          obtain ⟨db', flash', written, hwrite, hdb', hold, hnew⟩ :=
            @write_spec a w.db w.flash _ bytes front payload hroom h.gap hsource hsplit hfront
          obtain ⟨head, hdb, hon⟩ : ∃ head, db' = { w.db with pOtaTempBufHead := head } ∧
              (w.db.bufferCheckEn = true → ∃ b, head = some b ∧ b.length = w.db.bufferSize) := by
            cases hdb' with
            | inl heq => exact ⟨w.db.pOtaTempBufHead, heq, h.wf.on⟩
            | inr heq =>
              obtain ⟨head, hhead'⟩ := gapped_eq w.db a.gap
              refine ⟨head, heq.trans hhead', fun hen => ?_⟩
              obtain ⟨b', hb', hlen⟩ := h.wf.on hen
              obtain ⟨front', hlen', hgapped⟩ := gapped_head a.gap hb'
              rw [hhead'] at hgapped
              have hle := gap_le hroom hb'
              refine ⟨_, hgapped, ?_⟩
              rw [List.length_append, List.length_drop]
              omega
          subst hdb
          simp only [hwrite]
          cases written with
          | false => exact ⟨_, rfl, inv_resend h hon hold⟩
          | true =>
            refine ⟨_, rfl, h.advance hon hold fun j hj => ?_⟩
            have hpay := hpayload (by omega)
            have hlength := h.length
            have hj' := hnew rfl j (by rw [hpay, List.length_drop]; omega)
            rw [hpay] at hj'
            exact hj'

end

theorem inv_step1 (h : Inv w) (hok : op.Ok w) : ∃ w', step1 w op = .ok w' ∧ Inv w' := by
  cases op with
  | getImgInfo imageId known dfuBaseAddr => exact inv_getImgInfo h hok
  | bufferCheckEn max mem junk => exact inv_bufferCheckEn h max mem junk
  | dataPacket p a => exact inv_dataPacket h hok
  | bufferCheck p a => exact inv_bufferCheck h hok

theorem kept_step1 (h : Inv w) (hok : op.Ok w) (href : op.Refused w) :
    ∃ w', step1 w op = .ok w' ∧ Kept w w' := by
  have hprocess : ¬(!w.db.isOtaProcess) = true := by
    rw [h.process]
    decide
  cases op with
  | getImgInfo imageId known dfuBaseAddr => exact absurd href id
  | bufferCheckEn max mem junk => exact absurd href id
  | dataPacket p a =>
    cases p with
    | none => exact absurd href id
    | some p =>
      simp only [step1, appOtaDataPacketHandle, if_neg hprocess, Nat.mod_eq_of_lt hok.1]
      by_cases htotal : w.db.imageTotalLength <
          w.db.curOffset + p.length + w.db.otaTempBufUsedSize
      . rw [if_pos htotal]
        exact ⟨_, rfl, DfuArv.noConfusion, rfl, rfl, rfl, .inl rfl⟩
      . obtain ⟨hen, hfull⟩ := href.resolve_left htotal
        have hroom : ¬w.db.otaTempBufUsedSize + w.db.bufferCheckOffset + p.bytes.length ≤
            w.db.bufferSize := Nat.not_le.mpr hfull
        simp only [if_neg htotal, hen, collectPacket, if_neg hroom, Bool.not_true,
          Bool.false_eq_true, if_false, bind, Except.bind]
        exact ⟨_, rfl, DfuArv.noConfusion, rfl, rfl, rfl, .inl rfl⟩
  | bufferCheck p a =>
    cases p with
    | none => exact absurd href id
    | some dataSize =>
      simp only [step1, appOtaBufferCheckHandle, if_neg hprocess]
      by_cases hsize : dataSize ≠ w.db.otaTempBufUsedSize
      . rw [if_pos hsize]
        exact ⟨_, rfl, DfuArv.noConfusion, rfl, rfl, rfl, .inr rfl⟩
      . have hcrc := href.resolve_left hsize
        have hgap := hok (not_ne_iff.mp hsize)
        rw [if_pos hcrc] at hgap
        obtain ⟨w', hrun, -⟩ := inv_bufferCheck h hok
        simp only [step1, appOtaBufferCheckHandle, if_neg hprocess, if_neg hsize] at hrun
        cases hread : readCollected w.db with
        | error e => simp [hread, bind, Except.bind] at hrun
        | ok _ =>
          simp only [if_neg hsize, bind, Except.bind, if_pos hcrc]
          exact ⟨_, rfl, DfuArv.noConfusion, rfl, rfl, hgap.symm, .inr rfl⟩

section

variable {a : Answers} {db db' : OtaDb} {flash flash' : Flash}

theorem OtaDb.Wf.congr (h : db.Wf) (hen : db'.bufferCheckEn = db.bufferCheckEn)
    (hsize : db'.bufferSize = db.bufferSize)
    (hgap : db'.bufferCheckOffset = 0 ∨ db'.bufferCheckOffset = db.bufferCheckOffset)
    (hhead : db.bufferCheckEn = true → ∀ b, db.pOtaTempBufHead = some b →
      ∃ b', db'.pOtaTempBufHead = some b' ∧ b'.length = b.length) : db'.Wf where
  on := by
    intro hon
    rw [hen] at hon
    obtain ⟨b, hb, hlen⟩ := h.on hon
    obtain ⟨b', hb', hlen'⟩ := hhead hon b hb
    exact ⟨b', hb', by rw [hlen', hlen, hsize]⟩
  off := by
    rw [hen, hsize]
    exact h.off
  gap := by
    cases hgap with
    | inl h0 => rw [h0]; decide
    | inr heq => rw [heq]; exact h.gap

theorem write_db (h : appOtaWriteToFlash a db flash src = .ok (db', flash', written)) :
    ∃ head, db' = { db with pOtaTempBufHead := head } ∧ ∀ b, db.pOtaTempBufHead = some b →
      ∃ b', head = some b' ∧ b'.length = b.length := by
  unfold appOtaWriteToFlash at h
  by_cases hnull : (src.isNull db || !a.base) = true
  . rw [if_pos hnull] at h
    simp only [Except.ok.injEq, Prod.mk.injEq] at h
    exact ⟨db.pOtaTempBufHead, h.1.symm, fun b hb => ⟨b, hb, rfl⟩⟩
  . rw [if_neg hnull] at h
    cases hread : readGap db a.gap with
    | error e => simp [hread, bind, Except.bind] at h
    | ok db1 =>
      have hdb1 : db1 = db' := by
        cases hsrc : sourceBytes db1 src with
        | error e => simp [hread, hsrc, bind, Except.bind] at h
        | ok bytes =>
          simp only [hread, hsrc, bind, Except.bind] at h
          split_ifs at h
          . exact (Prod.mk.inj (Except.ok.inj h)).1
          . exact (Prod.mk.inj (Except.ok.inj h)).1
      subst hdb1
      unfold readGap at hread
      simp only at hread
      split at hread
      . exact ⟨db.pOtaTempBufHead, (Except.ok.inj hread).symm, fun b hb => ⟨b, hb, rfl⟩⟩
      . split at hread
        . cases hread
        . next b hb =>
          split_ifs at hread
          . next hle =>
            refine ⟨_, (Except.ok.inj hread).symm, fun b' hb' => ⟨_, rfl, ?_⟩⟩
            rw [hb] at hb'
            rw [← Option.some.inj hb', List.length_append, List.length_map, List.length_range,
              List.length_drop]
            omega

theorem wf_collectPacket (h : db.Wf)
    (hrun : collectPacket db bytes = .ok (db', code)) : db'.Wf := by
  unfold collectPacket at hrun
  simp only at hrun
  split at hrun
  . split at hrun
    . cases hrun
    . next b hb =>
      split_ifs at hrun
      . simp only [Except.ok.injEq, Prod.mk.injEq] at hrun
        rw [← hrun.1]
        refine h.congr rfl rfl (.inr rfl) fun _ b' hb' => ⟨_, rfl, ?_⟩
        rw [hb] at hb'
        rw [← Option.some.inj hb']
        simp
        omega
  . simp only [Except.ok.injEq, Prod.mk.injEq] at hrun
    rw [← hrun.1]
    exact h

theorem wf_writePacket (h : db.Wf) (hoff : db.bufferCheckEn = false)
    (hrun : writePacket a db flash bytes = .ok (db', flash', code)) : db'.Wf := by
  have hno {p : Prop} (hen : db.bufferCheckEn = true) : p := by
    rw [hoff] at hen
    cases hen
  unfold writePacket at hrun
  extract_lets db1 at hrun
  have hdb1 : ∃ head, db1 = { db with pOtaTempBufHead := head } := by
    by_cases hnew : db.bufferCheckOffset ≠ 0 ∧ db.pOtaTempBufHead = none ∧ a.mem = true
    . exact ⟨_, if_pos hnew⟩
    . exact ⟨_, if_neg hnew⟩
  clear_value db1
  obtain ⟨head1, rfl⟩ := hdb1
  cases hwrite : appOtaWriteToFlash a { db with pOtaTempBufHead := head1 } flash
      (.packet bytes) with
  | error e => simp [hwrite, bind, Except.bind] at hrun
  | ok r =>
    obtain ⟨db2, flash2, written⟩ := r
    obtain ⟨head2, rfl, -⟩ := write_db hwrite
    simp only [hwrite, bind, Except.bind] at hrun
    split_ifs at hrun
    . simp only [Except.ok.injEq, Prod.mk.injEq] at hrun
      rw [← hrun.1]
      exact h.congr rfl rfl (.inl rfl) hno
    . simp only [Except.ok.injEq, Prod.mk.injEq] at hrun
      rw [← hrun.1]
      exact h.congr rfl rfl (.inr rfl) hno
    . simp only [Except.ok.injEq, Prod.mk.injEq] at hrun
      rw [← hrun.1]
      exact h.congr rfl rfl (.inr rfl) hno

theorem wf_dataPacket (h : db.Wf)
    (hrun : appOtaDataPacketHandle a db flash p = .ok (db', flash', code)) : db'.Wf := by
  cases p with
  | none =>
    have hdb : db = db' := (Prod.mk.inj (Except.ok.inj hrun)).1
    rw [← hdb]
    exact h
  | some p =>
    unfold appOtaDataPacketHandle at hrun
    simp only at hrun
    split_ifs at hrun with hprocess htotal hen
    . rw [← (Prod.mk.inj (Except.ok.inj hrun)).1]
      exact h
    . rw [← (Prod.mk.inj (Except.ok.inj hrun)).1]
      exact h
    . exact wf_writePacket h (by simpa using hen) hrun
    . cases hcollect : collectPacket db p.bytes with
      | error e => simp [hcollect, bind, Except.bind] at hrun
      | ok r =>
        simp only [hcollect, bind, Except.bind] at hrun
        rw [← (Prod.mk.inj (Except.ok.inj hrun)).1]
        obtain ⟨db1, code1⟩ := r
        exact wf_collectPacket h hcollect

theorem wf_bufferCheck (h : db.Wf)
    (hrun : appOtaBufferCheckHandle a db flash p = .ok (db', flash', code)) : db'.Wf := by
  have hdrop : ({ db with otaTempBufUsedSize := 0 } : OtaDb).Wf :=
    h.congr rfl rfl (.inr rfl) fun _ b hb => ⟨b, hb, rfl⟩
  cases p with
  | none =>
    rw [← (Prod.mk.inj (Except.ok.inj hrun)).1]
    exact hdrop
  | some dataSize =>
    unfold appOtaBufferCheckHandle at hrun
    simp only at hrun
    by_cases hprocess : (!db.isOtaProcess) = true
    . rw [if_pos hprocess] at hrun
      rw [← (Prod.mk.inj (Except.ok.inj hrun)).1]
      exact hdrop
    . rw [if_neg hprocess] at hrun
      by_cases hsize : dataSize ≠ db.otaTempBufUsedSize
      . rw [if_pos hsize] at hrun
        rw [← (Prod.mk.inj (Except.ok.inj hrun)).1]
        exact hdrop
      . rw [if_neg hsize] at hrun
        cases hread : readCollected db with
        | error e => simp [hread, bind, Except.bind] at hrun
        | ok _ =>
          simp only [hread, bind, Except.bind] at hrun
          by_cases hcrc : a.crcFails = true
          . rw [if_pos hcrc] at hrun
            rw [← (Prod.mk.inj (Except.ok.inj hrun)).1]
            exact h.congr rfl rfl (.inl rfl) fun _ b hb => ⟨b, hb, rfl⟩
          . rw [if_neg hcrc] at hrun
            cases hwrite : appOtaWriteToFlash a db flash
                (.buffer (db.otaTempBufUsedSize + db.bufferCheckOffset)) with
            | error e => simp [hwrite] at hrun
            | ok r =>
              obtain ⟨db1, flash1, written⟩ := r
              obtain ⟨head, rfl, hhead⟩ := write_db hwrite
              simp only [hwrite] at hrun
              cases written with
              | true =>
                rw [← (Prod.mk.inj (Except.ok.inj hrun)).1]
                exact h.congr rfl rfl (.inl rfl) fun _ b hb => hhead b hb
              | false =>
                obtain ⟨offset, -, hback⟩ := resend_spec a { db with pOtaTempBufHead := head }
                simp only [hback, Bool.false_eq_true, if_false] at hrun
                rw [← (Prod.mk.inj (Except.ok.inj hrun)).1]
                exact h.congr rfl rfl (.inr rfl) fun _ b hb => hhead b hb

theorem wf_step1 (h : w.db.Wf) (hstep : step1 w op = .ok w') : w'.db.Wf := by
  cases op with
  | getImgInfo imageId known dfuBaseAddr =>
    rw [← Except.ok.inj hstep]
    have hreset : (if imageId ≠ w.db.imageId then
        { w.db with curOffset := 0, otaTempBufUsedSize := 0 } else w.db).Wf := by
      split_ifs
      . exact h.congr rfl rfl (.inr rfl) fun _ b hb => ⟨b, hb, rfl⟩
      . exact h
    unfold appOtaGetImgInfoHandle
    cases known with
    | false => exact hreset
    | true =>
      refine ⟨hreset.on, hreset.off, ?_⟩
      change (if _ then _ else _) < sectionLen
      unfold sectionLen
      split
      . decide
      . exact Nat.mod_lt _ (by decide)
  | bufferCheckEn max mem junk =>
    rw [← Except.ok.inj hstep]
    exact wf_bufferCheckEn h max mem junk
  | dataPacket p a =>
    simp only [step1] at hstep
    cases hrun : appOtaDataPacketHandle a w.db w.flash p with
    | error e => simp [hrun, bind, Except.bind] at hstep
    | ok r =>
      simp only [hrun, bind, Except.bind] at hstep
      rw [← Except.ok.inj hstep]
      obtain ⟨db', flash', code⟩ := r
      exact wf_dataPacket h hrun
  | bufferCheck p a =>
    simp only [step1] at hstep
    cases hrun : appOtaBufferCheckHandle a w.db w.flash p with
    | error e => simp [hrun, bind, Except.bind] at hstep
    | ok r =>
      simp only [hrun, bind, Except.bind] at hstep
      rw [← Except.ok.inj hstep]
      obtain ⟨db', flash', code⟩ := r
      exact wf_bufferCheck h hrun

theorem wf_startDfu (h : db.Wf) (imageId payloadLen headerSize : Nat) (fits bankSwitch : Bool) :
    (appOtaStartDfuHandle db imageId payloadLen headerSize fits bankSwitch).1.Wf := by
  unfold appOtaStartDfuHandle
  extract_lets db1
  split_ifs
  . exact h.congr rfl rfl (.inr rfl) fun _ b hb => ⟨b, hb, rfl⟩
  . exact h.congr rfl rfl (.inr rfl) fun _ b hb => ⟨b, hb, rfl⟩
  . exact h.congr rfl rfl (.inr rfl) fun _ b hb => ⟨b, hb, rfl⟩

end

theorem inv_start (hwf : db.Wf)
    (flash : Flash)
    (hstart : appOtaStartDfuHandle db imageId payloadLen headerSize fits bankSwitch =
      (db', .success)) : Inv (.start db' flash) := by
  unfold appOtaStartDfuHandle at hstart
  extract_lets db1 at hstart
  split_ifs at hstart
  . simp at hstart
  . simp at hstart
  . simp only [Prod.mk.injEq, and_true] at hstart
    subst hstart
    refine ⟨⟨hwf.on, hwf.off, hwf.gap⟩, rfl, rfl, Nat.zero_le _, ?_, fun _ => rfl,
      fun hne => absurd rfl hne, fun _ => rfl, fun offset hoffset => by cases hoffset⟩
    exact fun i hi => absurd hi (Nat.not_lt_zero i)

theorem download_sound {db db' : OtaDb} (hwf : db.Wf) {imageId payloadLen headerSize : Nat}
    {fits bankSwitch : Bool} (flash : Flash)
    (hstart : appOtaStartDfuHandle db imageId payloadLen headerSize fits bankSwitch =
      (db', .success))
    (ops : List Op) (hok : Run.Along step Ok (.ok (.start db' flash)) ops) :
    ∃ w, Run.exec step (.ok (.start db' flash)) ops = .ok w ∧ Sound w ∧
      ∀ op, op.Ok w → op.Refused w → ∃ w', step1 w op = .ok w' ∧ Kept w w' := by
  have hinv := @Run.exec_inv _ _ step Ok (fun r => ∃ w, r = .ok w ∧ Inv w)
    (fun r op hr hop => by
      obtain ⟨w, rfl, hw⟩ := hr
      exact inv_step1 hw hop) (.ok (.start db' flash)) ops
    ⟨_, rfl, inv_start hwf flash hstart⟩ hok
  obtain ⟨w, hexec, hw⟩ := hinv
  exact ⟨w, hexec, sound_of_inv hw, fun op hop href => kept_step1 hw hop href⟩

def OtaDb.zero : OtaDb :=
  { pOtaTempBufHead := none
    imageTotalLength := 0
    curOffset := 0
    bufferCheckOffset := 0
    nextSubimageOffset := 0
    imageId := 0
    otaTempBufUsedSize := 0
    bufferSize := 0
    bufferCheckEn := false
    isOtaProcess := false }

theorem wf_zero : OtaDb.zero.Wf := ⟨fun h => absurd h Bool.false_ne_true, fun _ => rfl, by decide⟩

def Answers.ofCrc (crcFails written : Bool) : Answers :=
  { mem := true
    junk := fun _ => 0
    base := true
    gap := fun _ => 0xff
    written
    crcFails
    erase := fun _ => 0 }

def OtaDb.started : OtaDb :=
  { OtaDb.zero with imageTotalLength := 0x40a, imageId := 0x2793, isOtaProcess := true }

theorem download_sound_again : ∃ w,
    Run.exec step (.ok (.start .started fun _ => none))
      [.bufferCheckEn 16 (fun _ => true) (fun _ => 0), .getImgInfo 0x2793 true 0x1004,
        .dataPacket (some (.ofList [1, 2, 3])) (.ofCrc false true),
        .bufferCheck (some 3) (.ofCrc false true),
        .dataPacket (some (.ofList [4, 5])) (.ofCrc false true),
        .bufferCheck (some 2) (.ofCrc true true),
        .dataPacket (some (.ofList [4, 5])) (.ofCrc false true),
        .bufferCheck (some 2) (.ofCrc false false),
        .dataPacket (some (.ofList [1, 2, 3])) (.ofCrc false true),
        .bufferCheck (some 3) (.ofCrc false true)] = .ok w ∧ Sound w ∧
      ∀ op, op.Ok w → op.Refused w → ∃ w', step1 w op = .ok w' ∧ Kept w w' :=
  @download_sound .zero .started wf_zero 0x2793 10 0x400 true true (fun _ => none) rfl _ (by decide)

theorem not_download_sound : ∃ w w',
    Run.exec step (.ok (.start .started fun _ => none))
      [.bufferCheckEn 16 (fun _ => true) (fun _ => 0), .getImgInfo 0x2793 true 0x1004,
        .dataPacket (some (.ofList [1, 2, 3])) (.ofCrc false true)] = .ok w ∧
      (Op.bufferCheck (some 3) (.ofCrc true true)).Refused w ∧
      step1 w (.bufferCheck (some 3) (.ofCrc true true)) = .ok w' ∧ ¬Kept w w' :=
  ⟨_, _, rfl, .inr rfl, rfl, fun h => absurd h.gap (by decide)⟩

inductive Command where
  | startDfu (imageId payloadLen headerSize : Nat) (fits bankSwitch : Bool)
  | handle (op : Op)

def Command.run (w : World) : Command → Except Fault World
  | .startDfu imageId payloadLen headerSize fits bankSwitch =>
    let r := appOtaStartDfuHandle w.db imageId payloadLen headerSize fits bankSwitch
    .ok { w with db := r.1, code := r.2, reported := none }
  | .handle op => step1 w op

theorem wf_commands {w w' : World} (hwf : w.db.Wf) {commands : List Command}
    (hrun : commands.foldlM Command.run w = .ok w') : w'.db.Wf := by
  induction commands generalizing w with
  | nil =>
    cases hrun
    exact hwf
  | cons command commands ih =>
    rw [List.foldlM_cons] at hrun
    cases hfirst : command.run w with
    | error e =>
      rw [hfirst] at hrun
      cases hrun
    | ok w1 =>
      rw [hfirst] at hrun
      refine ih ?_ hrun
      cases command with
      | startDfu imageId payloadLen headerSize fits bankSwitch =>
        rw [← Except.ok.inj hfirst]
        exact wf_startDfu hwf imageId payloadLen headerSize fits bankSwitch
      | handle op => exact wf_step1 hwf hfirst

-- whatever came before, a download that is started again can be trusted
theorem restarted_sound {flash : Flash} {commands : List Command} {w : World}
    (hrun : commands.foldlM Command.run (.start .zero flash) = .ok w) :
    w.db.Wf ∧ ∀ (imageId payloadLen headerSize : Nat) (fits bankSwitch : Bool) (db' : OtaDb),
      appOtaStartDfuHandle w.db imageId payloadLen headerSize fits bankSwitch = (db', .success) →
        ∀ ops : List Op, Run.Along step Ok (.ok (.start db' w.flash)) ops →
          ∃ w', Run.exec step (.ok (.start db' w.flash)) ops = .ok w' ∧ Sound w' := by
  have hwf := wf_commands wf_zero hrun
  refine ⟨hwf, fun imageId payloadLen headerSize fits bankSwitch db' hstart ops hok => ?_⟩
  obtain ⟨w', hexec, hw'⟩ := @Run.exec_inv _ _ step Ok (fun r => ∃ w, r = .ok w ∧ Inv w)
    (fun r op hr hop => by
      obtain ⟨w, rfl, hw⟩ := hr
      exact inv_step1 hw hop) _ ops ⟨_, rfl, inv_start hwf w.flash hstart⟩ hok
  exact ⟨w', hexec, sound_of_inv hw'⟩

def refused : List Command :=
  [.handle (.bufferCheckEn 16 (fun _ => true) fun _ => 0), .startDfu 0x2793 10 0x400 false true]

theorem restarted_sound_refused :
    ∃ w, refused.foldlM Command.run (.start .zero fun _ => none) = .ok w ∧ w.db.Wf := by
  obtain ⟨w, hw⟩ : ∃ w, refused.foldlM Command.run (.start .zero fun _ => none) = .ok w := ⟨_, rfl⟩
  exact ⟨w, hw, (restarted_sound hw).1⟩

end Ota
