import Earphone.Bond.Flash

namespace Bond

namespace BondCb

variable (cb : BondCb)

theorem blockOffset_cases (h : start ∈ cb.ftlGetCommonBlockOffset type idx) :
    (type = .le ∧ idx < cb.cfg.maxLePairedDevice ∧ start = cb.cfg.stackFtlUsedSize) ∨
      (type = .legacy ∧ idx < cb.cfg.maxLegacyPairedDevice ∧ start = cb.cfg.commonBredrOffset) := by
  unfold ftlGetCommonBlockOffset at h
  cases type with
  | le =>
    by_cases hidx : idx ≥ cb.cfg.maxLePairedDevice
    . simp [hidx] at h
    . cases hgap : cb.cfg.gapBondManager with
      | true => simp [hidx, commonLeStartOffset, hgap] at h
      | false =>
        simp only [hidx, commonLeStartOffset, hgap, if_false, Option.mem_def,
          Bool.false_eq_true, Option.ite_none_right_eq_some, Option.some.injEq] at h
        exact .inl ⟨rfl, Nat.lt_of_not_le hidx, h.2.symm⟩
  | legacy =>
    by_cases hidx : idx ≥ cb.cfg.maxLegacyPairedDevice
    . simp [hidx] at h
    . cases hgap : cb.cfg.gapBondManager with
      | true => simp [hidx, commonBredrStartOffset, hgap] at h
      | false =>
        cases hext : cb.cfg.bredrExtInfoStorage with
        | false => simp [hidx, commonBredrStartOffset, hgap, hext] at h
        | true =>
          simp only [hidx, commonBredrStartOffset, hgap, hext, if_false, if_true, Option.mem_def,
            Bool.false_eq_true, Option.ite_none_right_eq_some, Option.some.injEq] at h
          exact .inr ⟨rfl, Nat.lt_of_not_le hidx, h.2.symm⟩

theorem inBlock_unique (h : cb.InBlock type idx o) (h' : cb.InBlock type' idx' o) :
    type = type' ∧ idx = idx' := by
  obtain ⟨start, hstart, hle, hlt⟩ := h
  obtain ⟨start', hstart', hle', hlt'⟩ := h'
  -- each slot has its own multiple of the block size in the area of its type
  have hidx : ∀ {i j s : Nat}, s + i * cb.cfg.commonLinkBlockSize ≤ o →
      o < s + i * cb.cfg.commonLinkBlockSize + cb.cfg.commonLinkBlockSize →
      s + j * cb.cfg.commonLinkBlockSize ≤ o →
      o < s + j * cb.cfg.commonLinkBlockSize + cb.cfg.commonLinkBlockSize → i ≤ j := by
    intro i j s hi _ _ hj
    by_contra hlt
    have hmul := Nat.mul_le_mul_right cb.cfg.commonLinkBlockSize (Nat.lt_of_not_le hlt)
    rw [Nat.succ_mul] at hmul
    omega
  have happart : ∀ {i : Nat}, i < cb.cfg.maxLePairedDevice →
      cb.cfg.stackFtlUsedSize + i * cb.cfg.commonLinkBlockSize + cb.cfg.commonLinkBlockSize ≤
        cb.cfg.commonBredrOffset := by
    intro i hi
    have hmul := Nat.mul_le_mul_right cb.cfg.commonLinkBlockSize hi
    rw [Nat.succ_mul] at hmul
    simp only [OtpBondCfg.commonBredrOffset]
    omega
  obtain ⟨rfl, hi, rfl⟩ | ⟨rfl, hi, rfl⟩ := cb.blockOffset_cases hstart <;>
    obtain ⟨rfl, hi', rfl⟩ | ⟨rfl, hi', rfl⟩ := cb.blockOffset_cases hstart'
  . exact ⟨rfl, Nat.le_antisymm (hidx hle hlt hle' hlt') (hidx hle' hlt' hle hlt)⟩
  . have := happart hi
    omega
  . have := happart hi'
    omega
  . exact ⟨rfl, Nat.le_antisymm (hidx hle hlt hle' hlt') (hidx hle' hlt' hle hlt)⟩

theorem ftlLoadFeatures_congr (h : ∀ o, cb.InBlock type idx o → flash' o = flash o) :
    cb.ftlLoadRemoteClientSupportedFeatures flash' type idx =
      cb.ftlLoadRemoteClientSupportedFeatures flash type idx := by
  unfold ftlLoadRemoteClientSupportedFeatures
  split
  . next hused =>
    cases hstart : cb.ftlGetCommonBlockOffset type idx with
    | none => rfl
    | some start =>
      refine Flash.load_congr fun o hle hlt => h o ⟨start, hstart, hle, ?_⟩
      simp only [OtpBondCfg.commonLinkBlockSize, OtpBondCfg.commonCccdDataOffset, hused,
        if_true] at hlt ⊢
      omega
  . rfl

theorem ftlLoadCccd_congr (h : ∀ o, cb.InBlock type idx o → flash' o = flash o) :
    cb.ftlLoadCccd flash' type idx = cb.ftlLoadCccd flash type idx := by
  unfold ftlLoadCccd ftlReadCccdLength
  split
  . next hstored =>
    cases hstart : cb.ftlGetCommonBlockOffset type idx with
    | none => rfl
    | some start =>
      have hload : ∀ n ≤ cb.cfg.cccdSize,
          impFtlLoad flash' (start + cb.cfg.commonCccdDataOffset) cb.cfg.commonLinkBlockSize n idx =
            impFtlLoad flash (start + cb.cfg.commonCccdDataOffset) cb.cfg.commonLinkBlockSize n
              idx := by
        intro n hn
        refine Flash.load_congr fun o hle hlt => h o ⟨start, hstart, by omega, ?_⟩
        have hblock : cb.cfg.commonLinkBlockSize =
            cb.cfg.commonCccdDataOffset + cb.cfg.cccdSize := by
          rw [OtpBondCfg.commonLinkBlockSize, if_pos hstored]
        omega
      have hfour : 4 ≤ cb.cfg.cccdSize := by
        simp only [OtpBondCfg.cccdSize]
        omega
      simp only [hload 4 hfour, Option.bind_eq_bind, Option.bind_some]
      generalize (_ + 4) % 2 ^ 8 = length
      split
      . rfl
      . have hmod := Nat.mod_le cb.cfg.cccdSize (2 ^ 8)
        exact hload _ (by omega)
  . rfl

end BondCb

structure Frame (cb : BondCb) (flash flash' : Flash) (type : DevType) (idx : Nat) : Prop where
  outside : ∀ o, ¬cb.InBlock type idx o → flash' o = flash o
  cccd : ∀ type' idx', ¬(type' = type ∧ idx' = idx) →
    cb.ftlLoadCccd flash' type' idx' = cb.ftlLoadCccd flash type' idx'
  features : ∀ type' idx', ¬(type' = type ∧ idx' = idx) →
    cb.ftlLoadRemoteClientSupportedFeatures flash' type' idx' =
      cb.ftlLoadRemoteClientSupportedFeatures flash type' idx'

section

variable {cb : BondCb} {flash : Flash} {type : DevType} {idx o : Nat}
variable {padding₁ padding₂ : UInt8 × UInt8 × UInt8} {hasError₁ hasError₂ : Nat}

theorem frame_of_outside (h : ∀ o, ¬cb.InBlock type idx o → flash' o = flash o) :
    Frame cb flash flash' type idx := by
  have hother : ∀ type' idx', ¬(type' = type ∧ idx' = idx) → ∀ o, cb.InBlock type' idx' o →
      flash' o = flash o := fun type' idx' hne o ho =>
    h o fun ho' => hne (cb.inBlock_unique ho ho')
  exact ⟨h, fun t i hne => cb.ftlLoadCccd_congr (hother t i hne),
    fun t i hne => cb.ftlLoadFeatures_congr (hother t i hne)⟩

theorem ftlSaveCccd_outside (hdata : data.length = 4)
    (ho : ¬cb.InBlock type idx o) :
    (cb.ftlSaveCccd flash type data idx hasError₂).1 o = flash o := by
  unfold BondCb.ftlSaveCccd
  split
  . next hstored =>
    split
    . rfl
    . next start hstart =>
      unfold BondCb.impFtlSave
      dsimp only
      split
      . refine Flash.save_of_not fun hin => ho ⟨start, hstart, by omega, ?_⟩
        simp only [OtpBondCfg.commonLinkBlockSize, OtpBondCfg.cccdSize, if_pos hstored] at hin ⊢
        omega
      . rfl
  . rfl

theorem btBondRemove_eq : cb.btBondRemove flash type idx padding₁ padding₂ hasError₁ hasError₂ =
    (cb.ftlSaveCccd
      (match cb.ftlGetCommonBlockOffset .le idx with
      | some start =>
        if cb.cfg.featuresUsed ∧ hasError₁ = 0 then
          flash.save (start + idx * cb.cfg.commonLinkBlockSize)
            [0, padding₁.1, padding₁.2.1, padding₁.2.2]
        else flash
      | none => flash) type [0, padding₂.1, padding₂.2.1, padding₂.2.2] idx hasError₂).1 := by
  unfold BondCb.btBondRemove
  dsimp only
  congr 2
  simp only [BondCb.ftlSaveRemoteClientSupportedFeatures, OtpBondCfg.featuresUsed,
    BondCb.impFtlSave, Bool.and_eq_true]
  cases h51 : cb.cfg.clientSupportedFeatures51 <;>
    cases huse : cb.cfg.useGattsClientSupportedFeatures <;>
    cases cb.ftlGetCommonBlockOffset .le idx <;> simp

theorem btBondRemove_frame_iff (cb : BondCb) (flash : Flash) (type : DevType) (idx : Nat)
    (padding₁ padding₂ : UInt8 × UInt8 × UInt8) (hasError₁ hasError₂ : Nat) :
    Frame cb flash (cb.btBondRemove flash type idx padding₁ padding₂ hasError₁ hasError₂) type idx ↔
      type = .le ∨ cb.cfg.featuresUsed = false ∨ cb.ftlGetCommonBlockOffset .le idx = none ∨
        hasError₁ ≠ 0 ∨ cb.ftlLoadRemoteClientSupportedFeatures flash .le idx =
          some [0, padding₁.1, padding₁.2.1, padding₁.2.2] := by
  rw [btBondRemove_eq]
  cases hstart : cb.ftlGetCommonBlockOffset .le idx with
  | none =>
    exact iff_of_true (frame_of_outside fun o ho => ftlSaveCccd_outside rfl ho)
      (.inr (.inr (.inl rfl)))
  | some start =>
    cases hused : cb.cfg.featuresUsed with
    | false =>
      simp only [Bool.false_eq_true, false_and, if_false]
      exact iff_of_true (frame_of_outside fun o ho => ftlSaveCccd_outside rfl ho)
        (.inr (.inl trivial))
    | true =>
      by_cases herr : hasError₁ = 0
      . have hload : cb.ftlLoadRemoteClientSupportedFeatures flash .le idx =
            flash.load (start + idx * cb.cfg.commonLinkBlockSize) 4 := by
          simp only [BondCb.ftlLoadRemoteClientSupportedFeatures, hused, hstart, if_true]
          rfl
        have hblock : ∀ o, start + idx * cb.cfg.commonLinkBlockSize ≤ o →
            o < start + idx * cb.cfg.commonLinkBlockSize + 4 → cb.InBlock .le idx o :=
          fun o hle hlt => ⟨start, hstart, hle, by
            simp only [OtpBondCfg.commonLinkBlockSize, OtpBondCfg.commonCccdDataOffset, hused,
              OtpBondCfg.remoteClientSupportedFeaturesSize, if_true] at hlt ⊢
            omega⟩
        simp only [herr, and_self, if_true, hload, ne_eq, not_true_eq_false, reduceCtorEq,
          Bool.true_eq_false, false_or]
        constructor
        . intro h
          cases type with
          | le => exact .inl rfl
          | legacy =>
            right
            -- the bytes of the LE slot are outside of the slot that is removed
            have hsaved := @Flash.load_save flash (start + idx * cb.cfg.commonLinkBlockSize)
              [0, padding₁.1, padding₁.2.1, padding₁.2.2]
            refine (Flash.load_congr fun o hle hlt => ?_).trans hsaved
            have hout : ¬cb.InBlock .legacy idx o := fun ho =>
              absurd (cb.inBlock_unique ho (hblock o hle hlt)).1 (by decide)
            rw [← h.outside o hout, ftlSaveCccd_outside rfl hout]
        . rintro (rfl | hcleared)
          . refine frame_of_outside fun o ho => ?_
            rw [ftlSaveCccd_outside rfl ho]
            exact Flash.save_of_not fun hin => ho (hblock o hin.1 hin.2)
          . rw [Flash.save_load hcleared]
            exact frame_of_outside fun o ho => ftlSaveCccd_outside rfl ho
      . simp only [herr, and_false, if_false]
        exact iff_of_true (frame_of_outside fun o ho => ftlSaveCccd_outside rfl ho)
          (.inr (.inr (.inr (.inl herr))))

end

def BondCb.dual : BondCb where
  cfg :=
    { gapBondManager := false
      gattCccdStorage := true
      gattStorageCccBitsCount := 8
      leKeyStorageFlag := 0x0F
      maxLePairedDevice := 4
      maxLegacyPairedDevice := 4
      bredrExtInfoStorage := true
      useGattsClientSupportedFeatures := true
      clientSupportedFeatures51 := true }
  fits := by decide

theorem not_btBondRemove_frame :
    ¬Frame BondCb.dual (fun _ => some 1)
      (BondCb.dual.btBondRemove (fun _ => some 1) .legacy 2 (0, 0, 0) (0, 0, 0) 0 0) .legacy 2 := by
  intro h
  exact absurd (h.features .le 2 (by decide)) (by decide)

end Bond
