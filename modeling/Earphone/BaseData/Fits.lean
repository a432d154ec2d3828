import Earphone.BaseData.Parse
import Earphone.Lib.Wp

namespace BaseData

open Scan Visit
open Ltv (octet octets byteAt_octet)
open Ascs (CodecCfg codecCfgNeed codecCfgUse codecCfgInit codecCfgFormat leNum)

variable {bytes : List UInt8}

section

inductive Chain (bytes : List UInt8) (base len : Nat) : Nat → Nat → Prop where
  | here (idx : Nat) : Chain bytes base len idx idx
  | next {idx idx' : Nat} (hlt : idx < len)
      (hrest : Chain bytes base len (idx + (octet bytes (base + idx) + 1)) idx') :
      Chain bytes base len idx idx'

def FormatFits (bytes : List UInt8) (base len : Nat) : Prop :=
  ∀ idx, Chain bytes base len 0 idx → idx < len → base + idx < bytes.length

def CfgFits (bytes : List UInt8) (base len : Nat) : Prop :=
  len ≠ 0 → FormatFits bytes base len ∧
    (Chain bytes base len 0 len → Ltv.Inside codecCfgFormat bytes base len 0 codecCfgInit)

def CfgTaken (bytes : List UInt8) (base len : Nat) : Prop := len ≠ 0 → Chain bytes base len 0 len

variable {base len : Nat}

theorem formatVisit_eq (h : base + idx < bytes.length) :
    formatVisit bytes base idx () = .ok (.ok (idx + (octet bytes (base + idx) + 1), ())) := by
  unfold formatVisit
  rw [byteAt_octet h]
  rfl

theorem formatVisit_outside (h : bytes.length ≤ base + idx) :
    formatVisit bytes base idx () = .error .outside := by
  unfold formatVisit
  rw [byteAt_ge h]
  rfl

theorem loop_formatVisit (hfuel : len - idx < fuel) :
    (∃ r, loop (formatVisit bytes base) len fuel idx () = .ok r) ↔
      ∀ idx', Chain bytes base len idx idx' → idx' < len → base + idx' < bytes.length := by
  induction fuel generalizing idx with
  | zero => omega
  | succ fuel ih =>
    rw [loop]
    split
    . next hlt =>
      by_cases hin : base + idx < bytes.length
      . rw [formatVisit_eq hin]
        dsimp only
        rw [ih (by omega)]
        constructor
        . intro h idx' hchain
          cases hchain with
          | here => exact fun _ => hin
          | next _ hrest => exact h idx' hrest
        . exact fun h idx' hchain => h idx' (.next hlt hchain)
      . rw [formatVisit_outside (Nat.le_of_not_lt hin)]
        exact iff_of_false (by simp) fun h => hin (h idx (.here idx) hlt)
    . next hge =>
      refine iff_of_true ⟨_, rfl⟩ fun idx' hchain => ?_
      cases hchain with
      | here => exact fun hlt => absurd hlt hge
      | next hlt => exact absurd hlt hge

theorem loop_formatVisit_end (h : loop (formatVisit bytes base) len fuel idx () = .ok r) :
    ∃ idx', r = .ok (idx', ()) ∧
      ∀ last, len ≤ last → (Chain bytes base len idx last ↔ last = idx') := by
  induction fuel generalizing idx with
  | zero => cases h
  | succ fuel ih =>
    rw [loop] at h
    split at h
    . next hlt =>
      by_cases hin : base + idx < bytes.length
      . rw [formatVisit_eq hin] at h
        obtain ⟨idx', hr, hend⟩ := ih h
        refine ⟨idx', hr, fun last hlast => ?_⟩
        rw [← hend last hlast]
        constructor
        . intro hchain
          cases hchain with
          | here => omega
          | next _ hrest => exact hrest
        . exact fun hchain => .next hlt hchain
      . rw [formatVisit_outside (Nat.le_of_not_lt hin)] at h
        cases h
    . next hge =>
      cases h
      refine ⟨idx, rfl, fun last hlast => ?_⟩
      constructor
      . intro hchain
        cases hchain with
        | here => rfl
        | next hlt => exact absurd hlt hge
      . rintro rfl
        exact .here _

theorem ltvUtilCheckFormat_ok (hlen : len ≠ 0) :
    (∃ taken, ltvUtilCheckFormat bytes base len = .ok taken) ↔ FormatFits bytes base len := by
  unfold FormatFits
  rw [← loop_formatVisit (Nat.lt_succ_self _), ltvUtilCheckFormat, if_neg hlen]
  cases loop (formatVisit bytes base) len (len + 1) 0 () with
  | error e => exact iff_of_false (by rintro ⟨_, h⟩; cases h) (by simp)
  | ok r =>
    refine iff_of_true ?_ ⟨r, rfl⟩
    match r with
    | .ok _ => exact ⟨_, rfl⟩
    | .error _ => exact ⟨_, rfl⟩

theorem ltvUtilCheckFormat_taken (hlen : len ≠ 0)
    (h : ltvUtilCheckFormat bytes base len = .ok taken) :
    taken = true ↔ Chain bytes base len 0 len := by
  unfold ltvUtilCheckFormat at h
  rw [if_neg hlen] at h
  cases hloop : loop (formatVisit bytes base) len (len + 1) 0 () with
  | error e =>
    rw [hloop] at h
    cases h
  | ok r =>
    obtain ⟨idx', rfl, hend⟩ := loop_formatVisit_end hloop
    rw [hloop] at h
    cases h
    rw [hend len (Nat.le_refl _), decide_eq_true_eq, eq_comm]

end

section

variable {base len : Nat}

theorem codecCfgVisit_eq {idx : Nat} {cfg : CodecCfg}
    (hat : Ltv.InsideAt codecCfgFormat bytes (base + idx)) :
    (∃ refused, codecCfgVisit bytes base idx cfg = .ok (.error refused) ∧
      ∀ n cfg', codecCfgNeed (octet bytes (base + idx + 1)) (octet bytes (base + idx)) = .ok n →
        codecCfgUse (octet bytes (base + idx + 1)) (octets bytes (base + idx + 2) n) cfg ≠
          .ok cfg') ∨
    ∃ n cfg', codecCfgNeed (octet bytes (base + idx + 1)) (octet bytes (base + idx)) = .ok n ∧
      codecCfgUse (octet bytes (base + idx + 1)) (octets bytes (base + idx + 2) n) cfg = .ok cfg' ∧
      codecCfgVisit bytes base idx cfg = .ok (.ok (idx + 1 + octet bytes (base + idx), cfg')) := by
  have hlength := byteAt_octet (show base + idx < bytes.length by have := hat.1; omega)
  have htype := byteAt_octet (show base + idx + 1 < bytes.length by have := hat.1; omega)
  unfold codecCfgVisit
  rw [hlength, htype]
  simp only [bind, Except.bind, pure, Except.pure]
  cases hneed : codecCfgNeed (octet bytes (base + idx + 1)) (octet bytes (base + idx)) with
  | error e => exact .inl ⟨cfg, rfl, fun _ _ h => by cases h⟩
  | ok n =>
    simp only [bytesAt_le (hat.2 n hneed)]
    cases huse : codecCfgUse (octet bytes (base + idx + 1)) (octets bytes (base + idx + 2) n)
      cfg with
    | error e =>
      refine .inl ⟨codecCfgRefused (octet bytes (base + idx + 1)) (octets bytes (base + idx + 2) n)
        cfg, ?_, ?_⟩
      . unfold octets at huse
        simp only [huse]
        rfl
      . intro n' cfg' hn
        cases hn
        rw [huse]
        simp
    | ok cfg' =>
      refine .inr ⟨n, cfg', rfl, huse, ?_⟩
      unfold octets at huse
      simp only [huse]

theorem insideAt_of_visit (h : codecCfgVisit bytes base idx cfg = .ok r) :
    Ltv.InsideAt codecCfgFormat bytes (base + idx) := by
  unfold codecCfgVisit at h
  obtain ⟨length, hlength, h⟩ := bind_ok.mp h
  obtain ⟨type, htype, h⟩ := bind_ok.mp h
  have hidx := byteAt_ok hlength
  have hnext := byteAt_ok htype
  rw [byteAt_octet hidx, Except.ok.injEq] at hlength
  rw [byteAt_octet hnext, Except.ok.injEq] at htype
  refine ⟨by omega, fun n hneed => ?_⟩
  have hneed : codecCfgNeed type length = .ok n := by
    rw [← hlength, ← htype]
    exact hneed
  rw [hneed] at h
  obtain ⟨value, hvalue, -⟩ := bind_ok.mp h
  unfold bytesAt at hvalue
  split at hvalue
  . next hle => exact hle
  . cases hvalue

theorem loop_codecCfgVisit (hfuel : len - idx < fuel) :
    (∃ r, loop (codecCfgVisit bytes base) len fuel idx cfg = .ok r) ↔
      Ltv.Inside codecCfgFormat bytes base len idx cfg := by
  induction fuel generalizing idx cfg with
  | zero => omega
  | succ fuel ih =>
    rw [loop]
    split
    . next hlt =>
      rw [Ltv.inside_of_lt hlt]
      by_cases hat : Ltv.InsideAt codecCfgFormat bytes (base + idx)
      . rw [and_iff_right hat]
        obtain ⟨refused, hvisit, hno⟩ | ⟨n, cfg', hneed, huse, hvisit⟩ :=
          @codecCfgVisit_eq bytes base idx cfg hat
        . rw [hvisit]
          refine iff_of_true ⟨_, rfl⟩ fun n cfg' hneed huse => ?_
          exact absurd huse (hno n cfg' hneed)
        . rw [hvisit]
          dsimp only
          rw [ih (by omega)]
          constructor
          . intro h n' cfg'' hneed' huse'
            cases hneed.symm.trans hneed'
            cases huse.symm.trans huse'
            exact h
          . exact fun h => h n cfg' hneed huse
      . refine iff_of_false ?_ fun h => hat h.1
        rintro ⟨r, hr⟩
        cases hvisit : codecCfgVisit bytes base idx cfg with
        | error e =>
          rw [hvisit] at hr
          cases hr
        | ok r' => exact hat (insideAt_of_visit hvisit)
    . next hge => exact iff_of_true ⟨_, rfl⟩ (Ltv.inside_of_ge (Nat.le_of_not_lt hge))

theorem codecCfgParse_ok (hlen : len ≠ 0) :
    (∃ r, codecCfgParse bytes base len = .ok r) ↔
      Ltv.Inside codecCfgFormat bytes base len 0 codecCfgInit := by
  rw [← loop_codecCfgVisit (Nat.lt_succ_self _), codecCfgParse, if_neg hlen]
  cases loop (codecCfgVisit bytes base) len (len + 1) 0 codecCfgInit with
  | error e => exact iff_of_false (by rintro ⟨_, h⟩; cases h) (by simp)
  | ok r =>
    refine iff_of_true ?_ ⟨r, rfl⟩
    match r with
    | .ok _ => exact ⟨_, rfl⟩
    | .error _ => exact ⟨_, rfl⟩

theorem readCodecCfg_ok : (∃ r, readCodecCfg bytes base len = .ok r) ↔ CfgFits bytes base len := by
  unfold readCodecCfg CfgFits
  split
  . next hlen => exact iff_of_true ⟨_, rfl⟩ fun hne => absurd hlen hne
  . next hlen =>
    rw [imp_iff_right hlen, ← ltvUtilCheckFormat_ok hlen]
    cases hformat : ltvUtilCheckFormat bytes base len with
    | error e => exact iff_of_false (by rintro ⟨_, h⟩; cases h) (by simp)
    | ok taken =>
      rw [and_iff_right ⟨taken, rfl⟩, ← ltvUtilCheckFormat_taken hlen hformat,
        ← codecCfgParse_ok hlen]
      cases taken with
      | false => exact iff_of_true ⟨none, rfl⟩ fun h => by cases h
      | true =>
        rw [imp_iff_right rfl]
        cases codecCfgParse bytes base len with
        | error e => exact iff_of_false (by rintro ⟨_, h⟩; cases h) (by simp)
        | ok r => exact iff_of_true ⟨some r.2, rfl⟩ ⟨r, rfl⟩

theorem readCodecCfg_taken (h : readCodecCfg bytes base len = .ok r) :
    r.isSome = true ↔ CfgTaken bytes base len := by
  unfold readCodecCfg at h
  unfold CfgTaken
  split at h
  . next hlen =>
    cases h
    exact iff_of_true rfl fun hne => absurd hlen hne
  . next hlen =>
    rw [imp_iff_right hlen]
    obtain ⟨taken, hformat, h⟩ := bind_ok.mp h
    rw [← ltvUtilCheckFormat_taken hlen hformat]
    cases taken with
    | false =>
      cases h
      exact Iff.rfl
    | true =>
      obtain ⟨parsed, -, h⟩ := bind_ok.mp h
      cases h
      exact Iff.rfl

end

section

variable {ε α : Type} {memory : Request → Bool}

theorem wp_slotAt (hi : i < n)
    : Wp (slotAt i n >>= f) post ↔ Wp (f ()) post := by
  rw [show slotAt i n = .ok () from if_pos hi]
  exact Iff.rfl

theorem wp_readCodecCfg (hnone : Wp (f none) post)
    (hsome : ∀ cfg, Wp (f (some cfg)) post ↔ rest) :
    Wp (readCodecCfg bytes p len >>= f) post ↔
      CfgFits bytes p len ∧ (CfgTaken bytes p len → rest) := by
  rw [← readCodecCfg_ok]
  cases hread : readCodecCfg bytes p len with
  | error e => exact iff_of_false id (by simp)
  | ok r =>
    rw [and_iff_right ⟨r, rfl⟩, ← readCodecCfg_taken hread]
    cases r with
    | none => exact iff_of_true hnone fun h => by cases h
    | some cfg =>
      rw [imp_iff_right (show (some cfg).isSome = true from rfl), ← hsome cfg]
      rfl

def BisesFit (bytes : List UInt8) (rest : Nat → Prop) : Nat → Nat → Prop
  | 0, p => rest p
  | n + 1, p =>
    p + 1 < bytes.length ∧ CfgFits bytes (p + 2) (octet bytes (p + 1)) ∧
      (CfgTaken bytes (p + 2) (octet bytes (p + 1)) →
        BisesFit bytes rest n (p + 2 + octet bytes (p + 1)))

theorem wp_readBises (hj : j + n ≤ numBis) :
    Wp (readBises bytes codecId level2 i numBis n j p) (fun r => rest r.2) ↔
      BisesFit bytes rest n p := by
  induction n generalizing j p with
  | zero => exact Iff.rfl
  | succ n ih =>
    rw [readBises, BisesFit, wp_slotAt (by omega), wp_byteAt, wp_byteAt, wp_readCodecCfg]
    . constructor
      . exact fun ⟨_, h⟩ => h
      . exact fun h => ⟨by omega, h⟩
    . trivial
    . intro level3
      rw [← ih (show j + 1 + n ≤ numBis by omega)]
      exact wp_bind fun _ => trivial

def MetadataFits (memory : Request → Bool) (bytes : List UInt8) (i p len : Nat) : Prop :=
  len ≠ 0 → FormatFits bytes p len ∧
    (Chain bytes p len 0 len → memory (.metadata i) = true → p + len ≤ bytes.length)

def MetadataTaken (memory : Request → Bool) (bytes : List UInt8) (i p len : Nat) : Prop :=
  len ≠ 0 → Chain bytes p len 0 len ∧ memory (.metadata i) = true

theorem wp_readMetadata (hrefuse : ∀ e, Wp (f (.error e)) post)
    (htaken : ∀ metadata, Wp (f (.ok metadata)) post ↔ rest) :
    Wp (readMetadata memory bytes i p len >>= f) post ↔
      MetadataFits memory bytes i p len ∧ (MetadataTaken memory bytes i p len → rest) := by
  unfold readMetadata MetadataFits MetadataTaken
  by_cases hlen : len = 0
  . rw [if_pos hlen, and_iff_right fun hne => absurd hlen hne,
      imp_iff_right fun hne => absurd hlen hne]
    exact htaken []
  . rw [if_neg hlen, imp_iff_right hlen, imp_iff_right hlen, ← ltvUtilCheckFormat_ok hlen,
      and_assoc]
    cases hformat : ltvUtilCheckFormat bytes p len with
    | error e => exact iff_of_false id (by simp)
    | ok taken =>
      rw [and_iff_right ⟨taken, rfl⟩, ← ltvUtilCheckFormat_taken hlen hformat]
      cases taken with
      | false => exact iff_of_true (hrefuse 6) ⟨fun h => (nomatch h), fun h => nomatch h.1⟩
      | true =>
        cases hmem : memory (.metadata i) with
        | false =>
          refine iff_of_true ?_ ⟨fun _ h => (nomatch h), fun h => nomatch h.2⟩
          simp only [bind, Except.bind]
          exact hrefuse 7
        | true =>
          rw [imp_iff_right rfl, imp_iff_right rfl, imp_iff_right ⟨rfl, rfl⟩]
          by_cases hle : p + len ≤ bytes.length
          . rw [and_iff_right hle, ← htaken ((bytes.drop p).take len)]
            simp only [bind, Except.bind, bytesAt_le hle]
            rfl
          . refine iff_of_false ?_ fun h => hle h.1
            simp only [bind, Except.bind,
              show bytesAt bytes p len = .error .outside from if_neg hle]
            exact id

def SubgroupsFit (memory : Request → Bool) (bytes : List UInt8) : Nat → Nat → Nat → Prop
  | 0, _, _ => True
  | n + 1, i, p =>
    let codecCfgLen := octet bytes (p + 6)
    let metadataLen := octet bytes (p + 7 + codecCfgLen)
    p + 7 ≤ bytes.length ∧ p + 7 + codecCfgLen < bytes.length ∧
      CfgFits bytes (p + 7) codecCfgLen ∧
      (CfgTaken bytes (p + 7) codecCfgLen →
        MetadataFits memory bytes i (p + 8 + codecCfgLen) metadataLen ∧
        (MetadataTaken memory bytes i (p + 8 + codecCfgLen) metadataLen →
          memory (.bises i) = true →
            BisesFit bytes (fun p => SubgroupsFit memory bytes n (i + 1) p) (octet bytes p)
              (p + 8 + codecCfgLen + metadataLen)))

theorem wp_readSubgroup :
    Wp (readSubgroup memory bytes i p) (fun r => rest r.2) ↔
      p + 7 ≤ bytes.length ∧ p + 7 + octet bytes (p + 6) < bytes.length ∧
        CfgFits bytes (p + 7) (octet bytes (p + 6)) ∧
        (CfgTaken bytes (p + 7) (octet bytes (p + 6)) →
          MetadataFits memory bytes i (p + 8 + octet bytes (p + 6))
              (octet bytes (p + 7 + octet bytes (p + 6))) ∧
          (MetadataTaken memory bytes i (p + 8 + octet bytes (p + 6))
              (octet bytes (p + 7 + octet bytes (p + 6))) →
            memory (.bises i) = true →
              BisesFit bytes rest (octet bytes p)
                (p + 8 + octet bytes (p + 6) + octet bytes (p + 7 + octet bytes (p + 6))))) := by
  rw [readSubgroup, wp_byteAt, wp_bytesAt, wp_byteAt, wp_byteAt, wp_readCodecCfg]
  . constructor
    . exact fun ⟨_, _, _, h⟩ => ⟨by omega, h⟩
    . exact fun ⟨hle, h⟩ => ⟨by omega, by simp only [codecIdLen]; omega, by omega, h⟩
  . trivial
  . intro level2
    refine wp_readMetadata (fun _ => trivial) fun metadata => ?_
    cases hmem : memory (.bises i) with
    | false => exact iff_of_true trivial fun h => by cases h
    | true =>
      rw [imp_iff_right rfl, ← wp_readBises (Nat.le_of_eq (Nat.zero_add _))]
      exact wp_bind fun _ => trivial

theorem wp_readSubgroups (hi : i + n ≤ numSubgroups) :
    Wp (readSubgroups memory bytes numSubgroups n i p) (fun _ => True) ↔
      SubgroupsFit memory bytes n i p := by
  induction n generalizing i p with
  | zero => exact Iff.rfl
  | succ n ih =>
    have hrest : ∀ a : SubgroupParam × Nat,
        Wp (readSubgroups memory bytes numSubgroups n (i + 1) a.2) (fun _ => True) ↔
          SubgroupsFit memory bytes n (i + 1) a.2 := fun a => ih (by omega)
    rw [readSubgroups, wp_slotAt (by omega), wp_bind, SubgroupsFit, ← wp_readSubgroup]
    . refine wp_congr fun a => ?_
      rw [← hrest]
      exact wp_bind fun _ => trivial
    . exact fun _ => trivial

def BaseFits (memory : Request → Bool) (bytes : List UInt8) (offset : Nat) : Prop :=
  memory .mapping = true → offset + 8 ≤ bytes.length ∧
    (memory .subgroups = true → SubgroupsFit memory bytes (octet bytes (offset + 7)) 0 (offset + 8))

theorem readBase_ok :
    (∃ r, readBase memory bytes offset = .ok r) ↔ BaseFits memory bytes offset := by
  rw [← wp_true]
  unfold readBase BaseFits
  split
  . next hmem =>
    rw [imp_iff_right hmem, wp_bytesAt, wp_byteAt, ← and_assoc]
    refine and_congr ?_ ?_
    . omega
    . split
      . next hsub =>
        rw [imp_iff_right hsub, ← wp_readSubgroups (Nat.le_of_eq (Nat.zero_add _))]
        exact wp_bind fun _ => trivial
      . next hsub => exact iff_of_true trivial fun h => absurd h hsub
  . next hmem => exact iff_of_true trivial fun h => absurd h hmem

end

def IsBase (bytes : List UInt8) (idx : Nat) : Prop :=
  octet bytes (idx + 1) = gapAdtypeServiceData ∧
    leNum (octets bytes (idx + 2) 2) = basicAudioAnnouncementSrvUuid

instance (bytes : List UInt8) (idx : Nat) : Decidable (IsBase bytes idx) := instDecidableAnd

inductive Structures (bytes : List UInt8) : Nat → Option Nat → Prop where
  | first : Structures bytes 0 none
  | next {idx : Nat} {found : Option Nat} (h : Structures bytes idx found)
      (hlt : idx < bytes.length) :
      Structures bytes ((idx + (octet bytes idx + 1)) % 2 ^ 16)
        (if IsBase bytes idx then some idx else found)

def CheckFits (bytes : List UInt8) : Prop :=
  ∀ idx found, Structures bytes idx found → idx < bytes.length →
    idx + 1 < bytes.length ∧ (octet bytes (idx + 1) = gapAdtypeServiceData → idx + 3 < bytes.length)

def Fits (memory : Request → Bool) (bytes : List UInt8) : Prop :=
  CheckFits bytes ∧
    ∀ offset, Structures bytes bytes.length (some offset) → BaseFits memory bytes offset

theorem checkVisit_eq (hidx : idx + 1 < bytes.length)
    (huuid : octet bytes (idx + 1) = gapAdtypeServiceData → idx + 3 < bytes.length) :
    checkVisit bytes idx found = .ok (.ok ((idx + (octet bytes idx + 1)) % 2 ^ 16,
      if IsBase bytes idx then some idx else found)) := by
  unfold checkVisit
  rw [byteAt_octet (show idx < bytes.length by omega), byteAt_octet hidx]
  simp only [bind, Except.bind, pure, Except.pure]
  split
  . next htype =>
    have hle := huuid htype
    rw [bytesAt_le (show idx + 2 + 2 ≤ bytes.length by omega)]
    have hbase : IsBase bytes idx ↔
        leNum (octets bytes (idx + 2) 2) = basicAudioAnnouncementSrvUuid := and_iff_right htype
    simp only [hbase]
    rfl
  . next htype =>
    rw [if_neg fun h : IsBase bytes idx => htype h.1]

theorem checkVisit_outside (h : checkVisit bytes idx found = .ok r) :
    idx + 1 < bytes.length ∧
      (octet bytes (idx + 1) = gapAdtypeServiceData → idx + 3 < bytes.length) := by
  unfold checkVisit at h
  obtain ⟨length, -, h⟩ := bind_ok.mp h
  obtain ⟨type, htype, h⟩ := bind_ok.mp h
  have hidx := byteAt_ok htype
  rw [byteAt_octet hidx, Except.ok.injEq] at htype
  refine ⟨hidx, fun heq => ?_⟩
  dsimp only at h
  rw [if_pos (htype.symm.trans heq)] at h
  obtain ⟨uuid, huuid, -⟩ := bind_ok.mp h
  unfold bytesAt at huuid
  split at huuid
  . omega
  . cases huuid

theorem structures_of_reached (h : Reached (checkVisit bytes) bytes.length idx found idx' found')
    (hs : Structures bytes idx found) : Structures bytes idx' found' := by
  induction h with
  | here => exact hs
  | next hlt hvisit _ ih =>
    obtain ⟨hidx, huuid⟩ := checkVisit_outside hvisit
    rw [checkVisit_eq hidx huuid, Except.ok.injEq, Except.ok.injEq] at hvisit
    subst hvisit
    exact ih (.next hs hlt)

theorem reached_of_structures (h : Structures bytes idx found)
    (hfits : ∀ idx found, Reached (checkVisit bytes) bytes.length 0 none idx found →
      idx < bytes.length → ∃ r, checkVisit bytes idx found = .ok r) :
    Reached (checkVisit bytes) bytes.length 0 none idx found := by
  induction h with
  | first => exact .here _ _
  | next _ hlt ih =>
    obtain ⟨r, hr⟩ := hfits _ _ ih hlt
    obtain ⟨hidx, huuid⟩ := checkVisit_outside hr
    exact ih.snoc hlt (checkVisit_eq hidx huuid)

theorem byteAt_error (h : byteAt bytes i = .error e) : e = .outside := by
  unfold byteAt at h
  split at h <;> cases h
  rfl

theorem bytesAt_error (h : bytesAt bytes i n = .error e) : e = .outside := by
  unfold bytesAt at h
  split at h <;> cases h
  rfl

theorem checkVisit_error (h : checkVisit bytes idx found = .error e) : e = .outside := by
  unfold checkVisit at h
  obtain h | ⟨length, -, h⟩ := bind_error.mp h
  . exact byteAt_error h
  . obtain h | ⟨type, -, h⟩ := bind_error.mp h
    . exact byteAt_error h
    . dsimp only at h
      split at h
      . obtain h | ⟨uuid, -, h⟩ := bind_error.mp h
        . exact bytesAt_error h
        . cases h
      . cases h

theorem checkFits_iff : CheckFits bytes ↔
    ∀ fuel, loop (checkVisit bytes) bytes.length fuel 0 none ≠ .error .outside := by
  have hvisits : (∀ fuel, loop (checkVisit bytes) bytes.length fuel 0 none ≠ .error .outside) ↔
      ∀ idx found, Reached (checkVisit bytes) bytes.length 0 none idx found →
        idx < bytes.length → ∃ r, checkVisit bytes idx found = .ok r := by
    constructor
    . intro h idx found hreached hlt
      cases hvisit : checkVisit bytes idx found with
      | ok r => exact ⟨r, rfl⟩
      | error e =>
        rw [checkVisit_error hvisit] at hvisit
        obtain ⟨fuel, hfuel⟩ := (error_iff (by decide)).mpr ⟨idx, found, hreached, hlt, hvisit⟩
        exact absurd hfuel (h fuel)
    . intro h fuel herror
      obtain ⟨idx, found, hreached, hlt, hvisit⟩ := reached_of_error (by decide) herror
      obtain ⟨r, hr⟩ := h idx found hreached hlt
      rw [hr] at hvisit
      cases hvisit
  rw [hvisits]
  constructor
  . intro h idx found hreached hlt
    obtain ⟨hidx, huuid⟩ := h idx found (structures_of_reached hreached .first) hlt
    exact ⟨_, checkVisit_eq hidx huuid⟩
  . intro h idx found hs hlt
    obtain ⟨r, hr⟩ := h idx found (reached_of_structures hs h) hlt
    exact checkVisit_outside hr

theorem reached_iff_structures (hfits : CheckFits bytes) :
    Reached (checkVisit bytes) bytes.length 0 none idx found ↔ Structures bytes idx found := by
  refine ⟨fun h => structures_of_reached h .first, fun h => reached_of_structures h ?_⟩
  intro idx found hreached hlt
  obtain ⟨hidx, huuid⟩ := hfits idx found (structures_of_reached hreached .first) hlt
  exact ⟨_, checkVisit_eq hidx huuid⟩

theorem baseDataCheckData_ok (hfits : CheckFits bytes) :
    (∃ fuel, baseDataCheckData bytes.length bytes fuel = .ok (.ok offset)) ↔
      Structures bytes bytes.length (some offset) := by
  rw [← reached_iff_structures hfits]
  unfold baseDataCheckData
  split
  . next hlen =>
    refine iff_of_false (by rintro ⟨_, h⟩; cases h) fun h => ?_
    rw [hlen] at h
    generalize hidx : (0 : Nat) = idx, hfound : (none : Option Nat) = found at h
    cases h with
    | here => cases hfound
    | next hlt => omega
  . next hlen =>
    constructor
    . rintro ⟨fuel, h⟩
      cases hloop : loop (checkVisit bytes) bytes.length fuel 0 none with
      | error e =>
        rw [hloop] at h
        cases h
      | ok r =>
        rw [hloop] at h
        match r with
        | .error _ => cases h
        | .ok (_, none) => cases h
        | .ok (idx, some found) =>
          have hreached := (reached_of_ok hloop).1
          simp only [bind, Except.bind, pure, Except.pure] at h
          split at h
          . next hend =>
            cases h
            rw [hend] at hreached
            exact hreached
          . cases h
    . intro hreached
      obtain ⟨fuel, hloop⟩ := (@ok_iff _ _ (checkVisit bytes) bytes.length 0 none
        (bytes.length, some offset)).mpr ⟨hreached, Nat.le_refl _⟩
      refine ⟨fuel, ?_⟩
      rw [hloop]
      simp [bind, Except.bind, pure, Except.pure]

theorem baseDataCheckData_stuck :
    baseDataCheckData bytes.length bytes fuel = .error e ↔
      bytes.length ≠ 0 ∧ loop (checkVisit bytes) bytes.length fuel 0 none = .error e := by
  unfold baseDataCheckData
  split
  . next hlen => exact iff_of_false (by rintro ⟨⟩) fun h => h.1 hlen
  . next hlen =>
    rw [and_iff_right hlen]
    refine bind_error.trans ⟨?_, .inl⟩
    rintro (h | ⟨r, -, h⟩)
    . exact h
    . match r with
      | .error _ => cases h
      | .ok (_, none) => cases h
      | .ok (_, some _) => cases h

theorem baseDataCheckData_inside : CheckFits bytes ↔
    ∀ fuel e, baseDataCheckData bytes.length bytes fuel = .error e → e = .endless := by
  constructor
  . intro hfits fuel e h
    have hloop := (baseDataCheckData_stuck.mp h).2
    by_contra he
    obtain ⟨_, _, _, _, hvisit⟩ := reached_of_error he hloop
    rw [checkVisit_error hvisit] at hloop
    exact checkFits_iff.mp hfits fuel hloop
  . intro h
    by_cases hlen : bytes.length = 0
    . exact fun idx found _ hlt => absurd hlt (by omega)
    . refine checkFits_iff.mpr fun fuel hloop => ?_
      cases h fuel .outside (baseDataCheckData_stuck.mpr ⟨hlen, hloop⟩)

theorem parse_inside_iff (memory : Request → Bool) (bytes : List UInt8) :
    (∀ fuel, (∃ r, baseDataParseData memory bytes.length bytes fuel = .ok r) ∨
      baseDataCheckData bytes.length bytes fuel = .error .endless) ↔ Fits memory bytes := by
  constructor
  . intro h
    have hcheck : CheckFits bytes := by
      refine baseDataCheckData_inside.mpr fun fuel e he => ?_
      obtain ⟨r, hr⟩ | hendless := h fuel
      . unfold baseDataParseData at hr
        rw [he] at hr
        cases hr
      . cases he.symm.trans hendless
        rfl
    refine ⟨hcheck, fun offset hs => readBase_ok.mp ?_⟩
    obtain ⟨fuel, hfuel⟩ := (baseDataCheckData_ok hcheck).mpr hs
    obtain ⟨r, hr⟩ | hendless := h fuel
    . unfold baseDataParseData at hr
      rw [hfuel] at hr
      exact ⟨r, hr⟩
    . cases hfuel.symm.trans hendless
  . rintro ⟨hcheck, hbase⟩ fuel
    unfold baseDataParseData
    cases hdata : baseDataCheckData bytes.length bytes fuel with
    | error e =>
      rw [baseDataCheckData_inside.mp hcheck fuel e hdata]
      exact .inr rfl
    | ok r =>
      match r with
      | .error _ => exact .inl ⟨_, rfl⟩
      | .ok offset =>
        exact .inl (readBase_ok.mpr (hbase offset ((baseDataCheckData_ok hcheck).mp ⟨fuel, hdata⟩)))

theorem not_parse_inside :
    ¬∀ (memory : Request → Bool) (bytes : List UInt8) (fuel : Nat),
      (∃ r, baseDataParseData memory bytes.length bytes fuel = .ok r) ∨
        baseDataCheckData bytes.length bytes fuel = .error .endless := by
  intro h
  obtain ⟨r, hr⟩ | hendless := h (fun _ => true) [0x01] 1
  . cases hr
  . cases hendless

end BaseData
