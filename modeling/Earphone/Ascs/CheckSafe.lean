import Earphone.Ascs.CheckEntry

namespace Ascs

open Scan Ltv

structure Write where
  bytes : List UInt8
  len_lt : bytes.length < 65536

def EntryTaken (app : App) (table : AseTable) (op : Op) (bytes : List UInt8) (p : Nat) : Prop :=
  ∃ param, Takes app table op bytes p param

def EntriesSafe (app : App) (table : AseTable) (op : Op) (bytes : List UInt8) (n p i : Nat) :
    Prop :=
  ∀ j < n, (∀ m < j, EntryTaken app table op bytes (entryEnd op bytes m p)) →
    EntryInside table op bytes (entryEnd op bytes j p) ∧
      (Stores app table op bytes (entryEnd op bytes j p) → i + j < ascsAesCharMaxNum)

section

variable {app : App} {table : AseTable} {op : Op} {bytes : List UInt8} {n p i : Nat}

theorem entriesSafe_succ :
    EntriesSafe app table op bytes (n + 1) p i ↔
      (EntryInside table op bytes p ∧ (Stores app table op bytes p → i < ascsAesCharMaxNum)) ∧
        (EntryTaken app table op bytes p →
          EntriesSafe app table op bytes n (p + (fixedLen op + countedLen op bytes p)) (i + 1)) := by
  constructor
  . intro h
    refine ⟨h 0 (by omega) fun m hm => absurd hm (Nat.not_lt_zero m), fun htaken j hj hprev => ?_⟩
    have hj := h (j + 1) (by omega) fun m hm => by
      cases m with
      | zero => exact htaken
      | succ m => exact hprev m (by omega)
    exact ⟨hj.1, fun hs => by have := hj.2 hs; omega⟩
  . rintro ⟨hfirst, hrest⟩ j hj hprev
    cases j with
    | zero => exact hfirst
    | succ j =>
      have hj := hrest (hprev 0 (by omega)) j (by omega) fun m hm => hprev (m + 1) (by omega)
      exact ⟨hj.1, fun hs => by have := hj.2 hs; omega⟩

def checkRest (app : App) (table : AseTable) (op : Op) (bytes : List UInt8) (aseNum aseIdx aseId : Nat)
    (fuel : Nat) :
    Except Resp (CpParam × Nat) → Except Stuck (List (Nat × Resp) × Option (List CpParam))
  | .error resp => .ok ([(aseId, resp)], none)
  | .ok (param, next) => do
    let rest ← checkLoop app table op bytes aseNum fuel next ((aseIdx + 1) % 256)
    return ((aseId, .success) :: rest.1, rest.2.map (param :: ·))

theorem checkLoop_round (hp : p < bytes.length) (hi : i < aseNum) :
    checkLoop app table op bytes aseNum (fuel + 1) p i =
      checkEntry app table op bytes p i (octet bytes p) fuel >>=
        checkRest app table op bytes aseNum i (octet bytes p) fuel := by
  rw [checkLoop, if_pos hp, entryAt_ok.mp hi, byteAt_octet hp]
  refine congrArg (checkEntry app table op bytes p i (octet bytes p) fuel >>= ·)
    (funext fun r => ?_)
  cases r <;> rfl

theorem checkLoop_end :
    checkLoop app table op bytes aseNum (fuel + 1) bytes.length i = .ok ([], some []) := by
  rw [checkLoop, if_neg (Nat.lt_irrefl _)]
  rfl

theorem checkLoop_iff {aseNum : Nat} (hlen : bytes.length < 65536)
    (hend : entryEnd op bytes n p = bytes.length) (hnum : i + n = aseNum) (hlt : aseNum < 256) :
    Mono (fun fuel => checkLoop app table op bytes aseNum fuel p i) ∧
      (Halts (fun fuel => checkLoop app table op bytes aseNum fuel p i) ↔
        EntriesSafe app table op bytes n p i) := by
  induction n generalizing p i with
  | zero =>
    obtain rfl : p = bytes.length := hend
    refine ⟨mono_succ rfl ?_, iff_of_true ?_ fun j hj => absurd hj (Nat.not_lt_zero j)⟩
    . simp only [checkLoop_end]
      exact mono_const _
    . rw [halts_succ rfl]
      simp only [checkLoop_end]
      exact halts_ok
  | succ n ih =>
    have hpos := @fixedLen_pos op
    have hle := @le_entryEnd op bytes n (p + (fixedLen op + countedLen op bytes p))
    rw [entryEnd] at hend
    have hp : p < bytes.length := by omega
    have hi : i < aseNum := by omega
    have hidx : (i + 1) % 256 = i + 1 := Nat.mod_eq_of_lt (by omega)
    have hj := @judges_checkEntry app table op bytes p i hlen (by omega)
    obtain ⟨hmono, hhalts⟩ := @ih (p + (fixedLen op + countedLen op bytes p)) (i + 1) hend (by omega)
    -- an entry that is taken ends where its lengths say, which is where the next one begins
    have hrest : ∀ r, Runs (fun fuel => checkEntry app table op bytes p i (octet bytes p) fuel) r →
        Mono fun fuel => checkRest app table op bytes aseNum i (octet bytes p) fuel r := by
      intro r hr
      cases r with
      | error resp => exact mono_const _
      | ok r =>
        obtain ⟨param, next⟩ := r
        obtain ⟨-, rfl⟩ := (hj.runs ⟨_, hr⟩ _).mp hr
        simp only [checkRest, hidx]
        exact hmono.bind fun _ => mono_const _
    refine ⟨mono_succ rfl ?_, ?_⟩
    . simp only [checkLoop_round hp hi]
      exact hj.mono.bind_of hrest
    . rw [halts_succ rfl, entriesSafe_succ]
      simp only [checkLoop_round hp hi]
      rw [halts_bind_of hj.mono hrest]
      constructor
      . rintro ⟨r, hr, hh⟩
        refine ⟨hj.halts.mp ⟨_, hr⟩, ?_⟩
        rintro ⟨param, htaken⟩
        obtain rfl := hj.mono.runs_unique hr
          ((hj.runs ⟨_, hr⟩ (param, p + (fixedLen op + countedLen op bytes p))).mpr ⟨htaken, rfl⟩)
        simp only [checkRest, hidx] at hh
        exact hhalts.mp (halts_bind_pure.mp hh)
      . rintro ⟨hsafe, hafter⟩
        obtain ⟨r, hr⟩ := hj.halts.mpr hsafe
        refine ⟨r, hr, ?_⟩
        cases r with
        | error resp => exact halts_ok
        | ok r =>
          obtain ⟨param, next⟩ := r
          obtain ⟨htaken, rfl⟩ := (hj.runs ⟨_, hr⟩ _).mp hr
          simp only [checkRest, hidx]
          exact halts_bind_pure.mpr (hhalts.mpr (hafter ⟨param, htaken⟩))

end

structure CpOk (app : App) (memory : Bool) (table : AseTable) (bytes : List UInt8) : Prop where
  nonempty : 0 < bytes.length
  lengths : ∀ op, Op.ofByte (octet bytes 0) = some op → 3 ≤ bytes.length → LengthsInside op bytes
  entries : memory = true → ∀ op, WellFormed op bytes →
    EntriesSafe app table op bytes (octet bytes 1) 2 0

def CpSafe (app : App) (verdict : AseCp → Nat) (memory : Bool) (table : AseTable)
    (bytes : List UInt8) : Prop :=
  Halts (fun fuel => aseCheckCpData app verdict memory table bytes fuel) ∧
    ((∃ op, Op.ofByte (octet bytes 0) = some op ∧ aseCpCheckMsgLen op bytes = .ok true) ↔
      ∃ op, WellFormed op bytes)

section

variable {app : App} {verdict : AseCp → Nat} {memory : Bool} {table : AseTable}
  {bytes : List UInt8}

theorem ofByte_eq_some : Op.ofByte b = some op ↔ b = op.toByte := by
  constructor
  . intro h
    unfold Op.ofByte at h
    split at h <;> cases h <;> rfl
  . rintro rfl
    cases op <;> rfl

def finish (verdict : AseCp → Nat) (op : Op) (aseNum : Nat)
    (checked : List (Nat × Resp) × Option (List CpParam)) : Option CpNotify × Option AseCp :=
  match checked.2 with
  | none => (some ⟨op.toByte, checked.1.length, checked.1⟩, none)
  | some params =>
    let cp : AseCp := { op := op, numberOfAse := aseNum, params := params }
    let cbResult := if op = .recStartReady ∨ op = .recStopReady then 0 else verdict cp
    if cbResult = 0 then (some ⟨op.toByte, aseNum, checked.1⟩, some cp)
    else (some ⟨op.toByte, aseNum, rejectResps cbResult checked.1⟩, none)

theorem aseCheckCpData_op (hop : octet bytes 0 = op.toByte) (hlen : 0 < bytes.length)
    :
    aseCheckCpData app verdict memory table bytes fuel =
      aseCpCheckMsgLen op bytes >>= fun lenOk =>
        if lenOk = false then .ok (some (invalidOperation op.toByte respInvalidLength), none)
        else byteAt bytes 1 >>= fun aseNum =>
          if aseNum = 0 ∧ 2 ≠ bytes.length then
            .ok (some (invalidOperation op.toByte respInvalidLength), none)
          else if memory = false then .ok (none, none)
          else checkLoop app table op bytes aseNum fuel 2 0 >>= fun checked =>
            .ok (finish verdict op aseNum checked) := by
  rw [aseCheckCpData, byteAt_octet hlen, hop]
  simp only [bind, Except.bind, ofByte_eq_some.mpr rfl, pure, Except.pure]
  cases aseCpCheckMsgLen op bytes with
  | error e => rfl
  | ok lenOk =>
    cases lenOk with
    | false => rfl
    | true =>
      simp only [Bool.true_eq_false, if_false]
      cases byteAt bytes 1 with
      | error e => rfl
      | ok aseNum =>
        by_cases hnum : aseNum = 0 ∧ 2 ≠ bytes.length
        . simp only [if_pos hnum]
        by_cases hmem : memory = false
        . simp only [if_neg hnum, if_pos hmem]
        simp only [if_neg hnum, if_neg hmem]
        cases checkLoop app table op bytes aseNum fuel 2 0 with
        | error e => rfl
        | ok checked =>
          obtain ⟨resps, params⟩ := checked
          cases params with
          | none => rfl
          | some params =>
            simp only [finish]
            generalize (if op = .recStartReady ∨ op = .recStopReady then 0
              else verdict { op := op, numberOfAse := aseNum, params := params }) = cbResult
            split_ifs <;> rfl

theorem halts_aseCheckCpData (hlen : bytes.length < 65536) :
    Halts (fun fuel => aseCheckCpData app verdict memory table bytes fuel) ↔
      CpOk app memory table bytes := by
  by_cases h0 : 0 < bytes.length
  . cases hop : Op.ofByte (octet bytes 0) with
    | none =>
      -- an opcode that is not known is answered before anything else is read
      have hnot : ∀ op, ¬WellFormed op bytes := by
        intro op hwf
        have := (wellFormed_iff.mp hwf).2.1
        rw [this, ofByte_eq_some.mpr rfl] at hop
        cases hop
      refine iff_of_true
        ⟨(some (invalidOperation (octet bytes 0) respUnsupportedOpcode), none), 0, ?_⟩
        ⟨h0, fun op h => ?_, fun _ op hwf => absurd hwf (hnot op)⟩
      . simp only [aseCheckCpData, byteAt_octet h0, bind, Except.bind, hop]
        rfl
      . rw [hop] at h
        cases h
    | some op =>
      have hbyte := ofByte_eq_some.mp hop
      have hwfop : ∀ op', WellFormed op' bytes → op' = op := by
        intro op' hwf
        have hbyte' := (wellFormed_iff.mp hwf).2.1
        have hop' := ofByte_eq_some.mpr hbyte'
        rw [hop] at hop'
        exact (Option.some.inj hop').symm
      have hlengths : (∀ op', Op.ofByte (octet bytes 0) = some op' → 3 ≤ bytes.length →
          LengthsInside op' bytes) ↔ ∃ r, aseCpCheckMsgLen op bytes = .ok r := by
        rw [aseCpCheckMsgLen_ok hlen]
        constructor
        . exact fun h => h op hop
        . intro h op' hop'
          rw [hop] at hop'
          cases hop'
          exact h
      simp only [aseCheckCpData_op hbyte h0, halts_const_bind]
      cases hmsg : aseCpCheckMsgLen op bytes with
      | error e =>
        refine iff_of_false (by simp) fun h => ?_
        obtain ⟨r, hr⟩ := hlengths.mp h.lengths
        rw [hmsg] at hr
        cases hr
      | ok lenOk =>
        have hok := hlengths.mpr ⟨_, hmsg⟩
        cases lenOk with
        | false =>
          have hnot : ∀ op', ¬WellFormed op' bytes := by
            intro op' hwf
            obtain rfl := hwfop op' hwf
            have := (aseCpCheckMsgLen_true hlen hbyte).mpr hwf
            rw [hmsg] at this
            cases this
          exact iff_of_true ⟨_, rfl, by simp⟩
            ⟨h0, hok, fun _ op' hwf => absurd hwf (hnot op')⟩
        -- the lengths are those of a well-formed operation, so the entries are looked at one by one
        | true =>
          have hwf := (aseCpCheckMsgLen_true hlen hbyte).mp hmsg
          obtain ⟨hmin, -, hend⟩ := wellFormed_iff.mp hwf
          have hnum : ¬(octet bytes 1 = 0 ∧ 2 ≠ bytes.length) := by
            rintro ⟨hzero, -⟩
            rw [hzero, entryEnd] at hend
            omega
          have hloop := @checkLoop_iff app table op bytes (octet bytes 1) 2 0 (octet bytes 1) hlen
            hend (Nat.zero_add _) (octet_lt 1)
          simp only [Except.ok.injEq, exists_eq_left', Bool.true_eq_false, if_false, halts_const_bind,
            byteAt_octet (show 1 < bytes.length by omega), hnum]
          cases memory with
          | false =>
            exact iff_of_true (by simp) ⟨h0, hok, fun h => by cases h⟩
          | true =>
            simp only [Bool.true_eq_false, if_false]
            rw [show (Halts fun fuel => checkLoop app table op bytes (octet bytes 1) fuel 2 0 >>=
              fun checked => Except.ok (finish verdict op (octet bytes 1) checked)) ↔ _ from
              halts_bind_pure, hloop.2]
            constructor
            . intro h
              refine ⟨h0, hok, fun _ op' hwf' => ?_⟩
              obtain rfl := hwfop op' hwf'
              exact h
            . intro h
              exact h.entries rfl op hwf
  . refine iff_of_false ?_ fun h => h0 h.nonempty
    rintro ⟨r, n, h⟩
    simp only [aseCheckCpData, byteAt_ge (show bytes.length ≤ 0 by omega)] at h
    cases h

theorem msgLen_accepts_iff (hlen : bytes.length < 65536) :
    (∃ op, Op.ofByte (octet bytes 0) = some op ∧ aseCpCheckMsgLen op bytes = .ok true) ↔
      ∃ op, WellFormed op bytes := by
  refine exists_congr fun op => ?_
  constructor
  . rintro ⟨hop, hmsg⟩
    exact (aseCpCheckMsgLen_true hlen (ofByte_eq_some.mp hop)).mp hmsg
  . intro hwf
    have hbyte := (wellFormed_iff.mp hwf).2.1
    exact ⟨ofByte_eq_some.mpr hbyte, (aseCpCheckMsgLen_true hlen hbyte).mpr hwf⟩

end

theorem cp_write_safe_iff (app : App) (verdict : AseCp → Nat) (memory : Bool) (table : AseTable)
    (write : Write) :
    CpSafe app verdict memory table write.bytes ↔ CpOk app memory table write.bytes := by
  unfold CpSafe
  rw [halts_aseCheckCpData write.len_lt]
  exact and_iff_left (msgLen_accepts_iff write.len_lt)

theorem not_cp_write_safe :
    ¬CpSafe ⟨fun _ _ _ => true, fun _ _ _ _ => false⟩ (fun _ => 0) true (aseSmLinkInit 1 0)
        [0x01, 0x01, 0x01] ∧
      ¬CpSafe ⟨fun _ _ _ => true, fun _ _ _ _ => false⟩ (fun _ => 0) true
        [{ aseInit 1 .sink with aseState := .codecConfigured }]
        [0x08, 0x08, 0x01, 0x01, 0x01, 0x01, 0x01, 0x01, 0x01, 0x01] := by
  constructor
  . intro h
    have hok := (halts_aseCheckCpData (by decide)).mp h.1
    have hin := hok.lengths .configCodec rfl (by decide) (.inl rfl) 0 (by decide)
    revert hin
    decide
  . intro h
    have hok := (halts_aseCheckCpData (by decide)).mp h.1
    have hwf : WellFormed .release [0x08, 0x08, 0x01, 0x01, 0x01, 0x01, 0x01, 0x01, 0x01, 0x01] :=
      wellFormed_iff.mpr (by decide)
    have hids : ∀ m < 8, octet [0x08, 0x08, 0x01, 0x01, 0x01, 0x01, 0x01, 0x01, 0x01, 0x01]
        (entryEnd .release [0x08, 0x08, 0x01, 0x01, 0x01, 0x01, 0x01, 0x01, 0x01, 0x01] m 2) = 1 := by
      decide
    have hlast := (hok.entries rfl .release hwf 7 (by decide) fun m hm =>
      ⟨_, _, by rw [hids m (by omega)]; rfl, rfl⟩).2 ⟨_, by rw [hids 7 (by omega)]; rfl, trivial⟩
    revert hlast
    decide

end Ascs
