import Earphone.Ascs.CheckCp

namespace Ascs

open Scan Ltv List

def fixedLen : Op → Nat
  | .configCodec => 9
  | .configQos => 16
  | .enable => 2
  | .updateMetadata => 2
  | _ => 1

def countedLen (op : Op) (bytes : List UInt8) (p : Nat) : Nat :=
  match op with
  | .configCodec => octet bytes (p + 8)
  | .enable => octet bytes (p + 1)
  | .updateMetadata => octet bytes (p + 1)
  | _ => 0

def entryEnd (op : Op) (bytes : List UInt8) : Nat → Nat → Nat
  | 0, p => p
  | n + 1, p => entryEnd op bytes n (p + (fixedLen op + countedLen op bytes p))

def IsEntry (op : Op) (entry : List UInt8) : Prop :=
  fixedLen op ≤ entry.length ∧ entry.length = fixedLen op + countedLen op entry 0

def WellFormed (op : Op) (bytes : List UInt8) : Prop :=
  ∃ (opcode number : UInt8) (entries : List (List UInt8)),
    opcode.toNat = op.toByte ∧ number.toNat = entries.length ∧ entries ≠ [] ∧
      (∀ entry ∈ entries, IsEntry op entry) ∧ bytes = opcode :: number :: entries.flatten

def Op.Counted (op : Op) : Prop := op = .configCodec ∨ op = .enable ∨ op = .updateMetadata

instance (op : Op) : Decidable op.Counted :=
  inferInstanceAs (Decidable (op = .configCodec ∨ op = .enable ∨ op = .updateMetadata))

def LengthsInside (op : Op) (bytes : List UInt8) : Prop :=
  op.Counted → ∀ i < octet bytes 1,
    entryEnd op bytes i 2 + fixedLen op ≤ bytes.length ∨ 65536 < entryEnd op bytes i 2 + fixedLen op

section

variable {op : Op} {bytes : List UInt8} {n p : Nat}

theorem octet_lt (i : Nat) : octet bytes i < 256 := (bytes.getD i 0).toNat_lt

theorem fixedLen_pos : 0 < fixedLen op := by
  cases op <;> decide

theorem countedLen_lt : countedLen op bytes p < 256 := by
  unfold countedLen
  split
  . exact octet_lt _
  . exact octet_lt _
  . exact octet_lt _
  . omega

theorem countedLen_counted (h : op.Counted) :
    countedLen op bytes p = octet bytes (p + (fixedLen op - 1)) := by
  rcases h with rfl | rfl | rfl <;> rfl

theorem countedLen_not_counted (h : ¬op.Counted) : countedLen op bytes p = 0 := by
  cases op <;> simp_all [Op.Counted, countedLen]

theorem fixedLen_counted (h : op.Counted) : fixedLen op ≤ 9 := by
  rcases h with rfl | rfl | rfl <;> decide

theorem entryEnd_succ :
    entryEnd op bytes (n + 1) p =
      entryEnd op bytes n p + (fixedLen op + countedLen op bytes (entryEnd op bytes n p)) := by
  induction n generalizing p with
  | zero => rfl
  | succ n ih => exact @ih _

theorem le_entryEnd : p + n ≤ entryEnd op bytes n p := by
  induction n generalizing p with
  | zero => exact Nat.le_refl p
  | succ n ih =>
    have hpos := @fixedLen_pos op
    have := @ih (p + (fixedLen op + countedLen op bytes p))
    rw [entryEnd]
    omega

theorem entryEnd_mono {m : Nat} (h : m ≤ n) : entryEnd op bytes m p ≤ entryEnd op bytes n p := by
  induction h with
  | refl => exact Nat.le_refl _
  | step _ ih =>
    rw [entryEnd_succ]
    omega

theorem entryEnd_not_counted (h : ¬op.Counted) : entryEnd op bytes n p = p + n * fixedLen op := by
  induction n generalizing p with
  | zero => simp [entryEnd]
  | succ n ih =>
    rw [entryEnd, ih, countedLen_not_counted h, Nat.succ_mul]
    omega

theorem octet_append_right (i : Nat) :
    octet (front ++ bytes) (front.length + i) = octet bytes i := by
  simp [octet, getD_eq_getElem?_getD, getElem?_append_right]

theorem octet_append_left (h : i < bytes.length) : octet (bytes ++ rest) i = octet bytes i := by
  simp [octet, getD_eq_getElem?_getD, getElem?_append_left h]

theorem countedLen_append {front entry rest : List UInt8} (h : fixedLen op ≤ entry.length) :
    countedLen op (front ++ (entry ++ rest)) front.length = countedLen op entry 0 := by
  by_cases hc : op.Counted
  . have hpos := @fixedLen_pos op
    rw [countedLen_counted hc, countedLen_counted hc, octet_append_right,
      octet_append_left (by omega), Nat.zero_add]
  . rw [countedLen_not_counted hc, countedLen_not_counted hc]

theorem entryEnd_flatten {entries : List (List UInt8)} {front : List UInt8}
    (h : ∀ entry ∈ entries, IsEntry op entry) :
    entryEnd op (front ++ entries.flatten) entries.length front.length =
      (front ++ entries.flatten).length := by
  induction entries generalizing front with
  | nil => simp [entryEnd]
  | cons entry entries ih =>
    have hentry := h entry mem_cons_self
    have hrest := @ih (front ++ entry) fun e he => h e (mem_cons_of_mem _ he)
    rw [flatten_cons, length_cons, entryEnd, countedLen_append hentry.1, ← hentry.2]
    rw [length_append, append_assoc] at hrest
    exact hrest

theorem entries_of_entryEnd (hp : p ≤ bytes.length) (h : entryEnd op bytes n p = bytes.length) :
    ∃ entries : List (List UInt8), entries.length = n ∧ (∀ entry ∈ entries, IsEntry op entry) ∧
      bytes.drop p = entries.flatten := by
  induction n generalizing p with
  | zero =>
    rw [entryEnd] at h
    exact ⟨[], rfl, fun _ he => absurd he not_mem_nil, by simp [h]⟩
  | succ n ih =>
    rw [entryEnd] at h
    have hle := @le_entryEnd op bytes n (p + (fixedLen op + countedLen op bytes p))
    have hend : p + (fixedLen op + countedLen op bytes p) ≤ bytes.length := by omega
    obtain ⟨entries, hlen, hentries, hdrop⟩ := ih hend h
    have htake : ((bytes.drop p).take (fixedLen op + countedLen op bytes p)).length =
        fixedLen op + countedLen op bytes p := by
      rw [length_take, length_drop]
      omega
    refine ⟨(bytes.drop p).take (fixedLen op + countedLen op bytes p) :: entries, by simp [hlen],
      fun entry he => ?_, ?_⟩
    . rcases mem_cons.mp he with rfl | he
      . have hfront : bytes = bytes.take p ++
            ((bytes.drop p).take (fixedLen op + countedLen op bytes p) ++
              bytes.drop (p + (fixedLen op + countedLen op bytes p))) := by
          rw [← drop_drop, take_append_drop, take_append_drop]
        have hcount := @countedLen_append op (bytes.take p)
          ((bytes.drop p).take (fixedLen op + countedLen op bytes p))
          (bytes.drop (p + (fixedLen op + countedLen op bytes p))) (by omega)
        rw [← hfront, length_take, Nat.min_eq_left hp] at hcount
        exact ⟨by omega, by rw [htake, ← hcount]⟩
      . exact hentries entry he
    . rw [flatten_cons, ← hdrop, ← drop_drop, take_append_drop]

theorem wellFormed_iff :
    WellFormed op bytes ↔
      3 ≤ bytes.length ∧ octet bytes 0 = op.toByte ∧
        entryEnd op bytes (octet bytes 1) 2 = bytes.length := by
  constructor
  . rintro ⟨opcode, number, entries, hop, hnum, hne, hentries, rfl⟩
    have hend := @entryEnd_flatten op entries [opcode, number] hentries
    have hpos := length_pos_iff.mpr hne
    have hle := @le_entryEnd op ([opcode, number] ++ entries.flatten) entries.length 2
    have hnumber : octet (opcode :: number :: entries.flatten) 1 = entries.length := hnum
    rw [hnumber]
    simp only [cons_append, nil_append, length_cons, length_nil, Nat.zero_add,
      Nat.reduceAdd] at hend hle
    exact ⟨by simp only [length_cons]; omega, hop, by rw [length_cons, length_cons]; omega⟩
  . rintro ⟨hlen, hop, hend⟩
    obtain ⟨entries, hcount, hentries, hdrop⟩ := entries_of_entryEnd (by omega) hend
    match bytes, hlen with
    | opcode :: number :: rest, hlen =>
      refine ⟨opcode, number, entries, hop, hcount.symm, ?_, hentries, ?_⟩
      . rintro rfl
        simp only [flatten_nil, drop_succ_cons, drop_zero] at hdrop
        subst hdrop
        simp at hlen
      . simpa using hdrop

end

section

variable {op : Op} {bytes : List UInt8} {n v : Nat}

theorem lenLoop_succ (hc : op.Counted) (hlen : bytes.length < 65536)
    (hin : v + fixedLen op ≤ bytes.length) :
    lenLoop bytes (fixedLen op - 1) (n + 1) (v % 65536) =
      lenLoop bytes (fixedLen op - 1) n ((v + (fixedLen op + countedLen op bytes v)) % 65536) := by
  have hpos := @fixedLen_pos op
  have hv : v % 65536 = v := Nat.mod_eq_of_lt (by omega)
  have hidx : add16 v (fixedLen op - 1) = v + (fixedLen op - 1) := Nat.mod_eq_of_lt (by omega)
  have hnext : add16 (add16 (v + (fixedLen op - 1)) 1) (octet bytes (v + (fixedLen op - 1))) =
      (v + (fixedLen op + countedLen op bytes v)) % 65536 := by
    rw [countedLen_counted hc]
    unfold add16
    omega
  rw [hv, lenLoop]
  simp only [hidx, byteAt_octet (show v + (fixedLen op - 1) < bytes.length by omega), bind,
    Except.bind, hnext]

theorem lenLoop_front {skip idx : Nat} (hskip : skip < 9) (hlen : bytes.length < 65536)
    (hfront : idx + 264 * n + 9 ≤ bytes.length) :
    ∃ r, lenLoop bytes skip n idx = .ok r ∧ r ≤ idx + 264 * n := by
  induction n generalizing idx with
  | zero => exact ⟨idx, rfl, by omega⟩
  | succ n ih =>
    have hidx : add16 idx skip = idx + skip := Nat.mod_eq_of_lt (by omega)
    have hoct := @octet_lt bytes (idx + skip)
    have hnext : add16 (add16 (idx + skip) 1) (octet bytes (idx + skip)) =
        idx + skip + 1 + octet bytes (idx + skip) := by
      unfold add16
      omega
    obtain ⟨r, hr, hle⟩ := @ih (idx + skip + 1 + octet bytes (idx + skip)) (by omega)
    refine ⟨r, ?_, by omega⟩
    rw [lenLoop]
    simp only [hidx, byteAt_octet (show idx + skip < bytes.length by omega), bind, Except.bind,
      hnext, hr]

section

variable (hc : op.Counted) (hlen : bytes.length < 65536)

include hc hlen

theorem lenLoop_inside (h : ∀ i < n, entryEnd op bytes i v + fixedLen op ≤ bytes.length) :
    lenLoop bytes (fixedLen op - 1) n (v % 65536) = .ok (entryEnd op bytes n v % 65536) := by
  induction n generalizing v with
  | zero => rfl
  | succ n ih =>
    have hin : v + fixedLen op ≤ bytes.length := h 0 (by omega)
    rw [lenLoop_succ hc hlen hin]
    exact ih fun i hi => h (i + 1) (by omega)

theorem lenLoop_ok (hv : v ≤ bytes.length + 255)
    (hn : v + 264 * n ≤ 2 + 264 * 255)
    (h : ∀ i < n, entryEnd op bytes i v + fixedLen op ≤ bytes.length ∨
      65536 < entryEnd op bytes i v + fixedLen op) :
    ∃ r, lenLoop bytes (fixedLen op - 1) n (v % 65536) = .ok r ∧
      (r = bytes.length → ∀ i < n, entryEnd op bytes i v + fixedLen op ≤ bytes.length) := by
  have hpos := @fixedLen_pos op
  have hfix := fixedLen_counted hc
  induction n generalizing v with
  | zero => exact ⟨_, rfl, fun _ i hi => absurd hi (Nat.not_lt_zero i)⟩
  | succ n ih =>
    have hcount := @countedLen_lt op bytes v
    have h0 : v + fixedLen op ≤ bytes.length ∨ 65536 < v + fixedLen op := h 0 (by omega)
    rcases h0 with hin | hwrap
    . rw [lenLoop_succ hc hlen hin]
      obtain ⟨r, hr, hall⟩ := @ih (v + (fixedLen op + countedLen op bytes v)) (by omega)
        (by omega) fun i hi => h (i + 1) (by omega)
      refine ⟨r, hr, fun heq i hi => ?_⟩
      cases i with
      | zero => exact hin
      | succ i => exact hall heq i (by omega)
    . have hfar : ∃ r, lenLoop bytes (fixedLen op - 1) (n + 1) (v % 65536) = .ok r ∧
          r < bytes.length := by
        by_cases hlt : v < 65536
        . rw [Nat.mod_eq_of_lt hlt, lenLoop]
          have hidx : add16 v (fixedLen op - 1) = v + (fixedLen op - 1) - 65536 := by
            unfold add16
            omega
          have hoct := @octet_lt bytes (v + (fixedLen op - 1) - 65536)
          simp only [hidx,
            byteAt_octet (show v + (fixedLen op - 1) - 65536 < bytes.length by omega), bind,
            Except.bind]
          obtain ⟨r, hr, hle⟩ := @lenLoop_front bytes n (fixedLen op - 1)
            (add16 (add16 (v + (fixedLen op - 1) - 65536) 1)
              (octet bytes (v + (fixedLen op - 1) - 65536)))
            (by omega) hlen (by unfold add16; omega)
          exact ⟨r, hr, by unfold add16 at hle; omega⟩
        . obtain ⟨idx, hidx⟩ : ∃ idx, idx + 65536 = v := ⟨v - 65536, by omega⟩
          have hfront : idx + 264 * (n + 1) + 9 ≤ bytes.length := by
            generalize 264 * (n + 1) = m at hn ⊢
            omega
          obtain ⟨r, hr, hle⟩ := @lenLoop_front bytes (n + 1) (fixedLen op - 1) idx
            (by omega) hlen hfront
          have hmod : v % 65536 = idx := by omega
          exact ⟨r, by rw [hmod, hr], by omega⟩
      obtain ⟨r, hr, hlt⟩ := hfar
      exact ⟨r, hr, fun heq => by omega⟩

theorem lengths_of_lenLoop (h : lenLoop bytes (fixedLen op - 1) n (v % 65536) = .ok r) :
    ∀ i < n, entryEnd op bytes i v + fixedLen op ≤ bytes.length ∨
      65536 < entryEnd op bytes i v + fixedLen op := by
  have hpos := @fixedLen_pos op
  induction n generalizing v with
  | zero => exact fun i hi => absurd hi (Nat.not_lt_zero i)
  | succ n ih =>
    intro i hi
    by_cases hin : v + fixedLen op ≤ bytes.length
    . cases i with
      | zero => exact .inl hin
      | succ i =>
        rw [lenLoop_succ hc hlen hin] at h
        exact ih h i (by omega)
    . by_cases hwrap : 65536 < v + fixedLen op
      . have := @le_entryEnd op bytes i v
        exact .inr (by omega)
      . exfalso
        have hidx : add16 (v % 65536) (fixedLen op - 1) = v + (fixedLen op - 1) := by
          unfold add16
          omega
        rw [lenLoop] at h
        simp only [hidx, byteAt_ge (show bytes.length ≤ v + (fixedLen op - 1) by omega)] at h
        cases h

end

theorem aseCpCheckMsgLen_counted (hc : op.Counted) :
    aseCpCheckMsgLen op bytes =
      if bytes.length < 3 then .ok false
      else do
        let aseNum ← byteAt bytes 1
        let idx ← lenLoop bytes (fixedLen op - 1) aseNum 2
        return idx = bytes.length := by
  rcases hc with rfl | rfl | rfl <;> rfl

theorem aseCpCheckMsgLen_not_counted (hc : ¬op.Counted) :
    aseCpCheckMsgLen op bytes =
      if bytes.length < 3 then .ok false
      else do
        let aseNum ← byteAt bytes 1
        return bytes.length = 2 + aseNum * fixedLen op := by
  cases op with
  | configCodec => exact absurd (by decide) hc
  | enable => exact absurd (by decide) hc
  | updateMetadata => exact absurd (by decide) hc
  | configQos => rfl
  | recStartReady =>
    simp only [aseCpCheckMsgLen, fixedLen, Nat.mul_one, aseCpOpMinLen]
    rfl
  | recStopReady =>
    simp only [aseCpCheckMsgLen, fixedLen, Nat.mul_one, aseCpOpMinLen]
    rfl
  | disable =>
    simp only [aseCpCheckMsgLen, fixedLen, Nat.mul_one, aseCpOpMinLen]
    rfl
  | release =>
    simp only [aseCpCheckMsgLen, fixedLen, Nat.mul_one, aseCpOpMinLen]
    rfl

theorem aseCpCheckMsgLen_short (h : bytes.length < 3) : aseCpCheckMsgLen op bytes = .ok false := by
  unfold aseCpCheckMsgLen aseCpOpMinLen
  rw [if_pos h]

theorem aseCpCheckMsgLen_ok (hlen : bytes.length < 65536) :
    (∃ r, aseCpCheckMsgLen op bytes = .ok r) ↔ (3 ≤ bytes.length → LengthsInside op bytes) := by
  by_cases hmin : bytes.length < 3
  . rw [aseCpCheckMsgLen_short hmin]
    exact iff_of_true ⟨_, rfl⟩ fun h => by omega
  have hnum := byteAt_octet (show 1 < bytes.length by omega)
  by_cases hc : op.Counted
  . rw [aseCpCheckMsgLen_counted hc, if_neg hmin]
    simp only [hnum, bind, Except.bind, pure, Except.pure]
    constructor
    . rintro ⟨r, hr⟩ - -
      cases hloop : lenLoop bytes (fixedLen op - 1) (octet bytes 1) 2 with
      | error e => simp [hloop] at hr
      | ok idx => exact lengths_of_lenLoop hc hlen hloop
    . intro h
      have hoct := @octet_lt bytes 1
      obtain ⟨r, hr, -⟩ := @lenLoop_ok op bytes (octet bytes 1) 2 hc hlen (by omega) (by omega)
        (h (by omega) hc)
      exact ⟨_, by rw [show lenLoop bytes (fixedLen op - 1) (octet bytes 1) 2 = .ok r from hr]⟩
  . rw [aseCpCheckMsgLen_not_counted hc, if_neg hmin, hnum]
    exact iff_of_true ⟨_, rfl⟩ fun _ h => absurd h hc

theorem aseCpCheckMsgLen_true (hlen : bytes.length < 65536) (hop : octet bytes 0 = op.toByte) :
    aseCpCheckMsgLen op bytes = .ok true ↔ WellFormed op bytes := by
  rw [wellFormed_iff]
  by_cases hmin : bytes.length < 3
  . rw [aseCpCheckMsgLen_short hmin]
    simp only [Except.ok.injEq, Bool.false_eq_true, false_iff]
    omega
  have hnum := byteAt_octet (show 1 < bytes.length by omega)
  have hoct := @octet_lt bytes 1
  have hpos := @fixedLen_pos op
  by_cases hc : op.Counted
  . rw [aseCpCheckMsgLen_counted hc, if_neg hmin]
    simp only [hnum, bind, Except.bind, pure, Except.pure]
    constructor
    . intro h
      cases hloop : lenLoop bytes (fixedLen op - 1) (octet bytes 1) 2 with
      | error e => simp [hloop] at h
      | ok idx =>
        simp only [hloop, Except.ok.injEq, decide_eq_true_eq] at h
        obtain ⟨r, hr, hall⟩ := @lenLoop_ok op bytes (octet bytes 1) 2 hc hlen (by omega)
          (by omega) (lengths_of_lenLoop hc hlen hloop)
        have hr : lenLoop bytes (fixedLen op - 1) (octet bytes 1) 2 = .ok r := hr
        rw [hloop, Except.ok.injEq] at hr
        have hin := hall (by omega)
        have hend : lenLoop bytes (fixedLen op - 1) (octet bytes 1) 2 = _ :=
          lenLoop_inside hc hlen hin
        rw [hloop, Except.ok.injEq] at hend
        refine ⟨by omega, hop, ?_⟩
        -- the last entry ends less than 256 bytes behind the write, so its end did not wrap
        cases hcount : octet bytes 1 with
        | zero =>
          rw [hcount] at hend
          rw [entryEnd] at hend ⊢
          omega
        | succ k =>
          have hlast := hin k (by omega)
          have hcounted := @countedLen_lt op bytes (entryEnd op bytes k 2)
          rw [hcount, entryEnd_succ] at hend
          rw [entryEnd_succ]
          omega
    . rintro ⟨-, -, hend⟩
      have hin : ∀ i < octet bytes 1, entryEnd op bytes i 2 + fixedLen op ≤ bytes.length := by
        intro i hi
        have := @entryEnd_mono op bytes (octet bytes 1) 2 (i + 1) (by omega)
        rw [entryEnd_succ] at this
        omega
      have hloop : lenLoop bytes (fixedLen op - 1) (octet bytes 1) 2 = _ :=
        lenLoop_inside hc hlen hin
      rw [hend, Nat.mod_eq_of_lt hlen] at hloop
      simp [hloop]
  . rw [aseCpCheckMsgLen_not_counted hc, if_neg hmin, hnum, entryEnd_not_counted hc]
    simp only [bind, Except.bind, pure, Except.pure, Except.ok.injEq, decide_eq_true_eq]
    constructor
    . intro h
      exact ⟨by omega, hop, by omega⟩
    . rintro ⟨-, -, h⟩
      omega

end

end Ascs
