import Earphone.Lib.Scan
import Earphone.Lib.Words
import Mathlib.Data.List.Forall2
import Mathlib.Data.List.TakeWhile

/-!
This module contains the parser of a command line.
-/

namespace UserCmd

open Scan Words List

def maxCommandLine : Nat := 80

def maxParameters : Nat := 20

def isWhiteSpace (c : UInt8) : Bool := (9 ≤ c && c ≤ 13) || c == 32

def store (buf : List UInt8) (p : Nat) (c : UInt8) : Except Stuck (List UInt8) :=
  if p < buf.length then .ok (buf.set p c) else .error .overflow

def skipSpaces : List UInt8 → Nat → Except Stuck Nat
  | [], _ => .error .outside
  | c :: rest, p => if isWhiteSpace c then skipSpaces rest (p + 1) else .ok p

def findEndOfWord : List UInt8 → Nat → Except Stuck Nat
  | [], _ => .error .outside
  | c :: rest, p => if !isWhiteSpace c && c != 0 then findEndOfWord rest (p + 1) else .ok p

def digit (hex : Bool) (c : UInt8) : Option UInt32 :=
  let ch := c ||| 0x20
  if hex then
    if 97 ≤ ch ∧ ch ≤ 102 then some ((ch - 87) &&& 0x0f).toUInt32
    else if 48 ≤ ch ∧ ch ≤ 57 then some ((ch - 48) &&& 0x0f).toUInt32
    else none
  else
    if ch < 48 ∨ 57 < ch then none else some (ch - 48).toUInt32

def readDigits (hex : Bool) : List UInt8 → UInt32 → Except Stuck UInt32
  | [], _ => .error .outside
  | c :: rest, result =>
    match digit hex c with
    | some d => readDigits hex rest (if hex then (result <<< 4) + d else 10 * result + d)
    | none => .ok result

def base : List UInt8 → Bool × List UInt8
  | 120 :: p => (true, p)
  | 48 :: 120 :: p => (true, p)
  | p => (false, p)

def strToUint32 (p : List UInt8) : Except Stuck UInt32 := readDigits (base p).1 (base p).2 0

def parseParams : Nat → List UInt8 → Nat → Except Stuck (List UInt8 × List (Nat × UInt32))
  | 0, buf, _ => .ok (buf, [])
  | n + 1, buf, p => do
    let p ← skipSpaces (buf.drop p) p
    let d ← strToUint32 (buf.drop p)
    if n = 0 then
      -- the end of this parameter is not marked
      return (buf, [(p, d)])
    else
      let q ← findEndOfWord (buf.drop p) p
      let buf ← store buf q 0
      let c ← byteAt buf (q + 1)
      if c = 0 then
        return (buf, [(p, d)])
      else
        let r ← parseParams n buf (q + 1)
        return (r.1, (p, d) :: r.2)

inductive Result where
  | sucess
  | cmdEmptyLine

structure Parsed where
  buf : List UInt8
  cmd : Option Nat
  params : List (Nat × UInt32)

def userCmdParse (buf : List UInt8) : Except Stuck (Result × Parsed) := do
  let p ← skipSpaces buf 0
  let c ← byteAt buf p
  if c = 0 then
    return (.cmdEmptyLine, ⟨buf, none, []⟩)
  else
    let q ← findEndOfWord (buf.drop p) p
    if p = q then
      return (.cmdEmptyLine, ⟨buf, none, []⟩)
    else
      let buf ← store buf q 0
      let c ← byteAt buf (q + 1)
      if c = 0 then
        return (.sucess, ⟨buf, some p, []⟩)
      else
        let r ← parseParams maxParameters buf (q + 1)
        return (.sucess, ⟨r.1, some p, r.2⟩)

def lineBuf (line : List UInt8) : List UInt8 :=
  line ++ List.replicate (maxCommandLine + 2 - line.length) 0

section

def isDigit (hex : Bool) (c : UInt8) : Bool :=
  (48 ≤ c && c ≤ 57) || (hex && ((65 ≤ c && c ≤ 70) || (97 ≤ c && c ≤ 102)))

def digitValue (c : UInt8) : Nat :=
  if c ≤ 57 then c.toNat - 48 else if c ≤ 70 then c.toNat - 55 else c.toNat - 87

def radix (hex : Bool) : Nat := if hex then 16 else 10

def number (w : List UInt8) : Nat :=
  ((base w).2.takeWhile (isDigit (base w).1)).foldl
    (fun v c => radix (base w).1 * v + digitValue c) 0

def taken (hex : Bool) : List UInt8 → List UInt32
  | [] => []
  | c :: rest =>
    match digit hex c with
    | some d => d :: taken hex rest
    | none => []

def stray (w : List UInt8) : List UInt32 :=
  taken (base w).1 ((base w).2.dropWhile (isDigit (base w).1))

def shift (hex : Bool) (v d : UInt32) : UInt32 := UInt32.ofNat (radix hex) * v + d

def Harmless (w : List UInt8) : Prop :=
  (stray w).foldl (shift (base w).1) (UInt32.ofNat (number w)) = UInt32.ofNat (number w)
  deriving Decidable

theorem shift_eq (hex : Bool) (v d : UInt32) :
    (if hex then (v <<< 4) + d else 10 * v + d) = shift hex v d := by
  cases hex with
  | false => rfl
  | true =>
    have hmul : v <<< 4 = UInt32.ofNat 16 * v := by
      apply UInt32.toNat_inj.mp
      rw [UInt32.toNat_shiftLeft, UInt32.toNat_mul, Nat.shiftLeft_eq, Nat.mul_comm]
      rfl
    rw [if_pos rfl, hmul]
    rfl

theorem digit_eq (hex : Bool) {c : UInt8} (h : isDigit hex c = true) :
    digit hex c = some (UInt32.ofNat (digitValue c)) := by
  have hall : ∀ hex : Bool, ∀ n < 256, isDigit hex (UInt8.ofNat n) = true →
      digit hex (UInt8.ofNat n) = some (UInt32.ofNat (digitValue (UInt8.ofNat n))) := by
    decide +kernel
  have hc := hall hex c.toNat c.toNat_lt
  rw [UInt8.ofNat_toNat] at hc
  exact hc h

theorem digit_stop (hex : Bool) {c : UInt8} (h : isWhiteSpace c = true ∨ c = 0) :
    digit hex c = none := by
  have hall : ∀ hex : Bool, ∀ n < 256, isWhiteSpace (UInt8.ofNat n) = true ∨ UInt8.ofNat n = 0 →
      digit hex (UInt8.ofNat n) = none := by
    decide +kernel
  have hc := hall hex c.toNat c.toNat_lt
  rw [UInt8.ofNat_toNat] at hc
  exact hc h

variable {hex : Bool} {w rest : List UInt8} {c : UInt8}

theorem readDigits_eq (h : digit hex c = none) (v : UInt32) :
    readDigits hex (w ++ c :: rest) v = .ok ((taken hex w).foldl (shift hex) v) := by
  induction w generalizing v with
  | nil =>
    rw [nil_append, readDigits, h]
    rfl
  | cons a w ih =>
    rw [cons_append, readDigits, taken]
    cases digit hex a with
    | none => rfl
    | some d =>
      dsimp only
      rw [ih, shift_eq]
      rfl

theorem taken_digits (w : List UInt8) :
    taken hex w = (w.takeWhile (isDigit hex)).map (fun c => UInt32.ofNat (digitValue c)) ++
      taken hex (w.dropWhile (isDigit hex)) := by
  induction w with
  | nil => rfl
  | cons a w ih =>
    rw [takeWhile_cons, dropWhile_cons]
    split
    . next ha => rw [taken, digit_eq hex ha, ih]; rfl
    . rfl

theorem foldl_shift (l : List UInt8) (v : Nat) :
    (l.map fun c => UInt32.ofNat (digitValue c)).foldl (shift hex) (UInt32.ofNat v) =
      UInt32.ofNat (l.foldl (fun v c => radix hex * v + digitValue c) v) := by
  induction l generalizing v with
  | nil => rfl
  | cons c l ih =>
    rw [map_cons, foldl_cons, foldl_cons, ← ih, UInt32.ofNat_add, UInt32.ofNat_mul]
    rfl

theorem base_other (hx : ∀ v, w ≠ 120 :: v) (h0x : ∀ v, w ≠ 48 :: 120 :: v) :
    base w = (false, w) := by
  unfold base
  split
  . exact absurd rfl (hx _)
  . exact absurd rfl (h0x _)
  . rfl

theorem base_append (h : isWhiteSpace c = true ∨ c = 0) :
    base (w ++ c :: rest) = ((base w).1, (base w).2 ++ c :: rest) := by
  have h120 : c ≠ 120 := by rintro rfl; exact absurd h (by decide)
  have h48 : c ≠ 48 := by rintro rfl; exact absurd h (by decide)
  by_cases hx : ∃ v, w = 120 :: v
  . obtain ⟨v, rfl⟩ := hx
    rfl
  . by_cases h0x : ∃ v, w = 48 :: 120 :: v
    . obtain ⟨v, rfl⟩ := h0x
      rfl
    . rw [base_other (fun v hv => hx ⟨v, hv⟩) fun v hv => h0x ⟨v, hv⟩]
      refine base_other (fun v hv => ?_) fun v hv => ?_
      . cases w with
        | nil => exact h120 (List.cons.inj hv).1
        | cons a w => exact hx ⟨w, by rw [(List.cons.inj hv).1]⟩
      . match w with
        | [] => exact h48 (List.cons.inj hv).1
        | [a] => exact h120 (List.cons.inj (List.cons.inj hv).2).1
        | a :: b :: w =>
          exact h0x ⟨w, by rw [(List.cons.inj hv).1, (List.cons.inj (List.cons.inj hv).2).1]⟩

def strValue (w : List UInt8) : UInt32 :=
  (stray w).foldl (shift (base w).1) (UInt32.ofNat (number w))

theorem strToUint32_eq (h : isWhiteSpace c = true ∨ c = 0) :
    strToUint32 (w ++ c :: rest) = .ok (strValue w) := by
  rw [strToUint32, base_append h, readDigits_eq (digit_stop _ h), taken_digits, foldl_append,
    show (0 : UInt32) = UInt32.ofNat 0 from rfl, foldl_shift]
  rfl

end

section

def word (t : List UInt8) : List UInt8 :=
  (t.dropWhile isWhiteSpace).takeWhile fun c => !isWhiteSpace c

def afterWord (t : List UInt8) : List UInt8 :=
  (t.dropWhile isWhiteSpace).dropWhile fun c => !isWhiteSpace c

variable {pre t w rest : List UInt8} {c : UInt8} {p z : Nat}

theorem split_word (t : List UInt8) : t.takeWhile isWhiteSpace ++ (word t ++ afterWord t) = t := by
  rw [word, afterWord, takeWhile_append_dropWhile, takeWhile_append_dropWhile]

theorem word_not_space {a : UInt8} (ha : a ∈ word t) : isWhiteSpace a = false :=
  not_sep_of_mem_takeWhile ha

theorem afterWord_cut (t : List UInt8) : Cut isWhiteSpace (afterWord t) := cut_dropWhile _ _

theorem afterWord_nil (h : word t = []) : afterWord t = [] := by
  unfold word afterWord at *
  cases hd : t.dropWhile isWhiteSpace with
  | nil => rfl
  | cons a rest =>
    have ha := head?_dropWhile_not isWhiteSpace t
    rw [hd] at ha h
    simp_all

theorem of_eq_nil (h : word t = []) : of isWhiteSpace t = [] := by
  have hsplit := split_word t
  rw [h, afterWord_nil h, append_nil, append_nil] at hsplit
  rw [← hsplit]
  exact of_takeWhile

theorem of_eq_cons (h : word t ≠ []) :
    of isWhiteSpace t = word t :: of isWhiteSpace (afterWord t) := by
  rw [← of_dropWhile]
  unfold word afterWord at *
  cases hd : t.dropWhile isWhiteSpace with
  | nil => rw [hd] at h; exact absurd rfl h
  | cons a rest =>
    have ha := head?_dropWhile_not isWhiteSpace t
    rw [hd] at ha
    exact of_cons (by simpa using ha)

theorem skipSpaces_eq (hpre : ∀ a ∈ pre, isWhiteSpace a = true)
    (hrest : ∀ a ∈ rest.head?, isWhiteSpace a = false) (hne : rest ≠ []) :
    skipSpaces (pre ++ rest) p = .ok (p + pre.length) := by
  induction pre generalizing p with
  | nil =>
    cases rest with
    | nil => exact absurd rfl hne
    | cons a rest =>
      rw [nil_append, skipSpaces, if_neg (by simp [hrest a rfl])]
      rfl
  | cons a pre ih =>
    obtain ⟨ha, hpre⟩ := forall_mem_cons.mp hpre
    rw [cons_append, skipSpaces, if_pos ha, ih hpre, length_cons, Nat.add_right_comm,
      Nat.add_assoc]

theorem findEndOfWord_eq (hw : ∀ a ∈ w, isWhiteSpace a = false ∧ a ≠ 0)
    (hc : isWhiteSpace c = true ∨ c = 0) :
    findEndOfWord (w ++ c :: rest) p = .ok (p + w.length) := by
  induction w generalizing p with
  | nil =>
    rw [nil_append, findEndOfWord, if_neg (by rcases hc with h | h <;> simp [h])]
    rfl
  | cons a w ih =>
    obtain ⟨⟨ha, hne⟩, hw⟩ := forall_mem_cons.mp hw
    rw [cons_append, findEndOfWord, if_pos (by simp [ha, hne]), ih hw, length_cons,
      Nat.add_right_comm, Nat.add_assoc]

theorem store_eq (d : UInt8) : store (pre ++ c :: rest) pre.length d = .ok (pre ++ d :: rest) := by
  rw [store, if_pos (by simp), set_append_right _ _ (Nat.le_refl _), Nat.sub_self]
  rfl

theorem behind_word (t : List UInt8) (hz : 2 ≤ z) :
    ∃ c z', afterWord t ++ List.replicate z 0 = c :: ((afterWord t).tail ++ List.replicate z' 0) ∧
      1 ≤ z' ∧ (isWhiteSpace c = true ∨ c = 0) ∧ (afterWord t ≠ [] → z' = z) ∧
      (c = 0 ↔ afterWord t = []) := by
  cases ha : afterWord t with
  | nil =>
    refine ⟨0, z - 1, ?_, by omega, .inr rfl, fun h => absurd rfl h, by simp⟩
    rw [nil_append, tail_nil, nil_append, ← replicate_succ]
    congr
    omega
  | cons c rest =>
    have hc : isWhiteSpace c = true := afterWord_cut t c (by rw [ha]; rfl)
    refine ⟨c, z, rfl, by omega, .inl hc, fun _ => rfl, ?_⟩
    have hne : c ≠ 0 := by rintro rfl; exact absurd hc (by decide)
    simp [hne]

theorem word_split (t : List UInt8) (hz : 2 ≤ z) :
    ∃ c z', 1 ≤ z' ∧ (isWhiteSpace c = true ∨ c = 0) ∧ (afterWord t ≠ [] → z' = z) ∧
      (c = 0 ↔ afterWord t = []) ∧
      pre ++ (t ++ List.replicate z 0) = (pre ++ t.takeWhile isWhiteSpace) ++
        (word t ++ c :: ((afterWord t).tail ++ List.replicate z' 0)) ∧
      skipSpaces ((pre ++ (t ++ List.replicate z 0)).drop pre.length) pre.length =
        .ok (pre ++ t.takeWhile isWhiteSpace).length := by
  obtain ⟨c, z', heq, hz', hc, hkeep, hzero⟩ := behind_word t hz
  have hsplit : t ++ List.replicate z 0 = t.takeWhile isWhiteSpace ++
      (word t ++ c :: ((afterWord t).tail ++ List.replicate z' 0)) := by
    conv => lhs; rw [← split_word t]
    rw [append_assoc, append_assoc, heq]
  refine ⟨c, z', hz', hc, hkeep, hzero, by rw [hsplit, append_assoc], ?_⟩
  rw [drop_left, hsplit, skipSpaces_eq (all_eq_true.mp all_takeWhile) _ (by simp),
    length_append]
  intro a ha
  cases hw : word t with
  | nil =>
    rw [hw] at ha
    cases ha
    rw [hzero.mpr (afterWord_nil hw)]
    rfl
  | cons b w =>
    rw [hw] at ha
    cases ha
    exact @word_not_space t _ (by rw [hw]; exact mem_cons_self)

theorem byteAt_next {tail : List UInt8} (ht : ∀ a ∈ tail, a ≠ 0) (hz : 1 ≤ z) :
    ∃ d, byteAt (pre ++ 0 :: (tail ++ List.replicate z 0)) (pre.length + 1) = .ok d ∧
      (d = 0 ↔ tail = []) := by
  obtain ⟨z, rfl⟩ := Nat.exists_eq_add_of_le' hz
  have hget : ∀ d rest, byteAt (pre ++ 0 :: d :: rest) (pre.length + 1) = .ok d.toNat := by
    intro d rest
    unfold byteAt
    rw [getElem?_append_right (by omega), Nat.add_sub_cancel_left]
    rfl
  cases tail with
  | nil =>
    rw [nil_append, replicate_succ, hget]
    exact ⟨_, rfl, by simp⟩
  | cons a tail =>
    rw [cons_append, hget]
    have ha : a.toNat ≠ 0 := fun h => ht a mem_cons_self (UInt8.toNat_inj.mp h)
    exact ⟨_, rfl, by simp [ha]⟩

end

section

def found : Nat → List UInt8 → List (List UInt8 × Bool)
  | 0, _ => []
  | n + 1, t =>
    if n = 0 then
      [(word t, (afterWord t).isEmpty)]
    else
      (word t, true) :: if (afterWord t).tail = [] then [] else found n (afterWord t).tail

def Holds (buf : List UInt8) (param : Nat × UInt32) (item : List UInt8 × Bool) : Prop :=
  (∃ c rest, buf.drop param.1 = item.1 ++ c :: rest ∧ (isWhiteSpace c = true ∨ c = 0) ∧
    (c = 0 ↔ item.2 = true)) ∧ param.2 = strValue item.1

variable {pre t : List UInt8} {z : Nat}

theorem word_fine (ht : ∀ a ∈ t, a ≠ 0) : ∀ a ∈ word t, isWhiteSpace a = false ∧ a ≠ 0 := by
  intro a ha
  refine ⟨word_not_space ha, ht a ?_⟩
  rw [← split_word t]
  exact mem_append_right _ (mem_append_left _ ha)

theorem tail_fine (ht : ∀ a ∈ t, a ≠ 0) : ∀ a ∈ (afterWord t).tail, a ≠ 0 := by
  intro a ha
  apply ht a
  rw [← split_word t]
  exact mem_append_right _ (mem_append_right _ (mem_of_mem_tail ha))

theorem holds_marked {w rest : List UInt8} :
    Holds (pre ++ (w ++ 0 :: rest)) (pre.length, strValue w) (w, true) :=
  ⟨⟨0, rest, drop_left, .inr rfl, by simp⟩, rfl⟩

theorem parseParams_run (n : Nat) (ht : ∀ a ∈ t, a ≠ 0) (hz : 2 ≤ z) :
    ∃ tail params, parseParams (n + 1) (pre ++ (t ++ List.replicate z 0)) pre.length =
        .ok (pre ++ tail, params) ∧
      List.Forall₂ (Holds (pre ++ tail)) params (found (n + 1) t) := by
  induction n generalizing pre t z with
  | zero =>
    obtain ⟨c, z', -, hc, -, hzero, hsplit, hskip⟩ := @word_split pre z t hz
    refine ⟨t ++ List.replicate z 0,
      [((pre ++ t.takeWhile isWhiteSpace).length, strValue (word t))], ?_, ?_⟩
    . rw [parseParams, hskip]
      dsimp only [bind, Except.bind]
      rw [hsplit, drop_left, strToUint32_eq hc]
      rfl
    . rw [found, if_pos rfl]
      refine .cons ⟨⟨c, _, by rw [hsplit, List.drop_left], hc, ?_⟩, rfl⟩ .nil
      rw [hzero, List.isEmpty_iff]
  | succ n ih =>
    obtain ⟨c, z', hz', hc, hkeep, hzero, hsplit, hskip⟩ := @word_split pre z t hz
    have hword := word_fine ht
    rw [parseParams, hskip]
    dsimp only [bind, Except.bind]
    rw [hsplit, drop_left, strToUint32_eq hc]
    dsimp only
    rw [if_neg (Nat.succ_ne_zero n), findEndOfWord_eq hword hc, ← length_append,
      ← append_assoc]
    dsimp only
    rw [store_eq]
    dsimp only
    obtain ⟨d, hbyte, hd⟩ := @byteAt_next (pre ++ t.takeWhile isWhiteSpace ++ word t) z' _
      (tail_fine ht) hz'
    rw [hbyte]
    dsimp only
    rw [found, if_neg (Nat.succ_ne_zero n)]
    have hmark : pre ++ t.takeWhile isWhiteSpace ++ word t ++
        0 :: ((afterWord t).tail ++ List.replicate z' 0) =
          pre ++ (t.takeWhile isWhiteSpace ++ (word t ++
            0 :: ((afterWord t).tail ++ List.replicate z' 0))) := by
      rw [append_assoc, append_assoc]
    by_cases htail : (afterWord t).tail = []
    . rw [if_pos (hd.mpr htail), if_pos htail, hmark]
      refine ⟨_, [((pre ++ t.takeWhile isWhiteSpace).length, strValue (word t))], rfl,
        .cons ?_ .nil⟩
      rw [← append_assoc]
      exact holds_marked
    . rw [if_neg fun h => htail (hd.mp h), if_neg htail]
      obtain ⟨tail, params, hrun, hall⟩ := @ih
        (pre ++ t.takeWhile isWhiteSpace ++ word t ++ [0]) (afterWord t).tail z' (tail_fine ht) (by
          rw [hkeep fun h => htail (by rw [h]; rfl)]
          exact hz)
      have hbuf : pre ++ t.takeWhile isWhiteSpace ++ word t ++ [0] ++ tail =
          pre ++ t.takeWhile isWhiteSpace ++ (word t ++ 0 :: tail) := by
        rw [append_assoc _ [0], append_assoc _ (word t)]
        rfl
      rw [hbuf] at hrun hall
      rw [append_assoc _ [0], length_append, length_singleton] at hrun
      refine ⟨t.takeWhile isWhiteSpace ++ (word t ++ 0 :: tail),
        ((pre ++ t.takeWhile isWhiteSpace).length, strValue (word t)) :: params, ?_, ?_⟩
      . rw [← append_assoc pre]
        rw [singleton_append] at hrun
        rw [hrun]
        rfl
      . rw [← append_assoc pre]
        exact .cons holds_marked hall

theorem found_fine (n : Nat) (ht : ∀ a ∈ t, a ≠ 0) :
    ∀ x ∈ found n t, ∀ a ∈ x.1, isWhiteSpace a = false ∧ a ≠ 0 := by
  induction n generalizing t with
  | zero => exact fun x hx => absurd hx not_mem_nil
  | succ n ih =>
    intro x hx
    rw [found] at hx
    split at hx
    . rw [mem_singleton.mp hx]
      exact word_fine ht
    . rcases mem_cons.mp hx with rfl | hx
      . exact word_fine ht
      . split at hx
        . cases hx
        . exact ih (tail_fine ht) x hx

def trailing (t : List UInt8) : Nat := (t.reverse.takeWhile isWhiteSpace).length

theorem trailing_append {s : List UInt8} (hs : s ≠ []) (h : ∀ a ∈ s, isWhiteSpace a = false)
    (r : List UInt8) : trailing (t ++ (s ++ r)) = trailing r := by
  have hnil : (s.reverse ++ t.reverse).takeWhile isWhiteSpace = [] := by
    cases hrev : s.reverse with
    | nil => exact absurd (reverse_eq_nil_iff.mp hrev) hs
    | cons a l =>
      have ha : isWhiteSpace a = false := h a (mem_reverse.mp (by rw [hrev]; exact mem_cons_self))
      rw [cons_append, takeWhile_cons_of_neg (by simp [ha])]
  unfold trailing
  rw [reverse_append, reverse_append, append_assoc, takeWhile_append, hnil]
  split
  . next hall => rw [append_nil, ← hall]
  . rfl

theorem trailing_spaces (h : of isWhiteSpace t = []) : trailing t = t.length := by
  unfold trailing
  rw [takeWhile_eq_self_iff.mpr fun a ha => of_eq_nil_iff.mp h a (mem_reverse.mp ha),
    length_reverse]

def Fits (n : Nat) (r : List UInt8) : Prop :=
  if (of isWhiteSpace r).length < n then trailing r ≤ 1
  else (of isWhiteSpace r).length = n ∧ trailing r = 0
  deriving Decidable

theorem found_spaces (n : Nat) {s : UInt8} (hs : isWhiteSpace s = true) (hne : t ≠ [])
    (hw : word t = []) :
    ((found (n + 1) t).map (·.1) = (of isWhiteSpace t).take (n + 1) ∧
      ∀ x ∈ found (n + 1) t, x.2 = true) ↔ Fits (n + 1) (s :: t) := by
  have hof := of_eq_nil hw
  have htrail : trailing (s :: t) = t.length + 1 := trailing_spaces (by rw [of_cons_sep hs, hof])
  have hpos := length_pos_iff.mpr hne
  rw [Fits, of_cons_sep hs, hof, htrail, if_pos (by simp), take_nil]
  constructor
  . rintro ⟨h, -⟩
    rw [map_eq_nil_iff, found] at h
    split at h <;> cases h
  . intro h
    omega

theorem trailing_word (pre : List UInt8) (hw : word t ≠ []) :
    trailing (pre ++ t) = trailing (afterWord t) := by
  have h := @trailing_append (pre ++ t.takeWhile isWhiteSpace) (word t) hw
    (fun a ha => word_not_space ha) (afterWord t)
  rwa [append_assoc, split_word] at h

theorem found_iff (n : Nat) {s : UInt8} (hs : isWhiteSpace s = true) (hne : t ≠ []) :
    ((found (n + 1) t).map (·.1) = (of isWhiteSpace t).take (n + 1) ∧
      ∀ x ∈ found (n + 1) t, x.2 = true) ↔ Fits (n + 1) (s :: t) := by
  by_cases hw : word t = []
  . exact found_spaces n hs hne hw
  induction n generalizing s t with
  | zero =>
    rw [Fits, of_cons_sep hs, of_eq_cons hw, show trailing (s :: t) = _ from trailing_word [s] hw, found, if_pos rfl,
      if_neg (by simp)]
    cases hafter : afterWord t with
    | nil => simp [trailing]
    | cons a r =>
      constructor
      . rintro ⟨-, hall⟩
        exact absurd (hall _ (mem_singleton.mpr rfl)) (by simp)
      . rintro ⟨hlen, hzero⟩
        have hspaces := trailing_spaces (eq_nil_of_length_eq_zero (Nat.succ.inj hlen))
        rw [hzero] at hspaces
        cases hspaces
  | succ n ih =>
    rw [Fits, of_cons_sep hs, of_eq_cons hw, show trailing (s :: t) = _ from trailing_word [s] hw, found,
      if_neg (Nat.succ_ne_zero n), length_cons, take_succ_cons, map_cons,
      cons_inj_right, forall_mem_cons, and_iff_right rfl]
    cases hafter : afterWord t with
    | nil => simp [trailing]
    | cons a r =>
      have ha : isWhiteSpace a = true := afterWord_cut t a (by rw [hafter]; rfl)
      rw [tail_cons]
      by_cases hr : r = []
      . subst hr
        rw [if_pos rfl, of_cons_sep ha]
        simp [trailing, ha]
      . have hstep : ((found (n + 1) r).map (·.1) = (of isWhiteSpace r).take (n + 1) ∧
            ∀ x ∈ found (n + 1) r, x.2 = true) ↔ Fits (n + 1) (a :: r) := by
          by_cases hword : word r = []
          . exact found_spaces n ha hr hword
          . exact ih ha hr hword
        rw [if_neg hr, of_cons_sep ha, hstep, Fits, of_cons_sep ha]
        simp only [Nat.add_lt_add_iff_right, Nat.add_right_cancel_iff]

end

section

def CString (buf : List UInt8) (p : Nat) (w : List UInt8) : Prop :=
  ∃ rest, buf.drop p = w ++ 0 :: rest

def Param (buf : List UInt8) (param : Nat × UInt32) (w : List UInt8) : Prop :=
  CString buf param.1 w ∧ param.2 = UInt32.ofNat (number w)

def Meets (parsed : Parsed) : List (List UInt8) → Prop
  | [] => parsed.cmd = none ∧ parsed.params = []
  | w :: ws =>
    (∃ p, parsed.cmd = some p ∧ CString parsed.buf p w) ∧
      List.Forall₂ (Param parsed.buf) parsed.params (ws.take maxParameters)

def ParsedRight (line : List UInt8) : Prop :=
  ∃ result parsed, userCmdParse (lineBuf line) = .ok (result, parsed) ∧
    Meets parsed (of isWhiteSpace line)

def LineFits (line : List UInt8) : Prop :=
  if (of isWhiteSpace line).tail.length < maxParameters then trailing line ≤ 1
  else (of isWhiteSpace line).tail.length = maxParameters ∧ trailing line = 0

variable {line buf w v rest : List UInt8} {params : List (Nat × UInt32)}

theorem cstring_iff {c : UInt8} {p : Nat} (hbuf : buf.drop p = w ++ c :: rest)
    (hc : isWhiteSpace c = true ∨ c = 0) (hw : ∀ a ∈ w, isWhiteSpace a = false ∧ a ≠ 0)
    (hv : ∀ a ∈ v, isWhiteSpace a = false ∧ a ≠ 0) :
    CString buf p v ↔ w = v ∧ c = 0 := by
  have htake : ∀ (u : List UInt8) (b : UInt8) (r : List UInt8),
      (∀ a ∈ u, isWhiteSpace a = false ∧ a ≠ 0) → (isWhiteSpace b = true ∨ b = 0) →
        (u ++ b :: r).takeWhile (fun a => !isWhiteSpace a && a != 0) = u := by
    intro u b r hu hb
    rw [takeWhile_append_of_pos fun a ha => by simp [hu a ha],
      takeWhile_cons_of_neg (by rcases hb with h | h <;> simp [h]), append_nil]
  constructor
  . rintro ⟨r, hr⟩
    rw [hbuf] at hr
    have heq := congrArg (List.takeWhile fun a => !isWhiteSpace a && a != 0) hr
    rw [htake w c rest hw hc, htake v 0 r hv (.inr rfl)] at heq
    subst heq
    exact ⟨rfl, (List.cons.inj (append_cancel_left hr)).1⟩
  . rintro ⟨rfl, rfl⟩
    exact ⟨rest, hbuf⟩

theorem params_iff {items : List (List UInt8 × Bool)} {vs : List (List UInt8)}
    (h : List.Forall₂ (Holds buf) params items)
    (hitems : ∀ x ∈ items, ∀ a ∈ x.1, isWhiteSpace a = false ∧ a ≠ 0)
    (hvs : ∀ v ∈ vs, ∀ a ∈ v, isWhiteSpace a = false ∧ a ≠ 0) :
    List.Forall₂ (Param buf) params vs ↔
      (items.map (·.1) = vs ∧ ∀ x ∈ items, x.2 = true) ∧ ∀ v ∈ vs, Harmless v := by
  induction h generalizing vs with
  | nil =>
    rw [forall₂_nil_left_iff]
    constructor
    . rintro rfl
      simp
    . exact fun h => h.1.1.symm
  | @cons param item params items hparam _ ih =>
    obtain ⟨⟨c, rest, hbuf, hc, hmark⟩, hvalue⟩ := hparam
    obtain ⟨hitem, hitems⟩ := forall_mem_cons.mp hitems
    cases vs with
    | nil => simp
    | cons v vs =>
      obtain ⟨hv, hvs⟩ := forall_mem_cons.mp hvs
      rw [forall₂_cons, ih hitems hvs, Param, cstring_iff hbuf hc hitem hv, hmark, hvalue,
        map_cons, List.cons.injEq, forall_mem_cons, forall_mem_cons]
      constructor
      . rintro ⟨⟨⟨rfl, hm⟩, hval⟩, ⟨hmap, hall⟩, hharm⟩
        exact ⟨⟨⟨rfl, hmap⟩, hm, hall⟩, hval, hharm⟩
      . rintro ⟨⟨⟨rfl, hmap⟩, hm, hall⟩, hval, hharm⟩
        exact ⟨⟨⟨rfl, hm⟩, hval⟩, ⟨hmap, hall⟩, hharm⟩

theorem parse_empty (hlen : line.length ≤ maxCommandLine) (hw : word line = []) :
    userCmdParse (lineBuf line) = .ok (.cmdEmptyLine, ⟨lineBuf line, none, []⟩) := by
  have hz : 2 ≤ maxCommandLine + 2 - line.length := by omega
  obtain ⟨c, z', -, -, -, hzero, hsplit, hskip⟩ := @word_split [] _ line hz
  have hskip' : skipSpaces (lineBuf line) 0 = .ok (line.takeWhile isWhiteSpace).length := hskip
  have hbuf : lineBuf line = line.takeWhile isWhiteSpace ++
      (word line ++ c :: ((afterWord line).tail ++ List.replicate z' 0)) := hsplit
  have hbyte : byteAt (lineBuf line) (line.takeWhile isWhiteSpace).length = .ok 0 := by
    unfold byteAt
    rw [hbuf, hw, hzero.mpr (afterWord_nil hw), getElem?_append_right (Nat.le_refl _),
      Nat.sub_self]
    rfl
  rw [userCmdParse, hskip']
  dsimp only [bind, Except.bind]
  rw [hbyte]
  rfl

theorem parse_run (hlen : line.length ≤ maxCommandLine) (hline : ∀ a ∈ line, a ≠ 0)
    (hw : word line ≠ []) :
    ∃ buf params, userCmdParse (lineBuf line) =
        .ok (.sucess, ⟨buf, some (line.takeWhile isWhiteSpace).length, params⟩) ∧
      CString buf (line.takeWhile isWhiteSpace).length (word line) ∧
      List.Forall₂ (Holds buf) params (if (afterWord line).tail = [] then []
        else found maxParameters (afterWord line).tail) := by
  have hz : 2 ≤ maxCommandLine + 2 - line.length := by omega
  obtain ⟨c, z', hz', hc, hkeep, hzero, hsplit, hskip⟩ := @word_split [] _ line hz
  have hskip' : skipSpaces (lineBuf line) 0 = .ok (line.takeWhile isWhiteSpace).length := hskip
  have hbuf : lineBuf line = line.takeWhile isWhiteSpace ++
      (word line ++ c :: ((afterWord line).tail ++ List.replicate z' 0)) := hsplit
  obtain ⟨b, hb, hne⟩ : ∃ b, byteAt (lineBuf line) (line.takeWhile isWhiteSpace).length = .ok b ∧
      b ≠ 0 := by
    obtain ⟨a, w, haw⟩ := exists_cons_of_ne_nil hw
    have ha := (word_fine hline a (by rw [haw]; exact mem_cons_self)).2
    refine ⟨a.toNat, ?_, fun h => ha (UInt8.toNat_inj.mp h)⟩
    unfold byteAt
    rw [hbuf, haw, getElem?_append_right (Nat.le_refl _), Nat.sub_self]
    rfl
  have hpos := length_pos_iff.mpr hw
  rw [userCmdParse, hskip']
  dsimp only [bind, Except.bind]
  rw [hb]
  dsimp only
  rw [if_neg hne, hbuf, drop_left, findEndOfWord_eq (word_fine hline) hc,
    ← length_append, ← append_assoc]
  dsimp only
  rw [if_neg (by rw [length_append]; omega), store_eq]
  dsimp only
  obtain ⟨d, hbyte, hd⟩ := @byteAt_next (line.takeWhile isWhiteSpace ++ word line) z' _
    (tail_fine hline) hz'
  rw [hbyte]
  dsimp only
  by_cases htail : (afterWord line).tail = []
  . rw [if_pos (hd.mpr htail), if_pos htail]
    exact ⟨_, _, rfl, ⟨_, by rw [append_assoc, drop_left]⟩, .nil⟩
  . rw [if_neg fun h => htail (hd.mp h), if_neg htail]
    obtain ⟨tail, params, hrun, hall⟩ := @parseParams_run
      (line.takeWhile isWhiteSpace ++ word line ++ [0]) (afterWord line).tail z' 19
      (tail_fine hline) (by
        rw [hkeep fun h => htail (by rw [h]; rfl)]
        exact hz)
    rw [append_assoc _ [0], length_append, length_singleton,
      singleton_append] at hrun
    refine ⟨_, params, by rw [maxParameters, hrun]; rfl, ⟨tail, ?_⟩, hall⟩
    rw [append_assoc, append_assoc, drop_left]
    rfl

theorem mem_of_word {a : UInt8} {w t : List UInt8} (hw : w ∈ of isWhiteSpace t) (ha : a ∈ w) :
    a ∈ t := by
  induction t using byWords isWhiteSpace with
  | nil => simp at hw
  | skip b t hb ih =>
    rw [of_cons_sep hb] at hw
    exact mem_cons_of_mem _ (ih hw)
  | word b t hb ih =>
    rw [of_cons hb] at hw
    rcases mem_cons.mp hw with rfl | hw
    . exact (takeWhile_sublist _).mem ha
    . exact (dropWhile_sublist _).mem (ih hw)

theorem parsed_right_iff (hlen : line.length ≤ maxCommandLine) (hline : ∀ a ∈ line, a ≠ 0) :
    ParsedRight line ↔ of isWhiteSpace line = [] ∨
      LineFits line ∧ ∀ w ∈ (of isWhiteSpace line).tail.take maxParameters, Harmless w := by
  by_cases hw : word line = []
  . exact ⟨fun _ => .inl (of_eq_nil hw), fun _ => ⟨_, _, parse_empty hlen hw, by
      rw [of_eq_nil hw]
      exact ⟨rfl, rfl⟩⟩⟩
  have htrail : trailing line = trailing (afterWord line) := trailing_word [] hw
  obtain ⟨buf, params, hrun, hcmd, hall⟩ := parse_run hlen hline hw
  have hmeets : ParsedRight line ↔ List.Forall₂ (Param buf) params
      ((of isWhiteSpace (afterWord line)).take maxParameters) := by
    unfold ParsedRight
    rw [hrun, of_eq_cons hw]
    constructor
    . rintro ⟨_, _, heq, -, hparams⟩
      cases heq
      exact hparams
    . exact fun h => ⟨_, _, rfl, ⟨_, rfl, hcmd⟩, h⟩
  have hitems : ∀ x ∈ (if (afterWord line).tail = [] then []
      else found maxParameters (afterWord line).tail), ∀ a ∈ x.1,
        isWhiteSpace a = false ∧ a ≠ 0 := by
    intro x hx
    split at hx
    . cases hx
    . exact found_fine _ (tail_fine hline) x hx
  have hafter : ∀ a ∈ afterWord line, a ≠ 0 := by
    intro a ha
    apply hline a
    rw [← split_word line]
    exact mem_append_right _ (mem_append_right _ ha)
  rw [hmeets, params_iff hall hitems fun v hv a ha => ⟨not_sep_of_mem (mem_of_mem_take hv) a ha,
    hafter a (mem_of_word (mem_of_mem_take hv) ha)⟩, LineFits, htrail, of_eq_cons hw,
    tail_cons, or_iff_right (cons_ne_nil _ _)]
  apply and_congr_left'
  cases hcase : afterWord line with
  | nil => simp [trailing, maxParameters]
  | cons a r =>
    have ha : isWhiteSpace a = true := afterWord_cut line a (by rw [hcase]; rfl)
    rw [tail_cons]
    by_cases hr : r = []
    . subst hr
      rw [if_pos rfl, of_cons_sep ha]
      simp [trailing, ha, maxParameters]
    . rw [if_neg hr]
      have hfound := @found_iff r 19 a ha hr
      rw [Fits] at hfound
      rw [of_cons_sep ha] at hfound ⊢
      exact hfound

theorem parsed_right_two :
    ParsedRight [97, 32, 55] ↔ of isWhiteSpace [97, 32, 55] = [] ∨
      LineFits [97, 32, 55] ∧
        ∀ w ∈ (of isWhiteSpace [97, 32, 55]).tail.take maxParameters, Harmless w :=
  parsed_right_iff (by decide) (by decide +kernel)

theorem not_parsed_right :
    ¬∀ line : List UInt8, line.length ≤ maxCommandLine → (∀ a ∈ line, a ≠ 0) →
      ParsedRight line := by
  intro h
  have hwords : of isWhiteSpace [97, 32, 32] = [[97]] := by
    rw [of_eq_cons (by decide)]
    exact congrArg _ (of_eq_nil_iff.mpr (by decide +kernel))
  obtain ⟨result, parsed, hrun, hmeets⟩ := h [97, 32, 32] (by decide) (by decide +kernel)
  rw [hwords] at hmeets
  cases hrun
  cases hmeets.2

end

end UserCmd
