import Earphone.Obex.Basic

namespace Obex

open Scan

def wireLens (pkt : List UInt8) (p hdr : Nat) : Nat × Nat :=
  if hdr / 64 = 2 then (2, 1)
  else if hdr / 64 = 3 then (5, 1)
  else ((pkt.getD (p + 1) 0).toNat * 256 + (pkt.getD (p + 2) 0).toNat, 3)

def HdrInside (pkt : List UInt8) (p hdr : Nat) : Prop :=
  hdr / 64 = 2 ∨ hdr / 64 = 3 ∨ p + 2 < pkt.length

section

variable {pkt : List UInt8} {tgt p len : Nat}

theorem be16At_ok :
    be16At pkt i = .ok n ↔
      i + 1 < pkt.length ∧ n = (pkt.getD i 0).toNat * 256 + (pkt.getD (i + 1) 0).toNat := by
  simp only [be16At, bind_ok]
  constructor
  . rintro ⟨hi, hhi, lo, hlo, h⟩
    have hhi' := byteAt_ok hhi
    have hlo' := byteAt_ok hlo
    rw [byteAt_lt hhi'] at hhi
    rw [byteAt_lt hlo'] at hlo
    cases hhi
    cases hlo
    cases h
    exact ⟨hlo', by simp [hhi', hlo']⟩
  . rintro ⟨hlt, rfl⟩
    have hlt' : i < pkt.length := by omega
    exact ⟨_, byteAt_lt hlt', _, byteAt_lt hlt, by simp [hlt, hlt', pure, Except.pure]⟩

theorem hdrLens_ok :
    hdrLens pkt p hdr = .ok lens ↔ HdrInside pkt p hdr ∧ lens = wireLens pkt p hdr := by
  unfold hdrLens HdrInside wireLens
  by_cases h2 : hdr / 64 = 2
  . simp [h2, eq_comm]
  by_cases h3 : hdr / 64 = 3
  . simp [h3, eq_comm]
  simp only [h2, h3, if_false, false_or, bind_ok, be16At_ok]
  constructor
  . rintro ⟨n, ⟨hlt, rfl⟩, h⟩
    cases h
    exact ⟨hlt, rfl⟩
  . rintro ⟨hlt, rfl⟩
    exact ⟨_, ⟨hlt, rfl⟩, rfl⟩

theorem wireLens_pos : 0 < (wireLens pkt p hdr).2 := by
  unfold wireLens
  split_ifs <;> simp

theorem wireLens_lt : (wireLens pkt p hdr).1 < 65536 := by
  unfold wireLens
  split_ifs
  . simp
  . simp
  . have h1 := (pkt.getD (p + 1) 0).toNat_lt
    have h2 := (pkt.getD (p + 2) 0).toNat_lt
    omega

theorem hdrValue_ok (hlens : lens.1 < 65536) (hpos : 0 < lens.2) :
    hdrValue pkt p lens = .ok s ↔
      lens.2 ≤ lens.1 ∧ p + lens.1 ≤ pkt.length ∧ s = ⟨p + lens.2, lens.1 - lens.2⟩ := by
  unfold hdrValue
  by_cases hval : lens.2 ≤ lens.1
  . have hsub := sub16_le hval hlens
    have hsum : p + lens.2 + (lens.1 - lens.2) = p + lens.1 := by omega
    rw [if_pos hval, hsub]
    simp only [sliceAt, Slice.Within, hsum]
    split_ifs with hpkt
    . simp [hval, hpkt, eq_comm]
    . simp [hpkt]
  . simp [hval]

inductive HdrsOk (pkt : List UInt8) (tgt : Nat) (Q : Nat → Nat → Prop) : Nat → Nat → Prop where
  | done (p : Nat) : HdrsOk pkt tgt Q p 0
  | short {p len hdr : Nat} (hlen : len ≠ 0) (hhdr : byteAt pkt p = .ok hdr)
      (hin : HdrInside pkt p hdr) (hshort : len < (wireLens pkt p hdr).1) : HdrsOk pkt tgt Q p len
  | found {p len : Nat} (hlen : len ≠ 0) (hhdr : byteAt pkt p = .ok tgt)
      (hin : HdrInside pkt p tgt) (hle : (wireLens pkt p tgt).1 ≤ len)
      (hval : (wireLens pkt p tgt).2 ≤ (wireLens pkt p tgt).1)
      (hpkt : p + (wireLens pkt p tgt).1 ≤ pkt.length)
      (hq : Q (p + (wireLens pkt p tgt).2) ((wireLens pkt p tgt).1 - (wireLens pkt p tgt).2)) :
      HdrsOk pkt tgt Q p len
  | skip {p len hdr : Nat} (hlen : len ≠ 0) (hhdr : byteAt pkt p = .ok hdr)
      (hin : HdrInside pkt p hdr) (hle : (wireLens pkt p hdr).1 ≤ len) (hne : hdr ≠ tgt)
      (hpos : (wireLens pkt p hdr).1 ≠ 0)
      (hrest : HdrsOk pkt tgt Q (p + (wireLens pkt p hdr).1) (len - (wireLens pkt p hdr).1)) :
      HdrsOk pkt tgt Q p len

theorem find_round :
    obexFindHdrInPkt pkt tgt (fuel + 1) p len = .ok r ↔
      len = 0 ∧ r = none ∨
      len ≠ 0 ∧ ∃ hdr, byteAt pkt p = .ok hdr ∧ HdrInside pkt p hdr ∧
        (len < (wireLens pkt p hdr).1 ∧ r = none ∨
          (wireLens pkt p hdr).1 ≤ len ∧ hdr = tgt ∧
            (wireLens pkt p hdr).2 ≤ (wireLens pkt p hdr).1 ∧
            p + (wireLens pkt p hdr).1 ≤ pkt.length ∧
            r = some ⟨p + (wireLens pkt p hdr).2,
              (wireLens pkt p hdr).1 - (wireLens pkt p hdr).2⟩ ∨
          (wireLens pkt p hdr).1 ≤ len ∧ hdr ≠ tgt ∧
            obexFindHdrInPkt pkt tgt fuel (p + (wireLens pkt p hdr).1)
              (len - (wireLens pkt p hdr).1) = .ok r) := by
  rw [obexFindHdrInPkt]
  by_cases hlen : len = 0
  . simp [hlen, eq_comm]
  simp only [hlen, if_false, false_and, false_or, ne_eq, not_false_eq_true, true_and, bind_ok,
    hdrLens_ok]
  apply exists_congr
  intro hdr
  apply and_congr_right
  intro _
  constructor
  . rintro ⟨_, ⟨hin, rfl⟩, h⟩
    refine ⟨hin, ?_⟩
    split_ifs at h with hshort htgt
    . cases h
      exact .inl ⟨hshort, rfl⟩
    . obtain ⟨s, hs, rfl⟩ := map_ok.mp h
      obtain ⟨hval, hpkt, rfl⟩ := (hdrValue_ok wireLens_lt wireLens_pos).mp hs
      exact .inr (.inl ⟨by omega, htgt, hval, hpkt, rfl⟩)
    . exact .inr (.inr ⟨by omega, htgt, h⟩)
  . rintro ⟨hin, h⟩
    refine ⟨_, ⟨hin, rfl⟩, ?_⟩
    rcases h with ⟨hshort, rfl⟩ | ⟨hle, htgt, hval, hpkt, rfl⟩ | ⟨hle, htgt, h⟩
    . rw [if_pos hshort]
    . rw [if_neg (by omega), if_pos htgt]
      exact map_ok.mpr ⟨_, (hdrValue_ok wireLens_lt wireLens_pos).mpr ⟨hval, hpkt, rfl⟩, rfl⟩
    . rw [if_neg (by omega), if_neg htgt]
      exact h

theorem mono_find : Mono (fun n => obexFindHdrInPkt pkt tgt n p len) := by
  intro fuel
  induction fuel generalizing p len with
  | zero =>
    intro r h
    cases h
  | succ fuel ih =>
    intro r h
    rw [find_round] at h ⊢
    rcases h with h | ⟨hlen, hdr, hhdr, hin, h | h | ⟨hle, hne, h⟩⟩
    . exact .inl h
    . exact .inr ⟨hlen, hdr, hhdr, hin, .inl h⟩
    . exact .inr ⟨hlen, hdr, hhdr, hin, .inr (.inl h)⟩
    . exact .inr ⟨hlen, hdr, hhdr, hin, .inr (.inr ⟨hle, hne, ih _ h⟩)⟩

def Found (Q : Nat → Nat → Prop) (found : Option Slice) : Prop :=
  ∀ s, found = some s → Q s.start s.len

theorem hdrsOk_of_find (hq : Found Q found)
    (h : obexFindHdrInPkt pkt tgt fuel p len = .ok found) :
    HdrsOk pkt tgt Q p len := by
  induction fuel generalizing p len with
  | zero => cases h
  | succ fuel ih =>
    rcases find_round.mp h with
      ⟨rfl, _⟩ | ⟨hlen, hdr, hhdr, hin, ⟨hshort, _⟩ | ⟨hle, rfl, hval, hpkt, hr⟩ | ⟨hle, hne, h⟩⟩
    . apply HdrsOk.done
    . exact .short hlen hhdr hin hshort
    . exact .found hlen hhdr hin hle hval hpkt (hq _ hr)
    . by_cases hpos : (wireLens pkt p hdr).1 = 0
      . -- Behind a header of length 0 the walk is where it was, with less fuel.
        rw [hpos] at h
        exact ih h
      . exact .skip hlen hhdr hin hle hne hpos (ih h)

theorem find_of_hdrsOk (h : HdrsOk pkt tgt Q p len) :
    ∃ fuel found, obexFindHdrInPkt pkt tgt fuel p len = .ok found ∧ Found Q found := by
  induction h with
  | done p => exact ⟨1, none, find_round.mpr (.inl ⟨rfl, rfl⟩), by simp [Found]⟩
  | short hlen hhdr hin hshort =>
    exact ⟨1, none, find_round.mpr (.inr ⟨hlen, _, hhdr, hin, .inl ⟨hshort, rfl⟩⟩),
      by simp [Found]⟩
  | found hlen hhdr hin hle hval hpkt hq =>
    refine ⟨1, _, find_round.mpr (.inr ⟨hlen, _, hhdr, hin,
      .inr (.inl ⟨hle, rfl, hval, hpkt, rfl⟩)⟩), ?_⟩
    intro s hs
    cases hs
    exact hq
  | skip hlen hhdr hin hle hne _ _ ih =>
    obtain ⟨fuel, found, hrun, hq⟩ := ih
    exact ⟨fuel + 1, found,
      find_round.mpr (.inr ⟨hlen, _, hhdr, hin, .inr (.inr ⟨hle, hne, hrun⟩)⟩), hq⟩

theorem find_iff :
    (∃ found, Runs (fun n => obexFindHdrInPkt pkt tgt n p len) found ∧ Found Q found) ↔
      HdrsOk pkt tgt Q p len := by
  constructor
  . rintro ⟨found, ⟨fuel, h⟩, hq⟩
    exact hdrsOk_of_find hq h
  . intro h
    obtain ⟨fuel, found, hrun, hq⟩ := find_of_hdrsOk h
    exact ⟨found, ⟨fuel, hrun⟩, hq⟩

def anyValue (_ _ : Nat) : Prop := True

theorem halts_find :
    Halts (fun n => obexFindHdrInPkt pkt tgt n p len) ↔ HdrsOk pkt tgt anyValue p len := by
  rw [← find_iff]
  simp [Halts, Found, anyValue]

def HdrValue (pkt : List UInt8) (tgt : Nat) (s : Slice) : Prop :=
  s.Within pkt ∧ ∃ q, byteAt pkt q = .ok tgt ∧ q + (wireLens pkt q tgt).2 = s.start ∧
    s.len + (wireLens pkt q tgt).2 = (wireLens pkt q tgt).1

theorem find_hdrValue
    (h : obexFindHdrInPkt pkt tgt fuel p len = .ok (some s)) : HdrValue pkt tgt s := by
  induction fuel generalizing p len with
  | zero => cases h
  | succ fuel ih =>
    rcases find_round.mp h with
      ⟨_, hr⟩ | ⟨_, hdr, hhdr, _, ⟨_, hr⟩ | ⟨_, rfl, hval, hpkt, hr⟩ | ⟨_, _, h⟩⟩
    . cases hr
    . cases hr
    . cases hr
      refine ⟨?_, p, hhdr, rfl, ?_⟩
      . simp only [Slice.Within]
        omega
      . exact Nat.sub_add_cancel hval
    . exact ih h

theorem find_value (h : obexFindHdrInPkt pkt tgt fuel p len = .ok (some s)) :
    s.Within pkt ∧ (tgt / 64 = 2 → s.len = 1) ∧ (tgt / 64 = 3 → s.len = 4) := by
  obtain ⟨hin, q, _, _, hlen⟩ := find_hdrValue h
  refine ⟨hin, ?_, ?_⟩
  . intro hk
    simpa [wireLens, hk] using hlen
  . intro hk
    simpa [wireLens, hk] using hlen

inductive TagsOk (param : List UInt8) (tag : Nat) : Nat → Nat → Prop where
  | done (p : Nat) : TagsOk param tag p 0
  | short {p len type n : Nat} (hlen : len ≠ 0) (htype : byteAt param p = .ok type)
      (hn : byteAt param (p + 1) = .ok n) (hshort : sub16 (sub16 len 1) 1 < n) :
      TagsOk param tag p len
  | found {p len n : Nat} (hlen : len ≠ 0) (htype : byteAt param p = .ok tag)
      (hn : byteAt param (p + 1) = .ok n) (hle : n ≤ sub16 (sub16 len 1) 1)
      (hparam : p + 2 + n ≤ param.length) : TagsOk param tag p len
  | skip {p len type n : Nat} (hlen : len ≠ 0) (htype : byteAt param p = .ok type)
      (hn : byteAt param (p + 1) = .ok n) (hle : n ≤ sub16 (sub16 len 1) 1) (hne : type ≠ tag)
      (hrest : TagsOk param tag (p + 2 + n) (sub16 (sub16 len 1) 1 - n)) : TagsOk param tag p len

variable {tag : Nat}

theorem value_round :
    obexFindValueInAppParam pkt tag (fuel + 1) p len = .ok r ↔
      len = 0 ∧ r = none ∨
      len ≠ 0 ∧ ∃ type, byteAt pkt p = .ok type ∧ ∃ n, byteAt pkt (p + 1) = .ok n ∧
        (sub16 (sub16 len 1) 1 < n ∧ r = none ∨
          n ≤ sub16 (sub16 len 1) 1 ∧ type = tag ∧ p + 2 + n ≤ pkt.length ∧ r = some ⟨p + 2, n⟩ ∨
          n ≤ sub16 (sub16 len 1) 1 ∧ type ≠ tag ∧
            obexFindValueInAppParam pkt tag fuel (p + 2 + n) (sub16 (sub16 len 1) 1 - n) =
              .ok r) := by
  rw [obexFindValueInAppParam]
  by_cases hlen : len = 0
  . simp [hlen, eq_comm]
  simp only [hlen, if_false, false_and, false_or, ne_eq, not_false_eq_true, true_and, bind_ok]
  apply exists_congr
  intro type
  apply and_congr_right
  intro _
  apply exists_congr
  intro n
  apply and_congr_right
  intro _
  by_cases hshort : sub16 (sub16 len 1) 1 < n
  . have hle : ¬n ≤ sub16 (sub16 len 1) 1 := by omega
    simp [hshort, hle, eq_comm]
  have hle : n ≤ sub16 (sub16 len 1) 1 := by omega
  by_cases htag : type = tag
  . by_cases hpkt : p + 2 + n ≤ pkt.length
    . simp [hshort, hle, htag, sliceAt, Slice.Within, hpkt, eq_comm]
    . simp [hshort, hle, htag, sliceAt, Slice.Within, hpkt]
  . simp [hshort, hle, htag]

theorem tagsOk_of_value
    (h : obexFindValueInAppParam pkt tag fuel p len = .ok r) : TagsOk pkt tag p len := by
  induction fuel generalizing p len with
  | zero => cases h
  | succ fuel ih =>
    rcases value_round.mp h with
      ⟨rfl, _⟩ | ⟨hlen, type, htype, n, hn, ⟨hshort, _⟩ | ⟨hle, rfl, hpkt, _⟩ | ⟨hle, hne, h⟩⟩
    . apply TagsOk.done
    . exact .short hlen htype hn hshort
    . exact .found hlen htype hn hle hpkt
    . exact .skip hlen htype hn hle hne (ih h)

theorem value_of_tagsOk (h : TagsOk pkt tag p len) :
    ∃ fuel r, obexFindValueInAppParam pkt tag fuel p len = .ok r := by
  induction h with
  | done p => exact ⟨1, none, value_round.mpr (.inl ⟨rfl, rfl⟩)⟩
  | short hlen htype hn hshort =>
    exact ⟨1, none, value_round.mpr (.inr ⟨hlen, _, htype, _, hn, .inl ⟨hshort, rfl⟩⟩)⟩
  | found hlen htype hn hle hpkt =>
    exact ⟨1, _, value_round.mpr (.inr ⟨hlen, _, htype, _, hn,
      .inr (.inl ⟨hle, rfl, hpkt, rfl⟩)⟩)⟩
  | skip hlen htype hn hle hne _ ih =>
    obtain ⟨fuel, r, hrun⟩ := ih
    exact ⟨fuel + 1, r, value_round.mpr (.inr ⟨hlen, _, htype, _, hn,
      .inr (.inr ⟨hle, hne, hrun⟩)⟩)⟩

def TagValue (param : List UInt8) (tag : Nat) (s : Slice) : Prop :=
  s.Within param ∧ ∃ q, byteAt param q = .ok tag ∧ byteAt param (q + 1) = .ok s.len ∧
    q + 2 = s.start

theorem value_tagValue
    (h : obexFindValueInAppParam pkt tag fuel p len = .ok (some s)) : TagValue pkt tag s := by
  induction fuel generalizing p len with
  | zero => cases h
  | succ fuel ih =>
    rcases value_round.mp h with
      ⟨_, hr⟩ | ⟨_, type, htype, n, hn, ⟨_, hr⟩ | ⟨_, rfl, hpkt, hr⟩ | ⟨_, _, h⟩⟩
    . cases hr
    . cases hr
    . cases hr
      exact ⟨hpkt, p, htype, hn, rfl⟩
    . exact ih h

inductive ChallengeOk (pkt : List UInt8) : Nat → Nat → Prop where
  | done (p : Nat) : ChallengeOk pkt p 0
  | nonce {p len : Nat} (hlen : len ≠ 0) (htag : byteAt pkt p = .ok 0)
      (hpkt : p + 2 + 16 ≤ pkt.length) : ChallengeOk pkt p len
  | skip {p len tag n : Nat} (hlen : len ≠ 0) (htag : byteAt pkt p = .ok tag) (hne : tag ≠ 0)
      (hn : byteAt pkt (p + 1) = .ok n)
      (hrest : ChallengeOk pkt (p + (n + 2)) (sub16 len (n + 2))) : ChallengeOk pkt p len

theorem challenge_round :
    authenChallenge pkt (fuel + 1) p len = .ok r ↔
      len = 0 ∧ r = none ∨
      len ≠ 0 ∧ ∃ tag, byteAt pkt p = .ok tag ∧
        (tag = 0 ∧ p + 2 + 16 ≤ pkt.length ∧ r = some ((pkt.drop (p + 2)).take 16 ++ password) ∨
          tag ≠ 0 ∧ ∃ n, byteAt pkt (p + 1) = .ok n ∧
            authenChallenge pkt fuel (p + (n + 2)) (sub16 len (n + 2)) = .ok r) := by
  rw [authenChallenge]
  by_cases hlen : len = 0
  . simp [hlen, eq_comm]
  simp only [hlen, if_false, false_and, false_or, ne_eq, not_false_eq_true, true_and, bind_ok]
  apply exists_congr
  intro tag
  apply and_congr_right
  intro _
  by_cases htag : tag = 0
  . by_cases hpkt : p + 2 + 16 ≤ pkt.length
    . simp [htag, bytesAt, hpkt, bind, Except.bind, pure, Except.pure, eq_comm]
    . simp [htag, bytesAt, hpkt]
  . simp [htag, bind_ok]

theorem mono_challenge : Mono (fun n => authenChallenge pkt n p len) := by
  intro fuel
  induction fuel generalizing p len with
  | zero =>
    intro r h
    cases h
  | succ fuel ih =>
    intro r h
    rw [challenge_round] at h ⊢
    rcases h with h | ⟨hlen, tag, htag, h | ⟨hne, n, hn, h⟩⟩
    . exact .inl h
    . exact .inr ⟨hlen, tag, htag, .inl h⟩
    . exact .inr ⟨hlen, tag, htag, .inr ⟨hne, n, hn, ih _ h⟩⟩

theorem halts_challenge : Halts (fun n => authenChallenge pkt n p len) ↔ ChallengeOk pkt p len := by
  constructor
  . rintro ⟨r, fuel, h⟩
    induction fuel generalizing p len with
    | zero => cases h
    | succ fuel ih =>
      rcases challenge_round.mp h with
        ⟨rfl, _⟩ | ⟨hlen, tag, htag, ⟨rfl, hpkt, _⟩ | ⟨hne, n, hn, h⟩⟩
      . apply ChallengeOk.done
      . exact .nonce hlen htag hpkt
      . exact .skip hlen htag hne hn (ih h)
  . intro h
    induction h with
    | done p => exact ⟨none, 1, challenge_round.mpr (.inl ⟨rfl, rfl⟩)⟩
    | nonce hlen htag hpkt =>
      exact ⟨_, 1, challenge_round.mpr (.inr ⟨hlen, _, htag, .inl ⟨rfl, hpkt, rfl⟩⟩)⟩
    | skip hlen htag hne hn _ ih =>
      obtain ⟨r, fuel, hrun⟩ := ih
      exact ⟨r, fuel + 1,
        challenge_round.mpr (.inr ⟨hlen, _, htag, .inr ⟨hne, _, hn, hrun⟩⟩)⟩

end

end Obex
