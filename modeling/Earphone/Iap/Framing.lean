import Earphone.Iap.Receive

namespace Iap

open Scan List

def hdrLenOf (header : List UInt8) : Nat :=
  if header.length < 2 then 2
  else if isIap2 header then 9
  else if isIap header then if header.getD 1 0 = iapLengthMarker then 4 else 2
  else if header.length = 2 then 3
  else if header.getD 2 0 = iapLengthMarker then 5
  else 3

theorem hdrLenOf_le (header : List UInt8) : hdrLenOf header ≤ 9 := by
  unfold hdrLenOf
  split_ifs <;> omega

def Known (header : List UInt8) : Prop :=
  header.length < 2 ∨ isIap2 header ∨ isIap header ∨ isSyncIap header
  deriving Decidable

structure Link.Inv (link : Link) : Prop where
  known : Known link.header
  headerLen : link.header ≠ [] → link.headerLen = hdrLenOf link.header
  header_le : link.header ≠ [] → link.header.length ≤ link.headerLen
  payload : ∀ body, link.payload = some body →
    ¬InHeader link ∧ body ≠ [] ∧ body.length < link.payloadLen
  payloadLen : link.payloadLen < 65536

def byteStep (link : Link) (b : UInt8) : Link × List Event :=
  if InHeader link then headerByte link b
  else if link.payloadLen = 0 then
    ((headerByte (pktDone link []).1 b).1,
      (pktDone link []).2 ++ (headerByte (pktDone link []).1 b).2)
  else if (link.payload.getD [] ++ [b]).length = link.payloadLen then
    pktDone link (link.payload.getD [] ++ [b])
  else ({ link with payload := some (link.payload.getD [] ++ [b]) }, [])

def feed : Link → List UInt8 → Link × List Event
  | link, [] => (link, [])
  | link, b :: bs =>
    ((feed (byteStep link b).1 bs).1, (byteStep link b).2 ++ (feed (byteStep link b).1 bs).2)

theorem feed_append (link : Link) (xs ys : List UInt8) :
    feed link (xs ++ ys) =
      ((feed (feed link xs).1 ys).1, (feed link xs).2 ++ (feed (feed link xs).1 ys).2) := by
  induction xs generalizing link with
  | nil => rfl
  | cons x xs ih => simp [feed, ih]

section

variable {link : Link} {b : UInt8}

theorem inv_newLink : newLink.Inv where
  known := .inl (by decide)
  headerLen := by simp [newLink]
  header_le := by simp [newLink]
  payload := by simp [newLink]
  payloadLen := by decide

theorem kinds_append (header : List UInt8) (b : UInt8) (h : 2 ≤ header.length) :
    isIap2 (header ++ [b]) = isIap2 header ∧ isIap (header ++ [b]) = isIap header ∧
      isSyncIap (header ++ [b]) = isSyncIap header ∧
      (header ++ [b]).getD 1 0 = header.getD 1 0 := by
  match header, h with
  | _ :: _ :: _, _ => simp [isIap2, isIap, isSyncIap]

theorem isSyncIap_not (h : isSyncIap header) : ¬isIap2 header ∧ ¬isIap header := by
  simp only [isSyncIap, Bool.and_eq_true, decide_eq_true_eq] at h
  simp only [isIap2, isIap, h.1, h.2]
  decide

theorem headerCheck_short (h : link.header.length < 2) : headerCheck link = link := by
  unfold headerCheck
  rw [if_neg (by omega), if_neg (by omega)]

theorem headerCheck_long (h : 3 < link.header.length) : headerCheck link = link := by
  unfold headerCheck
  rw [if_neg (by omega), if_neg (by omega)]

theorem headerCheck_second (h : link.header.length = 2) (hlen : link.headerLen = 2) :
    headerCheck link =
      if Known link.header then { link with headerLen := hdrLenOf link.header }
      else { link with header := [] } := by
  obtain ⟨header, headerLen, payloadLen, payload⟩ := link
  simp only at h hlen
  subst hlen
  unfold headerCheck hdrLenOf Known
  simp only [h, if_true, Nat.lt_irrefl, if_false, false_or]
  by_cases h2 : isIap2 header
  . simp only [h2, if_true, true_or]
  by_cases h1 : isIap header
  . by_cases hm : header.getD 1 0 = iapLengthMarker
    . simp only [h2, h1, hm, if_true, if_false, or_true, true_or, Bool.false_eq_true]
    . simp only [h2, h1, hm, if_true, if_false, or_true, true_or, Bool.false_eq_true]
  by_cases hs : isSyncIap header
  . simp only [h2, h1, hs, if_true, if_false, or_true, Bool.false_eq_true]
  . simp only [h2, h1, hs, if_false, or_false, Bool.false_eq_true]

theorem headerCheck_third {first : List UInt8} (hf : first.length = 2)
    (h : link.header = first ++ [b]) (hk : Known first) (hlen : link.headerLen = hdrLenOf first)
    (hlt : 2 < link.headerLen) :
    headerCheck link = { link with headerLen := hdrLenOf link.header } := by
  have hl : link.header.length = 3 := by simp [h, hf]
  obtain ⟨e2, e1, es, em⟩ := kinds_append first b (by omega)
  rw [← h] at e2 e1 es em
  have hb : ¬link.header.length < 2 := by omega
  have hb' : ¬first.length < 2 := by omega
  unfold headerCheck
  rw [if_neg (by omega), if_pos hl]
  by_cases hs : isSyncIap link.header
  . obtain ⟨n2, n1⟩ := isSyncIap_not hs
    have hthree : link.headerLen = 3 := by
      rw [hlen, hdrLenOf, if_neg hb', if_neg (by rwa [← e2]), if_neg (by rwa [← e1]), if_pos hf]
    have hlen3 : hdrLenOf link.header =
        if link.header.getD 2 0 = iapLengthMarker then 5 else 3 := by
      rw [hdrLenOf, if_neg hb, if_neg n2, if_neg n1, if_neg (by omega)]
    rw [hlen3]
    by_cases hm : link.header.getD 2 0 = iapLengthMarker
    . simp only [hs, hm, decide_true, Bool.and_self, if_true, hthree]
    . simp only [hs, hm, decide_false, Bool.and_false, Bool.false_eq_true, if_false]
      rw [← hthree]
  . have hsame : hdrLenOf link.header = link.headerLen := by
      rw [hlen, hdrLenOf, hdrLenOf, if_neg hb, if_neg hb', e2, e1, em]
      rcases hk with hk | hk | hk | hk
      . omega
      . simp [hk]
      . by_cases h2 : isIap2 first
        . simp [h2]
        . simp [h2, hk]
      . exact absurd (es ▸ hk) hs
    simp only [hs, Bool.false_and, Bool.false_eq_true, if_false, hsame]

theorem two_le_hdrLenOf (header : List UInt8) : 2 ≤ hdrLenOf header := by
  unfold hdrLenOf
  split_ifs <;> omega

theorem hdrLenOf_append (header : List UInt8) (b : UInt8) (h : 2 ≤ header.length) :
    hdrLenOf header ≤ hdrLenOf (header ++ [b]) ∧
      (3 ≤ header.length → hdrLenOf (header ++ [b]) = hdrLenOf header) := by
  obtain ⟨e2, e1, _, em⟩ := kinds_append header b h
  have hlen : (header ++ [b]).length = header.length + 1 := by simp
  have hlong : 3 ≤ header.length → hdrLenOf (header ++ [b]) = hdrLenOf header := by
    intro h3
    have hm : (header ++ [b]).getD 2 0 = header.getD 2 0 := by
      match header, h3 with
      | _ :: _ :: _ :: _, _ => simp
    unfold hdrLenOf
    rw [e2, e1, em, hm, hlen, if_neg (by omega : ¬header.length < 2),
      if_neg (by omega : ¬header.length + 1 < 2), if_neg (by omega : ¬header.length + 1 = 2),
      if_neg (by omega : ¬header.length = 2)]
  refine ⟨?_, hlong⟩
  by_cases h3 : 3 ≤ header.length
  . exact Nat.le_of_eq (hlong h3).symm
  . have htwo : header.length = 2 := by omega
    unfold hdrLenOf
    rw [e2, e1, em, hlen, htwo]
    simp only [Nat.lt_irrefl, if_false, if_true]
    split_ifs <;> omega

theorem known_append (header : List UInt8) (h : 2 ≤ header.length) :
    Known (header ++ [b]) ↔ Known header := by
  obtain ⟨e2, e1, es, _⟩ := kinds_append header b h
  have hlen : ¬(header ++ [b]).length < 2 := by
    rw [length_append]
    omega
  unfold Known
  rw [e2, e1, es]
  constructor
  . rintro (hlt | hk)
    . exact absurd hlt hlen
    . exact .inr hk
  . rintro (hlt | hk)
    . omega
    . exact .inr hk

section

variable (hinv : link.Inv) (hin : InHeader link)

include hinv hin

theorem headerCheck_eq :
    headerCheck { startHeader link with header := link.header ++ [b] } =
      if Known (link.header ++ [b]) then
        { link with header := link.header ++ [b], headerLen := hdrLenOf (link.header ++ [b]) }
      else { link with header := [], headerLen := 2 } := by
  by_cases h0 : link.header = []
  . have hk : Known (link.header ++ [b]) := .inl (by simp [h0])
    rw [if_pos hk, headerCheck_short (by simp [h0])]
    simp [startHeader, h0, hdrLenOf]
  have hlen := hinv.headerLen h0
  have hlt : link.header.length < link.headerLen := hin.resolve_left h0
  have hstart : startHeader link = link := by simp [startHeader, h0]
  have hpos := length_pos_iff.mpr h0
  rw [hstart]
  by_cases h1 : link.header.length = 1
  . have htwo : link.headerLen = 2 := by rw [hlen, hdrLenOf, if_pos (by omega)]
    rw [headerCheck_second (by simp [h1]) (by simpa using htwo)]
    simp only [htwo]
  by_cases h2 : link.header.length = 2
  . have hk : Known (link.header ++ [b]) := (known_append _ (by omega)).mpr hinv.known
    rw [if_pos hk]
    exact @headerCheck_third { link with header := link.header ++ [b] } b link.header h2 rfl
      hinv.known hlen (by simpa [h2] using hlt)
  . have hk : Known (link.header ++ [b]) := (known_append _ (by omega)).mpr hinv.known
    rw [if_pos hk, headerCheck_long (by simp; omega),
      (hdrLenOf_append _ _ (by omega)).2 (by omega), ← hlen]

theorem length_le_hdrLenOf : (link.header ++ [b]).length ≤ hdrLenOf (link.header ++ [b]) := by
  have htwo := two_le_hdrLenOf (link.header ++ [b])
  by_cases h2 : link.header.length < 2
  . simp only [length_append, length_singleton]
    omega
  . have h0 : link.header ≠ [] := by
      rintro h
      simp [h] at h2
    have hlt := hin.resolve_left h0
    have hle := (hdrLenOf_append link.header b (by omega)).1
    have hlen := hinv.headerLen h0
    simp only [length_append, length_singleton]
    omega

theorem headerByte_eq :
    headerByte link b =
      if Known (link.header ++ [b]) then
        if (link.header ++ [b]).length < hdrLenOf (link.header ++ [b]) then
          ({ link with
            header := link.header ++ [b], headerLen := hdrLenOf (link.header ++ [b]) }, [])
        else headerDone { link with
          header := link.header ++ [b], headerLen := hdrLenOf (link.header ++ [b]) }
      else ({ link with header := [], headerLen := 2 }, []) := by
  unfold headerByte
  rw [headerCheck_eq hinv hin]
  by_cases hk : Known (link.header ++ [b])
  . rw [if_pos hk, if_pos hk]
    split_ifs with hlt
    . rw [headerDone, if_neg (by simp only; omega)]
    . rfl
  . rw [if_neg hk, if_neg hk]
    rfl

theorem InHeader.payload_none : link.payload = none := by
  cases hp : link.payload with
  | none => rfl
  | some body => exact absurd hin (hinv.payload body hp).1

theorem headerByte_inv : (headerByte link b).1.Inv := by
  have hp := hin.payload_none hinv
  have hle := length_le_hdrLenOf (b := b) hinv hin
  have hpl := hinv.payloadLen
  rw [headerByte_eq hinv hin]
  by_cases hk : Known (link.header ++ [b])
  . rw [if_pos hk]
    have hrest : ∀ n < 65536, Link.Inv { link with
        header := link.header ++ [b], headerLen := hdrLenOf (link.header ++ [b]),
        payloadLen := n } := by
      intro n hn
      exact ⟨hk, fun _ => rfl, fun _ => hle, by simp [hp], hn⟩
    have hdone : ∀ n < 65536, Link.Inv { link with
        header := [], headerLen := hdrLenOf (link.header ++ [b]), payloadLen := n } := by
      intro n hn
      exact ⟨.inl (by simp), by simp, by simp, by simp [hp], hn⟩
    split_ifs
    . exact hrest _ hpl
    . unfold headerDone
      split_ifs
      . exact hdone _ (by omega)
      . exact hrest _ (by unfold sub16; omega)
      . exact hrest _ (by unfold iapPayloadLen; omega)
      . exact hrest _ (by unfold iapPayloadLen; omega)
      . exact hrest _ hpl
      . exact hrest _ hpl
  . rw [if_neg hk]
    exact ⟨.inl (by simp), by simp, by simp, by simp [hp], hpl⟩

end

theorem pktDone_inv (hinv : link.Inv) : (pktDone link body).1.Inv :=
  ⟨.inl (by simp [pktDone]), by simp [pktDone], by simp [pktDone], by simp [pktDone],
    hinv.payloadLen⟩

theorem inHeader_pktDone : InHeader (pktDone link body).1 := .inl rfl

theorem payload_inv (hinv : link.Inv) (hin : ¬InHeader link)
    (hne : body ≠ []) (hlt : body.length < link.payloadLen) :
    Link.Inv { link with payload := some body } where
  known := hinv.known
  headerLen := hinv.headerLen
  header_le := hinv.header_le
  payload := by
    intro body' h
    cases h
    exact ⟨hin, hne, hlt⟩
  payloadLen := hinv.payloadLen

end

theorem feed_short (hin : ¬InHeader link) (hne : bs ≠ [])
    (hlt : (link.payload.getD [] ++ bs).length < link.payloadLen) :
    feed link bs = ({ link with payload := some (link.payload.getD [] ++ bs) }, []) := by
  induction bs generalizing link with
  | nil => exact absurd rfl hne
  | cons b bs ih =>
    have hzero : link.payloadLen ≠ 0 := by omega
    have hfull : (link.payload.getD [] ++ [b]).length ≠ link.payloadLen := by
      simp only [length_append, length_cons, length_nil] at hlt ⊢
      omega
    have hstep : byteStep link b =
        ({ link with payload := some (link.payload.getD [] ++ [b]) }, []) := by
      rw [byteStep, if_neg hin, if_neg hzero, if_neg hfull]
    rw [feed, hstep]
    by_cases hbs : bs = []
    . simp [hbs, feed]
    . rw [@ih { link with payload := some (link.payload.getD [] ++ [b]) } hin hbs (by simpa using hlt)]
      simp

theorem feed_full (hin : ¬InHeader link) (hne : bs ≠ [])
    (hlen : (link.payload.getD [] ++ bs).length = link.payloadLen) :
    feed link bs = pktDone link (link.payload.getD [] ++ bs) := by
  obtain ⟨init, b, rfl⟩ := (eq_nil_or_concat bs).resolve_left hne
  rw [concat_eq_append] at *
  have hzero : link.payloadLen ≠ 0 := by
    simp only [length_append, length_singleton] at hlen
    omega
  by_cases hinit : init = []
  . subst hinit
    rw [nil_append] at hlen ⊢
    simp [feed, byteStep, if_neg hin, if_neg hzero, hlen, pktDone]
  . have hlt : (link.payload.getD [] ++ init).length < link.payloadLen := by
      simp only [length_append, length_singleton] at hlen ⊢
      omega
    rw [feed_append, feed_short hin hinit hlt]
    have hin' : ¬InHeader { link with payload := some (link.payload.getD [] ++ init) } := hin
    simp only [feed, byteStep, if_neg hin', if_neg hzero, Option.getD_some, append_assoc,
      if_pos hlen, pktDone, nil_append, append_nil]

section

variable {link : Link} {data : List UInt8} {p len : Nat} {alloc : Bool}

structure RoundOk (link : Link) (data : List UInt8) (p len : Nat) (alloc : Bool) (r : Round) :
    Prop where
  inv : r.link.Inv
  stop : r.stop → alloc = false
  taken : r.taken ≤ len
  less : r.stop = false →
    2 * (len - r.taken) + (if InHeader r.link then 0 else 1) <
      2 * len + (if InHeader link then 0 else 1)
  feed : r.stop = false → feed link (data.drop p) =
    ((Iap.feed r.link (data.drop (p + r.taken))).1,
      r.events ++ (Iap.feed r.link (data.drop (p + r.taken))).2)

theorem feed_taken {r : Round} (h : feed link ((data.drop p).take r.taken) = (r.link, r.events)) :
    feed link (data.drop p) =
      ((feed r.link (data.drop (p + r.taken))).1,
        r.events ++ (feed r.link (data.drop (p + r.taken))).2) := by
  conv_lhs => rw [← take_append_drop r.taken (data.drop p)]
  rw [feed_append, drop_drop, h]

theorem headerRound_ok (hinv : link.Inv) (hlen : p + len = data.length) (hpos : len ≠ 0)
    (hin : InHeader link) : ∃ r, headerRound link data p = .ok r ∧
      RoundOk link data p len alloc r := by
  have hlt : p < data.length := by omega
  have hroom : ¬9 ≤ link.header.length := by
    by_cases h0 : link.header = []
    . simp [h0]
    . have := hdrLenOf_le link.header
      have := hinv.headerLen h0
      have := hin.resolve_left h0
      omega
  refine ⟨⟨(headerByte link data[p]).1, (headerByte link data[p]).2, 1, false⟩, ?_, ?_⟩
  . rw [headerRound, if_neg hroom]
    simp [hlt, pure, Except.pure, bind]
  . refine ⟨headerByte_inv hinv hin, by simp, by simp only; omega, ?_, ?_⟩
    . intro _
      simp only [if_pos hin]
      split_ifs <;> omega
    . intro _
      apply feed_taken
      simp only
      rw [drop_eq_getElem_cons hlt, take_succ_cons, take_zero]
      simp [Iap.feed, byteStep, if_pos hin]

theorem bytesAt_drop {i n : Nat} (h : i + n ≤ data.length) :
    ∃ bytes, bytesAt data i n = .ok bytes ∧ bytes = (data.drop i).take n ∧ bytes.length = n := by
  refine ⟨_, bytesAt_le h, rfl, ?_⟩
  simp only [length_take, length_drop]
  omega

section

variable (hinv : link.Inv) (hlen : p + len = data.length) (hpos : len ≠ 0)

include hinv hlen hpos

theorem bufferRound_ok (hbody : link.payload = some body) :
    ∃ r, bufferRound link body data p len = .ok r ∧ RoundOk link data p len alloc r := by
  obtain ⟨hin, hne, hlt⟩ := hinv.payload body hbody
  have hsub : sub16 link.payloadLen body.length = link.payloadLen - body.length :=
    sub16_le (by omega) hinv.payloadLen
  unfold bufferRound
  rw [hsub]
  generalize hcopy : min (link.payloadLen - body.length) len = copyLen
  obtain ⟨bytes, hbytes, hdrop, hblen⟩ := @bytesAt_drop data p copyLen (by omega)
  have hbne : bytes ≠ [] := by
    rintro rfl
    simp only [length_nil] at hblen
    omega
  have hgetD : link.payload.getD [] = body := by simp [hbody]
  have hover : ¬link.payloadLen < body.length + copyLen := by omega
  have hsum : (body ++ bytes).length = body.length + copyLen := by simp [hblen]
  simp only [hbytes, if_neg hover, bind, Except.bind, pure, Except.pure]
  by_cases hfull : (body ++ bytes).length = link.payloadLen
  . refine ⟨⟨(pktDone link (body ++ bytes)).1, (pktDone link (body ++ bytes)).2, copyLen, false⟩,
      by simp only [if_pos hfull], ?_⟩
    have hinv' : (pktDone link (body ++ bytes)).1.Inv := pktDone_inv hinv
    refine ⟨hinv', by simp, by simp only; omega, ?_, ?_⟩
    . intro _
      simp only [if_pos inHeader_pktDone]
      split_ifs <;> omega
    . intro _
      apply feed_taken
      simp only
      rw [← hdrop, feed_full hin hbne (by rw [hgetD]; exact hfull), hgetD]
  . refine ⟨⟨{ link with payload := some (body ++ bytes) }, [], copyLen, false⟩,
      by simp only [if_neg hfull], ?_⟩
    have hlt' : (body ++ bytes).length < link.payloadLen := by omega
    refine ⟨payload_inv hinv hin (by simp [hne]) hlt', by simp, by simp only; omega, ?_, ?_⟩
    . intro _
      have hin' : ¬InHeader { link with payload := some (body ++ bytes) } := hin
      simp only [if_neg hin, if_neg hin']
      omega
    . intro _
      apply feed_taken
      simp only
      rw [← hdrop, feed_short hin hbne (by rw [hgetD]; exact hlt'), hgetD]

theorem directRound_ok (hin : ¬InHeader link) (hbody : link.payload = none) :
    ∃ r, directRound link data p len alloc = .ok r ∧ RoundOk link data p len alloc r := by
  have hgetD : link.payload.getD [] = [] := by simp [hbody]
  unfold directRound
  by_cases hle : link.payloadLen ≤ len
  . obtain ⟨bytes, hbytes, hdrop, hblen⟩ := @bytesAt_drop data p link.payloadLen (by omega)
    simp only [if_pos hle, hbytes]
    refine ⟨⟨(pktDone link bytes).1, (pktDone link bytes).2, link.payloadLen, false⟩, rfl, ?_⟩
    have hinv' : (pktDone link bytes).1.Inv := pktDone_inv hinv
    refine ⟨hinv', by simp, hle, ?_, ?_⟩
    . intro _
      simp only [if_pos inHeader_pktDone, if_neg hin]
      omega
    . intro _
      by_cases hzero : link.payloadLen = 0
      . -- Nothing is taken: the next byte starts a header and hands on the empty payload first.
        have hnil : bytes = [] := length_eq_zero_iff.mp (by omega)
        have hlt : p < data.length := by omega
        simp only [hzero, Nat.add_zero, hnil]
        rw [drop_eq_getElem_cons hlt]
        simp [Iap.feed, byteStep, if_neg hin, hzero, if_pos inHeader_pktDone]
      . have hbne : bytes ≠ [] := by
          rintro rfl
          exact hzero hblen.symm
        apply feed_taken
        simp only
        rw [← hdrop, feed_full hin hbne (by rw [hgetD]; exact hblen), hgetD, nil_append]
  . obtain ⟨bytes, hbytes, hdrop, hblen⟩ := @bytesAt_drop data p len (by omega)
    simp only [if_neg hle]
    cases alloc with
    | false =>
      refine ⟨⟨{ link with header := [] }, [], 0, true⟩, rfl, ?_⟩
      exact ⟨⟨.inl (by simp), by simp, by simp, by simp [hbody], hinv.payloadLen⟩, by simp,
        by simp, by simp, by simp⟩
    | true =>
      have hbne : bytes ≠ [] := by
        rintro rfl
        exact hpos hblen.symm
      have hlt : bytes.length < link.payloadLen := by omega
      refine ⟨⟨{ link with payload := some bytes }, [], len, false⟩,
        by simp only [if_true, hbytes]; rfl, ?_⟩
      refine ⟨payload_inv hinv hin hbne hlt, by simp, by simp, ?_, ?_⟩
      . intro _
        have hin' : ¬InHeader { link with payload := some bytes } := hin
        simp only [if_neg hin, if_neg hin']
        omega
      . intro _
        apply feed_taken
        simp only
        rw [← hdrop, feed_short hin hbne (by rw [hgetD]; exact hlt), hgetD, nil_append]

theorem round_ok : ∃ r, round link data p len alloc = .ok r ∧ RoundOk link data p len alloc r := by
  unfold round
  by_cases hin : InHeader link
  . rw [if_pos hin]
    exact headerRound_ok hinv hlen hpos hin
  . rw [if_neg hin]
    cases hbody : link.payload with
    | some body => exact bufferRound_ok hinv hlen hpos hbody
    | none => exact directRound_ok hinv hlen hpos hin hbody

end

theorem rcvLoop_ok (fuel : Nat) : ∀ link p len, Link.Inv link → p + len = data.length →
    2 * len + (if InHeader link then 0 else 1) < fuel →
    ∃ out, rcvLoop data alloc fuel link p len = .ok out ∧ out.1.Inv ∧
      (alloc = true → out = feed link (data.drop p)) := by
  induction fuel with
  | zero =>
    intro _ _ _ _ _ h
    omega
  | succ fuel ih =>
    intro link p len hinv hlen hfuel
    rw [rcvLoop]
    by_cases hpos : len = 0
    . have hnil : data.drop p = [] := drop_eq_nil_of_le (by omega)
      exact ⟨_, if_pos hpos, hinv, fun _ => by rw [hnil]; rfl⟩
    obtain ⟨r, hr, hok⟩ := @round_ok link data p len alloc hinv hlen hpos
    simp only [if_neg hpos, hr]
    cases hstop : r.stop with
    | true =>
      refine ⟨(r.link, r.events), by simp [hstop, bind, Except.bind, pure, Except.pure], hok.inv,
        ?_⟩
      intro h
      rw [hok.stop hstop] at h
      cases h
    | false =>
      have hless := hok.less hstop
      have htaken := hok.taken
      obtain ⟨out, hout, hinv', hfeed⟩ :=
        ih r.link (p + r.taken) (len - r.taken) hok.inv (by omega) (by omega)
      refine ⟨(out.1, r.events ++ out.2), ?_, hinv', ?_⟩
      . simp [hstop, hout, bind, Except.bind, pure, Except.pure]
      . intro h
        rw [hok.feed hstop, ← hfeed h]

end

end Iap
