import Earphone.Iap.Framing

namespace Iap

open Scan

inductive Packet where
  | iap (sync : Bool) (payload : List UInt8)
  | iapLong (sync : Bool) (payload : List UInt8)
  | iap2 (control seq ack session checksum : UInt8) (payload : List UInt8)

def Packet.payload : Packet → List UInt8
  | iap _ payload => payload
  | iapLong _ payload => payload
  | iap2 _ _ _ _ _ payload => payload

def hi (n : Nat) : UInt8 := UInt8.ofNat (n / 256)

def lo (n : Nat) : UInt8 := UInt8.ofNat n

def syncByte (sync : Bool) : List UInt8 := if sync then [iap2StartByte1] else []

def Packet.header : Packet → List UInt8
  | iap sync payload => syncByte sync ++ [iapStartByte, lo (payload.length - 1)]
  | iapLong sync payload =>
    syncByte sync ++
      [iapStartByte, iapLengthMarker, hi (payload.length - 1), lo (payload.length - 1)]
  | iap2 control seq ack session checksum payload =>
    [iap2StartByte1, iap2StartByte2, hi (payload.length + 9), lo (payload.length + 9),
      control, seq, ack, session, checksum]

def Packet.bytes (pkt : Packet) : List UInt8 := pkt.header ++ pkt.payload

def Packet.Valid : Packet → Prop
  | iap _ payload => 2 ≤ payload.length ∧ payload.length ≤ 256
  | iapLong _ payload => 1 ≤ payload.length ∧ payload.length < 65536
  | iap2 _ _ _ _ _ payload => payload.length + 9 < 65536

instance (pkt : Packet) : Decidable pkt.Valid := by
  cases pkt <;> unfold Packet.Valid <;> infer_instance

def Packet.event (pkt : Packet) : Event := handlePkt pkt.header pkt.payload

def stream (pkts : List Packet) : List UInt8 := (pkts.map Packet.bytes).flatten

def Idle (link : Link) : Prop := link.header = [] ∧ link.payload = none

section

variable {link : Link} {pkt : Packet}

def headerRead (link : Link) (pkt : Packet) : Link :=
  { link with
    header := pkt.header, headerLen := pkt.header.length, payloadLen := pkt.payload.length,
    payload := none }

theorem toNat_hi_lo {n : Nat} (h : n < 65536) : (hi n).toNat * 256 + (lo n).toNat = n := by
  simp only [hi, lo, UInt8.toNat_ofNat']
  omega

theorem feed_header_iap (hidle : Idle link)
    (hvalid : (Packet.iap sync payload).Valid) :
    feed link (Packet.iap sync payload).header = (headerRead link (.iap sync payload), []) := by
  obtain ⟨header, headerLen, payloadLen, body⟩ := link
  obtain ⟨rfl, rfl⟩ : header = [] ∧ body = none := hidle
  obtain ⟨h2, h256⟩ := hvalid
  have hn : (lo (payload.length - 1)).toNat = payload.length - 1 := by
    simp only [lo, UInt8.toNat_ofNat']
    omega
  have hne : lo (payload.length - 1) ≠ iapLengthMarker := by
    intro h
    rw [h] at hn
    simp [iapLengthMarker] at hn
    omega
  cases sync with
  | false =>
    simp [feed, byteStep, InHeader, headerByte, startHeader, headerCheck, headerDone, isIap2, isIap,
      isSyncIap, Packet.header, syncByte, iapStartByte, iap2StartByte1, iap2StartByte2, hne,
      headerRead, iapPayloadLen, Packet.payload, hn]
    omega
  | true =>
    simp [feed, byteStep, InHeader, headerByte, startHeader, headerCheck, headerDone, isIap2, isIap,
      isSyncIap, Packet.header, syncByte, iapStartByte, iap2StartByte1, iap2StartByte2, hne,
      headerRead, iapPayloadLen, Packet.payload, hn]
    omega

theorem feed_header_iapLong (hidle : Idle link)
    (hvalid : (Packet.iapLong sync payload).Valid) :
    feed link (Packet.iapLong sync payload).header =
      (headerRead link (.iapLong sync payload), []) := by
  obtain ⟨header, headerLen, payloadLen, body⟩ := link
  obtain ⟨rfl, rfl⟩ : header = [] ∧ body = none := hidle
  obtain ⟨hpos, hlt⟩ := hvalid
  have hn := @toNat_hi_lo (payload.length - 1) (by omega)
  cases sync with
  | false =>
    simp [feed, byteStep, InHeader, headerByte, startHeader, headerCheck, headerDone, isIap2, isIap,
      isSyncIap, Packet.header, syncByte, iapStartByte, iap2StartByte1, iap2StartByte2,
      headerRead, iapPayloadLen, Packet.payload, iapLengthMarker, be16, hn]
    omega
  | true =>
    simp [feed, byteStep, InHeader, headerByte, startHeader, headerCheck, headerDone, isIap2, isIap,
      isSyncIap, Packet.header, syncByte, iapStartByte, iap2StartByte1, iap2StartByte2,
      headerRead, iapPayloadLen, Packet.payload, iapLengthMarker, be16, hn]
    omega

theorem feed_header_iap2 {control seq ack session checksum : UInt8} {payload : List UInt8}
    (hidle : Idle link) (hvalid : (Packet.iap2 control seq ack session checksum payload).Valid) :
    feed link (Packet.iap2 control seq ack session checksum payload).header =
      if payload = [] then
        ({ headerRead link (.iap2 control seq ack session checksum payload) with header := [] },
          [Packet.event (.iap2 control seq ack session checksum payload)])
      else (headerRead link (.iap2 control seq ack session checksum payload), []) := by
  obtain ⟨header, headerLen, payloadLen, body⟩ := link
  obtain ⟨rfl, rfl⟩ : header = [] ∧ body = none := hidle
  have hn := @toNat_hi_lo (payload.length + 9) hvalid
  have hsub : sub16 (payload.length + 9) 9 = payload.length := by
    rw [sub16_le (by omega) hvalid]
    omega
  by_cases hnil : payload = []
  . subst hnil
    simp only [List.length_nil, Nat.zero_add] at hn hsub
    simp [feed, byteStep, InHeader, headerByte, startHeader, headerCheck, headerDone, isIap2, isIap,
      isSyncIap, Packet.header, iapStartByte, iap2StartByte1, iap2StartByte2,
      headerRead, Packet.payload, Packet.event, be16, hn, hsub]
  . simp [feed, byteStep, InHeader, headerByte, startHeader, headerCheck, headerDone, isIap2, isIap,
      isSyncIap, Packet.header, iapStartByte, iap2StartByte1, iap2StartByte2,
      headerRead, Packet.payload, be16, hn, hsub, hnil]

theorem feed_header (hidle : Idle link) (hvalid : pkt.Valid) (hne : pkt.payload ≠ []) :
    feed link pkt.header = (headerRead link pkt, []) := by
  cases pkt with
  | iap sync payload => exact feed_header_iap hidle hvalid
  | iapLong sync payload => exact feed_header_iapLong hidle hvalid
  | iap2 control seq ack session checksum payload =>
    rw [feed_header_iap2 hidle hvalid]
    exact if_neg hne

theorem not_inHeader_headerRead : ¬InHeader (headerRead link pkt) := by
  rintro (h | h)
  . cases pkt with
    | iap sync payload => cases sync <;> simp [headerRead, Packet.header, syncByte] at h
    | iapLong sync payload => cases sync <;> simp [headerRead, Packet.header, syncByte] at h
    | iap2 => simp [headerRead, Packet.header] at h
  . exact Nat.lt_irrefl _ h

theorem feed_packet (hidle : Idle link) (hvalid : pkt.Valid) :
    Idle (feed link pkt.bytes).1 ∧ (feed link pkt.bytes).2 = [pkt.event] := by
  unfold Packet.bytes
  rw [feed_append]
  by_cases hne : pkt.payload = []
  . cases pkt with
    | iap sync payload => simp [Packet.Valid, Packet.payload] at hvalid hne; simp [hne] at hvalid
    | iapLong sync payload => simp [Packet.Valid, Packet.payload] at hvalid hne; simp [hne] at hvalid
    | iap2 control seq ack session checksum payload =>
      have hnil : payload = [] := hne
      subst hnil
      rw [feed_header_iap2 hidle hvalid, if_pos rfl]
      simp [feed, Idle, headerRead, Packet.payload]
  . rw [feed_header hidle hvalid hne]
    have hfull : ((headerRead link pkt).payload.getD [] ++ pkt.payload).length =
        (headerRead link pkt).payloadLen := by simp [headerRead]
    rw [feed_full not_inHeader_headerRead hne hfull]
    simp [pktDone, Idle, Packet.event, headerRead]

theorem feed_stream (pkts : List Packet) (hvalid : ∀ pkt ∈ pkts, pkt.Valid) (hidle : Idle link) :
    Idle (feed link (stream pkts)).1 ∧ (feed link (stream pkts)).2 = pkts.map Packet.event := by
  induction pkts generalizing link with
  | nil => exact ⟨hidle, rfl⟩
  | cons pkt pkts ih =>
    obtain ⟨h1, h2⟩ := feed_packet hidle (hvalid pkt (by simp))
    obtain ⟨h3, h4⟩ := ih (fun q hq => hvalid q (by simp [hq])) h1
    have hs : stream (pkt :: pkts) = pkt.bytes ++ stream pkts := by simp [stream]
    rw [hs, feed_append]
    exact ⟨h3, by simp [h2, h4]⟩

end

section

variable {link : Link} {pkts : List Packet}

def AtSeam (pkts : List Packet) (pre : List UInt8) : Prop :=
  ∃ before after, pkts = before ++ after ∧
    (pre = stream before ∨ ∃ pkt ∈ after.head?, pre = stream before ++ pkt.header)

def StartsIap2 (data : List UInt8) : Prop := isIap2 data

def Quiet (pkts : List Packet) (frags : List (List UInt8)) : Prop :=
  ∀ before frag after, frags = before ++ frag :: after → StartsIap2 frag →
    AtSeam pkts before.flatten

def Readable (data : List UInt8) : Prop := data ≠ [] ∧ data ≠ [iap2StartByte1]
  deriving Decidable

theorem newHeader_ok (h : Readable data) : newHeader data = .ok (isIap2 data) := by
  match data, h with
  | [b], h =>
    have hb : b ≠ iap2StartByte1 := by
      rintro rfl
      exact h.2 rfl
    have hb' : b.toNat ≠ iap2StartByte1.toNat := by
      intro he
      exact hb (UInt8.toNat_inj.mp he)
    simp [newHeader, byteAt, bind, Except.bind, hb', isIap2, hb, pure, Except.pure]
  | b :: c :: rest, _ =>
    by_cases hb : b = iap2StartByte1
    . simp [newHeader, byteAt, bind, Except.bind, isIap2, hb, pure, Except.pure, UInt8.toNat_inj]
    . have hb' : b.toNat ≠ iap2StartByte1.toNat := by
        intro he
        exact hb (UInt8.toNat_inj.mp he)
      simp [newHeader, byteAt, bind, Except.bind, hb', isIap2, hb, pure, Except.pure]

theorem resync_inv (hinv : link.Inv) : (resync link).Inv := by
  unfold resync
  split_ifs with hlt hp
  . have hp : link.payload = none := InHeader.payload_none hinv (.inr hlt)
    exact ⟨.inl (by simp), by simp, by simp, by simp [hp], hinv.payloadLen⟩
  . exact ⟨.inl (by simp), by simp, by simp, by simp, hinv.payloadLen⟩
  . exact hinv

theorem rcvData_ok {data : List UInt8} {alloc : Bool} {fuel : Nat} (hinv : link.Inv)
    (hread : Readable data) (hfuel : 2 * data.length + 1 < fuel) :
    ∃ out, btIapHandleRcvData data alloc fuel link = .ok out ∧ out.1.Inv ∧
      (alloc = true → out = feed (if isIap2 data then resync link else link) data) := by
  have hinv' : (if isIap2 data then resync link else link).Inv := by
    split_ifs
    . exact resync_inv hinv
    . exact hinv
  obtain ⟨out, hout, hoinv, hfeed⟩ := @rcvLoop_ok data alloc fuel
    (if isIap2 data then resync link else link) 0 data.length hinv' (by simp)
    (by split_ifs <;> omega)
  refine ⟨out, ?_, hoinv, by simpa using hfeed⟩
  rw [btIapHandleRcvData, newHeader_ok hread]
  exact hout

theorem resync_idle (hidle : Idle link) : resync link = link := by
  obtain ⟨header, headerLen, payloadLen, body⟩ := link
  obtain ⟨rfl, rfl⟩ : header = [] ∧ body = none := hidle
  simp [resync]

theorem resync_atSeam (hvalid : ∀ pkt ∈ pkts, pkt.Valid)
    (hseam : AtSeam pkts pre) :
    resync (feed newLink pre).1 = (feed newLink pre).1 := by
  have hnew : Idle newLink := ⟨rfl, rfl⟩
  obtain ⟨before, after, rfl, rfl | ⟨pkt, hpkt, rfl⟩⟩ := hseam
  . have hidle := (feed_stream before (fun q hq => hvalid q (by simp [hq])) hnew).1
    exact resync_idle hidle
  . have hidle := (feed_stream before (fun q hq => hvalid q (by simp [hq])) hnew).1
    have hmem : pkt ∈ after := List.mem_of_mem_head? hpkt
    have hv := hvalid pkt (by simp [hmem])
    rw [feed_append]
    by_cases hne : pkt.payload = []
    . have hp := (feed_packet hidle hv).1
      rw [Packet.bytes, hne, List.append_nil] at hp
      exact resync_idle hp
    . rw [feed_header hidle hv hne]
      simp [resync, headerRead]

theorem handleAll_ok (frags : List (List UInt8 × Bool))
    (hread : ∀ f ∈ frags, Readable f.1) (hfuel : ∀ f ∈ frags, 2 * f.1.length + 1 < fuel)
    (hinv : link.Inv) :
    ∃ out, btIapHandleAll fuel link frags = .ok out ∧ out.1.Inv := by
  induction frags generalizing link with
  | nil => exact ⟨_, rfl, hinv⟩
  | cons f frags ih =>
    obtain ⟨out, hout, hinv', _⟩ :=
      @rcvData_ok link f.1 f.2 fuel hinv (hread f (by simp)) (hfuel f (by simp))
    obtain ⟨rest, hrest, hinv''⟩ :=
      ih (fun g hg => hread g (by simp [hg])) (fun g hg => hfuel g (by simp [hg])) hinv'
    refine ⟨(rest.1, out.2 ++ rest.2), ?_, hinv''⟩
    simp [btIapHandleAll, hout, hrest, bind, Except.bind, pure, Except.pure]

theorem handleAll_feed (frags : List (List UInt8))
    (hread : ∀ f ∈ frags, Readable f) (hfuel : ∀ f ∈ frags, 2 * f.length + 1 < fuel)
    (hinv : link.Inv)
    (hquiet : ∀ before f after, frags = before ++ f :: after → StartsIap2 f →
      resync (feed link before.flatten).1 = (feed link before.flatten).1) :
    btIapHandleAll fuel link (frags.map (·, true)) = .ok (feed link frags.flatten) := by
  induction frags generalizing link with
  | nil => rfl
  | cons f frags ih =>
    obtain ⟨out, hout, hinv', hfeed⟩ :=
      @rcvData_ok link f true fuel hinv (hread f (by simp)) (hfuel f (by simp))
    have hsame : (if isIap2 f then resync link else link) = link := by
      split_ifs with hs
      . exact hquiet [] f frags rfl hs
      . rfl
    rw [hsame] at hfeed
    obtain rfl := hfeed rfl
    have hrest := ih (fun g hg => hread g (by simp [hg])) (fun g hg => hfuel g (by simp [hg])) hinv' (by
      intro before g after hcut hs
      have h := hquiet (f :: before) g after (by rw [hcut]; rfl) hs
      rw [List.flatten_cons, feed_append] at h
      exact h)
    simp [btIapHandleAll, hout, hrest, bind, Except.bind, pure, Except.pure, feed_append]

theorem fuel_enough (lens : List Nat) : ∃ fuel, ∀ n ∈ lens, 2 * n + 1 < fuel := by
  induction lens with
  | nil => exact ⟨0, by simp⟩
  | cons n lens ih =>
    obtain ⟨fuel, h⟩ := ih
    refine ⟨max fuel (2 * n + 2), ?_⟩
    intro m hm
    rcases List.mem_cons.mp hm with rfl | hm
    . omega
    . have := h m hm
      omega

theorem framing :
    (∀ (pkts : List Packet) (frags : List (List UInt8)), (∀ pkt ∈ pkts, pkt.Valid) →
      frags.flatten = stream pkts → (∀ f ∈ frags, Readable f) → Quiet pkts frags →
      ∃ fuel link, btIapHandleAll fuel newLink (frags.map (·, true)) =
        .ok (link, pkts.map Packet.event) ∧ Idle link) ∧
    (∀ (link : Link) (data : List UInt8) (alloc : Bool) (fuel : Nat), link.Inv → Readable data →
      StartsIap2 data → btIapHandleRcvData data alloc fuel link =
        rcvLoop data alloc fuel (resync link) 0 data.length) ∧
    ∀ frags : List (List UInt8 × Bool), (∀ f ∈ frags, Readable f.1) →
      ∃ fuel out, btIapHandleAll fuel newLink frags = .ok out ∧ out.1.Inv := by
  refine ⟨?_, ?_, ?_⟩
  . intro pkts frags hvalid hcut hread hquiet
    obtain ⟨fuel, hfuel⟩ := fuel_enough (frags.map List.length)
    have hrun := handleAll_feed frags hread
      (fun f hf => hfuel _ (List.mem_map_of_mem hf)) inv_newLink
      (fun before f after h hs => resync_atSeam hvalid (hquiet before f after h hs))
    obtain ⟨hidle, hevents⟩ := feed_stream pkts hvalid (⟨rfl, rfl⟩ : Idle newLink)
    rw [hcut] at hrun
    exact ⟨fuel, (feed newLink (stream pkts)).1, by rw [hrun, ← hevents], hidle⟩
  . intro link data alloc fuel _ hread hs
    rw [btIapHandleRcvData, newHeader_ok hread, show isIap2 data = true from hs]
    rfl
  . intro frags hread
    obtain ⟨fuel, hfuel⟩ := fuel_enough (frags.map fun f => f.1.length)
    obtain ⟨out, hout, hinv⟩ := handleAll_ok frags hread
      (fun f hf => hfuel _ (List.mem_map_of_mem hf)) inv_newLink
    exact ⟨fuel, out, hout, hinv⟩

theorem framing_detect : ∃ fuel link,
    btIapHandleAll fuel newLink ([[0xFF, 0x55, 0x02, 0x00], [0xEE, 0x10]].map (·, true)) =
      .ok (link, [.iapPkt [0xFF, 0x55, 0x02] [0x00, 0xEE, 0x10]]) ∧ Idle link := by
  refine framing.1 [.iap true [0x00, 0xEE, 0x10]] [[0xFF, 0x55, 0x02, 0x00], [0xEE, 0x10]]
    (by decide) (by decide) (by decide) ?_
  intro before f after h hs
  have hmem : f ∈ [[0xFF, 0x55, 0x02, 0x00], [0xEE, 0x10]] := by
    rw [h]
    simp
  have hnone : ∀ g ∈ [[0xFF, 0x55, 0x02, 0x00], [0xEE, 0x10]], ¬isIap2 g := by decide
  exact absurd hs (hnone f hmem)

theorem mono_rcvLoop : Mono (fun n => rcvLoop data alloc n link p len) := by
  intro fuel
  induction fuel generalizing link p len with
  | zero =>
    intro r h
    cases h
  | succ fuel ih =>
    intro r h
    simp only at h ⊢
    rw [rcvLoop] at h ⊢
    split at h
    . next hlen =>
      rw [if_pos hlen]
      exact h
    . next hlen =>
      rw [if_neg hlen]
      obtain ⟨rd, hrd, h⟩ := bind_ok.mp h
      refine bind_ok.mpr ⟨rd, hrd, ?_⟩
      split at h
      . next hstop =>
        rw [if_pos hstop]
        exact h
      . next hstop =>
        rw [if_neg hstop]
        obtain ⟨out, hout, h⟩ := bind_ok.mp h
        exact bind_ok.mpr ⟨out, ih _ hout, h⟩

theorem mono_handleAll : Mono (fun n => btIapHandleAll n link frags) := by
  induction frags generalizing link with
  | nil => exact mono_const _
  | cons f frags ih =>
    have hdata : Mono (fun n => btIapHandleRcvData f.1 f.2 n link) :=
      (mono_const _).bind fun _ => mono_rcvLoop
    apply hdata.bind
    intro out
    apply ih.bind
    intro rest
    apply mono_const

theorem framing_lost :
    ¬∀ (pkts : List Packet) (frags : List (List UInt8)), (∀ pkt ∈ pkts, pkt.Valid) →
      frags.flatten = stream pkts → (∀ f ∈ frags, f ≠ []) →
      ∃ fuel link, btIapHandleAll fuel newLink (frags.map (·, true)) =
        .ok (link, pkts.map Packet.event) := by
  intro h
  obtain ⟨fuel, link, hrun⟩ := h [.iap2 0x40 1 2 2 0 [0x01, 0xFF, 0x5A, 0x02]]
    [[0xFF, 0x5A, 0x00, 0x0D, 0x40, 1, 2, 2, 0, 0x01], [0xFF, 0x5A, 0x02]]
    (by decide) (by decide) (by decide)
  have hlost : btIapHandleAll 30 newLink
      ([[0xFF, 0x5A, 0x00, 0x0D, 0x40, 1, 2, 2, 0, 0x01], [0xFF, 0x5A, 0x02]].map (·, true)) =
        .ok (⟨[0xFF, 0x5A, 0x02], 9, 4, none⟩, []) := rfl
  have h1 := mono_handleAll.le (Nat.le_max_left fuel 30) hrun
  have h2 := mono_handleAll.le (Nat.le_max_right fuel 30) hlost
  cases h1.symm.trans h2

end

end Iap
