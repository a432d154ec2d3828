import Earphone.Obex.Basic

namespace ObexStream

open Scan
open Obex (Role)

structure Link where
  role : Role
  rxData : Option (List UInt8)
  rxLen : Nat
  totalLen : Nat

inductive Handed where
  | req (pkt : List UInt8)
  | rsp (pkt : List UInt8)

def handPkt (role : Role) (pkt : List UInt8) : Handed :=
  match role with
  | .server => .req pkt
  | .client => .rsp pkt

structure DataInd where
  buf : List UInt8
  granted : Bool

def Link.clear (link : Link) : Link := { link with rxData := none, rxLen := 0, totalLen := 0 }

def dataIndRest (link : Link) (rxData pkt : List UInt8) : Link × List Handed :=
  if pkt.length ≤ link.totalLen - link.rxLen then
    if link.rxLen + pkt.length = link.totalLen then
      (link.clear, [handPkt link.role (rxData ++ pkt)])
    else
      ({ link with rxData := some (rxData ++ pkt), rxLen := link.rxLen + pkt.length }, [])
  else (link.clear, [])

def dataIndFirst (link : Link) (pkt : List UInt8) (granted : Bool) (totalLen : Nat) :
    Link × List Handed :=
  if totalLen > pkt.length then
    if granted then
      ({ link with rxData := some pkt, rxLen := pkt.length, totalLen := totalLen }, [])
    else ({ link with totalLen := 0 }, [])
  else ({ link with totalLen := totalLen }, [handPkt link.role (pkt.take totalLen)])

def obexHandleDataInd (link : Link) (pkt : List UInt8) (granted : Bool) :
    Except Stuck (Link × List Handed) :=
  match link.rxData with
  | some rxData => .ok (dataIndRest link rxData pkt)
  | none => do
    let totalLen ← be16At pkt 1
    return dataIndFirst link pkt granted totalLen

def obexRfcDataInd (link : Link) (ind : DataInd) : Except Stuck (Link × List Handed) :=
  if ind.buf.length ≠ 0 then obexHandleDataInd link ind.buf ind.granted else .ok (link, [])

def receive (link : Link) : List DataInd → Except Stuck (Link × List Handed)
  | [] => .ok (link, [])
  | ind :: inds => do
    let (link, handed) ← obexRfcDataInd link ind
    let (link, later) ← receive link inds
    return (link, handed ++ later)

def idle (role : Role) : Link := { role := role, rxData := none, rxLen := 0, totalLen := 0 }

structure WellFormed (pkt : List UInt8) : Prop where
  header : 3 ≤ pkt.length
  length_eq : be16At pkt 1 = .ok pkt.length

def payloads (inds : List DataInd) : List UInt8 := (inds.map DataInd.buf).flatten

def Delivered (role : Role) (pkts : List (List UInt8)) (inds : List DataInd) : Prop :=
  ∃ link, receive (idle role) inds = .ok (link, pkts.map (handPkt role))

def CleanBetween (role : Role) (pkts : List (List UInt8)) (inds : List DataInd) : Prop :=
  ∀ before after k, inds = before ++ after → payloads before = (pkts.take k).flatten →
    ∃ handed, receive (idle role) before = .ok (idle role, handed)

def CutAlong (whole : Bool) (had : Nat) (pkts : List (List UInt8)) : List DataInd → Prop
  | [] => True
  | ind :: inds =>
    if ind.buf.length = 0 then CutAlong whole had pkts inds
    else
      match pkts with
      | [] => False
      | pkt :: pkts =>
        had + ind.buf.length ≤ pkt.length ∧
        (had = 0 → 3 ≤ ind.buf.length ∧ (ind.buf.length < pkt.length → ind.granted) ∧
          (ind.buf.length = pkt.length → whole)) ∧
        if had + ind.buf.length = pkt.length then CutAlong whole 0 pkts inds
        else CutAlong whole (had + ind.buf.length) (pkt :: pkts) inds

instance CutAlong.instDecidable (whole : Bool) :
    ∀ (had : Nat) (pkts : List (List UInt8)) (inds : List DataInd),
      Decidable (CutAlong whole had pkts inds)
  | _, _, [] => .isTrue trivial
  | had, [], _ :: inds =>
    have := CutAlong.instDecidable whole had [] inds
    inferInstanceAs (Decidable (ite ..))
  | had, pkt :: pkts, ind :: inds =>
    have := CutAlong.instDecidable whole had (pkt :: pkts) inds
    have := CutAlong.instDecidable whole 0 pkts inds
    have := CutAlong.instDecidable whole (had + ind.buf.length) (pkt :: pkts) inds
    inferInstanceAs (Decidable (ite ..))

def At (whole : Bool) (role : Role) (got : List UInt8) (total : Nat) (link : Link) : Prop :=
  link.role = role ∧
    if got = [] then link.rxData = none ∧ link.rxLen = 0 ∧ (whole = false → link.totalLen = 0)
    else link.rxData = some got ∧ link.rxLen = got.length ∧ link.totalLen = total ∧
      got.length < total

theorem at_idle : At whole role [] total (idle role) := by
  simp [At, idle]

theorem At.idle_eq (h : At false role [] total link) : link = idle role := by
  obtain ⟨hrole, hdata, hlen, htotal⟩ := h
  cases link
  simp_all [idle]

def heldLen (link : Link) : Nat := (link.rxData.getD []).length

def Handed.pkt : Handed → List UInt8
  | .req pkt => pkt
  | .rsp pkt => pkt

def handedLen (handed : List Handed) : Nat := (handed.map fun h => h.pkt.length).sum

@[simp]
theorem pkt_handPkt : (handPkt role pkt).pkt = pkt := by
  cases role <;> rfl

@[simp]
theorem handedLen_nil : handedLen [] = 0 := rfl

@[simp]
theorem handedLen_cons : handedLen (h :: hs) = h.pkt.length + handedLen hs := by
  simp [handedLen]

@[simp]
theorem handedLen_append : handedLen (hs ++ later) = handedLen hs + handedLen later := by
  simp [handedLen]

theorem handedLen_map {role : Role} {pkts : List (List UInt8)} :
    handedLen (pkts.map (handPkt role)) = pkts.flatten.length := by
  induction pkts with
  | nil => rfl
  | cons p ps ih => simp [ih]

theorem dataIndRest_le (pkt : List UInt8)
    (hdata : link.rxData = some rxData) :
    handedLen (dataIndRest link rxData pkt).2 + heldLen (dataIndRest link rxData pkt).1 ≤
      heldLen link + pkt.length := by
  unfold dataIndRest
  split_ifs <;> simp [heldLen, Link.clear, hdata]

theorem dataIndFirst_le (pkt : List UInt8) (granted : Bool) (totalLen : Nat)
    (hdata : link.rxData = none) :
    handedLen (dataIndFirst link pkt granted totalLen).2 +
      heldLen (dataIndFirst link pkt granted totalLen).1 ≤ heldLen link + pkt.length := by
  unfold dataIndFirst
  split_ifs
  . simp [heldLen]
  . simp [heldLen, hdata]
  . have := Nat.min_le_right totalLen pkt.length
    simpa [heldLen, hdata]

theorem rfcDataInd_le (h : obexRfcDataInd link ind = .ok (link', handed)) :
    handedLen handed + heldLen link' ≤ heldLen link + ind.buf.length := by
  unfold obexRfcDataInd at h
  split at h
  . unfold obexHandleDataInd at h
    split at h
    case h_1 rxData hdata =>
      have hle := dataIndRest_le ind.buf hdata
      injection h with h
      rwa [h] at hle
    case h_2 hdata =>
      obtain ⟨totalLen, _, h⟩ := bind_ok.mp h
      have hle := dataIndFirst_le ind.buf ind.granted totalLen hdata
      injection h with h
      rwa [h] at hle
  . cases h
    simp

theorem receive_cons :
    receive link (ind :: inds) = .ok (link', handed) ↔
      ∃ link1 first later, obexRfcDataInd link ind = .ok (link1, first) ∧
        receive link1 inds = .ok (link', later) ∧ handed = first ++ later := by
  rw [receive, bind_ok]
  constructor
  . rintro ⟨⟨link1, first⟩, hfirst, h⟩
    obtain ⟨⟨link2, later⟩, hlater, h⟩ := bind_ok.mp h
    cases h
    exact ⟨link1, first, later, hfirst, hlater, rfl⟩
  . rintro ⟨link1, first, later, hfirst, hlater, rfl⟩
    exact ⟨_, hfirst, bind_ok.mpr ⟨_, hlater, rfl⟩⟩

theorem receive_le (h : receive link inds = .ok (link', handed)) :
    handedLen handed + heldLen link' ≤ heldLen link + (payloads inds).length := by
  induction inds generalizing link handed with
  | nil =>
    cases h
    simp [payloads]
  | cons ind inds ih =>
    obtain ⟨link1, first, later, hfirst, hlater, rfl⟩ := receive_cons.mp h
    have h1 := rfcDataInd_le hfirst
    have h2 := ih hlater
    simp only [payloads, List.map_cons, List.flatten_cons, List.length_append,
      handedLen_append] at h2 ⊢
    omega

section

variable {whole : Bool} {role : Role} {got pkt later rest : List UInt8} {link link' : Link}
  {ind : DataInd}

theorem be16At_append (h : i + 1 < a.length) : be16At (a ++ b) i = be16At a i := by
  simp [be16At, byteAt, List.getElem?_append_left, h, (by omega : i < a.length)]

theorem At.heldLen_eq (h : At whole role got total link) : heldLen link = got.length := by
  unfold At at h
  split at h
  case isTrue hgot =>
    simp [heldLen, h.2.1, hgot]
  case isFalse =>
    simp [heldLen, h.2.1]

theorem WellFormed.be16At_eq (hwf : WellFormed pkt) (hstream : ind.buf ++ later = pkt ++ rest)
    (hheader : 3 ≤ ind.buf.length) : be16At ind.buf 1 = .ok pkt.length := by
  have h1 : be16At (ind.buf ++ later) 1 = be16At ind.buf 1 := be16At_append (by omega)
  have hlen := hwf.header
  have h2 : be16At (pkt ++ rest) 1 = be16At pkt 1 := be16At_append (by omega)
  rw [← h1, hstream, h2, hwf.length_eq]

theorem rfcDataInd_first (hat : At whole role [] pkt.length link) (hwf : WellFormed pkt)
    (hstream : ind.buf ++ later = pkt ++ rest) (hheader : 3 ≤ ind.buf.length) :
    obexRfcDataInd link ind = .ok (dataIndFirst link ind.buf ind.granted pkt.length) := by
  have hne : ind.buf.length ≠ 0 := by omega
  rw [obexRfcDataInd, if_pos hne, obexHandleDataInd, hat.2.1]
  simp only [hwf.be16At_eq hstream hheader]
  rfl

theorem rfcDataInd_rest (hgot : got ≠ []) (hat : At whole role got pkt.length link)
    (hne : ind.buf.length ≠ 0) :
    obexRfcDataInd link ind = .ok (dataIndRest link got ind.buf) := by
  unfold At at hat
  rw [if_neg hgot] at hat
  rw [obexRfcDataInd, if_pos hne, obexHandleDataInd, hat.2.1]

theorem rfcDataInd_empty (hne : ind.buf.length = 0) : obexRfcDataInd link ind = .ok (link, []) := by
  simp [obexRfcDataInd, hne]

section

variable (hat : At whole role got pkt.length link) (hwf : WellFormed pkt)

include hat hwf

theorem rfcDataInd_full (hpkt : got ++ ind.buf = pkt) (hne : ind.buf.length ≠ 0)
    (hwhole : got = [] → whole) :
    ∃ link', obexRfcDataInd link ind = .ok (link', [handPkt role pkt]) ∧
      ∀ total, At whole role [] total link' := by
  by_cases hgot : got = []
  . subst hgot
    have hbuf : ind.buf = pkt := hpkt
    rw [rfcDataInd_first hat hwf (show ind.buf ++ [] = pkt ++ [] by simp [hbuf])
      (by rw [hbuf]; exact hwf.header)]
    refine ⟨{ link with totalLen := pkt.length }, ?_, ?_⟩
    . simp [dataIndFirst, hbuf, hat.1]
    . intro total
      have h := hat.2
      simp_all [At]
  . rw [rfcDataInd_rest hgot hat hne]
    obtain ⟨hrole, hat⟩ := hat
    rw [if_neg hgot] at hat
    obtain ⟨hdata, hlen, htotal, hlt⟩ := hat
    have hpktLen : got.length + ind.buf.length = pkt.length := by simp [← hpkt]
    refine ⟨link.clear, ?_, ?_⟩
    . rw [dataIndRest, if_pos (by omega), if_pos (by omega), hrole, hpkt]
    . intro total
      simp [At, Link.clear, hrole]

theorem rfcDataInd_part (hpkt : got ++ ind.buf ++ rest = pkt)
    (hlt : got.length + ind.buf.length < pkt.length)
    (hne : ind.buf.length ≠ 0) (hfirst : got = [] → 3 ≤ ind.buf.length ∧ ind.granted) :
    ∃ link', obexRfcDataInd link ind = .ok (link', []) ∧
      At whole role (got ++ ind.buf) pkt.length link' := by
  have hbuf : ind.buf ≠ [] := by
    intro h
    simp [h] at hne
  by_cases hgot : got = []
  . subst hgot
    obtain ⟨hheader, hgranted⟩ := hfirst rfl
    rw [rfcDataInd_first hat hwf (show ind.buf ++ rest = pkt ++ [] by simpa using hpkt) hheader]
    have hlt : ind.buf.length < pkt.length := by simpa using hlt
    refine ⟨_, congrArg Except.ok (Prod.ext rfl ?_), ?_⟩
    . simp [dataIndFirst, hlt, hgranted]
    . simp [At, dataIndFirst, hlt, hgranted, hbuf, hat.1]
  . rw [rfcDataInd_rest hgot hat hne]
    obtain ⟨hrole, hat⟩ := hat
    rw [if_neg hgot] at hat
    obtain ⟨hdata, hlen, htotal, _⟩ := hat
    have hstep : dataIndRest link got ind.buf =
        ({ link with rxData := some (got ++ ind.buf), rxLen := link.rxLen + ind.buf.length },
          []) := by
      rw [dataIndRest, if_pos (by omega), if_neg (by omega)]
    refine ⟨_, congrArg Except.ok hstep, ?_⟩
    simp [At, hgot, hrole, hlen, htotal, hlt]

theorem rfcDataInd_lossless (hstream : got ++ ind.buf ++ later = pkt ++ rest)
    (hne : ind.buf.length ≠ 0)
    (h : obexRfcDataInd link ind = .ok (link', handed))
    (hkept : handedLen handed + heldLen link' = heldLen link + ind.buf.length) :
    got.length + ind.buf.length ≤ pkt.length ∧
      (got.length = 0 → 3 ≤ ind.buf.length ∧ (ind.buf.length < pkt.length → ind.granted)) := by
  have hheld := hat.heldLen_eq
  by_cases hgot : got = []
  . subst hgot
    have hheader : 3 ≤ ind.buf.length := by
      rw [obexRfcDataInd, if_pos hne, obexHandleDataInd, hat.2.1] at h
      obtain ⟨totalLen, htotal, _⟩ := bind_ok.mp h
      obtain ⟨hi, _, htotal⟩ := bind_ok.mp htotal
      obtain ⟨lo, hlo, _⟩ := bind_ok.mp htotal
      have := byteAt_ok hlo
      omega
    have hstream : ind.buf ++ later = pkt ++ rest := by simpa using hstream
    rw [rfcDataInd_first hat hwf hstream hheader] at h
    have hnone := hat.2.1
    injection h with h
    rw [dataIndFirst] at h
    split_ifs at h with hlt hgranted
    . simp [hheader, hgranted]
      omega
    . cases h
      simp [heldLen, hnone] at hkept
      omega
    . cases h
      simp [heldLen, hnone] at hkept
      simp [hheader]
      omega
  . rw [rfcDataInd_rest hgot hat hne] at h
    have hpos : got.length ≠ 0 := by simpa using hgot
    obtain ⟨hrole, hat⟩ := hat
    rw [if_neg hgot] at hat
    obtain ⟨hdata, hlen, htotal, _⟩ := hat
    injection h with h
    refine ⟨?_, fun h0 => absurd h0 hpos⟩
    by_contra hover
    rw [dataIndRest, if_neg (by omega)] at h
    cases h
    simp [heldLen, Link.clear, hdata] at hkept
    omega

end

end

section

variable {whole : Bool} {role : Role} {got later : List UInt8} {pkts : List (List UInt8)}
  {link link' : Link} {ind : DataInd} {inds : List DataInd} {handed : List Handed}

def headLen (pkts : List (List UInt8)) : Nat := (pkts.headD []).length

theorem payloads_cons : payloads (ind :: inds) = ind.buf ++ payloads inds := rfl

theorem cutAlong_skip (hne : ind.buf.length = 0) :
    CutAlong whole had pkts (ind :: inds) ↔ CutAlong whole had pkts inds := by
  simp [CutAlong, hne]

theorem cutAlong_cons (hne : ind.buf.length ≠ 0) :
    CutAlong whole had (pkt :: pkts) (ind :: inds) ↔
      had + ind.buf.length ≤ pkt.length ∧
        (had = 0 → 3 ≤ ind.buf.length ∧ (ind.buf.length < pkt.length → ind.granted) ∧
          (ind.buf.length = pkt.length → whole)) ∧
        if had + ind.buf.length = pkt.length then CutAlong whole 0 pkts inds
        else CutAlong whole (had + ind.buf.length) (pkt :: pkts) inds := by
  simp [CutAlong, hne]

theorem step_of_cut (hne : ind.buf.length ≠ 0) (hwf : WellFormed pkt)
    (hat : At whole role got pkt.length link)
    (hstream : got ++ (ind.buf ++ later) = pkt ++ pkts.flatten)
    (hle : got.length + ind.buf.length ≤ pkt.length)
    (hfirst : got.length = 0 → 3 ≤ ind.buf.length ∧ (ind.buf.length < pkt.length → ind.granted) ∧
      (ind.buf.length = pkt.length → whole)) :
    (got.length + ind.buf.length = pkt.length ∧ later = pkts.flatten ∧
      ∃ link', obexRfcDataInd link ind = .ok (link', [handPkt role pkt]) ∧
        ∀ total, At whole role [] total link') ∨
    (got.length + ind.buf.length < pkt.length ∧
      ∃ link', obexRfcDataInd link ind = .ok (link', []) ∧
        At whole role (got ++ ind.buf) pkt.length link') := by
  have hpre : got ++ ind.buf ++ later = pkt ++ pkts.flatten := by simpa using hstream
  obtain ⟨todo, rfl, htodo⟩ : ∃ todo, got ++ ind.buf ++ todo = pkt ∧
      later = todo ++ pkts.flatten := by
    obtain ⟨todo, htodo, hlater⟩ | ⟨todo, htodo, hlater⟩ := List.append_eq_append_iff.mp hpre
    . exact ⟨todo, htodo.symm, hlater⟩
    . have hnil : todo = [] := by
        have := congrArg List.length htodo
        simp only [List.length_append] at this
        exact List.length_eq_zero_iff.mp (by omega)
      subst hnil
      exact ⟨[], by simpa using htodo, by simpa using hlater.symm⟩
  by_cases hfull : todo = []
  . subst hfull
    left
    refine ⟨by simp, by simpa using htodo, ?_⟩
    apply rfcDataInd_full hat hwf (by simp) hne
    rintro rfl
    exact (hfirst rfl).2.2 (by simp)
  . right
    have hpos : 0 < todo.length := List.length_pos_iff.mpr hfull
    have hlt : got.length + ind.buf.length < (got ++ ind.buf ++ todo).length := by
      simp only [List.length_append]
      omega
    refine ⟨hlt, rfcDataInd_part hat hwf rfl hlt hne ?_⟩
    rintro rfl
    have h := hfirst rfl
    exact ⟨h.1, h.2.1 (by simpa using hlt)⟩

theorem receive_skip (hne : ind.buf.length = 0) :
    receive link (ind :: inds) = receive link inds := by
  rw [receive, rfcDataInd_empty hne]
  simp only [bind, Except.bind]
  cases receive link inds with
  | error e => rfl
  | ok r => rfl

theorem receive_of_cut (hwf : ∀ pkt ∈ pkts, WellFormed pkt)
    (hat : At whole role got (headLen pkts) link)
    (hstream : got ++ (payloads inds ++ later) = pkts.flatten)
    (hcut : CutAlong whole got.length pkts inds) :
    ∃ k got' link', receive link inds = .ok (link', (pkts.take k).map (handPkt role)) ∧
      At whole role got' (headLen (pkts.drop k)) link' ∧ got' ++ later = (pkts.drop k).flatten := by
  induction inds generalizing got pkts link with
  | nil => exact ⟨0, got, link, rfl, hat, hstream⟩
  | cons ind inds ih =>
    by_cases hne : ind.buf.length = 0
    . rw [receive_skip hne]
      rw [cutAlong_skip hne] at hcut
      have hnil : ind.buf = [] := List.length_eq_zero_iff.mp hne
      exact ih hwf hat (by simpa [payloads_cons, hnil] using hstream) hcut
    . cases pkts with
      | nil => simp [CutAlong, hne] at hcut
      | cons pkt pkts =>
        rw [cutAlong_cons hne] at hcut
        obtain ⟨hle, hfirst, hcut⟩ := hcut
        have hwfs : ∀ p ∈ pkts, WellFormed p := fun p hp => hwf p (List.mem_cons_of_mem _ hp)
        rw [payloads_cons, List.append_assoc, List.flatten_cons] at hstream
        obtain ⟨hfull, hlater, link1, hstep, hat1⟩ | ⟨hpart, link1, hstep, hat1⟩ :=
          step_of_cut hne (hwf pkt List.mem_cons_self) hat hstream hle hfirst
        . rw [if_pos hfull] at hcut
          obtain ⟨k, got', link', hrun, hat', hleft⟩ := ih hwfs (hat1 _) hlater hcut
          refine ⟨k + 1, got', link', ?_, hat', hleft⟩
          exact receive_cons.mpr ⟨link1, _, _, hstep, hrun, rfl⟩
        . rw [if_neg (by omega)] at hcut
          obtain ⟨k, got', link', hrun, hat', hleft⟩ := ih hwf hat1
            (by simpa using hstream) (by simpa using hcut)
          refine ⟨k, got', link', ?_, hat', hleft⟩
          exact receive_cons.mpr ⟨link1, _, _, hstep, hrun, rfl⟩

theorem cut_of_receive (hwf : ∀ pkt ∈ pkts, WellFormed pkt)
    (hat : At true role got (headLen pkts) link)
    (hstream : got ++ payloads inds = pkts.flatten)
    (hrun : receive link inds = .ok (link', handed))
    (hkept : handedLen handed = heldLen link + (payloads inds).length) :
    CutAlong true got.length pkts inds := by
  induction inds generalizing got pkts link handed with
  | nil => trivial
  | cons ind inds ih =>
    by_cases hne : ind.buf.length = 0
    . rw [receive_skip hne] at hrun
      rw [cutAlong_skip hne]
      have hnil : ind.buf = [] := List.length_eq_zero_iff.mp hne
      exact ih hwf hat (by simpa [payloads_cons, hnil] using hstream) hrun
        (by simpa [payloads_cons, hnil] using hkept)
    . cases pkts with
      | nil =>
        have hlen := congrArg List.length hstream
        simp only [payloads_cons, List.length_append, List.flatten_nil, List.length_nil] at hlen
        omega
      | cons pkt pkts =>
        obtain ⟨link1, first, rest, hstep, hrest, rfl⟩ := receive_cons.mp hrun
        have hle1 := rfcDataInd_le hstep
        have hle2 := receive_le hrest
        simp only [payloads_cons, List.length_append, handedLen_append] at hkept
        rw [payloads_cons, List.flatten_cons] at hstream
        obtain ⟨hle, hfirst⟩ := rfcDataInd_lossless hat (hwf pkt List.mem_cons_self)
          (by simpa using hstream) hne hstep (by omega)
        have hwfs : ∀ p ∈ pkts, WellFormed p := fun p hp => hwf p (List.mem_cons_of_mem _ hp)
        rw [cutAlong_cons hne]
        refine ⟨hle, fun h0 => ⟨(hfirst h0).1, (hfirst h0).2, fun _ => rfl⟩, ?_⟩
        obtain ⟨hfull, hlater, link2, hstep2, hat2⟩ | ⟨hpart, link2, hstep2, hat2⟩ :=
          step_of_cut hne (hwf pkt List.mem_cons_self) hat hstream hle
            fun h0 => ⟨(hfirst h0).1, (hfirst h0).2, fun _ => rfl⟩
        . rw [if_pos hfull]
          cases hstep.symm.trans hstep2
          exact ih hwfs (hat2 _) hlater hrest (by omega)
        . rw [if_neg (by omega)]
          cases hstep.symm.trans hstep2
          have h := ih hwf hat2 (by simpa using hstream) hrest (by omega)
          simpa using h

end

section

variable {whole : Bool} {role : Role} {pkts : List (List UInt8)} {inds : List DataInd}

theorem flatten_pos (hwf : ∀ pkt ∈ pkts, WellFormed pkt) (hne : pkts ≠ []) :
    headLen pkts ≤ pkts.flatten.length ∧ 0 < headLen pkts := by
  cases pkts with
  | nil => exact absurd rfl hne
  | cons pkt pkts =>
    have := (hwf pkt List.mem_cons_self).header
    simp only [headLen, List.headD_cons, List.flatten_cons, List.length_append]
    omega

theorem At.got_lt (h : At whole role got total link)
    (hgot : got ≠ []) : got.length < total := by
  unfold At at h
  rw [if_neg hgot] at h
  exact h.2.2.2.2

theorem At.got_nil (hwf : ∀ pkt ∈ pkts, WellFormed pkt)
    (h : At whole role got (headLen pkts) link) (hall : got = pkts.flatten) : got = [] := by
  by_contra hgot
  have hlt := h.got_lt hgot
  have hne : pkts ≠ [] := by
    rintro rfl
    exact hgot hall
  have hle := (flatten_pos hwf hne).1
  rw [← hall] at hle
  omega

theorem delivered_of_cut (hwf : ∀ pkt ∈ pkts, WellFormed pkt)
    (hstream : payloads inds = pkts.flatten) (hcut : CutAlong whole 0 pkts inds) :
    Delivered role pkts inds := by
  obtain ⟨k, got, link, hrun, hat, hleft⟩ := receive_of_cut hwf
    (at_idle : At whole role [] (headLen pkts) (idle role))
    (show [] ++ (payloads inds ++ []) = pkts.flatten by simpa using hstream) hcut
  have hwfs : ∀ pkt ∈ pkts.drop k, WellFormed pkt := fun p hp => hwf p (List.mem_of_mem_drop hp)
  rw [List.append_nil] at hleft
  have hdone : pkts.drop k = [] := by
    by_contra hne
    have hgot := hat.got_nil hwfs hleft
    have hpos := flatten_pos hwfs hne
    rw [← hleft, hgot, List.length_nil] at hpos
    omega
  have hall : pkts.take k = pkts := by
    have h := List.take_append_drop k pkts
    rwa [hdone, List.append_nil] at h
  rw [hall] at hrun
  exact ⟨link, hrun⟩

theorem cut_of_delivered (hwf : ∀ pkt ∈ pkts, WellFormed pkt)
    (hstream : payloads inds = pkts.flatten) (h : Delivered role pkts inds) :
    CutAlong true 0 pkts inds := by
  obtain ⟨link, hrun⟩ := h
  refine cut_of_receive hwf (show At true role [] _ _ from at_idle) hstream hrun ?_
  rw [handedLen_map, hstream]
  simp [heldLen, idle]

theorem cutAlong_before
    (h : CutAlong whole had pkts (before ++ after)) : CutAlong whole had pkts before := by
  induction before generalizing had pkts with
  | nil => trivial
  | cons ind inds ih =>
    rw [List.cons_append] at h
    by_cases hne : ind.buf.length = 0
    . rw [cutAlong_skip hne] at h ⊢
      exact ih h
    . cases pkts with
      | nil => simp [CutAlong, hne] at h
      | cons pkt pkts =>
        rw [cutAlong_cons hne] at h ⊢
        refine ⟨h.1, h.2.1, ?_⟩
        split
        case isTrue hfull => exact ih (by simpa [hfull] using h.2.2)
        case isFalse hpart => exact ih (by simpa [hpart] using h.2.2)

theorem drop_flatten_le : (pkts.drop n).flatten.length ≤ pkts.flatten.length := by
  have h := congrArg (fun l => l.flatten.length) (List.take_append_drop n pkts)
  simp only [List.flatten_append, List.length_append] at h
  omega

theorem between_nil
    (hwf : ∀ pkt ∈ pkts, WellFormed pkt) (hat : At whole role got (headLen (pkts.drop k)) link)
    (hleft : got ++ later = (pkts.drop k).flatten) (hlater : later = (pkts.drop j).flatten) :
    got = [] := by
  by_contra hgot
  have hlt := hat.got_lt hgot
  have hwfs : ∀ pkt ∈ pkts.drop k, WellFormed pkt := fun p hp => hwf p (List.mem_of_mem_drop hp)
  have hlen := congrArg List.length hleft
  rw [List.length_append, hlater] at hlen
  have hpos := List.length_pos_iff.mpr hgot
  by_cases hjk : j ≤ k
  . -- all that is left at `k` is left at `j`
    have hdrop : pkts.drop k = (pkts.drop j).drop (k - j) := by
      rw [List.drop_drop]
      congr 1
      omega
    have hsub : (pkts.drop k).flatten.length ≤ (pkts.drop j).flatten.length := by
      rw [hdrop]
      exact drop_flatten_le
    omega
  . -- the packet at `k` is complete at `j`
    have hne : pkts.drop k ≠ [] := by
      intro h
      rw [h] at hleft
      simp only [List.flatten_nil, List.append_eq_nil_iff] at hleft
      exact hgot hleft.1
    have hdrop : pkts.drop j = (pkts.drop (k + 1)).drop (j - (k + 1)) := by
      rw [List.drop_drop]
      congr 1
      omega
    have hsub : (pkts.drop j).flatten.length ≤ (pkts.drop (k + 1)).flatten.length := by
      rw [hdrop]
      exact drop_flatten_le
    have hhead : (pkts.drop k).flatten.length =
        headLen (pkts.drop k) + (pkts.drop (k + 1)).flatten.length := by
      cases hcase : pkts.drop k with
      | nil => exact absurd hcase hne
      | cons pkt rest =>
        have : pkts.drop (k + 1) = rest := by
          rw [← List.tail_drop, hcase, List.tail_cons]
        simp [headLen, this]
    omega

theorem clean_of_cut (hwf : ∀ pkt ∈ pkts, WellFormed pkt)
    (hstream : payloads inds = pkts.flatten) (hcut : CutAlong false 0 pkts inds) :
    CleanBetween role pkts inds := by
  rintro before after j rfl hbefore
  have hsplit : payloads (before ++ after) = payloads before ++ payloads after := by
    simp [payloads]
  rw [hsplit] at hstream
  obtain ⟨k, got, link, hrun, hat, hleft⟩ := receive_of_cut hwf
    (at_idle : At false role [] (headLen pkts) (idle role)) hstream (cutAlong_before hcut)
  have hlater : payloads after = (pkts.drop j).flatten := by
    have h := congrArg List.flatten (List.take_append_drop j pkts)
    rw [List.flatten_append, ← hstream, hbefore] at h
    exact (List.append_cancel_left h).symm
  have hnil := between_nil hwf hat hleft hlater
  subst hnil
  rw [hat.idle_eq] at hrun
  exact ⟨_, hrun⟩

theorem whole_dirty
    (hwf : WellFormed pkt) (hat : At true role [] pkt.length link) (hbuf : ind.buf = pkt)
    (h : receive link [ind] = .ok (link', handed)) : link'.totalLen ≠ 0 := by
  obtain ⟨link1, first, later, hfirst, hlater, _⟩ := receive_cons.mp h
  cases hlater
  have hheader := hwf.header
  rw [rfcDataInd_first hat hwf (show ind.buf ++ [] = pkt ++ [] by simp [hbuf])
    (by rw [hbuf]; exact hheader)] at hfirst
  injection hfirst with hfirst
  rw [dataIndFirst, hbuf, if_neg (by omega)] at hfirst
  cases hfirst
  simp only
  omega

theorem strict_of_clean (hwf : ∀ pkt ∈ pkts, WellFormed pkt)
    (hat : At true role got (headLen pkts) link) (hstream : got ++ payloads inds = pkts.flatten)
    (hcut : CutAlong true got.length pkts inds)
    (hclean : ∀ before after k, inds = before ++ after →
      got ++ payloads before = (pkts.take k).flatten →
        ∃ link' handed, receive link before = .ok (link', handed) ∧ link'.totalLen = 0) :
    CutAlong false got.length pkts inds := by
  induction inds generalizing got pkts link with
  | nil => trivial
  | cons ind inds ih =>
    by_cases hne : ind.buf.length = 0
    . have hnil : ind.buf = [] := List.length_eq_zero_iff.mp hne
      rw [cutAlong_skip hne] at hcut ⊢
      refine ih hwf hat (by simpa [payloads_cons, hnil] using hstream) hcut ?_
      rintro before after k rfl hbefore
      have h := hclean (ind :: before) after k rfl (by simpa [payloads_cons, hnil] using hbefore)
      rwa [receive_skip hne] at h
    . cases pkts with
      | nil => simp [CutAlong, hne] at hcut
      | cons pkt pkts =>
        have hwfs : ∀ p ∈ pkts, WellFormed p := fun p hp => hwf p (List.mem_cons_of_mem _ hp)
        have hpkt := hwf pkt List.mem_cons_self
        rw [cutAlong_cons hne] at hcut ⊢
        obtain ⟨hle, hfirst, hcut⟩ := hcut
        rw [payloads_cons, List.flatten_cons] at hstream
        have hnotWhole : got.length = 0 → ind.buf.length ≠ pkt.length := by
          intro h0 hwhole
          have hnil : got = [] := List.length_eq_zero_iff.mp h0
          subst hnil
          have hbuf : ind.buf = pkt := (List.append_inj (by simpa using hstream) hwhole).1
          obtain ⟨link', handed, hrun, hzero⟩ := hclean [ind] inds 1 rfl (by
            simp [payloads, hbuf])
          exact whole_dirty hpkt hat hbuf hrun hzero
        refine ⟨hle, fun h0 => ⟨(hfirst h0).1, (hfirst h0).2.1, fun h => absurd h (hnotWhole h0)⟩,
          ?_⟩
        obtain ⟨hfull, hlater, link1, hstep, hat1⟩ | ⟨hpart, link1, hstep, hat1⟩ :=
          step_of_cut hne hpkt hat hstream hle hfirst
        . rw [if_pos hfull] at hcut ⊢
          refine ih hwfs (hat1 _) hlater hcut ?_
          rintro before after k rfl hbefore
          have hgot : got ++ ind.buf = pkt := by
            have h : (got ++ ind.buf) ++ payloads (before ++ after) = pkt ++ pkts.flatten := by
              simpa using hstream
            exact (List.append_inj h (by simpa using hfull)).1
          obtain ⟨link', handed, hrun, hzero⟩ := hclean (ind :: before) after (k + 1) rfl (by
            rw [payloads_cons, ← List.append_assoc, hgot]
            simpa using hbefore)
          obtain ⟨link2, first, later, hstep2, hrest, _⟩ := receive_cons.mp hrun
          cases hstep.symm.trans hstep2
          exact ⟨link', later, hrest, hzero⟩
        . have hnot : ¬got.length + ind.buf.length = pkt.length := by omega
          rw [if_neg hnot] at hcut ⊢
          have h := ih hwf hat1 (by simpa using hstream) (by simpa using hcut) (by
            rintro before after k rfl hbefore
            obtain ⟨link', handed, hrun, hzero⟩ := hclean (ind :: before) after k rfl (by
              rw [payloads_cons, ← List.append_assoc]
              exact hbefore)
            obtain ⟨link2, first, later, hstep2, hrest, _⟩ := receive_cons.mp hrun
            cases hstep.symm.trans hstep2
            exact ⟨link', later, hrest, hzero⟩)
          simpa using h

end

theorem stream_iff (role : Role) (pkts : List (List UInt8)) (hwf : ∀ pkt ∈ pkts, WellFormed pkt)
    (inds : List DataInd) (hstream : payloads inds = pkts.flatten) :
    (Delivered role pkts inds ↔ CutAlong true 0 pkts inds) ∧
      (Delivered role pkts inds ∧ CleanBetween role pkts inds ↔ CutAlong false 0 pkts inds) := by
  refine ⟨⟨cut_of_delivered hwf hstream, delivered_of_cut hwf hstream⟩, ?_, ?_⟩
  . rintro ⟨hdelivered, hclean⟩
    refine strict_of_clean hwf (at_idle : At true role [] (headLen pkts) (idle role)) hstream
      (cut_of_delivered hwf hstream hdelivered) ?_
    intro before after k hinds hbefore
    obtain ⟨handed, hrun⟩ := hclean before after k hinds (by simpa using hbefore)
    exact ⟨_, handed, hrun, rfl⟩
  . intro hcut
    exact ⟨delivered_of_cut hwf hstream hcut, clean_of_cut hwf hstream hcut⟩

def twoPkts : List (List UInt8) := [[0x80, 0x00, 0x04, 0x10], [0x81, 0x00, 0x03]]

def twoPktsCut : List DataInd :=
  [⟨[0x80, 0x00, 0x04], true⟩, ⟨[0x10, 0x81], true⟩, ⟨[0x00, 0x03], true⟩]

theorem twoPkts_wf : ∀ pkt ∈ twoPkts, WellFormed pkt := by
  intro pkt hpkt
  simp only [twoPkts, List.mem_cons, List.not_mem_nil, or_false] at hpkt
  obtain rfl | rfl := hpkt
  . exact ⟨by decide, by decide⟩
  . exact ⟨by decide, by decide⟩

def twoPktsParted : List DataInd :=
  [⟨[0x80, 0x00, 0x04], true⟩, ⟨[0x10], true⟩, ⟨[0x81, 0x00, 0x03], false⟩]

theorem stream_parted : Delivered .server twoPkts twoPktsParted := by
  apply (stream_iff .server twoPkts twoPkts_wf twoPktsParted rfl).1.mpr
  decide

theorem stream_lost :
    ¬∀ (role : Role) (pkts : List (List UInt8)) (inds : List DataInd),
      (∀ pkt ∈ pkts, WellFormed pkt) → payloads inds = pkts.flatten →
        Delivered role pkts inds ∧ CleanBetween role pkts inds := by
  intro h
  have hdelivered := (h .server twoPkts twoPktsCut twoPkts_wf rfl).1
  have hcut := cut_of_delivered twoPkts_wf rfl hdelivered
  revert hcut
  decide

end ObexStream
