import Earphone.Iap.Window
import Mathlib.Data.List.Nodup
import Mathlib.Data.List.Perm.Basic

namespace Iap2

open List

def seqsEnding (acc : Nat) : Nat → List Nat
  | 0 => []
  | n + 1 => (acc + 256 - n) % 256 :: seqsEnding acc n

theorem seqsEnding_push (acc n : Nat) (hn : n < 256) :
    seqsEnding (u8 (acc + 1)) (n + 1) = seqsEnding acc n ++ [u8 (acc + 1)] := by
  induction n with
  | zero =>
    simp only [seqsEnding, u8, nil_append, List.cons.injEq, and_true]
    omega
  | succ n ih =>
    rw [seqsEnding, ih (by omega), seqsEnding, cons_append]
    congr 1
    unfold u8
    omega

theorem mem_seqsEnding (h : x ∈ seqsEnding acc n) : ∃ k < n, x = (acc + 256 - k) % 256 := by
  induction n with
  | zero => simp [seqsEnding] at h
  | succ n ih =>
    rcases mem_cons.mp h with rfl | h
    . exact ⟨n, by omega, rfl⟩
    . obtain ⟨k, hk, hx⟩ := ih h
      exact ⟨k, by omega, hx⟩

theorem nodup_seqsEnding (hacc : acc < 256) (hn : n ≤ 256) : (seqsEnding acc n).Nodup := by
  induction n with
  | zero => simp [seqsEnding]
  | succ n ih =>
    rw [seqsEnding, nodup_cons]
    refine ⟨?_, ih (by omega)⟩
    intro h
    obtain ⟨k, hk, hx⟩ := mem_seqsEnding h
    omega

structure Window (param : Param) (s : Sys) : Prop where
  count : s.link.remainTxQNum + s.link.usedTxQ.length + s.link.sentTxQ.length =
    param.txQElemNum.toNat
  consecutive : s.link.sentTxQ.map Elem.seq = seqsEnding s.link.accPktSeq s.link.sentTxQ.length
  once : s.accepted.Perm (s.reports.map Prod.fst ++ s.dropped ++
    (eaNumbers s.link.sentTxQ ++ eaNumbers s.link.usedTxQ))
  distinct : s.accepted.Nodup

def Moved (sent used : List Elem) (link : Link) : Prop :=
  ∃ moved, link.sentTxQ = sent ++ moved ∧
    moved.map Elem.number ++ link.usedTxQ.map Elem.number = used.map Elem.number

def AckOk (s : Sys) (acked : Nat) (s' : Sys) : Prop :=
  (∀ pre e post, s.link.sentTxQ = pre ++ e :: post → e.seq = acked →
    Moved post s.link.usedTxQ s'.link ∧
      s'.reports = s.reports ++ (eaNumbers (pre ++ [e])).map (·, true)) ∧
  ((∀ e ∈ s.link.sentTxQ, e.seq ≠ acked) →
    Moved s.link.sentTxQ s.link.usedTxQ s'.link ∧ s'.reports = s.reports)

def TimeoutOk (s : Sys) (seq : Nat) (s' : Sys) : Prop :=
  ∀ pre e post, s.link.sentTxQ = pre ++ e :: post → e.seq = seq →
    s'.link.usedTxQ = s.link.usedTxQ ∧
    (e.retransCnt + 1 < s.link.devMaxRetrans →
      s'.link.sentTxQ = pre ++ { e with retransCnt := e.retransCnt + 1, timer := true } :: post ∧
        s'.resent = s.resent ++ [(e.number, seq)] ∧ s'.reports = s.reports) ∧
    (s.link.devMaxRetrans ≤ e.retransCnt + 1 →
      s'.link.sentTxQ = pre ++ post ∧ s'.resent = s.resent ∧
        s'.reports = s.reports ++ (eaNumbers [e]).map (·, false))

def StepOk (param : Param) (s : Sys) (e : Event) : Prop :=
  match e with
  | .ack acked _ => AckOk s acked.toNat (step param s e) ∧ (step param s e).resent = s.resent
  | .timeout seq => TimeoutOk s seq (step param s e)
  | _ => (step param s e).resent = s.resent

def Event.Legal (s : Sys) : Event → Prop
  | .timeout seq => ∃ e ∈ s.link.sentTxQ, e.seq = seq ∧ e.timer = true
  | _ => True

def Event.Ok (s : Sys) : Event → Prop
  | .timeout seq => seq = 0 ∧ ∀ e ∈ s.link.sentTxQ, e.seq = seq →
    e.retransCnt + 1 < s.link.devMaxRetrans ∨ s.link.sentTxQ.head? = some e
  | .reset acked _ => s.link.state = .iap2Sync ∨
    s.link.usedTxQ = [] ∧ (s.link.sentTxQ = [] ∨ acked.toNat = s.link.accPktSeq)
  | _ => True

structure Inv (param : Param) (s : Sys) : Prop extends Window param s where
  acc : s.link.accPktSeq < 256
  index : s.link.index < 256
  max : s.link.devMaxRetrans < 256
  fresh : ∀ n ∈ s.accepted, n < s.nextNumber
  cnt : ∀ e ∈ s.link.sentTxQ, e.retransCnt < 255
  cnt_used : ∀ e ∈ s.link.usedTxQ, e.retransCnt < 255

@[simp]
theorem eaNumbers_nil : eaNumbers [] = [] := rfl

@[simp]
theorem eaNumbers_append (p q : List Elem) : eaNumbers (p ++ q) = eaNumbers p ++ eaNumbers q := by
  simp [eaNumbers]

theorem eaNumbers_cons (e : Elem) (q : List Elem) :
    eaNumbers (e :: q) = eaNumbers [e] ++ eaNumbers q :=
  eaNumbers_append [e] q

theorem eaNumbers_congr {e e' : Elem} (hn : e'.number = e.number)
    (hs : e'.sessionId = e.sessionId) : eaNumbers [e'] = eaNumbers [e] := by
  simp [eaNumbers, filter_cons, hn, hs]
  split <;> simp [hn]

structure Sent (link link' : Link) : Prop where
  index : link'.index = link.index
  state : link'.state = link.state
  remain : link'.remainTxQNum = link.remainTxQNum
  acked : link'.ackedSeq = link.ackedSeq
  max : link'.devMaxRetrans = link.devMaxRetrans
  length : link'.usedTxQ.length + link'.sentTxQ.length = link.usedTxQ.length + link.sentTxQ.length
  acc : link'.accPktSeq < 256
  consecutive : link'.sentTxQ.map Elem.seq = seqsEnding link'.accPktSeq link'.sentTxQ.length
  numbers : eaNumbers link'.sentTxQ ++ eaNumbers link'.usedTxQ =
    eaNumbers link.sentTxQ ++ eaNumbers link.usedTxQ
  moved : Moved link.sentTxQ link.usedTxQ link'
  cnt : ∀ e ∈ link'.sentTxQ ++ link'.usedTxQ, e.retransCnt < 255

theorem sent_txLoop (attempts : List Bool) (used : List Elem) (link : Link)
    (hused : link.usedTxQ = used) (hacc : link.accPktSeq < 256)
    (hlen : link.usedTxQ.length + link.sentTxQ.length < 256)
    (hcons : link.sentTxQ.map Elem.seq = seqsEnding link.accPktSeq link.sentTxQ.length)
    (hcnt : ∀ e ∈ link.sentTxQ ++ link.usedTxQ, e.retransCnt < 255) :
    Sent link (txLoop attempts used link) := by
  induction used generalizing attempts link with
  | nil =>
    have hlink : txLoop attempts [] link = link := by cases attempts <;> rfl
    rw [hlink]
    exact ⟨rfl, rfl, rfl, rfl, rfl, rfl, hacc, hcons, rfl, ⟨[], by simp, by simp⟩, hcnt⟩
  | cons e es ih =>
    -- a failed send takes the number back
    have hfail : ∀ link', link' = { link with
          accPktSeq := u8 (u8 (link.accPktSeq + 1) + 255)
          usedTxQ := { e with seq := u8 (link.accPktSeq + 1) } :: es } → Sent link link' := by
      rintro link' rfl
      have hback : u8 (u8 (link.accPktSeq + 1) + 255) = link.accPktSeq := by
        unfold u8
        omega
      refine ⟨rfl, rfl, rfl, rfl, rfl, by simp [hused], by simpa only [hback] using hacc,
        by simpa only [hback] using hcons, ?_, ⟨[], by simp, by simp [hused]⟩, ?_⟩
      . simp only [hused]
        rw [eaNumbers_cons, eaNumbers_cons e,
          @eaNumbers_congr e { e with seq := u8 (link.accPktSeq + 1) } rfl rfl]
      . intro a ha
        simp only [mem_append, mem_cons] at ha
        rcases ha with ha | rfl | ha
        . exact hcnt a (by simp [ha])
        . exact hcnt e (by simp [hused])
        . exact hcnt a (by simp [hused, ha])
    match attempts with
    | [] => exact hfail _ rfl
    | false :: attempts => exact hfail _ rfl
    | true :: attempts =>
      have hsent := ih attempts { link with
          accPktSeq := u8 (link.accPktSeq + 1)
          usedTxQ := es
          sentTxQ := link.sentTxQ ++ [{ e with seq := u8 (link.accPktSeq + 1), timer := true }] }
        rfl (by simp only [u8]; omega) (by
          simp only [hused, length_cons, length_append, length_nil] at hlen ⊢
          omega) (by
          simp only [map_append, map_cons, map_nil, length_append,
            length_cons, length_nil, Nat.zero_add]
          rw [seqsEnding_push _ _ (by omega), hcons]) (by
          intro a ha
          simp only [mem_append, mem_singleton] at ha
          rcases ha with (ha | rfl) | ha
          . exact hcnt a (by simp [ha])
          . exact hcnt e (by simp [hused])
          . exact hcnt a (by simp [hused, ha]))
      have hlen' := hsent.length
      have hnum := hsent.numbers
      obtain ⟨moved, hm, hmap⟩ := hsent.moved
      refine ⟨hsent.index, hsent.state, hsent.remain, hsent.acked, hsent.max, ?_, hsent.acc,
        hsent.consecutive, ?_, ?_, hsent.cnt⟩
      . simp only [hused, length_cons, length_append, length_nil] at hlen' ⊢
        exact hlen'.trans (by omega)
      . simp only [eaNumbers_append] at hnum
        rw [hused, eaNumbers_cons]
        refine Eq.trans hnum ?_
        rw [@eaNumbers_congr e { e with seq := u8 (link.accPktSeq + 1), timer := true } rfl rfl,
          append_assoc]
      . refine ⟨{ e with seq := u8 (link.accPktSeq + 1), timer := true } :: moved, ?_, ?_⟩
        . refine hm.trans ?_
          simp
        . rw [hused]
          exact congrArg (e.number :: ·) hmap

theorem sent_txData (hinv : Inv param s) : Sent s.link (btIap2TxData attempts s).link := by
  have hcount := hinv.count
  have hnum := param.txQElemNum.toNat_lt
  apply sent_txLoop attempts s.link.usedTxQ s.link rfl hinv.acc (by omega) hinv.consecutive
  intro e he
  rcases mem_append.mp he with he | he
  . exact hinv.cnt e he
  . exact hinv.cnt_used e he

theorem inv_txData (hinv : Inv param s) : Inv param (btIap2TxData attempts s) := by
  have hsent : Sent s.link (btIap2TxData attempts s).link := sent_txData hinv
  have hcount := hinv.count
  have hlen := hsent.length
  have hremain := hsent.remain
  refine ⟨⟨by omega, hsent.consecutive, ?_, hinv.distinct⟩,
    hsent.acc, by rw [hsent.index]; exact hinv.index, by rw [hsent.max]; exact hinv.max,
    hinv.fresh, ?_, ?_⟩
  . have honce := hinv.once
    rw [← hsent.numbers] at honce
    exact honce
  . intro e he
    exact hsent.cnt e (mem_append_left _ he)
  . intro e he
    exact hsent.cnt e (mem_append_right _ he)

section

variable {param : Param} {s : Sys}

theorem map_pair_fst (l : List Nat) (b : Bool) : (l.map (·, b)).map Prod.fst = l := by
  induction l with
  | nil => rfl
  | cons n l ih => simpa using ih

theorem perm_move (reported dropped sent rest used : List Nat) :
    (reported ++ dropped ++ ((sent ++ rest) ++ used)).Perm
      ((reported ++ sent) ++ dropped ++ (rest ++ used)) := by
  rw [perm_iff_count]
  intro n
  simp only [count_append]
  omega

theorem ackLoop_eq (pre : List Elem) (s : Sys)
    (hpre : ∀ a ∈ pre, a.seq ≠ s.link.ackedSeq) (he : e.seq = s.link.ackedSeq) :
    ackLoop (pre ++ e :: post) s =
      { s with
        link := { s.link with
          sentTxQ := post, remainTxQNum := u8 (s.link.remainTxQNum + (pre.length + 1)) }
        reports := s.reports ++ (eaNumbers (pre ++ [e])).map (·, true) } := by
  induction pre generalizing s with
  | nil =>
    rw [nil_append, ackLoop, if_pos he]
    rfl
  | cons a pre ih =>
    have hne : a.seq ≠ s.link.ackedSeq := hpre a (by simp)
    have hsum : ∀ n m, u8 (u8 (n + 1) + (m + 1)) = u8 (n + (m + 1 + 1)) := by
      intro n m
      unfold u8
      omega
    rw [cons_append, ackLoop, if_neg hne, ih]
    . simp only [release, setSent, hsum, length_cons, cons_append, append_assoc]
      rw [eaNumbers_cons a (pre ++ [e]), map_append]
    . intro b hb
      exact hpre b (by simp [hb])
    . exact he

theorem suffix_seqs {pre post : List Elem} {acc : Nat}
    (h : (pre ++ post).map Elem.seq = seqsEnding acc (pre ++ post).length) :
    post.map Elem.seq = seqsEnding acc post.length := by
  induction pre with
  | nil => exact h
  | cons a pre ih =>
    rw [cons_append, map_cons, length_cons, seqsEnding] at h
    exact ih (List.cons.inj h).2

theorem Inv.nodup (hinv : Inv param s) : (s.link.sentTxQ.map Elem.seq).Nodup := by
  have hcount := hinv.count
  have hnum := param.txQElemNum.toNat_lt
  rw [hinv.consecutive]
  exact nodup_seqsEnding hinv.acc (by omega)

theorem Inv.unique (hinv : Inv param s)
    (hsplit : s.link.sentTxQ = pre ++ e :: post) :
    (∀ a ∈ pre, a.seq ≠ e.seq) ∧ ∀ a ∈ post, a.seq ≠ e.seq := by
  have hnodup := hinv.nodup
  rw [hsplit, map_append, map_cons, nodup_middle, nodup_cons] at hnodup
  constructor
  . intro a ha heq
    exact hnodup.1 (heq ▸ mem_append_left _ (mem_map_of_mem ha))
  . intro a ha heq
    exact hnodup.1 (heq ▸ mem_append_right _ (mem_map_of_mem ha))

theorem rcvAcked_eq (hinv : Inv param s)
    (hsplit : s.link.sentTxQ = pre ++ e :: post) (he : e.seq = acked) :
    rcvAcked acked s =
      { s with
        link := { s.link with
          ackedSeq := acked, sentTxQ := post,
          remainTxQNum := u8 (s.link.remainTxQNum + (pre.length + 1)) }
        reports := s.reports ++ (eaNumbers (pre ++ [e])).map (·, true) } := by
  have hany : s.link.sentTxQ.any fun a => a.seq = acked := by
    rw [any_eq_true]
    exact ⟨e, by simp [hsplit], by simpa using he⟩
  refine (if_pos hany).trans ((congrArg (ackLoop · _) hsplit).trans (ackLoop_eq pre _ ?_ he))
  intro a ha
  refine fun heq => (hinv.unique hsplit).1 a ha ?_
  exact heq.trans he.symm

theorem rcvAcked_none (h : ∀ e ∈ s.link.sentTxQ, e.seq ≠ acked) :
    rcvAcked acked s = { s with link := { s.link with ackedSeq := acked } } := by
  have hany : (s.link.sentTxQ.any fun a => a.seq = acked) = false := by
    rw [any_eq_false]
    intro e he
    simpa using h e he
  unfold rcvAcked btIap2UpdateAckedPkt
  simp only [hany, Bool.false_eq_true, if_false]

theorem acked_cases (s : Sys) (acked : Nat) :
    (∃ pre e post, s.link.sentTxQ = pre ++ e :: post ∧ e.seq = acked) ∨
      ∀ e ∈ s.link.sentTxQ, e.seq ≠ acked := by
  by_cases h : ∃ e ∈ s.link.sentTxQ, e.seq = acked
  . obtain ⟨e, he, heq⟩ := h
    obtain ⟨pre, post, hsplit⟩ := append_of_mem he
    exact .inl ⟨pre, e, post, hsplit, heq⟩
  . refine .inr ?_
    intro e he heq
    exact h ⟨e, he, heq⟩

theorem inv_release (hinv : Inv param s) {out rest : List Elem} {b : Bool} {s' : Sys}
    (hsplit : (s.link.sentTxQ.map Elem.seq, eaNumbers s.link.sentTxQ) =
      ((out ++ rest).map Elem.seq, eaNumbers (out ++ rest)))
    (hcnt : ∀ e ∈ rest, e.retransCnt < 255)
    (hlink : ∃ acked, s'.link = { s.link with
      ackedSeq := acked, sentTxQ := rest,
      remainTxQNum := u8 (s.link.remainTxQNum + out.length) })
    (hs' : s'.reports = s.reports ++ (eaNumbers out).map (·, b) ∧ s'.accepted = s.accepted ∧
      s'.dropped = s.dropped ∧ s'.nextNumber = s.nextNumber) : Inv param s' := by
  obtain ⟨acked, hlink⟩ := hlink
  obtain ⟨hreports, haccepted, hdropped, hnext⟩ := hs'
  obtain ⟨hseqs, hea⟩ := Prod.mk.inj hsplit
  have hcount := hinv.count
  have hnum := param.txQElemNum.toNat_lt
  have hlength : s.link.sentTxQ.length = out.length + rest.length := by
    simpa using congrArg List.length hseqs
  have hcons := hinv.consecutive
  have honce := hinv.once
  rw [hseqs, hlength, ← length_append] at hcons
  rw [hea, eaNumbers_append] at honce
  refine ⟨⟨?_, ?_, ?_, ?_⟩, ?_, ?_, ?_, ?_, ?_, ?_⟩
  . rw [hlink]
    simp only [u8]
    omega
  . rw [hlink]
    exact suffix_seqs hcons
  . rw [haccepted, hreports, hdropped, hlink, map_append, map_pair_fst]
    exact honce.trans (perm_move _ _ _ _ _)
  . rw [haccepted]
    exact hinv.distinct
  . rw [hlink]
    exact hinv.acc
  . rw [hlink]
    exact hinv.index
  . rw [hlink]
    exact hinv.max
  . rw [haccepted, hnext]
    exact hinv.fresh
  . rw [hlink]
    exact hcnt
  . rw [hlink]
    exact hinv.cnt_used

theorem inv_rcvAcked (hinv : Inv param s) (acked : Nat) : Inv param (rcvAcked acked s) := by
  rcases acked_cases s acked with ⟨pre, e, post, hsplit, he⟩ | hnone
  . have hsplit' : s.link.sentTxQ = (pre ++ [e]) ++ post := by simp [hsplit]
    rw [rcvAcked_eq hinv hsplit he]
    refine inv_release hinv (by rw [hsplit']) ?_ ⟨acked, by simp⟩ ⟨rfl, rfl, rfl, rfl⟩
    intro a ha
    exact hinv.cnt a (by simp [hsplit, ha])
  . rw [rcvAcked_none hnone]
    exact ⟨⟨hinv.count, hinv.consecutive, hinv.once, hinv.distinct⟩, hinv.acc, hinv.index, hinv.max,
      hinv.fresh, hinv.cnt, hinv.cnt_used⟩

theorem ackOk_rcvAcked (hinv : Inv param s) (acked : Nat) (attempts : List Bool) :
    AckOk s acked (btIap2TxData attempts (rcvAcked acked s)) := by
  have hsent : Sent _ (btIap2TxData attempts (rcvAcked acked s)).link :=
    sent_txData (inv_rcvAcked hinv acked)
  constructor
  . intro pre e post hsplit he
    have heq := rcvAcked_eq hinv hsplit he
    have hmoved := hsent.moved
    rw [heq] at hmoved ⊢
    exact ⟨hmoved, rfl⟩
  . intro hnone
    have heq := rcvAcked_none hnone
    have hmoved := hsent.moved
    rw [heq] at hmoved ⊢
    exact ⟨hmoved, rfl⟩

theorem rcvAcked_resent (acked : Nat) (hinv : Inv param s) :
    (rcvAcked acked s).resent = s.resent ∧ (rcvAcked acked s).link.usedTxQ = s.link.usedTxQ ∧
      (rcvAcked acked s).link.state = s.link.state := by
  rcases acked_cases s acked with ⟨pre, e, post, hsplit, he⟩ | hnone
  . rw [rcvAcked_eq hinv hsplit he]
    exact ⟨rfl, rfl, rfl⟩
  . rw [rcvAcked_none hnone]
    exact ⟨rfl, rfl, rfl⟩

end

section

variable {param : Param} {s : Sys}

theorem inv_send (hinv : Inv param s) (sessionId : SessionId) (fits alloc : Bool)
    (attempts : List Bool) : Inv param (send sessionId fits alloc attempts s) := by
  unfold send
  split
  . exact hinv
  . next h =>
    simp only [not_or] at h
    obtain ⟨_, hremain, _⟩ := h
    have hcount := hinv.count
    have hnum := param.txQElemNum.toNat_lt
    apply inv_txData
    refine ⟨⟨?_, hinv.consecutive, ?_, ?_⟩, hinv.acc, hinv.index,
      hinv.max, ?_, hinv.cnt, ?_⟩
    . simp only [length_append, length_cons, length_nil, u8]
      omega
    . have hea : eaNumbers [(⟨s.nextNumber, sessionId, 0, 0, false⟩ : Elem)] =
          if sessionId = .ea then [s.nextNumber] else [] := by
        cases sessionId <;> rfl
      simp only [eaNumbers_append, hea]
      rw [← append_assoc, ← append_assoc]
      exact List.Perm.append_right _ (by simpa [append_assoc] using hinv.once)
    . refine List.Nodup.append hinv.distinct (by split <;> simp) ?_
      intro n hn hmem
      have hlt := hinv.fresh n hn
      split at hmem
      . simp only [mem_singleton] at hmem
        omega
      . simp at hmem
    . intro n hn
      rcases mem_append.mp hn with hn | hn
      . have := hinv.fresh n hn
        simp only
        omega
      . split at hn
        . simp only [mem_singleton] at hn
          simp only
          omega
        . simp at hn
    . intro e he
      rcases mem_append.mp he with he | he
      . exact hinv.cnt_used e he
      . simp only [mem_singleton] at he
        subst he
        change 0 < 255
        omega

theorem send_resent (sessionId : SessionId) (fits alloc : Bool) (attempts : List Bool) :
    (send sessionId fits alloc attempts s).resent = s.resent := by
  unfold send
  split <;> rfl

theorem Inv.last (hinv : Inv param s) {pre : List Elem} {e : Elem}
    (hsplit : s.link.sentTxQ = pre ++ [e]) : e.seq = s.link.accPktSeq := by
  have hcons := hinv.consecutive
  rw [hsplit] at hcons
  have hlast : e.seq = (s.link.accPktSeq + 256 - 0) % 256 := (List.cons.inj (suffix_seqs hcons)).1
  have hacc := hinv.acc
  omega

theorem acked_all (hinv : Inv param s) (acked : Nat) :
    (rcvAcked acked s).link.sentTxQ = [] ↔ s.link.sentTxQ = [] ∨ acked = s.link.accPktSeq := by
  rcases acked_cases s acked with ⟨pre, e, post, hsplit, he⟩ | hnone
  . rw [rcvAcked_eq hinv hsplit he]
    have hne : s.link.sentTxQ ≠ [] := by simp [hsplit]
    simp only [hne, false_or]
    rcases eq_nil_or_concat post with rfl | ⟨init, b, rfl⟩
    . simp only [true_iff]
      rw [← he]
      exact hinv.last hsplit
    . rw [concat_eq_append] at *
      have hlast := @Inv.last _ _ hinv (pre ++ e :: init) b (by simpa using hsplit)
      have huniq := (hinv.unique hsplit).2 b (by simp)
      constructor
      . intro h
        simp at h
      . intro h
        exact absurd (hlast.trans (h.symm.trans he.symm)) huniq
  . rw [rcvAcked_none hnone]
    simp only
    constructor
    . exact .inl
    . rintro (h | h)
      . exact h
      . rcases eq_nil_or_concat s.link.sentTxQ with hnil | ⟨init, b, hinit⟩
        . exact hnil
        . rw [concat_eq_append] at hinit
          exact absurd ((hinv.last hinit).trans h.symm) (hnone b (by simp [hinit]))

theorem txData_empty (attempts : List Bool) (h : s.link.usedTxQ = []) :
    btIap2TxData attempts s = s := by
  unfold btIap2TxData
  rw [h]
  cases attempts <;> rfl

theorem reset_eq (hstate : s.link.state ≠ .iap2Sync) :
    btIap2HandleReset param s = { s with
      link := { s.link with
        state := .iap2Sync, usedTxQ := [], sentTxQ := [], accPktSeq := param.accStartSeq.toNat,
        devMaxRetrans := param.accMaxRetrans.toNat }
      dropped := s.dropped ++ (eaNumbers s.link.usedTxQ ++ eaNumbers s.link.sentTxQ) } :=
  if_neg hstate

theorem window_reset (hinv : Inv param s) (attempts : List Bool) :
    Window param (btIap2TxData attempts (btIap2HandleReset param s)) ↔
      s.link.state = .iap2Sync ∨ s.link.usedTxQ = [] ∧ s.link.sentTxQ = [] := by
  by_cases hstate : s.link.state = .iap2Sync
  . have heq : btIap2HandleReset param s = s := if_pos hstate
    rw [heq]
    simp only [hstate, true_or, iff_true]
    exact (inv_txData hinv).toWindow
  . rw [reset_eq hstate, txData_empty attempts rfl]
    simp only [hstate, false_or]
    have hcount := hinv.count
    constructor
    . intro h
      have hcount' : s.link.remainTxQNum + 0 + 0 = param.txQElemNum.toNat := h.count
      exact ⟨length_eq_zero_iff.mp (by omega), length_eq_zero_iff.mp (by omega)⟩
    . rintro ⟨hused, hsent⟩
      rw [hused, hsent] at hcount
      have honce := hinv.once
      rw [hused, hsent] at honce
      exact ⟨hcount, rfl, by simpa [hused, hsent] using honce, hinv.distinct⟩

theorem inv_reset (hinv : Inv param s) (hok : s.link.state = .iap2Sync ∨
    s.link.usedTxQ = [] ∧ s.link.sentTxQ = []) (attempts : List Bool) :
    Inv param (btIap2TxData attempts (btIap2HandleReset param s)) := by
  have hwindow := (window_reset hinv attempts).mpr hok
  by_cases hstate : s.link.state = .iap2Sync
  . have heq : btIap2HandleReset param s = s := if_pos hstate
    rw [heq]
    exact inv_txData hinv
  . rw [reset_eq hstate, txData_empty attempts rfl] at hwindow ⊢
    exact ⟨hwindow, param.accStartSeq.toNat_lt, hinv.index, param.accMaxRetrans.toNat_lt,
      hinv.fresh, by simp, by simp⟩

theorem reset_ok (hinv : Inv param s) (acked : UInt8) (attempts : List Bool) :
    (rcvAcked acked.toNat s).link.state = .iap2Sync ∨
      (rcvAcked acked.toNat s).link.usedTxQ = [] ∧ (rcvAcked acked.toNat s).link.sentTxQ = [] ↔
      Event.Ok s (.reset acked attempts) := by
  obtain ⟨_, hused, hstate⟩ := rcvAcked_resent acked.toNat hinv
  rw [hused, hstate, acked_all hinv]
  rfl

theorem reset_resent (attempts : List Bool) :
    (btIap2TxData attempts (btIap2HandleReset param s)).resent = s.resent := by
  unfold btIap2HandleReset btIap2TxData
  split <;> rfl

end

section

variable {param : Param} {s : Sys} {pre post : List Elem} {e : Elem}

theorem Inv.seq_lt (hinv : Inv param s) (he : e ∈ s.link.sentTxQ) : e.seq < 256 := by
  have hmem : e.seq ∈ s.link.sentTxQ.map Elem.seq := mem_map_of_mem he
  rw [hinv.consecutive] at hmem
  obtain ⟨k, _, hx⟩ := mem_seqsEnding hmem
  omega

theorem handleTimeout_eq (hinv : Inv param s) (hseq : seq < 256) :
    btIapHandleTimeout (timerId seq s.link.index) s =
      if seq = 0 then sendDataTimeout 0 s else s := by
  have hindex := hinv.index
  have hchann : timerId seq s.link.index % 65536 = seq * 256 + s.link.index := by
    unfold timerId
    omega
  have hid : timerId seq s.link.index / 65536 % 256 = btIap2SendData := by
    unfold timerId btIap2SendData
    omega
  unfold btIapHandleTimeout
  rw [hchann, hid]
  by_cases h0 : seq = 0
  . subst h0
    have hdiv : (0 * 256 + s.link.index) / 256 = 0 := by omega
    rw [if_pos (by omega), if_pos rfl, if_pos rfl, hdiv]
  . rw [if_neg (by omega), if_neg h0]

def Elem.expired (e : Elem) (timer : Bool) : Elem :=
  { e with retransCnt := e.retransCnt + 1, timer := timer }

section

variable (hinv : Inv param s) (hsplit : s.link.sentTxQ = pre ++ e :: post)

include hinv hsplit

theorem modify_split (timer : Bool) :
    First.modify (fun a => a.seq = e.seq)
        (fun a => { a with retransCnt := u8 (a.retransCnt + 1), timer := timer }) s.link.sentTxQ =
      pre ++ e.expired timer :: post := by
  have hcnt := hinv.cnt e (by simp [hsplit])
  have hu8 : u8 (e.retransCnt + 1) = e.retransCnt + 1 := by
    unfold u8
    omega
  rw [hsplit, First.modify_append_cons]
  . rw [hu8]
    rfl
  . intro a ha
    simpa using (hinv.unique hsplit).1 a ha
  . simp

theorem find_split : s.link.sentTxQ.find? (fun a => a.seq = e.seq) = some e := by
  rw [hsplit, find?_append, find?_eq_none.mpr]
  . simp
  . intro a ha
    simpa using (hinv.unique hsplit).1 a ha

theorem sendDataTimeout_eq :
    sendDataTimeout e.seq s =
      if s.link.devMaxRetrans ≤ e.retransCnt + 1 then
        giveUp (pre ++ e.expired false :: post) s
      else
        { setSent (pre ++ e.expired true :: post) s with
          resent := s.resent ++ [(e.number, e.seq)] } := by
  have hcnt := hinv.cnt e (by simp [hsplit])
  have hu8 : u8 (e.retransCnt + 1) = e.retransCnt + 1 := by
    unfold u8
    omega
  unfold sendDataTimeout
  simp only [find_split hinv hsplit, hu8, modify_split hinv hsplit]

end

theorem expired_seqs {timer : Bool} (hsplit : s.link.sentTxQ = pre ++ e :: post) :
    s.link.sentTxQ.map Elem.seq = (pre ++ e.expired timer :: post).map Elem.seq ∧
      eaNumbers s.link.sentTxQ = eaNumbers (pre ++ e.expired timer :: post) := by
  rw [hsplit]
  refine ⟨by simp [Elem.expired], ?_⟩
  rw [eaNumbers_append, eaNumbers_append, eaNumbers_cons, eaNumbers_cons (e.expired timer),
    @eaNumbers_congr e (e.expired timer) rfl rfl]

section

variable (hinv : Inv param s)

include hinv

theorem inv_resend (hsplit : s.link.sentTxQ = pre ++ e :: post)
    (hcnt : e.retransCnt + 1 < s.link.devMaxRetrans) :
    Inv param { setSent (pre ++ e.expired true :: post) s with
      resent := s.resent ++ [(e.number, e.seq)] } := by
  obtain ⟨hseqs, hea⟩ := @expired_seqs s pre post e true hsplit
  have hlen := congrArg List.length hseqs
  simp only [length_map] at hlen
  have hmax := hinv.max
  have hcons := hinv.consecutive
  have honce := hinv.once
  rw [hseqs, hlen] at hcons
  rw [hea] at honce
  refine ⟨⟨?_, hcons, honce, hinv.distinct⟩, hinv.acc,
    hinv.index, hinv.max, hinv.fresh, ?_, hinv.cnt_used⟩
  . have hcount := hinv.count
    rw [hlen] at hcount
    exact hcount
  . intro a ha
    change a ∈ pre ++ e.expired true :: post at ha
    simp only [mem_append, mem_cons] at ha
    rcases ha with ha | rfl | ha
    . exact hinv.cnt a (by simp [hsplit, ha])
    . simp only [Elem.expired]
      omega
    . exact hinv.cnt a (by simp [hsplit, ha])

theorem inv_giveUp (hsplit : s.link.sentTxQ = e :: post) :
    Inv param (release false (e.expired false) (setSent post s)) := by
  obtain ⟨hseqs, hea⟩ := @expired_seqs s [] post e false hsplit
  refine @inv_release param s hinv [e.expired false] post false _ (by rw [hseqs, hea]; rfl) ?_
    ⟨s.link.ackedSeq, rfl⟩ ⟨rfl, rfl, rfl, rfl⟩
  intro a ha
  exact hinv.cnt a (by simp [hsplit, ha])

theorem not_giveUp (hsplit : s.link.sentTxQ = (p :: pre) ++ e :: post) :
    pre ++ e.expired false :: post ≠ (p :: pre) ++ post := by
  intro h
  have hseqs := congrArg (List.map Elem.seq) h
  have hmem : p.seq ∈ (pre ++ e.expired false :: post).map Elem.seq := by
    rw [h]
    simp
  obtain ⟨a, ha, heq⟩ := mem_map.mp hmem
  have hnodup := hinv.nodup
  rw [hsplit] at hnodup
  have hnot := (nodup_cons.mp (by simpa using hnodup : (p.seq ::
    (pre.map Elem.seq ++ e.seq :: post.map Elem.seq)).Nodup)).1
  apply hnot
  rw [← heq]
  simp only [mem_append, mem_cons] at ha ⊢
  rcases ha with ha | rfl | ha
  . exact .inl (mem_map_of_mem ha)
  . exact .inr (.inl rfl)
  . exact .inr (.inr (mem_map_of_mem ha))

theorem step_timeout (hsplit : s.link.sentTxQ = pre ++ e :: post) :
    step param s (.timeout e.seq) = if e.seq = 0 then sendDataTimeout e.seq s else s := by
  have hseq := hinv.seq_lt (by simp [hsplit] : e ∈ s.link.sentTxQ)
  refine (handleTimeout_eq hinv hseq).trans ?_
  split
  . next h => rw [h]
  . rfl

theorem timeout_iff (hsplit : s.link.sentTxQ = pre ++ e :: post) :
    StepOk param s (.timeout e.seq) ↔ Event.Ok s (.timeout e.seq) := by
  have hmem : e ∈ s.link.sentTxQ := by simp [hsplit]
  simp only [StepOk, step_timeout hinv hsplit, Event.Ok]
  constructor
  . intro h
    obtain ⟨_, hresend, hgive⟩ := h pre e post hsplit rfl
    by_cases h0 : e.seq = 0
    . refine ⟨h0, ?_⟩
      intro a ha heq
      have hsame : a = e := by
        have hnodup := hinv.nodup
        exact inj_on_of_nodup_map hnodup ha hmem heq
      subst hsame
      by_cases hcnt : a.retransCnt + 1 < s.link.devMaxRetrans
      . exact .inl hcnt
      . obtain ⟨hsent, _⟩ := hgive (by omega)
        rw [if_pos h0, sendDataTimeout_eq hinv hsplit, if_pos (by omega)] at hsent
        cases pre with
        | nil => exact .inr (by simp [hsplit])
        | cons p pre => exact absurd hsent (not_giveUp hinv hsplit)
    . -- The handler has found no link, and the packet stays as it was.
      rw [if_neg h0] at hresend hgive
      by_cases hcnt : e.retransCnt + 1 < s.link.devMaxRetrans
      . have hlen := congrArg List.length (hresend hcnt).2.1
        simp at hlen
      . have hlen := congrArg List.length (hgive (by omega)).1
        rw [hsplit] at hlen
        simp at hlen
  . rintro ⟨h0, hcase⟩ pre' e' post' hsplit' heq
    have hsame : e' = e := inj_on_of_nodup_map hinv.nodup (by simp [hsplit']) hmem heq
    subst hsame
    rw [if_pos h0, sendDataTimeout_eq hinv hsplit']
    by_cases hcnt : e'.retransCnt + 1 < s.link.devMaxRetrans
    . rw [if_neg (by omega)]
      exact ⟨rfl, fun _ => ⟨rfl, rfl, rfl⟩, fun h => absurd hcnt (by omega)⟩
    . have hhead := (hcase e' hmem rfl).resolve_left hcnt
      rw [if_pos (by omega)]
      have hnil : pre' = [] := by
        cases pre' with
        | nil => rfl
        | cons p pre' =>
          rw [hsplit'] at hhead
          obtain rfl : p = e' := by simpa using hhead
          exact absurd rfl ((hinv.unique hsplit').1 p (by simp))
      subst hnil
      refine ⟨rfl, fun h => absurd h hcnt, fun _ => ⟨rfl, rfl, ?_⟩⟩
      change s.reports ++ (eaNumbers [e'.expired false]).map (·, false) = _
      rw [@eaNumbers_congr e' (e'.expired false) rfl rfl]

theorem inv_timeout (hsplit : s.link.sentTxQ = pre ++ e :: post)
    (hok : Event.Ok s (.timeout e.seq)) : Inv param (step param s (.timeout e.seq)) := by
  obtain ⟨h0, hcase⟩ := hok
  rw [step_timeout hinv hsplit, if_pos h0, sendDataTimeout_eq hinv hsplit]
  by_cases hcnt : e.retransCnt + 1 < s.link.devMaxRetrans
  . rw [if_neg (by omega)]
    exact inv_resend hinv hsplit hcnt
  . rw [if_pos (by omega)]
    have hhead := (hcase e (by simp [hsplit]) rfl).resolve_left hcnt
    cases pre with
    | nil => exact inv_giveUp hinv hsplit
    | cons p pre =>
      rw [hsplit] at hhead
      obtain rfl : p = e := by simpa using hhead
      exact absurd rfl ((hinv.unique hsplit).1 p (by simp))

end

end

section

variable {param : Param} {s : Sys}

theorem inv_step (hinv : Inv param s) (hlegal : e.Legal s) (hok : e.Ok s) :
    Inv param (step param s e) := by
  cases e with
  | send sessionId fits alloc attempts => exact inv_send hinv sessionId fits alloc attempts
  | creditInfo attempts => exact inv_txData hinv
  | ack acked attempts => exact inv_txData (inv_rcvAcked hinv _)
  | reset acked attempts =>
    exact inv_reset (inv_rcvAcked hinv _) ((reset_ok hinv acked attempts).mpr hok) attempts
  | timeout seq =>
    obtain ⟨e, he, rfl, _⟩ := hlegal
    obtain ⟨pre, post, hsplit⟩ := append_of_mem he
    exact inv_timeout hinv hsplit hok

theorem step_iff (hinv : Inv param s) (hlegal : e.Legal s) :
    Window param (step param s e) ∧ StepOk param s e ↔ e.Ok s := by
  constructor
  . rintro ⟨hwindow, hstep⟩
    cases e with
    | send => trivial
    | creditInfo => trivial
    | ack => trivial
    | reset acked attempts =>
      have h := (window_reset (inv_rcvAcked hinv acked.toNat) attempts).mp hwindow
      exact (reset_ok hinv acked attempts).mp h
    | timeout seq =>
      obtain ⟨e, he, rfl, _⟩ := hlegal
      obtain ⟨pre, post, hsplit⟩ := append_of_mem he
      exact (timeout_iff hinv hsplit).mp hstep
  . intro hok
    refine ⟨(inv_step hinv hlegal hok).toWindow, ?_⟩
    cases e with
    | send sessionId fits alloc attempts => exact send_resent sessionId fits alloc attempts
    | creditInfo attempts => rfl
    | ack acked attempts =>
      exact ⟨ackOk_rcvAcked hinv acked.toNat attempts, (rcvAcked_resent acked.toNat hinv).1⟩
    | reset acked attempts =>
      exact (reset_resent attempts).trans (rcvAcked_resent acked.toNat hinv).1
    | timeout seq =>
      obtain ⟨e, he, rfl, _⟩ := hlegal
      obtain ⟨pre, post, hsplit⟩ := append_of_mem he
      exact (timeout_iff hinv hsplit).mpr hok

theorem inv_syncCmpl {index acc max : UInt8} : Inv param (syncCmpl param index acc max) where
  count := rfl
  consecutive := rfl
  once := by simp [syncCmpl]
  distinct := by simp [syncCmpl]
  acc := acc.toNat_lt
  index := index.toNat_lt
  max := max.toNat_lt
  fresh := by simp [syncCmpl]
  cnt := by simp [syncCmpl]
  cnt_used := by simp [syncCmpl]

theorem along_iff (hinv : Inv param s) (events : List Event)
    (hlegal : Run.Along (step param) (fun s e => e.Legal s) s events) :
    Run.Along (step param) (fun s e => Window param (step param s e) ∧ StepOk param s e) s events ↔
      Run.Along (step param) (fun s e => e.Ok s) s events := by
  induction events generalizing s with
  | nil => exact Iff.rfl
  | cons e es ih =>
    obtain ⟨hl, hlegal⟩ := hlegal
    rw [Run.along_cons, Run.along_cons, step_iff hinv hl]
    apply and_congr_right
    intro hok
    exact ih (inv_step hinv hl hok) hlegal

end

end Iap2
