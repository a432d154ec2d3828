import Earphone.Avdtp.Choice

namespace Avdtp

open List

inductive Event where
  | rsp (r : Rsp) (env : Env)
  | timeout

structure Walk where
  link : Link
  broken : Bool
  offered : List UInt8
  heard : List (Option Codec)

def Walk.note (w : Walk) (r : Rsp) : Walk :=
  if w.link.cmdFlag ≠ r.signalId then
    w
  else if r.signalId = avdtpDiscover then
    if r.msgType = avdtpMsgTypeRspAccept then
      { w with offered := offers w.link.connRole r.payload, heard := [] }
    else
      w
  else
    let codec := if r.msgType = avdtpMsgTypeRspAccept then heardIn r.payload else none
    { w with heard := w.heard ++ [codec] }

def step (localSepList : List LocalSep) (w : Walk) : Event → Walk
  | .rsp r env =>
    match avdtpRxRspProc localSepList env r w.link with
    | none => { w.note r with broken := true }
    | some link => { w.note r with link }
  | .timeout => if w.link.Waits then { w with link := avdtpToutCback w.link } else w

structure Start (w : Walk) : Prop where
  cmdFlag : w.link.cmdFlag = avdtpDiscover
  timer : w.link.timer = true
  requests : w.link.requests = []
  broken : w.broken = false
  offered : w.offered = []
  heard : w.heard = []

section

variable (localSepList : List LocalSep) (w : Walk) (r : Rsp) (env : Env)

def DiscoverMeets : Prop :=
  r.msgType = avdtpMsgTypeRspAccept ∧ r.payload.length < 2 * 2 ^ 8 ∧
    (offers w.link.connRole r.payload).length ≤ 10 ∧
    (offers w.link.connRole r.payload ≠ [] → env.heap.isSome = true ∧ env.buf = true)

def MoreMeets : Prop :=
  env.buf = true ∧ (r.msgType = avdtpMsgTypeRspAccept ∧ noted (items r.payload) ≤ 8 ∨
    r.msgType = avdtpMsgTypeRspReject)

def LastMeets : Prop :=
  r.msgType = avdtpMsgTypeRspAccept ∧ noted (items r.payload) ≤ 8 ∧
    (∀ codec ∈ w.heard ++ [heardIn r.payload], codec.isSome = true) ∧
    (w.link.sigState = .idle ∨ w.link.sigState = .sigOpen ∨
      NoneServed localSepList w.link.connRole (w.heard ++ [heardIn r.payload]))

def Meets : Event → Prop
  | .timeout => w.link.Waits → w.link.connected = true
  | .rsp r env => w.link.cmdFlag = r.signalId → w.link.requests = [] ∧
    if r.signalId = avdtpDiscover then DiscoverMeets w r env
    else if w.link.acpSeidIdx + 1 < w.link.acpSepNo then MoreMeets r env
    else LastMeets localSepList w r

structure Chosen (i : Nat) : Prop where
  lt : i < w.link.acpSepNo
  all : w.heard.length = w.offered.length
  seid : w.offered[i]? = some w.link.acpSeid
  best : Best localSepList w.link.connRole w.heard i

def Right : Request → Prop
  | .configure i => w.link.sigState = .idle ∧ Chosen localSepList w i
  | .reconfigure i => w.link.sigState = .sigOpen ∧ Chosen localSepList w i
  | .disconnect =>
    w.heard.length = w.offered.length → NoneServed localSepList w.link.connRole w.heard

structure Sound : Prop where
  inside : w.broken = false
  count : w.offered ≠ [] → w.link.acpSepNo = w.offered.length
  room : w.offered ≠ [] → ∃ array, w.link.avdtpSep = some array ∧
    remoteSepSize * w.link.acpSepNo ≤ array.size
  ends : w.link.requests = [] ∧ w.link.Waits ∧
      (w.link.cmdFlag ≠ avdtpDiscover → w.link.acpSeidIdx < w.link.acpSepNo) ∨
    ∃ request, w.link.requests = [request] ∧ Right localSepList w request

end

section

variable (localSepList : List LocalSep) (w : Walk)

structure Filled (array : SepArray) : Prop where
  table : w.link.avdtpSep = some array
  size : remoteSepSize * w.link.acpSepNo ≤ array.size
  sepId : ∀ (k : Nat) (id : UInt8), w.offered[k]? = some id → (array.sep k).sepId = id
  tells : Tells array w.heard

structure Asking : Prop where
  inside : w.broken = false
  requests : w.link.requests = []
  cmdFlag : w.link.cmdFlag = avdtpGetCpbs ∨ w.link.cmdFlag = avdtpGetAllCpbs
  timer : w.link.timer = true
  index : w.link.acpSeidIdx < w.link.acpSepNo
  count : w.link.acpSepNo = w.offered.length
  few : w.link.acpSepNo ≤ 10
  heard : w.heard.length = w.link.acpSeidIdx
  filled : ∃ array, Filled w array

structure Ended : Prop where
  inside : w.broken = false
  notWaits : ¬w.link.Waits
  count : w.offered ≠ [] → w.link.acpSepNo = w.offered.length
  room : w.offered ≠ [] → ∃ array, w.link.avdtpSep = some array ∧
    remoteSepSize * w.link.acpSepNo ≤ array.size
  ends : ∃ request, w.link.requests = [request] ∧ Right localSepList w request

inductive Phase : Prop where
  | start (h : Start w)
  | asking (h : Asking w)
  | ended (h : Ended localSepList w)

end

section

variable {localSepList : List LocalSep} {w : Walk} {link : Link} {array : SepArray} {env : Env}

theorem Phase.sound (h : Phase localSepList w) : Sound localSepList w := by
  cases h with
  | start h =>
    refine ⟨h.broken, fun hne => absurd h.offered hne, fun hne => absurd h.offered hne, .inl ?_⟩
    exact ⟨h.requests, ⟨.inl h.cmdFlag, h.timer⟩, fun hne => absurd h.cmdFlag hne⟩
  | asking h =>
    obtain ⟨array, hfilled⟩ := h.filled
    refine ⟨h.inside, fun _ => h.count, fun _ => ⟨array, hfilled.table, hfilled.size⟩, .inl ?_⟩
    exact ⟨h.requests, ⟨.inr h.cmdFlag, h.timer⟩, fun _ => h.index⟩
  | ended h => exact ⟨h.inside, h.count, h.room, .inr h.ends⟩

theorem SepArray.set_self (array : SepArray) (idx : Nat) (sep : RemoteSep) :
    (array.set idx sep).sep idx = sep :=
  if_pos rfl

theorem SepArray.set_of_ne (array : SepArray) (sep : RemoteSep) (h : k ≠ idx) :
    (array.set idx sep).sep k = array.sep k :=
  if_neg h

theorem setSepAt_of_le (harray : link.avdtpSep = some array)
    (h : remoteSepSize * (idx + 1) ≤ array.size) (sep : RemoteSep) :
    link.setSepAt idx sep = some { link with avdtpSep := some (array.set idx sep) } := by
  unfold Link.setSepAt
  rw [harray]
  exact if_pos h

theorem getCapabilityReq_spec (link : Link) (hbuf : env.buf = true)
    (hsep : link.sepAt link.acpSeidIdx = some sep) :
    ∃ cmdFlag sent txTransLabel, avdtpSignalGetCapabilityReq env link =
        some { link with cmdFlag, sent, txTransLabel, timer := true } ∧
      (cmdFlag = avdtpGetCpbs ∨ cmdFlag = avdtpGetAllCpbs) := by
  unfold avdtpSignalGetCapabilityReq
  rw [if_pos hbuf, hsep]
  refine ⟨_, _, _, rfl, ?_⟩
  split
  . exact .inr rfl
  . exact .inl rfl

theorem fillSeps_spec (rd : Nat → UInt8) (is : List Nat) (j : Nat) (link : Link)
    (array : SepArray) (harray : link.avdtpSep = some array)
    (hsize : remoteSepSize * link.acpSepNo ≤ array.size)
    (hcount : j + (is.filter (wanted rd link.connRole)).length = link.acpSepNo) :
    ∃ sep, fillSeps rd link is j = some { link with avdtpSep := some { array with sep } } ∧
      (∀ k < j, sep k = array.sep k) ∧
      ∀ (k : Nat) (id : UInt8), ((is.filter (wanted rd link.connRole)).map
        fun i => rd (2 + 2 * i) &&& 0xFC)[k]? = some id → (sep (j + k)).sepId = id := by
  induction is generalizing j link array with
  | nil =>
    refine ⟨array.sep, ?_, fun _ _ => rfl, fun k id h => nomatch h⟩
    rw [fillSeps, ← harray]
  | cons i is ih =>
    unfold fillSeps
    by_cases hwanted : wanted rd link.connRole i = true
    . rw [if_pos hwanted]
      rw [filter_cons_of_pos hwanted] at hcount ⊢
      simp only [length_cons, map_cons] at hcount ⊢
      have hle : remoteSepSize * (j + 1) ≤ array.size :=
        Nat.le_trans (Nat.mul_le_mul_left _ (by omega)) hsize
      rw [sepAt_of_le harray hle]
      simp only [setSepAt_of_le harray hle]
      by_cases hlast : link.acpSepNo ≤ j + 1
      . rw [if_pos hlast]
        refine ⟨_, rfl, fun k hk => if_neg (by omega), fun k id hid => ?_⟩
        have hnil : is.filter (wanted rd link.connRole) = [] := length_eq_zero_iff.mp (by omega)
        rw [hnil] at hid
        cases k with
        | zero =>
          cases hid
          rw [Nat.add_zero, if_pos rfl]
        | succ k => cases hid
      . rw [if_neg hlast]
        have hrest : j + 1 + (is.filter (wanted rd link.connRole)).length = link.acpSepNo := by
          omega
        let array' := array.set j { array.sep j with sepId := rd (2 + 2 * i) &&& 0xFC }
        obtain ⟨sep, hfill, hbefore, hid⟩ := ih (j + 1) { link with avdtpSep := some array' } array'
          rfl hsize hrest
        refine ⟨sep, hfill, fun k hk => ?_, fun k id h => ?_⟩
        . rw [hbefore k (by omega), SepArray.set_of_ne _ _ (by omega)]
        . cases k with
          | zero =>
            cases h
            rw [Nat.add_zero, hbefore j (by omega), SepArray.set_self]
          | succ k =>
            rw [← Nat.add_assoc, Nat.add_right_comm]
            exact hid k id h
    . rw [if_neg hwanted]
      rw [filter_cons_of_neg hwanted] at hcount ⊢
      exact ih j link array harray hsize hcount

theorem discoverAccept_spec (link : Link) (r : Rsp) (hlen : r.payload.length < 2 * 2 ^ 8)
    (hfew : (offers link.connRole r.payload).length ≤ 10)
    (henv : offers link.connRole r.payload ≠ [] → env.heap.isSome = true ∧ env.buf = true) :
    (offers link.connRole r.payload = [] ∧ discoverAccept (r.read env.past) env r.pktLen link =
        some (avdtpSignalDisconnectReq { link with acpSepNo := 0 })) ∨
    (offers link.connRole r.payload ≠ [] ∧ ∃ acpSepNo array cmdFlag sent txTransLabel,
      discoverAccept (r.read env.past) env r.pktLen link = some { link with
        acpSepNo, cmdFlag, sent, txTransLabel,
        avdtpSep := some array, acpSeidIdx := 0, timer := true } ∧
      acpSepNo = (offers link.connRole r.payload).length ∧
      (cmdFlag = avdtpGetCpbs ∨ cmdFlag = avdtpGetAllCpbs) ∧
      remoteSepSize * acpSepNo ≤ array.size ∧
      ∀ (k : Nat) (id : UInt8), (offers link.connRole r.payload)[k]? = some id →
        (array.sep k).sepId = id) := by
  have hpicked : ((List.range (r.payload.length / 2)).filter
      (wanted (r.read env.past) link.connRole)).map
        (fun i => r.read env.past (2 + 2 * i) &&& 0xFC) = offers link.connRole r.payload :=
    picked_eq_offers 2 r.payload (read_payload r env.past)
  have hlength : ((List.range (r.payload.length / 2)).filter
      (wanted (r.read env.past) link.connRole)).length =
        (offers link.connRole r.payload).length := by
    rw [← hpicked, length_map]
  have htemp : (r.pktLen - 2) / 2 % 2 ^ 8 = r.payload.length / 2 := by
    rw [Rsp.pktLen, Nat.add_sub_cancel]
    omega
  have hcount : (if 4 ≤ r.pktLen then
      (List.range (r.payload.length / 2)).countP (wanted (r.read env.past) link.connRole) else 0) =
      (offers link.connRole r.payload).length := by
    rw [countP_eq_length_filter, hlength]
    split
    . rfl
    . next hshort =>
      have hzero : r.payload.length / 2 = 0 := by
        rw [Rsp.pktLen] at hshort
        omega
      rw [← hlength, hzero]
      rfl
  unfold discoverAccept
  simp only [htemp, hcount]
  by_cases hnil : offers link.connRole r.payload = []
  . refine .inl ⟨hnil, ?_⟩
    rw [hnil, length_nil, if_neg (fun h => h rfl)]
  . refine .inr ⟨hnil, ?_⟩
    obtain ⟨hheap, hbuf⟩ := henv hnil
    obtain ⟨heap, hheap⟩ := Option.isSome_iff_exists.mp hheap
    have hpos : (offers link.connRole r.payload).length ≠ 0 :=
      fun h => hnil (length_eq_zero_iff.mp h)
    rw [if_pos hpos, hheap]
    -- 250 octets for ten endpoints are the most that `temp` can hold
    have hsize : remoteSepSize * (offers link.connRole r.payload).length ≤
        (offers link.connRole r.payload).length * remoteSepSize % 2 ^ 8 := by
      unfold remoteSepSize
      omega
    obtain ⟨sep, hfill, -, hid⟩ := fillSeps_spec (r.read env.past)
      (List.range (r.payload.length / 2)) 0
      { link with
        acpSepNo := (offers link.connRole r.payload).length
        avdtpSep := some
          { size := (offers link.connRole r.payload).length * remoteSepSize % 2 ^ 8, sep := heap } }
      _ rfl hsize (by rw [Nat.zero_add]; exact hlength)
    simp only [hfill]
    let filled : Link := { link with
      acpSepNo := (offers link.connRole r.payload).length
      avdtpSep := some
        { size := (offers link.connRole r.payload).length * remoteSepSize % 2 ^ 8, sep }
      acpSeidIdx := 0 }
    have hfirst : filled.sepAt filled.acpSeidIdx = some (sep 0) :=
      @sepAt_of_le filled _ rfl 0
        (Nat.le_trans (Nat.mul_le_mul_left _ (Nat.pos_of_ne_zero hpos)) hsize)
    obtain ⟨cmdFlag, sent, txTransLabel, hreq, hflag⟩ := getCapabilityReq_spec filled hbuf hfirst
    refine ⟨_, _, cmdFlag, sent, txTransLabel, hreq, rfl, hflag, hsize, fun k id hk => ?_⟩
    rw [← hpicked] at hk
    simpa only [Nat.zero_add] using hid k id hk

theorem capabilities_spec (localSepList : List LocalSep) (env : Env) (link : Link) (r : Rsp)
    (hnoted : noted (items r.payload) ≤ 8) (harray : link.avdtpSep = some array)
    (hle : remoteSepSize * (link.acpSeidIdx + 1) ≤ array.size) :
    ∃ sep, sep.sepId = (array.sep link.acpSeidIdx).sepId ∧
      (∀ codec, heardIn r.payload = some codec → sep.Tells codec) ∧
      getCpbsAccept localSepList env (r.read env.past) r.pktLen link =
        let link := { link with
          avdtpSep := some (array.set link.acpSeidIdx sep)
          acpSeidIdx := (link.acpSeidIdx + 1) % 2 ^ 8 }
        if link.acpSeidIdx = link.acpSepNo then configureSelected localSepList env link
        else avdtpSignalGetCapabilityReq env link := by
  unfold getCpbsAccept
  rw [sepAt_of_le harray hle]
  obtain ⟨sep, hparse, hid, htells⟩ := avdtpRemoteCapabilityParse_spec
    (array.sep link.acpSeidIdx) r env.past hnoted
  refine ⟨sep, hid, htells, ?_⟩
  simp only [hparse, setSepAt_of_le harray hle]

theorem Filled.heard (h : Filled w array) (hheard : w.heard.length = w.link.acpSeidIdx)
    (hid : sep.sepId = (array.sep w.link.acpSeidIdx).sepId)
    (htells : ∀ c, codec = some c → sep.Tells c) :
    (∀ (k : Nat) (id : UInt8), w.offered[k]? = some id →
      ((array.set w.link.acpSeidIdx sep).sep k).sepId = id) ∧
    Tells (array.set w.link.acpSeidIdx sep) (w.heard ++ [codec]) := by
  refine ⟨fun k id hk => ?_, fun k c hk => ?_⟩
  -- the entry of the answer has kept its `sep_id`, the others are as before
  . by_cases heq : k = w.link.acpSeidIdx
    . rw [heq, SepArray.set_self, hid]
      exact h.sepId _ id (heq ▸ hk)
    . rw [SepArray.set_of_ne _ _ heq]
      exact h.sepId k id hk
  . by_cases hlt : k < w.heard.length
    . rw [getElem?_append_left hlt] at hk
      rw [SepArray.set_of_ne _ _ (by omega)]
      exact h.tells k c hk
    . rw [List.getElem?_append_right (by omega)] at hk
      have heq : k = w.link.acpSeidIdx := by
        have := (List.getElem?_eq_some_iff.mp hk).1
        simp only [List.length_singleton] at this
        omega
      rw [heq, SepArray.set_self]
      rw [heq, hheard, Nat.sub_self] at hk
      exact htells c (Option.some.inj hk)

theorem Tells.concat_none (h : Tells array heard) : Tells array (heard ++ [none]) := by
  intro k codec hk
  by_cases hlt : k < heard.length
  . rw [getElem?_append_left hlt] at hk
    exact h k codec hk
  . rw [List.getElem?_append_right (Nat.not_lt.mp hlt)] at hk
    obtain ⟨hone, hget⟩ := List.getElem?_eq_some_iff.mp hk
    simp at hget

theorem not_waits_of_cmdFlag (h : cmdFlag = 0 ∨ cmdFlag = avdtpSetCfg ∨
    cmdFlag = avdtpRecfg) (hlink : link.cmdFlag = cmdFlag) : ¬link.Waits := by
  rintro ⟨hflag, -⟩
  rw [hlink] at hflag
  obtain rfl | rfl | rfl := h <;> exact absurd hflag (by decide)

theorem cfgReq_spec (env : Env) (request : Request) (signalId : UInt8) (link : Link) :
    ∃ cmdFlag timer, cfgReq env request signalId link =
        { link with requests := link.requests ++ [request], cmdFlag, timer } ∧
      (cmdFlag = link.cmdFlag ∨ cmdFlag = signalId) := by
  unfold cfgReq
  by_cases hsent : env.cfgSent = true
  . exact ⟨signalId, true, if_pos hsent, .inr rfl⟩
  . exact ⟨link.cmdFlag, link.timer, if_neg hsent, .inl rfl⟩

theorem configureSelected_ended (hinside : w.broken = false) (hrequests : w.link.requests = [])
    (hflag : w.link.cmdFlag = 0) (hcount : w.link.acpSepNo = w.offered.length)
    (hlength : w.heard.length = w.link.acpSepNo) (hfilled : Filled w array)
    (hheard : ∀ codec ∈ w.heard, codec.isSome = true)
    (hstate : w.link.sigState = .idle ∨ w.link.sigState = .sigOpen ∨
      NoneServed localSepList w.link.connRole w.heard) :
    ∃ link, configureSelected localSepList env w.link = some link ∧
      Ended localSepList { w with link } := by
  obtain ⟨i, hselect, hfound⟩ := @select_found localSepList _ _ hfilled.table hfilled.size
  unfold configureSelected
  rw [hselect]
  have hroom : ∃ array, w.link.avdtpSep = some array ∧
      remoteSepSize * w.link.acpSepNo ≤ array.size := ⟨array, hfilled.table, hfilled.size⟩
  by_cases hlt : i < w.link.acpSepNo
  -- the table tells what was heard, so the entry the search stopped at is the best one
  . have hbest := best_of_found hfilled.tells hlength hheard hfound hlt
    have hsep := sepAt_of_le hfilled.table
      (Nat.le_trans (Nat.mul_le_mul_left remoteSepSize hlt) hfilled.size)
    have hseid : w.offered[i]? = some (array.sep i).sepId := by
      have hget := getElem?_eq_getElem (hcount ▸ hlt)
      rw [hget, hfilled.sepId i _ hget]
    simp only [if_pos hlt, hsep]
    obtain hidle | hopen | hnone := hstate
    . obtain ⟨cmdFlag, timer, hcfg, hcmd⟩ := cfgReq_spec env (.configure i) avdtpSetCfg
        { w.link with acpSeidIdx := i, acpSeid := (array.sep i).sepId }
      rw [if_pos hidle, avdtpSignalCfgReq, hcfg]
      refine ⟨_, rfl, hinside, ?_, fun _ => hcount, fun _ => hroom, .configure i, ?_, hidle, ?_⟩
      . exact not_waits_of_cmdFlag (hcmd.imp (·.trans hflag) .inl) rfl
      . exact congrArg (· ++ [_]) hrequests
      . exact ⟨hlt, hlength.trans hcount, hseid, hbest⟩
    . obtain ⟨cmdFlag, timer, hcfg, hcmd⟩ := cfgReq_spec env (.reconfigure i) avdtpRecfg
        { w.link with acpSeidIdx := i, acpSeid := (array.sep i).sepId }
      rw [if_neg (by rw [hopen]; decide), if_pos hopen, avdtpSignalRecfgReq, hcfg]
      refine ⟨_, rfl, hinside, ?_, fun _ => hcount, fun _ => hroom, .reconfigure i, ?_, hopen, ?_⟩
      . exact not_waits_of_cmdFlag (hcmd.imp (·.trans hflag) .inr) rfl
      . exact congrArg (· ++ [_]) hrequests
      . exact ⟨hlt, hlength.trans hcount, hseid, hbest⟩
    -- in another state no endpoint may be served, but the search has found one
    . obtain ⟨codec, hget, hserved, -⟩ := hbest
      exact absurd hserved (hnone i codec hget)
  . simp only [if_neg hlt]
    refine ⟨_, rfl, hinside, not_waits_of_cmdFlag (.inl rfl) hflag, fun _ => hcount,
      fun _ => hroom, .disconnect, congrArg (· ++ [_]) hrequests, fun _ => ?_⟩
    exact noneServed_of_found hfilled.tells hlength hfound hlt

theorem step_rsp (r : Rsp) (h : avdtpRxRspProc localSepList env r w.link = some link) :
    step localSepList w (.rsp r env) = { w.note r with link } := by
  simp only [step, h]

theorem start_rsp (h : Start w) (r : Rsp) (heq : w.link.cmdFlag = r.signalId)
    (hmeets : DiscoverMeets w r env) : Phase localSepList (step localSepList w (.rsp r env)) := by
  obtain ⟨haccept, hlen, hfew, henv⟩ := hmeets
  have hdiscover : r.signalId = avdtpDiscover := heq.symm.trans h.cmdFlag
  have hnote : w.note r =
      { w with offered := offers w.link.connRole r.payload, heard := [] } := by
    unfold Walk.note
    rw [if_neg (not_not_intro heq), if_pos hdiscover, if_pos haccept]
  have hrx : avdtpRxRspProc localSepList env r w.link = discoverAccept (r.read env.past) env
      r.pktLen { w.link with cmdFlag := 0, timer := false } := by
    unfold avdtpRxRspProc
    simp only [if_neg (not_not_intro heq), if_pos haccept, if_pos hdiscover]
  obtain ⟨hnil, hresult⟩ | ⟨hsome, acpSepNo, array, cmdFlag, sent, txTransLabel, hresult, hcount,
    hflag, hsize, hid⟩ := discoverAccept_spec
      { w.link with cmdFlag := 0, timer := false } r hlen hfew henv
  . rw [step_rsp r (hrx.trans hresult), hnote]
    refine .ended ⟨h.broken, not_waits_of_cmdFlag (.inl rfl) rfl, fun hne => absurd hnil hne,
      fun hne => absurd hnil hne, .disconnect, ?_, fun _ k codec hk => nomatch hk⟩
    exact congrArg (· ++ [_]) h.requests
  . rw [step_rsp r (hrx.trans hresult), hnote]
    have hpos : 0 < acpSepNo := hcount ▸ length_pos_iff.mpr hsome
    exact .asking ⟨h.broken, h.requests, hflag, rfl, hpos, hcount, hcount ▸ hfew, rfl, array,
      rfl, hsize, hid, fun k codec hk => nomatch hk⟩

section

variable (h : Asking w) (r : Rsp) (heq : w.link.cmdFlag = r.signalId)

include h heq

theorem Asking.signalId_ne : r.signalId ≠ avdtpDiscover := by
  rw [← heq]
  obtain hflag | hflag := h.cmdFlag <;> rw [hflag] <;> decide

theorem Asking.note (codec : Option Codec)
    (hcodec : (if r.msgType = avdtpMsgTypeRspAccept then heardIn r.payload else none) = codec) :
    w.note r = { w with heard := w.heard ++ [codec] } := by
  unfold Walk.note
  rw [if_neg (not_not_intro heq), if_neg (h.signalId_ne r heq)]
  simp only [hcodec]

theorem Asking.rx_accept (haccept : r.msgType = avdtpMsgTypeRspAccept) :
    avdtpRxRspProc localSepList env r w.link = getCpbsAccept localSepList env (r.read env.past)
      r.pktLen { w.link with cmdFlag := 0, timer := false } := by
  unfold avdtpRxRspProc
  simp only [if_neg (not_not_intro heq), if_pos haccept, if_neg (h.signalId_ne r heq)]

theorem Asking.rx_reject (hreject : r.msgType = avdtpMsgTypeRspReject) :
    avdtpRxRspProc localSepList env r w.link =
      getCpbsReject env { w.link with cmdFlag := 0, timer := false } := by
  have hne : r.msgType ≠ avdtpMsgTypeRspAccept := by
    rw [hreject]
    decide
  unfold avdtpRxRspProc
  simp only [if_neg (not_not_intro heq), if_neg hne, if_pos hreject, if_neg (h.signalId_ne r heq)]

omit r heq in
theorem Asking.next_idx : (w.link.acpSeidIdx + 1) % 2 ^ 8 = w.link.acpSeidIdx + 1 := by
  have := h.few
  have := h.index
  omega

omit heq in
theorem Asking.next (array : SepArray) (hmore : w.link.acpSeidIdx + 1 < w.link.acpSepNo)
    (hbuf : env.buf = true) {codec : Option Codec}
    (hnote : w.note r = { w with heard := w.heard ++ [codec] })
    (hfilled : Filled { w with
      heard := w.heard ++ [codec], link := { w.link with avdtpSep := some array } } array)
    (hrx : avdtpRxRspProc localSepList env r w.link = avdtpSignalGetCapabilityReq env { w.link with
      cmdFlag := 0
      timer := false
      avdtpSep := some array
      acpSeidIdx := w.link.acpSeidIdx + 1 }) :
    Asking (step localSepList w (.rsp r env)) := by
  let asked : Link := { w.link with
    cmdFlag := 0
    timer := false
    avdtpSep := some array
    acpSeidIdx := w.link.acpSeidIdx + 1 }
  have hsep : asked.sepAt asked.acpSeidIdx = some (array.sep (w.link.acpSeidIdx + 1)) :=
    @sepAt_of_le asked _ rfl _
      (Nat.le_trans (Nat.mul_le_mul_left remoteSepSize hmore) hfilled.size)
  obtain ⟨cmdFlag, sent, txTransLabel, hreq, hflag⟩ := getCapabilityReq_spec asked hbuf hsep
  rw [step_rsp r (hrx.trans hreq), hnote]
  exact ⟨h.inside, h.requests, hflag, rfl, hmore, h.count, h.few, by simp [h.heard, asked], array,
    rfl, hfilled.size, hfilled.sepId, hfilled.tells⟩

theorem Asking.more (hmore : w.link.acpSeidIdx + 1 < w.link.acpSepNo) (hmeets : MoreMeets r env) :
    Asking (step localSepList w (.rsp r env)) := by
  obtain ⟨array, hfilled⟩ := h.filled
  -- a rejection leaves the entry as it is, and nothing was heard of its endpoint
  obtain ⟨hbuf, ⟨haccept, hnoted⟩ | hreject⟩ := hmeets
  . have hnote := h.note r heq _ (if_pos haccept)
    have hle : remoteSepSize * (w.link.acpSeidIdx + 1) ≤ array.size :=
      Nat.le_trans (Nat.mul_le_mul_left _ h.index) hfilled.size
    obtain ⟨sep, hid, htells, hresult⟩ := capabilities_spec localSepList env
      { w.link with cmdFlag := 0, timer := false } r hnoted hfilled.table hle
    obtain ⟨hids, htells⟩ := hfilled.heard h.heard hid htells
    simp only [h.next_idx, if_neg (Nat.ne_of_lt hmore)] at hresult
    exact h.next r (array.set w.link.acpSeidIdx sep) hmore hbuf hnote
      ⟨rfl, hfilled.size, hids, htells⟩ ((h.rx_accept r heq haccept).trans hresult)
  . have hne : r.msgType ≠ avdtpMsgTypeRspAccept := by
      rw [hreject]
      decide
    have hnote := h.note r heq _ (if_neg hne)
    refine h.next r array hmore hbuf hnote
      ⟨rfl, hfilled.size, hfilled.sepId, hfilled.tells.concat_none⟩
      ((h.rx_reject r heq hreject).trans ?_)
    unfold getCpbsReject
    simp only [h.next_idx, if_pos hmore, hfilled.table]

theorem Asking.last (hlast : ¬w.link.acpSeidIdx + 1 < w.link.acpSepNo)
    (hmeets : LastMeets localSepList w r) :
    Ended localSepList (step localSepList w (.rsp r env)) := by
  obtain ⟨array, hfilled⟩ := h.filled
  obtain ⟨haccept, hnoted, hheard, hstate⟩ := hmeets
  have hindex := h.index
  have hidx : w.link.acpSeidIdx + 1 = w.link.acpSepNo := by omega
  have hnote := h.note r heq _ (if_pos haccept)
  obtain ⟨sep, hid, htells, hresult⟩ := capabilities_spec localSepList env
    { w.link with cmdFlag := 0, timer := false } r hnoted hfilled.table
    (Nat.le_trans (Nat.mul_le_mul_left remoteSepSize hindex) hfilled.size)
  obtain ⟨hids, htells⟩ := hfilled.heard h.heard hid htells
  have hnext : (w.link.acpSeidIdx + 1) % 2 ^ 8 = w.link.acpSepNo := h.next_idx.trans hidx
  simp only [hnext, if_pos] at hresult
  -- the walk before the selection, which looks at the table only
  let answered : Walk := { w with
    heard := w.heard ++ [heardIn r.payload]
    link := { w.link with
      cmdFlag := 0
      timer := false
      avdtpSep := some (array.set w.link.acpSeidIdx sep)
      acpSeidIdx := w.link.acpSepNo } }
  have hlength : answered.heard.length = w.link.acpSepNo := by
    rw [length_append, h.heard]
    exact hidx
  obtain ⟨link, hlink, hended⟩ := @configureSelected_ended localSepList answered _ env h.inside
    h.requests rfl h.count hlength ⟨rfl, hfilled.size, hids, htells⟩ hheard hstate
  rw [step_rsp r ((h.rx_accept r heq haccept).trans (hresult.trans hlink)), hnote]
  exact hended

end

theorem timeout_ended (h : Phase localSepList w) (hwaits : w.link.Waits)
    (hconnected : w.link.connected = true) :
    Ended localSepList { w with link := avdtpToutCback w.link } := by
  have hlink : avdtpToutCback w.link =
      { w.link with timer := false, requests := w.link.requests ++ [.disconnect] } := by
    unfold avdtpToutCback
    exact if_pos hconnected
  rw [hlink]
  have hnot : ¬({ w.link with
      timer := false, requests := w.link.requests ++ [.disconnect] } : Link).Waits :=
    fun hw => nomatch hw.2
  cases h with
  | start h =>
    refine ⟨h.broken, hnot, fun hne => absurd h.offered hne, fun hne => absurd h.offered hne,
      .disconnect, congrArg (· ++ [_]) h.requests, fun _ k codec hk => ?_⟩
    simp [h.heard] at hk
  | asking h =>
    obtain ⟨array, hfilled⟩ := h.filled
    refine ⟨h.inside, hnot, fun _ => h.count, fun _ => ⟨array, hfilled.table, hfilled.size⟩,
      .disconnect, congrArg (· ++ [_]) h.requests, fun hall => ?_⟩
    have := h.heard
    have := h.index
    have := h.count
    simp only at hall
    omega
  | ended h => exact absurd hwaits h.notWaits

theorem step_phase (w : Walk) (event : Event) (h : Phase localSepList w)
    (hmeets : Meets localSepList w event) : Phase localSepList (step localSepList w event) := by
  cases event with
  | timeout =>
    unfold step
    by_cases hwaits : w.link.Waits
    . rw [if_pos hwaits]
      exact .ended (timeout_ended h hwaits (hmeets hwaits))
    . rwa [if_neg hwaits]
  | rsp r env =>
    by_cases heq : w.link.cmdFlag = r.signalId
    . obtain ⟨hrequests, hmeets⟩ := hmeets heq
      cases h with
      | start h =>
        rw [if_pos (heq.symm.trans h.cmdFlag)] at hmeets
        exact start_rsp h r heq hmeets
      | asking h =>
        rw [if_neg (h.signalId_ne r heq)] at hmeets
        split at hmeets
        . next hmore => exact .asking (h.more r heq hmore hmeets)
        . next hlast => exact .ended (h.last r heq hlast hmeets)
      -- the condition asks for a walk without a request, the end has made one
      | ended h =>
        obtain ⟨request, hone, -⟩ := h.ends
        rw [hrequests] at hone
        cases hone
    -- an answer to a command that is not outstanding changes nothing
    . have hsame : step localSepList w (.rsp r env) = w := by
        unfold step avdtpRxRspProc Walk.note
        simp only [if_pos heq]
      rwa [hsame]

end

def sbcSource : LocalSep where
  subCodecType := codecTypeSbc
  tsep := avdtpTsepSrc
  mediaCodecInfo := []

def discovering : Walk where
  link := {
    avdtpVer := avdtpVersionV13
    connRole := avdtpTsepSnk
    connected := true
    timer := true
    avdtpSep := none
    sigState := .idle
    intFlag := 0
    acpSeidIdx := 0
    acpSeid := 0
    txTransLabel := 0
    acpSepNo := 0
    cmdFlag := avdtpDiscover
    sent := []
    requests := [] }
  broken := false
  offered := []
  heard := []

def ready : Env where
  heap := some fun _ => ⟨0, 0, 0, 0, 0, [], []⟩
  buf := true
  past _ := 0
  cfgSent := true

def oneSink : Rsp where
  trans := 0x02
  signal := 0x01
  payload := [0x04, 0x08]
  length_lt := by decide
  ofWalk := by decide

def sbcCapability : Rsp where
  trans := 0x02
  signal := 0x0C
  payload := [0x01, 0x00, 0x07, 0x06, 0x00, 0x00, 0xff, 0xff, 0x02, 0x35]
  length_lt := by decide
  ofWalk := by decide

def rejection : Rsp where
  trans := 0x03
  signal := 0x0C
  payload := [0x12]
  length_lt := by decide
  ofWalk := by decide

theorem start_discovering : Start discovering where
  cmdFlag := rfl
  timer := rfl
  requests := rfl
  broken := rfl
  offered := rfl
  heard := rfl

theorem oneSink_meets : Meets [sbcSource] discovering (.rsp oneSink ready) := by
  refine fun _ => ⟨rfl, ?_⟩
  rw [if_pos (by decide)]
  exact ⟨by decide, by decide, by decide, fun _ => ⟨rfl, rfl⟩⟩

theorem items_sbcCapability : items sbcCapability.payload =
    [⟨0x01, []⟩, ⟨0x07, [0x00, 0x00, 0xff, 0xff, 0x02, 0x35]⟩] := by
  simp [sbcCapability, items]

theorem sbcCapability_meets :
    Meets [sbcSource] (step [sbcSource] discovering (.rsp oneSink ready))
      (.rsp sbcCapability ready) := by
  refine fun _ => ⟨rfl, ?_⟩
  rw [if_neg (by decide), if_neg (by decide)]
  refine ⟨by decide, ?_, ?_, .inl rfl⟩
  . rw [items_sbcCapability]
    decide
  . rw [heardIn, items_sbcCapability]
    decide

end Avdtp
