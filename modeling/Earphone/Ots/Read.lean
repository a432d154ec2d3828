import Earphone.Lib.Run
import Mathlib.Data.List.Range

/-!
This module contains the transfer of an object that a client reads.
-/

namespace Ots

open List

def u32 (n : Nat) : Nat := n % 2 ^ 32

inductive LockState where
  | idle
  | read
  | writePatch
  | writeAppend
  deriving DecidableEq

inductive ResCode where
  | success
  | opcodeNotSup
  | invParam
  | insfResc
  | invObj
  | chanUnav
  | proceNotPerm
  | objLockd
  | operFail
  deriving DecidableEq

structure ObjectCb where
  objSize : Nat
  objProps : Nat
  listing : Option Nat
  wrLen : Nat
  wrOffset : Nat
  objLockState : LockState

structure Chunk where
  offset : Nat
  len : Nat

structure Client where
  oacpFeature : Nat
  excluded : Bool
  cid : Nat
  mtu : Nat
  obj : ObjectCb
  sent : List Chunk
  inFlight : Nat
  rsps : List ResCode

structure Answers where
  allocated : Bool
  sendOk : Bool

def le32 (params : List UInt8) (at_ : Nat) : Nat :=
  (params.getD at_ 0).toNat + 2 ^ 8 * (params.getD (at_ + 1) 0).toNat +
    2 ^ 16 * (params.getD (at_ + 2) 0).toNat + 2 ^ 24 * (params.getD (at_ + 3) 0).toNat

def readFeature : Nat := 4

def abortFeature : Nat := 9

def propRead : Nat := 2

def sendRsp (code : ResCode) (cl : Client) : Client := { cl with rsps := cl.rsps ++ [code] }

def sendChunk (offset len : Nat) (cl : Client) : Client :=
  { cl with sent := cl.sent ++ [{ offset, len }], inFlight := cl.inFlight + 1 }

def transferLen (len mtu : Nat) : Nat := if mtu < len then mtu else len

def startRead (answers : Answers) (offset length : Nat) (cl : Client) : Client :=
  if length = 0 then
    cl
  else if answers.sendOk then
    let len := transferLen length cl.mtu
    let cl := sendChunk offset len cl
    { cl with obj := { cl.obj with
        wrLen := length - len
        wrOffset := offset + len
        objLockState := .read } }
  else
    cl

def generateListing (obj : ObjectCb) : ObjectCb :=
  match obj.listing with
  | none => obj
  | some size => { obj with objSize := size }

def acceptRead (answers : Answers) (offset length : Nat) (cl : Client) : Client :=
  if cl.obj.listing.isSome && !answers.allocated then
    sendRsp .insfResc { cl with obj := generateListing cl.obj }
  else
    startRead answers offset length
      (sendRsp .success { cl with obj := generateListing cl.obj })

def oacpRead (answers : Answers) (params : List UInt8) (cl : Client) : Client :=
  if params.length ≠ 8 then
    sendRsp .invParam cl
  else
    let offset := le32 params 0
    let length := le32 params 4
    if cl.obj.objProps.testBit propRead = false then
      sendRsp .proceNotPerm cl
    else if cl.cid = 0 then
      sendRsp .chanUnav cl
    else if cl.obj.objSize < offset ∨ cl.obj.objSize < u32 (length + offset) then
      sendRsp .invParam cl
    else
      acceptRead answers offset length cl

def handleRead (answers : Answers) (params : List UInt8) (cl : Client) : Client :=
  if cl.oacpFeature.testBit readFeature = false then
    sendRsp .opcodeNotSup cl
  else if cl.excluded then
    sendRsp .invObj cl
  else if cl.obj.objLockState ≠ .idle then
    sendRsp .objLockd cl
  else
    oacpRead answers params cl

def handleAbort (cl : Client) : Client :=
  if cl.oacpFeature.testBit abortFeature = false then
    sendRsp .opcodeNotSup cl
  else if cl.excluded then
    sendRsp .invObj cl
  else if cl.obj.objLockState ≠ .read then
    sendRsp .operFail cl
  else
    sendRsp .success { cl with obj := { cl.obj with wrLen := 0 } }

def reqEnd (cl : Client) : Client :=
  { cl with obj := { cl.obj with wrLen := 0, wrOffset := 0, objLockState := .idle } }

def startHandleNextOacpReadReq (sendOk : Bool) (cl : Client) : Client :=
  if cl.obj.wrLen ≠ 0 ∧ sendOk then
    let len := transferLen cl.obj.wrLen cl.mtu
    let cl := sendChunk cl.obj.wrOffset len cl
    reqEnd { cl with obj := { cl.obj with
      wrLen := cl.obj.wrLen - len
      wrOffset := cl.obj.wrOffset + len } }
  else
    reqEnd cl

def handleOacpReadRequestCmplt (sendOk : Bool) (cause credit : Nat) (cl : Client) : Client :=
  if cause ≠ 0 ∨ credit = 0 then cl else startHandleNextOacpReadReq sendOk cl

inductive Event where
  | complete (sendOk : Bool) (cause credit : Nat)
  | abort

def step (cl : Client) : Event → Client
  | .complete sendOk cause credit =>
    if cl.inFlight = 0 then
      cl
    else
      handleOacpReadRequestCmplt sendOk cause credit { cl with inFlight := cl.inFlight - 1 }
  | .abort => handleAbort cl

def completed (credit : Nat) : Event := .complete true 0 credit

def handed (cl : Client) : List Nat := cl.sent.flatMap fun c => List.range' c.offset c.len

structure Ready (cl : Client) : Prop where
  feature : cl.oacpFeature.testBit readFeature = true
  included : cl.excluded = false
  idle : cl.obj.objLockState = .idle
  readable : cl.obj.objProps.testBit propRead = true
  channel : cl.cid ≠ 0
  mtu : 1 ≤ cl.mtu
  size : cl.obj.objSize < 2 ^ 32
  fresh : cl.sent = [] ∧ cl.inFlight = 0

structure Progress (offset length : Nat) (cl : Client) : Prop where
  inOrder : handed cl <+: List.range' offset length
  inside : ∀ place ∈ handed cl, place < cl.obj.objSize
  locked : handed cl ≠ List.range' offset length → cl.obj.objLockState = .read
  complete : cl.inFlight = 0 → handed cl = List.range' offset length ∧ cl.obj.objLockState = .idle

def Rejected (before after : Client) : Prop :=
  after.sent = before.sent ∧ after.rsps = before.rsps ++ [.invParam]

structure Delivers (cl : Client) (params : List UInt8) (credits : List Nat) : Prop where
  rejects : cl.obj.objSize < le32 params 0 + le32 params 4 →
    Rejected cl (handleRead ⟨true, true⟩ params cl)
  transfers : le32 params 0 + le32 params 4 ≤ cl.obj.objSize →
    ∀ before, before <+: credits →
      Progress (le32 params 0) (le32 params 4)
        (Run.exec step (handleRead ⟨true, true⟩ params cl) (before.map completed))

def ReadFits (cl : Client) (offset length : Nat) (credits : List Nat) : Prop :=
  if cl.obj.objSize < offset + length then
    cl.obj.objSize < offset ∨ offset + length < 2 ^ 32
  else
    length = 0 ∨
      match credits with
      | [] => offset + transferLen length cl.mtu ≤ (generateListing cl.obj).objSize
      | credit :: _ =>
        length ≤ 2 * cl.mtu ∧ credit ≠ 0 ∧ offset + length ≤ (generateListing cl.obj).objSize

section

variable {cl : Client} {params : List UInt8} {offset length : Nat}

theorem le32_lt (params : List UInt8) (at_ : Nat) : le32 params at_ < 2 ^ 32 := by
  have h0 := (params.getD at_ 0).toNat_lt
  have h1 := (params.getD (at_ + 1) 0).toNat_lt
  have h2 := (params.getD (at_ + 2) 0).toNat_lt
  have h3 := (params.getD (at_ + 3) 0).toNat_lt
  unfold le32
  omega

theorem handleRead_eq (h : Ready cl) (hlen : params.length = 8) :
    handleRead ⟨true, true⟩ params cl =
      if cl.obj.objSize < le32 params 0 ∨ cl.obj.objSize < u32 (le32 params 4 + le32 params 0) then
        sendRsp .invParam cl
      else
        startRead ⟨true, true⟩ (le32 params 0) (le32 params 4)
          (sendRsp .success { cl with obj := generateListing cl.obj }) := by
  simp [handleRead, oacpRead, acceptRead, h.feature, h.included, h.idle, h.readable, h.channel, hlen]

theorem rejected_iff (h : Ready cl) (hlen : params.length = 8)
    (hout : cl.obj.objSize < le32 params 0 + le32 params 4) :
    Rejected cl (handleRead ⟨true, true⟩ params cl) ↔
      cl.obj.objSize < le32 params 0 ∨ le32 params 0 + le32 params 4 < 2 ^ 32 := by
  have hoff := le32_lt params 0
  have hcount := le32_lt params 4
  rw [handleRead_eq h hlen]
  by_cases hrej :
      cl.obj.objSize < le32 params 0 ∨ cl.obj.objSize < u32 (le32 params 4 + le32 params 0)
  . rw [if_pos hrej]
    refine iff_of_true ⟨rfl, rfl⟩ ?_
    unfold u32 at hrej
    omega
  . rw [if_neg hrej]
    refine iff_of_false ?_ ?_
    . rintro ⟨-, hrsps⟩
      unfold startRead at hrsps
      split_ifs at hrsps <;> simp [sendRsp, sendChunk] at hrsps
    . unfold u32 at hrej
      omega

structure Started (offset length size mtu : Nat) (cl : Client) : Prop where
  sent : cl.sent = [{ offset, len := transferLen length mtu }]
  inFlight : cl.inFlight = 1
  wrLen : cl.obj.wrLen = length - transferLen length mtu
  wrOffset : cl.obj.wrOffset = offset + transferLen length mtu
  lock : cl.obj.objLockState = .read
  size : cl.obj.objSize = size
  mtu : cl.mtu = mtu

theorem started (h : Ready cl) (hpos : length ≠ 0) :
    Started offset length (generateListing cl.obj).objSize cl.mtu
      (startRead ⟨true, true⟩ offset length
        (sendRsp .success { cl with obj := generateListing cl.obj })) := by
  unfold startRead
  rw [if_neg hpos, if_pos rfl]
  constructor <;> simp [sendRsp, sendChunk, h.fresh]

end

section

variable {offset length size mtu credit : Nat} {cl : Client}

theorem transferLen_le (length mtu : Nat) :
    transferLen length mtu ≤ length ∧ transferLen length mtu ≤ mtu ∧
      (length ≤ mtu → transferLen length mtu = length) := by
  unfold transferLen
  split <;> omega

theorem transferLen_pos (hpos : length ≠ 0) (hmtu : 1 ≤ mtu) : 0 < transferLen length mtu := by
  unfold transferLen
  split <;> omega

theorem mem_range'_lt (hpos : 0 < length) :
    (∀ place ∈ List.range' offset length, place < bound) ↔ offset + length ≤ bound := by
  constructor
  . intro h
    have := h (offset + (length - 1)) (by rw [mem_range'_1]; omega)
    omega
  . intro h place hplace
    rw [mem_range'_1] at hplace
    omega

theorem range'_eq_iff : List.range' offset a = List.range' offset b ↔ a = b := by
  constructor
  . intro h
    have := congrArg List.length h
    simpa using this
  . rintro rfl
    rfl

theorem range'_prefix (h : a ≤ b) : List.range' offset a <+: List.range' offset b := by
  obtain ⟨c, rfl⟩ := Nat.exists_eq_add_of_le h
  exact ⟨List.range' (offset + a) c, by simpa using range'_append_1⟩

theorem Started.handed (h : Started offset length size mtu cl) :
    handed cl = List.range' offset (transferLen length mtu) := by
  simp [Ots.handed, h.sent]

theorem Started.progress_iff (h : Started offset length size mtu cl) (hpos : length ≠ 0)
    (hmtu : 1 ≤ mtu) :
    Progress offset length cl ↔ offset + transferLen length mtu ≤ size := by
  have hone := transferLen_pos hpos hmtu
  constructor
  . intro hprog
    have hinside := hprog.inside
    rwa [h.handed, h.size, mem_range'_lt hone] at hinside
  . intro hfits
    refine ⟨?_, ?_, fun _ => h.lock, ?_⟩
    . rw [h.handed]
      exact range'_prefix (transferLen_le length mtu).1
    . rw [h.handed, h.size, mem_range'_lt hone]
      exact hfits
    . intro hzero
      rw [h.inFlight] at hzero
      cases hzero

structure Done (offset length size : Nat) (cl : Client) : Prop where
  handed : handed cl = List.range' offset length
  wrLen : cl.obj.wrLen = 0
  lock : cl.obj.objLockState = .idle
  size : cl.obj.objSize = size

theorem Done.progress_iff (h : Done offset length size cl) (hpos : length ≠ 0) :
    Progress offset length cl ↔ offset + length ≤ size := by
  constructor
  . intro hprog
    have hinside := hprog.inside
    rwa [h.handed, h.size, mem_range'_lt (Nat.pos_of_ne_zero hpos)] at hinside
  . intro hfits
    refine ⟨?_, ?_, fun hne => absurd h.handed hne, fun _ => ⟨h.handed, h.lock⟩⟩
    . exact h.handed.symm ▸ prefix_rfl
    . rw [h.handed, h.size, mem_range'_lt (Nat.pos_of_ne_zero hpos)]
      exact hfits

theorem done_step (credit : Nat) (h : Done offset length size cl) :
    Done offset length size (step cl (completed credit)) := by
  simp only [completed, step, handleOacpReadRequestCmplt, startHandleNextOacpReadReq]
  split_ifs with hflight hfail hnext
  . exact h
  . exact ⟨h.handed, h.wrLen, h.lock, h.size⟩
  . exact absurd h.wrLen hnext.1
  . exact ⟨h.handed, rfl, rfl, h.size⟩

theorem done_run (credits : List Nat) (h : Done offset length size cl) :
    Done offset length size (Run.exec step cl (credits.map completed)) := by
  induction credits generalizing cl with
  | nil => exact h
  | cons credit credits ih => exact ih (done_step credit h)

section

variable (h : Started offset length size mtu cl)

include h

theorem Started.step (hcredit : credit ≠ 0) :
    Ots.handed (step cl (completed credit)) =
      List.range' offset
        (transferLen length mtu + transferLen (length - transferLen length mtu) mtu) ∧
    (step cl (completed credit)).obj.objLockState = .idle ∧
    (step cl (completed credit)).obj.wrLen = 0 ∧
    (step cl (completed credit)).obj.objSize = size := by
  have hflight : cl.inFlight ≠ 0 := by
    rw [h.inFlight]
    decide
  simp only [completed, Ots.step, hflight, handleOacpReadRequestCmplt, hcredit, ne_eq,
    not_true_eq_false, or_self, if_false]
  unfold startHandleNextOacpReadReq
  by_cases hmore : cl.obj.wrLen = 0
  . rw [if_neg fun hnext => hnext.1 hmore]
    refine ⟨?_, rfl, rfl, h.size⟩
    rw [h.wrLen] at hmore
    rw [hmore, show transferLen 0 mtu = 0 by simp [transferLen]]
    exact h.handed
  . rw [if_pos ⟨hmore, rfl⟩]
    refine ⟨?_, rfl, rfl, h.size⟩
    simp only [Ots.handed, reqEnd, sendChunk, h.sent, h.wrOffset, h.wrLen, h.mtu, cons_append,
      nil_append, flatMap_cons, flatMap_nil, append_nil]
    exact range'_append_1

theorem Started.step_zero : ¬Progress offset length (Ots.step cl (completed 0)) := by
  intro hprog
  have hstep : Ots.step cl (completed 0) = { cl with inFlight := cl.inFlight - 1 } := by
    simp [completed, Ots.step, handleOacpReadRequestCmplt, h.inFlight]
  rw [hstep] at hprog
  have hlock := (hprog.complete (by simp [h.inFlight])).2
  rw [h.lock] at hlock
  cases hlock

theorem Started.delivers_iff (hpos : length ≠ 0)
    (hmtu : 1 ≤ mtu) (credits : List Nat) :
    (∀ before, before <+: credits →
      Progress offset length (Run.exec Ots.step cl (before.map completed))) ↔
    match credits with
    | [] => offset + transferLen length mtu ≤ size
    | credit :: _ => length ≤ 2 * mtu ∧ credit ≠ 0 ∧ offset + length ≤ size := by
  obtain ⟨hle, hmax, hsmall⟩ := transferLen_le length mtu
  obtain ⟨hle', hmax', hsmall'⟩ := transferLen_le (length - transferLen length mtu) mtu
  cases credits with
  | nil =>
    constructor
    . intro hrun
      exact (h.progress_iff hpos hmtu).mp (hrun [] nil_prefix)
    . intro hfits before hbefore
      rw [prefix_nil.mp hbefore]
      exact (h.progress_iff hpos hmtu).mpr hfits
  | cons credit credits =>
    constructor
    . intro hrun
      have hfirst := hrun [credit] ⟨credits, rfl⟩
      have hcredit : credit ≠ 0 := by
        rintro rfl
        exact h.step_zero hfirst
      obtain ⟨hhanded, hlock, hwr, hsize⟩ := h.step hcredit
      have hall : Ots.handed (Ots.step cl (completed credit)) = List.range' offset length := by
        by_contra hne
        have hread := hfirst.locked hne
        rw [show Run.exec Ots.step cl ([credit].map completed) =
          Ots.step cl (completed credit) from rfl, hlock] at hread
        cases hread
      have hdone : Done offset length size (Ots.step cl (completed credit)) :=
        ⟨hall, hwr, hlock, hsize⟩
      refine ⟨?_, hcredit, (hdone.progress_iff hpos).mp hfirst⟩
      rw [hhanded, range'_eq_iff] at hall
      omega
    . rintro ⟨htwo, hcredit, hfits⟩ before hbefore
      obtain ⟨hhanded, hlock, hwr, hsize⟩ := h.step hcredit
      have hdone : Done offset length size (Ots.step cl (completed credit)) := by
        refine ⟨?_, hwr, hlock, hsize⟩
        rw [hhanded, range'_eq_iff]
        unfold transferLen
        split_ifs <;> omega
      cases before with
      | nil => exact (h.progress_iff hpos hmtu).mpr (by omega)
      | cons c before =>
        obtain ⟨rfl, -⟩ := cons_prefix_cons.mp hbefore
        exact ((done_run before hdone).progress_iff hpos).mpr hfits

end

theorem progress_zero (hsent : cl.sent = []) (hflight : cl.inFlight = 0)
    (hidle : cl.obj.objLockState = .idle) (credits : List Nat) :
    Progress offset 0 (Run.exec step cl (credits.map completed)) := by
  have hstay : Run.exec step cl (credits.map completed) = cl := by
    induction credits with
    | nil => rfl
    | cons credit credits ih =>
      rw [map_cons, Run.exec_cons]
      rw [show step cl (completed credit) = cl by simp [step, completed, hflight]]
      exact ih
  rw [hstay]
  have hnone : handed cl = [] := by simp [handed, hsent]
  refine ⟨by rw [hnone]; exact nil_prefix, by simp [hnone], ?_, ?_⟩
  . intro hne
    exact absurd hnone hne
  . intro _
    exact ⟨hnone, hidle⟩

end

theorem read_delivers_iff (cl : Client) (params : List UInt8) (credits : List Nat)
    (h : Ready cl) (hlen : params.length = 8) :
    Delivers cl params credits ↔ ReadFits cl (le32 params 0) (le32 params 4) credits := by
  have hsize := h.size
  unfold ReadFits
  by_cases hout : cl.obj.objSize < le32 params 0 + le32 params 4
  . rw [if_pos hout, ← rejected_iff h hlen hout]
    constructor
    . intro hdel
      exact hdel.rejects hout
    . intro hrej
      exact ⟨fun _ => hrej, fun hin => absurd hout (by omega)⟩
  . rw [if_neg hout]
    have haccept : ¬(cl.obj.objSize < le32 params 0 ∨
        cl.obj.objSize < u32 (le32 params 4 + le32 params 0)) := by
      unfold u32
      omega
    have heq := handleRead_eq h hlen
    rw [if_neg haccept] at heq
    have hdel : Delivers cl params credits ↔ ∀ before, before <+: credits →
        Progress (le32 params 0) (le32 params 4)
          (Run.exec step (handleRead ⟨true, true⟩ params cl) (before.map completed)) :=
      ⟨fun hdel => hdel.transfers (by omega), fun hrun => ⟨fun h => absurd h hout, fun _ => hrun⟩⟩
    rw [hdel, heq]
    by_cases hzero : le32 params 4 = 0
    . rw [hzero]
      refine iff_of_true (fun before _ => ?_) (.inl rfl)
      have hidle : (generateListing cl.obj).objLockState = .idle := by
        unfold generateListing
        split <;> exact h.idle
      refine progress_zero ?_ ?_ ?_ before
      . exact h.fresh.1
      . exact h.fresh.2
      . exact hidle
    . rw [(started h hzero).delivers_iff hzero h.mtu credits]
      simp [hzero]

def hundred : Client where
  oacpFeature := 2 ^ readFeature
  excluded := false
  cid := 64
  mtu := 40
  obj := {
    objSize := 100
    objProps := 2 ^ propRead
    listing := none
    wrLen := 0
    wrOffset := 0
    objLockState := .idle }
  sent := []
  inFlight := 0
  rsps := []

theorem ready_hundred : Ready hundred where
  feature := by decide
  included := rfl
  idle := rfl
  readable := by decide
  channel := by decide
  mtu := by decide
  size := by decide
  fresh := ⟨rfl, rfl⟩

theorem read_delivers_hundred :
    Delivers hundred [20, 0, 0, 0, 60, 0, 0, 0] [5, 4] ↔ ReadFits hundred 20 60 [5, 4] :=
  read_delivers_iff hundred [20, 0, 0, 0, 60, 0, 0, 0] [5, 4] ready_hundred rfl

theorem not_read_delivers :
    ¬Delivers hundred [0, 0, 0, 0, 100, 0, 0, 0] [5, 4, 3] ∧
      ¬Delivers hundred [1, 0, 0, 0, 255, 255, 255, 255] [] := by
  refine ⟨fun h => ?_, fun h => ?_⟩
  . have hprog := h.transfers (by decide) [5] ⟨[4, 3], rfl⟩
    exact absurd (hprog.locked (by decide)) (by decide)
  . exact absurd (h.rejects (by decide)).2 (by decide)

end Ots
