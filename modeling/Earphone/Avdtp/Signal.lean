import Earphone.Lib.Scan

/-!
This module contains the reassembly of signals in `avdtp_handle_signal_ind` of `avdtp.c`.
-/

namespace AvdtpSignal

open Scan List

inductive PktType where
  | single
  | start
  | continue
  | end
  deriving DecidableEq

def pktType (transInfo : Nat) : PktType :=
  match transInfo / 4 % 4 with
  | 0 => .single
  | 1 => .start
  | 2 => .continue
  | _ => .end

def transLabel (transInfo : Nat) : Nat := transInfo / 16

structure Block where
  id : Nat
  size : Nat
  written : List UInt8

structure SigChann where
  fragmentData : Option Block
  fragmentDataLen : Nat
  nextId : Nat

structure DataInd where
  data : List UInt8
  data_lt : data.length < 65536
  granted : Bool

inductive Effect where
  | rxCmd (signal : List UInt8)
  | rxRsp (signal : List UInt8)
  | free (id : Nat)

def signalEffect (msgType : Nat) (signal : List UInt8) : Effect :=
  if msgType = 0 then .rxCmd signal else .rxRsp signal

def avdtpSignalProc (fragmentData : List UInt8) (len : Nat) : Except Stuck Effect := do
  let transInfo ← byteAt fragmentData 0
  return signalEffect (transInfo % 4) (fragmentData.take len)

def freeData (chann : SigChann) : List Effect :=
  match chann.fragmentData with
  | some block => [.free block.id]
  | none => []

def singleInd (chann : SigChann) (pkt : List UInt8) : Except Stuck (SigChann × List Effect) := do
  let proc ← avdtpSignalProc pkt pkt.length
  return ({ chann with fragmentData := none, fragmentDataLen := pkt.length },
    freeData chann ++ [proc])

def copyAt (block : Block) (pos : Nat) (data : List UInt8) : Except Stuck Block :=
  if pos + data.length ≤ block.size then
    .ok { block with
      written := block.written.take pos ++ data ++ block.written.drop (pos + data.length) }
  else .error .overflow

def startInd (chann : SigChann) (pkt : List UInt8) (granted : Bool) :
    Except Stuck (SigChann × List Effect) :=
  if pkt.length > 3 then do
    let transInfo ← bytesAt pkt 0 1
    let pktNum ← byteAt pkt 1
    let signalId ← bytesAt pkt 2 1
    let dataLen := pkt.length - 3
    let totalLen := dataLen * pktNum % 65536
    if granted then
      let data ← bytesAt pkt 3 dataLen
      let block ← copyAt ⟨chann.nextId, totalLen + 2, transInfo ++ signalId⟩ 2 data
      return (⟨some block, (dataLen + 2) % 65536, chann.nextId + 1⟩, freeData chann)
    else
      return ({ chann with fragmentData := none }, freeData chann)
  else .ok (chann, [])

def endInd (chann : SigChann) : Except Stuck (SigChann × List Effect) :=
  match chann.fragmentData with
  | some block => do
    let proc ← avdtpSignalProc block.written chann.fragmentDataLen
    return ({ chann with fragmentData := none }, [proc, .free block.id])
  | none => .ok (chann, [])

def appendInd (chann : SigChann) (block : Block) (pkt : List UInt8) (transInfo : Nat) :
    Except Stuck SigChann := do
  let startInfo ← byteAt block.written 0
  if transLabel transInfo = transLabel startInfo then
    let dataLen := sub16 pkt.length 1
    let data ← bytesAt pkt 1 dataLen
    let block ← copyAt block chann.fragmentDataLen data
    return { chann with
      fragmentData := some block
      fragmentDataLen := (chann.fragmentDataLen + dataLen) % 65536 }
  else return chann

def contInd (chann : SigChann) (pkt : List UInt8) (transInfo : Nat) :
    Except Stuck (SigChann × List Effect) :=
  match chann.fragmentData with
  | some block => do
    let chann ← appendInd chann block pkt transInfo
    if pktType transInfo = .end then endInd chann else return (chann, [])
  | none => .ok (chann, [])

def avdtpHandleSignalInd (chann : SigChann) (ind : DataInd) :
    Except Stuck (SigChann × List Effect) := do
  let transInfo ← byteAt ind.data 0
  match pktType transInfo with
  | .single => singleInd chann ind.data
  | .start => startInd chann ind.data ind.granted
  | _ => contInd chann ind.data transInfo

def receive (chann : SigChann) : List DataInd → Except Stuck (SigChann × List Effect)
  | [] => .ok (chann, [])
  | ind :: inds => do
    let (chann, effects) ← avdtpHandleSignalInd chann ind
    let (chann, later) ← receive chann inds
    return (chann, effects ++ later)

def idle : SigChann := ⟨none, 0, 0⟩

structure Fragment where
  transInfo : UInt8
  payload : List UInt8
  deriving DecidableEq

def Fragment.type (f : Fragment) : PktType := pktType f.transInfo.toNat

def Fragment.label (f : Fragment) : Nat := transLabel f.transInfo.toNat

structure Signal where
  signalId : UInt8
  start : Fragment
  middle : List Fragment
  last : Fragment
  start_type : start.type = .start
  middle_type : ∀ f ∈ middle,
    f.type = .continue ∨ f.type = .end ∧ f.label ≠ start.label
  last_type : last.type = .end
  last_label : last.label = start.label
  num_lt : (middle.filter fun f => f.label = start.label).length + 2 < 256
  start_lt : start.payload.length + 3 < 65536
  middle_lt : ∀ f ∈ middle, f.payload.length + 1 < 65536
  own_le : ∀ f ∈ middle, f.label = start.label → f.payload.length ≤ start.payload.length
  last_le : last.payload.length ≤ start.payload.length

namespace Signal

variable (signal : Signal)

def own : List Fragment := signal.middle.filter fun f => f.label = signal.start.label

def num : Nat := signal.own.length + 2

def content : List UInt8 :=
  signal.start.payload ++ (signal.own.map Fragment.payload).flatten ++ signal.last.payload

def bytes : List UInt8 := signal.start.transInfo :: signal.signalId :: signal.content

def startInd (granted : Bool) : DataInd where
  data := signal.start.transInfo :: UInt8.ofNat signal.num :: signal.signalId ::
    signal.start.payload
  data_lt := by
    have := signal.start_lt
    simpa using this
  granted := granted

end Signal

def restInd (f : Fragment) (hlt : f.payload.length + 1 < 65536) : DataInd where
  data := f.transInfo :: f.payload
  data_lt := by simpa using hlt
  granted := true

def restInds : ∀ fs : List Fragment, (∀ f ∈ fs, f.payload.length + 1 < 65536) → List DataInd
  | [], _ => []
  | f :: fs, h =>
    restInd f (h f List.mem_cons_self) :: restInds fs fun g hg => h g (List.mem_cons_of_mem _ hg)

theorem Signal.last_lt (signal : Signal) : signal.last.payload.length + 1 < 65536 := by
  have h1 := signal.last_le
  have h2 := signal.start_lt
  omega

def Processed (chann : SigChann) (signal : Signal) (granted : Bool) : Prop :=
  ∃ held freed done id, receive chann
      (signal.startInd granted :: restInds signal.middle signal.middle_lt) = .ok (held, freed) ∧
    (∀ e ∈ freed, ∃ id, e = .free id) ∧
    avdtpHandleSignalInd held (restInd signal.last signal.last_lt) =
      .ok (done, [signalEffect (signal.start.transInfo.toNat % 4) signal.bytes, .free id]) ∧
    done.fragmentData = none

def SignalOk (signal : Signal) (granted : Bool) : Prop :=
  granted = true ∧ signal.start.payload ≠ [] ∧
    signal.content.length ≤ signal.start.payload.length * signal.num % 65536 ∧
    signal.content.length + 2 < 65536 ∧ ∀ f ∈ signal.middle, f.type = .continue

structure BlockOk (chann : SigChann) (block : Block) : Prop where
  header : 2 ≤ block.written.length
  len_le : chann.fragmentDataLen ≤ block.written.length
  written_le : block.written.length ≤ block.size
  len_lt : chann.fragmentDataLen < 65536

def Sound (chann : SigChann) : Prop :=
  ∀ block, chann.fragmentData = some block → BlockOk chann block

def Effect.freed : Effect → Option Nat
  | .free id => some id
  | _ => none

def freedIds (effects : List Effect) : List Nat := effects.filterMap Effect.freed

def heldIds (chann : SigChann) : List Nat := (chann.fragmentData.map Block.id).toList

inductive Moves (chann chann' : SigChann) (freed : List Nat) : Prop where
  | keep (hids : heldIds chann' = heldIds chann) (hnext : chann'.nextId = chann.nextId)
      (hfreed : freed = [])
  | drop (hids : heldIds chann' = []) (hnext : chann'.nextId = chann.nextId)
      (hfreed : freed = heldIds chann)
  | take (hids : heldIds chann' = [chann.nextId]) (hnext : chann'.nextId = chann.nextId + 1)
      (hfreed : freed = heldIds chann)

section

variable {chann chann' : SigChann} {pkt : List UInt8} {effects : List Effect} {transInfo : Nat}

theorem signalEffect_freed : (signalEffect msgType signal).freed = none := by
  unfold signalEffect
  split <;> rfl

theorem freedIds_freeData : freedIds (freeData chann) = heldIds chann := by
  unfold freeData heldIds
  cases chann.fragmentData <;> rfl

theorem signalProc_ok (h : avdtpSignalProc fragmentData len = .ok proc) :
    ∃ msgType, proc = signalEffect msgType (fragmentData.take len) := by
  obtain ⟨transInfo, _, h⟩ := bind_ok.mp h
  exact ⟨_, (Except.ok.inj h).symm⟩

theorem copyAt_ok (h : copyAt block pos data = .ok block') :
    pos + data.length ≤ block.size ∧ block'.id = block.id ∧ block'.size = block.size ∧
      block'.written =
        block.written.take pos ++ data ++ block.written.drop (pos + data.length) := by
  unfold copyAt at h
  split at h
  . rw [← Except.ok.inj h]
    exact ⟨by assumption, rfl, rfl, rfl⟩
  . cases h

theorem bytesAt_ok (h : bytesAt bytes i n = .ok data) :
    i + n ≤ bytes.length ∧ data = (bytes.drop i).take n := by
  unfold bytesAt at h
  split at h
  . exact ⟨by assumption, (Except.ok.inj h).symm⟩
  . cases h

theorem single_moves (h : singleInd chann pkt = .ok (chann', effects)) :
    Sound chann' ∧ Moves chann chann' (freedIds effects) := by
  obtain ⟨proc, hproc, h⟩ := bind_ok.mp h
  obtain ⟨msgType, rfl⟩ := signalProc_ok hproc
  cases h
  refine ⟨nofun, .drop rfl rfl ?_⟩
  rw [freedIds, filterMap_append, ← freedIds, freedIds_freeData]
  simp [signalEffect_freed]

theorem start_moves (hsound : Sound chann) (hlt : pkt.length < 65536)
    (h : startInd chann pkt granted = .ok (chann', effects)) :
    Sound chann' ∧ Moves chann chann' (freedIds effects) := by
  unfold startInd at h
  split at h
  . obtain ⟨info, hinfo, h⟩ := bind_ok.mp h
    obtain ⟨pktNum, _, h⟩ := bind_ok.mp h
    obtain ⟨signalId, hid, h⟩ := bind_ok.mp h
    split at h
    . obtain ⟨data, hdata, h⟩ := bind_ok.mp h
      obtain ⟨block, hblock, h⟩ := bind_ok.mp h
      obtain ⟨hroom, hbid, hsize, hwritten⟩ := copyAt_ok hblock
      obtain ⟨_, hinfo⟩ := bytesAt_ok hinfo
      obtain ⟨_, hid⟩ := bytesAt_ok hid
      obtain ⟨_, hdata⟩ := bytesAt_ok hdata
      obtain ⟨rfl, rfl⟩ := Prod.mk.inj (Except.ok.inj h)
      have hlen : block.written.length = pkt.length - 3 + 2 := by
        rw [hwritten]
        simp only [hinfo, hid, hdata, length_append, length_take, length_drop]
        omega
      refine ⟨?_, .take ?_ rfl freedIds_freeData⟩
      . rintro b hb
        cases hb
        have hdataLen : data.length = pkt.length - 3 := by
          simp only [hdata, length_take, length_drop]
          omega
        have hroom' : 2 + data.length ≤ block.size := by
          rw [hsize]
          exact hroom
        exact ⟨by omega, by simp only; omega, by omega, Nat.mod_lt _ (by decide)⟩
      . simp [heldIds, hbid]
    . cases h
      exact ⟨nofun, .drop rfl rfl freedIds_freeData⟩
  . cases h
    exact ⟨hsound, .keep rfl rfl rfl⟩

theorem end_moves (h : endInd chann = .ok (chann', effects)) :
    Sound chann' ∧ Moves chann chann' (freedIds effects) := by
  unfold endInd at h
  split at h
  case h_1 block hblock =>
    obtain ⟨proc, hproc, h⟩ := bind_ok.mp h
    obtain ⟨msgType, rfl⟩ := signalProc_ok hproc
    cases h
    refine ⟨nofun, .drop rfl rfl ?_⟩
    simp only [freedIds, filterMap_cons, signalEffect_freed, heldIds, hblock]
    rfl
  case h_2 hnone =>
    cases h
    refine ⟨?_, .keep rfl rfl rfl⟩
    intro block hblock
    rw [hnone] at hblock
    cases hblock

theorem append_sound (hok : BlockOk chann block) (hdata : data.length = n)
    (h : copyAt block chann.fragmentDataLen data = .ok block') :
    BlockOk { chann with
      fragmentData := some block'
      fragmentDataLen := (chann.fragmentDataLen + n) % 65536 } block' := by
  obtain ⟨hroom, _, hsize, hwritten⟩ := copyAt_ok h
  obtain ⟨h1, h2, h3, h4⟩ := hok
  have hlen : block'.written.length =
      chann.fragmentDataLen + n + (block.written.length - (chann.fragmentDataLen + n)) := by
    rw [hwritten]
    simp only [length_append, length_take, length_drop, hdata]
    omega
  have hmod := Nat.mod_le (chann.fragmentDataLen + n) 65536
  refine ⟨by omega, ?_, by omega, Nat.mod_lt _ (by decide)⟩
  simp only
  omega

theorem append_keeps (hsound : Sound chann)
    (hblock : chann.fragmentData = some block) (h : appendInd chann block pkt transInfo = .ok mid) :
    Sound mid ∧ heldIds mid = heldIds chann ∧ mid.nextId = chann.nextId := by
  obtain ⟨startInfo, _, h⟩ := bind_ok.mp h
  split at h
  . obtain ⟨data, hdata, h⟩ := bind_ok.mp h
    obtain ⟨block', hcopy, h⟩ := bind_ok.mp h
    have hlen : data.length = sub16 pkt.length 1 := by
      obtain ⟨hle, hdata⟩ := bytesAt_ok hdata
      rw [hdata, length_take, length_drop]
      omega
    have hok := append_sound (hsound block hblock) hlen hcopy
    obtain rfl : _ = mid := Except.ok.inj h
    refine ⟨?_, ?_, rfl⟩
    . intro b hb
      rw [← Option.some.inj hb]
      exact hok
    . simp [heldIds, hblock, (copyAt_ok hcopy).2.1]
  . rw [← Except.ok.inj h]
    exact ⟨hsound, rfl, rfl⟩

theorem cont_moves (hsound : Sound chann)
    (h : contInd chann pkt transInfo = .ok (chann', effects)) :
    Sound chann' ∧ Moves chann chann' (freedIds effects) := by
  unfold contInd at h
  split at h
  case h_1 block hblock =>
    obtain ⟨mid, hmid, h⟩ := bind_ok.mp h
    have hkeep := append_keeps hsound hblock hmid
    obtain ⟨hmidSound, hids, hnext⟩ := hkeep
    split at h
    . obtain ⟨hsound', hmoves⟩ := end_moves h
      refine ⟨hsound', ?_⟩
      cases hmoves with
      | keep h1 h2 h3 => exact .keep (h1.trans hids) (h2.trans hnext) h3
      | drop h1 h2 h3 => exact .drop h1 (h2.trans hnext) (h3.trans hids)
      | take h1 h2 h3 => exact .take (by rw [h1, hnext]) (by rw [h2, hnext]) (h3.trans hids)
    . cases h
      exact ⟨hmidSound, .keep hids hnext rfl⟩
  case h_2 =>
    cases h
    exact ⟨hsound, .keep rfl rfl rfl⟩

theorem handle_moves (hsound : Sound chann)
    (h : avdtpHandleSignalInd chann ind = .ok (chann', effects)) :
    Sound chann' ∧ Moves chann chann' (freedIds effects) := by
  obtain ⟨transInfo, _, h⟩ := bind_ok.mp h
  split at h
  . exact single_moves h
  . exact start_moves hsound ind.data_lt h
  . exact cont_moves hsound h

theorem receive_cons :
    receive chann (ind :: inds) = .ok (chann', effects) ↔
      ∃ mid first later, avdtpHandleSignalInd chann ind = .ok (mid, first) ∧
        receive mid inds = .ok (chann', later) ∧ effects = first ++ later := by
  rw [receive, bind_ok]
  constructor
  . rintro ⟨⟨mid, first⟩, hfirst, h⟩
    obtain ⟨⟨last, later⟩, hlater, h⟩ := bind_ok.mp h
    cases h
    exact ⟨mid, first, later, hfirst, hlater, rfl⟩
  . rintro ⟨mid, first, later, hfirst, hlater, rfl⟩
    exact ⟨_, hfirst, bind_ok.mpr ⟨_, hlater, rfl⟩⟩

theorem receive_sound (hsound : Sound chann)
    (h : receive chann inds = .ok (chann', effects)) : Sound chann' := by
  induction inds generalizing chann effects with
  | nil =>
    cases h
    exact hsound
  | cons ind inds ih =>
    obtain ⟨mid, first, later, hfirst, hlater, _⟩ := receive_cons.mp h
    exact ih (handle_moves hsound hfirst).1 hlater

theorem freedIds_append : freedIds (effects ++ later) = freedIds effects ++ freedIds later := by
  simp [freedIds]

theorem held_lt {id : Nat} {freed : List Nat} (hmoves : Moves chann chann' freed)
    (hheld : ∀ id ∈ heldIds chann, id < chann.nextId) (h : id ∈ heldIds chann') :
    id < chann'.nextId ∧ (id ∈ heldIds chann ∧ freed = [] ∨ chann.nextId ≤ id) := by
  cases hmoves with
  | keep hids hnext hfreed =>
    rw [hids] at h
    exact ⟨hnext ▸ hheld id h, .inl ⟨h, hfreed⟩⟩
  | drop hids => simp [hids] at h
  | take hids hnext =>
    rw [hids, mem_singleton] at h
    exact ⟨by omega, .inr (by omega)⟩

theorem receive_freed {inds : List DataInd} (hsound : Sound chann)
    (hheld : ∀ id ∈ heldIds chann, id < chann.nextId)
    (h : receive chann inds = .ok (chann', effects)) :
    (freedIds effects).Nodup ∧ ∀ id ∈ freedIds effects, id ∈ heldIds chann ∨ chann.nextId ≤ id := by
  induction inds generalizing chann effects with
  | nil =>
    cases h
    exact ⟨nodup_nil, nofun⟩
  | cons ind inds ih =>
    obtain ⟨mid, first, later, hfirst, hlater, rfl⟩ := receive_cons.mp h
    obtain ⟨hmid, hmoves⟩ := handle_moves hsound hfirst
    obtain ⟨hnodup, hfrom⟩ := ih hmid (fun id hid => (held_lt hmoves hheld hid).1) hlater
    have hle : chann.nextId ≤ mid.nextId := by
      cases hmoves <;> omega
    have hlaterFrom : ∀ id ∈ freedIds later,
        id ∈ heldIds chann ∧ freedIds first = [] ∨ chann.nextId ≤ id := by
      intro id hid
      obtain hid | hid := hfrom id hid
      . exact (held_lt hmoves hheld hid).2
      . exact .inr (by omega)
    have hfirstFrom : ∀ id ∈ freedIds first, id ∈ heldIds chann := by
      cases hmoves with
      | keep _ _ hfreed => simp [hfreed]
      | drop _ _ hfreed => simp [hfreed]
      | take _ _ hfreed => simp [hfreed]
    have hfirstNodup : (freedIds first).Nodup := by
      have hone : (heldIds chann).Nodup := by
        unfold heldIds
        cases chann.fragmentData <;> simp
      cases hmoves with
      | keep _ _ hfreed => simp [hfreed]
      | drop _ _ hfreed => rwa [hfreed]
      | take _ _ hfreed => rwa [hfreed]
    rw [freedIds_append]
    constructor
    . refine nodup_append.mpr ⟨hfirstNodup, hnodup, ?_⟩
      rintro id hid _ hid' rfl
      obtain ⟨_, hnil⟩ | hge := hlaterFrom id hid'
      . simp [hnil] at hid
      . have := hheld id (hfirstFrom id hid)
        omega
    . intro id hid
      obtain hid | hid := mem_append.mp hid
      . exact .inl (hfirstFrom id hid)
      . exact (hlaterFrom id hid).imp_left And.left

end

def midway (signal : Signal) (id room : Nat) (got : List UInt8) : SigChann :=
  ⟨some ⟨id, room + 2, signal.start.transInfo :: signal.signalId :: got⟩, got.length + 2, id + 1⟩

def joined (signal : Signal) (got : List UInt8) (f : Fragment) : List UInt8 :=
  if f.label = signal.start.label then got ++ f.payload else got

section

variable {signal : Signal} {id room : Nat} {got : List UInt8} {f : Fragment} {chann held : SigChann}
  {effects : List Effect}

theorem copyAt_end {block : Block} {pos : Nat} {data : List UInt8}
    (hpos : block.written.length = pos) (hroom : pos + data.length ≤ block.size) :
    copyAt block pos data = .ok { block with written := block.written ++ data } := by
  have htake : block.written.take pos = block.written := take_of_length_le (by omega)
  have hdrop : block.written.drop (pos + data.length) = [] := drop_of_length_le (by omega)
  rw [copyAt, if_pos hroom, htake, hdrop, append_nil]

theorem copyAt_over
    (hroom : ¬pos + data.length ≤ block.size) : copyAt block pos data = .error .overflow := by
  rw [copyAt, if_neg hroom]

section

variable (hlt : (joined signal got f).length + 2 < 65536) (hgot : got.length ≤ room)
  (hf : f.payload.length + 1 < 65536)

include hlt hgot hf

theorem append_midway :
    appendInd (midway signal id room got)
        ⟨id, room + 2, signal.start.transInfo :: signal.signalId :: got⟩ (restInd f hf).data
        f.transInfo.toNat =
      if (joined signal got f).length ≤ room then .ok (midway signal id room (joined signal got f))
      else .error .overflow := by
  have hinfo : byteAt (signal.start.transInfo :: signal.signalId :: got) 0 =
      .ok signal.start.transInfo.toNat := rfl
  have hlen : (restInd f hf).data.length = f.payload.length + 1 := rfl
  have hsub : sub16 (restInd f hf).data.length 1 = f.payload.length := by
    rw [hlen, sub16_le (by omega) hf]
    omega
  have hdata : bytesAt (restInd f hf).data 1 f.payload.length = .ok f.payload := by
    rw [bytesAt_le (by simp [restInd]; omega)]
    simp [restInd]
  unfold appendInd
  generalize sub16 (restInd f hf).data.length 1 = n at hsub ⊢
  subst hsub
  simp only [hinfo, bind, Except.bind, hdata]
  by_cases hlabel : f.label = signal.start.label
  . have hlabel' : transLabel f.transInfo.toNat = transLabel signal.start.transInfo.toNat := hlabel
    have hjoined : joined signal got f = got ++ f.payload := if_pos hlabel
    rw [hjoined] at hlt ⊢
    rw [length_append] at hlt ⊢
    rw [if_pos hlabel']
    by_cases hfits : got.length + f.payload.length ≤ room
    . have hmod : (got.length + 2 + f.payload.length) % 65536 =
          got.length + f.payload.length + 2 := by
        rw [Nat.mod_eq_of_lt (by omega)]
        omega
      rw [if_pos hfits]
      simp only [midway]
      rw [copyAt_end (by simp) (by simp only; omega)]
      simp only [hmod, length_append]
      rfl
    . rw [if_neg hfits]
      simp only [midway]
      rw [copyAt_over (by simp only; omega)]
  . have hlabel' : ¬transLabel f.transInfo.toNat = transLabel signal.start.transInfo.toNat := hlabel
    have hjoined : joined signal got f = got := if_neg hlabel
    simp only [if_neg hlabel', hjoined, if_pos hgot]
    rfl

theorem rest_midway (htype : f.type = .continue ∨ f.type = .end) :
    avdtpHandleSignalInd (midway signal id room got) (restInd f hf) =
      if (joined signal got f).length ≤ room then
        if f.type = .end then
          .ok ({ midway signal id room (joined signal got f) with fragmentData := none },
            [signalEffect (signal.start.transInfo.toNat % 4)
              (signal.start.transInfo :: signal.signalId :: joined signal got f), .free id])
        else .ok (midway signal id room (joined signal got f), [])
      else .error .overflow := by
  have hinfo : byteAt (restInd f hf).data 0 = .ok f.transInfo.toNat := rfl
  have hcont : avdtpHandleSignalInd (midway signal id room got) (restInd f hf) =
      contInd (midway signal id room got) (restInd f hf).data f.transInfo.toNat := by
    unfold avdtpHandleSignalInd
    simp only [hinfo, bind, Except.bind]
    unfold Fragment.type at htype
    obtain h | h := htype
    . simp only [h]
    . simp only [h]
  rw [hcont]
  unfold contInd
  simp only [midway]
  have happend := @append_midway signal id room got f hlt hgot hf
  simp only [midway] at happend
  rw [happend]
  split
  . simp only [bind, Except.bind]
    unfold Fragment.type
    split
    . have htake : List.take ((joined signal got f).length + 2)
          (signal.start.transInfo :: signal.signalId :: joined signal got f) =
          signal.start.transInfo :: signal.signalId :: joined signal got f :=
        take_of_length_le (by simp)
      simp only [endInd, avdtpSignalProc, htake]
      rfl
    . rfl
  . rfl

end

def ownBytes (signal : Signal) (fs : List Fragment) : List UInt8 :=
  ((fs.filter fun f => f.label = signal.start.label).map Fragment.payload).flatten

theorem joined_ownBytes :
    joined signal got f ++ ownBytes signal fs = got ++ ownBytes signal (f :: fs) := by
  unfold joined ownBytes
  by_cases h : f.label = signal.start.label
  . simp [h]
  . simp [h]

theorem middle_run {fs : List Fragment} (hfs : ∀ f ∈ fs, f.payload.length + 1 < 65536)
    (hcont : ∀ f ∈ fs, f.type = .continue)
    (hroom : (got ++ ownBytes signal fs).length ≤ room)
    (hlt : (got ++ ownBytes signal fs).length + 2 < 65536) :
    receive (midway signal id room got) (restInds fs hfs) =
      .ok (midway signal id room (got ++ ownBytes signal fs), []) := by
  induction fs generalizing got with
  | nil => simp [restInds, receive, ownBytes]
  | cons f fs ih =>
    rw [forall_mem_cons] at hcont
    rw [← joined_ownBytes] at hroom hlt ⊢
    have hgot : got.length ≤ (joined signal got f).length := by
      unfold joined
      split <;> simp
    have hjoined : (joined signal got f).length ≤ room := by
      rw [length_append] at hroom
      omega
    have hstep := @rest_midway signal id room got f
      (by rw [length_append] at hlt; omega) (by omega) (hfs f mem_cons_self)
      (.inl hcont.1)
    rw [if_pos hjoined, if_neg (by simp [hcont.1])] at hstep
    exact receive_cons.mpr ⟨_, _, _, hstep,
      ih (fun g hg => hfs g (mem_cons_of_mem _ hg)) hcont.2 hroom hlt, rfl⟩

theorem signalEffect_ne_free : signalEffect msgType bytes ≠ .free i := by
  intro h
  have hfreed : (signalEffect msgType bytes).freed = none := signalEffect_freed
  rw [h] at hfreed
  cases hfreed

theorem middle_conv (hfs : ∀ f ∈ fs, f.payload.length + 1 < 65536)
    (htype : ∀ f ∈ fs, f.type = .continue ∨ f.type = .end) (hgot : got.length ≤ room)
    (hlt : (got ++ ownBytes signal fs).length + 2 < 65536)
    (hrun : receive (midway signal id room got) (restInds fs hfs) = .ok (held, effects))
    (hfree : ∀ e ∈ effects, ∃ i, e = .free i) :
    (∀ f ∈ fs, f.type = .continue) ∧ (got ++ ownBytes signal fs).length ≤ room ∧
      held = midway signal id room (got ++ ownBytes signal fs) := by
  induction fs generalizing got effects with
  | nil =>
    cases hrun
    simpa [ownBytes] using hgot
  | cons f fs ih =>
    rw [forall_mem_cons] at htype
    obtain ⟨mid, first, later, hfirst, hlater, rfl⟩ := receive_cons.mp hrun
    rw [← joined_ownBytes] at hlt ⊢
    rw [rest_midway (by rw [length_append] at hlt; omega) hgot (hfs f mem_cons_self)
      htype.1] at hfirst
    split_ifs at hfirst with hfits hend
    . cases hfirst
      obtain ⟨i, hi⟩ := hfree _ (mem_append_left _ mem_cons_self)
      exact absurd hi signalEffect_ne_free
    . cases hfirst
      obtain ⟨hconts, hroom, hheld⟩ := ih (fun g hg => hfs g (mem_cons_of_mem _ hg)) htype.2
        hfits hlt hlater hfree
      have hcont : f.type = .continue := htype.1.resolve_right hend
      exact ⟨forall_mem_cons.mpr ⟨hcont, hconts⟩, hroom, hheld⟩

def capacity (signal : Signal) : Nat := signal.start.payload.length * signal.num % 65536

theorem start_handle (hne : signal.start.payload ≠ []) :
    avdtpHandleSignalInd chann (signal.startInd true) =
      if signal.start.payload.length ≤ capacity signal then
        .ok (midway signal chann.nextId (capacity signal) signal.start.payload, freeData chann)
      else .error .overflow := by
  have hpos : 0 < signal.start.payload.length := length_pos_iff.mpr hne
  have hlt := signal.start_lt
  have hnum : signal.num < 256 := signal.num_lt
  have hlen : (signal.startInd true).data.length = signal.start.payload.length + 3 := rfl
  have hsub : signal.start.payload.length + 3 - 3 = signal.start.payload.length := by omega
  have hpktNum : byteAt (signal.startInd true).data 1 = .ok signal.num := by
    have h : (UInt8.ofNat signal.num).toNat = signal.num := by
      rw [UInt8.toNat_ofNat']
      exact Nat.mod_eq_of_lt hnum
    rw [← h]
    rfl
  have hinfo : byteAt (signal.startInd true).data 0 = .ok signal.start.transInfo.toNat := rfl
  have hbytes : bytesAt (signal.startInd true).data 0 1 = .ok [signal.start.transInfo] := by
    rw [bytesAt_le (by rw [hlen]; omega)]
    rfl
  have hid : bytesAt (signal.startInd true).data 2 1 = .ok [signal.signalId] := by
    rw [bytesAt_le (by rw [hlen]; omega)]
    rfl
  have hdata : bytesAt (signal.startInd true).data 3 signal.start.payload.length =
      .ok signal.start.payload := by
    rw [bytesAt_le (by rw [hlen]; omega)]
    simp [Signal.startInd]
  have htype : pktType signal.start.transInfo.toNat = .start := signal.start_type
  unfold avdtpHandleSignalInd
  simp only [hinfo, bind, Except.bind, htype, startInd, hlen, hsub, hbytes, hpktNum, hid, hdata]
  rw [if_pos (by omega)]
  have hgranted : (signal.startInd true).granted = true := rfl
  simp only [hgranted, if_true]
  by_cases hfits : signal.start.payload.length ≤ capacity signal
  . have hmod : (signal.start.payload.length + 2) % 65536 = signal.start.payload.length + 2 :=
      Nat.mod_eq_of_lt (by omega)
    have hroom : 2 + signal.start.payload.length ≤
        signal.start.payload.length * signal.num % 65536 + 2 := by
      unfold capacity at hfits
      omega
    rw [if_pos hfits, @copyAt_end _ 2 _ rfl hroom, hmod]
    rfl
  . have hroom : ¬2 + signal.start.payload.length ≤
        signal.start.payload.length * signal.num % 65536 + 2 := by
      unfold capacity at hfits
      omega
    rw [if_neg hfits, copyAt_over hroom]

theorem content_eq (signal : Signal) :
    signal.content = signal.start.payload ++ ownBytes signal signal.middle ++ signal.last.payload :=
  rfl

theorem last_joined :
    joined signal (signal.start.payload ++ ownBytes signal signal.middle) signal.last =
      signal.content := by
  rw [joined, if_pos signal.last_label, content_eq signal]

theorem processed_of_ok (h : SignalOk signal true) : Processed chann signal true := by
  obtain ⟨_, hne, hroom, hlt, hconts⟩ := h
  have hlen := congrArg List.length (content_eq signal)
  simp only [length_append] at hlen
  have hcap : capacity signal = signal.start.payload.length * signal.num % 65536 := rfl
  have hstart := @start_handle signal chann hne
  rw [if_pos (by omega)] at hstart
  have hmiddle := @middle_run signal chann.nextId (capacity signal)
    signal.start.payload _ signal.middle_lt hconts
    (by rw [length_append]; omega) (by rw [length_append]; omega)
  have hlast := @rest_midway signal chann.nextId (capacity signal)
    (signal.start.payload ++ ownBytes signal signal.middle) signal.last
    (by rw [last_joined]; exact hlt) (by rw [length_append]; omega) signal.last_lt
    (.inr signal.last_type)
  rw [last_joined, if_pos (by omega), if_pos signal.last_type] at hlast
  refine ⟨_, freeData chann, _, _, receive_cons.mpr ⟨_, _, _, hstart, hmiddle, by simp⟩, ?_, hlast,
    rfl⟩
  intro e he
  unfold freeData at he
  split at he
  . rw [mem_singleton] at he
    exact ⟨_, he⟩
  . cases he

theorem end_len (hsound : Sound chann) (htype : pktType (ind.data.getD 0 0).toNat = .end)
    (h : avdtpHandleSignalInd chann ind = .ok (done, [signalEffect msgType bytes, .free i])) :
    bytes.length < 65536 := by
  obtain ⟨info, hinfo, h⟩ := bind_ok.mp h
  have hpos := byteAt_ok hinfo
  have hinfo' : info = (ind.data.getD 0 0).toNat := by
    rw [byteAt_lt hpos] at hinfo
    rw [← Except.ok.inj hinfo]
    simp [hpos]
  rw [← hinfo'] at htype
  simp only [htype] at h
  unfold contInd at h
  split at h
  . next block hblock =>
      obtain ⟨mid, hmid, h⟩ := bind_ok.mp h
      rw [if_pos htype] at h
      obtain ⟨hmidSound, _, _⟩ := append_keeps hsound hblock hmid
      unfold endInd at h
      split at h
      . next block' hblock' =>
          obtain ⟨proc, hproc, h⟩ := bind_ok.mp h
          obtain ⟨msgType', rfl⟩ := signalProc_ok hproc
          have hlist := (Prod.mk.inj (Except.ok.inj h)).2
          have heff := (List.cons.inj hlist).1
          have hbytes : block'.written.take mid.fragmentDataLen = bytes := by
            unfold signalEffect at heff
            split at heff <;> split at heff <;> cases heff <;> rfl
          have hlt := (hmidSound block' hblock').len_lt
          rw [← hbytes, length_take]
          omega
      . cases h
  . cases h

theorem none_ignores {fs : List Fragment} (hfs : ∀ f ∈ fs, f.payload.length + 1 < 65536)
    (htype : ∀ f ∈ fs, f.type = .continue ∨ f.type = .end) (hnone : chann.fragmentData = none) :
    receive chann (restInds fs hfs) = .ok (chann, []) := by
  induction fs with
  | nil => rfl
  | cons f fs ih =>
    rw [forall_mem_cons] at htype
    have hstep : avdtpHandleSignalInd chann (restInd f (hfs f mem_cons_self)) =
        .ok (chann, []) := by
      have hinfo : byteAt (restInd f (hfs f mem_cons_self)).data 0 = .ok f.transInfo.toNat := rfl
      unfold avdtpHandleSignalInd
      unfold Fragment.type at htype
      obtain h | h := htype.1
      . simp only [hinfo, bind, Except.bind, h, contInd, hnone]
      . simp only [hinfo, bind, Except.bind, h, contInd, hnone]
    exact receive_cons.mpr ⟨_, _, _, hstep,
      ih (fun g hg => hfs g (mem_cons_of_mem _ hg)) htype.2, rfl⟩

theorem middle_types : ∀ f ∈ signal.middle, f.type = .continue ∨ f.type = .end := by
  intro f hf
  obtain h | h := signal.middle_type f hf
  . exact .inl h
  . exact .inr h.1

theorem processed_starts (h : Processed idle signal granted) :
    granted = true ∧ signal.start.payload ≠ [] := by
  by_contra hnot
  obtain ⟨held, freed, done, id, hrun, _, hend, _⟩ := h
  obtain ⟨mid, first, later, hfirst, hlater, _⟩ := receive_cons.mp hrun
  have hnone : mid.fragmentData = none := by
    have hinfo : byteAt (signal.startInd granted).data 0 = .ok signal.start.transInfo.toNat := rfl
    have htype : pktType signal.start.transInfo.toNat = .start := signal.start_type
    have hgranted : (signal.startInd granted).granted = granted := rfl
    unfold avdtpHandleSignalInd at hfirst
    simp only [hinfo, bind, Except.bind, htype, hgranted] at hfirst
    by_cases hne : signal.start.payload = []
    . have hshort : ¬(signal.startInd granted).data.length > 3 := by simp [Signal.startInd, hne]
      rw [startInd, if_neg hshort] at hfirst
      cases hfirst
      rfl
    . have hfalse : granted = false := by
        cases granted with
        | false => rfl
        | true => exact absurd ⟨rfl, hne⟩ hnot
      subst hfalse
      unfold startInd at hfirst
      split at hfirst
      . obtain ⟨info, _, hfirst⟩ := bind_ok.mp hfirst
        obtain ⟨pktNum, _, hfirst⟩ := bind_ok.mp hfirst
        obtain ⟨signalId, _, hfirst⟩ := bind_ok.mp hfirst
        cases hfirst
        rfl
      . cases hfirst
        rfl
  have hignored := none_ignores signal.middle_lt middle_types hnone
  cases hignored.symm.trans hlater
  have hlast := @none_ignores held [signal.last]
    (forall_mem_cons.mpr ⟨signal.last_lt, nofun⟩)
    (forall_mem_cons.mpr ⟨.inr signal.last_type, nofun⟩) hnone
  obtain ⟨_, _, _, hlastStep, _, hnil⟩ := receive_cons.mp hlast
  cases hlastStep.symm.trans hend
  simp at hnil

theorem ok_of_processed (h : Processed idle signal granted) : SignalOk signal granted := by
  obtain ⟨rfl, hne⟩ := processed_starts h
  obtain ⟨held, freed, done, id, hrun, hfree, hend, _⟩ := h
  have hsoundIdle : Sound idle := nofun
  have hcontent : signal.content.length + 2 < 65536 := by
    have htype : pktType ((restInd signal.last signal.last_lt).data.getD 0 0).toNat = .end :=
      signal.last_type
    have hlt := end_len (receive_sound hsoundIdle hrun) htype hend
    simpa [Signal.bytes] using hlt
  have hlen := congrArg List.length (content_eq signal)
  simp only [length_append] at hlen
  obtain ⟨mid, first, later, hfirst, hlater, rfl⟩ := receive_cons.mp hrun
  rw [start_handle hne] at hfirst
  split_ifs at hfirst with hstart
  obtain ⟨rfl, rfl⟩ := Prod.mk.inj (Except.ok.inj hfirst)
  obtain ⟨hconts, hroom, rfl⟩ := middle_conv signal.middle_lt middle_types hstart
    (by rw [length_append]; omega) hlater
    (fun e he => hfree e (mem_append_right _ he))
  rw [rest_midway (by rw [last_joined]; exact hcontent) hroom signal.last_lt
    (.inr signal.last_type), last_joined] at hend
  split_ifs at hend with hfits
  . exact ⟨rfl, hne, hfits, hcontent, hconts⟩
  . exact ⟨rfl, hne, hfits, hcontent, hconts⟩

end

theorem signal_iff (signal : Signal) (granted : Bool) (inds : List DataInd) :
    ((∀ history chann effects, receive idle history = .ok (chann, effects) →
      Processed chann signal granted) ↔ SignalOk signal granted) ∧
    ∀ chann effects, receive idle inds = .ok (chann, effects) → (freedIds effects).Nodup := by
  constructor
  . constructor
    . intro h
      exact ok_of_processed (h [] idle [] rfl)
    . rintro hok history chann effects _
      obtain rfl : granted = true := hok.1
      exact processed_of_ok hok
  . intro chann effects h
    exact (@receive_freed idle chann effects inds nofun nofun h).1

def crossed : Signal where
  signalId := 0x06
  start := ⟨0x14, [1, 2]⟩
  middle := [⟨0x18, [3, 4]⟩, ⟨0x2c, [9]⟩]
  last := ⟨0x1c, [5]⟩
  start_type := by decide
  middle_type := by decide
  last_type := by decide
  last_label := by decide
  num_lt := by decide
  start_lt := by decide
  middle_lt := by decide
  own_le := by decide
  last_le := by decide

def uncrossed : Signal :=
  { crossed with
    middle := [⟨0x18, [3, 4]⟩]
    middle_type := by decide
    num_lt := by decide
    middle_lt := by decide
    own_le := by decide }

theorem signal_uncrossed : Processed idle uncrossed true :=
  (signal_iff uncrossed true []).1.mpr
    ⟨rfl, by decide, by decide, by decide, by decide⟩ [] idle [] rfl

theorem not_signal :
    ¬∀ signal history chann effects, receive idle history = .ok (chann, effects) →
      Processed chann signal true := by
  intro h
  obtain ⟨_, _, _, _, hconts⟩ := ok_of_processed (h crossed [] idle [] rfl)
  have hend := hconts ⟨0x2c, [9]⟩ (by decide)
  revert hend
  decide

end AvdtpSignal
