import Earphone.Ascs.Link

namespace Ascs

open Scan List

structure Settles (mtu : Nat) (e entry : AseEntry) (notified : List AseEntry) : Prop where
  aseId : entry.aseId = e.aseId
  good : Good entry
  room : Room mtu entry
  ids : ∀ n ∈ notified, n.aseId = e.aseId
  fits : ∀ n ∈ notified, Good n ∧ Room mtu n
  value : aseGenCharData entry = aseGenCharData (notified.getLastD e)

def Told (told : Nat → Option (List Nat)) (e : AseEntry) : Prop :=
  ∀ value, told e.aseId = some value → aseGenCharData e = .ok value

section

variable {told : Nat → Option (List Nat)} {sent : Nat → Bool} {mtu : Nat} {e entry : AseEntry}
  {notified : List AseEntry}

theorem tell_self (hgood : Good e) (hroom : Room mtu e) : Told (tell mtu told e) e := by
  obtain ⟨data, hdata, hlen⟩ := hgood.charData
  have hfits := hroom.value
  intro value hvalue
  simp only [tell, hdata, if_true, Option.some.injEq] at hvalue
  rw [hdata, ← hvalue, take_of_length_le (by omega)]

theorem tell_ne (h : x ≠ e.aseId) : tell mtu told e x = told x := by
  unfold tell
  cases aseGenCharData e with
  | ok data => exact if_neg h
  | error => rfl

theorem tellAll_sent (hsent : ∀ n, sent n = true) :
    tellAll sent mtu told notified = notified.foldl (tell mtu) told := by
  induction notified generalizing told with
  | nil => rfl
  | cons e rest ih => rw [tellAll, hsent, if_pos rfl, ih, foldl_cons]

theorem tells_ne (h : ∀ n ∈ notified, n.aseId ≠ x) : notified.foldl (tell mtu) told x = told x := by
  induction notified generalizing told with
  | nil => rfl
  | cons n rest ih =>
    rw [foldl_cons, ih fun m hm => h m (mem_cons_of_mem _ hm),
      tell_ne (h n mem_cons_self).symm]

theorem Settles.told_of (h : Settles mtu e entry notified) (htold : Told told e) :
    Told (notified.foldl (tell mtu) told) entry := by
  rcases eq_nil_or_concat notified with hnil | ⟨front, last, hlast⟩
  . intro value hvalue
    have hsame := h.value
    rw [hnil] at hvalue hsame
    exact hsame.trans (htold value (by rw [← h.aseId]; exact hvalue))
  . have hmem : last ∈ notified := by rw [hlast]; simp
    obtain ⟨hgood, hroom⟩ := h.fits last hmem
    have hself := @tell_self (front.foldl (tell mtu) told) mtu last hgood hroom
    have hsame := h.value
    intro value hvalue
    rw [h.aseId, ← h.ids last hmem, hlast, concat_eq_append, foldl_append] at hvalue
    rw [hsame, hlast, concat_eq_append, getLastD_concat]
    exact hself value hvalue

end

section

variable {cig : Cig} {mtu : Nat} {e e' : AseEntry}

theorem Good.addedPath (h : Good e) : Good { e with addedPathDirection := d } :=
  ⟨h.codec, h.metadata, h.stateData⟩

theorem Room.addedPath (h : Room mtu e) : Room mtu { e with addedPathDirection := d } :=
  ⟨h.value, h.metadata⟩

theorem settles_refl (hgood : Good e) (hroom : Room mtu e) : Settles mtu e e [] :=
  { aseId := rfl
    good := hgood
    room := hroom
    ids := fun _ h => absurd h not_mem_nil
    fits := fun _ h => absurd h not_mem_nil
    value := rfl }

theorem settles_check {front : List AseEntry} (hmtu : 23 ≤ mtu) (hid : e'.aseId = e.aseId)
    (hgood : Good e') (hroom : Room mtu e')
    (hids : ∀ n ∈ front, n.aseId = e.aseId) (hfits : ∀ n ∈ front, Good n ∧ Room mtu n)
    (hvalue : aseGenCharData e' = aseGenCharData (front.getLastD e)) :
    Settles mtu e (ascsCheckCurrentState cig e').1 (front ++ (ascsCheckCurrentState cig e').2) := by
  rcases checkCurrentState_cases cig e' with ⟨d, h⟩ | ⟨-, h⟩
  . rw [h, append_nil]
    exact { aseId := hid, good := hgood.addedPath, room := hroom.addedPath, ids := hids,
            fits := hfits, value := hvalue }
  . rw [h]
    have hidle : Good (ascsChangeState e' .idle) := changeState_good hgood
    have hidleRoom : Room mtu (ascsChangeState e' .idle) := changeState_room hmtu hroom (by decide)
    refine { aseId := changeState_aseId.trans hid, good := hidle, room := hidleRoom,
             ids := fun n hn => ?_, fits := fun n hn => ?_, value := ?_ }
    . rcases mem_append.mp hn with hn | hn
      . exact hids n hn
      . rw [mem_singleton.mp hn]
        exact changeState_aseId.trans hid
    . rcases mem_append.mp hn with hn | hn
      . exact hfits n hn
      . rw [mem_singleton.mp hn]
        exact ⟨hidle, hidleRoom⟩
    . rw [getLastD_concat]

section

variable (hmtu : 23 ≤ mtu) (hid : e'.aseId = e.aseId) (hgood : Good e') (hroom : Room mtu e')

include hmtu hid hgood hroom

theorem settles_checkOnly (hvalue : aseGenCharData e' = aseGenCharData e) :
    Settles mtu e (ascsCheckCurrentState cig e').1 (ascsCheckCurrentState cig e').2 :=
  @settles_check cig mtu e e' [] hmtu hid hgood hroom (fun _ h => absurd h not_mem_nil)
    (fun _ h => absurd h not_mem_nil) hvalue

theorem settles_notify :
    Settles mtu e (notifyAndCheck cig e').entry (notifyAndCheck cig e').notified :=
  @settles_check cig mtu e e' [e'] hmtu hid hgood hroom
    (fun n hn => by rw [mem_singleton.mp hn, hid])
    (fun n hn => by rw [mem_singleton.mp hn]; exact ⟨hgood, hroom⟩) rfl

theorem settles_checkNotified
    (hvalue : e.aseState = e'.aseState → aseGenCharData e' = aseGenCharData e) :
    Settles mtu e (checkNotified cig e e').entry (checkNotified cig e e').notified := by
  unfold checkNotified
  by_cases h : e.aseState ≠ e'.aseState
  . simp only [if_pos h]
    exact settles_notify hmtu hid hgood hroom
  . simp only [if_neg h]
    exact settles_checkOnly hmtu hid hgood hroom (hvalue (not_not.mp h))

end

end

theorem settles_changeState (hmtu : 23 ≤ mtu)
    (hid : e'.aseId = e.aseId) (hgood : Good e') (hroom : Room mtu e') (hs : s ≠ .codecConfigured) :
    Settles mtu e (notifyAndCheck cig (ascsChangeState e' s)).entry
      (notifyAndCheck cig (ascsChangeState e' s)).notified :=
  settles_notify hmtu (changeState_aseId.trans hid) (changeState_good hgood)
    (changeState_room hmtu hroom hs)

theorem cfgCodec_settles
    (hmtu : 23 ≤ mtu) (hmem : env.memory = true) (hlen : param.codecSpecCfgLen = codec.length)
    (hne : codec ≠ []) (hfits : param.codecSpecCfgLen + 28 ≤ mtu) (hgood : Good e)
    (hroom : Room mtu e) :
    Settles mtu e (aseActionCfgCodec env e param codec (.ok cfg)).entry
      (aseActionCfgCodec env e param codec (.ok cfg)).notified := by
  have hpos : param.codecSpecCfgLen ≠ 0 := by
    rw [hlen]
    simpa using hne
  have hnot : ¬(param.codecSpecCfgLen ≠ 0 ∧ env.memory = false) := by
    rw [hmem]
    exact fun h => absurd h.2 (by decide)
  unfold aseActionCfgCodec
  by_cases hs : e.aseState = .idle ∨ e.aseState = .codecConfigured ∨ e.aseState = .qosConfigured
  . simp only [if_pos hs, if_neg hnot, if_pos hpos]
    obtain ⟨data, heq, -, hdata⟩ := preferQos_same env
      (setCodec (ascsChangeState e .codecConfigured) param cfg (some codec)) param
    rw [heq]
    have hstate : (ascsChangeState e .codecConfigured).aseState = .codecConfigured :=
      changeState_aseState
    have hmetadata := (changeState_good (s := .codecConfigured) hgood).metadata
    have hle := @changeState_metadataLen_le e .codecConfigured
    have hold := hroom.metadata
    refine settles_notify hmtu changeState_aseId
      ⟨⟨Nat.pos_of_ne_zero hpos, hlen.symm⟩, hmetadata, hdata⟩
      ⟨?_, show (ascsChangeState e .codecConfigured).metadataLen + 8 ≤ mtu by omega⟩
    simp only [charDataLen, setCodec, hstate, codecStateDataSize]
    omega
  . rw [if_neg hs]
    exact settles_refl hgood hroom

theorem cfgQos_settles (hmtu : 23 ≤ mtu) (hgood : Good e)
    (hroom : Room mtu e) :
    Settles mtu e (aseActionCfgQos env e qos).entry (aseActionCfgQos env e qos).notified := by
  unfold aseActionCfgQos
  split_ifs
  . have hgood' := changeState_good (s := .qosConfigured) hgood
    have hroom' := changeState_room (s := .qosConfigured) hmtu hroom (by decide)
    exact settles_notify hmtu changeState_aseId ⟨hgood'.codec, hgood'.metadata, hgood'.stateData⟩
      ⟨hroom'.value, hroom'.metadata⟩
  . exact settles_refl hgood hroom

theorem setMetadata_good (hmem : env.memory = true)
    (hlen : metadataLen = metadata.length) (hgood : Good e) :
    Good (setMetadata env e metadataLen metadata) := by
  refine ⟨hgood.codec, ?_, hgood.stateData⟩
  show Holds metadataLen (if metadataLen ≠ 0 ∧ env.memory = true then some metadata else none)
  by_cases h0 : metadataLen = 0
  . rw [if_neg (by rw [h0]; exact fun h => h.1 rfl)]
    exact h0
  . rw [if_pos ⟨h0, hmem⟩]
    exact ⟨Nat.pos_of_ne_zero h0, hlen.symm⟩

section

variable {env : Env} {metadata : List UInt8} (hmtu : 23 ≤ mtu) (hmem : env.memory = true)
  (hlen : metadataLen = metadata.length) (hfits : metadataLen + 8 ≤ mtu) (hgood : Good e)
  (hroom : Room mtu e)

include hmtu hmem hlen hfits hgood hroom

theorem enable_settles :
    Settles mtu e (aseActionEnable env e metadataLen metadata).entry
      (aseActionEnable env e metadataLen metadata).notified := by
  have hset : Good (setMetadata env (ascsChangeState e .enabling) metadataLen metadata) :=
    setMetadata_good hmem hlen (changeState_good hgood)
  have hstate : (setMetadata env (ascsChangeState e .enabling) metadataLen metadata).aseState =
      .enabling := changeState_aseState
  have hsetRoom : Room mtu (setMetadata env (ascsChangeState e .enabling) metadataLen metadata) :=
    room_of_metadata hmtu (by rw [hstate]; decide) hfits
  unfold aseActionEnable
  by_cases hs : e.aseState = .qosConfigured
  . simp only [if_pos hs]
    rw [if_neg (by rw [hmem]; exact fun h => absurd h.2 (by decide))]
    split_ifs
    . exact settles_changeState hmtu changeState_aseId hset hsetRoom (by decide)
    . exact settles_notify hmtu changeState_aseId hset hsetRoom
  . rw [if_neg hs]
    exact settles_refl hgood hroom

theorem updateMetadata_settles :
    Settles mtu e (aseActionUpdateMetadata env e metadataLen metadata).entry
      (aseActionUpdateMetadata env e metadataLen metadata).notified := by
  unfold aseActionUpdateMetadata
  by_cases hs : e.aseState ≠ .enabling ∧ e.aseState ≠ .streaming
  . rw [if_pos hs]
    exact settles_refl hgood hroom
  . rw [if_neg hs]
    simp only
    rw [if_neg (by rw [hmem]; exact fun h => absurd h.2 (by decide))]
    have hnot : (setMetadata env e metadataLen metadata).aseState ≠ .codecConfigured := by
      intro h
      have h : e.aseState = .codecConfigured := h
      exact hs ⟨by rw [h]; decide, by rw [h]; decide⟩
    have hid : (setMetadata env e metadataLen metadata).aseId = e.aseId := rfl
    exact settles_notify hmtu hid (setMetadata_good hmem hlen hgood)
      (room_of_metadata hmtu hnot hfits)

end

section

variable (hmtu : 23 ≤ mtu) (hgood : Good e) (hroom : Room mtu e)

include hmtu hgood hroom

theorem recStartReady_settles :
    Settles mtu e (aseActionRecStartReady env e).entry (aseActionRecStartReady env e).notified := by
  have hready : Good { e with recStartReady := true } :=
    ⟨hgood.codec, hgood.metadata, hgood.stateData⟩
  have hreadyRoom : Room mtu { e with recStartReady := true } := ⟨hroom.value, hroom.metadata⟩
  unfold aseActionRecStartReady
  by_cases hs : e.aseState = .enabling ∧ e.direction = .source
  . simp only [if_pos hs]
    split_ifs
    . refine settles_checkNotified hmtu changeState_aseId (changeState_good hready)
        (changeState_room hmtu hreadyRoom (by decide)) fun h => ?_
      rw [changeState_aseState, hs.1] at h
      cases h
    . exact settles_checkNotified hmtu rfl hready hreadyRoom fun _ => rfl
  . rw [if_neg hs]
    exact settles_refl hgood hroom

theorem recStopReady_settles :
    Settles mtu e (aseActionRecStopReady env e).entry (aseActionRecStopReady env e).notified := by
  have hready : Good { e with recStopReady := true } :=
    ⟨hgood.codec, hgood.metadata, hgood.stateData⟩
  have hreadyRoom : Room mtu { e with recStopReady := true } := ⟨hroom.value, hroom.metadata⟩
  unfold aseActionRecStopReady
  by_cases hs : e.aseState = .disabling ∧ e.direction = .source
  . simp only [if_pos hs]
    split_ifs
    . refine settles_checkNotified hmtu changeState_aseId (changeState_good hready)
        (changeState_room hmtu hreadyRoom (by decide)) fun h => ?_
      rw [changeState_aseState, hs.1] at h
      cases h
    . exact settles_checkNotified hmtu rfl hready hreadyRoom fun _ => rfl
  . rw [if_neg hs]
    exact settles_refl hgood hroom

theorem disable_settles :
    Settles mtu e (aseActionDisable env e).entry (aseActionDisable env e).notified := by
  unfold aseActionDisable
  split_ifs
  . exact settles_changeState hmtu rfl hgood hroom (by decide)
  . exact settles_changeState hmtu rfl hgood hroom (by decide)
  . exact settles_refl hgood hroom

theorem release_settles :
    Settles mtu e (aseActionRelease env e).entry (aseActionRelease env e).notified := by
  unfold aseActionRelease
  split_ifs
  . exact settles_changeState hmtu rfl hgood hroom (by decide)
  . exact settles_refl hgood hroom

end

theorem settles_same (hid : e'.aseId = e.aseId) (hgood : Good e')
    (hroom : Room mtu e') (hvalue : aseGenCharData e' = aseGenCharData e) : Settles mtu e e' [] :=
  { settles_refl hgood hroom with
    aseId := hid
    ids := fun _ h => absurd h not_mem_nil
    value := hvalue }

theorem switchToStreaming_settles (hmtu : 23 ≤ mtu)
    (hid : e'.aseId = e.aseId) (hgood : Good e') (hroom : Room mtu e')
    (hvalue : aseGenCharData e' = aseGenCharData e) :
    Settles mtu e (aseSwitchToStreaming cig e').entry (aseSwitchToStreaming cig e').notified := by
  unfold aseSwitchToStreaming
  split_ifs
  . exact settles_changeState hmtu hid hgood hroom (by decide)
  . exact settles_same hid hgood hroom hvalue

theorem switchToQosCfg_settles (hmtu : 23 ≤ mtu)
    (hid : e'.aseId = e.aseId) (hgood : Good e') (hroom : Room mtu e')
    (hvalue : aseGenCharData e' = aseGenCharData e) :
    Settles mtu e (aseSwitchToQosCfg cig e').entry (aseSwitchToQosCfg cig e').notified := by
  unfold aseSwitchToQosCfg
  split_ifs
  . exact settles_changeState hmtu hid hgood hroom (by decide)
  . exact settles_same hid hgood hroom hvalue

theorem released_settles (hmtu : 23 ≤ mtu)
    (hid : e'.aseId = e.aseId) (hgood : Good e') (hroom : Room mtu e')
    (hvalue : aseGenCharData e' = aseGenCharData e) :
    Settles mtu e (aseActionReleased cig e').entry (aseActionReleased cig e').notified := by
  have hsame := settles_same hid hgood hroom hvalue
  have hidle := changeState_good (s := .idle) hgood
  have hidleRoom := changeState_room (s := .idle) hmtu hroom (by decide)
  unfold aseActionReleased
  split_ifs
  . exact hsame
  . exact { aseId := changeState_aseId.trans hid, good := hidle, room := hidleRoom,
            ids := fun n hn => by
              rw [mem_singleton.mp hn]
              exact changeState_aseId.trans hid
            fits := fun n hn => by
              rw [mem_singleton.mp hn]
              exact ⟨hidle, hidleRoom⟩
            value := rfl }
  . exact hsame

end Ascs
