import Earphone.Ascs.CheckResult
import Earphone.Ascs.Effect

namespace Ascs

open Scan Ltv List

def asked (op : Op) (bytes : List UInt8) (p : Nat) : Asked :=
  match op with
  | .configCodec =>
    .codec (codecCfgParam bytes p).codecId (octets bytes (p + 9) (octet bytes (p + 8)))
  | .configQos => .qos (qosCfgParam bytes p).qos
  | .enable => .metadata (octets bytes (p + 2) (octet bytes (p + 1)))
  | .updateMetadata => .metadata (octets bytes (p + 2) (octet bytes (p + 1)))
  | _ => .nothing

def reported : Option CpNotify → List (Nat × Resp)
  | none => []
  | some notify => if notify.numberOfAse = 0xFF then [] else notify.params

structure Agrees (table : AseTable) (bytes : List UInt8) (resps : List (Nat × Resp))
    (table' : AseTable) : Prop where
  unknown : Op.ofByte (octet bytes 0) = none → resps = []
  inOrder : ∀ op, Op.ofByte (octet bytes 0) = some op →
    resps.map Prod.fst <+: entryIds op bytes (octet bytes 1) 2
  applied : ∀ op, Op.ofByte (octet bytes 0) = some op → ∀ i r, resps[i]? = some r →
    r.2.code = 0 → ∃ old e, aseFindByAseId table r.1 = some old ∧
      aseFindByAseId table' r.1 = some e ∧
      Has op (asked op bytes (entryEnd op bytes i 2)) old e
  unchanged : ∀ x, ((∃ r ∈ resps, r.1 = x ∧ r.2.code ≠ 0) ∨ ∀ r ∈ resps, r.1 ≠ x) →
    aseFindByAseId table' x = aseFindByAseId table x

def AlreadyHas (table : AseTable) (op : Op) (bytes : List UInt8) (k : Nat) : Prop :=
  ∃ e, aseFindByAseId table (octet bytes (entryEnd op bytes k 2)) = some e ∧
    Has op (asked op bytes (entryEnd op bytes k 2)) e e

def answer (verdict : AseCp → Nat) (op : Op) (aseNum : Nat) (params : List CpParam) : Nat :=
  if op = .recStartReady ∨ op = .recStopReady then 0 else verdict ⟨op, aseNum, params⟩

structure RespondsWhen (app : App) (verdict : AseCp → Nat) (table : AseTable) (op : Op)
    (bytes : List UInt8) : Prop where
  refused : ∀ j < octet bytes 1, RefusesAt app table op bytes j 2 →
    ∀ k < j, AlreadyHas table op bytes k
  rejected : ∀ params, TakesAll app table op bytes (octet bytes 1) 2 params →
    answer verdict op (octet bytes 1) params ≠ 0 →
    answer verdict op (octet bytes 1) params ≠ respInsufficientResource →
    answer verdict op (octet bytes 1) params ≠ respUnspecifiedError →
    ∀ k < octet bytes 1, AlreadyHas table op bytes k
  applied : ∀ params, TakesAll app table op bytes (octet bytes 1) 2 params →
    answer verdict op (octet bytes 1) params = 0 →
    ∀ j < octet bytes 1, ∀ k < octet bytes 1,
      octet bytes (entryEnd op bytes j 2) = octet bytes (entryEnd op bytes k 2) →
      asked op bytes (entryEnd op bytes j 2) = asked op bytes (entryEnd op bytes k 2)

section

variable {app : App} {table : AseTable} {op : Op} {bytes : List UInt8} {p : Nat} {param : CpParam}

theorem octets_length {i n : Nat} (h : i + n ≤ bytes.length) : (octets bytes i n).length = n := by
  rw [octets, length_take, length_drop]
  omega

section

variable (h : Takes app table op bytes p param)

include h

theorem Takes.asked_eq : param.asked = asked op bytes p := by
  obtain ⟨e, -, h⟩ := h
  cases op with
  | configCodec =>
    obtain ⟨-, cfg, -, -, rfl⟩ := h
    rfl
  | configQos => exact h.2.2 ▸ rfl
  | enable => exact h.2 ▸ rfl
  | updateMetadata => exact h.2 ▸ rfl
  | recStartReady => exact h ▸ rfl
  | recStopReady => exact h ▸ rfl
  | disable => exact h ▸ rfl
  | release => exact h ▸ rfl

theorem Takes.find : ∃ e, aseFindByAseId table param.ase = some e ∧ StateOk op e := by
  have hase := h.ase
  obtain ⟨e, he, -⟩ := h
  rw [hase]
  exact ⟨e, checkAse_ok.mp he⟩

theorem Takes.fits (hend : p + (fixedLen op + countedLen op bytes p) ≤ bytes.length) :
    param.Fits op := by
  obtain ⟨e, -, h⟩ := h
  cases op with
  | configCodec =>
    have hend : p + (9 + octet bytes (p + 8)) ≤ bytes.length := hend
    obtain ⟨-, cfg, htaken, -, rfl⟩ := h
    have hlen := @octets_length bytes (p + 9) (octet bytes (p + 8)) (by omega)
    refine ⟨rfl, hlen.symm, fun hnil => htaken.1 ?_⟩
    rw [hnil] at hlen
    exact hlen.symm
  | configQos => exact h.2.2 ▸ rfl
  | enable =>
    have hend : p + (2 + octet bytes (p + 1)) ≤ bytes.length := hend
    rw [h.2]
    exact ⟨.inl rfl, (octets_length (by omega)).symm⟩
  | updateMetadata =>
    have hend : p + (2 + octet bytes (p + 1)) ≤ bytes.length := hend
    rw [h.2]
    exact ⟨.inr rfl, (octets_length (by omega)).symm⟩
  | recStartReady => exact h ▸ rfl
  | recStopReady => exact h ▸ rfl
  | disable => exact h ▸ rfl
  | release => exact h ▸ rfl

theorem Takes.stores : Stores app table op bytes p := by
  obtain ⟨e, he, h⟩ := h
  refine ⟨e, he, ?_⟩
  cases op with
  | configCodec =>
    obtain ⟨hhead, cfg, htaken, -, -⟩ := h
    exact ⟨hhead, htaken.1⟩
  | configQos => exact h.1
  | enable => exact h.1
  | updateMetadata => exact h.1
  | recStartReady => trivial
  | recStopReady => trivial
  | disable => trivial
  | release => trivial

end

end

section

variable {envs : Nat → Env} {op : Op} {table : AseTable} {params : List CpParam}

theorem cpActions_has {ask : Nat → Asked} {old : Nat → AseEntry}
    (hmem : ∀ n, (envs n).memory = true)
    (hparams : ∀ param ∈ params, param.Fits op ∧ param.asked = ask param.ase ∧
      StateOk op (old param.ase))
    (htable : ∀ param ∈ params, ∃ e, aseFindByAseId table param.ase = some e ∧
      e.direction = (old param.ase).direction ∧
      (e.aseState = (old param.ase).aseState ∨ Has op (ask param.ase) (old param.ase) e)) :
    (∀ param ∈ params, ∃ e, aseFindByAseId (cpActions envs op table params).1 param.ase = some e ∧
      Has op (ask param.ase) (old param.ase) e) ∧
    ∀ x, (∀ param ∈ params, param.ase ≠ x) →
      aseFindByAseId (cpActions envs op table params).1 x = aseFindByAseId table x := by
  induction params generalizing table with
  | nil => exact ⟨fun _ h => absurd h not_mem_nil, fun _ _ => rfl⟩
  | cons param params ih =>
    obtain ⟨e, he, hdir, hs⟩ := htable param mem_cons_self
    obtain ⟨hfit, hask, hok⟩ := hparams param mem_cons_self
    rw [← hask] at hs
    have hhas := cpAction_has (hmem params.length) hfit hok hdir hs
    obtain ⟨hid, hdir'⟩ := @cpAction_same (envs params.length) op e param
    have hid : (cpAction (envs params.length) op e param).entry.aseId = param.ase :=
      hid.trans (find_aseId he)
    have hself := find_setAse_self he hid
    have hstep : cpActions envs op table (param :: params) =
        ((cpActions envs op
            (setAse table (cpAction (envs params.length) op e param).entry) params).1,
          (cpAction (envs params.length) op e param).notified ++
            (cpActions envs op
              (setAse table (cpAction (envs params.length) op e param).entry) params).2) := by
      simp only [cpActions, he]
    obtain ⟨hall, hothers⟩ := @ih (setAse table (cpAction (envs params.length) op e param).entry)
      (fun q hq => hparams q (mem_cons_of_mem _ hq)) fun q hq => by
        by_cases hsame : param.ase = q.ase
        . rw [← hsame]
          exact ⟨_, hself, hdir'.trans hdir, .inr (hask ▸ hhas)⟩
        . rw [find_setAse_ne (hid ▸ hsame)]
          exact htable q (mem_cons_of_mem _ hq)
    rw [hstep]
    refine ⟨fun q hq => ?_, fun x hx => ?_⟩
    . rcases mem_cons.mp hq with rfl | hq
      . by_cases hlater : ∃ q' ∈ params, q'.ase = q.ase
        . obtain ⟨q', hq', hsame⟩ := hlater
          rw [← hsame]
          exact hall q' hq'
        . push_neg at hlater
          rw [hothers q.ase hlater, hself]
          exact ⟨_, rfl, hask ▸ hhas⟩
      . exact hall q hq
    . rw [hothers x fun q hq => hx q (mem_cons_of_mem _ hq),
        find_setAse_ne (hid ▸ hx param mem_cons_self)]

theorem setMinLatency_find (latency : Nat) :
    (∀ x e, aseFindByAseId table x = some e → ∃ l,
      aseFindByAseId (setMinLatency latency table params) x =
        some { e with minTransportLatency := l }) ∧
    ∀ x, (∀ param ∈ params, param.ase ≠ x) →
      aseFindByAseId (setMinLatency latency table params) x = aseFindByAseId table x := by
  induction params generalizing table with
  | nil => exact ⟨fun x e h => ⟨e.minTransportLatency, h⟩, fun _ _ => rfl⟩
  | cons param params ih =>
    cases hp : aseFindByAseId table param.ase with
    | none =>
      have hstep : setMinLatency latency table (param :: params) =
          setMinLatency latency table params := by
        simp only [setMinLatency, foldl_cons, hp]
      rw [hstep]
      exact ⟨ih.1, fun x hx => ih.2 x fun q hq => hx q (mem_cons_of_mem _ hq)⟩
    | some old =>
      have hstep : setMinLatency latency table (param :: params) =
          setMinLatency latency (setAse table { old with minTransportLatency := latency }) params := by
        simp only [setMinLatency, foldl_cons, hp]
      have hid := find_aseId hp
      obtain ⟨hall, hothers⟩ := @ih (setAse table { old with minTransportLatency := latency })
      rw [hstep]
      refine ⟨fun x e he => ?_, fun x hx => ?_⟩
      . by_cases hx : param.ase = x
        . subst hx
          rw [hp, Option.some.injEq] at he
          subst he
          exact hall _ { old with minTransportLatency := latency } (find_setAse_self hp hid)
        . exact hall x e (by rw [find_setAse_ne (by simpa [hid] using hx), he])
      . rw [hothers x fun q hq => hx q (mem_cons_of_mem _ hq),
          find_setAse_ne (by simpa [hid] using hx param mem_cons_self)]

theorem handleRemoteCp_has {sduInterval : CodecCfg → Option Nat} {cp : AseCp}
    (hmem : ∀ n, (envs n).memory = true)
    (hparams : ∀ param ∈ cp.params, param.Fits cp.op ∧
      ∃ e, aseFindByAseId table param.ase = some e ∧ StateOk cp.op e)
    (hsame : ∀ param ∈ cp.params, ∀ q ∈ cp.params, param.ase = q.ase → param.asked = q.asked) :
    (∀ param ∈ cp.params, ∃ old e, aseFindByAseId table param.ase = some old ∧
      aseFindByAseId (aseHandleRemoteCp envs sduInterval table cp).1 param.ase = some e ∧
      Has cp.op param.asked old e) ∧
    ∀ x, (∀ param ∈ cp.params, param.ase ≠ x) →
      aseFindByAseId (aseHandleRemoteCp envs sduInterval table cp).1 x = aseFindByAseId table x := by
  let ask : Nat → Asked := fun x =>
    ((cp.params.find? fun param => param.ase = x).map CpParam.asked).getD .nothing
  let old : Nat → AseEntry := fun x => (aseFindByAseId table x).getD (aseInit 0 .sink)
  have hask : ∀ param ∈ cp.params, param.asked = ask param.ase := by
    intro param hparam
    cases hf : cp.params.find? fun q => q.ase = param.ase with
    | none =>
      have := find?_eq_none.mp hf param hparam
      simp at this
    | some q =>
      have hq := mem_of_find?_eq_some hf
      have heq : q.ase = param.ase := by simpa using find?_some hf
      simp only [ask, hf, Option.map_some, Option.getD_some]
      exact hsame param hparam q hq heq.symm
  have hold : ∀ param ∈ cp.params, aseFindByAseId table param.ase = some (old param.ase) ∧
      StateOk cp.op (old param.ase) := by
    intro param hparam
    obtain ⟨-, e, he, hok⟩ := hparams param hparam
    simp only [old, he, Option.getD_some]
    exact ⟨trivial, hok⟩
  have hall : ∀ param ∈ cp.params, param.Fits cp.op ∧ param.asked = ask param.ase ∧
      StateOk cp.op (old param.ase) :=
    fun param hparam => ⟨(hparams param hparam).1, hask param hparam, (hold param hparam).2⟩
  unfold aseHandleRemoteCp
  split_ifs
  . obtain ⟨hmin, hminOthers⟩ := @setMinLatency_find table cp.params
      (minTransportLatency sduInterval table cp.params)
    obtain ⟨hhas, hothers⟩ := @cpActions_has envs cp.op
      (setMinLatency (minTransportLatency sduInterval table cp.params) table cp.params) cp.params
      ask old hmem hall fun param hparam => by
        obtain ⟨l, hl⟩ := hmin _ _ (hold param hparam).1
        exact ⟨_, hl, rfl, .inl rfl⟩
    refine ⟨fun param hparam => ?_, fun x hx => (hothers x hx).trans (hminOthers x hx)⟩
    obtain ⟨e, he, hh⟩ := hhas param hparam
    exact ⟨_, e, (hold param hparam).1, he, hask param hparam ▸ hh⟩
  . obtain ⟨hhas, hothers⟩ := @cpActions_has envs cp.op table cp.params ask old
      hmem hall fun param hparam => ⟨_, (hold param hparam).1, rfl, .inl rfl⟩
    refine ⟨fun param hparam => ?_, hothers⟩
    obtain ⟨e, he, hh⟩ := hhas param hparam
    exact ⟨_, e, (hold param hparam).1, he, hask param hparam ▸ hh⟩

end

section

variable {app : App} {verdict : AseCp → Nat} {envs : Nat → Env}
  {sduInterval : CodecCfg → Option Nat} {table : AseTable} {op : Op} {bytes : List UInt8}

def applyCp (envs : Nat → Env) (sduInterval : CodecCfg → Option Nat) (table : AseTable) :
    Option AseCp → AseTable
  | none => table
  | some cp => (aseHandleRemoteCp envs sduInterval table cp).1

theorem agrees_same (hop : Op.ofByte (octet bytes 0) = some op)
    (hids : resps.map Prod.fst <+: entryIds op bytes (octet bytes 1) 2)
    (hid : ∀ i r, resps[i]? = some r → r.1 = octet bytes (entryEnd op bytes i 2)) :
    Agrees table bytes resps table ↔
      ∀ i r, resps[i]? = some r → r.2.code = 0 → AlreadyHas table op bytes i := by
  constructor
  . intro h i r hi hcode
    obtain ⟨old, e, hold, he, hhas⟩ := h.applied op hop i r hi hcode
    rw [hold, Option.some.injEq] at he
    subst he
    exact ⟨old, hid i r hi ▸ hold, hhas⟩
  . intro h
    refine ⟨fun hnone => ?_, fun op' hop' => ?_, fun op' hop' i r hi hcode => ?_, fun _ _ => rfl⟩
    . rw [hop] at hnone
      cases hnone
    . rw [hop, Option.some.injEq] at hop'
      exact hop' ▸ hids
    . rw [hop, Option.some.injEq] at hop'
      subst hop'
      obtain ⟨e, he, hhas⟩ := h i r hi hcode
      rw [hid i r hi]
      exact ⟨e, e, he, he, hhas⟩

theorem entryEnd_lt (hend : entryEnd op bytes n p = bytes.length) (hk : k < n) :
    entryEnd op bytes k p +
      (fixedLen op + countedLen op bytes (entryEnd op bytes k p)) ≤ bytes.length := by
  have := @entryEnd_mono op bytes n p (k + 1) (by omega)
  rw [entryEnd_succ, hend] at this
  exact this

theorem TakesAll.mem (h : TakesAll app table op bytes n p params) (hmem : param ∈ params) :
    ∃ k < n, params[k]? = some param ∧ Takes app table op bytes (entryEnd op bytes k p) param := by
  obtain ⟨k, hk⟩ := List.getElem?_of_mem hmem
  obtain ⟨hlt, -⟩ := List.getElem?_eq_some_iff.mp hk
  exact ⟨k, by rw [← h.1]; exact hlt, hk, h.2 k param hk⟩

theorem TakesAll.get (h : TakesAll app table op bytes n p params) (hk : k < n) :
    ∃ param, params[k]? = some param ∧ Takes app table op bytes (entryEnd op bytes k p) param := by
  have hlt : k < params.length := by rw [h.1]; exact hk
  have hget := getElem?_eq_getElem hlt
  exact ⟨_, hget, h.2 k _ hget⟩

theorem RefusesAt.unique (h : RefusesAt app table op bytes j p)
    (h' : RefusesAt app table op bytes j' p) : j = j' := by
  rcases Nat.lt_trichotomy j j' with hlt | heq | hgt
  . exact absurd (h'.1 j hlt) h.2
  . exact heq
  . exact absurd (h.1 j' hgt) h'.2

theorem taken_le (hsafe : EntriesSafe app table op bytes n 2 0) (hk : k ≤ n)
    (htaken : ∀ m < k, EntryTaken app table op bytes (entryEnd op bytes m 2)) : k ≤ 7 := by
  by_contra hgt
  obtain ⟨param, htakes⟩ := htaken 7 (by omega)
  have := (hsafe 7 (by omega) fun m hm => htaken m (by omega)).2 htakes.stores
  simp [ascsAesCharMaxNum] at this

theorem agrees_refused (hop : Op.ofByte (octet bytes 0) = some op)
    (hend : entryEnd op bytes (octet bytes 1) 2 = bytes.length)
    (hsafe : EntriesSafe app table op bytes (octet bytes 1) 2 0)
    (hpass : Passes app table op bytes 2 resps none) :
    Agrees table bytes (reported (finish verdict op (octet bytes 1) (resps, none)).1) table ↔
      RespondsWhen app verdict table op bytes := by
  obtain ⟨j, hj, hrefuses, hlen, hresps⟩ := hpass.refusesAt hend
  have hsmall := taken_le hsafe (by omega) hrefuses.1
  have hreported : reported (finish verdict op (octet bytes 1) (resps, none)).1 = resps := by
    simp only [finish, reported]
    rw [if_neg (by omega)]
  have hnot : ∀ params, ¬TakesAll app table op bytes (octet bytes 1) 2 params := by
    intro params hall
    obtain ⟨param, -, htakes⟩ := hall.get hj
    exact hrefuses.2 ⟨param, htakes⟩
  rw [hreported, agrees_same hop (hpass.ids hend) fun i r hi => hpass.id_eq hi]
  constructor
  . intro h
    refine ⟨fun j' _ hj' k hk => ?_, fun params hall => absurd hall (hnot params),
      fun params hall => absurd hall (hnot params)⟩
    obtain rfl := hrefuses.unique hj'
    have hget := getElem?_eq_getElem (show k < resps.length by omega)
    exact h k _ hget ((hresps k _ hget).1.mpr hk)
  . intro h i r hi hcode
    exact h.refused j hj hrefuses i ((hresps i r hi).1.mp hcode)

structure AllTaken (app : App) (table : AseTable) (op : Op) (bytes : List UInt8)
    (resps : List (Nat × Resp)) (params : List CpParam) : Prop where
  hop : Op.ofByte (octet bytes 0) = some op
  hend : entryEnd op bytes (octet bytes 1) 2 = bytes.length
  all : TakesAll app table op bytes (octet bytes 1) 2 params
  resps_eq : resps = params.map fun param => (param.ase, .success)
  ids : resps.map Prod.fst <+: entryIds op bytes (octet bytes 1) 2
  id_eq : ∀ i r, resps[i]? = some r → r.1 = octet bytes (entryEnd op bytes i 2)
  num_le : octet bytes 1 ≤ 7

namespace AllTaken

variable {resps : List (Nat × Resp)} {params : List CpParam}

theorem of_passes (hop : Op.ofByte (octet bytes 0) = some op)
    (hend : entryEnd op bytes (octet bytes 1) 2 = bytes.length)
    (hsafe : EntriesSafe app table op bytes (octet bytes 1) 2 0)
    (hpass : Passes app table op bytes 2 resps (some params)) :
    AllTaken app table op bytes resps params :=
  { hop, hend
    all := hpass.takesAll hend
    resps_eq := hpass.responses
    ids := hpass.ids hend
    id_eq := fun _ _ hi => hpass.id_eq hi
    num_le := taken_le hsafe (Nat.le_refl _) fun m hm => by
      obtain ⟨param, -, htakes⟩ := (hpass.takesAll hend).get hm
      exact ⟨param, htakes⟩ }

variable (h : AllTaken app table op bytes resps params)

include h

theorem not_refusesAt (hj : j < octet bytes 1) : ¬RefusesAt app table op bytes j 2 := by
  intro hrefuses
  obtain ⟨param, -, htakes⟩ := h.all.get hj
  exact hrefuses.2 ⟨param, htakes⟩

theorem resp_of_param {i : Nat} {param : CpParam} (hi : params[i]? = some param) :
    resps[i]? = some (param.ase, .success) := by
  rw [h.resps_eq, getElem?_map, hi]
  rfl

theorem param_of_resp {i : Nat} {r : Nat × Resp} (hi : resps[i]? = some r) :
    ∃ param, params[i]? = some param ∧ r = (CpParam.ase param, Resp.success) := by
  rw [h.resps_eq, getElem?_map] at hi
  cases hp : params[i]? with
  | none => simp [hp] at hi
  | some param =>
    simp only [hp, Option.map_some, Option.some.injEq] at hi
    exact ⟨param, rfl, hi.symm⟩

theorem reported_eq : reported (some ⟨op.toByte, octet bytes 1, resps'⟩) = resps' := by
  have := h.num_le
  simp only [reported]
  rw [if_neg (by omega)]

theorem respondsWhen_iff :
    RespondsWhen app verdict table op bytes ↔
      (answer verdict op (octet bytes 1) params ≠ 0 →
        answer verdict op (octet bytes 1) params ≠ respInsufficientResource →
        answer verdict op (octet bytes 1) params ≠ respUnspecifiedError →
        ∀ k < octet bytes 1, AlreadyHas table op bytes k) ∧
      (answer verdict op (octet bytes 1) params = 0 →
        ∀ j < octet bytes 1, ∀ k < octet bytes 1,
          octet bytes (entryEnd op bytes j 2) = octet bytes (entryEnd op bytes k 2) →
          asked op bytes (entryEnd op bytes j 2) = asked op bytes (entryEnd op bytes k 2)) := by
  constructor
  . exact fun hw => ⟨hw.rejected params h.all, hw.applied params h.all⟩
  . rintro ⟨hrejected, happlied⟩
    refine ⟨fun j hj hrefuses => absurd hrefuses (h.not_refusesAt hj), fun params' hall => ?_,
      fun params' hall => ?_⟩
    . obtain rfl := hall.unique h.all
      exact hrejected
    . obtain rfl := hall.unique h.all
      exact happlied

theorem agrees_applied (hmem : ∀ n, (envs n).memory = true)
    (h0 : answer verdict op (octet bytes 1) params = 0) :
    Agrees table bytes resps
        (aseHandleRemoteCp envs sduInterval table ⟨op, octet bytes 1, params⟩).1 ↔
      RespondsWhen app verdict table op bytes := by
  rw [h.respondsWhen_iff]
  constructor
  . intro ha
    refine ⟨fun hne => absurd h0 hne, fun _ j hj k hk hid => ?_⟩
    obtain ⟨pj, hpj, htj⟩ := h.all.get hj
    obtain ⟨pk, hpk, htk⟩ := h.all.get hk
    obtain ⟨oldj, ej, holdj, hej, hhasj⟩ := ha.applied op h.hop j _ (h.resp_of_param hpj) rfl
    obtain ⟨oldk, ek, holdk, hek, hhask⟩ := ha.applied op h.hop k _ (h.resp_of_param hpk) rfl
    have hsame : pj.ase = pk.ase := by rw [htj.ase, htk.ase, hid]
    simp only [hsame] at holdj hej
    rw [holdk, Option.some.injEq] at holdj
    rw [hek, Option.some.injEq] at hej
    subst holdj hej
    exact hhasj.asked_eq hhask
  . rintro ⟨-, hasks⟩
    obtain ⟨happlied, hothers⟩ := @handleRemoteCp_has envs table sduInterval
      ⟨op, octet bytes 1, params⟩ hmem
      (fun param hparam => by
        obtain ⟨k, hk, -, htakes⟩ := h.all.mem hparam
        exact ⟨htakes.fits (entryEnd_lt h.hend hk), htakes.find⟩)
      fun param hparam q hq hsame => by
        obtain ⟨j, hj, -, htj⟩ := h.all.mem hparam
        obtain ⟨k, hk, -, htk⟩ := h.all.mem hq
        rw [htj.asked_eq, htk.asked_eq]
        exact hasks h0 j hj k hk (by rw [← htj.ase, ← htk.ase, hsame])
    refine ⟨fun hnone => ?_, fun op' hop' => ?_, fun op' hop' i r hi _ => ?_, fun x hx => ?_⟩
    . rw [h.hop] at hnone
      cases hnone
    . rw [h.hop, Option.some.injEq] at hop'
      exact hop' ▸ h.ids
    . rw [h.hop, Option.some.injEq] at hop'
      subst hop'
      obtain ⟨param, hparam, rfl⟩ := h.param_of_resp hi
      obtain ⟨old, e, hold, he, hhas⟩ := happlied param (mem_of_getElem? hparam)
      exact ⟨old, e, hold, he, (h.all.2 i param hparam).asked_eq ▸ hhas⟩
    . have hmemr : ∀ r ∈ resps, ∃ param ∈ params, r = (CpParam.ase param, Resp.success) := by
        intro r hr
        obtain ⟨i, hi⟩ := getElem?_of_mem hr
        obtain ⟨param, hparam, heq⟩ := h.param_of_resp hi
        exact ⟨param, mem_of_getElem? hparam, heq⟩
      rcases hx with ⟨r, hr, -, hcode⟩ | hx
      . obtain ⟨param, -, rfl⟩ := hmemr r hr
        exact absurd rfl hcode
      . refine hothers x fun param hparam => ?_
        obtain ⟨i, hi⟩ := getElem?_of_mem hparam
        exact hx _ (mem_of_getElem? (h.resp_of_param hi))

theorem agrees_told (hcode : answer verdict op (octet bytes 1) params = respInsufficientResource ∨
    answer verdict op (octet bytes 1) params = respUnspecifiedError) :
    Agrees table bytes (resps.map fun r => (r.1, { r.2 with
        code := answer verdict op (octet bytes 1) params })) table ↔
      RespondsWhen app verdict table op bytes := by
  have h0 : answer verdict op (octet bytes 1) params ≠ 0 := by
    rcases hcode with hcode | hcode <;> rw [hcode] <;> decide
  have hids : ((resps.map fun r : Nat × Resp => (r.1, { r.2 with
      code := answer verdict op (octet bytes 1) params })).map Prod.fst) = resps.map Prod.fst := by
    rw [map_map]
    rfl
  have hget : ∀ {i : Nat} {r : Nat × Resp},
      (resps.map fun r : Nat × Resp => (r.1, { r.2 with
        code := answer verdict op (octet bytes 1) params }))[i]? = some r →
      ∃ r', resps[i]? = some r' ∧ r.1 = r'.1 ∧
        r.2.code = answer verdict op (octet bytes 1) params := by
    intro i r hi
    rw [getElem?_map] at hi
    cases hr : resps[i]? with
    | none => simp [hr] at hi
    | some r' =>
      simp only [hr, Option.map_some, Option.some.injEq] at hi
      exact ⟨r', rfl, by rw [← hi], by rw [← hi]⟩
  rw [h.respondsWhen_iff, agrees_same h.hop (hids ▸ h.ids) fun i r hi => by
    obtain ⟨r', hr', heq, -⟩ := hget hi
    rw [heq]
    exact h.id_eq i r' hr']
  refine iff_of_true (fun i r hi hr => ?_) ⟨fun _ h1 h2 => ?_, fun h1 => absurd h1 h0⟩
  . obtain ⟨r', -, -, hr'⟩ := hget hi
    rw [hr'] at hr
    exact absurd hr h0
  . exact absurd hcode (by tauto)

theorem agrees_rejected (h0 : answer verdict op (octet bytes 1) params ≠ 0)
    (h1 : answer verdict op (octet bytes 1) params ≠ respInsufficientResource)
    (h2 : answer verdict op (octet bytes 1) params ≠ respUnspecifiedError) :
    Agrees table bytes resps table ↔ RespondsWhen app verdict table op bytes := by
  rw [h.respondsWhen_iff, agrees_same h.hop h.ids h.id_eq]
  constructor
  . refine fun ha => ⟨fun _ _ _ k hk => ?_, fun hz => absurd hz h0⟩
    obtain ⟨param, hparam, -⟩ := h.all.get hk
    exact ha k _ (h.resp_of_param hparam) rfl
  . rintro ⟨hrejected, -⟩ i r hi -
    obtain ⟨param, hparam, -⟩ := h.param_of_resp hi
    obtain ⟨hlt, -⟩ := List.getElem?_eq_some_iff.mp hparam
    exact hrejected h0 h1 h2 i (by rw [← h.all.1]; exact hlt)

theorem agrees_taken (hmem : ∀ n, (envs n).memory = true) :
    Agrees table bytes (reported (finish verdict op (octet bytes 1) (resps, some params)).1)
        (applyCp envs sduInterval table
          (finish verdict op (octet bytes 1) (resps, some params)).2) ↔
      RespondsWhen app verdict table op bytes := by
  have hfinish : finish verdict op (octet bytes 1) (resps, some params) =
      if answer verdict op (octet bytes 1) params = 0 then
        (some ⟨op.toByte, octet bytes 1, resps⟩, some ⟨op, octet bytes 1, params⟩)
      else
        (some ⟨op.toByte, octet bytes 1,
          rejectResps (answer verdict op (octet bytes 1) params) resps⟩, none) := rfl
  rw [hfinish]
  by_cases h0 : answer verdict op (octet bytes 1) params = 0
  . rw [if_pos h0, h.reported_eq]
    exact h.agrees_applied hmem h0
  . rw [if_neg h0, h.reported_eq]
    simp only [applyCp]
    unfold rejectResps
    split_ifs with hcode
    . exact h.agrees_told hcode
    . rw [not_or] at hcode
      exact h.agrees_rejected h0 hcode.1 hcode.2

end AllTaken

end

theorem cpData_result (hlen : bytes.length < 65536)
    (h : aseCheckCpData app verdict true table bytes fuel = .ok r) :
    (∀ op, ¬WellFormed op bytes) ∧ reported r.1 = [] ∧ r.2 = none ∨
      ∃ op checked, WellFormed op bytes ∧
        Passes app table op bytes 2 checked.1 checked.2 ∧
        r = finish verdict op (octet bytes 1) checked := by
  by_cases h0 : 0 < bytes.length
  . cases hop : Op.ofByte (octet bytes 0) with
    | none =>
      refine .inl ⟨fun op hwf => ?_, ?_⟩
      . have := ofByte_eq_some.mpr (wellFormed_iff.mp hwf).2.1
        rw [hop] at this
        cases this
      . simp only [aseCheckCpData, byteAt_octet h0, bind, Except.bind, hop] at h
        cases h
        exact ⟨rfl, rfl⟩
    | some op =>
      have hbyte := ofByte_eq_some.mp hop
      rw [aseCheckCpData_op hbyte h0] at h
      obtain ⟨lenOk, hmsg, h⟩ := bind_ok.mp h
      cases lenOk with
      | false =>
        cases h
        refine .inl ⟨fun op' hwf => ?_, rfl, rfl⟩
        have hop' := ofByte_eq_some.mpr (wellFormed_iff.mp hwf).2.1
        rw [hop, Option.some.injEq] at hop'
        subst hop'
        rw [(aseCpCheckMsgLen_true hlen hbyte).mpr hwf] at hmsg
        cases hmsg
      | true =>
        have hwf := (aseCpCheckMsgLen_true hlen hbyte).mp hmsg
        obtain ⟨hmin, -, hend⟩ := wellFormed_iff.mp hwf
        have hnum : ¬(octet bytes 1 = 0 ∧ 2 ≠ bytes.length) := by
          rintro ⟨hzero, -⟩
          rw [hzero, entryEnd] at hend
          omega
        rw [if_neg (by decide), byteAt_octet (show 1 < bytes.length by omega)] at h
        obtain ⟨aseNum, haseNum, h⟩ := bind_ok.mp h
        cases haseNum
        rw [if_neg hnum, if_neg (by decide)] at h
        obtain ⟨checked, hchecked, h⟩ := bind_ok.mp h
        cases h
        exact .inr ⟨op, checked, hwf, checkLoop_passes hlen hend (Nat.zero_add _) (octet_lt 1)
          hchecked, rfl⟩
  . simp only [aseCheckCpData, byteAt_ge (show bytes.length ≤ 0 by omega)] at h
    cases h

theorem agrees_nil : Agrees table bytes [] table :=
  { unknown := fun _ => rfl
    inOrder := fun _ _ => nil_prefix
    applied := fun _ _ i r hi => by simp at hi
    unchanged := fun _ _ => rfl }

theorem agrees_iff (hlen : bytes.length < 65536)
    (hmem : ∀ n, (envs n).memory = true) (hok : CpOk app true table bytes)
    (h : aseCheckCpData app verdict true table bytes fuel = .ok r) :
    Agrees table bytes (reported r.1) (applyCp envs sduInterval table r.2) ↔
      ∀ op, WellFormed op bytes → RespondsWhen app verdict table op bytes := by
  rcases cpData_result hlen h with ⟨hnot, hrep, hnone⟩ | ⟨op, checked, hwf, hpass, rfl⟩
  . rw [hrep, hnone]
    exact iff_of_true agrees_nil fun op hwf => absurd hwf (hnot op)
  . obtain ⟨-, hbyte, hend⟩ := wellFormed_iff.mp hwf
    have hop := ofByte_eq_some.mpr hbyte
    have hsafe := hok.entries rfl op hwf
    have honly : (∀ op', WellFormed op' bytes → RespondsWhen app verdict table op' bytes) ↔
        RespondsWhen app verdict table op bytes := by
      constructor
      . exact fun h => h op hwf
      . intro h op' hwf'
        have hop' := ofByte_eq_some.mpr (wellFormed_iff.mp hwf').2.1
        rw [hop, Option.some.injEq] at hop'
        exact hop' ▸ h
    rw [honly]
    obtain ⟨resps, params⟩ := checked
    cases params with
    | none => exact agrees_refused hop hend hsafe hpass
    | some params => exact (AllTaken.of_passes hop hend hsafe hpass).agrees_taken hmem

theorem ascsAttrWriteCb_ok :
    ascsAttrWriteCb app verdict memory envs sduInterval table bytes fuel = .ok r ↔
      ∃ checked, aseCheckCpData app verdict memory table bytes fuel = .ok checked ∧
        r.1 = checked.1 ∧ r.2.1 = applyCp envs sduInterval table checked.2 ∧
        r.2.2 = (checked.2.map fun cp => (aseHandleRemoteCp envs sduInterval table cp).2).getD [] := by
  unfold ascsAttrWriteCb
  rw [bind_ok]
  refine exists_congr fun checked => and_congr_right fun _ => ?_
  obtain ⟨notify, cp⟩ := checked
  obtain ⟨notify', table', notified⟩ := r
  cases cp <;> simp [applyCp, pure, Except.pure, Prod.ext_iff, eq_comm]

theorem response_agrees_iff (app : App) (verdict : AseCp → Nat) (envs : Nat → Env)
    (sduInterval : CodecCfg → Option Nat) (table : AseTable) (write : Write) :
    (∃ r, Runs (fun fuel => ascsAttrWriteCb app verdict true
        (fun n => { envs n with memory := true }) sduInterval table write.bytes fuel) r ∧
      Agrees table write.bytes (reported r.1) r.2.1) ↔
    CpOk app true table write.bytes ∧
      ∀ op, WellFormed op write.bytes → RespondsWhen app verdict table op write.bytes := by
  constructor
  . rintro ⟨r, ⟨fuel, hr⟩, hagrees⟩
    obtain ⟨checked, hchecked, hnotify, htable, -⟩ := ascsAttrWriteCb_ok.mp hr
    have hok := (halts_aseCheckCpData write.len_lt).mp ⟨checked, fuel, hchecked⟩
    rw [hnotify, htable] at hagrees
    exact ⟨hok, (agrees_iff write.len_lt (fun _ => rfl) hok hchecked).mp hagrees⟩
  . rintro ⟨hok, hwhen⟩
    obtain ⟨checked, fuel, hchecked⟩ :=
      (@halts_aseCheckCpData app verdict true table write.bytes write.len_lt).mpr hok
    refine ⟨(checked.1, applyCp (fun n => { envs n with memory := true }) sduInterval table checked.2,
      (checked.2.map fun cp => (aseHandleRemoteCp (fun n => { envs n with memory := true })
        sduInterval table cp).2).getD []),
      ⟨fuel, ascsAttrWriteCb_ok.mpr ⟨checked, hchecked, rfl, rfl, rfl⟩⟩, ?_⟩
    exact (agrees_iff write.len_lt (fun _ => rfl) hok hchecked).mpr hwhen

theorem not_response_agrees :
    ¬∃ r, Runs (fun fuel => ascsAttrWriteCb ⟨fun _ _ _ => true, fun _ _ _ _ => false⟩ (fun _ => 0)
        true (fun _ => ⟨true, ⟨fun _ => none, fun _ => true⟩, fun _ _ => none, fun _ => none⟩)
        (fun _ => none) [{ aseInit 1 .sink with aseState := .codecConfigured }]
        [0x08, 0x02, 0x01, 0x09] fuel) r ∧
      Agrees [{ aseInit 1 .sink with aseState := .codecConfigured }] [0x08, 0x02, 0x01, 0x09]
        (reported r.1) r.2.1 := by
  rintro ⟨r, ⟨fuel, hr⟩, hagrees⟩
  obtain ⟨checked, hchecked, hnotify, htable, -⟩ := ascsAttrWriteCb_ok.mp hr
  have hok := (halts_aseCheckCpData (by decide)).mp ⟨checked, fuel, hchecked⟩
  rw [hnotify, htable] at hagrees
  have hwhen := (agrees_iff (by decide) (fun _ => rfl) hok hchecked).mp hagrees .release
    (wellFormed_iff.mpr (by decide))
  have hrefuses : RefusesAt ⟨fun _ _ _ => true, fun _ _ _ _ => false⟩
      [{ aseInit 1 .sink with aseState := .codecConfigured }] .release [0x08, 0x02, 0x01, 0x09]
      1 2 := by
    refine ⟨fun m hm => ?_, ?_⟩
    . obtain rfl : m = 0 := by omega
      exact ⟨.aseId 1, { aseInit 1 .sink with aseState := .codecConfigured }, rfl, rfl⟩
    . rintro ⟨param, e, he, -⟩
      cases he
  obtain ⟨e, he, hhas⟩ := hwhen.refused 1 (by decide) hrefuses 0 (by decide)
  cases he
  rcases hhas with h | h <;> cases h

end Ascs
