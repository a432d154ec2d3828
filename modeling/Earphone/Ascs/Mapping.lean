import Earphone.Ascs.Consistent
import Earphone.Ascs.Moves

namespace Ascs

open Scan Ltv Run List

structure Net where
  link : Link
  cis : Nat → Option (Nat × Nat)

def Net.init : Net := { link := Link.init, cis := fun _ => none }

def Net.step (net : Net) (event : Event × Around) : Net :=
  { link := net.link.step event
    cis :=
      match event.1 with
      | .cisEstablished cisConnHandle cigId cisId =>
        fun x => if x = cisConnHandle then some (cigId, cisId) else net.cis x
      | .disconnectInfo cisConnHandle => fun x => if x = cisConnHandle then none else net.cis x
      | _ => net.cis }

structure Mapped (cis : Nat → Option (Nat × Nat)) (table : AseTable) : Prop where
  unique : ∀ e ∈ table, ∀ n ∈ table, e.aseState.hasCis = true → n.aseState.hasCis = true →
    e.direction = n.direction → e.qosStateData.cis = n.qosStateData.cis → e = n
  handle : ∀ e ∈ table, e.aseState.hasCis = true → e.cisConnHandle ≠ 0 →
    cis e.cisConnHandle = some e.qosStateData.cis

def StreamsOverCis (net : Net) (event : Event × Around) : Prop :=
  ∀ e' ∈ (net.step event).link.table, e'.aseState = .streaming →
    (∃ e ∈ net.link.table, e.aseId = e'.aseId ∧ e.aseState = .streaming) ∨
      (net.step event).cis e'.cisConnHandle = some e'.qosStateData.cis ∧
        ∃ n, Streamable (event.2.envs n).cig e'

structure MapOk (cis : Nat → Option (Nat × Nat)) (table : AseTable) : Prop
    extends Mapped cis table where
  nodup : (table.map AseEntry.aseId).Nodup

def Follows (cigs : Nat → Cig) (table table' : AseTable) : Prop :=
  ∀ e' ∈ table', ∃ e ∈ table, e.aseId = e'.aseId ∧ e'.direction = e.direction ∧
    e'.cisConnHandle = e.cisConnHandle ∧
    (e'.aseState = .streaming → e.aseState = .streaming ∨ ∃ n, Streamable (cigs n) e')

def NoneStarts (table table' : AseTable) : Prop :=
  ∀ e' ∈ table', e'.aseState = .streaming →
    ∃ e ∈ table, e.aseId = e'.aseId ∧ e.aseState = .streaming

section

variable {cis cis' : Nat → Option (Nat × Nat)} {table table' table'' : AseTable}
  {e entry n : AseEntry} {cigs : Nat → Cig} {cig : Cig}

theorem Streamable.transfer (h : Streamable cig e) (hdir : n.direction = e.direction)
    (hhandle : n.cisConnHandle = e.cisConnHandle) : Streamable cig n := by
  obtain ⟨info, hinfo, hconn, hflags⟩ := h
  exact ⟨info, by rw [hhandle]; exact hinfo, hconn, by rw [hdir]; exact hflags⟩

theorem follows_refl : Follows cigs table table :=
  fun e he => ⟨e, he, rfl, rfl, rfl, .inl⟩

theorem Follows.trans (h : Follows cigs table table') (h' : Follows cigs table' table'') :
    Follows cigs table table'' := by
  intro e2 he2
  obtain ⟨e1, he1, hid1, hdir1, hhandle1, hs1⟩ := h' e2 he2
  obtain ⟨e, he, hid, hdir, hhandle, hs⟩ := h e1 he1
  refine ⟨e, he, hid.trans hid1, hdir1.trans hdir, hhandle1.trans hhandle, fun hstream => ?_⟩
  rcases hs1 hstream with hstream | hopen
  . rcases hs hstream with hstream | ⟨n, hopen⟩
    . exact .inl hstream
    . exact .inr ⟨n, hopen.transfer hdir1 hhandle1⟩
  . exact .inr hopen

theorem follows_set {k : Nat} (hnodup : (table.map AseEntry.aseId).Nodup) (hmem : e ∈ table)
    (hm : Moves (cigs k) e entry) : Follows cigs table (setAse table entry) := by
  intro e' he'
  rcases mem_setAse hnodup he' with rfl | ⟨he', -⟩
  . refine ⟨e, hmem, hm.aseId.symm, hm.direction, hm.handle, fun hs => ?_⟩
    exact (hm.streams hs).imp_right fun hopen => ⟨k, hopen.transfer hm.direction hm.handle⟩
  . exact ⟨e', he', rfl, rfl, rfl, .inl⟩

theorem MapOk.set (h : MapOk cis table) (hid : entry.aseId = e.aseId)
    (hunique : ∀ n ∈ table, n.aseId ≠ e.aseId → entry.aseState.hasCis = true →
      n.aseState.hasCis = true → n.direction = entry.direction →
      n.qosStateData.cis ≠ entry.qosStateData.cis)
    (hhandle : entry.aseState.hasCis = true → entry.cisConnHandle ≠ 0 →
      cis entry.cisConnHandle = some entry.qosStateData.cis) : MapOk cis (setAse table entry) := by
  refine { nodup := by rw [setAse_ids]; exact h.nodup, unique := ?_, handle := ?_ }
  . intro x hx y hy hxc hyc hdir hcis
    rcases mem_setAse h.nodup hx with hxe | ⟨hx', hxid⟩ <;>
      rcases mem_setAse h.nodup hy with hye | ⟨hy', hyid⟩
    . rw [hxe, hye]
    . subst hxe
      exact absurd hcis.symm (hunique y hy' (hid ▸ hyid) hxc hyc hdir.symm)
    . subst hye
      exact absurd hcis (hunique x hx' (hid ▸ hxid) hyc hxc hdir)
    . exact h.unique x hx' y hy' hxc hyc hdir hcis
  . intro x hx hxc hx0
    rcases mem_setAse h.nodup hx with rfl | ⟨hx, -⟩
    . exact hhandle hxc hx0
    . exact h.handle x hx hxc hx0

theorem MapOk.unique_of (h : MapOk cis table) (hmem : e ∈ table)
    (hdir : entry.direction = e.direction)
    (hcis : entry.aseState.hasCis = true →
      e.aseState.hasCis = true ∧ entry.qosStateData = e.qosStateData) :
    ∀ n ∈ table, n.aseId ≠ e.aseId → entry.aseState.hasCis = true → n.aseState.hasCis = true →
      n.direction = entry.direction → n.qosStateData.cis ≠ entry.qosStateData.cis := by
  intro n hn hne hentry hnc hndir hsame
  obtain ⟨hec, hqos⟩ := hcis hentry
  rw [hqos] at hsame
  exact hne (congrArg AseEntry.aseId (h.unique n hn e hmem hnc hec (hndir.trans hdir) hsame))

theorem MapOk.moves (h : MapOk cis table) (hmem : e ∈ table) (hm : MovesCis cig e entry) :
    MapOk cis (setAse table entry) := by
  refine h.set hm.aseId (h.unique_of hmem hm.direction hm.cis) fun hc h0 => ?_
  obtain ⟨hec, hqos⟩ := hm.cis hc
  rw [hm.handle] at h0 ⊢
  rw [hqos]
  exact h.handle e hmem hec h0

theorem mem_eachAse (h : e' ∈ (eachAse envs action table).1) :
    ∃ e ∈ table, ∃ k, e' = (action (envs k) e).entry := by
  induction table with
  | nil => exact absurd h not_mem_nil
  | cons e rest ih =>
    rcases mem_cons.mp h with h | h
    . exact ⟨e, mem_cons_self, rest.length, h⟩
    . obtain ⟨e0, he0, k, hk⟩ := ih h
      exact ⟨e0, mem_cons_of_mem _ he0, k, hk⟩

theorem eachAse_ids (hid : ∀ k e, (action (envs k) e).entry.aseId = e.aseId) :
    (eachAse envs action table).1.map AseEntry.aseId = table.map AseEntry.aseId := by
  induction table with
  | nil => rfl
  | cons e rest ih => rw [eachAse, map_cons, ih, hid, map_cons]

theorem MapOk.each (h : MapOk cis table)
    (hid : ∀ k e, (action (envs k) e).entry.aseId = e.aseId)
    (hdir : ∀ k e, (action (envs k) e).entry.direction = e.direction)
    (hcis : ∀ k e, (action (envs k) e).entry.aseState.hasCis = true →
      e.aseState.hasCis = true ∧ (action (envs k) e).entry.qosStateData = e.qosStateData)
    (hhandle : ∀ k, ∀ e ∈ table, (action (envs k) e).entry.aseState.hasCis = true →
      (action (envs k) e).entry.cisConnHandle ≠ 0 →
      cis' (action (envs k) e).entry.cisConnHandle =
        some (action (envs k) e).entry.qosStateData.cis) :
    MapOk cis' (eachAse envs action table).1 := by
  have hnodup : ((eachAse envs action table).1.map AseEntry.aseId).Nodup := by
    rw [eachAse_ids hid]
    exact h.nodup
  refine { nodup := hnodup, unique := ?_, handle := ?_ }
  . intro x hx y hy hxc hyc hxy hsame
    obtain ⟨e, he, k, hxe⟩ := mem_eachAse hx
    obtain ⟨n, hn, m, hyn⟩ := mem_eachAse hy
    subst hxe hyn
    obtain ⟨hec, heq⟩ := hcis k e hxc
    obtain ⟨hnc, hnq⟩ := hcis m n hyc
    rw [hdir, hdir] at hxy
    rw [heq, hnq] at hsame
    have hen := h.unique e he n hn hec hnc hxy hsame
    exact aseId_inj hnodup hx hy (by rw [hid, hid, hen])
  . intro x hx hxc hx0
    obtain ⟨e, he, k, hxe⟩ := mem_eachAse hx
    subst hxe
    exact hhandle k e he hxc hx0

theorem MapOk.eachMoves (h : MapOk cis table)
    (hm : ∀ k e, MovesCis (envs k).cig e (action (envs k) e).entry) :
    MapOk cis (eachAse envs action table).1 := by
  refine h.each (fun k e => (hm k e).aseId) (fun k e => (hm k e).direction)
    (fun k e => (hm k e).cis) fun k e he hc h0 => ?_
  obtain ⟨hec, hqos⟩ := (hm k e).cis hc
  rw [(hm k e).handle] at h0 ⊢
  rw [hqos]
  exact h.handle e he hec h0

theorem follows_each (hm : ∀ k e, MovesCis (envs k).cig e (action (envs k) e).entry) :
    Follows (fun k => (envs k).cig) table (eachAse envs action table).1 := by
  intro e' he'
  obtain ⟨e, he, k, rfl⟩ := mem_eachAse he'
  refine ⟨e, he, (hm k e).aseId.symm, (hm k e).direction, (hm k e).handle, fun hs => ?_⟩
  exact ((hm k e).streams hs).imp_right fun hopen =>
    ⟨k, hopen.transfer (hm k e).direction (hm k e).handle⟩

end

def CisApart (table : AseTable) (params : List CpParam) : Prop :=
  ∀ data, CpParam.configQos data ∈ params → ∀ data', CpParam.configQos data' ∈ params →
    data.aseId ≠ data'.aseId →
    ∀ e, aseFindByAseId table data.aseId = some e →
    ∀ n, aseFindByAseId table data'.aseId = some n → e.direction = n.direction →
    data.qos.cis ≠ data'.qos.cis

def CisStays (cis : Nat → Option (Nat × Nat)) (table : AseTable) (params : List CpParam) : Prop :=
  ∀ data, CpParam.configQos data ∈ params →
    ∀ e, aseFindByAseId table data.aseId = some e → e.cisConnHandle ≠ 0 →
    cis e.cisConnHandle = some data.qos.cis

def CisFree (table : AseTable) (params : List CpParam) : Prop :=
  ∀ data, CpParam.configQos data ∈ params →
    ∀ e, aseFindByAseId table data.aseId = some e →
    ∀ n ∈ table, n.aseId ≠ data.aseId → n.aseState.hasCis = true → n.direction = e.direction →
    n.qosStateData.cis ≠ data.qos.cis

structure QosOk (cis : Nat → Option (Nat × Nat)) (table : AseTable) (params : List CpParam) :
    Prop where
  apart : CisApart table params
  stays : CisStays cis table params
  free : CisFree table params

section

variable {cis : Nat → Option (Nat × Nat)} {table : AseTable} {e entry : AseEntry}
  {envs : Nat → Env} {op : Op} {param : CpParam} {params : List CpParam} {cig : Cig}

theorem mem_of_find (hnodup : (table.map AseEntry.aseId).Nodup) (hmem : e ∈ table) :
    aseFindByAseId table e.aseId = some e := by
  cases hfind : aseFindByAseId table e.aseId with
  | none =>
    have := find?_eq_none.mp hfind e hmem
    simp at this
  | some n =>
    have hin := find_mem hfind
    rw [aseId_inj hnodup hin hmem (find_aseId hfind)]

theorem find_setAse_moves (hnodup : (table.map AseEntry.aseId).Nodup)
    (hmem : e ∈ table) (hm : Moves cig e entry) (h : aseFindByAseId (setAse table entry) x = some n) :
    ∃ old, aseFindByAseId table x = some old ∧ n.direction = old.direction ∧
      n.cisConnHandle = old.cisConnHandle := by
  rw [find_setAse] at h
  by_cases hx : entry.aseId = x
  . rw [if_pos hx] at h
    rw [hm.aseId] at hx
    have hfind := mem_of_find hnodup hmem
    rw [hx] at hfind
    rw [hfind] at h
    simp only [Option.map_some, Option.some.injEq] at h
    exact ⟨e, hfind, h ▸ hm.direction, h ▸ hm.handle⟩
  . rw [if_neg hx] at h
    exact ⟨n, h, rfl, rfl⟩

theorem QosOk.next (h : QosOk cis table (param :: params))
    (hnodup : (table.map AseEntry.aseId).Nodup) (hfind : aseFindByAseId table param.ase = some e)
    (hm : Moves cig e entry)
    (hqos : (∃ data, param = .configQos data ∧ entry.qosStateData = data.qos) ∨
      (entry.aseState.hasCis = true →
        e.aseState.hasCis = true ∧ entry.qosStateData = e.qosStateData)) :
    QosOk cis (setAse table entry) params := by
  have hmem := find_mem hfind
  have hid := find_aseId hfind
  refine ⟨fun data hdata data' hdata' hne x hx y hy hdir => ?_, fun data hdata x hx h0 => ?_,
    fun data hdata x hx n hn hne hnc hdir => ?_⟩
  . obtain ⟨x', hx', hxd, -⟩ := find_setAse_moves hnodup hmem hm hx
    obtain ⟨y', hy', hyd, -⟩ := find_setAse_moves hnodup hmem hm hy
    exact h.apart data (mem_cons_of_mem _ hdata) data' (mem_cons_of_mem _ hdata') hne
      x' hx' y' hy' (hxd.symm.trans (hdir.trans hyd))
  . obtain ⟨x', hx', -, hxh⟩ := find_setAse_moves hnodup hmem hm hx
    rw [hxh] at h0 ⊢
    exact h.stays data (mem_cons_of_mem _ hdata) x' hx' h0
  . obtain ⟨x', hx', hxd, -⟩ := find_setAse_moves hnodup hmem hm hx
    rcases mem_setAse hnodup hn with rfl | ⟨hn, -⟩
    . have hdir' : e.direction = x'.direction := hm.direction.symm.trans (hdir.trans hxd)
      rcases hqos with ⟨own, rfl, hown⟩ | hsame
      . rw [hown]
        refine h.apart own mem_cons_self data (mem_cons_of_mem _ hdata) ?_ e hfind x' hx'
          hdir'
        rw [hm.aseId, hid] at hne
        exact hne
      . obtain ⟨hec, hsame⟩ := hsame hnc
        rw [hsame]
        exact h.free data (mem_cons_of_mem _ hdata) x' hx' e hmem (hm.aseId ▸ hne) hec hdir'
    . exact h.free data (mem_cons_of_mem _ hdata) x' hx' n hn hne hnc (hdir.trans hxd)

theorem MapOk.cpActions (hok : QosOk cis table params) (h : MapOk cis table) :
    MapOk cis (cpActions envs op table params).1 ∧
      Follows (fun k => (envs k).cig) table (cpActions envs op table params).1 := by
  induction params generalizing table with
  | nil => exact ⟨h, follows_refl⟩
  | cons param params ih =>
    cases he : aseFindByAseId table param.ase with
    | none =>
      simp only [Ascs.cpActions, he]
      exact ⟨h, follows_refl⟩
    | some e =>
      have hmem := find_mem he
      have hstep : ∃ entry, (cpAction (envs params.length) op e param).entry = entry ∧
          Moves (envs params.length).cig e entry ∧ MapOk cis (setAse table entry) ∧
          QosOk cis (setAse table entry) params := by
        by_cases hqos : ∃ data, param = .configQos data
        . obtain ⟨data, rfl⟩ := hqos
          rcases @moves_cfgQos (envs params.length) e data.qos with hsame | ⟨hm, hset⟩
          . have hrefl : MovesCis (envs params.length).cig e e := movesCis_refl
            exact ⟨_, hsame, hrefl.toMoves, h.moves hmem hrefl,
              hok.next h.nodup he hrefl.toMoves (.inr hrefl.cis)⟩
          . refine ⟨_, rfl, hm, h.set hm.aseId (fun n hn hne _ hnc hdir => ?_)
              (fun _ h0 => ?_), hok.next h.nodup he hm (.inl ⟨data, rfl, hset⟩)⟩
            . show n.qosStateData.cis ≠
                (aseActionCfgQos (envs params.length) e data.qos).entry.qosStateData.cis
              rw [hset]
              have hid : e.aseId = data.aseId := find_aseId he
              exact hok.free data mem_cons_self e he n hn (hid ▸ hne) hnc
                (hdir.trans hm.direction)
            . show cis (aseActionCfgQos (envs params.length) e data.qos).entry.cisConnHandle =
                some (aseActionCfgQos (envs params.length) e data.qos).entry.qosStateData.cis
              have h0 : (aseActionCfgQos (envs params.length) e data.qos).entry.cisConnHandle ≠ 0 :=
                h0
              rw [hm.handle] at h0 ⊢
              rw [hset]
              exact hok.stays data mem_cons_self e he h0
        . have hm := @moves_cpAction (envs params.length) e op param
            fun data hdata => hqos ⟨data, hdata⟩
          exact ⟨_, rfl, hm.toMoves, h.moves hmem hm, hok.next h.nodup he hm.toMoves (.inr hm.cis)⟩
      obtain ⟨entry, hentry, hm, hmap, hnext⟩ := hstep
      obtain ⟨hmap', hfollows⟩ := ih hnext hmap
      simp only [Ascs.cpActions, he, hentry]
      exact ⟨hmap', (@follows_set table e entry _ params.length h.nodup hmem hm).trans hfollows⟩

theorem MapOk.minLatency (h : MapOk cis table) :
    MapOk cis (setMinLatency latency table params) ∧
      Follows cigs table (setMinLatency latency table params) := by
  unfold setMinLatency
  induction params generalizing table with
  | nil => exact ⟨h, follows_refl⟩
  | cons param params ih =>
    rw [foldl_cons]
    cases he : aseFindByAseId table param.ase with
    | none => exact ih h
    | some e =>
      have hm : MovesCis (cigs 0) e { e with minTransportLatency := latency } :=
        movesCis_same rfl rfl rfl rfl rfl
      obtain ⟨hmap, hfollows⟩ := ih (h.moves (find_mem he) hm)
      exact ⟨hmap, (follows_set h.nodup (find_mem he) hm.toMoves).trans hfollows⟩

theorem qosOk_of_none (hnone : ∀ data, CpParam.configQos data ∉ params) : QosOk cis table params :=
  ⟨fun data h => absurd h (hnone data), fun data h => absurd h (hnone data),
    fun data h => absurd h (hnone data)⟩

theorem MapOk.remoteCp {sduInterval : CodecCfg → Option Nat} {cp : AseCp}
    (hfits : ∀ param ∈ cp.params, param.Fits cp.op) (hok : QosOk cis table cp.params)
    (h : MapOk cis table) :
    MapOk cis (aseHandleRemoteCp envs sduInterval table cp).1 ∧
      Follows (fun k => (envs k).cig) table (aseHandleRemoteCp envs sduInterval table cp).1 := by
  unfold aseHandleRemoteCp
  split_ifs with hop
  . have hnone : ∀ data, CpParam.configQos data ∉ cp.params := by
      intro data hdata
      have hfit : cp.op = .configQos := hfits _ hdata
      rw [hop] at hfit
      cases hfit
    obtain ⟨hmap, hfollows⟩ := h.minLatency
    obtain ⟨hmap', hfollows'⟩ := hmap.cpActions (qosOk_of_none hnone)
    exact ⟨hmap', hfollows.trans hfollows'⟩
  . exact h.cpActions hok

theorem cisFree_of_parsed (hlen : bytes.length < 65536)
    (h : MapOk cis table)
    (hcp : aseCheckCpData app verdict memory table bytes fuel = .ok (notify, some cp)) :
    CisFree table cp.params := by
  intro data hdata e he n hn hne hnc hdir hsame
  obtain ⟨p, ⟨e', he', htakes⟩, -⟩ := cpData_takes hlen hcp _ hdata
  have hop : cp.op = .configQos := cpData_fits hlen hcp _ hdata
  rw [hop] at htakes he'
  obtain ⟨-, hmapping, hparam⟩ := htakes
  cases hparam
  obtain ⟨hfind, -⟩ := checkAse_ok.mp he'
  have he : aseFindByAseId table (octet bytes p) = some e := he
  rw [hfind, Option.some.injEq] at he
  subst he
  simp only [QosStateData.cis, Prod.mk.injEq] at hsame
  have hfound : aseFindByCigCis table e'.direction (qosCfgParam bytes p).qos.cigId
      (qosCfgParam bytes p).qos.cisId ≠ none := by
    intro hnone
    have := find?_eq_none.mp hnone n hn
    simp [hnc, hdir, hsame.1, hsame.2] at this
  cases hcheck : aseFindByCigCis table e'.direction (qosCfgParam bytes p).qos.cigId
      (qosCfgParam bytes p).qos.cisId with
  | none => exact hfound hcheck
  | some other =>
    have hother := find?_some hcheck
    simp only [Bool.and_eq_true, decide_eq_true_eq] at hother
    obtain ⟨⟨⟨hoc, hodir⟩, hocig⟩, hocis⟩ := hother
    have heq := h.unique n hn other (mem_of_find?_eq_some hcheck) hnc hoc
      (hdir.trans hodir.symm) (by
        rw [QosStateData.cis, QosStateData.cis, hsame.1, hsame.2, hocig, hocis])
    unfold checkCisMapping at hmapping
    rw [hcheck] at hmapping
    simp only at hmapping
    split_ifs at hmapping with hids
    rw [not_not] at hids
    refine hne ?_
    rw [heq, hids]
    exact find_aseId hfind

end

structure Net.CigOk (net : Net) (event : Event × Around) : Prop where
  zero : ∀ n, (event.2.envs n).cig.isochInfo 0 = none
  fresh : ∀ cisConnHandle cigId cisId, event.1 = .cisEstablished cisConnHandle cigId cisId →
    net.cis cisConnHandle = none

structure Net.StepOk (net : Net) (event : Event × Around) : Prop where
  cig : net.CigOk event
  write : ∀ app verdict memory sduInterval write fuel,
    event.1 = .attrWrite app verdict memory sduInterval write fuel → ∀ notify cp,
    aseCheckCpData app verdict memory net.link.table write.bytes fuel = .ok (notify, some cp) →
    CisApart net.link.table cp.params ∧ CisStays net.cis net.link.table cp.params

section

variable {cis : Nat → Option (Nat × Nat)} {table : AseTable} {link : Link} {around : Around}

theorem noneStarts_refl : NoneStarts table table :=
  fun e he hs => ⟨e, he, rfl, hs⟩

theorem MapOk.act (h : MapOk cis link.table)
    (hm : ∀ env e, MovesCis env.cig e (action env e).entry) :
    MapOk cis (link.act around aseId action).table ∧
      Follows (fun k => (around.envs k).cig) link.table (link.act around aseId action).table := by
  unfold Link.act
  cases he : aseFindByAseId link.table aseId with
  | none => exact ⟨h, follows_refl⟩
  | some e =>
    have hmem := find_mem he
    exact ⟨h.moves hmem (hm (around.envs 0) e),
      @follows_set link.table e _ (fun k => (around.envs k).cig) 0 h.nodup hmem
        (hm (around.envs 0) e).toMoves⟩

theorem checkCurrentState_streaming
    (h : (ascsCheckCurrentState cig e).1.aseState = .streaming) : e.aseState = .streaming := by
  rcases checkCurrentState_cases cig e with ⟨d, hc⟩ | ⟨-, hc⟩
  . rw [hc] at h
    exact h
  . rw [hc, changeState_aseState] at h
    cases h

theorem MapOk.connectCis {cig : Cig} {cisConnHandle cigId cisId : Nat} {found : Option AseEntry}
    (h : MapOk cis table) (hcis : cis cisConnHandle = some (cigId, cisId))
    (hfound : ∀ e, found = some e → e ∈ table ∧ e.qosStateData.cis = (cigId, cisId)) :
    MapOk cis (connectCis cig cisConnHandle table found).1 ∧
      NoneStarts table (Ascs.connectCis cig cisConnHandle table found).1 := by
  cases found with
  | none => exact ⟨h, noneStarts_refl⟩
  | some e =>
    obtain ⟨hmem, hids⟩ := hfound e rfl
    have hm : MovesCis cig { e with cisConnHandle := cisConnHandle }
        (ascsCheckCurrentState cig { e with cisConnHandle := cisConnHandle }).1 :=
      movesCis_refl.check
    have hid : (ascsCheckCurrentState cig { e with cisConnHandle := cisConnHandle }).1.aseId =
        e.aseId := hm.aseId
    have hdir : (ascsCheckCurrentState cig { e with cisConnHandle := cisConnHandle }).1.direction =
        e.direction := hm.direction
    have hhas : (ascsCheckCurrentState cig
          { e with cisConnHandle := cisConnHandle }).1.aseState.hasCis = true →
        e.aseState.hasCis = true ∧ (ascsCheckCurrentState cig
          { e with cisConnHandle := cisConnHandle }).1.qosStateData = e.qosStateData := hm.cis
    have hstream : (ascsCheckCurrentState cig
          { e with cisConnHandle := cisConnHandle }).1.aseState = .streaming →
        e.aseState = .streaming := by
      intro hs
      have hsame := checkCurrentState_streaming hs
      exact hsame
    refine ⟨h.set hid (h.unique_of hmem hdir hhas) fun hc _ => ?_, ?_⟩
    . obtain ⟨-, hqos⟩ := hm.cis hc
      rw [hm.handle, hqos]
      exact hcis.trans (congrArg some hids.symm)
    . intro e' he' hs
      rcases mem_setAse h.nodup he' with rfl | ⟨he', -⟩
      . exact ⟨e, hmem, hm.aseId.symm, hstream hs⟩
      . exact ⟨e', he', rfl, hs⟩

theorem findByCigCis_cis (h : aseFindByCigCis table direction cigId cisId = some e) :
    e.qosStateData.cis = (cigId, cisId) := by
  have := find?_some h
  simp only [Bool.and_eq_true, decide_eq_true_eq] at this
  exact Prod.ext this.1.2 this.2

theorem MapOk.cisEstablished {cigs : Nat → Cig} {cisConnHandle cigId cisId : Nat}
    (h : MapOk cis table) (hfresh : cis cisConnHandle = none) :
    MapOk (fun x => if x = cisConnHandle then some (cigId, cisId) else cis x)
        (handleCisEstablished cigs cisConnHandle cigId cisId table).1 ∧
      NoneStarts table (handleCisEstablished cigs cisConnHandle cigId cisId table).1 := by
  have hnew : MapOk (fun x => if x = cisConnHandle then some (cigId, cisId) else cis x) table := by
    refine { nodup := h.nodup, unique := h.unique, handle := fun e he hc h0 => ?_ }
    have hhandle := h.handle e he hc h0
    have hne : e.cisConnHandle ≠ cisConnHandle := by
      intro heq
      rw [heq, hfresh] at hhandle
      cases hhandle
    simpa [hne] using hhandle
  have hcis : (fun x => if x = cisConnHandle then some (cigId, cisId) else cis x) cisConnHandle =
      some (cigId, cisId) := if_pos rfl
  obtain ⟨hsink, hstarts⟩ := @MapOk.connectCis _ table (cigs 0) cisConnHandle cigId cisId
    (aseFindByCigCis table .sink cigId cisId) hnew hcis
    fun e he => ⟨(findByCigCis_direction he).1, findByCigCis_cis he⟩
  obtain ⟨hsource, hstarts'⟩ := @MapOk.connectCis _ _ (cigs 1) cisConnHandle cigId cisId
    (aseFindByCigCis table .source cigId cisId) hsink hcis fun e he =>
      ⟨connectCis_mem h.nodup (findByCigCis_direction he).1 (findByCigCis_direction he).2,
        findByCigCis_cis he⟩
  refine ⟨hsource, fun e' he' hs => ?_⟩
  obtain ⟨e1, he1, hid1, hs1⟩ := hstarts' e' he' hs
  obtain ⟨e, he, hid, hs⟩ := hstarts e1 he1 hs1
  exact ⟨e, he, hid.trans hid1, hs⟩

theorem disconnectInfo_entry {cisConnHandle : Nat} {env : Env} {e : AseEntry}
    (hzero : env.cig.isochInfo 0 = none) :
    (handleDisconnectInfo cisConnHandle env e).entry.aseId = e.aseId ∧
      (handleDisconnectInfo cisConnHandle env e).entry.direction = e.direction ∧
      ((handleDisconnectInfo cisConnHandle env e).entry.aseState.hasCis = true →
        e.aseState.hasCis = true ∧
          (handleDisconnectInfo cisConnHandle env e).entry.qosStateData = e.qosStateData) ∧
      (handleDisconnectInfo cisConnHandle env e).entry.cisConnHandle =
        (if e.cisConnHandle = cisConnHandle then 0 else e.cisConnHandle) ∧
      ((handleDisconnectInfo cisConnHandle env e).entry.aseState = .streaming →
        e.aseState = .streaming) := by
  unfold handleDisconnectInfo
  by_cases hcis : e.cisConnHandle = cisConnHandle
  . rw [if_pos hcis, if_pos hcis]
    have hleft : ∀ entry,
        MovesCis env.cig { e with cisConnHandle := 0, addedPathDirection := 0 } entry →
        entry.aseId = e.aseId ∧ entry.direction = e.direction ∧
          (entry.aseState.hasCis = true →
            e.aseState.hasCis = true ∧ entry.qosStateData = e.qosStateData) ∧
          entry.cisConnHandle = 0 ∧ (entry.aseState = .streaming → e.aseState = .streaming) := by
      intro entry hm
      refine ⟨hm.aseId, hm.direction, hm.cis, hm.handle, fun hs => ?_⟩
      rcases hm.streams hs with hs | ⟨info, hinfo, -⟩
      . exact hs
      . have hinfo : env.cig.isochInfo 0 = some info := hinfo
        rw [hzero] at hinfo
        cases hinfo
    simp only
    split_ifs with hrel hstr
    . exact hleft _ moves_released
    . refine hleft _ (MovesCis.check (movesCis_refl.changeState (fun _ => ?_) fun h => by cases h))
      rcases hstr with hs | hs <;> rw [hs] <;> rfl
    . exact hleft _ movesCis_refl
  . rw [if_neg hcis, if_neg hcis]
    exact ⟨rfl, rfl, fun hc => ⟨hc, rfl⟩, rfl, id⟩

theorem MapOk.disconnectInfo (h : MapOk cis table)
    (hzero : ∀ n, (envs n).cig.isochInfo 0 = none) :
    MapOk (fun x => if x = cisConnHandle then none else cis x)
        (eachAse envs (handleDisconnectInfo cisConnHandle) table).1 ∧
      NoneStarts table (eachAse envs (handleDisconnectInfo cisConnHandle) table).1 := by
  have hentry := fun k e => @disconnectInfo_entry cisConnHandle (envs k) e (hzero k)
  refine ⟨h.each (fun k e => (hentry k e).1) (fun k e => (hentry k e).2.1)
    (fun k e => (hentry k e).2.2.1) fun k e he hc h0 => ?_, fun e' he' hs => ?_⟩
  . obtain ⟨-, -, hcis, hhandle, -⟩ := hentry k e
    obtain ⟨hec, hqos⟩ := hcis hc
    rw [hhandle] at h0 ⊢
    by_cases hcon : e.cisConnHandle = cisConnHandle
    . rw [if_pos hcon] at h0
      exact absurd rfl h0
    . rw [if_neg hcon] at h0 ⊢
      rw [hqos]
      simpa [hcon] using h.handle e he hec h0
  . obtain ⟨e, he, k, rfl⟩ := mem_eachAse he'
    exact ⟨e, he, (hentry k e).1.symm, (hentry k e).2.2.2.2 hs⟩

theorem moves_pendingCccd : MovesCis env.cig e (handlePendingCccd pending env e).entry :=
  movesCis_refl

theorem linkInit_mapOk {snkAseNum srcAseNum : Nat} :
    MapOk cis (aseSmLinkInit snkAseNum srcAseNum) ∧
      ∀ e ∈ aseSmLinkInit snkAseNum srcAseNum, e.aseState = .idle := by
  have hidle : ∀ e ∈ aseSmLinkInit snkAseNum srcAseNum, e.aseState = .idle := by
    intro e he
    rcases mem_append.mp he with he | he <;>
    . obtain ⟨i, -, rfl⟩ := mem_map.mp he
      rfl
  refine ⟨{ nodup := (@linkInit_ok 23 snkAseNum srcAseNum (Nat.le_refl _)).nodup
            unique := fun e he n _ hc => ?_, handle := fun e he hc => ?_ }, hidle⟩
  . rw [hidle e he] at hc
    cases hc
  . rw [hidle e he] at hc
    cases hc

theorem mapOk_nil : MapOk cis [] :=
  { nodup := nodup_nil
    unique := fun _ h => absurd h not_mem_nil
    handle := fun _ h => absurd h not_mem_nil }

theorem MapOk.write {app : App} {verdict : AseCp → Nat} {memory : Bool}
    {sduInterval : CodecCfg → Option Nat} {write : Write} {fuel : Nat} (h : MapOk cis link.table)
    (hok : ∀ notify cp,
      aseCheckCpData app verdict memory link.table write.bytes fuel = .ok (notify, some cp) →
      CisApart link.table cp.params ∧ CisStays cis link.table cp.params) :
    MapOk cis (link.write around app verdict memory sduInterval write fuel).table ∧
      Follows (fun k => (around.envs k).cig) link.table
        (link.write around app verdict memory sduInterval write fuel).table := by
  unfold Link.write
  split
  . next notify cp hcp =>
    obtain ⟨hapart, hstays⟩ := hok notify cp hcp
    exact h.remoteCp (cpData_fits write.len_lt hcp)
      ⟨hapart, hstays, cisFree_of_parsed write.len_lt h hcp⟩
  . exact ⟨h, follows_refl⟩

section

variable (net : Net) (event : Event × Around) (h : MapOk net.cis net.link.table)
  (hok : net.StepOk event)

include net event h hok

theorem step_mapOk :
    MapOk (net.step event).cis (net.step event).link.table ∧
      (Follows (fun n => (event.2.envs n).cig) net.link.table (net.step event).link.table ∨
        NoneStarts net.link.table (net.step event).link.table) := by
  obtain ⟨event, around⟩ := event
  obtain ⟨⟨hzero, hfresh⟩, hwrite⟩ := hok
  have hact : ∀ {aseId : Nat} {action : Env → AseEntry → Done},
      (∀ env e, MovesCis env.cig e (action env e).entry) →
      MapOk net.cis (net.link.act around aseId action).table ∧
        (Follows (fun n => (around.envs n).cig) net.link.table
            (net.link.act around aseId action).table ∨
          NoneStarts net.link.table (net.link.act around aseId action).table) :=
    fun hm => (h.act hm).imp_right .inl
  have heach : ∀ {action : Env → AseEntry → Done},
      (∀ k e, MovesCis (around.envs k).cig e (action (around.envs k) e).entry) →
      MapOk net.cis (eachAse around.envs action net.link.table).1 ∧
        (Follows (fun n => (around.envs n).cig) net.link.table
            (eachAse around.envs action net.link.table).1 ∨
          NoneStarts net.link.table (eachAse around.envs action net.link.table).1) :=
    fun hm => ⟨h.eachMoves hm, .inl (follows_each hm)⟩
  cases event with
  | connected memory snkAseNum srcAseNum mtu =>
    show MapOk net.cis (net.link.connect memory snkAseNum srcAseNum mtu).table ∧
      (_ ∨ NoneStarts net.link.table (net.link.connect memory snkAseNum srcAseNum mtu).table)
    unfold Link.connect
    split_ifs
    . exact ⟨h, .inr noneStarts_refl⟩
    . refine ⟨linkInit_mapOk.1, .inr fun e he hs => ?_⟩
      rw [(@linkInit_mapOk net.cis snkAseNum srcAseNum).2 e he] at hs
      cases hs
    . exact ⟨mapOk_nil, .inr fun e he => absurd he not_mem_nil⟩
  | attrWrite app verdict memory sduInterval write fuel =>
    exact (h.write (hwrite app verdict memory sduInterval write fuel rfl)).imp_right .inl
  | actionCfgCodec aseId param codec left => exact hact fun env e => moves_cfgCodecOr
  | actionDisable aseId => exact hact fun env e => moves_disable
  | actionRelease aseId => exact hact fun env e => moves_actionRelease
  | actionReleaseByCig cigId => exact heach fun k e => moves_releaseByCig
  | actionUpdateMetadata aseId metadata => exact hact fun env e => moves_updateMetadata
  | actionRecStartReady aseId => exact hact fun env e => moves_actionRecStartReady
  | actionRecStopReady aseId => exact hact fun env e => moves_actionRecStopReady
  | appCtlHandshake aseId appHandshake =>
    exact hact fun env e => movesCis_same rfl rfl rfl rfl rfl
  | cisEstablished cisConnHandle cigId cisId =>
    obtain ⟨hmap, hstarts⟩ := @MapOk.cisEstablished net.cis net.link.table
      (fun n => (around.envs n).cig) cisConnHandle cigId cisId h
      (hfresh cisConnHandle cigId cisId rfl)
    exact ⟨hmap, .inr hstarts⟩
  | setupDataPath cisConnHandle path success => exact heach fun k e => moves_setupDataPath
  | removeDataPath cisConnHandle path => exact heach fun k e => moves_removeDataPath
  | disconnectInfo cisConnHandle => exact (h.disconnectInfo hzero).imp_right .inr
  | mtuInfo mtu => exact ⟨h, .inr noneStarts_refl⟩
  | authenInfo pending => exact heach fun k e => moves_pendingCccd
  | disconnected => exact ⟨mapOk_nil, .inr fun e he => absurd he not_mem_nil⟩

theorem step_streams : StreamsOverCis net event := by
  obtain ⟨hmap, hstep⟩ := step_mapOk net event h hok
  intro e' he' hs
  rcases hstep with hfollows | hnone
  . obtain ⟨e, he, hid, -, -, hstream⟩ := hfollows e' he'
    rcases hstream hs with hs | ⟨n, hopen⟩
    . exact .inl ⟨e, he, hid, hs⟩
    . refine .inr ⟨hmap.handle e' he' (by rw [hs]; rfl) fun h0 => ?_, n, hopen⟩
      obtain ⟨info, hinfo, -⟩ := hopen
      rw [h0, hok.cig.zero n] at hinfo
      cases hinfo
  . exact .inl (hnone e' he' hs)

end

def openApp : App := { pacFind := fun _ _ _ => true, contextsCheck := fun _ _ _ _ => false }

def qosEntry (aseId cisId : UInt8) : List UInt8 :=
  [aseId, 1, cisId, 0x10, 0x27, 0, 0, 2, 100, 0, 2, 10, 0, 0, 0, 0]

def qosWrite (entries : List (UInt8 × UInt8)) : List UInt8 :=
  [2, UInt8.ofNat entries.length] ++ entries.flatMap fun x => qosEntry x.1 x.2

def qosEvent (entries : List (UInt8 × UInt8)) (h : (qosWrite entries).length < 65536) : Event :=
  .attrWrite openApp (fun _ => 0) true (fun _ => none) ⟨qosWrite entries, h⟩ 8

theorem qosWrite_one : (qosWrite [(1, 2)]).length < 65536 := by decide

def mapRun : List (Event × Around) :=
  configureRun ++ [(qosEvent [(1, 2)] qosWrite_one, quiet), (.cisEstablished 0x60 1 2, quiet)]

end

end Ascs
