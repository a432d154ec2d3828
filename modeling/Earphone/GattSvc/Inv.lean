import Earphone.GattSvc.Ordered

namespace GattSvc

open List

def Conn.key (c : Conn) : Nat × Nat := (c.connHandle, c.connId.getD noConnId)

def SendIndData.key (s : SendIndData) : Nat × Nat := (s.connHandle, s.connId)

def NotifyData.key (d : NotifyData) : Nat × Nat := (d.connHandle, d.connId)

def World.connKeys (w : World) : List (Nat × Nat) := w.conns.map Conn.key

def World.linkKeys (w : World) : List (Nat × Nat) := w.linkIndList.map SendIndData.key

structure World.Wf (w : World) : Prop where
  handles : (w.connKeys.map Prod.fst).Nodup
  ids : ∀ p ∈ w.connKeys, ∀ q ∈ w.connKeys, p.2 = q.2 → p.2 ≠ noConnId → p = q
  small : ∀ c ∈ w.conns, c.connId ≠ some noConnId
  links : (w.linkKeys.map Prod.fst).Nodup
  linkConn : ∀ p ∈ w.linkKeys, p ∈ w.connKeys
  notifyConn : ∀ d ∈ w.notifyList, d.key ∈ w.connKeys

structure World.Inv (w : World) : Prop where
  wf : w.Wf
  ordered : ∀ h k, w.Ordered h k
  awaited : ∀ h, w.Awaited h
  current : ∀ ev, w.current = some ev → ev.ind = true →
    w.unconfirmed ev.connHandle = [] ∧ ∃ s, w.link ev.connHandle = some s ∧ s.pd = true

theorem World.Wf.congr {w w' : World} (hw : w.Wf) (hc : w'.conns = w.conns)
    (hl : w'.linkKeys = w.linkKeys) (hn : ∀ d ∈ w'.notifyList, d ∈ w.notifyList) : w'.Wf := by
  have hk : w'.connKeys = w.connKeys := by rw [connKeys, hc]; rfl
  constructor
  . rw [hk]; exact hw.handles
  . rw [hk]; exact hw.ids
  . rw [hc]; exact hw.small
  . rw [hl]; exact hw.links
  . rw [hl, hk]; exact hw.linkConn
  . rw [hk]; exact fun d hd => hw.notifyConn d (hn d hd)

theorem linkKeys_modifyLink {w : World} {h : Nat} {f : SendIndData → SendIndData}
    (hf : ∀ s, (f s).key = s.key) : (w.modifyLink h f).linkKeys = w.linkKeys :=
  First.map_modify hf w.linkIndList

theorem link_mem {w : World} {h : Nat} {s : SendIndData} (hs : w.link h = some s) :
    s ∈ w.linkIndList ∧ s.connHandle = h :=
  ⟨mem_of_find?_eq_some hs, by simpa using find?_some hs⟩

theorem World.Awaited.congr {w w' : World} {h : Nat} (ha : w.Awaited h)
    (hu : w'.unconfirmed h = w.unconfirmed h) (hl : w'.link h = w.link h) : w'.Awaited h := by
  simpa only [Awaited, hu, hl] using ha

theorem World.Awaited.handed {w w' : World} {h : Nat} {c : Call} {s : SendIndData}
    (hempty : w.unconfirmed h = []) (hu : w'.unconfirmed h = w.unconfirmed h ++ [c])
    (hl : w'.link h = some s) (hpd : s.pd = true) (hsvc : c.serviceId = s.serviceId)
    (hidx : c.attribIdx = s.attribIdx) : w'.Awaited h :=
  .inr ⟨s, c, hl, hpd, by rw [hu, hempty]; rfl, hsvc, hidx⟩

theorem World.Awaited.idle {w : World} {h : Nat} {s : SendIndData} (ha : w.Awaited h)
    (hl : w.link h = some s) (hpd : s.pd = false) : w.unconfirmed h = [] := by
  obtain hempty | ⟨s', _, hs', hpd', -⟩ := ha
  . exact hempty
  . rw [hl, Option.some.injEq] at hs'
    rw [← hs', hpd] at hpd'
    cases hpd'

theorem filter_on_append
    (hc : Call.on h k c = false) : (l ++ [c]).filter (Call.on h k) = l.filter (Call.on h k) := by
  rw [filter_append, filter_singleton, hc]
  exact append_nil _

theorem filter_on_append_self (hc : Call.on h k c = true) :
    (l ++ [c]).filter (Call.on h k) = l.filter (Call.on h k) ++ [c] := by
  rw [filter_append, filter_singleton, hc]
  rfl

section

variable {w : World}

def World.sendNotifies (w : World) (ds rest : List NotifyData) : World :=
  { w with
    notifyList := rest
    handed := w.handed ++ ds.map (·.call)
    outstanding := w.outstanding ++ ds.map (·.call) }

theorem NotifyData.call_on (d : NotifyData) (h : Nat) : Call.on h true d.call = false := by
  apply Call.on_of_kind
  exact Bool.false_ne_true

theorem World.Inv.sendNotify {d : NotifyData} {ds : List NotifyData} (hi : w.Inv)
    (hlist : w.notifyList = d :: ds) : (w.sendNotifies [d] ds).Inv where
  wf := hi.wf.congr rfl rfl fun d' hd' => by
    rw [hlist]
    exact mem_cons_of_mem _ hd'
  ordered h k := by
    cases k with
    | false => exact (hi.ordered h false).popNotify hlist rfl rfl rfl
    | true => exact World.Ordered.congr (hi.ordered h true) rfl (filter_on_append (d.call_on h)) rfl
  awaited h := (hi.awaited h).congr (filter_on_append (d.call_on h)) rfl
  current ev hev hind := by
    obtain ⟨hu, hl⟩ := hi.current ev hev hind
    exact ⟨(filter_on_append (d.call_on _)).trans hu, hl⟩

theorem World.Inv.sendNotifies (hi : w.Inv)
    (hlist : w.notifyList = ds ++ rest) : (w.sendNotifies ds rest).Inv := by
  induction ds generalizing w with
  | nil =>
    have heq : w.sendNotifies [] rest = w := by
      simp only [World.sendNotifies, map_nil, append_nil]
      rw [show rest = w.notifyList from hlist.symm]
    rw [heq]
    exact hi
  | cons d ds ih =>
    have h := ih (hi.sendNotify hlist) rfl
    simpa [World.sendNotifies] using h

theorem World.Inv.queueNotify (hi : w.Inv) (hd : d.key ∈ w.connKeys) :
    World.Inv { w with
      notifyList := w.notifyList ++ [d], accepted := w.accepted ++ [d.call] } where
  wf := by
    refine ⟨hi.wf.handles, hi.wf.ids, hi.wf.small, hi.wf.links, hi.wf.linkConn, fun d' hd' => ?_⟩
    obtain hd' | hd' := mem_append.mp hd'
    . exact hi.wf.notifyConn d' hd'
    . rw [mem_singleton.mp hd']
      exact hd
  ordered h k := by
    cases k with
    | true => exact World.Ordered.congr (hi.ordered h true) (filter_on_append (d.call_on h)) rfl rfl
    | false =>
      by_cases hh : d.connHandle = h
      . subst hh
        apply World.Ordered.push (hi.ordered d.connHandle false) (c := d.call)
        . exact filter_on_append_self (Call.on_self d.call)
        . rfl
        . simp [World.queued, Call.kept, NotifyData.call]
      . apply World.Ordered.congr (hi.ordered h false)
        . exact filter_on_append (Call.on_of_ne hh false)
        . rfl
        . simp [World.queued, hh]
  awaited := hi.awaited
  current := hi.current

theorem World.Inv.passNotify {c : Call} (hi : w.Inv) (hempty : w.notifyList = [])
    (hc : c.ind = false) : ((w.hand c).accept c true).Inv where
  wf := hi.wf.congr rfl rfl fun _ hd => hd
  ordered h k := by
    by_cases hon : Call.on h k c = true
    . have hk : k = false := by
        simp only [Call.on, Bool.and_eq_true, beq_iff_eq] at hon
        rw [← hon.2, hc]
      subst hk
      have hq : w.queued h false = [] := by simp [World.queued, hempty]
      exact (hi.ordered h false).pass hq (filter_on_append_self hon) (filter_on_append_self hon) hq
    . rw [Bool.not_eq_true] at hon
      exact World.Ordered.congr (hi.ordered h k) (filter_on_append hon) (filter_on_append hon) rfl
  awaited h := (hi.awaited h).congr (filter_on_append (Call.on_of_kind (by simp [hc]) h)) rfl
  current ev hev hind := by
    obtain ⟨hu, hl⟩ := hi.current ev hev hind
    exact ⟨(filter_on_append (Call.on_of_kind (by simp [hc]) _)).trans hu, hl⟩

section

variable {h : Nat} {s : SendIndData}

theorem World.Inv.queueInd {e : IndDataQueueElem} {cid : Nat} (hi : w.Inv)
    (hs : w.link h = some s) :
    World.Inv ((w.modifyLink h (·.push e)).accept (e.call h cid) true) where
  wf := hi.wf.congr rfl (linkKeys_modifyLink fun _ => rfl) fun _ hd => hd
  ordered h' k := by
    by_cases hon : Call.on h' k (e.call h cid) = true
    . simp only [Call.on, Bool.and_eq_true, beq_iff_eq] at hon
      obtain ⟨rfl, rfl⟩ : h' = h ∧ k = true := ⟨hon.1.symm, hon.2.symm⟩
      apply World.Ordered.push (hi.ordered h' true) (c := e.call h' cid)
      . exact filter_on_append_self (Call.on_self (e.call h' cid))
      . rfl
      . have hl := link_modifyLink_self (·.push e) (fun _ => rfl) hs
        change ((w.modifyLink h' (·.push e)).link h').elim [] _ = _
        rw [hl, World.queued, hs]
        simp [Call.kept, IndDataQueueElem.call, SendIndData.push]
    . rw [Bool.not_eq_true] at hon
      apply World.Ordered.congr (w := w) (hi.ordered h' k)
      . exact filter_on_append hon
      . rfl
      . cases k with
        | false => rfl
        | true =>
          have hne : h' ≠ h := by
            rintro rfl
            rw [show Call.on h' true (e.call h' cid) = true from
              Call.on_self (e.call h' cid)] at hon
            cases hon
          have hlink := link_modifyLink_ne (w := w) (·.push e) (fun _ => rfl) hne
          exact @queued_of_link w h' (w.modifyLink h (·.push e)) hlink rfl true
  awaited h' := by
    by_cases hne : h' = h
    . subst hne
      obtain hu | ⟨s', c, hs', hpd, hc⟩ := hi.awaited h'
      . exact .inl hu
      . exact .inr ⟨s'.push e, c, link_modifyLink_self (·.push e) (fun _ => rfl) hs', hpd, hc⟩
    . exact (hi.awaited h').congr rfl (link_modifyLink_ne (·.push e) (fun _ => rfl) hne)
  current ev hev hind := by
    obtain ⟨hu, s', hs', hpd⟩ := hi.current ev hev hind
    refine ⟨hu, ?_⟩
    by_cases hne : ev.connHandle = h
    . subst hne
      exact ⟨s'.push e, link_modifyLink_self (·.push e) (fun _ => rfl) hs', hpd⟩
    . exact ⟨s', (link_modifyLink_ne (·.push e) (fun _ => rfl) hne).trans hs', hpd⟩

theorem queued_of_on_ne {w' : World} {c : Call} {h' : Nat} {k : Bool} (hc : c.ind = true)
    (hon : Call.on h' k c = false) (hlink : ∀ h', h' ≠ c.connHandle → w'.link h' = w.link h')
    (hnotify : w'.notifyList = w.notifyList) : w'.queued h' k = w.queued h' k := by
  cases k with
  | false => simp only [World.queued, hnotify]
  | true =>
    apply queued_of_link (hlink h' _) hnotify
    rintro rfl
    simp [Call.on, hc] at hon

theorem World.Inv.passInd {c : Call} (hi : w.Inv) (hs : w.link c.connHandle = some s)
    (hc : c.ind = true) (hpd : s.pd = false) (hq : s.srvDataQ = []) :
    World.Inv (((w.hand c).modifyLink c.connHandle (·.waitFor c.serviceId c.attribIdx)).accept c
      true) := by
  have hself : (w.modifyLink c.connHandle (·.waitFor c.serviceId c.attribIdx)).link c.connHandle =
      some (s.waitFor c.serviceId c.attribIdx) :=
    link_modifyLink_self (·.waitFor c.serviceId c.attribIdx) (fun _ => rfl) hs
  have hne : ∀ h', h' ≠ c.connHandle →
      (w.modifyLink c.connHandle (·.waitFor c.serviceId c.attribIdx)).link h' = w.link h' :=
    fun h' => link_modifyLink_ne _ fun _ => rfl
  have hcon : Call.on c.connHandle true c = true := hc ▸ Call.on_self c
  constructor
  . exact hi.wf.congr rfl (linkKeys_modifyLink fun _ => rfl) fun _ hd => hd
  . intro h' k
    by_cases hon : Call.on h' k c = true
    . simp only [Call.on, Bool.and_eq_true, beq_iff_eq] at hon
      obtain ⟨rfl, rfl⟩ := hon
      apply (hi.ordered c.connHandle c.ind).pass (c := c)
      . rw [hc]
        simp [World.queued, hs, hq]
      . exact filter_on_append_self (Call.on_self c)
      . exact filter_on_append_self (Call.on_self c)
      . rw [hc]
        change ((w.modifyLink _ _).link c.connHandle).elim [] _ = _
        rw [hself]
        simp [SendIndData.waitFor, hq]
    . rw [Bool.not_eq_true] at hon
      apply World.Ordered.congr (w := w) (hi.ordered h' k)
      . exact filter_on_append hon
      . exact filter_on_append hon
      . exact queued_of_on_ne hc hon hne rfl
  . intro h'
    by_cases hh : h' = c.connHandle
    . subst hh
      exact World.Awaited.handed (w := w) ((hi.awaited _).idle hs hpd)
        (filter_on_append_self hcon) hself rfl rfl rfl
    . exact (hi.awaited h').congr (filter_on_append (Call.on_of_ne (Ne.symm hh) true)) (hne h' hh)
  . intro ev hev hind
    obtain ⟨hu, s', hs', hpd'⟩ := hi.current ev hev hind
    have hh : ev.connHandle ≠ c.connHandle := by
      intro hh
      rw [hh, hs, Option.some.injEq] at hs'
      rw [← hs', hpd] at hpd'
      cases hpd'
    exact ⟨(filter_on_append (Call.on_of_ne (Ne.symm hh) true)).trans hu, s',
      (hne _ hh).trans hs', hpd'⟩

theorem World.Inv.idleLink (hi : w.Inv) (hs : w.link h = some s) (hcur : w.current = none)
    (hu : w.unconfirmed h = []) : (w.modifyLink h SendIndData.idle).Inv := by
  have hself := link_modifyLink_self SendIndData.idle (fun _ => rfl) hs
  have hne : ∀ h', h' ≠ h → (w.modifyLink h SendIndData.idle).link h' = w.link h' :=
    fun h' => link_modifyLink_ne _ fun _ => rfl
  constructor
  . exact hi.wf.congr rfl (linkKeys_modifyLink fun _ => rfl) fun _ hd => hd
  . intro h' k
    refine World.Ordered.congr (hi.ordered h' k) rfl rfl ?_
    by_cases hh : h' = h
    . subst hh
      cases k with
      | false => rfl
      | true =>
        rw [World.queued, World.queued, hself, hs]
        rfl
    . exact queued_of_link (hne h' hh) rfl k
  . intro h'
    by_cases hh : h' = h
    . subst hh
      exact .inl hu
    . exact (hi.awaited h').congr rfl (hne h' hh)
  . intro ev hev
    rw [show (w.modifyLink h SendIndData.idle).current = w.current from rfl, hcur] at hev
    cases hev

def World.nextInd (w : World) (connHandle : Nat) : Option Call :=
  ((w.acceptedOn connHandle true).drop (w.handedOn connHandle true).length).head?

theorem World.Inv.sendFirst {e : IndDataQueueElem} {q : List IndDataQueueElem} {cid : Nat}
    (hi : w.Inv) (hs : w.link h = some s) (hcur : w.current = none) (hpd : s.pd = false)
    (hq : s.srvDataQ = e :: q) (hcid : ∀ c ∈ w.nextInd h, c.cid = cid) :
    World.Inv ((w.hand (e.call h cid)).modifyLink h
      fun s => (s.waitFor e.serviceId e.attribIdx).popFirst) := by
  have hself : (w.modifyLink h fun s => (s.waitFor e.serviceId e.attribIdx).popFirst).link h =
      some (s.waitFor e.serviceId e.attribIdx).popFirst :=
    link_modifyLink_self (fun s => (s.waitFor e.serviceId e.attribIdx).popFirst) (fun _ => rfl) hs
  have hne : ∀ h', h' ≠ h →
      (w.modifyLink h fun s => (s.waitFor e.serviceId e.attribIdx).popFirst).link h' = w.link h' :=
    fun h' => link_modifyLink_ne _ fun _ => rfl
  have hcon : Call.on h true (e.call h cid) = true := Call.on_self (e.call h cid)
  constructor
  . exact hi.wf.congr rfl (linkKeys_modifyLink fun _ => rfl) fun _ hd => hd
  . intro h' k
    by_cases hon : Call.on h' k (e.call h cid) = true
    . simp only [Call.on, Bool.and_eq_true, beq_iff_eq] at hon
      obtain ⟨rfl, rfl⟩ : h' = h ∧ k = true := ⟨hon.1.symm, hon.2.symm⟩
      apply (hi.ordered h' true).pop (c := e.call h' cid) (q := q.map (·.call h' 0))
      . rw [World.queued, hs]
        simp [hq, Call.kept, IndDataQueueElem.call]
      . intro rest hrest c hc hk
        have hmem : c ∈ w.acceptedOn h' true := by
          rw [hrest]
          exact mem_append_right _ (mem_of_mem_head? hc)
        have hind : c.ind = true := by
          have := (mem_filter.mp hmem).2
          simp only [Call.on, Bool.and_eq_true, beq_iff_eq] at this
          exact this.2
        have hc' : c.cid = cid := hcid c (by rw [World.nextInd, hrest, drop_left]; exact hc)
        cases c
        simp_all [Call.kept, IndDataQueueElem.call]
      . rfl
      . exact filter_on_append_self hcon
      . change ((w.modifyLink _ _).link h').elim [] _ = _
        rw [hself]
        simp [SendIndData.popFirst, SendIndData.waitFor, hq]
    . rw [Bool.not_eq_true] at hon
      refine World.Ordered.congr (hi.ordered h' k) rfl (filter_on_append hon) ?_
      exact queued_of_on_ne (c := e.call h cid) rfl hon hne rfl
  . intro h'
    by_cases hh : h' = h
    . subst hh
      exact World.Awaited.handed (w := w) ((hi.awaited _).idle hs hpd)
        (filter_on_append_self hcon) hself rfl rfl rfl
    . exact (hi.awaited h').congr (filter_on_append (Call.on_of_ne (Ne.symm hh) true)) (hne h' hh)
  . intro ev hev
    change w.current = some ev at hev
    rw [hcur] at hev
    cases hev

end

theorem World.Inv.newLink (hi : w.Inv) (hnone : w.link s.connHandle = none)
    (hkey : s.key ∈ w.connKeys) (hq : s.srvDataQ = []) :
    World.Inv { w with linkIndList := w.linkIndList ++ [s] } := by
  have hlink : ∀ h', World.link { w with linkIndList := w.linkIndList ++ [s] } h' =
      (w.link h').or (if s.connHandle = h' then some s else none) := by
    intro h'
    rw [World.link, find?_append]
    congr 1
    by_cases hh : s.connHandle = h' <;> simp [hh]
  have hsome : ∀ {h' s'}, w.link h' = some s' →
      World.link { w with linkIndList := w.linkIndList ++ [s] } h' = some s' := by
    intro h' s' hs'
    rw [hlink, hs']
    rfl
  constructor
  . refine ⟨hi.wf.handles, hi.wf.ids, hi.wf.small, ?_, ?_, hi.wf.notifyConn⟩
    . simp only [World.linkKeys, map_append, map_cons, map_nil]
      refine nodup_append.mpr ⟨hi.wf.links, by simp, ?_⟩
      intro h' hh' h'' hs' heq
      rw [heq, mem_singleton.mp hs'] at hh'
      obtain ⟨p, hp, hps⟩ := mem_map.mp hh'
      obtain ⟨s', hs', rfl⟩ := mem_map.mp hp
      have := find?_eq_none.mp hnone s' hs'
      exact this (by simpa [SendIndData.key] using hps)
    . intro p hp
      rw [World.linkKeys, map_append] at hp
      obtain hp | hp := mem_append.mp hp
      . exact hi.wf.linkConn p hp
      . rw [mem_singleton.mp hp]
        exact hkey
  . intro h' k
    refine World.Ordered.congr (hi.ordered h' k) rfl rfl ?_
    cases k with
    | false => rfl
    | true =>
      rw [World.queued, World.queued, hlink]
      cases hs' : w.link h' with
      | some s' => rfl
      | none =>
        by_cases hh : s.connHandle = h' <;> simp [hh, hq]
  . intro h'
    obtain hu | ⟨s', c, hs', hc⟩ := hi.awaited h'
    . exact .inl hu
    . exact .inr ⟨s', c, hsome hs', hc⟩
  . intro ev hev hind
    obtain ⟨hu, s', hs', hpd⟩ := hi.current ev hev hind
    exact ⟨hu, s', hsome hs', hpd⟩

end

end GattSvc
