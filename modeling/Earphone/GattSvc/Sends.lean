import Mathlib.Data.List.Nodup
import Earphone.GattSvc.Conns

namespace GattSvc

open List

def drains (w : World) : List NotifyData → Nat → List Bool → Bool
  | [], _, _ => true
  | _ :: _, 0, _ => true
  | d :: ds, credit + 1, answers =>
    w.takes d.connHandle (answers.headD false) && drains w ds credit answers.tail

def World.Finds (w : World) (connHandle : Nat) : Prop :=
  w.linkIndList.length < 256 ∨ ∃ s ∈ w.linkIndList.take 256, s.connHandle = connHandle
  deriving Decidable

def Op.Possible (w : World) : Op → Prop
  | .connect c =>
    w.current = none ∧ (∀ c' ∈ w.conns, c'.connHandle ≠ c.connHandle) ∧
      ∀ id ∈ c.connId, id < noConnId ∧ ∀ c' ∈ w.conns, c'.connId ≠ some id
  | .channAdd _ _ => w.current = none
  | .channDel _ cid => w.current = none ∧ cid ≠ fixedCidAtt
  | .disconnect _ => w.current = none
  | .sendData _ _ => True
  | .cmplBegin ev => w.current = none ∧ ∃ c ∈ w.outstanding, ev.of c = true
  | .cmplEnd ev _ _ _ _ => w.current = some ev

def Op.Ok (w : World) : Op → Prop
  | .connect _ | .channAdd _ _ | .cmplBegin _ => True
  | .channDel connHandle cid =>
    gapChannGetNum (w.modifyConn connHandle (·.erase cid)).conns connHandle = 0 →
      w.Finds connHandle ∧ (w.notifyList.filter (·.connHandle != connHandle)).length < 256
  | .disconnect connId =>
    ∀ connHandle ∈ connHandleOf w.conns connId,
      w.Finds connHandle ∧ (w.notifyList.filter (·.connHandle != connHandle)).length < 256
  | .sendData c a =>
    w.mode ≠ .disable → ∀ connId ∈ sendConnId w c,
      w.Finds c.connHandle ∧
        (c.isInd a = false → ¬(a.credit ≠ 0 ∧ w.notifyList = []) →
          (w.link c.connHandle).isSome ∨ a.linkMem = true →
            a.saves c = drains w (saveNotify w c connId a).notifyList a.queueCredit a.answers)
  | .cmplEnd ev credit answer _ _ =>
    w.mode ≠ .disable →
      w.Finds ev.connHandle ∧ ∀ s ∈ w.link ev.connHandle, s.isDue ev.serviceId ev.attribIdx = true →
        (ev.ind = false → s.pd = false) ∧
          (credit ≠ 0 → w.takes ev.connHandle answer = true →
            ∀ c ∈ w.nextInd ev.connHandle, c.cid = ev.cid)

structure Sound (w : World) : Prop where
  confirmed : ∀ h, (w.unconfirmed h).length ≤ 1
  ordered : ∀ h ind, w.Ordered h ind
  links : (w.linkIndList.map (·.connHandle)).Nodup
  indConn : ∀ s ∈ w.linkIndList, ∃ c ∈ w.conns, c.connHandle = s.connHandle
  notifyConn : ∀ d ∈ w.notifyList, ∃ c ∈ w.conns, c.connHandle = d.connHandle

def QueuedNothing (w w' : World) : Prop := ∀ h ind, w'.queued h ind <:+ w.queued h ind

theorem World.Inv.sound (hi : w.Inv) : Sound w where
  confirmed h := by
    obtain hu | ⟨_, c, _, _, hu, _⟩ := hi.awaited h <;> simp [hu]
  ordered := hi.ordered
  links := by
    have hl := hi.wf.links
    rw [World.linkKeys, map_map] at hl
    exact hl
  indConn s hs := by
    obtain ⟨c, hc, hkey⟩ := mem_map.mp (hi.wf.linkConn s.key (mem_map_of_mem hs))
    exact ⟨c, hc, congrArg Prod.fst hkey⟩
  notifyConn d hd := by
    obtain ⟨c, hc, hkey⟩ := mem_map.mp (hi.wf.notifyConn d hd)
    exact ⟨c, hc, congrArg Prod.fst hkey⟩

theorem exists_scan {α : Type} {p : α → Bool} {l : List α}
    (h : l.length < 256 ∨ ∃ a ∈ l.take 256, p a = true) : ∃ r, scan p l = .ok r := by
  unfold scan
  split
  . exact ⟨_, rfl⟩
  . next hnone =>
    obtain hlen | ⟨a, ha, hp⟩ := h
    . rw [if_pos hlen]
      exact ⟨_, rfl⟩
    . exact absurd hp (find?_eq_none.mp hnone a ha)

theorem scan_of_finds {w : World} {h : Nat} (hf : w.Finds h) :
    gattSvcCheckLinkInd w h = .ok (w.link h) := by
  have hex : ∃ r, scan (·.connHandle == h) w.linkIndList = .ok r := by
    apply exists_scan
    obtain hlen | ⟨s, hs, hh⟩ := hf
    . exact .inl hlen
    . exact .inr ⟨s, hs, beq_iff_eq.mpr hh⟩
  obtain ⟨r, hr⟩ := hex
  rw [gattSvcCheckLinkInd, hr, scan_ok hr]
  rfl

theorem drains_congr (hm : w'.mode = w.mode) (hc : w'.conns = w.conns)
    (ds : List NotifyData) (credit : Nat) (answers : List Bool) :
    drains w' ds credit answers = drains w ds credit answers := by
  induction ds generalizing credit answers with
  | nil => rfl
  | cons d ds ih =>
    cases credit with
    | zero => rfl
    | succ credit => simp only [drains, ih, World.takes, hm, hc]

theorem handleNotifyQueue_eq (w : World) (credit : Nat) (answers : List Bool) :
    ∃ ds rest, w.notifyList = ds ++ rest ∧
      gattSvcHandleNotifyQueue w credit answers =
        (w.sendNotifies ds rest, drains w w.notifyList credit answers) := by
  have hstay : w.sendNotifies [] w.notifyList = w := by
    simp only [World.sendNotifies, map_nil, append_nil]
  induction credit generalizing w answers with
  | zero =>
    refine ⟨[], w.notifyList, rfl, ?_⟩
    rw [hstay]
    cases hl : w.notifyList <;> simp [gattSvcHandleNotifyQueue, drains]
  | succ credit ih =>
    cases hl : w.notifyList with
    | nil =>
      refine ⟨[], [], rfl, ?_⟩
      rw [show w.sendNotifies [] [] = w from hl ▸ hstay]
      simp [gattSvcHandleNotifyQueue, drains, hl]
    | cons d ds =>
      cases ht : w.takes d.connHandle (answers.headD false) with
      | false =>
        have hcall : gattSvcSendNotifyIndData w d.call (answers.headD false) = (w, false) := by
          rw [gattSvcSendNotifyIndData, show w.takes d.call.connHandle _ = false from ht]
          rfl
        refine ⟨[], d :: ds, rfl, ?_⟩
        rw [show w.sendNotifies [] (d :: ds) = w from hl ▸ hstay]
        simp only [gattSvcHandleNotifyQueue, hl, hcall, drains, ht, Bool.false_and]
      | true =>
        obtain ⟨ds', rest, hds, heq⟩ := ih (w.sendNotifies [d] ds) answers.tail
          (by simp [World.sendNotifies])
        change ds = ds' ++ rest at hds
        refine ⟨d :: ds', rest, by rw [hds]; rfl, ?_⟩
        have hstep : gattSvcHandleNotifyQueue w (credit + 1) answers =
            gattSvcHandleNotifyQueue (w.sendNotifies [d] ds) credit answers.tail := by
          have hcall : gattSvcSendNotifyIndData w d.call (answers.headD false) =
              (w.hand d.call, true) := by
            rw [gattSvcSendNotifyIndData, show w.takes d.call.connHandle _ = true from ht]
            rfl
          simp only [gattSvcHandleNotifyQueue, hl, hcall]
          rfl
        rw [hstep, heq, Prod.mk.injEq]
        refine ⟨by simp [World.sendNotifies], ?_⟩
        rw [drains, ht, Bool.true_and]
        have hd : drains (w.sendNotifies [d] ds) ds credit answers.tail =
            drains w ds credit answers.tail := drains_congr (by rfl) (by rfl) _ _ _
        exact hd

theorem sendConnId_mem (h : sendConnId w c = some connId) :
    (c.connHandle, connId) ∈ w.connKeys := by
  unfold sendConnId gapChannGetInfo leGetConnIdByHandle at h
  cases hf : w.conns.find? (·.connHandle == c.connHandle) with
  | none => simp [hf] at h
  | some conn =>
    have hmem := mem_of_find?_eq_some hf
    have hh : conn.connHandle = c.connHandle := by simpa using find?_some hf
    refine mem_map.mpr ⟨conn, hmem, ?_⟩
    simp only [hf] at h
    rw [Conn.key, hh]
    cases hid : conn.connId with
    | none =>
      split at h <;> simp_all
    | some id =>
      split at h <;> simp_all

theorem sendInd_inv (hi : w.Inv) (hs : w.link c.connHandle = some s) (hind : c.isInd a = true)
    (h : sendInd w s c a = (w', r)) :
    (w'.accept (c.call (c.isInd a)) r).Inv := by
  rw [hind]
  unfold sendInd at h
  split at h
  . next hidle =>
    obtain ⟨-, hq, hpd⟩ := hidle
    unfold gattSvcSendNotifyIndData at h
    split at h
    . next w1 hcall =>
      split at hcall <;> cases hcall
      cases h
      exact hi.passInd (c := c.call true) hs rfl hpd hq
    . next w1 hcall =>
      split at hcall <;> cases hcall
      cases h
      have hmod : (w.modifyLink c.connHandle fun s => { s with pd := false }) = w := by
        rw [World.modifyLink, First.modify_of_find? hs (by rw [← hpd])]
      rw [hmod]
      exact hi
  . unfold saveInd at h
    split at h
    . cases h
      exact @World.Inv.queueInd w c.connHandle s ⟨c.serviceId, c.attribIdx, c.svcData⟩ c.cid hi hs
    . cases h
      exact hi

theorem sendNotify_inv (hi : w.Inv) (hkey : (c.connHandle, connId) ∈ w.connKeys)
    (hind : c.isInd a = false)
    (hsaves : ¬(a.credit ≠ 0 ∧ w.notifyList = []) →
      a.saves c = drains w (saveNotify w c connId a).notifyList a.queueCredit a.answers)
    (h : sendNotify w c connId a = (w', r)) :
    (w'.accept (c.call (c.isInd a)) r).Inv := by
  rw [hind]
  unfold sendNotify at h
  split at h
  . next hempty =>
    unfold gattSvcSendNotifyIndData at h
    split at h
    . cases h
      exact hi.passNotify hempty.2 rfl
    . cases h
      exact hi
  . next hwait =>
    have hsaves := hsaves hwait
    obtain ⟨ds, rest, hds, heq⟩ :=
      handleNotifyQueue_eq (saveNotify w c connId a) a.queueCredit a.answers
    rw [heq] at h
    cases h
    have hmode : (saveNotify w c connId a).mode = w.mode ∧
        (saveNotify w c connId a).conns = w.conns := by
      unfold saveNotify
      split <;> exact ⟨rfl, rfl⟩
    rw [drains_congr hmode.1 hmode.2, ← hsaves]
    unfold saveNotify at hds ⊢
    cases hs : a.saves c with
    | true =>
      rw [if_pos hs] at hds
      rw [if_pos rfl]
      let d : NotifyData := ⟨c.connHandle, c.cid, connId, c.serviceId, c.attribIdx, c.svcData⟩
      exact (hi.queueNotify (d := d) hkey).sendNotifies hds
    | false =>
      rw [hs, if_neg Bool.false_ne_true] at hds
      rw [if_neg Bool.false_ne_true]
      exact hi.sendNotifies hds

theorem sendWith_inv (hi : w.Inv) (hs : w.link c.connHandle = some s)
    (hkey : (c.connHandle, connId) ∈ w.connKeys)
    (hsaves : c.isInd a = false → ¬(a.credit ≠ 0 ∧ w.notifyList = []) →
      a.saves c = drains w (saveNotify w c connId a).notifyList a.queueCredit a.answers) :
    ((sendWith w s c connId a).1.accept (c.call (c.isInd a)) (sendWith w s c connId a).2).Inv := by
  unfold sendWith
  split
  . next hind => exact sendInd_inv hi hs hind rfl
  . next hind =>
    have hind : c.isInd a = false := by simpa [Send.isInd] using hind
    exact sendNotify_inv hi hkey hind (hsaves hind) rfl

theorem sendData_inv (hi : w.Inv) (hok : (Op.sendData c a).Ok w) :
    ∃ r : World × Bool, gattSvcSendData w c a = .ok r ∧
      (r.1.accept (c.call (c.isInd a)) r.2).Inv := by
  unfold gattSvcSendData
  by_cases hmode : w.mode = .disable
  . rw [if_pos hmode]
    exact ⟨(w, false), rfl, hi⟩
  . rw [if_neg hmode]
    cases hid : sendConnId w c with
    | none => exact ⟨(w, false), rfl, hi⟩
    | some connId =>
      obtain ⟨hfinds, hsaves⟩ := hok hmode connId hid
      have hkey := sendConnId_mem hid
      cases hs : w.link c.connHandle with
      | some s =>
        have hget : getLinkInd w c connId a = .ok (w, some s) := by
          simp only [getLinkInd, scan_of_finds hfinds, hs, bind, Except.bind, pure, Except.pure]
        refine ⟨_, by simp only [hget, bind, Except.bind, pure, Except.pure]; rfl, ?_⟩
        exact sendWith_inv hi hs hkey fun hind hw => hsaves hind hw (.inl (by rw [hs]; rfl))
      | none =>
        cases hmem : a.linkMem with
        | false =>
          refine ⟨(w, false), ?_, hi⟩
          simp only [getLinkInd, scan_of_finds hfinds, hs, hmem, bind, Except.bind, pure,
            Except.pure, Bool.false_eq_true, if_false]
        | true =>
          let s : SendIndData := ⟨[], false, c.connHandle, connId, 0xff, 0⟩
          let w1 : World := { w with linkIndList := w.linkIndList ++ [s] }
          have hget : getLinkInd w c connId a = .ok (w1, some s) := by
            simp only [getLinkInd, scan_of_finds hfinds, hs, hmem, bind, Except.bind, pure,
              Except.pure, if_true]
            rfl
          have hi1 : w1.Inv := hi.newLink (s := s) hs hkey rfl
          have hs1 : w1.link c.connHandle = some s := by
            have hnone : w.linkIndList.find? (·.connHandle == c.connHandle) = none := hs
            simp [World.link, w1, find?_append, hnone, s]
          refine ⟨_, by simp only [hget, bind, Except.bind, pure, Except.pure]; rfl, ?_⟩
          apply sendWith_inv hi1 hs1 hkey
          intro hind hw
          rw [hsaves hind hw (.inr hmem)]
          have hd : ∀ ds, drains w1 ds a.queueCredit a.answers =
              drains w ds a.queueCredit a.answers := fun ds => drains_congr (by rfl) (by rfl) ds _ _
          rw [hd]
          unfold saveNotify
          split <;> rfl

theorem handleIndQueue_inv (hi : w.Inv) (hcur : w.current = none) (hfinds : w.Finds h)
    (hdue : ∀ s ∈ w.link h, s.isDue serviceId attribIdx = true → w.unconfirmed h = [] ∧
      (credit ≠ 0 → w.takes h answer = true → ∀ c ∈ w.nextInd h, c.cid = cid)) :
    ∃ r, gattSvcHandleIndQueue w h cid serviceId attribIdx credit answer = .ok r ∧ r.1.Inv := by
  unfold gattSvcHandleIndQueue
  rw [scan_of_finds hfinds]
  cases hs : w.link h with
  | none => exact ⟨(w, false), rfl, hi⟩
  | some s =>
    simp only [bind, Except.bind]
    split
    . next hd =>
      obtain ⟨hu, hcid⟩ := hdue s hs hd
      refine ⟨_, rfl, ?_⟩
      have hidle := hi.idleLink hs hcur hu
      have hlink := link_modifyLink_self SendIndData.idle (fun _ => rfl) hs
      have hh : s.idle.connHandle = h := (link_mem hs).2
      unfold sendFirstInd
      split
      . exact hidle
      . next e q hq =>
        split
        . exact hidle
        . next hcredit =>
          rw [hh]
          unfold gattSvcSendNotifyIndData
          split
          . next w1 hcall =>
            split at hcall
            . next htakes =>
              cases hcall
              exact hidle.sendFirst hlink hcur rfl hq (hcid hcredit htakes)
            . cases hcall
          . next w1 hcall =>
            split at hcall <;> cases hcall
            exact hidle
    . exact ⟨(w, true), rfl, hi⟩

theorem cmplEnd_inv (hi : w.Inv)
    (hp : (Op.cmplEnd ev credit answer queueCredit answers).Possible w)
    (hok : (Op.cmplEnd ev credit answer queueCredit answers).Ok w) :
    ∃ w', step1 w (.cmplEnd ev credit answer queueCredit answers) = .ok w' ∧ w'.Inv := by
  have hnone : World.Inv { w with current := none } :=
    ⟨hi.wf.congr rfl rfl fun _ hd => hd, hi.ordered, hi.awaited, by rintro _ ⟨⟩⟩
  simp only [step1]
  split
  . exact ⟨_, rfl, hnone⟩
  . next hmode =>
    obtain ⟨hfinds, hdue⟩ := hok hmode
    have hqueue : ∃ r, gattSvcHandleIndQueue { w with current := none } ev.connHandle ev.cid
        ev.serviceId ev.attribIdx credit answer = .ok r ∧ r.1.Inv := by
      apply handleIndQueue_inv hnone rfl hfinds
      intro s hs hd
      obtain ⟨hpd, hcid⟩ := hdue s hs hd
      refine ⟨?_, hcid⟩
      cases hind : ev.ind with
      | true => exact (hi.current ev hp hind).1
      | false => exact (hi.awaited _).idle hs (hpd hind)
    obtain ⟨r, hr, hri⟩ := hqueue
    rw [hr]
    obtain ⟨ds, rest, hds, heq⟩ := handleNotifyQueue_eq r.1 queueCredit answers
    refine ⟨_, rfl, ?_⟩
    rw [heq]
    exact hri.sendNotifies hds

section

variable {w : World}

theorem key_of_connId (hi : w.Inv) {c : Conn} (hc : c ∈ w.conns) {id : Nat}
    (hid : c.connId = some id) {p : Nat × Nat} (hp : p ∈ w.connKeys) :
    p.2 = id ↔ p.1 = c.connHandle := by
  have hck : c.key ∈ w.connKeys := mem_map_of_mem hc
  have hc2 : c.key.2 = id := by simp [Conn.key, hid]
  constructor
  . intro heq
    have hne : p.2 ≠ noConnId := by
      rintro hno
      apply hi.wf.small c hc
      rw [hid, ← heq, hno]
    rw [hi.wf.ids p hp c.key hck (by rw [heq, hc2]) hne]
    rfl
  . intro heq
    rw [inj_on_of_nodup_map hi.wf.handles hp hck heq, hc2]

theorem eraseP_congr {α : Type} {p q : α → Bool} {l : List α} (h : ∀ a ∈ l, p a = q a) :
    l.eraseP p = l.eraseP q := by
  induction l with
  | nil => rfl
  | cons a l ih =>
    rw [eraseP_cons, eraseP_cons, h a mem_cons_self,
      ih fun b hb => h b (mem_cons_of_mem _ hb)]

theorem disconnect_inv {connId : Nat} (hi : w.Inv) (hp : (Op.disconnect connId).Possible w)
    (hok : (Op.disconnect connId).Ok w) :
    ∃ w', step1 w (.disconnect connId) = .ok w' ∧ w'.Inv := by
  simp only [step1]
  cases hc : connHandleOf w.conns connId with
  | none => exact ⟨w, rfl, hi⟩
  | some h =>
    obtain ⟨hfinds, hlen⟩ := hok h hc
    obtain ⟨c, hfind, rfl⟩ := Option.map_eq_some_iff.mp hc
    have hmem := mem_of_find?_eq_some hfind
    have hid : c.connId = some connId := by simpa using find?_some hfind
    have hlink : ∀ s ∈ w.linkIndList, (s.connId == connId) = (s.connHandle == c.connHandle) := by
      intro s hs
      have := key_of_connId hi hmem hid (hi.wf.linkConn s.key (mem_map_of_mem hs))
      rw [Bool.eq_iff_iff, beq_iff_eq, beq_iff_eq]
      exact this
    have hnotify : ∀ d ∈ w.notifyList,
        (!(d.connId == connId)) = (d.connHandle != c.connHandle) := by
      intro d hd
      have hiff := key_of_connId hi hmem hid (hi.wf.notifyConn d hd)
      have heq : (d.connId == connId) = (d.connHandle == c.connHandle) := by
        rw [Bool.eq_iff_iff, beq_iff_eq, beq_iff_eq]
        exact hiff
      rw [heq]
      rfl
    have hscan : ∃ r, scan (fun s : SendIndData => s.connId == connId)
        (w.drop c.connHandle).linkIndList = .ok r := by
      apply exists_scan
      obtain hlen | ⟨s, hs, hh⟩ := hfinds
      . exact .inl hlen
      . refine .inr ⟨s, hs, ?_⟩
        rw [hlink s (mem_of_mem_take hs)]
        exact beq_iff_eq.mpr hh
    obtain ⟨r, hr⟩ := hscan
    have hlist : (w.drop c.connHandle).notifyList.filter (fun d => !(d.connId == connId)) =
        w.notifyList.filter (·.connHandle != c.connHandle) := filter_congr hnotify
    refine ⟨_, clearSvcData_ok hr (by rw [hlist]; exact hlen), ?_⟩
    rw [hlist, show (w.drop c.connHandle).linkIndList = w.linkIndList from rfl, eraseP_congr hlink]
    exact hi.without hp c.connHandle

theorem modifyConn_inv (hi : w.Inv) : (w.modifyConn h f).Inv := by
  have hkeys : (w.modifyConn h f).connKeys = w.connKeys :=
    First.map_modify (f := fun c : Conn => { c with cids := f c.cids }) (fun _ => rfl) w.conns
  have hids : (w.modifyConn h f).conns.map (·.connId) = w.conns.map (·.connId) :=
    First.map_modify (f := fun c : Conn => { c with cids := f c.cids }) (fun _ => rfl) w.conns
  refine ⟨⟨?_, ?_, ?_, hi.wf.links, ?_, ?_⟩, hi.ordered, hi.awaited, hi.current⟩
  . rw [hkeys]; exact hi.wf.handles
  . rw [hkeys]; exact hi.wf.ids
  . intro c hc hid
    have hmem : c.connId ∈ (w.modifyConn h f).conns.map (·.connId) := mem_map_of_mem hc
    rw [hids] at hmem
    obtain ⟨c', hc', heq⟩ := mem_map.mp hmem
    exact hi.wf.small c' hc' (heq.trans hid)
  . rw [hkeys]; exact hi.wf.linkConn
  . rw [hkeys]; exact hi.wf.notifyConn

theorem channDel_inv (hi : w.Inv) (hp : (Op.channDel h cid).Possible w)
    (hok : (Op.channDel h cid).Ok w) : ∃ w', step1 w (.channDel h cid) = .ok w' ∧ w'.Inv := by
  obtain ⟨hcur, hcid⟩ := hp
  have hi1 : (w.modifyConn h (·.erase cid)).Inv := modifyConn_inv hi
  simp only [step1, gattSvcHandleGapCommonCb]
  by_cases hnum : gapChannGetNum (w.modifyConn h (·.erase cid)).conns h = 0
  . obtain ⟨hfinds, hlen⟩ := hok hnum
    rw [if_pos ⟨hnum, hcid⟩, gattSvcClearSvcDataQueue,
      clearSvcData_ok (w := w.modifyConn h (·.erase cid)) (scan_of_finds hfinds) hlen]
    refine ⟨_, rfl, ?_⟩
    rw [World.reap, if_pos (by exact hnum)]
    exact hi1.without hcur h
  . rw [if_neg fun hh => hnum hh.1]
    refine ⟨_, rfl, ?_⟩
    rw [World.reap, if_neg hnum]
    exact hi1

theorem connect_inv (hi : w.Inv) (hp : (Op.connect c).Possible w) :
    World.Inv { w with conns := w.conns ++ [c] } := by
  obtain ⟨-, hfresh, hids⟩ := hp
  have hkeys : ∀ p, p ∈ World.connKeys { w with conns := w.conns ++ [c] } ↔
      p ∈ w.connKeys ∨ p = c.key := by
    simp [World.connKeys]
  have hnew : ∀ p ∈ w.connKeys, p.2 = c.key.2 → p.2 ≠ noConnId → p = c.key := by
    intro p hp heq hne
    obtain ⟨c', hc', rfl⟩ := mem_map.mp hp
    cases hid : c.connId with
    | none =>
      simp only [Conn.key, hid] at heq
      exact absurd heq hne
    | some id =>
      obtain ⟨hlt, hother⟩ := hids id hid
      cases hid' : c'.connId with
      | none =>
        simp only [Conn.key, hid'] at hne
        exact absurd rfl hne
      | some id' =>
        simp only [Conn.key, hid, hid', Option.getD_some] at heq
        exact absurd (heq ▸ hid') (hother c' hc')
  refine ⟨⟨?_, ?_, ?_, hi.wf.links, ?_, ?_⟩, hi.ordered, hi.awaited, hi.current⟩
  . simp only [World.connKeys, map_append, map_cons, map_nil]
    refine nodup_append.mpr ⟨hi.wf.handles, by simp, ?_⟩
    intro h hh h' hh' heq
    rw [mem_singleton.mp hh'] at heq
    obtain ⟨p, hp, rfl⟩ := mem_map.mp hh
    obtain ⟨c', hc', rfl⟩ := mem_map.mp hp
    exact hfresh c' hc' heq
  . intro p hp q hq heq hne
    rw [hkeys] at hp hq
    obtain hp | rfl := hp <;> obtain hq | rfl := hq
    . exact hi.wf.ids p hp q hq heq hne
    . exact hnew p hp heq hne
    . exact (hnew q hq heq.symm (heq ▸ hne)).symm
    . rfl
  . intro c' hc' hid
    obtain hc' | hc' := mem_append.mp hc'
    . exact hi.wf.small c' hc' hid
    . rw [mem_singleton.mp hc'] at hid
      exact absurd (hids _ hid).1 (Nat.lt_irrefl _)
  . exact fun p hp => (hkeys p).mpr (.inl (hi.wf.linkConn p hp))
  . exact fun d hd => (hkeys d.key).mpr (.inl (hi.wf.notifyConn d hd))

end

theorem inv_step1 (hi : w.Inv) (op : Op) (hp : op.Possible w) (hok : op.Ok w) :
    ∃ w', step1 w op = .ok w' ∧ w'.Inv := by
  cases op with
  | connect c => exact ⟨_, rfl, connect_inv hi hp⟩
  | channAdd h cid => exact ⟨_, rfl, modifyConn_inv hi⟩
  | channDel h cid => exact channDel_inv hi hp hok
  | disconnect connId => exact disconnect_inv hi hp hok
  | sendData c a =>
    obtain ⟨r, hr, hri⟩ := sendData_inv hi hok
    refine ⟨_, ?_, hri⟩
    simp only [step1, hr, bind, Except.bind, pure, Except.pure]
  | cmplBegin ev => exact ⟨_, rfl, hi.confirm hp.2⟩
  | cmplEnd ev credit answer queueCredit answers => exact cmplEnd_inv hi hp hok

def World.Extends (w w' : World) : Prop := w'.accepted = w.accepted ∧ w.handed <+: w'.handed

theorem World.Extends.refl (w : World) : w.Extends w := ⟨rfl, List.prefix_refl _⟩

theorem World.Extends.trans {w w' w'' : World} (h : w.Extends w') (h' : w'.Extends w'') :
    w.Extends w'' :=
  ⟨h'.1.trans h.1, h.2.trans h'.2⟩

section

variable {w : World} {c : Send} {a : Answers}

theorem extends_hand (c : Call) (answer : Bool) :
    w.Extends (gattSvcSendNotifyIndData w c answer).1 := by
  unfold gattSvcSendNotifyIndData
  split
  . exact ⟨rfl, prefix_append _ _⟩
  . exact .refl w

theorem extends_handleNotifyQueue (credit : Nat) (answers : List Bool) :
    w.Extends (gattSvcHandleNotifyQueue w credit answers).1 := by
  obtain ⟨ds, rest, -, heq⟩ := handleNotifyQueue_eq w credit answers
  rw [heq]
  exact ⟨rfl, prefix_append _ _⟩

theorem extends_sendWith (s : SendIndData) (connId : Nat) :
    w.Extends (sendWith w s c connId a).1 := by
  have hhand := extends_hand (w := w) (c.call true) (a.answers.headD false)
  unfold sendWith
  split
  . unfold sendInd
    split
    . split <;> next w1 hcall =>
        rw [hcall] at hhand
        exact hhand
    . unfold saveInd
      split <;> exact .refl w
  . unfold sendNotify
    split
    . exact extends_hand _ _
    . apply World.Extends.trans _ (extends_handleNotifyQueue _ _)
      unfold saveNotify
      split <;> exact .refl w

theorem extends_sendData (h : gattSvcSendData w c a = .ok r) : w.Extends r.1 := by
  unfold gattSvcSendData at h
  split at h
  . cases h
    exact .refl w
  . split at h
    . cases h
      exact .refl w
    . next connId _ =>
      simp only [getLinkInd] at h
      cases hs : gattSvcCheckLinkInd w c.connHandle with
      | error _ =>
        rw [hs] at h
        cases h
      | ok o =>
        rw [hs] at h
        cases o with
        | some s =>
          cases h
          exact extends_sendWith s connId
        | none =>
          simp only [bind, Except.bind, pure, Except.pure] at h
          cases hmem : a.linkMem with
          | true =>
            rw [hmem] at h
            cases h
            exact World.Extends.trans ⟨rfl, prefix_refl _⟩ (extends_sendWith _ connId)
          | false =>
            rw [hmem] at h
            cases h
            exact .refl w

end

theorem queuedNothing_of_extends (hw : ∀ h k, w.Ordered h k)
    (hw' : ∀ h k, w'.Ordered h k) (hext : w.Extends w') : QueuedNothing w w' := by
  intro h k
  obtain ⟨rest, hrest, hkept⟩ := hw h k
  obtain ⟨rest', hrest', hkept'⟩ := hw' h k
  obtain ⟨more, hmore⟩ := hext.2
  have hacc : w'.acceptedOn h k = w.acceptedOn h k := by rw [World.acceptedOn, hext.1]; rfl
  have hhand : w'.handedOn h k = w.handedOn h k ++ more.filter (Call.on h k) := by
    rw [World.handedOn, ← hmore, filter_append]
    rfl
  rw [hacc, hrest, hhand, append_assoc] at hrest'
  rw [← hkept, ← hkept', append_cancel_left hrest', map_append]
  exact suffix_append _ _

theorem inv_start (mode : Mode) : (World.start mode).Inv where
  wf := ⟨nodup_nil, by rintro _ ⟨⟩, by rintro _ ⟨⟩, nodup_nil, by rintro _ ⟨⟩,
    by rintro _ ⟨⟩⟩
  ordered _ k := ⟨[], rfl, by cases k <;> rfl⟩
  awaited _ := .inl rfl
  current := by rintro _ ⟨⟩

def PossibleStep (w : Except Fault World) (op : Op) : Prop := ∀ w' ∈ w.toOption, op.Possible w'

def OkStep (w : Except Fault World) (op : Op) : Prop := ∀ w' ∈ w.toOption, op.Possible w' ∧ op.Ok w'

instance (w : World) : (op : Op) → Decidable (op.Possible w)
  | .connect _ | .channDel .. | .cmplBegin _ => instDecidableAnd
  | .channAdd .. | .disconnect _ | .cmplEnd .. => inferInstanceAs (Decidable (_ = _))
  | .sendData .. => .isTrue trivial

instance (w : World) : (op : Op) → Decidable (op.Ok w)
  | .connect _ | .channAdd .. | .cmplBegin _ => .isTrue trivial
  | .channDel .. => inferInstanceAs (Decidable (_ → _ ∧ _))
  | .disconnect connId =>
    inferInstanceAs (Decidable (∀ connHandle ∈ connHandleOf w.conns connId, _))
  | .sendData c _ => inferInstanceAs (Decidable (_ → ∀ connId ∈ sendConnId w c, _))
  | .cmplEnd .. => inferInstanceAs (Decidable (_ → _ ∧ _))

instance (w : Except Fault World) (op : Op) : Decidable (OkStep w op) :=
  inferInstanceAs (Decidable (∀ w' ∈ w.toOption, op.Possible w' ∧ op.Ok w'))

instance (w : Except Fault World) (op : Op) : Decidable (PossibleStep w op) :=
  inferInstanceAs (Decidable (∀ w' ∈ w.toOption, op.Possible w'))

theorem sends_sound (mode : Mode) (ops : List Op)
    (hok : Run.Along step OkStep (.ok (.start mode)) ops) :
    ∃ w, Run.exec step (.ok (.start mode)) ops = .ok w ∧ Sound w ∧
      ∀ c a w', (Op.sendData c a).Ok w → gattSvcSendData w c a = .ok (w', false) →
        QueuedNothing w w' := by
  have hinv := @Run.exec_inv _ _ step OkStep (fun r => ∃ w, r = .ok w ∧ w.Inv)
    (fun r op hr hop => by
      obtain ⟨w, rfl, hw⟩ := hr
      obtain ⟨hp, ho⟩ := hop w rfl
      exact inv_step1 hw op hp ho) (.ok (.start mode)) ops ⟨_, rfl, inv_start mode⟩ hok
  obtain ⟨w, hexec, hw⟩ := hinv
  refine ⟨w, hexec, hw.sound, fun c a w' ho hsend => ?_⟩
  obtain ⟨r, hr, hri⟩ := sendData_inv hw ho
  rw [hsend] at hr
  cases hr
  exact queuedNothing_of_extends hw.ordered hri.ordered (extends_sendData hsend)

def Answers.granting (ccc credit : Nat) : Answers :=
  { linkMem := true
    elemMem := true
    dataMem := true
    ccc := some ccc
    credit
    queueCredit := credit
    answers := [true] }

def Send.battery (svcData : List UInt8) (type : PduType) : Send :=
  { connHandle := 0x10, cid := 4, serviceId := 3, attribIdx := 2, svcData, type }

theorem sends_sound_both : ∃ w,
    Run.exec step (.ok (.start .useExtServer))
      [.connect ⟨0x10, some 0, []⟩, .sendData (.battery [90] .indication) (.granting 3 2),
        .sendData (.battery [89] .indication) (.granting 3 2),
        .sendData (.battery [88] .notification) (.granting 3 0),
        .cmplBegin ⟨true, 0x10, 4, 3, 2⟩, .sendData (.battery [87] .notification) (.granting 3 0),
        .cmplEnd ⟨true, 0x10, 4, 3, 2⟩ 3 true 2 [true, true], .disconnect 0] = .ok w ∧
      Sound w ∧
      ∀ c a w', (Op.sendData c a).Ok w → gattSvcSendData w c a = .ok (w', false) →
        QueuedNothing w w' :=
  sends_sound .useExtServer _ (by decide)

theorem not_sends_sound : ∃ w ops,
    Run.Along step PossibleStep (.ok (.start .useExtServer)) ops ∧
      Run.exec step (.ok (.start .useExtServer)) ops = .ok w ∧ ¬Sound w :=
  ⟨_, [.connect ⟨0x10, some 0, []⟩, .sendData (.battery [90] .notification) (.granting 3 3),
    .sendData (.battery [90] .indication) (.granting 3 2),
    .sendData (.battery [89] .indication) (.granting 3 1),
    .cmplBegin ⟨false, 0x10, 4, 3, 2⟩, .cmplEnd ⟨false, 0x10, 4, 3, 2⟩ 2 true 1 []],
    by decide, rfl, fun h => absurd (h.confirmed 0x10) (by decide)⟩

end GattSvc
