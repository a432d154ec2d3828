import Earphone.GattSvc.Inv

namespace GattSvc

open List

variable {w : World}

theorem filter_drop {l : List Call} {h h' : Nat} (k : Bool) :
    (l.filter (·.connHandle != h)).filter (Call.on h' k) =
      if h' = h then [] else l.filter (Call.on h' k) := by
  rw [filter_filter]
  split
  . next heq =>
    subst heq
    apply filter_eq_nil_iff.mpr
    intro c _
    simp +contextual [Call.on]
  . next hne =>
    apply filter_congr
    intro c _
    by_cases hc : c.connHandle = h' <;> simp [Call.on, hc, hne]

def World.without (w : World) (h : Nat) : World :=
  { w.drop h with
    linkIndList := w.linkIndList.eraseP (·.connHandle == h)
    notifyList := w.notifyList.filter (·.connHandle != h) }

theorem link_without_self (hw : w.Wf) (h : Nat) : (w.without h).link h = none := by
  apply find?_eq_none.mpr
  intro s hs hh
  have hnd : ((w.linkIndList.map SendIndData.key).map Prod.fst).Nodup := hw.links
  rw [map_map] at hnd
  rw [beq_iff_eq] at hh
  have := eraseP_subset hs
  have hcount : ∀ l : List SendIndData, (l.map (Prod.fst ∘ SendIndData.key)).Nodup →
      s ∈ l.eraseP (·.connHandle == h) → False := by
    intro l
    induction l with
    | nil => simp
    | cons a l ih =>
      intro hnd hmem
      rw [map_cons, nodup_cons] at hnd
      by_cases ha : a.connHandle = h
      . rw [eraseP_cons_of_pos (by simpa using ha)] at hmem
        exact hnd.1 (mem_map.mpr ⟨s, hmem, by simp [SendIndData.key, hh, ha]⟩)
      . rw [eraseP_cons_of_neg (by simpa using ha)] at hmem
        obtain rfl | hmem := mem_cons.mp hmem
        . exact ha hh
        . exact ih hnd.2 hmem
  exact hcount _ hnd hs

theorem link_without_ne (hne : h' ≠ h) : (w.without h).link h' = w.link h' := by
  rw [World.link, World.link, ← head?_filter, ← head?_filter, World.without]
  congr 1
  apply First.filter_eraseP_of_not
  intro s hs
  rw [beq_iff_eq] at hs
  simp [hs, Ne.symm hne]

theorem queued_without_self (hw : w.Wf) (h : Nat) (k : Bool) : (w.without h).queued h k = [] := by
  cases k with
  | true => rw [World.queued, link_without_self hw]; rfl
  | false =>
    rw [World.queued, map_eq_nil_iff]
    apply filter_eq_nil_iff.mpr
    intro d hd
    have := (mem_filter.mp hd).2
    simpa using this

theorem queued_without_ne (hne : h' ≠ h) (k : Bool) :
    (w.without h).queued h' k = w.queued h' k := by
  cases k with
  | true => rw [World.queued, World.queued, link_without_ne hne]
  | false =>
    rw [World.queued, World.queued, World.without, filter_filter]
    congr 1
    apply filter_congr
    intro d _
    by_cases hd : d.connHandle = h' <;> simp [hd, hne]

theorem World.Inv.without (hi : w.Inv) (hcur : w.current = none) (h : Nat) : (w.without h).Inv := by
  have hconns : (w.without h).conns = w.conns.filter (·.connHandle != h) := rfl
  have hkeys : ∀ p, p ∈ (w.without h).connKeys ↔ p ∈ w.connKeys ∧ p.1 ≠ h := by
    intro p
    simp only [World.connKeys, hconns, mem_map, mem_filter, bne_iff_ne]
    constructor
    . rintro ⟨c, ⟨hc, hne⟩, rfl⟩
      exact ⟨⟨c, hc, rfl⟩, hne⟩
    . rintro ⟨⟨c, hc, rfl⟩, hne⟩
      exact ⟨c, ⟨hc, hne⟩, rfl⟩
  have hsub : (w.without h).linkKeys.Sublist w.linkKeys := (eraseP_sublist).map _
  constructor
  . constructor
    . exact ((filter_sublist.map _).map _).nodup hi.wf.handles
    . intro p hp q hq
      exact hi.wf.ids p ((hkeys p).mp hp).1 q ((hkeys q).mp hq).1
    . exact fun c hc => hi.wf.small c (mem_filter.mp hc).1
    . exact (hsub.map _).nodup hi.wf.links
    . intro p hp
      refine (hkeys p).mpr ⟨hi.wf.linkConn p (hsub.subset hp), ?_⟩
      intro heq
      obtain ⟨s, hs, rfl⟩ := mem_map.mp hp
      have hnone := find?_eq_none.mp (link_without_self hi.wf h) s hs
      exact hnone (by simpa [SendIndData.key] using heq)
    . intro d hd
      obtain ⟨hd, hne⟩ := mem_filter.mp hd
      exact (hkeys d.key).mpr ⟨hi.wf.notifyConn d hd, by simpa [NotifyData.key] using hne⟩
  . intro h' k
    by_cases hh : h' = h
    . refine ⟨[], ?_, ?_⟩
      . rw [World.acceptedOn, World.handedOn, World.without, World.drop, filter_drop, filter_drop,
          if_pos hh, if_pos hh]
        rfl
      . rw [hh, queued_without_self hi.wf]
        rfl
    . refine World.Ordered.congr (hi.ordered h' k) ?_ ?_ (queued_without_ne hh k)
      . exact (filter_drop k).trans (if_neg hh)
      . exact (filter_drop k).trans (if_neg hh)
  . intro h'
    by_cases hh : h' = h
    . exact .inl ((filter_drop true).trans (if_pos hh))
    . exact (hi.awaited h').congr ((filter_drop true).trans (if_neg hh)) (link_without_ne hh)
  . intro ev hev
    change w.current = some ev at hev
    rw [hcur] at hev
    cases hev

theorem removeLoop_ok (h : kept.length + (l.filter fun d => !p d).length < 256) :
    removeLoop p kept l = .ok (kept ++ l.filter fun d => !p d) := by
  induction l generalizing kept with
  | nil => simp [removeLoop]
  | cons d ds ih =>
    cases hd : p d with
    | true =>
      simp only [removeLoop, hd, if_true]
      rw [filter_cons_of_neg (by simp [hd])] at h ⊢
      exact ih h
    | false =>
      rw [filter_cons_of_pos (by simp [hd])] at h ⊢
      rw [length_cons] at h
      have hlt : kept.length + 1 ≠ 256 := by omega
      simp only [removeLoop, hd, Bool.false_eq_true, if_false, if_neg hlt]
      rw [ih (by rw [length_append, length_singleton]; omega)]
      simp

theorem scan_ok {α : Type} {q : α → Bool} {l : List α} {r : Option α} (h : scan q l = .ok r) :
    r = l.find? q := by
  unfold scan at h
  have hsplit : l.find? q = ((l.take 256).find? q).or ((l.drop 256).find? q) := by
    rw [← find?_append, take_append_drop]
  split at h
  . next a ha =>
    cases h
    rw [hsplit, ha]
    rfl
  . next hnone =>
    split at h
    . next hlen =>
      cases h
      rw [hsplit, hnone, drop_eq_nil_of_le (by omega)]
      rfl
    . cases h

theorem clearSvcData_ok {q : SendIndData → Bool} {r : Option SendIndData}
    (hscan : scan q w.linkIndList = .ok r)
    (hlen : (w.notifyList.filter fun d => !p d).length < 256) :
    clearSvcData w q p = .ok { w with
      linkIndList := w.linkIndList.eraseP q, notifyList := w.notifyList.filter fun d => !p d } := by
  have hloop : removeLoop p [] w.notifyList = .ok (w.notifyList.filter fun d => !p d) := by
    rw [removeLoop_ok (by simpa using hlen)]
    rfl
  have hr := scan_ok hscan
  cases r with
  | some s =>
    simp only [clearSvcData, hscan, hloop, bind, Except.bind, pure, Except.pure]
  | none =>
    have herase : w.linkIndList.eraseP q = w.linkIndList :=
      eraseP_of_forall_not (find?_eq_none.mp hr.symm)
    simp only [clearSvcData, hscan, hloop, bind, Except.bind, pure, Except.pure, herase]

theorem World.Inv.confirm (hi : w.Inv)
    (hev : ∃ c ∈ w.outstanding, ev.of c = true) :
    World.Inv { w with current := some ev, outstanding := w.outstanding.eraseP ev.of } := by
  have hof : ∀ c, ev.of c = true → c.connHandle = ev.connHandle ∧ c.ind = ev.ind := by
    intro c hc
    simp only [Cmpl.of, Bool.and_eq_true, beq_iff_eq] at hc
    exact ⟨hc.1.1.1.2, hc.1.1.1.1⟩
  have hne : ∀ h, ¬(h = ev.connHandle ∧ ev.ind = true) →
      (w.outstanding.eraseP ev.of).filter (Call.on h true) = w.unconfirmed h := by
    intro h hh
    apply First.filter_eraseP_of_not
    intro c hc
    obtain ⟨h1, h2⟩ := hof c hc
    rw [Call.on, h1, h2]
    by_cases heq : h = ev.connHandle
    . have : ev.ind = false := by simpa [heq] using hh
      simp [this]
    . simp [Ne.symm heq]
  have hself : ev.ind = true →
      (w.outstanding.eraseP ev.of).filter (Call.on ev.connHandle true) = [] ∧
        ∃ s, w.link ev.connHandle = some s ∧ s.pd = true := by
    intro hind
    obtain ⟨c, hc, hcev⟩ := hev
    obtain ⟨h1, h2⟩ := hof c hcev
    have hmem : c ∈ w.unconfirmed ev.connHandle :=
      mem_filter.mpr ⟨hc, by simp [Call.on, h1, h2, hind]⟩
    obtain hempty | ⟨s, c', hs, hpd, hu, -⟩ := hi.awaited ev.connHandle
    . rw [hempty] at hmem
      cases hmem
    . rw [hu, mem_singleton] at hmem
      refine ⟨?_, s, hs, hpd⟩
      rw [First.filter_eraseP_of_imp, ← World.unconfirmed, hu, ← hmem]
      . simp [hcev]
      . intro c'' hc''
        obtain ⟨h1, h2⟩ := hof c'' hc''
        simp [Call.on, h1, h2, hind]
  constructor
  . exact hi.wf.congr rfl rfl fun _ hd => hd
  . exact hi.ordered
  . intro h
    by_cases hh : h = ev.connHandle ∧ ev.ind = true
    . obtain ⟨rfl, hind⟩ := hh
      exact .inl (hself hind).1
    . exact (hi.awaited h).congr (hne h hh) rfl
  . rintro ev' hev' hind
    cases hev'
    exact hself hind

end GattSvc
