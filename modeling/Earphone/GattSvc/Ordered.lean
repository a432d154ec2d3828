import Earphone.GattSvc.Basic

namespace GattSvc

open List

def Call.on (connHandle : Nat) (ind : Bool) (c : Call) : Bool :=
  c.connHandle == connHandle && c.ind == ind

def Call.kept (c : Call) : Call := if c.ind then { c with cid := 0 } else c

namespace World

variable (w : World) (connHandle : Nat)

def link : Option SendIndData := w.linkIndList.find? (·.connHandle == connHandle)

def queued : Bool → List Call
  | true => (w.link connHandle).elim [] fun s => s.srvDataQ.map (·.call connHandle 0)
  | false => (w.notifyList.filter (·.connHandle == connHandle)).map (·.call)

def acceptedOn (ind : Bool) : List Call := w.accepted.filter (Call.on connHandle ind)

def handedOn (ind : Bool) : List Call := w.handed.filter (Call.on connHandle ind)

def unconfirmed : List Call := w.outstanding.filter (Call.on connHandle true)

def Ordered (ind : Bool) : Prop :=
  ∃ rest, w.acceptedOn connHandle ind = w.handedOn connHandle ind ++ rest ∧
    rest.map Call.kept = w.queued connHandle ind

def Awaited : Prop :=
  w.unconfirmed connHandle = [] ∨
    ∃ s c, w.link connHandle = some s ∧ s.pd = true ∧ w.unconfirmed connHandle = [c] ∧
      c.serviceId = s.serviceId ∧ c.attribIdx = s.attribIdx

end World

theorem Call.on_self (c : Call) : Call.on c.connHandle c.ind c = true := by
  simp [Call.on]

theorem Call.on_of_ne (hne : c.connHandle ≠ h) (k : Bool) : Call.on h k c = false := by
  simp [Call.on, hne]

theorem Call.on_of_kind (hne : c.ind ≠ k) (h : Nat) : Call.on h k c = false := by
  simp [Call.on, hne]

section

variable {w : World} {h h' : Nat} (f : SendIndData → SendIndData)

theorem link_modifyLink_self (hf : ∀ s, (f s).connHandle = s.connHandle)
    (hs : w.link h = some s) : (w.modifyLink h f).link h = some (f s) := by
  have hmap : (w.modifyLink h f).link h = (w.link h).map f :=
    First.find?_modify_self f (fun s => by rw [hf]) w.linkIndList
  rw [hmap, hs]
  rfl

theorem link_modifyLink_ne (hf : ∀ s, (f s).connHandle = s.connHandle) (hne : h' ≠ h) :
    (w.modifyLink h f).link h' = w.link h' := by
  apply First.find?_modify_ne f (fun s => by rw [hf])
  intro s hs
  rw [beq_iff_eq] at hs
  rw [beq_eq_false_iff_ne, hs]
  exact hne

theorem queued_of_link {w' : World} (hlink : w'.link h = w.link h)
    (hnotify : w'.notifyList = w.notifyList) (k : Bool) : w'.queued h k = w.queued h k := by
  cases k with
  | true => simp only [World.queued, hlink]
  | false => simp only [World.queued, hnotify]

end

theorem World.Ordered.congr {w w' : World} {h : Nat} {k : Bool} (ho : w.Ordered h k)
    (ha : w'.acceptedOn h k = w.acceptedOn h k) (hh : w'.handedOn h k = w.handedOn h k)
    (hq : w'.queued h k = w.queued h k) : w'.Ordered h k := by
  obtain ⟨rest, hrest, hkept⟩ := ho
  exact ⟨rest, by rw [ha, hh, hrest], by rw [hq, hkept]⟩

theorem World.Ordered.push {w w' : World} {h : Nat} {k : Bool} {c : Call} (ho : w.Ordered h k)
    (ha : w'.acceptedOn h k = w.acceptedOn h k ++ [c]) (hh : w'.handedOn h k = w.handedOn h k)
    (hq : w'.queued h k = w.queued h k ++ [c.kept]) : w'.Ordered h k := by
  obtain ⟨rest, hrest, hkept⟩ := ho
  refine ⟨rest ++ [c], by rw [ha, hh, hrest, append_assoc], ?_⟩
  rw [hq, map_append, hkept]
  rfl

theorem World.Ordered.pass {w w' : World} {h : Nat} {k : Bool} {c : Call} (ho : w.Ordered h k)
    (hempty : w.queued h k = []) (ha : w'.acceptedOn h k = w.acceptedOn h k ++ [c])
    (hh : w'.handedOn h k = w.handedOn h k ++ [c]) (hq : w'.queued h k = []) : w'.Ordered h k := by
  obtain ⟨rest, hrest, hkept⟩ := ho
  rw [hempty, map_eq_nil_iff] at hkept
  subst hkept
  exact ⟨[], by rw [ha, hh, hrest]; simp, by rw [hq]; rfl⟩

theorem World.Ordered.pop {w w' : World} {h : Nat} {k : Bool} {c : Call} {q : List Call}
    (ho : w.Ordered h k) (hqueued : w.queued h k = c.kept :: q)
    (hc : ∀ rest, w.acceptedOn h k = w.handedOn h k ++ rest → ∀ c' ∈ rest.head?, c'.kept = c.kept →
      c' = c)
    (ha : w'.acceptedOn h k = w.acceptedOn h k) (hh : w'.handedOn h k = w.handedOn h k ++ [c])
    (hq : w'.queued h k = q) : w'.Ordered h k := by
  obtain ⟨rest, hrest, hkept⟩ := ho
  rw [hqueued] at hkept
  obtain ⟨c', rest', rfl, hc', hrest'⟩ := map_eq_cons_iff.mp hkept
  have heq := hc _ hrest c' rfl hc'
  subst heq
  exact ⟨rest', by rw [ha, hh, hrest]; simp, by rw [hq, hrest']⟩

theorem World.Ordered.popNotify {w w' : World} {h : Nat} {d : NotifyData}
    {ds : List NotifyData} (ho : w.Ordered h false) (hlist : w.notifyList = d :: ds)
    (ha : w'.accepted = w.accepted) (hh : w'.handed = w.handed ++ [d.call])
    (hq : w'.notifyList = ds) : w'.Ordered h false := by
  have hacc : w'.acceptedOn h false = w.acceptedOn h false := by rw [acceptedOn, ha]; rfl
  by_cases hd : d.connHandle = h
  . have hon : Call.on h false d.call = true := by
      rw [← hd]
      exact Call.on_self d.call
    apply ho.pop (c := d.call) (q := (ds.filter (·.connHandle == h)).map (·.call))
    . simp [queued, hlist, hd, Call.kept, NotifyData.call]
    . intro rest hrest c' hc' hk
      have hmem : c' ∈ w.acceptedOn h false := by
        rw [hrest]
        exact mem_append_right _ (mem_of_mem_head? hc')
      have hind : c'.ind = false := by
        have := (mem_filter.mp hmem).2
        simp only [Call.on, Bool.and_eq_true, beq_iff_eq] at this
        exact this.2
      simpa [Call.kept, hind, NotifyData.call] using hk
    . exact hacc
    . rw [handedOn, hh, filter_append, filter_singleton, hon]
      rfl
    . rw [queued, hq]
  . have hon : Call.on h false d.call = false := Call.on_of_ne hd false
    apply ho.congr hacc
    . rw [handedOn, hh, filter_append, filter_singleton, hon]
      exact append_nil _
    . simp [queued, hlist, hq, hd]

end GattSvc
