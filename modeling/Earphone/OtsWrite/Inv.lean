import Earphone.OtsWrite.Basic

namespace OtsWrite

open List

open Heap Heap.Mem Ots Area

structure Busy (heap : Mem UInt8) (o : ObjectCb) (p : Nat) (temp : List UInt8) : Prop where
  buffer : o.tempWriteBuf = some p
  block : heap p = some temp
  room : o.wrLen ≤ temp.length
  inside : o.wrOffset + o.wrLen ≤ o.objSize1
  arrived : o.transferdLen = o.received.length
  more : o.received.length ≤ o.wrLen
  holds : Holds temp 0 o.received

structure ObjOk (heap : Mem UInt8) (o : ObjectCb) : Prop where
  size : ∃ b, heap o.allocBuf = some b ∧ b.length = o.objSize1
  cur : o.objSize0 ≤ o.objSize1
  small : o.objSize1 < 2 ^ 32
  nodup : o.owned.Nodup
  idle : o.objLockState = .idle → o.tempWriteBuf = none ∧ o.wrLen = 0 ∧ o.wrOffset = 0 ∧ o.mode = 0
  busy : o.objLockState ≠ .idle → ∃ p temp, Busy heap o p temp

structure World.Inv (w : World) : Prop where
  objs : ∀ o ∈ w.objs, ObjOk w.heap o
  distinct : ∀ o ∈ w.objs, ∀ o' ∈ w.objs, o.ptr = o'.ptr → o = o'
  owner : ∀ p, w.heap p ≠ none → ∃ o ∈ w.objs, p ∈ o.owned
  one : ∀ o ∈ w.objs, ∀ o' ∈ w.objs, ∀ p ∈ o.owned, p ∈ o'.owned → o = o'
  selected : ∀ cl ∈ w.clients, ∀ ptr ∈ cl.currentObj, ∃ o ∈ w.objs, o.ptr = ptr

section

variable {heap heap' : Mem UInt8} {o o' : ObjectCb} {p : Nat} {temp : List UInt8}

theorem mem_owned : p ∈ o.owned ↔ p = o.allocBuf ∨ o.tempWriteBuf = some p := by
  unfold ObjectCb.owned
  cases o.tempWriteBuf <;> simp [eq_comm]

theorem nodup_owned : o.owned.Nodup ↔ o.tempWriteBuf ≠ some o.allocBuf := by
  unfold ObjectCb.owned
  cases o.tempWriteBuf <;> simp [eq_comm]

theorem Busy.congr (h : Busy heap o p temp) (heq : ∀ q ∈ o.owned, heap' q = heap q) :
    Busy heap' o p temp := by
  refine ⟨h.buffer, ?_, h.room, h.inside, h.arrived, h.more, h.holds⟩
  rw [heq p (mem_owned.mpr (.inr h.buffer)), h.block]

theorem ObjOk.congr (h : ObjOk heap o) (heq : ∀ q ∈ o.owned, heap' q = heap q) : ObjOk heap' o := by
  refine ⟨?_, h.cur, h.small, h.nodup, h.idle, fun hlock => ?_⟩
  . rw [heq o.allocBuf (mem_owned.mpr (.inl rfl))]
    exact h.size
  . obtain ⟨p, temp, hbusy⟩ := h.busy hlock
    exact ⟨p, temp, hbusy.congr heq⟩

theorem ObjOk.allocated (h : ObjOk heap o) (hp : p ∈ o.owned) : heap p ≠ none := by
  obtain rfl | htemp := mem_owned.mp hp
  . obtain ⟨b, hb, -⟩ := h.size
    simp [hb]
  . by_cases hlock : o.objLockState = .idle
    . rw [(h.idle hlock).1] at htemp
      cases htemp
    . obtain ⟨q, temp, hbusy⟩ := h.busy hlock
      rw [hbusy.buffer] at htemp
      cases htemp
      simp [hbusy.block]

end

namespace World

variable {w : World} {o o' : ObjectCb} {heap : Mem UInt8}

theorem Inv.congr (h : w.Inv) {w' : World} (hheap : w'.heap = w.heap) (hobjs : w'.objs = w.objs)
    (hclients : ∀ cl ∈ w'.clients, ∀ ptr ∈ cl.currentObj, ∃ o ∈ w.objs, o.ptr = ptr) : w'.Inv := by
  constructor
  . rw [hheap, hobjs]
    exact h.objs
  . rw [hobjs]
    exact h.distinct
  . rw [hheap, hobjs]
    exact h.owner
  . rw [hobjs]
    exact h.one
  . rw [hobjs]
    exact hclients

theorem mem_setObj :
    x ∈ (w.setObj o).objs ↔
      (x = o ∧ ∃ y ∈ w.objs, y.ptr = o.ptr) ∨ (x ∈ w.objs ∧ x.ptr ≠ o.ptr) := by
  simp only [setObj, mem_map]
  constructor
  . rintro ⟨y, hy, rfl⟩
    split
    . next hptr => exact .inl ⟨rfl, y, hy, hptr⟩
    . next hptr => exact .inr ⟨hy, hptr⟩
  . rintro (⟨rfl, y, hy, hptr⟩ | ⟨hx, hptr⟩)
    . exact ⟨y, hy, if_pos hptr⟩
    . exact ⟨x, hx, if_neg hptr⟩

theorem Inv.replace (h : w.Inv) (ho : o ∈ w.objs) (hptr : o'.ptr = o.ptr) (hok : ObjOk heap o')
    (hkeep : ∀ p, p ∉ o.owned → p ∉ o'.owned → heap p = w.heap p)
    (hnew : ∀ p ∈ o'.owned, p ∉ o.owned → w.heap p = none)
    (hgone : ∀ p ∈ o.owned, p ∉ o'.owned → heap p = none) :
    ({ w with heap }.setObj o').Inv := by
  have hmem : ∀ x, x ∈ ({ w with heap }.setObj o').objs ↔
      x = o' ∨ (x ∈ w.objs ∧ x.ptr ≠ o.ptr) := by
    intro x
    rw [mem_setObj, hptr]
    constructor
    . rintro (⟨rfl, -⟩ | hx)
      . exact .inl rfl
      . exact .inr hx
    . rintro (rfl | hx)
      . exact .inl ⟨rfl, o, ho, rfl⟩
      . exact .inr hx
  have hother : ∀ x ∈ w.objs, x.ptr ≠ o.ptr → ∀ p ∈ x.owned, p ∉ o.owned ∧ p ∉ o'.owned := by
    intro x hx hne p hp
    have hold : p ∉ o.owned := fun hpo => hne (congrArg ObjectCb.ptr (h.one x hx o ho p hp hpo))
    exact ⟨hold, fun hpo' => (h.objs x hx).allocated hp (hnew p hpo' hold)⟩
  constructor
  . intro x hx
    obtain rfl | ⟨hx, hne⟩ := (hmem x).mp hx
    . exact hok
    . exact (h.objs x hx).congr fun p hp =>
        hkeep p (hother x hx hne p hp).1 (hother x hx hne p hp).2
  . intro x hx y hy hxy
    obtain rfl | ⟨hx, hne⟩ := (hmem x).mp hx
    . obtain rfl | ⟨hy, hne⟩ := (hmem y).mp hy
      . rfl
      . exact absurd (hxy.symm.trans hptr) hne
    . obtain rfl | ⟨hy, -⟩ := (hmem y).mp hy
      . exact absurd (hxy.trans hptr) hne
      . exact h.distinct x hx y hy hxy
  . intro p hp
    by_cases hpo' : p ∈ o'.owned
    . exact ⟨o', (hmem o').mpr (.inl rfl), hpo'⟩
    . have hpo : p ∉ o.owned := fun hpo => hp (hgone p hpo hpo')
      have hold : w.heap p ≠ none := by
        rw [← hkeep p hpo hpo']
        exact hp
      obtain ⟨x, hx, hpx⟩ := h.owner p hold
      have hne : x.ptr ≠ o.ptr := by
        intro heq
        rw [h.distinct x hx o ho heq] at hpx
        exact hpo hpx
      exact ⟨x, (hmem x).mpr (.inr ⟨hx, hne⟩), hpx⟩
  . intro x hx y hy p hpx hpy
    obtain rfl | ⟨hx', hne⟩ := (hmem x).mp hx
    . obtain rfl | ⟨hy', hne⟩ := (hmem y).mp hy
      . rfl
      . exact absurd hpx (hother y hy' hne p hpy).2
    . obtain rfl | ⟨hy', -⟩ := (hmem y).mp hy
      . exact absurd hpy (hother x hx' hne p hpx).2
      . exact h.one x hx' y hy' p hpx hpy
  . intro cl hcl ptr hp
    obtain ⟨x, hx, rfl⟩ := h.selected cl hcl ptr hp
    by_cases hne : x.ptr = o.ptr
    . exact ⟨o', (hmem o').mpr (.inl rfl), hptr.trans hne.symm⟩
    . exact ⟨x, (hmem x).mpr (.inr ⟨hx, hne⟩), rfl⟩

theorem Inv.add (h : w.Inv) (hptr : ∀ o ∈ w.objs, o.ptr ≠ ptr)
    (hbuf : w.heap buf = none) (hsize : size < 2 ^ 32) :
    { w with
      heap := w.heap.set buf (some (List.replicate size 0))
      objs := w.objs ++ [newObject ptr buf size] }.Inv := by
  have hnew : ∀ p, p ∈ (newObject ptr buf size).owned ↔ p = buf := fun p => by
    simp [ObjectCb.owned, newObject]
  have hold : ∀ o ∈ w.objs, ∀ p ∈ o.owned, p ≠ buf := by
    rintro o ho p hp rfl
    exact (h.objs o ho).allocated hp hbuf
  constructor
  . intro o ho
    obtain ho | ho := mem_append.mp ho
    . exact (h.objs o ho).congr fun p hp => set_ne (hold o ho p hp)
    . rw [mem_singleton.mp ho]
      refine ⟨⟨_, set_self, length_replicate⟩, Nat.zero_le _, hsize, ?_,
        fun _ => ⟨rfl, rfl, rfl, rfl⟩, fun hlock => absurd rfl hlock⟩
      rw [nodup_owned]
      simp [newObject]
  . intro o ho o' ho' heq
    obtain ho | ho := mem_append.mp ho
    . obtain ho' | ho' := mem_append.mp ho'
      . exact h.distinct o ho o' ho' heq
      . rw [mem_singleton.mp ho'] at heq
        exact absurd heq (hptr o ho)
    . obtain ho' | ho' := mem_append.mp ho'
      . rw [mem_singleton.mp ho] at heq
        exact absurd heq.symm (hptr o' ho')
      . rw [mem_singleton.mp ho, mem_singleton.mp ho']
  . intro p hp
    by_cases hpb : p = buf
    . exact ⟨_, mem_append_right _ (mem_singleton_self _), (hnew p).mpr hpb⟩
    . have hp' : w.heap p ≠ none := fun hnone => hp ((set_ne hpb).trans hnone)
      obtain ⟨o, ho, hpo⟩ := h.owner p hp'
      exact ⟨o, mem_append_left _ ho, hpo⟩
  . intro o ho o' ho' p hp hp'
    obtain ho | ho := mem_append.mp ho
    . obtain ho' | ho' := mem_append.mp ho'
      . exact h.one o ho o' ho' p hp hp'
      . rw [mem_singleton.mp ho'] at hp'
        exact absurd ((hnew p).mp hp') (hold o ho p hp)
    . obtain ho' | ho' := mem_append.mp ho'
      . rw [mem_singleton.mp ho] at hp
        exact absurd ((hnew p).mp hp) (hold o' ho' p hp')
      . rw [mem_singleton.mp ho, mem_singleton.mp ho']
  . intro cl hcl ptr' hp
    obtain ⟨o, ho, rfl⟩ := h.selected cl hcl ptr' hp
    exact ⟨o, mem_append_left _ ho, rfl⟩

theorem forget_currentObj {cl : Client} {ptr ptr' : Nat}
    (h : ptr' ∈ (cl.forget ptr).currentObj) : ptr' ∈ cl.currentObj ∧ ptr' ≠ ptr := by
  unfold Client.forget at h
  split at h
  . cases h
  . next hne =>
    refine ⟨h, ?_⟩
    rintro rfl
    exact hne h

theorem Inv.remove (h : w.Inv) (ho : o ∈ w.objs) (hidle : o.objLockState = .idle) :
    { w with
      heap := w.heap.set o.allocBuf none
      objs := w.objs.filter (·.ptr != o.ptr)
      clients := w.clients.map (Client.forget o.ptr) }.Inv := by
  have hmem : ∀ x, x ∈ w.objs.filter (·.ptr != o.ptr) ↔ x ∈ w.objs ∧ x.ptr ≠ o.ptr := by
    simp [mem_filter]
  have hown : ∀ p, p ∈ o.owned ↔ p = o.allocBuf := by
    intro p
    rw [mem_owned, ((h.objs o ho).idle hidle).1]
    simp
  constructor
  . intro x hx
    obtain ⟨hx, hne⟩ := (hmem x).mp hx
    refine (h.objs x hx).congr fun p hp => set_ne fun hpo => hne ?_
    exact congrArg ObjectCb.ptr (h.one x hx o ho p hp ((hown p).mpr hpo))
  . intro x hx y hy hxy
    exact h.distinct x ((hmem x).mp hx).1 y ((hmem y).mp hy).1 hxy
  . intro p hp
    by_cases hpo : p = o.allocBuf
    . rw [hpo] at hp
      exact absurd set_self hp
    . have hp' : w.heap p ≠ none := fun hnone => hp ((set_ne hpo).trans hnone)
      obtain ⟨x, hx, hpx⟩ := h.owner p hp'
      refine ⟨x, (hmem x).mpr ⟨hx, fun heq => hpo ?_⟩, hpx⟩
      rw [h.distinct x hx o ho heq] at hpx
      exact (hown p).mp hpx
  . intro x hx y hy
    exact h.one x ((hmem x).mp hx).1 y ((hmem y).mp hy).1
  . intro cl hcl ptr hp
    obtain ⟨cl', hcl', rfl⟩ := mem_map.mp hcl
    obtain ⟨hp, hne⟩ := forget_currentObj hp
    obtain ⟨x, hx, rfl⟩ := h.selected cl' hcl' ptr hp
    exact ⟨x, (hmem x).mpr ⟨hx, hne⟩, rfl⟩

theorem Inv.setClient (h : w.Inv) {cl : Client}
    (hcl : ∀ ptr ∈ cl.currentObj, ∃ o ∈ w.objs, o.ptr = ptr) : (w.setClient cl).Inv := by
  refine h.congr rfl rfl fun cl' hcl' => ?_
  obtain ⟨x, hx, rfl⟩ := mem_map.mp hcl'
  split
  . exact hcl
  . exact h.selected x hx

theorem Inv.sound (h : w.Inv) : Sound w where
  size o ho := (h.objs o ho).size
  room o ho hlock := by
    obtain ⟨p, temp, hbusy⟩ := (h.objs o ho).busy hlock
    exact ⟨p, temp, hbusy.buffer, hbusy.block, hbusy.room⟩
  owner := h.owner
  one o ho := ⟨(h.objs o ho).nodup, h.one o ho⟩
  selected := h.selected

theorem obj?_mem (h : w.obj? ptr = some o) : o ∈ w.objs ∧ o.ptr = ptr :=
  ⟨mem_of_find?_eq_some h, by simpa using find?_some h⟩

theorem deref_ok (h : ∃ o ∈ w.objs, o.ptr = ptr) :
    ∃ o ∈ w.objs, o.ptr = ptr ∧ w.obj? ptr = some o ∧ w.deref (some ptr) = .ok o := by
  cases hobj : w.obj? ptr with
  | none =>
    obtain ⟨o, ho, heq⟩ := h
    have hnone := find?_eq_none.mp hobj o ho
    simp [heq] at hnone
  | some o =>
    obtain ⟨ho, heq⟩ := obj?_mem hobj
    exact ⟨o, ho, heq, rfl, by simp [deref, hobj]⟩

theorem client?_mem (h : w.client? connHandle = some cl) :
    cl ∈ w.clients := List.mem_of_find?_eq_some h

theorem clientOn?_mem
    (h : w.clientOn? connHandle cid = some cl) : cl ∈ w.clients := List.mem_of_find?_eq_some h

end World

end OtsWrite
