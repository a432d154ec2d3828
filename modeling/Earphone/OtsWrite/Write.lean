import Earphone.OtsWrite.Inv

namespace OtsWrite

open List

open Heap Heap.Mem Ots Area

def Keeps (P : Nat → Prop) (w w' : World) : Prop :=
  ∀ o ∈ w.objs, ∃ o' ∈ w'.objs, o'.ptr = o.ptr ∧
    (P o.ptr ∨ w'.contents o' = w.contents o ∧ o'.objSize0 = o.objSize0)

def Nowhere : Nat → Prop := fun _ => False

section

variable {w w' w'' : World} {P Q : Nat → Prop}

theorem Keeps.refl : Keeps P w w := fun o ho => ⟨o, ho, rfl, .inr ⟨rfl, rfl⟩⟩

theorem Keeps.trans (h : Keeps P w w') (h' : Keeps P w' w'') : Keeps P w w'' := by
  intro o ho
  obtain ⟨o', ho', hptr, hsame⟩ := h o ho
  obtain ⟨o'', ho'', hptr', hsame'⟩ := h' o' ho'
  refine ⟨o'', ho'', hptr'.trans hptr, ?_⟩
  rw [hptr] at hsame'
  obtain hP | ⟨hc, hs⟩ := hsame
  . exact .inl hP
  . obtain hP | ⟨hc', hs'⟩ := hsame'
    . exact .inl hP
    . exact .inr ⟨hc'.trans hc, hs'.trans hs⟩

theorem Keeps.mono (h : Keeps P w w') (hPQ : ∀ ptr, P ptr → Q ptr) : Keeps Q w w' := by
  intro o ho
  obtain ⟨o', ho', hptr, hsame⟩ := h o ho
  exact ⟨o', ho', hptr, hsame.imp_left (hPQ _)⟩

theorem keeps_replace (h : w.Inv) (ho : o ∈ w.objs)
    (hptr : o'.ptr = o.ptr) (hkeep : ∀ p, p ∉ o.owned → p ∉ o'.owned → heap p = w.heap p)
    (hnew : ∀ p ∈ o'.owned, p ∉ o.owned → w.heap p = none)
    (hsame : P o.ptr ∨
      ((heap o'.allocBuf).getD []).take o'.objSize0 = w.contents o ∧ o'.objSize0 = o.objSize0) :
    Keeps P w ({ w with heap }.setObj o') := by
  intro x hx
  by_cases hne : x.ptr = o.ptr
  . rw [h.distinct x hx o ho hne]
    exact ⟨o', World.mem_setObj.mpr (.inl ⟨rfl, o, ho, hptr.symm⟩), hptr, hsame⟩
  . have hx' : x ∈ ({ w with heap }.setObj o').objs :=
      World.mem_setObj.mpr (.inr ⟨hx, by rwa [hptr]⟩)
    refine ⟨x, hx', rfl, .inr ⟨?_, rfl⟩⟩
    have hmem : x.allocBuf ∈ x.owned := mem_owned.mpr (.inl rfl)
    have hold : x.allocBuf ∉ o.owned := fun hp =>
      hne (congrArg ObjectCb.ptr (h.one x hx o ho _ hmem hp))
    have hnot : x.allocBuf ∉ o'.owned := fun hp =>
      (h.objs x hx).allocated hmem (hnew _ hp hold)
    have heq : heap x.allocBuf = w.heap x.allocBuf := hkeep _ hold hnot
    simp only [World.contents, World.setObj, heq]

theorem replace_keeps (h : w.Inv) {o o' : ObjectCb} {heap : Mem UInt8} (ho : o ∈ w.objs)
    (hptr : o'.ptr = o.ptr) (hok : ObjOk heap o')
    (hkeep : ∀ p, p ∉ o.owned → p ∉ o'.owned → heap p = w.heap p)
    (hnew : ∀ p ∈ o'.owned, p ∉ o.owned → w.heap p = none)
    (hgone : ∀ p ∈ o.owned, p ∉ o'.owned → heap p = none)
    (hsame : P o.ptr ∨
      ((heap o'.allocBuf).getD []).take o'.objSize0 = w.contents o ∧ o'.objSize0 = o.objSize0) :
    ({ w with heap }.setObj o').Inv ∧ Keeps P w ({ w with heap }.setObj o') :=
  ⟨h.replace ho hptr hok hkeep hnew hgone, keeps_replace h ho hptr hkeep hnew hsame⟩

end

section

variable {w : World} {o o' : ObjectCb} {heap : Mem UInt8}

theorem endWrite_inv (h : w.Inv) (ho : o ∈ w.objs) (hptr : o'.ptr = o.ptr)
    (halloc : o'.allocBuf = o.allocBuf) (htemp : o'.tempWriteBuf = o.tempWriteBuf)
    (hsize : o'.objSize1 = o.objSize1) (hcur : o'.objSize0 ≤ o'.objSize1)
    (hblock : ∃ b, heap o.allocBuf = some b ∧ b.length = o.objSize1)
    (hother : ∀ p, p ≠ o.allocBuf → heap p = w.heap p) {P : Nat → Prop}
    (hsame : P o.ptr ∨
      ((heap o.allocBuf).getD []).take o'.objSize0 = w.contents o ∧ o'.objSize0 = o.objSize0) :
    ∃ w', endWrite { w with heap } o' = .ok w' ∧ w'.Inv ∧ Keeps P w w' := by
  have hobj := h.objs o ho
  have hne : o.tempWriteBuf ≠ some o.allocBuf := nodup_owned.mp hobj.nodup
  have hfree : ∃ heap', heap.free o.tempWriteBuf = .ok heap' ∧
      (∀ p, o.tempWriteBuf = some p → heap' p = none) ∧
      ∀ p, o.tempWriteBuf ≠ some p → heap' p = heap p := by
    cases hbuf : o.tempWriteBuf with
    | none => exact ⟨heap, rfl, fun _ hp => absurd hp (by simp), fun _ _ => rfl⟩
    | some p =>
      have hp : w.heap p ≠ none := hobj.allocated (mem_owned.mpr (.inr hbuf))
      rw [← hother p (fun heq => hne (by rw [hbuf, heq]))] at hp
      obtain ⟨b, hb⟩ := Option.ne_none_iff_exists'.mp hp
      refine ⟨_, free_some hb, fun q hq => ?_, fun q hq => set_ne fun heq => hq (by rw [heq])⟩
      cases hq
      exact set_self
  obtain ⟨heap', hrun, hgone, hrest⟩ := hfree
  refine ⟨{ w with heap := heap' }.setObj o'.reset, ?_,
    @replace_keeps w P h o o'.reset heap' ho hptr ?_ ?_ ?_ ?_ ?_⟩
  . unfold endWrite
    simp only [htemp, hrun, bind, Except.bind, pure, Except.pure]
  . refine ⟨?_, hcur, ?_, ?_, fun _ => ⟨rfl, rfl, rfl, rfl⟩, fun hlock => absurd rfl hlock⟩
    . obtain ⟨b, hb, hlen⟩ := hblock
      refine ⟨b, ?_, hlen.trans hsize.symm⟩
      rw [show o'.reset.allocBuf = o.allocBuf from halloc, hrest _ hne, hb]
    . rw [show o'.reset.objSize1 = o.objSize1 from hsize]
      exact hobj.small
    . exact nodup_owned.mpr (by simp [ObjectCb.reset])
  . intro p hp _
    rw [mem_owned, not_or] at hp
    rw [hrest p hp.2, hother p hp.1]
  . intro p hp hnot
    rw [mem_owned] at hp hnot
    simp [ObjectCb.reset, halloc] at hp
    exact absurd (.inl hp) hnot
  . intro p hp hnot
    rw [mem_owned] at hp hnot
    simp [ObjectCb.reset, halloc] at hnot
    exact hgone p (hp.resolve_left hnot)
  . rw [show o'.reset.allocBuf = o.allocBuf from halloc, hrest _ hne]
    exact hsame

theorem endWrite_self (h : w.Inv) (ho : o ∈ w.objs) :
    ∃ w', endWrite w o = .ok w' ∧ w'.Inv ∧ Keeps Nowhere w w' :=
  endWrite_inv h ho rfl rfl rfl rfl (h.objs o ho).cur (h.objs o ho).size (fun _ _ => rfl)
    (.inr ⟨rfl, rfl⟩)

theorem release_inv (h : w.Inv) (hcl : cl ∈ w.clients) :
    ∃ w', release w cl = .ok w' ∧ w'.Inv ∧ w'.clients = w.clients ∧ Keeps Nowhere w w' := by
  unfold release
  cases hcur : cl.currentObj with
  | none => exact ⟨w, rfl, h, rfl, .refl⟩
  | some ptr =>
    obtain ⟨o, ho, -, -, hderef⟩ := World.deref_ok (h.selected cl hcl ptr hcur)
    simp only [hderef, bind, Except.bind]
    split
    . obtain ⟨w', hend, hw', hkeeps⟩ := endWrite_self h ho
      refine ⟨w', hend, hw', ?_, hkeeps⟩
      unfold endWrite at hend
      cases hfree : w.heap.free o.tempWriteBuf with
      | error e =>
        rw [hfree] at hend
        cases hend
      | ok heap =>
        rw [hfree] at hend
        cases hend
        rfl
    . exact ⟨w, rfl, h, rfl, .refl⟩

theorem releaseAll_inv (h : w.Inv) {cls : List Client} (hcls : ∀ cl ∈ cls, cl ∈ w.clients) :
    ∃ w', releaseAll w cls = .ok w' ∧ w'.Inv ∧ w'.clients = w.clients ∧ Keeps Nowhere w w' := by
  induction cls generalizing w with
  | nil => exact ⟨w, rfl, h, rfl, .refl⟩
  | cons cl cls ih =>
    obtain ⟨w1, hrel, h1, hcls1, hkeeps1⟩ := release_inv h (hcls cl mem_cons_self)
    obtain ⟨w2, hall, h2, hcls2, hkeeps2⟩ := ih h1 fun cl' hcl' => by
      rw [hcls1]
      exact hcls cl' (mem_cons_of_mem _ hcl')
    refine ⟨w2, ?_, h2, hcls2.trans hcls1, hkeeps1.trans hkeeps2⟩
    simp only [releaseAll, hrel, bind, Except.bind]
    exact hall

end

section

variable {w : World} {o : ObjectCb}

theorem u32_eq (h : n < 2 ^ 32) : u32 n = n := Nat.mod_eq_of_lt h

section

variable (h : w.Inv) (ho : o ∈ w.objs)

include h ho

theorem complete_inv :
    ∃ w', complete w o = .ok w' ∧ w'.Inv ∧
      Keeps (fun ptr => ptr = o.ptr ∧ o.objLockState ≠ .idle) w w' := by
  have hobj := h.objs o ho
  by_cases hlock : o.objLockState = .idle
  . obtain ⟨-, hlen, -, -⟩ := hobj.idle hlock
    obtain ⟨w', hend, hw', hkeeps⟩ := endWrite_self h ho
    refine ⟨w', ?_, hw', hkeeps.mono fun _ hP => hP.elim⟩
    have hgrown : o.grown = o := if_neg (by simp [hlock])
    simp only [complete, hlen, load, if_true, bind, Except.bind, store, hgrown]
    exact hend
  . obtain ⟨p, temp, hbusy⟩ := hobj.busy hlock
    obtain ⟨b, hb, hblen⟩ := hobj.size
    have hlen : (temp.take o.wrLen).length = o.wrLen := length_take_of_le hbusy.room
    obtain ⟨heap, b', hstore, hb', hblen', -, -, hrest⟩ :=
      @store_ok _ w.heap o.allocBuf o.wrOffset b (temp.take o.wrLen) hb (by
        rw [hlen, hblen]
        exact hbusy.inside)
    have hsum : u32 (o.wrOffset + o.wrLen) = o.wrOffset + o.wrLen :=
      u32_eq (Nat.lt_of_le_of_lt hbusy.inside hobj.small)
    have hgrown : o.grown.ptr = o.ptr ∧ o.grown.allocBuf = o.allocBuf ∧
        o.grown.tempWriteBuf = o.tempWriteBuf ∧ o.grown.objSize1 = o.objSize1 ∧
        o.grown.objSize0 ≤ o.objSize1 := by
      unfold ObjectCb.grown
      split
      . refine ⟨rfl, rfl, rfl, rfl, ?_⟩
        dsimp only
        rw [hsum]
        exact hbusy.inside
      . exact ⟨rfl, rfl, rfl, rfl, hobj.cur⟩
    obtain ⟨hptr, halloc, htemp, hsize, hcur⟩ := hgrown
    obtain ⟨w', hend, hw', hkeeps⟩ := @endWrite_inv w o o.grown heap h ho hptr halloc htemp hsize
      (by rw [hsize]; exact hcur) ⟨b', hb', hblen'.trans hblen⟩ (fun q hq => hrest q hq)
      (fun ptr => ptr = o.ptr ∧ o.objLockState ≠ .idle) (.inl ⟨rfl, hlock⟩)
    refine ⟨w', ?_, hw', hkeeps⟩
    simp only [complete, hbusy.buffer, load_take hbusy.block hbusy.room, bind, Except.bind, hstore]
    exact hend

theorem take_inv (hwrap : o.transferdLen + value.length < 2 ^ 32)
    (hfits : o.transferdLen + value.length ≤ o.wrLen) :
    ∃ heap, w.heap.store o.tempWriteBuf o.transferdLen value = .ok heap ∧
      ({ w with heap }.setObj (o.take value)).Inv ∧
      Keeps Nowhere w ({ w with heap }.setObj (o.take value)) := by
  have hobj := h.objs o ho
  have hown : (o.take value).owned = o.owned := rfl
  by_cases hlock : o.objLockState = .idle
  . obtain ⟨htemp, hlen, hoff, hmode⟩ := hobj.idle hlock
    have hnil : value = [] := eq_nil_of_length_eq_zero (by omega)
    subst hnil
    exact ⟨w.heap, by unfold store; rfl, replace_keeps h ho rfl
      ⟨hobj.size, hobj.cur, hobj.small, hobj.nodup, hobj.idle, fun hne => absurd hlock hne⟩
      (fun _ _ _ => rfl) (fun p hp hnot => absurd hp hnot) (fun p hp hnot => absurd hp hnot)
      (.inr ⟨rfl, rfl⟩)⟩
  . obtain ⟨p, temp, hbusy⟩ := hobj.busy hlock
    have hroom := hbusy.room
    obtain ⟨heap, temp', hstore, htemp', hlen', hholds, hframe, hrest⟩ :=
      @store_ok _ w.heap p o.transferdLen temp value hbusy.block (by omega)
    have hpo : p ∈ o.owned := mem_owned.mpr (.inr hbusy.buffer)
    have hne : o.allocBuf ≠ p := by
      intro heq
      exact nodup_owned.mp hobj.nodup (by rw [heq, hbusy.buffer])
    have hkeep : ∀ q, q ∉ o.owned → q ∉ (o.take value).owned → heap q = w.heap q :=
      fun q hq _ => hrest q fun heq => hq (heq ▸ hpo)
    refine ⟨heap, by rw [hbusy.buffer, hstore], replace_keeps h ho rfl ?_ hkeep
      (fun q hq hnot => absurd hq hnot) (fun q hq hnot => absurd hq hnot) (.inr ⟨?_, rfl⟩)⟩
    . refine ⟨?_, hobj.cur, hobj.small, hobj.nodup, fun hidle => absurd hidle hlock, fun _ => ?_⟩
      . rw [show (o.take value).allocBuf = o.allocBuf from rfl, hrest _ hne]
        exact hobj.size
      . refine ⟨p, temp', hbusy.buffer, htemp', hlen' ▸ hbusy.room, hbusy.inside, ?_, ?_, ?_⟩
        . simp only [ObjectCb.take, u32_eq hwrap, length_append]
          rw [hbusy.arrived]
        . simp only [ObjectCb.take, length_append]
          have := hbusy.arrived
          omega
        . simp only [ObjectCb.take]
          rw [holds_append, Nat.zero_add, ← hbusy.arrived]
          refine ⟨hframe 0 _ (.inl ?_) hbusy.holds, hholds⟩
          rw [hbusy.arrived, Nat.zero_add]
    . rw [show (o.take value).allocBuf = o.allocBuf from rfl, hrest _ hne]
      rfl

theorem receive_inv {value : List UInt8}
    (hwrap : o.transferdLen + value.length < 2 ^ 32) :
    ∃ w', receive w o value = .ok w' ∧ w'.Inv ∧
      Keeps (fun ptr => ptr = o.ptr ∧ o.objLockState ≠ .idle ∧
        (o.received ++ value).length = o.wrLen) w w' := by
  unfold receive
  rw [u32_eq hwrap]
  split
  . obtain ⟨w', hend, hw', hkeeps⟩ := endWrite_self h ho
    exact ⟨w', hend, hw', hkeeps.mono fun _ hP => hP.elim⟩
  . next hfits =>
    obtain ⟨heap, hstore, hw1, hkeeps⟩ := take_inv h ho hwrap (by omega)
    simp only [hstore, bind, Except.bind]
    split
    . exact ⟨_, rfl, hw1, hkeeps.mono fun _ hP => hP.elim⟩
    . next hall =>
      have ho1 : o.take value ∈ ({ w with heap }.setObj (o.take value)).objs :=
        World.mem_setObj.mpr (.inl ⟨rfl, o, ho, rfl⟩)
      obtain ⟨w', hend, hw', hkeeps'⟩ := complete_inv hw1 ho1
      refine ⟨w', hend, hw', (hkeeps.mono fun _ hP => hP.elim).trans (hkeeps'.mono ?_)⟩
      rintro ptr ⟨hptr, hlock⟩
      refine ⟨hptr, hlock, ?_⟩
      obtain ⟨p, temp, hbusy⟩ := (h.objs o ho).busy hlock
      simp only [ObjectCb.take, u32_eq hwrap] at hall
      rw [length_append, ← hbusy.arrived]
      omega

end

end

section

variable {w : World} {o : ObjectCb} {params : List UInt8} {a : Answers} {offset len mode p : Nat}

section

variable (h : w.Inv) (ho : o ∈ w.objs)

include h ho

theorem owned_idle (hidle : o.objLockState = .idle) : ∀ q, q ∈ o.owned ↔ q = o.allocBuf := by
  intro q
  rw [mem_owned, ((h.objs o ho).idle hidle).1]
  simp

theorem add_buffer (hidle : o.objLockState = .idle)
    (hp : w.heap p = none) {block : List UInt8} {o' : ObjectCb} (hptr : o'.ptr = o.ptr)
    (hown' : ∀ q, q ∈ o'.owned ↔ q = o.allocBuf ∨ q = p)
    (hok : ObjOk (w.heap.set p (some block)) o')
    (hsame : ((w.heap.set p (some block) o'.allocBuf).getD []).take o'.objSize0 = w.contents o ∧
      o'.objSize0 = o.objSize0) :
    ({ w with heap := w.heap.set p (some block) }.setObj o').Inv ∧
      Keeps Nowhere w ({ w with heap := w.heap.set p (some block) }.setObj o') := by
  have hown := owned_idle h ho hidle
  refine replace_keeps h ho hptr hok ?_ ?_ ?_ (.inr hsame)
  . intro q _ hq
    rw [hown', not_or] at hq
    exact set_ne hq.2
  . intro q hq hnot
    rw [hown'] at hq
    rw [hown] at hnot
    rw [hq.resolve_left hnot, hp]
  . intro q hq hnot
    rw [hown', not_or] at hnot
    exact absurd ((hown q).mp hq) hnot.1

theorem allocBuf_ne (hp : w.heap p = none) : o.allocBuf ≠ p := by
  obtain ⟨b, hb, -⟩ := (h.objs o ho).size
  rintro rfl
  rw [hb] at hp
  cases hp

section

variable (hidle : o.objLockState = .idle)

include hidle

theorem startWrite_inv (hp : w.heap p = none) (hsum : offset + len ≤ o.objSize1) :
    (startWrite { w with heap := w.heap.set p (some (List.replicate len 0)) }
      { o with tempWriteBuf := some p } o.objSize0 offset len mode).1.Inv ∧
    Keeps Nowhere w (startWrite { w with heap := w.heap.set p (some (List.replicate len 0)) }
      { o with tempWriteBuf := some p } o.objSize0 offset len mode).1 := by
  have hobj := h.objs o ho
  obtain ⟨b, hb, hblen⟩ := hobj.size
  have hne := allocBuf_ne h ho hp
  refine add_buffer h ho hidle hp rfl (fun q => ?_) ?_ ⟨?_, rfl⟩
  . rw [mem_owned, Option.some.injEq, @eq_comm _ p]
  . refine ⟨⟨b, (set_ne hne).trans hb, hblen⟩, hobj.cur, hobj.small, ?_, fun hlock => ?_,
      fun _ => ?_⟩
    . rw [nodup_owned]
      exact fun heq => hne (Option.some.inj heq).symm
    . dsimp only at hlock
      split at hlock <;> cases hlock
    . exact ⟨p, List.replicate len 0, rfl, set_self, by rw [length_replicate], hsum, rfl,
        Nat.zero_le _, holds_nil⟩
  . simp only [set_ne hne]
    rfl

theorem growObject_inv (hp : w.heap p = none) (hsum : offset + len < 2 ^ 32)
    (hempty : o.objSize0 = 0)
    (hroom : len ≤ o.objSize1) :
    ∃ w', growObject w o p offset len mode = .ok (w', .success) ∧ w'.Inv ∧ Keeps Nowhere w w' := by
  obtain ⟨b, hb, hblen⟩ := (h.objs o ho).size
  have hne := allocBuf_ne h ho hp
  refine ⟨_, by
    simp only [growObject, hempty, load, if_true, bind, Except.bind, store, pure, Except.pure]
    rfl, ?_⟩
  refine add_buffer h ho hidle hp rfl (fun q => ?_) ?_ ⟨?_, hempty.symm⟩
  . rw [mem_owned, Option.some.injEq, @eq_comm _ o.allocBuf, or_comm]
  . refine ⟨⟨_, set_self, length_replicate⟩, Nat.zero_le _, ?_, ?_, fun hlock => ?_,
      fun _ => ?_⟩
    . dsimp only
      rw [u32_eq hsum]
      exact hsum
    . rw [nodup_owned]
      exact fun heq => hne (Option.some.inj heq)
    . dsimp only at hlock
      split at hlock <;> cases hlock
    . refine ⟨o.allocBuf, b, rfl, (set_ne hne).trans hb, hblen ▸ hroom, ?_, rfl, Nat.zero_le _,
        holds_nil⟩
      dsimp only
      rw [u32_eq hsum]
  . simp only [World.contents, hempty, take_zero]

theorem oacpWrite_inv {cl : Client}
    (hfresh : ∀ p ∈ a.buf, w.heap p = none)
    (hok : o.objProps.testBit propWrite = true → cl.cid ≠ 0 → w.WriteOk o params a) :
    ∃ w' code, oacpWrite w cl o params a = .ok (w', code) ∧ w'.Inv ∧ Keeps Nowhere w w' ∧
      (code = .success → o.objProps.testBit propWrite = true ∧ cl.cid ≠ 0 ∧ Judged w o params) := by
  -- a request that is refused changes nothing
  have hrefuse : ∀ code, code ≠ ResCode.success → ∃ w' code',
      (.ok (w, code) : Except Fault (World × ResCode)) = .ok (w', code') ∧ w'.Inv ∧
      Keeps Nowhere w w' ∧ (code' = .success →
        o.objProps.testBit propWrite = true ∧ cl.cid ≠ 0 ∧ Judged w o params) :=
    fun code hne => ⟨w, code, rfl, h, .refl, fun heq => absurd heq hne⟩
  have hmode : o.mode ≠ truncateMode := by
    rw [((h.objs o ho).idle hidle).2.2.2]
    decide
  unfold oacpWrite
  split
  . exact hrefuse _ (by decide)
  . next hprop =>
    split
    . exact hrefuse _ (by decide)
    . next hcid =>
      have hprop' : o.objProps.testBit propWrite = true := by simpa using hprop
      obtain ⟨hlen, hjudge⟩ := hok hprop' hcid
      rw [if_neg (by omega)]
      unfold checkWrite
      split
      . exact hrefuse _ (by decide)
      . next hpatch =>
        rw [if_neg fun hm => hmode hm.1]
        have hpatch' : le32 params 0 < o.objSize0 → w.permits o patchFeature propPatch = true := by
          intro hlt
          by_contra hno
          exact hpatch ⟨hlt, by simpa using hno⟩
        unfold prepareWrite
        split
        . next hgrow =>
          split
          . next happend =>
            split
            . exact hrefuse _ (by decide)
            . next p hbuf =>
              obtain ⟨hsum, htrunc, hsmall⟩ := hjudge ⟨hpatch', fun _ => happend, by simp [hbuf]⟩
              rw [u32_eq hsum] at hgrow
              obtain ⟨hempty, hroom⟩ := hsmall hgrow
              obtain ⟨w', hrun, hw', hkeeps⟩ :=
                @growObject_inv w o _ _ (params.getD 8 0).toNat p h ho hidle (hfresh p hbuf) hsum
                  hempty hroom
              exact ⟨w', _, hrun, hw', hkeeps,
                fun _ => ⟨hprop', hcid, hpatch', htrunc, fun _ => happend⟩⟩
          . exact hrefuse _ (by decide)
        . next hfits =>
          split
          . exact hrefuse _ (by decide)
          . next p hbuf =>
            obtain ⟨hsum, htrunc, -⟩ :=
              hjudge ⟨hpatch', fun hlt => absurd hlt hfits, by simp [hbuf]⟩
            rw [u32_eq hsum] at hfits
            obtain ⟨hw', hkeeps⟩ := @startWrite_inv w o _ _ (params.getD 8 0).toNat p h ho hidle
              (hfresh p hbuf) (Nat.not_lt.mp hfits)
            exact ⟨_, _, rfl, hw', hkeeps,
              fun _ => ⟨hprop', hcid, hpatch', htrunc, fun hlt => absurd hlt hfits⟩⟩

end

end

end

end OtsWrite
