import Earphone.OtsWrite.Write
import Mathlib.Data.List.Nodup

namespace OtsWrite

open List

open Heap Heap.Mem Ots

namespace World

variable {w w' : World} {cl : Client} {a : Answers} {connHandle : Nat}

theorem Inv.enter (h : w.Inv) (henter : w.enter connHandle a = some (w', cl)) :
    w'.Inv ∧ w'.heap = w.heap ∧ w'.objs = w.objs ∧ w'.oacpFeature = w.oacpFeature ∧
      (∀ ptr ∈ cl.currentObj, ∃ o ∈ w.objs, o.ptr = ptr) ∧
      (cl.currentObj = none ∨ w.client? connHandle = some cl ∧ w' = w) := by
  unfold World.enter at henter
  split at henter
  . next cl' hcl' =>
    cases henter
    exact ⟨h, rfl, rfl, rfl, h.selected cl (client?_mem hcl'), .inr ⟨hcl', rfl⟩⟩
  . split at henter
    . cases henter
      refine ⟨h.congr rfl rfl fun cl' hcl' => ?_, rfl, rfl, rfl, ?_, .inl rfl⟩
      . obtain hcl' | hcl' := mem_append.mp hcl'
        . exact h.selected cl' hcl'
        . rw [mem_singleton.mp hcl']
          rintro _ ⟨⟩
      . rintro _ ⟨⟩
    . cases henter

end World

section

variable {w w' : World} {cl : Client} {a : Answers} {req : Request} {connHandle : Nat}
variable {params : List UInt8}

theorem oacpCreate_inv (h : w.Inv) (hbuf : ∀ p ∈ a.buf, w.heap p = none)
    (hptr : ∀ ptr ∈ a.object, ∀ o ∈ w.objs, o.ptr ≠ ptr) :
    (oacpCreate w cl params a).1.Inv ∧ Keeps Nowhere w (oacpCreate w cl params a).1 := by
  have hrefuse : w.Inv ∧ Keeps Nowhere w w := ⟨h, .refl⟩
  unfold oacpCreate
  split
  . exact hrefuse
  . split
    . unfold createOtsObject
      split
      . exact hrefuse
      . next ptr hobj =>
        split
        . split
          . exact hrefuse
          . next buf hb =>
            have hadd := h.add (hptr ptr hobj) (hbuf buf hb) (le32_lt params 0)
            refine ⟨hadd.setClient fun ptr' hp => ?_, fun o ho => ?_⟩
            . cases hp
              exact ⟨_, mem_append_right _ (mem_singleton_self _), rfl⟩
            . refine ⟨o, mem_append_left _ ho, rfl, .inr ⟨?_, rfl⟩⟩
              have hne : o.allocBuf ≠ buf := by
                rintro rfl
                exact (h.objs o ho).allocated (mem_owned.mpr (.inl rfl)) (hbuf _ hb)
              simp only [World.contents, World.setClient, set_ne hne]
        . exact hrefuse
    . exact hrefuse

def Remains (w w' : World) : Prop :=
  ∀ o ∈ w.objs, ∀ o' ∈ w'.objs, o'.ptr = o.ptr →
    w'.contents o' = w.contents o ∧ o'.objSize0 = o.objSize0

theorem Keeps.atomic (h : Keeps P w w') (hw' : w'.Inv)
    (ho : o ∈ w.objs) (ho' : o' ∈ w'.objs) (hptr : o'.ptr = o.ptr) :
    P o.ptr ∨ w'.contents o' = w.contents o ∧ o'.objSize0 = o.objSize0 := by
  obtain ⟨x, hx, hxptr, hsame⟩ := h o ho
  rw [hw'.distinct o' ho' x hx (hptr.trans hxptr.symm)]
  exact hsame

theorem Keeps.remains (h : Keeps Nowhere w w') (hw' : w'.Inv) : Remains w w' :=
  fun _ ho _ ho' hptr => (h.atomic hw' ho ho' hptr).resolve_left id

theorem oacpDelete_inv (h : w.Inv) (ho : o ∈ w.objs)
    (hidle : o.objLockState = .idle) :
    ∃ r, oacpDelete w o = .ok r ∧ r.1.Inv ∧ Remains w r.1 := by
  unfold oacpDelete
  split
  . obtain ⟨b, hb, -⟩ := (h.objs o ho).size
    simp only [deleteOtsObj, free_some hb, bind, Except.bind, pure, Except.pure]
    refine ⟨_, rfl, h.remove ho hidle, fun x hx x' hx' heq => ?_⟩
    obtain ⟨hx', hne⟩ := mem_filter.mp hx'
    have hne' : x'.ptr ≠ o.ptr := by simpa using hne
    rw [h.distinct x' hx' x hx heq] at hne' ⊢
    refine ⟨?_, rfl⟩
    have halloc : x.allocBuf ≠ o.allocBuf := fun hp =>
      hne' (congrArg ObjectCb.ptr (h.one x hx o ho x.allocBuf (mem_owned.mpr (.inl rfl))
        (mem_owned.mpr (.inl hp))))
    simp only [World.contents, set_ne halloc]
  . exact ⟨_, rfl, h, Keeps.refl.remains h⟩

theorem handleOnObject_inv (h : w.Inv) {ptr : Nat} (hobj : ∃ o ∈ w.objs, o.ptr = ptr)
    (hbuf : ∀ p ∈ a.buf, w.heap p = none)
    (hptr : ∀ ptr ∈ a.object, ∀ o ∈ w.objs, o.ptr ≠ ptr)
    (hok : ∀ params, req = .write params → ∀ o, w.obj? ptr = some o → a.excluded = false →
      o.objLockState = .idle → o.objProps.testBit propWrite = true → cl.cid ≠ 0 →
      w.WriteOk o params a) :
    ∃ r, handleOnObject w cl ptr req a = .ok r ∧ r.1.Inv ∧ Remains w r.1 ∧
      ∀ params, req = .write params → r.2 = .success → ∃ o, w.obj? ptr = some o ∧
        a.excluded = false ∧ o.objLockState = .idle ∧ o.objProps.testBit propWrite = true ∧
        cl.cid ≠ 0 ∧ Judged w o params := by
  obtain ⟨o, ho, -, hfind, hderef⟩ := World.deref_ok hobj
  have hrefuse : ∀ code, code ≠ ResCode.success → ∃ r,
      (.ok (w, code) : Except Fault (World × ResCode)) = .ok r ∧ r.1.Inv ∧ Remains w r.1 ∧
      ∀ params, req = .write params → r.2 = .success → ∃ o, w.obj? ptr = some o ∧
        a.excluded = false ∧ o.objLockState = .idle ∧ o.objProps.testBit propWrite = true ∧
        cl.cid ≠ 0 ∧ Judged w o params :=
    fun code hne => ⟨_, rfl, h, Keeps.refl.remains h, fun _ _ heq => absurd heq hne⟩
  simp only [handleOnObject, hderef, bind, Except.bind, pure, Except.pure]
  split
  . exact hrefuse _ (by decide)
  . next hexcl =>
    split
    . refine hrefuse _ ?_
      split <;> decide
    . next hlock =>
      have hidle : o.objLockState = .idle := by simpa using hlock
      cases req with
      | create params =>
        obtain ⟨hw', hkeeps⟩ := @oacpCreate_inv w cl a params h hbuf hptr
        exact ⟨_, rfl, hw', hkeeps.remains hw', fun _ heq => by cases heq⟩
      | delete =>
        obtain ⟨r, hrun, hw', hremains⟩ := oacpDelete_inv h ho hidle
        exact ⟨r, hrun, hw', hremains, fun _ heq => by cases heq⟩
      | write params =>
        have hincl : a.excluded = false := by simpa [Request.isCreate] using hexcl
        obtain ⟨w', code, hrun, hw', hkeeps, hjudged⟩ := @oacpWrite_inv w o params a h ho hidle cl
          hbuf (hok params rfl o hfind hincl hidle)
        refine ⟨_, hrun, hw', hkeeps.remains hw', fun params' heq hsucc => ?_⟩
        cases heq
        obtain ⟨hprop, hcid, hj⟩ := hjudged hsucc
        exact ⟨o, hfind, hincl, hidle, hprop, hcid, hj⟩

theorem oacpRequest_inv (h : w.Inv) (hp : (Op.request connHandle req a).Possible w)
    (hok : (Op.request connHandle req a).Ok w) :
    ∃ w', oacpRequest w connHandle req a = .ok w' ∧ w'.Inv ∧ Remains w w' ∧
      ∀ params, req = .write params → w'.rsp = some .success →
        ∃ o ∈ w.writeTarget connHandle a, Judged w o params := by
  obtain ⟨hbuf, hptr⟩ := hp
  unfold oacpRequest
  cases henter : w.enter connHandle a with
  | none =>
    exact ⟨_, rfl, h.congr rfl rfl h.selected, Keeps.refl.remains h, fun _ _ heq => by cases heq⟩
  | some r =>
    obtain ⟨w1, cl⟩ := r
    obtain ⟨h1, hheap, hobjs, hfeat, hsel, hcl⟩ := h.enter henter
    have hrefuse : ∀ code, code ≠ ResCode.success → ∃ w',
        (.ok { w1 with rsp := some code } : Except Fault World) = .ok w' ∧ w'.Inv ∧ Remains w w' ∧
        ∀ params, req = .write params → w'.rsp = some .success →
          ∃ o ∈ w.writeTarget connHandle a, Judged w o params := by
      intro code hne
      refine ⟨_, rfl, h1.congr rfl rfl h1.selected, fun o ho o' ho' heq => ?_,
        fun _ _ heq => absurd (Option.some.inj heq) hne⟩
      rw [show ({ w1 with rsp := some code } : World).objs = w.objs from hobjs] at ho'
      rw [h.distinct o' ho' o ho heq]
      refine ⟨?_, rfl⟩
      simp only [World.contents, hheap]
    simp only [handleOacpRequest, hfeat]
    split
    . exact hrefuse .opcodeNotSup (by decide)
    . next hbit =>
      split
      . next ptr hcur =>
        obtain hnone | ⟨hclient, rfl⟩ := hcl
        . rw [hnone] at hcur
          cases hcur
        . have htarget : ∀ params, req = .write params → ∀ o, w1.obj? ptr = some o →
              a.excluded = false → o.objLockState = .idle →
              o.objProps.testBit propWrite = true → cl.cid ≠ 0 →
              w1.writeTarget connHandle a = some o := by
            rintro params rfl o hobj hexcl hidle hprop hcid
            have hfeature : w1.oacpFeature.testBit (Request.write []).feature = true := by
              simpa [Request.feature] using hbit
            simp only [World.writeTarget, hclient, hcur, hobj, Option.bind_eq_bind,
              Option.bind_some, hfeature, hexcl, hidle, hprop, hcid, ne_eq, not_false_eq_true,
              and_self, if_true]
          obtain ⟨r, hrun, hw', hremains, hjudged⟩ :=
            @handleOnObject_inv w1 cl a req h1 ptr (hsel ptr hcur) hbuf hptr
              fun params heq o hobj hexcl hidle hprop hcid => by
                subst heq
                exact hok o (htarget params rfl o hobj hexcl hidle hprop hcid)
          simp only [hrun, bind, Except.bind, pure, Except.pure]
          refine ⟨_, rfl, hw'.congr rfl rfl hw'.selected, hremains, fun params heq hsucc => ?_⟩
          obtain ⟨o, hobj, hexcl, hidle, hprop, hcid, hj⟩ :=
            hjudged params heq (Option.some.inj hsucc)
          exact ⟨o, htarget params heq o hobj hexcl hidle hprop hcid, hj⟩
      . cases req with
        | create params =>
          have hcreate := @oacpCreate_inv w1 cl a params h1 (by rwa [hheap]) (by rwa [hobjs])
          obtain ⟨hw', hkeeps⟩ := hcreate
          refine ⟨_, rfl, hw'.congr rfl rfl hw'.selected, fun o ho o' ho' heq => ?_,
            fun _ heq => by cases heq⟩
          have hremains := hkeeps.remains hw' o (by rw [hobjs]; exact ho) o' ho' heq
          refine ⟨hremains.1.trans ?_, hremains.2⟩
          simp only [World.contents, hheap]
        | delete => exact hrefuse .invObj (by decide)
        | write params => exact hrefuse .invObj (by decide)

end

section

variable {w w' : World} {op : Op}

theorem inv_step1 (h : w.Inv) (op : Op) (hp : op.Possible w) (hok : op.Ok w) :
    ∃ w', step1 w op = .ok w' ∧ w'.Inv ∧ StepSound w op w' := by
  -- every step but a write request and data leaves the objects as they are
  have hsound : ∀ w', Keeps Nowhere w w' → w'.Inv →
      (∀ c params a, op ≠ .request c (.write params) a) → StepSound w op w' :=
    fun w' hkeeps hw' hne => ⟨fun o ho o' ho' hptr => .inl (hkeeps.remains hw' o ho o' ho' hptr),
      fun c params a heq => absurd heq (hne c params a)⟩
  cases op with
  | request connHandle req a =>
    obtain ⟨w', hrun, hw', hremains, hjudged⟩ := oacpRequest_inv h hp hok
    refine ⟨w', hrun, hw', fun o ho o' ho' hptr => .inl (hremains o ho o' ho' hptr), ?_⟩
    intro c params a' heq hsucc
    cases heq
    exact hjudged params rfl hsucc
  | data connHandle cid value =>
    simp only [step1, receiveData]
    cases hcl : w.clientOn? connHandle cid with
    | none => exact ⟨w, rfl, h, hsound w .refl h (by intros; simp)⟩
    | some cl =>
      obtain ⟨hsome, hwrap⟩ := hok cl hcl
      obtain ⟨ptr, hcur⟩ := Option.isSome_iff_exists.mp hsome
      obtain ⟨o, ho, hptr, hobj, hderef⟩ :=
        World.deref_ok (h.selected cl (World.clientOn?_mem hcl) ptr hcur)
      obtain ⟨w', hrun, hw', hkeeps⟩ := @receive_inv w o h ho value
        (hwrap o (by rw [hcur]; exact hobj))
      refine ⟨w', ?_, hw', fun x hx x' hx' heq => ?_, by rintro _ _ _ ⟨⟩⟩
      . simp only [handleOacpWriteRequest, hcur, hderef, bind, Except.bind]
        exact hrun
      . obtain ⟨hxptr, hlock, hall⟩ | hsame := hkeeps.atomic hw' hx hx' heq
        . rw [h.distinct x hx o ho hxptr]
          exact .inr ⟨⟨cl, hcl, by rw [hcur, hptr]⟩, hlock, hall⟩
        . exact .inl hsame
  | chanConn connHandle cid =>
    refine ⟨chanConnected w connHandle cid, rfl, ?_⟩
    unfold chanConnected
    cases hcl : w.client? connHandle with
    | none => exact ⟨h, hsound w .refl h (by intros; simp)⟩
    | some cl =>
      have hw' : (w.setClient { cl with cid }).Inv :=
        h.setClient (h.selected cl (World.client?_mem hcl))
      exact ⟨hw', hsound _ (fun o ho => ⟨o, ho, rfl, .inr ⟨rfl, rfl⟩⟩) hw' (by intros; simp)⟩
  | chanDisc connHandle cid =>
    simp only [step1, chanDisconnected]
    cases hcl : w.clientOn? connHandle cid with
    | none => exact ⟨w, rfl, h, hsound w .refl h (by intros; simp)⟩
    | some cl =>
      have hmem := World.clientOn?_mem hcl
      obtain ⟨w1, hrel, h1, hcls, hkeeps⟩ := release_inv h hmem
      simp only [hrel, bind, Except.bind, pure, Except.pure]
      have hw' : (w1.setClient { cl with cid := 0 }).Inv :=
        h1.setClient (h1.selected cl (by rw [hcls]; exact hmem))
      exact ⟨_, rfl, hw', hsound _ (fun o ho => hkeeps o ho) hw' (by intros; simp)⟩
  | linkDisc connHandle =>
    obtain ⟨w1, hrel, h1, hcls, hkeeps⟩ :=
      @releaseAll_inv w h (w.clients.filter (·.connHandle == connHandle))
        fun cl hcl => mem_of_mem_filter hcl
    simp only [step1, deleteClCbById, hrel, bind, Except.bind, pure, Except.pure]
    have hw' : { w1 with clients := w1.clients.filter (·.connHandle != connHandle) }.Inv :=
      h1.congr rfl rfl fun cl hcl => h1.selected cl (mem_of_mem_filter hcl)
    exact ⟨_, rfl, hw', hsound _ (fun o ho => hkeeps o ho) hw' (by intros; simp)⟩
  | select connHandle ptr =>
    refine ⟨select w connHandle ptr, rfl, ?_⟩
    unfold OtsWrite.select
    cases hcl : w.client? connHandle with
    | none => exact ⟨h, hsound w .refl h (by intros; simp)⟩
    | some cl =>
      dsimp only
      split
      . exact ⟨h, hsound w .refl h (by intros; simp)⟩
      . have hw' : (w.setClient { cl with currentObj := some ptr }).Inv :=
          h.setClient fun p hp' => by
            cases hp'
            exact hp
        exact ⟨hw', hsound _ (fun o ho => ⟨o, ho, rfl, .inr ⟨rfl, rfl⟩⟩) hw' (by intros; simp)⟩

theorem Fresh.inv (h : Fresh w) : w.Inv where
  objs o ho := by
    obtain ⟨hreset, hcur, hsmall⟩ := h.idle o ho
    have hidle : o.objLockState = .idle := by rw [← hreset]; rfl
    refine ⟨h.size o ho, hcur, hsmall, ?_, fun _ => ?_, fun hlock => absurd hidle hlock⟩
    . rw [nodup_owned, ← hreset]
      simp [ObjectCb.reset]
    . rw [← hreset]
      exact ⟨rfl, rfl, rfl, rfl⟩
  distinct o ho o' ho' hptr := inj_on_of_nodup_map h.distinct ho ho' hptr
  owner := h.owner
  one := h.one
  selected cl hcl := by
    rw [h.clients] at hcl
    cases hcl

def PossibleStep (w : Except Fault World) (op : Op) : Prop := ∀ w' ∈ w.toOption, op.Possible w'

def OkStep (w : Except Fault World) (op : Op) : Prop := ∀ w' ∈ w.toOption, op.Possible w' ∧ op.Ok w'

theorem writes_sound (w : World) (ops : List Op) (hfresh : Fresh w)
    (hok : Run.Along step OkStep (.ok w) ops) :
    ∃ w', Run.exec step (.ok w) ops = .ok w' ∧ Sound w' ∧
      ∀ op, op.Possible w' → op.Ok w' → ∃ w'', step1 w' op = .ok w'' ∧ StepSound w' op w'' := by
  have hinv := @Run.exec_inv _ _ step OkStep (fun r => ∃ w, r = .ok w ∧ w.Inv)
    (fun r op hr hop => by
      obtain ⟨w, rfl, hw⟩ := hr
      obtain ⟨hp, ho⟩ := hop w rfl
      obtain ⟨w', hrun, hw', -⟩ := inv_step1 hw op hp ho
      exact ⟨w', hrun, hw'⟩) (.ok w) ops ⟨_, rfl, hfresh.inv⟩ hok
  obtain ⟨w', hexec, hw'⟩ := hinv
  refine ⟨w', hexec, hw'.sound, fun op hp ho => ?_⟩
  obtain ⟨w'', hrun, -, hstep⟩ := inv_step1 hw' op hp ho
  exact ⟨w'', hrun, hstep⟩

end

instance (w : World) (o : ObjectCb) (offset len : Nat) (a : Answers) :
    Decidable (w.Accepts o offset len a) :=
  inferInstanceAs (Decidable (_ ∧ _ ∧ _))

instance (w : World) (o : ObjectCb) (params : List UInt8) (a : Answers) :
    Decidable (w.WriteOk o params a) :=
  inferInstanceAs (Decidable (_ ∧ (_ → _ ∧ _ ∧ _)))

instance (w : World) : (op : Op) → Decidable (op.Possible w)
  | .request .. => instDecidableAnd
  | .select .. => inferInstanceAs (Decidable (∃ o ∈ w.objs, _))
  | .data .. | .chanConn .. | .chanDisc .. | .linkDisc _ => .isTrue trivial

instance (w : World) : (op : Op) → Decidable (op.Ok w)
  | .request connHandle (.write _) a =>
    inferInstanceAs (Decidable (∀ o ∈ w.writeTarget connHandle a, w.WriteOk ..))
  | .data connHandle cid _ => inferInstanceAs (Decidable
      (∀ cl ∈ w.clientOn? connHandle cid, _ ∧ ∀ o ∈ cl.currentObj.bind w.obj?, _))
  | .request _ (.create _) _ | .request _ .delete _ | .chanConn .. | .chanDisc .. | .linkDisc _
  | .select .. => .isTrue trivial

instance (w : Except Fault World) (op : Op) : Decidable (OkStep w op) :=
  inferInstanceAs (Decidable (∀ w' ∈ w.toOption, op.Possible w' ∧ op.Ok w'))

instance (w : Except Fault World) (op : Op) : Decidable (PossibleStep w op) :=
  inferInstanceAs (Decidable (∀ w' ∈ w.toOption, op.Possible w'))

def World.note : World where
  oacpFeature := 0x3FF
  heap := Mem.empty.set 1 (some [0, 0, 0, 0])
  objs := [{ newObject 0 1 4 with objProps := 0x7F }]
  clients := []
  rsp := none

theorem fresh_note : Fresh World.note where
  clients := rfl
  distinct := by decide
  idle := by decide
  size := by
    intro o ho
    rw [mem_singleton.mp ho]
    exact ⟨_, rfl, rfl⟩
  owner := by
    intro p hp
    have hp1 : p = 1 := by
      by_contra hne
      exact hp (set_ne hne)
    rw [hp1]
    exact ⟨_, mem_singleton_self _, by decide⟩
  one := by decide

def Answers.at (ptr p : Nat) : Answers where
  clientMem := true
  excluded := false
  object := some ptr
  objId := true
  buf := some p

def grownAndDeleted : List Op :=
  [.request 0x10 .delete (.at 2 2), .chanConn 0x10 0x40, .select 0x10 0,
    .request 0x10 (.write [2, 0, 0, 0, 4, 0, 0, 0, 1]) (.at 2 2), .data 0x10 0x40 [1, 2],
    .request 0x11 (.create [8, 0, 0, 0, 1, 2]) (.at 3 4), .data 0x10 0x40 [3, 4],
    .request 0x10 (.write [2, 0, 0, 0, 2, 0, 0, 0, 0]) (.at 5 5), .data 0x10 0x40 [9],
    .linkDisc 0x10, .select 0x11 0, .request 0x11 .delete (.at 6 6)]

theorem writes_sound_grownAndDeleted : ∃ w, Run.exec step (.ok .note) grownAndDeleted = .ok w ∧
    Sound w ∧ ∀ op, op.Possible w → op.Ok w → ∃ w', step1 w op = .ok w' ∧ StepSound w op w' :=
  writes_sound .note grownAndDeleted fresh_note (by decide)

theorem not_writes_sound : ∃ w, Fresh w ∧
    (∃ ops, Run.Along step PossibleStep (.ok w) ops ∧ Run.exec step (.ok w) ops = .error .null) ∧
    ∃ ops, Run.Along step PossibleStep (.ok w) ops ∧
      Run.exec step (.ok w) ops = .error .outOfBounds :=
  ⟨.note, fresh_note,
    ⟨[.request 0x10 .delete (.at 2 2), .chanConn 0x10 0x40, .data 0x10 0x40 [1]], by decide, rfl⟩,
    [.request 0x10 .delete (.at 2 2), .chanConn 0x10 0x40, .select 0x10 0,
      .request 0x10 (.write [254, 255, 255, 255, 4, 0, 0, 0, 0]) (.at 2 2),
      .data 0x10 0x40 [1, 2, 3, 4]], by decide, rfl⟩

end OtsWrite
