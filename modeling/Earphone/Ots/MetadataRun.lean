import Earphone.Ots.Metadata
import Earphone.Lib.Always

namespace OtsMeta

open List

open Ots (le32)
open OtsOlcp (FiltType OlfCb)

structure ObjKept (spec : Spec) (o : ObjectCb) : Prop where
  name : ∀ name ∈ spec.names o.ptr, o.nameLen = name.length ∧ o.objName = name
  props : ∀ props ∈ spec.props o.ptr, o.objProps = props

structure Inv (s : State) : Prop where
  inside : s.fault = false
  unfiltered : ∀ conn cl, s.world.clients conn = some cl → cl.olfCb = fun _ => .none
  filters : ∀ conn, s.spec.filters conn = fun _ => .none
  objs : ∀ o ∈ s.world.objQueue, ObjKept s.spec o

section

variable {w : World} {spec : Spec} {o : ObjectCb} {conn : Nat}

theorem clients_setClient {cl : Option Client} {P : Client → Prop}
    (h : ∀ c cl, w.clients c = some cl → P cl) (hcl : ∀ cl' ∈ cl, P cl') :
    ∀ c cl', (w.setClient conn cl).clients c = some cl' → P cl' := by
  intro c cl' hc
  unfold World.setClient at hc
  dsimp only at hc
  split at hc
  . exact hcl cl' hc
  . exact h c cl' hc

theorem unfiltered_effect (h : ∀ c cl, w.clients c = some cl → cl.olfCb = fun _ => .none)
    (effect : Effect) :
    ∀ c cl, (w.effect conn effect).clients c = some cl → cl.olfCb = fun _ => .none := by
  cases effect with
  | nothing | createInternal | clearMark | resize => exact h
  | select ptr clears =>
    unfold World.effect
    cases hcl : w.clients conn with
    | none => exact h
    | some cl =>
      refine clients_setClient h ?_
      rintro _ ⟨⟩
      dsimp only
      split
      . rfl
      . exact h conn cl hcl
  | create o =>
    refine @clients_setClient { w with objQueue := _ } _ _ _ h ?_
    rintro _ ⟨⟩
    rfl
  | delete ptr =>
    intro c cl hcl
    obtain ⟨cl', hcl', rfl⟩ := Option.map_eq_some_iff.mp hcl
    split
    . exact h c cl' hcl'
    . exact h c cl' hcl'

theorem filters_clear (h : ∀ c, spec.filters c = fun _ => .none) :
    ∀ c, (spec.clear conn).filters c = fun _ => .none := by
  intro c
  unfold Spec.clear
  dsimp only
  split
  . rfl
  . exact h c

theorem filters_effect (h : ∀ c, spec.filters c = fun _ => .none) (effect : Effect) :
    ∀ c, (spec.effect conn effect).filters c = fun _ => .none := by
  cases effect with
  | nothing | resize | createInternal | delete | clearMark => exact h
  | select ptr clears =>
    unfold Spec.effect
    dsimp only
    split
    . exact filters_clear h
    . exact h
  | create o => exact filters_clear h

theorem ObjKept.forget (h : ObjKept spec o) (ptr : Nat) : ObjKept (spec.forget ptr) o := by
  refine ⟨fun name hname => ?_, fun props hprops => ?_⟩
  . unfold Spec.forget at hname
    dsimp only at hname
    split at hname
    . cases hname
    . exact h.name name hname
  . unfold Spec.forget at hprops
    dsimp only at hprops
    split at hprops
    . cases hprops
    . exact h.props props hprops

theorem objKept_forget : ObjKept (spec.forget o.ptr) o := by
  unfold Spec.forget
  refine ⟨fun name hname => ?_, fun props hprops => ?_⟩
  . dsimp only at hname
    rw [if_pos rfl] at hname
    cases hname
  . dsimp only at hprops
    rw [if_pos rfl] at hprops
    cases hprops

theorem objs_append (h : ∀ o ∈ w.objQueue, ObjKept spec o) (o : ObjectCb) :
    ∀ o' ∈ w.objQueue ++ [o], ObjKept (spec.forget o.ptr) o' := by
  intro o' ho'
  obtain ho' | ho' := mem_append.mp ho'
  . exact (h o' ho').forget o.ptr
  . rw [mem_singleton.mp ho']
    exact objKept_forget

theorem objs_effect (h : ∀ o ∈ w.objQueue, ObjKept spec o) (effect : Effect) :
    ∀ o ∈ (w.effect conn effect).objQueue, ObjKept (spec.effect conn effect) o := by
  cases effect with
  | nothing => exact h
  | select ptr clears =>
    have hqueue : (w.effect conn (.select ptr clears)).objQueue = w.objQueue := by
      unfold World.effect
      cases w.clients conn <;> rfl
    rw [hqueue]
    intro o ho
    unfold Spec.effect
    dsimp only
    split <;> exact ⟨(h o ho).name, (h o ho).props⟩
  | create o =>
    intro o' ho'
    have hkept := objs_append h o o' ho'
    exact ⟨hkept.name, hkept.props⟩
  | createInternal o => exact objs_append h o
  | delete ptr => exact fun o ho => (h o (mem_filter.mp ho).1).forget ptr
  | clearMark ptrs =>
    intro o ho
    obtain ⟨o', ho', rfl⟩ := mem_map.mp ho
    unfold Spec.effect
    by_cases hptr : o'.ptr ∈ ptrs
    . rw [if_pos hptr]
      refine ⟨(h o' ho').name, fun props hprops => ?_⟩
      dsimp only at hprops ⊢
      rw [if_pos hptr] at hprops
      obtain ⟨props', hprops', rfl⟩ := Option.map_eq_some_iff.mp (Option.mem_def.mp hprops)
      rw [(h o' ho').props props' hprops']
    . rw [if_neg hptr]
      refine ⟨(h o' ho').name, fun props hprops => ?_⟩
      dsimp only at hprops
      rw [if_neg hptr] at hprops
      exact (h o' ho').props props hprops
  | resize ptr curSize allocSize =>
    intro o ho
    obtain ⟨o', ho', rfl⟩ := mem_map.mp ho
    split <;> exact ⟨(h o' ho').name, (h o' ho').props⟩

theorem Inv.effect (h : Inv s) (conn : Nat) (effect : Effect) :
    Inv { s with world := s.world.effect conn effect, spec := s.spec.effect conn effect } where
  inside := h.inside
  unfiltered := unfiltered_effect h.unfiltered effect
  filters := filters_effect h.filters effect
  objs := objs_effect h.objs effect

end

section

variable {w : World} {conn : Nat} {attr : Attr} {value : List UInt8} {room far : Bool}

def Accepts (w : World) (conn : Nat) (attr : Attr) (value : List UInt8) : Prop :=
  match attr with
  | .objName => w.current conn ≠ none ∧ value.length ≤ otsObjNameLenMax ∧
    w.checkObjNameExist value = false
  | .objProps => w.current conn ≠ none ∧ 4 ≤ value.length
  | .olf _ => w.current conn ≠ none ∧ value ≠ [] ∧ ¬Refused value
  | .oacp | .olcp => True
  | _ => False

def World.opened (w : World) (conn : Nat) : World :=
  w.setClient conn (some ((w.clients conn).getD .zero))

theorem opened_client : (w.opened conn).clients conn = some ((w.clients conn).getD .zero) :=
  if_pos rfl

theorem opened_current : (w.opened conn).current conn = w.current conn := by
  unfold World.current
  rw [opened_client]
  cases w.clients conn <;> rfl

theorem unfiltered_opened (h : ∀ c cl, w.clients c = some cl → cl.olfCb = fun _ => .none) :
    ∀ c cl, (w.opened conn).clients c = some cl → cl.olfCb = fun _ => .none := by
  refine clients_setClient h ?_
  rintro _ ⟨⟩
  cases hcl : w.clients conn with
  | none => rfl
  | some cl => exact h conn cl hcl

theorem storeFilter_none
    (h : cl.olfCb = fun _ => .none) : w.storeFilter conn cl olfIdx f cause room = (w, cause) := by
  unfold World.storeFilter
  rw [if_neg]
  rw [h]
  exact Nat.lt_irrefl 0

theorem writeFilter_spec {cl : Client} {olfIdx : Fin 3} (h : cl.olfCb = fun _ => .none) :
    (w.writeFilter conn cl olfIdx room value = .error .outside ∧ value = []) ∨
      ∃ cause, w.writeFilter conn cl olfIdx room value = .ok (w, cause) ∧
        (cause = .success → value ≠ [] ∧ ¬Refused value) := by
  cases value with
  | nil => exact .inl ⟨rfl, rfl⟩
  | cons b param =>
    refine .inr ?_
    unfold World.writeFilter
    dsimp only
    by_cases hsize : filtTypeOf b = .curSizeBetween ∨ filtTypeOf b = .allocSizeBetween
    . rw [dif_pos hsize]
      by_cases hlen : param.length + 1 < 9
      . rw [dif_pos hlen]
        exact ⟨_, rfl, nofun⟩
      . rw [dif_neg hlen]
        split
        . exact ⟨_, rfl, nofun⟩
        . next hle =>
          rw [storeFilter_none h]
          refine ⟨_, rfl, fun _ => ⟨cons_ne_nil _ _, ?_⟩⟩
          rintro (hcreate | hmod | ⟨-, hrefused⟩)
          . rw [hcreate] at hsize
            exact absurd hsize (by decide)
          . rw [hmod] at hsize
            exact absurd hsize (by decide)
          . exact hrefused.elim hlen hle
    . rw [dif_neg hsize, storeFilter_none h]
      refine ⟨_, rfl, fun hcause => ⟨cons_ne_nil _ _, ?_⟩⟩
      split at hcause
      . cases hcause
      . next hnot =>
        rintro (hcreate | hmod | ⟨hsize', -⟩)
        . exact hnot (.inl hcreate)
        . exact hnot (.inr hmod)
        . exact hsize hsize'

theorem getD_current : ((w.clients conn).getD .zero).currentObj = w.current conn := by
  unfold World.current
  cases w.clients conn <;> rfl

theorem getD_unfiltered (h : ∀ c cl, w.clients c = some cl → cl.olfCb = fun _ => .none) :
    ((w.clients conn).getD .zero).olfCb = fun _ => .none := by
  cases hcl : w.clients conn with
  | none => rfl
  | some cl => exact h conn cl hcl

theorem otsAttrWriteCb_opened (hopen : (w.clients conn).isSome = true ∨ room = true) :
    w.otsAttrWriteCb conn attr value room =
      if (attr ≠ .oacp ∧ attr ≠ .olcp) ∧ w.current conn = none then
        .ok (w.opened conn, .objNotSelected)
      else
        match attr with
        | .objName =>
          if value.length > otsObjNameLenMax then .ok (w.opened conn, .writeRejected)
          else if w.checkObjNameExist value then .ok (w.opened conn, .objNameAlreadyExist)
          else .ok (w.opened conn, .success)
        | .objFirstCr | .objLastMod => .ok (w.opened conn, .writeRejected)
        | .objProps =>
          if value.length < 4 then .ok (w.opened conn, .invalidValueSize)
          else .ok (w.opened conn, .success)
        | .oacp | .olcp => .ok (w.opened conn, .success)
        | .olf olfIdx =>
          (w.opened conn).writeFilter conn ((w.clients conn).getD .zero) olfIdx room value
        | .other => .ok (w.opened conn, .attrNotFound) := by
  rw [← getD_current]
  unfold World.otsAttrWriteCb World.opened
  cases hcl : w.clients conn with
  | some cl => cases room <;> rfl
  | none =>
    cases room with
    | true => rfl
    | false =>
      rw [hcl] at hopen
      exact absurd hopen (by decide)

theorem otsAttrWriteCb_spec (h : ∀ c cl, w.clients c = some cl → cl.olfCb = fun _ => .none) :
    (w.otsAttrWriteCb conn attr value room = .error .outside ∧ (∃ i, attr = .olf i) ∧
        value = [] ∧ w.current conn ≠ none) ∨
      ∃ w' cause, w.otsAttrWriteCb conn attr value room = .ok (w', cause) ∧
        (w' = w ∨ w' = w.opened conn) ∧
        (cause = .success → w' = w.opened conn ∧
          ((w.clients conn).isSome = true ∨ room = true) ∧ Accepts w conn attr value) := by
  by_cases hopen : (w.clients conn).isSome = true ∨ room = true
  . rw [otsAttrWriteCb_opened hopen]
    by_cases hnot : (attr ≠ .oacp ∧ attr ≠ .olcp) ∧ w.current conn = none
    . rw [if_pos hnot]
      exact .inr ⟨_, _, rfl, .inr rfl, nofun⟩
    rw [if_neg hnot]
    have hselected : attr ≠ .oacp → attr ≠ .olcp → w.current conn ≠ none :=
      fun hoacp holcp hnone => hnot ⟨⟨hoacp, holcp⟩, hnone⟩
    cases attr with
    | objName =>
      dsimp only
      by_cases hlong : value.length > otsObjNameLenMax
      . rw [if_pos hlong]
        exact .inr ⟨_, _, rfl, .inr rfl, nofun⟩
      rw [if_neg hlong]
      by_cases hexist : w.checkObjNameExist value = true
      . rw [if_pos hexist]
        exact .inr ⟨_, _, rfl, .inr rfl, nofun⟩
      rw [if_neg hexist]
      exact .inr ⟨_, _, rfl, .inr rfl, fun _ => ⟨rfl, hopen, hselected nofun nofun,
        Nat.le_of_not_lt hlong, Bool.eq_false_iff.mpr hexist⟩⟩
    | objFirstCr => exact .inr ⟨_, _, rfl, .inr rfl, nofun⟩
    | objLastMod => exact .inr ⟨_, _, rfl, .inr rfl, nofun⟩
    | other => exact .inr ⟨_, _, rfl, .inr rfl, nofun⟩
    | objProps =>
      dsimp only
      by_cases hshort : value.length < 4
      . rw [if_pos hshort]
        exact .inr ⟨_, _, rfl, .inr rfl, nofun⟩
      rw [if_neg hshort]
      exact .inr ⟨_, _, rfl, .inr rfl, fun _ => ⟨rfl, hopen, hselected nofun nofun,
        Nat.le_of_not_lt hshort⟩⟩
    | oacp => exact .inr ⟨_, _, rfl, .inr rfl, fun _ => ⟨rfl, hopen, trivial⟩⟩
    | olcp => exact .inr ⟨_, _, rfl, .inr rfl, fun _ => ⟨rfl, hopen, trivial⟩⟩
    | olf olfIdx =>
      dsimp only
      obtain ⟨heq, hempty⟩ | ⟨cause, heq, hcause⟩ :=
        @writeFilter_spec (w.opened conn) conn value room _ olfIdx (getD_unfiltered h)
      . rw [heq]
        exact .inl ⟨rfl, ⟨olfIdx, rfl⟩, hempty, hselected nofun nofun⟩
      . rw [heq]
        exact .inr ⟨_, _, rfl, .inr rfl, fun hsuccess => ⟨rfl, hopen, hselected nofun nofun,
          hcause hsuccess⟩⟩
  . refine .inr ⟨w, .reject, ?_, .inl rfl, nofun⟩
    rw [not_or] at hopen
    unfold World.otsAttrWriteCb
    cases hcl : w.clients conn with
    | some cl =>
      rw [hcl] at hopen
      exact absurd rfl hopen.1
    | none =>
      cases room with
      | true => exact absurd rfl hopen.2
      | false => rfl

theorem Inv.opened (h : Inv s) (conn : Nat) : Inv { s with world := s.world.opened conn } :=
  ⟨h.inside, unfiltered_opened h.unfiltered, h.filters, h.objs⟩

theorem objName_copyName (hlen : o.nameLen = value.length)
    (hfits : value.length ≤ otsObjNameLenMax) : (World.copyName o value).objName = value := by
  unfold ObjectCb.objName World.copyName
  dsimp only
  rw [hlen]
  refine ext_getElem ?_ fun i hi hi' => ?_
  . rw [length_take, Vector.length_toList]
    omega
  . rw [getElem_take, Vector.getElem_toList, Vector.getElem_ofFn,
      getElem?_eq_getElem hi']
    rfl

theorem copyName_rest {o : ObjectCb} : (World.copyName o value).ptr = o.ptr ∧
    (World.copyName o value).nameLen = o.nameLen ∧
    (World.copyName o value).objProps = o.objProps := by
  unfold World.copyName
  exact ⟨rfl, rfl, rfl⟩

theorem accept_objName {spec : Spec} {current : Option Nat} {effect : Effect} :
    (spec.accept current conn .objName value effect).props = spec.props ∧
      ∀ p, (spec.accept current conn .objName value effect).names p =
        if some p = current then some value else spec.names p := by
  unfold Spec.accept
  exact ⟨rfl, fun _ => rfl⟩

theorem accept_objProps {spec : Spec} {current : Option Nat} {effect : Effect} :
    (spec.accept current conn .objProps value effect).names = spec.names ∧
      ∀ p, (spec.accept current conn .objProps value effect).props p =
        if some p = current then some (le32 value 0) else spec.props p := by
  unfold Spec.accept
  exact ⟨rfl, fun _ => rfl⟩

theorem objKept_name {spec : Spec} {o : ObjectCb} {ptr : Nat} (h : ObjKept spec o)
    (hfits : value.length ≤ otsObjNameLenMax) (hlen : o.ptr = ptr → o.nameLen = value.length)
    (effect : Effect) : ObjKept (spec.accept (some ptr) conn .objName value effect)
      (if o.ptr = ptr then World.copyName o value else o) := by
  obtain ⟨hprops, hnames⟩ := @accept_objName conn value spec (some ptr) effect
  by_cases hptr : o.ptr = ptr
  . obtain ⟨hsame, hnameLen, hobjProps⟩ := @copyName_rest value o
    rw [if_pos hptr]
    constructor
    . intro name hname
      rw [hnames, hsame, if_pos (congrArg some hptr)] at hname
      obtain rfl := Option.some.inj hname
      exact ⟨hnameLen.trans (hlen hptr), objName_copyName (hlen hptr) hfits⟩
    . rw [hprops, hsame, hobjProps]
      exact h.props
  . rw [if_neg hptr]
    constructor
    . intro name hname
      rw [hnames, if_neg fun heq => hptr (Option.some.inj heq)] at hname
      exact h.name name hname
    . rw [hprops]
      exact h.props

theorem objKept_props {spec : Spec} {o : ObjectCb} {ptr : Nat} (h : ObjKept spec o)
    (effect : Effect) : ObjKept (spec.accept (some ptr) conn .objProps value effect)
      (if o.ptr = ptr then { o with objProps := le32 value 0 } else o) := by
  obtain ⟨hnames, hprops⟩ := @accept_objProps conn value spec (some ptr) effect
  by_cases hptr : o.ptr = ptr
  . rw [if_pos hptr]
    constructor
    . rw [hnames]
      exact h.name
    . intro props hgiven
      rw [hprops, if_pos (congrArg some hptr)] at hgiven
      exact Option.some.inj hgiven
  . rw [if_neg hptr]
    constructor
    . rw [hnames]
      exact h.name
    . intro props hgiven
      rw [hprops, if_neg fun heq => hptr (Option.some.inj heq)] at hgiven
      exact h.props props hgiven

theorem filterOf_noFilter : filterOf [0x00] = .none := by
  unfold filterOf
  dsimp only
  rw [dif_pos (by decide)]
  rfl

theorem Inv.complete (h : Inv s) (hsafe : SafeWrite s.world conn attr value room far)
    (hopen : (s.world.clients conn).isSome = true ∨ room = true)
    (haccepts : Accepts s.world conn attr value) (effect : Effect) :
    ∃ w', (s.world.opened conn).otsWritePostCallback conn attr value effect far = .ok w' ∧
      Inv { s with
        world := w'
        spec := s.spec.accept (s.world.current conn) conn attr value effect } := by
  unfold World.otsWritePostCallback
  rw [opened_client]
  dsimp only
  rw [getD_current]
  have hopened := h.opened conn
  cases attr with
  | objName =>
    obtain ⟨hcurrent, hfits, hnew⟩ := haccepts
    obtain ⟨ptr, hptr⟩ := Option.ne_none_iff_exists'.mp hcurrent
    dsimp only
    rw [hptr]
    dsimp only
    rw [if_neg (by omega)]
    refine ⟨_, rfl, h.inside, hopened.unfiltered, h.filters, fun o ho => ?_⟩
    obtain ⟨o', ho', rfl⟩ := mem_map.mp ho
    refine @objKept_name conn value _ _ ptr (h.objs o' ho') hfits (fun heq => ?_) effect
    exact hsafe hfits hnew o' ho' (by rw [hptr, heq])
  | objProps =>
    obtain ⟨hcurrent, hlen⟩ := haccepts
    obtain ⟨ptr, hptr⟩ := Option.ne_none_iff_exists'.mp hcurrent
    dsimp only
    rw [hptr]
    dsimp only
    rw [if_neg (by omega)]
    refine ⟨_, rfl, h.inside, hopened.unfiltered, h.filters, fun o ho => ?_⟩
    obtain ⟨o', ho', rfl⟩ := mem_map.mp ho
    exact @objKept_props conn value _ _ ptr (h.objs o' ho') effect
  | oacp =>
    dsimp only
    rw [if_neg (Nat.not_lt.mpr (hsafe hopen))]
    exact ⟨_, rfl, hopened.effect conn effect⟩
  | olcp =>
    dsimp only
    rw [if_neg (Nat.not_lt.mpr (hsafe hopen))]
    exact ⟨_, rfl, hopened.effect conn effect⟩
  | olf olfIdx =>
    obtain ⟨hcurrent, -, hnot⟩ := haccepts
    obtain rfl := (hsafe hcurrent).resolve_right hnot
    refine ⟨_, rfl, h.inside, hopened.unfiltered, fun c => funext fun i => ?_, fun o ho => ?_⟩
    . unfold Spec.accept
      dsimp only
      split
      . exact filterOf_noFilter
      . rw [h.filters c]
    . exact ⟨(h.objs o ho).name, (h.objs o ho).props⟩
  | objFirstCr | objLastMod | other => exact haccepts.elim

theorem Inv.write (h : Inv s) (hsafe : SafeWrite s.world conn attr value room far)
    (effect : Effect) : Inv (s.write conn attr value room effect far) := by
  unfold State.write
  obtain ⟨-, ⟨i, rfl⟩, rfl, hcurrent⟩ | ⟨w', cause, heq, hw', hsuccess⟩ :=
    @otsAttrWriteCb_spec s.world conn attr value room h.unfiltered
  . -- an empty filter is not what a safe write says
    obtain hvalue | hrefused := hsafe hcurrent
    . cases hvalue
    . exact hrefused.elim
  . rw [heq]
    dsimp only
    by_cases hcause : cause = .success
    . rw [if_pos hcause]
      obtain ⟨rfl, hopen, haccepts⟩ := hsuccess hcause
      obtain ⟨w', hpost, hinv⟩ := h.complete hsafe hopen haccepts effect
      rw [hpost, opened_current]
      exact hinv
    . rw [if_neg hcause]
      obtain rfl | rfl := hw'
      . exact h
      . exact h.opened conn

theorem Inv.step (h : Inv s) (hsafe : Safe s op) : Inv (s.step op) := by
  unfold State.step
  rw [if_neg (by rw [h.inside]; exact Bool.false_ne_true)]
  cases op with
  | write conn attr value room effect far => exact h.write hsafe effect
  | server conn effect => exact h.effect conn effect
  | disconnect conn =>
    refine ⟨h.inside, clients_setClient h.unfiltered nofun, filters_clear h.filters, ?_⟩
    exact fun o ho => ⟨(h.objs o ho).name, (h.objs o ho).props⟩

theorem Inv.kept (h : Inv s) : Kept s where
  inside := h.inside
  filters conn cl hcl := by
    rw [h.unfiltered conn cl hcl, h.filters conn]
  excluded conn cl hcl o _ := by
    have hexcludes : cl.excludes o = false := by
      unfold Client.excludes OtsOlcp.checkObjExcFilterList
      rw [h.unfiltered conn cl hcl]
      split <;> rfl
    rw [hexcludes]
    refine iff_of_false Bool.false_ne_true fun ⟨i, hi⟩ => ?_
    rw [h.unfiltered conn cl hcl] at hi
    exact hi trivial
  names o ho := (h.objs o ho).name
  props o ho := (h.objs o ho).props

theorem ots_writes_kept (objQueue : List ObjectCb) (ops : List Op)
    (hsafe : Run.Along State.step Safe (State.init objQueue) ops) :
    Kept (Run.exec State.step (State.init objQueue) ops) := by
  have hinit : Inv (State.init objQueue) := ⟨rfl, nofun, fun _ => rfl, fun _ _ => ⟨nofun, nofun⟩⟩
  exact (Run.exec_inv (fun _ _ hs hop => hs.step hop) _ ops hinit hsafe).kept

end

instance : (value : List UInt8) → Decidable (Refused value)
  | [] => inferInstanceAs (Decidable False)
  | _ :: _ => inferInstanceAs (Decidable (_ ∨ _ ∨ _ ∧ _))

instance (w : World) (conn : Nat) (attr : Attr) (value : List UInt8) (room far : Bool) :
    Decidable (SafeWrite w conn attr value room far) :=
  match attr with
  | .objName => inferInstanceAs (Decidable (_ → _ → ∀ o ∈ w.objQueue, _ → _))
  | .oacp | .olcp => inferInstanceAs (Decidable (_ → _))
  | .olf _ => inferInstanceAs (Decidable (_ → _))
  | .objFirstCr | .objLastMod | .objProps | .other => .isTrue trivial

instance (s : State) : (op : Op) → Decidable (Safe s op)
  | .write .. => inferInstanceAs (Decidable (SafeWrite ..))
  | .server .. | .disconnect _ => .isTrue trivial

def fourLetters : ObjectCb where
  ptr := 1
  name := .replicate 61 0x41
  nameLen := 4
  objType := fun _ => 0
  uuidSize := 2
  curSize := 0
  allocSize := 0
  objProps := 0x0F

def goFirst : Op := .write 0 .olcp [0x01] true (.select (some 1) false) false

theorem ots_writes_kept_four : Kept (Run.exec State.step (State.init [fourLetters]) [
    goFirst, .write 0 .objName [0x42, 0x43, 0x44, 0x45] true .nothing false,
    .write 0 (.olf 1) [0x00] true .nothing false,
    .write 0 .objProps [0x8F, 0x00, 0x00, 0x00] true .nothing false]) :=
  ots_writes_kept [fourLetters] _ (by decide +kernel)

theorem not_ots_writes_kept :
    ¬Kept (Run.exec State.step (State.init [fourLetters]) [
      goFirst, .write 0 (.olf 0) [0x01, 0x42] true .nothing false]) ∧
    ¬Kept (Run.exec State.step (State.init [fourLetters]) [
      goFirst, .write 0 .objName [0x42, 0x43] true .nothing false]) ∧
    ¬Kept (Run.exec State.step (State.init [fourLetters]) [
      goFirst, .write 0 (.olf 0) [] true .nothing false]) := by
  refine ⟨fun h => ?_, fun h => ?_, fun h => ?_⟩
  . have hsame := congrFun (h.filters 0 _ rfl) 0
    exact absurd (congrArg OlfCb.filtType hsame) (by decide +kernel)
  . have hname := h.names _ (mem_singleton_self _) [0x42, 0x43] (by decide +kernel)
    exact absurd hname.1 (by decide +kernel)
  . exact absurd h.inside (by decide +kernel)

end OtsMeta
