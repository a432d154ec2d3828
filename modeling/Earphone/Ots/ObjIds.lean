import Earphone.Lib.LowBit
import Earphone.Ots.Read

namespace OtsObjs

open List

open Ots (ResCode)

abbrev Word := BitVec 32

def otsObjIdArrayMax : Nat := 2

def otsObjIdBase : Nat := 0x0100

def countIndex (v : Word) : Word :=
  let v := (v &&& 0x55555555#32) + (v.sshiftRight 1 &&& 0x55555555#32)
  let v := (v &&& 0x33333333#32) + (v.sshiftRight 2 &&& 0x33333333#32)
  let v := (v + v.sshiftRight 4) &&& 0x0F0F0F0F#32
  let v := v + v.sshiftRight 8
  let v := v + v.sshiftRight 16
  (v &&& 0x3F#32) - 1#32

def freeIndex (word : Word) : Word :=
  let v := ~~~word
  countIndex (v ^^^ (v - 1#32))

def allocObjId (i : Nat) : List Word → Nat × List Word
  | [] => (0, [])
  | word :: words =>
    if word ≠ 0xFFFFFFFF#32 then
      let index := freeIndex word
      ((index.toInt + i * 32 + otsObjIdBase).toNat, (word ||| (1#32 <<< index.toNat)) :: words)
    else
      let (id, words) := allocObjId (i + 1) words
      (id, word :: words)

def freeObjId (id : Nat) (idArray : List Word) : List Word :=
  idArray.modify ((id - otsObjIdBase) / 32) fun word =>
    word &&& ~~~(1#32 <<< ((id - otsObjIdBase) % 32))

structure ObjectCb where
  ptr : Nat
  objId : Nat
  allocBuf : Option (List UInt8)
  curSize : Nat
  allocSize : Nat
  objName : List UInt8
  objType : List UInt8
  objProps : Nat

structure Client where
  connHandle : Nat
  currentObj : Option Nat

structure Serv where
  objQueue : List ObjectCb
  idArray : List Word
  clients : List Client
  nextPtr : Nat

structure Allocs where
  object : Bool
  buf : Bool

structure OtsObjParam where
  value : Option (List UInt8)
  len : Nat
  name : List UInt8
  uuid : Option (List UInt8)
  props : Nat

def objPropDeleteBitNum : Nat := 0

def otsOacpCreateDefaultProps : Nat := 0x0F

def setCurrent (i : Nat) (ptr : Option Nat) (s : Serv) : Serv :=
  { s with clients := s.clients.modify i fun cl => { cl with currentObj := ptr } }

def currentObj (i : Nat) (s : Serv) : Option ObjectCb := do
  let cl ← s.clients[i]?
  let ptr ← cl.currentObj
  s.objQueue.find? fun o => o.ptr = ptr

def oacpCreateOtsObject (allocs : Allocs) (i size : Nat) (uuid : Option (List UInt8)) (s : Serv) :
    ResCode × Serv :=
  match uuid with
  | none => (.invParam, s)
  | some uuid =>
    if allocs.object = false then
      (.insfResc, s)
    else
      let (objId, idArray) := allocObjId 0 s.idArray
      if objId = 0 then
        (.operFail, { s with idArray })
      else if allocs.buf = false then
        (.insfResc, { s with idArray := freeObjId objId idArray })
      else
        let object : ObjectCb :=
          { ptr := s.nextPtr
            objId
            allocBuf := some (List.replicate size 0)
            curSize := 0
            allocSize := size
            objName := []
            objType := uuid
            objProps := otsOacpCreateDefaultProps }
        (.success, setCurrent i (some object.ptr)
          { s with idArray, objQueue := s.objQueue ++ [object], nextPtr := s.nextPtr + 1 })

def internalBuf (allocs : Allocs) (param : OtsObjParam) : Option (Option (List UInt8)) :=
  if 0 < param.len then
    if allocs.buf then some (some (param.value.getD (List.replicate param.len 0))) else none
  else
    some none

def createOtsObjectInternal (allocs : Allocs) (param : OtsObjParam) (s : Serv) :
    Option ObjectCb × Serv :=
  match param.uuid with
  | none => (none, s)
  | some uuid =>
    if allocs.object = false then
      (none, s)
    else
      let (objId, idArray) := allocObjId 0 s.idArray
      if objId = 0 then
        (none, { s with idArray })
      else
        match internalBuf allocs param with
        | none => (none, { s with idArray := freeObjId objId idArray })
        | some allocBuf =>
          let object : ObjectCb :=
            { ptr := s.nextPtr
              objId
              allocBuf
              curSize := param.len
              allocSize := param.len
              objName := param.name
              objType := uuid
              objProps := param.props }
          (some object,
            { s with idArray, objQueue := s.objQueue ++ [object], nextPtr := s.nextPtr + 1 })

def deleteOtsObj (object : Option ObjectCb) (s : Serv) : ResCode × Serv :=
  match object with
  | none => (.invObj, s)
  | some object =>
    (.success, { s with
      objQueue := s.objQueue.eraseP fun o => o.ptr = object.ptr
      clients := s.clients.map fun cl =>
        if cl.currentObj = some object.ptr then { cl with currentObj := none } else cl })

def oacpDelete (i : Nat) (s : Serv) : ResCode × Serv :=
  match currentObj i s with
  | none => (.invObj, s)
  | some object =>
    if object.objProps.testBit objPropDeleteBitNum then
      let (res, s) := deleteOtsObj (some object) s
      (res, setCurrent i none s)
    else
      (.proceNotPerm, s)

def deleteOtsObjectInternal (objId : Nat) (s : Serv) : Serv :=
  match s.objQueue.find? fun o => o.objId = objId with
  | none => s
  | some object => (deleteOtsObj (some object) s).2

inductive Op where
  | oacpCreate (allocs : Allocs) (i size : Nat) (uuid : Option (List UInt8))
  | oacpDelete (i : Nat)
  | createInternal (allocs : Allocs) (param : OtsObjParam)
  | deleteInternal (objId : Nat)
  | select (i : Nat) (ptr : Option Nat)

def step (s : Serv) : Op → Serv
  | .oacpCreate allocs i size uuid => (oacpCreateOtsObject allocs i size uuid s).2
  | .oacpDelete i => (oacpDelete i s).2
  | .createInternal allocs param => (createOtsObjectInternal allocs param s).2
  | .deleteInternal objId => deleteOtsObjectInternal objId s
  | .select i ptr => setCurrent i ptr s

def directoryListing : ObjectCb :=
  { ptr := 0
    objId := 0
    allocBuf := none
    curSize := 33
    allocSize := 33
    objName := [0x44, 0x69, 0x72, 0x65, 0x63, 0x74, 0x6F, 0x72, 0x79]
    objType := [0xCB, 0x2A]
    objProps := 4 }

def init (allocated : Bool) (connHandles : List Nat) : Serv :=
  { objQueue := if allocated then [directoryListing] else []
    idArray := List.replicate otsObjIdArrayMax 0
    clients := connHandles.map fun connHandle => { connHandle, currentObj := none }
    nextPtr := 1 }

def bit (idArray : List Word) (n : Nat) : Bool :=
  match idArray[n / 32]? with
  | some word => word.getLsbD (n % 32)
  | none => false

theorem bit_cons (word : Word) (words : List Word) (n : Nat) :
    bit (word :: words) n = if n < 32 then word.getLsbD n else bit words (n - 32) := by
  unfold bit
  split_ifs with h
  . rw [Nat.div_eq_of_lt h, Nat.mod_eq_of_lt h]
    rfl
  . have hdiv : n / 32 = (n - 32) / 32 + 1 := by omega
    have hmod : n % 32 = (n - 32) % 32 := by omega
    rw [hdiv, hmod, getElem?_cons_succ]

theorem countIndex_mask (k : Nat) (hk : k < 32) :
    countIndex (BitVec.ofNat 32 (2 ^ (k + 1) - 1)) = BitVec.ofNat 32 k := by
  have hall : ∀ k : Fin 32,
      countIndex (BitVec.ofNat 32 (2 ^ (k.val + 1) - 1)) = BitVec.ofNat 32 k.val := by decide
  exact hall ⟨k, hk⟩

theorem freeIndex_spec (hword : word ≠ 0xFFFFFFFF#32) :
    ∃ k, k < 32 ∧ word.getLsbD k = false ∧ freeIndex word = BitVec.ofNat 32 k := by
  have hne : ~~~word ≠ 0#32 := by
    intro h
    apply hword
    rw [← BitVec.not_not (b := word), h]
    rfl
  obtain ⟨k, hk, hbit, hmask⟩ := LowBit.exists_lowest hne
  refine ⟨k, hk, ?_, ?_⟩
  . simpa [hk] using hbit
  . rw [freeIndex, hmask, countIndex_mask k hk]

theorem bit_or_shift (word : Word) (k m : Nat) (hm : m < 32) :
    (word ||| 1#32 <<< k).getLsbD m = (decide (m = k) || word.getLsbD m) := by
  simp only [BitVec.getLsbD_or, BitVec.getLsbD_shiftLeft, hm, decide_true, Bool.true_and,
    BitVec.getLsbD_one]
  rcases Nat.lt_trichotomy m k with h | h | h
  . simp [h, Nat.ne_of_lt h]
  . simp [h]
  . have hsub : m - k ≠ 0 := by omega
    simp [hsub, Nat.ne_of_gt h]

theorem allocObjId_spec (i : Nat) (words : List Word) :
    ((allocObjId i words).1 = 0 ∧ (allocObjId i words).2 = words ∧
      ∀ n, n < 32 * words.length → bit words n = true) ∨
    ∃ n, n < 32 * words.length ∧ bit words n = false ∧
      (allocObjId i words).1 = otsObjIdBase + i * 32 + n ∧
      (allocObjId i words).2.length = words.length ∧
      ∀ m, bit (allocObjId i words).2 m = (decide (m = n) || bit words m) := by
  induction words generalizing i with
  | nil => exact .inl ⟨rfl, rfl, fun n hn => absurd hn (by simp)⟩
  | cons word words ih =>
    unfold allocObjId
    split_ifs with hword
    . obtain ⟨k, hk, hfree, hindex⟩ := freeIndex_spec hword
      have hnat : (freeIndex word).toNat = k := by
        rw [hindex, BitVec.toNat_ofNat]
        omega
      have hint : (freeIndex word).toInt = k := by
        rw [BitVec.toInt_eq_toNat_of_lt (by omega), hnat]
      refine .inr ⟨k, ?_, ?_, ?_, rfl, ?_⟩
      . rw [length_cons]
        omega
      . rw [bit_cons, if_pos hk, hfree]
      . simp only [hint]
        omega
      . intro m
        simp only [bit_cons, hnat]
        split_ifs with hm
        . exact bit_or_shift word k m hm
        . have hne : m ≠ k := by omega
          simp [hne]
    . have hfull : word = 0xFFFFFFFF#32 := not_not.mp hword
      have hbits : ∀ n, n < 32 → word.getLsbD n = true := by
        intro n hn
        have hones : word = BitVec.allOnes 32 := hfull
        rw [hones, BitVec.getLsbD_allOnes]
        simpa using hn
      simp only [length_cons]
      rcases ih (i + 1) with ⟨hid, hsame, hall⟩ | ⟨n, hn, hfree, hid, hlen, hall⟩
      . refine .inl ⟨hid, by rw [hsame], ?_⟩
        intro n hn
        rw [bit_cons]
        split_ifs with hlow
        . exact hbits n hlow
        . exact hall (n - 32) (by omega)
      . refine .inr ⟨n + 32, by omega, ?_, ?_, ?_, ?_⟩
        . rw [bit_cons, if_neg (by omega), Nat.add_sub_cancel, hfree]
        . rw [hid]
          omega
        . rw [hlen]
        . intro m
          rw [bit_cons, bit_cons]
          split_ifs with hm
          . have hne : m ≠ n + 32 := by omega
            simp [hne]
          . have hiff : m - 32 = n ↔ m = n + 32 := by omega
            rw [hall, decide_eq_decide.mpr hiff]

theorem bit_and_not_shift (word : Word) (k m : Nat) (hm : m < 32) :
    (word &&& ~~~(1#32 <<< k)).getLsbD m = (decide (m ≠ k) && word.getLsbD m) := by
  simp only [BitVec.getLsbD_and, BitVec.getLsbD_not, BitVec.getLsbD_shiftLeft, hm, decide_true,
    Bool.true_and, BitVec.getLsbD_one]
  rcases Nat.lt_trichotomy m k with h | h | h
  . simp [h, Nat.ne_of_lt h]
  . simp [h]
  . have hsub : m - k ≠ 0 := by omega
    simp [hsub, Nat.ne_of_gt h]

theorem freeObjId_bit (idArray : List Word) (n m : Nat) :
    bit (freeObjId (otsObjIdBase + n) idArray) m = (decide (m ≠ n) && bit idArray m) := by
  have hmod : m % 32 < 32 := Nat.mod_lt m (by decide)
  unfold bit freeObjId
  rw [Nat.add_sub_cancel_left, getElem?_modify]
  cases hword : idArray[m / 32]? with
  | none => simp
  | some word =>
    by_cases hdiv : n / 32 = m / 32
    . have hiff : m % 32 ≠ n % 32 ↔ m ≠ n := by omega
      simp only [hdiv, if_true, Option.map_eq_map, Option.map_some]
      rw [bit_and_not_shift _ _ _ hmod, decide_eq_decide.mpr hiff]
    . have hne : m ≠ n := by
        rintro rfl
        exact hdiv rfl
      simp [hdiv, hne]

structure Sound (s : Serv) : Prop where
  distinct : (s.objQueue.map ObjectCb.objId).Nodup
  bits : ∀ n, n < 32 * otsObjIdArrayMax →
    (bit s.idArray n = true ↔ ∃ o ∈ s.objQueue, o.objId = otsObjIdBase + n)
  oacpId : (s.objQueue.filter fun o => o.objId ≠ 0).length < 32 * otsObjIdArrayMax →
    ∀ allocs i size uuid, (oacpCreateOtsObject allocs i size uuid s).1 ≠ .operFail
  internalId : (s.objQueue.filter fun o => o.objId ≠ 0).length < 32 * otsObjIdArrayMax →
    ∀ param, param.uuid ≠ none →
      (createOtsObjectInternal { object := true, buf := true } param s).1 ≠ none

def Op.Ok (s : Serv) : Op → Prop
  | .oacpDelete i => ∀ o ∈ currentObj i s, o.objProps.testBit objPropDeleteBitNum = true →
    o.objId = 0
  | .deleteInternal objId => ∀ o ∈ s.objQueue, o.objId = objId → objId = 0
  | _ => True

structure Inv (s : Serv) : Prop where
  length : s.idArray.length = otsObjIdArrayMax
  ids : (s.objQueue.map ObjectCb.objId).Nodup
  ptrs : (s.objQueue.map ObjectCb.ptr).Nodup
  ptr_lt : ∀ o ∈ s.objQueue, o.ptr < s.nextPtr
  zero_or : ∀ o ∈ s.objQueue, o.objId = 0 ∨ otsObjIdBase ≤ o.objId
  bits : ∀ n, bit s.idArray n = true ↔ ∃ o ∈ s.objQueue, o.objId = otsObjIdBase + n

theorem Inv.congr (h : Inv s) (hobj : s'.objQueue = s.objQueue)
    (hlen : s'.idArray.length = s.idArray.length) (hbits : ∀ n, bit s'.idArray n = bit s.idArray n)
    (hptr : s'.nextPtr = s.nextPtr) : Inv s' where
  length := by rw [hlen, h.length]
  ids := by rw [hobj]; exact h.ids
  ptrs := by rw [hobj]; exact h.ptrs
  ptr_lt := by rw [hobj, hptr]; exact h.ptr_lt
  zero_or := by rw [hobj]; exact h.zero_or
  bits := fun n => by rw [hbits, hobj]; exact h.bits n

theorem Inv.create (h : Inv s)
    (hobj : s'.objQueue = s.objQueue ++ [object]) (hptr : object.ptr = s.nextPtr)
    (hnext : s'.nextPtr = s.nextPtr + 1) (hfree : bit s.idArray n = false)
    (hid : object.objId = otsObjIdBase + n) (hlen : s'.idArray.length = s.idArray.length)
    (hbits : ∀ m, bit s'.idArray m = (decide (m = n) || bit s.idArray m)) : Inv s' := by
  have hnew : ∀ o ∈ s.objQueue, o.objId ≠ object.objId := by
    intro o ho heq
    have hset := (h.bits n).mpr ⟨o, ho, by rw [heq, hid]⟩
    rw [hfree] at hset
    contradiction
  constructor
  . rw [hlen, h.length]
  . rw [hobj, map_append, map_singleton, nodup_append]
    refine ⟨h.ids, nodup_singleton _, ?_⟩
    intro id hmem id' hmem'
    obtain ⟨o, ho, rfl⟩ := mem_map.mp hmem
    rw [mem_singleton.mp hmem']
    exact hnew o ho
  . rw [hobj, map_append, map_singleton, nodup_append]
    refine ⟨h.ptrs, nodup_singleton _, ?_⟩
    intro p hmem p' hmem'
    obtain ⟨o, ho, rfl⟩ := mem_map.mp hmem
    rw [mem_singleton.mp hmem', hptr]
    exact Nat.ne_of_lt (h.ptr_lt o ho)
  . intro o ho
    rw [hobj, mem_append, mem_singleton] at ho
    rcases ho with ho | rfl
    . exact hnext ▸ Nat.lt_succ_of_lt (h.ptr_lt o ho)
    . omega
  . intro o ho
    rw [hobj, mem_append, mem_singleton] at ho
    rcases ho with ho | rfl
    . exact h.zero_or o ho
    . exact .inr (by omega)
  . intro m
    rw [hbits, hobj]
    simp only [Bool.or_eq_true, decide_eq_true_eq, h.bits m, mem_append, mem_singleton]
    constructor
    . rintro (rfl | ⟨o, ho, heq⟩)
      . exact ⟨object, .inr rfl, hid⟩
      . exact ⟨o, .inl ho, heq⟩
    . rintro ⟨o, ho | rfl, heq⟩
      . exact .inr ⟨o, ho, heq⟩
      . exact .inl (by omega)

theorem Inv.delete (h : Inv s) (hmem : object ∈ s.objQueue)
    (hobj : s'.objQueue = s.objQueue.eraseP fun o => o.ptr = object.ptr)
    (hid : object.objId = 0) (hidArray : s'.idArray = s.idArray)
    (hnext : s'.nextPtr = s.nextPtr) : Inv s' := by
  have hsub : s'.objQueue.Sublist s.objQueue := hobj ▸ eraseP_sublist
  constructor
  . rw [hidArray, h.length]
  . exact h.ids.sublist (hsub.map _)
  . exact h.ptrs.sublist (hsub.map _)
  . exact fun o ho => hnext ▸ h.ptr_lt o (hsub.subset ho)
  . exact fun o ho => h.zero_or o (hsub.subset ho)
  . intro n
    rw [hidArray, h.bits n]
    constructor
    . rintro ⟨o, ho, heq⟩
      refine ⟨o, ?_, heq⟩
      have hne : o.ptr ≠ object.ptr := by
        intro hptr
        have hsame : o = object := inj_on_of_nodup_map h.ptrs ho hmem hptr
        rw [hsame, hid] at heq
        unfold otsObjIdBase at heq
        omega
      rw [hobj]
      exact (mem_eraseP_of_neg (by simpa using hne)).mpr ho
    . rintro ⟨o, ho, heq⟩
      exact ⟨o, hsub.subset ho, heq⟩

theorem freeObjId_length (id : Nat) (idArray : List Word) :
    (freeObjId id idArray).length = idArray.length := List.length_modify ..

theorem inv_freeObjId (h : Inv s) (hid : (allocObjId 0 s.idArray).1 ≠ 0) :
    Inv { s with
      idArray := freeObjId (allocObjId 0 s.idArray).1 (allocObjId 0 s.idArray).2 } := by
  rcases allocObjId_spec 0 s.idArray with ⟨hzero, -, -⟩ | ⟨n, -, hfree, hn, hlen, hbits⟩
  . contradiction
  . rw [Nat.zero_mul, Nat.add_zero] at hn
    refine h.congr rfl ?_ ?_ rfl
    . rw [freeObjId_length, hlen]
    . intro m
      rw [hn, freeObjId_bit, hbits]
      by_cases hm : m = n
      . simp [hm, hfree]
      . simp [hm]

theorem inv_noId (h : Inv s) (hid : (allocObjId 0 s.idArray).1 = 0) :
    Inv { s with idArray := (allocObjId 0 s.idArray).2 } := by
  rcases allocObjId_spec 0 s.idArray with ⟨-, hsame, -⟩ | ⟨n, -, -, hn, -, -⟩
  . rw [hsame]
    exact h
  . unfold otsObjIdBase at hn
    omega

theorem inv_newObject (h : Inv s)
    (hid : (allocObjId 0 s.idArray).1 ≠ 0)
    (hobj : s'.objQueue = s.objQueue ++ [object]) (hptr : object.ptr = s.nextPtr)
    (hnext : s'.nextPtr = s.nextPtr + 1) (hobjId : object.objId = (allocObjId 0 s.idArray).1)
    (hidArray : s'.idArray = (allocObjId 0 s.idArray).2) : Inv s' := by
  rcases allocObjId_spec 0 s.idArray with ⟨hzero, -, -⟩ | ⟨n, -, hfree, hn, hlen, hbits⟩
  . contradiction
  . rw [Nat.zero_mul, Nat.add_zero] at hn
    exact h.create hobj hptr hnext hfree (hobjId.trans hn) (by rw [hidArray, hlen])
      (by rw [hidArray]; exact hbits)

theorem exists_id (h : Inv s)
    (hfew : (s.objQueue.filter fun o => o.objId ≠ 0).length < 32 * otsObjIdArrayMax) :
    (allocObjId 0 s.idArray).1 ≠ 0 := by
  rcases allocObjId_spec 0 s.idArray with ⟨-, -, hfull⟩ | ⟨n, -, -, hn, -, -⟩
  . rw [h.length] at hfull
    have hsub : (List.range (32 * otsObjIdArrayMax)).map (otsObjIdBase + ·) ⊆
        (s.objQueue.filter fun o => o.objId ≠ 0).map ObjectCb.objId := by
      intro id hid
      obtain ⟨n, hn, rfl⟩ := mem_map.mp hid
      obtain ⟨o, ho, heq⟩ := (h.bits n).mp (hfull n (mem_range.mp hn))
      have hpos : o.objId ≠ 0 := by
        rw [heq]
        unfold otsObjIdBase
        omega
      exact mem_map.mpr ⟨o, mem_filter.mpr ⟨ho, by simpa using hpos⟩, heq⟩
    have hnodup : ((List.range (32 * otsObjIdArrayMax)).map (otsObjIdBase + ·)).Nodup :=
      nodup_range.map fun _ _ h => Nat.add_left_cancel h
    have hle := (hnodup.subperm hsub).length_le
    rw [length_map, length_range, length_map] at hle
    omega
  . unfold otsObjIdBase at hn
    omega

theorem inv_setCurrent (i : Nat) (ptr : Option Nat) (h : Inv s) : Inv (setCurrent i ptr s) :=
  h.congr rfl rfl (fun _ => rfl) rfl

theorem inv_oacpCreate (allocs : Allocs) (i size : Nat) (uuid : Option (List UInt8))
    (h : Inv s) : Inv (oacpCreateOtsObject allocs i size uuid s).2 := by
  cases uuid with
  | none => exact h
  | some uuid =>
    unfold oacpCreateOtsObject
    simp only
    split_ifs with hobject hid hbuf
    . exact h
    . exact inv_noId h hid
    . exact inv_freeObjId h hid
    . exact inv_setCurrent i _ (inv_newObject h hid rfl rfl rfl rfl rfl)

theorem inv_createInternal (allocs : Allocs) (param : OtsObjParam) (h : Inv s) :
    Inv (createOtsObjectInternal allocs param s).2 := by
  unfold createOtsObjectInternal
  cases param.uuid with
  | none => exact h
  | some uuid =>
    simp only
    split_ifs with hobject hid
    . exact h
    . exact inv_noId h hid
    . cases internalBuf allocs param with
      | none => exact inv_freeObjId h hid
      | some allocBuf => exact inv_newObject h hid rfl rfl rfl rfl rfl

theorem inv_oacpDelete (i : Nat) (h : Inv s) (hok : (Op.oacpDelete i).Ok s) :
    Inv (oacpDelete i s).2 := by
  unfold oacpDelete
  cases hcur : currentObj i s with
  | none => exact h
  | some object =>
    simp only
    split_ifs with hprop
    . have hmem : object ∈ s.objQueue := by
        unfold currentObj at hcur
        obtain ⟨cl, -, hcur⟩ := Option.bind_eq_some_iff.mp hcur
        obtain ⟨ptr, -, hcur⟩ := Option.bind_eq_some_iff.mp hcur
        exact mem_of_find?_eq_some hcur
      apply inv_setCurrent
      exact h.delete hmem rfl (hok object hcur hprop) rfl rfl
    . exact h

theorem inv_deleteInternal (objId : Nat) (h : Inv s) (hok : (Op.deleteInternal objId).Ok s) :
    Inv (deleteOtsObjectInternal objId s) := by
  unfold deleteOtsObjectInternal
  cases hfind : s.objQueue.find? fun o => o.objId = objId with
  | none => exact h
  | some object =>
    have hmem := mem_of_find?_eq_some hfind
    have hid : object.objId = objId := by simpa using find?_some hfind
    exact h.delete hmem rfl (hid.trans (hok object hmem hid)) rfl rfl

theorem inv_step (s : Serv) (op : Op) (h : Inv s) (hok : op.Ok s) : Inv (step s op) := by
  cases op with
  | oacpCreate allocs i size uuid => exact inv_oacpCreate allocs i size uuid h
  | oacpDelete i => exact inv_oacpDelete i h hok
  | createInternal allocs param => exact inv_createInternal allocs param h
  | deleteInternal objId => exact inv_deleteInternal objId h hok
  | select i ptr => exact inv_setCurrent i ptr h

theorem inv_init (allocated : Bool) (connHandles : List Nat) :
    Inv (init allocated connHandles) := by
  have hbit : ∀ n, bit (List.replicate otsObjIdArrayMax 0) n = false := by
    intro n
    unfold bit
    split
    . next word hword =>
      rw [eq_of_mem_replicate (mem_of_getElem? hword)]
      exact BitVec.getLsbD_zero
    . rfl
  have hobj : ∀ o ∈ (init allocated connHandles).objQueue, o = directoryListing := by
    cases allocated
    . exact nofun
    . exact fun o ho => mem_singleton.mp ho
  constructor
  . rfl
  . cases allocated
    . exact nodup_nil
    . exact nodup_singleton _
  . cases allocated
    . exact nodup_nil
    . exact nodup_singleton _
  . intro o ho
    rw [hobj o ho]
    exact Nat.one_pos
  . intro o ho
    rw [hobj o ho]
    exact .inl rfl
  . intro n
    constructor
    . intro h
      rw [show (init allocated connHandles).idArray = List.replicate otsObjIdArrayMax 0 from rfl,
        hbit] at h
      contradiction
    . rintro ⟨o, ho, heq⟩
      rw [hobj o ho] at heq
      have hzero : directoryListing.objId = 0 := rfl
      unfold otsObjIdBase at heq
      omega

theorem Inv.sound (h : Inv s) : Sound s where
  distinct := h.ids
  bits := fun n _ => h.bits n
  oacpId := by
    intro hfew allocs i size uuid
    have hid := exists_id h hfew
    cases uuid with
    | none => exact nofun
    | some uuid =>
      unfold oacpCreateOtsObject
      simp only [hid, if_false]
      split_ifs <;> exact nofun
  internalId := by
    intro hfew param huuid
    have hid := exists_id h hfew
    obtain ⟨uuid, huuid⟩ := Option.ne_none_iff_exists'.mp huuid
    unfold createOtsObjectInternal internalBuf
    simp only [huuid, hid, if_false, Bool.true_eq_false, if_true]
    split_ifs <;> exact nofun

theorem objIds_sound (allocated : Bool) (connHandles : List Nat) (ops : List Op)
    (hok : Run.Along step (fun s op => op.Ok s) (init allocated connHandles) ops) :
    Sound (Run.exec step (init allocated connHandles) ops) :=
  (Run.exec_inv inv_step _ ops (inv_init allocated connHandles) hok).sound

def createOne : List Op := [.oacpCreate { object := true, buf := true } 0 4 (some [0x01, 0x2A])]

theorem objIds_sound_createOne : Sound (Run.exec step (init true [0x10]) createOne) :=
  objIds_sound true [0x10] createOne ⟨trivial, trivial⟩

theorem not_objIds_sound :
    ¬ ∀ (allocated : Bool) (connHandles : List Nat) (ops : List Op),
      Sound (Run.exec step (init allocated connHandles) ops) := by
  intro h
  have hsound := h true [0x10] (createOne ++ [.oacpDelete 0])
  have hbit := (hsound.bits 0 (by decide)).mp (by decide)
  revert hbit
  decide

end OtsObjs
