import Earphone.Bond.Flash
import Earphone.Lib.Slices

/-!
This module contains the storage of the equalizer.
-/

namespace EqFtl

open Scan Slices Bond List

def blockLen : Nat := 68

def enof : Nat := 36

structure Code where
  val : Nat
  ne_zero : val ≠ 0
  ne_enof : val ≠ enof

structure Partition where
  start : Nat
  size : Nat
  fits : start + size + blockLen ≤ 65536

def eqSize (larger : Bool) : Nat := (if larger then 0x2800 else 0xC00) + 0x800

def pool (larger : Bool) : Partition := ⟨0, eqSize larger, by cases larger <;> decide⟩

structure Env where
  heap : Option (Nat → UInt8)
  first : Option Code
  last : Option Code
  save : Option Code

namespace Env

def malloc (env : Env) (n : Nat) : Option (List UInt8) := env.heap.map fun f => (List.range n).map f

def fine : Env := ⟨some fun _ => 0, none, none, none⟩

end Env

def newOffset (offset : Nat) : Nat := offset - offset % blockLen

def newLen (offset len : Nat) : Nat :=
  let l := (len + offset % blockLen) % 2 ^ 32
  if l % blockLen ≠ 0 then (l + blockLen - l % blockLen) % 2 ^ 32 else l

def ftlLoad (fault : Option Code) (flash : Flash) (offset size : Nat) : Except Nat (List UInt8) :=
  match fault with
  | some c => .error c.val
  | none =>
    match flash.load (offset % 65536) (size % 65536) with
    | some data => .ok data
    | none => .error enof

def ftlSave (fault : Option Code) (flash : Flash) (data : List UInt8) (offset : Nat) :
    Nat × Flash :=
  match fault with
  | some c => (c.val, flash)
  | none => (0, flash.save (offset % 65536) data)

def loadBlock (fault : Option Code) (flash : Flash) (data : List UInt8) (at' offset : Nat) :
    Except Stuck (Nat × List UInt8) :=
  match ftlLoad fault flash offset blockLen with
  | .ok block => do
    let data ← copyTo data at' block
    return (0, data)
  | .error ret =>
    if ret = enof then do
      let data ← copyTo data at' (List.replicate blockLen 0)
      return (0, data)
    else
      .ok (ret, data)

def loadEdge (needed : Prop) [Decidable needed] (fault : Option Code) (flash : Flash)
    (data : List UInt8) (at' offset : Nat) : Except Stuck (Nat × List UInt8) :=
  if needed then loadBlock fault flash data at' offset else .ok (0, data)

def loadEdges (p : Partition) (env : Env) (flash : Flash) (data : List UInt8) (offset len : Nat) :
    Except Stuck (Nat × List UInt8) := do
  let base := newOffset offset
  let size := newLen offset len
  let r ← loadEdge (base ≠ offset) env.first flash data 0 (base + p.start)
  if r.1 = 0 then
    loadEdge ((offset + len) % 2 ^ 32 ≠ (base + size) % 2 ^ 32) env.last flash r.2
      (size - blockLen) (base + size - blockLen + p.start)
  else
    return r

def partitionWrite (p : Partition) (env : Env) (flash : Flash) (offset : Nat) (buf : List UInt8) :
    Except Stuck (Nat × Flash) :=
  match env.malloc (newLen offset buf.length) with
  -- nothing has been stored, and `ret` is still 0
  | none => .ok (0, flash)
  | some data => do
    let r ← loadEdges p env flash data offset buf.length
    if r.1 = 0 then do
      let data ← copyTo r.2 (offset - newOffset offset) buf
      return ftlSave env.save flash data (newOffset offset + p.start)
    else
      return (r.1, flash)

def partitionRead (p : Partition) (env : Env) (flash : Flash) (offset : Nat) (buf : List UInt8) :
    Except Stuck (Nat × List UInt8) :=
  let start := newOffset offset
  let len := newLen offset buf.length
  match env.malloc len with
  | none => .ok (0, buf)
  | some _ =>
    match ftlLoad env.first flash (start + p.start) len with
    | .error ret => .ok (ret, buf)
    | .ok data => do
      let bytes ← bytesAt data (offset - start) buf.length
      return (0, bytes)

def reads (p : Partition) (flash : Flash) (offset len : Nat) : Option (List UInt8) :=
  match partitionRead p .fine flash offset (List.replicate len 0) with
  | .ok (0, bytes) => some bytes
  | _ => none

def Blockwise (p : Partition) (flash : Flash) : Prop :=
  ∀ k i, i < blockLen → ((flash (p.start + blockLen * k + i)).isSome ↔
    (flash (p.start + blockLen * k)).isSome)

def Touched (offset len o : Nat) : Prop :=
  newOffset offset ≤ o ∧ o < newOffset offset + newLen offset len
  deriving Decidable

def left (p : Partition) (flash : Flash) (offset : Nat) (buf : List UInt8) (o : Nat) :
    Option (List UInt8) :=
  if offset ≤ o ∧ o < offset + buf.length then buf[o - offset]?.map ([·])
  else if Touched offset buf.length o then some ((reads p flash o 1).getD [0])
  else reads p flash o 1

structure Stored (p : Partition) (flash flash' : Flash) (offset : Nat) (buf : List UInt8) :
    Prop where
  blockwise : Blockwise p flash'
  whole : reads p flash' offset buf.length = some buf
  byte : ∀ o < p.size, reads p flash' o 1 = left p flash offset buf o

def WriteRight (p : Partition) (env : Env) (flash : Flash) (offset : Nat) (buf : List UInt8) :
    Prop :=
  ∃ ret flash', partitionWrite p env flash offset buf = .ok (ret, flash') ∧
    (ret = 0 → Stored p flash flash' offset buf) ∧ (ret ≠ 0 → flash' = flash)

def ReadRight (p : Partition) (env : Env) (flash : Flash) (offset : Nat) (buf : List UInt8) :
    Prop :=
  ∃ ret bytes, partitionRead p env flash offset buf = .ok (ret, bytes) ∧
    (ret = 0 → reads p flash offset buf.length = some bytes)

section

variable {p : Partition} {offset len : Nat}

theorem newOffset_le : newOffset offset ≤ offset := Nat.sub_le _ _

theorem newOffset_eq (offset : Nat) : newOffset offset = blockLen * (offset / blockLen) := by
  unfold newOffset blockLen
  omega

theorem newLen_spec (hin : offset + len ≤ p.size) :
    (∃ n, newLen offset len = blockLen * n) ∧
      offset - newOffset offset + len ≤ newLen offset len ∧
      newOffset offset + newLen offset len < offset + len + blockLen ∧
      p.start + newOffset offset + newLen offset len < 65536 := by
  have hfits := p.fits
  unfold newLen newOffset blockLen at *
  dsimp only
  rw [Nat.mod_eq_of_lt (show len + offset % 68 < 2 ^ 32 by omega)]
  split
  . rw [Nat.mod_eq_of_lt (by omega)]
    exact ⟨⟨(len + offset % 68) / 68 + 1, by omega⟩, by omega, by omega, by omega⟩
  . exact ⟨⟨(len + offset % 68) / 68, by omega⟩, by omega, by omega, by omega⟩

theorem newLen_one (hin : offset + 1 ≤ p.size) : newLen offset 1 = blockLen := by
  have hspec := newLen_spec hin
  have heq := newOffset_eq offset
  unfold blockLen at *
  omega

end

section

variable {p : Partition} {env : Env} {flash : Flash} {offset size i : Nat} {f : Nat → UInt8}
variable {buf : List UInt8}

theorem load_map (h : ∀ i < size, flash (offset + i) = some (f i)) :
    flash.load offset size = some ((List.range size).map f) := by
  induction size generalizing offset f with
  | zero => rfl
  | succ size ih =>
    have hrest : flash.load (offset + 1) size = some ((List.range size).map (f ∘ Nat.succ)) := by
      refine ih fun i hi => ?_
      rw [Nat.add_assoc, Nat.add_comm 1 i]
      exact h (i + 1) (by omega)
    rw [Flash.load, show flash offset = some (f 0) from h 0 (Nat.succ_pos size), hrest, range_succ_eq_map, map_cons,
      map_map]
    rfl

theorem load_eq_none (hi : i < size) (h : flash (offset + i) = none) :
    flash.load offset size = none := by
  induction size generalizing offset i with
  | zero => omega
  | succ size ih =>
    rw [Flash.load]
    cases i with
    | zero => rw [show flash offset = none from h]; rfl
    | succ i =>
      have hrest := @ih (offset + 1) i (by omega) (by rwa [Nat.add_assoc, Nat.add_comm 1 i])
      rw [hrest]
      cases flash offset <;> rfl

theorem load_length {data : List UInt8} (h : flash.load offset size = some data) :
    data.length = size := by
  by_cases hall : ∀ i < size, flash (offset + i) = some ((flash (offset + i)).getD 0)
  . rw [load_map hall] at h
    cases h
    simp
  . obtain ⟨i, hi, hne⟩ := not_forall₂.mp hall
    rw [load_eq_none hi (by cases hf : flash (offset + i) <;> simp_all)] at h
    cases h

theorem read_eq (hin : offset + buf.length ≤ p.size) (hheap : env.heap ≠ none)
    (hload : env.first = none) :
    partitionRead p env flash offset buf =
      match flash.load (p.start + newOffset offset) (newLen offset buf.length) with
      | some data => .ok (0, (data.drop (offset - newOffset offset)).take buf.length)
      | none => .ok (enof, buf) := by
  obtain ⟨-, hroom, -, hlt⟩ := newLen_spec hin
  obtain ⟨g, hg⟩ := Option.ne_none_iff_exists'.mp hheap
  unfold partitionRead ftlLoad Env.malloc
  dsimp only
  rw [hg, hload, Option.map_some, Nat.add_comm (newOffset offset)]
  rw [Nat.mod_eq_of_lt (show p.start + newOffset offset < 65536 by omega),
    Nat.mod_eq_of_lt (show newLen offset buf.length < 65536 by omega)]
  cases hdata : flash.load (p.start + newOffset offset) (newLen offset buf.length) with
  | none => rfl
  | some data =>
    dsimp only
    rw [bytesAt, if_pos (by rw [load_length hdata]; exact hroom)]
    rfl

theorem reads_eq {len : Nat} (hin : offset + len ≤ p.size) :
    reads p flash offset len =
      (flash.load (p.start + newOffset offset) (newLen offset len)).map fun data =>
        (data.drop (offset - newOffset offset)).take len := by
  unfold reads
  rw [read_eq (by rwa [length_replicate]) (by simp [Env.fine]) rfl, length_replicate]
  cases flash.load (p.start + newOffset offset) (newLen offset len) <;> rfl

end

section

variable {p : Partition} {env : Env} {flash : Flash} {offset k o base at' : Nat}
variable {buf data : List UInt8}

def content (flash : Flash) (o : Nat) : UInt8 := (flash o).getD 0

theorem some_content (h : (flash o).isSome) : flash o = some (content flash o) := by
  unfold content
  cases hf : flash o with
  | none => rw [hf] at h; cases h
  | some b => rfl

theorem load_block (hb : Blockwise p flash) (k : Nat) :
    flash.load (p.start + blockLen * k) blockLen =
      if (flash (p.start + blockLen * k)).isSome then
        some ((List.range blockLen).map fun i => content flash (p.start + blockLen * k + i))
      else
        none := by
  split
  . next h => exact load_map fun i hi => some_content ((hb k i hi).mpr h)
  . next h =>
    exact @load_eq_none flash _ blockLen 0 (by decide) (Option.not_isSome_iff_eq_none.mp h)

theorem reads_one (hb : Blockwise p flash) (ho : o < p.size) :
    reads p flash o 1 = (flash (p.start + o)).map ([·]) := by
  rw [reads_eq (by omega), @newLen_one p o (by omega), newOffset_eq, load_block hb]
  have hmod : o % blockLen < blockLen := Nat.mod_lt _ (by decide)
  have hsome := hb (o / blockLen) (o % blockLen) hmod
  rw [Nat.add_assoc, Nat.div_add_mod] at hsome
  split
  . next h =>
    have hsub : o - blockLen * (o / blockLen) = o % blockLen := by
      unfold blockLen
      omega
    rw [some_content (hsome.mpr h), hsub, Option.map_some, Option.map_some]
    congr 1
    rw [drop_eq_getElem_cons (by simpa using hmod), take_succ_cons, take_zero,
      getElem_map, getElem_range, Nat.add_assoc, Nat.div_add_mod]
  . next h =>
    rw [Option.not_isSome_iff_eq_none.mp fun hs => h (hsome.mp hs)]
    rfl

def Right (flash : Flash) (base : Nat) (data : List UInt8) (j : Nat) : Prop :=
  data[j]? = some (content flash (base + j))

theorem copyTo_right {block : List UInt8} (hlen : block.length = blockLen)
    (hroom : at' + blockLen ≤ data.length)
    (hblock : ∀ i < blockLen, block[i]? = some (content flash (base + at' + i))) :
    ∃ data', copyTo data at' block = .ok data' ∧ data'.length = data.length ∧
      (∀ j, at' ≤ j → j < at' + blockLen → Right flash base data' j) ∧
        ∀ j, Right flash base data j → Right flash base data' j := by
  obtain ⟨data', hcopy, hlen', hget⟩ := @copyTo_spec _ data block at' (by rwa [hlen])
  have hin : ∀ j, at' ≤ j → j < at' + blockLen → Right flash base data' j := by
    intro j hle hlt
    rw [Right, hget, if_pos ⟨hle, by rwa [hlen]⟩, hblock _ (by omega)]
    congr 2
    omega
  refine ⟨data', hcopy, hlen', hin, fun j hj => ?_⟩
  by_cases h : at' ≤ j ∧ j < at' + blockLen
  . exact hin j h.1 h.2
  . rw [Right, hget, if_neg (by rwa [hlen])]
    exact hj

theorem loadBlock_right (hb : Blockwise p flash) (hbase : base + at' = p.start + blockLen * k)
    (hlt : base + at' < 65536) (hroom : at' + blockLen ≤ data.length) :
    ∃ data', loadBlock none flash data at' (base + at') = .ok (0, data') ∧
      data'.length = data.length ∧
        (∀ j, at' ≤ j → j < at' + blockLen → Right flash base data' j) ∧
          ∀ j, Right flash base data j → Right flash base data' j := by
  have hload : ftlLoad none flash (base + at') blockLen =
      if (flash (base + at')).isSome then
        .ok ((List.range blockLen).map fun i => content flash (base + at' + i))
      else
        .error enof := by
    rw [ftlLoad, Nat.mod_eq_of_lt hlt, Nat.mod_eq_of_lt (by decide), hbase, load_block hb]
    by_cases h : (flash (p.start + blockLen * k)).isSome
    . rw [if_pos h, if_pos h]
    . rw [if_neg h, if_neg h]
  rw [loadBlock, hload]
  by_cases h : (flash (base + at')).isSome
  . rw [if_pos h]
    obtain ⟨data', hcopy, hrest⟩ := @copyTo_right flash base at' data
      ((List.range blockLen).map fun i => content flash (base + at' + i)) (by simp) hroom
      fun i hi => by rw [getElem?_map, getElem?_range hi]; rfl
    exact ⟨data', by dsimp only; rw [hcopy]; rfl, hrest⟩
  . rw [if_neg h]
    obtain ⟨data', hcopy, hrest⟩ := @copyTo_right flash base at' data
      (List.replicate blockLen 0) (by simp) hroom fun i hi => by
        have hnone : ¬(flash (base + at' + i)).isSome := by
          rw [hbase] at h ⊢
          rwa [hb k i hi]
        rw [getElem?_replicate_of_lt hi, content, Option.not_isSome_iff_eq_none.mp hnone]
        rfl
    exact ⟨data', by dsimp only; rw [if_pos rfl, hcopy]; rfl, hrest⟩

theorem loadEdge_right {needed : Prop} [Decidable needed] (fault : Option Code)
    (hb : Blockwise p flash)
    (hneed : needed → base + at' = p.start + blockLen * k ∧ base + at' < 65536 ∧
      at' + blockLen ≤ data.length) :
    ∃ ret data', loadEdge needed fault flash data at' (base + at') = .ok (ret, data') ∧
      data'.length = data.length ∧
      (ret = 0 → (needed → ∀ j, at' ≤ j → j < at' + blockLen → Right flash base data' j) ∧
        ∀ j, Right flash base data j → Right flash base data' j) := by
  unfold loadEdge
  split
  . next h =>
    obtain ⟨hbase, hlt, hroom⟩ := hneed h
    cases fault with
    | none =>
      obtain ⟨data', hload, hlen, hin, hkeep⟩ := loadBlock_right hb hbase hlt hroom
      exact ⟨0, data', hload, hlen, fun _ => ⟨fun _ => hin, hkeep⟩⟩
    | some c =>
      refine ⟨c.val, data, ?_, rfl, fun h => absurd h c.ne_zero⟩
      rw [loadBlock, ftlLoad]
      dsimp only
      rw [if_neg c.ne_enof]
  . next h => exact ⟨0, data, rfl, rfl, fun _ => ⟨fun hc => absurd hc h, fun _ hj => hj⟩⟩

end

section

variable {p : Partition} {env : Env} {flash : Flash} {offset : Nat} {buf data : List UInt8}

theorem loadEdge_congr {needed : Prop} [Decidable needed] {fault : Option Code} {at' o o' : Nat}
    (h : needed → o = o') :
    loadEdge needed fault flash data at' o = loadEdge needed fault flash data at' o' := by
  unfold loadEdge
  split
  . next hn => rw [h hn]
  . rfl

theorem loadEdges_right (hin : offset + buf.length ≤ p.size) (hb : Blockwise p flash)
    (hlen : data.length = newLen offset buf.length) :
    ∃ ret data', loadEdges p env flash data offset buf.length = .ok (ret, data') ∧
      data'.length = data.length ∧
      (ret = 0 → ∀ j < data.length, j < offset - newOffset offset ∨
        offset - newOffset offset + buf.length ≤ j →
          Right flash (p.start + newOffset offset) data' j) := by
  obtain ⟨⟨n, hn⟩, hroom, hshort, hlt⟩ := newLen_spec hin
  have hoff := newOffset_eq offset
  have hmod : offset - newOffset offset < blockLen := by
    unfold blockLen at *
    omega
  obtain ⟨ret1, data1, hfirst, hlen1, hright1⟩ := @loadEdge_right p flash (offset / blockLen)
    (p.start + newOffset offset) 0 data (newOffset offset ≠ offset) _ env.first hb fun hne => by
      unfold blockLen at *
      omega
  have hneed : (offset + buf.length) % 2 ^ 32 ≠
      (newOffset offset + newLen offset buf.length) % 2 ^ 32 →
        blockLen ≤ newLen offset buf.length := by
    unfold blockLen at *
    omega
  rw [Nat.add_zero, Nat.add_comm p.start] at hfirst
  rw [loadEdges, hfirst]
  dsimp only [bind, Except.bind]
  by_cases hret : ret1 = 0
  . rw [if_pos hret, @loadEdge_congr _ _ _ _ _ _ _ (p.start + newOffset offset +
      (newLen offset buf.length - blockLen)) fun h => by have := hneed h; omega]
    obtain ⟨hin1, -⟩ := hright1 hret
    obtain ⟨ret2, data2, hlast, hlen2, hright2⟩ := @loadEdge_right p flash
      (offset / blockLen + n - 1) (p.start + newOffset offset)
      (newLen offset buf.length - blockLen) data1
      ((offset + buf.length) % 2 ^ 32 ≠ (newOffset offset + newLen offset buf.length) % 2 ^ 32) _
      env.last hb fun hne => by
        unfold blockLen at *
        omega
    refine ⟨ret2, data2, hlast, hlen2.trans hlen1, fun h j hj hout => ?_⟩
    obtain ⟨hin2, hkeep⟩ := hright2 h
    rcases hout with hbefore | hafter
    . exact hkeep j (hin1 (by omega) j (Nat.zero_le _) (by omega))
    . have hne : (offset + buf.length) % 2 ^ 32 ≠
          (newOffset offset + newLen offset buf.length) % 2 ^ 32 := by
        omega
      exact hin2 hne j (by have := hneed hne; unfold blockLen at *; omega) (by
        omega)
  . rw [if_neg hret]
    exact ⟨ret1, data1, rfl, hlen1, fun h => absurd h hret⟩

structure Merged (flash : Flash) (base offset : Nat) (buf data : List UInt8) : Prop where
  length : data.length = newLen offset buf.length
  bytes : ∀ j < data.length, data[j]? =
    if offset - newOffset offset ≤ j ∧ j < offset - newOffset offset + buf.length then
      buf[j - (offset - newOffset offset)]?
    else
      some (content flash (base + j))

theorem write_ok (hin : offset + buf.length ≤ p.size) (hb : Blockwise p flash)
    (hheap : env.heap ≠ none) :
    ∃ ret flash', partitionWrite p env flash offset buf = .ok (ret, flash') ∧
      (ret ≠ 0 → flash' = flash) ∧
      (ret = 0 → ∃ data, flash' = flash.save (p.start + newOffset offset) data ∧
        Merged flash (p.start + newOffset offset) offset buf data) := by
  obtain ⟨-, hroom, -, hlt⟩ := newLen_spec hin
  obtain ⟨g, hg⟩ := Option.ne_none_iff_exists'.mp hheap
  have hmalloc : env.malloc (newLen offset buf.length) =
      some ((List.range (newLen offset buf.length)).map g) := by
    rw [Env.malloc, hg]
    rfl
  obtain ⟨ret, data, hload, hlen, hright⟩ := @loadEdges_right p env flash offset buf
    ((List.range (newLen offset buf.length)).map g) hin hb (by simp)
  rw [length_map, length_range] at hlen hright
  obtain ⟨data', hcopy, hlen', hget⟩ :=
    @copyTo_spec _ data buf (offset - newOffset offset) (by omega)
  rw [partitionWrite, hmalloc]
  dsimp only
  rw [hload]
  dsimp only [bind, Except.bind]
  by_cases hret : ret = 0
  . rw [if_pos hret, hcopy]
    rw [Nat.add_comm _ p.start]
    cases env.save with
    | some c => exact ⟨c.val, flash, rfl, fun _ => rfl, fun h => absurd h c.ne_zero⟩
    | none =>
      have hsave : ftlSave none flash data' (p.start + newOffset offset) =
          (0, flash.save (p.start + newOffset offset) data') := by
        rw [← Nat.mod_eq_of_lt (show p.start + newOffset offset < 65536 by omega), ftlSave,
          Nat.mod_mod]
      refine ⟨0, _, congrArg Except.ok hsave, fun h => absurd rfl h,
        fun _ => ⟨data', rfl, hlen'.trans hlen, ?_⟩⟩
      intro j hj
      rw [hget]
      split
      . rfl
      . next hout => exact hright hret j (by omega) (by omega)
  . rw [if_neg hret]
    exact ⟨ret, flash, rfl, fun _ => rfl, fun h => absurd h hret⟩

variable {base : Nat}

theorem save_get (hm : Merged flash (p.start + newOffset offset) offset buf data) (o : Nat) :
    flash.save (p.start + newOffset offset) data (p.start + o) =
      if offset ≤ o ∧ o < offset + buf.length ∧ Touched offset buf.length o then buf[o - offset]?
      else if Touched offset buf.length o then some (content flash (p.start + o))
      else flash (p.start + o) := by
  have hle := @newOffset_le offset
  have hlen := hm.length
  by_cases ht : Touched offset buf.length o
  . obtain ⟨hlo, hhi⟩ := ht
    rw [Flash.save_of ⟨by omega, by omega⟩, hm.bytes _ (by omega)]
    split
    . next hin =>
      rw [if_pos ⟨by omega, by omega, hlo, hhi⟩]
      congr 1
      omega
    . next hout =>
      rw [if_neg (by omega), if_pos ⟨hlo, hhi⟩]
      congr 2
      omega
  . rw [if_neg fun h => ht h.2.2, if_neg ht]
    exact Flash.save_of_not fun h => ht ⟨by omega, by omega⟩

section

variable (hin : offset + buf.length ≤ p.size) (hb : Blockwise p flash)
  (hm : Merged flash (p.start + newOffset offset) offset buf data)

include hin hb hm

theorem save_blockwise : Blockwise p (flash.save (p.start + newOffset offset) data) := by
  obtain ⟨⟨n, hn⟩, -⟩ := newLen_spec hin
  have hoff := newOffset_eq offset
  have hlen := hm.length
  have hsome : ∀ o, (flash.save (p.start + newOffset offset) data (p.start + o)).isSome ↔
      Touched offset buf.length o ∨ (flash (p.start + o)).isSome := by
    intro o
    by_cases ht : Touched offset buf.length o
    . obtain ⟨hlo, hhi⟩ := ht
      rw [Flash.save_of ⟨by omega, by omega⟩, getElem?_eq_getElem (by omega)]
      exact ⟨fun _ => .inl ⟨hlo, hhi⟩, fun _ => rfl⟩
    . rw [Flash.save_of_not fun h => ht ⟨by omega, by omega⟩]
      exact ⟨.inr, fun h => h.resolve_left ht⟩
  intro k i hi
  have htouched : Touched offset buf.length (blockLen * k + i) ↔
      Touched offset buf.length (blockLen * k) := by
    unfold Touched blockLen at *
    omega
  rw [Nat.add_assoc, hsome, hsome, htouched, ← Nat.add_assoc, hb k i hi]

theorem stored_of_merged :
    Stored p flash (flash.save (p.start + newOffset offset) data) offset buf := by
  obtain ⟨-, hroom, -, -⟩ := newLen_spec hin
  have hle := @newOffset_le offset
  have hlen := hm.length
  have hblock := save_blockwise hin hb hm
  refine ⟨hblock, ?_, fun o ho => ?_⟩
  . rw [reads_eq hin, ← hlen, Flash.load_save, Option.map_some]
    congr 1
    apply ext_getElem?
    intro j
    rw [getElem?_take, getElem?_drop]
    split
    . next hj =>
      rw [hm.bytes _ (by omega), if_pos ⟨by omega, by omega⟩]
      congr 1
      omega
    . next hj => rw [getElem?_eq_none (by omega)]
  . rw [reads_one hblock ho, save_get hm, left, reads_one hb ho]
    by_cases hwritten : offset ≤ o ∧ o < offset + buf.length
    . rw [if_pos hwritten, if_pos ⟨hwritten.1, hwritten.2, by omega, by omega⟩]
    . rw [if_neg hwritten, if_neg fun h => hwritten ⟨h.1, h.2.1⟩]
      split
      . unfold content
        cases flash (p.start + o) <;> rfl
      . rfl

end

end

section

variable {p : Partition} {env : Env} {flash : Flash} {offset : Nat} {buf : List UInt8}

theorem write_right_iff (hin : offset + buf.length ≤ p.size) (hb : Blockwise p flash) :
    WriteRight p env flash offset buf ↔ env.heap ≠ none ∨ Stored p flash flash offset buf := by
  by_cases hheap : env.heap = none
  . have hwrite : partitionWrite p env flash offset buf = .ok (0, flash) := by
      rw [partitionWrite, Env.malloc, hheap]
      rfl
    constructor
    . rintro ⟨ret, flash', hok, hstored, -⟩
      rw [hwrite] at hok
      cases hok
      exact .inr (hstored rfl)
    . intro h
      exact ⟨0, flash, hwrite, fun _ => h.resolve_left (absurd hheap), fun h => absurd rfl h⟩
  . refine ⟨fun _ => .inl hheap, fun _ => ?_⟩
    obtain ⟨ret, flash', hok, hkept, hsaved⟩ := write_ok hin hb hheap
    refine ⟨ret, flash', hok, fun hret => ?_, hkept⟩
    obtain ⟨data, rfl, hm⟩ := hsaved hret
    exact stored_of_merged hin hb hm

theorem read_right_iff (hin : offset + buf.length ≤ p.size) :
    ReadRight p env flash offset buf ↔
      env.heap ≠ none ∨ reads p flash offset buf.length = some buf := by
  by_cases hheap : env.heap = none
  . have hread : partitionRead p env flash offset buf = .ok (0, buf) := by
      rw [partitionRead, Env.malloc, hheap]
      rfl
    constructor
    . rintro ⟨ret, bytes, hok, hreads⟩
      rw [hread] at hok
      cases hok
      exact .inr (hreads rfl)
    . intro h
      exact ⟨0, buf, hread, fun _ => h.resolve_left (absurd hheap)⟩
  . refine ⟨fun _ => .inl hheap, fun _ => ?_⟩
    cases hload : env.first with
    | some c =>
      obtain ⟨g, hg⟩ := Option.ne_none_iff_exists'.mp hheap
      refine ⟨c.val, buf, ?_, fun h => absurd h c.ne_zero⟩
      rw [partitionRead, Env.malloc, hg, hload]
      rfl
    | none =>
      have hread := @read_eq p env flash offset buf hin hheap hload
      rw [ReadRight, hread, reads_eq hin]
      cases flash.load (p.start + newOffset offset) (newLen offset buf.length) with
      | none => exact ⟨enof, buf, rfl, fun h => absurd h (by decide)⟩
      | some data => exact ⟨0, _, rfl, fun _ => rfl⟩

theorem partition_stores_iff (hin : offset + buf.length ≤ p.size) (hb : Blockwise p flash) :
    (WriteRight p env flash offset buf ↔ env.heap ≠ none ∨ Stored p flash flash offset buf) ∧
      (ReadRight p env flash offset buf ↔
        env.heap ≠ none ∨ reads p flash offset buf.length = some buf) :=
  ⟨write_right_iff hin hb, read_right_iff hin⟩

theorem partition_stores_one :
    (WriteRight (pool true) .fine (fun _ => none) 3 [7] ↔
      Env.fine.heap ≠ none ∨ Stored (pool true) (fun _ => none) (fun _ => none) 3 [7]) ∧
      (ReadRight (pool true) .fine (fun _ => none) 3 [7] ↔
        Env.fine.heap ≠ none ∨ reads (pool true) (fun _ => none) 3 1 = some [7]) :=
  partition_stores_iff (by decide) fun _ _ _ => Iff.rfl

theorem not_partition_stores :
    ¬∀ (p : Partition) (env : Env) (flash : Flash) (offset : Nat) (buf : List UInt8),
      offset + buf.length ≤ p.size → Blockwise p flash → WriteRight p env flash offset buf := by
  intro h
  obtain ⟨ret, flash', hok, hstored, -⟩ := h (pool true) ⟨none, none, none, none⟩ (fun _ => none) 3
    [7] (by decide) fun _ _ _ => Iff.rfl
  cases hok
  exact absurd (hstored rfl).whole (by decide)

end

end EqFtl
