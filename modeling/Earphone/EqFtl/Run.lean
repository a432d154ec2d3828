import Earphone.EqFtl.Store

/-!
This module contains the runs of the storage of the equalizer.
-/

namespace EqFtl

open Scan Bond List

structure Write where
  env : Env
  offset : Nat
  buf : List UInt8

def Write.Allowed (p : Partition) (w : Write) : Prop :=
  w.offset + w.buf.length ≤ p.size ∧ w.env.heap ≠ none

def writeAll (p : Partition) : Flash → List Write → Except Stuck (List Nat × Flash)
  | flash, [] => .ok ([], flash)
  | flash, w :: ws => do
    let r ← partitionWrite p w.env flash w.offset w.buf
    let rest ← writeAll p r.2 ws
    return (r.1 :: rest.1, rest.2)

/--
The bytes that are known after the writes that returned 0, without any blocks.
-/
def known (mem : Flash) : List Write → List Nat → Flash
  | w :: ws, ret :: rets => known (if ret = 0 then mem.save w.offset w.buf else mem) ws rets
  | _, _ => mem

structure Holds (p : Partition) (flash mem : Flash) : Prop where
  blockwise : Blockwise p flash
  byte : ∀ o < p.size, ∀ b, mem o = some b → flash (p.start + o) = some b

section

variable {p : Partition} {env : Env} {flash mem : Flash} {offset size : Nat} {w : Write}
variable {buf data : List UInt8}

theorem Holds.save (h : Holds p flash mem) (hin : w.offset + w.buf.length ≤ p.size)
    (hm : Merged flash (p.start + newOffset w.offset) w.offset w.buf data) :
    Holds p (flash.save (p.start + newOffset w.offset) data) (mem.save w.offset w.buf) := by
  obtain ⟨-, hroom, -, -⟩ := newLen_spec hin
  have hle := @newOffset_le w.offset
  refine ⟨save_blockwise hin h.blockwise hm, fun o ho b hb => ?_⟩
  rw [Flash.save] at hb
  rw [save_get hm]
  split at hb
  . next hc => rwa [if_pos ⟨hc.1, hc.2, by omega, by omega⟩]
  . next hc =>
    have hflash := h.byte o ho b hb
    rw [if_neg fun hc' => hc ⟨hc'.1, hc'.2.1⟩, content, hflash]
    split <;> rfl

theorem Holds.write (h : Holds p flash mem) (hw : w.Allowed p) :
    ∃ ret flash', partitionWrite p w.env flash w.offset w.buf = .ok (ret, flash') ∧
      Holds p flash' (if ret = 0 then mem.save w.offset w.buf else mem) := by
  obtain ⟨ret, flash', hok, hkept, hsaved⟩ := write_ok hw.1 h.blockwise hw.2
  refine ⟨ret, flash', hok, ?_⟩
  split
  . next hret =>
    obtain ⟨data, rfl, hm⟩ := hsaved hret
    exact h.save hw.1 hm
  . next hret =>
    rw [hkept hret]
    exact h

theorem Holds.writeAll {ws : List Write} (h : Holds p flash mem) (hws : ∀ w ∈ ws, w.Allowed p) :
    ∃ rets flash', writeAll p flash ws = .ok (rets, flash') ∧ rets.length = ws.length ∧
      Holds p flash' (known mem ws rets) := by
  induction ws generalizing flash mem with
  | nil => exact ⟨[], flash, rfl, rfl, h⟩
  | cons w ws ih =>
    obtain ⟨hw, hrest⟩ := forall_mem_cons.mp hws
    obtain ⟨ret, flash1, hok, hstep⟩ := h.write hw
    obtain ⟨rets, flash', hrun, hlen, hholds⟩ := ih hstep hrest
    refine ⟨ret :: rets, flash', ?_, congrArg (· + 1) hlen, hholds⟩
    rw [EqFtl.writeAll, hok]
    simp only [bind, Except.bind, hrun, pure, Except.pure]

theorem load_content (h : flash.load offset size = some data) :
    (∀ i < size, flash (offset + i) = some (content flash (offset + i))) ∧
      data = (List.range size).map fun i => content flash (offset + i) := by
  by_cases hall : ∀ i < size, flash (offset + i) = some (content flash (offset + i))
  . rw [load_map hall] at h
    exact ⟨hall, (Option.some.inj h).symm⟩
  . obtain ⟨i, hi, hne⟩ := not_forall₂.mp hall
    rw [load_eq_none hi (Option.not_isSome_iff_eq_none.mp fun hs => hne (some_content hs))] at h
    cases h

theorem load_some (hb : Blockwise p flash) (hin : offset + buf.length ≤ p.size) (hne : buf ≠ [])
    (hall : ∀ i < buf.length, (flash (p.start + (offset + i))).isSome) :
    ∃ data, flash.load (p.start + newOffset offset) (newLen offset buf.length) = some data := by
  obtain ⟨⟨n, hn⟩, -, hshort, -⟩ := newLen_spec hin
  have hoff := newOffset_eq offset
  have hpos := length_pos_iff.mpr hne
  refine ⟨_, load_map fun j hj => some_content ?_⟩
  obtain ⟨k, hk⟩ : ∃ k, k = (newOffset offset + j) / blockLen := ⟨_, rfl⟩
  -- every block that is loaded has a byte of the range
  obtain ⟨i, r, hi, hr, hir⟩ : ∃ i r, i < buf.length ∧ r < blockLen ∧
      offset + i = blockLen * k + r := by
    by_cases hle : blockLen * k ≤ offset
    . exact ⟨0, offset - blockLen * k, hpos, by unfold blockLen at *; omega, by omega⟩
    . exact ⟨blockLen * k - offset, 0, by unfold blockLen at *; omega, by decide, by omega⟩
  have hsome := hall i hi
  rw [hir, ← Nat.add_assoc, hb k r hr] at hsome
  have hblock := (hb k ((newOffset offset + j) % blockLen) (Nat.mod_lt _ (by decide))).mpr hsome
  rwa [hk, Nat.add_assoc, Nat.div_add_mod, ← Nat.add_assoc] at hblock

theorem Holds.read (h : Holds p flash mem) (hin : offset + buf.length ≤ p.size)
    (hheap : env.heap ≠ none) (hload : env.first = none) (hne : buf ≠ [])
    (hmem : mem.load offset buf.length = some data) :
    partitionRead p env flash offset buf = .ok (0, data) := by
  obtain ⟨-, hroom, -, -⟩ := newLen_spec hin
  have hle := @newOffset_le offset
  obtain ⟨hall, rfl⟩ := load_content hmem
  have hbyte : ∀ i < buf.length,
      flash (p.start + (offset + i)) = some (content mem (offset + i)) :=
    fun i hi => h.byte _ (by omega) _ (hall i hi)
  obtain ⟨data, hdata⟩ := load_some h.blockwise hin hne fun i hi => by rw [hbyte i hi]; rfl
  rw [read_eq hin hheap hload, hdata, (load_content hdata).2]
  refine congrArg (fun l => Except.ok (0, l)) (ext_getElem? ?_)
  intro j
  rw [getElem?_take, getElem?_drop, getElem?_map, getElem?_map]
  split
  . next hj =>
    have hplace : p.start + newOffset offset + (offset - newOffset offset + j) =
        p.start + (offset + j) := by omega
    rw [getElem?_range (by omega), getElem?_range hj, Option.map_some, Option.map_some, hplace,
      content, hbyte j hj]
    rfl
  . next hj => rw [getElem?_eq_none (by simpa using hj)]; rfl

theorem writes_then_read {ws : List Write} (hb : Blockwise p flash)
    (hws : ∀ w ∈ ws, w.Allowed p) :
    ∃ rets flash', writeAll p flash ws = .ok (rets, flash') ∧ rets.length = ws.length ∧
      ∀ (env : Env) (offset : Nat) (buf bytes : List UInt8), offset + buf.length ≤ p.size →
        env.heap ≠ none → env.first = none → buf ≠ [] →
          (known (fun o => flash (p.start + o)) ws rets).load offset buf.length = some bytes →
            partitionRead p env flash' offset buf = .ok (0, bytes) := by
  have hstart : Holds p flash fun o => flash (p.start + o) := ⟨hb, fun _ _ _ h => h⟩
  obtain ⟨rets, flash', hrun, hlen, hholds⟩ := hstart.writeAll hws
  exact ⟨rets, flash', hrun, hlen, fun _ _ _ _ hin hheap hload hne hmem =>
    hholds.read hin hheap hload hne hmem⟩

theorem writes_then_read_one : ∃ rets flash',
    writeAll (pool true) (fun _ => none) [⟨.fine, 67, [1, 2]⟩] = .ok (rets, flash') ∧
      ∀ bytes, (known (fun _ => none) [⟨.fine, 67, [1, 2]⟩] rets).load 67 2 = some bytes →
        partitionRead (pool true) .fine flash' 67 [0, 0] = .ok (0, bytes) := by
  obtain ⟨rets, flash', hrun, -, hread⟩ := @writes_then_read (pool true) (fun _ => none)
    [⟨.fine, 67, [1, 2]⟩] (fun _ _ _ => Iff.rfl)
    (forall_mem_singleton.mpr ⟨by decide, Option.some_ne_none _⟩)
  exact ⟨rets, flash', hrun, fun bytes =>
    hread .fine 67 [0, 0] bytes (by decide) (Option.some_ne_none _) rfl (by simp)⟩

end

end EqFtl
