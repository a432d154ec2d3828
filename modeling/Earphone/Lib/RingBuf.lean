import Earphone.Lib.Slices

/-!
This module contains a ring of cells with a count and two indices.
-/

open Scan List

structure RingBuf (α : Type) where
  addr : List α
  count : Nat
  writeIdx : Nat
  readIdx : Nat
  deriving DecidableEq

namespace RingBuf

variable {α : Type}

def size (r : RingBuf α) : Nat := r.addr.length

def init (addr : List α) : RingBuf α := { addr, count := 0, writeIdx := 0, readIdx := 0 }

def wrap (size idx : Nat) : Nat := if idx = size then 0 else idx

def put (m : Nat) (r : RingBuf α) (data : List α) : Except Stuck (RingBuf α) :=
  if (r.writeIdx + data.length) % m ≤ r.size then do
    let addr ← Slices.copyTo r.addr r.writeIdx data
    let idx := (r.writeIdx + data.length) % m
    .ok { r with addr, count := (r.count + data.length) % m, writeIdx := wrap r.size idx }
  else do
    let temp := (r.size + (m - r.writeIdx)) % m
    let addr ← Slices.copyTo r.addr r.writeIdx (data.take temp)
    let addr ← Slices.copyTo addr 0 (data.drop temp)
    .ok { r with addr, count := (r.count + data.length) % m, writeIdx := data.length - temp }

def putOne (m : Nat) (r : RingBuf α) (c : α) : Except Stuck (RingBuf α) := do
  let addr ← Slices.copyTo r.addr r.writeIdx [c]
  let idx := (r.writeIdx + 1) % m
  .ok { r with addr, writeIdx := wrap r.size idx, count := (r.count + 1) % m }

def get (m : Nat) (r : RingBuf α) : Except Stuck (Option α × RingBuf α) :=
  if r.count = 0 then .ok (none, r)
  else
    match r.addr[r.readIdx]? with
    | none => .error .outside
    | some c =>
      let idx := (r.readIdx + 1) % m
      .ok (some c, { r with readIdx := wrap r.size idx, count := r.count - 1 })

def cellsAt (addr : List α) (start n : Nat) : Except Stuck (List α) :=
  if start + n ≤ addr.length then .ok ((addr.drop start).take n) else .error .outside

def chunk (m : Nat) (r : RingBuf α) : Option (Nat × Nat) :=
  if r.count = 0 then none
  else if r.size < (r.readIdx + r.count) % m then some (r.readIdx, r.size - r.readIdx)
  else some (r.readIdx, r.count)

def release (m : Nat) (r : RingBuf α) (n : Nat) : RingBuf α :=
  { r with
    count := (r.count + (m - n)) % m
    readIdx := wrap r.size ((r.readIdx + n) % m) }

def drain (m : Nat) (r : RingBuf α) : Except Stuck (List (List α) × RingBuf α) :=
  if r.count = 0 then .ok ([], r)
  else if (r.readIdx + r.count) % m ≤ r.size then do
    let part ← cellsAt r.addr r.readIdx r.count
    let idx := (r.readIdx + r.count) % m
    .ok ([part], { r with readIdx := wrap r.size idx, count := 0 })
  else do
    let temp := r.size - r.readIdx
    let first ← cellsAt r.addr r.readIdx temp
    let second ← cellsAt r.addr 0 (r.count - temp)
    .ok ([first, second], { r with readIdx := r.count - temp, count := 0 })

def contents (r : RingBuf α) : List α := (r.addr.drop r.readIdx ++ r.addr).take r.count

structure Wf (r : RingBuf α) : Prop where
  count_le : r.count ≤ r.size
  read_lt : r.readIdx < r.size ∨ r.readIdx = 0 ∧ r.size = 0
  write_eq : r.writeIdx = (r.readIdx + r.count) % r.size

instance (r : RingBuf α) : Decidable r.Wf :=
  decidable_of_iff (r.count ≤ r.size ∧ (r.readIdx < r.size ∨ r.readIdx = 0 ∧ r.size = 0) ∧
    r.writeIdx = (r.readIdx + r.count) % r.size)
    ⟨fun h => ⟨h.1, h.2.1, h.2.2⟩, fun h => ⟨h.1, h.2, h.3⟩⟩

variable {m : Nat} {r : RingBuf α}

theorem wf_init (addr : List α) : (init addr).Wf where
  count_le := Nat.zero_le _
  read_lt := by
    by_cases h : addr = []
    . exact .inr ⟨rfl, by simp [init, size, h]⟩
    . exact .inl (length_pos_iff.mpr h)
  write_eq := by simp [init]

theorem Wf.read_le (h : r.Wf) : r.readIdx ≤ r.size := by
  cases h.read_lt with
  | inl h => omega
  | inr h => omega

theorem Wf.write_cases (h : r.Wf) :
    r.readIdx + r.count < r.size ∧ r.writeIdx = r.readIdx + r.count ∨
      r.size ≤ r.readIdx + r.count ∧ r.writeIdx = r.readIdx + r.count - r.size := by
  have hle := h.count_le
  have hwrite := h.write_eq
  cases h.read_lt with
  | inr h0 => rw [h0.2, Nat.mod_zero] at hwrite; omega
  | inl hlt =>
    by_cases hw : r.readIdx + r.count < r.size
    . rw [Nat.mod_eq_of_lt hw] at hwrite
      exact .inl ⟨hw, hwrite⟩
    . rw [Nat.mod_eq_sub_mod (by omega), Nat.mod_eq_of_lt (by omega)] at hwrite
      exact .inr ⟨by omega, hwrite⟩

theorem mod_eq_of_cases {size idx sum : Nat} (hidx : idx < size ∨ idx = 0 ∧ size = 0)
    (h : sum = idx ∨ sum = idx + size) : idx = sum % size := by
  cases hidx with
  | inr h0 =>
    rw [h0.2, Nat.mod_zero]
    omega
  | inl hlt =>
    cases h with
    | inl h => rw [h, Nat.mod_eq_of_lt hlt]
    | inr h => rw [h, Nat.add_mod_right, Nat.mod_eq_of_lt hlt]

theorem length_contents (h : r.Wf) : r.contents.length = r.count := by
  have := h.count_le
  have := h.read_le
  simp only [contents, length_take, length_append, length_drop]
  unfold size at *
  omega

def cell (r : RingBuf α) (k : Nat) : Nat :=
  if r.readIdx + k < r.size then r.readIdx + k else r.readIdx + k - r.size

theorem getElem?_contents (h : r.Wf) (k : Nat) :
    r.contents[k]? = if k < r.count then r.addr[r.cell k]? else none := by
  have := h.read_le
  unfold contents cell size at *
  rw [getElem?_take, getElem?_append, length_drop, getElem?_drop]
  split
  . by_cases hk : r.readIdx + k < r.addr.length
    . rw [if_pos (by omega), if_pos hk]
    . rw [if_neg (by omega), if_neg hk]
      congr 1
      omega
  . rfl

structure Stored (r : RingBuf α) (data addr : List α) : Prop where
  length_eq : addr.length = r.size
  old : ∀ k < r.count, addr[r.cell k]? = r.addr[r.cell k]?
  new : ∀ k < data.length, addr[r.cell (r.count + k)]? = data[k]?

theorem stored_straight (h : r.Wf) (hroom : r.count + data.length ≤ r.size)
    (hfits : r.writeIdx + data.length ≤ r.size) :
    ∃ addr, Slices.copyTo r.addr r.writeIdx data = .ok addr ∧ r.Stored data addr := by
  have hwrite := h.write_cases
  have hread := h.read_lt
  obtain ⟨addr, hcopy, hlen, hget⟩ := @Slices.copyTo_spec _ r.addr data _ hfits
  refine ⟨addr, hcopy, hlen, fun k hk => ?_, fun k hk => ?_⟩
  . rw [hget, if_neg]
    unfold cell
    split <;> omega
  . have hcell : r.cell (r.count + k) = r.writeIdx + k := by
      unfold cell
      split <;> omega
    rw [hcell, hget, if_pos (by omega), Nat.add_sub_cancel_left]

theorem stored_split (h : r.Wf) (hroom : r.count + data.length ≤ r.size)
    (hfits : r.size < r.writeIdx + data.length) :
    ∃ mid addr, Slices.copyTo r.addr r.writeIdx (data.take (r.size - r.writeIdx)) = .ok mid ∧
      Slices.copyTo mid 0 (data.drop (r.size - r.writeIdx)) = .ok addr ∧ r.Stored data addr := by
  have hwrite := h.write_cases
  have hread := h.read_lt
  have htake : (data.take (r.size - r.writeIdx)).length = r.size - r.writeIdx := by
    rw [length_take]
    omega
  have hdrop : (data.drop (r.size - r.writeIdx)).length = data.length - (r.size - r.writeIdx) :=
    length_drop
  have hsize : r.addr.length = r.size := rfl
  obtain ⟨mid, hmid, hmidLen, hmidGet⟩ := @Slices.copyTo_spec _ r.addr
    (data.take (r.size - r.writeIdx)) r.writeIdx (by omega)
  obtain ⟨addr, haddr, hlen, hget⟩ := @Slices.copyTo_spec _ mid
    (data.drop (r.size - r.writeIdx)) 0 (by omega)
  rw [htake] at hmidGet
  rw [hdrop] at hget
  refine ⟨mid, addr, hmid, haddr, hlen.trans hmidLen, fun k hk => ?_, fun k hk => ?_⟩
  . rw [hget, if_neg, hmidGet, if_neg]
    . unfold cell
      split <;> omega
    . unfold cell
      split <;> omega
  . by_cases hk' : k < r.size - r.writeIdx
    . have hcell : r.cell (r.count + k) = r.writeIdx + k := by
        unfold cell
        split <;> omega
      rw [hcell, hget, if_neg (by omega), hmidGet, if_pos (by omega), Nat.add_sub_cancel_left,
        getElem?_take, if_pos hk']
    . have hcell : r.cell (r.count + k) = k - (r.size - r.writeIdx) := by
        unfold cell
        split <;> omega
      rw [hcell, hget, if_pos (by omega), getElem?_drop]
      congr 1
      omega

theorem contents_stored (h : r.Wf) {data addr : List α} (hs : r.Stored data addr)
    (hroom : r.count + data.length ≤ r.size) {w : Nat}
    (hw : w = (r.readIdx + (r.count + data.length)) % r.size) :
    let r' : RingBuf α :=
      { addr, count := r.count + data.length, writeIdx := w, readIdx := r.readIdx }
    r'.Wf ∧ r'.contents = r.contents ++ data := by
  intro r'
  have hsize : r'.size = r.size := hs.length_eq
  have hwf : r'.Wf :=
    { count_le := by rw [hsize]; exact hroom
      read_lt := by rw [hsize]; exact h.read_lt
      write_eq := by rw [hsize]; exact hw }
  have hcell : ∀ k, r'.cell k = r.cell k := fun k => by unfold cell; rw [hsize]
  refine ⟨hwf, ext_getElem? fun k => ?_⟩
  rw [getElem?_contents hwf, hcell, getElem?_append, length_contents h, getElem?_contents h]
  by_cases hk : k < r.count
  . rw [if_pos hk, if_pos hk, if_pos (Nat.lt_add_right _ hk)]
    exact hs.old k hk
  . rw [if_neg hk]
    by_cases hk' : k < r.count + data.length
    . have hnew := hs.new (k - r.count) (by omega)
      rw [Nat.add_sub_cancel' (by omega)] at hnew
      rw [if_pos hk']
      exact hnew
    . rw [if_neg hk', getElem?_eq_none (by omega)]

theorem put_ok (h : r.Wf) {data : List α} (hroom : r.count + data.length ≤ r.size)
    (hsize : r.size < m) (hsum : r.writeIdx + data.length < m) :
    ∃ r', r.put m data = .ok r' ∧ r'.Wf ∧ r'.size = r.size ∧ r'.readIdx = r.readIdx ∧
      r'.count = r.count + data.length ∧ r'.contents = r.contents ++ data := by
  have hwrite := h.write_cases
  have hread := h.read_lt
  have hcount : (r.count + data.length) % m = r.count + data.length := Nat.mod_eq_of_lt (by omega)
  unfold put
  rw [Nat.mod_eq_of_lt hsum, hcount]
  by_cases hfits : r.writeIdx + data.length ≤ r.size
  . obtain ⟨addr, hcopy, hs⟩ := stored_straight h hroom hfits
    have hidx : wrap r.size (r.writeIdx + data.length) =
        (r.readIdx + (r.count + data.length)) % r.size := by
      apply mod_eq_of_cases <;> unfold wrap <;> split <;> omega
    obtain ⟨hwf, hcontents⟩ := contents_stored h hs hroom hidx
    rw [if_pos hfits, hcopy]
    exact ⟨_, rfl, hwf, hs.length_eq, rfl, rfl, hcontents⟩
  . obtain ⟨mid, addr, hmid, hcopy, hs⟩ := stored_split h hroom (by omega)
    have htemp : (r.size + (m - r.writeIdx)) % m = r.size - r.writeIdx := by
      have hadd : r.size + (m - r.writeIdx) = r.size - r.writeIdx + m := by omega
      rw [hadd, Nat.add_mod_right, Nat.mod_eq_of_lt (by omega)]
    have hidx : data.length - (r.size - r.writeIdx) =
        (r.readIdx + (r.count + data.length)) % r.size :=
      mod_eq_of_cases (by omega) (by omega)
    obtain ⟨hwf, hcontents⟩ := contents_stored h hs hroom hidx
    simp only [if_neg hfits, htemp, hmid, hcopy, bind, Except.bind]
    exact ⟨_, rfl, hwf, hs.length_eq, rfl, rfl, hcontents⟩

theorem putOne_ok (h : r.Wf) {c : α} (hroom : r.count < r.size) (hsize : r.size < m) :
    ∃ r', r.putOne m c = .ok r' ∧ r'.Wf ∧ r'.size = r.size ∧ r'.readIdx = r.readIdx ∧
      r'.count = r.count + 1 ∧ r'.contents = r.contents ++ [c] := by
  have hwrite := h.write_cases
  have hread := h.read_lt
  have hsum : (r.writeIdx + 1) % m = r.writeIdx + 1 := Nat.mod_eq_of_lt (by omega)
  have hput : r.putOne m c = r.put m [c] := by
    unfold put putOne
    rw [length_singleton, hsum, if_pos (by omega)]
  rw [hput]
  exact put_ok h (by rw [length_singleton]; omega) hsize
    (by rw [length_singleton]; omega)

theorem release_ok (h : r.Wf) {n : Nat} (hn : n ≤ r.count) (hfits : r.readIdx + n ≤ r.size)
    (hsize : r.size < m) :
    (r.release m n).Wf ∧ (r.release m n).count = r.count - n ∧
      (r.release m n).contents = r.contents.drop n := by
  have hle := h.count_le
  have hread := h.read_lt
  have hwrite := h.write_cases
  have hcount : (r.count + (m - n)) % m = r.count - n := by
    have hadd : r.count + (m - n) = r.count - n + m := by omega
    rw [hadd, Nat.add_mod_right, Nat.mod_eq_of_lt (by omega)]
  have hidx : (r.readIdx + n) % m = r.readIdx + n := Nat.mod_eq_of_lt (by omega)
  have hwf : (r.release m n).Wf := by
    unfold release
    rw [hcount, hidx]
    refine ⟨?_, ?_, ?_⟩
    . change r.count - n ≤ r.size
      omega
    . change wrap r.size (r.readIdx + n) < r.size ∨ wrap r.size (r.readIdx + n) = 0 ∧ r.size = 0
      unfold wrap
      split <;> omega
    . change r.writeIdx = (wrap r.size (r.readIdx + n) + (r.count - n)) % r.size
      rw [h.write_eq]
      unfold wrap
      split
      . next heq =>
        have hadd : r.readIdx + r.count = 0 + (r.count - n) + r.size := by omega
        rw [hadd, Nat.add_mod_right]
      . congr 1
        omega
  refine ⟨hwf, hcount, ext_getElem? fun k => ?_⟩
  rw [getElem?_contents hwf, getElem?_drop, getElem?_contents h]
  have hc : (r.release m n).count = r.count - n := hcount
  have hcell : n + k < r.count → (r.release m n).cell k = r.cell (n + k) := fun hk => by
    have hs : (r.release m n).size = r.size := rfl
    have hr : (r.release m n).readIdx = wrap r.size (r.readIdx + n) := by
      unfold release
      rw [hidx]
    unfold cell
    rw [hs, hr]
    unfold wrap
    split <;> split <;> split <;> omega
  rw [hc]
  by_cases hk : n + k < r.count
  . rw [if_pos (by omega), if_pos hk, hcell hk]
    rfl
  . rw [if_neg (by omega), if_neg hk]

theorem cellsAt_read {n : Nat} (hn : n ≤ r.count) (hfits : r.readIdx + n ≤ r.size) :
    cellsAt r.addr r.readIdx n = .ok (r.contents.take n) := by
  unfold cellsAt size at *
  rw [if_pos hfits]
  congr 1
  unfold contents
  rw [take_take, Nat.min_eq_left hn, take_append_of_le_length]
  rw [length_drop]
  omega

theorem chunk_ok (h : r.Wf) (hsum : r.readIdx + r.count < m)
    (hc : r.chunk m = some (a, n)) :
    a = r.readIdx ∧ 0 < n ∧ n ≤ r.count ∧ r.readIdx + n ≤ r.size := by
  have hread := h.read_lt
  have hle := h.count_le
  unfold chunk at hc
  rw [Nat.mod_eq_of_lt hsum] at hc
  split_ifs at hc
  . simp only [Option.some.injEq, Prod.mk.injEq] at hc
    omega
  . simp only [Option.some.injEq, Prod.mk.injEq] at hc
    omega

theorem get_ok (h : r.Wf) (hpos : 0 < r.count) (hsize : r.size < m) :
    ∃ c r', r.get m = .ok (some c, r') ∧ r'.Wf ∧ r'.count = r.count - 1 ∧ r'.size = r.size ∧
      r.contents = c :: r'.contents := by
  have hread := h.read_lt
  have hle := h.count_le
  have hlt : r.readIdx < r.addr.length := by unfold size at *; omega
  obtain ⟨hwf, hcount, hcontents⟩ := @release_ok _ m r h 1 hpos (by omega) hsize
  have hfirst : r.contents[0]? = some r.addr[r.readIdx] := by
    have hcell : r.cell 0 = r.readIdx := by unfold cell; split <;> omega
    rw [getElem?_contents h, if_pos hpos, hcell, getElem?_eq_getElem hlt]
  refine ⟨r.addr[r.readIdx], r.release m 1, ?_, hwf, hcount, rfl, ?_⟩
  . unfold get
    rw [if_neg (by omega), getElem?_eq_getElem hlt]
    have hc : (r.count + (m - 1)) % m = r.count - 1 := hcount
    unfold release
    rw [hc]
  . rw [hcontents]
    cases hcs : r.contents with
    | nil => rw [hcs] at hfirst; cases hfirst
    | cons c rest =>
      rw [hcs, getElem?_cons_zero, Option.some.injEq] at hfirst
      rw [hfirst]
      rfl

theorem drain_ok (h : r.Wf) (hsum : r.readIdx + r.count < m) :
    ∃ parts r', r.drain m = .ok (parts, r') ∧ r'.Wf ∧ r'.count = 0 ∧ r'.size = r.size ∧
      parts.flatten = r.contents := by
  have hread := h.read_lt
  have hle := h.count_le
  have hwrite := h.write_cases
  have hlen := length_contents h
  unfold drain
  rw [Nat.mod_eq_of_lt hsum]
  by_cases h0 : r.count = 0
  . rw [if_pos h0]
    refine ⟨[], r, rfl, h, h0, rfl, ?_⟩
    rw [eq_nil_of_length_eq_zero (by omega : r.contents.length = 0)]
    rfl
  . rw [if_neg h0]
    by_cases hfits : r.readIdx + r.count ≤ r.size
    . have hpart := cellsAt_read (Nat.le_refl _) hfits
      rw [if_pos hfits, hpart, take_of_length_le (Nat.le_of_eq hlen)]
      refine ⟨_, _, rfl, ⟨Nat.zero_le _, ?_, ?_⟩, rfl, rfl, by simp⟩
      . change wrap r.size _ < r.size ∨ wrap r.size _ = 0 ∧ r.size = 0
        unfold wrap
        split <;> omega
      . change r.writeIdx = (wrap r.size _ + 0) % r.size
        apply mod_eq_of_cases
        . omega
        . unfold wrap
          split <;> omega
    . have hfirst := @cellsAt_read _ r (r.size - r.readIdx) (by omega) (by omega)
      have hsecond : cellsAt r.addr 0 (r.count - (r.size - r.readIdx)) =
          .ok (r.contents.drop (r.size - r.readIdx)) := by
        have hsize : r.addr.length = r.size := rfl
        unfold cellsAt contents
        rw [if_pos (by omega), drop_take, drop_left' (by rw [length_drop, hsize])]
        rfl
      simp only [if_neg hfits, hfirst, hsecond, bind, Except.bind]
      refine ⟨_, _, rfl, ⟨Nat.zero_le _, ?_, ?_⟩, rfl, rfl, by simp⟩
      . change r.count - (r.size - r.readIdx) < r.size ∨ _
        omega
      . change r.writeIdx = (r.count - (r.size - r.readIdx) + 0) % r.size
        apply mod_eq_of_cases <;> omega

end RingBuf
