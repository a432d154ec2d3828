import Earphone.Console.Basic

namespace Console

open Scan List

def Op.Ok (w : World) : Op → Prop
  | .dataInd buf sent =>
    buf.bytes = [] ∨ w.console.state = .active ∧ sent = true ∧
      w.console.rx.count + buf.len ≤ w.console.rx.size ∧
      w.console.rx.writeIdx + buf.len < wordSize
  | .dataXmit len _ => ∃ part ∈ w.uart, len ≤ part.2
  | .write buf _ =>
    w.console.tx.count + buf.len < wordSize ∧ w.console.tx.writeIdx + buf.len < wordSize
  | .putChar _ sent => sent = true ∨ w.console.tx.size ≤ w.console.tx.count
  | .binaryHandle =>
    (w.console.parser = true ∨ w.console.rx.count = 0) ∧
      w.console.rx.readIdx + w.console.rx.count < wordSize
  | .task => w.console.tx.readIdx + w.console.tx.count < wordSize
  | _ => True

def Ok (w : Except Stuck World) (op : Op) : Prop :=
  match w with
  | .ok w => op.Ok w
  | .error _ => False

instance (w : World) : (op : Op) → Decidable (op.Ok w)
  | .opened | .taskStart | .setParser _ | .getChar => .isTrue trivial
  | .dataInd .. | .putChar .. => instDecidableOr
  | .dataXmit .. => inferInstanceAs (Decidable (∃ part ∈ w.uart, _))
  | .write .. | .binaryHandle => instDecidableAnd
  | .task => inferInstanceAs (Decidable (_ < _))

instance : (w : Except Stuck World) → (op : Op) → Decidable (Ok w op)
  | .ok w, op => inferInstanceAs (Decidable (op.Ok w))
  | .error _, _ => .isFalse id

structure Sound (w : World) : Prop where
  rx_count : w.console.rx.count ≤ w.console.rx.size
  tx_count : w.console.tx.count ≤ w.console.tx.size
  rx_write :
    w.console.rx.writeIdx = (w.console.rx.readIdx + w.console.rx.count) % w.console.rx.size
  tx_write :
    w.console.tx.writeIdx = (w.console.tx.readIdx + w.console.tx.count) % w.console.tx.size
  rx_bytes : w.rxGiven ++ w.console.rx.contents = w.rxTaken
  tx_bytes : w.txGiven ++ w.console.tx.contents = w.txTaken

structure Keeps (r : RingBuf UInt8) (given taken : List UInt8) : Prop where
  wf : r.Wf
  size_lt : r.size < wordSize
  bytes : given ++ r.contents = taken

structure Inv (w : World) : Prop where
  rx : Keeps w.console.rx w.rxGiven w.rxTaken
  tx : Keeps w.console.tx w.txGiven w.txTaken
  uart : ∀ part ∈ w.uart, part.1 = w.console.tx.readIdx ∧ part.2 ≤ w.console.tx.count ∧
    part.1 + part.2 ≤ w.console.tx.size ∧ w.console.txLock = true ∧ w.console.txStop = false
  stop : w.console.txStop = true → w.console.txLock = true

theorem sound_of_inv (h : Inv w) : Sound w where
  rx_count := h.rx.wf.count_le
  tx_count := h.tx.wf.count_le
  rx_write := h.rx.wf.write_eq
  tx_write := h.tx.wf.write_eq
  rx_bytes := h.rx.bytes
  tx_bytes := h.tx.bytes

section

variable {r : RingBuf UInt8} {given taken : List UInt8}

section

variable (h : Keeps r given taken)

include h

theorem Keeps.put {data : List UInt8}
    (hroom : r.count + data.length ≤ r.size) (hsum : r.writeIdx + data.length < wordSize) :
    ∃ r', r.put wordSize data = .ok r' ∧ Keeps r' given (taken ++ data) ∧ r'.size = r.size ∧
      r'.readIdx = r.readIdx ∧ r.count ≤ r'.count := by
  obtain ⟨r', hput, hwf, hsize, hread, hcount, hcontents⟩ :=
    RingBuf.put_ok h.wf hroom h.size_lt hsum
  refine ⟨r', hput, ⟨hwf, by rw [hsize]; exact h.size_lt, ?_⟩, hsize, hread, by omega⟩
  rw [hcontents, ← append_assoc, h.bytes]

theorem Keeps.putOne {c : UInt8} (hroom : r.count < r.size) :
    ∃ r', r.putOne wordSize c = .ok r' ∧ Keeps r' given (taken ++ [c]) ∧ r'.size = r.size ∧
      r'.readIdx = r.readIdx ∧ r.count ≤ r'.count := by
  obtain ⟨r', hput, hwf, hsize, hread, hcount, hcontents⟩ :=
    @RingBuf.putOne_ok _ wordSize r h.wf c hroom h.size_lt
  refine ⟨r', hput, ⟨hwf, by rw [hsize]; exact h.size_lt, ?_⟩, hsize, hread, by omega⟩
  rw [hcontents, ← append_assoc, h.bytes]

theorem Keeps.get : ∃ c r', r.get wordSize = .ok (c, r') ∧ Keeps r' (given ++ c.toList) taken := by
  by_cases h0 : r.count = 0
  . refine ⟨none, r, if_pos h0, h.wf, h.size_lt, ?_⟩
    simpa using h.bytes
  . obtain ⟨c, r', hget, hwf, _, hsize, hcontents⟩ :=
      RingBuf.get_ok h.wf (Nat.pos_of_ne_zero h0) h.size_lt
    refine ⟨some c, r', hget, hwf, by rw [hsize]; exact h.size_lt, ?_⟩
    rw [← h.bytes, hcontents]
    simp

theorem Keeps.drain (hsum : r.readIdx + r.count < wordSize) :
    ∃ parts r', r.drain wordSize = .ok (parts, r') ∧ Keeps r' (given ++ parts.flatten) taken := by
  obtain ⟨parts, r', hdrain, hwf, hcount, hsize, hparts⟩ := RingBuf.drain_ok h.wf hsum
  refine ⟨parts, r', hdrain, hwf, by rw [hsize]; exact h.size_lt, ?_⟩
  have hnil : r'.contents = [] :=
    eq_nil_of_length_eq_zero (by rw [RingBuf.length_contents hwf, hcount])
  rw [hparts, hnil, append_nil, h.bytes]

theorem Keeps.release (hn : n ≤ r.count)
    (hfits : r.readIdx + n ≤ r.size) :
    Keeps (r.release wordSize n) (given ++ r.contents.take n) taken := by
  obtain ⟨hwf, _, hcontents⟩ := RingBuf.release_ok h.wf hn hfits h.size_lt
  refine ⟨hwf, h.size_lt, ?_⟩
  rw [hcontents, append_assoc, take_append_drop, h.bytes]

end

end

theorem Inv.grow (h : Inv w) {c : TConsole} {taken : List UInt8} (hrx : c.rx = w.console.rx)
    (htx : Keeps c.tx w.txGiven taken) (hsize : c.tx.size = w.console.tx.size)
    (hread : c.tx.readIdx = w.console.tx.readIdx) (hcount : w.console.tx.count ≤ c.tx.count)
    (hlock : c.txLock = w.console.txLock) (hstop : c.txStop = w.console.txStop) :
    Inv { w with console := c, txTaken := taken } where
  rx := by rw [hrx]; exact h.rx
  tx := htx
  uart := by
    intro part hpart
    obtain ⟨h1, h2, h3, h4⟩ := h.uart part hpart
    refine ⟨h1.trans hread.symm, Nat.le_trans h2 hcount, ?_, ?_, ?_⟩
    . rw [hsize]
      exact h3
    . rw [hlock]
      exact h4.1
    . rw [hstop]
      exact h4.2
  stop := by rw [hlock, hstop]; exact h.stop

theorem Inv.receive (h : Inv w) {rx : RingBuf UInt8} {given taken : List UInt8}
    (hrx : Keeps rx given taken) :
    Inv { w with console := { w.console with rx }, rxGiven := given, rxTaken := taken } where
  rx := hrx
  tx := h.tx
  uart := h.uart
  stop := h.stop

theorem Keeps.write_lt {r : RingBuf UInt8} {given taken : List UInt8} (h : Keeps r given taken) :
    r.writeIdx < wordSize := by
  have := h.wf.write_cases
  have := h.wf.read_lt
  have := h.wf.count_le
  have := h.size_lt
  omega

theorem taken_nil (ret : Bool) : taken ret [] = [] := by
  cases ret <;> rfl

section

variable (h : Inv w)

include h

theorem inv_dataInd (hok : (Op.dataInd buf sent).Ok w) :
    ∃ w', step1 w (.dataInd buf sent) = .ok w' ∧ Inv w' := by
  have hcount := h.rx.wf.count_le
  have hwrite := h.rx.write_lt
  simp only [step1, consoleDataInd]
  cases hok with
  | inl hnil =>
    have hlen : buf.len = 0 := by rw [Buf.len, hnil, length_nil]
    rw [hnil]
    by_cases hactive : w.console.state = .active
    . obtain ⟨rx, hput, hkeeps, _⟩ := @Keeps.put _ _ _ h.rx [] (by simpa) (by simpa)
      rw [if_pos hactive, if_pos (by omega)]
      simp only [hput, bind, Except.bind, taken_nil]
      rw [append_nil] at hkeeps ⊢
      exact ⟨_, rfl, h.receive hkeeps⟩
    . rw [if_neg hactive]
      refine ⟨_, rfl, ?_⟩
      rw [taken_nil, append_nil]
      exact h
  | inr hfits =>
    obtain ⟨hactive, hsent, hroom, hsum⟩ := hfits
    obtain ⟨rx, hput, hkeeps, _⟩ := h.rx.put hroom hsum
    have hlen : buf.len ≤ w.console.rx.size := by omega
    simp only [if_pos hactive, if_pos hlen, hput, hsent, bind, Except.bind]
    exact ⟨_, rfl, h.receive hkeeps⟩

theorem inv_dataXmit (hok : (Op.dataXmit len sent).Ok w) :
    ∃ w', step1 w (.dataXmit len sent) = .ok w' ∧ Inv w' := by
  obtain ⟨⟨start, n⟩, hpart, hlen⟩ := hok
  obtain ⟨hstart, hn, hfits, hlock, -⟩ := h.uart _ hpart
  simp only at hstart hn hfits hlen
  subst hstart
  have hbytes : sentBytes w len = .ok (w.console.tx.contents.take len) := by
    unfold sentBytes
    rw [Option.mem_def.mp hpart]
    exact RingBuf.cellsAt_read (by omega) (by omega)
  simp only [step1, hbytes, bind, Except.bind]
  refine ⟨_, rfl, h.rx, h.tx.release (by omega) (by omega), ?_, fun _ => hlock⟩
  intro part hnone
  cases hnone

theorem inv_write (hok : (Op.write buf sent).Ok w) :
    ∃ w', step1 w (.write buf sent) = .ok w' ∧ Inv w' := by
  obtain ⟨hcount, hsum⟩ := hok
  have hrefused : Inv { w with txTaken := w.txTaken ++ [] } := by
    rw [append_nil]
    exact h
  simp only [step1, consoleWrite]
  rw [Nat.mod_eq_of_lt hcount]
  by_cases hactive : w.console.state = .active
  . rw [if_pos hactive]
    by_cases h0 : buf.len = 0
    . rw [if_pos h0]
      exact ⟨_, rfl, hrefused⟩
    . rw [if_neg h0]
      by_cases hroom : w.console.tx.count + buf.len ≤ w.console.tx.size
      . obtain ⟨tx, hput, hkeeps, hsize, hread, hle⟩ := h.tx.put hroom hsum
        rw [if_pos hroom]
        simp only [hput, bind, Except.bind]
        exact ⟨_, rfl, h.grow rfl hkeeps hsize hread hle rfl rfl⟩
      . rw [if_neg hroom]
        exact ⟨_, rfl, hrefused⟩
  . rw [if_neg hactive]
    exact ⟨_, rfl, hrefused⟩

theorem inv_putChar (hok : (Op.putChar chr sent).Ok w) :
    ∃ w', step1 w (.putChar chr sent) = .ok w' ∧ Inv w' := by
  simp only [step1, consolePutChar]
  by_cases hroom : w.console.tx.count < w.console.tx.size
  . have hsent : sent = true := hok.resolve_right (by omega)
    obtain ⟨tx, hput, hkeeps, hsize, hread, hle⟩ := @Keeps.putOne _ _ _ h.tx chr hroom
    simp only [if_pos hroom, hput, hsent, bind, Except.bind]
    exact ⟨_, rfl, h.grow rfl hkeeps hsize hread hle rfl rfl⟩
  . rw [if_neg hroom]
    refine ⟨_, rfl, ?_⟩
    rw [taken, if_neg Bool.false_ne_true, append_nil]
    exact h

theorem inv_getChar : ∃ w', step1 w .getChar = .ok w' ∧ Inv w' := by
  obtain ⟨c, rx, hget, hkeeps⟩ := h.rx.get
  simp only [step1, consoleGetChar]
  simp only [hget, bind, Except.bind]
  exact ⟨_, rfl, h.receive hkeeps⟩

theorem inv_binaryHandle (hok : Op.binaryHandle.Ok w) :
    ∃ w', step1 w .binaryHandle = .ok w' ∧ Inv w' := by
  obtain ⟨hparser, hsum⟩ := hok
  obtain ⟨parts, rx, hdrain, hkeeps⟩ := h.rx.drain hsum
  simp only [step1, consoleBinaryHandle]
  simp only [hdrain, bind, Except.bind]
  refine ⟨_, rfl, h.receive ?_⟩
  cases hparser with
  | inl hset =>
    rw [if_pos hset]
    exact hkeeps
  | inr h0 =>
    -- there is nothing in the ring, so the parser is not called anyway
    have hnil : parts = [] := by
      rw [RingBuf.drain, if_pos h0] at hdrain
      simp only [Except.ok.injEq, Prod.mk.injEq] at hdrain
      exact hdrain.1.symm
    rw [hnil, ite_self]
    rw [hnil] at hkeeps
    exact hkeeps

theorem inv_xmit (huart : w.uart = none) (hstop : w.console.txStop = false)
    (hsum : w.console.tx.readIdx + w.console.tx.count < wordSize) : Inv w.xmit := by
  unfold World.xmit
  split
  . next part hpart =>
    obtain ⟨hread, -, hcount, hfits⟩ := RingBuf.chunk_ok h.tx.wf hsum hpart
    refine ⟨h.rx, h.tx, ?_, fun _ => rfl⟩
    intro part' hpart'
    cases hpart'
    exact ⟨hread, hcount, by rw [hread]; exact hfits, rfl, hstop⟩
  . refine ⟨h.rx, h.tx, ?_, ?_⟩
    . intro part hpart
      rw [huart] at hpart
      cases hpart
    . intro hset
      rw [show _ = false from hstop] at hset
      cases hset

theorem inv_task (hok : Op.task.Ok w) : ∃ w', step1 w .task = .ok w' ∧ Inv w' := by
  refine ⟨_, rfl, ?_⟩
  have hreceived :
      Inv { w with console := { w.console with txStart := false, txStop := false } } := by
    refine ⟨h.rx, h.tx, ?_, ?_⟩
    . intro part hpart
      obtain ⟨h1, h2, h3, h4, -⟩ := h.uart part hpart
      exact ⟨h1, h2, h3, h4, rfl⟩
    . intro hset
      cases hset
  have hidle (hno : w.console.txLock = false ∨ w.console.txStop = true) : w.uart = none := by
    cases huart : w.uart with
    | none => rfl
    | some part =>
      obtain ⟨-, -, -, hlock, hstop⟩ := h.uart part huart
      rw [hlock, hstop] at hno
      simp at hno
  unfold World.consoleTask
  by_cases hstop : w.console.txStop = true
  . -- the lock is still held from the part that has been sent
    have hskip : ¬(w.console.txStart && !w.console.txLock) = true := by
      rw [h.stop hstop]
      simp
    simp only [if_neg hskip, if_pos hstop]
    exact inv_xmit hreceived (hidle (.inr hstop)) rfl hok
  . simp only [if_neg hstop]
    by_cases hstart : (w.console.txStart && !w.console.txLock) = true
    . have hfree : w.console.txLock = false := by
        rw [Bool.and_eq_true, Bool.not_eq_true'] at hstart
        exact hstart.2
      simp only [if_pos hstart]
      exact inv_xmit hreceived (hidle (.inl hfree)) rfl hok
    . simp only [if_neg hstart]
      exact hreceived

theorem inv_step1 (hok : op.Ok w) : ∃ w', step1 w op = .ok w' ∧ Inv w' := by
  cases op with
  | opened => exact ⟨_, rfl, h.rx, h.tx, h.uart, h.stop⟩
  | taskStart => exact ⟨_, rfl, h.rx, h.tx, h.uart, h.stop⟩
  | setParser registered => exact ⟨_, rfl, h.rx, h.tx, h.uart, h.stop⟩
  | dataInd buf sent => exact inv_dataInd h hok
  | dataXmit len sent => exact inv_dataXmit h hok
  | write buf sent => exact inv_write h hok
  | putChar chr sent => exact inv_putChar h hok
  | getChar => exact inv_getChar h
  | binaryHandle => exact inv_binaryHandle h hok
  | task => exact inv_task h hok

end

theorem inv_start (txBuf rxBuf : Buf) : ∃ w, start txBuf rxBuf = .ok w ∧ Inv w := by
  have hrx : Keeps (.init rxBuf.bytes) [] [] := ⟨RingBuf.wf_init _, rxBuf.len_lt, rfl⟩
  have htx : Keeps (.init txBuf.bytes) [] [] := ⟨RingBuf.wf_init _, txBuf.len_lt, rfl⟩
  refine ⟨_, rfl, hrx, htx, ?_, ?_⟩
  . intro part hpart
    cases hpart
  . intro hset
    cases hset

theorem rings_sound (txBuf rxBuf : Buf) (ops : List Op)
    (hok : Run.Along step Ok (start txBuf rxBuf) ops) :
    ∃ w, Run.exec step (start txBuf rxBuf) ops = .ok w ∧ Sound w := by
  have hinv := @Run.exec_inv _ _ step Ok (fun r => ∃ w, r = .ok w ∧ Inv w)
    (fun r op hr hop => by
      obtain ⟨w, rfl, hw⟩ := hr
      exact inv_step1 hw hop) (start txBuf rxBuf) ops (inv_start txBuf rxBuf) hok
  obtain ⟨w, hexec, hw⟩ := hinv
  exact ⟨w, hexec, sound_of_inv hw⟩

theorem rings_sound_echo : ∃ w,
    Run.exec step (start (.ofList [0, 0, 0, 0]) (.ofList [0, 0, 0, 0]))
      [.opened, .taskStart, .setParser true, .dataInd (.ofList [1, 2, 3]) true, .getChar, .getChar,
        .dataInd (.ofList [4, 5, 6]) true, .binaryHandle, .write (.ofList [7, 8]) true, .task,
        .write (.ofList [9]) true, .dataXmit 1 true, .task, .dataXmit 2 true] = .ok w ∧
      Sound w :=
  rings_sound (.ofList [0, 0, 0, 0]) (.ofList [0, 0, 0, 0]) _ (by decide)

theorem not_rings_sound : ∃ w,
    Run.exec step (start (.ofList [0, 0, 0, 0]) (.ofList [0, 0, 0, 0]))
      [.opened, .taskStart, .dataInd (.ofList [1, 2, 3]) true, .dataInd (.ofList [4, 5, 6]) true] =
        .ok w ∧ ¬Sound w :=
  ⟨_, rfl, fun h => absurd h.rx_count (by decide)⟩

end Console
