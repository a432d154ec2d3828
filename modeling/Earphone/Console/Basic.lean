import Earphone.Lib.RingBuf
import Earphone.Lib.Run

/-!
This module contains the console.
-/

namespace Console

open Scan

def wordSize : Nat := 2 ^ 32

structure Buf where
  bytes : List UInt8
  len_lt : bytes.length < wordSize

namespace Buf

def len (b : Buf) : Nat := b.bytes.length

def ofList (bytes : List UInt8) (h : bytes.length < wordSize := by decide) : Buf := ⟨bytes, h⟩

end Buf

inductive ConsoleState where
  | idle
  | init
  | active
  deriving DecidableEq

structure TConsole where
  tx : RingBuf UInt8
  rx : RingBuf UInt8
  txLock : Bool
  state : ConsoleState
  parser : Bool
  txStart : Bool
  txStop : Bool

def consoleInit (txBuf rxBuf : Buf) : TConsole :=
  { tx := .init txBuf.bytes
    rx := .init rxBuf.bytes
    txLock := false
    state := .idle
    parser := false
    txStart := false
    txStop := false }

def consoleGetChar (c : TConsole) : Except Stuck (Option UInt8 × TConsole) := do
  let r ← c.rx.get wordSize
  .ok (r.1, { c with rx := r.2 })

def consolePutChar (c : TConsole) (chr : UInt8) (sent : Bool) : Except Stuck (Bool × TConsole) :=
  if c.tx.count < c.tx.size then do
    let tx ← c.tx.putOne wordSize chr
    .ok (sent, { c with tx, txStart := c.txStart || sent })
  else .ok (false, c)

def consoleBinaryHandle (c : TConsole) : Except Stuck (List (List UInt8) × TConsole) := do
  let r ← c.rx.drain wordSize
  .ok (if c.parser then r.1 else [], { c with rx := r.2 })

def consoleXmitHandle (c : TConsole) : Option (Nat × Nat) := c.tx.chunk wordSize

def consoleDataInd (c : TConsole) (buf : Buf) (sent : Bool) : Except Stuck (Bool × TConsole) :=
  if c.state = .active then
    if buf.len ≤ c.rx.size then do
      let rx ← c.rx.put wordSize buf.bytes
      .ok (sent, { c with rx })
    else .ok (true, c)
  else .ok (true, c)

def consoleDataXmit (c : TConsole) (len : Nat) (sent : Bool) : TConsole :=
  { c with tx := c.tx.release wordSize len, txStop := c.txStop || sent }

def consoleWrite (c : TConsole) (buf : Buf) (sent : Bool) : Except Stuck (Bool × TConsole) :=
  if c.state = .active then
    if buf.len = 0 then .ok (false, c)
    else if (c.tx.count + buf.len) % wordSize ≤ c.tx.size then do
      let tx ← c.tx.put wordSize buf.bytes
      .ok (true, { c with tx, txStart := c.txStart || sent })
    else .ok (false, c)
  else .ok (false, c)

structure World where
  console : TConsole
  uart : Option (Nat × Nat)
  rxTaken : List UInt8
  rxGiven : List UInt8
  txTaken : List UInt8
  txGiven : List UInt8

def World.xmit (w : World) : World :=
  match consoleXmitHandle w.console with
  | some part => { w with console := { w.console with txLock := true }, uart := some part }
  | none => { w with console := { w.console with txLock := false } }

def World.consoleTask (w : World) : World :=
  let c := w.console
  let w1 := { w with console := { c with txStart := false, txStop := false } }
  let w2 := if c.txStart && !c.txLock then w1.xmit else w1
  if c.txStop then w2.xmit else w2

inductive Op where
  | opened
  | taskStart
  | setParser (registered : Bool)
  | dataInd (buf : Buf) (sent : Bool)
  | dataXmit (len : Nat) (sent : Bool)
  | write (buf : Buf) (sent : Bool)
  | putChar (chr : UInt8) (sent : Bool)
  | getChar
  | binaryHandle
  | task

def taken (ret : Bool) (bytes : List UInt8) : List UInt8 := if ret then bytes else []

def sentBytes (w : World) (len : Nat) : Except Stuck (List UInt8) :=
  match w.uart with
  | some (start, _) => RingBuf.cellsAt w.console.tx.addr start len
  | none => .ok []

def step1 (w : World) : Op → Except Stuck World
  | .opened => .ok { w with console := { w.console with state := .init } }
  | .taskStart => .ok { w with console := { w.console with state := .active } }
  | .setParser registered => .ok { w with console := { w.console with parser := registered } }
  | .dataInd buf sent => do
    let r ← consoleDataInd w.console buf sent
    .ok { w with console := r.2, rxTaken := w.rxTaken ++ taken r.1 buf.bytes }
  | .dataXmit len sent => do
    let bytes ← sentBytes w len
    .ok { w with
      console := consoleDataXmit w.console len sent
      uart := none
      txGiven := w.txGiven ++ bytes }
  | .write buf sent => do
    let r ← consoleWrite w.console buf sent
    .ok { w with console := r.2, txTaken := w.txTaken ++ taken r.1 buf.bytes }
  | .putChar chr sent => do
    let r ← consolePutChar w.console chr sent
    .ok { w with console := r.2, txTaken := w.txTaken ++ taken r.1 [chr] }
  | .getChar => do
    let r ← consoleGetChar w.console
    .ok { w with console := r.2, rxGiven := w.rxGiven ++ r.1.toList }
  | .binaryHandle => do
    let r ← consoleBinaryHandle w.console
    .ok { w with console := r.2, rxGiven := w.rxGiven ++ r.1.flatten }
  | .task => .ok w.consoleTask

def step (w : Except Stuck World) (op : Op) : Except Stuck World := do
  let w ← w
  step1 w op

def start (txBuf rxBuf : Buf) : Except Stuck World :=
  .ok { console := consoleInit txBuf rxBuf
        uart := none
        rxTaken := []
        rxGiven := []
        txTaken := []
        txGiven := [] }

end Console
