import Earphone.Lib.Area

/-!
This module contains the bytes of records of fixed width.
-/

structure Codec (α : Type) where
  width : Nat
  encode : α → List UInt8
  decode : List UInt8 → α
  length_encode : ∀ a, (encode a).length = width
  decode_encode : ∀ a, decode (encode a) = a

namespace Codec

variable {α β : Type}

def u8 : Codec UInt8 where
  width := 1
  encode b := [b]
  decode l := l.headD 0
  length_encode _ := rfl
  decode_encode _ := rfl

def u16 : Codec UInt16 where
  width := 2
  encode n := [UInt8.ofNat (n.toNat % 256), UInt8.ofNat (n.toNat / 256)]
  decode l := UInt16.ofNat ((l.headD 0).toNat + 256 * (l.tail.headD 0).toNat)
  length_encode _ := rfl
  decode_encode n := by
    have hn := n.toNat_lt
    apply UInt16.toNat_inj.mp
    simp only [List.headD_cons, List.tail_cons, UInt8.toNat_ofNat', UInt16.toNat_ofNat']
    omega

def bytes (n : Nat) : Codec (Vector UInt8 n) where
  width := n
  encode v := v.toList
  decode l := Vector.ofFn fun i => l.getD i 0
  length_encode v := v.length_toList
  decode_encode v := by
    ext i hi
    simp [List.getD_eq_getElem?_getD]

open List

def pair (a : Codec α) (b : Codec β) : Codec (α × β) where
  width := a.width + b.width
  encode p := a.encode p.1 ++ b.encode p.2
  decode l := (a.decode (l.take a.width), b.decode (l.drop a.width))
  length_encode p := by rw [List.length_append, a.length_encode, b.length_encode]
  decode_encode p := by
    rw [← a.length_encode p.1, List.take_left, List.drop_left, a.decode_encode, b.decode_encode]

def via (b : Codec β) (f : α → β) (g : β → α) (h : ∀ a, g (f a) = a) : Codec α where
  width := b.width
  encode a := b.encode (f a)
  decode l := g (b.decode l)
  length_encode a := b.length_encode (f a)
  decode_encode a := by rw [b.decode_encode, h]

def readAt (c : Codec α) (area : List UInt8) (p : Nat) : α := c.decode ((area.drop p).take c.width)

theorem readAt_of_holds {c : Codec α} {area : List UInt8} {p : Nat} {a : α}
    (h : Area.Holds area p (c.encode a)) : c.readAt area p = a := by
  rw [readAt, ← c.length_encode a, Area.take_of_holds h, c.decode_encode]

def readTable (c : Codec α) (area : List UInt8) (p : Nat) : Nat → List α
  | 0 => []
  | n + 1 => c.readAt area p :: readTable c area (p + c.width) n

def encodeTable (c : Codec α) (l : List α) : List UInt8 := l.flatMap c.encode

@[simp]
theorem length_encodeTable (c : Codec α) (l : List α) :
    (c.encodeTable l).length = l.length * c.width := by
  induction l with
  | nil => simp [encodeTable]
  | cons a l ih =>
    rw [encodeTable, flatMap_cons, length_append, c.length_encode, ← encodeTable, ih,
      length_cons, Nat.succ_mul, Nat.add_comm]

theorem readTable_of_holds {c : Codec α} {area : List UInt8} {p : Nat} {l : List α}
    (h : Area.Holds area p (c.encodeTable l)) : c.readTable area p l.length = l := by
  induction l generalizing p with
  | nil => rfl
  | cons a l ih =>
    rw [encodeTable, flatMap_cons, Area.holds_append, c.length_encode] at h
    rw [length_cons, readTable, readAt_of_holds h.1, ih h.2]

theorem holds_of_encodeTable {c : Codec α} {area : List UInt8} {p : Nat} {l : List α}
    (h : Area.Holds area p (c.encodeTable l)) {i : Nat} {a : α} (ha : l[i]? = some a) :
    Area.Holds area (p + i * c.width) (c.encode a) := by
  induction l generalizing p i with
  | nil => cases ha
  | cons b l ih =>
    rw [encodeTable, flatMap_cons, Area.holds_append, c.length_encode] at h
    cases i with
    | zero =>
      rw [getElem?_cons_zero, Option.some.injEq] at ha
      rw [← ha, Nat.zero_mul]
      exact h.1
    | succ i =>
      rw [getElem?_cons_succ] at ha
      have hnext := ih h.2 ha
      rw [Nat.add_assoc, Nat.add_comm c.width, ← Nat.succ_mul] at hnext
      exact hnext

end Codec
