import Earphone.Lib.Area

/-!
This module contains a heap of blocks.
-/

namespace Heap

open Slices Area

variable {α : Type}

inductive Fault where
  | null
  | dangling
  | doubleFree
  | outOfBounds

abbrev Mem (α : Type) : Type := Nat → Option (List α)

namespace Mem

def empty : Mem α := fun _ => none

def set (m : Mem α) (p : Nat) (block : Option (List α)) : Mem α :=
  fun q => if q = p then block else m q

def block (m : Mem α) : Option Nat → Except Fault (List α)
  | none => .error .null
  | some p =>
    match m p with
    | some b => .ok b
    | none => .error .dangling

def free (m : Mem α) : Option Nat → Except Fault (Mem α)
  | none => .ok m
  | some p => if (m p).isSome then .ok (m.set p none) else .error .doubleFree

def load (m : Mem α) (ptr : Option Nat) (n : Nat) : Except Fault (List α) :=
  if n = 0 then
    .ok []
  else do
    let b ← m.block ptr
    if n ≤ b.length then .ok (b.take n) else .error .outOfBounds

def store (m : Mem α) (ptr : Option Nat) (offset : Nat) (items : List α) : Except Fault (Mem α) :=
  match ptr, items with
  | _, [] => .ok m
  | none, _ :: _ => .error .null
  | some p, _ :: _ =>
    match m p with
    | none => .error .dangling
    | some b =>
      match copyTo b offset items with
      | .ok b => .ok (m.set p (some b))
      | .error _ => .error .outOfBounds

section

variable {m : Mem α} {p q offset n : Nat} {b items : List α} {o : Option (List α)}

@[simp]
theorem set_self : m.set p o p = o := if_pos rfl

theorem set_ne (h : q ≠ p) : m.set p o q = m q := if_neg h

theorem free_some (h : m p = some b) : m.free (some p) = .ok (m.set p none) := by
  simp [free, h]

theorem load_take (h : m p = some b) (hn : n ≤ b.length) : m.load (some p) n = .ok (b.take n) := by
  unfold load
  split
  . next h0 => rw [h0, List.take_zero]
  . simp [block, h, hn, bind, Except.bind]

theorem store_ok (h : m p = some b) (hle : offset + items.length ≤ b.length) :
    ∃ m' b', m.store (some p) offset items = .ok m' ∧ m' p = some b' ∧ b'.length = b.length ∧
      Holds b' offset items ∧
      (∀ q s, q + s.length ≤ offset ∨ offset + items.length ≤ q → Holds b q s → Holds b' q s) ∧
      ∀ q, q ≠ p → m' q = m q := by
  cases items with
  | nil => exact ⟨m, b, rfl, h, rfl, holds_nil, fun _ _ _ hs => hs, fun _ _ => rfl⟩
  | cons a items =>
    obtain ⟨b', hcopy, -⟩ := copyTo_spec hle
    obtain ⟨-, hlen, hholds, hframe⟩ := copyTo_ok hcopy
    refine ⟨m.set p (some b'), b', ?_, set_self, hlen, hholds, hframe, fun q hq => set_ne hq⟩
    simp only [store, h, hcopy]

end

end Mem

end Heap
