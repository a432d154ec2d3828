import Mathlib.Algebra.GroupWithZero.Nat
import Mathlib.Data.List.Chain
import Mathlib.Data.List.Nodup
import Mathlib.Algebra.BigOperators.Group.List.Basic

/-!
This module contains the tilings of a range of addresses.
-/

namespace Tiles

open List

structure Tile where
  addr : Nat
  size : Nat
  free : Bool

def Contig : Nat → List Tile → Nat → Prop
  | a, [], e => a = e
  | a, t :: ts, e => t.addr = a ∧ 0 < t.size ∧ Contig (a + t.size) ts e

def frees (ts : List Tile) : List Nat := (ts.filter (·.free)).map (·.addr)

def lives (ts : List Tile) : List Nat := (ts.filter (!·.free)).map (·.addr)

def freeSize (ts : List Tile) : Nat := ((ts.filter (·.free)).map (·.size)).sum

def Coalesced (ts : List Tile) : Prop := ts.IsChain fun t u => ¬(t.free = true ∧ u.free = true)

variable {a b e : Nat} {t u : Tile} {ts ts' l r : List Tile}

@[simp]
theorem frees_nil : frees [] = [] := rfl

@[simp]
theorem lives_nil : lives [] = [] := rfl

@[simp]
theorem freeSize_nil : freeSize [] = 0 := rfl

@[simp]
theorem frees_append : frees (ts ++ ts') = frees ts ++ frees ts' := by
  simp [frees]

@[simp]
theorem lives_append : lives (ts ++ ts') = lives ts ++ lives ts' := by
  simp [lives]

@[simp]
theorem freeSize_append : freeSize (ts ++ ts') = freeSize ts + freeSize ts' := by
  simp [freeSize]

theorem frees_cons_free (h : t.free = true) : frees (t :: ts) = t.addr :: frees ts := by
  simp [frees, h]

theorem frees_cons_live (h : t.free = false) : frees (t :: ts) = frees ts := by
  simp [frees, h]

theorem lives_cons_free (h : t.free = true) : lives (t :: ts) = lives ts := by
  simp [lives, h]

theorem lives_cons_live (h : t.free = false) : lives (t :: ts) = t.addr :: lives ts := by
  simp [lives, h]

theorem freeSize_cons_free (h : t.free = true) : freeSize (t :: ts) = t.size + freeSize ts := by
  simp [freeSize, h]

theorem freeSize_cons_live (h : t.free = false) : freeSize (t :: ts) = freeSize ts := by
  simp [freeSize, h]

theorem size_le_freeSize (ht : t ∈ ts) (h : t.free = true) : t.size ≤ freeSize ts := by
  obtain ⟨l, r, rfl⟩ := append_of_mem ht
  rw [freeSize_append, freeSize_cons_free h]
  omega

theorem mem_frees : a ∈ frees ts ↔ ∃ t ∈ ts, t.free = true ∧ t.addr = a := by
  simp [frees, and_assoc]

theorem mem_lives : a ∈ lives ts ↔ ∃ t ∈ ts, t.free = false ∧ t.addr = a := by
  simp [lives, and_assoc]

theorem contig_append : Contig a (ts ++ ts') e ↔ ∃ m, Contig a ts m ∧ Contig m ts' e := by
  induction ts generalizing a with
  | nil => simp [Contig]
  | cons t ts ih => simp [Contig, ih, and_assoc]

theorem contig_mid : Contig a (l ++ t :: r) e ↔
    Contig a l t.addr ∧ 0 < t.size ∧ Contig (t.addr + t.size) r e := by
  induction l generalizing a with
  | nil =>
    simp only [nil_append, Contig]
    constructor
    . rintro ⟨rfl, hpos, h⟩
      exact ⟨rfl, hpos, h⟩
    . rintro ⟨rfl, hpos, h⟩
      exact ⟨rfl, hpos, h⟩
  | cons u l ih => simp only [cons_append, Contig, ih, and_assoc]

section

variable (h : Contig a ts e)

include h

theorem Contig.le : a + ts.length ≤ e := by
  induction ts generalizing a with
  | nil => exact Nat.le_of_eq h
  | cons t ts ih =>
    obtain ⟨-, hpos, h⟩ := h
    have hle := ih h
    rw [length_cons]
    omega

theorem Contig.bounds (ht : t ∈ ts) : a ≤ t.addr ∧ 0 < t.size ∧ t.addr + t.size ≤ e := by
  induction ts generalizing a with
  | nil => cases ht
  | cons u ts ih =>
    obtain ⟨haddr, hpos, h⟩ := h
    obtain rfl | ht := mem_cons.mp ht
    . have hle := h.le
      omega
    . have hb := ih h ht
      omega

theorem Contig.pairwise : ts.Pairwise fun t u => t.addr + t.size ≤ u.addr := by
  induction ts generalizing a with
  | nil => exact List.Pairwise.nil
  | cons t ts ih =>
    obtain ⟨haddr, hpos, h⟩ := h
    refine List.Pairwise.cons (fun u hu => ?_) (ih h)
    have hb := h.bounds hu
    omega

theorem Contig.cover : (∃ t ∈ ts, t.addr ≤ x ∧ x < t.addr + t.size) ↔ a ≤ x ∧ x < e := by
  induction ts generalizing a with
  | nil =>
    have heq : a = e := h
    refine iff_of_false ?_ (by omega)
    rintro ⟨t, ht, -⟩
    cases ht
  | cons t ts ih =>
    obtain ⟨haddr, hpos, h⟩ := h
    have hle := h.le
    constructor
    . rintro ⟨u, hu, hx⟩
      obtain rfl | hu := mem_cons.mp hu
      . omega
      . have hrange := (ih h).mp ⟨u, hu, hx⟩
        omega
    . intro hx
      by_cases hlt : x < a + t.size
      . exact ⟨t, mem_cons_self, by omega⟩
      . obtain ⟨u, hu, hxu⟩ := (ih h).mpr (by omega)
        exact ⟨u, mem_cons_of_mem _ hu, hxu⟩

theorem Contig.dvd (ha : d ∣ a) (hsize : ∀ t ∈ ts, d ∣ t.size)
    (ht : t ∈ ts) : d ∣ t.addr := by
  induction ts generalizing a with
  | nil => cases ht
  | cons u ts ih =>
    obtain ⟨haddr, -, h⟩ := h
    obtain rfl | ht := mem_cons.mp ht
    . rw [haddr]
      exact ha
    . exact ih h (Nat.dvd_add ha (hsize u mem_cons_self))
        (fun u hu => hsize u (mem_cons_of_mem _ hu)) ht

theorem Contig.freeSize_le : a + freeSize ts ≤ e := by
  induction ts generalizing a with
  | nil => exact Nat.le_of_eq h
  | cons t ts ih =>
    obtain ⟨-, -, h⟩ := h
    have hle := ih h
    cases hfree : t.free with
    | true =>
      rw [freeSize_cons_free hfree]
      omega
    | false =>
      rw [freeSize_cons_live hfree]
      omega

theorem Contig.ascending : ts.Pairwise fun t u => t.addr < u.addr := by
  refine h.pairwise.imp_of_mem fun {t u} ht _ hle => ?_
  have hb := h.bounds ht
  omega

theorem Contig.frees_ascending : (frees ts).Pairwise (· < ·) := by
  rw [frees, pairwise_map]
  exact h.ascending.filter _

theorem Contig.frees_nodup : (frees ts).Nodup := h.frees_ascending.imp Nat.ne_of_lt

theorem Contig.frees_bounds (hb : b ∈ frees ts) : a ≤ b ∧ b < e := by
  obtain ⟨t, ht, -, rfl⟩ := mem_frees.mp hb
  have hbounds := h.bounds ht
  omega

theorem Contig.lt_of_last (hlast : ∀ u ∈ ts.getLast?, u.free = false)
    (ht : t ∈ ts) (hfree : t.free = true) : t.addr + t.size < e := by
  obtain rfl | ⟨ts', u, rfl⟩ := ts.eq_nil_or_concat
  . cases ht
  . rw [concat_eq_append] at *
    have hu : u.free = false := hlast u (by simp)
    obtain ⟨hbefore, hpos, heq⟩ := contig_mid.mp h
    have heq : u.addr + u.size = e := heq
    obtain ht | ht := mem_append.mp ht
    . have hb := hbefore.bounds ht
      omega
    . rw [mem_singleton.mp ht, hu] at hfree
      cases hfree

theorem Contig.lt_of_head (hhead : ∀ u ∈ ts.head?, u.free = false)
    (ht : t ∈ ts) (hfree : t.free = true) : a < t.addr := by
  cases ts with
  | nil => cases ht
  | cons u ts =>
    obtain ⟨haddr, hpos, h⟩ := h
    obtain rfl | ht := mem_cons.mp ht
    . rw [hhead t rfl] at hfree
      cases hfree
    . have hb := h.bounds ht
      omega

end

theorem coalesced_mid : Coalesced (l ++ t :: r) ↔ Coalesced l ∧ Coalesced r ∧
    (∀ u ∈ l.getLast?, ¬(u.free = true ∧ t.free = true)) ∧
    ∀ u ∈ r.head?, ¬(t.free = true ∧ u.free = true) := by
  rw [Coalesced, isChain_append, isChain_cons]
  simp only [head?_cons, Option.mem_def, Option.some.injEq, forall_eq', Coalesced]
  tauto

theorem coalesced_live (ht : t.free = false) :
    Coalesced (l ++ t :: r) ↔ Coalesced l ∧ Coalesced r := by
  simp [coalesced_mid, ht]

theorem coalesced_free (ht : t.free = true) : Coalesced (l ++ t :: r) ↔
    Coalesced l ∧ Coalesced r ∧ (∀ u ∈ l.getLast?, u.free = false) ∧
      ∀ u ∈ r.head?, u.free = false := by
  simp [coalesced_mid, ht]

theorem Coalesced.add_notMem (hc : Coalesced ts) (h : Contig a ts e) (ht : t ∈ ts)
    (hfree : t.free = true) : t.addr + t.size ∉ frees ts := by
  obtain ⟨l, r, rfl⟩ := append_of_mem ht
  obtain ⟨-, -, -, hhead⟩ := (coalesced_free hfree).mp hc
  obtain ⟨hbefore, hpos, hafter⟩ := contig_mid.mp h
  intro hmem
  obtain ⟨u, hu, hufree, haddr⟩ := mem_frees.mp hmem
  obtain hu | hu := mem_append.mp hu
  . have hb := hbefore.bounds hu
    omega
  . obtain rfl | hu := mem_cons.mp hu
    . omega
    . have hlt := hafter.lt_of_head hhead hu hufree
      omega

end Tiles
