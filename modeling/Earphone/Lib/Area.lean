import Earphone.Lib.Slices

/-!
This module contains what an area of memory holds at a place.
-/

namespace Area

open Scan Slices List

variable {α : Type}

def Holds (area : List α) (p : Nat) (s : List α) : Prop := ∀ i < s.length, area[p + i]? = s[i]?

section

variable {area area' b s : List α} {p q : Nat}

theorem holds_nil : Holds area p [] := fun _ hi => absurd hi (Nat.not_lt_zero _)

theorem holds_append : Holds area p (b ++ s) ↔ Holds area p b ∧ Holds area (p + b.length) s := by
  constructor
  . intro h
    constructor
    . intro i hi
      rw [h i (by rw [length_append]; omega), getElem?_append_left hi]
    . intro i hi
      rw [Nat.add_assoc, h _ (by rw [length_append]; omega),
        getElem?_append_right (Nat.le_add_right _ _), Nat.add_sub_cancel_left]
  . rintro ⟨hb, hc⟩ i hi
    by_cases hlt : i < b.length
    . rw [hb i hlt, getElem?_append_left hlt]
    . rw [length_append] at hi
      have hrest := hc (i - b.length) (by omega)
      rw [getElem?_append_right (by omega), ← hrest]
      congr 1
      omega

theorem take_of_holds (h : Holds area p s) : (area.drop p).take s.length = s := by
  apply ext_getElem?
  intro i
  rw [getElem?_take]
  split
  . next hi => rw [getElem?_drop, h i hi]
  . next hi => rw [getElem?_eq_none (by omega)]

theorem holds_le (h : Holds area p s) (hc : s ≠ []) : p + s.length ≤ area.length := by
  have hpos := List.length_pos_iff.mpr hc
  have hlast := h (s.length - 1) (by omega)
  rw [List.getElem?_eq_getElem (show s.length - 1 < s.length by omega)] at hlast
  have hlt := (List.getElem?_eq_some_iff.mp hlast).1
  omega

theorem copyTo_ok (h : copyTo area p b = .ok area') :
    p + b.length ≤ area.length ∧ area'.length = area.length ∧ Holds area' p b ∧
      ∀ q s, q + s.length ≤ p ∨ p + b.length ≤ q → Holds area q s → Holds area' q s := by
  have hle : p + b.length ≤ area.length := by
    unfold copyTo at h
    split at h
    . assumption
    . cases h
  obtain ⟨_, hcopy, hlen, hget⟩ := copyTo_spec hle
  rw [h] at hcopy
  cases hcopy
  refine ⟨hle, hlen, fun i hi => ?_, fun q s hq hc i hi => ?_⟩
  . rw [hget, if_pos (by omega), Nat.add_sub_cancel_left]
  . rw [hget, if_neg (by omega), hc i hi]

end

def storeAt (area : List α) (base : Option Nat) (offset : Nat) (b : List α) :
    Except Stuck (List α) :=
  match base with
  | some p => copyTo area (p + offset) b
  | none => .error .outside

def fill (base₁ base₂ : Option Nat) (width₁ width₂ : Nat) :
    List (Bool × List α) → UInt8 → UInt8 → List α → Except Stuck (List α × UInt8 × UInt8)
  | [], n₁, n₂, area => .ok (area, n₁, n₂)
  | (true, b) :: items, n₁, n₂, area => do
    let area ← storeAt area base₁ (n₁.toNat * width₁) b
    fill base₁ base₂ width₁ width₂ items (n₁ + 1) n₂ area
  | (false, b) :: items, n₁, n₂, area => do
    let area ← storeAt area base₂ (n₂.toNat * width₂) b
    fill base₁ base₂ width₁ width₂ items n₁ (n₂ + 1) area

def bank (k : Bool) (items : List (Bool × List α)) : List (List α) :=
  (items.filter (·.1 == k)).map (·.2)

section

variable {base₁ base₂ : Option Nat} {width₁ width₂ p₁ p₂ : Nat} {items : List (Bool × List α)}
variable {n₁ n₂ m₁ m₂ : UInt8} {area area' : List α}

@[simp]
theorem bank_nil (k : Bool) : bank k ([] : List (Bool × List α)) = [] := rfl

@[simp]
theorem bank_cons_self (k : Bool) (b : List α) : bank k ((k, b) :: items) = b :: bank k items := by
  simp [bank]

@[simp]
theorem bank_true_false (b : List α) : bank true ((false, b) :: items) = bank true items := by
  simp [bank]

@[simp]
theorem bank_false_true (b : List α) : bank false ((true, b) :: items) = bank false items := by
  simp [bank]

theorem mem_bank_cons (h : b ∈ bank k items) : b ∈ bank k (item :: items) := by
  obtain ⟨a, ha, hb⟩ := mem_map.mp h
  obtain ⟨hmem, hk⟩ := mem_filter.mp ha
  exact mem_map.mpr ⟨a, mem_filter.mpr ⟨mem_cons_of_mem _ hmem, hk⟩, hb⟩

theorem toNat_succ {n : UInt8} (h : n.toNat + 1 < 256) : (n + 1).toNat = n.toNat + 1 := by
  rw [UInt8.toNat_add]
  exact Nat.mod_eq_of_lt h

theorem storeAt_bind_ok (h : (storeAt area base offset b >>= f) = .ok r) :
    ∃ p area', base = some p ∧ copyTo area (p + offset) b = .ok area' ∧ f area' = .ok r := by
  unfold storeAt at h
  cases base with
  | none => cases h
  | some p =>
    obtain ⟨area', hcopy, hf⟩ := bind_ok.mp h
    exact ⟨p, area', rfl, hcopy, hf⟩

theorem fill_ok (h : fill base₁ base₂ width₁ width₂ items n₁ n₂ area = .ok (area', m₁, m₂))
    (hw : ∀ k, ∀ b ∈ bank k items, b.length = if k then width₁ else width₂) :
    area'.length = area.length ∧
      m₁ = n₁ + UInt8.ofNat (bank true items).length ∧
      m₂ = n₂ + UInt8.ofNat (bank false items).length ∧
      (∀ i < (bank true items).length, ∃ p, base₁ = some p ∧
        p + (n₁ + UInt8.ofNat i).toNat * width₁ + width₁ ≤ area.length) ∧
      (∀ i < (bank false items).length, ∃ p, base₂ = some p ∧
        p + (n₂ + UInt8.ofNat i).toNat * width₂ + width₂ ≤ area.length) := by
  have hsucc : ∀ (n : UInt8) (i : Nat), n + UInt8.ofNat (i + 1) = n + 1 + UInt8.ofNat i := by
    intro n i
    rw [UInt8.ofNat_add, UInt8.add_comm (UInt8.ofNat i), ← UInt8.add_assoc]
    rfl
  induction items generalizing n₁ n₂ area with
  | nil =>
    cases h
    refine ⟨rfl, by simp, by simp, ?_, ?_⟩ <;> exact fun i hi => absurd hi (Nat.not_lt_zero i)
  | cons item items ih =>
    obtain ⟨k, b⟩ := item
    cases k with
    | true =>
      obtain ⟨p, area1, rfl, hcopy, hrest⟩ := storeAt_bind_ok h
      obtain ⟨hle, hlen, -, -⟩ := copyTo_ok hcopy
      have hb : b.length = width₁ := hw true b (by simp)
      obtain ⟨hlen', hm1, hm2, h1, h2⟩ := ih hrest fun k b' hb' => hw k b' (mem_bank_cons hb')
      rw [bank_false_true, bank_cons_self, length_cons]
      refine ⟨hlen'.trans hlen, by rw [hm1, hsucc], hm2, ?_, by rwa [hlen] at h2⟩
      intro i hi
      cases i with
      | zero =>
        refine ⟨p, rfl, ?_⟩
        rw [hb] at hle
        simpa [Nat.add_assoc] using hle
      | succ i =>
        rw [hsucc, ← hlen]
        exact h1 i (by omega)
    | false =>
      obtain ⟨p, area1, rfl, hcopy, hrest⟩ := storeAt_bind_ok h
      obtain ⟨hle, hlen, -, -⟩ := copyTo_ok hcopy
      have hb : b.length = width₂ := hw false b (by simp)
      obtain ⟨hlen', hm1, hm2, h1, h2⟩ := ih hrest fun k b' hb' => hw k b' (mem_bank_cons hb')
      rw [bank_true_false, bank_cons_self, length_cons]
      refine ⟨hlen'.trans hlen, hm1, by rw [hm2, hsucc], by rwa [hlen] at h1, ?_⟩
      intro i hi
      cases i with
      | zero =>
        refine ⟨p, rfl, ?_⟩
        rw [hb] at hle
        simpa [Nat.add_assoc] using hle
      | succ i =>
        rw [hsucc, ← hlen]
        exact h2 i (by omega)

theorem fill_holds (hw : ∀ k, ∀ b ∈ bank k items, b.length = if k then width₁ else width₂)
    (hbase1 : bank true items ≠ [] → base₁ = some p₁)
    (hbase2 : bank false items ≠ [] → base₂ = some p₂)
    (hn1 : n₁.toNat + (bank true items).length < 256)
    (hn2 : n₂.toNat + (bank false items).length < 256)
    (hapart : p₁ + (n₁.toNat + (bank true items).length) * width₁ ≤ p₂)
    (hroom : p₂ + (n₂.toNat + (bank false items).length) * width₂ ≤ area.length) :
    ∃ area', fill base₁ base₂ width₁ width₂ items n₁ n₂ area =
        .ok (area', n₁ + UInt8.ofNat (bank true items).length,
          n₂ + UInt8.ofNat (bank false items).length) ∧
      area'.length = area.length ∧
      Holds area' (p₁ + n₁.toNat * width₁) (bank true items).flatten ∧
      Holds area' (p₂ + n₂.toNat * width₂) (bank false items).flatten ∧
      ∀ q s, q + s.length ≤ p₁ + n₁.toNat * width₁ ∨
          p₁ + (n₁.toNat + (bank true items).length) * width₁ ≤ q →
        q + s.length ≤ p₂ + n₂.toNat * width₂ ∨
          p₂ + (n₂.toNat + (bank false items).length) * width₂ ≤ q →
        Holds area q s → Holds area' q s := by
  -- induction on the items: the counts and the area are those in front of the rest
  induction items generalizing n₁ n₂ area with
  | nil =>
    refine ⟨area, by simp [fill], rfl, holds_nil, holds_nil, fun q s _ _ hc => hc⟩
  | cons item items ih =>
    obtain ⟨k, b⟩ := item
    cases k with
    | true =>
      rw [bank_cons_self, length_cons, bank_false_true] at *
      have hb : b.length = width₁ := hw true b (by simp)
      have hp : base₁ = some p₁ := hbase1 (by simp)
      have hsucc : (n₁ + 1).toNat = n₁.toNat + 1 := toNat_succ (by omega)
      have hle : (n₁.toNat + 1) * width₁ ≤
          (n₁.toNat + ((bank true items).length + 1)) * width₁ :=
        Nat.mul_le_mul_right _ (by omega)
      have hstep : (n₁.toNat + 1) * width₁ = n₁.toNat * width₁ + width₁ := Nat.succ_mul _ _
      have hsum : (n₁ + 1).toNat + (bank true items).length =
          n₁.toNat + ((bank true items).length + 1) := by omega
      obtain ⟨area1, hcopy, -⟩ := @copyTo_spec α area b (p₁ + n₁.toNat * width₁) (by omega)
      obtain ⟨-, hlen, hhold, hframe⟩ := copyTo_ok hcopy
      obtain ⟨area', hfill, hlen', hh1, hh2, hfr⟩ := @ih (n₁ + 1) n₂ area1
        (fun k b' hb' => hw k b' (mem_bank_cons hb')) (fun _ => hp)
        hbase2 (by rw [hsum]; exact hn1) hn2 (by rw [hsum]; exact hapart)
        (by rw [hlen]; exact hroom)
      rw [hsum] at hfr
      rw [hsucc, hstep] at hh1 hfr
      refine ⟨area', ?_, hlen'.trans hlen, ?_, hh2, fun q s hq1 hq2 hc => ?_⟩
      . rw [fill, hp, storeAt, hcopy, UInt8.ofNat_add, UInt8.add_comm (UInt8.ofNat _),
          ← UInt8.add_assoc]
        rw [hp] at hfill
        exact hfill
      . rw [flatten_cons]
        refine holds_append.mpr ⟨hfr _ _ (by omega) (by omega) hhold, ?_⟩
        rw [hb, Nat.add_assoc]
        exact hh1
      . exact hfr q s (by omega) hq2 (hframe q s (by omega) hc)
    | false =>
      rw [bank_cons_self, length_cons, bank_true_false] at *
      have hb : b.length = width₂ := hw false b (by simp)
      have hp : base₂ = some p₂ := hbase2 (by simp)
      have hsucc : (n₂ + 1).toNat = n₂.toNat + 1 := toNat_succ (by omega)
      have hle : (n₂.toNat + 1) * width₂ ≤
          (n₂.toNat + ((bank false items).length + 1)) * width₂ :=
        Nat.mul_le_mul_right _ (by omega)
      have hstep : (n₂.toNat + 1) * width₂ = n₂.toNat * width₂ + width₂ := Nat.succ_mul _ _
      have hsum : (n₂ + 1).toNat + (bank false items).length =
          n₂.toNat + ((bank false items).length + 1) := by omega
      obtain ⟨area1, hcopy, -⟩ := @copyTo_spec α area b (p₂ + n₂.toNat * width₂) (by omega)
      obtain ⟨-, hlen, hhold, hframe⟩ := copyTo_ok hcopy
      obtain ⟨area', hfill, hlen', hh1, hh2, hfr⟩ := @ih n₁ (n₂ + 1) area1
        (fun k b' hb' => hw k b' (mem_bank_cons hb')) hbase1 (fun _ => hp)
        hn1 (by rw [hsum]; exact hn2) hapart (by rw [hsum, hlen]; exact hroom)
      rw [hsum] at hfr
      rw [hsucc, hstep] at hh2 hfr
      refine ⟨area', ?_, hlen'.trans hlen, hh1, ?_, fun q s hq1 hq2 hc => ?_⟩
      . rw [fill, hp, storeAt, hcopy, UInt8.ofNat_add, UInt8.add_comm (UInt8.ofNat _),
          ← UInt8.add_assoc]
        rw [hp] at hfill
        exact hfill
      . rw [flatten_cons]
        refine holds_append.mpr ⟨hfr _ _ (by omega) (by omega) hhold, ?_⟩
        rw [hb, Nat.add_assoc]
        exact hh2
      . exact hfr q s hq1 (by omega) (hframe q s (by omega) hc)

theorem fill_all {n₁ n₂ : UInt8}
    (hw : ∀ k, ∀ b ∈ bank k items, b.length = if k then width₁ else width₂)
    (hn1 : (bank true items).length = n₁.toNat) (hn2 : (bank false items).length = n₂.toNat)
    (hapart : p₁ + n₁.toNat * width₁ ≤ p₂) (hroom : p₂ + n₂.toNat * width₂ ≤ area.length) :
    ∃ area', fill (if n₁ = 0 then none else some p₁) (if n₂ = 0 then none else some p₂) width₁
        width₂ items 0 0 area = .ok (area', n₁, n₂) ∧
      area'.length = area.length ∧ Holds area' p₁ (bank true items).flatten ∧
      Holds area' p₂ (bank false items).flatten ∧
      ∀ q s, q + s.length ≤ p₁ ∨ p₁ + n₁.toNat * width₁ ≤ q →
        q + s.length ≤ p₂ ∨ p₂ + n₂.toNat * width₂ ≤ q → Holds area q s → Holds area' q s := by
  have hbase : ∀ {n : UInt8} {k : Bool} {p : Nat}, (bank k items).length = n.toNat →
      bank k items ≠ [] → (if n = 0 then none else some p) = some p := by
    intro n k p hn hne
    rw [if_neg]
    rintro rfl
    exact hne (eq_nil_of_length_eq_zero hn)
  have hall := @fill_holds α (if n₁ = 0 then none else some p₁) (if n₂ = 0 then none else some p₂)
    width₁ width₂ p₁ p₂ items 0 0 area hw (hbase hn1) (hbase hn2)
    (by rw [hn1]; simpa using n₁.toNat_lt) (by rw [hn2]; simpa using n₂.toNat_lt)
    (by rw [hn1]; simpa using hapart) (by rw [hn2]; simpa using hroom)
  rw [hn1, hn2] at hall
  simpa using hall

end

end Area
