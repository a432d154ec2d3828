import Earphone.Lib.Scan

/-!
This module contains the filter of a scan client.
-/

namespace BleScan

inductive Fault where
  | outside
  | null
  | freed
  | endless

structure ScanAddr where
  bdType : UInt8
  bdAddr : List UInt8
  deriving DecidableEq

structure Filter where
  filterFlags : Nat
  evtType : Nat
  adLen : Nat
  addrNum : Nat
  adStruct : Option (List UInt8)
  pScanAddr : Option (List ScanAddr)

namespace Filter

def evtTypeBit (f : Filter) : Bool := f.filterFlags.testBit 0

def advDataBit (f : Filter) : Bool := f.filterFlags.testBit 1

def remoteAddrBit (f : Filter) : Bool := f.filterFlags.testBit 2

structure Valid (f : Filter) : Prop where
  ad : ∀ l ∈ f.adStruct, l.length = f.adLen
  addr : ∀ l ∈ f.pScanAddr, l.length = f.addrNum

instance (f : Filter) : Decidable f.Valid :=
  decidable_of_iff ((∀ l ∈ f.adStruct, l.length = f.adLen) ∧
    ∀ l ∈ f.pScanAddr, l.length = f.addrNum) ⟨fun h => ⟨h.1, h.2⟩, fun h => ⟨h.1, h.2⟩⟩

def zero : Filter :=
  { filterFlags := 0, evtType := 0, adLen := 0, addrNum := 0, adStruct := none, pScanAddr := none }

end Filter

structure Report where
  eventType : Nat
  addr : ScanAddr
  data : List UInt8

def copyFilter (p : Filter) : Filter × Filter :=
  let f := p
  let (f, p) :=
    if p.advDataBit = true ∧ p.adStruct ≠ none ∧ p.adLen ≠ 0 then
      ({ f with adStruct := p.adStruct }, p)
    else
      ({ f with adStruct := none },
        { p with filterFlags := p.filterFlags &&& 0xfffd, adLen := 0 })
  if p.remoteAddrBit = true ∧ p.pScanAddr ≠ none ∧ p.addrNum ≠ 0 then
    ({ f with pScanAddr := p.pScanAddr }, p)
  else
    ({ f with pScanAddr := none },
      { p with filterFlags := p.filterFlags &&& 0xfffb, addrNum := 0 })

def memcmpAt (p : Option (List UInt8)) (data : List UInt8) (i n : Nat) : Except Fault Bool :=
  if n = 0 then .ok true
  else
    match p with
    | none => .error .null
    | some ad =>
      if n ≤ ad.length ∧ i + n ≤ data.length then .ok (ad.take n = (data.drop i).take n)
      else .error .outside

def findAd (f : Filter) (data : List UInt8) : Nat → Nat → Except Fault Bool
  | 0, _ => .error .endless
  | fuel + 1, pos =>
    match data[pos]? with
    | none => .ok false
    | some len => do
      let equal ← memcmpAt f.adStruct data (pos + 1) f.adLen
      if equal then .ok true else findAd f data fuel (pos + (len.toNat + 1))

def findAddr (f : Filter) (r : Report) : Except Fault Bool :=
  if f.addrNum = 0 then .ok false
  else
    match f.pScanAddr with
    | none => .error .null
    | some l => .ok (r.addr ∈ l.take f.addrNum)

def addrStage (f : Filter) (r : Report) : Except Fault Bool :=
  if f.remoteAddrBit then findAddr f r else .ok true

def adStage (f : Filter) (r : Report) : Except Fault Bool :=
  if f.advDataBit then findAd f r.data (r.data.length + 1) 0 else .ok true

def matchFilter (f : Filter) (r : Report) : Except Fault Bool :=
  if f.filterFlags = 0 then .ok true
  else if f.evtTypeBit = true ∧ f.evtType ≠ r.eventType then .ok false
  else do
    let addrFound ← addrStage f r
    if addrFound then adStage f r else .ok false

/-! What a filter means. -/

def octet (data : List UInt8) (p : Nat) : Nat := (data.getD p 0).toNat

inductive From (data : List UInt8) : Nat → Nat → Prop where
  | here {p : Nat} (h : p < data.length) : From data p p
  | next {p q : Nat} (h : p < data.length) (hrest : From data (p + (octet data p + 1)) q) :
      From data p q

def Stands (ad data : List UInt8) (p : Nat) : Prop := (data.drop (p + 1)).take ad.length = ad

structure Begins (ad data : List UInt8) (p : Nat) : Prop where
  complete : p + 1 + octet data p ≤ data.length
  long : ad.length ≤ octet data p
  stands : Stands ad data p

def HasAd (ad data : List UInt8) : Prop := ∃ p, From data 0 p ∧ Begins ad data p

namespace Filter

variable (f : Filter) (r : Report)

def EvtMatches : Prop := f.evtTypeBit = true → f.evtType = r.eventType

def AddrMatches : Prop := f.remoteAddrBit = true → ∀ l ∈ f.pScanAddr, f.addrNum ≠ 0 → r.addr ∈ l

def AdMatches : Prop := f.advDataBit = true → ∀ ad ∈ f.adStruct, f.adLen ≠ 0 → HasAd ad r.data

structure Matches : Prop where
  evt : f.EvtMatches r
  addr : f.AddrMatches r
  ad : f.AdMatches r

structure WalkOk (ad data : List UInt8) : Prop where
  room : ∀ p, From data 0 p → (∀ q, From data 0 q → q < p → ¬Stands ad data q) →
    p + 1 + ad.length ≤ data.length
  found : ∀ p, From data 0 p → Stands ad data p → HasAd ad data

def Right : Prop :=
  f.EvtMatches r →
    (f.remoteAddrBit = true → if f.addrNum = 0 then ¬f.AdMatches r else f.pScanAddr ≠ none) ∧
      ((f.remoteAddrBit = true → ∃ l ∈ f.pScanAddr, r.addr ∈ l) → f.advDataBit = true →
        if f.adLen = 0 then r.data ≠ [] else ∃ ad ∈ f.adStruct, WalkOk ad r.data)

end Filter

section

variable {f : Filter} {ad data : List UInt8}

theorem From.le (h : From data p q) : p ≤ q := by
  induction h with
  | here h => exact Nat.le_refl _
  | next h hrest ih => omega

theorem From.lt (h : From data p q) : q < data.length := by
  induction h with
  | here h => exact h
  | next h hrest ih => exact ih

theorem from_iff :
    From data p q ↔ p < data.length ∧ (q = p ∨ From data (p + (octet data p + 1)) q) := by
  constructor
  . intro h
    cases h with
    | here h => exact ⟨h, .inl rfl⟩
    | next h hrest => exact ⟨h, .inr hrest⟩
  . intro h
    cases h.2 with
    | inl heq =>
      subst heq
      exact .here h.1
    | inr hrest => exact .next h.1 hrest

theorem memcmpAt_eq (hne : ad ≠ []) (p : Nat) :
    memcmpAt (some ad) data (p + 1) ad.length =
      if p + 1 + ad.length ≤ data.length then .ok ((data.drop (p + 1)).take ad.length == ad)
      else .error .outside := by
  have hpos := List.length_pos_iff.mpr hne
  unfold memcmpAt
  rw [if_neg (by omega)]
  simp only [Nat.le_refl, true_and, List.take_length]
  split
  . rw [Bool.beq_eq_decide_eq]
    simp only [eq_comm]
  . rfl

def RoomFrom (ad data : List UInt8) (p : Nat) : Prop :=
  ∀ q, From data p q → (∀ q', From data p q' → q' < q → ¬Stands ad data q') →
    q + 1 + ad.length ≤ data.length

theorem roomFrom_end (h : data.length ≤ p) : RoomFrom ad data p := by
  intro q hq _
  have := hq.le
  have := hq.lt
  omega

theorem roomFrom_stands (hroom : p + 1 + ad.length ≤ data.length)
    (h : Stands ad data p) : RoomFrom ad data p := by
  intro q hq hfirst
  by_cases hpq : p < q
  . have hlt := hq.lt
    exact absurd h (hfirst p (.here (by omega)) hpq)
  . have := hq.le
    omega

theorem roomFrom_next (hp : p < data.length) (hroom : p + 1 + ad.length ≤ data.length)
    (h : ¬Stands ad data p) :
    RoomFrom ad data p ↔ RoomFrom ad data (p + (octet data p + 1)) := by
  constructor
  . intro hall q hq hfirst
    refine hall q (.next hp hq) fun q' hq' hlt => ?_
    cases (from_iff.mp hq').2 with
    | inl heq => rw [heq]; exact h
    | inr hrest => exact hfirst q' hrest hlt
  . intro hall q hq hfirst
    cases (from_iff.mp hq).2 with
    | inl heq => rw [heq]; exact hroom
    | inr hrest => exact hall q hrest fun q' hq' hlt => hfirst q' (.next hp hq') hlt

section

variable (had : f.adStruct = some ad) (hlen : ad.length = f.adLen) (hne : ad ≠ [])

include had hlen hne

theorem findAd_eq_ok_iff (fuel p : Nat) (hpos : 0 < fuel) (hfuel : data.length < fuel + p)
    (b : Bool) :
    findAd f data fuel p = .ok b ↔
      RoomFrom ad data p ∧ (b = true ↔ ∃ q, From data p q ∧ Stands ad data q) := by
  induction fuel generalizing p with
  | zero => omega
  | succ fuel ih =>
    unfold findAd
    rw [had, ← hlen]
    by_cases hp : p < data.length
    . have hoctet : data[p].toNat = octet data p := by simp [octet, hp]
      rw [List.getElem?_eq_getElem hp]
      simp only [memcmpAt_eq hne]
      by_cases hroom : p + 1 + ad.length ≤ data.length
      . rw [if_pos hroom]
        simp only [bind, Except.bind]
        by_cases hs : Stands ad data p
        . have heq : ((data.drop (p + 1)).take ad.length == ad) = true := beq_iff_eq.mpr hs
          rw [if_pos heq, Except.ok.injEq]
          constructor
          . intro hb
            exact ⟨roomFrom_stands hroom hs, fun _ => ⟨p, .here hp, hs⟩, fun _ => hb.symm⟩
          . intro h
            exact (h.2.mpr ⟨p, .here hp, hs⟩).symm
        . have heq : ¬((data.drop (p + 1)).take ad.length == ad) = true :=
            fun h => hs (beq_iff_eq.mp h)
          rw [if_neg heq, hoctet, ih _ (by omega) (by omega), roomFrom_next hp hroom hs]
          have hex : (∃ q, From data p q ∧ Stands ad data q) ↔
              ∃ q, From data (p + (octet data p + 1)) q ∧ Stands ad data q := by
            constructor
            . rintro ⟨q, hq, hsq⟩
              cases (from_iff.mp hq).2 with
              | inl h => rw [h] at hsq; exact absurd hsq hs
              | inr hrest => exact ⟨q, hrest, hsq⟩
            . rintro ⟨q, hq, hsq⟩
              exact ⟨q, .next hp hq, hsq⟩
          rw [hex]
      . rw [if_neg hroom]
        simp only [bind, Except.bind, reduceCtorEq, false_iff]
        rintro ⟨hall, -⟩
        refine hroom (hall p (.here hp) fun q' hq' hlt => ?_)
        have := hq'.le
        omega
    . rw [List.getElem?_eq_none (by omega)]
      have hno : ¬∃ q, From data p q ∧ Stands ad data q := by
        rintro ⟨q, hq, -⟩
        exact hp (from_iff.mp hq).1
      simp only [Except.ok.injEq, hno, iff_false, Bool.not_eq_true]
      constructor
      . intro h
        exact ⟨roomFrom_end (by omega), h.symm⟩
      . intro h
        exact h.2.symm

theorem findAd_right_iff :
    (∃ b, findAd f data (data.length + 1) 0 = .ok b ∧ (b = true ↔ HasAd ad data)) ↔
      Filter.WalkOk ad data := by
  have hiff := @findAd_eq_ok_iff f ad data had hlen hne (data.length + 1) 0 (by omega)
    (by omega)
  have hhas : HasAd ad data → ∃ q, From data 0 q ∧ Stands ad data q :=
    fun ⟨q, hq, h⟩ => ⟨q, hq, h.stands⟩
  constructor
  . rintro ⟨b, hfind, hb⟩
    obtain ⟨hroom, hs⟩ := (hiff b).mp hfind
    exact ⟨hroom, fun p hp h => hb.mp (hs.mpr ⟨p, hp, h⟩)⟩
  . intro h
    by_cases hhas' : HasAd ad data
    . refine ⟨true, (hiff true).mpr ⟨h.room, ?_⟩, by simp [hhas']⟩
      simp [hhas hhas']
    . refine ⟨false, (hiff false).mpr ⟨h.room, ?_⟩, by simp [hhas']⟩
      simp only [Bool.false_eq_true, false_iff]
      rintro ⟨q, hq, hs⟩
      exact hhas' (h.found q hq hs)

end

end

section

variable {g : Filter} {r : Report}

theorem copyFilter_fst (g : Filter) :
    (copyFilter g).1 =
      { g with
        adStruct :=
          if g.advDataBit = true ∧ g.adStruct ≠ none ∧ g.adLen ≠ 0 then g.adStruct else none
        pScanAddr :=
          if g.remoteAddrBit = true ∧ g.pScanAddr ≠ none ∧ g.addrNum ≠ 0 then g.pScanAddr
          else none } := by
  have hbit : (g.filterFlags &&& 0xfffd).testBit 2 = g.filterFlags.testBit 2 := by
    rw [Nat.testBit_and, show Nat.testBit 0xfffd 2 = true from by decide, Bool.and_true]
  unfold copyFilter Filter.remoteAddrBit
  by_cases had : g.advDataBit = true ∧ g.adStruct ≠ none ∧ g.adLen ≠ 0
  . simp only [if_pos had]
    split <;> rfl
  . simp only [if_neg had, hbit]
    split <;> rfl

def Agrees (result : Except Fault Bool) (p : Prop) : Prop := ∃ b, result = .ok b ∧ (b = true ↔ p)

theorem agrees_ok : Agrees (.ok b) p ↔ (b = true ↔ p) := by
  simp [Agrees]

theorem not_agrees_error : ¬Agrees (.error e) p := by
  simp [Agrees]

theorem agrees_adStage (hg : g.Valid) :
    Agrees (adStage (copyFilter g).1 r) (g.AdMatches r) ↔
      (g.advDataBit = true →
        if g.adLen = 0 then r.data ≠ [] else ∃ ad ∈ g.adStruct, Filter.WalkOk ad r.data) := by
  have hbit : (copyFilter g).1.advDataBit = g.advDataBit := by rw [copyFilter_fst]; rfl
  unfold adStage Filter.AdMatches
  rw [hbit]
  by_cases had : g.advDataBit = true
  . rw [if_pos had]
    simp only [had, true_implies]
    by_cases hlen : g.adLen = 0
    . -- a comparison of no bytes is always equal, so what decides is whether there is any structure
      rw [if_pos hlen]
      have hzero : (copyFilter g).1.adLen = 0 := by rw [copyFilter_fst]; exact hlen
      have htrue : (∀ ad ∈ g.adStruct, g.adLen ≠ 0 → HasAd ad r.data) ↔ True :=
        iff_true_intro fun _ _ h => absurd hlen h
      simp only [htrue, findAd, hzero, memcmpAt, if_true, bind, Except.bind]
      cases hdata : r.data with
      | nil => simp [agrees_ok]
      | cons b rest => simp [agrees_ok]
    . rw [if_neg hlen]
      cases hstruct : g.adStruct with
      | none =>
        have hnull : (copyFilter g).1.adStruct = none := by
          rw [copyFilter_fst]
          simp [hstruct]
        have hsame : (copyFilter g).1.adLen = g.adLen := by rw [copyFilter_fst]
        simp only [findAd, hnull, hsame, memcmpAt, if_neg hlen]
        cases hdata : r.data with
        | nil => simp [agrees_ok]
        | cons b rest => simp [bind, Except.bind, not_agrees_error]
      | some ad =>
        have had' : ad.length = g.adLen := hg.ad ad hstruct
        have hne : ad ≠ [] := by
          intro hnil
          rw [hnil] at had'
          exact hlen had'.symm
        have hkept : (copyFilter g).1.adStruct = some ad := by
          rw [copyFilter_fst]
          simp [hstruct, had, hlen]
        have hsame : (copyFilter g).1.adLen = g.adLen := by rw [copyFilter_fst]
        have hiff := @findAd_right_iff _ ad r.data hkept (had'.trans hsame.symm) hne
        simp only [Option.mem_def, Option.some.injEq, forall_eq', exists_eq_left']
        rw [← hiff]
        unfold Agrees
        simp [hlen]
  . rw [if_neg had, agrees_ok]
    simp [had]

theorem matchFilter_stage (h0 : f.filterFlags ≠ 0)
    (hevt : ¬(f.evtTypeBit = true ∧ f.evtType ≠ r.eventType)) :
    matchFilter f r = addrStage f r >>= fun found => if found then adStage f r else .ok false := by
  unfold matchFilter
  rw [if_neg h0, if_neg hevt]

theorem agrees_matchFilter (hg : g.Valid) :
    Agrees (matchFilter (copyFilter g).1 r) (g.Matches r) ↔ g.Right r := by
  have hf := copyFilter_fst g
  by_cases h0 : g.filterFlags = 0
  . have hbit (i : Nat) : g.filterFlags.testBit i = false := by rw [h0, Nat.zero_testBit]
    have hzero : (copyFilter g).1.filterFlags = 0 := by rw [hf]; exact h0
    have hm : g.Matches r := by
      refine ⟨fun h => ?_, fun h => ?_, fun h => ?_⟩
      . exact absurd h (by simp [Filter.evtTypeBit, hbit])
      . exact absurd h (by simp [Filter.remoteAddrBit, hbit])
      . exact absurd h (by simp [Filter.advDataBit, hbit])
    have hr : g.Right r := by
      refine fun _ => ⟨fun h => ?_, fun _ h => ?_⟩
      . exact absurd h (by simp [Filter.remoteAddrBit, hbit])
      . exact absurd h (by simp [Filter.advDataBit, hbit])
    unfold matchFilter
    rw [if_pos hzero, agrees_ok]
    simp [hm, hr]
  . have hzero : (copyFilter g).1.filterFlags ≠ 0 := by rw [hf]; exact h0
    by_cases hevt : g.EvtMatches r
    . have hevt' :
          ¬((copyFilter g).1.evtTypeBit = true ∧ (copyFilter g).1.evtType ≠ r.eventType) := by
        rw [hf]
        exact fun h => h.2 (hevt h.1)
      have hbit : (copyFilter g).1.remoteAddrBit = g.remoteAddrBit := by rw [hf]; rfl
      have hnum : (copyFilter g).1.addrNum = g.addrNum := by rw [hf]
      have hright : g.Right r ↔
          (g.remoteAddrBit = true →
            if g.addrNum = 0 then ¬g.AdMatches r else g.pScanAddr ≠ none) ∧
          ((g.remoteAddrBit = true → ∃ l ∈ g.pScanAddr, r.addr ∈ l) →
            Agrees (adStage (copyFilter g).1 r) (g.AdMatches r)) := by
        unfold Filter.Right
        rw [agrees_adStage hg]
        simp [hevt]
      have hmatches (haddr : g.AddrMatches r) : g.Matches r ↔ g.AdMatches r :=
        ⟨fun h => h.ad, fun h => ⟨hevt, haddr, h⟩⟩
      rw [matchFilter_stage hzero hevt', hright]
      unfold addrStage
      rw [hbit]
      by_cases haddr : g.remoteAddrBit = true
      . rw [if_pos haddr]
        simp only [haddr, true_implies]
        unfold findAddr
        rw [hnum]
        by_cases hn : g.addrNum = 0
        -- an address filter without addresses refuses every report, though it excludes none
        . have hno : ¬∃ l ∈ g.pScanAddr, r.addr ∈ l := by
            rintro ⟨l, hl, hin⟩
            have hlen := hg.addr l hl
            rw [hn] at hlen
            rw [List.eq_nil_of_length_eq_zero hlen] at hin
            cases hin
          have ham : g.AddrMatches r := fun _ _ _ h => absurd hn h
          simp only [if_pos hn, bind, Except.bind]
          rw [if_neg Bool.false_ne_true, agrees_ok, hmatches ham]
          simp only [Bool.false_eq_true, false_iff]
          exact ⟨fun h => ⟨h, fun h' => absurd h' hno⟩, fun h => h.1⟩
        . cases hl : g.pScanAddr with
          | none =>
            -- a list that is not there is read all the same
            have hnull : (copyFilter g).1.pScanAddr = none := by rw [hf]; simp [hl]
            simp [hnull, hn, bind, Except.bind, not_agrees_error]
          | some l =>
            have hkept : (copyFilter g).1.pScanAddr = some l := by
              rw [hf]
              simp [hl, haddr, hn]
            have hlen : l.take g.addrNum = l := List.take_of_length_le (Nat.le_of_eq (hg.addr l hl))
            have ham : g.AddrMatches r ↔ r.addr ∈ l := by
              simp [Filter.AddrMatches, haddr, hl, hn]
            simp only [if_neg hn, hkept, hlen, bind, Except.bind]
            by_cases hin : r.addr ∈ l
            . simp [hin, hmatches (ham.mpr hin)]
            . have hno : ¬g.Matches r := fun h => hin (ham.mp h.addr)
              simp [hin, hno, agrees_ok]
      . have ham : g.AddrMatches r := fun h => absurd h haddr
        rw [if_neg haddr]
        simp [haddr, hmatches ham, bind, Except.bind]
    . have hno : ¬g.Matches r := fun h => hevt h.evt
      have hpair : g.evtTypeBit = true ∧ g.evtType ≠ r.eventType := by
        unfold Filter.EvtMatches at hevt
        simpa using hevt
      have hpair' :
          (copyFilter g).1.evtTypeBit = true ∧ (copyFilter g).1.evtType ≠ r.eventType := by
        rw [hf]
        exact hpair
      unfold matchFilter
      rw [if_neg hzero, if_pos hpair', agrees_ok]
      simp [hno, Filter.Right, hevt]

end

end BleScan
