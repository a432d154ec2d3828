import Earphone.Avdtp.Heard

namespace Avdtp

variable {localSepList : List LocalSep} {role : Role}

def stopsAt (localSepList : List LocalSep) (role : Role) : Nat → RemoteSep → Bool
  | 0 => vendorStops localSepList role
  | 1 => usacStops localSepList role
  | 2 => aacStops localSepList role
  | _ => sbcStops localSepList role

theorem codecHandlerCheck_iff :
    codecHandlerCheck localSepList role codecType = true ↔
      ∃ sep ∈ localSepList, sep.subCodecType = codecType ∧ sep.tsep ≠ role := by
  simp [codecHandlerCheck]

theorem vendorHandlerCheck_iff {codecType : UInt8} {remote id : List UInt8}
    (hid : remote.take 6 = id) :
    vendorHandlerCheck localSepList role codecType remote = true ↔
      ∃ sep ∈ localSepList, (sep.subCodecType = codecType ∧ sep.mediaCodecInfo.take 6 = id) ∧
        sep.tsep ≠ role := by
  simp [vendorHandlerCheck, hid, and_assoc, eq_comm (a := id)]

theorem vendorStops_iff {sep : RemoteSep} {codec : Codec} (h : sep.Tells codec) :
    vendorStops localSepList role sep = true ↔ codec.rank = 0 ∧ codec.Served localSepList role := by
  unfold vendorStops
  rw [Bool.and_eq_true, beq_iff_eq]
  cases codec with
  | ldac =>
    obtain ⟨htype, hsubtype, hid⟩ := h
    rw [if_pos hsubtype]
    exact and_congr (iff_of_true htype rfl) (vendorHandlerCheck_iff hid)
  | lc3 =>
    obtain ⟨htype, hsubtype, hid⟩ := h
    rw [if_neg (by rw [hsubtype]; decide), if_pos hsubtype]
    exact and_congr (iff_of_true htype rfl) (vendorHandlerCheck_iff hid)
  | lhdc =>
    obtain ⟨htype, hsubtype, hid⟩ := h
    rw [if_neg (by rw [hsubtype]; decide), if_neg (by rw [hsubtype]; decide), if_pos hsubtype]
    exact and_congr (iff_of_true htype rfl) (vendorHandlerCheck_iff hid)
  | usac | aac | sbc =>
    have htype : sep.mediaCodecType ≠ vendorCodecType := by
      rw [show sep.mediaCodecType = _ from h]
      decide
    exact iff_of_false (fun hv => htype hv.1) fun hr => nomatch hr.1
  | other => exact iff_of_false (fun hv => h.1 hv.1) fun hr => nomatch hr.1

theorem typeStops_iff {sep : RemoteSep} {codec : Codec} {mediaCodecType codecType : UInt8}
    {rank : Nat} (htype : sep.mediaCodecType = mediaCodecType ↔ codec.rank = rank)
    (hfits : codec.rank = rank → ∀ sep, codec.Fits sep ↔ sep.subCodecType = codecType) :
    (sep.mediaCodecType == mediaCodecType && codecHandlerCheck localSepList role codecType) = true ↔
      codec.rank = rank ∧ codec.Served localSepList role := by
  rw [Bool.and_eq_true, beq_iff_eq, htype, codecHandlerCheck_iff]
  refine and_congr_right fun hrank => ?_
  simp only [Codec.Served, hfits hrank]

theorem rank_of_type {sep : RemoteSep} {codec : Codec} (h : sep.Tells codec) :
    (sep.mediaCodecType = usacMediaCodecType ↔ codec.rank = 1) ∧
    (sep.mediaCodecType = aacMediaCodecType ↔ codec.rank = 2) ∧
    (sep.mediaCodecType = sbcMediaCodecType ↔ codec.rank = 3) := by
  cases codec with
  | ldac | lc3 | lhdc =>
    rw [h.1]
    decide
  | usac | aac | sbc =>
    rw [show sep.mediaCodecType = _ from h]
    decide
  | other =>
    obtain ⟨-, husac, haac, hsbc⟩ := h
    exact ⟨iff_of_false husac (by decide), iff_of_false haac (by decide),
      iff_of_false hsbc (by decide)⟩

theorem stopsAt_iff {sep : RemoteSep} {codec : Codec} (h : sep.Tells codec) {rank : Nat}
    (hrank : rank < 4) :
    stopsAt localSepList role rank sep = true ↔
      codec.rank = rank ∧ codec.Served localSepList role := by
  obtain ⟨husac, haac, hsbc⟩ := rank_of_type h
  match rank, hrank with
  | 0, _ => exact vendorStops_iff h
  | 1, _ => exact typeStops_iff husac fun hr _ => by cases codec <;> first | rfl | cases hr
  | 2, _ => exact typeStops_iff haac fun hr _ => by cases codec <;> first | rfl | cases hr
  | 3, _ => exact typeStops_iff hsbc fun hr _ => by cases codec <;> first | rfl | cases hr

section

variable {link : Link} {array : SepArray}

theorem sepAt_of_le (harray : link.avdtpSep = some array) {idx : Nat}
    (h : remoteSepSize * (idx + 1) ≤ array.size) : link.sepAt idx = some (array.sep idx) := by
  unfold Link.sepAt
  rw [harray]
  exact if_pos h

theorem search_spec (harray : link.avdtpSep = some array) (stops : RemoteSep → Bool) (n i : Nat)
    (hsize : remoteSepSize * (i + n) ≤ array.size) :
    ∃ j, link.search stops n i = some j ∧ i ≤ j ∧ j ≤ i + n ∧
      (∀ k, i ≤ k → k < j → stops (array.sep k) = false) ∧
      (j < i + n → stops (array.sep j) = true) := by
  induction n generalizing i with
  | zero => exact ⟨i, rfl, Nat.le_refl _, Nat.le_refl _, fun k _ _ => by omega, fun h => by omega⟩
  | succ n ih =>
    have hle : remoteSepSize * (i + 1) ≤ array.size :=
      Nat.le_trans (Nat.mul_le_mul_left _ (by omega)) hsize
    unfold Link.search
    rw [sepAt_of_le harray hle]
    by_cases hstop : stops (array.sep i) = true
    . exact ⟨i, if_pos hstop, Nat.le_refl _, by omega, fun k _ _ => by omega, fun _ => hstop⟩
    . obtain ⟨j, hj, hij, hjn, hbefore, hat⟩ := ih (i + 1) (by rwa [Nat.add_right_comm])
      refine ⟨j, (if_neg hstop).trans hj, by omega, by omega, fun k hik hkj => ?_,
        fun h => hat (by omega)⟩
      by_cases hk : k = i
      . rw [hk]
        exact Bool.eq_false_iff.mpr hstop
      . exact hbefore k (by omega) hkj

def Found (localSepList : List LocalSep) (link : Link) (array : SepArray) (rank i : Nat) : Prop :=
  i = link.acpSepNo ∧ (∀ r ≤ rank, ∀ k < link.acpSepNo,
    stopsAt localSepList link.connRole r (array.sep k) = false) ∨
  i < link.acpSepNo ∧ ∃ r ≤ rank, stopsAt localSepList link.connRole r (array.sep i) = true ∧
    (∀ k < i, stopsAt localSepList link.connRole r (array.sep k) = false) ∧
    ∀ r' < r, ∀ k < link.acpSepNo, stopsAt localSepList link.connRole r' (array.sep k) = false

section

variable (harray : link.avdtpSep = some array) (hsize : remoteSepSize * link.acpSepNo ≤ array.size)

include harray hsize

theorem search_found (rank : Nat)
    (hbefore : ∀ r < rank, ∀ k < link.acpSepNo,
      stopsAt localSepList link.connRole r (array.sep k) = false) :
    ∃ i, link.search (stopsAt localSepList link.connRole rank) link.acpSepNo 0 = some i ∧
      Found localSepList link array rank i := by
  obtain ⟨i, hi, -, hin, hno, hat⟩ := search_spec harray
    (stopsAt localSepList link.connRole rank) link.acpSepNo 0 (by rwa [Nat.zero_add])
  rw [Nat.zero_add] at hin hat
  refine ⟨i, hi, ?_⟩
  by_cases hlt : i < link.acpSepNo
  . exact .inr ⟨hlt, rank, Nat.le_refl _, hat hlt, fun k hk => hno k (Nat.zero_le _) hk, hbefore⟩
  . have heq : i = link.acpSepNo := by omega
    refine .inl ⟨heq, fun r hr k hk => ?_⟩
    obtain hr | rfl := Nat.lt_or_eq_of_le hr
    . exact hbefore r hr k hk
    . exact hno k (Nat.zero_le _) (by omega)

theorem searchNext_found (h : Found localSepList link array rank i) :
    ∃ i', link.searchNext (stopsAt localSepList link.connRole (rank + 1)) i = some i' ∧
      Found localSepList link array (rank + 1) i' := by
  unfold Link.searchNext
  obtain ⟨hi, hno⟩ | ⟨hlt, r, hr, hstops⟩ := h
  . rw [if_pos hi]
    exact search_found harray hsize (rank + 1) fun r hr => hno r (by omega)
  . rw [if_neg (by omega)]
    exact ⟨i, rfl, .inr ⟨hlt, r, by omega, hstops⟩⟩

theorem select_found :
    ∃ i, link.select localSepList = some i ∧ Found localSepList link array 3 i := by
  obtain ⟨i0, hi0, hfound0⟩ :
      ∃ i, link.search (stopsAt localSepList link.connRole 0) link.acpSepNo 0 = some i ∧
        Found localSepList link array 0 i :=
    search_found harray hsize 0 fun r hr => absurd hr (Nat.not_lt_zero r)
  obtain ⟨i1, hi1, hfound1⟩ := searchNext_found harray hsize hfound0
  obtain ⟨i2, hi2, hfound2⟩ := searchNext_found harray hsize hfound1
  obtain ⟨i3, hi3, hfound3⟩ := searchNext_found harray hsize hfound2
  refine ⟨i3, ?_, hfound3⟩
  simp only [stopsAt] at hi0 hi1 hi2 hi3
  unfold Link.select
  rw [hi0, Option.bind_some, hi1, Option.bind_some, hi2, Option.bind_some, hi3]

end

end

def Best (localSepList : List LocalSep) (role : Role) (heard : List (Option Codec)) (i : Nat) :
    Prop :=
  ∃ codec, heard[i]? = some (some codec) ∧ codec.Served localSepList role ∧
    ∀ (k : Nat) (codec' : Codec), heard[k]? = some (some codec') →
      codec'.Served localSepList role → codec.rank < codec'.rank ∨ codec.rank = codec'.rank ∧ i ≤ k

def NoneServed (localSepList : List LocalSep) (role : Role) (heard : List (Option Codec)) : Prop :=
  ∀ (k : Nat) (codec : Codec), heard[k]? = some (some codec) → ¬codec.Served localSepList role

theorem Codec.Served.rank_lt {codec : Codec} (h : codec.Served localSepList role) :
    codec.rank < 4 := by
  cases codec with
  | other =>
    obtain ⟨sep, -, hfits, -⟩ := h
    cases hfits
  | _ => decide

section

variable {link : Link} {array : SepArray} {heard : List (Option Codec)}

def Tells (array : SepArray) (heard : List (Option Codec)) : Prop :=
  ∀ (k : Nat) (codec : Codec), heard[k]? = some (some codec) → (array.sep k).Tells codec

theorem best_of_found (htells : Tells array heard) (hlength : heard.length = link.acpSepNo)
    (hheard : ∀ codec ∈ heard, codec.isSome) {i : Nat}
    (h : Found localSepList link array 3 i) (hlt : i < link.acpSepNo) :
    Best localSepList link.connRole heard i := by
  obtain ⟨heq, -⟩ | ⟨-, r, hr, hat, hfirst, hbefore⟩ := h
  . omega
  obtain ⟨codec, hcodec⟩ := Option.isSome_iff_exists.mp
    (hheard _ (List.getElem_mem (hlength ▸ hlt)))
  have hget : heard[i]? = some (some codec) := by
    rw [List.getElem?_eq_getElem (hlength ▸ hlt), hcodec]
  obtain ⟨hrank, hserved⟩ := (stopsAt_iff (htells i codec hget) (by omega)).mp hat
  refine ⟨codec, hget, hserved, fun k codec' hget' hserved' => ?_⟩
  have hk : k < link.acpSepNo := hlength ▸ (List.getElem?_eq_some_iff.mp hget').1
  have hstops := (stopsAt_iff (htells k codec' hget') hserved'.rank_lt).mpr ⟨rfl, hserved'⟩
  obtain hless | heq | hmore := Nat.lt_trichotomy codec.rank codec'.rank
  . exact .inl hless
  . refine .inr ⟨heq, Nat.not_lt.mp fun hki => ?_⟩
    rw [← heq, hrank, hfirst k hki] at hstops
    cases hstops
  . rw [hbefore _ (by omega) k hk] at hstops
    cases hstops

theorem noneServed_of_found (htells : Tells array heard) (hlength : heard.length = link.acpSepNo)
    {i : Nat} (h : Found localSepList link array 3 i) (hlt : ¬i < link.acpSepNo) :
    NoneServed localSepList link.connRole heard := by
  obtain ⟨-, hno⟩ | ⟨hlt', -⟩ := h
  . intro k codec hget hserved
    have hk : k < link.acpSepNo := hlength ▸ (List.getElem?_eq_some_iff.mp hget).1
    have hstops := (stopsAt_iff (htells k codec hget) hserved.rank_lt).mpr ⟨rfl, hserved⟩
    rw [hno _ (Nat.le_of_lt_succ hserved.rank_lt) k hk] at hstops
    cases hstops
  . exact absurd hlt' hlt

end

end Avdtp
