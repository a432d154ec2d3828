import Earphone.Bass.Cp

namespace Brs

open Scan Slices List

def maxLen : Nat := 63756

def walk (bytes : List UInt8) : Nat → Nat → Option Nat
  | 0, idx => some idx
  | n + 1, idx =>
    match bytes[idx + 4]? with
    | none => none
    | some len => walk bytes n (idx + 5 + len.toNat)

section

variable {bytes : List UInt8} {n idx : Nat}

theorem readAt_lt {i : Nat} (h : i < bytes.length) : ∃ b, readAt bytes i = .ok b := by
  unfold readAt
  rw [getElem?_eq_getElem h]
  exact ⟨_, rfl⟩

theorem readArray_le {i : Nat} (h : i + n ≤ bytes.length) : ∃ v, readArray n bytes i = .ok v := by
  unfold readArray
  rw [dif_pos h]
  exact ⟨_, rfl⟩

theorem read16_le {i : Nat} (h : i + 2 ≤ bytes.length) : ∃ b, read16 bytes i = .ok b := by
  obtain ⟨v, hv⟩ := readArray_le h
  simp only [read16, hv, bind, Except.bind]
  exact ⟨_, rfl⟩

theorem read32_le {i : Nat} (h : i + 4 ≤ bytes.length) : ∃ b, read32 bytes i = .ok b := by
  obtain ⟨v, hv⟩ := readArray_le h
  simp only [read32, hv, bind, Except.bind]
  exact ⟨_, rfl⟩

theorem walk_ge (h : walk bytes n idx = some e) : idx + 5 * n ≤ e := by
  induction n generalizing idx with
  | zero =>
    cases h
    exact Nat.le_refl _
  | succ n ih =>
    rw [walk] at h
    cases hlen : bytes[idx + 4]? with
    | none =>
      rw [hlen] at h
      cases h
    | some len =>
      rw [hlen] at h
      have hrest := ih h
      omega

theorem countSubgroups_safe {base size metadataLen : Nat} (hlen : bytes.length ≤ maxLen)
    (hsize : size ≤ maxLen + 255) (hmetadata : metadataLen ≤ size) :
    ∃ r, countSubgroups bytes base n size metadataLen = .ok r ∧
      ∀ stop metadataLen', r = some (stop, metadataLen') →
        walk bytes n (base + size) = some (base + stop) ∧
          stop + metadataLen = size + 5 * n + metadataLen' := by
  unfold maxLen at hlen hsize
  induction n generalizing size metadataLen with
  | zero =>
    refine ⟨_, rfl, fun stop metadataLen' h => ?_⟩
    cases h
    exact ⟨rfl, rfl⟩
  | succ n ih =>
    unfold countSubgroups
    dsimp only
    rw [Nat.mod_eq_of_lt (show size + 5 < 65536 by omega)]
    by_cases hshort : bytes.length < base + (size + 5)
    . rw [if_pos hshort]
      exact ⟨none, rfl, nofun⟩
    . rw [if_neg hshort, if_neg (by omega)]
      have hat : base + (size + 5) - 1 = base + size + 4 := by omega
      have hbound : base + size + 4 < bytes.length := by omega
      have hread : readAt bytes (base + size + 4) = .ok bytes[base + size + 4] := by
        unfold readAt
        rw [getElem?_eq_getElem hbound]
      have hbyte := (bytes[base + size + 4]).toNat_lt
      have hmod : (size + 5 + (bytes[base + size + 4]).toNat) % 65536 =
          size + 5 + (bytes[base + size + 4]).toNat := Nat.mod_eq_of_lt (by omega)
      have hmod' : (metadataLen + (bytes[base + size + 4]).toNat) % 65536 =
          metadataLen + (bytes[base + size + 4]).toNat := Nat.mod_eq_of_lt (by omega)
      obtain ⟨r, hr, hwalk⟩ := @ih (size + 5 + (bytes[base + size + 4]).toNat)
        (metadataLen + (bytes[base + size + 4]).toNat) (by omega) (by omega)
      simp only [hat, hread, bind, Except.bind, hmod, hmod']
      refine ⟨r, hr, fun stop metadataLen' h => ?_⟩
      obtain ⟨hend, hsum⟩ := hwalk stop metadataLen' h
      refine ⟨?_, by omega⟩
      rw [walk, getElem?_eq_getElem hbound]
      dsimp only
      rw [show base + size + 5 + (bytes[base + size + 4]).toNat =
        base + (size + 5 + (bytes[base + size + 4]).toNat) by omega]
      exact hend

theorem copyTo_length (h : p + src.length ≤ area.length) :
    ∃ area', copyTo area p src = .ok area' ∧ area'.length = area.length := by
  unfold copyTo
  rw [if_pos h]
  refine ⟨_, rfl, ?_⟩
  rw [length_append, length_append, length_take, length_drop]
  omega

theorem copyMetadata_safe {i len p : Nat} {area : List UInt8} (hbytes : i + len ≤ bytes.length)
    (harea : p + len ≤ area.length) :
    ∃ area', copyMetadata bytes i len p area = .ok area' ∧ area'.length = area.length := by
  unfold copyMetadata
  by_cases h0 : 0 < len
  . rw [if_pos h0, bytesAt, if_pos hbytes]
    apply copyTo_length
    rw [length_take, length_drop]
    omega
  . rw [if_neg h0]
    exact ⟨area, rfl, rfl⟩

theorem praseSubgroups_safe {add : UInt32 → UInt32 → Option UInt32} {room e p : Nat}
    {bisSync : UInt32} {area : List UInt8} (hwalk : walk bytes n idx = some e)
    (hend : e ≤ bytes.length) (hroom : n ≤ room) (harea : p + e ≤ area.length + idx + 5 * n) :
    ∃ r, praseSubgroups add bytes n room idx bisSync p area = .ok r := by
  induction n generalizing idx room p bisSync area with
  | zero => exact ⟨_, rfl⟩
  | succ n ih =>
    cases room with
    | zero => omega
    | succ room =>
      rw [walk] at hwalk
      cases hlen : bytes[idx + 4]? with
      | none =>
        rw [hlen] at hwalk
        cases hwalk
      | some len =>
        rw [hlen] at hwalk
        dsimp only at hwalk
        have hge := walk_ge hwalk
        obtain ⟨bis, hbis⟩ := @read32_le bytes idx (by omega)
        have hread : readAt bytes (idx + 4) = .ok len := by
          unfold readAt
          rw [hlen]
        obtain ⟨area', hcopy, harea'⟩ := @copyMetadata_safe bytes (idx + 5) len.toNat p area
          (by omega) (by omega)
        simp only [praseSubgroups, hbis, bind, Except.bind]
        cases add bisSync bis with
        | none => exact ⟨none, rfl⟩
        | some bisSync' =>
          obtain ⟨r, hr⟩ := @ih (idx + 5 + len.toNat) room (p + len.toNat) bisSync' area' hwalk
            (by omega) (by omega)
          simp only [hread, hcopy, hr]
          exact ⟨_, rfl⟩

theorem praseBlock_safe {add : UInt32 → UInt32 → Option UInt32} {e size : Nat}
    (hwalk : walk bytes n idx = some e) (hend : e ≤ bytes.length)
    (hsize : size + idx + 5 * n = sizeofBisInfo * n + e) :
    ∃ r, praseBlock add bytes n idx size = .ok r := by
  have hge := walk_ge hwalk
  have hroom : n ≤ size / sizeofBisInfo := by
    rw [Nat.le_div_iff_mul_le (by decide), Nat.mul_comm]
    omega
  obtain ⟨r, hr⟩ := @praseSubgroups_safe bytes n idx add (size / sizeofBisInfo) e 0 0
    (.replicate (size - sizeofBisInfo * n) 0) hwalk hend hroom
    (by rw [length_replicate]; omega)
  simp only [praseBlock, hr, bind, Except.bind]
  exact ⟨_, rfl⟩

theorem checkSubgroups_safe {minLen : Nat} (hlen : bytes.length ≤ maxLen) (hmin : 6 ≤ minLen)
    (hmax : minLen ≤ 16) :
    ∃ r, checkSubgroups bytes minLen = .ok r ∧ ∀ bufLen, r = some bufLen →
      minLen ≤ bytes.length ∧ ∀ n, readAt bytes (minLen - 1) = .ok n →
        walk bytes n.toNat minLen = some bytes.length ∧
          bufLen + minLen + 5 * n.toNat = sizeofBisInfo * n.toNat + bytes.length := by
  unfold checkSubgroups
  by_cases hshort : bytes.length < minLen
  . rw [if_pos hshort]
    exact ⟨none, rfl, nofun⟩
  . rw [if_neg hshort]
    obtain ⟨num, hnum⟩ := @readAt_lt bytes (minLen - 1) (by omega)
    obtain ⟨r, hr, hwalk⟩ := @countSubgroups_safe bytes num.toNat 0 minLen 0 hlen
      (by unfold maxLen; omega) (Nat.zero_le _)
    simp only [hnum, hr, bind, Except.bind]
    cases r with
    | none => exact ⟨none, rfl, nofun⟩
    | some r =>
      obtain ⟨hend, hsum⟩ := hwalk r.1 r.2 rfl
      by_cases hsize : r.1 ≠ bytes.length
      . simp only [if_pos hsize]
        exact ⟨none, rfl, nofun⟩
      . simp only [if_neg hsize]
        have hsize : r.1 = bytes.length := not_not.mp hsize
        rw [Nat.zero_add, Nat.zero_add, hsize] at hend
        refine ⟨_, rfl, fun bufLen hbufLen => ⟨by omega, fun n hn => ?_⟩⟩
        cases hn
        cases hbufLen
        have hbyte := num.toNat_lt
        have hge := walk_ge hend
        have hmod : (r.2 + sizeofBisInfo * num.toNat) % 65536 =
            r.2 + sizeofBisInfo * num.toNat := by
          apply Nat.mod_eq_of_lt
          unfold sizeofBisInfo maxLen at *
          omega
        rw [hmod]
        exact ⟨hend, by omega⟩

theorem praseAddSource_safe (hlong : 16 ≤ bytes.length)
    (h : ∀ n, readAt bytes 15 = .ok n → walk bytes n.toNat 16 = some bytes.length ∧
      bufLen + 16 + 5 * n.toNat = sizeofBisInfo * n.toNat + bytes.length) :
    ∃ r, praseAddSource bytes bufLen = .ok r := by
  obtain ⟨addressType, htype⟩ := @readAt_lt bytes 1 (by omega)
  obtain ⟨address, haddress⟩ := @readArray_le bytes 6 2 (by omega)
  obtain ⟨advSid, hsid⟩ := @readAt_lt bytes 8 (by omega)
  obtain ⟨broadcastId, hid⟩ := @readArray_le bytes 3 9 (by omega)
  obtain ⟨paSync, hpa⟩ := @readAt_lt bytes 12 (by omega)
  obtain ⟨paInterval, hinterval⟩ := @read16_le bytes 13 (by omega)
  obtain ⟨n, hn⟩ := @readAt_lt bytes 15 (by omega)
  obtain ⟨hwalk, hsize⟩ := h n hn
  obtain ⟨r, hr⟩ := @praseBlock_safe bytes n.toNat 16 bisSyncCheck bytes.length bufLen hwalk
    (Nat.le_refl _) hsize
  simp only [praseAddSource, htype, haddress, hsid, hid, hpa, hinterval, hn, hr, bind, Except.bind]
  cases r with
  | none => exact ⟨_, rfl⟩
  | some r =>
    dsimp only
    cases paSyncOf paSync with
    | none => exact ⟨_, rfl⟩
    | some paSync =>
      dsimp only
      split
      . exact ⟨_, rfl⟩
      . exact ⟨_, rfl⟩

theorem praseModifySource_safe (hlong : 6 ≤ bytes.length)
    (h : ∀ n, readAt bytes 5 = .ok n → walk bytes n.toNat 6 = some bytes.length ∧
      bufLen + 6 + 5 * n.toNat = sizeofBisInfo * n.toNat + bytes.length) :
    ∃ r, praseModifySource known bytes bufLen = .ok r := by
  obtain ⟨sourceId, hid⟩ := @readAt_lt bytes 1 (by omega)
  obtain ⟨paSync, hpa⟩ := @readAt_lt bytes 2 (by omega)
  obtain ⟨paInterval, hinterval⟩ := @read16_le bytes 3 (by omega)
  obtain ⟨n, hn⟩ := @readAt_lt bytes 5 (by omega)
  obtain ⟨hwalk, hsize⟩ := h n hn
  obtain ⟨r, hr⟩ := @praseBlock_safe bytes n.toNat 6 bisSyncCheck bytes.length bufLen hwalk
    (Nat.le_refl _) hsize
  simp only [praseModifySource, hid, hpa, hinterval, hn, hr, bind, Except.bind]
  cases r with
  | none => exact ⟨_, rfl⟩
  | some r =>
    dsimp only
    cases paSyncOf paSync with
    | none => exact ⟨_, rfl⟩
    | some paSync => exact ⟨_, rfl⟩

theorem cpPraseData_safe (memory : Bool) (known : UInt8 → Bool) (hne : bytes ≠ [])
    (hlen : bytes.length ≤ maxLen) : ∃ r, cpPraseData memory known bytes = .ok r := by
  have hpos := length_pos_of_ne_nil hne
  obtain ⟨opcode, hop⟩ := readAt_lt hpos
  simp only [cpPraseData, hop, bind, Except.bind]
  by_cases hbig : 5 < opcode
  . rw [if_pos hbig]
    exact ⟨_, rfl⟩
  rw [if_neg hbig]
  unfold cpCheckMsgLen
  by_cases hadd : opcode = 2
  . subst hadd
    obtain ⟨r, hr, hright⟩ := @checkSubgroups_safe bytes 16 hlen (by decide) (by decide)
    simp only [if_true, hr]
    cases r with
    | none => exact ⟨_, rfl⟩
    | some bufLen =>
      obtain ⟨hlong, hwalk⟩ := hright bufLen rfl
      cases memory with
      | false => exact ⟨_, rfl⟩
      | true => exact praseAddSource_safe hlong hwalk
  by_cases hmodify : opcode = 3
  . subst hmodify
    obtain ⟨r, hr, hright⟩ := @checkSubgroups_safe bytes 6 hlen (by decide) (by decide)
    simp only [if_neg (show ¬(3 : UInt8) = 2 by decide), if_true, hr]
    cases r with
    | none => exact ⟨_, rfl⟩
    | some bufLen =>
      obtain ⟨hlong, hwalk⟩ := hright bufLen rfl
      cases memory with
      | false => exact ⟨_, rfl⟩
      | true => exact praseModifySource_safe hlong hwalk
  simp only [if_neg hadd, if_neg hmodify]
  by_cases hright : bytes.length = if opcode = 4 then 18 else if opcode = 5 then 2 else 1
  . rw [if_pos hright]
    dsimp only
    by_cases hmemory : memory = false
    . rw [if_pos hmemory]
      exact ⟨_, rfl⟩
    rw [if_neg hmemory]
    by_cases hstop : opcode = 0
    . rw [if_pos hstop]
      exact ⟨_, rfl⟩
    rw [if_neg hstop]
    by_cases hstart : opcode = 1
    . rw [if_pos hstart]
      exact ⟨_, rfl⟩
    rw [if_neg hstart]
    by_cases hcode : opcode = 4
    . rw [if_pos hcode] at hright
      obtain ⟨sourceId, hid⟩ := @readAt_lt bytes 1 (by omega)
      obtain ⟨code, hread⟩ := @readArray_le bytes 16 2 (by omega)
      simp only [hid, if_pos hcode, hread]
      exact ⟨_, rfl⟩
    . have hremove : opcode = 5 := by
        have hle : opcode.toNat ≤ 5 := UInt8.not_lt.mp hbig
        have h0 : opcode.toNat ≠ 0 := fun h => hstop (UInt8.toNat_inj.mp h)
        have h1 : opcode.toNat ≠ 1 := fun h => hstart (UInt8.toNat_inj.mp h)
        have h2 : opcode.toNat ≠ 2 := fun h => hadd (UInt8.toNat_inj.mp h)
        have h3 : opcode.toNat ≠ 3 := fun h => hmodify (UInt8.toNat_inj.mp h)
        have h4 : opcode.toNat ≠ 4 := fun h => hcode (UInt8.toNat_inj.mp h)
        have h5 : opcode.toNat = 5 := by omega
        exact UInt8.toNat_inj.mp h5
      rw [if_neg hcode, if_pos hremove] at hright
      obtain ⟨sourceId, hid⟩ := @readAt_lt bytes 1 (by omega)
      simp only [hid, if_neg hcode]
      exact ⟨_, rfl⟩
  . rw [if_neg hright]
    exact ⟨_, rfl⟩

theorem praseRemoteSubgroups_safe (memory : Bool) (old brs : RemoteBrs)
    (hlen : bytes.length ≤ maxLen) (hidx : 14 ≤ idx) (hin : idx < bytes.length) :
    ∃ r, praseRemoteSubgroups memory old brs bytes idx = .ok r ∧ (r.1 = false → r.2 = old) := by
  obtain ⟨n, hn⟩ := readAt_lt hin
  obtain ⟨r, hr, hwalk⟩ := @countSubgroups_safe bytes n.toNat (idx + 1) 0 0 hlen
    (Nat.zero_le _) (Nat.le_refl _)
  simp only [praseRemoteSubgroups, hn, hr, bind, Except.bind]
  cases r with
  | none => exact ⟨_, rfl, fun _ => rfl⟩
  | some r =>
    obtain ⟨hend, hsum⟩ := hwalk r.1 r.2 rfl
    dsimp only
    by_cases hshort : bytes.length < idx + 1 + r.1
    . rw [if_pos hshort]
      exact ⟨_, rfl, fun _ => rfl⟩
    rw [if_neg hshort]
    by_cases hzero : (sizeofBisInfo * n.toNat + r.2) % 65536 = 0
    . rw [if_pos hzero]
      exact ⟨_, rfl, fun h => by cases h⟩
    rw [if_neg hzero]
    by_cases hmemory : memory = false
    . rw [if_pos hmemory]
      exact ⟨_, rfl, fun _ => rfl⟩
    rw [if_neg hmemory]
    have hbyte := n.toNat_lt
    have hmod : (sizeofBisInfo * n.toNat + r.2) % 65536 = sizeofBisInfo * n.toNat + r.2 := by
      apply Nat.mod_eq_of_lt
      unfold sizeofBisInfo maxLen at *
      omega
    obtain ⟨b, hb⟩ := @praseBlock_safe bytes n.toNat (idx + 1) bisSyncState (idx + 1 + r.1)
      (sizeofBisInfo * n.toNat + r.2) hend (by omega) (by omega)
    rw [hmod, hb]
    cases b with
    | none => exact ⟨_, rfl, fun _ => rfl⟩
    | some b => exact ⟨_, rfl, fun h => by cases h⟩

theorem clientPraseBrs_safe (memory : Bool) (old : RemoteBrs) (hlen : bytes.length ≤ maxLen) :
    ∃ r, clientPraseBrs memory old bytes = .ok r ∧ (r.1 = false → r.2 = old) := by
  unfold clientPraseBrs
  by_cases hnil : bytes.length = 0
  . rw [if_pos hnil]
    exact ⟨_, rfl, fun h => by cases h⟩
  rw [if_neg hnil]
  by_cases hshort : bytes.length < 15
  . rw [if_pos hshort]
    exact ⟨_, rfl, fun _ => rfl⟩
  rw [if_neg hshort]
  have hhead : ∃ brs, praseHead bytes = .ok brs := by
    obtain ⟨sourceId, h0⟩ := @readAt_lt bytes 0 (by omega)
    obtain ⟨addressType, h1⟩ := @readAt_lt bytes 1 (by omega)
    obtain ⟨address, h2⟩ := @readArray_le bytes 6 2 (by omega)
    obtain ⟨advSid, h8⟩ := @readAt_lt bytes 8 (by omega)
    obtain ⟨broadcastId, h9⟩ := @readArray_le bytes 3 9 (by omega)
    obtain ⟨paState, h12⟩ := @readAt_lt bytes 12 (by omega)
    obtain ⟨bigEncryption, h13⟩ := @readAt_lt bytes 13 (by omega)
    simp only [praseHead, h0, h1, h2, h8, h9, h12, h13, bind, Except.bind]
    exact ⟨_, rfl⟩
  obtain ⟨brs, hbrs⟩ := hhead
  simp only [hbrs, bind, Except.bind]
  by_cases hbad : brs.bigEncryption = 3
  . rw [if_pos hbad]
    by_cases hcode : bytes.length < 31
    . rw [if_pos hcode]
      exact ⟨_, rfl, fun _ => rfl⟩
    . obtain ⟨badCode, hread⟩ := @readArray_le bytes 16 14 (by omega)
      simp only [if_neg hcode, hread]
      exact praseRemoteSubgroups_safe memory old _ hlen (by omega) (by omega)
  . rw [if_neg hbad]
    exact praseRemoteSubgroups_safe memory old _ hlen (Nat.le_refl _) (by omega)

end

end Brs
