import Earphone.Latency.Basic

/-!
This module contains the command that brings the latency of a gaming stream back to its target.
-/

namespace Latency

inductive KeeperPolicy where
  | byAsrc
  | byPlc
  | byBoth
  deriving DecidableEq

def asrcAdjSpeedPpmLim : Nat := 500

def asrcAdjDurationLim : Nat := 0x0fffffff / 1000 * (625 / 2)

structure LowLatAdjReq where
  diffMs : UInt16
  accelerate : Bool

structure LowLatAdj where
  syncAdjClk : Nat
  restoreClk : Nat
  duration : Nat
  ratio : Nat
  accelerate : Bool
  policy : KeeperPolicy
  decFrameNum : Nat

inductive ArithFault where
  | divByZero
  | overflow

def clk28 (n : Nat) : Nat := n % 2 ^ 28

def asrcCommand (bbClockSlot diffMs : Nat) (cmd : LowLatAdj) : Except ArithFault LowLatAdj :=
  let syncAdjClk := clk28 (u32 (bbClockSlot + 250 * 2 * 1000 / 625))
  let ratio := u16 (diffMs * 50)
  let ratio := if ratio > asrcAdjSpeedPpmLim then asrcAdjSpeedPpmLim else ratio
  if ratio = 0 then
    .error .divByZero
  else if diffMs * 1000 / ratio * 1000 ≥ 2 ^ 31 then
    .error .overflow
  else
    let duration := diffMs * 1000 / ratio * 1000
    let duration := if duration > asrcAdjDurationLim then asrcAdjDurationLim else duration
    .ok { cmd with
      syncAdjClk
      restoreClk := clk28 (u32 (syncAdjClk + u32 (duration * 2 * 1000) / 625))
      duration := u16 duration
      ratio }

def asrcAdjReq (policy : KeeperPolicy) (frameDuration : UInt16) (bbClockSlot : Option UInt32)
    (msg : LowLatAdjReq) : Except ArithFault (Option LowLatAdj) :=
  let cmd : LowLatAdj := {
    syncAdjClk := 0
    restoreClk := 0
    duration := 0
    ratio := 0
    accelerate := msg.accelerate
    policy
    decFrameNum := 0 }
  match policy with
  | .byAsrc =>
    match bbClockSlot with
    | none => .ok none
    | some slot => (asrcCommand slot.toNat msg.diffMs.toNat cmd).map some
  | .byPlc =>
    if msg.accelerate then
      let decFrameNum :=
        if frameDuration ≠ 0 then u8 (msg.diffMs.toNat / frameDuration.toNat) else 0
      if decFrameNum = 0 then .ok none else .ok (some { cmd with decFrameNum })
    else
      .ok (some cmd)
  | .byBoth =>
    let decFrameNum :=
      if frameDuration ≠ 0 ∧ msg.accelerate ∧ msg.diffMs.toNat > 20 then
        u8 ((msg.diffMs.toNat - 20) / frameDuration.toNat)
      else
        0
    let diffMs := u16 (msg.diffMs.toNat + 2 ^ 32 - decFrameNum * frameDuration.toNat)
    match bbClockSlot with
    | none => .ok none
    | some slot => (asrcCommand slot.toNat diffMs { cmd with decFrameNum }).map some

structure LowLatAdj.Consistent (cmd : LowLatAdj) : Prop where
  ratio_pos : 0 < cmd.ratio
  ratio_le : cmd.ratio ≤ 500
  interval : clk28 (cmd.restoreClk + 2 ^ 28 - cmd.syncAdjClk) * 5 = cmd.duration * 16

theorem same_low_bits (hfirst : 4294967296 * m + r = k * 2000000)
    (hsecond : 65536 * q + d = k * 1000) (hfloor : 625 * i + s = r) (heq : i * 5 = d * 16) :
    131072000 * q = 4294967296 * m + s := by
  omega

theorem quotients_eq (h : 131072000 * q = 4294967296 * m + s) (hs : s < 625) :
    125 * q = 4096 * m := by
  omega

theorem quotient_lt (hfirst : 4294967296 * m + r = k * 2000000) (hk : k ≤ 83751) : m < 125 := by
  omega

theorem quotient_pos (hsecond : 65536 * q + d = k * 1000) (hd : d < 65536) (hk : 66 ≤ k) :
    0 < q := by
  omega

theorem quotients_ne (hm : m < 125) (hq : 0 < q) : 125 * q ≠ 4096 * m := by
  omega

theorem u32_split (n : Nat) : 4294967296 * (n / 4294967296) + u32 n = n :=
  Nat.div_add_mod n 4294967296

theorem u16_split (n : Nat) : 65536 * (n / 65536) + u16 n = n := Nat.div_add_mod n 65536

theorem u16_lt (n : Nat) : u16 n < 65536 := Nat.mod_lt n (by decide)

theorem interval_ne (hlo : 66 ≤ k) (hhi : k ≤ 83751) :
    u32 (k * 1000 * 2 * 1000) / 625 * 5 ≠ u16 (k * 1000) * 16 := by
  intro heq
  have hfirst := u32_split (k * 1000 * 2 * 1000)
  have hmul : k * 1000 * 2 * 1000 = k * 2000000 := by omega
  rw [hmul] at hfirst heq
  have hsecond := u16_split (k * 1000)
  have hfloor := Nat.div_add_mod (u32 (k * 2000000)) 625
  have hquot := quotients_eq (same_low_bits hfirst hsecond hfloor heq)
    (Nat.mod_lt _ (by decide))
  exact quotients_ne (quotient_lt hfirst hhi) (quotient_pos hsecond (u16_lt _) hlo) hquot

theorem clk28_interval (ha : a < 2 ^ 28) (hx : x < 2 ^ 28) :
    clk28 (clk28 (u32 (a + x)) + 2 ^ 28 - a) = x := by
  unfold clk28 u32
  omega

section

variable {slot diffMs : Nat} {cmd : LowLatAdj}

theorem consistent_iff (hpos : 0 < ratio) (hle : ratio ≤ 500)
    (hduration : (∃ k ≤ 83751, duration = k * 1000) ∨ duration = asrcAdjDurationLim) :
    LowLatAdj.Consistent { cmd with
      syncAdjClk := clk28 (u32 (slot + 250 * 2 * 1000 / 625))
      restoreClk := clk28 (u32 (clk28 (u32 (slot + 250 * 2 * 1000 / 625)) +
        u32 (duration * 2 * 1000) / 625))
      duration := u16 duration
      ratio } ↔ duration < 66 * 1000 := by
  have hclk : clk28 (u32 (slot + 250 * 2 * 1000 / 625)) < 2 ^ 28 := Nat.mod_lt _ (by decide)
  have hslots : u32 (duration * 2 * 1000) / 625 < 2 ^ 28 := by
    have hlt : u32 (duration * 2 * 1000) < 2 ^ 32 := Nat.mod_lt _ (by decide)
    omega
  have hinterval := clk28_interval hclk hslots
  have hiff : ∀ c : LowLatAdj, 0 < c.ratio → c.ratio ≤ 500 → (c.Consistent ↔
      clk28 (c.restoreClk + 2 ^ 28 - c.syncAdjClk) * 5 = c.duration * 16) :=
    fun c hp hl => ⟨fun h => h.interval, fun h => ⟨hp, hl, h⟩⟩
  rw [hiff _ hpos hle]
  dsimp only
  rw [hinterval]
  obtain ⟨k, hk, rfl⟩ | rfl := hduration
  . by_cases hlo : 66 ≤ k
    . exact iff_of_false (interval_ne hlo hk) (by omega)
    . refine iff_of_true ?_ (by omega)
      unfold u32 u16
      rw [Nat.mod_eq_of_lt (by omega), Nat.mod_eq_of_lt (by omega)]
      omega
  . exact iff_of_false (by decide) (by decide)

theorem asrcCommand_iff (hpos : 0 < diffMs) :
    (∃ c, asrcCommand slot diffMs cmd = .ok c ∧ c.Consistent) ↔ diffMs ≤ 32 := by
  unfold asrcCommand
  dsimp only
  generalize hratio : (if u16 (diffMs * 50) > asrcAdjSpeedPpmLim then asrcAdjSpeedPpmLim
    else u16 (diffMs * 50)) = ratio
  have hle : ratio ≤ 500 := by
    rw [← hratio]
    unfold asrcAdjSpeedPpmLim
    split <;> omega
  by_cases hsmall : diffMs ≤ 32
  . -- the ratio is 50 times the deviation, up to 500
    have heq : ratio = if diffMs ≤ 10 then diffMs * 50 else 500 := by
      rw [← hratio]
      unfold asrcAdjSpeedPpmLim u16
      rw [Nat.mod_eq_of_lt (by omega)]
      split <;> split <;> omega
    have hduration : ∃ k ≤ 64, diffMs * 1000 / ratio * 1000 = k * 1000 := by
      refine ⟨diffMs * 1000 / ratio, ?_, rfl⟩
      rw [heq]
      split
      . rw [show diffMs * 1000 = diffMs * 50 * 20 by omega, Nat.mul_div_cancel_left _ (by omega)]
        decide
      . omega
    obtain ⟨k, hk, hduration⟩ := hduration
    have hrpos : 0 < ratio := by
      rw [heq]
      split <;> omega
    rw [if_neg (by omega), hduration, if_neg (by omega),
      if_neg (by unfold asrcAdjDurationLim; omega)]
    refine iff_of_true ⟨_, rfl, ?_⟩ hsmall
    rw [consistent_iff hrpos hle (.inl ⟨k, by omega, rfl⟩)]
    omega
  . -- the duration is 66 s or more
    refine iff_of_false ?_ hsmall
    rintro ⟨c, hc, hcons⟩
    split at hc
    . cases hc
    . next hne =>
      have hlong : 66 ≤ diffMs * 1000 / ratio := by
        refine Nat.le_trans ?_ (Nat.div_le_div_left hle (Nat.pos_of_ne_zero hne))
        omega
      split at hc
      . cases hc
      . obtain rfl := Except.ok.inj hc
        rw [consistent_iff (Nat.pos_of_ne_zero hne) hle] at hcons
        . split at hcons
          . exact absurd hcons (by decide)
          . omega
        . split
          . exact .inr rfl
          . next hlim =>
            refine .inl ⟨diffMs * 1000 / ratio, ?_, rfl⟩
            unfold asrcAdjDurationLim at hlim
            omega

end

def LeftSmall (policy : KeeperPolicy) (frameDuration : UInt16) (msg : LowLatAdjReq) : Prop :=
  if policy = .byBoth ∧ msg.accelerate ∧ frameDuration ≠ 0 ∧ 20 < msg.diffMs.toNat then
    msg.diffMs.toNat - 20 < 256 * frameDuration.toNat ∧
      (msg.diffMs.toNat - 20) % frameDuration.toNat ≤ 12
  else
    msg.diffMs.toNat ≤ 32

instance (policy : KeeperPolicy) (frameDuration : UInt16) (msg : LowLatAdjReq) :
    Decidable (LeftSmall policy frameDuration msg) :=
  inferInstanceAs (Decidable (ite ..))

theorem map_some_iff {r : Except ArithFault LowLatAdj} {P : LowLatAdj → Prop} :
    (∃ c, r.map some = .ok (some c) ∧ P c) ↔ ∃ c, r = .ok c ∧ P c := by
  cases r with
  | error f =>
    refine iff_of_false ?_ ?_
    . rintro ⟨c, hc, -⟩
      cases hc
    . rintro ⟨c, hc, -⟩
      cases hc
  | ok c =>
    constructor
    . rintro ⟨c', hc, hP⟩
      obtain rfl := Option.some.inj (Except.ok.inj hc)
      exact ⟨c, rfl, hP⟩
    . rintro ⟨c', hc, hP⟩
      obtain rfl := Except.ok.inj hc
      exact ⟨c, rfl, hP⟩

theorem left_iff (hdiff : 20 < diffMs) (hlt : diffMs < 2 ^ 16)
    (hframe : 0 < frameMs) : ∃ left, 0 < left ∧
    u16 (diffMs + 2 ^ 32 - u8 ((diffMs - 20) / frameMs) * frameMs) = left ∧
    (left ≤ 32 ↔ diffMs - 20 < 256 * frameMs ∧ (diffMs - 20) % frameMs ≤ 12) := by
  have hsplit := Nat.div_add_mod (diffMs - 20) frameMs
  have hbound : diffMs - 20 < 256 * frameMs ↔ (diffMs - 20) / frameMs < 256 :=
    (Nat.div_lt_iff_lt_mul hframe).symm
  rw [Nat.mul_comm frameMs] at hsplit
  rw [hbound]
  generalize (diffMs - 20) / frameMs = n at *
  generalize (diffMs - 20) % frameMs = m at *
  -- the frames that are dropped are those that fit, modulo 256
  have hdropped : n * frameMs = u8 n * frameMs + 256 * (n / 256) * frameMs := by
    rw [← Nat.add_mul]
    congr 1
    exact (Nat.mod_add_div n 256).symm
  have hrest : n < 256 → 256 * (n / 256) * frameMs = 0 := by
    intro hn
    rw [Nat.div_eq_of_lt hn, Nat.mul_zero, Nat.zero_mul]
  have hmany : ¬n < 256 → 256 ≤ 256 * (n / 256) * frameMs := by
    intro hn
    have hq : 1 ≤ n / 256 := by omega
    calc 256 = 256 * 1 * 1 := rfl
      _ ≤ 256 * (n / 256) * frameMs := Nat.mul_le_mul (Nat.mul_le_mul_left 256 hq) hframe
  generalize 256 * (n / 256) * frameMs = rest at *
  generalize u8 n * frameMs = dropped at *
  refine ⟨20 + m + rest, by omega, ?_, ?_⟩
  . unfold u16
    omega
  . by_cases hn : n < 256
    . have hzero := hrest hn
      omega
    . have hlarge := hmany hn
      omega

theorem asrc_adj_req_consistent (policy : KeeperPolicy) (hpolicy : policy ≠ .byPlc)
    (frameDuration : UInt16) (slot : UInt32) (msg : LowLatAdjReq) (hdiff : 0 < msg.diffMs.toNat) :
    (∃ c, asrcAdjReq policy frameDuration (some slot) msg = .ok (some c) ∧ c.Consistent) ↔
      LeftSmall policy frameDuration msg := by
  unfold asrcAdjReq LeftSmall
  cases policy with
  | byPlc => exact absurd rfl hpolicy
  | byAsrc =>
    dsimp only
    rw [map_some_iff, asrcCommand_iff hdiff, if_neg fun h => nomatch h.1]
  | byBoth =>
    dsimp only
    have hlt := msg.diffMs.toNat_lt
    by_cases hdrop : msg.accelerate = true ∧ frameDuration ≠ 0 ∧ 20 < msg.diffMs.toNat
    . have hframe : 0 < frameDuration.toNat :=
        Nat.pos_of_ne_zero fun h => hdrop.2.1 (UInt16.toNat_inj.mp h)
      obtain ⟨left, hpos, hleft, hiff⟩ := left_iff hdrop.2.2 hlt hframe
      rw [if_pos ⟨hdrop.2.1, hdrop.1, hdrop.2.2⟩, hleft, map_some_iff, asrcCommand_iff hpos,
        if_pos ⟨rfl, hdrop⟩, hiff]
    . have hnone : ¬(frameDuration ≠ 0 ∧ msg.accelerate = true ∧ msg.diffMs.toNat > 20) :=
        fun h => hdrop ⟨h.2.1, h.1, h.2.2⟩
      have hsame : u16 (msg.diffMs.toNat + 2 ^ 32 - 0 * frameDuration.toNat) =
          msg.diffMs.toNat := by
        unfold u16
        omega
      rw [if_neg hnone, hsame, map_some_iff, asrcCommand_iff hdiff,
        if_neg fun h => hdrop h.2]

theorem asrc_adj_req_consistent_sixty : ∃ c,
    asrcAdjReq .byBoth 20 (some 1000) ⟨60, true⟩ = .ok (some c) ∧ c.Consistent :=
  (asrc_adj_req_consistent .byBoth nofun 20 1000 ⟨60, true⟩ (by decide)).mpr (by decide)

theorem not_asrc_adj_req_consistent :
    ∃ c, asrcAdjReq .byAsrc 20 (some 1000) ⟨33, true⟩ = .ok (some c) ∧ c.duration = 464 ∧
      c.syncAdjClk = 1800 ∧ c.restoreClk = 1800 + 66000 * 16 / 5 ∧ ¬c.Consistent :=
  ⟨_, rfl, by decide, by decide, by decide, fun h => absurd h.interval (by decide)⟩

end Latency
