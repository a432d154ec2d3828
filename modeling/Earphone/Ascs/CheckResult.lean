import Earphone.Ascs.CheckSafe

namespace Ascs

open Scan Ltv List

def entryIds (op : Op) (bytes : List UInt8) : Nat → Nat → List Nat
  | 0, _ => []
  | n + 1, p => octet bytes p :: entryIds op bytes n (p + (fixedLen op + countedLen op bytes p))

def TakesAll (app : App) (table : AseTable) (op : Op) (bytes : List UInt8) (n p : Nat)
    (params : List CpParam) : Prop :=
  params.length = n ∧ ∀ i param, params[i]? = some param →
    Takes app table op bytes (entryEnd op bytes i p) param

def RefusesAt (app : App) (table : AseTable) (op : Op) (bytes : List UInt8) (j p : Nat) : Prop :=
  (∀ m < j, EntryTaken app table op bytes (entryEnd op bytes m p)) ∧
    ¬EntryTaken app table op bytes (entryEnd op bytes j p)

inductive Passes (app : App) (table : AseTable) (op : Op) (bytes : List UInt8) :
    Nat → List (Nat × Resp) → Option (List CpParam) → Prop where
  | done : Passes app table op bytes bytes.length [] (some [])
  | refused {p : Nat} {resp : Resp} (hp : p < bytes.length)
      (hnot : ¬EntryTaken app table op bytes p) (hcode : resp.code ≠ 0) :
      Passes app table op bytes p [(octet bytes p, resp)] none
  | taken {p : Nat} {param : CpParam} {resps : List (Nat × Resp)} {params : Option (List CpParam)}
      (hp : p < bytes.length) (htakes : Takes app table op bytes p param)
      (hrest : Passes app table op bytes (p + (fixedLen op + countedLen op bytes p)) resps params) :
      Passes app table op bytes p ((octet bytes p, .success) :: resps) (params.map (param :: ·))

theorem checkAse_error (h : checkAse table op aseId = .error resp) : resp.code ≠ 0 := by
  unfold checkAse at h
  split at h
  . cases h
    decide
  . split_ifs at h <;> cases h <;> decide

theorem checkCodecHead_error (h : checkCodecHead param = .error resp) : resp.code ≠ 0 := by
  unfold checkCodecHead at h
  split_ifs at h <;> cases h <;> decide

theorem checkCodecCap_error
    (h : checkCodecCap app e param parsed = .error resp) : resp.code ≠ 0 := by
  unfold checkCodecCap at h
  split at h
  . cases h
    decide
  . split_ifs at h
    cases h
    decide

theorem aseCheckCfgQosParam_error
    (h : aseCheckCfgQosParam e qos = .error resp) : resp.code ≠ 0 := by
  unfold aseCheckCfgQosParam at h
  split_ifs at h <;> cases h <;> decide

theorem checkCisMapping_error (h : checkCisMapping table e qos = .error resp) : resp.code ≠ 0 := by
  unfold checkCisMapping at h
  split at h
  . cases h
  . split_ifs at h
    cases h
    decide

theorem metadataCheckFormat_error
    (h : metadataCheckFormat bytes base len contexts fuel = .ok (.error resp)) : resp.code ≠ 0 := by
  unfold metadataCheckFormat at h
  split_ifs at h with h0
  . cases h
    decide
  . refine walk_error (P := fun r => r.code ≠ 0) ?_ ?_ (by decide) h
    . intro type length r hr
      simp only [metadataFormat, metadataNeed] at hr
      split_ifs at hr <;> cases hr <;> simp [Resp.invalidMetadata, Resp.unsupportedMetadata]
    . intro type value s r hr
      simp only [metadataFormat, metadataUse] at hr
      split_ifs at hr
      cases hr
      simp [Resp.rejectedMetadata]

theorem checkContexts_code (hc : ∀ r, contexts = .error r → r.code ≠ 0)
    (h : checkContexts app e op aseId contexts = .error resp) : resp.code ≠ 0 := by
  cases contexts with
  | error r =>
    cases h
    exact hc _ rfl
  | ok contexts =>
    simp only [checkContexts] at h
    split_ifs at h
    cases h
    decide

theorem checkMetadata_error
    (h : checkMetadata app e op aseId bytes base len fuel = .ok (.error resp)) :
    resp.code ≠ 0 := by
  unfold checkMetadata at h
  split_ifs at h with h0
  . cases h
  . obtain ⟨contexts, hcontexts, hcheck⟩ := bind_ok.mp h
    refine checkContexts_code (fun r hr => ?_) (Except.ok.inj hcheck)
    rw [hr] at hcontexts
    exact metadataCheckFormat_error hcontexts

theorem aseCheckCfgCodecParam_error
    (h : aseCheckCfgCodecParam app e param bytes base i fuel = .ok (.error resp)) :
    resp.code ≠ 0 := by
  unfold aseCheckCfgCodecParam at h
  split at h
  . next r hr =>
    cases h
    exact checkCodecHead_error hr
  . obtain ⟨_, -, h⟩ := bind_ok.mp h
    obtain ⟨parsed, -, h⟩ := bind_ok.mp h
    exact checkCodecCap_error (Except.ok.inj h)

theorem checkEntry_error
    (h : checkEntry app table op bytes idx i aseId fuel = .ok (.error resp)) : resp.code ≠ 0 := by
  unfold checkEntry at h
  split at h
  . next r hr =>
    cases h
    exact checkAse_error hr
  . split at h
    . obtain ⟨param, -, h⟩ := bind_ok.mp h
      obtain ⟨parsed, hparsed, h⟩ := bind_ok.mp h
      cases parsed with
      | error r =>
        cases h
        exact aseCheckCfgCodecParam_error hparsed
      | ok cfg =>
        obtain ⟨_, -, h⟩ := bind_ok.mp h
        cases h
    . obtain ⟨param, -, h⟩ := bind_ok.mp h
      split at h
      . next r hr =>
        cases h
        exact aseCheckCfgQosParam_error hr
      . obtain ⟨_, -, h⟩ := bind_ok.mp h
        split at h
        . next r hr =>
          cases h
          exact checkCisMapping_error hr
        . cases h
    . split_ifs at h
      . obtain ⟨metadataLen, -, h⟩ := bind_ok.mp h
        obtain ⟨checked, hchecked, h⟩ := bind_ok.mp h
        cases checked with
        | error r =>
          cases h
          exact checkMetadata_error hchecked
        | ok u =>
          obtain ⟨_, -, h⟩ := bind_ok.mp h
          cases h
      . obtain ⟨_, -, h⟩ := bind_ok.mp h
        cases h

theorem checkLoop_passes (hlen : bytes.length < 65536)
    (hend : entryEnd op bytes n p = bytes.length) (hnum : i + n = aseNum) (hlt : aseNum < 256)

    (h : checkLoop app table op bytes aseNum fuel p i = .ok r) :
    Passes app table op bytes p r.1 r.2 := by
  induction n generalizing p i fuel r with
  | zero =>
    obtain rfl : p = bytes.length := hend
    cases fuel with
    | zero => cases h
    | succ fuel =>
      rw [checkLoop_end] at h
      cases h
      exact .done
  | succ n ih =>
    cases fuel with
    | zero => cases h
    | succ fuel =>
      have hpos := @fixedLen_pos op
      have hle := @le_entryEnd op bytes n (p + (fixedLen op + countedLen op bytes p))
      rw [entryEnd] at hend
      have hp : p < bytes.length := by omega
      have hidx : (i + 1) % 256 = i + 1 := Nat.mod_eq_of_lt (by omega)
      have hj := @judges_checkEntry app table op bytes p i hlen (by omega)
      rw [checkLoop_round hp (by omega)] at h
      obtain ⟨checked, hchecked, h⟩ := bind_ok.mp h
      have hruns :
    Runs (fun fuel => checkEntry app table op bytes p i (octet bytes p) fuel) checked :=
        ⟨fuel, hchecked⟩
      cases checked with
      | error resp =>
        cases h
        refine .refused hp ?_ (checkEntry_error hchecked)
        rintro ⟨param, htakes⟩
        cases hj.mono.runs_unique hruns ((hj.runs ⟨_, hruns⟩ (param, _)).mpr ⟨htakes, rfl⟩)
      | ok entry =>
        obtain ⟨param, next⟩ := entry
        obtain ⟨htakes, rfl⟩ := (hj.runs ⟨_, hruns⟩ _).mp hruns
        simp only [checkRest, hidx] at h
        obtain ⟨rest, hrest, h⟩ := bind_ok.mp h
        cases h
        exact .taken hp htakes (ih hend (by omega) hrest)

theorem Passes.takesAll (h : Passes app table op bytes p resps (some params))
    (hend : entryEnd op bytes n p = bytes.length) :
    TakesAll app table op bytes n p params := by
  generalize hres : some params = res at h
  induction h generalizing n params with
  | done =>
    cases hres
    have := @le_entryEnd op bytes n bytes.length
    exact ⟨by simp only [length_nil]; omega, fun i param hi => by simp at hi⟩
  | refused => cases hres
  | @taken p param resps rest hp htakes _ ih =>
    cases rest with
    | none => cases hres
    | some rest =>
      cases hres
      cases n with
      | zero =>
        rw [entryEnd] at hend
        omega
      | succ n =>
        obtain ⟨hlen, hall⟩ := ih hend rfl
        refine ⟨by simp [hlen], fun i q hq => ?_⟩
        cases i with
        | zero =>
          cases hq
          exact htakes
        | succ i => exact hall i q hq

theorem Takes.ase (h : Takes app table op bytes p param) : param.ase = octet bytes p := by
  obtain ⟨e, -, h⟩ := h
  cases op with
  | configCodec =>
    obtain ⟨-, cfg, -, -, rfl⟩ := h
    rfl
  | configQos =>
    obtain ⟨-, -, rfl⟩ := h
    rfl
  | enable =>
    obtain ⟨-, rfl⟩ := h
    rfl
  | updateMetadata =>
    obtain ⟨-, rfl⟩ := h
    rfl
  | recStartReady => exact h ▸ rfl
  | recStopReady => exact h ▸ rfl
  | disable => exact h ▸ rfl
  | release => exact h ▸ rfl

theorem Takes.unique (h : Takes app table op bytes p param)
    (h' : Takes app table op bytes p param') : param = param' := by
  obtain ⟨e, -, h⟩ := h
  obtain ⟨e', -, h'⟩ := h'
  cases op with
  | configCodec =>
    obtain ⟨-, cfg, htaken, -, rfl⟩ := h
    obtain ⟨-, cfg', htaken', -, rfl⟩ := h'
    rw [htaken.2.unique (Nat.le_refl _) htaken'.2]
  | configQos => exact h.2.2.trans h'.2.2.symm
  | enable => exact h.2.trans h'.2.symm
  | updateMetadata => exact h.2.trans h'.2.symm
  | recStartReady => exact h.trans h'.symm
  | recStopReady => exact h.trans h'.symm
  | disable => exact h.trans h'.symm
  | release => exact h.trans h'.symm

theorem TakesAll.unique
    (h : TakesAll app table op bytes n p params) (h' : TakesAll app table op bytes n p params') :
    params = params' := by
  refine ext_getElem? fun i => ?_
  cases hi : params[i]? with
  | none =>
    rw [getElem?_eq_none_iff] at hi
    rw [eq_comm, getElem?_eq_none_iff, h'.1, ← h.1]
    exact hi
  | some param =>
    obtain ⟨hlt, -⟩ := List.getElem?_eq_some_iff.mp hi
    have hlt' : i < params'.length := by rw [h'.1, ← h.1]; exact hlt
    have hi' := List.getElem?_eq_getElem hlt'
    rw [hi', (h.2 i param hi).unique (h'.2 i _ hi')]

theorem Passes.responses (h : Passes app table op bytes p resps (some params)) :
    resps = params.map fun param => (param.ase, .success) := by
  generalize hres : some params = res at h
  induction h generalizing params with
  | done =>
    cases hres
    rfl
  | refused => cases hres
  | @taken p param resps rest hp htakes _ ih =>
    cases rest with
    | none => cases hres
    | some rest =>
      cases hres
      rw [map_cons, htakes.ase, ih rfl]

theorem Passes.refusesAt
    (h : Passes app table op bytes p resps none) (hend : entryEnd op bytes n p = bytes.length) :
    ∃ j < n, RefusesAt app table op bytes j p ∧ resps.length = j + 1 ∧
      ∀ i r, resps[i]? = some r → (r.2.code = 0 ↔ i < j) ∧ (i < j → r.2 = .success) := by
  generalize hres : none = res at h
  induction h generalizing n with
  | done => cases hres
  | @refused p resp hp hnot hcode =>
    cases n with
    | zero =>
      rw [entryEnd] at hend
      omega
    | succ n =>
      refine ⟨0, by omega, ⟨fun m hm => absurd hm (Nat.not_lt_zero m), hnot⟩, rfl, fun i r hi => ?_⟩
      cases i with
      | zero =>
        cases hi
        exact ⟨by simp [hcode], fun h => absurd h (Nat.lt_irrefl 0)⟩
      | succ i => simp at hi
  | @taken p param resps rest hp htakes _ ih =>
    cases rest with
    | some rest => cases hres
    | none =>
      cases n with
      | zero =>
        rw [entryEnd] at hend
        omega
      | succ n =>
        obtain ⟨j, hj, ⟨hbefore, hnot⟩, hlen, hresp⟩ := ih hend rfl
        refine ⟨j + 1, by omega, ⟨fun m hm => ?_, hnot⟩, by simp [hlen], fun i r hi => ?_⟩
        . cases m with
          | zero => exact ⟨param, htakes⟩
          | succ m => exact hbefore m (by omega)
        . cases i with
          | zero =>
            cases hi
            exact ⟨by simp [Resp.success], fun _ => rfl⟩
          | succ i =>
            obtain ⟨h1, h2⟩ := hresp i r hi
            exact ⟨h1.trans (by omega), fun h => h2 (by omega)⟩

theorem Passes.ids
    (h : Passes app table op bytes p resps params) (hend : entryEnd op bytes n p = bytes.length) :
    resps.map Prod.fst <+: entryIds op bytes n p := by
  induction h generalizing n with
  | done => exact nil_prefix
  | @refused p resp hp =>
    cases n with
    | zero =>
      rw [entryEnd] at hend
      omega
    | succ n => exact cons_prefix_cons.mpr ⟨rfl, nil_prefix⟩
  | taken hp _ _ ih =>
    cases n with
    | zero =>
      rw [entryEnd] at hend
      omega
    | succ n => exact cons_prefix_cons.mpr ⟨rfl, ih hend⟩

theorem Passes.id_eq (h : Passes app table op bytes p resps params) (hi : resps[i]? = some r) :
    r.1 = octet bytes (entryEnd op bytes i p) := by
  induction h generalizing i with
  | done => simp at hi
  | refused =>
    cases i with
    | zero =>
      cases hi
      rfl
    | succ i => simp at hi
  | taken _ _ _ ih =>
    cases i with
    | zero =>
      cases hi
      rfl
    | succ i => exact ih hi

end Ascs
