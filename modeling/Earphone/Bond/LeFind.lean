import Earphone.Bond.LeRun

namespace Bond

structure LocalIrk where
  localIdentityAddressType : UInt8
  localIdentityAddress : BdAddr
  localIrk : Vector UInt8 16

def gapLocalAddrLeRapOrPublic : UInt8 := 2

def gapLocalAddrLeRapOrRand : UInt8 := 3

def btifRemoteAddrAny : UInt8 := 0x20

def btLeResolveLocalRpa (aes : List UInt8 → List UInt8 → List UInt8) (queue : List LocalIrk)
    (unresolvedAddr : BdAddr) : Option (BdAddr × UInt8) :=
  let addr := bytesOfAddr unresolvedAddr
  let buffer := List.replicate 13 0 ++ (addr.drop 3).reverse
  let found := queue.find? fun localIrk =>
    ((aes buffer localIrk.localIrk.toList.reverse).drop 13).take 3 == (addr.take 3).reverse
  found.map fun localIrk => (localIrk.localIdentityAddress, localIrk.localIdentityAddressType)

def peerBdAddr (bdAddr : BdAddr) (bdType : UInt8) : BdAddr :=
  if bdType = gapRemoteAddrLeRandom ∧ addrMask bdAddr = 2 then bdAddr ^^^ (3 <<< 46) else bdAddr

def withoutRap (localBdType : UInt8) : UInt8 :=
  if localBdType = gapLocalAddrLeRapOrPublic ∨ localBdType = gapLocalAddrLeRapOrRand then
    localBdType - 2
  else
    localBdType

def localToCheck (localBdAddr : Option BdAddr) (localBdType : UInt8)
    (resolve : BdAddr → Option (BdAddr × UInt8)) : Option (BdAddr × UInt8) :=
  match localBdAddr with
  | none => none
  | some addr =>
    if localBdType > gapLocalAddrLeRapOrRand then
      none
    else
      let type := withoutRap localBdType
      if type = gapLocalAddrLeRandom ∧ addrMask addr = 1 then resolve addr else some (addr, type)

namespace LeBondEntry

variable (e : LeBondEntry)

def isRemote (bdAddr : BdAddr) (bdType : UInt8) : Bool :=
  if bdType = gapRemoteAddrLePublicIdentity ∨ bdType = gapRemoteAddrLeRandomIdentity then
    e.remoteIdentityAddr == bdAddr && e.remoteIdentityAddrType == bdType - 2
  else
    (e.remoteBd == bdAddr && (e.remoteBdType == bdType || bdType == btifRemoteAddrAny)) ||
      (e.remoteIdentityAddr == bdAddr && e.remoteIdentityAddrType == bdType)

def isLocal : Option (BdAddr × UInt8) → Bool
  | none => true
  | some (addr, type) => e.bondInfo.localBdType == type && e.bondInfo.localBd == addr

end LeBondEntry

namespace LeStore

variable (s : LeStore)

def btLeFindKeyEntry (bdAddr : BdAddr) (bdType : UInt8) (localBdAddr : Option BdAddr)
    (localBdType : UInt8) (resolve : BdAddr → Option (BdAddr × UInt8)) : Option Nat :=
  if s.cb.cfg.gapBondManager then none
  else
    s.table.findIdx? fun e =>
      e.isUsed && e.isRemote (peerBdAddr bdAddr bdType) bdType &&
        e.isLocal (localToCheck localBdAddr localBdType resolve)

def RemoteFound (bdType : UInt8) : Prop :=
  bdType = gapRemoteAddrLePublic ∨ bdType = gapRemoteAddrLeRandom ∨
    bdType = gapRemoteAddrLeRandomIdentity ∧
      (s.entry s.searchUnused).remoteIdentityAddrType = gapIdentAddrRand

def LocalFound (localBdAddr : Option BdAddr) (localBdType : UInt8)
    (resolve : BdAddr → Option (BdAddr × UInt8)) : Prop :=
  ∀ addr ∈ localBdAddr, localBdType ≠ gapLocalAddrLeRapOrPublic ∧
    (localBdType = gapLocalAddrLeRapOrRand →
      addrMask addr = 1 ∧ ∀ r ∈ resolve addr, r = (addr, gapLocalAddrLeRapOrRand))

section

variable {s} {bdAddr : BdAddr} {bdType localBdType : UInt8} {localBd : Option BdAddr}
  {resolve : BdAddr → Option (BdAddr × UInt8)}

theorem findIdx?_set {α : Type} {l : List α} {p : α → Bool} {i : Nat} {a : α}
    (hnone : l.findIdx? p = none) (hi : i < l.length) :
    (l.set i a).findIdx? p = some i ↔ p a = true := by
  rw [List.findIdx?_eq_some_iff_getElem]
  refine ⟨fun ⟨_, ha, _⟩ => by simpa using ha, fun ha => ?_⟩
  refine ⟨by rwa [List.length_set], by simpa using ha, fun j hj => ?_⟩
  rw [List.getElem_set_ne (Nat.ne_of_gt hj)]
  have hall := List.findIdx?_eq_none_iff.mp hnone
  simp [hall _ (List.getElem_mem (Nat.lt_trans hj hi))]

def localStored (localBd : Option BdAddr) (localBdType : UInt8)
    (resolved : Option (BdAddr × UInt8)) : BdAddr × UInt8 :=
  match localBd with
  | none => (0, localBdType)
  | some addr =>
    if localBdType = gapLocalAddrLeRandom ∧ addrMask addr = 1 then
      resolved.getD (addr, localBdType)
    else
      (addr, localBdType)

theorem isLocal_some {e : LeBondEntry} (he : (e.bondInfo.localBd, e.bondInfo.localBdType) =
      localStored localBd localBdType (localBd.bind resolve)) (r : BdAddr × UInt8) :
    e.isLocal (some r) = true ↔ localStored localBd localBdType (localBd.bind resolve) = r := by
  obtain ⟨addr, type⟩ := r
  rw [← he, Prod.mk.injEq]
  unfold LeBondEntry.isLocal
  rw [Bool.and_eq_true, beq_iff_eq, beq_iff_eq, And.comm]

theorem localStored_some (h : ¬(localBdType = gapLocalAddrLeRandom ∧ addrMask addr = 1)) :
    localStored (some addr) localBdType resolved = (addr, localBdType) := by
  unfold localStored
  exact if_neg h

theorem isLocal_public {e : LeBondEntry} {addr : BdAddr}
    (he : (e.bondInfo.localBd, e.bondInfo.localBdType) =
      localStored (some addr) gapLocalAddrLeRapOrPublic (resolve addr)) :
    ¬e.isLocal (localToCheck (some addr) gapLocalAddrLeRapOrPublic resolve) = true := by
  unfold localToCheck
  dsimp only
  -- the stored type is not the one that is checked
  rw [if_neg (by decide), if_neg (fun h => absurd h.1 (by decide)),
    @isLocal_some _ (some addr) _ _ he, localStored_some (fun h => absurd h.1 (by decide))]
  exact fun h => absurd (Prod.mk.inj h).2 (by decide)

theorem isLocal_rand {e : LeBondEntry} {addr : BdAddr}
    (he : (e.bondInfo.localBd, e.bondInfo.localBdType) =
      localStored (some addr) gapLocalAddrLeRapOrRand (resolve addr)) :
    e.isLocal (localToCheck (some addr) gapLocalAddrLeRapOrRand resolve) = true ↔
      addrMask addr = 1 ∧ ∀ r ∈ resolve addr, r = (addr, gapLocalAddrLeRapOrRand) := by
  have hstored : ∀ r, e.isLocal (some r) = true ↔ (addr, gapLocalAddrLeRapOrRand) = r := by
    intro r
    rw [@isLocal_some _ (some addr) _ _ he, localStored_some (fun h => absurd h.1 (by decide))]
  unfold localToCheck
  dsimp only
  rw [if_neg (by decide)]
  by_cases hmask : addrMask addr = 1
  . rw [if_pos ⟨rfl, hmask⟩]
    cases hresolve : resolve addr with
    | none => exact iff_of_true rfl ⟨hmask, nofun⟩
    | some r =>
      rw [hstored]
      refine ⟨fun h => ⟨hmask, ?_⟩, fun h => (h.2 r rfl).symm⟩
      rintro _ ⟨⟩
      exact h.symm
  . rw [if_neg fun h => hmask h.2, hstored]
    refine iff_of_false (fun h => ?_) fun h => hmask h.1
    exact absurd (Prod.mk.inj h).2 (by decide)

theorem isLocal_plain {e : LeBondEntry} {addr : BdAddr}
    (he : (e.bondInfo.localBd, e.bondInfo.localBdType) =
      localStored (some addr) localBdType (resolve addr))
    (hpublic : localBdType ≠ gapLocalAddrLeRapOrPublic)
    (hrand : localBdType ≠ gapLocalAddrLeRapOrRand) :
    e.isLocal (localToCheck (some addr) localBdType resolve) = true := by
  have hsome := @isLocal_some localBdType (some addr) resolve e he
  have htype : withoutRap localBdType = localBdType := if_neg (not_or.mpr ⟨hpublic, hrand⟩)
  unfold localToCheck
  dsimp only
  split
  . rfl
  rw [htype]
  by_cases hrpa : localBdType = gapLocalAddrLeRandom ∧ addrMask addr = 1
  . rw [if_pos hrpa]
    cases hresolve : resolve addr with
    | none => rfl
    | some r =>
      rw [hsome, Option.bind_some, hresolve]
      unfold localStored
      exact if_pos hrpa
  . rw [if_neg hrpa, hsome, localStored_some hrpa]

theorem isLocal_iff {e : LeBondEntry} (he : (e.bondInfo.localBd, e.bondInfo.localBdType) =
      localStored localBd localBdType (localBd.bind resolve)) :
    e.isLocal (localToCheck localBd localBdType resolve) = true ↔
      LocalFound localBd localBdType resolve := by
  cases localBd with
  | none => exact iff_of_true rfl nofun
  | some addr =>
    unfold LocalFound
    simp only [Option.mem_some_iff, forall_eq']
    by_cases hpublic : localBdType = gapLocalAddrLeRapOrPublic
    . subst hpublic
      exact iff_of_false (isLocal_public he) fun h => h.1 rfl
    by_cases hrand : localBdType = gapLocalAddrLeRapOrRand
    . subst hrand
      exact (isLocal_rand he).trans ⟨fun h => ⟨hpublic, fun _ => h⟩, fun h => h.2 rfl⟩
    . exact iff_of_true (isLocal_plain he hpublic hrand)
        ⟨hpublic, fun h => absurd h hrand⟩

theorem isRemote_iff {e : LeBondEntry} {addr : BdAddr}
    (hbdType : bdType ≤ gapRemoteAddrLeRandomIdentity) (haddr : e.remoteBd = addr)
    (htype : e.remoteBdType = bdType) :
    e.updateIdentityAddr.isRemote addr bdType = true ↔
      bdType = gapRemoteAddrLePublic ∨ bdType = gapRemoteAddrLeRandom ∨
        bdType = gapRemoteAddrLeRandomIdentity ∧ e.remoteIdentityAddrType = gapIdentAddrRand := by
  have hremote : e.updateIdentityAddr.remoteBd = addr ∧
      e.updateIdentityAddr.remoteBdType = bdType := by
    unfold LeBondEntry.updateIdentityAddr
    split <;> exact ⟨haddr, htype⟩
  have hcases : bdType = gapRemoteAddrLePublic ∨ bdType = gapRemoteAddrLeRandom ∨
      bdType = gapRemoteAddrLePublicIdentity ∨ bdType = gapRemoteAddrLeRandomIdentity := by
    rw [UInt8.le_iff_toNat_le] at hbdType
    simp only [← UInt8.toNat_inj]
    simp only [gapRemoteAddrLePublic, gapRemoteAddrLeRandom, gapRemoteAddrLePublicIdentity,
      gapRemoteAddrLeRandomIdentity, UInt8.reduceToNat] at hbdType ⊢
    omega
  unfold LeBondEntry.isRemote
  obtain h | h | h | h := hcases
  . rw [if_neg (by rw [h]; decide), hremote.1, hremote.2]
    exact iff_of_true (by simp) (.inl h)
  . rw [if_neg (by rw [h]; decide), hremote.1, hremote.2]
    exact iff_of_true (by simp) (.inr (.inl h))
  . -- the identity type of a public identity is stored as that of a random one
    have hident : e.updateIdentityAddr.remoteIdentityAddrType = gapIdentAddrRand := by
      unfold LeBondEntry.updateIdentityAddr
      rw [htype, h]
      rfl
    rw [if_pos (.inl h), hident, h]
    refine iff_of_false (by simp [gapIdentAddrRand, gapRemoteAddrLePublicIdentity]) ?_
    simp [gapRemoteAddrLePublicIdentity, gapRemoteAddrLePublic, gapRemoteAddrLeRandom,
      gapRemoteAddrLeRandomIdentity]
  . -- that of a random identity is not stored
    have hident : e.updateIdentityAddr.remoteIdentityAddrType = e.remoteIdentityAddrType ∧
        e.updateIdentityAddr.remoteIdentityAddr = addr := by
      unfold LeBondEntry.updateIdentityAddr
      rw [htype, h]
      exact ⟨rfl, haddr⟩
    rw [if_pos (.inr h), hident.1, hident.2, h]
    simp [gapRemoteAddrLeRandomIdentity, gapRemoteAddrLePublic, gapRemoteAddrLeRandom,
      gapIdentAddrRand]

theorem btLeAllocateKeyEntry_cases {resolved : Option (BdAddr × UInt8)}
    (hfree : s.searchUnused ≠ s.table.length) :
    ∃ e : LeBondEntry, s.btLeAllocateKeyEntry bdAddr bdType localBd localBdType resolved =
        (s.setEntry s.searchUnused e.updateIdentityAddr, some s.searchUnused) ∧
      e.isUsed = true ∧ e.remoteBd = peerBdAddr bdAddr bdType ∧ e.remoteBdType = bdType ∧
      e.remoteIdentityAddrType = (s.entry s.searchUnused).remoteIdentityAddrType ∧
      (e.bondInfo.localBd, e.bondInfo.localBdType) = localStored localBd localBdType resolved := by
  unfold LeStore.btLeAllocateKeyEntry
  dsimp only
  rw [if_neg hfree]
  exact ⟨_, rfl, rfl, rfl, rfl, rfl, rfl⟩

theorem bondInfo_updateIdentityAddr {e : LeBondEntry} :
    e.updateIdentityAddr.bondInfo = e.bondInfo := by
  unfold LeBondEntry.updateIdentityAddr
  split <;> rfl

end

theorem bt_le_allocate_then_find (aes : List UInt8 → List UInt8 → List UInt8)
    (queue : List LocalIrk) (bdAddr : BdAddr) (bdType : UInt8) (localBd : Option BdAddr)
    (localBdType : UInt8) (hbdType : bdType ≤ gapRemoteAddrLeRandomIdentity)
    (hfree : s.searchUnused ≠ s.table.length)
    (hnew : s.btLeFindKeyEntry bdAddr bdType localBd localBdType
      (btLeResolveLocalRpa aes queue) = none) :
    ∃ t i, s.btLeAllocateKeyEntry bdAddr bdType localBd localBdType
        (localBd.bind (btLeResolveLocalRpa aes queue)) = (t, some i) ∧
      (t.btLeFindKeyEntry bdAddr bdType localBd localBdType
          (btLeResolveLocalRpa aes queue) = some i ↔
        s.cb.cfg.gapBondManager = false ∧ s.RemoteFound bdType ∧
          LocalFound localBd localBdType (btLeResolveLocalRpa aes queue)) := by
  obtain ⟨e, halloc, hused, haddr, htype, hident, hlocal⟩ := @btLeAllocateKeyEntry_cases s bdAddr
    bdType localBdType localBd (localBd.bind (btLeResolveLocalRpa aes queue)) hfree
  refine ⟨_, _, halloc, ?_⟩
  unfold LeStore.btLeFindKeyEntry at hnew ⊢
  rw [setEntry_cb]
  cases hmanager : s.cb.cfg.gapBondManager with
  | true =>
    rw [if_pos rfl]
    exact iff_of_false nofun fun h => absurd h.1 (by decide)
  | false =>
    rw [hmanager, if_neg Bool.false_ne_true] at hnew
    rw [if_neg Bool.false_ne_true]
    have hset := @findIdx?_set _ _ _ _ e.updateIdentityAddr hnew (searchUnused_free hfree).1
    refine hset.trans ?_
    rw [isUsed_updateIdentityAddr, hused, Bool.true_and, Bool.and_eq_true,
      isRemote_iff hbdType haddr htype, hident]
    rw [← bondInfo_updateIdentityAddr] at hlocal
    rw [isLocal_iff hlocal]
    exact ⟨fun h => ⟨rfl, h⟩, fun h => h.2⟩

theorem bt_le_allocate_then_find_static :
    ∃ t i, (LeStore.ofBonds 0 1).btLeAllocateKeyEntry 0xC12233445566 1 (some 0x66) 0
        ((some 0x66).bind (btLeResolveLocalRpa (fun buffer _ => buffer) [])) = (t, some i) ∧
      (t.btLeFindKeyEntry 0xC12233445566 1 (some 0x66) 0
          (btLeResolveLocalRpa (fun buffer _ => buffer) []) = some i ↔
        (LeStore.ofBonds 0 1).cb.cfg.gapBondManager = false ∧ (LeStore.ofBonds 0 1).RemoteFound 1 ∧
          LocalFound (some 0x66) 0 (btLeResolveLocalRpa (fun buffer _ => buffer) [])) :=
  (LeStore.ofBonds 0 1).bt_le_allocate_then_find (fun buffer _ => buffer) [] 0xC12233445566 1
    (some 0x66) 0 (by decide) (by decide) (by decide)

theorem not_bt_le_allocate_then_find :
    (∀ bdType ∈ [gapRemoteAddrLePublicIdentity, gapRemoteAddrLeRandomIdentity],
      ((LeStore.ofBonds 0 1).btLeAllocateKeyEntry 0xC12233445566 bdType none 0 none).2 = some 0 ∧
      ((LeStore.ofBonds 0 1).btLeAllocateKeyEntry 0xC12233445566 bdType none 0
        none).1.btLeFindKeyEntry 0xC12233445566 bdType none 0 (fun _ => none) = none) ∧
    ∀ localBdType ∈ [gapLocalAddrLeRapOrPublic, gapLocalAddrLeRapOrRand],
      ((LeStore.ofBonds 0 1).btLeAllocateKeyEntry 0xC12233445566 1 (some 0x66) localBdType
        none).2 = some 0 ∧
      ((LeStore.ofBonds 0 1).btLeAllocateKeyEntry 0xC12233445566 1 (some 0x66) localBdType
        none).1.btLeFindKeyEntry 0xC12233445566 1 (some 0x66) localBdType
          (fun _ => none) = none := by
  simp only [List.forall_mem_cons, List.not_mem_nil, false_implies, implies_true, and_true]
  refine ⟨⟨⟨?_, ?_⟩, ?_, ?_⟩, ⟨?_, ?_⟩, ?_, ?_⟩ <;> decide

end LeStore

end Bond
