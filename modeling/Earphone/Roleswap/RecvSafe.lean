import Earphone.Lib.Run
import Earphone.Roleswap.Recv

namespace Roleswap

open Layout

theorem six_le_size (s : Struct) : 6 ≤ s.size := by
  cases s <;> decide

theorem info_size_le (t : DataType) : t.info.size ≤ unionSize := by
  cases t <;> decide

theorem span_lt (s : Struct) (f : Field) : ∀ i ∈ (s.span f).places, i < s.size := by
  intro i hi
  have hstop : (s.span f).stop ≤ s.size := span_stop_le s.members f
  simp only [Span.places, List.mem_map, List.mem_range] at hi
  obtain ⟨k, hk, rfl⟩ := hi
  unfold Span.stop at hstop
  omega

theorem spans_lt (s : Struct) (fields : List Field) :
    ∀ i ∈ fields.flatMap fun f => (s.span f).places, i < s.size := by
  intro i hi
  obtain ⟨f, _, hf⟩ := List.mem_flatMap.mp hi
  exact span_lt s f i hf

theorem keyPlaces_lt (s : Struct) (key : Option Field) : ∀ i ∈ keyPlaces s key, i < s.size := by
  cases key with
  | none => simp [keyPlaces]
  | some f => exact span_lt s f

section

structure Within (n : Nat) (bud : Bud) : Prop where
  reads : ∀ i ∈ bud.log.reads, i < n
  stores : ∀ i ∈ bud.log.stores, i < unionSize

variable {n : Nat} {bud : Bud}

section

variable (h : Within n bud)

include h

theorem within_read {places : List Nat} (hplaces : ∀ i ∈ places, i < n) :
    Within n (bud.read places) where
  reads := by
    intro i hi
    obtain hi | hi := List.mem_append.mp hi
    . exact h.reads i hi
    . exact hplaces i hi
  stores := h.stores

theorem within_log (hreads : bud'.log.reads = bud.log.reads)
    (hstores : bud'.log.stores = bud.log.stores) : Within n bud' where
  reads := by rw [hreads]; exact h.reads
  stores := by rw [hstores]; exact h.stores

theorem within_act (acts : List Act) : Within n (bud.act acts) := within_log h rfl rfl

theorem within_readAddr (hn : 6 ≤ n) : Within n (readAddr bud) := by
  unfold readAddr
  split
  . exact h
  . apply within_read h
    intro i hi
    simp only [Span.places, List.mem_map, List.mem_range] at hi
    omega

theorem within_free (bdAddr : Nat) (type : DataType) (p : Data → Bool) :
    Within n (bud.btRoleswapInfoFree bdAddr type p) := within_log h rfl rfl

theorem within_storeData (bdAddr : Nat) (type : DataType) (p : Data → Bool)
    (f : Bytes → Bytes) (hplaces : ∀ i ∈ places, i < unionSize) :
    Within n (storeData bdAddr type p f places bud) where
  reads := h.reads
  stores := by
    intro i hi
    obtain hi | hi := List.mem_append.mp hi
    . exact h.stores i hi
    . exact hplaces i hi

theorem within_baseAlloc (bdAddr : Nat) : Within n (bud.btRoleswapInfoBaseAlloc bdAddr) := by
  unfold Bud.btRoleswapInfoBaseAlloc
  dsimp only
  split <;> exact within_log h rfl rfl

theorem within_alloc (bdAddr : Nat) (type : DataType) (info : Bytes)
    (hn : len ≤ n) (hunion : len ≤ unionSize) :
    Within n (btRoleswapInfoAlloc bdAddr type info len bud) := by
  unfold btRoleswapInfoAlloc
  split
  . exact h
  . split
    . exact h
    . dsimp only
      split
      . refine ⟨?_, ?_⟩
        . intro i hi
          obtain hi | hi := List.mem_append.mp hi
          . exact h.reads i hi
          . exact Nat.lt_of_lt_of_le (List.mem_range.mp hi) hn
        . intro i hi
          obtain hi | hi := List.mem_append.mp hi
          . exact h.stores i hi
          . exact Nat.lt_of_lt_of_le (List.mem_range.mp hi) hunion
      . exact within_log h rfl rfl

theorem within_l2cInfoFree (bdAddr cid : Nat) :
    Within n (btRoleswapL2cInfoFree bdAddr cid bud) := by
  unfold btRoleswapL2cInfoFree
  split
  . exact h
  . exact within_free h ..

theorem within_freeL2c (bdAddr cid : Nat) : Within n (freeL2c bdAddr cid bud) :=
  within_act (within_l2cInfoFree h bdAddr cid) _

theorem within_freeRfc (bdAddr dlci : Nat) : Within n (btSniffingFreeRfc bdAddr dlci bud) := by
  unfold btSniffingFreeRfc
  split
  . exact h
  . have hfree := within_act (within_free h bdAddr .rfcData (isRfcData dlci))
    dsimp only
    split
    . exact hfree _
    . split
      . exact hfree _
      . exact within_act (within_l2cInfoFree (within_act (within_free (hfree _) ..) _) ..) _

theorem within_freeBelow (bdAddr : Nat) (data : Data) : Within n (freeBelow bdAddr data bud) := by
  unfold freeBelow
  split
  . dsimp only
    split
    . exact within_freeL2c (within_freeL2c h ..) ..
    . exact within_freeL2c h ..
  . exact within_freeL2c h ..
  . exact within_freeRfc h ..
  . split
    . exact within_freeL2c h ..
    . exact within_freeRfc h ..
  . exact within_freeL2c (within_freeL2c h ..) ..
  . exact within_freeL2c (within_freeL2c h ..) ..
  . exact within_freeRfc h ..
  . exact within_freeL2c h ..
  . exact within_freeL2c (within_act h _) ..
  . exact h

end

end

theorem within_storeConn (type : DataType) (info : Bytes) (h : Within type.info.size bud) :
    Within type.info.size (storeConn type type.info.size info bud) := by
  unfold storeConn
  dsimp only
  split
  . apply within_storeData (within_read h fun i => List.mem_range.mp)
    intro i hi
    exact Nat.lt_of_lt_of_le (List.mem_range.mp hi) (info_size_le type)
  . exact within_alloc h _ _ _ (Nat.le_refl _) (info_size_le type)

theorem within_recvConn (type : DataType) (after : Nat → List Act) (info : Bytes)
    (h : Within type.info.size bud) :
    Within type.info.size (recvConn type after type.info.size info bud) := by
  unfold recvConn
  have hstored := within_storeConn type info (within_readAddr
    (within_read h (keyPlaces_lt type.info (connKey type))) (six_le_size _))
  dsimp only
  split
  . exact within_act (within_read hstored fun i => List.mem_range.mp) _
  . exact hstored

theorem within_recvStore (type : DataType) (src : Struct) (key : Option Field)
    (f : Bytes → Bytes → Bytes) (info : Bytes) (h : Within src.size bud)
    (hreads : ∀ i ∈ reads, i < src.size) (hstores : ∀ i ∈ stores, i < type.info.size) :
    Within src.size (recvStore type src key f reads stores info bud) := by
  unfold recvStore
  dsimp only
  have hkey := within_readAddr (within_read h (keyPlaces_lt src key)) (six_le_size _)
  split
  . exact hkey
  . apply within_storeData (within_read hkey hreads)
    intro i hi
    exact Nat.lt_of_lt_of_le (hstores i hi) (info_size_le type)

theorem within_recvFields (type : DataType) (src : Struct) (key : Option Field)
    (fields : List Field) (info : Bytes) (h : Within src.size bud) :
    Within src.size (recvFields type src key fields info bud) :=
  within_recvStore type src key _ info h (spans_lt src fields) (spans_lt type.info fields)

theorem within_findOrAllocBase (h : Within n bud) (hn : 6 ≤ n) (bdAddr : Nat) :
    Within n (findOrAllocBase bdAddr bud) := by
  unfold findOrAllocBase
  split
  . exact h
  . refine within_baseAlloc (within_read h ?_) _
    intro i hi
    simp only [Span.places, List.mem_map, List.mem_range] at hi
    omega

theorem within_recvAclConn (info : Bytes) (h : Within Struct.aclInfo.size bud) :
    Within Struct.aclInfo.size (recvAclConn Struct.aclInfo.size info bud) := by
  unfold recvAclConn
  have hbase := within_findOrAllocBase (within_readAddr h (six_le_size _)) (six_le_size _)
    (Struct.aclInfo.get .bdAddr info)
  dsimp only
  split
  . exact hbase
  . split
    . exact within_recvFields .acl .aclInfo none _ info hbase
    . exact within_alloc hbase _ _ _ (Nat.le_refl _) (info_size_le .acl)

theorem within_recvDisconn (type : DataType) (info : Bytes) (h : Within n bud)
    (hn : 8 ≤ n) : Within n (recvDisconn type info bud) := by
  unfold recvDisconn
  dsimp only
  have haddr := within_readAddr h (by omega)
  split
  . exact haddr
  . apply within_freeBelow
    apply within_act
    apply within_read (within_free haddr ..)
    intro i hi
    simp only [Span.places, List.mem_map, List.mem_range] at hi
    omega

theorem within_handleKind (kind : Kind) (info : Bytes) (h : Within kind.length bud) :
    Within kind.length (handleKind kind kind.length info bud) := by
  unfold handleKind
  split
  . exact within_recvAclConn info h
  . exact within_recvConn .btRfc _ info h
  . exact within_recvConn _ _ info h
  . exact within_recvConn .a2dp _ info h
  . unfold recvAclDisconn
    dsimp only
    have haddr := within_readAddr h (Nat.le_refl 6)
    split
    . exact haddr
    . exact within_log haddr rfl rfl
  . unfold recvSppDisconn
    dsimp only
    have hread := @within_read _ _ h (List.range 9) fun i => List.mem_range.mp
    split
    . exact hread
    . exact within_freeRfc (within_free (within_act hread _) ..) ..
  . unfold recvBtRfcDisconn
    dsimp only
    have hread := @within_read _ _ h (List.range 7) (by decide)
    split
    . exact hread
    . exact within_freeRfc (within_free (within_act hread _) ..) ..
  . next type hacl hspp hrfc =>
    apply within_recvDisconn type info h
    unfold Kind.length
    split <;> simp_all
  . unfold recvA2dpStreamDisconn
    dsimp only
    have haddr := within_readAddr h (by decide)
    split
    . exact haddr
    . exact within_freeL2c (within_storeData haddr _ _ _ _ (by decide)) ..
  . refine within_recvStore .sm .smInfo none _ info h ?_ ?_ <;> exact fun i => List.mem_range.mp
  . exact within_recvFields _ _ _ _ info h
  . unfold btSniffingRecvCtrl
    split
    . split
      . refine within_act (within_read h ?_) _
        decide
      . exact h
    . exact within_act h _
    . split
      . split
        . exact within_act h _
        . exact h
      . split
        . split
          . exact within_act h _
          . exact h
        . exact h
    . exact h

section

def AddrIn (len : Nat) (bud : Bud) : Prop := bud.roleswapInfoList ≠ [] → 6 ≤ len

def KeyIn (s : Struct) (key : Option Field) (len : Nat) : Prop := ∀ i ∈ keyPlaces s key, i < len

def Idle (kind : Kind) (len : Nat) (info : Bytes) (bud : Bud) : Prop :=
  match kind with
  | .conn .acl =>
    6 ≤ len ∧ bud.find (Struct.aclInfo.get .bdAddr info) (ofType .acl) = none ∧
      bud.allocs.headD true = false
  | .conn type => IdleConn type len info bud
  | .a2dpStreamConn => IdleConn .a2dp len info bud
  | .disconn .acl => AddrIn len bud ∧ bud.btRoleswapInfoBaseFind (load ⟨0, 6⟩ info) = none
  | .disconn .spp => 9 ≤ len ∧ bud.find (load ⟨0, 6⟩ info) (isSpp (load ⟨8, 1⟩ info)) = none
  | .disconn .btRfc => 7 ≤ len ∧ bud.find (load ⟨0, 6⟩ info) (isBtRfc (load ⟨6, 1⟩ info)) = none
  | .disconn type => AddrIn len bud ∧ bud.find (load ⟨0, 6⟩ info) (ofType type) = none
  | .a2dpStreamDisconn => AddrIn len bud ∧ bud.find (load ⟨0, 6⟩ info) (ofType .a2dp) = none
  | .transact type =>
    KeyIn (transactStruct type).1 (transactKey type) len ∧ AddrIn len bud ∧
      bud.find ((transactStruct type).1.get .bdAddr info)
        (sameKey type (transactStruct type).1 (transactKey type) info) = none
  | .ctrlTokenReq => bud.role ≠ .secondary
  | .ctrlTokenRsp => False
  | .ctrlDisconnSniffingReq =>
    match bud.role with
    | .single => True
    | .primary => bud.state ≠ .recoveryConnected
    | .secondary => bud.state ≠ .sniffingConnected ∧ bud.state ≠ .setupRecovery ∧
      bud.state ≠ .recoveryConnected
where
  IdleConn (type : DataType) (len : Nat) (info : Bytes) (bud : Bud) : Prop :=
    KeyIn type.info (connKey type) len ∧ AddrIn len bud ∧
      bud.find (type.info.get .bdAddr info) (sameKey type type.info (connKey type) info) = none ∧
        (bud.btRoleswapInfoBaseFind (type.info.get .bdAddr info) = none ∨
          bud.allocs.headD true = false) ∧ bud.sniffingLink = false

def Untouched (len : Nat) (bud : Bud) : Prop := Within len bud ∧ bud.log.acts = []

variable {bud : Bud} {len : Nat}

theorem within_of_log (h : bud.log = {}) : Within len bud := by
  constructor <;> simp [h]

theorem within_read_iff (h : bud.log = {}) (places : List Nat) :
    Within len (bud.read places) ↔ ∀ i ∈ places, i < len := by
  constructor
  . intro hw i hi
    exact hw.reads i (List.mem_append_right _ hi)
  . exact within_read (within_of_log h)

theorem addr_places : ∀ i, i ∈ Span.places ⟨0, 6⟩ ↔ i < 6 := by
  intro i
  simp [Span.places]

theorem within_addr_iff (h : Within len bud) : Within len (readAddr bud) ↔ AddrIn len bud := by
  unfold readAddr AddrIn
  split
  . next hempty => simp [h, List.isEmpty_iff.mp hempty]
  . next hne =>
    rw [List.isEmpty_iff] at hne
    constructor
    . intro hw _
      have := hw.reads 5 (List.mem_append_right _ ((addr_places 5).mpr (by decide)))
      omega
    . intro hlen
      have := hlen hne
      apply within_read h
      intro i hi
      have := (addr_places i).mp hi
      omega

theorem within_key_iff (h : bud.log = {}) (s : Struct) (key : Option Field) :
    Within len (readAddr (bud.read (keyPlaces s key))) ↔ KeyIn s key len ∧ AddrIn len bud := by
  constructor
  . intro hw
    have hread : Within len (bud.read (keyPlaces s key)) := by
      unfold readAddr at hw
      split at hw
      . exact hw
      . refine ⟨?_, hw.stores⟩
        intro i hi
        exact hw.reads i (List.mem_append_left _ hi)
    exact ⟨(within_read_iff h _).mp hread, (within_addr_iff hread).mp hw⟩
  . rintro ⟨hkey, haddr⟩
    exact (within_addr_iff ((within_read_iff h _).mpr hkey)).mpr haddr

theorem readAddr_eq (bud : Bud) :
    (readAddr bud).roleswapInfoList = bud.roleswapInfoList ∧
      (readAddr bud).sniffingLink = bud.sniffingLink ∧ (readAddr bud).allocs = bud.allocs ∧
        (readAddr bud).log.acts = bud.log.acts := by
  unfold readAddr
  split <;> exact ⟨rfl, rfl, rfl, rfl⟩

theorem find_congr {bud' : Bud} (h : bud'.roleswapInfoList = bud.roleswapInfoList) (bdAddr : Nat)
    (p : Data → Bool) : bud'.find bdAddr p = bud.find bdAddr p := by
  unfold Bud.find Bud.btRoleswapInfoBaseFind
  rw [h]

theorem baseFind_congr {bud' : Bud} (h : bud'.roleswapInfoList = bud.roleswapInfoList)
    (bdAddr : Nat) : bud'.btRoleswapInfoBaseFind bdAddr = bud.btRoleswapInfoBaseFind bdAddr := by
  unfold Bud.btRoleswapInfoBaseFind
  rw [h]

theorem find_of_base_none (h : bud.btRoleswapInfoBaseFind bdAddr = none)
    (p : Data → Bool) : bud.find bdAddr p = none := by
  unfold Bud.find
  rw [h]
  rfl

theorem untouched_alloc (hlog : bud.log.acts = []) (bdAddr : Nat) (type : DataType) (info : Bytes)
    (n : Nat) (hctrl : type = .rfcCtrl →
      bud.find bdAddr (isRfcCtrl (Struct.rfcCtrlInfo.get .l2cCid info)) = none) :
    (Untouched len (btRoleswapInfoAlloc bdAddr type info n bud) ↔ Within len bud ∧
      (bud.btRoleswapInfoBaseFind bdAddr = none ∨ bud.allocs.headD true = false)) ∧
      (btRoleswapInfoAlloc bdAddr type info n bud).sniffingLink = bud.sniffingLink := by
  unfold btRoleswapInfoAlloc
  split
  . next hbase => exact ⟨by simp [Untouched, hbase, hlog], rfl⟩
  . next hbase =>
    split
    . next hfound =>
      simp only [Bool.and_eq_true, decide_eq_true_eq] at hfound
      rw [hctrl hfound.1] at hfound
      simp at hfound
    . dsimp only
      split
      . next halloc =>
        refine ⟨?_, rfl⟩
        rw [hbase, halloc]
        simp [Untouched, Bud.act]
      . next halloc =>
        refine ⟨?_, rfl⟩
        rw [Bool.not_eq_true] at halloc
        rw [hbase, halloc]
        simp only [Untouched, reduceCtorEq, or_true, and_true]
        rw [and_iff_left (by exact hlog)]
        exact ⟨fun h => within_log h rfl rfl, fun h => within_log h rfl rfl⟩

theorem acts_storeData (bdAddr : Nat) (type : DataType) (p : Data → Bool) (f : Bytes → Bytes)
    (places : List Nat) (bud : Bud) : (storeData bdAddr type p f places bud).log.acts ≠ [] := by
  unfold storeData Bud.act
  simp

theorem untouched_recvConn (h : bud.log = {}) (type : DataType)
    (hafter : ∀ bdAddr, after bdAddr ≠ []) (n : Nat) (info : Bytes) :
    Untouched len (recvConn type after n info bud) ↔ Idle.IdleConn type len info bud := by
  unfold recvConn Idle.IdleConn
  dsimp only
  have hkey := @within_key_iff _ len h type.info (connKey type)
  obtain ⟨hlist, hlink, hallocs, hacts⟩ :=
    readAddr_eq (bud.read (keyPlaces type.info (connKey type)))
  generalize readAddr (bud.read (keyPlaces type.info (connKey type))) = bud1 at *
  have hnoacts : bud1.log.acts = [] := by
    rw [hacts]
    simp [Bud.read, h]
  have hfind1 := @find_congr bud _ hlist (type.info.get .bdAddr info)
    (sameKey type type.info (connKey type) info)
  have hstore := storeConn.eq_1 type n info bud1
  rw [← hfind1]
  cases hfind : bud1.find (type.info.get .bdAddr info)
      (sameKey type type.info (connKey type) info) with
  | some data =>
    rw [hfind] at hstore
    simp only [reduceCtorEq, false_and, and_false, iff_false]
    intro hu
    split at hu
    . exact hafter _ (List.append_eq_nil_iff.mp hu.2).2
    . rw [hstore] at hu
      exact acts_storeData _ _ _ _ _ _ hu.2
  | none =>
    rw [hfind] at hstore
    obtain ⟨halloc, hkeep⟩ := @untouched_alloc _ len hnoacts (type.info.get .bdAddr info) type
      info n (by
        rintro rfl
        exact hfind)
    have hlink1 : (storeConn type n info bud1).sniffingLink = bud.sniffingLink := by
      rw [hstore]
      exact hkeep.trans hlink
    have hallocs1 : bud1.allocs = bud.allocs := hallocs
    rw [hkey, @baseFind_congr bud _ hlist, hallocs1] at halloc
    rw [hlink1]
    cases bud.sniffingLink with
    | true =>
      simp only [if_true, reduceCtorEq, and_false, iff_false]
      intro hu
      exact hafter _ (List.append_eq_nil_iff.mp hu.2).2
    | false =>
      simp only [Bool.false_eq_true, if_false, and_true, true_and]
      rw [hstore, halloc, and_assoc]

theorem acts_recvStore (type : DataType) (src : Struct) (key : Option Field)
    (f : Bytes → Bytes → Bytes) (reads stores : List Nat) (info : Bytes)
    (h : bud.find (src.get .bdAddr info) (sameKey type src key info) ≠ none ∨ bud.log.acts ≠ []) :
    (recvStore type src key f reads stores info bud).log.acts ≠ [] := by
  unfold recvStore
  dsimp only
  obtain ⟨hlist, _, _, hacts⟩ := readAddr_eq (bud.read (keyPlaces src key))
  rw [@find_congr bud _ hlist]
  split
  . next hnone =>
    rw [hacts]
    exact h.resolve_left (fun hne => hne hnone)
  . exact acts_storeData _ _ _ _ _ _

theorem acts_alloc (h : bud.log.acts ≠ []) (bdAddr : Nat) (type : DataType) (info : Bytes)
    (n : Nat) : (btRoleswapInfoAlloc bdAddr type info n bud).log.acts ≠ [] := by
  unfold btRoleswapInfoAlloc
  split
  . exact h
  . split
    . exact h
    . dsimp only
      split
      . simp [Bud.act]
      . exact h

theorem untouched_recvStore (h : bud.log = {}) (type : DataType) (src : Struct)
    (key : Option Field) (f : Bytes → Bytes → Bytes) (reads stores : List Nat) (info : Bytes) :
    Untouched len (recvStore type src key f reads stores info bud) ↔ KeyIn src key len ∧
      AddrIn len bud ∧ bud.find (src.get .bdAddr info) (sameKey type src key info) = none := by
  unfold recvStore
  dsimp only
  have hkey := @within_key_iff _ len h src key
  obtain ⟨hlist, _, _, hacts⟩ := readAddr_eq (bud.read (keyPlaces src key))
  generalize readAddr (bud.read (keyPlaces src key)) = bud1 at *
  rw [@find_congr bud _ hlist]
  split
  . next hfind =>
    rw [hfind]
    unfold Untouched
    rw [hkey]
    simp only [and_true]
    rw [and_iff_left]
    rw [hacts]
    simp [Bud.read, h]
  . next hfind =>
    rw [hfind]
    simp only [reduceCtorEq, and_false, iff_false]
    intro hu
    exact acts_storeData _ _ _ _ _ _ hu.2

theorem untouched_recvAclConn (h : bud.log = {}) (n : Nat) (info : Bytes) :
    Untouched len (recvAclConn n info bud) ↔ 6 ≤ len ∧
      bud.find (Struct.aclInfo.get .bdAddr info) (ofType .acl) = none ∧
        bud.allocs.headD true = false := by
  unfold recvAclConn
  dsimp only
  have haddr := within_addr_iff (@within_of_log _ len h)
  obtain ⟨hlist, _, hallocs, hacts⟩ := readAddr_eq bud
  generalize readAddr bud = bud1 at *
  rw [h] at hacts
  have hempty : bud.btRoleswapInfoBaseFind (Struct.aclInfo.get .bdAddr info) ≠ none →
      bud.roleswapInfoList ≠ [] := by
    intro hne hnil
    unfold Bud.btRoleswapInfoBaseFind at hne
    rw [hnil] at hne
    exact hne rfl
  rw [← find_congr hlist (Struct.aclInfo.get .bdAddr info) (ofType .acl), ← hallocs]
  rw [← baseFind_congr hlist] at hempty
  unfold findOrAllocBase
  cases hbase : bud1.btRoleswapInfoBaseFind (Struct.aclInfo.get .bdAddr info) with
  | some base =>
    have hlen : Within len bud1 ↔ 6 ≤ len := by
      rw [haddr]
      exact forall_prop_of_true (hempty (by simp [hbase]))
    simp only [hbase]
    cases hdata : bud1.find (Struct.aclInfo.get .bdAddr info) (ofType .acl) with
    | some data =>
      simp only [reduceCtorEq, false_and, and_false, iff_false]
      intro hu
      refine acts_recvStore .acl .aclInfo none _ _ _ info (.inl ?_) hu.2
      have hsome : bud1.find (Struct.aclInfo.get .bdAddr info)
        (sameKey .acl .aclInfo none info) = some data := hdata
      rw [hsome]
      simp
    | none =>
      obtain ⟨halloc, _⟩ := @untouched_alloc _ len hacts (Struct.aclInfo.get .bdAddr info) .acl
        info n (by simp)
      simp only [halloc, hlen, hbase, reduceCtorEq, false_or, true_and]
  | none =>
    simp only [find_of_base_none hbase, true_and]
    cases halloc : bud1.allocs.headD true with
    | true =>
      simp only [reduceCtorEq, and_false, iff_false]
      have hnew : ((bud1.read (Span.places ⟨0, 6⟩)).btRoleswapInfoBaseAlloc
          (Struct.aclInfo.get .bdAddr info)).log.acts ≠ [] := by
        unfold Bud.btRoleswapInfoBaseAlloc Bud.read
        simp only [halloc, if_true]
        simp [Bud.act]
      intro hu
      split at hu
      . exact hnew hu.2
      . split at hu
        . exact acts_recvStore _ _ _ _ _ _ _ (.inr hnew) hu.2
        . exact acts_alloc hnew _ _ _ _ hu.2
    | false =>
      have hsame : ((bud1.read (Span.places ⟨0, 6⟩)).btRoleswapInfoBaseAlloc
          (Struct.aclInfo.get .bdAddr info)).btRoleswapInfoBaseFind
            (Struct.aclInfo.get .bdAddr info) = none := by
        unfold Bud.btRoleswapInfoBaseAlloc Bud.read
        simp only [halloc, Bool.false_eq_true, if_false]
        exact hbase
      rw [hsame]
      dsimp only
      unfold Bud.btRoleswapInfoBaseAlloc Bud.read
      simp only [halloc, Bool.false_eq_true, if_false, and_true]
      constructor
      . intro hu
        have := hu.1.reads 5 (List.mem_append_right _ ((addr_places 5).mpr (by decide)))
        omega
      . intro hlen
        refine ⟨?_, hacts⟩
        have hread : Within len (bud1.read (Span.places ⟨0, 6⟩)) := by
          apply within_read (haddr.mpr fun _ => hlen)
          intro i hi
          have := (addr_places i).mp hi
          omega
        exact within_log hread rfl rfl

theorem not_untouched (h : bud.log.acts ≠ []) : ¬Untouched len bud := fun hu => h hu.2

theorem untouched_readAddr (h : bud.log = {}) : Untouched len (readAddr bud) ↔ AddrIn len bud := by
  unfold Untouched
  rw [within_addr_iff (within_of_log h), and_iff_left]
  rw [(readAddr_eq bud).2.2.2, h]

theorem untouched_range (h : bud.log = {}) (hn : 0 < n) :
    Untouched len (bud.read (List.range n)) ↔ n ≤ len := by
  unfold Untouched
  rw [within_read_iff h, and_iff_left (by simp [Bud.read, h])]
  simp only [List.mem_range]
  constructor
  . intro hread
    have := hread (n - 1) (by omega)
    omega
  . intro hlen i hi
    omega

theorem acts_freeL2c (bdAddr cid : Nat) : (freeL2c bdAddr cid bud).log.acts ≠ [] := by
  unfold freeL2c Bud.act
  simp

theorem acts_freeRfc (h : bud.log.acts ≠ []) (bdAddr dlci : Nat) :
    (btSniffingFreeRfc bdAddr dlci bud).log.acts ≠ [] := by
  unfold btSniffingFreeRfc
  split
  . exact h
  . dsimp only
    split
    . simp [Bud.act]
    . split
      . simp [Bud.act]
      . simp [Bud.act]

theorem acts_freeBelow (h : bud.log.acts ≠ []) (bdAddr : Nat) (data : Data) :
    (freeBelow bdAddr data bud).log.acts ≠ [] := by
  unfold freeBelow
  split
  . dsimp only
    split <;> exact acts_freeL2c _ _
  . exact acts_freeL2c _ _
  . exact acts_freeRfc h _ _
  . split
    . exact acts_freeL2c _ _
    . exact acts_freeRfc h _ _
  . exact acts_freeL2c _ _
  . exact acts_freeL2c _ _
  . exact acts_freeRfc h _ _
  . exact acts_freeL2c _ _
  . exact acts_freeL2c _ _
  . exact h

section

variable (h : bud.log = {})

include h

theorem untouched_recvDisconn (type : DataType) (info : Bytes) :
    Untouched len (recvDisconn type info bud) ↔
      AddrIn len bud ∧ bud.find (load ⟨0, 6⟩ info) (ofType type) = none := by
  unfold recvDisconn
  dsimp only
  rw [@find_congr bud _ (readAddr_eq bud).1]
  split
  . next hnone => rw [untouched_readAddr h, and_iff_left hnone]
  . next data hsome =>
    rw [hsome]
    refine iff_of_false (not_untouched (acts_freeBelow ?_ _ _)) (by simp)
    simp [Bud.act]

theorem untouched_recvAclDisconn (info : Bytes) :
    Untouched len (recvAclDisconn info bud) ↔
      AddrIn len bud ∧ bud.btRoleswapInfoBaseFind (load ⟨0, 6⟩ info) = none := by
  unfold recvAclDisconn
  dsimp only
  rw [@baseFind_congr bud _ (readAddr_eq bud).1]
  split
  . next hnone => rw [untouched_readAddr h, and_iff_left hnone]
  . next base hsome =>
    rw [hsome]
    refine iff_of_false (not_untouched ?_) (by simp)
    simp [Bud.btRoleswapInfoBaseFree, Bud.act]

theorem untouched_recvA2dpStreamDisconn (info : Bytes) :
    Untouched len (recvA2dpStreamDisconn info bud) ↔
      AddrIn len bud ∧ bud.find (load ⟨0, 6⟩ info) (ofType .a2dp) = none := by
  unfold recvA2dpStreamDisconn
  dsimp only
  rw [@find_congr bud _ (readAddr_eq bud).1]
  split
  . next hnone => rw [untouched_readAddr h, and_iff_left hnone]
  . next data hsome =>
    rw [hsome]
    exact iff_of_false (not_untouched (acts_freeL2c _ _)) (by simp)

theorem untouched_recvSppDisconn (info : Bytes) :
    Untouched len (recvSppDisconn info bud) ↔ 9 ≤ len ∧
      bud.find (load ⟨0, 6⟩ info) (isSpp (load ⟨8, 1⟩ info)) = none := by
  unfold recvSppDisconn
  dsimp only
  rw [@find_congr bud (bud.read (List.range 9)) rfl]
  split
  . next hnone => rw [untouched_range h (by decide), and_iff_left hnone]
  . next data hsome =>
    rw [hsome]
    refine iff_of_false (not_untouched (acts_freeRfc ?_ _ _)) (by simp)
    simp [Bud.btRoleswapInfoFree, Bud.act]

theorem untouched_recvBtRfcDisconn (info : Bytes) :
    Untouched len (recvBtRfcDisconn info bud) ↔ 7 ≤ len ∧
      bud.find (load ⟨0, 6⟩ info) (isBtRfc (load ⟨6, 1⟩ info)) = none := by
  unfold recvBtRfcDisconn
  dsimp only
  rw [@find_congr bud (bud.read (List.range 7)) rfl]
  split
  . next hnone => rw [untouched_range h (by decide), and_iff_left hnone]
  . next data hsome =>
    rw [hsome]
    refine iff_of_false (not_untouched (acts_freeRfc ?_ _ _)) (by simp)
    simp [Bud.btRoleswapInfoFree, Bud.act]

theorem untouched_self : Untouched len bud := by
  refine ⟨within_of_log h, ?_⟩
  rw [h]

theorem untouched_recvCtrl (kind : Kind) (info : Bytes)
    (hkind : kind = .ctrlTokenReq ∨ kind = .ctrlTokenRsp ∨ kind = .ctrlDisconnSniffingReq) :
    Untouched len (btSniffingRecvCtrl kind info bud) ↔ Idle kind len info bud := by
  have hself := @untouched_self _ len h
  obtain rfl | rfl | rfl := hkind
  . unfold btSniffingRecvCtrl Idle
    dsimp only
    split
    . next hrole => exact iff_of_false (not_untouched (by simp [Bud.act])) (by simp [hrole])
    . next hrole => exact iff_of_true hself hrole
  . exact iff_of_false (not_untouched (by simp [btSniffingRecvCtrl, Bud.act])) id
  . unfold btSniffingRecvCtrl Idle
    dsimp only
    cases bud.role with
    | single => exact iff_of_true hself trivial
    | primary =>
      simp only [if_true]
      split
      . next hstate => exact iff_of_false (not_untouched (by simp [Bud.act])) (by simp [hstate])
      . next hstate => exact iff_of_true hself hstate
    | secondary =>
      simp only [reduceCtorEq, if_false, if_true]
      split
      . next hstate =>
        refine iff_of_false (not_untouched (by simp [Bud.act])) ?_
        simp only [Bool.or_eq_true, decide_eq_true_eq] at hstate
        tauto
      . next hstate =>
        refine iff_of_true hself ?_
        simp only [Bool.or_eq_true, decide_eq_true_eq] at hstate
        tauto

theorem untouched_handleKind (kind : Kind) (n : Nat) (info : Bytes) :
    Untouched len (handleKind kind n info bud) ↔ Idle kind len info bud := by
  unfold handleKind
  split
  . exact untouched_recvAclConn h n info
  . exact untouched_recvConn h .btRfc (by simp [afterConn]) _ info
  . next type hacl hrfc =>
    have hafter : ∀ bdAddr, afterConn type bdAddr ≠ [] := by
      intro bdAddr
      unfold afterConn
      split <;> simp
    rw [untouched_recvConn h type hafter n info]
    cases type <;> first | rfl | exact absurd rfl hacl
  . exact untouched_recvConn h .a2dp (by simp) _ info
  . exact untouched_recvAclDisconn h info
  . exact untouched_recvSppDisconn h info
  . exact untouched_recvBtRfcDisconn h info
  . next type hacl hspp hrfc =>
    rw [untouched_recvDisconn h type info]
    cases type <;> first | rfl | exact absurd rfl hacl | exact absurd rfl hspp | exact absurd rfl hrfc
  . exact untouched_recvA2dpStreamDisconn h info
  . exact untouched_recvStore h .sm .smInfo none _ _ _ info
  . next type _ => exact untouched_recvStore h type _ _ _ _ _ info
  . apply untouched_recvCtrl h
    cases kind <;> simp_all

end

end

section

variable {bud : Bud}

structure RecordSafe (bud : Bud) (r : Record) : Prop where
  within : Within r.len (recvRecord { bud with log := {} } r)
  complete : ∀ kind, Kind.ofCodes r.module r.submodule = some kind → r.len ≠ kind.length →
    (recvRecord { bud with log := {} } r).log.acts = []

def RecordOk (bud : Bud) (r : Record) : Prop :=
  ∀ kind, Kind.ofCodes r.module r.submodule = some kind →
    r.len = kind.length ∨ Idle kind r.len r.info bud

theorem recordSafe_iff (bud : Bud) (r : Record) : RecordSafe bud r ↔ RecordOk bud r := by
  unfold RecordOk
  have hlog : ({ bud with log := {} } : Bud).log = {} := rfl
  cases hkind : Kind.ofCodes r.module r.submodule with
  | none =>
    refine iff_of_true ⟨?_, ?_⟩ (by simp)
    . unfold recvRecord
      rw [hkind]
      exact within_of_log hlog
    . simp [hkind]
  | some kind =>
    have hrecv : recvRecord { bud with log := {} } r =
        handleKind kind r.len r.info { bud with log := {} } := by
      unfold recvRecord
      rw [hkind]
    have huntouched := @untouched_handleKind _ r.len hlog kind r.len r.info
    have hidle : Idle kind r.len r.info { bud with log := {} } ↔ Idle kind r.len r.info bud :=
      Iff.rfl
    rw [hidle] at huntouched
    constructor
    . intro hsafe kind' hsome
      rw [Option.some.injEq] at hsome
      subst hsome
      by_cases hlen : r.len = kind.length
      . exact .inl hlen
      . right
        apply huntouched.mp
        rw [← hrecv]
        exact ⟨hsafe.within, hsafe.complete kind hkind hlen⟩
    . intro hok
      obtain hlen | hdoes := hok kind rfl
      . refine ⟨?_, ?_⟩
        . rw [hrecv, hlen]
          exact within_handleKind kind r.info (within_of_log hlog)
        . intro kind' hsome hne
          rw [hkind, Option.some.injEq] at hsome
          rw [← hsome] at hne
          exact absurd hlen hne
      . have := huntouched.mpr hdoes
        rw [← hrecv] at this
        exact ⟨this.1, fun _ _ _ => this.2⟩

theorem recvFrom_eq (data : Bytes) (start n : Nat) (bud : Bud) :
    recvFrom data start n bud = Run.exec recvRecord bud (records data start n) := by
  induction n using Nat.strongRecOn generalizing start bud with
  | ind n ih =>
    unfold recvFrom records
    split
    . rfl
    . dsimp only
      split
      . rfl
      . exact ih _ (by omega) ..

end

end Roleswap
