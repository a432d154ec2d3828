import Earphone.BleMgr.ScanFilter

namespace BleScan

open List

structure Request where
  hdl : Nat
  filter : Option Filter
  cb : Bool
  stopsReport : Bool
  stopsParam : Bool
  memScan : Bool
  memAd : Bool
  memAddr : Bool

structure Client where
  hdl : Nat
  filter : Filter
  cb : Bool
  stopsReport : Bool
  stopsParam : Bool

namespace Request

def copied (q : Request) : Filter :=
  match q.filter with
  | some p => (copyFilter p).1
  | none => .zero

def client (q : Request) : Client :=
  { hdl := q.hdl
    filter := q.copied
    cb := q.cb
    stopsReport := q.stopsReport
    stopsParam := q.stopsParam }

def started (q : Request) : Bool :=
  q.memScan && (q.copied.adStruct.isNone || q.memAd) && (q.copied.pScanAddr.isNone || q.memAddr)

end Request

def bleScanStart (queue : List Client) (q : Request) : List Client :=
  if q.started then queue ++ [q.client] else queue

def osQueueDelete (queue : List Client) (hdl : Nat) : List Client := queue.eraseP (·.hdl == hdl)

def goThroughCbs : List Client → Except Fault (List Nat)
  | [] => .ok []
  | c :: rest =>
    if !c.cb then .error .null
    else if c.stopsParam then .error .freed
    else do
      let calls ← goThroughCbs rest
      .ok (c.hdl :: calls)

def bleScanStop (changes : List Client → Bool) (queue : List Client) (hdl : Nat) :
    Except Fault (List Client) :=
  let queue := osQueueDelete queue hdl
  if changes queue then (goThroughCbs queue).map fun _ => queue else .ok queue

def report (changes : List Client → Bool) (queue : List Client) (c : Client) :
    Except Fault (List Client) :=
  if !c.cb then .error .null
  else if c.stopsReport then bleScanStop changes queue c.hdl
  else .ok queue

def bleScanHandleGapCb (changes : List Client → Bool) (r : Report) :
    Nat → Nat → List Client → Except Fault (List Nat × List Client)
  | 0, _, _ => .error .endless
  | fuel + 1, i, queue =>
    match queue[i]? with
    | none => .ok ([], queue)
    | some c => do
      let found ← matchFilter c.filter r
      if found then
        let queue ← report changes queue c
        let rest ← bleScanHandleGapCb changes r fuel ((i + 1) % 256) queue
        .ok (c.hdl :: rest.1, rest.2)
      else bleScanHandleGapCb changes r fuel ((i + 1) % 256) queue

namespace Request

variable (q : Request) (r : Report)

def Matches : Prop := ∀ g ∈ q.filter, g.Matches r

def Right : Prop := ∀ g ∈ q.filter, g.Right r

end Request

structure Setup where
  requests : List Request
  nodup : (requests.map Request.hdl).Nodup
  valid : ∀ q ∈ requests, ∀ g ∈ q.filter, g.Valid

namespace Setup

def clients (s : Setup) : List Request := s.requests.filter Request.started

def queue (s : Setup) : List Client := s.requests.foldl bleScanStart []

end Setup

structure Served (r : Report) (clients : List Request) (calls : List Nat) : Prop where
  once : ∀ q ∈ clients, q.Matches r → calls.count q.hdl = 1
  never : ∀ q ∈ clients, ¬q.Matches r → calls.count q.hdl = 0
  only : ∀ h ∈ calls, h ∈ clients.map Request.hdl

structure Dispatched (s : Setup) (changes : List Client → Bool) (r : Report) : Prop where
  report : ∃ fuel calls queue,
    bleScanHandleGapCb changes r fuel 0 s.queue = .ok (calls, queue) ∧ Served r s.clients calls
  param : goThroughCbs s.queue = .ok (s.clients.map Request.hdl)

def Good (r : Report) : List Request → Prop
  | [] => True
  | q :: rest =>
    q.Right r ∧ (¬(q.Matches r ∧ q.stopsReport = true) → Good r rest) ∧
      (q.Matches r ∧ q.stopsReport = true → (∀ d ∈ rest.head?, ¬d.Matches r) ∧ Good r rest.tail)
termination_by clients => clients.length
decreasing_by all_goals simp +arith

theorem queue_eq (s : Setup) : s.queue = s.clients.map Request.client := by
  have hfold (requests : List Request) (queue : List Client) :
      requests.foldl bleScanStart queue =
        queue ++ (requests.filter Request.started).map Request.client := by
    induction requests generalizing queue with
    | nil => simp
    | cons q rest ih =>
      rw [foldl_cons, ih]
      unfold bleScanStart
      by_cases h : q.started = true
      . simp [h]
      . simp [h]
  exact hfold s.requests []

theorem agrees_client {q : Request} (r : Report) (hq : ∀ g ∈ q.filter, g.Valid) :
    Agrees (matchFilter q.client.filter r) (q.Matches r) ↔ q.Right r := by
  unfold Request.client Request.copied Request.Matches Request.Right
  cases hf : q.filter with
  | none => simp [matchFilter, Filter.zero, agrees_ok]
  | some g => simpa using agrees_matchFilter (hq g hf)

theorem served_called (hq : q.hdl ∉ rest.map Request.hdl)
    (hcalls : ∀ h ∈ calls, h ∈ rest.map Request.hdl) :
    Served r (q :: rest) (q.hdl :: calls) ↔ q.Matches r ∧ Served r rest calls := by
  have hzero : calls.count q.hdl = 0 := count_eq_zero.mpr fun h => hq (hcalls _ h)
  have hother (d : Request) (hd : d ∈ rest) :
      (q.hdl :: calls).count d.hdl = calls.count d.hdl := by
    refine count_cons_of_ne fun heq => hq ?_
    rw [heq]
    exact mem_map_of_mem hd
  constructor
  . intro h
    constructor
    . by_contra hno
      have hnever := h.never q mem_cons_self hno
      rw [count_cons_self] at hnever
      omega
    . refine ⟨fun d hd hm => ?_, fun d hd hm => ?_, hcalls⟩
      . rw [← hother d hd]
        exact h.once d (mem_cons_of_mem _ hd) hm
      . rw [← hother d hd]
        exact h.never d (mem_cons_of_mem _ hd) hm
  . rintro ⟨hm, h⟩
    refine ⟨fun d hd hmd => ?_, fun d hd hmd => ?_, fun h hh => ?_⟩
    . cases mem_cons.mp hd with
      | inl heq => rw [heq, count_cons_self, hzero]
      | inr hin =>
        rw [hother d hin]
        exact h.once d hin hmd
    . cases mem_cons.mp hd with
      | inl heq => rw [heq] at hmd; exact absurd hm hmd
      | inr hin =>
        rw [hother d hin]
        exact h.never d hin hmd
    . cases mem_cons.mp hh with
      | inl heq => rw [heq]; exact mem_cons_self
      | inr hin => exact mem_cons_of_mem _ (hcalls h hin)

theorem served_passed (hq : q.hdl ∉ rest.map Request.hdl)
    (hcalls : ∀ h ∈ calls, h ∈ rest.map Request.hdl) :
    Served r (q :: rest) calls ↔ ¬q.Matches r ∧ Served r rest calls := by
  have hzero : calls.count q.hdl = 0 := count_eq_zero.mpr fun h => hq (hcalls _ h)
  constructor
  . intro h
    constructor
    . intro hm
      have honce := h.once q mem_cons_self hm
      omega
    . exact ⟨fun d hd => h.once d (mem_cons_of_mem _ hd),
        fun d hd => h.never d (mem_cons_of_mem _ hd), hcalls⟩
  . rintro ⟨hm, h⟩
    refine ⟨fun d hd hmd => ?_, fun d hd hmd => ?_, fun h hh => ?_⟩
    . cases mem_cons.mp hd with
      | inl heq => rw [heq] at hmd; exact absurd hmd hm
      | inr hin => exact h.once d hin hmd
    . cases mem_cons.mp hd with
      | inl heq => rw [heq]; exact hzero
      | inr hin => exact h.never d hin hmd
    . exact mem_cons_of_mem _ (hcalls h hh)

inductive Walks (r : Report) : List Request → List Nat → Prop where
  | nil : Walks r [] []
  | pass {q : Request} {rest : List Request} {calls : List Nat}
      (hm : matchFilter q.client.filter r = .ok false) (hrest : Walks r rest calls) :
      Walks r (q :: rest) calls
  | call {q : Request} {rest : List Request} {calls : List Nat}
      (hm : matchFilter q.client.filter r = .ok true) (hs : q.stopsReport = false)
      (hrest : Walks r rest calls) : Walks r (q :: rest) (q.hdl :: calls)
  | stop {q : Request} {rest : List Request} {calls : List Nat}
      (hm : matchFilter q.client.filter r = .ok true) (hs : q.stopsReport = true)
      (hrest : Walks r rest.tail calls) : Walks r (q :: rest) (q.hdl :: calls)

section

variable {r : Report}

theorem Walks.only (h : Walks r rest calls) : ∀ k ∈ calls, k ∈ rest.map Request.hdl := by
  induction h with
  | nil => simp
  | pass hm hrest ih => exact fun k hk => mem_cons_of_mem _ (ih k hk)
  | call hm hs hrest ih =>
    intro k hk
    cases mem_cons.mp hk with
    | inl heq => rw [heq]; exact mem_cons_self
    | inr hin => exact mem_cons_of_mem _ (ih k hin)
  | @stop q rest calls hm hs hrest ih =>
    intro k hk
    cases mem_cons.mp hk with
    | inl heq => rw [heq]; exact mem_cons_self
    | inr hin =>
      refine mem_cons_of_mem _ ?_
      obtain ⟨d, hd, hdk⟩ := mem_map.mp (ih k hin)
      exact mem_map.mpr ⟨d, mem_of_mem_tail hd, hdk⟩

theorem served_tail (hnodup : (rest.map Request.hdl).Nodup)
    (hcalls : ∀ h ∈ calls, h ∈ rest.tail.map Request.hdl) :
    Served r rest calls ↔ (∀ d ∈ rest.head?, ¬d.Matches r) ∧ Served r rest.tail calls := by
  cases rest with
  | nil => simp
  | cons d rest =>
    rw [map_cons, nodup_cons] at hnodup
    rw [served_passed hnodup.1 hcalls]
    simp

theorem walks_served_iff (rest : List Request) (hnodup : (rest.map Request.hdl).Nodup)
    (hvalid : ∀ q ∈ rest, ∀ g ∈ q.filter, g.Valid) :
    (∃ calls, Walks r rest calls ∧ Served r rest calls) ↔ Good r rest := by
  match rest with
  | [] =>
    rw [Good]
    exact ⟨fun _ => trivial, fun _ => ⟨[], .nil, by simp, by simp, by simp⟩⟩
  | q :: rest =>
    have hq := agrees_client r (hvalid q mem_cons_self)
    rw [map_cons, nodup_cons] at hnodup
    obtain ⟨hnotin, hnodup⟩ := hnodup
    have hvalid' : ∀ d ∈ rest, ∀ g ∈ d.filter, g.Valid :=
      fun d hd => hvalid d (mem_cons_of_mem _ hd)
    have hall := walks_served_iff rest hnodup hvalid'
    have htail := walks_served_iff rest.tail
      (by rw [map_tail]; exact hnodup.tail)
      fun d hd => hvalid' d (mem_of_mem_tail hd)
    rw [Good]
    constructor
    . rintro ⟨calls, hwalks, hserved⟩
      cases hwalks with
      | pass hm hrest =>
        rw [served_passed hnotin hrest.only] at hserved
        refine ⟨hq.mp ⟨false, hm, by simp [hserved.1]⟩, fun _ => hall.mp ⟨_, hrest, hserved.2⟩, ?_⟩
        exact fun h => absurd h.1 hserved.1
      | call hm hs hrest =>
        rw [served_called hnotin hrest.only] at hserved
        refine ⟨hq.mp ⟨true, hm, by simp [hserved.1]⟩, fun _ => hall.mp ⟨_, hrest, hserved.2⟩, ?_⟩
        intro h
        rw [hs] at h
        exact absurd h.2 Bool.false_ne_true
      | stop hm hs hrest =>
        have honly : ∀ k ∈ _, k ∈ rest.map Request.hdl := fun k hk => by
          obtain ⟨d, hd, hdk⟩ := mem_map.mp (hrest.only k hk)
          exact mem_map.mpr ⟨d, mem_of_mem_tail hd, hdk⟩
        rw [served_called hnotin honly, served_tail hnodup hrest.only] at hserved
        obtain ⟨hmatches, hhead, hserved⟩ := hserved
        refine ⟨hq.mp ⟨true, hm, by simp [hmatches]⟩, fun h => absurd ⟨hmatches, hs⟩ h, fun _ => ?_⟩
        exact ⟨hhead, htail.mp ⟨_, hrest, hserved⟩⟩
    . rintro ⟨hright, hgo, hstop⟩
      obtain ⟨b, hm, hb⟩ := hq.mpr hright
      by_cases hmatches : q.Matches r
      . rw [hb.mpr hmatches] at hm
        by_cases hs : q.stopsReport = true
        . obtain ⟨hhead, hgood⟩ := hstop ⟨hmatches, hs⟩
          obtain ⟨calls, hwalks, hserved⟩ := htail.mpr hgood
          have hrest := (served_tail hnodup hwalks.only).mpr ⟨hhead, hserved⟩
          exact ⟨_, .stop hm hs hwalks, (served_called hnotin hrest.only).mpr ⟨hmatches, hrest⟩⟩
        . obtain ⟨calls, hwalks, hserved⟩ := hall.mpr (hgo fun h => hs h.2)
          exact ⟨_, .call hm (by simpa using hs) hwalks,
            (served_called hnotin hwalks.only).mpr ⟨hmatches, hserved⟩⟩
      . have hfalse : b = false := by
          rw [← Bool.not_eq_true]
          exact fun h => hmatches (hb.mp h)
        rw [hfalse] at hm
        obtain ⟨calls, hwalks, hserved⟩ := hall.mpr (hgo fun h => hmatches h.1)
        exact ⟨_, .pass hm hwalks, (served_passed hnotin hwalks.only).mpr ⟨hmatches, hserved⟩⟩
termination_by rest.length
decreasing_by all_goals simp +arith

end

section

variable {changes : List Client → Bool} {r : Report}

def Client.Stays (c : Client) : Prop := c.cb = true ∧ c.stopsParam = false

theorem goThroughCbs_eq_ok_iff (queue : List Client) :
    goThroughCbs queue = .ok (queue.map Client.hdl) ↔ ∀ c ∈ queue, c.Stays := by
  induction queue with
  | nil => simp [goThroughCbs]
  | cons c rest ih =>
    unfold goThroughCbs
    rw [forall_mem_cons, ← ih]
    unfold Client.Stays
    cases hcb : c.cb with
    | false => simp
    | true =>
      cases hs : c.stopsParam with
      | true => simp
      | false =>
        cases hrest : goThroughCbs rest with
        | error e => simp [bind, Except.bind]
        | ok calls => simp [bind, Except.bind]

theorem osQueueDelete_eq (hnodup : (queue.map Client.hdl).Nodup)
    (hdrop : queue.drop i = c :: rest) :
    osQueueDelete queue c.hdl = queue.take i ++ rest := by
  have hsplit : queue = queue.take i ++ c :: rest := by
    rw [← hdrop, take_append_drop]
  rw [hsplit, map_append, map_cons, nodup_append] at hnodup
  have hno : ∀ d ∈ queue.take i, ¬(d.hdl == c.hdl) = true := by
    intro d hd heq
    exact hnodup.2.2 _ (mem_map_of_mem hd) _ mem_cons_self (beq_iff_eq.mp heq)
  unfold osQueueDelete
  conv => lhs; rw [hsplit]
  rw [eraseP_append_right _ hno, eraseP_cons_of_pos (by simp)]

theorem report_eq {queue : List Client} (hstays : ∀ c ∈ queue, c.Stays) {c : Client}
    (hc : c ∈ queue) :
    report changes queue c = .ok (if c.stopsReport then osQueueDelete queue c.hdl else queue) := by
  unfold report bleScanStop
  rw [(hstays c hc).1]
  by_cases hs : c.stopsReport = true
  . have hleft : goThroughCbs (osQueueDelete queue c.hdl) = .ok _ :=
      (goThroughCbs_eq_ok_iff _).mpr fun d hd => hstays d (mem_of_mem_eraseP hd)
    simp only [hs, hleft, Except.map, Bool.not_true, Bool.false_eq_true, if_false, if_true]
    split <;> rfl
  . simp [hs]

theorem loop_iff_walks (rest : List Request) (i : Nat) (queue : List Client) (calls : List Nat)
    (hdrop : queue.drop i = rest.map Request.client) (hlen : queue.length ≤ 255)
    (hnodup : (queue.map Client.hdl).Nodup) (hstays : ∀ c ∈ queue, c.Stays) :
    (∃ fuel left, bleScanHandleGapCb changes r fuel i queue = .ok (calls, left)) ↔
      Walks r rest calls := by
  match rest with
  | [] =>
    have hnone : queue[i]? = none := by
      rw [← head?_drop, hdrop]
      rfl
    constructor
    . rintro ⟨fuel, left, h⟩
      cases fuel with
      | zero => cases h
      | succ fuel =>
        unfold bleScanHandleGapCb at h
        rw [hnone] at h
        simp only [Except.ok.injEq, Prod.mk.injEq] at h
        rw [← h.1]
        exact .nil
    . intro h
      cases h
      refine ⟨1, queue, ?_⟩
      unfold bleScanHandleGapCb
      rw [hnone]
  | q :: rest =>
    have hsome : queue[i]? = some q.client := by
      rw [← List.head?_drop, hdrop]
      rfl
    have hi : i < queue.length := (List.getElem?_eq_some_iff.mp hsome).1
    have hin : q.client ∈ queue := List.mem_of_getElem? hsome
    have hidx : (i + 1) % 256 = i + 1 := Nat.mod_eq_of_lt (by omega)
    have hdrop' : queue.drop (i + 1) = rest.map Request.client := by
      rw [← tail_drop, hdrop]
      rfl
    have hdelete := osQueueDelete_eq hnodup hdrop
    have hleft : (queue.take i ++ rest.map Request.client).Sublist queue := by
      rw [← hdelete]
      exact eraseP_sublist
    -- a client that stays leaves the queue as it is
    have hall (calls : List Nat) := loop_iff_walks rest (i + 1) queue calls hdrop' hlen hnodup
      hstays
    -- a client that stops in its callback is deleted, and the index goes past the next one
    have htail (calls : List Nat) := loop_iff_walks rest.tail (i + 1)
      (queue.take i ++ rest.map Request.client) calls
      (by
        rw [drop_append, length_take, Nat.min_eq_left (Nat.le_of_lt hi),
          Nat.add_sub_cancel_left, drop_eq_nil_of_le (by rw [length_take]; omega),
          nil_append, drop_one, map_tail])
      (Nat.le_trans hleft.length_le hlen) (hnodup.sublist (hleft.map _))
      fun c hc => hstays c (hleft.subset hc)
    have hreport := @report_eq changes queue hstays _ hin
    have hdel : osQueueDelete queue q.client.hdl = queue.take i ++ rest.map Request.client :=
      hdelete
    rw [hdel] at hreport
    constructor
    . rintro ⟨fuel, left, h⟩
      cases fuel with
      | zero => cases h
      | succ fuel =>
        unfold bleScanHandleGapCb at h
        rw [hsome] at h
        cases hm : matchFilter q.client.filter r with
        | error e => simp [hm, bind, Except.bind] at h
        | ok found =>
          cases found with
          | false =>
            simp only [hm, hidx, bind, Except.bind, Bool.false_eq_true, if_false] at h
            exact .pass hm ((hall calls).mp ⟨fuel, left, h⟩)
          | true =>
            simp only [hm, hidx, hreport, bind, Except.bind, if_true] at h
            split at h
            . cases h
            . next res hres =>
              simp only [Except.ok.injEq, Prod.mk.injEq] at h
              rw [← h.1]
              by_cases hs : q.stopsReport = true
              . have hc : q.client.stopsReport = true := hs
                rw [if_pos hc] at hres
                exact .stop hm hs ((htail res.1).mp ⟨fuel, res.2, hres⟩)
              . have hc : ¬q.client.stopsReport = true := hs
                rw [if_neg hc] at hres
                exact .call hm (by simpa using hs) ((hall res.1).mp ⟨fuel, res.2, hres⟩)
    . intro h
      cases h with
      | pass hm hrest =>
        obtain ⟨fuel, left, h⟩ := (hall calls).mpr hrest
        refine ⟨fuel + 1, left, ?_⟩
        unfold bleScanHandleGapCb
        simp only [hsome, hm, hidx, h, bind, Except.bind, Bool.false_eq_true, if_false]
      | call hm hs hrest =>
        obtain ⟨fuel, left, h⟩ := (hall _).mpr hrest
        have hc : ¬q.client.stopsReport = true := by
          rw [Bool.not_eq_true]
          exact hs
        refine ⟨fuel + 1, left, ?_⟩
        rw [if_neg hc] at hreport
        unfold bleScanHandleGapCb
        simp only [hsome, hm, hidx, h, hreport, bind, Except.bind, if_true]
        rfl
      | stop hm hs hrest =>
        obtain ⟨fuel, left, h⟩ := (htail _).mpr hrest
        have hc : q.client.stopsReport = true := hs
        refine ⟨fuel + 1, left, ?_⟩
        rw [if_pos hc] at hreport
        unfold bleScanHandleGapCb
        simp only [hsome, hm, hidx, h, hreport, bind, Except.bind, if_true]
        rfl
termination_by rest.length
decreasing_by all_goals simp +arith

end

def Stays (clients : List Request) : Prop :=
  ∀ q ∈ clients, q.cb = true ∧ q.stopsParam = false
  deriving Decidable

section

variable (s : Setup) (changes : List Client → Bool) (r : Report)

theorem stays_iff : goThroughCbs s.queue = .ok (s.clients.map Request.hdl) ↔ Stays s.clients := by
  have hparam := goThroughCbs_eq_ok_iff (s.clients.map Request.client)
  have hhdl : (s.clients.map Request.client).map Client.hdl = s.clients.map Request.hdl := by
    rw [map_map]
    rfl
  rw [queue_eq, ← hhdl, hparam, forall_mem_map]
  rfl

theorem report_iff (hlen : s.clients.length ≤ 255) (hstays : Stays s.clients) :
    (∃ fuel calls queue, bleScanHandleGapCb changes r fuel 0 s.queue = .ok (calls, queue) ∧
      Served r s.clients calls) ↔ Good r s.clients := by
  have hsub : s.clients.Sublist s.requests := filter_sublist
  have hnodup : (s.clients.map Request.hdl).Nodup := s.nodup.sublist (hsub.map _)
  have hvalid : ∀ q ∈ s.clients, ∀ g ∈ q.filter, g.Valid := fun q hq => s.valid q (hsub.subset hq)
  have hloop (calls : List Nat) :=
    @loop_iff_walks changes r s.clients 0 s.queue calls (by rw [queue_eq]; rfl)
      (by rw [queue_eq, length_map]; exact hlen)
      (by rw [queue_eq, map_map]; exact hnodup)
      (by rw [queue_eq, forall_mem_map]; exact hstays)
  rw [← walks_served_iff s.clients hnodup hvalid]
  constructor
  . rintro ⟨fuel, calls, queue, hrun, hserved⟩
    exact ⟨calls, (hloop calls).mp ⟨fuel, queue, hrun⟩, hserved⟩
  . rintro ⟨calls, hwalks, hserved⟩
    obtain ⟨fuel, queue, hrun⟩ := (hloop calls).mpr hwalks
    exact ⟨fuel, calls, queue, hrun, hserved⟩

theorem loop_endless (queue : List Client) (hlen : 256 ≤ queue.length)
    (hstays : ∀ c ∈ queue, c.stopsReport = false) (fuel i : Nat) (hi : i < 256)
    (res : List Nat × List Client) : bleScanHandleGapCb changes r fuel i queue ≠ .ok res := by
  induction fuel generalizing i res with
  | zero => exact fun h => by cases h
  | succ fuel ih =>
    have hget := getElem?_eq_getElem (Nat.lt_of_lt_of_le hi hlen)
    have hnext := ih ((i + 1) % 256) (Nat.mod_lt _ (by decide))
    have hstop := hstays _ (getElem_mem (Nat.lt_of_lt_of_le hi hlen))
    unfold bleScanHandleGapCb report
    simp only [hget, hstop, Bool.false_eq_true, if_false]
    cases hm : matchFilter queue[i].filter r with
    | error e => exact fun h => by cases h
    | ok found =>
      cases found with
      | false => exact hnext res
      | true =>
        cases hcb : queue[i].cb with
        | false => exact fun h => by cases h
        | true =>
          simp only [bind, Except.bind, Bool.not_true, Bool.false_eq_true, if_false, if_true]
          split
          . exact fun h => by cases h
          . next res' hres => exact absurd hres (hnext res')

theorem dispatched_iff
    (hwrap : s.clients.length ≤ 255 ∨ ∀ q ∈ s.clients, q.stopsReport = false) :
    Dispatched s changes r ↔ s.clients.length ≤ 255 ∧ Stays s.clients ∧ Good r s.clients := by
  constructor
  . intro h
    have hlen : s.clients.length ≤ 255 := by
      by_contra hno
      obtain ⟨fuel, calls, queue, hrun, -⟩ := h.report
      have hstays := hwrap.resolve_left hno
      refine loop_endless changes r s.queue ?_ ?_ fuel 0 (by decide) _ hrun
      . rw [queue_eq, length_map]
        omega
      . rw [queue_eq, forall_mem_map]
        exact hstays
    have hstays := (stays_iff s).mp h.param
    exact ⟨hlen, hstays, (report_iff s changes r hlen hstays).mp h.report⟩
  . rintro ⟨hlen, hstays, hgood⟩
    exact ⟨(report_iff s changes r hlen hstays).mpr hgood, (stays_iff s).mpr hstays⟩

end

def Request.plain (hdl : Nat) (filter : Option Filter) (stops : Bool) : Request :=
  { hdl, filter
    cb := true
    stopsReport := stops
    stopsParam := false
    memScan := true
    memAd := true
    memAddr := true }

theorem dispatched_iff_name :
    Dispatched
      { requests := [.plain 1 (some ⟨2, 0, 2, 0, some [9, 0x41], none⟩) false, .plain 2 none true]
        nodup := by decide
        valid := by decide }
      (fun _ => true) ⟨0, ⟨0, [1, 2, 3, 4, 5, 6]⟩, [2, 1, 6, 3, 9, 0x41, 0x42]⟩ := by
  refine (dispatched_iff _ _ _ (.inl (by decide))).mpr ⟨by decide, by decide, ?_⟩
  have hfrom (p : Nat) (h : From [2, 1, 6, 3, 9, 0x41, 0x42] 0 p) : p = 0 ∨ p = 3 := by
    rw [from_iff, from_iff, from_iff] at h
    simpa [octet] using h
  have hthree : From [2, 1, 6, 3, 9, 0x41, 0x42] 0 3 := .next (by decide) (.here (by decide))
  have hwalk : Filter.WalkOk [9, 0x41] [2, 1, 6, 3, 9, 0x41, 0x42] := by
    refine ⟨fun p h _ => ?_, fun p _ _ => ⟨3, hthree, by decide, by decide, by rw [Stands]; decide⟩⟩
    cases hfrom p h with
    | inl h0 => rw [h0]; decide
    | inr h3 => rw [h3]; decide
  change Good _ [.plain 1 (some ⟨2, 0, 2, 0, some [9, 0x41], none⟩) false, .plain 2 none true]
  have hright : (Request.plain 1 (some ⟨2, 0, 2, 0, some [9, 0x41], none⟩) false).Right
      ⟨0, ⟨0, [1, 2, 3, 4, 5, 6]⟩, [2, 1, 6, 3, 9, 0x41, 0x42]⟩ := by
    intro g hg
    cases hg
    exact fun _ => ⟨fun h => absurd h (by decide), fun _ _ => ⟨_, rfl, hwalk⟩⟩
  rw [Good, Good, tail_nil, Good]
  refine ⟨hright, fun _ => ⟨fun g hg => (by cases hg), fun _ => trivial, fun _ => ?_⟩, fun h => ?_⟩
  . exact ⟨fun d hd => (by cases hd), trivial⟩
  . exact absurd h.2 (by decide)

theorem not_dispatched_stop :
    ¬Dispatched
      { requests := [.plain 1 none true, .plain 2 none false]
        nodup := by decide
        valid := by decide }
      (fun _ => false) ⟨0, ⟨0, [1, 2, 3, 4, 5, 6]⟩, [2, 1, 6]⟩ := by
  intro h
  have hgood := (report_iff _ _ _ (by decide) (by decide)).mp h.report
  change Good _ [.plain 1 none true, .plain 2 none false] at hgood
  rw [Good] at hgood
  have hall (hdl : Nat) (stops : Bool) (r : Report) : (Request.plain hdl none stops).Matches r :=
    fun g hg => by cases hg
  exact (hgood.2.2 ⟨hall _ _ _, rfl⟩).1 _ rfl (hall _ _ _)

end BleScan
