import ThreadCommissioner.Collectors

namespace ThreadCommissioner.Splitting

open Collectors Computations Diagnostics Errors List

section Restriction

variable {f g : UInt64}

theorem or_and_distrib (f g bit : UInt64) : (f ||| g) &&& bit = (f &&& bit) ||| (g &&& bit) := by
  apply UInt64.toBitVec_inj.mp
  ext i hi
  simp [Bool.and_or_distrib_right]

def pick {α : Type} (flags bit : UInt64) (field : Option α) : Option α := if flags &&& bit = 0 then none else field

theorem pick_or_pick {α : Type} (f g bit : UInt64) (field : Option α) :
    (pick g bit field).or (pick f bit field) = pick (f ||| g) bit field := by
  by_cases hf : f &&& bit = 0 <;> by_cases hg : g &&& bit = 0 <;> cases field <;> simp [pick, or_and_distrib, hf, hg]

def restrict (data : NetDiagData) (flags : UInt64) : NetDiagData where
  extMacAddr := pick flags DiagFlags.extMacAddr data.extMacAddr
  macAddr := pick flags DiagFlags.macAddr data.macAddr
  mode := pick flags DiagFlags.mode data.mode
  timeout := pick flags DiagFlags.timeout data.timeout
  connectivity := pick flags DiagFlags.connectivity data.connectivity
  route64 := pick flags DiagFlags.route64 data.route64
  leaderData := pick flags DiagFlags.leaderData data.leaderData
  networkData := pick flags DiagFlags.networkData data.networkData
  addresses := pick flags DiagFlags.ipv6Addresses data.addresses
  macCounters := pick flags DiagFlags.macCounters data.macCounters
  batteryLevel := pick flags DiagFlags.batteryLevel data.batteryLevel
  supplyVoltage := pick flags DiagFlags.supplyVoltage data.supplyVoltage
  childTable := pick flags DiagFlags.childTable data.childTable
  channelPages := pick flags DiagFlags.channelPages data.channelPages
  typeList := pick flags DiagFlags.typeList data.typeList
  eui64 := pick flags DiagFlags.eui64 data.eui64
  childIpv6Addresses := pick flags DiagFlags.childIpv6Addresses data.childIpv6Addresses

theorem mergeNetdiag_restrict (data : NetDiagData) (f g : UInt64) :
    mergeNetdiag (restrict data f) (restrict data g) = restrict data (f ||| g) := by
  simp only [mergeNetdiag, restrict, pick_or_pick]

theorem mergeNetdiag_default (data : NetDiagData) : mergeNetdiag {} data = data := by
  simp [mergeNetdiag]

end Restriction

section Batches

variable {batch : List UInt64}

theorem foldl_or (flags : UInt64) (batch : List UInt64) : batch.foldl (· ||| ·) flags = flags ||| combine batch := by
  induction batch generalizing flags with
  | nil => simp [combine]
  | cons flag batch ih =>
    rw [combine, foldl_cons, foldl_cons, ih, ih (0 ||| flag), UInt64.zero_or, UInt64.or_assoc]

theorem combine_cons (flag : UInt64) (batch : List UInt64) : combine (flag :: batch) = flag ||| combine batch := by
  rw [combine, foldl_cons, UInt64.zero_or, foldl_or]

theorem combine_append (front back : List UInt64) : combine (front ++ back) = combine front ||| combine back := by
  rw [combine, foldl_append, foldl_or]
  rfl

theorem and_combine {flag : UInt64} (h : flag ∈ batch) : flag &&& combine batch = flag := by
  induction batch with
  | nil => cases h
  | cons first batch ih =>
    rw [combine_cons, UInt64.and_comm, or_and_distrib]
    rcases mem_cons.mp h with rfl | h
    · apply UInt64.toBitVec_inj.mp
      ext i hi
      simp
    · rw [UInt64.and_comm (combine batch) flag, ih h]
      apply UInt64.toBitVec_inj.mp
      ext i hi
      simp

theorem combine_eq_zero (hflags : ∀ flag ∈ batch, flag ≠ 0) (h : combine batch = 0) : batch = [] := by
  cases batch with
  | nil => rfl
  | cons flag batch =>
    rw [combine_cons, UInt64.or_eq_zero_iff] at h
    exact absurd h.1 (hflags flag mem_cons_self)

theorem stackWeight_chunks (tlvs : List UInt64) : stackWeight (chunks tlvs) ≤ 2 * tlvs.length := by
  induction tlvs using chunks.induct with
  | case1 =>
    rw [chunks, if_pos rfl]
    exact Nat.zero_le _
  | case2 tlvs hne ih =>
    have hlen := length_pos_iff.mpr hne
    rw [chunks, if_neg hne, stackWeight_cons, batchWeight, length_take]
    rw [length_drop] at ih
    rw [chunkSize] at ih ⊢
    omega

theorem flatten_chunks (tlvs : List UInt64) : (chunks tlvs).flatten = tlvs := by
  induction tlvs using chunks.induct with
  | case1 =>
    rw [chunks, if_pos rfl]
    rfl
  | case2 tlvs hne ih => rw [chunks, if_neg hne, flatten_cons, ih, take_append_drop]

section Answered

variable {answered : UInt64 → Prop} [DecidablePred answered]

def answeredIn (answered : UInt64 → Prop) [DecidablePred answered] (tlvs : List UInt64) : UInt64 :=
  combine (tlvs.filter (answered ·))

theorem answeredIn_append (answered : UInt64 → Prop) [DecidablePred answered] (front back : List UInt64) :
    answeredIn answered (front ++ back) = answeredIn answered front ||| answeredIn answered back := by
  rw [answeredIn, filter_append, combine_append]
  rfl

def Closed (answered : UInt64 → Prop) : Prop :=
  ∀ flags flags', answered flags → flags' ≠ 0 → flags' &&& flags = flags' → answered flags'

theorem answeredIn_of_answered (hclosed : Closed answered) (hflags : ∀ flag ∈ batch, flag ≠ 0)
    (h : answered (combine batch)) : answeredIn answered batch = combine batch := by
  have hall : ∀ flag ∈ batch, answered flag := fun flag hflag =>
    hclosed _ _ h (hflags flag hflag) (and_combine hflag)
  rw [answeredIn, filter_eq_self.mpr]
  simpa using hall

theorem answeredIn_of_refused (hlen : ¬ 1 < batch.length) (h : ¬ answered (combine batch)) :
    answeredIn answered batch = 0 := by
  match batch, hlen, h with
  | [], _, _ => rfl
  | [flag], _, h =>
    rw [combine_cons, combine, foldl_nil, UInt64.or_zero] at h
    rw [answeredIn, filter_singleton]
    simp [h, combine]
  | _ :: _ :: _, hlen, _ => exact absurd (by simp) hlen

theorem answeredIn_filter (hmac : answered DiagFlags.macAddr) (tlvs : List UInt64) :
    DiagFlags.macAddr ||| answeredIn answered (tlvs.filter (· ≠ DiagFlags.macAddr)) =
      DiagFlags.macAddr ||| answeredIn answered tlvs := by
  induction tlvs with
  | nil => rfl
  | cons flag tlvs ih =>
    have hcons := answeredIn_append answered [flag] tlvs
    rw [singleton_append] at hcons
    by_cases hflag : flag = DiagFlags.macAddr
    · have hself : answeredIn answered [flag] = DiagFlags.macAddr := by
        rw [hflag, answeredIn, filter_singleton]
        simp [hmac, combine]
      rw [filter_cons_of_neg (by simpa using hflag), ih, hcons, hself, ← UInt64.or_assoc, UInt64.or_self]
    · have hkept := answeredIn_append answered [flag] (tlvs.filter (· ≠ DiagFlags.macAddr))
      rw [singleton_append] at hkept
      rw [filter_cons_of_pos (by simpa using hflag), hkept, hcons, ← UInt64.or_assoc, ← UInt64.or_assoc,
        UInt64.or_comm DiagFlags.macAddr, UInt64.or_assoc, UInt64.or_assoc, ih]

end Answered

theorem flatten_halved (batch : List UInt64) (rest : List (List UInt64)) :
    (halved batch rest).flatten = batch.drop (batch.length / 2) ++ (batch.take (batch.length / 2) ++ rest.flatten) := by
  simp [halved]

theorem mem_halved {rest : List (List UInt64)} {flag : UInt64} (h : flag ∈ (halved batch rest).flatten) :
    flag ∈ batch ++ rest.flatten := by
  rw [flatten_halved] at h
  rcases mem_append.mp h with hdrop | h
  · exact mem_append_left _ (mem_of_mem_drop hdrop)
  rcases mem_append.mp h with htake | h
  · exact mem_append_left _ (mem_of_mem_take htake)
  · exact mem_append_right _ h

theorem answeredIn_halved (answered : UInt64 → Prop) [DecidablePred answered] (batch : List UInt64) (rest : List (List UInt64)) :
    answeredIn answered (halved batch rest).flatten = answeredIn answered (batch ++ rest.flatten) := by
  have hwhole := answeredIn_append answered (batch.take (batch.length / 2)) (batch.drop (batch.length / 2))
  rw [take_append_drop] at hwhole
  rw [flatten_halved, answeredIn_append, answeredIn_append, answeredIn_append, hwhole, ← UInt64.or_assoc,
    UInt64.or_comm (answeredIn answered (batch.drop _))]

end Batches

section Queries

variable {σ : Type}

/-- A node that holds the data and answers the sets of flags that it answers with
the data restricted to them. While its route is resolved, `waiting` counts the
requests that are still lost. Keep-alives end as they may. -/
structure Reachable (client : Client σ) (destination : Ipv6Addr) (timeout : ℕ) (data : NetDiagData)
    (answered : UInt64 → Prop) (waiting : ℕ → σ → Prop) : Prop where
  closed : Closed answered
  primed : answered DiagFlags.macAddr
  answers : ∀ {flags s}, waiting 0 s → answered flags → ∃ s',
    (client.getDiagnostics timeout destination flags).run s = .ok (some (restrict data flags)) s' ∧ waiting 0 s'
  refuses : ∀ {flags s}, waiting 0 s → ¬ answered flags →
    usable (outcome ((client.getDiagnostics timeout destination flags).run s)) = .ok none ∧
      waiting 0 (finalState ((client.getDiagnostics timeout destination flags).run s))
  loses : ∀ {n s}, waiting (n + 1) s →
    usable (outcome ((client.getDiagnostics timeout destination DiagFlags.macAddr).run s)) = .ok none ∧
      waiting n (finalState ((client.getDiagnostics timeout destination DiagFlags.macAddr).run s))
  keeps : ∀ {n s}, waiting n s → waiting n (finalState (client.keepAlive.run s))

def WalkEvent.isRequest : WalkEvent → Bool
  | .request _ _ _ => true
  | .keepAlive _ _ => false

def requestCount (events : List WalkEvent) : ℕ := events.countP WalkEvent.isRequest

/-- After the events at the start at most so many requests have been made. -/
def Grown (start : List WalkEvent) (bound : ℕ) (events : List WalkEvent) : Prop :=
  ∃ later, events = start ++ later ∧ requestCount later ≤ bound

variable {bound' : ℕ} {c : Collector σ}

theorem Grown.mono {start events : List WalkEvent} {bound : ℕ} (h : Grown start bound events) (hle : bound ≤ bound') :
    Grown start bound' events := by
  obtain ⟨later, heq, hcount⟩ := h
  exact ⟨later, heq, hcount.trans hle⟩

theorem Grown.concat {start evs : List WalkEvent} {bound : ℕ} (h : Grown start bound evs) (event : WalkEvent) :
    Grown start (bound + requestCount [event]) (evs ++ [event]) := by
  obtain ⟨later, rfl, hcount⟩ := h
  refine ⟨later ++ [event], append_assoc _ _ _, ?_⟩
  rw [requestCount, countP_append]
  exact Nat.add_le_add_right hcount _

def Failed (start : List WalkEvent) (bound : ℕ) (c : Collector σ) : Prop :=
  ∃ later sent, c.events = start ++ later ∧ requestCount later ≤ bound ∧ WalkEvent.keepAlive sent none ∈ later

/-- The node is reached once so many requests are lost. -/
structure Progress (timeout : ℕ) (waiting : ℕ → σ → Prop) (start : List WalkEvent) (n bound : ℕ) (c : Collector σ) :
    Prop where
  waits : waiting n c.commissioner
  timeout_eq : c.nodeTimeout = timeout
  grown : Grown start bound c.events

variable {client : Client σ} {dest : Ipv6Addr} {timeout : ℕ} {data : NetDiagData} {answered : UInt64 → Prop} {waiting : ℕ → σ → Prop} {start : List WalkEvent} {n bound limit : ℕ}

theorem Progress.mono (h : Progress timeout waiting start n bound c) (hle : bound ≤ bound') :
    Progress timeout waiting start n bound' c := ⟨h.waits, h.timeout_eq, h.grown.mono hle⟩

def Gathered (timeout : ℕ) (waiting : ℕ → σ → Prop) (start : List WalkEvent) (data : NetDiagData) (flags : UInt64)
    (bound : ℕ) (result : NetDiagData) (c : Collector σ) : Prop :=
  result = restrict data flags ∧ Progress timeout waiting start 0 bound c

theorem Gathered.mono {flags flags' : UInt64} {res : NetDiagData}
    (h : Gathered timeout waiting start data flags bound res c) (hflags : flags = flags') (hle : bound ≤ bound') :
    Gathered timeout waiting start data flags' bound' res c := ⟨hflags ▸ h.1, h.2.mono hle⟩

section Node

variable (h : Reachable client dest timeout data answered waiting)

include h

theorem keepAlive_progress (hlimit : bound ≤ limit) :
    Triple (Progress timeout waiting start n bound) (fun _ => Progress timeout waiting start n bound) (Failed start limit)
      (keepAliveBeforeRequest client) := by
  intro c hc
  rcases keepAliveBeforeRequest_cases client c with ⟨-, hrun⟩ | ⟨s, hkeepAlive, hrun⟩ | ⟨e, hrun⟩
  · rw [hrun]
    exact hc
  · rw [hrun]
    have hs : waiting n s := by
      have hkept := h.keeps hc.waits
      rwa [hkeepAlive] at hkept
    exact ⟨hs, hc.timeout_eq, hc.grown.concat _⟩
  · rw [hrun]
    obtain ⟨later, hlater, hcount⟩ := hc.grown
    refine ⟨later ++ [.keepAlive (client.now c.commissioner) none], client.now c.commissioner, ?_, ?_, ?_⟩
    · rw [← append_assoc, ← hlater]
      rfl
    · rw [requestCount, countP_append]
      exact hcount.trans hlimit
    · exact mem_append_right _ (mem_singleton_self _)

theorem diagQuery_lost : Triple (Progress timeout waiting start (n + 1) bound)
      (fun answer c => answer = none ∧ Progress timeout waiting start n (bound + 1) c) (Failed start limit)
      (diagQuery client dest DiagFlags.macAddr) := by
  intro c hc
  obtain ⟨hrun, hs'⟩ := h.loses hc.waits
  rw [diagQuery_run, hc.timeout_eq, hrun]
  refine ⟨rfl, ?_, hc.timeout_eq, hc.grown.concat _⟩
  change waiting n (finalState ((client.getDiagnostics c.nodeTimeout dest DiagFlags.macAddr).run c.commissioner))
  rw [hc.timeout_eq]
  exact hs'

variable [DecidablePred answered]

theorem diagQuery_progress (flags : UInt64) : Triple (Progress timeout waiting start 0 bound)
      (fun answer c => answer = (if answered flags then some (restrict data flags) else none) ∧
        Progress timeout waiting start 0 (bound + 1) c) (Failed start limit) (diagQuery client dest flags) := by
  intro c hc
  have hgrown := hc.grown.concat (.request flags (client.now c.commissioner)
    (client.now (asked client c dest flags).commissioner))
  rw [diagQuery_run, hc.timeout_eq]
  by_cases hanswered : answered flags
  · obtain ⟨s', hrun, hs'⟩ := h.answers hc.waits hanswered
    rw [hrun, if_pos hanswered]
    refine ⟨rfl, ?_, hc.timeout_eq, hgrown⟩
    change waiting 0 (finalState ((client.getDiagnostics c.nodeTimeout dest flags).run c.commissioner))
    rw [hc.timeout_eq, hrun]
    exact hs'
  · obtain ⟨hrun, hs'⟩ := h.refuses hc.waits hanswered
    rw [hrun, if_neg hanswered]
    refine ⟨rfl, ?_, hc.timeout_eq, hgrown⟩
    change waiting 0 (finalState ((client.getDiagnostics c.nodeTimeout dest flags).run c.commissioner))
    rw [hc.timeout_eq]
    exact hs'

theorem primeFor_progress (attempts : ℕ) (hattempts : n < attempts) (hlimit : bound + n + 1 ≤ limit) :
    Triple (Progress timeout waiting start n bound) (fun answer c => answer = some (restrict data DiagFlags.macAddr) ∧
        Progress timeout waiting start 0 (bound + n + 1) c) (Failed start limit) (primeFor client dest attempts) := by
  induction attempts generalizing n bound with
  | zero => exact absurd hattempts (Nat.not_lt_zero n)
  | succ attempts ih =>
    refine (keepAlive_progress h (by omega)).bind fun _ => ?_
    cases n with
    | zero =>
      refine (diagQuery_progress h DiagFlags.macAddr).bind fun answer => ?_
      rintro c ⟨rfl, hc⟩
      rw [if_pos h.primed]
      exact ⟨rfl, hc⟩
    | succ n =>
      refine (diagQuery_lost h).bind fun answer => ?_
      rintro c ⟨rfl, hc⟩
      have hbound : bound + 1 + n + 1 = bound + (n + 1) + 1 := by omega
      rw [← hbound] at hlimit ⊢
      exact ih (by omega) hlimit c hc

/-- The loop gathers what the node answers of the flags on the stack, with at most
as many queries as the stack weighs. -/
theorem collectBatches_progress
    (stack : List (List UInt64)) (merged : NetDiagData) (hflags : ∀ flag ∈ stack.flatten, flag ≠ 0) {flags : UInt64}
    (hmerged : merged = restrict data flags) (hlimit : bound + stackWeight stack ≤ limit) :
    Triple (Progress timeout waiting start 0 bound)
      (Gathered timeout waiting start data (flags ||| answeredIn answered stack.flatten) (bound + stackWeight stack))
      (Failed start limit) (collectBatches client dest stack merged) := by
  induction stack, merged using collectBatches.induct generalizing flags bound with
  | case1 merged =>
    rw [collectBatches]
    refine triple_pure fun c hc => ⟨?_, hc⟩
    rw [hmerged, flatten_nil, answeredIn]
    simp [combine]
  | case2 merged batch rest ihrest ihanswer ihsplit =>
    rw [stackWeight_cons] at hlimit ⊢
    rw [flatten_cons] at hflags ⊢
    obtain ⟨hbatch, hrest⟩ := forall_mem_append.mp hflags
    have hpos := batchWeight_pos batch
    rw [collectBatches]
    refine (keepAlive_progress h (by omega)).bind fun _ => ?_
    by_cases hempty : combine batch = 0
    · rw [if_pos hempty, combine_eq_zero hbatch hempty, nil_append]
      exact (ihrest hrest hmerged (by omega)).weaken fun res c hc => hc.mono rfl (by omega)
    rw [if_neg hempty]
    refine (diagQuery_progress h (combine batch)).bind fun answer => ?_
    rintro c ⟨rfl, hc⟩
    by_cases hanswered : answered (combine batch)
    · have hmerged' : mergeNetdiag merged (restrict data (combine batch)) = restrict data (flags ||| combine batch) := by
        rw [hmerged, mergeNetdiag_restrict]
      rw [if_pos hanswered]
      refine (ihanswer _ hrest hmerged' (by omega)).weaken (fun res c hc => hc.mono ?_ (by omega)) c hc
      rw [answeredIn_append, answeredIn_of_answered h.closed hbatch hanswered, UInt64.or_assoc]
    rw [if_neg hanswered]
    by_cases hlen : 1 < batch.length
    · -- both halves are asked for, the second one first
      have hweight : stackWeight (halved batch rest) + 1 ≤ _ := stackWeight_halved hlen
      have hhalves : ∀ flag ∈ (halved batch rest).flatten, flag ≠ 0 := fun flag hflag => hflags flag (mem_halved hflag)
      simp only [if_pos hlen]
      refine (ihsplit hlen hhalves hmerged (by omega)).weaken (fun res c hc => hc.mono ?_ (by omega)) c hc
      rw [answeredIn_halved]
    · simp only [if_neg hlen]
      refine (ihrest hrest hmerged (by omega)).weaken (fun res c hc => hc.mono ?_ (by omega)) c hc
      rw [answeredIn_append, answeredIn_of_refused hlen hanswered, UInt64.zero_or]

theorem prime_ends (htimeout : c.nodeTimeout = timeout) (hwaiting : waiting n c.commissioner) (hn : n < primeAttempts) :
    ∃ priming c₁, c₁.events = c.events ++ priming ∧ requestCount priming ≤ primeAttempts ∧
      ((prime client dest).run c = .ok (some (restrict data DiagFlags.macAddr)) c₁ ∧
          c₁.nodeTimeout = timeout ∧ waiting 0 c₁.commissioner ∨
        ∃ e sent, (prime client dest).run c = .error e c₁ ∧ WalkEvent.keepAlive sent none ∈ priming) := by
  have hstart : Progress timeout waiting c.events n 0 c := ⟨hwaiting, htimeout, [], (append_nil _).symm, le_rfl⟩
  have hends : Ends _ (Failed c.events primeAttempts) ((prime client dest).run c) :=
    primeFor_progress h primeAttempts hn (by omega) c hstart
  cases hrun : (prime client dest).run c with
  | ok answer c₁ =>
    rw [hrun] at hends
    obtain ⟨rfl, hprogress⟩ := hends
    obtain ⟨priming, hpriming, hcount⟩ := hprogress.grown
    exact ⟨priming, c₁, hpriming, hcount.trans (by omega), .inl ⟨rfl, hprogress.timeout_eq, hprogress.waits⟩⟩
  | error e c₁ =>
    rw [hrun] at hends
    obtain ⟨priming, sent, hpriming, hcount, hfailed⟩ := hends
    exact ⟨priming, c₁, hpriming, hcount, .inr ⟨e, sent, rfl, hfailed⟩⟩

theorem batches_end {tlvs : List UInt64}
    (hflags : ∀ flag ∈ tlvs, flag ≠ 0) (flags : UInt64) (htimeout : c.nodeTimeout = timeout)
    (hwaiting : waiting 0 c.commissioner) :
    ∃ batches c₁, c₁.events = c.events ++ batches ∧ requestCount batches ≤ 2 * tlvs.length ∧
      ((collectBatches client dest (chunks tlvs) (restrict data flags)).run c =
          .ok (restrict data (flags ||| answeredIn answered tlvs)) c₁ ∨
        ∃ e sent, (collectBatches client dest (chunks tlvs) (restrict data flags)).run c = .error e c₁ ∧
          WalkEvent.keepAlive sent none ∈ batches) := by
  have hstart : Progress timeout waiting c.events 0 0 c := ⟨hwaiting, htimeout, [], (append_nil _).symm, le_rfl⟩
  have hlisted : ∀ flag ∈ (chunks tlvs).flatten, flag ≠ 0 := by rwa [flatten_chunks]
  have hweight := stackWeight_chunks tlvs
  have hends := collectBatches_progress h (chunks tlvs) (restrict data flags) hlisted rfl le_rfl c hstart
  rw [flatten_chunks] at hends
  cases hrun : (collectBatches client dest (chunks tlvs) (restrict data flags)).run c with
  | ok merged c₁ =>
    rw [hrun] at hends
    obtain ⟨rfl, hprogress⟩ := hends
    obtain ⟨batches, hbatches, hcount⟩ := hprogress.grown
    exact ⟨batches, c₁, hbatches, hcount.trans (by omega), .inl rfl⟩
  | error e c₁ =>
    rw [hrun] at hends
    obtain ⟨batches, sent, hbatches, hcount, hfailed⟩ := hends
    exact ⟨batches, c₁, hbatches, hcount.trans (by omega), .inr ⟨e, sent, rfl, hfailed⟩⟩

end Node

variable [DecidablePred answered]

/-- Priming takes at most four requests, and the batches at most two for each
flag. Unless a keep-alive fails, everything that the node answers on its own is
gathered. -/
theorem splitting_loses_nothing (h : Reachable client destination timeout data answered waiting) {tlvs : List UInt64}
    (hflags : ∀ flag ∈ tlvs, flag ≠ 0) {c : Collector σ} (htimeout : c.nodeTimeout = timeout)
    (hwaiting : waiting n c.commissioner) (hn : n < primeAttempts) :
    ∃ priming batches c',
      c'.events = c.events ++ priming ++ batches ∧ requestCount priming ≤ primeAttempts ∧
        requestCount batches ≤ 2 * tlvs.length ∧
        ((collectDiag client destination tlvs).run c =
            .ok (some (restrict data (DiagFlags.macAddr ||| answeredIn answered tlvs))) c' ∨
          ∃ e sent, (collectDiag client destination tlvs).run c = .error e c' ∧
            WalkEvent.keepAlive sent none ∈ priming ++ batches) := by
  obtain ⟨priming, c₁, hpriming, hprimes, ⟨hprime, htimeout₁, hwaiting₁⟩ | ⟨e, sent, hprime, hfailed⟩⟩ :=
    prime_ends h htimeout hwaiting hn
  · have hlisted : ∀ flag ∈ tlvs.filter (· ≠ DiagFlags.macAddr), flag ≠ 0 :=
      fun flag hflag => hflags flag (mem_of_mem_filter hflag)
    have hlength : 2 * (tlvs.filter (· ≠ DiagFlags.macAddr)).length ≤ 2 * tlvs.length :=
      Nat.mul_le_mul_left _ (length_filter_le _ _)
    obtain ⟨batches, c₂, hbatches, hcount, hends⟩ := batches_end h hlisted DiagFlags.macAddr htimeout₁ hwaiting₁
    rw [hpriming] at hbatches
    refine ⟨priming, batches, c₂, hbatches, hprimes, hcount.trans hlength, ?_⟩
    rw [← mergeNetdiag_default (restrict data DiagFlags.macAddr)] at hends
    rcases hends with hok | ⟨e, sent, herror, hfailed⟩
    · rw [answeredIn_filter h.primed] at hok
      exact .inl ((bind_of_ok hprime).trans (bind_of_ok hok))
    · exact .inr ⟨e, sent, (bind_of_ok hprime).trans (bind_of_error herror), mem_append_right _ hfailed⟩
  · refine ⟨priming, [], c₁, ?_, hprimes, Nat.zero_le _, .inr ⟨e, sent, bind_of_error hprime, ?_⟩⟩
    · rw [append_nil, hpriming]
    · rw [append_nil]
      exact hfailed

end Queries

section Example

/-- A node without network data in its answers, the first requests to which are
lost. The state counts them. -/
def lossyClient (data : NetDiagData) : Client ℕ where
  now _ := 0
  keepaliveInterval := 40 * 10 ^ 9
  petition := return ⟨1, none⟩
  getActiveDataset _ := return .default
  getDiagnostics _ _ flags := do
    match ← get with
    | 0 => if flags &&& DiagFlags.networkData = 0 then return some (restrict data flags) else throw (.timeout "")
    | lost + 1 => do
      set lost
      return none
  keepAlive := return .accept
  disconnect := id

theorem reachable_lossyClient (data : NetDiagData) (dest : Ipv6Addr) (timeout : ℕ) :
    Reachable (lossyClient data) dest timeout data (· &&& DiagFlags.networkData = 0) (fun n s => s = n) where
  closed flags flags' hanswered _ hsub := by
    dsimp only at hanswered ⊢
    rw [← hsub, UInt64.and_assoc, hanswered, UInt64.and_zero]
  primed := by decide
  answers := by
    rintro flags s rfl hanswered
    refine ⟨0, ?_, rfl⟩
    change (if flags &&& DiagFlags.networkData = 0 then _ else _ : EStateM Error ℕ (Option NetDiagData)).run 0 = _
    rw [if_pos hanswered]
    rfl
  refuses := by
    rintro flags s rfl hanswered
    change usable (outcome ((if flags &&& DiagFlags.networkData = 0 then _ else _ :
      EStateM Error ℕ (Option NetDiagData)).run 0)) = _ ∧ finalState ((if flags &&& DiagFlags.networkData = 0 then _ else _ :
        EStateM Error ℕ (Option NetDiagData)).run 0) = 0
    rw [if_neg hanswered]
    exact ⟨rfl, rfl⟩
  loses := by
    rintro n s rfl
    exact ⟨rfl, rfl⟩
  keeps := by
    rintro n s rfl
    rfl

def lossyCollector : Collector ℕ := ⟨1, 5 * 10 ^ 9, 40 * 10 ^ 9, 0, List.Vector.replicate 8 0xfd, .default, []⟩

def sampleData : NetDiagData := { macAddr := some 0x0400, timeout := some 240, networkData := some ⟨[]⟩ }

/-- The batch of both flags is refused, and the timeout is gathered nonetheless. -/
theorem splitting_loses_nothing_lossy :
    ∃ priming batches c', c'.events = [] ++ priming ++ batches ∧ requestCount priming ≤ primeAttempts ∧
      requestCount batches ≤ 2 * 2 ∧
      (collectDiag (lossyClient sampleData) (List.Vector.replicate 16 0) [DiagFlags.timeout, DiagFlags.networkData]).run
        lossyCollector = .ok (some { macAddr := some 0x0400, timeout := some 240 }) c' := by
  have hflags : ∀ flag ∈ [DiagFlags.timeout, DiagFlags.networkData], flag ≠ 0 :=
    forall_mem_cons.mpr ⟨by decide, forall_mem_singleton.mpr (by decide)⟩
  obtain ⟨priming, batches, c', hevents, hpriming, hbatches, hok | ⟨e, sent, herror, -⟩⟩ :=
    splitting_loses_nothing (reachable_lossyClient sampleData (List.Vector.replicate 16 0) (5 * 10 ^ 9)) hflags
      (c := lossyCollector) rfl rfl (by decide)
  · have hdata : restrict sampleData (DiagFlags.macAddr |||
        answeredIn (· &&& DiagFlags.networkData = 0) [DiagFlags.timeout, DiagFlags.networkData]) =
          { macAddr := some 0x0400, timeout := some 240 } := by decide +kernel
    rw [hdata] at hok
    exact ⟨priming, batches, c', hevents, hpriming, hbatches, hok⟩
  · have hisOk : (outcome ((collectDiag (lossyClient sampleData) (List.Vector.replicate 16 0)
        [DiagFlags.timeout, DiagFlags.networkData]).run lossyCollector)).isOk = true := by decide +kernel
    rw [herror] at hisOk
    cases hisOk

end Example

end ThreadCommissioner.Splitting
