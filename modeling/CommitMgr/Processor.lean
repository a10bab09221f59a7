import CommitMgr.Api

set_option autoImplicit false

/-! # The processor interface and the expiry check

A `Processor` is what lets the batcher stay oblivious of the message it batches: it answers the
batch-full watermark (`Threshold`), whether batching is on (`EnableBatch`), which buffered
sectors are close to their deadline (`Expire`), and sends a batch (`Process`). The batcher reads
the first three afresh at every loop iteration; `Processor.Answers` is one iteration's answers.

The two `Expire` methods differ only in which epoch they age and which side of the
configuration they read, so both are `expireBy` applied to their own field and setting. -/

namespace CommitMgr

/-- The answers of `Threshold`, `EnableBatch` and `Expire` in one iteration of `Batcher.run`.
    `Expire` returns a `map[abi.SectorID]struct{}` (its keys) and an error; the batcher uses the
    map whether or not the error is set. -/
structure Processor.Answers where
  threshold : Int
  enableBatch : Bool
  expire : List SectorID × Option String

/-! ## Expire -/

/-- `abi.ChainEpoch(maxWait / (builtin.EpochDurationSeconds * time.Second))`: `time.Duration`
    division truncates toward zero. -/
def maxWaitHeight (epochDurationSeconds : Nat) (maxWait : Duration) : ChainEpoch :=
  maxWait.sdiv (BitVec.ofNat 64 (epochDurationSeconds * 1000000000))

/-- `h-epoch > maxWaitHeight`, with `int64` subtraction and comparison. -/
def expiredAt (h maxWaitHeight epoch : ChainEpoch) : Bool :=
  maxWaitHeight.slt (h - epoch)

/-- The loop of `Expire`: the ids of the sectors whose `epochOf` has aged past `maxWaitHeight`,
    inserted into the map `expire`. -/
def expireScan (epochOf : SectorState → ChainEpoch) (h mwh : ChainEpoch) :
    List SectorID → List SectorState → List SectorID
  | expire, [] => expire
  | expire, s :: rest =>
    expireScan epochOf h mwh (if expiredAt h mwh (epochOf s) then expire.insert s.id else expire) rest

/-- The shared body of both `Expire` methods: the wait is converted to epochs, the chain head is
    read (`ChainHead` fails with `head = .error`, and a `nil` map is returned), and every sector
    is aged against it. -/
def expireBy (epochOf : SectorState → ChainEpoch) (epochDurationSeconds : Nat) (maxWait : Duration)
    (head : Except String (TipSetToken × ChainEpoch)) (sectors : List SectorState) :
    List SectorID × Option String :=
  let mwh := maxWaitHeight epochDurationSeconds maxWait
  match head with
  | .error e => ([], some e)
  | .ok (_, h) => (expireScan epochOf h mwh [] sectors, none)

/-- `CommitProcessor.Expire`: ages the interactive seed, reads `Commitment.Prove.Batch.MaxWait`. -/
def CommitProcessor.expire (epochDurationSeconds : Nat) (cfg : MinerConfig)
    (head : Except String (TipSetToken × ChainEpoch)) (sectors : List SectorState) :
    List SectorID × Option String :=
  expireBy (·.seed.epoch) epochDurationSeconds cfg.commitment.prove.batch.maxWait head sectors

/-- `PreCommitProcessor.Expire`: ages the ticket, reads `Commitment.Pre.Batch.MaxWait`. -/
def PreCommitProcessor.expire (epochDurationSeconds : Nat) (cfg : MinerConfig)
    (head : Except String (TipSetToken × ChainEpoch)) (sectors : List SectorState) :
    List SectorID × Option String :=
  expireBy (·.ticket.epoch) epochDurationSeconds cfg.commitment.pre.batch.maxWait head sectors

theorem mem_expireScan (epochOf : SectorState → ChainEpoch) (h mwh : ChainEpoch)
    (acc : List SectorID) (sectors : List SectorState) (i : SectorID) :
    i ∈ expireScan epochOf h mwh acc sectors ↔
      i ∈ acc ∨ ∃ s ∈ sectors, s.id = i ∧ expiredAt h mwh (epochOf s) = true := by
  induction sectors generalizing acc with
  | nil => simp [expireScan]
  | cons s rest ih =>
    rw [expireScan, ih]
    by_cases hs : expiredAt h mwh (epochOf s) = true
    · simp only [hs, if_true, List.mem_insert_iff, List.mem_cons, exists_eq_or_imp, true_and]
      tauto
    · simp [hs]

/-- What `Expire` answers: on a chain head at height `h`, exactly the ids of the sectors aged past
    the configured wait, with no error; on a failed `ChainHead`, an empty map and the error. -/
theorem expireBy_spec (epochOf : SectorState → ChainEpoch) (eds : Nat) (maxWait : Duration)
    (head : Except String (TipSetToken × ChainEpoch)) (sectors : List SectorState) :
    (∀ e, head = .error e → expireBy epochOf eds maxWait head sectors = ([], some e)) ∧
    (∀ tok h, head = .ok (tok, h) →
      (expireBy epochOf eds maxWait head sectors).2 = none ∧
      ∀ i, i ∈ (expireBy epochOf eds maxWait head sectors).1 ↔
        ∃ s ∈ sectors, s.id = i ∧ expiredAt h (maxWaitHeight eds maxWait) (epochOf s) = true) := by
  refine ⟨fun e he => by simp [expireBy, he], fun tok h he => ⟨by simp [expireBy, he], ?_⟩⟩
  intro i
  simp [expireBy, he, mem_expireScan]

/-! ## Expire in integers

Chain heights, epochs and the configured wait are never negative. For such values neither the
`int64` division of `maxWaitHeight` nor the subtraction of `expiredAt` wraps, so `Expire` is the
comparison of integers the source spells out. -/

theorem toInt_of_nonneg {x : BitVec 64} (hx : 0 ≤ x.toInt) :
    x.toInt = x.toNat ∧ 2 * x.toNat < 2 ^ 64 := by
  rw [BitVec.toInt_eq_toNat_cond] at hx ⊢
  have := x.isLt
  by_cases h : 2 * x.toNat < 2 ^ 64
  · rw [if_pos h]
    exact ⟨rfl, h⟩
  · simp only [if_neg h] at hx
    omega

/-- For non-negative values `h-epoch` cannot wrap, so the test is `maxWaitHeight < h - epoch`. -/
theorem expiredAt_iff {h mwh e : ChainEpoch} (h0 : 0 ≤ h.toInt) (e0 : 0 ≤ e.toInt) :
    expiredAt h mwh e = true ↔ mwh.toInt < h.toInt - e.toInt := by
  have hb := toInt_of_nonneg h0
  have eb := toInt_of_nonneg e0
  have hsub : (h - e).toInt = h.toInt - e.toInt := by
    rw [BitVec.toInt_sub, Int.bmod_def]
    split_ifs <;> omega
  simp [expiredAt, BitVec.slt, hsub]

/-- For a non-negative wait and an epoch duration that fits in `int64` nanoseconds, the signed
    division truncates like the natural one. -/
theorem maxWaitHeight_toInt (eds : Nat) (maxWait : Duration)
    (heds : 0 < eds ∧ eds * 1000000000 < 2 ^ 63) (hw : 0 ≤ maxWait.toInt) :
    (maxWaitHeight eds maxWait).toInt = maxWait.toInt / (eds * 1000000000 : Nat) := by
  obtain ⟨hw1, hw2⟩ := toInt_of_nonneg hw
  have hd : (BitVec.ofNat 64 (eds * 1000000000)).toNat = eds * 1000000000 := by
    simp only [BitVec.toNat_ofNat]
    omega
  have hmsb : maxWait.msb = false := BitVec.msb_eq_false_iff_two_mul_lt.2 hw2
  have hdmsb : (BitVec.ofNat 64 (eds * 1000000000)).msb = false :=
    BitVec.msb_eq_false_iff_two_mul_lt.2 (by rw [hd]; omega)
  rw [maxWaitHeight, BitVec.sdiv_eq, hmsb, hdmsb]
  simp only [BitVec.udiv_eq]
  have : maxWait.toNat / (eds * 1000000000) ≤ maxWait.toNat := Nat.div_le_self _ _
  rw [BitVec.toInt_eq_toNat_cond, BitVec.toNat_udiv, hd, hw1, if_pos (by omega)]
  push_cast
  rfl

/-- `Expire` in integers: for a non-negative head height, epochs and wait, and an epoch duration
    of at least a second that fits in `int64` nanoseconds, `Expire` returns exactly the ids of the
    sectors whose epoch lies more than `maxWait / (epochDurationSeconds · 10⁹)` epochs (rounded
    down) below the head. -/
theorem expire_ages_in_integers (epochOf : SectorState → ChainEpoch) (eds : Nat)
    (maxWait : Duration) (tok : TipSetToken) (h : ChainEpoch) (sectors : List SectorState)
    (heds : 0 < eds ∧ eds * 1000000000 < 2 ^ 63) (hw : 0 ≤ maxWait.toInt) (h0 : 0 ≤ h.toInt)
    (he : ∀ s ∈ sectors, 0 ≤ (epochOf s).toInt) (i : SectorID) :
    i ∈ (expireBy epochOf eds maxWait (.ok (tok, h)) sectors).1 ↔
      ∃ s ∈ sectors, s.id = i ∧
        maxWait.toInt / (eds * 1000000000 : Nat) < h.toInt - (epochOf s).toInt := by
  rw [((expireBy_spec epochOf eds maxWait _ sectors).2 tok h rfl).2]
  refine exists_congr fun s => and_congr_right fun hs => and_congr_right fun _ => ?_
  rw [expiredAt_iff h0 (he s hs), maxWaitHeight_toInt eds maxWait heds hw]

theorem expire_ages_in_integers_one_hour :
    let sectors : List SectorState := [800, 950].map fun e =>
      { (default : SectorState) with id := ⟨1000, e.toNat⟩, seed := ⟨[], e⟩ }
    (0 < 30 ∧ 30 * 1000000000 < 2 ^ 63) ∧ 0 ≤ (3600000000000 : Duration).toInt ∧
      0 ≤ (1000 : ChainEpoch).toInt ∧ (∀ s ∈ sectors, 0 ≤ s.seed.epoch.toInt) ∧
      (⟨1000, 800⟩ ∈ (expireBy (·.seed.epoch) 30 3600000000000 (.ok ([], 1000)) sectors).1 ↔
        ∃ s ∈ sectors, s.id = ⟨1000, 800⟩ ∧ (3600000000000 : Duration).toInt /
          (30 * 1000000000 : Nat) < (1000 : ChainEpoch).toInt - s.seed.epoch.toInt) :=
  ⟨by decide, by decide, by decide, by decide,
    expire_ages_in_integers _ 30 _ [] 1000 _ (by decide) (by decide) (by decide) (by decide) _⟩

/-- A sector aged past the wait at one head is aged past it at every head as high: as the chain
    grows, `Expire` never drops an id it returned, whatever the configured wait. -/
theorem expired_stays_expired (epochOf : SectorState → ChainEpoch) (eds : Nat) (maxWait : Duration)
    (tok tok' : TipSetToken) (h h' : ChainEpoch) (sectors : List SectorState) (h0 : 0 ≤ h.toInt)
    (hh : h.toInt ≤ h'.toInt) (he : ∀ s ∈ sectors, 0 ≤ (epochOf s).toInt) (i : SectorID)
    (hi : i ∈ (expireBy epochOf eds maxWait (.ok (tok, h)) sectors).1) :
    i ∈ (expireBy epochOf eds maxWait (.ok (tok', h')) sectors).1 := by
  rw [((expireBy_spec epochOf eds maxWait _ sectors).2 tok h rfl).2] at hi
  rw [((expireBy_spec epochOf eds maxWait _ sectors).2 tok' h' rfl).2]
  obtain ⟨s, hs, rfl, hexp⟩ := hi
  refine ⟨s, hs, rfl, ?_⟩
  rw [expiredAt_iff h0 (he s hs)] at hexp
  rw [expiredAt_iff (h0.trans hh) (he s hs)]
  omega

theorem expired_stays_expired_at_higher_head :
    let sectors : List SectorState := [{ (default : SectorState) with id := ⟨1000, 1⟩, seed := ⟨[], 800⟩ }]
    0 ≤ (1000 : ChainEpoch).toInt ∧ (1000 : ChainEpoch).toInt ≤ (2000 : ChainEpoch).toInt ∧
      (∀ s ∈ sectors, 0 ≤ s.seed.epoch.toInt) ∧
      ⟨1000, 1⟩ ∈ (expireBy (·.seed.epoch) 30 3600000000000 (.ok ([], 1000)) sectors).1 ∧
      ⟨1000, 1⟩ ∈ (expireBy (·.seed.epoch) 30 3600000000000 (.ok ([], 2000)) sectors).1 :=
  have hi : (⟨1000, 1⟩ : SectorID) ∈ (expireBy (·.seed.epoch) 30 3600000000000 (.ok ([], 1000))
      [{ (default : SectorState) with id := ⟨1000, 1⟩, seed := ⟨[], 800⟩ }]).1 := by decide
  ⟨by decide, by decide, by decide, hi,
    expired_stays_expired _ _ _ _ _ _ _ _ (by decide) (by decide) (by decide) _ hi⟩

/-! ## Individual dispatch

Both `processIndividually` methods start one goroutine per sector; goroutine `idx` reads and
writes only `sectors[idx]`, and a `sync.WaitGroup` waits for all of them. Each goroutine is
modelled as a whole, `task idx s`, returning the calls it made and the message id it stores (if
any); `Schedule` is an order in which they run. -/

/-- An order in which the `n` goroutines of a `processIndividually` run: each index once. -/
structure Schedule (n : Nat) where
  order : List Nat
  perm : order.Perm (List.range n)

/-- The goroutines run one after another, in index order. -/
def Schedule.inOrder (n : Nat) : Schedule n := ⟨List.range n, .refl _⟩

/-- Goroutine `idx` run to completion on the slice, `stamp` storing its message id. -/
def runTask (task : Nat → SectorState → List Call × Option Cid) (stamp : SectorState → Cid → SectorState)
    (acc : List SectorState × List Call) (idx : Nat) : List SectorState × List Call :=
  match acc.1[idx]? with
  | none => acc
  | some s =>
    let r := task idx s
    match r.2 with
    | some mcid => (acc.1.set idx (stamp s mcid), acc.2 ++ r.1)
    | none => (acc.1, acc.2 ++ r.1)

/-- The body of both `processIndividually` methods: every goroutine, in the order `sched`. -/
def processIndividuallyBy (task : Nat → SectorState → List Call × Option Cid)
    (stamp : SectorState → Cid → SectorState) (sectors : List SectorState)
    (sched : Schedule sectors.length) : List SectorState × List Call :=
  sched.order.foldl (runTask task stamp) (sectors, [])

/-- What every goroutine's calls satisfy, all the calls of the run satisfy. -/
theorem processIndividuallyBy_calls (task : Nat → SectorState → List Call × Option Cid)
    (stamp : SectorState → Cid → SectorState) (sectors : List SectorState)
    (sched : Schedule sectors.length) (P : Call → Prop)
    (htask : ∀ idx s, ∀ c ∈ (task idx s).1, P c) :
    ∀ c ∈ (processIndividuallyBy task stamp sectors sched).2, P c := by
  suffices h : ∀ (order : List Nat) (acc : List SectorState × List Call), (∀ c ∈ acc.2, P c) →
      ∀ c ∈ (order.foldl (runTask task stamp) acc).2, P c from h _ _ (by simp)
  intro order
  induction order with
  | nil => exact fun acc h => h
  | cons idx rest ih =>
    intro acc hacc
    refine ih _ fun c hc => ?_
    simp only [runTask] at hc
    split at hc
    · exact hacc c hc
    · split at hc <;>
      · rcases List.mem_append.1 hc with hc | hc
        · exact hacc c hc
        · exact htask _ _ c hc

/-- One goroutine's step on slot `idx`: it appends its own calls and rewrites only that slot,
    with its own sector stamped if it stored an id. -/
theorem runTask_of_getElem? (task : Nat → SectorState → List Call × Option Cid)
    (stamp : SectorState → Cid → SectorState) (xs : List SectorState) (calls : List Call)
    (idx : Nat) (s : SectorState) (hs : xs[idx]? = some s) :
    ∃ xs', runTask task stamp (xs, calls) idx = (xs', calls ++ (task idx s).1) ∧
      xs'[idx]? = some (((task idx s).2.map (stamp s)).getD s) ∧
      ∀ j, j ≠ idx → xs'[j]? = xs[j]? := by
  simp only [runTask, hs]
  cases (task idx s).2 with
  | none => exact ⟨xs, rfl, hs, fun _ _ => rfl⟩
  | some c =>
    have hlt : idx < xs.length := (List.getElem?_eq_some_iff.1 hs).1
    exact ⟨_, rfl, List.getElem?_set_self hlt, fun j hj => List.getElem?_set_ne (Ne.symm hj)⟩

/-- Goroutines with distinct indices, run in the order `order`: each one's calls are made with
    its own slot as it was before the run, and exactly the slots in `order` are rewritten. -/
theorem foldl_runTask (task : Nat → SectorState → List Call × Option Cid)
    (stamp : SectorState → Cid → SectorState) (order : List Nat) (hnd : order.Nodup)
    (xs : List SectorState) (calls : List Call) :
    (order.foldl (runTask task stamp) (xs, calls)).2 =
        calls ++ order.flatMap (fun i => xs[i]?.elim [] fun s => (task i s).1) ∧
      ∀ j, (order.foldl (runTask task stamp) (xs, calls)).1[j]? =
        if j ∈ order then xs[j]?.map (fun s => ((task j s).2.map (stamp s)).getD s) else xs[j]? := by
  induction order generalizing xs calls with
  | nil => simp
  | cons idx rest ih =>
    obtain ⟨hidx, hnd⟩ := List.nodup_cons.1 hnd
    rw [List.foldl_cons]
    cases hx : xs[idx]? with
    | none =>
      have hrun : runTask task stamp (xs, calls) idx = (xs, calls) := by simp [runTask, hx]
      obtain ⟨h1, h2⟩ := ih hnd xs calls
      refine ⟨by simp [hrun, h1, hx], fun j => ?_⟩
      rw [hrun, h2]
      by_cases hj : j = idx
      · subst hj
        simp [hidx, hx]
      · simp [hj]
    | some s =>
      obtain ⟨xs', hrun, hself, hother⟩ := runTask_of_getElem? task stamp xs calls idx s hx
      obtain ⟨h1, h2⟩ := ih hnd xs' (calls ++ (task idx s).1)
      rw [hrun]
      refine ⟨?_, fun j => ?_⟩
      · rw [h1, List.flatMap_cons, hx, List.flatMap_congr fun i hi =>
          by rw [hother i (fun h => hidx (h ▸ hi))]]
        simp
      · rw [h2]
        by_cases hj : j = idx
        · subst hj
          simp [hidx, hself, hx]
        · simp [hj, hother j hj]

/-- The individual dispatch law, for every schedule: the calls are each goroutine's own calls,
    made on its own sector, in the order the goroutines run; afterwards slot `i` holds sector
    `i`, stamped when its goroutine stored an id, whatever the order. -/
theorem processIndividuallyBy_spec (task : Nat → SectorState → List Call × Option Cid)
    (stamp : SectorState → Cid → SectorState) (sectors : List SectorState)
    (sched : Schedule sectors.length) :
    (processIndividuallyBy task stamp sectors sched).2 =
        sched.order.flatMap (fun i => sectors[i]?.elim [] fun s => (task i s).1) ∧
      ∀ i, (processIndividuallyBy task stamp sectors sched).1[i]? =
        sectors[i]?.map fun s => ((task i s).2.map (stamp s)).getD s := by
  obtain ⟨h1, h2⟩ := foldl_runTask task stamp sched.order
    (sched.perm.nodup_iff.2 (List.nodup_range _)) sectors []
  refine ⟨by simpa using h1, fun i => ?_⟩
  rw [processIndividuallyBy, h2]
  split_ifs with hi
  · rfl
  · have hle : sectors.length ≤ i :=
      Nat.le_of_not_lt fun h => hi (sched.perm.mem_iff.2 (List.mem_range.2 h))
    simp [List.getElem?_eq_none hle]

/-- The same law for goroutines that each make at most one push, `push? idx s`, and store the id
    its answer returns: slot `i` is stamped exactly when sector `i`'s push was made and accepted. -/
theorem processIndividuallyBy_pushes (task : Nat → SectorState → List Call × Option Cid)
    (push? : Nat → SectorState → Option Push) (answer : Nat → Push → Except String Cid)
    (htask : ∀ idx s, task idx s =
      ((push? idx s).toList.map .pushMessage, (push? idx s).bind fun m => (answer idx m).toOption))
    (stamp : SectorState → Cid → SectorState) (sectors : List SectorState)
    (sched : Schedule sectors.length) :
    (processIndividuallyBy task stamp sectors sched).2 =
        sched.order.flatMap (fun i => (sectors[i]?.bind (push? i)).toList.map .pushMessage) ∧
      ∀ i, (processIndividuallyBy task stamp sectors sched).1[i]? =
        sectors[i]?.map fun s =>
          (((push? i s).bind fun m => (answer i m).toOption).map (stamp s)).getD s := by
  obtain ⟨h1, h2⟩ := processIndividuallyBy_spec task stamp sectors sched
  refine ⟨h1.trans (List.flatMap_congr fun i _ => ?_), fun i => (h2 i).trans ?_⟩ <;>
    cases sectors[i]? <;> simp [htask]

theorem runTask_length (task : Nat → SectorState → List Call × Option Cid)
    (stamp : SectorState → Cid → SectorState) (acc : List SectorState × List Call) (idx : Nat) :
    (runTask task stamp acc idx).1.length = acc.1.length := by
  simp only [runTask]
  split
  · rfl
  · split <;> simp

/-- The goroutines only rewrite slots, so the slice keeps its length. -/
theorem processIndividuallyBy_length (task : Nat → SectorState → List Call × Option Cid)
    (stamp : SectorState → Cid → SectorState) (sectors : List SectorState)
    (sched : Schedule sectors.length) :
    (processIndividuallyBy task stamp sectors sched).1.length = sectors.length := by
  suffices h : ∀ (order : List Nat) (acc : List SectorState × List Call),
      (order.foldl (runTask task stamp) acc).1.length = acc.1.length from h _ _
  intro order
  induction order with
  | nil => exact fun _ => rfl
  | cons idx rest ih => exact fun acc => (ih _).trans (runTask_length task stamp acc idx)

/-- A slot the goroutines change holds its sector stamped with the id returned for that sector's
    own push, and the push is among the run's calls. -/
theorem processIndividuallyBy_stamped (task : Nat → SectorState → List Call × Option Cid)
    (push? : Nat → SectorState → Option Push) (answer : Nat → Push → Except String Cid)
    (htask : ∀ idx s, task idx s =
      ((push? idx s).toList.map .pushMessage, (push? idx s).bind fun m => (answer idx m).toOption))
    (stamp : SectorState → Cid → SectorState) (sectors : List SectorState)
    (sched : Schedule sectors.length) (i : Nat) (s : SectorState) (hs : sectors[i]? = some s) :
    (processIndividuallyBy task stamp sectors sched).1[i]? = some s ∨
      ∃ msg c, push? i s = some msg ∧ answer i msg = .ok c ∧
        Call.pushMessage msg ∈ (processIndividuallyBy task stamp sectors sched).2 ∧
        (processIndividuallyBy task stamp sectors sched).1[i]? = some (stamp s c) := by
  obtain ⟨h1, h2⟩ := processIndividuallyBy_pushes task push? answer htask stamp sectors sched
  rw [h1, h2, hs]
  rcases hp : push? i s with _ | msg
  · simp [hp]
  rcases ha : answer i msg with e | c
  · simp [hp, ha, Except.toOption]
  have hi : i ∈ sched.order :=
    sched.perm.mem_iff.2 (List.mem_range.2 (List.getElem?_eq_some_iff.1 hs).1)
  exact .inr ⟨msg, c, rfl, ha, List.mem_flatMap.2 ⟨i, hi, by simp [hs, hp]⟩,
    by simp [hp, ha, Except.toOption]⟩

/-- The loop after a successful batch push, `for i := range sectors { if _, ok :=
    failed[sectors[i].ID]; !ok { ... = &ccid } }`: `stamp` every sector whose id did not fail. -/
def stampUnfailed (stamp : SectorState → Cid → SectorState) (failed : List SectorID) (ccid : Cid)
    (sectors : List SectorState) : List SectorState :=
  sectors.map fun s => if s.id ∈ failed then s else stamp s ccid

/-! ## The other methods -/

/-- `Threshold`, `EnableBatch` and `CheckAfter`'s interval, read from one side of the
    configuration. -/
def CommitmentPolicy.threshold (p : CommitmentPolicy) : Int := p.batch.threshold

def CommitmentPolicy.enableBatch (p : CommitmentPolicy) : Bool := p.batch.enabled

def CommitmentPolicy.checkAfter (p : CommitmentPolicy) : Duration := p.batch.checkInterval

def CommitProcessor.threshold (cfg : MinerConfig) : Int := cfg.commitment.prove.threshold

def CommitProcessor.enableBatch (cfg : MinerConfig) : Bool := cfg.commitment.prove.enableBatch

def CommitProcessor.checkAfter (cfg : MinerConfig) : Duration := cfg.commitment.prove.checkAfter

def PreCommitProcessor.threshold (cfg : MinerConfig) : Int := cfg.commitment.pre.threshold

def PreCommitProcessor.enableBatch (cfg : MinerConfig) : Bool := cfg.commitment.pre.enableBatch

def PreCommitProcessor.checkAfter (cfg : MinerConfig) : Duration := cfg.commitment.pre.checkAfter

end CommitMgr
