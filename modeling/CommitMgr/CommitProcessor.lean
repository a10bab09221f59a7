import Mathlib
import CommitMgr.Processor

set_option autoImplicit false

/-! # The prove-commit processor

`CommitProcessor.Process` sends a batch of sectors' prove-commit messages. Without batching, or
with fewer than `MinAggregatedSectors` sectors, it starts one goroutine per sector, each sending
its own `ProveCommitSector` (`processIndividually`). Otherwise it takes one chain head, queries
every sector's collateral at it, aggregates the proofs of the sectors whose query succeeded
(sorted by sector number) through the prover, and pushes one `ProveCommitAggregate` carrying
the sum of their collaterals.

The chain, the prover, the serializer and the messager are the environment `CommitEnv`: any
answer to any call. A per-sector call is answered by the sector's position in the loop, so two
entries for one sector can get different answers. `sort.Slice` is not stable; `InfoSort` is any
sort meeting Go's contract. `MinAggregatedSectors` comes from the miner actor and is a parameter.

The aggregate path is cut into the loop over the sectors (`collect`), the loop that fills the
bitfield and the proof list (`fillParams`), and the calls that follow (`sendAggregate`); each
has one lemma describing it, and the results are derived from those. -/

namespace CommitMgr

/-- `sort.Slice(infos, func(i, j int) bool { return infos[i].Number < infos[j].Number })`: Go
    promises a permutation in which no entry is followed by one with a smaller number, and
    nothing about how entries with equal numbers are ordered. -/
structure InfoSort where
  sort : List AggregateSealVerifyInfo → List AggregateSealVerifyInfo
  perm : ∀ l, (sort l).Perm l
  sorted : ∀ l, (sort l).Pairwise (fun a b => a.number ≤ b.number)

/-- An `InfoSort` that computes: insertion sort on numbers. -/
def InfoSort.insertion : InfoSort where
  sort := List.insertionSort (fun a b => a.number ≤ b.number)
  perm := List.perm_insertionSort _
  sorted := by
    have : IsTotal AggregateSealVerifyInfo (fun a b => a.number ≤ b.number) :=
      ⟨fun a b => le_total _ _⟩
    have : IsTrans AggregateSealVerifyInfo (fun a b => a.number ≤ b.number) :=
      ⟨fun _ _ _ => le_trans⟩
    exact List.sorted_insertionSort _

/-- The answers the goroutine for one sector gets in `processIndividually`. -/
structure ProveCalls where
  marshalCBOR : Except String Unit
  chainHead : Except String (TipSetToken × ChainEpoch)
  sectorCollateral : ActorID → SectorNumber → TipSetToken → Except String TokenAmount
  pushMessage : Push → Except String Cid

/-- What the services answer during one `CommitProcessor.Process` call. `sectorCollateral i`
    answers the query for the `i`-th sector of the aggregate loop; `individual idx` answers the
    goroutine for `sectors[idx]`. -/
structure CommitEnv where
  config : MinerConfig
  chainHead : Except String (TipSetToken × ChainEpoch)
  sectorCollateral : Nat → ActorID → SectorNumber → TipSetToken → Except String TokenAmount
  aggregateSealProofs : AggregateSealVerifyProofAndInfos → List Bytes → Except String Bytes
  marshalCBOR : ProveCommitAggregateParams → Except String Unit
  pushMessage : Push → Except String Cid
  individual : Nat → ProveCalls

/-- `sectors[i].MessageInfo.CommitCid = &c`. -/
def SectorState.setCommitCid (s : SectorState) (c : Cid) : SectorState :=
  { s with messageInfo := { s.messageInfo with commitCid := some c } }

/-- The `proof5.AggregateSealVerifyInfo` the aggregate loop records for a sector. -/
def SectorState.aggregateInfo (p : SectorState) : AggregateSealVerifyInfo :=
  { number := p.id.number, randomness := p.ticket.ticket, interactiveRandomness := p.seed.seed,
    sealedCID := p.pre.commR, unsealedCID := p.pre.commD }

namespace CommitProcessor

/-! ## Individual path -/

/-- The goroutine for one sector: serialize its `ProveCommitSectorParams`, read the head, query
    its collateral there, push. It returns the calls it made and the message id it stores. -/
def proveTask (spec : MsgMeta) (calls : ProveCalls) (fromAddr : Address) (mid : ActorID)
    (s : SectorState) : List Call × Option Cid :=
  let params : ProveCommitSectorParams := ⟨s.id.number, s.proof.proof⟩
  match calls.marshalCBOR with
  | .error _ => ([], none)
  | .ok () =>
    match calls.chainHead with
    | .error _ => ([], none)
    | .ok (tok, _) =>
      match calls.sectorCollateral mid s.id.number tok with
      | .error _ => ([], none)
      | .ok collateral =>
        let msg : Push := ⟨fromAddr, mid, collateral, .proveCommitSector, spec,
          .proveCommitSector params⟩
        match calls.pushMessage msg with
        | .error _ => ([.pushMessage msg], none)
        | .ok mcid => ([.pushMessage msg], some mcid)

/-- `processIndividually`: one `proveTask` goroutine per sector, run in the order `sched`. -/
def processIndividually (env : CommitEnv) (sectors : List SectorState) (sched : Schedule sectors.length)
    (fromAddr : Address) (mid : ActorID) : List SectorState × List Call :=
  processIndividuallyBy
    (fun idx s => proveTask env.config.commitment.prove.msgMeta (env.individual idx) fromAddr mid s)
    SectorState.setCommitCid sectors sched

/-! ## Aggregate path -/

/-- The accumulators of the aggregate loop: `infos`, `sectorsMap` (a Go map, whose missing keys
    read as the zero value), `failed` (a set of ids) and the running `collateral`. -/
structure Collected where
  infos : List AggregateSealVerifyInfo
  sectorsMap : SectorNumber → SectorState
  failed : List SectorID
  collateral : TokenAmount

def Collected.init : Collected := ⟨[], fun _ => default, [], 0⟩

@[simp] theorem Collected.init_infos : Collected.init.infos = [] := rfl

@[simp] theorem Collected.init_sectorsMap (n : SectorNumber) : Collected.init.sectorsMap n = default := rfl

@[simp] theorem Collected.init_failed : Collected.init.failed = [] := rfl

@[simp] theorem Collected.init_collateral : Collected.init.collateral = 0 := rfl

/-- The loop `for i, p := range sectors`: record `p` in `sectorsMap`, query its collateral at
    `tok`; on failure mark its id failed, otherwise add the collateral and append its info. -/
def collect (env : CommitEnv) (mid : ActorID) (tok : TipSetToken) :
    Nat → Collected → List SectorState → Collected
  | _, acc, [] => acc
  | i, acc, p :: rest =>
    let sectorsMap := Function.update acc.sectorsMap p.id.number p
    match env.sectorCollateral i mid p.id.number tok with
    | .error _ => collect env mid tok (i + 1) { acc with sectorsMap, failed := acc.failed.insert p.id } rest
    | .ok sc =>
      collect env mid tok (i + 1)
        { acc with sectorsMap, collateral := acc.collateral + sc, infos := acc.infos ++ [p.aggregateInfo] }
        rest

/-- The loop `for i := range infos`: set each number in the bitfield, append the proof of the
    sector `sectorsMap` holds for it. -/
def fillParams (sectorsMap : SectorNumber → SectorState) :
    BitField → List Bytes → List AggregateSealVerifyInfo → BitField × List Bytes
  | bf, proofs, [] => (bf, proofs)
  | bf, proofs, info :: rest =>
    fillParams sectorsMap (bf.set info.number) (proofs ++ [(sectorsMap info.number).proof.proof]) rest

/-- `pushMessage(ctx, ctrlAddr, mid, collateral, miner.Methods.ProveCommitAggregate, ...)`. -/
def aggregatePush (env : CommitEnv) (mid : ActorID) (ctrlAddr : Address) (collateral : TokenAmount)
    (params : ProveCommitAggregateParams) : Push :=
  ⟨ctrlAddr, mid, collateral, .proveCommitAggregate, env.config.commitment.prove.msgMeta,
    .proveCommitAggregate params⟩

/-- From the prover call on: aggregate, serialize, push, and stamp every sector whose id did
    not fail. `infos` is sorted and non-empty here. -/
def sendAggregate (env : CommitEnv) (sectors : List SectorState) (mid : ActorID) (ctrlAddr : Address)
    (acc : Collected) (infos : List AggregateSealVerifyInfo) (first : AggregateSealVerifyInfo)
    (sectorNumbers : BitField) (proofs : List Bytes) : ProcessOutcome :=
  let req : AggregateSealVerifyProofAndInfos :=
    ⟨mid, (acc.sectorsMap first.number).sectorType, .snarkPackV1, infos⟩
  let calls := [Call.aggregateSealProofs req proofs]
  match env.aggregateSealProofs req proofs with
  | .error e => ⟨sectors, calls, .error ("aggregate sector failed: " ++ e)⟩
  | .ok aggregateProof =>
    let params : ProveCommitAggregateParams := ⟨sectorNumbers, aggregateProof⟩
    match env.marshalCBOR params with
    | .error e => ⟨sectors, calls, .error ("couldn't serialize ProveCommitAggregateParams: " ++ e)⟩
    | .ok () =>
      let msg := aggregatePush env mid ctrlAddr acc.collateral params
      match env.pushMessage msg with
      | .error e =>
        ⟨sectors, calls ++ [.pushMessage msg], .error ("push aggregate prove message failed: " ++ e)⟩
      | .ok ccid =>
        ⟨stampUnfailed SectorState.setCommitCid acc.failed ccid sectors, calls ++ [.pushMessage msg], .ok⟩

/-- The aggregate path after `ChainHead` returned `tok`. Reading `infos[0]` from an empty
    `infos` is a run-time panic. -/
def aggregateAt (srt : InfoSort) (env : CommitEnv) (sectors : List SectorState) (mid : ActorID)
    (ctrlAddr : Address) (tok : TipSetToken) : ProcessOutcome :=
  let acc := collect env mid tok 0 Collected.init sectors
  let infos := srt.sort acc.infos
  let filled := fillParams acc.sectorsMap BitField.new [] infos
  match infos with
  | [] => ⟨sectors, [], .panic "runtime error: index out of range [0] with length 0"⟩
  | first :: _ => sendAggregate env sectors mid ctrlAddr acc infos first filled.1 filled.2

/-- `CommitProcessor.Process`. -/
def process (minAggregatedSectors : Nat) (srt : InfoSort) (env : CommitEnv)
    (sectors : List SectorState) (sched : Schedule sectors.length) (mid : ActorID)
    (ctrlAddr : Address) : ProcessOutcome :=
  if !CommitProcessor.enableBatch env.config || sectors.length < minAggregatedSectors then
    let r := processIndividually env sectors sched ctrlAddr mid
    ⟨r.1, r.2, .ok⟩
  else
    match env.chainHead with
    | .error e => ⟨sectors, [], .error ("get chain head failed: " ++ e)⟩
    | .ok (tok, _) => aggregateAt srt env sectors mid ctrlAddr tok

/-! ## The loops -/

/-- The entries whose collateral query succeeded, with the amount; the `i`-th query is the one
    for the first entry. -/
def collateralOk (env : CommitEnv) (mid : ActorID) (tok : TipSetToken) :
    Nat → List SectorState → List (SectorState × TokenAmount)
  | _, [] => []
  | i, p :: rest =>
    match env.sectorCollateral i mid p.id.number tok with
    | .ok sc => (p, sc) :: collateralOk env mid tok (i + 1) rest
    | .error _ => collateralOk env mid tok (i + 1) rest

/-- The ids of the entries whose collateral query failed. -/
def failedIds (env : CommitEnv) (mid : ActorID) (tok : TipSetToken) :
    Nat → List SectorState → List SectorID
  | _, [] => []
  | i, p :: rest =>
    match env.sectorCollateral i mid p.id.number tok with
    | .ok _ => failedIds env mid tok (i + 1) rest
    | .error _ => p.id :: failedIds env mid tok (i + 1) rest

/-- The last entry of `sectors` numbered `n`: what `sectorsMap[n]` holds after the loop. -/
def lastWithNumber (sectors : List SectorState) (n : SectorNumber) : Option SectorState :=
  sectors.reverse.find? (·.id.number = n)

variable (env : CommitEnv) (mid : ActorID) (tok : TipSetToken)

theorem collect_infos (i : Nat) (acc : Collected) (sectors : List SectorState) :
    (collect env mid tok i acc sectors).infos =
      acc.infos ++ (collateralOk env mid tok i sectors).map (·.1.aggregateInfo) := by
  induction sectors generalizing i acc with
  | nil => simp [collect, collateralOk]
  | cons p rest ih =>
    cases h : env.sectorCollateral i mid p.id.number tok <;> simp [collect, collateralOk, h, ih]

theorem collect_collateral (i : Nat) (acc : Collected) (sectors : List SectorState) :
    (collect env mid tok i acc sectors).collateral =
      acc.collateral + ((collateralOk env mid tok i sectors).map (·.2)).sum := by
  induction sectors generalizing i acc with
  | nil => simp [collect, collateralOk]
  | cons p rest ih =>
    cases h : env.sectorCollateral i mid p.id.number tok <;>
      simp [collect, collateralOk, h, ih, add_assoc]

theorem mem_collect_failed (i : Nat) (acc : Collected) (sectors : List SectorState) (x : SectorID) :
    x ∈ (collect env mid tok i acc sectors).failed ↔
      x ∈ acc.failed ∨ x ∈ failedIds env mid tok i sectors := by
  induction sectors generalizing i acc with
  | nil => simp [collect, failedIds]
  | cons p rest ih =>
    cases h : env.sectorCollateral i mid p.id.number tok
    · simp [collect, failedIds, h, ih, List.mem_insert_iff]
      tauto
    · simp [collect, failedIds, h, ih]

theorem collect_sectorsMap (i : Nat) (acc : Collected) (sectors : List SectorState) (n : SectorNumber) :
    (collect env mid tok i acc sectors).sectorsMap n =
      (lastWithNumber sectors n).getD (acc.sectorsMap n) := by
  induction sectors generalizing i acc with
  | nil => simp [collect, lastWithNumber]
  | cons p rest ih =>
    have hmap : ∀ acc' : Collected, acc'.sectorsMap = Function.update acc.sectorsMap p.id.number p →
        (collect env mid tok (i + 1) acc' rest).sectorsMap n =
          (lastWithNumber (p :: rest) n).getD (acc.sectorsMap n) := by
      intro acc' h'
      rw [ih, h']
      simp only [lastWithNumber, List.reverse_cons, List.find?_append, List.find?_singleton]
      cases rest.reverse.find? (·.id.number = n) with
      | some q => rfl
      | none =>
        by_cases hn : p.id.number = n
        · subst hn
          simp
        · simp [hn, Function.update_noteq (Ne.symm hn)]
    simp only [collect]
    split <;> exact hmap _ rfl

theorem fillParams_eq (m : SectorNumber → SectorState) (bf : BitField) (proofs : List Bytes)
    (infos : List AggregateSealVerifyInfo) :
    fillParams m bf proofs infos =
      (bf ∪ (infos.map (·.number)).toFinset, proofs ++ infos.map (fun info => (m info.number).proof.proof)) := by
  induction infos generalizing bf proofs with
  | nil => simp [fillParams]
  | cons info rest ih =>
    simp only [fillParams, ih, BitField.set, List.map_cons, List.toFinset_cons, List.append_assoc,
      List.singleton_append]
    rw [Finset.union_insert, Finset.insert_union]

/-! ## The calls after the loops -/

/-- Everything `sendAggregate` can do: it calls the prover with `infos` and `proofs`, may push
    the aggregate carrying `bf` and the accumulated collateral, returns `nil` only after a
    successful push and then stamps the sectors whose id did not fail; any other end leaves the
    sectors as they were. -/
theorem sendAggregate_spec (sectors : List SectorState) (ctrlAddr : Address) (acc : Collected)
    (infos : List AggregateSealVerifyInfo) (first : AggregateSealVerifyInfo) (bf : BitField)
    (proofs : List Bytes) :
    let out := sendAggregate env sectors mid ctrlAddr acc infos first bf proofs
    (∀ c ∈ out.calls, (∃ sp, c = .aggregateSealProofs ⟨mid, sp, .snarkPackV1, infos⟩ proofs) ∨
      ∃ aggregateProof, c = .pushMessage (aggregatePush env mid ctrlAddr acc.collateral
        ⟨bf, aggregateProof⟩)) ∧
    (out.status = .ok → ∃ aggregateProof ccid,
      Call.pushMessage (aggregatePush env mid ctrlAddr acc.collateral ⟨bf, aggregateProof⟩) ∈ out.calls ∧
      env.pushMessage (aggregatePush env mid ctrlAddr acc.collateral ⟨bf, aggregateProof⟩) = .ok ccid ∧
      out.sectors = stampUnfailed SectorState.setCommitCid acc.failed ccid sectors) ∧
    (out.status ≠ .ok → out.sectors = sectors) := by
  simp only [sendAggregate]
  cases hagg : env.aggregateSealProofs ⟨mid, (acc.sectorsMap first.number).sectorType,
    .snarkPackV1, infos⟩ proofs with
  | error e => simp
  | ok aggregateProof =>
    cases hm : env.marshalCBOR ⟨bf, aggregateProof⟩ with
    | error e => simp [hm]
    | ok u =>
      cases hp : env.pushMessage (aggregatePush env mid ctrlAddr acc.collateral ⟨bf, aggregateProof⟩) with
      | error e =>
        simp [hm, hp, or_imp, forall_and]
        exact ⟨aggregateProof, rfl⟩
      | ok ccid =>
        simp [hm, hp, or_imp, forall_and]
        exact ⟨⟨aggregateProof, rfl⟩, aggregateProof, rfl, ccid, hp, rfl⟩

/-- After the prover call, `Process` returns `nil` or an error; it cannot panic. -/
theorem sendAggregate_status_ne_panic (sectors : List SectorState) (ctrlAddr : Address)
    (acc : Collected) (infos : List AggregateSealVerifyInfo) (first : AggregateSealVerifyInfo)
    (bf : BitField) (proofs : List Bytes) (msg : String) :
    (sendAggregate env sectors mid ctrlAddr acc infos first bf proofs).status ≠ .panic msg := by
  simp only [sendAggregate]
  split
  · simp
  split
  · simp
  split <;> simp

theorem collateralOk_sublist (i : Nat) (sectors : List SectorState) :
    ((collateralOk env mid tok i sectors).map (·.1)).Sublist sectors := by
  induction sectors generalizing i with
  | nil => simp [collateralOk]
  | cons p rest ih =>
    cases h : env.sectorCollateral i mid p.id.number tok
    · simpa [collateralOk, h] using (ih (i + 1)).cons p
    · simpa [collateralOk, h] using (ih (i + 1)).cons₂ p

/-- The sorted infos are those of the entries whose query succeeded. -/
theorem sort_infos_perm (srt : InfoSort) (sectors : List SectorState) :
    (srt.sort (collect env mid tok 0 Collected.init sectors).infos).Perm
      ((collateralOk env mid tok 0 sectors).map (·.1.aggregateInfo)) := by
  simpa [collect_infos] using srt.perm _

/-- The bitfield holds the numbers of the entries whose query succeeded; the proof list holds,
    for each sorted info, the proof of the last entry with its number. -/
theorem fillParams_collect (srt : InfoSort) (sectors : List SectorState) :
    fillParams (collect env mid tok 0 Collected.init sectors).sectorsMap BitField.new []
        (srt.sort (collect env mid tok 0 Collected.init sectors).infos) =
      (((collateralOk env mid tok 0 sectors).map (·.1.id.number)).toFinset,
        (srt.sort (collect env mid tok 0 Collected.init sectors).infos).map
          (fun info => ((lastWithNumber sectors info.number).getD default).proof.proof)) := by
  simp only [fillParams_eq, collect_sectorsMap, BitField.new, Finset.empty_union, List.nil_append]
  refine Prod.ext (List.toFinset_eq_of_perm _ _ ?_) rfl
  simpa [Function.comp_def, SectorState.aggregateInfo] using
    (sort_infos_perm env mid tok srt sectors).map (·.number)

theorem lastWithNumber_of_nodup {sectors : List SectorState} {p : SectorState}
    (hnd : (sectors.map (·.id.number)).Nodup) (hp : p ∈ sectors) :
    lastWithNumber sectors p.id.number = some p := by
  cases hf : lastWithNumber sectors p.id.number with
  | none =>
    simp only [lastWithNumber, List.find?_eq_none, List.mem_reverse, decide_eq_true_eq] at hf
    exact absurd rfl (hf p hp)
  | some q =>
    have hq := List.mem_of_find?_eq_some hf
    have hn := List.find?_some hf
    simp only [List.mem_reverse, decide_eq_true_eq] at hq hn
    rw [List.inj_on_of_nodup_map hnd hq hp hn]

theorem failedIds_sublist (i : Nat) (sectors : List SectorState) :
    (failedIds env mid tok i sectors).Sublist (sectors.map (·.id)) := by
  induction sectors generalizing i with
  | nil => simp [failedIds]
  | cons p rest ih =>
    cases h : env.sectorCollateral i mid p.id.number tok
    · simpa [failedIds, h] using (ih (i + 1)).cons₂ p.id
    · simpa [failedIds, h] using (ih (i + 1)).cons p.id

/-- With pairwise-distinct numbers, a sector's id failed exactly when its number is not among
    the succeeded ones. -/
theorem mem_failedIds_iff_of_nodup (i : Nat) (sectors : List SectorState)
    (hnd : (sectors.map (·.id.number)).Nodup) (s : SectorState) (hs : s ∈ sectors) :
    s.id ∈ failedIds env mid tok i sectors ↔
      s.id.number ∉ (collateralOk env mid tok i sectors).map (·.1.id.number) := by
  induction sectors generalizing i with
  | nil => simp at hs
  | cons p rest ih =>
    simp only [List.map_cons, List.nodup_cons, List.mem_map] at hnd
    obtain ⟨hp, hnd⟩ := hnd
    have hne : ∀ q ∈ rest, q.id.number ≠ p.id.number := fun q hq he => hp ⟨q, hq, he⟩
    rcases List.mem_cons.1 hs with rfl | hs
    · cases h : env.sectorCollateral i mid s.id.number tok <;> simp only [failedIds, collateralOk, h]
      · simp only [List.mem_cons, true_or, true_iff, List.mem_map]
        rintro ⟨⟨q, sc⟩, hq, he⟩
        exact hne q ((collateralOk_sublist env mid tok (i + 1) rest).subset
          (List.mem_map.2 ⟨(q, sc), hq, rfl⟩)) he
      · simp only [List.map_cons, List.mem_cons, true_or, not_true_eq_false, iff_false]
        intro hx
        obtain ⟨q, hq, he⟩ := List.mem_map.1 ((failedIds_sublist env mid tok (i + 1) rest).subset hx)
        exact hne q hq (by rw [he])
    · have hsp : s.id.number ≠ p.id.number := hne s hs
      have hid : s.id ≠ p.id := fun he => hsp (by rw [he])
      cases h : env.sectorCollateral i mid p.id.number tok <;>
        simp only [failedIds, collateralOk, h, List.mem_cons, List.map_cons, hid, hsp, false_or,
          ih (i + 1) hnd hs]

/-! ## The individual path's calls -/

theorem proveTask_calls (spec : MsgMeta) (calls : ProveCalls) (fromAddr : Address) (s : SectorState) :
    ∀ c ∈ (proveTask spec calls fromAddr mid s).1,
      ∃ msg, c = .pushMessage msg ∧ msg.method = .proveCommitSector := by
  simp only [proveTask]
  split
  · simp
  split
  · simp
  split
  · simp
  split <;> simp

/-- What the goroutine for `s` pushes, step by step: when serializing its parameters, reading the
    head and querying its collateral there all succeed, a `ProveCommitSector` carrying `s`'s own
    number and proof, valued at that collateral. -/
def provePush? (spec : MsgMeta) (calls : ProveCalls) (fromAddr : Address) (s : SectorState) :
    Option Push := do
  let _ ← calls.marshalCBOR.toOption
  let (tok, _) ← calls.chainHead.toOption
  let collateral ← (calls.sectorCollateral mid s.id.number tok).toOption
  pure ⟨fromAddr, mid, collateral, .proveCommitSector, spec,
    .proveCommitSector ⟨s.id.number, s.proof.proof⟩⟩

/-- The goroutine makes the push `provePush?` describes and stores the id it gets back. -/
theorem proveTask_eq (spec : MsgMeta) (calls : ProveCalls) (fromAddr : Address) (s : SectorState) :
    proveTask spec calls fromAddr mid s =
      ((provePush? mid spec calls fromAddr s).toList.map .pushMessage,
        (provePush? mid spec calls fromAddr s).bind fun msg => (calls.pushMessage msg).toOption) := by
  simp only [proveTask, provePush?]
  rcases calls.marshalCBOR with e | ⟨⟩
  · rfl
  rcases calls.chainHead with e | ⟨tok, h⟩
  · rfl
  rcases hc : calls.sectorCollateral mid s.id.number tok with e | c
  · simp [hc, Except.toOption]
  · rcases hp : calls.pushMessage ⟨fromAddr, mid, c, .proveCommitSector, spec,
      .proveCommitSector ⟨s.id.number, s.proof.proof⟩⟩ with e | m <;> simp [hc, hp, Except.toOption]

/-- The individual path in any goroutine order: the pushes are the sectors' own, in the order
    the goroutines run, and slot `i` ends as sector `i` with `CommitCid` set to the id its push
    returned, or as it was when a step failed. -/
theorem processIndividually_spec (sectors : List SectorState) (sched : Schedule sectors.length)
    (fromAddr : Address) :
    (processIndividually env sectors sched fromAddr mid).2 =
        sched.order.flatMap (fun i => (sectors[i]?.bind
          (provePush? mid env.config.commitment.prove.msgMeta (env.individual i) fromAddr)).toList.map
            .pushMessage) ∧
      ∀ i, (processIndividually env sectors sched fromAddr mid).1[i]? =
        sectors[i]?.map fun s =>
          (((provePush? mid env.config.commitment.prove.msgMeta (env.individual i) fromAddr s).bind
            fun msg => ((env.individual i).pushMessage msg).toOption).map s.setCommitCid).getD s :=
  processIndividuallyBy_pushes _
    (fun i => provePush? mid env.config.commitment.prove.msgMeta (env.individual i) fromAddr)
    (fun i => (env.individual i).pushMessage)
    (fun i => proveTask_eq mid env.config.commitment.prove.msgMeta (env.individual i) fromAddr) _
    sectors sched

/-- The goroutines of the individual path push only `ProveCommitSector` messages. -/
theorem processIndividually_calls (sectors : List SectorState) (sched : Schedule sectors.length)
    (fromAddr : Address) :
    ∀ c ∈ (processIndividually env sectors sched fromAddr mid).2,
      ∃ msg, c = .pushMessage msg ∧ msg.method = .proveCommitSector :=
  processIndividuallyBy_calls _ _ _ _ _ fun _ _ => proveTask_calls mid _ _ _ _

/-! ## Every way `Process` can go -/

/-- The individual path returns `nil` after pushing only `ProveCommitSector`s. The aggregate
    path returns the error of a failed head; at head `tok` it panics when no query succeeded and
    is otherwise `sendAggregate` on the loop's accumulators, the sorted infos and the filled
    bitfield and proofs. -/
theorem process_cases (minAggregatedSectors : Nat) (srt : InfoSort) (env : CommitEnv)
    (sectors : List SectorState) (sched : Schedule sectors.length) (mid : ActorID)
    (ctrlAddr : Address) :
    let out := process minAggregatedSectors srt env sectors sched mid ctrlAddr
    ((CommitProcessor.enableBatch env.config = false ∨ sectors.length < minAggregatedSectors) ∧
      out.status = .ok ∧
      ∀ c ∈ out.calls, ∃ msg, c = .pushMessage msg ∧ msg.method = .proveCommitSector) ∨
    (CommitProcessor.enableBatch env.config = true ∧ minAggregatedSectors ≤ sectors.length ∧
      ((∃ e, env.chainHead = .error e ∧ out = ⟨sectors, [], .error ("get chain head failed: " ++ e)⟩) ∨
        ∃ tok h, env.chainHead = .ok (tok, h) ∧
          let acc := collect env mid tok 0 Collected.init sectors
          let filled := fillParams acc.sectorsMap BitField.new [] (srt.sort acc.infos)
          ((collateralOk env mid tok 0 sectors = [] ∧
              out = ⟨sectors, [], .panic "runtime error: index out of range [0] with length 0"⟩) ∨
            ∃ first, collateralOk env mid tok 0 sectors ≠ [] ∧
              out = sendAggregate env sectors mid ctrlAddr acc (srt.sort acc.infos) first
                filled.1 filled.2))) := by
  simp only [process]
  split_ifs with hind
  · refine .inl ⟨by simpa using hind, rfl, processIndividually_calls env mid sectors sched ctrlAddr⟩
  simp only [Bool.or_eq_true, Bool.not_eq_true', decide_eq_true_eq, not_or, Bool.not_eq_false,
    not_lt] at hind
  refine .inr ⟨hind.1, hind.2, ?_⟩
  cases hhead : env.chainHead with
  | error e => exact .inl ⟨e, rfl, rfl⟩
  | ok th =>
    obtain ⟨tok, h⟩ := th
    refine .inr ⟨tok, h, rfl, ?_⟩
    simp only [aggregateAt]
    have hnil : srt.sort (collect env mid tok 0 Collected.init sectors).infos = [] ↔
        collateralOk env mid tok 0 sectors = [] := by
      rw [← List.length_eq_zero, (sort_infos_perm env mid tok srt sectors).length_eq]
      simp
    split
    · exact .inl ⟨hnil.1 ‹_›, rfl⟩
    · rename_i first tail hsort
      exact .inr ⟨first, fun h => by simp [hnil.2 h] at hsort, rfl⟩

/-- A call to the prover can only come from the aggregate path at a head `tok`, with the sorted
    infos and the filled proofs, and every push beside it carries the filled bitfield. -/
theorem aggregate_call_source (minAggregatedSectors : Nat) (srt : InfoSort) (env : CommitEnv)
    (sectors : List SectorState) (sched : Schedule sectors.length) (mid : ActorID)
    (ctrlAddr : Address) (req : AggregateSealVerifyProofAndInfos) (proofs : List Bytes)
    (hcall : Call.aggregateSealProofs req proofs ∈
      (process minAggregatedSectors srt env sectors sched mid ctrlAddr).calls) :
    ∃ tok h, env.chainHead = .ok (tok, h) ∧
      let acc := collect env mid tok 0 Collected.init sectors
      let filled := fillParams acc.sectorsMap BitField.new [] (srt.sort acc.infos)
      req.infos = srt.sort acc.infos ∧ proofs = filled.2 ∧
      ∀ msg, Call.pushMessage msg ∈ (process minAggregatedSectors srt env sectors sched mid ctrlAddr).calls →
        ∃ aggregateProof, msg = aggregatePush env mid ctrlAddr acc.collateral ⟨filled.1, aggregateProof⟩ := by
  rcases process_cases minAggregatedSectors srt env sectors sched mid ctrlAddr with
    ⟨-, -, hind⟩ | ⟨-, -, ⟨e, -, hout⟩ | ⟨tok, h, hhead, ⟨-, hout⟩ | ⟨first, -, hout⟩⟩⟩
  · obtain ⟨msg, hc, -⟩ := hind _ hcall
    cases hc
  · simp [hout] at hcall
  · simp [hout] at hcall
  · refine ⟨tok, h, hhead, ?_⟩
    rw [hout] at hcall ⊢
    obtain ⟨hc, -⟩ := sendAggregate_spec env mid sectors ctrlAddr _ _ first _ _
    rcases hc _ hcall with ⟨sp, hreq⟩ | ⟨_, hpush⟩
    · simp only [Call.aggregateSealProofs.injEq] at hreq
      obtain ⟨rfl, rfl⟩ := hreq
      refine ⟨rfl, rfl, fun msg hmsg => ?_⟩
      rcases hc _ hmsg with ⟨_, hc'⟩ | ⟨aggregateProof, hc'⟩
      · cases hc'
      · exact ⟨aggregateProof, by simpa using hc'⟩
    · cases hpush

/-- Aggregate proof alignment: the request handed to the prover lists the infos of the entries
    whose collateral query succeeded, sorted by number; `proofs[i]` is the proof of the last
    entry numbered `Infos[i].Number`; any push carries the set of the succeeded numbers. With
    pairwise-distinct input numbers the infos are strictly ascending, as many as the bitfield's
    count, and `Infos[i]` and `proofs[i]` come from the same input sector. -/
theorem aggregate_request_sorted_aligned (minAggregatedSectors : Nat) (srt : InfoSort)
    (env : CommitEnv) (sectors : List SectorState) (sched : Schedule sectors.length)
    (mid : ActorID) (ctrlAddr : Address) (req : AggregateSealVerifyProofAndInfos)
    (proofs : List Bytes)
    (hcall : Call.aggregateSealProofs req proofs ∈
      (process minAggregatedSectors srt env sectors sched mid ctrlAddr).calls) :
    ∃ tok h, env.chainHead = .ok (tok, h) ∧
      req.infos.Perm ((collateralOk env mid tok 0 sectors).map (·.1.aggregateInfo)) ∧
      req.infos.Pairwise (fun a b => a.number ≤ b.number) ∧
      proofs = req.infos.map (fun info => ((lastWithNumber sectors info.number).getD default).proof.proof) ∧
      (∀ msg, Call.pushMessage msg ∈ (process minAggregatedSectors srt env sectors sched mid ctrlAddr).calls →
        ∃ aggregateProof, msg.params = .proveCommitAggregate
          ⟨((collateralOk env mid tok 0 sectors).map (·.1.id.number)).toFinset, aggregateProof⟩) ∧
      ((sectors.map (·.id.number)).Nodup →
        req.infos.Pairwise (fun a b => a.number < b.number) ∧
        req.infos.length = ((collateralOk env mid tok 0 sectors).map (·.1.id.number)).toFinset.card ∧
        ∀ (i : Nat) (hi : i < req.infos.length), ∃ p ∈ sectors,
          req.infos[i] = p.aggregateInfo ∧ proofs[i]? = some p.proof.proof) := by
  obtain ⟨tok, h, hhead, hinfos, hproofs, hpush⟩ :=
    aggregate_call_source minAggregatedSectors srt env sectors sched mid ctrlAddr req proofs hcall
  have hfill := fillParams_collect env mid tok srt sectors
  have hperm := sort_infos_perm env mid tok srt sectors
  rw [← hinfos] at hperm
  have hsorted : req.infos.Pairwise (fun a b => a.number ≤ b.number) := hinfos ▸ srt.sorted _
  have hproofs' : proofs = req.infos.map
      (fun info => ((lastWithNumber sectors info.number).getD default).proof.proof) := by
    rw [hproofs, hfill, hinfos]
  refine ⟨tok, h, hhead, hperm, hsorted, hproofs', fun msg hmsg => ?_, fun hnd => ?_⟩
  · obtain ⟨aggregateProof, rfl⟩ := hpush msg hmsg
    exact ⟨aggregateProof, by rw [hfill]; rfl⟩
  · -- the succeeded entries are a sublist of the input, so their numbers are distinct too
    have hsub := collateralOk_sublist env mid tok 0 sectors
    have hnums : (req.infos.map (·.number)).Nodup := by
      refine (hperm.map _).nodup_iff.2 ?_
      simpa [Function.comp_def, SectorState.aggregateInfo] using hnd.sublist (hsub.map (·.id.number))
    refine ⟨?_, ?_, fun i hi => ?_⟩
    · exact (hsorted.and (List.pairwise_map.1 hnums)).imp fun h => lt_of_le_of_ne h.1 h.2
    · rw [List.toFinset_card_of_nodup, hperm.length_eq]
      · simp
      · simpa [Function.comp_def, SectorState.aggregateInfo] using (hperm.map (·.number)).nodup_iff.1 hnums
    · obtain ⟨⟨p, sc⟩, hp, hinfo⟩ := List.mem_map.1 (hperm.subset (List.getElem_mem hi))
      have hps : p ∈ sectors := hsub.subset (List.mem_map.2 ⟨(p, sc), hp, rfl⟩)
      refine ⟨p, hps, hinfo.symm, ?_⟩
      rw [hproofs', List.getElem?_map, List.getElem?_eq_getElem hi, ← hinfo]
      simp [SectorState.aggregateInfo, lastWithNumber_of_nodup hnd hps]

/-- Two entries with one sector number, both queried successfully: the prover gets that number
    twice, so the infos are not strictly ascending. -/
theorem aggregate_request_repeats_number :
    let pol : CommitmentPolicy := ⟨1.0, 0, ⟨true, 10, 0, 0⟩⟩
    let env : CommitEnv := ⟨⟨⟨pol, pol⟩⟩, .ok ([], 100), fun _ _ _ _ => .ok 10, fun _ _ => .ok [],
      fun _ => .ok (), fun _ => .ok 7, fun _ => ⟨.ok (), .ok ([], 100), fun _ _ _ => .ok 10, fun _ => .ok 7⟩⟩
    let sectors : List SectorState := [1, 1, 2, 3].map fun n => { (default : SectorState) with id := ⟨1000, n⟩ }
    ¬ ∀ r ∈ (process 4 InfoSort.insertion env sectors (Schedule.inOrder _) 1000 0).calls.filterMap
        Call.aggregateRequest?, r.1.infos.Pairwise (fun a b => a.number < b.number) := by
  decide

theorem aggregate_request_sorted_aligned_one_failure :
    let pol : CommitmentPolicy := ⟨1.0, 0, ⟨true, 10, 0, 0⟩⟩
    let env : CommitEnv := ⟨⟨⟨pol, pol⟩⟩, .ok ([], 100),
      fun i _ _ _ => if i = 2 then .error "boom" else .ok 10, fun _ _ => .ok [],
      fun _ => .ok (), fun _ => .ok 7, fun _ => ⟨.ok (), .ok ([], 100), fun _ _ _ => .ok 10, fun _ => .ok 7⟩⟩
    let sectors : List SectorState := [4, 1, 3, 2].map fun n => { (default : SectorState) with id := ⟨1000, n⟩ }
    let req : AggregateSealVerifyProofAndInfos :=
      ⟨1000, 0, .snarkPackV1, [1, 2, 4].map fun n => ⟨n, [], [], 0, 0⟩⟩
    Call.aggregateSealProofs req [[], [], []] ∈
        (process 4 InfoSort.insertion env sectors (Schedule.inOrder _) 1000 0).calls ∧
      ∃ tok h, env.chainHead = .ok (tok, h) ∧
        req.infos.Perm ((collateralOk env 1000 tok 0 sectors).map (·.1.aggregateInfo)) ∧
        req.infos.Pairwise (fun a b => a.number ≤ b.number) ∧
        [[], [], []] = req.infos.map
          (fun info => ((lastWithNumber sectors info.number).getD default).proof.proof) ∧
        (∀ msg, Call.pushMessage msg ∈
            (process 4 InfoSort.insertion env sectors (Schedule.inOrder _) 1000 0).calls →
          ∃ aggregateProof, msg.params = .proveCommitAggregate
            ⟨((collateralOk env 1000 tok 0 sectors).map (·.1.id.number)).toFinset, aggregateProof⟩) ∧
        ((sectors.map (·.id.number)).Nodup →
          req.infos.Pairwise (fun a b => a.number < b.number) ∧
          req.infos.length = ((collateralOk env 1000 tok 0 sectors).map (·.1.id.number)).toFinset.card ∧
          ∀ (i : Nat) (hi : i < req.infos.length), ∃ p ∈ sectors,
            req.infos[i] = p.aggregateInfo ∧ ([[], [], []] : List Bytes)[i]? = some p.proof.proof) :=
  have hcall := List.mem_cons_self _ _
  ⟨hcall, aggregate_request_sorted_aligned _ _ _ _ _ _ _ _ _ hcall⟩

/-! ## Accounting and stamping -/

/-- `Process` panics exactly when it takes the aggregate path, the head is read, and no
    collateral query succeeds: `infos[0]` is then read from an empty slice. -/
theorem process_panic_iff (minAggregatedSectors : Nat) (srt : InfoSort) (env : CommitEnv)
    (sectors : List SectorState) (sched : Schedule sectors.length) (mid : ActorID)
    (ctrlAddr : Address) (msg : String) :
    (process minAggregatedSectors srt env sectors sched mid ctrlAddr).status = .panic msg ↔
      CommitProcessor.enableBatch env.config = true ∧ minAggregatedSectors ≤ sectors.length ∧
      (∃ tok h, env.chainHead = .ok (tok, h) ∧ collateralOk env mid tok 0 sectors = []) ∧
      msg = "runtime error: index out of range [0] with length 0" := by
  rcases process_cases minAggregatedSectors srt env sectors sched mid ctrlAddr with
    ⟨hind, hok, -⟩ | ⟨heb, hlen, ⟨e, hhead, hout⟩ | ⟨tok, h, hhead, ⟨hnil, hout⟩ | ⟨first, hne, hout⟩⟩⟩
  · rw [hok]
    simp only [reduceCtorEq, false_iff, not_and]
    intro heb hlen
    rcases hind with hind | hind
    · simp [hind] at heb
    · omega
  · simp [hout, hhead]
  · simp only [hout, Status.panic.injEq]
    exact ⟨fun hm => ⟨heb, hlen, ⟨tok, h, hhead, hnil⟩, hm.symm⟩, fun ⟨_, _, _, hm⟩ => hm.symm⟩
  · rw [hout]
    refine ⟨fun hs => absurd hs (sendAggregate_status_ne_panic env mid _ _ _ _ _ _ _ msg),
      fun ⟨_, _, ⟨tok', h', hhead', hnil⟩, _⟩ => ?_⟩
    cases hhead.symm.trans hhead'
    exact absurd hnil hne

/-- Every collateral query of a four-sector aggregate failing: `Process` panics. -/
theorem aggregate_all_queries_failed_panics :
    let pol : CommitmentPolicy := ⟨1.0, 0, ⟨true, 10, 0, 0⟩⟩
    let env : CommitEnv := ⟨⟨⟨pol, pol⟩⟩, .ok ([], 100), fun _ _ _ _ => .error "boom",
      fun _ _ => .ok [], fun _ => .ok (), fun _ => .ok 7,
      fun _ => ⟨.ok (), .ok ([], 100), fun _ _ _ => .ok 10, fun _ => .ok 7⟩⟩
    let sectors : List SectorState := [1, 2, 3, 4].map fun n => { (default : SectorState) with id := ⟨1000, n⟩ }
    (process 4 InfoSort.insertion env sectors (Schedule.inOrder _) 1000 0).status =
      .panic "runtime error: index out of range [0] with length 0" := by
  decide

/-- One of four collateral queries failing: `Process` pushes an aggregate of three sectors,
    below `MinAggregatedSectors = 4`. -/
theorem aggregate_pushed_below_minimum :
    let pol : CommitmentPolicy := ⟨1.0, 0, ⟨true, 10, 0, 0⟩⟩
    let env : CommitEnv := ⟨⟨⟨pol, pol⟩⟩, .ok ([], 100),
      fun i _ _ _ => if i = 2 then .error "boom" else .ok 10, fun _ _ => .ok [],
      fun _ => .ok (), fun _ => .ok 7, fun _ => ⟨.ok (), .ok ([], 100), fun _ _ _ => .ok 10, fun _ => .ok 7⟩⟩
    let sectors : List SectorState := [1, 2, 3, 4].map fun n => { (default : SectorState) with id := ⟨1000, n⟩ }
    let out := process 4 InfoSort.insertion env sectors (Schedule.inOrder _) 1000 0
    out.status = .ok ∧ (out.calls.filterMap Call.aggregateParams?).map (·.sectorNumbers.count) = [3] := by
  decide

/-! ## The order of the sectors

The batcher hands `Process` its sectors in the order they were buffered. When the chain answers
a collateral query the same wherever it comes in the loop and the sector numbers are distinct,
the aggregate path does not depend on that order: `sort.Slice` leaves one possible order of the
infos, the map holds one sector per number, and the sums and sets the loop builds are the same
for any permutation. -/

section Order

variable (hpos : ∀ i, env.sectorCollateral i = env.sectorCollateral 0)
include hpos

theorem collateralOk_eq_filterMap (i : Nat) (sectors : List SectorState) :
    collateralOk env mid tok i sectors = sectors.filterMap
      fun p => (env.sectorCollateral 0 mid p.id.number tok).toOption.map (p, ·) := by
  induction sectors generalizing i with
  | nil => rfl
  | cons p rest ih =>
    rw [collateralOk, hpos, List.filterMap_cons]
    cases h : env.sectorCollateral 0 mid p.id.number tok <;> simp [h, ih, Except.toOption]

theorem failedIds_eq_filter (i : Nat) (sectors : List SectorState) :
    failedIds env mid tok i sectors =
      (sectors.filter fun p => !(env.sectorCollateral 0 mid p.id.number tok).isOk).map (·.id) := by
  induction sectors generalizing i with
  | nil => rfl
  | cons p rest ih =>
    rw [failedIds, hpos, List.filter_cons]
    cases h : env.sectorCollateral 0 mid p.id.number tok <;>
      simp [h, ih, Except.isOk, Except.toBool]

end Order

theorem lastWithNumber_perm {sectors sectors' : List SectorState} (hp : sectors.Perm sectors')
    (hnd : (sectors.map (·.id.number)).Nodup) (n : SectorNumber) :
    lastWithNumber sectors n = lastWithNumber sectors' n := by
  have hnd' := (hp.map (·.id.number)).nodup_iff.1 hnd
  by_cases h : ∃ p ∈ sectors, p.id.number = n
  · obtain ⟨p, hps, rfl⟩ := h
    rw [lastWithNumber_of_nodup hnd hps, lastWithNumber_of_nodup hnd' (hp.subset hps)]
  · push_neg at h
    have h' : ∀ p ∈ sectors', p.id.number ≠ n := fun p hq => h p (hp.symm.subset hq)
    simp only [lastWithNumber, List.find?_eq_none.2, List.mem_reverse, decide_eq_true_eq]
    rw [List.find?_eq_none.2 (by simpa using h), List.find?_eq_none.2 (by simpa using h')]

/-- With distinct numbers, sorting by number leaves one possible order: any two sorts meeting Go's
    contract agree on any two permutations of one list. -/
theorem InfoSort.sort_eq_of_perm (srt srt' : InfoSort) {l l' : List AggregateSealVerifyInfo}
    (hp : l.Perm l') (hnd : (l.map (·.number)).Nodup) : srt.sort l = srt'.sort l' := by
  have strict : ∀ (t : InfoSort) (k : List AggregateSealVerifyInfo), (k.map (·.number)).Nodup →
      (t.sort k).Pairwise (fun a b => a.number < b.number) := fun t k hk =>
    ((t.sorted k).and (List.pairwise_map.1 (((t.perm k).map _).nodup_iff.2 hk))).imp
      fun h => lt_of_le_of_ne h.1 h.2
  have : IsAntisymm AggregateSealVerifyInfo (fun a b => a.number < b.number) :=
    ⟨fun _ _ h h' => absurd (h.trans h') (lt_irrefl _)⟩
  exact List.eq_of_perm_of_sorted ((srt.perm l).trans (hp.trans (srt'.perm l').symm))
    (strict srt l hnd) (strict srt' l' ((hp.map _).nodup_iff.1 hnd))

/-- `sendAggregate` reads the loop's accumulators only through the entry mapped at the first
    number, the collateral, and membership in `failed`; on permuted sectors it makes the same calls,
    ends the same way, and returns a permutation of what it returns on the others. -/
theorem sendAggregate_perm {sectors sectors' : List SectorState} (hp : sectors.Perm sectors')
    (ctrlAddr : Address) {acc acc' : Collected} (infos : List AggregateSealVerifyInfo)
    (first : AggregateSealVerifyInfo) (bf : BitField) (proofs : List Bytes)
    (hmap : acc.sectorsMap first.number = acc'.sectorsMap first.number)
    (hcoll : acc.collateral = acc'.collateral) (hfailed : ∀ x, x ∈ acc.failed ↔ x ∈ acc'.failed) :
    let out := sendAggregate env sectors mid ctrlAddr acc infos first bf proofs
    let out' := sendAggregate env sectors' mid ctrlAddr acc' infos first bf proofs
    out.calls = out'.calls ∧ out.status = out'.status ∧ out.sectors.Perm out'.sectors := by
  simp only [sendAggregate, hmap, hcoll]
  split
  · exact ⟨rfl, rfl, hp⟩
  split
  · exact ⟨rfl, rfl, hp⟩
  split
  · exact ⟨rfl, rfl, hp⟩
  refine ⟨rfl, rfl, ?_⟩
  simp only [stampUnfailed, hfailed]
  exact hp.map _

/-- Order independence of the aggregate: when every collateral query is answered the same
    wherever it comes in the loop and the sector numbers are distinct, `Process` on the aggregate
    path makes the same calls (the same prover request and proofs, the same pushed message) and
    ends the same way for any order of the sectors and any sort meeting Go's contract, and the
    slices it returns are permutations of each other. -/
theorem aggregate_independent_of_order (minAggregatedSectors : Nat) (srt srt' : InfoSort)
    (env : CommitEnv) (sectors sectors' : List SectorState) (sched : Schedule sectors.length)
    (sched' : Schedule sectors'.length) (mid : ActorID) (ctrlAddr : Address)
    (hperm : sectors.Perm sectors') (hnd : (sectors.map (·.id.number)).Nodup)
    (hpos : ∀ i, env.sectorCollateral i = env.sectorCollateral 0)
    (hpath : CommitProcessor.enableBatch env.config = true ∧ minAggregatedSectors ≤ sectors.length) :
    let out := process minAggregatedSectors srt env sectors sched mid ctrlAddr
    let out' := process minAggregatedSectors srt' env sectors' sched' mid ctrlAddr
    out.calls = out'.calls ∧ out.status = out'.status ∧ out.sectors.Perm out'.sectors := by
  have hlen : minAggregatedSectors ≤ sectors'.length := hperm.length_eq ▸ hpath.2
  simp only [process, hpath.1, Bool.not_true, Bool.false_or, decide_eq_true_eq,
    not_lt.2 hpath.2, not_lt.2 hlen, if_false]
  cases env.chainHead with
  | error e => exact ⟨rfl, rfl, hperm⟩
  | ok th =>
    obtain ⟨tok, -⟩ := th
    have hok := (collateralOk_eq_filterMap env mid tok hpos 0 sectors).symm ▸
      (collateralOk_eq_filterMap env mid tok hpos 0 sectors').symm ▸ hperm.filterMap _
    have hinfos : srt.sort (collect env mid tok 0 Collected.init sectors).infos =
        srt'.sort (collect env mid tok 0 Collected.init sectors').infos := by
      refine InfoSort.sort_eq_of_perm srt srt' (by simpa [collect_infos] using hok.map _) ?_
      simpa [collect_infos, Function.comp_def, SectorState.aggregateInfo] using
        hnd.sublist ((collateralOk_sublist env mid tok 0 sectors).map (·.id.number))
    have hmap : (collect env mid tok 0 Collected.init sectors).sectorsMap =
        (collect env mid tok 0 Collected.init sectors').sectorsMap := by
      funext n
      rw [collect_sectorsMap, collect_sectorsMap, lastWithNumber_perm hperm hnd]
    simp only [aggregateAt, hinfos, hmap]
    split
    · exact ⟨rfl, rfl, hperm⟩
    refine sendAggregate_perm env mid hperm ctrlAddr _ _ _ _ (by rw [hmap]) ?_ fun x => ?_
    · rw [collect_collateral, collect_collateral, (hok.map _).sum_eq]
    · rw [mem_collect_failed, mem_collect_failed, failedIds_eq_filter env mid tok hpos,
        failedIds_eq_filter env mid tok hpos]
      exact or_congr_right ((hperm.filter _).map _).mem_iff

theorem aggregate_independent_of_order_reversed :
    let pol : CommitmentPolicy := ⟨1.0, 0, ⟨true, 10, 0, 0⟩⟩
    let env : CommitEnv := ⟨⟨⟨pol, pol⟩⟩, .ok ([], 100),
      fun _ _ n _ => if n = 3 then .error "boom" else .ok 10, fun _ _ => .ok [],
      fun _ => .ok (), fun _ => .ok 7, fun _ => ⟨.ok (), .ok ([], 100), fun _ _ _ => .ok 10, fun _ => .ok 7⟩⟩
    let sectors : List SectorState := [1, 2, 3, 4].map fun n => { (default : SectorState) with id := ⟨1000, n⟩ }
    sectors.Perm sectors.reverse ∧ (sectors.map (·.id.number)).Nodup ∧
      (∀ i, env.sectorCollateral i = env.sectorCollateral 0) ∧
      (CommitProcessor.enableBatch env.config = true ∧ 4 ≤ sectors.length) ∧
      let out := process 4 InfoSort.insertion env sectors (Schedule.inOrder _) 1000 0
      let out' := process 4 InfoSort.insertion env sectors.reverse (Schedule.inOrder _) 1000 0
      out.calls = out'.calls ∧ out.status = out'.status ∧ out.sectors.Perm out'.sectors :=
  ⟨(List.reverse_perm _).symm, by decide, fun _ => rfl, ⟨rfl, by decide⟩,
    aggregate_independent_of_order _ _ _ _ _ _ _ _ _ _ (List.reverse_perm _).symm (by decide)
      (fun _ => rfl) ⟨rfl, by decide⟩⟩

/-! ## What `Process` writes -/

/-- A sector whose id no failed query carries had its own query succeed, so the pushed bitfield
    holds its number. -/
theorem mem_collateralOk_of_not_mem_failedIds (i : Nat) (sectors : List SectorState)
    (s : SectorState) (hs : s ∈ sectors) (hf : s.id ∉ failedIds env mid tok i sectors) :
    s.id.number ∈ (collateralOk env mid tok i sectors).map (·.1.id.number) := by
  induction sectors generalizing i with
  | nil => simp at hs
  | cons p rest ih =>
    cases h : env.sectorCollateral i mid p.id.number tok with
    | error e =>
      simp only [failedIds, collateralOk, h, List.mem_cons, not_or] at hf ⊢
      rcases List.mem_cons.1 hs with rfl | hs
      · exact absurd rfl hf.1
      · exact ih (i + 1) hs hf.2
    | ok sc =>
      simp only [failedIds, collateralOk, h, List.map_cons, List.mem_cons] at hf ⊢
      rcases List.mem_cons.1 hs with rfl | hs
      · exact .inl rfl
      · exact .inr (ih (i + 1) hs hf)

theorem provePush?_params (spec : MsgMeta) (calls : ProveCalls) (fromAddr : Address)
    (s : SectorState) (msg : Push) (h : provePush? mid spec calls fromAddr s = some msg) :
    msg.params = .proveCommitSector ⟨s.id.number, s.proof.proof⟩ := by
  revert h
  simp only [provePush?]
  rcases calls.marshalCBOR with e | ⟨⟩
  · simp [Except.toOption]
  rcases calls.chainHead with e | ⟨tok, _⟩
  · simp [Except.toOption]
  cases hc : calls.sectorCollateral mid s.id.number tok
  · simp [hc, Except.toOption]
  · simp only [hc, Except.toOption, Option.pure_def, Option.bind_eq_bind, Option.some_bind,
      Option.some.injEq]
    rintro rfl
    rfl

/-- What `Process` can do to the sector slice, on every path and whatever the services answer:
    the slice keeps its length, an error or a panic leaves it as it was, and a slot that changes
    holds its own sector with only `CommitCid` set, to the id an accepted push among the calls
    returned for a message proving that sector's number. -/
theorem commit_cid_from_accepted_push (minAggregatedSectors : Nat) (srt : InfoSort)
    (env : CommitEnv) (sectors : List SectorState) (sched : Schedule sectors.length)
    (mid : ActorID) (ctrlAddr : Address) :
    let out := process minAggregatedSectors srt env sectors sched mid ctrlAddr
    out.sectors.length = sectors.length ∧ (out.status ≠ .ok → out.sectors = sectors) ∧
    ∀ i s, sectors[i]? = some s → out.sectors[i]? = some s ∨
      ∃ msg c, Call.pushMessage msg ∈ out.calls ∧ s.id.number ∈ msg.params.proveCommitNumbers ∧
        (env.pushMessage msg = .ok c ∨ (env.individual i).pushMessage msg = .ok c) ∧
        out.sectors[i]? = some (s.setCommitCid c) := by
  intro out
  by_cases hsame : out.sectors = sectors
  · exact ⟨by rw [hsame], fun _ => hsame, fun i s hs => .inl (hsame ▸ hs)⟩
  rcases process_cases minAggregatedSectors srt env sectors sched mid ctrlAddr with
    ⟨hind, -, -⟩ | ⟨-, -, ⟨e, -, hout⟩ | ⟨tok, h, -, ⟨-, hout⟩ | ⟨first, -, hout⟩⟩⟩
  · have hout : out = ⟨(processIndividually env sectors sched ctrlAddr mid).1,
        (processIndividually env sectors sched ctrlAddr mid).2, .ok⟩ :=
      if_pos (by simpa using hind)
    rw [hout]
    refine ⟨processIndividuallyBy_length _ _ _ _, fun h => absurd rfl h, fun i s hs => ?_⟩
    rcases processIndividuallyBy_stamped _
        (fun i => provePush? mid env.config.commitment.prove.msgMeta (env.individual i) ctrlAddr)
        (fun i => (env.individual i).pushMessage)
        (fun i => proveTask_eq mid _ (env.individual i) ctrlAddr) _ sectors sched i s hs with
      h | ⟨msg, c, hp, ha, hmem, hslot⟩
    · exact .inl h
    · refine .inr ⟨msg, c, hmem, ?_, .inr ha, hslot⟩
      simp [provePush?_params mid _ _ _ _ _ hp, MsgParams.proveCommitNumbers]
  · exact absurd (by simp only [out, hout]) hsame
  · exact absurd (by simp only [out, hout]) hsame
  · obtain ⟨-, hok, herr⟩ := sendAggregate_spec env mid sectors ctrlAddr _ _ first _ _
    have hout : out = _ := hout
    rw [hout] at hsame ⊢
    have hst := not_not.1 (mt herr hsame)
    obtain ⟨aggregateProof, ccid, hmem, hpush, hsec⟩ := hok hst
    refine ⟨by simp [hsec, stampUnfailed], fun h => absurd hst h, fun i s hs => ?_⟩
    rw [hsec, stampUnfailed, List.getElem?_map, hs]
    by_cases hf : s.id ∈ (collect env mid tok 0 Collected.init sectors).failed
    · simp [hf]
    refine .inr ⟨_, ccid, hmem, ?_, .inl hpush, by simp [hf]⟩
    have hf' : s.id ∉ failedIds env mid tok 0 sectors := by
      simpa [mem_collect_failed] using hf
    rw [fillParams_collect]
    simpa [aggregatePush, MsgParams.proveCommitNumbers] using
      mem_collateralOk_of_not_mem_failedIds env mid tok 0 sectors s (List.getElem?_mem hs) hf'

end CommitProcessor

end CommitMgr
