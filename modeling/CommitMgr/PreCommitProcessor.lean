import Mathlib
import CommitMgr.Processor
import CommitMgr.CommitProcessor

set_option autoImplicit false

/-! # The pre-commit processor

`PreCommitProcessor.Process` sends the pre-commit messages of a batch of sectors. Without
batching it starts one goroutine per sector (`processIndividually`), each building the sector's
parameters and deposit and pushing its own `PreCommitSector`. With batching it builds every
sector's parameters in turn, leaving out the sectors whose build fails, pushes one
`PreCommitSectorBatch` carrying the sum of the deposits, and stamps the returned id on every
sector whose id did not fail.

`preCommitParams` (not part of this package) and the serializer and messager are the
environment `PreCommitEnv`; the build for the `i`-th sector of the batch loop is answered by
`preCommitParams i`.

Both processors share the individual dispatch loop of `Processor.lean`; the last section states
its law for the two of them together, which is why this module imports the prove-commit one. -/

namespace CommitMgr

/-- The answers the goroutine for one sector gets in `processIndividually`. -/
structure PreCommitCalls where
  preCommitParams : SectorState → Except String (SectorPreCommitInfo × TokenAmount)
  marshalCBOR : Except String Unit
  pushMessage : Push → Except String Cid

/-- What the services answer during one `PreCommitProcessor.Process` call. -/
structure PreCommitEnv where
  config : MinerConfig
  preCommitParams : Nat → SectorState → Except String (SectorPreCommitInfo × TokenAmount)
  marshalCBOR : PreCommitSectorBatchParams → Except String Unit
  pushMessage : Push → Except String Cid
  individual : Nat → PreCommitCalls

/-- `sectors[i].MessageInfo.PreCommitCid = &c`. -/
def SectorState.setPreCommitCid (s : SectorState) (c : Cid) : SectorState :=
  { s with messageInfo := { s.messageInfo with preCommitCid := some c } }

/-- `api.PreCommitEntry`. -/
structure PreCommitEntry where
  deposit : TokenAmount
  pci : SectorPreCommitInfo

namespace PreCommitProcessor

/-- The goroutine for one sector: build its parameters and deposit, serialize, push. -/
def preCommitTask (spec : MsgMeta) (calls : PreCommitCalls) (fromAddr : Address) (mid : ActorID)
    (s : SectorState) : List Call × Option Cid :=
  match calls.preCommitParams s with
  | .error _ => ([], none)
  | .ok (params, deposit) =>
    match calls.marshalCBOR with
    | .error _ => ([], none)
    | .ok () =>
      let msg : Push := ⟨fromAddr, mid, deposit, .preCommitSector, spec, .preCommitSector params⟩
      match calls.pushMessage msg with
      | .error _ => ([.pushMessage msg], none)
      | .ok mcid => ([.pushMessage msg], some mcid)

/-- `processIndividually`: one `preCommitTask` goroutine per sector, run in the order `sched`. -/
def processIndividually (env : PreCommitEnv) (sectors : List SectorState)
    (sched : Schedule sectors.length) (fromAddr : Address) (mid : ActorID) :
    List SectorState × List Call :=
  processIndividuallyBy
    (fun idx s => preCommitTask env.config.commitment.pre.msgMeta (env.individual idx) fromAddr mid s)
    SectorState.setPreCommitCid sectors sched

/-- The loop `for _, s := range sectors`: build `s`'s parameters; on failure mark its id failed,
    otherwise append its entry to `infos`. -/
def collectEntries (env : PreCommitEnv) :
    Nat → List PreCommitEntry × List SectorID → List SectorState → List PreCommitEntry × List SectorID
  | _, acc, [] => acc
  | i, (infos, failed), s :: rest =>
    match env.preCommitParams i s with
    | .error _ => collectEntries env (i + 1) (infos, failed.insert s.id) rest
    | .ok (params, deposit) => collectEntries env (i + 1) (infos ++ [⟨deposit, params⟩], failed) rest

/-- The loop `for i := range infos`: append each entry's parameters to `params.Sectors` and add
    its deposit. -/
def batchParams :
    PreCommitSectorBatchParams → TokenAmount → List PreCommitEntry → PreCommitSectorBatchParams × TokenAmount
  | params, deposit, [] => (params, deposit)
  | params, deposit, e :: rest => batchParams ⟨params.sectors ++ [e.pci]⟩ (deposit + e.deposit) rest

/-- `pushMessage(ctx, ctrlAddr, mid, deposit, miner.Methods.PreCommitSectorBatch, ...)`. -/
def batchPush (env : PreCommitEnv) (mid : ActorID) (ctrlAddr : Address) (deposit : TokenAmount)
    (params : PreCommitSectorBatchParams) : Push :=
  ⟨ctrlAddr, mid, deposit, .preCommitSectorBatch, env.config.commitment.pre.msgMeta,
    .preCommitSectorBatch params⟩

/-- `PreCommitProcessor.Process`. -/
def process (env : PreCommitEnv) (sectors : List SectorState) (sched : Schedule sectors.length)
    (mid : ActorID) (ctrlAddr : Address) : ProcessOutcome :=
  if !PreCommitProcessor.enableBatch env.config then
    let r := processIndividually env sectors sched ctrlAddr mid
    ⟨r.1, r.2, .ok⟩
  else
    let collected := collectEntries env 0 ([], []) sectors
    let batch := batchParams ⟨[]⟩ 0 collected.1
    match env.marshalCBOR batch.1 with
    | .error e => ⟨sectors, [], .error ("couldn't serialize PreCommitSectorBatchParams: " ++ e)⟩
    | .ok () =>
      let msg := batchPush env mid ctrlAddr batch.2 batch.1
      match env.pushMessage msg with
      | .error e => ⟨sectors, [.pushMessage msg], .error ("push batch precommit message failed: " ++ e)⟩
      | .ok ccid =>
        ⟨stampUnfailed SectorState.setPreCommitCid collected.2 ccid sectors, [.pushMessage msg], .ok⟩

/-! ## The loops -/

/-- The entries whose parameters were built, with their parameters and deposit, in input order;
    the `i`-th build is the one for the first entry. -/
def paramsOk (env : PreCommitEnv) :
    Nat → List SectorState → List (SectorState × SectorPreCommitInfo × TokenAmount)
  | _, [] => []
  | i, s :: rest =>
    match env.preCommitParams i s with
    | .ok (params, deposit) => (s, params, deposit) :: paramsOk env (i + 1) rest
    | .error _ => paramsOk env (i + 1) rest

/-- The ids of the entries whose build failed. -/
def paramsFailedIds (env : PreCommitEnv) : Nat → List SectorState → List SectorID
  | _, [] => []
  | i, s :: rest =>
    match env.preCommitParams i s with
    | .ok _ => paramsFailedIds env (i + 1) rest
    | .error _ => s.id :: paramsFailedIds env (i + 1) rest

variable (env : PreCommitEnv)

theorem collectEntries_infos (i : Nat) (infos : List PreCommitEntry) (failed : List SectorID)
    (sectors : List SectorState) :
    (collectEntries env i (infos, failed) sectors).1 =
      infos ++ (paramsOk env i sectors).map (fun e => ⟨e.2.2, e.2.1⟩) := by
  induction sectors generalizing i infos failed with
  | nil => simp [collectEntries, paramsOk]
  | cons s rest ih =>
    cases h : env.preCommitParams i s <;> simp [collectEntries, paramsOk, h, ih]

theorem mem_collectEntries_failed (i : Nat) (infos : List PreCommitEntry) (failed : List SectorID)
    (sectors : List SectorState) (x : SectorID) :
    x ∈ (collectEntries env i (infos, failed) sectors).2 ↔
      x ∈ failed ∨ x ∈ paramsFailedIds env i sectors := by
  induction sectors generalizing i infos failed with
  | nil => simp [collectEntries, paramsFailedIds]
  | cons s rest ih =>
    cases h : env.preCommitParams i s
    · simp [collectEntries, paramsFailedIds, h, ih, List.mem_insert_iff]
      tauto
    · simp [collectEntries, paramsFailedIds, h, ih]

theorem batchParams_eq (params : PreCommitSectorBatchParams) (deposit : TokenAmount)
    (entries : List PreCommitEntry) :
    batchParams params deposit entries =
      (⟨params.sectors ++ entries.map (·.pci)⟩, deposit + (entries.map (·.deposit)).sum) := by
  induction entries generalizing params deposit with
  | nil => simp [batchParams]
  | cons e rest ih => simp [batchParams, ih, add_assoc]

/-- The batch holds the parameters of the entries whose build succeeded, in input order, and the
    sum of their deposits. -/
theorem batchParams_collect (sectors : List SectorState) :
    batchParams ⟨[]⟩ 0 (collectEntries env 0 ([], []) sectors).1 =
      (⟨(paramsOk env 0 sectors).map (·.2.1)⟩, ((paramsOk env 0 sectors).map (·.2.2)).sum) := by
  simp [batchParams_eq, collectEntries_infos, Function.comp_def]

theorem paramsOk_sublist (i : Nat) (sectors : List SectorState) :
    ((paramsOk env i sectors).map (·.1)).Sublist sectors := by
  induction sectors generalizing i with
  | nil => simp [paramsOk]
  | cons s rest ih =>
    cases h : env.preCommitParams i s
    · simpa [paramsOk, h] using (ih (i + 1)).cons s
    · simpa [paramsOk, h] using (ih (i + 1)).cons₂ s

theorem paramsFailedIds_sublist (i : Nat) (sectors : List SectorState) :
    (paramsFailedIds env i sectors).Sublist (sectors.map (·.id)) := by
  induction sectors generalizing i with
  | nil => simp [paramsFailedIds]
  | cons s rest ih =>
    cases h : env.preCommitParams i s
    · simpa [paramsFailedIds, h] using (ih (i + 1)).cons₂ s.id
    · simpa [paramsFailedIds, h] using (ih (i + 1)).cons s.id

/-- With pairwise-distinct ids, a sector's id failed exactly when its own build failed. -/
theorem mem_paramsFailedIds_iff_of_nodup (i : Nat) (sectors : List SectorState)
    (hnd : (sectors.map (·.id)).Nodup) (s : SectorState) (hs : s ∈ sectors) :
    s.id ∈ paramsFailedIds env i sectors ↔ s ∉ (paramsOk env i sectors).map (·.1) := by
  induction sectors generalizing i with
  | nil => simp at hs
  | cons p rest ih =>
    simp only [List.map_cons, List.nodup_cons, List.mem_map] at hnd
    obtain ⟨hp, hnd⟩ := hnd
    have hne : ∀ q ∈ rest, q.id ≠ p.id := fun q hq he => hp ⟨q, hq, he⟩
    rcases List.mem_cons.1 hs with rfl | hs
    · have hnot : s ∉ (paramsOk env (i + 1) rest).map (·.1) := fun hm =>
        hne s ((paramsOk_sublist env (i + 1) rest).subset hm) rfl
      cases h : env.preCommitParams i s <;> simp only [paramsFailedIds, paramsOk, h]
      · simpa using hnot
      · simp only [List.map_cons, List.mem_cons, true_or, not_true_eq_false, iff_false]
        intro hx
        obtain ⟨q, hq, he⟩ := List.mem_map.1 ((paramsFailedIds_sublist env (i + 1) rest).subset hx)
        exact hne q hq he
    · have hid : s.id ≠ p.id := hne s hs
      have hsp : s ≠ p := fun he => hid (by rw [he])
      cases h : env.preCommitParams i p <;>
        simp only [paramsFailedIds, paramsOk, h, List.mem_cons, List.map_cons, hid, hsp, false_or,
          ih (i + 1) hnd hs]

/-! ## Accounting and stamping -/

/-- Pre-commit batch accounting and stamping, with batching on: an error leaves the sectors as
    they were; `nil` means the one message pushed was the batch of the built parameters in input
    order with the sum of their deposits, and every sector whose id no failed build carries is
    stamped with the returned id, the others left as they were. With pairwise-distinct ids, a
    sector's id failed exactly when its own build failed. -/
theorem batch_precommit_stamps_unfailed_ids (sectors : List SectorState)
    (sched : Schedule sectors.length) (mid : ActorID) (ctrlAddr : Address)
    (heb : PreCommitProcessor.enableBatch env.config = true) :
    (∀ e, (process env sectors sched mid ctrlAddr).status = .error e →
      (process env sectors sched mid ctrlAddr).sectors = sectors) ∧
    ((process env sectors sched mid ctrlAddr).status = .ok → ∃ ccid msg,
      msg =
        { fromAddr := ctrlAddr, mid := mid, value := ((paramsOk env 0 sectors).map (·.2.2)).sum,
          method := .preCommitSectorBatch, spec := env.config.commitment.pre.msgMeta,
          params := .preCommitSectorBatch ⟨(paramsOk env 0 sectors).map (·.2.1)⟩ } ∧
      (process env sectors sched mid ctrlAddr).calls = [.pushMessage msg] ∧
      env.pushMessage msg = .ok ccid ∧
      (process env sectors sched mid ctrlAddr).sectors =
        sectors.map (fun s => if s.id ∈ paramsFailedIds env 0 sectors then s
          else { s with messageInfo := { s.messageInfo with preCommitCid := some ccid } }) ∧
      ((sectors.map (·.id)).Nodup → ∀ s ∈ sectors,
        (s.id ∈ paramsFailedIds env 0 sectors ↔ s ∉ (paramsOk env 0 sectors).map (·.1)))) := by
  have hfailed := mem_collectEntries_failed env 0 [] [] sectors
  simp only [List.not_mem_nil, false_or] at hfailed
  simp only [process, heb, Bool.not_true, Bool.false_eq_true, if_false, batchParams_collect]
  cases hm : env.marshalCBOR ⟨(paramsOk env 0 sectors).map (·.2.1)⟩ with
  | error e => simp
  | ok u =>
    cases hp : env.pushMessage (batchPush env mid ctrlAddr ((paramsOk env 0 sectors).map (·.2.2)).sum
        ⟨(paramsOk env 0 sectors).map (·.2.1)⟩) with
    | error e => simp
    | ok ccid =>
      refine ⟨by simp, fun _ => ⟨ccid, _, rfl, rfl, hp, ?_, fun hnd s hs =>
        mem_paramsFailedIds_iff_of_nodup env 0 sectors hnd s hs⟩⟩
      exact List.map_congr_left fun s _ => by simp only [hfailed, SectorState.setPreCommitCid]

theorem batch_precommit_one_failure :
    let pol : CommitmentPolicy := ⟨1.0, 0, ⟨true, 10, 0, 0⟩⟩
    let env : PreCommitEnv := ⟨⟨⟨pol, pol⟩⟩,
      fun i _ => if i = 1 then .error "boom" else .ok (⟨0, i, 0, 0, [], 0⟩, 5), fun _ => .ok (),
      fun _ => .ok 9, fun _ => ⟨fun _ => .ok (⟨0, 0, 0, 0, [], 0⟩, 5), .ok (), fun _ => .ok 9⟩⟩
    let sectors : List SectorState := [1, 2, 3].map fun n => { (default : SectorState) with id := ⟨1000, n⟩ }
    PreCommitProcessor.enableBatch env.config = true ∧
    (∀ e, (process env sectors (Schedule.inOrder _) 1000 0).status = .error e →
      (process env sectors (Schedule.inOrder _) 1000 0).sectors = sectors) ∧
    ((process env sectors (Schedule.inOrder _) 1000 0).status = .ok → ∃ ccid msg,
      msg =
        { fromAddr := 0, mid := 1000, value := ((paramsOk env 0 sectors).map (·.2.2)).sum,
          method := .preCommitSectorBatch, spec := env.config.commitment.pre.msgMeta,
          params := .preCommitSectorBatch ⟨(paramsOk env 0 sectors).map (·.2.1)⟩ } ∧
      (process env sectors (Schedule.inOrder _) 1000 0).calls = [.pushMessage msg] ∧
      env.pushMessage msg = .ok ccid ∧
      (process env sectors (Schedule.inOrder _) 1000 0).sectors =
        sectors.map (fun s => if s.id ∈ paramsFailedIds env 0 sectors then s
          else { s with messageInfo := { s.messageInfo with preCommitCid := some ccid } }) ∧
      ((sectors.map (·.id)).Nodup → ∀ s ∈ sectors,
        (s.id ∈ paramsFailedIds env 0 sectors ↔ s ∉ (paramsOk env 0 sectors).map (·.1)))) :=
  ⟨rfl, batch_precommit_stamps_unfailed_ids _ _ _ _ _ rfl⟩

/-- Two entries of one sector, the first's build failing and the second's succeeding: the
    failed map is keyed by id, so the second is not stamped though its parameters were sent. -/
theorem batch_precommit_built_duplicate_unstamped :
    let pol : CommitmentPolicy := ⟨1.0, 0, ⟨true, 10, 0, 0⟩⟩
    let env : PreCommitEnv := ⟨⟨⟨pol, pol⟩⟩,
      fun i _ => if i = 0 then .error "boom" else .ok (⟨0, 1, 0, 0, [], 0⟩, 5), fun _ => .ok (),
      fun _ => .ok 9, fun _ => ⟨fun _ => .ok (⟨0, 0, 0, 0, [], 0⟩, 5), .ok (), fun _ => .ok 9⟩⟩
    let sectors : List SectorState := [1, 1].map fun n => { (default : SectorState) with id := ⟨1000, n⟩ }
    let out := process env sectors (Schedule.inOrder _) 1000 0
    (env.preCommitParams 1 { (default : SectorState) with id := ⟨1000, 1⟩ }).isOk = true ∧
      out.status = .ok ∧ out.sectors.map (·.messageInfo.preCommitCid) = [none, none] := by
  decide

/-! ## Individual dispatch -/

/-- What the goroutine for `s` pushes, step by step: when building its parameters and deposit and
    serializing them both succeed, a `PreCommitSector` carrying those parameters, valued at that
    deposit. -/
def preCommitPush? (spec : MsgMeta) (calls : PreCommitCalls) (fromAddr : Address) (mid : ActorID)
    (s : SectorState) : Option Push := do
  let (params, deposit) ← (calls.preCommitParams s).toOption
  let _ ← calls.marshalCBOR.toOption
  pure ⟨fromAddr, mid, deposit, .preCommitSector, spec, .preCommitSector params⟩

/-- The goroutine makes the push `preCommitPush?` describes and stores the id it gets back. -/
theorem preCommitTask_eq (spec : MsgMeta) (calls : PreCommitCalls) (fromAddr : Address)
    (mid : ActorID) (s : SectorState) :
    preCommitTask spec calls fromAddr mid s =
      ((preCommitPush? spec calls fromAddr mid s).toList.map .pushMessage,
        (preCommitPush? spec calls fromAddr mid s).bind fun msg => (calls.pushMessage msg).toOption) := by
  simp only [preCommitTask, preCommitPush?]
  rcases hb : calls.preCommitParams s with e | ⟨params, deposit⟩
  · simp [Except.toOption]
  rcases calls.marshalCBOR with e | ⟨⟩
  · simp [Except.toOption]
  rcases hp : calls.pushMessage ⟨fromAddr, mid, deposit, .preCommitSector, spec,
    .preCommitSector params⟩ with e | m <;> simp [hp, Except.toOption]

/-- The individual path in any goroutine order: the pushes are the sectors' own, in the order
    the goroutines run, and slot `i` ends as sector `i` with `PreCommitCid` set to the id its push
    returned, or as it was when a step failed. -/
theorem processIndividually_spec (sectors : List SectorState) (sched : Schedule sectors.length)
    (fromAddr : Address) (mid : ActorID) :
    (processIndividually env sectors sched fromAddr mid).2 =
        sched.order.flatMap (fun i => (sectors[i]?.bind fun s =>
          preCommitPush? env.config.commitment.pre.msgMeta (env.individual i) fromAddr mid s).toList.map
            .pushMessage) ∧
      ∀ i, (processIndividually env sectors sched fromAddr mid).1[i]? =
        sectors[i]?.map fun s =>
          (((preCommitPush? env.config.commitment.pre.msgMeta (env.individual i) fromAddr mid s).bind
            fun msg => ((env.individual i).pushMessage msg).toOption).map s.setPreCommitCid).getD s :=
  processIndividuallyBy_pushes _
    (fun i => preCommitPush? env.config.commitment.pre.msgMeta (env.individual i) fromAddr mid)
    (fun i => (env.individual i).pushMessage)
    (fun i => preCommitTask_eq env.config.commitment.pre.msgMeta (env.individual i) fromAddr mid) _
    sectors sched

/-! ## Empty batches -/

theorem paramsOk_eq_nil (i : Nat) (sectors : List SectorState)
    (hfail : ∀ k (hk : k < sectors.length), (env.preCommitParams (i + k) sectors[k]).isOk = false) :
    paramsOk env i sectors = [] := by
  induction sectors generalizing i with
  | nil => rfl
  | cons s rest ih =>
    have h0 := hfail 0 (by simp)
    cases h : env.preCommitParams i s with
    | ok r => simp [h, Except.isOk, Except.toBool] at h0
    | error e =>
      simp only [paramsOk, h]
      refine ih (i + 1) fun k hk => ?_
      simpa [Nat.add_assoc, Nat.add_comm 1 k] using hfail (k + 1) (by simpa using hk)

/-- With batching on, nothing checks that a build succeeded: when every build fails, `Process`
    still serializes and pushes a `PreCommitSectorBatch` with no sectors and no deposit. -/
theorem batch_precommit_pushes_empty_batch (sectors : List SectorState)
    (sched : Schedule sectors.length) (mid : ActorID) (ctrlAddr : Address)
    (heb : PreCommitProcessor.enableBatch env.config = true)
    (hfail : ∀ i (hi : i < sectors.length), (env.preCommitParams i sectors[i]).isOk = false)
    (hm : env.marshalCBOR ⟨[]⟩ = .ok ()) :
    (process env sectors sched mid ctrlAddr).calls =
      [.pushMessage (batchPush env mid ctrlAddr 0 ⟨[]⟩)] := by
  have hnil := paramsOk_eq_nil env 0 sectors (by simpa using hfail)
  simp only [process, heb, Bool.not_true, Bool.false_eq_true, if_false, batchParams_collect, hnil,
    List.map_nil, List.sum_nil, hm]
  cases env.pushMessage (batchPush env mid ctrlAddr 0 ⟨[]⟩) <;> rfl

theorem batch_precommit_pushes_empty_batch_all_failed :
    let pol : CommitmentPolicy := ⟨1.0, 0, ⟨true, 10, 0, 0⟩⟩
    let env : PreCommitEnv := ⟨⟨⟨pol, pol⟩⟩, fun _ _ => .error "boom", fun _ => .ok (),
      fun _ => .ok 9, fun _ => ⟨fun _ => .ok (⟨0, 0, 0, 0, [], 0⟩, 5), .ok (), fun _ => .ok 9⟩⟩
    let sectors : List SectorState := [1, 2].map fun n => { (default : SectorState) with id := ⟨1000, n⟩ }
    PreCommitProcessor.enableBatch env.config = true ∧
      (∀ i (hi : i < sectors.length), (env.preCommitParams i sectors[i]).isOk = false) ∧
      env.marshalCBOR ⟨[]⟩ = .ok () ∧
      (process env sectors (Schedule.inOrder _) 1000 0).calls =
        [.pushMessage (batchPush env 1000 0 0 ⟨[]⟩)] :=
  ⟨rfl, by decide, rfl, batch_precommit_pushes_empty_batch _ _ _ _ _ rfl (by decide) rfl⟩

/-! ## What `Process` writes -/

/-- The entry at position `k` whose id no failed build carries had its own build succeed, and
    the batch carries the parameters built for it. -/
theorem mem_paramsOk_of_not_mem_paramsFailedIds (i k : Nat) (sectors : List SectorState)
    (s : SectorState) (hs : sectors[k]? = some s) (hf : s.id ∉ paramsFailedIds env i sectors) :
    ∃ params deposit, env.preCommitParams (i + k) s = .ok (params, deposit) ∧
      params ∈ (paramsOk env i sectors).map (·.2.1) := by
  induction sectors generalizing i k with
  | nil => simp at hs
  | cons p rest ih =>
    cases k with
    | zero =>
      obtain rfl : p = s := by simpa using hs
      cases h : env.preCommitParams i p with
      | error e => simp [paramsFailedIds, h] at hf
      | ok r => exact ⟨r.1, r.2, h, by simp [paramsOk, h]⟩
    | succ k =>
      have hf' : s.id ∉ paramsFailedIds env (i + 1) rest := by
        cases h : env.preCommitParams i p <;> simp only [paramsFailedIds, h, List.mem_cons] at hf
        · exact fun h' => hf (.inr h')
        · exact hf
      obtain ⟨params, deposit, hb, hm⟩ := ih (i + 1) k (by simpa using hs) hf'
      refine ⟨params, deposit, by rwa [Nat.add_right_comm, Nat.add_assoc] at hb, ?_⟩
      cases h : env.preCommitParams i p <;> simp [paramsOk, h, hm]

theorem preCommitPush?_some (spec : MsgMeta) (calls : PreCommitCalls) (fromAddr : Address)
    (mid : ActorID) (s : SectorState) (msg : Push)
    (h : preCommitPush? spec calls fromAddr mid s = some msg) :
    ∃ params deposit, calls.preCommitParams s = .ok (params, deposit) ∧
      msg.params = .preCommitSector params := by
  revert h
  simp only [preCommitPush?]
  cases hb : calls.preCommitParams s with
  | error e => simp [Except.toOption]
  | ok r =>
    rcases calls.marshalCBOR with e | ⟨⟩
    · simp [Except.toOption]
    · simp only [Except.toOption, Option.pure_def, Option.bind_eq_bind, Option.some_bind,
        Option.some.injEq]
      rintro rfl
      exact ⟨r.1, r.2, rfl, rfl⟩

/-- What `Process` can do to the sector slice, on every path and whatever the services answer:
    the slice keeps its length, an error leaves it as it was, and a slot that changes holds its
    own sector with only `PreCommitCid` set, to the id an accepted push among the calls returned
    for a message carrying the parameters built for that very slot. -/
theorem precommit_cid_from_accepted_push (sectors : List SectorState)
    (sched : Schedule sectors.length) (mid : ActorID) (ctrlAddr : Address) :
    let out := process env sectors sched mid ctrlAddr
    out.sectors.length = sectors.length ∧ (out.status ≠ .ok → out.sectors = sectors) ∧
    ∀ i s, sectors[i]? = some s → out.sectors[i]? = some s ∨
      ∃ msg c params deposit, Call.pushMessage msg ∈ out.calls ∧ params ∈ msg.params.preCommitInfos ∧
        ((env.preCommitParams i s = .ok (params, deposit) ∧ env.pushMessage msg = .ok c) ∨
          ((env.individual i).preCommitParams s = .ok (params, deposit) ∧
            (env.individual i).pushMessage msg = .ok c)) ∧
        out.sectors[i]? = some (s.setPreCommitCid c) := by
  intro out
  by_cases hsame : out.sectors = sectors
  · exact ⟨by rw [hsame], fun _ => hsame, fun i s hs => .inl (hsame ▸ hs)⟩
  cases heb : PreCommitProcessor.enableBatch env.config
  · have hout : out = ⟨(processIndividually env sectors sched ctrlAddr mid).1,
        (processIndividually env sectors sched ctrlAddr mid).2, .ok⟩ :=
      if_pos (by simp [heb])
    rw [hout]
    refine ⟨processIndividuallyBy_length _ _ _ _, fun h => absurd rfl h, fun i s hs => ?_⟩
    rcases processIndividuallyBy_stamped _
        (fun i => preCommitPush? env.config.commitment.pre.msgMeta (env.individual i) ctrlAddr mid)
        (fun i => (env.individual i).pushMessage)
        (fun i => preCommitTask_eq _ (env.individual i) ctrlAddr mid) _ sectors sched i s hs with
      h | ⟨msg, c, hp, ha, hmem, hslot⟩
    · exact .inl h
    · obtain ⟨params, deposit, hb, hparams⟩ := preCommitPush?_some _ _ _ _ _ _ hp
      exact .inr ⟨msg, c, params, deposit, hmem, by simp [hparams, MsgParams.preCommitInfos],
        .inr ⟨hb, ha⟩, hslot⟩
  · have hfailed := mem_collectEntries_failed env 0 [] [] sectors
    simp only [List.not_mem_nil, false_or] at hfailed
    simp only [out, process, heb, Bool.not_true, Bool.false_eq_true, if_false,
      batchParams_collect] at hsame ⊢
    cases hm : env.marshalCBOR ⟨(paramsOk env 0 sectors).map (·.2.1)⟩ with
    | error e => simp [hm] at hsame
    | ok u =>
      obtain ⟨⟩ := u
      cases hp : env.pushMessage (batchPush env mid ctrlAddr ((paramsOk env 0 sectors).map (·.2.2)).sum
          ⟨(paramsOk env 0 sectors).map (·.2.1)⟩) with
      | error e => simp [hm, hp] at hsame
      | ok ccid =>
        simp only [hm, hp]
        refine ⟨by simp [stampUnfailed], fun h => absurd rfl h, fun i s hs => ?_⟩
        rw [stampUnfailed, List.getElem?_map, hs]
        by_cases hf : s.id ∈ (collectEntries env 0 ([], []) sectors).2
        · simp [hf]
        obtain ⟨params, deposit, hb, hmemp⟩ :=
          mem_paramsOk_of_not_mem_paramsFailedIds env 0 i sectors s hs (by simpa [hfailed] using hf)
        refine .inr ⟨_, ccid, params, deposit, List.mem_singleton_self _, ?_,
          .inl ⟨by simpa using hb, hp⟩, by simp [hf]⟩
        simpa [batchPush, MsgParams.preCommitInfos] using hmemp

end PreCommitProcessor

/-! ## Individual dispatch of both processors -/

/-- Individual dispatch is per sector and order-independent, for both processors: whatever each
    goroutine's calls answer and whatever order the goroutines run in, the pushes are exactly
    each sector's own message (its own number and proof valued at its own collateral, resp. its
    own parameters valued at its own deposit), in the order the goroutines run; and slot `i` ends
    as sector `i` with `CommitCid` (resp. `PreCommitCid`) set to the id its own push returned when
    every step succeeded, and otherwise exactly as it was. -/
theorem individual_dispatch_per_sector (cenv : CommitEnv) (penv : PreCommitEnv)
    (sectors : List SectorState) (csched psched : Schedule sectors.length) (fromAddr : Address)
    (mid : ActorID) :
    ((CommitProcessor.processIndividually cenv sectors csched fromAddr mid).2 =
        csched.order.flatMap (fun i => (sectors[i]?.bind (CommitProcessor.provePush? mid
          cenv.config.commitment.prove.msgMeta (cenv.individual i) fromAddr)).toList.map
            .pushMessage) ∧
      ∀ i, (CommitProcessor.processIndividually cenv sectors csched fromAddr mid).1[i]? =
        sectors[i]?.map fun s =>
          (((CommitProcessor.provePush? mid cenv.config.commitment.prove.msgMeta (cenv.individual i)
            fromAddr s).bind fun msg => ((cenv.individual i).pushMessage msg).toOption).map
              fun c => { s with messageInfo := { s.messageInfo with commitCid := some c } }).getD s) ∧
    ((PreCommitProcessor.processIndividually penv sectors psched fromAddr mid).2 =
        psched.order.flatMap (fun i => (sectors[i]?.bind fun s =>
          PreCommitProcessor.preCommitPush? penv.config.commitment.pre.msgMeta (penv.individual i)
            fromAddr mid s).toList.map .pushMessage) ∧
      ∀ i, (PreCommitProcessor.processIndividually penv sectors psched fromAddr mid).1[i]? =
        sectors[i]?.map fun s =>
          (((PreCommitProcessor.preCommitPush? penv.config.commitment.pre.msgMeta (penv.individual i)
            fromAddr mid s).bind fun msg => ((penv.individual i).pushMessage msg).toOption).map
              fun c => { s with messageInfo := { s.messageInfo with preCommitCid := some c } }).getD s) :=
  ⟨CommitProcessor.processIndividually_spec cenv mid sectors csched fromAddr,
    PreCommitProcessor.processIndividually_spec penv sectors psched fromAddr mid⟩

end CommitMgr
