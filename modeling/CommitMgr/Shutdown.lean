import CommitMgr.Batcher

set_option autoImplicit false

/-! # Shutdown: the coordinator and its dispatch goroutines

`Batcher.run` calls `wg.Add(1)` in the coordinator and then starts a goroutine for every
non-empty `processList`; the goroutine runs `Process` and then `wg.Done()`. The context `b.ctx`
is cancelled from outside at any time; from then on the loop's `select` may take
`<-b.ctx.Done()`, but while a submission, a force signal or a timer expiry is also ready it may
take that instead, run a pass and spawn a goroutine. Once it takes `Done()` the coordinator
returns, and its deferred function blocks in `wg.Wait()` until the counter is zero and then
closes `b.stop`.

`Batcher.System` is the batcher with its goroutines: the buffer, every goroutine spawned so far
with how its `Process` call ends and whether it has finished, the `WaitGroup` counter (an `Int`:
a Go counter that went negative would panic), whether `b.ctx` is cancelled, and where the
coordinator is. A `Process` call returns, blocks for ever, or panics, and a panic in any
goroutine ends the program. `Batcher.step` takes one atomic action: a loop pass, the return or
the panic of one goroutine, the cancellation, the `select` taking `Done()`, or the close once
`wg.Wait()` returns. Runs interleave these in any order.

The invariant `System.Inv` ties the counter to the goroutines still running; that `b.stop` is
never closed under a running goroutine follows from it. Once the coordinator has returned, every
run ends with `b.stop` closed exactly when every goroutine still running returns. The system
refines the loop model of `Batcher.lean`: after any sequence of actions, the buffer and the
dispatched lists are what `runLoop` computes from the passes of that sequence. -/

namespace CommitMgr

namespace Batcher

variable {α : Type}

/-- How a goroutine's `Process` call ends: it returns (with or without an error), it blocks for
    ever, or it panics, which ends the whole program. -/
inductive Outcome
  | returns
  | blocks
  | panics
deriving DecidableEq, Repr

/-- A dispatch goroutine: the list it hands to `Process`, how that call ends, and whether it has
    returned and run `wg.Done()`. -/
structure Task (α : Type) where
  processList : List α
  outcome : Outcome
  finished : Bool

/-- Where the coordinator is: in its loop, returned and blocked in the deferred `wg.Wait()`, or
    past `close(b.stop)`; `crashed` once a panic has ended the program. -/
inductive Phase
  | running
  | draining
  | stopped
  | crashed
deriving DecidableEq, Repr

structure System (α : Type) where
  pending : List α
  tasks : List (Task α)
  wg : Int
  cancelled : Bool
  phase : Phase

/-- The state the loop of `run` starts in. -/
def System.init : System α := ⟨[], [], 0, false, .running⟩

/-- The goroutines spawned and not yet finished. -/
def running (tasks : List (Task α)) : Nat := tasks.countP (fun t => !t.finished)

/-- The atomic actions of `run` and its goroutines. `pass ev ans o` is a pass of the loop whose
    `select` picked `ev`, the processor answering `ans`; a goroutine it spawns ends as `o` says.
    `finish i` and `crash i` are goroutine `i` returning and panicking, `cancel` is the
    cancellation of `b.ctx`, `exit` the `select` taking `<-b.ctx.Done()`, and `close` the
    deferred `close(b.stop)` once `wg.Wait()` returns. -/
inductive Action (α : Type)
  | pass (ev : Event α) (ans : Processor.Answers) (o : Outcome)
  | finish (i : Nat)
  | crash (i : Nat)
  | cancel
  | exit
  | close

/-- `if len(processList) > 0 { wg.Add(1); go func() {...}() }`. -/
def System.spawn (s : System α) (processList : List α) (o : Outcome) : System α :=
  if 0 < processList.length then
    { s with tasks := s.tasks ++ [⟨processList, o, false⟩], wg := s.wg + 1 }
  else s

/-- One atomic action of the batcher and its goroutines; `none` when it is not enabled. -/
def step (id : α → SectorID) (s : System α) : Action α → Option (System α)
  | .pass ev ans o =>
    if s.phase = .running then
      let it := iterate id ans s.pending ev
      some ({ s with pending := it.pending }.spawn it.processList o)
    else none
  | .finish i =>
    match s.tasks[i]? with
    | some t =>
      if s.phase ≠ .crashed ∧ t.finished = false ∧ t.outcome = .returns then
        some { s with tasks := s.tasks.set i { t with finished := true }, wg := s.wg - 1 }
      else none
    | none => none
  | .crash i =>
    match s.tasks[i]? with
    | some t =>
      if s.phase ≠ .crashed ∧ t.finished = false ∧ t.outcome = .panics then
        some { s with phase := .crashed }
      else none
    | none => none
  | .cancel =>
    if s.cancelled = false ∧ s.phase ≠ .crashed then some { s with cancelled := true } else none
  | .exit =>
    if s.phase = .running ∧ s.cancelled = true then some { s with phase := .draining } else none
  | .close => if s.phase = .draining ∧ s.wg = 0 then some { s with phase := .stopped } else none

/-- The states some interleaving of actions reaches from `System.init`. -/
inductive Reachable (id : α → SectorID) : System α → Prop
  | init : Reachable id System.init
  | step {s s' : System α} (a : Action α) : Reachable id s → step id s a = some s' → Reachable id s'

/-! ## The start of `run`

Before its loop `run` reads `Threshold` once, for the capacity of the buffer. The capacity has
no effect on the loop, but `make` panics on a negative one, so a negative startup threshold ends
the program before the first pass. -/

/-- `pendingCap`. -/
def pendingCap (threshold : Int) : Int := if threshold > 128 then threshold / 4 else threshold

/-- Where `run` gets to with startup threshold `threshold`: the loop, or a panic in `make`. -/
def System.start (threshold : Int) : System α :=
  if pendingCap threshold < 0 then { System.init with phase := .crashed } else System.init

theorem pendingCap_neg_iff (threshold : Int) : pendingCap threshold < 0 ↔ threshold < 0 := by
  unfold pendingCap
  split_ifs <;> omega

/-- The loop starts, from `System.init`, exactly when the startup threshold is not negative. -/
theorem System.start_eq_init_iff (threshold : Int) :
    (System.start threshold : System α) = System.init ↔ 0 ≤ threshold := by
  unfold System.start
  split_ifs with h <;> rw [pendingCap_neg_iff] at h
  · simpa [System.init] using h
  · simpa using h

/-! ## What one action does -/

theorem running_append (tasks : List (Task α)) (pl : List α) (o : Outcome) :
    running (tasks ++ [⟨pl, o, false⟩]) = running tasks + 1 := by
  simp [running]

theorem running_set_finished (tasks : List (Task α)) (i : Nat) (t : Task α)
    (ht : tasks[i]? = some t) (hrun : t.finished = false) :
    running (tasks.set i { t with finished := true }) + 1 = running tasks := by
  induction tasks generalizing i with
  | nil => simp at ht
  | cons u rest ih =>
    cases i with
    | zero =>
      simp only [List.getElem?_cons_zero, Option.some.injEq] at ht
      subst ht
      simp [running, hrun]
    | succ i =>
      have := ih i (by simpa using ht)
      simp only [running, List.set_cons_succ, List.countP_cons] at this ⊢
      omega

theorem running_pos_of_unfinished {tasks : List (Task α)} {t : Task α} (ht : t ∈ tasks)
    (hfin : t.finished = false) : 0 < running tasks :=
  List.countP_pos_iff.2 ⟨t, ht, by simp [hfin]⟩

theorem exists_unfinished (tasks : List (Task α)) (h : 0 < running tasks) :
    ∃ (i : Nat) (t : Task α), tasks[i]? = some t ∧ t.finished = false := by
  obtain ⟨t, ht, hrun⟩ := List.countP_pos_iff.1 h
  obtain ⟨i, hi⟩ := List.mem_iff_getElem?.1 ht
  exact ⟨i, t, hi, by simpa using hrun⟩

/-- Everything one action can do. -/
theorem step_cases {id : α → SectorID} {s s' : System α} {a : Action α}
    (h : step id s a = some s') :
    (∃ ev ans o, a = .pass ev ans o ∧ s.phase = .running ∧
      s' = { s with pending := (iterate id ans s.pending ev).pending }.spawn
        (iterate id ans s.pending ev).processList o) ∨
    (∃ i t, a = .finish i ∧ s.phase ≠ .crashed ∧ s.tasks[i]? = some t ∧ t.finished = false ∧
      t.outcome = .returns ∧
      s' = { s with tasks := s.tasks.set i { t with finished := true }, wg := s.wg - 1 }) ∨
    (∃ i t, a = .crash i ∧ s.phase ≠ .crashed ∧ s.tasks[i]? = some t ∧ t.finished = false ∧
      t.outcome = .panics ∧ s' = { s with phase := .crashed }) ∨
    (a = .cancel ∧ s.cancelled = false ∧ s.phase ≠ .crashed ∧ s' = { s with cancelled := true }) ∨
    (a = .exit ∧ s.phase = .running ∧ s.cancelled = true ∧ s' = { s with phase := .draining }) ∨
    (a = .close ∧ s.phase = .draining ∧ s.wg = 0 ∧ s' = { s with phase := .stopped }) := by
  cases a <;> simp only [step] at h
  case pass ev ans o =>
    split_ifs at h with hph
    exact .inl ⟨ev, ans, o, rfl, hph, (Option.some.inj h).symm⟩
  case finish i =>
    split at h
    · rename_i t ht
      split_ifs at h with hen
      exact .inr (.inl ⟨i, t, rfl, hen.1, ht, hen.2.1, hen.2.2, (Option.some.inj h).symm⟩)
    · cases h
  case crash i =>
    split at h
    · rename_i t ht
      split_ifs at h with hen
      exact .inr (.inr (.inl ⟨i, t, rfl, hen.1, ht, hen.2.1, hen.2.2, (Option.some.inj h).symm⟩))
    · cases h
  case cancel =>
    split_ifs at h with hen
    exact .inr (.inr (.inr (.inl ⟨rfl, hen.1, hen.2, (Option.some.inj h).symm⟩)))
  case exit =>
    split_ifs at h with hen
    exact .inr (.inr (.inr (.inr (.inl ⟨rfl, hen.1, hen.2, (Option.some.inj h).symm⟩))))
  case close =>
    split_ifs at h with hen
    exact .inr (.inr (.inr (.inr (.inr ⟨rfl, hen.1, hen.2, (Option.some.inj h).symm⟩))))

/-- Once the program has crashed nothing happens any more. -/
theorem step_crashed {id : α → SectorID} {s : System α} (hc : s.phase = .crashed) (a : Action α) :
    step id s a = none := by
  cases hs : step id s a with
  | none => rfl
  | some s' =>
    rcases step_cases hs with ⟨-, -, -, -, hr, -⟩ | ⟨-, -, -, hr, -⟩ | ⟨-, -, -, hr, -⟩ |
      ⟨-, -, hr, -⟩ | ⟨-, hr, -⟩ | ⟨-, hr, -⟩ <;> simp [hc] at hr

/-- Marking goroutine `i` finished leaves every goroutine's list as it was. -/
theorem map_processList_set_finished (tasks : List (Task α)) (i : Nat) (t : Task α)
    (ht : tasks[i]? = some t) :
    (tasks.set i { t with finished := true }).map (·.processList) = tasks.map (·.processList) := by
  rw [List.map_set]
  refine List.ext_getElem? fun j => ?_
  by_cases hj : i = j
  · subst hj
    have hi : i < tasks.length := (List.getElem?_eq_some_iff.1 ht).1
    rw [List.getElem?_set_self (by simpa using hi)]
    simp [ht]
  · simp [List.getElem?_set_ne hj]

/-- A goroutine that does not return stays as it is: only returning goroutines are marked
    finished. -/
theorem step_keeps_unreturning {id : α → SectorID} {s s' : System α} {a : Action α}
    (h : step id s a = some s') {j : Nat} {t : Task α} (ht : s.tasks[j]? = some t)
    (hret : t.outcome ≠ .returns) : s'.tasks[j]? = some t := by
  rcases step_cases h with ⟨ev, ans, o, -, -, rfl⟩ | ⟨i, u, -, -, hu, -, hur, rfl⟩ |
    ⟨-, -, -, -, -, -, -, rfl⟩ | ⟨-, -, -, rfl⟩ | ⟨-, -, -, rfl⟩ | ⟨-, -, -, rfl⟩
  · unfold System.spawn
    split_ifs
    · exact (List.getElem?_append_left (List.getElem?_eq_some_iff.1 ht).1).trans ht
    · exact ht
  · have hij : i ≠ j := by
      rintro rfl
      exact hret (Option.some.inj (ht.symm.trans hu) ▸ hur)
    exact (List.getElem?_set_ne hij).trans ht
  all_goals exact ht

/-! ## The invariant -/

/-- The counter counts the running goroutines, once `b.stop` is closed none is running, and
    the coordinator has left its loop only after the context was cancelled. -/
structure System.Inv (s : System α) : Prop where
  wg_eq : s.wg = running s.tasks
  stopped_idle : s.phase = .stopped → running s.tasks = 0
  exited_cancelled : s.phase = .draining ∨ s.phase = .stopped → s.cancelled = true

theorem System.init_inv : (System.init : System α).Inv :=
  ⟨rfl, fun _ => rfl, by simp [System.init]⟩

theorem step_inv {id : α → SectorID} {s s' : System α} {a : Action α}
    (h : step id s a = some s') (hi : s.Inv) : s'.Inv := by
  obtain ⟨hw, hst, hcan⟩ := hi
  rcases step_cases h with ⟨ev, ans, o, -, hph, rfl⟩ | ⟨i, t, -, -, ht, hfin, -, rfl⟩ |
    ⟨-, -, -, -, -, -, -, rfl⟩ | ⟨-, -, -, rfl⟩ | ⟨-, -, hc, rfl⟩ | ⟨-, hd, h0, rfl⟩
  · unfold System.spawn
    split_ifs
    · exact ⟨by simp only [running_append, hw]; push_cast; rfl, by simp [hph], by simp [hph]⟩
    · exact ⟨hw, by simp [hph], by simp [hph]⟩
  · have hset := running_set_finished s.tasks i t ht hfin
    exact ⟨by simp only; omega, fun hs => by have := hst hs; simp only; omega, hcan⟩
  · exact ⟨hw, by simp, by simp⟩
  · exact ⟨hw, hst, fun _ => rfl⟩
  · exact ⟨hw, by simp, fun _ => hc⟩
  · exact ⟨hw, fun _ => by simp only; omega, fun _ => hcan (.inl hd)⟩

theorem Reachable.inv {id : α → SectorID} {s : System α} (h : Reachable id s) : s.Inv := by
  induction h with
  | init => exact System.init_inv
  | step a _ hstep ih => exact step_inv hstep ih

/-- Graceful shutdown: in every state an interleaving of passes, goroutine completions and
    panics, cancellation, the loop's exit and the close reaches, the `WaitGroup` counter is the
    number of dispatch goroutines spawned and not yet finished, and once `b.stop` is closed
    every spawned goroutine has finished. -/
theorem reachable_wg_counts_unfinished_dispatches (id : α → SectorID) (s : System α)
    (h : Reachable id s) :
    s.wg = running s.tasks ∧ (s.phase = .stopped → ∀ t ∈ s.tasks, t.finished = true) := by
  obtain ⟨hw, hst, -⟩ := h.inv
  refine ⟨hw, fun hs t ht => ?_⟩
  by_contra hfin
  exact absurd (hst hs) (running_pos_of_unfinished ht (by simpa using hfin)).ne'

theorem reachable_wg_counts_after_forced_flush :
    let s : System SectorState := ⟨[], [⟨[default], .returns, true⟩], 0, true, .stopped⟩
    Reachable SectorState.id s ∧
      (s.wg = running s.tasks ∧ (s.phase = .stopped → ∀ t ∈ s.tasks, t.finished = true)) :=
  have h : Reachable SectorState.id ⟨[], [⟨[default], .returns, true⟩], 0, true, .stopped⟩ :=
    .step .close (.step (.finish 0) (.step .exit
      (.step (.pass .force ⟨10, true, ([], none)⟩ .returns) (.step .cancel
        (.step (.pass (.pending default) ⟨10, true, ([], none)⟩ .returns) .init rfl)
          rfl) rfl) rfl) rfl) rfl
  ⟨h, reachable_wg_counts_unfinished_dispatches _ _ h⟩

/-! ## After the coordinator returns

Once the `select` has taken `Done()` no pass runs again: only goroutines returning or
panicking and the final close remain. Every run ends with `b.stop` closed exactly when every
goroutine still running returns: one that blocks keeps `wg.Wait()` waiting for ever, one that
panics ends the program first. With all of them returning, every action lowers
`shutdownRank`, and the system has an enabled action until `b.stop` is closed. -/

/-- Every run ends with `b.stop` closed: the system is stopped and stuck, or it has an enabled
    action and every enabled action leads to a system of which this holds again. -/
inductive EveryRunStops (id : α → SectorID) : System α → Prop
  | stopped {s : System α} : s.phase = .stopped → (∀ a, step id s a = none) →
      EveryRunStops id s
  | step {s : System α} : (∃ a s', step id s a = some s') →
      (∀ a s', step id s a = some s' → EveryRunStops id s') → EveryRunStops id s

/-- Every goroutine that has not finished returns. -/
def System.Returning (s : System α) : Prop :=
  ∀ t ∈ s.tasks, t.finished = false → t.outcome = .returns

/-- What is left once the coordinator has returned: the goroutines still running, and the close
    while the coordinator waits for them. -/
def shutdownRank (s : System α) : Nat :=
  running s.tasks + if s.phase = .draining then 1 else 0

/-- If every run stops, no goroutine still running blocks or panics: whatever action comes
    next leaves it as it is, and a stopped system has none running. -/
theorem EveryRunStops.returning {id : α → SectorID} {s : System α} (hs : EveryRunStops id s)
    (hr : Reachable id s) : s.Returning := by
  induction hs with
  | stopped hph _ =>
    intro t ht hfin
    exact absurd (hr.inv.stopped_idle hph) (running_pos_of_unfinished ht hfin).ne'
  | step hex _ ih =>
    intro t ht hfin
    by_contra hret
    obtain ⟨a, s', ha⟩ := hex
    obtain ⟨j, hj⟩ := List.mem_iff_getElem?.1 ht
    exact hret (ih a s' ha (hr.step a ha) t
      (List.getElem?_mem (step_keeps_unreturning ha hj hret)) hfin)

/-- After the coordinator has returned, an action is a returning goroutine finishing, a
    panicking one crashing the program, or the close. -/
theorem exited_step_cases {id : α → SectorID} {s s' : System α} {a : Action α} (hi : s.Inv)
    (hex : s.phase = .draining ∨ s.phase = .stopped) (h : step id s a = some s') :
    (∃ i t, s.tasks[i]? = some t ∧ t.finished = false ∧ t.outcome = .returns ∧
      s' = { s with tasks := s.tasks.set i { t with finished := true }, wg := s.wg - 1 }) ∨
    (∃ t ∈ s.tasks, t.finished = false ∧ t.outcome = .panics) ∨
    (s.phase = .draining ∧ s' = { s with phase := .stopped }) := by
  have hnr : s.phase ≠ .running := by rcases hex with hex | hex <;> simp [hex]
  rcases step_cases h with ⟨-, -, -, -, hph, -⟩ | ⟨i, t, -, -, ht, hfin, hret, hs'⟩ |
    ⟨i, t, -, -, ht, hfin, hp, -⟩ | ⟨-, hc, -⟩ | ⟨-, hph, -⟩ | ⟨-, hd, -, hs'⟩
  · exact absurd hph hnr
  · exact .inl ⟨i, t, ht, hfin, hret, hs'⟩
  · exact .inr (.inl ⟨t, List.getElem?_mem ht, hfin, hp⟩)
  · simp [hi.exited_cancelled hex] at hc
  · exact absurd hph hnr
  · exact .inr (.inr ⟨hd, hs'⟩)

/-- With every running goroutine returning, an action after the coordinator has returned keeps
    the system out of the loop, keeps every running goroutine returning, and lowers the rank. -/
theorem exited_step {id : α → SectorID} {s s' : System α} {a : Action α} (hi : s.Inv)
    (hex : s.phase = .draining ∨ s.phase = .stopped) (hret : s.Returning)
    (h : step id s a = some s') :
    (s'.phase = .draining ∨ s'.phase = .stopped) ∧ s'.Returning ∧
      shutdownRank s' < shutdownRank s := by
  rcases exited_step_cases hi hex h with ⟨i, t, ht, hfin, -, rfl⟩ | ⟨t, ht, hfin, hp⟩ |
    ⟨hd, rfl⟩
  · refine ⟨hex, fun u hu hufin => ?_, ?_⟩
    · rcases List.mem_or_eq_of_mem_set hu with hu | rfl
      · exact hret u hu hufin
      · simp at hufin
    · have := running_set_finished s.tasks i t ht hfin
      simp only [shutdownRank]
      omega
  · simp [hret t ht hfin] at hp
  · exact ⟨.inr rfl, hret, by simp [shutdownRank, hd]⟩

/-- After the coordinator has returned, with every running goroutine returning, the system is
    stuck exactly when it is stopped: a running goroutine can finish, and with none running the
    counter is zero, so `wg.Wait()` returns. -/
theorem exited_stuck_iff {id : α → SectorID} {s : System α} (hi : s.Inv)
    (hex : s.phase = .draining ∨ s.phase = .stopped) (hret : s.Returning) :
    (∀ a, step id s a = none) ↔ s.phase = .stopped := by
  constructor
  · intro hnone
    refine hex.resolve_left fun hd => ?_
    by_cases hpos : 0 < running s.tasks
    · obtain ⟨i, t, ht, hfin⟩ := exists_unfinished s.tasks hpos
      have := hnone (.finish i)
      simp [step, ht, hfin, hd, hret t (List.getElem?_mem ht) hfin] at this
    · have := hnone .close
      simp [step, hd, hi.wg_eq] at this
      omega
  · intro hs a
    cases hstep : step id s a with
    | none => rfl
    | some s' =>
      have := (exited_step hi hex hret hstep).2.2
      simp only [shutdownRank, hs, reduceCtorEq, if_false, add_zero, hi.stopped_idle hs] at this
      omega

theorem exited_every_run_stops {id : α → SectorID} {s : System α} (hr : Reachable id s)
    (hex : s.phase = .draining ∨ s.phase = .stopped) (hret : s.Returning) : EveryRunStops id s := by
  obtain ⟨n, hrank⟩ : ∃ n, shutdownRank s = n := ⟨_, rfl⟩
  induction n using Nat.strong_induction_on generalizing s with
  | _ n ih =>
    by_cases hnone : ∀ a, step id s a = none
    · exact .stopped ((exited_stuck_iff hr.inv hex hret).1 hnone) hnone
    · push_neg at hnone
      obtain ⟨a, ha⟩ := hnone
      obtain ⟨s', hs'⟩ := Option.ne_none_iff_exists'.1 ha
      refine .step ⟨a, s', hs'⟩ fun b t hb => ?_
      obtain ⟨htex, htret, hlt⟩ := exited_step hr.inv hex hret hb
      exact ih _ (hrank ▸ hlt) (hr.step b hb) htex htret rfl

/-- The loop pass an action is, if it is one. -/
def Action.pass? : Action α → Option (Event α × Processor.Answers)
  | .pass ev ans _ => some (ev, ans)
  | _ => none

/-- The loop passes of a sequence of actions, in order. -/
def passes (acts : List (Action α)) : List (Event α × Processor.Answers) :=
  acts.flatMap fun a => a.pass?.toList

@[simp] theorem passes_nil : passes ([] : List (Action α)) = [] := rfl

@[simp] theorem passes_cons (a : Action α) (acts : List (Action α)) :
    passes (a :: acts) = a.pass?.toList ++ passes acts := rfl

/-- The actions `acts` taken one after the other from `s`; `none` when one is not enabled. -/
def System.runActions (id : α → SectorID) : System α → List (Action α) → Option (System α)
  | s, [] => some s
  | s, a :: acts => (step id s a).bind (System.runActions id · acts)

theorem runActions_append (id : α → SectorID) (s : System α) (acts acts' : List (Action α)) :
    System.runActions id s (acts ++ acts') =
      (System.runActions id s acts).bind (System.runActions id · acts') := by
  induction acts generalizing s with
  | nil => rfl
  | cons a acts ih =>
    rw [List.cons_append]
    simp only [System.runActions, Option.bind_assoc, ih]

theorem Reachable.runActions {id : α → SectorID} {s s' : System α} {acts : List (Action α)}
    (hr : Reachable id s) (h : System.runActions id s acts = some s') : Reachable id s' := by
  induction acts generalizing s with
  | nil => exact Option.some.inj h ▸ hr
  | cons a acts ih =>
    simp only [System.runActions, Option.bind_eq_some] at h
    obtain ⟨s1, h1, h⟩ := h
    exact ih (hr.step a h1) h

/-- The reachable states are those the sequences of actions reach from `System.init`. -/
theorem reachable_iff_runActions (id : α → SectorID) (s : System α) :
    Reachable id s ↔ ∃ acts, System.runActions id System.init acts = some s := by
  constructor
  · intro h
    induction h with
    | init => exact ⟨[], rfl⟩
    | step a _ hstep ih =>
      obtain ⟨acts, hacts⟩ := ih
      exact ⟨acts ++ [a], by simp [runActions_append, hacts, System.runActions, hstep]⟩
  · rintro ⟨acts, h⟩
    exact Reachable.init.runActions h

/-- One action is `runLoop` over its pass, if it is one: the buffer is what that pass leaves, and
    a goroutine is spawned for the list it hands to `Process` when that is not empty. -/
theorem step_pending_tasks {id : α → SectorID} {s s' : System α} {a : Action α}
    (h : step id s a = some s') :
    s'.pending = (runLoop id s.pending a.pass?.toList).1 ∧
      s'.tasks.map (·.processList) = s.tasks.map (·.processList) ++
        (runLoop id s.pending a.pass?.toList).2.filter (fun pl => 0 < pl.length) := by
  rcases step_cases h with ⟨ev, ans, o, rfl, -, rfl⟩ | ⟨i, t, rfl, -, ht, -, -, rfl⟩ |
    ⟨-, -, rfl, -, -, -, -, rfl⟩ | ⟨rfl, -, -, rfl⟩ | ⟨rfl, -, -, rfl⟩ | ⟨rfl, -, -, rfl⟩
  · unfold System.spawn
    split_ifs with hpos <;> simp [Action.pass?, hpos]
  · exact ⟨rfl, by simpa [Action.pass?] using map_processList_set_finished s.tasks i t ht⟩
  all_goals simp [Action.pass?]

theorem runActions_pending_tasks (id : α → SectorID) (s s' : System α) (acts : List (Action α))
    (h : System.runActions id s acts = some s') :
    s'.pending = (runLoop id s.pending (passes acts)).1 ∧
      s'.tasks.map (·.processList) = s.tasks.map (·.processList) ++
        (runLoop id s.pending (passes acts)).2.filter (fun pl => 0 < pl.length) := by
  induction acts generalizing s with
  | nil =>
    cases Option.some.inj h
    simp
  | cons a acts ih =>
    simp only [System.runActions, Option.bind_eq_some] at h
    obtain ⟨s1, h1, h⟩ := h
    obtain ⟨hp1, ht1⟩ := step_pending_tasks h1
    obtain ⟨hp, ht⟩ := ih s1 h
    rw [passes_cons, runLoop_append, ← hp1]
    exact ⟨hp, by rw [ht, ht1, List.filter_append, List.append_assoc]⟩

/-- The step system refines the loop model: after any sequence of actions from the start, the
    buffer is the one `runLoop` computes over the passes of that sequence, and the goroutines
    carry, in spawn order, the non-empty lists those passes handed to `Process`; together the
    buffer and the goroutines' lists hold exactly the sectors those passes received. -/
theorem runActions_refines_runLoop (id : α → SectorID) (acts : List (Action α)) (s : System α)
    (h : System.runActions id System.init acts = some s) :
    s.pending = (runLoop id [] (passes acts)).1 ∧
      s.tasks.map (·.processList) = (runLoop id [] (passes acts)).2.filter (fun pl => 0 < pl.length) ∧
      (s.pending ++ (s.tasks.map (·.processList)).flatten).Perm (submitted (passes acts)) := by
  obtain ⟨hp, ht⟩ := runActions_pending_tasks id _ s acts h
  simp only [System.init, List.map_nil, List.nil_append] at hp ht
  have hne : (fun pl : List α => decide (0 < pl.length)) = fun pl => !pl.isEmpty :=
    funext fun pl => by cases pl <;> simp
  refine ⟨hp, ht, ?_⟩
  rw [hp, ht, hne, List.flatten_filter_not_isEmpty]
  simpa using runLoop_perm id [] (passes acts)

/-- A sector submitted after the cancellation is still buffered, dispatched and awaited: the
    `select` takes the submission and the force signal before `Done()`. -/
theorem runActions_refines_runLoop_pass_after_cancel :
    let ans : Processor.Answers := ⟨10, true, ([], none)⟩
    let acts : List (Action SectorState) :=
      [.cancel, .pass (.pending default) ans .returns, .pass .force ans .returns, .exit,
        .finish 0, .close]
    let s : System SectorState := ⟨[], [⟨[default], .returns, true⟩], 0, true, .stopped⟩
    System.runActions SectorState.id System.init acts = some s ∧
      (s.pending = (runLoop SectorState.id [] (passes acts)).1 ∧
        s.tasks.map (·.processList) =
          (runLoop SectorState.id [] (passes acts)).2.filter (fun pl => 0 < pl.length) ∧
        (s.pending ++ (s.tasks.map (·.processList)).flatten).Perm (submitted (passes acts))) :=
  ⟨rfl, runActions_refines_runLoop _ _ _ rfl⟩

end Batcher

end CommitMgr
