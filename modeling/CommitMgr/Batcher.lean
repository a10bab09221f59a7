import CommitMgr.Processor

set_option autoImplicit false

/-! # The batcher's event loop

`Batcher.run` is a single coordinator: each pass of its `for` loop waits in a `select` for a
cancellation, a force signal, a timer expiry or a submitted sector, then applies the flush policy
to its `pending` buffer and hands what it flushes (`processList`) to a dispatch goroutine.

The loop reads a buffered sector only through its `ID`, so it is modelled over any element type
`α` with an id function; the batcher of the source is the instance at `SectorState` and
`SectorState.id`. `Batcher.iterate` is one pass after the `select` has picked an event other
than cancellation, with the processor's answers for that pass; `Batcher.runLoop` chains passes
over a sequence of events. Cancellation and the dispatch goroutines are the subject of
`Shutdown.lean`.

Every pass splits the buffer it sees into what it dispatches and what it keeps by one test
(`iterate_partition`); conservation, order and the size bounds all follow from that. -/

namespace CommitMgr

namespace Batcher

variable {α : Type}

/-- The cases of the loop's `select` that continue the loop. -/
inductive Event (α : Type)
  | force
  | timer
  | pending (s : α)

/-- The sectors an event hands to the buffer: the one received on `pendingCh`, if any. -/
def Event.received : Event α → List α
  | .pending s => [s]
  | _ => []

/-- `tick`: the timer fired. -/
def Event.tick : Event α → Bool
  | .timer => true
  | _ => false

/-- `manual`: a force signal arrived. -/
def Event.manual : Event α → Bool
  | .force => true
  | _ => false

/-- What one pass leaves behind: the new buffer, the list handed to `Process` (empty when no
    goroutine is spawned), and whether the timer is replaced by a fresh `CheckAfter`. -/
structure Iteration (α : Type) where
  pending : List α
  processList : List α
  resetTimer : Bool

/-- The `for i := range pending` loop of the tick branch: a sector whose id is in `expired` is
    appended to `processList`, any other to `remain`. -/
def sweep (id : α → SectorID) (expired : List SectorID) :
    List α → List α → List α → List α × List α
  | processList, remain, [] => (processList, remain)
  | processList, remain, s :: rest =>
    if id s ∈ expired then sweep id expired (processList ++ [s]) remain rest
    else sweep id expired processList (remain ++ [s]) rest

/-- One pass of the loop of `Batcher.run` after the `select` picked `ev`, the processor answering
    `ans`. A full buffer, a force signal or disabled batching flush the whole buffer; otherwise a
    tick flushes the sectors `Expire` names. -/
def iterate (id : α → SectorID) (ans : Processor.Answers) (pending : List α) (ev : Event α) :
    Iteration α :=
  let pending := pending ++ ev.received
  let full := decide ((pending.length : Int) ≥ ans.threshold)
  if 0 < pending.length then
    if full || ev.manual || !ans.enableBatch then
      ⟨[], pending, true⟩
    else if ev.tick then
      if 0 < ans.expire.1.length then
        let r := sweep id ans.expire.1 [] [] pending
        ⟨r.2, r.1, ev.tick⟩
      else ⟨pending, [], ev.tick⟩
    else ⟨pending, [], ev.tick⟩
  else ⟨pending, [], ev.tick⟩

/-- The loop over a sequence of events and answers, from buffer `pending`: the final buffer and
    the list each pass handed to `Process`, one per pass. -/
def runLoop (id : α → SectorID) : List α → List (Event α × Processor.Answers) → List α × List (List α)
  | pending, [] => (pending, [])
  | pending, (ev, ans) :: rest =>
    let it := iterate id ans pending ev
    let r := runLoop id it.pending rest
    (r.1, it.processList :: r.2)

/-- The sectors submitted over a sequence of events, in submission order. -/
def submitted (evs : List (Event α × Processor.Answers)) : List α :=
  evs.flatMap (·.1.received)

@[simp] theorem submitted_nil : submitted ([] : List (Event α × Processor.Answers)) = [] := rfl

@[simp] theorem submitted_cons (e : Event α × Processor.Answers) (evs : List (Event α × Processor.Answers)) :
    submitted (e :: evs) = e.1.received ++ submitted evs := rfl

@[simp] theorem runLoop_nil (id : α → SectorID) (pending : List α) :
    runLoop id pending [] = (pending, []) := rfl

@[simp] theorem runLoop_cons (id : α → SectorID) (pending : List α) (ev : Event α)
    (ans : Processor.Answers) (rest : List (Event α × Processor.Answers)) :
    runLoop id pending ((ev, ans) :: rest) =
      ((runLoop id (iterate id ans pending ev).pending rest).1,
        (iterate id ans pending ev).processList :: (runLoop id (iterate id ans pending ev).pending rest).2) :=
  rfl

theorem received_length_le (ev : Event α) : ev.received.length ≤ 1 := by
  cases ev <;> simp [Event.received]

/-! ## One pass -/

theorem sweep_eq (id : α → SectorID) (expired : List SectorID) (processList remain xs : List α) :
    sweep id expired processList remain xs =
      (processList ++ xs.filter (fun s => decide (id s ∈ expired)),
        remain ++ xs.filter (fun s => !decide (id s ∈ expired))) := by
  induction xs generalizing processList remain with
  | nil => simp [sweep]
  | cons s rest ih => by_cases h : id s ∈ expired <;> simp [sweep, h, ih]

/-- Every pass dispatches the sectors of the buffer it sees that pass one test and keeps the
    others, both in buffer order. -/
theorem iterate_partition (id : α → SectorID) (ans : Processor.Answers) (pending : List α)
    (ev : Event α) :
    ∃ q : α → Bool,
      (iterate id ans pending ev).processList = (pending ++ ev.received).filter q ∧
      (iterate id ans pending ev).pending = (pending ++ ev.received).filter (fun x => !q x) := by
  simp only [iterate]
  split_ifs
  · exact ⟨fun _ => true, by simp⟩
  · exact ⟨fun s => decide (id s ∈ ans.expire.1), by simp [sweep_eq]⟩
  all_goals exact ⟨fun _ => false, by simp⟩

theorem iterate_perm (id : α → SectorID) (ans : Processor.Answers) (pending : List α) (ev : Event α) :
    ((iterate id ans pending ev).pending ++ (iterate id ans pending ev).processList).Perm
      (pending ++ ev.received) := by
  obtain ⟨q, hpl, hp⟩ := iterate_partition id ans pending ev
  rw [hpl, hp]
  exact List.perm_append_comm.trans (List.filter_append_perm q _)

theorem iterate_pending_sublist (id : α → SectorID) (ans : Processor.Answers) (pending : List α)
    (ev : Event α) : ((iterate id ans pending ev).pending).Sublist (pending ++ ev.received) := by
  obtain ⟨q, -, hp⟩ := iterate_partition id ans pending ev
  exact hp ▸ List.filter_sublist _

theorem iterate_processList_sublist (id : α → SectorID) (ans : Processor.Answers)
    (pending : List α) (ev : Event α) :
    ((iterate id ans pending ev).processList).Sublist (pending ++ ev.received) := by
  obtain ⟨q, hpl, -⟩ := iterate_partition id ans pending ev
  exact hpl ▸ List.filter_sublist _

/-! ## Runs -/

theorem runLoop_perm (id : α → SectorID) (pending : List α) (evs : List (Event α × Processor.Answers)) :
    ((runLoop id pending evs).1 ++ (runLoop id pending evs).2.flatten).Perm
      (pending ++ submitted evs) := by
  induction evs generalizing pending with
  | nil => simp
  | cons e rest ih =>
    obtain ⟨ev, ans⟩ := e
    let it := iterate id ans pending ev
    simp only [runLoop_cons, List.flatten_cons, submitted_cons]
    calc List.Perm _ (it.processList ++
            ((runLoop id it.pending rest).1 ++ (runLoop id it.pending rest).2.flatten)) :=
          List.perm_append_comm_assoc _ _ _
      List.Perm _ (it.processList ++ (it.pending ++ submitted rest)) := (ih _).append_left _
      List.Perm _ ((it.pending ++ it.processList) ++ submitted rest) := by
          rw [List.append_assoc]; exact List.perm_append_comm_assoc _ _ _
      List.Perm _ (pending ++ (ev.received ++ submitted rest)) := by
          rw [← List.append_assoc]; exact (iterate_perm id ans pending ev).append_right _

/-- A run of two parts is the second part run from the buffer the first left. -/
theorem runLoop_append (id : α → SectorID) (pending : List α)
    (evs evs' : List (Event α × Processor.Answers)) :
    runLoop id pending (evs ++ evs') =
      ((runLoop id (runLoop id pending evs).1 evs').1,
        (runLoop id pending evs).2 ++ (runLoop id (runLoop id pending evs).1 evs').2) := by
  induction evs generalizing pending with
  | nil => rfl
  | cons e rest ih =>
    obtain ⟨ev, ans⟩ := e
    simp [ih]

/-- One more pass at the end of a run is one more `iterate` on the buffer the run left. -/
theorem runLoop_snoc (id : α → SectorID) (pending : List α) (evs : List (Event α × Processor.Answers))
    (ev : Event α) (ans : Processor.Answers) :
    runLoop id pending (evs ++ [(ev, ans)]) =
      ((iterate id ans (runLoop id pending evs).1 ev).pending,
        (runLoop id pending evs).2 ++ [(iterate id ans (runLoop id pending evs).1 ev).processList]) := by
  simp [runLoop_append]

theorem runLoop_pending_sublist (id : α → SectorID) (pending : List α)
    (evs : List (Event α × Processor.Answers)) :
    ((runLoop id pending evs).1).Sublist (pending ++ submitted evs) := by
  induction evs generalizing pending with
  | nil => simp
  | cons e rest ih =>
    obtain ⟨ev, ans⟩ := e
    simpa using (ih _).trans ((iterate_pending_sublist id ans pending ev).append_right _)

theorem runLoop_processList_sublist (id : α → SectorID) (pending : List α)
    (evs : List (Event α × Processor.Answers)) (k : Nat) (hk : k < (runLoop id pending evs).2.length) :
    ((runLoop id pending evs).2[k]).Sublist (pending ++ submitted (evs.take (k + 1))) := by
  induction evs generalizing pending k with
  | nil => simp at hk
  | cons e rest ih =>
    obtain ⟨ev, ans⟩ := e
    cases k with
    | zero => simpa using iterate_processList_sublist id ans pending ev
    | succ k =>
      simp only [runLoop_cons, List.length_cons, Nat.add_lt_add_iff_right] at hk
      simpa using (ih _ k hk).trans ((iterate_pending_sublist id ans pending ev).append_right _)

theorem submitted_take_sublist (evs : List (Event α × Processor.Answers)) (n : Nat) :
    (submitted (evs.take n)).Sublist (submitted evs) := by
  have h : submitted evs = submitted (evs.take n) ++ submitted (evs.drop n) := by
    simp only [submitted, ← List.flatMap_append, List.take_append_drop]
  exact h ▸ List.sublist_append_left _ _

theorem runLoop_processList_sublist_submitted (id : α → SectorID) (pending : List α)
    (evs : List (Event α × Processor.Answers)) (pl : List α) (hpl : pl ∈ (runLoop id pending evs).2) :
    pl.Sublist (pending ++ submitted evs) := by
  obtain ⟨k, hk, rfl⟩ := List.getElem_of_mem hpl
  exact (runLoop_processList_sublist id pending evs k hk).trans
    ((submitted_take_sublist evs (k + 1)).append_left pending)

/-- Conservation and order: from an empty buffer, over any events and any answers, the buffer and
    the lists handed to `Process` together hold exactly the submitted sectors; the buffer and the
    list of every pass keep submission order, and the list of pass `k` holds only sectors
    submitted at passes `0..k`. -/
theorem runLoop_conserves_submissions (id : α → SectorID) (evs : List (Event α × Processor.Answers)) :
    ((runLoop id [] evs).1 ++ (runLoop id [] evs).2.flatten).Perm (submitted evs) ∧
    ((runLoop id [] evs).1).Sublist (submitted evs) ∧
    ∀ (k : Nat) (hk : k < (runLoop id [] evs).2.length),
      ((runLoop id [] evs).2[k]).Sublist (submitted (evs.take (k + 1))) :=
  ⟨by simpa using runLoop_perm id [] evs, by simpa using runLoop_pending_sublist id [] evs,
    fun k hk => by simpa using runLoop_processList_sublist id [] evs k hk⟩

/-! ## Bounds -/

/-- After a pass the buffer is empty, or it is below that pass's threshold and batching was on. -/
theorem iterate_pending_small (id : α → SectorID) (ans : Processor.Answers) (pending : List α)
    (ev : Event α) :
    (iterate id ans pending ev).pending = [] ∨
      (((iterate id ans pending ev).pending.length : Int) < ans.threshold ∧
        ans.enableBatch = true) := by
  simp only [iterate]
  split_ifs with hpos hflush htick hexp <;> dsimp only
  · exact .inl rfl
  · simp at hflush
    refine .inr ⟨?_, hflush.2⟩
    have := (List.filter_sublist (p := fun s => !decide (id s ∈ ans.expire.1))
      (pending ++ ev.received)).length_le
    simp only [sweep_eq, List.nil_append, List.length_append] at this ⊢
    omega
  all_goals first
    | exact .inl (List.eq_nil_of_length_eq_zero (by omega))
    | (simp at hflush; exact .inr ⟨by simpa using hflush.1.1, hflush.2⟩)

/-- With a fixed threshold `T`, a buffer below `max T 1` stays below it, and each pass hands at
    most `max T 1` sectors to `Process`. -/
theorem runLoop_bounded (id : α → SectorID) (T : Int) (pending : List α)
    (evs : List (Event α × Processor.Answers)) (hT : ∀ e ∈ evs, e.2.threshold = T)
    (hp : (pending.length : Int) < max T 1) :
    ((runLoop id pending evs).1.length : Int) < max T 1 ∧
      ∀ pl ∈ (runLoop id pending evs).2, (pl.length : Int) ≤ max T 1 := by
  induction evs generalizing pending with
  | nil => simpa using hp
  | cons e rest ih =>
    obtain ⟨ev, ans⟩ := e
    have hans : ans.threshold = T := hT _ (List.mem_cons_self _ _)
    have hnext : ((iterate id ans pending ev).pending.length : Int) < max T 1 := by
      rcases iterate_pending_small id ans pending ev with h | h
      · simp [h]
      · omega
    have hpl := (iterate_processList_sublist id ans pending ev).length_le
    have hrcv := received_length_le ev
    obtain ⟨h1, h2⟩ := ih _ (fun e he => hT e (List.mem_cons_of_mem _ he)) hnext
    refine ⟨h1, ?_⟩
    simp only [runLoop_cons, List.mem_cons, forall_eq_or_imp]
    refine ⟨?_, h2⟩
    simp only [List.length_append] at hpl
    omega

/-- Bounded buffer and batch size: after every pass the buffer is empty or below the threshold
    read in that pass with batching on; with a threshold fixed at `T`, every buffer of a run is
    below `max T 1` and every list handed to `Process` has at most `max T 1` sectors. -/
theorem pending_below_threshold (id : α → SectorID) :
    (∀ (ans : Processor.Answers) (pending : List α) (ev : Event α),
      (iterate id ans pending ev).pending = [] ∨
        (((iterate id ans pending ev).pending.length : Int) < ans.threshold ∧
          ans.enableBatch = true)) ∧
    ∀ (T : Int) (evs : List (Event α × Processor.Answers)), (∀ e ∈ evs, e.2.threshold = T) →
      ((runLoop id [] evs).1.length : Int) < max T 1 ∧
        ∀ pl ∈ (runLoop id [] evs).2, (pl.length : Int) ≤ max T 1 :=
  ⟨iterate_pending_small id, fun T evs hT => runLoop_bounded id T [] evs hT (by simp)⟩

/-! ## Forced flushes -/

/-- A pass that got a force signal, or in which batching is off, empties the buffer. -/
theorem iterate_pending_eq_nil (id : α → SectorID) (ans : Processor.Answers) (pending : List α)
    (ev : Event α) (h : ev.manual = true ∨ ans.enableBatch = false) :
    (iterate id ans pending ev).pending = [] := by
  simp only [iterate]
  split_ifs with hpos hflush <;> dsimp only
  all_goals first
    | rfl
    | exact List.eq_nil_of_length_eq_zero (by omega)
    | (exfalso; rcases h with h | h <;> simp [h] at hflush)

/-- Forced flushes drain the buffer: after a pass that got a force signal, or in which batching
    was off, nothing is buffered, and the lists handed to `Process` so far hold exactly the
    sectors submitted up to that pass. -/
theorem forced_pass_dispatches_submitted (id : α → SectorID)
    (evs : List (Event α × Processor.Answers)) (k : Nat) (ev : Event α) (ans : Processor.Answers)
    (hk : evs[k]? = some (ev, ans)) (hflush : ev.manual = true ∨ ans.enableBatch = false) :
    (runLoop id [] (evs.take (k + 1))).1 = [] ∧
      ((runLoop id [] (evs.take (k + 1))).2.flatten).Perm (submitted (evs.take (k + 1))) := by
  have hnil : (runLoop id [] (evs.take (k + 1))).1 = [] := by
    rw [List.take_succ, hk, Option.toList_some, runLoop_snoc]
    exact iterate_pending_eq_nil id ans _ ev hflush
  refine ⟨hnil, ?_⟩
  simpa [hnil] using runLoop_perm id [] (evs.take (k + 1))

theorem forced_pass_dispatches_submitted_after_two :
    let evs : List (Event SectorState × Processor.Answers) :=
      [(.pending default, ⟨10, true, ([], none)⟩), (.force, ⟨10, true, ([], none)⟩)]
    evs[1]? = some (.force, ⟨10, true, ([], none)⟩) ∧
      ((Event.force : Event SectorState).manual = true ∨ (⟨10, true, ([], none)⟩ : Processor.Answers).enableBatch = false) ∧
      (runLoop SectorState.id [] (evs.take 2)).1 = [] ∧
      ((runLoop SectorState.id [] (evs.take 2)).2.flatten).Perm (submitted (evs.take 2)) :=
  ⟨rfl, .inl rfl, forced_pass_dispatches_submitted _ _ 1 _ _ rfl (.inl rfl)⟩

/-! ## No de-duplication -/

/-- The batcher does not de-duplicate: a sector submitted twice before a forced flush is handed
    to `Process` twice in one list. -/
theorem runLoop_dispatches_resubmitted_twice :
    ¬ ∀ evs : List (Event SectorState × Processor.Answers),
      ∀ pl ∈ (runLoop SectorState.id [] evs).2, (pl.map SectorState.id).Nodup := by
  intro h
  let ans : Processor.Answers := ⟨10, true, ([], none)⟩
  exact absurd (h [(.pending default, ans), (.pending default, ans), (.force, ans)])
    (by decide)

/-- A pass whose received sector (if any) has no copy in the buffer keeps the buffer's ids
    distinct and hands `Process` distinct ids. -/
theorem iterate_ids_nodup (id : α → SectorID) (ans : Processor.Answers) (pending : List α)
    (ev : Event α) (hp : (pending.map id).Nodup) (hfresh : ∀ s ∈ ev.received, id s ∉ pending.map id) :
    ((iterate id ans pending ev).pending.map id).Nodup ∧
      ((iterate id ans pending ev).processList.map id).Nodup := by
  have h : ((pending ++ ev.received).map id).Nodup := by
    cases ev <;> simp_all [Event.received, List.nodup_append]
  exact ⟨h.sublist ((iterate_pending_sublist id ans pending ev).map id),
    h.sublist ((iterate_processList_sublist id ans pending ev).map id)⟩

theorem runLoop_ids_nodup (id : α → SectorID) (pending : List α)
    (evs : List (Event α × Processor.Answers)) (hp : (pending.map id).Nodup)
    (hfresh : ∀ (k : Nat) (hk : k < evs.length), ∀ s ∈ evs[k].1.received,
      id s ∉ (runLoop id pending (evs.take k)).1.map id) :
    ((runLoop id pending evs).1.map id).Nodup ∧
      ∀ pl ∈ (runLoop id pending evs).2, (pl.map id).Nodup := by
  induction evs generalizing pending with
  | nil => simpa using hp
  | cons e rest ih =>
    obtain ⟨ev, ans⟩ := e
    obtain ⟨hnext, hpl⟩ :=
      iterate_ids_nodup id ans pending ev hp (by simpa using hfresh 0 (by simp))
    obtain ⟨h1, h2⟩ := ih _ hnext fun k hk => by simpa using hfresh (k + 1) (by simpa using hk)
    simp only [runLoop_cons, List.mem_cons, forall_eq_or_imp]
    exact ⟨h1, hpl, h2⟩

/-- When no sector is submitted while a copy of it is still buffered (a sector may come back
    after its earlier copy was flushed), the buffer's ids stay pairwise distinct and every list
    handed to `Process` has pairwise-distinct ids. -/
theorem processList_ids_nodup (id : α → SectorID) (evs : List (Event α × Processor.Answers))
    (hfresh : ∀ (k : Nat) (hk : k < evs.length), ∀ s ∈ evs[k].1.received,
      id s ∉ (runLoop id [] (evs.take k)).1.map id) :
    ((runLoop id [] evs).1.map id).Nodup ∧ ∀ pl ∈ (runLoop id [] evs).2, (pl.map id).Nodup :=
  runLoop_ids_nodup id [] evs List.nodup_nil hfresh

theorem processList_ids_nodup_resubmitted_after_flush :
    let ans : Processor.Answers := ⟨10, true, ([], none)⟩
    let evs : List (Event SectorState × Processor.Answers) :=
      [(.pending default, ans), (.force, ans), (.pending default, ans), (.force, ans)]
    (∀ (k : Nat) (hk : k < evs.length), ∀ s ∈ evs[k].1.received,
        s.id ∉ (runLoop SectorState.id [] (evs.take k)).1.map SectorState.id) ∧
      ((runLoop SectorState.id [] evs).1.map SectorState.id).Nodup ∧
      ∀ pl ∈ (runLoop SectorState.id [] evs).2, (pl.map SectorState.id).Nodup :=
  ⟨by decide, processList_ids_nodup _ _ (by decide)⟩

/-! ## Tick flushes -/

/-- A tick pass with batching on and the buffer below threshold dispatches, in order, the
    buffered sectors whose id `Expire` named, and keeps the others. -/
theorem iterate_timer (id : α → SectorID) (ans : Processor.Answers) (pending : List α)
    (hT : (pending.length : Int) < ans.threshold) (heb : ans.enableBatch = true) :
    (iterate id ans pending .timer).processList =
        pending.filter (fun s => decide (id s ∈ ans.expire.1)) ∧
      (iterate id ans pending .timer).pending =
        pending.filter (fun s => !decide (id s ∈ ans.expire.1)) := by
  have hfull : ¬ (ans.threshold ≤ (pending.length : Int)) := by omega
  simp only [iterate, Event.received, Event.manual, Event.tick, List.append_nil, hfull, heb,
    decide_False, Bool.false_or, Bool.not_true, Bool.false_eq_true, if_false, if_true, ge_iff_le]
  split_ifs with hpos hexp
  · simp [sweep_eq]
  · have hnil : ans.expire.1 = [] := List.eq_nil_of_length_eq_zero (by omega)
    simp [hnil]
  · have hnil : pending = [] := List.eq_nil_of_length_eq_zero (by omega)
    simp [hnil]

/-- A tick pass that matches an `Expire` aging `epochOf` against a wait of `mwh` epochs: on a
    failed `ChainHead` nothing moves; at height `h` the buffered sectors that share their id with
    a buffered sector aged past the wait are dispatched, the others kept, both in order. -/
def TickFlush (epochOf : SectorState → ChainEpoch) (mwh : ChainEpoch)
    (head : Except String (TipSetToken × ChainEpoch)) (pending : List SectorState)
    (it : Iteration SectorState) : Prop :=
  match head with
  | .error _ => it.processList = [] ∧ it.pending = pending
  | .ok (_, h) =>
    let ids := (pending.filter fun s => expiredAt h mwh (epochOf s)).map SectorState.id
    it.processList = pending.filter (fun s => decide (s.id ∈ ids)) ∧
      it.pending = pending.filter (fun s => !decide (s.id ∈ ids))

/-- With pairwise-distinct ids, the sectors sharing an id with an aged sector are the aged ones. -/
theorem TickFlush.of_nodup {epochOf : SectorState → ChainEpoch} {mwh : ChainEpoch}
    {tok : TipSetToken} {h : ChainEpoch} {pending : List SectorState} {it : Iteration SectorState}
    (hflush : TickFlush epochOf mwh (.ok (tok, h)) pending it)
    (hnd : (pending.map SectorState.id).Nodup) :
    it.processList = pending.filter (fun s => expiredAt h mwh (epochOf s)) ∧
      it.pending = pending.filter (fun s => !expiredAt h mwh (epochOf s)) := by
  have hq : ∀ s ∈ pending, decide (s.id ∈ (pending.filter fun s => expiredAt h mwh (epochOf s)).map
      SectorState.id) = expiredAt h mwh (epochOf s) := by
    intro s hs
    rw [Bool.eq_iff_iff, decide_eq_true_iff]
    simp only [List.mem_map, List.mem_filter]
    exact ⟨fun ⟨t, ⟨ht, hold⟩, hid⟩ => List.inj_on_of_nodup_map hnd ht hs hid ▸ hold,
      fun hold => ⟨s, ⟨hs, hold⟩, rfl⟩⟩
  obtain ⟨hpl, hp⟩ := hflush
  exact ⟨hpl.trans (List.filter_congr fun s hs => hq s hs),
    hp.trans (List.filter_congr fun s hs => by rw [hq s hs])⟩

/-- The tick pass of a batcher whose processor's `Expire` is `expireBy epochOf`. -/
theorem iterate_timer_expireBy (epochOf : SectorState → ChainEpoch) (eds : Nat)
    (maxWait : Duration) (head : Except String (TipSetToken × ChainEpoch))
    (pending : List SectorState) (T : Int) (hT : (pending.length : Int) < T) :
    TickFlush epochOf (maxWaitHeight eds maxWait) head pending
      (iterate SectorState.id ⟨T, true, expireBy epochOf eds maxWait head pending⟩ pending .timer) := by
  obtain ⟨hpl, hp⟩ := iterate_timer SectorState.id
    ⟨T, true, expireBy epochOf eds maxWait head pending⟩ pending hT rfl
  obtain ⟨herr, hok⟩ := expireBy_spec epochOf eds maxWait head pending
  cases head with
  | error e =>
    simp only [TickFlush]
    rw [hpl, hp, herr e rfl]
    simp
  | ok th =>
    obtain ⟨tok, h⟩ := th
    have hq : ∀ i, i ∈ (expireBy epochOf eds maxWait (.ok (tok, h)) pending).1 ↔
        i ∈ (pending.filter fun s => expiredAt h (maxWaitHeight eds maxWait) (epochOf s)).map
          SectorState.id := by
      intro i
      rw [(hok tok h rfl).2 i]
      simp only [List.mem_map, List.mem_filter]
      exact ⟨fun ⟨s, hs, hid, ho⟩ => ⟨s, ⟨hs, ho⟩, hid⟩, fun ⟨s, ⟨hs, ho⟩, hid⟩ => ⟨s, hs, hid, ho⟩⟩
    simp only [TickFlush, hpl, hp, hq, and_self]

/-- Tick flush by age, for both processors: with batching on and the buffer below threshold, a
    tick pass whose `Expire` is `CommitProcessor.Expire` (seed epochs) or
    `PreCommitProcessor.Expire` (ticket epochs) is a `TickFlush` against the configured wait. -/
theorem tick_flush_partitions_by_expired_id (eds : Nat) (cfg : MinerConfig)
    (head : Except String (TipSetToken × ChainEpoch)) (pending : List SectorState) (T : Int)
    (hT : (pending.length : Int) < T) :
    TickFlush (·.seed.epoch) (maxWaitHeight eds cfg.commitment.prove.batch.maxWait) head pending
        (iterate SectorState.id ⟨T, true, CommitProcessor.expire eds cfg head pending⟩ pending .timer) ∧
      TickFlush (·.ticket.epoch) (maxWaitHeight eds cfg.commitment.pre.batch.maxWait) head pending
        (iterate SectorState.id ⟨T, true, PreCommitProcessor.expire eds cfg head pending⟩ pending .timer) :=
  ⟨iterate_timer_expireBy _ _ _ head pending T hT, iterate_timer_expireBy _ _ _ head pending T hT⟩

theorem tick_flush_partitions_two_sectors :
    let pol : CommitmentPolicy := ⟨1.0, 0, ⟨true, 10, 0, 0⟩⟩
    let cfg : MinerConfig := ⟨⟨pol, pol⟩⟩
    let young : SectorState := { (default : SectorState) with id := ⟨0, 1⟩, seed := ⟨[], 1000⟩ }
    ([default, young].length : Int) < 10 ∧
      TickFlush (·.seed.epoch) (maxWaitHeight 30 cfg.commitment.prove.batch.maxWait)
          (.ok ([], 1000)) [default, young]
          (iterate SectorState.id ⟨10, true, CommitProcessor.expire 30 cfg (.ok ([], 1000))
            [default, young]⟩ [default, young] .timer) ∧
        TickFlush (·.ticket.epoch) (maxWaitHeight 30 cfg.commitment.pre.batch.maxWait)
          (.ok ([], 1000)) [default, young]
          (iterate SectorState.id ⟨10, true, PreCommitProcessor.expire 30 cfg (.ok ([], 1000))
            [default, young]⟩ [default, young] .timer) :=
  ⟨by decide, tick_flush_partitions_by_expired_id 30 _ _ _ 10 (by decide)⟩

/-- Tick flush by age with pairwise-distinct ids: at head height `h` the tick pass dispatches
    exactly the buffered sectors aged past the wait, in order, and keeps the others. -/
theorem tick_flush_partitions_by_age_of_nodup (eds : Nat) (cfg : MinerConfig) (tok : TipSetToken)
    (h : ChainEpoch) (pending : List SectorState) (T : Int) (hT : (pending.length : Int) < T)
    (hnd : (pending.map SectorState.id).Nodup) :
    let commit := iterate SectorState.id
      ⟨T, true, CommitProcessor.expire eds cfg (.ok (tok, h)) pending⟩ pending .timer
    let preCommit := iterate SectorState.id
      ⟨T, true, PreCommitProcessor.expire eds cfg (.ok (tok, h)) pending⟩ pending .timer
    (commit.processList = pending.filter
        (fun s => expiredAt h (maxWaitHeight eds cfg.commitment.prove.batch.maxWait) s.seed.epoch) ∧
      commit.pending = pending.filter
        (fun s => !expiredAt h (maxWaitHeight eds cfg.commitment.prove.batch.maxWait) s.seed.epoch)) ∧
    (preCommit.processList = pending.filter
        (fun s => expiredAt h (maxWaitHeight eds cfg.commitment.pre.batch.maxWait) s.ticket.epoch) ∧
      preCommit.pending = pending.filter
        (fun s => !expiredAt h (maxWaitHeight eds cfg.commitment.pre.batch.maxWait) s.ticket.epoch)) :=
  ⟨(iterate_timer_expireBy _ _ _ _ pending T hT).of_nodup hnd,
    (iterate_timer_expireBy _ _ _ _ pending T hT).of_nodup hnd⟩

/-- Two buffered states of one sector, one aged past the wait and one not: a tick dispatches
    both, not only the aged one. -/
theorem tick_flush_dispatches_unaged_duplicate :
    let pol : CommitmentPolicy := ⟨1.0, 0, ⟨true, 10, 0, 0⟩⟩
    let cfg : MinerConfig := ⟨⟨pol, pol⟩⟩
    let young : SectorState := { (default : SectorState) with seed := ⟨[], 1000⟩ }
    (iterate SectorState.id ⟨10, true, CommitProcessor.expire 30 cfg (.ok ([], 1000))
        [default, young]⟩ [default, young] .timer).processList ≠
      [default, young].filter
        (fun s => expiredAt 1000 (maxWaitHeight 30 cfg.commitment.prove.batch.maxWait) s.seed.epoch) := by
  decide

end Batcher

end CommitMgr
