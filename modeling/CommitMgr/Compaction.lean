import CommitMgr.Batcher

set_option autoImplicit false

/-! # The tick branch's in-place compaction

On a tick, `Batcher.run` splits `pending` without a second buffer: `remain := pending[:0]` is a
slice of length zero over `pending`'s own backing array, so each `append(remain, pending[i])`
writes cell `len(remain)` of the array the loop is still scanning, while `processList` is a
fresh array. `sweep` models that loop over lists; here the backing array is explicit and every
access the loop makes to it is logged.

The loop is correct because the write index never passes the scan index: every cell it writes
has already been read for the last time. `CompactInv` says this together with what the two
lists hold so far; one iteration keeps it (`compactStep_inv`), so the whole loop does, and the
array loop computes what `sweep` computes (`compact_refines_sweep`). -/

namespace CommitMgr

namespace Batcher

variable {α : Type}

/-- An access to the backing array of `pending`. -/
inductive Access
  | read (i : Nat)
  | write (i : Nat)
deriving DecidableEq, Repr

/-- The loop's state: the backing array, `len(remain)`, `processList`, and the accesses made to
    the backing array so far. -/
structure Compaction (α : Type) where
  cells : List α
  remain : Nat
  processList : List α
  log : List Access
deriving DecidableEq

/-- Iteration `i` of `for i := range pending`: `expired[pending[i].ID]` reads cell `i`; the append
    to `processList` reads it again, or the append to `remain` reads it again and writes it to
    cell `len(remain)`, which the capacity of `pending` always holds. -/
def compactStep (id : α → SectorID) (expired : List SectorID) (c : Compaction α) (i : Nat) :
    Compaction α :=
  match c.cells[i]? with
  | none => c
  | some x =>
    if id x ∈ expired then
      { c with processList := c.processList ++ [x], log := c.log ++ [.read i, .read i] }
    else
      { c with cells := c.cells.set c.remain x, remain := c.remain + 1,
               log := c.log ++ [.read i, .read i, .write c.remain] }

/-- The loop from `remain := pending[:0]` over the indices `pending` had when it started. After
    it, `pending = remain` is the first `remain` cells of the backing array. -/
def compact (id : α → SectorID) (expired : List SectorID) (pending : List α) : Compaction α :=
  (List.range pending.length).foldl (compactStep id expired) ⟨pending, 0, [], []⟩

/-- No cell is read after it has been written: however the log is split, no cell written in the
    first part is read in the second. -/
def NoStaleRead (log : List Access) : Prop :=
  ∀ pre post j, log = pre ++ post → Access.write j ∈ pre → Access.read j ∉ post

/-! ## Access logs -/

theorem noStaleRead_of_no_write (log : List Access) (h : ∀ j, Access.write j ∉ log) :
    NoStaleRead log := by
  rintro pre post j rfl hw -
  exact h j (List.mem_append_left _ hw)

theorem noStaleRead_of_no_read (log : List Access) (h : ∀ j, Access.read j ∉ log) :
    NoStaleRead log := by
  rintro pre post j rfl - hr
  exact h j (List.mem_append_right _ hr)

/-- Appending accesses keeps the log free of stale reads when the new part has none of its own
    and reads no cell the old part wrote. -/
theorem NoStaleRead.append {log new : List Access} (hlog : NoStaleRead log)
    (hnew : NoStaleRead new) (hcross : ∀ j, Access.write j ∈ log → Access.read j ∉ new) :
    NoStaleRead (log ++ new) := by
  intro pre post j h hw hr
  rcases List.append_eq_append_iff.1 h with ⟨mid, rfl, rfl⟩ | ⟨mid, rfl, rfl⟩
  · rcases List.mem_append.1 hw with hw | hw
    · exact hcross j hw (List.mem_append_right _ hr)
    · exact hnew mid post j rfl hw hr
  · rcases List.mem_append.1 hr with hr | hr
    · exact hlog pre mid j rfl hw hr
    · exact hcross j (List.mem_append_left _ hw) hr

/-! ## The loop invariant -/

/-- What holds before iteration `i`: the cells from `i` on still hold `pending`'s values, the
    write index is at most `i`, the first `remain` cells and `processList` are the two halves of
    the first `i` sectors, every write went below the write index, and no read was stale. -/
structure CompactInv (id : α → SectorID) (expired : List SectorID) (pending : List α) (i : Nat)
    (c : Compaction α) : Prop where
  length_eq : c.cells.length = pending.length
  remain_le : c.remain ≤ i
  unread : ∀ j, i ≤ j → c.cells[j]? = pending[j]?
  kept : c.cells.take c.remain = (pending.take i).filter (fun x => !decide (id x ∈ expired))
  sent : c.processList = (pending.take i).filter (fun x => decide (id x ∈ expired))
  writes_lt : ∀ j, Access.write j ∈ c.log → j < c.remain
  fresh : NoStaleRead c.log

variable (id : α → SectorID) (expired : List SectorID) (pending : List α)

theorem compactInv_init : CompactInv id expired pending 0 ⟨pending, 0, [], []⟩ where
  length_eq := rfl
  remain_le := le_rfl
  unread _ _ := rfl
  kept := by simp
  sent := by simp
  writes_lt _ h := absurd h (List.not_mem_nil _)
  fresh := noStaleRead_of_no_write [] fun _ => List.not_mem_nil _

theorem take_set_succ (cells : List α) (r : Nat) (x : α) (hr : r < cells.length) :
    (cells.set r x).take (r + 1) = cells.take r ++ [x] := by
  rw [List.take_succ, List.getElem?_set_self hr, List.set_take,
    List.set_eq_of_length_le (by simp)]
  rfl

/-- One iteration keeps the invariant: the cell it reads is still `pending[i]`, and the cell it
    writes, `len(remain) ≤ i`, has already been read for the last time. -/
theorem compactStep_inv (i : Nat) (hi : i < pending.length) (c : Compaction α)
    (hc : CompactInv id expired pending i c) :
    CompactInv id expired pending (i + 1) (compactStep id expired c i) := by
  have hx : c.cells[i]? = some pending[i] := by rw [hc.unread i le_rfl, List.getElem?_eq_getElem hi]
  have htake : pending.take (i + 1) = pending.take i ++ [pending[i]] := by
    rw [List.take_succ, List.getElem?_eq_getElem hi]; rfl
  have hle := hc.remain_le
  have hreads : ∀ j, Access.write j ∈ c.log → Access.read j ∉ [Access.read i, Access.read i] :=
    fun j hj hr => by have := hc.writes_lt j hj; simp at hr; omega
  have hlog := hc.fresh.append (noStaleRead_of_no_write _ (by simp)) hreads
  simp only [compactStep, hx]
  split_ifs with hexp
  · refine ⟨hc.length_eq, Nat.le_succ_of_le hle, fun j hj => hc.unread j (by omega), ?_, ?_,
      fun j hj => hc.writes_lt j (by simpa using hj), hlog⟩
    · rw [hc.kept, htake, List.filter_append]
      simp [hexp]
    · rw [htake, List.filter_append, ← hc.sent]
      simp [hexp]
  · have hr : c.remain < c.cells.length := by rw [hc.length_eq]; omega
    refine ⟨by simp [hc.length_eq], by dsimp only; omega, fun j hj => ?_, ?_, ?_,
      fun j hj => ?_, ?_⟩ <;> dsimp only
    · rw [List.getElem?_set_ne (by omega), hc.unread j (by omega)]
    · rw [take_set_succ _ _ _ hr, hc.kept, htake, List.filter_append]
      simp [hexp]
    · rw [htake, List.filter_append, ← hc.sent]
      simp [hexp]
    · rcases List.mem_append.1 hj with hj | hj
      · have := hc.writes_lt j hj
        omega
      · simp at hj
        omega
    · rw [show c.log ++ [.read i, .read i, .write c.remain] =
          (c.log ++ [.read i, .read i]) ++ [.write c.remain] by simp]
      exact hlog.append (noStaleRead_of_no_read _ (by simp)) (by simp)

/-- The invariant before every iteration of the loop. -/
theorem compactInv_range (i : Nat) (hi : i ≤ pending.length) :
    CompactInv id expired pending i
      ((List.range i).foldl (compactStep id expired) ⟨pending, 0, [], []⟩) := by
  induction i with
  | zero => exact compactInv_init id expired pending
  | succ i ih =>
    rw [List.range_succ, List.foldl_append, List.foldl_cons, List.foldl_nil]
    exact compactStep_inv id expired pending i hi _ (ih (Nat.le_of_succ_le hi))

theorem compact_inv :
    CompactInv id expired pending pending.length (compact id expired pending) :=
  compactInv_range id expired pending _ le_rfl

/-! ## The loop's result -/

/-- In-place compaction: over the shared backing array, the loop leaves `remain` (the first
    `len(remain)` cells) holding the sectors whose ids are not expired and `processList` those
    whose ids are, both in `pending`'s order; it never reads a cell after overwriting it, and it
    writes only cells of `pending`'s array. -/
theorem compact_partitions_without_stale_reads :
    (compact id expired pending).cells.take (compact id expired pending).remain =
        pending.filter (fun x => !decide (id x ∈ expired)) ∧
      (compact id expired pending).processList = pending.filter (fun x => decide (id x ∈ expired)) ∧
      NoStaleRead (compact id expired pending).log ∧
      ∀ j, Access.write j ∈ (compact id expired pending).log → j < pending.length := by
  have hinv := compact_inv id expired pending
  refine ⟨by simpa using hinv.kept, by simpa using hinv.sent, hinv.fresh, fun j hj => ?_⟩
  have := hinv.writes_lt j hj
  have := hinv.remain_le
  omega

/-- Sectors `1, 2, 3` with `2` expired: cell `0` is rewritten after its reads, and cell `2` is
    read before `3` is written over cell `1`. -/
example :
    compact (fun n : Nat => (⟨0, n⟩ : SectorID)) [⟨0, 2⟩] [1, 2, 3] =
      ⟨[1, 3, 3], 2, [2], [.read 0, .read 0, .write 0, .read 1, .read 1, .read 2, .read 2, .write 1]⟩ := by
  decide

/-- The list model of the tick branch used by `iterate` is what the in-place loop computes. -/
theorem compact_refines_sweep :
    sweep id expired [] [] pending =
      ((compact id expired pending).processList,
        (compact id expired pending).cells.take (compact id expired pending).remain) := by
  have hinv := compact_inv id expired pending
  rw [sweep_eq, hinv.sent, hinv.kept]
  simp

end Batcher

end CommitMgr
