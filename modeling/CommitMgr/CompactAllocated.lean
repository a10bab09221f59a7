import Mathlib.Data.String.Basic
import CommitMgr.Api

set_option autoImplicit false

/-! # The mask of `compact-allocated`

`venus-sector-manager util sealer actor compact-allocated` pushes `CompactSectorNumbers`, which
marks the sector numbers of a mask as allocated. One of two `uint64` flags chooses the mask:
`--mask-upto-n n` masks `0 … n-1`, and `--mask-last-offset m` masks `0 … last-m-1`, where
`last = allocs.Last()` is the highest allocated number, after two guards: `last <= m+1` refuses
an offset that leaves nothing to mask, and `last > 1<<60` refuses a suspiciously high `last`.

The arithmetic is Go's `uint64`, so `UInt64` here. While `m+1` does not wrap, the mask spares
`last`; at `m = 2^64 - 1` the guard's `m+1` wraps to `0` and passes, and `last - m` wraps to
`last + 1`, so the mask covers `last` itself (`mask_last_offset_masks_below`). Reading the miner's
state, serializing, pushing and waiting around the mask are API calls and are not modelled. -/

namespace CommitMgr

namespace CompactAllocated

/-- The flags that choose the mask, as `cctx.IsSet` and `cctx.Uint64` read them: `none` when the
    flag is not set. -/
structure MaskFlags where
  maskLastOffset : Option UInt64
  maskUptoN : Option UInt64
deriving DecidableEq, Repr

/-- The loop over `exclusiveFlags`: an error at the first flag set after another one was. -/
def checkExclusive : Bool → List Bool → Except String Unit
  | _, [] => .ok ()
  | hasFlag, isSet :: rest =>
    if hasFlag && isSet then .error "more than one 'mask` flag set"
    else checkExclusive (hasFlag || isSet) rest

/-- `bitfield.NewFromIter` over the one run `{Val: true, Len: len}`: the numbers `0 … len-1`. -/
def runMask (len : UInt64) : BitField := Finset.range len.toNat

/-- The block of `compact-allocated` that forms `maskBf`, from the flags and `allocs.Last()`,
    which only the offset branch reads. -/
def maskBitField (flags : MaskFlags) (last : Except String UInt64) : Except String BitField := do
  checkExclusive false [flags.maskLastOffset.isSome, flags.maskUptoN.isSome]
  match flags.maskLastOffset, flags.maskUptoN with
  | some m, _ =>
    let last ← last
    if last ≤ m + 1 then
      throw ("highest allocated sector lower than mask offset " ++ toString (m + 1) ++ ": " ++
        toString last)
    if last > (1 : UInt64) <<< 60 then
      throw ("very high last sector number, refusing to mask: " ++ toString last)
    pure (runMask (last - m))
  | none, some n => pure (runMask n)
  | none, none => throw "no 'mask' flags set"

/-! ## `uint64` arithmetic -/

theorem le_iff_toNat_le (a b : UInt64) : a ≤ b ↔ a.toNat ≤ b.toNat := BitVec.le_def

theorem lt_iff_toNat_lt (a b : UInt64) : a < b ↔ a.toNat < b.toNat := BitVec.lt_def

theorem toNat_one_shiftLeft_sixty : ((1 : UInt64) <<< 60).toNat = 2 ^ 60 := by decide

/-! ## The mask -/

/-- With the flags exclusive, only `allocs.Last()` and the two guards stand between
    `--mask-last-offset m` and its mask. -/
theorem maskBitField_offset (m last : UInt64) :
    maskBitField ⟨some m, none⟩ (.ok last) =
      if last ≤ m + 1 then
        .error ("highest allocated sector lower than mask offset " ++ toString (m + 1) ++ ": " ++
          toString last)
      else if last > (1 : UInt64) <<< 60 then
        .error ("very high last sector number, refusing to mask: " ++ toString last)
      else .ok (runMask (last - m)) :=
  rfl

/-- `--mask-last-offset m` against the highest allocated number `last`. While `m+1` does not
    wrap, the command forms a mask exactly when `m + 1 < last ≤ 2^60`, and the mask holds exactly
    the numbers `n` with `n + m < last`: `0 … last-m-1`, never `last`. At `m = 2^64 - 1` the
    guard's `m+1` wraps to `0`: every `1 ≤ last ≤ 2^60` passes, and the mask is `0 … last`, the
    highest allocated number included. -/
theorem mask_last_offset_masks_below (m last : UInt64) :
    (m.toNat + 1 < 2 ^ 64 →
      ((∃ mask, maskBitField ⟨some m, none⟩ (.ok last) = .ok mask) ↔
        m.toNat + 1 < last.toNat ∧ last.toNat ≤ 2 ^ 60) ∧
      ∀ mask, maskBitField ⟨some m, none⟩ (.ok last) = .ok mask →
        ∀ n, n ∈ mask ↔ n + m.toNat < last.toNat) ∧
    (m.toNat + 1 = 2 ^ 64 →
      ((∃ mask, maskBitField ⟨some m, none⟩ (.ok last) = .ok mask) ↔
        1 ≤ last.toNat ∧ last.toNat ≤ 2 ^ 60) ∧
      ∀ mask, maskBitField ⟨some m, none⟩ (.ok last) = .ok mask →
        ∀ n, n ∈ mask ↔ n ≤ last.toNat) := by
  have hm := m.toNat_lt
  have hl := last.toNat_lt
  have h1n : (1 : UInt64).toNat = 1 := rfl
  simp only [maskBitField_offset, le_iff_toNat_le, gt_iff_lt, lt_iff_toNat_lt, UInt64.toNat_add,
    UInt64.size, h1n, toNat_one_shiftLeft_sixty]
  split_ifs with h1 h2
  · simp only [reduceCtorEq, exists_false, false_iff, IsEmpty.forall_iff, implies_true, and_true]
    omega
  · simp only [reduceCtorEq, exists_false, false_iff, IsEmpty.forall_iff, implies_true, and_true]
    omega
  · simp only [Except.ok.injEq, exists_eq', true_iff, forall_eq', runMask, Finset.mem_range,
      UInt64.toNat_sub, UInt64.size]
    exact ⟨fun _ => ⟨by omega, fun n => by omega⟩, fun _ => ⟨by omega, fun n => by omega⟩⟩

/-- The largest offset with five sectors allocated: the mask is `0 … 5`. -/
example : (maskBitField ⟨some 18446744073709551615, none⟩ (.ok 5)).toOption = some (Finset.range 6) := by
  decide

end CompactAllocated

end CommitMgr
