import Mathlib.Data.Finset.Card

set_option autoImplicit false

/-! # Sector state, miner configuration and chain messages

The data the commit manager reads and writes: the `api.SectorState` snapshot a batcher buffers,
the per-miner commitment configuration the processors read at every flush, and the parameters
and messages a processor hands to the prover and the messager.

Go's fixed-width integers are kept where their width is observable: `abi.ChainEpoch` and
`time.Duration` are `int64` and take part in the wrapping arithmetic of `Expire`, so they are
`BitVec 64`. Sector and actor numbers are only compared and used as keys, and token amounts are
`big.Int`, so these are `Nat` and `Int`. Content identifiers, addresses and byte strings are
opaque to every function modelled here. -/

namespace CommitMgr

/-! ## Identifiers and amounts -/

/-- `abi.ActorID`. -/
abbrev ActorID := Nat

/-- `abi.SectorNumber`. -/
abbrev SectorNumber := Nat

/-- `abi.ChainEpoch`, a signed 64-bit height. -/
abbrev ChainEpoch := BitVec 64

/-- `time.Duration`: signed 64-bit nanoseconds. -/
abbrev Duration := BitVec 64

/-- `abi.TokenAmount` (`big.Int`). -/
abbrev TokenAmount := Int

/-- `cid.Cid`, compared only for equality. -/
abbrev Cid := Nat

/-- `address.Address`, passed through unchanged. -/
abbrev Address := Nat

/-- Byte strings (`[]byte`): randomness, proofs, chain tokens. -/
abbrev Bytes := List UInt8

/-- `types.TipSetToken`, the opaque head reference that pins chain queries. -/
abbrev TipSetToken := Bytes

/-- `abi.RegisteredSealProof`. -/
abbrev RegisteredSealProof := Nat

/-- `abi.SectorID`: a sector is named by its miner and its number. -/
structure SectorID where
  miner : ActorID
  number : SectorNumber
deriving DecidableEq, Repr, Inhabited

/-! ## Sector state -/

structure Ticket where
  ticket : Bytes
  epoch : ChainEpoch
deriving DecidableEq, Repr, Inhabited

structure Seed where
  seed : Bytes
  epoch : ChainEpoch
deriving DecidableEq, Repr, Inhabited

/-- The sealed and unsealed commitments (`CommR`, `CommD`). -/
structure PreCommitInfo where
  commR : Cid
  commD : Cid
deriving DecidableEq, Repr, Inhabited

structure ProofInfo where
  proof : Bytes
deriving DecidableEq, Repr, Inhabited

/-- The outbound message ids written back by the processors; `none` is Go's `nil` pointer. -/
structure MessageInfo where
  preCommitCid : Option Cid
  commitCid : Option Cid
deriving DecidableEq, Repr, Inhabited

/-- `api.SectorState`, restricted to the fields the batcher and the processors read or write.
    `default` is Go's zero value, which a lookup of a missing map key returns. -/
structure SectorState where
  id : SectorID
  sectorType : RegisteredSealProof
  ticket : Ticket
  seed : Seed
  pre : PreCommitInfo
  proof : ProofInfo
  messageInfo : MessageInfo
deriving DecidableEq, Repr, Inhabited

/-! ## Miner configuration -/

/-- `Commitment.{Pre,Prove}.Batch`. -/
structure BatchCommitPolicy where
  enabled : Bool
  threshold : Int
  maxWait : Duration
  checkInterval : Duration
deriving DecidableEq, Repr

/-- `Commitment.{Pre,Prove}`; `gasOverEstimation` is a Go `float64`. -/
structure CommitmentPolicy where
  gasOverEstimation : Float
  maxFeeCap : TokenAmount
  batch : BatchCommitPolicy

structure CommitmentConfig where
  pre : CommitmentPolicy
  prove : CommitmentPolicy

/-- What `SafeConfig.MustMinerConfig(mid)` returns, as far as the commit manager reads it. -/
structure MinerConfig where
  commitment : CommitmentConfig

/-! ## Message parameters -/

/-- go-bitfield's RLE+ bitfield, as the set of bits it holds. -/
abbrev BitField := Finset Nat

/-- `bitfield.New()`. -/
def BitField.new : BitField := ∅

/-- `BitField.Set`. -/
def BitField.set (bf : BitField) (n : Nat) : BitField := insert n bf

/-- `BitField.Count`. -/
def BitField.count (bf : BitField) : Nat := bf.card

/-- `miner.SectorPreCommitInfo`, built by `preCommitParams` and passed through unread. -/
structure SectorPreCommitInfo where
  sealProof : RegisteredSealProof
  sectorNumber : SectorNumber
  sealedCID : Cid
  sealRandEpoch : ChainEpoch
  dealIDs : List Nat
  expiration : ChainEpoch
deriving DecidableEq, Repr

structure ProveCommitSectorParams where
  sectorNumber : SectorNumber
  proof : Bytes
deriving DecidableEq, Repr

structure PreCommitSectorBatchParams where
  sectors : List SectorPreCommitInfo
deriving DecidableEq, Repr

structure ProveCommitAggregateParams where
  sectorNumbers : BitField
  aggregateProof : Bytes
deriving DecidableEq

/-- `proof5.AggregateSealVerifyInfo`. -/
structure AggregateSealVerifyInfo where
  number : SectorNumber
  randomness : Bytes
  interactiveRandomness : Bytes
  sealedCID : Cid
  unsealedCID : Cid
deriving DecidableEq, Repr

inductive RegisteredAggregationProof
  | snarkPackV1
deriving DecidableEq, Repr

/-- `proof5.AggregateSealVerifyProofAndInfos`, the request handed to the prover. -/
structure AggregateSealVerifyProofAndInfos where
  miner : ActorID
  sealProof : RegisteredSealProof
  aggregateProof : RegisteredAggregationProof
  infos : List AggregateSealVerifyInfo
deriving DecidableEq, Repr

/-! ## Messages -/

/-- The miner actor methods the processors call (`miner.Methods`). -/
inductive MethodNum
  | preCommitSector
  | proveCommitSector
  | preCommitSectorBatch
  | proveCommitAggregate
deriving DecidableEq, Repr

/-- The parameters a message carries. A message holds their CBOR encoding; the model keeps the
    value the encoding was made from. -/
inductive MsgParams
  | preCommitSector (p : SectorPreCommitInfo)
  | proveCommitSector (p : ProveCommitSectorParams)
  | preCommitSectorBatch (p : PreCommitSectorBatchParams)
  | proveCommitAggregate (p : ProveCommitAggregateParams)
deriving DecidableEq

/-- `messager.MsgMeta`. -/
structure MsgMeta where
  gasOverEstimation : Float
  maxFeeCap : TokenAmount

/-- The spend limits a processor reads from one side of the commitment configuration. -/
def CommitmentPolicy.msgMeta (c : CommitmentPolicy) : MsgMeta :=
  { gasOverEstimation := c.gasOverEstimation, maxFeeCap := c.maxFeeCap }

/-- The arguments of one `pushMessage` call: the message from `fromAddr` to miner `mid` with
    `value` attached, and its spend limits. -/
structure Push where
  fromAddr : Address
  mid : ActorID
  value : TokenAmount
  method : MethodNum
  spec : MsgMeta
  params : MsgParams

/-- The calls a processor makes to services outside the commit manager whose arguments the
    specification constrains, in the order it makes them. -/
inductive Call
  | aggregateSealProofs (req : AggregateSealVerifyProofAndInfos) (proofs : List Bytes)
  | pushMessage (msg : Push)

/-- The request and proofs of a call to the prover, if it is one. -/
def Call.aggregateRequest? : Call → Option (AggregateSealVerifyProofAndInfos × List Bytes)
  | .aggregateSealProofs req proofs => some (req, proofs)
  | .pushMessage _ => none

/-- The parameters of a pushed `ProveCommitAggregate` message, if the call is one. -/
def Call.aggregateParams? : Call → Option ProveCommitAggregateParams
  | .pushMessage msg =>
    match msg.params with
    | .proveCommitAggregate p => some p
    | _ => none
  | .aggregateSealProofs _ _ => none

/-- The sector numbers a message proves: a `ProveCommitSector`'s own, or the bits of a
    `ProveCommitAggregate`. -/
def MsgParams.proveCommitNumbers : MsgParams → Finset SectorNumber
  | .proveCommitSector p => {p.sectorNumber}
  | .proveCommitAggregate p => p.sectorNumbers
  | _ => ∅

/-- The sector parameters a message pre-commits: a `PreCommitSector`'s own, or each of a
    `PreCommitSectorBatch`'s. -/
def MsgParams.preCommitInfos : MsgParams → List SectorPreCommitInfo
  | .preCommitSector p => [p]
  | .preCommitSectorBatch p => p.sectors
  | _ => []

/-- How a `Process` call ends: it returns `nil`, returns an error, or panics at run time. -/
inductive Status
  | ok
  | error (msg : String)
  | panic (msg : String)
deriving DecidableEq, Repr

/-- The observable result of one `Process` call: the sector slice as the caller sees it
    afterwards, the calls made, and how it ended. -/
structure ProcessOutcome where
  sectors : List SectorState
  calls : List Call
  status : Status

end CommitMgr
