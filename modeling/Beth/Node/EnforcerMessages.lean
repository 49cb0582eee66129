import Beth.Contracts.World

/-! # Messages of the enforcer's RPC services

The parts of the protobuf messages that the client builds and reads. Every
message field is optional on the wire. -/

namespace Beth

open Foundation

abbrev Txid := FixedBytes 32

/-- A `ReverseHex`, `ConsensusHex` or `Hex` message. -/
structure HexField where
  hex : Option String
deriving DecidableEq

/-! ## Chain tip and BMM commitments -/

structure BlockHeaderInfo where
  blockHash : Option HexField

structure GetChainTipResponse where
  blockHeaderInfo : Option BlockHeaderInfo

structure GetBmmHStarCommitmentRequest where
  blockHash : Option HexField
  sidechainId : Option UInt32
  maxAncestors : Option UInt32

structure OptionalCommitment where
  commitment : Option HexField

/-- The commitment of the block asked about and of its nearest ancestors. -/
structure BmmCommitment where
  commitment : Option HexField
  ancestorCommitments : List OptionalCommitment

inductive BmmHStarCommitmentResult
  | blockNotFound
  | commitment (commitment : BmmCommitment)

structure GetBmmHStarCommitmentResponse where
  result : Option BmmHStarCommitmentResult

/-! ## Two-way peg data -/

structure GetTwoWayPegDataRequest where
  sidechainId : Option UInt32
  startBlockHash : Option HexField
  endBlockHash : Option HexField
deriving DecidableEq

structure DepositOutput where
  address : Option HexField
  valueSats : Option UInt64

structure DepositEvent where
  output : Option DepositOutput

inductive BundleOutcomeKind
  | submitted
  | succeeded
  | failed

structure BundleOutcomeEvent where
  event : Option BundleOutcomeKind

structure WithdrawalBundleEvent where
  m6id : Option HexField
  event : Option BundleOutcomeEvent

inductive PegEvent
  | deposit (deposit : DepositEvent)
  | withdrawalBundle (bundle : WithdrawalBundleEvent)

structure BlockEvent where
  event : Option PegEvent

structure BlockInfo where
  events : List BlockEvent

structure PegDataBlock where
  blockInfo : Option BlockInfo

structure GetTwoWayPegDataResponse where
  blocks : List PegDataBlock

/-- The events of a block; a block without information carries none. -/
def PegDataBlock.events (block : PegDataBlock) : List BlockEvent :=
  match block.blockInfo with
  | none => []
  | some blockInfo => blockInfo.events

/-! ## The services -/

/-- One enforcer, as its answers. A failed call is its gRPC status text. -/
structure Enforcer where
  getChainTip : Except String GetChainTipResponse
  getBmmHStarCommitment : GetBmmHStarCommitmentRequest →
    Except String GetBmmHStarCommitmentResponse
  getTwoWayPegData : GetTwoWayPegDataRequest → Except String GetTwoWayPegDataResponse

end Beth
