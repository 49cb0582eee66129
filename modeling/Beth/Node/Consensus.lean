import Beth.Node.Evm

/-! # Consensus checks

`Bip300301Consensus` wraps the standard Ethereum checks, whose verdicts are
given, and adds the BMM commitment of the header. -/

namespace Beth

open Foundation

structure SealedHeader where
  hash : B256
  header : Header
deriving DecidableEq

/-- A block body. The transactions are given by their lasting effects. -/
structure Body where
  transactions : List UserAction
  withdrawals : Option (List Withdrawal)

inductive ConsensusError
  | msg (text : String)
  | enforcer (failure : EnforcerError)
  | inner (text : String)
deriving DecidableEq

/-- The inner consensus. Of its checks of a body, the one against the header's
withdrawals root is spelled out. -/
structure EthBeaconConsensus where
  headerFault : SealedHeader → Option String
  againstParentFault : SealedHeader → SealedHeader → Option String
  bodyFault : Body → SealedHeader → Option String
  withdrawalsRootOf : List Withdrawal → B256
  preExecutionFault : Body → SealedHeader → Option String
  postExecutionFault : Body → SealedHeader → PreExecution → Option String

def failWith (fault : Option String) : Except ConsensusError Unit :=
  match fault with
  | none => .ok ()
  | some text => .error (.inner text)

def EthBeaconConsensus.validateBodyAgainstHeader (inner : EthBeaconConsensus)
    (body : Body) (header : SealedHeader) : Except ConsensusError Unit := do
  failWith (inner.bodyFault body header)
  if body.withdrawals.map inner.withdrawalsRootOf = header.header.withdrawalsRoot then
    pure ()
  else throw (.inner "mismatched block withdrawals root")

structure Bip300301Consensus where
  inner : EthBeaconConsensus
  enforcer : Enforcer
  sidechainId : UInt32

namespace Bip300301Consensus

def hexHash (hash : B256) : String := "0x" ++ hexEncode hash.bytes

def extraDataFault (header : SealedHeader) : ConsensusError :=
  .msg ("block " ++ hexHash header.hash ++ " (number " ++ toString header.header.number ++
    ") extraData must be exactly 32 bytes (the BIP301 mainchain block it was BMM-mined " ++
    "against), got " ++ toString header.header.extraData.length ++ " bytes")

def notCommittedFault (header : SealedHeader) (prevMainHash : B256) : ConsensusError :=
  .msg ("block " ++ hexHash header.hash ++ " (number " ++ toString header.header.number ++
    ") is not BIP301 BMM-committed in mainchain block " ++ hexHash prevMainHash)

def isCommitted (consensus : Bip300301Consensus) (header : SealedHeader)
    (prevMainHash : B256) : Except ConsensusError Bool :=
  match EnforcerClient.isCommitted consensus.enforcer header.hash prevMainHash
      consensus.sidechainId with
  | .ok committed => .ok committed
  | .error failure => .error (.enforcer failure)

def validateHeader (consensus : Bip300301Consensus) (header : SealedHeader) :
    Except ConsensusError Unit := do
  failWith (consensus.inner.headerFault header)
  match FixedBytes.tryFrom 32 header.header.extraData with
  | none => throw (extraDataFault header)
  | some prevMainHash => do
      let committed ← consensus.isCommitted header prevMainHash
      if committed then pure () else throw (notCommittedFault header prevMainHash)

def validateHeaderAgainstParent (consensus : Bip300301Consensus)
    (header parent : SealedHeader) : Except ConsensusError Unit :=
  failWith (consensus.inner.againstParentFault header parent)

def validateBodyAgainstHeader (consensus : Bip300301Consensus) (body : Body)
    (header : SealedHeader) : Except ConsensusError Unit :=
  consensus.inner.validateBodyAgainstHeader body header

def validateBlockPreExecution (consensus : Bip300301Consensus) (body : Body)
    (header : SealedHeader) : Except ConsensusError Unit :=
  failWith (consensus.inner.preExecutionFault body header)

def validateBlockPostExecution (consensus : Bip300301Consensus) (body : Body)
    (header : SealedHeader) (done : PreExecution) : Except ConsensusError Unit :=
  failWith (consensus.inner.postExecutionFault body header done)

/-- A header is accepted exactly when the inner checks pass, its `extraData`
has 32 bytes, and the enforcer reports its hash as committed. -/
theorem validateHeader_eq_ok_iff (consensus : Bip300301Consensus) (header : SealedHeader) :
    consensus.validateHeader header = .ok () ↔
      consensus.inner.headerFault header = none ∧
      ∃ prevMainHash,
        FixedBytes.tryFrom 32 header.header.extraData = some prevMainHash ∧
        EnforcerClient.isCommitted consensus.enforcer header.hash prevMainHash
          consensus.sidechainId = .ok true := by
  unfold validateHeader
  cases consensus.inner.headerFault header with
  | some text => simp [failWith]
  | none =>
      simp only [failWith, ok_bind, true_and]
      cases FixedBytes.tryFrom 32 header.header.extraData with
      | none => simp [throw, throwThe, MonadExceptOf.throw]
      | some prevMainHash =>
          simp only [isCommitted, Option.some.injEq, exists_eq_left']
          cases EnforcerClient.isCommitted consensus.enforcer header.hash prevMainHash
              consensus.sidechainId with
          | error failure => simp
          | ok committed =>
              cases committed <;> simp [throw, throwThe, MonadExceptOf.throw, pure, Except.pure]

end Bip300301Consensus

end Beth
