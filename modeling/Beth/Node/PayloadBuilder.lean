import Beth.Node.Evm
import Beth.Node.WithdrawalBundle.Serialization

/-! # The payload builder

`Bip300301PayloadBuilder`: before a payload is built, the mainchain tip is
stamped into `extraData`, and a bundle selected from the parent's queue is
broadcast through the enforcer's wallet. Only a failure to learn the tip is
fatal. -/

namespace Beth

open Foundation

/-! ## Broadcasting a bundle -/

structure BroadcastWithdrawalBundleRequest where
  sidechainId : Option UInt32
  transaction : Option Bytes
deriving DecidableEq

/-- The wallet service of the enforcer, as its answers. -/
structure WalletService where
  broadcastWithdrawalBundle : BroadcastWithdrawalBundleRequest → Except String Unit

/-- `consensus::encode::serialize`. A transaction without inputs is written with
the segwit marker and flag, and no witness follows. -/
def Transaction.encode (tx : Transaction) : Bytes :=
  toLeBytes 4 tx.version.toNat ++
    (if tx.input.isEmpty then [0x00, 0x01] else []) ++
    (compactSize tx.input.length ++ tx.input.flatMap TxIn.serialize) ++
    (compactSize tx.output.length ++ tx.output.flatMap TxOut.serialize) ++
    toLeBytes 4 tx.lockTime.toNat

namespace EnforcerClient

def broadcastRequest (sidechainId : UInt32) (tx : Transaction) :
    BroadcastWithdrawalBundleRequest where
  sidechainId := some sidechainId
  transaction := some tx.encode

def broadcastWithdrawalBundle (wallet : WalletService) (sidechainId : UInt32)
    (tx : Transaction) : Except EnforcerError Unit :=
  ofRpc (wallet.broadcastWithdrawalBundle (broadcastRequest sidechainId tx))

end EnforcerClient

/-! ## The context of the next block -/

/-- Of the builder's configuration, what is overridden. -/
structure EthereumBuilderConfig where
  extraData : Bytes
deriving DecidableEq

inductive PayloadBuilderError
  | other (failure : EnforcerError)
deriving DecidableEq

structure Bip300301PayloadBuilder where
  client : Provider
  builderConfig : EthereumBuilderConfig
  enforcer : Enforcer
  wallet : WalletService
  sidechainId : UInt32

/-- A broadcast that was made. Its reply is only logged. -/
structure Broadcast where
  bundle : WithdrawalBundle
  reply : Except EnforcerError Unit

structure NextBlockContext where
  builderConfig : EthereumBuilderConfig
  broadcast : Option Broadcast

namespace Bip300301PayloadBuilder

variable (builder : Bip300301PayloadBuilder) (hashes : Hashes) (order : HashMapOrder)

/-- The bundle to broadcast. A parent state or a queue that cannot be read is
logged, and nothing is broadcast. -/
def selectBundle (parentHash : B256) (nextBlockNumber : UInt32) :
    Option WithdrawalBundle :=
  match builder.client.stateByBlockHash parentHash with
  | .error _ => none
  | .ok state =>
      match state.queue with
      | .error _ => none
      | .ok queue =>
          selectWithdrawalBundle hashes order (readPendingWithdrawals queue) nextBlockNumber

def nextBlockContext (parentHash : B256) (parentNumber : UInt64) :
    Except PayloadBuilderError NextBlockContext :=
  match EnforcerClient.chainTip builder.enforcer with
  | .error failure => .error (.other failure)
  | .ok mainTip =>
      let nextBlockNumber := clampU32 (saturatingAdd parentNumber 1)
      .ok
        { builderConfig := { builder.builderConfig with extraData := mainTip.bytes }
          broadcast := (builder.selectBundle hashes order parentHash nextBlockNumber).map
            fun bundle =>
              { bundle := bundle
                reply := EnforcerClient.broadcastWithdrawalBundle builder.wallet
                  builder.sidechainId bundle.tx } }

end Bip300301PayloadBuilder

/-- The bundle that was broadcast, if any. -/
def NextBlockContext.bundle (context : NextBlockContext) : Option WithdrawalBundle :=
  context.broadcast.map Broadcast.bundle

/-- The two ways to compute the height of a child agree, saturated or not. -/
theorem clampU32_saturatingAdd_one (parentNumber : Nat) :
    clampU32 (saturatingAdd (clampU64 parentNumber) 1) = blockHeight (parentNumber + 1) := by
  have sameNumber : saturatingAdd (clampU64 parentNumber) 1 =
      clampU64 (parentNumber + 1) := by
    apply UInt64.toNat_inj.mp
    rw [toNat_saturatingAdd, toNat_clampU64_eq, toNat_clampU64_eq]
    change min (min parentNumber _ + 1) _ = _
    omega
  rw [blockHeight, sameNumber]

end Beth
