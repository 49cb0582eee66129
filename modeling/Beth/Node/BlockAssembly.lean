import Beth.Node.Network
import Beth.Node.PayloadBuilder

/-! # Building a payload

`try_build` and `build_empty_payload` configure the next block, ask for no
withdrawals, and leave the block itself to reth's `default_ethereum_payload`, which
is given here by what it returns. -/

namespace Beth

open Foundation

/-- Of the attributes of a payload, what is overridden. -/
structure EthPayloadAttributes where
  withdrawals : Option (List Withdrawal)

structure PayloadConfig where
  parentHeader : SealedHeader
  attributes : EthPayloadAttributes

structure EthBuiltPayload where
  block : SealedHeader
  body : Body

inductive BuildOutcome
  | better (payload : EthBuiltPayload)
  | aborted
  | cancelled
  | freeze (payload : EthBuiltPayload)

def BuildOutcome.intoPayload : BuildOutcome → Option EthBuiltPayload
  | .better payload => some payload
  | .freeze payload => some payload
  | .aborted => none
  | .cancelled => none

inductive BuildError
  | context (failure : PayloadBuilderError)
  | assembly (text : String)
  | missingPayload

/-- What is built from a configuration, for a job, out of the transactions offered. -/
abbrev DefaultEthereumPayload :=
  EthereumBuilderConfig → PayloadConfig → List UserAction → Except String BuildOutcome

namespace Bip300301PayloadBuilder

variable (builder : Bip300301PayloadBuilder) (hashes : Hashes) (order : HashMapOrder)
  (defaultEthereumPayload : DefaultEthereumPayload)

/-- What both ways to build do, with the context that came with it. -/
def build (bestTransactions : List UserAction) (config : PayloadConfig) :
    Except BuildError (NextBlockContext × BuildOutcome) := do
  let context ← (builder.nextBlockContext hashes order config.parentHeader.hash
    (clampU64 config.parentHeader.header.number)).mapError .context
  -- The field has to be there after Shanghai, and is always empty.
  let config := { config with attributes := { withdrawals := some [] } }
  let outcome ← (defaultEthereumPayload context.builderConfig config
    bestTransactions).mapError .assembly
  pure (context, outcome)

def tryBuild (bestTransactions : List UserAction) (config : PayloadConfig) :
    Except BuildError (NextBlockContext × BuildOutcome) :=
  builder.build hashes order defaultEthereumPayload bestTransactions config

def buildEmptyPayload (config : PayloadConfig) :
    Except BuildError (NextBlockContext × EthBuiltPayload) := do
  let built ← builder.build hashes order defaultEthereumPayload [] config
  match built.2.intoPayload with
  | none => throw .missingPayload
  | some payload => pure (built.1, payload)

/-- The builder returns a payload, one way or the other. -/
inductive Builds (bestTransactions : List UserAction) (config : PayloadConfig)
    (context : NextBlockContext) (payload : EthBuiltPayload) : Prop
  | improved {outcome : BuildOutcome} :
      builder.tryBuild hashes order defaultEthereumPayload bestTransactions config =
        .ok (context, outcome) →
      outcome.intoPayload = some payload →
      Builds bestTransactions config context payload
  | empty :
      builder.buildEmptyPayload hashes order defaultEthereumPayload config =
        .ok (context, payload) →
      Builds bestTransactions config context payload

variable {builder hashes order defaultEthereumPayload}
  {bestTransactions : List UserAction} {config : PayloadConfig} {context : NextBlockContext}

theorem build_eq_ok {outcome : BuildOutcome}
    (built : builder.build hashes order defaultEthereumPayload bestTransactions config =
      .ok (context, outcome)) :
    builder.nextBlockContext hashes order config.parentHeader.hash
        (clampU64 config.parentHeader.header.number) = .ok context ∧
      defaultEthereumPayload context.builderConfig
        { config with attributes := { withdrawals := some [] } } bestTransactions =
          .ok outcome := by
  rcases bind_eq_ok.mp built with ⟨next, isContext, afterContext⟩
  rcases bind_eq_ok.mp afterContext with ⟨assembled, isOutcome, isPair⟩
  cases isPair
  exact ⟨mapError_eq_ok.mp isContext, mapError_eq_ok.mp isOutcome⟩

/-- A payload was assembled from the context of the next block, without withdrawals. -/
theorem Builds.assembled {payload : EthBuiltPayload}
    (builds : builder.Builds hashes order defaultEthereumPayload bestTransactions config context
      payload) :
    ∃ offered outcome,
      builder.nextBlockContext hashes order config.parentHeader.hash
        (clampU64 config.parentHeader.header.number) = .ok context ∧
      defaultEthereumPayload context.builderConfig
        { config with attributes := { withdrawals := some [] } } offered = .ok outcome ∧
      outcome.intoPayload = some payload := by
  cases builds with
  | improved built isPayload =>
      have parts := build_eq_ok built
      exact ⟨_, _, parts.1, parts.2, isPayload⟩
  | empty built =>
      rcases bind_eq_ok.mp built with ⟨⟨next, outcome⟩, isBuilt, afterBuild⟩
      cases isPayload : outcome.intoPayload with
      | none =>
          dsimp only at afterBuild
          rw [isPayload] at afterBuild
          cases afterBuild
      | some other =>
          dsimp only at afterBuild
          rw [isPayload] at afterBuild
          cases afterBuild
          have parts := build_eq_ok isBuilt
          exact ⟨_, _, parts.1, parts.2, isPayload⟩

/-- The block is to name the mainchain tip. -/
theorem extraData_of_nextBlockContext {parentHash : B256} {parentNumber : UInt64}
    (built : builder.nextBlockContext hashes order parentHash parentNumber = .ok context) :
    ∃ mainTip, EnforcerClient.chainTip builder.enforcer = .ok mainTip ∧
      context.builderConfig.extraData = mainTip.bytes := by
  unfold nextBlockContext at built
  cases isTip : EnforcerClient.chainTip builder.enforcer with
  | error failure =>
      rw [isTip] at built
      cases built
  | ok mainTip =>
      rw [isTip] at built
      cases built
      exact ⟨mainTip, rfl, rfl⟩

end Bip300301PayloadBuilder

/-! ## What the assembly is relied on for -/

/-- The block as its builder has it. -/
def EthBuiltPayload.received (payload : EthBuiltPayload) (enforcer : Enforcer)
    (order : HashMapOrder) : ReceivedBlock where
  block := payload.block
  body := payload.body
  enforcer := enforcer
  order := order
  innerFault := none

/-- A block assembled on a parent: a child with the extra data of the configuration and
the withdrawals of the attributes, which the node's executor executed, and which passes
the standard checks. -/
structure EthBuiltPayload.AssembledOn (payload : EthBuiltPayload) (rules : Rules)
    (builder : Bip300301PayloadBuilder) (order : HashMapOrder) (parent : Tip)
    (builderConfig : EthereumBuilderConfig) (attributes : EthPayloadAttributes)
    (done : PreExecution) : Prop where
  parentHash : payload.block.header.parentHash = parent.block.hash
  number : payload.block.header.number = parent.block.header.number + 1
  extraData : payload.block.header.extraData = builderConfig.extraData
  withdrawals : payload.body.withdrawals = attributes.withdrawals
  returned : ((payload.received builder.enforcer order).executor rules
    builder.client).applyPreExecutionChanges rules.hashes order parent.world = .ok done
  header : rules.inner.headerFault payload.block = none
  againstParent : rules.inner.againstParentFault payload.block parent.block = none
  body : rules.inner.validateBodyAgainstHeader payload.body payload.block = .ok ()
  preExecution : rules.inner.preExecutionFault payload.body payload.block = none
  postExecution : rules.inner.postExecutionFault payload.body payload.block done = none

/-- Every payload returned for a job on this parent was assembled on it. -/
def DefaultEthereumPayload.AssemblesOn (defaultEthereumPayload : DefaultEthereumPayload)
    (rules : Rules) (builder : Bip300301PayloadBuilder) (order : HashMapOrder)
    (parent : Tip) : Prop :=
  ∀ builderConfig attributes offered outcome payload,
    defaultEthereumPayload builderConfig
      { parentHeader := parent.block, attributes := attributes } offered = .ok outcome →
    outcome.intoPayload = some payload →
    ∃ done, payload.AssembledOn rules builder order parent builderConfig attributes done

end Beth
