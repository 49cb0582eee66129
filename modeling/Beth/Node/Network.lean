import Beth.Chain

/-! # Nodes that import blocks

Every node keeps the blocks it executed, with the state after each, and imports
further blocks in whatever order it receives them, those of competing branches
included. A block is imported on its stored parent when the consensus accepts it
and its execution succeeds. -/

namespace Beth

open Foundation

/-- The executed blocks of a node, by their hash. -/
structure Database where
  tips : B256 → Option Tip
  hashed : ∀ hash tip, tips hash = some tip → tip.block.hash = hash

namespace Database

/-- The database of a node that has just been set up. -/
def initial (genesis : Tip) : Database where
  tips := fun hash => if hash = genesis.block.hash then some genesis else none
  hashed := fun hash tip found => by
    rcases Option.ite_none_right_eq_some.mp found with ⟨isGenesis, isTip⟩
    rw [← Option.some.inj isTip, isGenesis]

def insert (tip : Tip) (database : Database) : Database where
  tips := Function.update database.tips tip.block.hash (some tip)
  hashed := fun hash other found => by
    by_cases isTip : hash = tip.block.hash
    · subst isTip
      rw [Function.update_self] at found
      rw [← Option.some.inj found]
    · rw [Function.update_of_ne isTip] at found
      exact database.hashed hash other found

theorem tips_insert_self (tip : Tip) (database : Database) :
    (database.insert tip).tips tip.block.hash = some tip :=
  Function.update_self _ _ _

theorem tips_insert_of_ne (tip : Tip) (database : Database) {hash : B256}
    (different : hash ≠ tip.block.hash) :
    (database.insert tip).tips hash = database.tips hash :=
  Function.update_of_ne different _ _

/-- What the block executor reads of the database. -/
def provider (database : Database) : Provider where
  header := fun hash => .ok ((database.tips hash).map fun tip => tip.block.header)
  stateByBlockHash := fun hash =>
    match database.tips hash with
    | some tip => .ok { queue := .ok tip.world.queue }
    | none => .error "state not found"

theorem knownTo_provider {database : Database} {hash : B256} {tip : Tip}
    (found : database.tips hash = some tip) : tip.KnownTo database.provider := by
  have isHash := database.hashed hash tip found
  subst isHash
  constructor
  · simp [provider, found]
  · simp [provider, found]

end Database

/-- What all nodes have in common. What the code of the payees of a block does is
settled by the block, and so are the verdicts of the standard checks. -/
structure Rules where
  hashes : Hashes
  sidechainId : UInt32
  inner : EthBeaconConsensus
  depositEnv : SealedHeader → CallEnv
  lifecycleEnv : SealedHeader → CallEnv

/-- A block a node receives, and what is the node's own at that time. -/
structure ReceivedBlock where
  block : SealedHeader
  body : Body
  enforcer : Enforcer
  order : HashMapOrder
  innerFault : Option String

inductive ImportError
  | unknownParent
  | consensus (failure : ConsensusError)
  | execution (failure : BlockExecutionError)
deriving DecidableEq

namespace ReceivedBlock

variable (rules : Rules) (received : ReceivedBlock)

def consensus : Bip300301Consensus where
  inner := rules.inner
  enforcer := received.enforcer
  sidechainId := rules.sidechainId

def executor (provider : Provider) : Bip300301BlockExecutor where
  enforcer := received.enforcer
  sidechainId := rules.sidechainId
  provider := provider
  parentHash := received.block.header.parentHash
  extraData := received.block.header.extraData
  blockNumber := received.block.header.number
  innerFault := received.innerFault
  depositEnv := rules.depositEnv received.block
  lifecycleEnv := rules.lifecycleEnv received.block

/-- The tip after the block, once its pre-execution changes are known. -/
def tip (done : PreExecution) : Tip where
  block := received.block
  world := finish (received.body.withdrawals.getD [])
    (runUserCode received.body.transactions done.state)

/-- The checks and the execution of the block on its parent. -/
def executeOn (provider : Provider) (parent : Tip) : Except ImportError Tip := do
  let consensus := received.consensus rules
  (consensus.validateHeader received.block).mapError .consensus
  (consensus.validateHeaderAgainstParent received.block parent.block).mapError .consensus
  (consensus.validateBodyAgainstHeader received.body received.block).mapError .consensus
  (consensus.validateBlockPreExecution received.body received.block).mapError .consensus
  let done ← ((received.executor rules provider).applyPreExecutionChanges rules.hashes
    received.order parent.world).mapError .execution
  (consensus.validateBlockPostExecution received.body received.block done).mapError .consensus
  pure (received.tip done)

end ReceivedBlock

/-- A block that is stored already is not executed again. -/
def Database.importBlock (rules : Rules) (received : ReceivedBlock) (database : Database) :
    Except ImportError Database :=
  match database.tips received.block.hash with
  | some _ => .ok database
  | none =>
      match database.tips received.block.header.parentHash with
      | none => .error .unknownParent
      | some parent => do
          let tip ← received.executeOn rules database.provider parent
          pure (database.insert tip)

/-! ## The network -/

abbrev Network (Node : Type) := Node → Database

structure Delivery (Node : Type) where
  node : Node
  received : ReceivedBlock

/-- A node that cannot import a block goes on as it was. -/
def Network.deliver {Node : Type} [DecidableEq Node] (rules : Rules)
    (delivery : Delivery Node) (network : Network Node) : Network Node :=
  match (network delivery.node).importBlock rules delivery.received with
  | .ok database => Function.update network delivery.node database
  | .error _ => network

/-- The runs of a network: deliveries of any blocks to any nodes, in any order. -/
def Network.Delivers {Node : Type} [DecidableEq Node] (rules : Rules)
    (network : Network Node) (delivery : Delivery Node) (next : Network Node) : Prop :=
  next = network.deliver rules delivery

theorem Network.deliver_of_ne {Node : Type} [DecidableEq Node] (rules : Rules)
    {delivery : Delivery Node} (network : Network Node) {node : Node}
    (different : node ≠ delivery.node) :
    network.deliver rules delivery node = network node := by
  rw [deliver]
  cases (network delivery.node).importBlock rules delivery.received with
  | ok database => exact Function.update_of_ne different _ _
  | error failure => rfl

/-! ## What an import tells -/

/-- A block executed on a parent passed every check, and its tip is the one after
its pre-execution changes. -/
structure ReceivedBlock.ExecutedOn (rules : Rules) (received : ReceivedBlock)
    (provider : Provider) (parent : Tip) (done : PreExecution) : Prop where
  header : (received.consensus rules).validateHeader received.block = .ok ()
  againstParent : (received.consensus rules).validateHeaderAgainstParent received.block
    parent.block = .ok ()
  body : (received.consensus rules).validateBodyAgainstHeader received.body
    received.block = .ok ()
  preExecution : (received.consensus rules).validateBlockPreExecution received.body
    received.block = .ok ()
  returned : (received.executor rules provider).applyPreExecutionChanges rules.hashes
    received.order parent.world = .ok done
  postExecution : (received.consensus rules).validateBlockPostExecution received.body
    received.block done = .ok ()

theorem ReceivedBlock.executeOn_eq_ok_iff {rules : Rules} {received : ReceivedBlock}
    {provider : Provider} {parent tip : Tip} :
    received.executeOn rules provider parent = .ok tip ↔
      ∃ done, received.ExecutedOn rules provider parent done ∧ tip = received.tip done := by
  constructor
  · intro executed
    rcases bind_eq_ok.mp executed with ⟨_, header, afterHeader⟩
    rcases bind_eq_ok.mp afterHeader with ⟨_, againstParent, afterParent⟩
    rcases bind_eq_ok.mp afterParent with ⟨_, body, afterBody⟩
    rcases bind_eq_ok.mp afterBody with ⟨_, preExecution, afterChecks⟩
    rcases bind_eq_ok.mp afterChecks with ⟨done, returned, afterChanges⟩
    rcases bind_eq_ok.mp afterChanges with ⟨_, postExecution, isTip⟩
    cases isTip
    exact ⟨done,
      { header := mapError_eq_ok.mp header
        againstParent := mapError_eq_ok.mp againstParent
        body := mapError_eq_ok.mp body
        preExecution := mapError_eq_ok.mp preExecution
        returned := mapError_eq_ok.mp returned
        postExecution := mapError_eq_ok.mp postExecution }, rfl⟩
  · rintro ⟨done, facts, isTip⟩
    subst isTip
    unfold executeOn
    dsimp only
    rw [mapError_eq_ok.mpr facts.header, ok_bind, mapError_eq_ok.mpr facts.againstParent,
      ok_bind, mapError_eq_ok.mpr facts.body, ok_bind, mapError_eq_ok.mpr facts.preExecution,
      ok_bind, mapError_eq_ok.mpr facts.returned, ok_bind,
      mapError_eq_ok.mpr facts.postExecution, ok_bind]
    rfl

/-- The record of an execution by a node. -/
def ReceivedBlock.executed (rules : Rules) (received : ReceivedBlock) (provider : Provider)
    (done : PreExecution) : ExecutedBlock where
  block := received.block
  body := received.body
  enforcer := received.enforcer
  provider := provider
  order := received.order
  depositEnv := rules.depositEnv received.block
  lifecycleEnv := rules.lifecycleEnv received.block
  done := done

namespace ReceivedBlock

variable {rules : Rules} {received : ReceivedBlock} {provider : Provider} {parent : Tip}
  {done : PreExecution}

theorem noFault_of_returned
    (returned : (received.executor rules provider).applyPreExecutionChanges rules.hashes
      received.order parent.world = .ok done) : received.innerFault = none := by
  unfold Bip300301BlockExecutor.applyPreExecutionChanges at returned
  split at returned
  · cases returned
  · assumption

/-- A block a node executed extends the tip of its parent. -/
theorem extends_of_returned (isParent : received.block.header.parentHash = parent.block.hash)
    (isNext : received.block.header.number = parent.block.header.number + 1)
    (known : parent.KnownTo provider)
    (returned : (received.executor rules provider).applyPreExecutionChanges rules.hashes
      received.order parent.world = .ok done) :
    Extends rules.hashes rules.sidechainId parent (received.executed rules provider done)
      (received.tip done) where
  parent := isParent
  number := isNext
  known := known
  returned := by
    have noFault := noFault_of_returned returned
    rw [executor, noFault] at returned
    exact returned
  next_eq := rfl

end ReceivedBlock

/-- A delivery leaves a network as it was, or adds one executed block to the
database of a node that has its parent. -/
theorem Network.deliver_cases {Node : Type} [DecidableEq Node] (rules : Rules)
    (delivery : Delivery Node) (network : Network Node) :
    network.deliver rules delivery = network ∨
      ∃ parent done,
        (network delivery.node).tips delivery.received.block.hash = none ∧
        (network delivery.node).tips delivery.received.block.header.parentHash = some parent ∧
        delivery.received.ExecutedOn rules (network delivery.node).provider parent done ∧
        network.deliver rules delivery = Function.update network delivery.node
          ((network delivery.node).insert (delivery.received.tip done)) := by
  cases imported : (network delivery.node).importBlock rules delivery.received with
  | error failure =>
      left
      rw [deliver, imported]
  | ok database =>
      rw [deliver, imported]
      unfold Database.importBlock at imported
      split at imported
      · cases imported
        left
        exact Function.update_eq_self _ _
      · rename_i unknown
        split at imported
        · cases imported
        · rename_i parent hasParent
          rcases bind_eq_ok.mp imported with ⟨tip, executed, isDatabase⟩
          cases isDatabase
          rcases ReceivedBlock.executeOn_eq_ok_iff.mp executed with ⟨done, facts, isTip⟩
          subst isTip
          exact Or.inr ⟨parent, done, unknown, hasParent, facts, rfl⟩

end Beth
