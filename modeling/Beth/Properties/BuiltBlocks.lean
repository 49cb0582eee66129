import Beth.Node.BlockAssembly
import Beth.Properties.ReplicaAgreement

/-! # Blocks that nodes build

A block that a node builds on one it has is imported, once it is committed in the
mainchain, by every node that has its parent, at any later time; the state all of them
get is the one the builder computed. -/

namespace Beth

open Foundation

namespace EthBuiltPayload.AssembledOn

variable {payload : EthBuiltPayload} {rules : Rules} {builder : Bip300301PayloadBuilder}
  {order : HashMapOrder} {parent : Tip} {builderConfig : EthereumBuilderConfig}
  {attributes : EthPayloadAttributes} {done : PreExecution}

/-- What the builder executed, as a block received. -/
theorem received_returned
    (assembled : payload.AssembledOn rules builder order parent builderConfig attributes done) :
    ((payload.received builder.enforcer order).executor rules
      builder.client).applyPreExecutionChanges rules.hashes
      (payload.received builder.enforcer order).order parent.world = .ok done :=
  assembled.returned

/-- Another node that receives the block repeats its execution. -/
theorem executedOn {received : ReceivedBlock} {mainchain : Mainchain} {provider : Provider}
    {mainTip mainHash : B256}
    (assembled : payload.AssembledOn rules builder order parent builderConfig attributes done)
    (known : parent.KnownTo builder.client) (otherKnown : parent.KnownTo provider)
    (reports : builder.enforcer.ReportsPegData mainchain rules.sidechainId)
    (otherReports : received.enforcer.ReportsPegData mainchain rules.sidechainId)
    (sameBlock : received.block = payload.block) (sameBody : received.body = payload.body)
    (noFault : received.innerFault = none)
    (answers : received.enforcer.Answers rules.sidechainId parent.block.header
      payload.block.header)
    (named : builderConfig.extraData = mainHash.bytes)
    (commitments : received.enforcer.ReportsCommitments mainchain rules.sidechainId mainTip)
    (recorded : mainchain.RecordedIn payload.block.hash (mainchain.window 16 mainTip)) :
    received.ExecutedOn rules provider parent done where
  header := by
    have standard := assembled.header
    have isMainHash : FixedBytes.tryFrom 32 payload.block.header.extraData = some mainHash := by
      rw [assembled.extraData, named]
      exact FixedBytes.tryFrom_bytes mainHash
    rw [← sameBlock] at standard isMainHash recorded
    exact ReceivedBlock.validateHeader_of_recorded standard isMainHash commitments recorded
  againstParent := by
    rw [sameBlock]
    exact congrArg failWith assembled.againstParent
  body := by
    rw [sameBlock, sameBody]
    exact assembled.body
  preExecution := by
    rw [sameBlock, sameBody]
    exact congrArg failWith assembled.preExecution
  returned := by
    have otherAnswers : clampU64 received.block.header.number ≠ 0 →
        received.enforcer.Answers rules.sidechainId parent.block.header
          received.block.header := by
      intro _
      rw [sameBlock]
      exact answers
    exact ReceivedBlock.returned_of_returned sameBlock.symm assembled.parentHash known
      otherKnown reports otherReports noFault otherAnswers assembled.received_returned
  postExecution := by
    rw [sameBlock, sameBody]
    exact congrArg failWith assembled.postExecution

end EthBuiltPayload.AssembledOn

/-- A payload built on a block the node has extends it, names the builder's mainchain tip,
mints nothing, and assigns the bundle that was broadcast. Whatever happens in between, a
node that has the parent has the block, with the state the builder computed, after it is
delivered: provided its enforcer answers and has the block recorded near its tip. -/
theorem built_blocks_import {Node : Type} [DecidableEq Node] (rules : Rules)
    (mainchain : Mainchain) (genesis : Tip) (earlier : List (Delivery Node))
    (network : Network Node) (builderNode : Node) (builder : Bip300301PayloadBuilder)
    (order : HashMapOrder) (defaultEthereumPayload : DefaultEthereumPayload)
    (bestTransactions : List UserAction) (attributes : EthPayloadAttributes) (parent : Tip)
    (context : NextBlockContext) (payload : EthBuiltPayload)
    (run : Run (Network.Delivers rules) (fun _ => .initial genesis) earlier network)
    (hasParent : (network builderNode).tips parent.block.hash = some parent)
    (client : builder.client = (network builderNode).provider)
    (reports : builder.enforcer.ReportsPegData mainchain rules.sidechainId)
    (assembles : defaultEthereumPayload.AssemblesOn rules builder order parent)
    (builds : builder.Builds rules.hashes order defaultEthereumPayload bestTransactions
      { parentHeader := parent.block, attributes := attributes } context payload) :
    ∃ executed : ExecutedBlock,
      executed.block = payload.block ∧ executed.body = payload.body ∧
      Extends rules.hashes rules.sidechainId parent executed executed.tip ∧
      (∃ mainTip, EnforcerClient.chainTip builder.enforcer = .ok mainTip ∧
        payload.block.header.extraData = mainTip.bytes) ∧
      executed.withdrawals = [] ∧
      executed.done.update.Assigns rules.hashes context.bundle ∧
      ∀ (later : List (Delivery Node)) (laterNetwork : Network Node)
        (delivery : Delivery Node) (mainTip : B256),
        Run (Network.Delivers rules) network later laterNetwork →
        HonestDeliveries rules mainchain genesis (earlier ++ later ++ [delivery]) →
        delivery.received.block = payload.block → delivery.received.body = payload.body →
        ((laterNetwork delivery.node).tips parent.block.hash).isSome →
        delivery.received.innerFault = none →
        delivery.received.enforcer.Answers rules.sidechainId parent.block.header
          payload.block.header →
        delivery.received.enforcer.ReportsCommitments mainchain rules.sidechainId mainTip →
        mainchain.RecordedIn payload.block.hash (mainchain.window 16 mainTip) →
        (laterNetwork.deliver rules delivery delivery.node).tips payload.block.hash =
          some executed.tip := by
  rcases builds.assembled with ⟨offered, outcome, isContext, isOutcome, isPayload⟩
  rcases assembles _ _ offered outcome payload isOutcome isPayload with ⟨done, assembled⟩
  rcases Bip300301PayloadBuilder.extraData_of_nextBlockContext isContext with
    ⟨mainHash, isMainTip, named⟩
  have known : parent.KnownTo builder.client := by
    rw [client]
    exact Database.knownTo_provider hasParent
  have extends_ := ReceivedBlock.extends_of_returned assembled.parentHash assembled.number
    known assembled.received_returned
  refine ⟨_, rfl, rfl, extends_, ⟨mainHash, isMainTip, ?_⟩, ?_, ?_, ?_⟩
  · rw [assembled.extraData, named]
  · change payload.body.withdrawals.getD [] = []
    rw [assembled.withdrawals]
    rfl
  · have assigns := extends_.assigns
    have selected := bundle_of_nextBlockContext known isContext
    rw [ExecutedBlock.height, extends_.number] at assigns
    rw [selected]
    exact assigns
  · intro later laterNetwork delivery mainTip onwards honest sameBlock sameBody otherHasParent
      noFault answers commitments recorded
    have whole := run.append onwards
    have amongThem : earlier ++ later ⊆ earlier ++ later ++ [delivery] :=
      List.subset_append_left _ _
    have earlierAmongThem : earlier ⊆ earlier ++ later ++ [delivery] := fun _ member =>
      amongThem (List.mem_append_left _ member)
    -- The node has the parent as the builder has it.
    rcases Option.isSome_iff_exists.mp otherHasParent with ⟨base, hasBase⟩
    have sameParent : base = parent :=
      (stored_of_deliveries whole amongThem delivery.node _ base hasBase).unique
        (tipComputation_deterministic honest)
        (stored_of_deliveries run earlierAmongThem builderNode _ parent hasParent)
    subst sameParent
    have executed := assembled.executedOn known (Database.knownTo_provider hasBase) reports
      (honest.reports delivery (by simp)) sameBlock sameBody noFault answers named commitments
      recorded
    have isParent : delivery.received.block.header.parentHash = base.block.hash := by
      rw [sameBlock, assembled.parentHash]
    rw [← isParent] at hasBase
    have imported := tips_of_delivered honest whole amongThem (by simp) hasBase executed
    rw [sameBlock] at imported
    rw [imported, ReceivedBlock.tip, sameBlock, sameBody]
    rfl

/-! One node builds an empty block on genesis; the other receives it once mainchain block 1
commits to it and the mainchain has grown by two more blocks. -/

/-- An assembly on one parent. It executes and checks the block it makes. -/
def assembleOn (rules : Rules) (builder : Bip300301PayloadBuilder) (order : HashMapOrder)
    (parent : Tip) (hashOf : Header → B256) : DefaultEthereumPayload :=
  fun builderConfig config offered =>
    let header : Header :=
      { parentHash := parent.block.hash
        number := parent.block.header.number + 1
        extraData := builderConfig.extraData
        withdrawalsRoot := config.attributes.withdrawals.map rules.inner.withdrawalsRootOf }
    let payload : EthBuiltPayload :=
      { block :=
          { hash := hashOf header
            header := header }
        body :=
          { transactions := offered
            withdrawals := config.attributes.withdrawals } }
    match ((payload.received builder.enforcer order).executor rules
        builder.client).applyPreExecutionChanges rules.hashes order parent.world with
    | .error _ => .error "execution failed"
    | .ok done =>
        if rules.inner.headerFault payload.block = none ∧
            rules.inner.againstParentFault payload.block parent.block = none ∧
            rules.inner.bodyFault payload.body payload.block = none ∧
            rules.inner.preExecutionFault payload.body payload.block = none ∧
            rules.inner.postExecutionFault payload.body payload.block done = none then
          .ok (.better payload)
        else .error "invalid block"

theorem assembleOn_assemblesOn (rules : Rules) (builder : Bip300301PayloadBuilder)
    (order : HashMapOrder) (parent : Tip) (hashOf : Header → B256) :
    (assembleOn rules builder order parent hashOf).AssemblesOn rules builder order parent := by
  intro builderConfig attributes offered outcome payload isOutcome isPayload
  unfold assembleOn at isOutcome
  dsimp only at isOutcome
  split at isOutcome
  · cases isOutcome
  · rename_i done returned
    split at isOutcome
    · rename_i valid
      cases isOutcome
      cases isPayload
      rcases valid with ⟨header, againstParent, body, preExecution, postExecution⟩
      exact ⟨done,
        { parentHash := rfl
          number := rfl
          extraData := rfl
          withdrawals := rfl
          returned := returned
          header := header
          againstParent := againstParent
          body := by
            rw [EthBeaconConsensus.validateBodyAgainstHeader, body, if_pos rfl]
            rfl
          preExecution := preExecution
          postExecution := postExecution }⟩
    · cases isOutcome

def committedBuilder : Bip300301PayloadBuilder where
  client := (Database.initial committedGenesis).provider
  builderConfig := { extraData := [] }
  enforcer := committingMainchain.enforcer (Mainchain.linearBlock 0)
  wallet := { broadcastWithdrawalBundle := fun _ => .ok () }
  sidechainId := 10

def committedAssembly : DefaultEthereumPayload :=
  assembleOn committedRules committedBuilder .insertion committedGenesis
    fun _ => .replicate 32 1

theorem built_blocks_import_two_nodes :
    ∃ context payload tip,
      committedBuilder.buildEmptyPayload .unused .insertion committedAssembly
        { parentHeader := committedGenesis.block, attributes := { withdrawals := none } } =
          .ok (context, payload) ∧
      (Network.deliver committedRules lateDelivery (fun _ => .initial committedGenesis)
        true).tips payload.block.hash = some tip := by
  have built : Meets
      (committedBuilder.buildEmptyPayload .unused .insertion committedAssembly
        { parentHeader := committedGenesis.block, attributes := { withdrawals := none } })
      (fun result => lateDelivery.received.block = result.2.block ∧
        result.2.body.transactions.isEmpty ∧ result.2.body.withdrawals = some [])
      fun _ => False := by
    decide +kernel
  rcases built.exists_ok (fun _ failed => failed) with
    ⟨⟨context, payload⟩, isBuilt, sameBlock, noTransactions, noWithdrawals⟩
  have sameBody : lateDelivery.received.body = payload.body := by
    rcases payload with ⟨block, transactions, withdrawals⟩
    cases List.isEmpty_iff.mp noTransactions
    cases noWithdrawals
    rfl
  have recorded : committingMainchain.RecordedIn payload.block.hash
      (committingMainchain.window 16 (Mainchain.linearBlock 3)) := by
    rw [← sameBlock]
    unfold Mainchain.RecordedIn
    decide +kernel
  have answers : lateDelivery.received.enforcer.Answers 10 committedGenesis.block.header
      payload.block.header := by
    rw [← sameBlock]
    exact lateDelivery_answers
  rcases built_blocks_import committedRules committingMainchain committedGenesis []
    (fun _ : Bool => .initial committedGenesis) false committedBuilder .insertion
    committedAssembly [] { withdrawals := none } committedGenesis context payload .start rfl rfl
    (committingMainchain.enforcer_reportsPegData 10 _) (assembleOn_assemblesOn _ _ _ _ _)
    (.empty isBuilt) with ⟨executed, _, _, _, _, _, _, imports⟩
  refine ⟨context, payload, executed.tip, isBuilt, ?_⟩
  exact imports [] _ lateDelivery (Mainchain.linearBlock 3) .start
    (committedDeliveries_honest _ (by simp [lateDelivery])) sameBlock sameBody rfl rfl answers
    (committingMainchain.enforcer_reportsCommitments 10 _) recorded

end Beth
