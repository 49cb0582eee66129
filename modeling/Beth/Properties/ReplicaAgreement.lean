import Beth.Foundation.Replication
import Beth.Node.Network
import Beth.Properties.BmmCommitment
import Beth.Properties.BuilderAgreement
import Beth.Properties.SupplyCap

/-! # Agreement of nodes

The nodes of a network import blocks in any order and on any branch, each with the
answers of its own enforcer and the hash maps of its own process. All of them have
the same state after a block, and what one of them has imported no other refuses. -/

namespace Beth

open Foundation EnforcerClient

/-! ## One block on two nodes -/

/-- The enforcer answers the query for the peg events of a block. -/
def Enforcer.Answers (enforcer : Enforcer) (sidechainId : UInt32) (parent block : Header) :
    Prop :=
  ∀ mainHash, FixedBytes.tryFrom 32 block.extraData = some mainHash →
    ∃ response, enforcer.getTwoWayPegData (pegDataRequest sidechainId
      (FixedBytes.tryFrom 32 parent.extraData) mainHash) = .ok response

/-- An answered query reads the events of its range. -/
theorem query_of_answered {α : Type} {enforcer : Enforcer} {mainchain : Mainchain}
    {sidechainId : UInt32} (reports : enforcer.ReportsPegData mainchain sidechainId)
    (push : List α → BlockEvent → Except EnforcerError (List α)) {start : Option B256}
    {stop : B256}
    (answered : ∃ response, enforcer.getTwoWayPegData (pegDataRequest sidechainId start stop) =
      .ok response) :
    (do
      let response ← ofRpc (enforcer.getTwoWayPegData
        (pegDataRequest sidechainId start stop))
      collectEvents push response.blocks) =
      collectEvents push ((mainchain.tree.range start stop).map mainchain.blockInfo) := by
  rcases answered with ⟨response, isResponse⟩
  rw [isResponse, ofRpc, ok_bind, (reports start stop response isResponse).2]

/-- The update depends on the hash map of no process. -/
theorem computeLifecycleUpdate_eq_of_orders (hashes : Hashes)
    (order otherOrder : HashMapOrder) (allRequests : List RequestEntry)
    (outcomes : List WithdrawalBundleOutcome) (blockHeight : UInt32) :
    computeLifecycleUpdate hashes order allRequests outcomes blockHeight =
      computeLifecycleUpdate hashes otherOrder allRequests outcomes blockHeight := by
  unfold computeLifecycleUpdate
  rw [selectWithdrawalBundle_perm (.refl (pendingOf allRequests)) hashes order otherOrder]

/-- Two executors of one block, whose enforcers answer from one mainchain, do the same. -/
theorem applyPreExecutionChanges_eq (hashes : Hashes) (order otherOrder : HashMapOrder)
    {executor : Bip300301BlockExecutor} {other : Enforcer} {otherProvider : Provider}
    {mainchain : Mainchain} {tip : Tip} {block : Header} (world : World)
    (parentHash : executor.parentHash = tip.block.hash)
    (extraData : executor.extraData = block.extraData)
    (known : tip.KnownTo executor.provider) (otherKnown : tip.KnownTo otherProvider)
    (reports : executor.enforcer.ReportsPegData mainchain executor.sidechainId)
    (otherReports : other.ReportsPegData mainchain executor.sidechainId)
    (answers : executor.enforcer.Answers executor.sidechainId tip.block.header block)
    (otherAnswers : other.Answers executor.sidechainId tip.block.header block) :
    executor.applyPreExecutionChanges hashes order world =
      Bip300301BlockExecutor.applyPreExecutionChanges hashes otherOrder
        { executor with enforcer := other, provider := otherProvider } world := by
  unfold Bip300301BlockExecutor.applyPreExecutionChanges
  dsimp only
  rw [parentHash, extraData, known.header, otherKnown.header, known.state, otherKnown.state]
  cases named : FixedBytes.tryFrom 32 block.extraData with
  | none => rfl
  | some mainHash =>
      have answered := answers mainHash named
      have otherAnswered := otherAnswers mainHash named
      have deposits := (query_of_answered reports pushDeposit answered).trans
        (query_of_answered otherReports pushDeposit otherAnswered).symm
      have outcomes := (query_of_answered reports pushOutcome answered).trans
        (query_of_answered otherReports pushOutcome otherAnswered).symm
      change EnforcerClient.deposits _ _ _ _ = EnforcerClient.deposits _ _ _ _ at deposits
      change withdrawalBundleEvents _ _ _ _ = withdrawalBundleEvents _ _ _ _ at outcomes
      simp only [orElseFail, ok_bind, deposits, outcomes,
        computeLifecycleUpdate_eq_of_orders hashes order otherOrder]

/-- A block that was executed had its query answered, unless it is numbered 0. -/
theorem Bip300301BlockExecutor.answers_of_returned {hashes : Hashes} {order : HashMapOrder}
    {executor : Bip300301BlockExecutor} {tip : Tip} {block : Header} {world : World}
    {done : PreExecution} (parentHash : executor.parentHash = tip.block.hash)
    (extraData : executor.extraData = block.extraData)
    (known : tip.KnownTo executor.provider)
    (numbered : clampU64 executor.blockNumber ≠ 0)
    (returned : executor.applyPreExecutionChanges hashes order world = .ok done) :
    executor.enforcer.Answers executor.sidechainId tip.block.header block := by
  rcases preExecuted_of_ok numbered returned with ⟨parentHeader, mainHash, _, _, facts⟩
  have headerFound := facts.headerFound
  rw [parentHash, known.header] at headerFound
  cases headerFound
  intro other isOther
  have sameHash := facts.mainHashFound
  rw [extraData, isOther] at sameHash
  cases sameHash
  have found := facts.depositsFound
  unfold EnforcerClient.deposits at found
  rcases bind_eq_ok.mp found with ⟨response, isResponse, _⟩
  cases answered : executor.enforcer.getTwoWayPegData (pegDataRequest executor.sidechainId
      (FixedBytes.tryFrom 32 tip.block.header.extraData) mainHash) with
  | ok response => exact ⟨response, rfl⟩
  | error status =>
      rw [answered] at isResponse
      cases isResponse

namespace ReceivedBlock

variable {rules : Rules} {mainchain : Mainchain} {left right : ReceivedBlock}
  {provider otherProvider : Provider} {parent : Tip} {done : PreExecution}

/-- An execution on one node that another node can repeat is repeated there. -/
theorem returned_of_returned (sameBlock : left.block = right.block)
    (isParent : left.block.header.parentHash = parent.block.hash)
    (known : parent.KnownTo provider) (otherKnown : parent.KnownTo otherProvider)
    (reports : left.enforcer.ReportsPegData mainchain rules.sidechainId)
    (otherReports : right.enforcer.ReportsPegData mainchain rules.sidechainId)
    (noFault : right.innerFault = none)
    (otherAnswers : clampU64 right.block.header.number ≠ 0 →
      right.enforcer.Answers rules.sidechainId parent.block.header right.block.header)
    (returned : (left.executor rules provider).applyPreExecutionChanges rules.hashes left.order
      parent.world = .ok done) :
    (right.executor rules otherProvider).applyPreExecutionChanges rules.hashes right.order
      parent.world = .ok done := by
  have leftFault : left.innerFault = none := noFault_of_returned returned
  have rightIs : right.executor rules otherProvider =
      { left.executor rules provider with
        enforcer := right.enforcer
        provider := otherProvider } := by
    unfold executor
    rw [sameBlock, leftFault, noFault]
  by_cases numbered : clampU64 right.block.header.number = 0
  · unfold Bip300301BlockExecutor.applyPreExecutionChanges at returned ⊢
    dsimp only [executor] at returned ⊢
    rw [leftFault, sameBlock] at returned
    rw [noFault]
    dsimp only at returned ⊢
    rw [if_pos numbered] at returned ⊢
    exact returned
  · have leftNumbered : clampU64 left.block.header.number ≠ 0 := sameBlock ▸ numbered
    have answers : left.enforcer.Answers rules.sidechainId parent.block.header
        left.block.header :=
      Bip300301BlockExecutor.answers_of_returned isParent rfl known leftNumbered returned
    rw [rightIs, ← returned]
    symm
    apply applyPreExecutionChanges_eq rules.hashes left.order right.order parent.world
      isParent rfl known otherKnown reports otherReports answers
    exact sameBlock ▸ otherAnswers numbered

/-- Two nodes that executed a block on one parent did the same. -/
theorem done_unique (sameBlock : left.block = right.block)
    (isParent : left.block.header.parentHash = parent.block.hash)
    (known : parent.KnownTo provider) (otherKnown : parent.KnownTo otherProvider)
    (reports : left.enforcer.ReportsPegData mainchain rules.sidechainId)
    (otherReports : right.enforcer.ReportsPegData mainchain rules.sidechainId)
    {otherDone : PreExecution} (executed : left.ExecutedOn rules provider parent done)
    (otherExecuted : right.ExecutedOn rules otherProvider parent otherDone) :
    done = otherDone := by
  have noFault : right.innerFault = none := noFault_of_returned otherExecuted.returned
  have otherIsParent : right.block.header.parentHash = parent.block.hash :=
    sameBlock ▸ isParent
  have repeated := returned_of_returned sameBlock isParent known otherKnown reports
    otherReports noFault (fun numbered =>
      Bip300301BlockExecutor.answers_of_returned otherIsParent rfl otherKnown numbered
        otherExecuted.returned) executed.returned
  rw [otherExecuted.returned] at repeated
  exact (Except.ok.inj repeated).symm

/-- What one node executed passes the checks of every other that can execute it. -/
theorem ExecutedOn.repeated (executed : left.ExecutedOn rules provider parent done)
    (sameBlock : left.block = right.block) (sameBody : left.body = right.body)
    (isParent : left.block.header.parentHash = parent.block.hash)
    (known : parent.KnownTo provider) (otherKnown : parent.KnownTo otherProvider)
    (reports : left.enforcer.ReportsPegData mainchain rules.sidechainId)
    (otherReports : right.enforcer.ReportsPegData mainchain rules.sidechainId)
    (noFault : right.innerFault = none)
    (otherAnswers :
      right.enforcer.Answers rules.sidechainId parent.block.header right.block.header)
    (accepted : (right.consensus rules).validateHeader right.block = .ok ()) :
    right.ExecutedOn rules otherProvider parent done where
  header := accepted
  againstParent := by
    rw [← sameBlock]
    exact executed.againstParent
  body := by
    rw [← sameBlock, ← sameBody]
    exact executed.body
  preExecution := by
    rw [← sameBlock, ← sameBody]
    exact executed.preExecution
  returned := returned_of_returned sameBlock isParent known otherKnown reports otherReports
    noFault (fun _ => otherAnswers) executed.returned
  postExecution := by
    rw [← sameBlock, ← sameBody]
    exact executed.postExecution

end ReceivedBlock

/-! ## All deliveries -/

section Deliveries

variable {Node : Type} (rules : Rules) (mainchain : Mainchain)
  (genesis : Tip) (history : List (Delivery Node))

/-- What is assumed of the deliveries: the hashes of their blocks do not collide, and
all enforcers answer from one mainchain, with all its branches. -/
structure HonestDeliveries : Prop where
  sameBlock : ∀ first ∈ history, ∀ second ∈ history,
    first.received.block.hash = second.received.block.hash →
    first.received.block = second.received.block ∧ first.received.body = second.received.body
  notGenesis : ∀ delivery ∈ history, delivery.received.block.hash ≠ genesis.block.hash
  reports : ∀ delivery ∈ history,
    delivery.received.enforcer.ReportsPegData mainchain rules.sidechainId

/-- Every tip but genesis is a delivered block executed on the tip of its parent. -/
def tipComputation : Computation B256 Tip where
  root := (Database.initial genesis).tips
  computes := fun hash parentHash parent tip =>
    ∃ delivery ∈ history, ∃ provider done,
      delivery.received.block.hash = hash ∧
      delivery.received.block.header.parentHash = parentHash ∧
      parent.block.hash = parentHash ∧
      parent.KnownTo provider ∧
      delivery.received.ExecutedOn rules provider parent done ∧
      tip = delivery.received.tip done

variable {rules mainchain genesis history}

theorem tipComputation_deterministic
    (honest : HonestDeliveries rules mainchain genesis history) :
    (tipComputation rules genesis history).Deterministic where
  notRoot := by
    rintro hash parentHash parent tip ⟨delivery, delivered, _, _, isHash, _⟩
    apply if_neg
    rw [← isHash]
    exact honest.notGenesis delivery delivered
  parent := by
    rintro hash parentHash otherHash parent other tip otherTip
      ⟨first, inFirst, _, _, firstHash, firstParent, _⟩
      ⟨second, inSecond, _, _, secondHash, secondParent, _⟩
    have same := honest.sameBlock first inFirst second inSecond
      (firstHash.trans secondHash.symm)
    rw [← firstParent, ← secondParent, same.1]
  value := by
    rintro hash parentHash parent tip otherTip
      ⟨first, inFirst, _, _, firstHash, firstParent, isParent, known, executed, isTip⟩
      ⟨second, inSecond, _, _, secondHash, _, _, otherKnown, otherExecuted, isOther⟩
    have same := honest.sameBlock first inFirst second inSecond
      (firstHash.trans secondHash.symm)
    have done := ReceivedBlock.done_unique same.1 (firstParent.trans isParent.symm) known
      otherKnown (honest.reports first inFirst) (honest.reports second inSecond) executed
      otherExecuted
    rw [isTip, isOther, done, ReceivedBlock.tip, ReceivedBlock.tip, same.1, same.2]

/-- Everything stored was computed from deliveries. -/
theorem stored_of_deliveries [DecidableEq Node] {network : Network Node}
    {earlier : List (Delivery Node)}
    (run : Run (Network.Delivers rules) (fun _ => .initial genesis) earlier network)
    (amongThem : earlier ⊆ history) :
    (tipComputation rules genesis history).Stored fun node => (network node).tips := by
  refine Run.invariant (fun earlier network => earlier ⊆ history →
    (tipComputation rules genesis history).Stored fun node =>
      (network node : Database).tips) ?_ ?_ run amongThem
  · intro _ node hash tip found
    exact .root found
  · intro earlier network delivery next _ induction delivered amongThem
    have before := induction fun _ member => amongThem (List.mem_append_left _ member)
    have inHistory : delivery ∈ history := amongThem (by simp)
    unfold Network.Delivers at delivered
    rcases network.deliver_cases rules delivery with
      unchanged | ⟨parent, done, _, hasParent, executed, isNext⟩
    · rw [delivered, unchanged]
      exact before
    · have isHash := (network delivery.node).hashed _ _ hasParent
      have computed := before.compute hasParent
        ⟨delivery, inHistory, (network delivery.node).provider, done, rfl, rfl, isHash,
          Database.knownTo_provider hasParent, executed, rfl⟩
      have tips : (fun node => (network.deliver rules delivery node).tips) =
          Function.update (fun node => (network node).tips) delivery.node
            ((network delivery.node).insert (delivery.received.tip done)).tips := by
        funext node
        rw [isNext]
        exact Function.apply_update (fun _ => Database.tips) _ _ _ node
      rw [delivered, tips]
      exact computed

/-- A node that can execute a block on its parent has the tip after it once the block is
delivered, also where it had the block before. -/
theorem tips_of_delivered [DecidableEq Node] {network : Network Node}
    {earlier : List (Delivery Node)} {delivery : Delivery Node} {parent : Tip}
    {done : PreExecution} (honest : HonestDeliveries rules mainchain genesis history)
    (run : Run (Network.Delivers rules) (fun _ => .initial genesis) earlier network)
    (amongThem : earlier ⊆ history) (delivered : delivery ∈ history)
    (hasParent : (network delivery.node).tips delivery.received.block.header.parentHash =
      some parent)
    (executed : delivery.received.ExecutedOn rules (network delivery.node).provider parent
      done) :
    (network.deliver rules delivery delivery.node).tips delivery.received.block.hash =
      some (delivery.received.tip done) := by
  have stored := stored_of_deliveries run amongThem
  unfold Network.deliver Database.importBlock
  cases alreadyThere : (network delivery.node).tips delivery.received.block.hash with
  | some stale =>
      have isHash := (network delivery.node).hashed _ _ hasParent
      have computed : (tipComputation rules genesis history).Derives
          delivery.received.block.hash (delivery.received.tip done) :=
        .computed (stored delivery.node _ parent hasParent)
          ⟨delivery, delivered, _, done, rfl, rfl, isHash,
            Database.knownTo_provider hasParent, executed, rfl⟩
      dsimp only
      rw [Function.update_eq_self, alreadyThere]
      exact congrArg some ((stored delivery.node _ stale alreadyThere).unique
        (tipComputation_deterministic honest) computed)
  | none =>
      dsimp only
      rw [hasParent]
      dsimp only
      rw [ReceivedBlock.executeOn_eq_ok_iff.mpr ⟨done, executed, rfl⟩, ok_bind]
      change (Function.update network delivery.node _ delivery.node).tips _ = _
      rw [Function.update_self]
      exact Database.tips_insert_self _ _

end Deliveries

/-- A committed block that passes the standard checks is accepted. -/
theorem ReceivedBlock.validateHeader_of_recorded {rules : Rules} {received : ReceivedBlock}
    {mainchain : Mainchain} {mainTip mainHash : B256}
    (standard : rules.inner.headerFault received.block = none)
    (named : FixedBytes.tryFrom 32 received.block.header.extraData = some mainHash)
    (reports : received.enforcer.ReportsCommitments mainchain rules.sidechainId mainTip)
    (recorded : mainchain.RecordedIn received.block.hash (mainchain.window 16 mainTip)) :
    (received.consensus rules).validateHeader received.block = .ok () := by
  apply (validateHeader_iff_recorded (received.consensus rules) reports _).mpr
  refine ⟨standard, ?_, recorded⟩
  rw [← FixedBytes.tryFrom_eq_some named]
  exact mainHash.length_eq

/-- However blocks are delivered, nodes that have a block have the same state after
it; and a block that some node imported is imported by each node that has its parent,
whose enforcer answers and finds it recorded near its mainchain tip. -/
theorem replicas_agree {Node : Type} [DecidableEq Node] (rules : Rules)
    (mainchain : Mainchain) (genesis : Tip) (history : List (Delivery Node))
    (network : Network Node) (honest : HonestDeliveries rules mainchain genesis history)
    (run : Run (Network.Delivers rules) (fun _ => .initial genesis) history network) :
    (∀ left right hash leftTip rightTip, (network left).tips hash = some leftTip →
      (network right).tips hash = some rightTip → leftTip = rightTip) ∧
    ∀ (delivery : Delivery Node) (node : Node) (tip parent : Tip) (mainTip : B256),
      HonestDeliveries rules mainchain genesis (history ++ [delivery]) →
      (network node).tips delivery.received.block.hash = some tip →
      (network delivery.node).tips delivery.received.block.header.parentHash = some parent →
      delivery.received.innerFault = none →
      delivery.received.enforcer.Answers rules.sidechainId parent.block.header
        delivery.received.block.header →
      delivery.received.enforcer.ReportsCommitments mainchain rules.sidechainId mainTip →
      mainchain.RecordedIn delivery.received.block.hash (mainchain.window 16 mainTip) →
      (network.deliver rules delivery delivery.node).tips delivery.received.block.hash =
        some tip := by
  have deterministic := tipComputation_deterministic honest
  have stored := stored_of_deliveries run (List.Subset.refl history)
  constructor
  · intro left right hash leftTip rightTip onLeft onRight
    exact stored.agree deterministic onLeft onRight
  · intro delivery node tip parent mainTip honestNext hasTip hasParent noFault answers reports
      recorded
    -- The tip of the other node was computed by one of the deliveries so far.
    have derived := stored node _ tip hasTip
    have isNew : (tipComputation rules genesis history).root delivery.received.block.hash =
        none := if_neg (honestNext.notGenesis delivery (by simp))
    rcases derived.exists_computes isNew with ⟨parentHash, base, fromBase, first, inFirst,
      provider, done, firstHash, firstParent, isBase, known, executed, isTip⟩
    have same := honestNext.sameBlock first (List.mem_append_left _ inFirst) delivery (by simp)
      firstHash
    have sameParent : base = parent := by
      rw [← firstParent, same.1] at fromBase
      exact fromBase.unique deterministic (stored delivery.node _ parent hasParent)
    subst sameParent
    have accepted : (delivery.received.consensus rules).validateHeader
        delivery.received.block = .ok () := by
      have before := (Bip300301Consensus.validateHeader_eq_ok_iff _ _).mp executed.header
      rcases before with ⟨standard, prevMainHash, named, _⟩
      rw [same.1] at standard named
      exact ReceivedBlock.validateHeader_of_recorded standard named reports recorded
    have repeated := executed.repeated same.1 same.2 (firstParent.trans isBase.symm) known
      (Database.knownTo_provider hasParent) (honest.reports first inFirst)
      (honestNext.reports delivery (by simp)) noFault answers accepted
    have sameTip : tip = delivery.received.tip done := by
      rw [isTip, ReceivedBlock.tip, ReceivedBlock.tip, same.1, same.2]
    rw [sameTip]
    exact tips_of_delivered honestNext run (List.subset_append_left _ _) (by simp) hasParent
      repeated

/-! Two nodes receive the block that mainchain block 1 commits to, one of them when the
mainchain has grown by two more blocks. -/

def committedGenesis : Tip := .genesis (.replicate 32 0) none

def committedRules : Rules where
  hashes := .unused
  sidechainId := 10
  inner := rootOnlyConsensus
  depositEnv := fun _ => .unmetered
  lifecycleEnv := fun _ => .unmetered

def committedDelivery (node : Bool) (mainTip : B256) : Delivery Bool where
  node := node
  received :=
    { block := (committedProposal []).header committedGenesis
      body := (committedProposal []).body
      enforcer := committingMainchain.enforcer mainTip
      order := .insertion
      innerFault := none }

theorem committedDeliveries_honest (deliveries : List (Delivery Bool))
    (committed : ∀ delivery ∈ deliveries, ∃ node mainTip,
      delivery = committedDelivery node mainTip) :
    HonestDeliveries committedRules committingMainchain committedGenesis deliveries where
  sameBlock := by
    intro first inFirst second inSecond _
    rcases committed first inFirst with ⟨_, _, isFirst⟩
    rcases committed second inSecond with ⟨_, _, isSecond⟩
    subst isFirst isSecond
    exact ⟨rfl, rfl⟩
  notGenesis := by
    intro delivery delivered
    rcases committed delivery delivered with ⟨_, _, isDelivery⟩
    subst isDelivery
    change (FixedBytes.replicate 32 1 : B256) ≠ .replicate 32 0
    decide
  reports := by
    intro delivery delivered
    rcases committed delivery delivered with ⟨_, mainTip, isDelivery⟩
    subst isDelivery
    exact committingMainchain.enforcer_reportsPegData 10 mainTip

/-- The network once the first node has the block. -/
def earlyNetwork : Network Bool :=
  Network.deliver committedRules (committedDelivery false (Mainchain.linearBlock 1))
    fun _ => .initial committedGenesis

theorem earlyNetwork_imported :
    ((earlyNetwork false).tips (.replicate 32 1)).isSome := by
  decide +kernel

/-- The block at the moment the second node receives it. -/
def lateDelivery : Delivery Bool := committedDelivery true (Mainchain.linearBlock 3)

theorem lateDelivery_answers :
    lateDelivery.received.enforcer.Answers 10 committedGenesis.block.header
      lateDelivery.received.block.header := by
  intro mainHash _
  apply Exists.intro
    { blocks := (committingMainchain.tree.range none mainHash).map
        committingMainchain.blockInfo : GetTwoWayPegDataResponse }
  change committingMainchain.reportPegData (pegDataRequest 10 none mainHash) = _
  unfold Mainchain.reportPegData pegDataRequest
  dsimp only
  rw [Mainchain.readHash_hexEncode]
  rfl

theorem replicas_agree_two_nodes :
    ∃ network tip,
      Run (Network.Delivers committedRules) (fun _ => .initial committedGenesis)
        [committedDelivery false (Mainchain.linearBlock 1), lateDelivery] network ∧
      (network false).tips (.replicate 32 1) = some tip ∧
      (network true).tips (.replicate 32 1) = some tip := by
  rcases Option.isSome_iff_exists.mp earlyNetwork_imported with ⟨tip, hasTip⟩
  have first : Run (Network.Delivers committedRules) (fun _ => .initial committedGenesis)
      [committedDelivery false (Mainchain.linearBlock 1)] earlyNetwork := .extend .start rfl
  have hasParent : (earlyNetwork true).tips (.replicate 32 0) = some committedGenesis := by
    rw [earlyNetwork, Network.deliver_of_ne _ _ (by decide)]
    rfl
  have recorded : committingMainchain.RecordedIn (.replicate 32 1)
      (committingMainchain.window 16 (Mainchain.linearBlock 3)) := by
    unfold Mainchain.RecordedIn
    decide +kernel
  have imported := (replicas_agree committedRules committingMainchain committedGenesis _
    earlyNetwork (committedDeliveries_honest _ (by simp)) first).2 lateDelivery false tip
    committedGenesis (Mainchain.linearBlock 3)
    (committedDeliveries_honest _ (by simp [lateDelivery])) hasTip hasParent rfl
    lateDelivery_answers (committingMainchain.enforcer_reportsCommitments 10 _) recorded
  refine ⟨earlyNetwork.deliver committedRules lateDelivery, tip, .extend first rfl, ?_, imported⟩
  rw [Network.deliver_of_ne _ _ (by decide)]
  exact hasTip

end Beth
