import Beth.Foundation.Runs
import Beth.Node.Consensus

/-! # Chains of executed blocks

A tip is a block with the state after it. Extending it executes a child with
`Bip300301BlockExecutor` on that state, then runs the child's transactions and
the withdrawals of its body. Nothing is assumed of the enforcer, of the hash
map order or of the EVM that makes the system calls: a run lists, for every
block, what they were and what the executor did. -/

namespace Beth

open Foundation WithdrawalRequestQueue

structure Tip where
  block : SealedHeader
  world : World

/-- `genesis.json`: block 0, empty `extraData`, all ether in `DepositVault`. -/
def Tip.genesis (hash : B256) (withdrawalsRoot : Option B256) : Tip where
  block :=
    { hash := hash
      header :=
        { parentHash := .replicate 32 0
          number := 0
          extraData := []
          withdrawalsRoot := withdrawalsRoot } }
  world := .genesis

/-- A provider whose database holds the tip. -/
structure Tip.KnownTo (tip : Tip) (provider : Provider) : Prop where
  header : provider.header tip.block.hash = .ok (some tip.block.header)
  state : provider.stateByBlockHash tip.block.hash = .ok { queue := .ok tip.world.queue }

/-- The database of a node that knows only this tip. -/
def Tip.provider (tip : Tip) : Provider where
  header := fun hash => .ok (if hash = tip.block.hash then some tip.block.header else none)
  stateByBlockHash := fun hash =>
    if hash = tip.block.hash then .ok { queue := .ok tip.world.queue }
    else .error "unknown block"

theorem Tip.knownTo_provider (tip : Tip) : tip.KnownTo tip.provider where
  header := by simp [provider]
  state := by simp [provider]

/-- A block, the circumstances of its execution and what the execution did. -/
structure ExecutedBlock where
  block : SealedHeader
  body : Body
  enforcer : Enforcer
  provider : Provider
  order : HashMapOrder
  depositEnv : CallEnv
  lifecycleEnv : CallEnv
  done : PreExecution

namespace ExecutedBlock

variable (hashes : Hashes) (sidechainId : UInt32) (executed : ExecutedBlock)

def executor : Bip300301BlockExecutor where
  enforcer := executed.enforcer
  sidechainId := sidechainId
  provider := executed.provider
  parentHash := executed.block.header.parentHash
  extraData := executed.block.header.extraData
  blockNumber := executed.block.header.number
  innerFault := none
  depositEnv := executed.depositEnv
  lifecycleEnv := executed.lifecycleEnv

def height : UInt32 := blockHeight executed.block.header.number

def withdrawals : List Withdrawal := executed.body.withdrawals.getD []

/-- The bundle the block assigned. -/
def bundle : Option WithdrawalBundle :=
  selectWithdrawalBundle hashes executed.order (pendingOf executed.done.allRequests)
    executed.height

/-- The requests of the bundle the block assigned. -/
def bundledIndices : List Nat := executed.done.update.toCalldata.bundledIndices

end ExecutedBlock

/-- The tip after the transactions and withdrawals of an executed block. -/
def ExecutedBlock.tip (executed : ExecutedBlock) : Tip where
  block := executed.block
  world := finish executed.withdrawals
    (runUserCode executed.body.transactions executed.done.state)

structure Extends (hashes : Hashes) (sidechainId : UInt32) (tip : Tip)
    (executed : ExecutedBlock) (next : Tip) : Prop where
  parent : executed.block.header.parentHash = tip.block.hash
  number : executed.block.header.number = tip.block.header.number + 1
  known : tip.KnownTo executed.provider
  returned : (executed.executor sidechainId).applyPreExecutionChanges hashes executed.order
    tip.world = .ok executed.done
  next_eq : next = executed.tip

/-- A run of executed blocks. -/
abbrev Chain (hashes : Hashes) (sidechainId : UInt32) (start : Tip) :
    List ExecutedBlock → Tip → Prop :=
  Run (Extends hashes sidechainId) start

/-! ## Executing proposed blocks -/

/-- What is chosen or arises anew for the next block of a chain. -/
structure Proposal where
  hash : B256
  extraData : Bytes
  withdrawalsRoot : Option B256
  body : Body
  enforcer : Enforcer
  order : HashMapOrder
  depositEnv : CallEnv
  lifecycleEnv : CallEnv

def Proposal.header (proposal : Proposal) (tip : Tip) : SealedHeader where
  hash := proposal.hash
  header :=
    { parentHash := tip.block.hash
      number := tip.block.header.number + 1
      extraData := proposal.extraData
      withdrawalsRoot := proposal.withdrawalsRoot }

/-- The proposed block on a tip, once its execution is known. -/
def Proposal.executed (proposal : Proposal) (tip : Tip) (done : PreExecution) :
    ExecutedBlock where
  block := proposal.header tip
  body := proposal.body
  enforcer := proposal.enforcer
  provider := tip.provider
  order := proposal.order
  depositEnv := proposal.depositEnv
  lifecycleEnv := proposal.lifecycleEnv
  done := done

def Proposal.execute (hashes : Hashes) (sidechainId : UInt32) (tip : Tip)
    (proposal : Proposal) : Except BlockExecutionError ExecutedBlock := do
  let executor := (proposal.executed tip (.untouched tip.world)).executor sidechainId
  let done ← executor.applyPreExecutionChanges hashes proposal.order tip.world
  pure (proposal.executed tip done)

/-- An executed proposal extends the tip it was executed on. -/
theorem Proposal.extends_of_execute {hashes : Hashes} {sidechainId : UInt32} {tip : Tip}
    {proposal : Proposal} {executed : ExecutedBlock}
    (executedEq : proposal.execute hashes sidechainId tip = .ok executed) :
    Extends hashes sidechainId tip executed executed.tip ∧
      ∃ done, executed = proposal.executed tip done := by
  rcases bind_eq_ok.mp executedEq with ⟨done, returned, executedIs⟩
  cases executedIs
  refine ⟨?_, done, rfl⟩
  exact
    { parent := rfl
      number := rfl
      known := tip.knownTo_provider
      returned := returned
      next_eq := rfl }

def executeAll (hashes : Hashes) (sidechainId : UInt32) :
    Tip → List Proposal → Except BlockExecutionError (List ExecutedBlock × Tip)
  | tip, [] => .ok ([], tip)
  | tip, proposal :: rest => do
      let executed ← proposal.execute hashes sidechainId tip
      let later ← executeAll hashes sidechainId executed.tip rest
      pure (executed :: later.1, later.2)

/-- Executing proposals one after the other is a run. -/
theorem chain_of_executeAll {hashes : Hashes} {sidechainId : UInt32} {start : Tip}
    {proposals : List Proposal} {result : List ExecutedBlock × Tip}
    (executedAll : executeAll hashes sidechainId start proposals = .ok result) :
    Chain hashes sidechainId start result.1 result.2 ∧
      result.1.length = proposals.length ∧
      ∀ executed ∈ result.1, ∃ proposal ∈ proposals, ∃ tip done,
        executed = proposal.executed tip done := by
  induction proposals generalizing start result with
  | nil =>
      cases executedAll
      exact ⟨.start, rfl, by simp⟩
  | cons proposal rest induction =>
      rcases bind_eq_ok.mp executedAll with ⟨executed, executedEq, restAll⟩
      rcases bind_eq_ok.mp restAll with ⟨later, laterEq, resultEq⟩
      rcases Proposal.extends_of_execute executedEq with ⟨first, done, executedIs⟩
      cases resultEq
      have tail := induction laterEq
      refine ⟨(Run.extend .start first).append tail.1, ?_, ?_⟩
      · simpa using tail.2.1
      · intro other member
        rcases List.mem_cons.mp member with isFirst | inLater
        · exact ⟨proposal, by simp, start, done, isFirst.trans executedIs⟩
        · rcases tail.2.2 other inLater with ⟨later, laterMem, isLater⟩
          exact ⟨later, by simp [laterMem], isLater⟩

/-- A block without transactions and withdrawals, built on a mainchain block by
an enforcer that answers from the mainchain, gas aside. -/
def Proposal.empty (hash mainHash : B256) (enforcer : Enforcer) : Proposal where
  hash := hash
  extraData := mainHash.bytes
  withdrawalsRoot := none
  body :=
    { transactions := []
      withdrawals := some [] }
  enforcer := enforcer
  order := .insertion
  depositEnv := .unmetered
  lifecycleEnv := .unmetered

/-! ## Consensus -/

/-- The verdicts of the consensus on a block whose parent is the tip. -/
structure Bip300301Consensus.Accepts (consensus : Bip300301Consensus) (tip : Tip)
    (executed : ExecutedBlock) : Prop where
  header : consensus.validateHeader executed.block = .ok ()
  againstParent : consensus.validateHeaderAgainstParent executed.block tip.block = .ok ()
  body : consensus.validateBodyAgainstHeader executed.body executed.block = .ok ()
  preExecution : consensus.validateBlockPreExecution executed.body executed.block = .ok ()
  postExecution : consensus.validateBlockPostExecution executed.body executed.block
    executed.done = .ok ()

/-! ## One block -/

theorem clampU64_succ_ne_zero (number : Nat) : clampU64 (number + 1) ≠ 0 := by
  intro isZero
  have asNat := congrArg UInt64.toNat isZero
  unfold clampU64 at asNat
  split at asNat
  · rw [UInt64.toNat_ofNat'] at asNat
    simp only [UInt64.toNat_zero] at asNat
    omega
  · simp at asNat

/-- The executor found the tip as the parent and its queue as the state read. -/
theorem Extends.preExecuted {hashes : Hashes} {sidechainId : UInt32} {tip next : Tip}
    {executed : ExecutedBlock} (extends_ : Extends hashes sidechainId tip executed next) :
    ∃ mainHash credited,
      PreExecuted hashes executed.order (executed.executor sidechainId) tip.world
        executed.done tip.block.header mainHash credited tip.world.queue := by
  have numbered : clampU64 (executed.executor sidechainId).blockNumber ≠ 0 := by
    change clampU64 executed.block.header.number ≠ 0
    rw [extends_.number]
    exact clampU64_succ_ne_zero _
  rcases preExecuted_of_ok numbered extends_.returned with
    ⟨parentHeader, mainHash, credited, queue, facts⟩
  have sameHeader : parentHeader = tip.block.header := by
    have found := facts.headerFound
    change executed.provider.header executed.block.header.parentHash = _ at found
    rw [extends_.parent, extends_.known.header] at found
    cases found
    rfl
  have sameQueue : queue = tip.world.queue := by
    rcases facts.queueRead with ⟨state, stateRead, queueRead⟩
    change executed.provider.stateByBlockHash executed.block.header.parentHash = _
      at stateRead
    rw [extends_.parent, extends_.known.state] at stateRead
    cases stateRead
    cases queueRead
    rfl
  subst sameHeader
  subst sameQueue
  exact ⟨mainHash, credited, facts⟩

/-- The call a block made is the one computed from the queue of its parent. -/
theorem Extends.toCalldata_eq {hashes : Hashes} {sidechainId : UInt32} {tip next : Tip}
    {executed : ExecutedBlock} (extends_ : Extends hashes sidechainId tip executed next) :
    executed.done.update.toCalldata =
      lifecycleCall hashes executed.order tip.world.queue executed.done.outcomes
        executed.height := by
  rcases extends_.preExecuted with ⟨mainHash, credited, facts⟩
  rw [facts.updateComputed]
  rfl

theorem Extends.bundle_eq {hashes : Hashes} {sidechainId : UInt32} {tip next : Tip}
    {executed : ExecutedBlock} (extends_ : Extends hashes sidechainId tip executed next) :
    executed.bundle hashes =
      selectedBundle hashes executed.order tip.world.queue executed.height := by
  rcases extends_.preExecuted with ⟨mainHash, credited, facts⟩
  rw [ExecutedBlock.bundle, facts.requestsRead]
  rfl

/-! ## What every block keeps -/

theorem creditDeposits_preserves (Holds : World → Prop) {env : CallEnv}
    {deposits : List Deposit} {world : World} {credited : Option ExecutionResult × World}
    (payment : ∀ world recipient amountWei, Holds world → recipient ∉ predeploys →
      amountWei ≤ world.balances depositVaultAddress →
      Holds { world with
        balances := world.balances.move depositVaultAddress recipient amountWei })
    (userCode : ∀ world next, Holds world → UserAction.Effect world next → Holds next)
    (holds : Holds world) (returned : creditDeposits env deposits world = .ok credited) :
    Holds credited.2 := by
  unfold creditDeposits at returned
  split at returned
  · cases returned
    exact holds
  · rename_i call _
    rcases bind_eq_ok.mp returned with ⟨called, calledEq, returned⟩
    cases returned
    exact transactSystemCall_preserves Holds
      (DepositVault.systemCreditDeposits_preserves env systemAddress call payment userCode
        (.start env world) holds)
      holds (orElseFail_eq_ok.mp calledEq)

theorem reportLifecycle_preserves {Holds : World → Prop} {env : CallEnv}
    {update : BundleLifecycleUpdate} {world : World}
    {reported : Option ExecutionResult × World}
    (bundled : ∀ index ∈ update.toCalldata.bundledIndices, ∀ world, Holds world →
      (world.queue.requests index).status = .pending →
      Holds (changeRequest index (Request.bundle update.toCalldata.newM6id) world))
    (confirmed : ∀ index ∈ update.toCalldata.succeededIndices, ∀ world, Holds world →
      (world.queue.requests index).status = .bundled →
      Holds (changeRequest index Request.confirm world))
    (refunded : ∀ index ∈ update.toCalldata.failedIndices, ∀ world next success,
      Holds world → (world.queue.requests index).status = .bundled →
      Frame.PaymentEffect withdrawalRequestQueueAddress
        (world.queue.requests index).requester (world.queue.requests index).lockedWei
        (changeRequest index Request.refund world) success next →
      Holds next)
    (holds : Holds world) (returned : reportLifecycle env update world = .ok reported) :
    Holds reported.2 := by
  unfold reportLifecycle at returned
  split at returned
  · cases returned
    exact holds
  · rcases bind_eq_ok.mp returned with ⟨called, calledEq, returned⟩
    cases returned
    exact transactSystemCall_preserves Holds
      (systemReportBundleLifecycle_preserves env systemAddress update.toCalldata bundled
        confirmed refunded (.start env world) holds)
      holds (orElseFail_eq_ok.mp calledEq)

/-- The rule for whole blocks: what credits, changes of the requests the call
names, refunds, user code and the withdrawals of the body keep, the block keeps. -/
theorem Extends.preserves_refunding (Holds : World → Prop) {hashes : Hashes}
    {sidechainId : UInt32} {tip next : Tip} {executed : ExecutedBlock}
    (extends_ : Extends hashes sidechainId tip executed next)
    (credited : ∀ world recipient amountWei, Holds world → recipient ∉ predeploys →
      amountWei ≤ world.balances depositVaultAddress →
      Holds { world with
        balances := world.balances.move depositVaultAddress recipient amountWei })
    (bundled : ∀ bundle, executed.bundle hashes = some bundle →
      ∀ index ∈ bundle.requestIndices.map UInt64.toNat, ∀ world, Holds world →
      (world.queue.requests index).status = .pending →
      Holds (changeRequest index (Request.bundle (bundle.m6id hashes)) world))
    (confirmed : ∀ index, index < tip.world.queue.requestCount → ∀ world, Holds world →
      (world.queue.requests index).status = .bundled →
      Holds (changeRequest index Request.confirm world))
    (refunded : ∀ index, index < tip.world.queue.requestCount → ∀ world next success,
      Holds world → (world.queue.requests index).status = .bundled →
      Frame.PaymentEffect withdrawalRequestQueueAddress
        (world.queue.requests index).requester (world.queue.requests index).lockedWei
        (changeRequest index Request.refund world) success next →
      Holds next)
    (userCode : ∀ world next, Holds world → UserAction.Effect world next → Holds next)
    (finished : ∀ world, Holds world → Holds (finish executed.withdrawals world))
    (holds : Holds tip.world) : Holds next.world := by
  rcases extends_.preExecuted with ⟨mainHash, creditedWorld, facts⟩
  have creditedHolds : Holds creditedWorld :=
    creditDeposits_preserves Holds credited userCode holds facts.creditedBy
  have queued : ∀ index ∈ executed.done.update.toCalldata.succeededIndices ++
      executed.done.update.toCalldata.failedIndices,
      index < tip.world.queue.requestCount := by
    intro index member
    rw [extends_.toCalldata_eq] at member
    exact (lifecycleCall_resolved_bundled member).1.trans_le (readableCount_le _)
  have reportedHolds : Holds executed.done.state := by
    refine reportLifecycle_preserves (fun index member => ?_)
      (fun index member => confirmed index (queued index (List.mem_append_left _ member)))
      (fun index member => refunded index (queued index (List.mem_append_right _ member)))
      creditedHolds facts.reportedBy
    rw [extends_.toCalldata_eq] at member ⊢
    rw [lifecycleCall_bundledIndices] at member
    cases selected : selectedBundle hashes executed.order tip.world.queue
        executed.height with
    | none => simp [selected] at member
    | some bundle =>
        rw [selected] at member
        rw [lifecycleCall_newM6id _ _ _ _ _ selected]
        exact bundled bundle (extends_.bundle_eq.trans selected) index member
  rw [extends_.next_eq]
  exact finished _ (runUserCode_preserves Holds userCode _ reportedHolds)

/-- The rule for properties that any payment by a predeploy keeps. -/
theorem Extends.preserves (Holds : World → Prop) {hashes : Hashes} {sidechainId : UInt32}
    {tip next : Tip} {executed : ExecutedBlock}
    (extends_ : Extends hashes sidechainId tip executed next)
    (bundled : ∀ bundle, executed.bundle hashes = some bundle →
      ∀ index ∈ bundle.requestIndices.map UInt64.toNat, ∀ world, Holds world →
      (world.queue.requests index).status = .pending →
      Holds (changeRequest index (Request.bundle (bundle.m6id hashes)) world))
    (resolved : ∀ change ∈ [Request.confirm, Request.refund], ∀ index world, Holds world →
      (world.queue.requests index).status = .bundled →
      Holds (changeRequest index change world))
    (payment : ∀ world payer recipient amountWei, Holds world → payer ∈ predeploys →
      recipient ∉ predeploys → amountWei ≤ world.balances payer →
      Holds { world with balances := world.balances.move payer recipient amountWei })
    (userCode : ∀ world next, Holds world → UserAction.Effect world next → Holds next)
    (finished : ∀ world, Holds world → Holds (finish executed.withdrawals world))
    (holds : Holds tip.world) : Holds next.world := by
  refine extends_.preserves_refunding Holds
    (fun world recipient amountWei kept =>
      payment world _ recipient amountWei kept vault_mem_predeploys)
    bundled (fun index _ => resolved _ (by simp) index) ?_ userCode finished holds
  intro index _ world next success kept isBundled effect
  have marked := resolved Request.refund (by simp) index world kept isBundled
  exact effect.preserves marked
    (fun notPredeploy covered => payment _ _ _ _ marked queue_mem_predeploys notPredeploy
      covered) userCode

end Beth
