import Beth.Properties.BundleHistory
import Beth.Properties.DepositAddresses

/-! # The lifecycle call does what was computed

The call is computed from the parent's queue and made on a queue that deposit
recipients may have grown. The contract accepts it there, and every request of
the parent ends up as its outcome says. -/

namespace Beth

open Foundation WithdrawalRequestQueue

/-! ## Growth during deposit credits -/

theorem grows_creditDeposits {env : CallEnv} {deposits : List Deposit} {world : World}
    {credited : Option ExecutionResult × World}
    (returned : creditDeposits env deposits world = .ok credited) :
    Grows world.queue credited.2.queue :=
  creditDeposits_preserves (fun reached : World => Grows world.queue reached.queue)
    (fun _ _ _ kept _ _ => kept)
    (fun _ _ kept effect => kept.trans (grows_of_effect effect)) (.refl _) returned

/-- Made on any growth of the queue it was computed from, and gas aside, the
call is accepted and settles every request. -/
theorem lifecycleCall_settles (hashes : Hashes) (order : HashMapOrder) {queue : Storage}
    {outcomes : List WithdrawalBundleOutcome} (blockHeight : UInt32) {env : CallEnv}
    {world : World} (growth : Grows queue world.queue) (unmetered : env.gasLimit = none)
    (oneTerminal : OneTerminalEach outcomes) :
    ∃ next, systemReportBundleLifecycle env systemAddress
        (lifecycleCall hashes order queue outcomes blockHeight) (.start env world) = .ok next ∧
      Settles (lifecycleCall hashes order queue outcomes blockHeight) world.queue
        next.world.queue :=
  (systemReportBundleLifecycle_meets env _ (.start env world)
    ((lifecycleCall_accepts (oneTerminal.noConflict queue)).of_grows growth)).exists_ok
      fun _ failed => failed.2 unmetered

/-! ## The intended effect -/

/-- What an update is meant to do to the requests of the parent's queue, and to
those queued since then. -/
structure IntendedEffect (update : BundleLifecycleUpdate)
    (outcomes : List WithdrawalBundleOutcome) (parent credited after : Storage) :
    Prop where
  bundled : ∀ index, index < parent.requestCount →
    ((after.requests index).status = .bundled ∧
        update.newM6id = some (after.requests index).bundleM6id ↔
      (parent.requests index).status = .pending ∧
        index ∈ update.bundledIndices.map UInt64.toNat)
  confirmed : ∀ index, index < parent.requestCount →
    ((after.requests index).status = .confirmed ↔
      (parent.requests index).status = .confirmed ∨
        (parent.requests index).status = .bundled ∧
          (parent.requests index).bundleM6id ∈ reported .succeeded outcomes)
  refunded : ∀ index, index < parent.requestCount →
    ((after.requests index).status = .refunded ↔
      (parent.requests index).status = .refunded ∨
        (parent.requests index).status = .bundled ∧
          (parent.requests index).bundleM6id ∈ reported .failed outcomes)
  unchanged : ∀ index, index < credited.requestCount →
    (index < parent.requestCount →
      index ∉ update.bundledIndices.map UInt64.toNat ∧
        ((parent.requests index).status = .bundled →
          (parent.requests index).bundleM6id ∉
            reported .succeeded outcomes ++ reported .failed outcomes)) →
    after.requests index = credited.requests index

/-- A traced request is resolved exactly when its bundle is reported. -/
theorem mem_flatMap_carriers {hashes : Hashes} {assigned : List Assignment}
    {queue : Storage} (traced : Traced hashes assigned queue) {m6ids : List Txid}
    {index : Nat} :
    index ∈ m6ids.flatMap (carriers queue) ↔
      (queue.requests index).status = .bundled ∧
        (queue.requests index).bundleM6id ∈ m6ids := by
  rw [List.mem_flatMap]
  constructor
  · intro carried
    rcases carried with ⟨m6id, reportedMem, member⟩
    have facts := of_decide_eq_true (mem_indicesWhere.mp member).2
    exact ⟨facts.1, facts.2 ▸ reportedMem⟩
  · intro facts
    have trace := traced index (by simp [facts.1])
    exact ⟨_, facts.2, mem_indicesWhere.mpr
      ⟨lt_readableCount trace.2.1 trace.1, by simp [facts.1]⟩⟩

/-- The bundle an update assigns, as an assignment. -/
def newAssignment (hashes : Hashes) (order : HashMapOrder) (queue : Storage)
    (blockHeight : UInt32) : Option Assignment :=
  (selectedBundle hashes order queue blockHeight).map fun bundle =>
    { bundle := bundle
      height := blockHeight }

section Effect

variable {hashes : Hashes} {order : HashMapOrder} {queue : Storage}
  {outcomes : List WithdrawalBundleOutcome} {blockHeight : UInt32}

variable (outcomes) in
theorem update_of_selected {bundle : WithdrawalBundle}
    (selected : selectedBundle hashes order queue blockHeight = some bundle) :
    (computeLifecycleUpdate hashes order (readAllRequests queue) outcomes
        blockHeight).newM6id = some (bundle.m6id hashes) ∧
      (computeLifecycleUpdate hashes order (readAllRequests queue) outcomes
        blockHeight).bundledIndices = bundle.requestIndices := by
  simp only [selectedBundle, readPendingWithdrawals] at selected
  simp [computeLifecycleUpdate, selected]

variable (outcomes) in
theorem update_of_not_selected
    (selected : selectedBundle hashes order queue blockHeight = none) :
    (computeLifecycleUpdate hashes order (readAllRequests queue) outcomes
        blockHeight).newM6id = none ∧
      (computeLifecycleUpdate hashes order (readAllRequests queue) outcomes
        blockHeight).bundledIndices = [] := by
  simp only [selectedBundle, readPendingWithdrawals] at selected
  simp [computeLifecycleUpdate, selected]

/-- No request of the parent's queue already carries the new m6id, unless it is
one of those selected. -/
theorem selected_of_newM6id {assigned : List Assignment}
    (traced : Traced hashes assigned queue)
    (commits : ∀ assignment ∈ assigned, assignment.Commits hashes)
    (free : hashes.CollisionFree
      (assigned ++ (newAssignment hashes order queue blockHeight).toList))
    {index : Nat} (notPending : (queue.requests index).status ≠ .pending)
    (carries : (computeLifecycleUpdate hashes order (readAllRequests queue) outcomes
      blockHeight).newM6id = some (queue.requests index).bundleM6id) : False := by
  cases selected : selectedBundle hashes order queue blockHeight with
  | none =>
      rw [(update_of_not_selected _ selected).1] at carries
      cases carries
  | some bundle =>
      rw [(update_of_selected _ selected).1] at carries
      have bundles := selectedBundle_bundles selected
      rcases traced index notPending with ⟨_, _, assignment, member, inBundle, m6idEq⟩
      have isNew : ({ bundle := bundle, height := blockHeight } : Assignment) ∈
          assigned ++ (newAssignment hashes order queue blockHeight).toList := by
        simp [newAssignment, selected]
      have sameIndices := free.indices_eq isNew (List.mem_append_left _ member)
        bundles.commitment (commits assignment member)
        ((Option.some.inj carries).trans m6idEq)
      have inNew : index ∈ bundle.requestIndices.map UInt64.toNat := by
        change index ∈ ({ bundle := bundle, height := blockHeight } : Assignment).indices
        rw [sameIndices]
        exact inBundle
      have pending := of_decide_eq_true
        (mem_indicesWhere.mp (bundles.pending index inNew)).2
      exact notPending pending

/-- Settling a traced queue has the intended effect. -/
theorem intendedEffect_of_settles {assigned : List Assignment} {credited after : Storage}
    (traced : Traced hashes assigned queue)
    (commits : ∀ assignment ∈ assigned, assignment.Commits hashes)
    (free : hashes.CollisionFree
      (assigned ++ (newAssignment hashes order queue blockHeight).toList))
    (oneTerminal : OneTerminalEach outcomes) (growth : Grows queue credited)
    (settles : Settles (lifecycleCall hashes order queue outcomes blockHeight) credited
      after) :
    IntendedEffect (computeLifecycleUpdate hashes order (readAllRequests queue) outcomes
      blockHeight) outcomes queue credited after := by
  have accepts : Accepts queue (lifecycleCall hashes order queue outcomes blockHeight) :=
    lifecycleCall_accepts (oneTerminal.noConflict queue)
  have settled : ∀ index, index < queue.requestCount →
      after.requests index = settledRequest
        (lifecycleCall hashes order queue outcomes blockHeight) index
        (queue.requests index) :=
    (Settles.of_grows accepts growth settles).settled
  have bundledEq : (computeLifecycleUpdate hashes order (readAllRequests queue) outcomes
        blockHeight).bundledIndices.map UInt64.toNat =
      (lifecycleCall hashes order queue outcomes blockHeight).bundledIndices := rfl
  have succeededIff : ∀ index,
      index ∈ (lifecycleCall hashes order queue outcomes blockHeight).succeededIndices ↔
        (queue.requests index).status = .bundled ∧
          (queue.requests index).bundleM6id ∈ reported .succeeded outcomes := by
    intro index
    rw [lifecycleCall_succeededIndices]
    exact mem_flatMap_carriers traced
  have failedIff : ∀ index,
      index ∈ (lifecycleCall hashes order queue outcomes blockHeight).failedIndices ↔
        (queue.requests index).status = .bundled ∧
          (queue.requests index).bundleM6id ∈ reported .failed outcomes := by
    intro index
    rw [lifecycleCall_failedIndices]
    exact mem_flatMap_carriers traced
  have notBoth : ∀ m6id, m6id ∈ reported .succeeded outcomes →
      m6id ∉ reported .failed outcomes := fun m6id succeeded failed =>
    (List.nodup_append.mp oneTerminal).2.2 m6id succeeded m6id failed rfl
  constructor
  · intro index queued
    rw [settled index queued, bundledEq]
    by_cases selected : index ∈
        (lifecycleCall hashes order queue outcomes blockHeight).bundledIndices
    · have pending := accepts.bundled_pending index selected
      have newM6id : (computeLifecycleUpdate hashes order (readAllRequests queue) outcomes
          blockHeight).newM6id =
          some (lifecycleCall hashes order queue outcomes blockHeight).newM6id := by
        cases selectedEq : selectedBundle hashes order queue blockHeight with
        | none =>
            rw [lifecycleCall_bundledIndices, selectedEq] at selected
            cases selected
        | some bundle =>
            rw [(update_of_selected _ selectedEq).1, lifecycleCall_newM6id _ _ _ _ _ selectedEq]
      simp [settledRequest, selected, Request.bundle, pending, newM6id]
    · constructor
      · intro facts
        exfalso
        have unchanged : settledRequest
            (lifecycleCall hashes order queue outcomes blockHeight) index
            (queue.requests index) = queue.requests index := by
          have bundledAfter := facts.1
          unfold settledRequest at bundledAfter ⊢
          rw [if_neg selected] at bundledAfter ⊢
          split at bundledAfter
          · cases bundledAfter
          · split at bundledAfter
            · cases bundledAfter
            · rename_i notSucceeded notFailed
              rw [if_neg notSucceeded, if_neg notFailed]
        rw [unchanged] at facts
        exact selected_of_newM6id traced commits free (by simp [facts.1]) facts.2
      · exact fun facts => absurd facts.2 selected
  · intro index queued
    rw [settled index queued, settledRequest]
    by_cases selected : index ∈
        (lifecycleCall hashes order queue outcomes blockHeight).bundledIndices
    · simp [selected, Request.bundle, accepts.bundled_pending index selected]
    · rw [if_neg selected]
      simp only [succeededIff, failedIff]
      split
      · rename_i succeeded
        simp [Request.confirm, succeeded]
      · rename_i notSucceeded
        split
        · rename_i failed
          have notReported : (queue.requests index).bundleM6id ∉
              reported .succeeded outcomes := fun both => notSucceeded ⟨failed.1, both⟩
          simp [Request.refund, failed.1, notReported]
        · constructor
          · exact .inl
          · intro either
            rcases either with already | succeeded
            · exact already
            · exact absurd succeeded notSucceeded
  · intro index queued
    rw [settled index queued, settledRequest]
    by_cases selected : index ∈
        (lifecycleCall hashes order queue outcomes blockHeight).bundledIndices
    · simp [selected, Request.bundle, accepts.bundled_pending index selected]
    · rw [if_neg selected]
      simp only [succeededIff, failedIff]
      split
      · rename_i succeeded
        simp [Request.confirm, succeeded.1, notBoth _ succeeded.2]
      · split
        · rename_i failed
          simp [Request.refund, failed]
        · rename_i notFailed
          constructor
          · exact .inl
          · intro either
            rcases either with already | failed
            · exact already
            · exact absurd failed notFailed
  · intro index queued notNamed
    rw [settles.settled index queued, settledRequest]
    by_cases inParent : index < queue.requestCount
    · have named := notNamed inParent
      rw [bundledEq] at named
      have notResolved : ∀ status, reported status outcomes ⊆
          reported .succeeded outcomes ++ reported .failed outcomes →
          ¬ ((queue.requests index).status = .bundled ∧
            (queue.requests index).bundleM6id ∈ reported status outcomes) :=
        fun status subset facts => named.2 facts.1 (subset facts.2)
      rw [if_neg named.1, if_neg (mt (succeededIff index).mp (notResolved _ (by simp))),
        if_neg (mt (failedIff index).mp (notResolved _ (by simp)))]
    · have notListed : index ∉
          (lifecycleCall hashes order queue outcomes blockHeight).bundledIndices ++
          ((lifecycleCall hashes order queue outcomes blockHeight).succeededIndices ++
            (lifecycleCall hashes order queue outcomes blockHeight).failedIndices) :=
        fun member => inParent (accepts.queued index member)
      simp only [List.mem_append, not_or] at notListed
      rw [if_neg notListed.1, if_neg notListed.2.1, if_neg notListed.2.2]

end Effect

/-- On every reachable queue, whatever the deposit credits of the block did, the
call computed for the block is accepted by the contract, gas aside, and has
exactly the intended effect. -/
theorem lifecycle_call_effect (hashes : Hashes) (order : HashMapOrder)
    (sidechainId : UInt32) (genesisHash : B256) (withdrawalsRoot : Option B256)
    (history : List ExecutedBlock) (tip : Tip)
    (outcomes : List WithdrawalBundleOutcome) (blockHeight : UInt32)
    (depositEnv env : CallEnv) (deposits : List Deposit)
    (credited : Option ExecutionResult × World)
    (chain : Chain hashes sidechainId (.genesis genesisHash withdrawalsRoot) history tip)
    (free : hashes.CollisionFree (assignments hashes history ++
      (newAssignment hashes order tip.world.queue blockHeight).toList))
    (oneTerminal : OneTerminalEach outcomes)
    (creditedBy : creditDeposits depositEnv deposits tip.world = .ok credited)
    (unmetered : env.gasLimit = none) :
    let update := computeLifecycleUpdate hashes order (readAllRequests tip.world.queue)
      outcomes blockHeight
    ∃ next,
      systemReportBundleLifecycle env systemAddress update.toCalldata
        (.start env credited.2) = .ok next ∧
      IntendedEffect update outcomes tip.world.queue credited.2.queue next.world.queue := by
  intro update
  have growth := grows_creditDeposits creditedBy
  rcases lifecycleCall_settles hashes order blockHeight growth unmetered oneTerminal with
    ⟨next, returned, settles⟩
  exact ⟨next, returned, intendedEffect_of_settles (traced_of_chain rfl chain)
    (commits_of_chain chain) free oneTerminal growth settles⟩

/-! A deposit of 5 satoshis, of which the recipient asks for 3 back in block 1. -/

def withdrawalMainchain (events : Nat → List BlockEvent) : Mainchain where
  tree := Mainchain.linearTree
  hStar := fun _ => none
  events := fun block => events (Mainchain.linearNumber block)

/-- The digests of the only bundle of the chain, assigned at height 2. -/
def withdrawalHashes : Hashes where
  keccak256 := fun _ => ⟨
    [ 0xde, 0xac, 0x3e, 0x31, 0xa8, 0xd9, 0xe0, 0x21,
      0xd4, 0xf8, 0x0e, 0x33, 0x32, 0x47, 0x24, 0xbd,
      0xd8, 0xe6, 0xe1, 0xab, 0x45, 0x25, 0x6f, 0x05,
      0xfa, 0x93, 0xbe, 0x03, 0x09, 0xe5, 0x09, 0xe9],
    rfl⟩
  computeTxid := fun _ => ⟨
    [ 0x03, 0xcc, 0xb6, 0x83, 0xd7, 0xf9, 0xa5, 0xba,
      0x46, 0x61, 0xd0, 0x1c, 0xd6, 0x17, 0x2b, 0x52,
      0x90, 0x22, 0xa6, 0xdd, 0xdb, 0xd3, 0x09, 0x6a,
      0x77, 0x90, 0xa7, 0x54, 0xd5, 0xc0, 0x3d, 0xa8],
    rfl⟩

def requestingProposal (enforcer : Enforcer) : Proposal :=
  { Proposal.empty (.replicate 32 1) (Mainchain.linearBlock 1) enforcer with
    body :=
      { transactions := [.requestWithdrawal (.replicate 20 0x11) (3 * weiPerSat)
          (List.replicate 22 0xaa) 1]
        withdrawals := some [] } }

def depositAtBlockOne (number : Nat) : List BlockEvent :=
  if number = 1 then [depositEvent onesAddressHex 5] else []

theorem lifecycle_call_effect_first_request :
    ∃ history tip next,
      Chain withdrawalHashes 10 (.genesis (.replicate 32 0) none) history tip ∧
      tip.world.queue.requestCount = 1 ∧
      IntendedEffect (computeLifecycleUpdate withdrawalHashes .insertion
        (readAllRequests tip.world.queue) [] 2) [] tip.world.queue tip.world.queue next := by
  have executes : Meets (executeAll withdrawalHashes 10 (.genesis (.replicate 32 0) none)
        [requestingProposal ((withdrawalMainchain depositAtBlockOne).enforcer
          (Mainchain.linearBlock 1))])
      (fun result => (assignments withdrawalHashes result.1).length = 0 ∧
        result.2.world.queue.requestCount = 1)
      fun _ => False := by decide +kernel
  rcases executes.exists_ok (fun _ failed => failed) with
    ⟨result, resultEq, noBundle, oneRequest⟩
  have noAssignment := List.eq_nil_of_length_eq_zero noBundle
  have free : withdrawalHashes.CollisionFree (assignments withdrawalHashes result.1 ++
      (newAssignment withdrawalHashes .insertion result.2.world.queue 2).toList) := by
    apply Hashes.CollisionFree.of_length_le_one
    rw [noAssignment]
    cases newAssignment withdrawalHashes .insertion result.2.world.queue 2 <;> simp
  have chain := (chain_of_executeAll resultEq).1
  rcases lifecycle_call_effect withdrawalHashes .insertion 10 _ _ result.1 result.2 [] 2
    .unmetered .unmetered [] (none, result.2.world) chain free (by decide) rfl rfl with
    ⟨next, _, effect⟩
  exact ⟨result.1, result.2, next.world.queue, chain, oneRequest, effect⟩

end Beth
