import Beth.Properties.BundledOnce

/-! # System calls whose failure goes unnoticed

The executor commits the state of a system call whatever its result. A block is
executed all the same when the deposit call or the lifecycle call fails, and
then leaves the queue or the balances as if there had been nothing to do. -/

namespace Beth

open Foundation WithdrawalRequestQueue

/-- Every system call the block made succeeded. -/
structure SystemCallsSucceed (executed : ExecutedBlock) : Prop where
  deposits : ∀ result ∈ executed.done.depositResult, result.isSuccess
  lifecycle : ∀ result ∈ executed.done.lifecycleResult, result.isSuccess

/-- The block took complete effect: an event for every deposit, and every
request of the parent settled. -/
structure CompleteEffect (hashes : Hashes) (tip : Tip) (executed : ExecutedBlock) :
    Prop where
  deposits : executed.done.deposits ≠ [] →
    ∃ events, executed.done.depositResult = some (.success events) ∧
      List.Forall₂ DepositVault.Reports
        (executed.done.deposits.map fun deposit =>
          (deposit.address, deposit.valueSats.toNat))
        events
  lifecycle : Settles (lifecycleCall hashes executed.order tip.world.queue
    executed.done.outcomes executed.height) tip.world.queue executed.done.state.queue

/-- The system calls of the block have gas enough to reach their end. -/
structure EnoughGas (tip : Tip) (executed : ExecutedBlock) : Prop where
  deposits : ∀ call ∈ depositsCalldata executed.done.deposits,
    ¬ RunsOutOfGas executed.depositEnv
      (DepositVault.systemCreditDeposits executed.depositEnv systemAddress call) tip.world
  lifecycle : ∀ credited,
    creditDeposits executed.depositEnv executed.done.deposits tip.world = .ok credited →
    executed.done.update.isEmpty = false →
    ¬ RunsOutOfGas executed.lifecycleEnv
      (systemReportBundleLifecycle executed.lifecycleEnv systemAddress
        executed.done.update.toCalldata) credited.2

/-! ## The deposit call -/

/-- The deposit call fails only for lack of gas, and otherwise reports every
deposit. -/
theorem creditDeposits_result {env : CallEnv} {deposits : List Deposit} {world : World}
    {credited : Option ExecutionResult × World}
    (returned : creditDeposits env deposits world = .ok credited) :
    ((∀ result ∈ credited.1, result.isSuccess) ↔
      ∀ call ∈ depositsCalldata deposits, ¬ RunsOutOfGas env
        (DepositVault.systemCreditDeposits env systemAddress call) world) ∧
    ((∀ result ∈ credited.1, result.isSuccess) → deposits ≠ [] →
      ∃ events, credited.1 = some (.success events) ∧
        List.Forall₂ DepositVault.Reports
          (deposits.map fun deposit => (deposit.address, deposit.valueSats.toNat)) events) := by
  unfold creditDeposits at returned
  rw [depositsCalldata_eq] at returned ⊢
  by_cases noDeposits : deposits = []
  · rw [if_pos noDeposits] at returned ⊢
    cases returned
    exact ⟨by simp, fun _ some => absurd noDeposits some⟩
  · rw [if_neg noDeposits] at returned ⊢
    rcases bind_eq_ok.mp returned with ⟨called, calledEq, isCalled⟩
    cases isCalled
    have made := orElseFail_eq_ok.mp calledEq
    have bodyMeets := DepositVault.systemCreditDeposits_meets env
      (deposits.map fun deposit => (deposit.address, deposit.valueSats.toNat))
      (by
        intro pair member
        rcases List.mem_map.mp member with ⟨deposit, _, pairEq⟩
        rw [← pairEq]
        exact deposit.valueSats.toNat_lt) (.start env world)
    have iff := transactSystemCall_success_iff bodyMeets made
    constructor
    · simpa using iff
    · intro success _
      rcases returned_of_success made (success _ rfl) with ⟨frame, ended, _, resultEq⟩
      rcases bodyMeets.returns_of_eq_ok ended with ⟨events, logsEq, reported⟩
      refine ⟨events, ?_, reported⟩
      change some called.result = _
      rw [resultEq, logsEq]
      rfl

/-! ## The lifecycle call -/

/-- The lifecycle call fails for lack of gas or on conflicting outcomes, and
otherwise settles the queue. -/
theorem reportLifecycle_result {hashes : Hashes} {order : HashMapOrder} {queue : Storage}
    {outcomes : List WithdrawalBundleOutcome} {blockHeight : UInt32} {env : CallEnv}
    {world : World} {update : BundleLifecycleUpdate}
    {reported : Option ExecutionResult × World}
    (updateEq : update = computeLifecycleUpdate hashes order (readAllRequests queue)
      outcomes blockHeight)
    (growth : Grows queue world.queue)
    (returned : reportLifecycle env update world = .ok reported) :
    ((∀ result ∈ reported.1, result.isSuccess) ↔
      (update.isEmpty = false → ¬ RunsOutOfGas env
        (systemReportBundleLifecycle env systemAddress update.toCalldata) world) ∧
      NoConflict queue outcomes) ∧
    ((∀ result ∈ reported.1, result.isSuccess) →
      Settles update.toCalldata world.queue reported.2.queue) := by
  have callEq : update.toCalldata =
      lifecycleCall hashes order queue outcomes blockHeight := by rw [updateEq]; rfl
  unfold reportLifecycle at returned
  split at returned
  · rename_i isEmpty
    cases returned
    simp only [BundleLifecycleUpdate.isEmpty, Bool.and_eq_true, List.isEmpty_iff] at isEmpty
    have noneSucceeded : update.toCalldata.succeededIndices = [] := by
      simp [BundleLifecycleUpdate.toCalldata, isEmpty]
    have noneFailed : update.toCalldata.failedIndices = [] := by
      simp [BundleLifecycleUpdate.toCalldata, isEmpty]
    have noConflict : NoConflict queue outcomes := by
      rw [← lifecycleCall_resolved_nodup_iff hashes order blockHeight,
        ← callEq, noneSucceeded, noneFailed]
      exact List.nodup_nil
    exact ⟨by simp [BundleLifecycleUpdate.isEmpty, isEmpty, noConflict], fun _ =>
      .of_empty (by simp [BundleLifecycleUpdate.toCalldata, isEmpty]) noneSucceeded
        noneFailed _⟩
  · rename_i notEmpty
    rcases bind_eq_ok.mp returned with ⟨called, calledEq, isCalled⟩
    cases isCalled
    have made := orElseFail_eq_ok.mp calledEq
    have queued : ∀ index ∈ update.toCalldata.bundledIndices ++
        (update.toCalldata.succeededIndices ++ update.toCalldata.failedIndices),
        index < queue.requestCount := by
      intro index member
      rw [callEq] at member
      exact (lifecycleCall_readable member).trans_le (readableCount_le queue)
    have resolved := systemReportBundleLifecycle_resolved_nodup env update.toCalldata
      (.start env world) (by rw [callEq]; exact lifecycleCall_bundled_nodup)
      (by
        intro index member
        change (world.queue.requests index).status = .pending
        rw [growth.kept index (queued index (by simp [member]))]
        rw [callEq] at member
        exact (lifecycleCall_bundled_pending member).2)
      (fun index member => (queued index member).trans_le growth.count_le)
    have settlesOf : NoConflict queue outcomes →
        Meets (systemReportBundleLifecycle env systemAddress update.toCalldata
          (.start env world))
          (fun next => Settles update.toCalldata world.queue next.world.queue)
          (· = .outOfGas) := by
      intro noConflict
      have accepts : Accepts world.queue update.toCalldata := by
        rw [callEq]
        exact (lifecycleCall_accepts noConflict).of_grows growth
      exact (systemReportBundleLifecycle_meets env _ (.start env world) accepts).mono
        (fun _ settles => settles) fun _ failed => failed.1
    have conflictFree : called.result.isSuccess → NoConflict queue outcomes := by
      intro success
      rcases returned_of_success made success with ⟨frame, ended, _⟩
      rw [← lifecycleCall_resolved_nodup_iff hashes order blockHeight,
        ← callEq]
      exact resolved.returns_of_eq_ok ended
    constructor
    · constructor
      · intro success
        have noConflict := conflictFree (success _ rfl)
        exact ⟨fun _ => (transactSystemCall_success_iff (settlesOf noConflict) made).mp
          (success _ rfl), noConflict⟩
      · intro condition result isResult
        cases isResult
        exact (transactSystemCall_success_iff (settlesOf condition.2) made).mpr
          (condition.1 (by simpa using notEmpty))
    · intro success
      rcases returned_of_success made (success _ rfl) with ⟨frame, ended, stateEq, _⟩
      change Settles update.toCalldata world.queue called.state.queue
      rw [stateEq]
      exact (settlesOf (conflictFree (success _ rfl))).returns_of_eq_ok ended

/-! ## The property and its condition -/

/-! The deposit of block 1, and block 3 when the mainchain reports the bundle of
block 2 as both succeeded and failed. -/

def conflictingEvents (number : Nat) : List BlockEvent :=
  if number = 3 then
    [.succeeded, .failed].map (bundleEvent (withdrawalHashes.computeTxid
      { version := 2
        lockTime := 0
        input := []
        output := [] }))
  else depositAtBlockOne number

def conflictingProposals : List Proposal :=
  let enforcer := (withdrawalMainchain conflictingEvents).enforcer (Mainchain.linearBlock 3)
  [requestingProposal enforcer,
    .empty (.replicate 32 2) (Mainchain.linearBlock 2) enforcer,
    .empty (.replicate 32 3) (Mainchain.linearBlock 3) enforcer]

end Beth
