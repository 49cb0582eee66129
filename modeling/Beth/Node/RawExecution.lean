import Beth.Contracts.Calldata
import Beth.Node.Evm
import Beth.Node.StorageReader

/-! # Block execution on bytes

The pre-execution changes as a node makes them: it reads the requests from raw
storage slots and sends each contract the bytes of a call. -/

namespace Beth

open Foundation WithdrawalRequestQueue

/-- A provider whose states answer for single slots. -/
structure RawProvider where
  header : B256 → Except String (Option Header)
  stateByBlockHash : B256 → Except String StorageReader.StateProvider

section Encoding

variable (keccak256 : Bytes → B256)

/-- The selectors the `sol!` declarations of the node give rise to. -/
def systemCreditDepositsSelector : FixedBytes 4 :=
  selectorOf keccak256 "systemCreditDeposits(address[],uint256[])"

def systemReportBundleLifecycleSelector : FixedBytes 4 :=
  selectorOf keccak256 "systemReportBundleLifecycle(uint256[],bytes32,uint256[],uint256[])"

/-- `deposits_calldata`. -/
def encodedDeposits (deposits : List Deposit) : Option Bytes :=
  if deposits.isEmpty then none
  else
    some ((systemCreditDepositsSelector keccak256).bytes ++ Abi.encode
      [.words (deposits.map fun deposit => addressWord deposit.address),
        .words (deposits.map fun deposit => numberWord deposit.valueSats.toNat)])

/-- `BundleLifecycleUpdate::to_calldata`. -/
def BundleLifecycleUpdate.encoded (update : BundleLifecycleUpdate) : Bytes :=
  (systemReportBundleLifecycleSelector keccak256).bytes ++ Abi.encode
    [.words (update.bundledIndices.map fun index => numberWord index.toNat),
      .word (wordOfBytes (update.newM6id.getD (.replicate 32 0)).bytes),
      .words (update.succeededIndices.map fun index => numberWord index.toNat),
      .words (update.failedIndices.map fun index => numberWord index.toNat)]

def creditDepositsRaw (env : CallEnv) (deposits : List Deposit) (world : World) :
    Except BlockExecutionError (Option ExecutionResult × World) :=
  match encodedDeposits keccak256 deposits with
  | none => .ok (none, world)
  | some calldata => do
      let called ← orElseFail (transactSystemCall env
        (runCode keccak256 env depositVaultAddress systemAddress 0 calldata) world) .msg
      pure (some called.result, called.state)

def reportLifecycleRaw (env : CallEnv) (update : BundleLifecycleUpdate) (world : World) :
    Except BlockExecutionError (Option ExecutionResult × World) :=
  if update.isEmpty then .ok (none, world)
  else do
    let called ← orElseFail (transactSystemCall env
      (runCode keccak256 env withdrawalRequestQueueAddress systemAddress 0
        (update.encoded keccak256)) world) .msg
    pure (some called.result, called.state)

end Encoding

/-- `apply_pre_execution_changes` on top of a raw provider. -/
def Bip300301BlockExecutor.applyPreExecutionChangesRaw (hashes : Hashes)
    (order : HashMapOrder) (provider : RawProvider) (executor : Bip300301BlockExecutor)
    (world : World) : Except BlockExecutionError PreExecution :=
  match executor.innerFault with
  | some text => .error (.inner text)
  | none =>
      let blockNumber := clampU64 executor.blockNumber
      if blockNumber = 0 then .ok (.untouched world)
      else do
        let found ← orElseFail (provider.header executor.parentHash) .provider
        match found with
        | none => .error (parentHeaderNotFound executor.parentHash)
        | some parentHeader =>
            let parentMainHash := FixedBytes.tryFrom 32 parentHeader.extraData
            match FixedBytes.tryFrom 32 executor.extraData with
            | none => .error (.msg "block extraData must be exactly 32 bytes")
            | some mainHash => do
                let deposits ← orElseFail (EnforcerClient.deposits executor.enforcer
                  executor.sidechainId parentMainHash mainHash) .enforcer
                let credited ← creditDepositsRaw hashes.keccak256 executor.depositEnv deposits
                  world
                let state ← orElseFail (provider.stateByBlockHash executor.parentHash)
                  .provider
                let allRequests ← orElseFail
                  (StorageReader.readAllRequests hashes.keccak256 state) .provider
                let outcomes ← orElseFail (EnforcerClient.withdrawalBundleEvents
                  executor.enforcer executor.sidechainId parentMainHash mainHash) .enforcer
                let update := computeLifecycleUpdate hashes order allRequests outcomes
                  (clampU32 blockNumber)
                let reported ← reportLifecycleRaw hashes.keccak256 executor.lifecycleEnv update
                  credited.2
                pure
                  { state := reported.2
                    deposits := deposits
                    depositResult := credited.1
                    allRequests := allRequests
                    outcomes := outcomes
                    update := update
                    lifecycleResult := reported.1 }

/-! ## The bytes make the calls -/

section Calls

variable {keccak256 : Bytes → B256} {env : CallEnv}

theorem toNat_lt_word (value : UInt64) : value.toNat < 2 ^ 256 :=
  value.toNat_lt.trans (by norm_num)

/-- Call data held in memory credits the deposits. -/
theorem creditDepositsRaw_eq {deposits : List Deposit}
    (bounded : ∀ calldata ∈ encodedDeposits keccak256 deposits, calldata.length < 2 ^ 64)
    (world : World) :
    creditDepositsRaw keccak256 env deposits world = creditDeposits env deposits world := by
  rw [creditDepositsRaw, creditDeposits, encodedDeposits, depositsCalldata]
  rw [encodedDeposits] at bounded
  by_cases isEmpty : deposits.isEmpty
  · rw [if_pos isEmpty, if_pos isEmpty]
  · rw [if_neg isEmpty] at bounded
    rw [if_neg isEmpty, if_neg isEmpty]
    let call : DepositVault.SystemCreditDepositsCall :=
      { recipients := deposits.map Deposit.address
        amountsSats := deposits.map fun deposit => deposit.valueSats.toNat }
    have encodedIs : (systemCreditDepositsSelector keccak256).bytes ++ Abi.encode
        [.words (deposits.map fun deposit => addressWord deposit.address),
          .words (deposits.map fun deposit => numberWord deposit.valueSats.toNat)] =
        call.encode (DepositVault.systemCreditDepositsFunction keccak256).selector := by
      rw [DepositVault.SystemCreditDepositsCall.encode, List.map_map, List.map_map]
      rfl
    have fit : ∀ amountSats ∈ call.amountsSats, amountSats < 2 ^ 256 := by
      intro amountSats member
      rcases List.mem_map.mp member with ⟨deposit, _, isAmount⟩
      exact isAmount ▸ toNat_lt_word deposit.valueSats
    have sameBody : runCode keccak256 env depositVaultAddress systemAddress 0
        (call.encode (DepositVault.systemCreditDepositsFunction keccak256).selector) =
          DepositVault.systemCreditDeposits env systemAddress call := by
      funext frame
      rw [runCode, if_pos rfl]
      apply DepositVault.run_encode env systemAddress fit
      exact encodedIs ▸ bounded _ rfl
    dsimp only
    rw [encodedIs, sameBody]

/-- Call data held in memory reports the lifecycle. -/
theorem reportLifecycleRaw_eq (distinct : SelectorsDistinct keccak256)
    {update : BundleLifecycleUpdate} (bounded : (update.encoded keccak256).length < 2 ^ 64)
    (world : World) :
    reportLifecycleRaw keccak256 env update world = reportLifecycle env update world := by
  let invocation : Invocation := .systemReportBundleLifecycle
    (update.bundledIndices.map fun index => numberWord index.toNat)
    (wordOfBytes (update.newM6id.getD (.replicate 32 0)).bytes)
    (update.succeededIndices.map fun index => numberWord index.toNat)
    (update.failedIndices.map fun index => numberWord index.toNat)
  have indices : ∀ list : List UInt64,
      (list.map fun index => numberWord index.toNat).map BitVec.toNat =
        list.map UInt64.toNat := by
    intro list
    rw [List.map_map]
    exact List.map_congr_left fun index _ => toNat_numberWord (toNat_lt_word index)
  have sameBody : runCode keccak256 env withdrawalRequestQueueAddress systemAddress 0
      (update.encoded keccak256) =
        systemReportBundleLifecycle env systemAddress update.toCalldata := by
    funext frame
    have ran : WithdrawalRequestQueue.run keccak256 env systemAddress 0
        (update.encoded keccak256) frame = invocation.execute env systemAddress 0 frame :=
      invocation.run_encode distinct env systemAddress (Or.inr rfl) bounded frame
    rw [runCode, if_neg queue_ne_vault, if_pos rfl, ran, Invocation.execute, indices, indices,
      indices, b256OfWord_wordOfBytes]
    change Except.map _ (systemReportBundleLifecycle env systemAddress update.toCalldata frame
      >>= _) = _
    cases systemReportBundleLifecycle env systemAddress update.toCalldata frame <;> rfl
  rw [reportLifecycleRaw, reportLifecycle, sameBody]

end Calls

/-- What a successful execution read and did, an execution on bytes reads and does. -/
theorem PreExecuted.raw {hashes : Hashes} {order : HashMapOrder}
    {executor : Bip300301BlockExecutor} {world credited : World} {done : PreExecution}
    {parentHeader : Header} {mainHash : B256} {queue : Storage}
    (facts : PreExecuted hashes order executor world done parentHeader mainHash credited queue)
    (noFault : executor.innerFault = none) (numbered : clampU64 executor.blockNumber ≠ 0)
    (distinct : SelectorsDistinct hashes.keccak256)
    (depositsBounded : ∀ calldata ∈ encodedDeposits hashes.keccak256 done.deposits,
      calldata.length < 2 ^ 64)
    (updateBounded : (done.update.encoded hashes.keccak256).length < 2 ^ 64)
    {provider : RawProvider} {state : StorageReader.StateProvider}
    (header : provider.header executor.parentHash = .ok (some parentHeader))
    (hasState : provider.stateByBlockHash executor.parentHash = .ok state)
    (read : StorageReader.readAllRequests hashes.keccak256 state =
      .ok (readAllRequests queue)) :
    executor.applyPreExecutionChangesRaw hashes order provider world = .ok done := by
  have creditedBy := facts.creditedBy
  have reportedBy := facts.reportedBy
  rw [← creditDepositsRaw_eq depositsBounded] at creditedBy
  rw [← reportLifecycleRaw_eq distinct updateBounded, facts.updateComputed] at reportedBy
  unfold Bip300301BlockExecutor.applyPreExecutionChangesRaw
  rw [noFault]
  dsimp only
  rw [if_neg numbered, orElseFail_eq_ok.mpr header, ok_bind]
  dsimp only
  rw [facts.mainHashFound]
  dsimp only
  rw [orElseFail_eq_ok.mpr facts.depositsFound, ok_bind, creditedBy, ok_bind,
    orElseFail_eq_ok.mpr hasState, ok_bind, orElseFail_eq_ok.mpr read, ok_bind,
    orElseFail_eq_ok.mpr facts.outcomesFound, ok_bind]
  change reportLifecycleRaw _ _ (computeLifecycleUpdate hashes order (readAllRequests queue)
    done.outcomes (blockHeight executor.blockNumber)) _ >>= _ = _
  rw [reportedBy, ok_bind]
  have requestsRead := facts.requestsRead
  have updateComputed := facts.updateComputed
  cases done
  dsimp only at requestsRead updateComputed ⊢
  rw [requestsRead, updateComputed]
  rfl

end Beth
