import Beth.Contracts.DepositVault
import Beth.Node.WithdrawalBundle.Lifecycle

/-! # Block execution

`Bip300301BlockExecutor`: the two system calls made before the transactions of
a block. The provider is the node's database, and the execution of the
contracts is the one of the modules on them. -/

namespace Beth

open Foundation WithdrawalRequestQueue

/-! ## Headers and the provider -/

structure Header where
  parentHash : B256
  number : Nat
  extraData : Bytes
  withdrawalsRoot : Option B256
deriving DecidableEq

/-- The state after a block, as far as it is read: the storage of the queue. -/
structure StateProvider where
  queue : Except String Storage

structure Provider where
  header : B256 → Except String (Option Header)
  stateByBlockHash : B256 → Except String StateProvider

inductive BlockExecutionError
  | msg (text : String)
  | enforcer (failure : EnforcerError)
  | provider (text : String)
  | inner (text : String)
deriving DecidableEq

def orElseFail (result : Except ε α) (failure : ε → BlockExecutionError) :
    Except BlockExecutionError α :=
  match result with
  | .ok value => .ok value
  | .error cause => .error (failure cause)

/-! ## The executor -/

/-- An EIP-4895 withdrawal of a block body. -/
structure Withdrawal where
  address : Address
  amountGwei : UInt64
deriving DecidableEq

/-- One executor, with the parts of the inner executor it uses: the number of
the block, the failure of the inner pre-execution changes (which write to
neither predeploy and move no ether), and the EVM that runs each system call. -/
structure Bip300301BlockExecutor where
  enforcer : Enforcer
  sidechainId : UInt32
  provider : Provider
  parentHash : B256
  extraData : Bytes
  blockNumber : Nat
  innerFault : Option String
  depositEnv : CallEnv
  lifecycleEnv : CallEnv

/-- The state the pre-execution changes leave, with what they read and did on
the way. A result is absent when the system call was not made. -/
structure PreExecution where
  state : World
  deposits : List Deposit
  depositResult : Option ExecutionResult
  allRequests : List RequestEntry
  outcomes : List WithdrawalBundleOutcome
  update : BundleLifecycleUpdate
  lifecycleResult : Option ExecutionResult

def PreExecution.untouched (world : World) : PreExecution where
  state := world
  deposits := []
  depositResult := none
  allRequests := []
  outcomes := []
  update :=
    { bundledIndices := []
      newM6id := none
      succeededIndices := []
      failedIndices := [] }
  lifecycleResult := none

/-- The deposit call, or nothing when there is nothing to credit. -/
def depositsCalldata (deposits : List Deposit) :
    Option DepositVault.SystemCreditDepositsCall :=
  if deposits.isEmpty then none
  else
    some
      { recipients := deposits.map Deposit.address
        amountsSats := deposits.map fun deposit => deposit.valueSats.toNat }

theorem depositsCalldata_eq (deposits : List Deposit) :
    depositsCalldata deposits =
      if deposits = [] then none
      else some
        { recipients := (deposits.map fun deposit =>
            (deposit.address, deposit.valueSats.toNat)).map Prod.fst
          amountsSats := (deposits.map fun deposit =>
            (deposit.address, deposit.valueSats.toNat)).map Prod.snd } := by
  cases deposits <;> simp [depositsCalldata]

/-- `u32::try_from(block_number).unwrap_or(u32::MAX)` of the saturated number. -/
def blockHeight (number : Nat) : UInt32 := clampU32 (clampU64 number)

/-- The state of a system call is committed whatever its result. -/
def creditDeposits (env : CallEnv) (deposits : List Deposit) (world : World) :
    Except BlockExecutionError (Option ExecutionResult × World) :=
  match depositsCalldata deposits with
  | none => .ok (none, world)
  | some call => do
      let called ← orElseFail (transactSystemCall env
        (DepositVault.systemCreditDeposits env systemAddress call) world) .msg
      pure (some called.result, called.state)

def reportLifecycle (env : CallEnv) (update : BundleLifecycleUpdate) (world : World) :
    Except BlockExecutionError (Option ExecutionResult × World) :=
  if update.isEmpty then .ok (none, world)
  else do
    let called ← orElseFail (transactSystemCall env
      (systemReportBundleLifecycle env systemAddress update.toCalldata) world) .msg
    pure (some called.result, called.state)

def parentHeaderNotFound (parentHash : B256) : BlockExecutionError :=
  .msg ("parent header 0x" ++ hexEncode parentHash.bytes ++ " not found")

def Bip300301BlockExecutor.applyPreExecutionChanges (hashes : Hashes)
    (order : HashMapOrder) (executor : Bip300301BlockExecutor) (world : World) :
    Except BlockExecutionError PreExecution :=
  match executor.innerFault with
  | some text => .error (.inner text)
  | none =>
      let blockNumber := clampU64 executor.blockNumber
      -- Genesis carries no BIP301 provenance and has no prior queue state.
      if blockNumber = 0 then .ok (.untouched world)
      else do
        let found ← orElseFail (executor.provider.header executor.parentHash) .provider
        match found with
        | none => .error (parentHeaderNotFound executor.parentHash)
        | some parentHeader =>
            let parentMainHash := FixedBytes.tryFrom 32 parentHeader.extraData
            match FixedBytes.tryFrom 32 executor.extraData with
            | none => .error (.msg "block extraData must be exactly 32 bytes")
            | some mainHash => do
                let deposits ← orElseFail (EnforcerClient.deposits executor.enforcer
                  executor.sidechainId parentMainHash mainHash) .enforcer
                let credited ← creditDeposits executor.depositEnv deposits world
                let state ← orElseFail
                  (executor.provider.stateByBlockHash executor.parentHash) .provider
                let queue ← orElseFail state.queue .provider
                let allRequests := readAllRequests queue
                let outcomes ← orElseFail (EnforcerClient.withdrawalBundleEvents
                  executor.enforcer executor.sidechainId parentMainHash mainHash) .enforcer
                let update := computeLifecycleUpdate hashes order allRequests outcomes
                  (clampU32 blockNumber)
                let reported ← reportLifecycle executor.lifecycleEnv update credited.2
                pure
                  { state := reported.2
                    deposits := deposits
                    depositResult := credited.1
                    allRequests := allRequests
                    outcomes := outcomes
                    update := update
                    lifecycleResult := reported.1 }

/-- `finish` leaves the withdrawals of the body to the inner executor, which
adds each to its recipient's balance. -/
def finish (withdrawals : List Withdrawal) (world : World) : World :=
  withdrawals.foldl (fun world withdrawal =>
    { world with
      balances := world.balances.credit withdrawal.address
        (withdrawal.amountGwei.toNat * 10 ^ 9) }) world

@[simp] theorem finish_queue (withdrawals : List Withdrawal) (world : World) :
    (finish withdrawals world).queue = world.queue := by
  induction withdrawals generalizing world with
  | nil => rfl
  | cons withdrawal rest induction => exact induction _

theorem le_finish_balances (withdrawals : List Withdrawal) (world : World)
    (account : Address) :
    world.balances account ≤ (finish withdrawals world).balances account := by
  induction withdrawals generalizing world with
  | nil => exact le_rfl
  | cons withdrawal rest induction =>
      refine le_trans ?_ (induction _)
      dsimp only
      rw [Ledger.credit_apply]
      exact Nat.le_add_right _ _

/-! ## What a successful execution tells -/

theorem orElseFail_eq_ok {result : Except ε α} {failure : ε → BlockExecutionError}
    {value : α} : orElseFail result failure = .ok value ↔ result = .ok value := by
  cases result <;> simp [orElseFail]

theorem orElseFail_meets {result : Except ε α} (failure : ε → BlockExecutionError)
    {throws : BlockExecutionError → Prop}
    (fails : ∀ cause, result = .error cause → throws (failure cause)) :
    Meets (orElseFail result failure) (fun value => result = .ok value) throws := by
  cases result with
  | ok value => rfl
  | error cause => exact fails cause rfl

/-- Every intermediate result of a successful execution of a block other than
genesis. -/
structure PreExecuted (hashes : Hashes) (order : HashMapOrder)
    (executor : Bip300301BlockExecutor) (world : World) (done : PreExecution)
    (parentHeader : Header) (mainHash : B256) (credited : World) (queue : Storage) :
    Prop where
  headerFound : executor.provider.header executor.parentHash = .ok (some parentHeader)
  mainHashFound : FixedBytes.tryFrom 32 executor.extraData = some mainHash
  depositsFound : EnforcerClient.deposits executor.enforcer executor.sidechainId
    (FixedBytes.tryFrom 32 parentHeader.extraData) mainHash = .ok done.deposits
  creditedBy : creditDeposits executor.depositEnv done.deposits world =
    .ok (done.depositResult, credited)
  queueRead : ∃ state, executor.provider.stateByBlockHash executor.parentHash = .ok state ∧
    state.queue = .ok queue
  requestsRead : done.allRequests = readAllRequests queue
  outcomesFound : EnforcerClient.withdrawalBundleEvents executor.enforcer executor.sidechainId
    (FixedBytes.tryFrom 32 parentHeader.extraData) mainHash = .ok done.outcomes
  updateComputed : done.update = computeLifecycleUpdate hashes order (readAllRequests queue)
    done.outcomes (blockHeight executor.blockNumber)
  reportedBy : reportLifecycle executor.lifecycleEnv done.update credited =
    .ok (done.lifecycleResult, done.state)

theorem preExecuted_of_ok {hashes : Hashes} {order : HashMapOrder}
    {executor : Bip300301BlockExecutor} {world : World} {done : PreExecution}
    (numbered : clampU64 executor.blockNumber ≠ 0)
    (returned : executor.applyPreExecutionChanges hashes order world = .ok done) :
    ∃ parentHeader mainHash credited queue,
      PreExecuted hashes order executor world done parentHeader mainHash credited queue := by
  unfold Bip300301BlockExecutor.applyPreExecutionChanges at returned
  split at returned
  · cases returned
  · dsimp only at returned
    rw [if_neg numbered] at returned
    rcases bind_eq_ok.mp returned with ⟨found, foundEq, returned⟩
    cases found with
    | none => cases returned
    | some parentHeader =>
        dsimp only at returned
        split at returned
        · cases returned
        · rename_i mainHash mainHashEq
          rcases bind_eq_ok.mp returned with ⟨deposits, depositsEq, returned⟩
          rcases bind_eq_ok.mp returned with ⟨credited, creditedEq, returned⟩
          rcases bind_eq_ok.mp returned with ⟨state, stateEq, returned⟩
          rcases bind_eq_ok.mp returned with ⟨queue, queueEq, returned⟩
          rcases bind_eq_ok.mp returned with ⟨outcomes, outcomesEq, returned⟩
          rcases bind_eq_ok.mp returned with ⟨reported, reportedEq, returned⟩
          cases returned
          exact ⟨parentHeader, mainHash, credited.2, queue,
            { headerFound := orElseFail_eq_ok.mp foundEq
              mainHashFound := mainHashEq
              depositsFound := orElseFail_eq_ok.mp depositsEq
              creditedBy := creditedEq
              queueRead := ⟨state, orElseFail_eq_ok.mp stateEq, orElseFail_eq_ok.mp queueEq⟩
              requestsRead := rfl
              outcomesFound := orElseFail_eq_ok.mp outcomesEq
              updateComputed := rfl
              reportedBy := reportedEq }⟩

/-- A block with nothing to credit and nothing to report leaves the state. -/
theorem PreExecuted.state_eq_of_idle {hashes : Hashes} {order : HashMapOrder}
    {executor : Bip300301BlockExecutor} {world credited : World} {done : PreExecution}
    {parentHeader : Header} {mainHash : B256} {queue : Storage}
    (facts : PreExecuted hashes order executor world done parentHeader mainHash credited
      queue)
    (noDeposits : done.deposits.isEmpty) (noUpdate : done.update.isEmpty) :
    done.state = world := by
  have creditedBy := facts.creditedBy
  have reportedBy := facts.reportedBy
  rw [creditDeposits, depositsCalldata, if_pos noDeposits] at creditedBy
  rw [reportLifecycle, if_pos noUpdate] at reportedBy
  have creditedIs := (Prod.mk.inj (Except.ok.inj creditedBy)).2
  have stateIs := (Prod.mk.inj (Except.ok.inj reportedBy)).2
  rw [← stateIs, creditedIs]

end Beth
