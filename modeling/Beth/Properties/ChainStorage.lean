import Beth.Contracts.MachineRuns
import Beth.Node.RawExecution
import Beth.Properties.LifecycleCall
import Beth.Properties.StorageReading

/-! # The storage of a chain

Every chain of blocks is a run of the machine, so that the slots of its blocks
hold what the other results on chains say of the queue, and a node that reads
single slots and sends encoded calls executes the blocks of the chain. -/

namespace Beth

open Foundation

namespace DepositVault

theorem creditDeposit_ok {env : CallEnv} {recipient : Address} {amountSats : Nat}
    {frame next : Frame}
    (returned : creditDeposit env recipient amountSats frame = .ok next) :
    ∃ amountWei success, Frame.PaymentEffect depositVaultAddress recipient amountWei
      frame.world success next.world := by
  unfold creditDeposit at returned
  rcases bind_eq_ok.mp returned with ⟨charged, charging, returned⟩
  have sameWorld := ((frame.charge_meets _).returns_of_eq_ok charging).1
  rcases bind_eq_ok.mp returned with ⟨amountWei, _, returned⟩
  dsimp only at returned
  have effect := charged.call_effect env depositVaultAddress recipient amountWei
  rcases bind_eq_ok.mp returned with ⟨after, afterCall, isNext⟩
  have worldAfter := ((Frame.charge_meets _ _).returns_of_eq_ok afterCall).1
  rw [← Except.ok.inj isNext, Frame.emit_world, worldAfter]
  exact ⟨amountWei, _, sameWorld ▸ effect⟩

end DepositVault

open WithdrawalRequestQueue

namespace MachineChain

variable {keccak256 : Bytes → B256}

/-! ## Transactions and payments with no frame open -/

/-- Some account, to run the user code of a list of transactions. -/
def anyAccount : UserAccount where
  address := addressOfNat 0
  notPredeploy := by decide

theorem reaches_transactions {actions : List UserAction} {journal : Journal}
    (short : (runUserCode actions journal.world).queue.ShortDestinations) :
    MachineState.Reaches keccak256 { journal := journal, stack := [] }
      (runUserCode actions journal.world) [] := by
  apply MachineState.reaches_step (.transact anyAccount) rfl
  apply (MachineState.reaches_runUserCode short anyAccount journal []).trans
  intro after isWorld
  apply MachineState.reaches_step .leave rfl
  exact isWorld ▸ MachineState.reaches_refl after _

/-- A payment by the vault, with what the code of its payee does. -/
theorem reaches_vaultPayment {recipient : Address} {amountWei : Nat} {journal : Journal}
    {success : Bool} {world : World}
    (effect : Frame.PaymentEffect depositVaultAddress recipient amountWei journal.world success
      world)
    (short : world.queue.ShortDestinations) :
    MachineState.Reaches keccak256 { journal := journal, stack := [] } world [] := by
  cases effect with
  | rejected => exact MachineState.reaches_refl journal _
  | paid actions _ _ =>
      apply MachineState.reaches_step (.spend depositVaultAddress amountWei)
        (if_neg (t := none) queue_ne_vault.symm)
      apply MachineState.reaches_step (.credit recipient amountWei) rfl
      exact reaches_transactions short

/-- The withdrawals of a body are credits. -/
theorem reaches_finish (withdrawals : List Withdrawal) (journal : Journal) :
    MachineState.Reaches keccak256 { journal := journal, stack := [] }
      (finish withdrawals journal.world) [] := by
  induction withdrawals generalizing journal with
  | nil => exact MachineState.reaches_refl journal _
  | cons withdrawal rest induction =>
      apply MachineState.reaches_step
        (.credit withdrawal.address (withdrawal.amountGwei.toNat * 10 ^ 9)) rfl
      exact induction _

/-! ## The two system calls -/

theorem grows_creditLoop {env : CallEnv} {recipients : List Address} {amountsSats : List Nat}
    {frame next : Frame}
    (returned : DepositVault.creditLoop env recipients amountsSats frame = .ok next) :
    Grows frame.world.queue next.world.queue := by
  induction recipients generalizing amountsSats frame with
  | nil =>
      cases returned
      exact .refl _
  | cons recipient rest induction =>
      cases amountsSats with
      | nil => cases returned
      | cons amountSats others =>
          rcases bind_eq_ok.mp returned with ⟨middle, first, later⟩
          rcases DepositVault.creditDeposit_ok first with ⟨amountWei, success, effect⟩
          exact (grows_of_payment effect).trans (induction later)

theorem reaches_creditLoop {env : CallEnv} {recipients : List Address}
    {amountsSats : List Nat} {frame next : Frame} {journal : Journal}
    (returned : DepositVault.creditLoop env recipients amountsSats frame = .ok next)
    (short : next.world.queue.ShortDestinations) (isWorld : journal.world = frame.world) :
    MachineState.Reaches keccak256 { journal := journal, stack := [] } next.world [] := by
  induction recipients generalizing amountsSats frame journal with
  | nil =>
      cases returned
      exact isWorld ▸ MachineState.reaches_refl journal _
  | cons recipient rest induction =>
      cases amountsSats with
      | nil => cases returned
      | cons amountSats others =>
          rcases bind_eq_ok.mp returned with ⟨middle, first, later⟩
          rcases DepositVault.creditDeposit_ok first with ⟨amountWei, success, effect⟩
          rw [← isWorld] at effect
          apply (reaches_vaultPayment effect (short.of_grows (grows_creditLoop later))).trans
          intro after isMiddle
          exact induction later isMiddle

/-- A system call that fails leaves the world. -/
theorem reaches_systemCall {env : CallEnv} {body : Frame → Except CallFailure Frame}
    {journal : Journal} {called : ResultAndState}
    (returned : transactSystemCall env body journal.world = .ok called)
    (runs : ∀ frame, body (.start env journal.world) = .ok frame →
      called.state = frame.world →
      MachineState.Reaches keccak256 { journal := journal, stack := [] } frame.world []) :
    MachineState.Reaches keccak256 { journal := journal, stack := [] } called.state [] := by
  unfold transactSystemCall at returned
  split at returned
  · cases returned
  · split at returned
    · rename_i frame ended
      cases returned
      exact runs frame ended rfl
    · cases returned
      exact MachineState.reaches_refl journal _
    · cases returned
      exact MachineState.reaches_refl journal _

theorem reaches_creditDeposits {env : CallEnv} {deposits : List Deposit} {journal : Journal}
    {credited : Option ExecutionResult × World}
    (returned : creditDeposits env deposits journal.world = .ok credited)
    (short : credited.2.queue.ShortDestinations) :
    MachineState.Reaches keccak256 { journal := journal, stack := [] } credited.2 [] := by
  unfold creditDeposits at returned
  split at returned
  · cases returned
    exact MachineState.reaches_refl journal _
  · rcases bind_eq_ok.mp returned with ⟨called, calledEq, isCredited⟩
    cases isCredited
    apply reaches_systemCall (orElseFail_eq_ok.mp calledEq)
    intro frame ended isState
    unfold DepositVault.systemCreditDeposits at ended
    rw [require_of_holds _ rfl, ok_bind] at ended
    dsimp only at short
    rw [isState] at short
    exact reaches_creditLoop ended short rfl

theorem reaches_reportLifecycle {env : CallEnv} {update : BundleLifecycleUpdate}
    {journal : Journal} {reported : Option ExecutionResult × World}
    (returned : reportLifecycle env update journal.world = .ok reported)
    (short : reported.2.queue.ShortDestinations) :
    MachineState.Reaches keccak256 { journal := journal, stack := [] } reported.2 [] := by
  unfold reportLifecycle at returned
  split at returned
  · cases returned
    exact MachineState.reaches_refl journal _
  · rcases bind_eq_ok.mp returned with ⟨called, calledEq, isReported⟩
    cases isReported
    apply reaches_systemCall (orElseFail_eq_ok.mp calledEq)
    intro frame ended isState
    dsimp only at short
    rw [isState] at short
    exact MachineState.reaches_systemReportBundleLifecycle short ended

/-! ## Blocks -/

theorem short_of_reportLifecycle {env : CallEnv} {update : BundleLifecycleUpdate}
    {world : World} {reported : Option ExecutionResult × World}
    (short : reported.2.queue.ShortDestinations)
    (returned : reportLifecycle env update world = .ok reported) :
    world.queue.ShortDestinations := by
  unfold reportLifecycle at returned
  split at returned
  · cases returned
    exact short
  · rcases bind_eq_ok.mp returned with ⟨called, calledEq, isReported⟩
    have executed := orElseFail_eq_ok.mp calledEq
    cases isReported
    unfold transactSystemCall at executed
    split at executed
    · cases executed
    · split at executed
      · rename_i frame ended
        cases executed
        exact short.of_lifecycleCall ended
      · cases executed
        exact short
      · cases executed
        exact short

theorem short_of_extends {hashes : Hashes} {sidechainId : UInt32} {tip next : Tip}
    {executed : ExecutedBlock} (extends_ : Extends hashes sidechainId tip executed next)
    (short : next.world.queue.ShortDestinations) :
    executed.done.state.queue.ShortDestinations ∧ tip.world.queue.ShortDestinations := by
  rcases extends_.preExecuted with ⟨mainHash, credited, facts⟩
  rw [extends_.next_eq, ExecutedBlock.tip, finish_queue] at short
  have reported := short.of_grows (grows_runUserCode executed.body.transactions _)
  have afterCredits := short_of_reportLifecycle reported facts.reportedBy
  exact ⟨reported, afterCredits.of_grows (grows_creditDeposits facts.creditedBy)⟩

theorem reaches_of_extends {hashes : Hashes} {sidechainId : UInt32} {tip next : Tip}
    {executed : ExecutedBlock} (extends_ : Extends hashes sidechainId tip executed next)
    (short : next.world.queue.ShortDestinations) {journal : Journal}
    (isWorld : journal.world = tip.world) :
    MachineState.Reaches keccak256 { journal := journal, stack := [] } next.world [] := by
  have reported := (short_of_extends extends_ short).1
  rcases extends_.preExecuted with ⟨mainHash, credited, facts⟩
  rw [extends_.next_eq, ExecutedBlock.tip, finish_queue] at short
  have creditedBy := facts.creditedBy
  have creditedShort := short_of_reportLifecycle reported facts.reportedBy
  rw [← isWorld] at creditedBy
  apply (reaches_creditDeposits creditedBy creditedShort).trans
  intro afterCredits isCredited
  change afterCredits.world = credited at isCredited
  have reportedBy := facts.reportedBy
  rw [← isCredited] at reportedBy
  apply (reaches_reportLifecycle reportedBy reported).trans
  intro afterReport isReported
  change afterReport.world = executed.done.state at isReported
  rw [extends_.next_eq, ExecutedBlock.tip, ← isReported]
  rw [← isReported] at short
  apply (reaches_transactions short).trans
  intro afterTransactions isTransacted
  rw [← isTransacted]
  exact reaches_finish _ _

end MachineChain

/-- Every chain is a run of the machine. -/
theorem reaches_of_chain (keccak256 : Bytes → B256) {hashes : Hashes} {sidechainId : UInt32}
    {genesisHash : B256} {withdrawalsRoot : Option B256} {history : List ExecutedBlock}
    {tip : Tip}
    (chain : Chain hashes sidechainId (.genesis genesisHash withdrawalsRoot) history tip)
    (short : tip.world.queue.ShortDestinations) :
    MachineState.Reaches keccak256 (.initial World.genesis.balances) tip.world [] := by
  induction chain with
  | start => exact ⟨[], _, .start, rfl⟩
  | extend earlier extends_ induction =>
      apply (induction (MachineChain.short_of_extends extends_ short).2).trans
      intro journal isWorld
      exact MachineChain.reaches_of_extends extends_ short isWorld

/-- The calls of a block fit in memory as data. -/
structure ExecutedBlock.CalldataFits (keccak256 : Bytes → B256) (executed : ExecutedBlock) :
    Prop where
  deposits : ∀ calldata ∈ encodedDeposits keccak256 executed.done.deposits,
    calldata.length < 2 ^ 64
  update : (executed.done.update.encoded keccak256).length < 2 ^ 64

/-- The writes of the contract up to the parent of a block leave slots from which a
node that works on bytes, reading single slots and sending encoded calls, executes
the block as a node does that works on the queue itself. -/
theorem blocks_run_on_bytes (hashes : Hashes) (sidechainId : UInt32) (genesisHash : B256)
    (withdrawalsRoot : Option B256) (history : List ExecutedBlock) (tip next : Tip)
    (executed : ExecutedBlock)
    (chain : Chain hashes sidechainId (.genesis genesisHash withdrawalsRoot) history tip)
    (extends_ : Extends hashes sidechainId tip executed next)
    (short : tip.world.queue.ShortDestinations)
    (slotsDistinct : tip.world.queue.SlotsDistinct hashes.keccak256)
    (fewer : tip.world.queue.requestCount < 2 ^ 64)
    (selectorsDistinct : SelectorsDistinct hashes.keccak256)
    (calldataFits : executed.CalldataFits hashes.keccak256) :
    ∃ actions journal,
      Run (MachineState.Steps hashes.keccak256) (.initial World.genesis.balances) actions
        { journal := journal, stack := [] } ∧
      journal.world = tip.world ∧
      ∀ provider state,
        provider.header tip.block.hash = .ok (some tip.block.header) →
        provider.stateByBlockHash tip.block.hash = .ok state →
        StorageReader.Provides state journal.slots →
        (executed.executor sidechainId).applyPreExecutionChangesRaw hashes executed.order
          provider tip.world = .ok executed.done := by
  rcases reaches_of_chain hashes.keccak256 chain short with ⟨actions, journal, run, isWorld⟩
  have laidOut := (stored_of_run run).laidOut
  rw [isWorld] at laidOut
  refine ⟨actions, journal, run, isWorld, ?_⟩
  intro provider state header hasState provides
  rcases extends_.preExecuted with ⟨mainHash, credited, facts⟩
  have numbered : clampU64 (executed.executor sidechainId).blockNumber ≠ 0 := by
    change clampU64 executed.block.header.number ≠ 0
    rw [extends_.number]
    exact clampU64_succ_ne_zero _
  rw [← extends_.parent] at header hasState
  exact facts.raw rfl numbered selectorsDistinct calldataFits.deposits calldataFits.update
    header hasState
    (StorageReader.readAllRequests_eq (laidOut slotsDistinct) provides short fewer)

/-! The block that bundles the first request. -/

/-- The digests of the signatures and of the entry of index 0. -/
def executionHashes : Hashes :=
  { withdrawalHashes with
    keccak256 := digestOf ((toBeBytes 32 0 ++ toBeBytes 32 1,
        0xa6eef7e35abe7026729641147f7915573c7e97b47efa546f5f6e3230263bcb49) ::
      signatureDigests) }

def oneRequestLocations : List Location := .requestCount :: Field.all.map (.entry 0)

theorem oneRequestLocations_distinct :
    ∀ left ∈ oneRequestLocations, ∀ right ∈ oneRequestLocations,
      left.slot executionHashes.keccak256 = right.slot executionHashes.keccak256 →
        left = right := by
  decide +kernel

/-- The locations in use once a first request was queued. -/
theorem locations_of_one {queue : Storage} (count : queue.requestCount = 1)
    (inline : pieceCount (queue.requests 0).btcDestination = 0)
    (blank : queue.UnqueuedBlank)
    (marked : ∀ index, (queue.requests index).status ≠ .pending → index < queue.requestCount) :
    ∀ location ∈ queue.locations, location ∈ oneRequestLocations := by
  intro location inUse
  cases location with
  | requestCount => decide
  | entry index field =>
      have queued : index < queue.requestCount := inUse.elim id (marked index)
      rw [count, Nat.lt_one_iff] at queued
      subst queued
      cases field <;> decide
  | destination index piece =>
      change piece < pieceCount (queue.requests index).btcDestination at inUse
      have noPieces : pieceCount (queue.requests index).btcDestination = 0 := by
        rcases Nat.eq_zero_or_pos index with isZero | positive
        · rw [isZero, inline]
        · rw [← (blank index (by omega)).1.2.2.2]
          rfl
      omega

def depositInEachBlock (_ : Nat) : List BlockEvent := [depositEvent onesAddressHex 5]

theorem blocks_run_on_bytes_first_bundle :
    ∃ (tip : Tip) (executed : ExecutedBlock),
      executed.done.deposits ≠ [] ∧ executed.done.update.bundledIndices = [0] ∧
      ∃ slots : Slots, ∀ (provider : RawProvider) (state : StorageReader.StateProvider),
        provider.header tip.block.hash = .ok (some tip.block.header) →
        provider.stateByBlockHash tip.block.hash = .ok state →
        StorageReader.Provides state slots →
        (executed.executor 10).applyPreExecutionChangesRaw executionHashes executed.order
          provider tip.world = .ok executed.done := by
  let enforcer := (withdrawalMainchain depositInEachBlock).enforcer (Mainchain.linearBlock 2)
  have executes : Meets (do
        let first ← executeAll executionHashes 10 (.genesis (.replicate 32 0) none)
          [requestingProposal enforcer]
        let second ← (Proposal.empty (.replicate 32 2) (Mainchain.linearBlock 2)
          enforcer).execute executionHashes 10 first.2
        pure (first, second))
      (fun result => result.2.done.deposits ≠ [] ∧
        result.2.done.update.bundledIndices = [0] ∧
        result.1.2.world.queue.requestCount = 1 ∧
        (result.1.2.world.queue.requests 0).btcDestination.length < 2 ^ 64 ∧
        pieceCount (result.1.2.world.queue.requests 0).btcDestination = 0 ∧
        (∀ calldata ∈ encodedDeposits executionHashes.keccak256 result.2.done.deposits,
          calldata.length < 2 ^ 64) ∧
        (result.2.done.update.encoded executionHashes.keccak256).length < 2 ^ 64)
      fun _ => False := by decide +kernel
  rcases executes.exists_ok (fun _ failed => failed) with
    ⟨result, resultEq, credits, bundled, count, shortFirst, inline, depositsFit, updateFits⟩
  rcases bind_eq_ok.mp resultEq with ⟨first, firstEq, rest⟩
  rcases bind_eq_ok.mp rest with ⟨second, secondEq, resultIs⟩
  cases resultIs
  have chain := (chain_of_executeAll firstEq).1
  have extends_ := (Proposal.extends_of_execute secondEq).1
  have short : first.2.world.queue.ShortDestinations := by
    intro index queued
    rw [count, Nat.lt_one_iff] at queued
    exact queued ▸ shortFirst
  have blank : first.2.world.queue.UnqueuedBlank := by
    rcases reaches_of_chain executionHashes.keccak256 chain short with ⟨_, _, run, isWorld⟩
    exact isWorld ▸ (stored_of_run run).blank
  have traced := traced_of_chain rfl chain
  have listed := locations_of_one count inline blank
    fun index notPending => (traced index notPending).2.1
  have slotsDistinct : first.2.world.queue.SlotsDistinct executionHashes.keccak256 :=
    fun left leftUsed right rightUsed => oneRequestLocations_distinct left
      (listed left leftUsed) right (listed right rightUsed)
  rcases blocks_run_on_bytes executionHashes 10 (.replicate 32 0) none first.1 first.2
    second.tip second chain extends_ short slotsDistinct (by rw [count]; decide)
    (by decide +kernel) ⟨depositsFit, updateFits⟩ with
    ⟨_, journal, _, _, runs⟩
  exact ⟨first.2, second, credits, bundled, journal.slots, runs⟩

end Beth
