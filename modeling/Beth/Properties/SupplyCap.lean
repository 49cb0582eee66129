import Beth.Chain
import Beth.Properties.BmmCommitment

/-! # The supply cap

System calls, transactions and user code never create ether. Withdrawals of a
block body do: they are credited by the inner executor, and no check of the
consensus or of the executor refuses them. -/

namespace Beth

open Foundation WithdrawalRequestQueue

/-- An executed block that the consensus, with some answers of the enforcer,
accepted. -/
def AcceptedExtends (hashes : Hashes) (sidechainId : UInt32) (inner : EthBeaconConsensus)
    (tip : Tip) (executed : ExecutedBlock) (next : Tip) : Prop :=
  Extends hashes sidechainId tip executed next ∧
    ∃ enforcer, Bip300301Consensus.Accepts
      { inner := inner, enforcer := enforcer, sidechainId := sidechainId } tip executed

/-- The withdrawals of a body are worth nothing. -/
def WorthlessWithdrawals (withdrawals : List Withdrawal) : Prop :=
  ∀ withdrawal ∈ withdrawals, withdrawal.amountGwei = 0

def mintedWei (withdrawals : List Withdrawal) : Nat :=
  (withdrawals.map fun withdrawal => withdrawal.amountGwei.toNat * 10 ^ 9).sum

theorem total_genesis : World.genesis.balances.total = supplyCapWei := by
  rw [World.genesis, Ledger.total_credit]
  simp [Ledger.total, Ledger.held]

/-- The withdrawals of a body add exactly what they are worth. -/
theorem total_finish (withdrawals : List Withdrawal) (world : World) :
    (finish withdrawals world).balances.total =
      world.balances.total + mintedWei withdrawals := by
  induction withdrawals generalizing world with
  | nil => simp [finish, mintedWei]
  | cons withdrawal rest induction =>
      have restTotal := induction
        { world with
          balances := world.balances.credit withdrawal.address
            (withdrawal.amountGwei.toNat * 10 ^ 9) }
      rw [finish, List.foldl_cons, ← finish, restTotal, Ledger.total_credit]
      simp [mintedWei, Nat.add_assoc]

theorem mintedWei_eq_zero {withdrawals : List Withdrawal}
    (worthless : WorthlessWithdrawals withdrawals) : mintedWei withdrawals = 0 := by
  rw [mintedWei, List.sum_eq_zero_iff]
  intro amount member
  rcases List.mem_map.mp member with ⟨withdrawal, inBody, amountEq⟩
  rw [← amountEq, worthless withdrawal inBody]
  rfl

/-- User code moves or burns ether. -/
theorem total_le_of_effect {world next : World} (effect : UserAction.Effect world next) :
    next.balances.total ≤ world.balances.total := by
  cases effect with
  | none => exact le_rfl
  | transfer _ covered => exact (Ledger.total_move _ _ covered).le
  | burn _ _ => exact Ledger.total_debit_le _ _ _
  | request request _ covered _ _ => exact (Ledger.total_move _ _ covered).le

/-- One block adds at most the worth of its withdrawals. -/
theorem Extends.total_le {hashes : Hashes} {sidechainId : UInt32} {tip next : Tip}
    {executed : ExecutedBlock} (extends_ : Extends hashes sidechainId tip executed next)
    (worthless : WorthlessWithdrawals executed.withdrawals) :
    next.world.balances.total ≤ tip.world.balances.total := by
  refine extends_.preserves
    (fun world => world.balances.total ≤ tip.world.balances.total)
    (fun _ _ _ _ _ kept _ => kept) (fun _ _ _ _ kept _ => kept) ?_ ?_ ?_ le_rfl
  · intro world payer recipient amountWei kept _ _ covered
    exact (Ledger.total_move _ _ covered).le.trans kept
  · intro world next kept effect
    exact (total_le_of_effect effect).trans kept
  · intro world kept
    rw [total_finish, mintedWei_eq_zero worthless, Nat.add_zero]
    exact kept

/-- Along every accepted chain from genesis whose bodies carry no withdrawal
worth anything, the ether of all accounts stays within the cap. -/
theorem total_le_supplyCap (hashes : Hashes) (sidechainId : UInt32)
    (inner : EthBeaconConsensus) (genesisHash : B256) (withdrawalsRoot : Option B256)
    (history : List ExecutedBlock) (final : Tip)
    (chain : Run (AcceptedExtends hashes sidechainId inner)
      (.genesis genesisHash withdrawalsRoot) history final)
    (worthless : ∀ executed ∈ history, WorthlessWithdrawals executed.withdrawals) :
    final.world.balances.total ≤ supplyCapWei := by
  refine Run.invariant (fun history final =>
    (∀ executed ∈ history, WorthlessWithdrawals executed.withdrawals) →
      final.world.balances.total ≤ supplyCapWei) ?_ ?_ chain worthless
  · intro _
    exact total_genesis.le
  · intro history tip executed next _ induction extended worthless
    exact (extended.1.total_le (worthless executed (by simp))).trans
      (induction fun other member => worthless other (by simp [member]))

/-! Block 1 of a chain whose mainchain block 1 commits to it. -/

def committingMainchain : Mainchain where
  tree := Mainchain.linearTree
  hStar := fun block =>
    if block = Mainchain.linearBlock 1 then some (.replicate 32 1) else none
  events := fun _ => []

/-- A consensus that looks at the withdrawals root and at nothing else. -/
def rootOnlyConsensus : EthBeaconConsensus where
  headerFault := fun _ => none
  againstParentFault := fun _ _ => none
  bodyFault := fun _ _ => none
  withdrawalsRootOf := fun withdrawals => .replicate 32 (UInt8.ofNat withdrawals.length)
  preExecutionFault := fun _ _ => none
  postExecutionFault := fun _ _ _ => none

/-- A block with the given withdrawals, named after the commitment to it. -/
def committedProposal (withdrawals : List Withdrawal) : Proposal where
  hash := .replicate 32 1
  extraData := (Mainchain.linearBlock 0).bytes
  withdrawalsRoot := some (rootOnlyConsensus.withdrawalsRootOf withdrawals)
  body :=
    { transactions := []
      withdrawals := some withdrawals }
  enforcer := committingMainchain.enforcer (Mainchain.linearBlock 1)
  order := .insertion
  depositEnv := .unmetered
  lifecycleEnv := .unmetered

/-- The block is accepted whatever its withdrawals are, and they are paid. -/
theorem committedProposal_accepted (withdrawals : List Withdrawal)
    (idle : Meets ((committedProposal withdrawals).execute .unused 10
        (.genesis (.replicate 32 0) none))
      (fun executed => executed.done.deposits.isEmpty ∧ executed.done.update.isEmpty)
      fun _ => False) :
    ∃ executed final,
      Run (AcceptedExtends .unused 10 rootOnlyConsensus) (.genesis (.replicate 32 0) none)
        [executed] final ∧
      executed.withdrawals = withdrawals ∧
      final.world = finish withdrawals .genesis := by
  rcases idle.exists_ok (fun _ failed => failed) with
    ⟨executed, executedEq, noDeposits, noUpdate⟩
  rcases Proposal.extends_of_execute executedEq with ⟨extends_, done, executedIs⟩
  rcases extends_.preExecuted with ⟨mainHash, credited, facts⟩
  have unchanged : executed.done.state = .genesis := facts.state_eq_of_idle noDeposits noUpdate
  have recorded : committingMainchain.RecordedIn (.replicate 32 1)
      (committingMainchain.window 16 (Mainchain.linearBlock 1)) := by
    unfold Mainchain.RecordedIn
    decide +kernel
  subst executedIs
  refine ⟨_, _, .extend .start ⟨extends_, committingMainchain.enforcer
    (Mainchain.linearBlock 1), ?_⟩, rfl, ?_⟩
  · exact
      { header := (validateHeader_iff_recorded _
          (committingMainchain.enforcer_reportsCommitments 10 _) _).mpr
            ⟨rfl, (Mainchain.linearBlock 0).length_eq, recorded⟩
        againstParent := rfl
        body := by
          simp [Bip300301Consensus.validateBodyAgainstHeader,
            EthBeaconConsensus.validateBodyAgainstHeader, rootOnlyConsensus, failWith,
            committedProposal, Proposal.executed, Proposal.header]
        preExecution := rfl
        postExecution := rfl }
  · change finish withdrawals (runUserCode [] done.state) = _
    rw [show done.state = .genesis from unchanged]
    rfl

theorem total_le_supplyCap_one_block :
    ∃ executed final,
      Run (AcceptedExtends .unused 10 rootOnlyConsensus) (.genesis (.replicate 32 0) none)
        [executed] final ∧
      final.world.balances.total ≤ supplyCapWei := by
  rcases committedProposal_accepted [] (by decide +kernel) with
    ⟨executed, final, chain, withdrawalsEq, _⟩
  refine ⟨executed, final, chain, ?_⟩
  exact total_le_supplyCap .unused 10 rootOnlyConsensus (.replicate 32 0) none [executed]
    final chain (by simp [WorthlessWithdrawals, withdrawalsEq])

/-- An accepted block with one withdrawal of one gwei exceeds the cap. -/
theorem withdrawal_exceeds_supplyCap :
    ∃ executed final,
      Run (AcceptedExtends .unused 10 rootOnlyConsensus) (.genesis (.replicate 32 0) none)
        [executed] final ∧
      executed.withdrawals = [{ address := .replicate 20 1, amountGwei := 1 }] ∧
      supplyCapWei < final.world.balances.total := by
  rcases committedProposal_accepted
      [{ address := .replicate 20 1, amountGwei := 1 }]
      (by decide +kernel) with
    ⟨executed, final, chain, withdrawalsEq, finalEq⟩
  refine ⟨executed, final, chain, withdrawalsEq, ?_⟩
  rw [finalEq, total_finish, total_genesis]
  apply Nat.lt_add_of_pos_right
  decide

end Beth
