import Beth.Properties.PegSolvency
import Beth.Properties.SystemCallResults

/-! # The deposit reserve

`DepositVault` pays every credit out of its genesis balance, and nothing that
users withdraw returns to it. It can pay in full as long as all deposits ever
made, not merely those still backed on the mainchain, stay within the cap. -/

namespace Beth

open Foundation WithdrawalRequestQueue

/-! ## The vault over one call -/

/-- The recipient of the CALL with this number takes the ether. -/
def AcceptsCredit (env : CallEnv) (calls : Nat) (recipient : Address) : Prop :=
  (env.payees calls).accepts ∧ recipient ∉ predeploys

instance (env : CallEnv) (calls : Nat) (recipient : Address) :
    Decidable (AcceptsCredit env calls recipient) :=
  inferInstanceAs (Decidable (_ ∧ _))

def vaultWei (world : World) : Nat := world.balances depositVaultAddress

/-- A CALL by a sender that has the amount succeeds iff it is accepted. -/
theorem call_of_funded (env : CallEnv) {sender : Address} (recipient : Address)
    {amountWei : Nat} {frame : Frame} (funded : amountWei ≤ frame.world.balances sender) :
    (frame.call env sender recipient amountWei).2 =
      decide (AcceptsCredit env frame.calls recipient) := by
  unfold Frame.call
  dsimp only
  rw [if_neg (Nat.not_lt.mpr funded)]
  by_cases accepted : AcceptsCredit env frame.calls recipient
  · rw [decide_eq_true accepted]
    exact congrArg Prod.snd (if_pos accepted)
  · rw [decide_eq_false accepted]
    exact congrArg Prod.snd (if_neg accepted)

theorem vaultWei_le_of_move {world : World} {sender : Address} (recipient : Address)
    (amountWei : Nat) (queue : Storage) (notVault : depositVaultAddress ≠ sender) :
    vaultWei world ≤ vaultWei
      { balances := world.balances.move sender recipient amountWei
        queue := queue } :=
  Ledger.le_move_of_ne_sender world.balances amountWei notVault

/-- No effect of user code takes ether out of the vault. -/
theorem vaultWei_le_of_effect {world next : World} (effect : UserAction.Effect world next) :
    vaultWei world ≤ vaultWei next := by
  have notVault : ∀ {account : Address}, account ∉ predeploys →
      depositVaultAddress ≠ account := fun notPredeploy isVault =>
    notPredeploy (isVault ▸ vault_mem_predeploys)
  cases effect with
  | none => exact le_rfl
  | transfer notPredeploy _ =>
      exact vaultWei_le_of_move _ _ _ (notVault notPredeploy)
  | @burn owner amountWei notPredeploy _ =>
      change world.balances depositVaultAddress ≤
        world.balances.debit owner amountWei depositVaultAddress
      rw [Ledger.debit_apply, if_neg (notVault notPredeploy), Nat.sub_zero]
  | request request notPredeploy _ _ _ =>
      exact vaultWei_le_of_move _ _ _ (notVault notPredeploy)

theorem vaultWei_le_of_runUserCode {least : Nat} {world : World} (actions : List UserAction)
    (held : least ≤ vaultWei world) : least ≤ vaultWei (runUserCode actions world) :=
  runUserCode_preserves (fun world => least ≤ vaultWei world)
    (fun _ _ held effect => held.trans (vaultWei_le_of_effect effect)) actions held

/-- A CALL made by the vault costs it at most the amount. -/
theorem vaultWei_le_of_payment {recipient : Address} {amountWei : Nat} {world next : World}
    {success : Bool}
    (effect : Frame.PaymentEffect depositVaultAddress recipient amountWei world success next) :
    vaultWei world ≤ vaultWei next + amountWei := by
  cases effect with
  | rejected => exact Nat.le_add_right _ _
  | paid actions notPredeploy covered =>
      have different : depositVaultAddress ≠ recipient := fun isRecipient =>
        notPredeploy (isRecipient ▸ vault_mem_predeploys)
      have afterwards : vaultWei world - amountWei ≤ vaultWei
          { world with
            balances := world.balances.move depositVaultAddress recipient amountWei } := by
        change _ ≤ world.balances.move depositVaultAddress recipient amountWei
          depositVaultAddress
        rw [Ledger.move, Ledger.credit_apply, Ledger.debit_apply, if_pos rfl]
        exact Nat.le_add_right _ _
      have kept := vaultWei_le_of_runUserCode actions afterwards
      omega

/-! ## The loop over the deposits -/

/-- The events of a loop whose deposits are all funded. -/
def creditEvents (env : CallEnv) : Nat → List Deposit → List Event
  | _, [] => []
  | calls, deposit :: rest =>
      .depositCredited deposit.address deposit.valueSats.toNat
          (decide (AcceptsCredit env calls deposit.address)) ::
        creditEvents env (calls + 1) rest

/-- The frame after crediting a list of funded deposits. -/
structure CreditedInFull (env : CallEnv) (deposits : List Deposit) (before after : Frame) :
    Prop where
  calls : after.calls = before.calls + deposits.length
  logs : after.logs = before.logs ++ creditEvents env before.calls deposits
  vault : vaultWei before.world ≤ vaultWei after.world + depositedSats deposits * weiPerSat

theorem creditDeposit_funded (env : CallEnv) (deposit : Deposit) (frame : Frame)
    (funded : deposit.valueSats.toNat * weiPerSat ≤ vaultWei frame.world) :
    Meets (DepositVault.creditDeposit env deposit.address deposit.valueSats.toNat frame)
      (CreditedInFull env [deposit] frame) fun _ => True := by
  unfold DepositVault.creditDeposit
  apply Meets.bind ((frame.charge_meets _).mono (fun _ kept => kept) fun _ _ => trivial)
  intro charged same
  rw [DepositVault.checkedMul_weiPerSat deposit.valueSats.toNat_lt, ok_bind]
  dsimp only
  have fundedThen : deposit.valueSats.toNat * weiPerSat ≤
      charged.world.balances depositVaultAddress := same.1 ▸ funded
  have success := call_of_funded env deposit.address fundedThen
  have effect := charged.call_effect env depositVaultAddress deposit.address
    (deposit.valueSats.toNat * weiPerSat)
  have calls := charged.call_calls env depositVaultAddress deposit.address
    (deposit.valueSats.toNat * weiPerSat)
  have logs := charged.call_logs env depositVaultAddress deposit.address
    (deposit.valueSats.toNat * weiPerSat)
  generalize charged.call env depositVaultAddress deposit.address
    (deposit.valueSats.toNat * weiPerSat) = called at success effect calls logs ⊢
  apply Meets.bind ((Frame.charge_meets _ _).mono (fun _ kept => kept) fun _ _ => trivial)
  intro after ended
  rw [Meets.pure_iff]
  constructor
  · rw [Frame.emit_calls, ended.2.1, calls, same.2.1]
    rfl
  · rw [Frame.emit_logs, ended.2.2.1, logs, same.2.2.1, success, same.2.1]
    rfl
  · rw [Frame.emit_world, ended.1, ← same.1]
    simpa [depositedSats] using vaultWei_le_of_payment effect

theorem creditLoop_funded (env : CallEnv) (deposits : List Deposit) (frame : Frame)
    (funded : depositedSats deposits * weiPerSat ≤ vaultWei frame.world) :
    Meets (DepositVault.creditLoop env (deposits.map Deposit.address)
        (deposits.map fun deposit => deposit.valueSats.toNat) frame)
      (CreditedInFull env deposits frame) fun _ => True := by
  induction deposits generalizing frame with
  | nil => exact ⟨rfl, by simp [creditEvents], by simp [depositedSats]⟩
  | cons deposit rest induction =>
      have split : depositedSats (deposit :: rest) * weiPerSat =
          deposit.valueSats.toNat * weiPerSat + depositedSats rest * weiPerSat := by
        simp [depositedSats, Nat.add_mul]
      rw [split] at funded
      have first := creditDeposit_funded env deposit frame
        ((Nat.le_add_right _ _).trans funded)
      apply first.bind
      intro middle credited
      have cost : depositedSats [deposit] = deposit.valueSats.toNat := by
        simp [depositedSats]
      have vault := credited.vault
      rw [cost] at vault
      apply (induction middle (by omega)).mono _ fun _ _ => trivial
      intro after restCredited
      constructor
      · rw [restCredited.calls, credited.calls, List.length_cons]
        simp only [List.length_cons, List.length_nil]
        omega
      · rw [restCredited.logs, credited.logs, credited.calls, List.append_assoc]
        rfl
      · have restVault := restCredited.vault
        omega

/-! ## Whole chains -/

/-- Whatever its result, a funded deposit call costs the vault at most the
deposits; and when it succeeds, every accepted deposit was credited. -/
theorem creditDeposits_funded {env : CallEnv} {deposits : List Deposit} {world : World}
    {credited : Option ExecutionResult × World}
    (funded : depositedSats deposits * weiPerSat ≤ vaultWei world)
    (returned : creditDeposits env deposits world = .ok credited) :
    vaultWei world ≤ vaultWei credited.2 + depositedSats deposits * weiPerSat ∧
      ∀ events, credited.1 = some (.success events) →
        events = creditEvents env 0 deposits := by
  unfold creditDeposits at returned
  cases deposits with
  | nil =>
      cases returned
      exact ⟨Nat.le_add_right _ _, by simp⟩
  | cons deposit rest =>
      rcases bind_eq_ok.mp returned with ⟨called, calledEq, isCalled⟩
      cases isCalled
      have made := orElseFail_eq_ok.mp calledEq
      have body := creditLoop_funded env (deposit :: rest) (.start env world) funded
      constructor
      · apply transactSystemCall_preserves (fun next => vaultWei world ≤ vaultWei next +
          depositedSats (deposit :: rest) * weiPerSat) _ (Nat.le_add_right _ _) made
        exact body.mono (fun _ paid => paid.vault) fun _ _ => trivial
      · intro events succeeded
        have isSuccess : called.result = .success events := Option.some.inj succeeded
        rcases returned_of_success made (by rw [isSuccess]; rfl) with
          ⟨frame, ended, _, resultEq⟩
        rw [resultEq] at isSuccess
        have logs := (body.returns_of_eq_ok ended).logs
        rw [← ExecutionResult.success.inj isSuccess, logs]
        rfl

/-- What the vault has left after a history of deposits. -/
def Reserve (history : List ExecutedBlock) (world : World) : Prop :=
  supplyCapWei ≤ vaultWei world + depositedIn history * weiPerSat

theorem Reserve.funded {history : List ExecutedBlock} {world : World} {sats : Nat}
    (reserve : Reserve history world)
    (capped : (depositedIn history + sats) * weiPerSat ≤ supplyCapWei) :
    sats * weiPerSat ≤ vaultWei world := by
  unfold Reserve at reserve
  rw [Nat.add_mul] at capped
  omega

theorem Reserve.extend {hashes : Hashes} {sidechainId : UInt32} {history : List ExecutedBlock}
    {tip next : Tip} {executed : ExecutedBlock} (reserve : Reserve history tip.world)
    (extends_ : Extends hashes sidechainId tip executed next)
    (capped : depositedIn (history ++ [executed]) * weiPerSat ≤ supplyCapWei) :
    Reserve (history ++ [executed]) next.world := by
  rw [depositedIn_append] at capped
  rcases extends_.preExecuted with ⟨mainHash, credited, facts⟩
  have deposits := (creditDeposits_funded (reserve.funded capped) facts.creditedBy).1
  have creditedReserve : supplyCapWei - (depositedIn history +
      depositedSats executed.done.deposits) * weiPerSat ≤ vaultWei credited := by
    unfold Reserve at reserve
    change vaultWei tip.world ≤ vaultWei credited + _ at deposits
    rw [Nat.add_mul]
    omega
  have refunded : ∀ world next success recipient amountWei,
      vaultWei credited ≤ vaultWei world →
      Frame.PaymentEffect withdrawalRequestQueueAddress recipient amountWei world success
        next → vaultWei credited ≤ vaultWei next := by
    intro world next success recipient amountWei held effect
    exact effect.preserves held
      (fun _ _ => held.trans (vaultWei_le_of_move _ _ _ queue_ne_vault.symm))
      fun _ _ held effect => le_trans held (vaultWei_le_of_effect effect)
  have reported : vaultWei credited ≤ vaultWei executed.done.state :=
    reportLifecycle_preserves (fun _ _ _ held _ => held) (fun _ _ _ held _ => held)
      (fun _ _ world next success held _ effect =>
        refunded (changeRequest _ Request.refund world) next success _ _ held effect)
      le_rfl facts.reportedBy
  have transactions := vaultWei_le_of_runUserCode executed.body.transactions reported
  have finished := le_finish_balances executed.withdrawals
    (runUserCode executed.body.transactions executed.done.state) depositVaultAddress
  unfold Reserve
  rw [depositedIn_append, extends_.next_eq]
  change _ ≤ (finish executed.withdrawals _).balances depositVaultAddress + _
  unfold vaultWei at creditedReserve transactions
  omega

theorem reserve_of_chain {hashes : Hashes} {sidechainId : UInt32} {genesisHash : B256}
    {withdrawalsRoot : Option B256} {history : List ExecutedBlock} {final : Tip}
    (chain : Chain hashes sidechainId (.genesis genesisHash withdrawalsRoot) history final)
    (capped : depositedIn history * weiPerSat ≤ supplyCapWei) :
    Reserve history final.world := by
  refine Run.invariant (fun history final => depositedIn history * weiPerSat ≤ supplyCapWei →
    Reserve history final.world) ?_ ?_ chain capped
  · intro _
    have funded : vaultWei World.genesis = supplyCapWei := by
      simp [vaultWei, World.genesis, Ledger.credit_apply]
    change supplyCapWei ≤ vaultWei World.genesis + _
    rw [funded]
    exact Nat.le_add_right _ _
  · intro history tip executed next _ induction extends_ capped
    have before : depositedIn history * weiPerSat ≤ supplyCapWei := by
      rw [depositedIn_append, Nat.add_mul] at capped
      exact (Nat.le_add_right _ _).trans capped
    exact (induction before).extend extends_ capped

/-- As long as all deposits of a chain together stay within the cap, each of
them finds its amount in the vault when it is credited, and is credited unless
its recipient refuses it. -/
theorem deposits_credited_in_full (hashes : Hashes) (sidechainId : UInt32)
    (genesisHash : B256) (withdrawalsRoot : Option B256) (history : List ExecutedBlock)
    (tip next : Tip) (executed : ExecutedBlock)
    (chain : Chain hashes sidechainId (.genesis genesisHash withdrawalsRoot) history tip)
    (extends_ : Extends hashes sidechainId tip executed next)
    (capped : depositedIn (history ++ [executed]) * weiPerSat ≤ supplyCapWei) :
    (∀ earlier deposit later frame, executed.done.deposits = earlier ++ deposit :: later →
      DepositVault.creditLoop executed.depositEnv (earlier.map Deposit.address)
        (earlier.map fun deposit => deposit.valueSats.toNat)
        (.start executed.depositEnv tip.world) = .ok frame →
      deposit.valueSats.toNat * weiPerSat ≤ frame.world.balances depositVaultAddress ∧
      (frame.call executed.depositEnv depositVaultAddress deposit.address
        (deposit.valueSats.toNat * weiPerSat)).2 =
          decide (AcceptsCredit executed.depositEnv frame.calls deposit.address)) ∧
    ∀ events, executed.done.depositResult = some (.success events) →
      events = creditEvents executed.depositEnv 0 executed.done.deposits := by
  rw [depositedIn_append] at capped
  have before : depositedIn history * weiPerSat ≤ supplyCapWei := by
    rw [Nat.add_mul] at capped
    exact (Nat.le_add_right _ _).trans capped
  have funded := (reserve_of_chain chain before).funded capped
  constructor
  · intro earlier deposit later frame split reached
    have parts : depositedSats executed.done.deposits * weiPerSat =
        depositedSats earlier * weiPerSat +
          (deposit.valueSats.toNat * weiPerSat + depositedSats later * weiPerSat) := by
      rw [split]
      simp [depositedSats, Nat.add_mul]
    rw [parts] at funded
    have credited := (creditLoop_funded executed.depositEnv earlier
      (.start executed.depositEnv tip.world)
        ((Nat.le_add_right _ _).trans funded)).returns_of_eq_ok reached
    have left := credited.vault
    have covered : deposit.valueSats.toNat * weiPerSat ≤
        frame.world.balances depositVaultAddress := by
      change _ ≤ vaultWei frame.world
      change vaultWei tip.world ≤ _ at left
      omega
    exact ⟨covered, call_of_funded _ _ covered⟩
  · rcases extends_.preExecuted with ⟨mainHash, creditedWorld, facts⟩
    exact (creditDeposits_funded funded facts.creditedBy).2

theorem deposits_credited_in_full_one_deposit :
    ∃ executed, Extends withdrawalHashes 10 (.genesis (.replicate 32 0) none) executed
        executed.tip ∧
      executed.done.depositResult = some (.success
        [.depositCredited (.replicate 20 0x11) 5 true]) ∧
      ∀ events, executed.done.depositResult = some (.success events) →
        events = creditEvents executed.depositEnv 0 executed.done.deposits := by
  have executes : Meets ((requestingProposal ((withdrawalMainchain depositAtBlockOne).enforcer
        (Mainchain.linearBlock 1))).execute withdrawalHashes 10
        (.genesis (.replicate 32 0) none))
      (fun executed => depositedIn ([] ++ [executed]) * weiPerSat ≤ supplyCapWei ∧
        executed.done.depositResult = some (.success
          [.depositCredited (.replicate 20 0x11) 5 true]))
      fun _ => False := by decide +kernel
  rcases executes.exists_ok (fun _ failed => failed) with
    ⟨executed, executedEq, capped, resultEq⟩
  have extends_ := (Proposal.extends_of_execute executedEq).1
  exact ⟨executed, extends_, resultEq,
    (deposits_credited_in_full withdrawalHashes 10 (.replicate 32 0) none []
      (.genesis (.replicate 32 0) none) executed.tip executed .start extends_ capped).2⟩

/-! All bitcoin is deposited, withdrawn again, and a satoshi of it deposited for
a second time. -/

/-- The digests of the bundle that pays out everything. -/
def recycledHashes : Hashes where
  keccak256 := withdrawalHashes.keccak256
  computeTxid := fun _ => ⟨
    [ 0xaa, 0xb4, 0xfa, 0x7c, 0x91, 0x6e, 0xcf, 0x38,
      0x45, 0xcd, 0xd8, 0x9d, 0xaf, 0x41, 0x36, 0x64,
      0x95, 0x52, 0x5e, 0xde, 0x41, 0x9f, 0x83, 0x25,
      0x31, 0x75, 0x95, 0xc8, 0x7d, 0x59, 0x09, 0x7a],
    rfl⟩

def recycledEvents : Nat → List BlockEvent
  | 1 => [depositEvent onesAddressHex 2100000000000000]
  | 3 => [bundleEvent (recycledHashes.computeTxid
      { version := 2
        lockTime := 0
        input := []
        output := [] }) .succeeded]
  | 4 => [depositEvent onesAddressHex 1]
  | _ => []

def recycledProposals : List Proposal :=
  let enforcer := (withdrawalMainchain recycledEvents).enforcer (Mainchain.linearBlock 4)
  [{ Proposal.empty (.replicate 32 1) (Mainchain.linearBlock 1) enforcer with
      body :=
        { transactions := [.requestWithdrawal (.replicate 20 0x11) supplyCapWei
            (List.replicate 22 0xaa) 1]
          withdrawals := some [] } },
    .empty (.replicate 32 2) (Mainchain.linearBlock 2) enforcer,
    .empty (.replicate 32 3) (Mainchain.linearBlock 3) enforcer]

/-- Although the treasury never holds more than the cap, the last deposit is
not credited to a recipient that accepts it. -/
theorem recycled_deposit_fails :
    ∃ history tip executed next,
      Chain recycledHashes 10 (.genesis (.replicate 32 0) none) history tip ∧
      Extends recycledHashes 10 tip executed next ∧
      (∀ other ∈ history ++ [executed], other.withdrawals = [] ∧ SystemCallsSucceed other) ∧
      (∀ count, treasurySats recycledHashes ((history ++ [executed]).take count) ≤
        2100000000000000) ∧
      AcceptsCredit executed.depositEnv 0 (.replicate 20 0x11) ∧
      executed.done.depositResult = some (.success
        [.depositCredited (.replicate 20 0x11) 1 false]) := by
  let last := Proposal.empty (.replicate 32 4) (Mainchain.linearBlock 4)
    ((withdrawalMainchain recycledEvents).enforcer (Mainchain.linearBlock 4))
  have executes : Meets (do
        let earlier ← executeAll recycledHashes 10 (.genesis (.replicate 32 0) none)
          recycledProposals
        let executed ← last.execute recycledHashes 10 earlier.2
        pure (earlier, executed))
      (fun result =>
        (∀ other ∈ result.1.1 ++ [result.2], other.withdrawals = [] ∧
          (∀ outcome ∈ other.done.depositResult, outcome.isSuccess) ∧
          ∀ outcome ∈ other.done.lifecycleResult, outcome.isSuccess) ∧
        (result.1.1 ++ [result.2]).length = 4 ∧
        (∀ count ∈ List.range 5, treasurySats recycledHashes
          ((result.1.1 ++ [result.2]).take count) ≤ 2100000000000000) ∧
        AcceptsCredit result.2.depositEnv 0 (.replicate 20 0x11) ∧
        result.2.done.depositResult = some (.success
          [.depositCredited (.replicate 20 0x11) 1 false]))
      fun _ => False := by decide +kernel
  rcases executes.exists_ok (fun _ failed => failed) with
    ⟨result, resultEq, plain, four, treasury, accepts, failed⟩
  rcases bind_eq_ok.mp resultEq with ⟨earlier, earlierEq, rest⟩
  rcases bind_eq_ok.mp rest with ⟨executed, executedEq, resultIs⟩
  cases resultIs
  refine ⟨earlier.1, earlier.2, executed, executed.tip, (chain_of_executeAll earlierEq).1,
    (Proposal.extends_of_execute executedEq).1, ?_, ?_, accepts, failed⟩
  · intro other member
    have facts := plain other member
    exact ⟨facts.1, facts.2.1, facts.2.2⟩
  · intro count
    by_cases short : count ≤ 4
    · exact treasury count (List.mem_range.mpr (by omega))
    · have whole := treasury 4 (by decide)
      change (earlier.1 ++ [executed]).length = 4 at four
      change treasurySats recycledHashes ((earlier.1 ++ [executed]).take 4) ≤ _ at whole
      rw [List.take_of_length_le (by omega)] at whole ⊢
      exact whole

end Beth
