import Beth.Contracts.Escrow
import Beth.Contracts.Gas
import Beth.Properties.BundledOnce

/-! # Payees of one system call

Both contracts ignore a failed transfer so that one payee cannot block another.
A payee that burns the gas forwarded to it still can: the call needs gas for the
worst its payees can do, and if it runs out nobody is paid. -/

namespace Beth

open Foundation WithdrawalRequestQueue

/-! ## The escrow of every chain -/

theorem Escrowed.creditDeposits {env : CallEnv} {deposits : List Deposit} {world : World}
    {credited : Option ExecutionResult × World} (escrowed : Escrowed world)
    (returned : creditDeposits env deposits world = .ok credited) : Escrowed credited.2 :=
  creditDeposits_preserves Escrowed
    (fun _ recipient amountWei kept _ _ => kept.credited recipient amountWei)
    (fun _ _ kept effect => kept.effect effect) escrowed returned

theorem Escrowed.extend {hashes : Hashes} {sidechainId : UInt32} {tip next : Tip}
    {executed : ExecutedBlock} (escrowed : Escrowed tip.world)
    (extends_ : Extends hashes sidechainId tip executed next) : Escrowed next.world := by
  have counted : Escrowed next.world ∧
      tip.world.queue.requestCount ≤ next.world.queue.requestCount := by
    refine extends_.preserves_refunding (fun world => Escrowed world ∧
      tip.world.queue.requestCount ≤ world.queue.requestCount) ?_ ?_ ?_ ?_ ?_ ?_
      ⟨escrowed, le_rfl⟩
    · exact fun _ recipient amountWei kept _ _ => ⟨kept.1.credited recipient amountWei, kept.2⟩
    · intro bundle bundleEq index inBundle world kept pending
      have isAssigned : ({ bundle := bundle, height := executed.height } : Assignment) ∈
          executed.assignment hashes := by
        simp [ExecutedBlock.assignment, bundleEq]
      have readable := ((extends_.assignedOn isAssigned).pending index inBundle).1
      have queued := (readable.trans_le (readableCount_le _)).trans_le kept.2
      refine ⟨kept.1.change queued ?_, kept.2⟩
      rw [Request.escrowedSats_of_pending pending, Request.escrowedSats_of_bundled rfl]
      rfl
    · intro index queued world kept bundled
      refine ⟨kept.1.change (queued.trans_le kept.2) ?_, kept.2⟩
      rw [Request.escrowedSats_of_bundled bundled]
      rfl
    · intro index queued world next success kept bundled effect
      have growth := grows_of_payment effect
      exact ⟨kept.1.refunded (queued.trans_le kept.2) bundled effect,
        kept.2.trans growth.count_le⟩
    · exact fun _ _ kept effect =>
        ⟨kept.1.effect effect, kept.2.trans (grows_of_effect effect).count_le⟩
    · intro world kept
      refine ⟨kept.1.of_le (finish_queue _ _) (le_finish_balances _ _ _), ?_⟩
      rw [finish_queue]
      exact kept.2
  exact counted.1

/-- On every chain the queue can pay all refunds it may have to make. -/
theorem escrowed_of_chain {hashes : Hashes} {sidechainId : UInt32} {genesisHash : B256}
    {withdrawalsRoot : Option B256} {history : List ExecutedBlock} {final : Tip}
    (chain : Chain hashes sidechainId (.genesis genesisHash withdrawalsRoot) history
      final) : Escrowed final.world := by
  refine Run.invariant (fun _ final => Escrowed final.world) ?_
    (fun _ _ _ _ _ escrowed extends_ => escrowed.extend extends_) chain
  change _ * weiPerSat ≤ _
  rw [Storage.total, Tip.genesis, World.genesis, Storage.initial, Finset.range_zero,
    Finset.sum_empty, Nat.zero_mul]
  exact Nat.zero_le _

/-! ## Isolation -/

/-- Whatever the other payees do, the call ends with every plain account having
received exactly what it is due. -/
def PayeesIsolated (plain : PlainAccounts) (payments : List (Address × Nat))
    (world : World) (run : (Nat → Payee) → Except String ResultAndState) : Prop :=
  ∀ payees : Nat → Payee,
    (∀ position, (inside : position < payments.length) →
      Behaves plain payments[position].1 (payees position)) →
    ∃ called, run payees = .ok called ∧ ∀ account ∈ plain.accounts,
      called.state.balances account = world.balances account + due account payments

/-- No plain account is due anything. -/
def OwedNothing (plain : PlainAccounts) (payments : List (Address × Nat)) : Prop :=
  ∀ payment ∈ payments, payment.1 ∈ plain.accounts → payment.2 = 0

/-- A call with a gas limit and the given payees. -/
def meteredEnv (schedule : GasSchedule) (gasLimit : Nat) (payees : Nat → Payee) : CallEnv where
  gasLimit := some gasLimit
  schedule := schedule
  payees := payees
  hostFault := none

/-- A contract function run with a gas limit, against given payees. -/
def meteredRun (schedule : GasSchedule) (gasLimit : Nat)
    (body : CallEnv → Frame → Except CallFailure Frame) (world : World)
    (payees : Nat → Payee) : Except String ResultAndState :=
  transactSystemCall (meteredEnv schedule gasLimit payees)
    (body (meteredEnv schedule gasLimit payees)) world

theorem due_eq_zero {plain : PlainAccounts} {payments : List (Address × Nat)}
    (nothing : OwedNothing plain payments) {account : Address}
    (isPlain : account ∈ plain.accounts) : due account payments = 0 := by
  rw [due, List.sum_eq_zero_iff]
  intro amount member
  rcases List.mem_map.mp member with ⟨payment, inFilter, amountEq⟩
  have facts := List.mem_filter.mp inFilter
  rw [← amountEq]
  exact nothing payment facts.1 (by simpa using (of_decide_eq_true facts.2) ▸ isPlain)

theorem le_due {payments : List (Address × Nat)} {payment : Address × Nat}
    (member : payment ∈ payments) : payment.2 ≤ due payment.1 payments := by
  apply List.single_le_sum (fun _ _ => Nat.zero_le _)
  exact List.mem_map_of_mem (List.mem_filter.mpr ⟨member, by simp⟩)

/-- Payees that reject what they get and burn all they can, as far as they may. -/
def burners (plain : PlainAccounts) (payments : List (Address × Nat)) (gasLimit : Nat)
    (position : Nat) : Payee :=
  match payments[position]? with
  | some payment =>
      if plain.MayBurn payment.1 then
        { accepts := false
          actions := []
          gasBurned := gasLimit }
      else .plain
  | none => .plain

theorem burners_behave (plain : PlainAccounts) (payments : List (Address × Nat))
    (gasLimit position : Nat) (inside : position < payments.length) :
    Behaves plain payments[position].1 (burners plain payments gasLimit position) ∧
      (plain.MayBurn payments[position].1 →
        gasLimit ≤ (burners plain payments gasLimit position).gasBurned) := by
  unfold burners
  rw [List.getElem?_eq_getElem inside]
  dsimp only
  by_cases mayBurn : plain.MayBurn payments[position].1
  · rw [if_pos mayBurn]
    refine ⟨⟨rfl, ?_, ?_⟩, fun _ => le_rfl⟩
    · exact fun isPlain => absurd isPlain mayBurn.1
    · exact fun isPredeploy => absurd isPredeploy mayBurn.2
  · rw [if_neg mayBurn]
    exact ⟨⟨rfl, fun _ => rfl, fun _ => rfl⟩, fun burns => absurd burns mayBurn⟩

/-- Isolation for any call that pays or runs out of gas: it holds exactly when
the gas reaches what the payees may burn, or there is nothing to lose. -/
theorem payeesIsolated_iff {schedule : GasSchedule} {gasLimit needed : Nat}
    {plain : PlainAccounts} {payments : List (Address × Nat)} {world : World}
    (body : CallEnv → Frame → Except CallFailure Frame)
    (pays : ∀ payees, (∀ position, (inside : position < payments.length) →
        Behaves plain payments[position].1 (payees position)) →
      let env := meteredEnv schedule gasLimit payees
      Meets (body env (.start env world))
        (fun final => ∀ account ∈ plain.accounts, final.world.balances account =
          world.balances account + due account payments)
        (fun failure => failure = .outOfGas ∧ gasLimit < needed))
    (runsOut : ∀ payees, (∀ position, (inside : position < payments.length) →
        Behaves plain payments[position].1 (payees position) ∧
          (plain.MayBurn payments[position].1 → gasLimit ≤ (payees position).gasBurned)) →
      gasLimit < needed →
      let env := meteredEnv schedule gasLimit payees
      body env (.start env world) = .error .outOfGas) :
    PayeesIsolated plain payments world (meteredRun schedule gasLimit body world) ↔
      OwedNothing plain payments ∨ needed ≤ gasLimit := by
  constructor
  · intro isolated
    by_contra neither
    rw [not_or, Nat.not_le] at neither
    apply neither.1
    intro payment member isPlain
    have behave := burners_behave plain payments gasLimit
    rcases isolated (burners plain payments gasLimit)
      (fun position inside => (behave position inside).1) with ⟨called, calledEq, received⟩
    have ended := runsOut _ behave neither.2
    rw [meteredRun, transactSystemCall_of_outOfGas rfl ended] at calledEq
    cases calledEq
    have dueLe := le_due member
    have sameBalance := received payment.1 isPlain
    dsimp only at sameBalance
    omega
  · intro condition payees behave
    have meets := pays payees behave
    cases ended : body (meteredEnv schedule gasLimit payees)
        (.start (meteredEnv schedule gasLimit payees) world) with
    | ok final =>
        exact ⟨_, transactSystemCall_of_ok rfl ended, meets.returns_of_eq_ok ended⟩
    | error failure =>
        have failed := meets.throws_of_eq_error ended
        have nothing := condition.resolve_right (Nat.not_le.mpr failed.2)
        rw [failed.1] at ended
        refine ⟨_, transactSystemCall_of_outOfGas rfl ended, ?_⟩
        intro account isPlain
        rw [due_eq_zero nothing isPlain, Nat.add_zero]

/-! ## The two calls -/

/-- The deposit call as a function of its environment. -/
def creditBody (deposits : List (Address × Nat)) (env : CallEnv) :
    Frame → Except CallFailure Frame :=
  DepositVault.systemCreditDeposits env systemAddress
    { recipients := deposits.map Prod.fst
      amountsSats := deposits.map Prod.snd }

def lifecycleBody (call : SystemReportBundleLifecycleCall) (env : CallEnv) :
    Frame → Except CallFailure Frame :=
  systemReportBundleLifecycle env systemAddress call

theorem creditBody_eq (deposits : List (Address × Nat)) (env : CallEnv) (frame : Frame) :
    creditBody deposits env frame = deposits.foldlM (fun frame deposit =>
      DepositVault.creditDeposit env deposit.1 deposit.2 frame) frame := by
  unfold creditBody DepositVault.systemCreditDeposits
  rw [require_of_holds _ rfl, ok_bind, DepositVault.creditLoop_eq_foldlM]

/-- The gas a deposit call needs, whatever its recipients burn. -/
def creditGas (schedule : GasSchedule) (plain : PlainAccounts)
    (deposits : List (Address × Nat)) : Nat :=
  schedule.loopGas plain ((creditPayments deposits).map Prod.fst)

/-- The gas a lifecycle call needs, whatever the requesters burn. -/
def lifecycleGas (schedule : GasSchedule) (plain : PlainAccounts) (queue : Storage)
    (call : SystemReportBundleLifecycleCall) : Nat :=
  markingGas schedule call +
    schedule.loopGas plain ((refundPayments queue call.failedIndices).map Prod.fst)

/-! A recipient with code before a plain one, and the refund of the request of
block 1 once it is bundled. -/

def plainRequester : PlainAccounts where
  accounts := {.replicate 20 0x11}
  noCode := by
    intro account member
    rw [Finset.mem_singleton.mp member]
    decide

/-- The costs of a CALL to a cold account with a value, and of an event. -/
def callCosts : GasSchedule where
  bookkeeping := 10000
  beforeCall := fun _ => 11600
  afterCall := 1900
  bookkeeping_pos := by decide
  beforeCall_pos := fun _ => by decide

def burnedDeposits : List (Address × Nat) :=
  [(.replicate 20 0x22, 5), (.replicate 20 0x33, 5), (.replicate 20 0x11, 7)]

end Beth
