import Beth.Contracts.DepositVault
import Beth.Contracts.ReportBundleLifecycle

/-! # The gas of a system call

A payee with code may burn whatever is forwarded to it, so that an iteration of
a paying loop is sure of only one 64th of the gas at its CALL. The gas a loop
needs, whatever its payees do, is therefore counted backwards from its end. -/

namespace Beth

open Foundation WithdrawalRequestQueue

/-- Accounts without code. -/
structure PlainAccounts where
  accounts : Finset Address
  noCode : ∀ account ∈ accounts, account ∉ predeploys

/-- The reactions considered for a payee: it accepts or rejects the ether and
burns forwarded gas. Plain accounts accept, and the predeploys, which have no
receive function, burn nothing. -/
structure Behaves (plain : PlainAccounts) (payee : Address) (behaviour : Payee) : Prop where
  quiet : behaviour.actions = []
  plain : payee ∈ plain.accounts → behaviour = .plain
  predeploy : payee ∈ predeploys → behaviour.gasBurned = 0

/-- A payee whose code decides how much forwarded gas it burns. -/
def PlainAccounts.MayBurn (plain : PlainAccounts) (payee : Address) : Prop :=
  payee ∉ plain.accounts ∧ payee ∉ predeploys

instance (plain : PlainAccounts) : DecidablePred plain.MayBurn := fun payee => by
  unfold PlainAccounts.MayBurn
  infer_instance

theorem Behaves.burns_nothing {plain : PlainAccounts} {payee : Address} {behaviour : Payee}
    (behaves : Behaves plain payee behaviour) (mayNot : ¬ plain.MayBurn payee) :
    behaviour.gasBurned = 0 := by
  by_cases isPlain : payee ∈ plain.accounts
  · rw [behaves.plain isPlain]
    rfl
  · apply behaves.predeploy
    by_contra notPredeploy
    exact mayNot ⟨isPlain, notPredeploy⟩

/-! ## One iteration -/

namespace GasSchedule

variable (schedule : GasSchedule)

/-- What a paying iteration leaves, if it does not run out of gas. -/
def spend (payee : Address) (burned gas : Nat) : Option Nat :=
  let forwarding := gas - schedule.beforeCall payee
  let returned := forwarding - min burned (Frame.forwardedGas forwarding)
  if schedule.beforeCall payee ≤ gas ∧ schedule.afterCall ≤ returned then
    some (returned - schedule.afterCall)
  else none

/-- The gas an iteration needs to be sure to leave `rest`. -/
def iterationGas (plain : PlainAccounts) (payee : Address) (rest : Nat) : Nat :=
  if plain.MayBurn payee then
    schedule.beforeCall payee + 64 * (schedule.afterCall + rest)
  else
    schedule.beforeCall payee + (schedule.afterCall + rest)

/-- The gas a paying loop needs, whatever its payees burn. -/
def loopGas (plain : PlainAccounts) (payees : List Address) : Nat :=
  payees.foldr (schedule.iterationGas plain) 0

variable {schedule} {plain : PlainAccounts} {payee : Address} {gas rest : Nat}

theorem spend_le {burned left : Nat} (spent : schedule.spend payee burned gas = some left) :
    left ≤ gas := by
  unfold spend at spent
  dsimp only at spent
  split at spent
  · cases spent
    omega
  · cases spent

/-- Enough gas leaves enough, whatever the payee burns. -/
theorem spend_of_enough {behaviour : Payee} (behaves : Behaves plain payee behaviour)
    (enough : schedule.iterationGas plain payee rest ≤ gas) :
    ∃ left, schedule.spend payee behaviour.gasBurned gas = some left ∧ rest ≤ left := by
  unfold iterationGas at enough
  unfold spend Frame.forwardedGas
  by_cases mayBurn : plain.MayBurn payee
  · rw [if_pos mayBurn] at enough
    dsimp only
    rw [if_pos ⟨by omega, by omega⟩]
    exact ⟨_, rfl, by omega⟩
  · rw [if_neg mayBurn] at enough
    rw [behaves.burns_nothing mayBurn]
    dsimp only
    rw [if_pos ⟨by omega, by omega⟩]
    exact ⟨_, rfl, by omega⟩

/-- Less gas does not, once the payee burns all it can. -/
theorem spend_of_short {behaviour : Payee} {left : Nat}
    (behaves : Behaves plain payee behaviour)
    (burnsAll : plain.MayBurn payee → gas ≤ behaviour.gasBurned)
    (short : gas < schedule.iterationGas plain payee rest)
    (spent : schedule.spend payee behaviour.gasBurned gas = some left) : left < rest := by
  unfold iterationGas at short
  unfold spend Frame.forwardedGas at spent
  by_cases mayBurn : plain.MayBurn payee
  · rw [if_pos mayBurn] at short
    have burned := burnsAll mayBurn
    dsimp only at spent
    split at spent
    · cases spent
      omega
    · cases spent
  · rw [if_neg mayBurn] at short
    rw [behaves.burns_nothing mayBurn] at spent
    dsimp only at spent
    split at spent
    · cases spent
      omega
    · cases spent

end GasSchedule

/-- The frame after one payment of a metered loop. -/
structure Paid (env : CallEnv) (payer payee : Address) (amountWei left : Nat)
    (before after : Frame) : Prop where
  gas : after.gas = some left
  calls : after.calls = before.calls + 1
  balances : after.world.balances =
    if (env.payees before.calls).accepts ∧ payee ∉ predeploys then
      before.world.balances.move payer payee amountWei
    else before.world.balances

/-- One iteration of a metered loop pays unless it runs out of gas, and does the
latter exactly when nothing is left. -/
def Iterates (env : CallEnv) (payer payee : Address) (amountWei gas : Nat) (frame : Frame)
    (Returns : Frame → Prop) (result : Except CallFailure Frame) : Prop :=
  match env.schedule.spend payee (env.payees frame.calls).gasBurned gas with
  | some left =>
      ∃ next, result = .ok next ∧ Paid env payer payee amountWei left frame next ∧
        Returns next
  | none => result = .error .outOfGas

theorem Iterates.mono {env : CallEnv} {payer payee : Address} {amountWei gas : Nat}
    {frame : Frame} {Returns Weaker : Frame → Prop} {result : Except CallFailure Frame}
    (iterates : Iterates env payer payee amountWei gas frame Returns result)
    (weaken : ∀ next, Returns next → Weaker next) :
    Iterates env payer payee amountWei gas frame Weaker result := by
  unfold Iterates at iterates ⊢
  split
  · rename_i left spent
    rw [spent] at iterates
    rcases iterates with ⟨next, returned, paid, holds⟩
    exact ⟨next, returned, paid, weaken next holds⟩
  · rename_i spent
    rw [spent] at iterates
    exact iterates

theorem Frame.charge_metered {frame : Frame} {gas : Nat} (cost : Nat)
    (metered : frame.gas = some gas) :
    frame.charge cost =
      if cost ≤ gas then .ok { frame with gas := some (gas - cost) }
      else .error .outOfGas := by
  simp [charge, metered]

/-- A covered CALL to a payee that runs no user code. -/
theorem Frame.call_metered {env : CallEnv} {payer : Address} (payee : Address)
    {amountWei gas : Nat} {frame : Frame} (metered : frame.gas = some gas)
    (covered : amountWei ≤ frame.world.balances payer)
    (quiet : (env.payees frame.calls).actions = []) :
    (frame.call env payer payee amountWei).1.gas =
        some (gas - min (env.payees frame.calls).gasBurned (forwardedGas gas)) ∧
      (frame.call env payer payee amountWei).1.world.queue = frame.world.queue ∧
      (frame.call env payer payee amountWei).1.world.balances =
        if (env.payees frame.calls).accepts ∧ payee ∉ predeploys then
          frame.world.balances.move payer payee amountWei
        else frame.world.balances := by
  unfold call
  dsimp only
  rw [if_neg (by omega), quiet]
  split <;> simp [burnForwarded, metered]

/-- The end of an iteration: the CALL, its bookkeeping and its event. -/
theorem iterates_of_charged {env : CallEnv} {payer payee : Address} {amountWei gas : Nat}
    {frame charged : Frame} (event : Bool → Event)
    (enough : env.schedule.beforeCall payee ≤ gas)
    (metered : charged.gas = some (gas - env.schedule.beforeCall payee))
    (sameCalls : charged.calls = frame.calls)
    (sameBalances : charged.world.balances = frame.world.balances)
    (covered : amountWei ≤ frame.world.balances payer)
    (quiet : (env.payees frame.calls).actions = []) :
    Iterates env payer payee amountWei gas frame
      (fun next => next.world.queue = charged.world.queue)
      (do
        let after ← (charged.call env payer payee amountWei).1.charge env.schedule.afterCall
        pure (after.emit (event (charged.call env payer payee amountWei).2))) := by
  have called := Frame.call_metered payee metered (sameBalances ▸ covered)
    (sameCalls ▸ quiet)
  have calls := charged.call_calls env payer payee amountWei
  rw [sameCalls, sameBalances] at called
  rw [sameCalls] at calls
  generalize charged.call env payer payee amountWei = outcome at called calls ⊢
  rw [Frame.charge_metered _ called.1]
  unfold Iterates GasSchedule.spend
  dsimp only
  by_cases enoughAfter : env.schedule.afterCall ≤ gas - env.schedule.beforeCall payee -
      min (env.payees frame.calls).gasBurned
        (Frame.forwardedGas (gas - env.schedule.beforeCall payee))
  · rw [if_pos enoughAfter, if_pos ⟨enough, enoughAfter⟩]
    exact ⟨_, rfl, ⟨rfl, calls, called.2.2⟩, called.2.1⟩
  · rw [if_neg enoughAfter, if_neg fun both => enoughAfter both.2]
    rfl

/-- An iteration that cannot pay for the work before its CALL. -/
theorem iterates_of_short {env : CallEnv} {payer payee : Address} {amountWei gas : Nat}
    {frame : Frame} (Returns : Frame → Prop)
    (short : ¬ env.schedule.beforeCall payee ≤ gas) :
    Iterates env payer payee amountWei gas frame Returns (.error .outOfGas) := by
  unfold Iterates GasSchedule.spend
  rw [if_neg fun both => short both.1]

theorem DepositVault.creditDeposit_iterates {env : CallEnv} (recipient : Address)
    {amountSats gas : Nat} {frame : Frame} (fits : amountSats < 2 ^ 64)
    (metered : frame.gas = some gas)
    (covered : amountSats * weiPerSat ≤ frame.world.balances depositVaultAddress)
    (quiet : (env.payees frame.calls).actions = []) :
    Iterates env depositVaultAddress recipient (amountSats * weiPerSat) gas frame
      (fun next => next.world.queue = frame.world.queue)
      (creditDeposit env recipient amountSats frame) := by
  unfold creditDeposit
  rw [Frame.charge_metered _ metered]
  by_cases enough : env.schedule.beforeCall recipient ≤ gas
  · rw [if_pos enough, ok_bind, checkedMul_weiPerSat fits, ok_bind]
    exact iterates_of_charged (fun success => .depositCredited recipient amountSats success)
      enough rfl rfl rfl covered quiet
  · rw [if_neg enough]
    exact iterates_of_short _ enough

theorem WithdrawalRequestQueue.refundRequest_iterates {env : CallEnv} {index gas : Nat}
    {request : Request} {frame : Frame}
    (requestEq : frame.world.queue.requests index = request)
    (bundled : request.status = .bundled) (metered : frame.gas = some gas)
    (covered : request.lockedWei ≤ frame.world.balances withdrawalRequestQueueAddress)
    (quiet : (env.payees frame.calls).actions = []) :
    Iterates env withdrawalRequestQueueAddress request.requester request.lockedWei gas frame
      (fun next => next.world.queue = frame.world.queue.setRequest index request.refund)
      (refundRequest env frame index) := by
  unfold refundRequest
  dsimp only
  rw [requestEq, Frame.charge_metered _ metered]
  by_cases enough : env.schedule.beforeCall request.requester ≤ gas
  · rw [if_pos enough, ok_bind, require_of_holds _ bundled, ok_bind,
      request.lockedWei_checked.1, ok_bind, request.lockedWei_checked.2, ok_bind]
    exact iterates_of_charged
      (fun success => .withdrawalRefunded index request.bundleM6id success)
      enough rfl rfl rfl covered quiet
  · rw [if_neg enough]
    exact iterates_of_short _ enough

/-! ## Whole loops -/

/-- What a payee is due from a list of payments. -/
def due (payee : Address) (payments : List (Address × Nat)) : Nat :=
  ((payments.filter fun payment => payment.1 = payee).map Prod.snd).sum

theorem due_cons (payee : Address) (payment : Address × Nat)
    (rest : List (Address × Nat)) :
    due payee (payment :: rest) =
      (if payment.1 = payee then payment.2 else 0) + due payee rest := by
  by_cases same : payment.1 = payee
  · simp [due, same]
  · simp [due, same]

namespace Paid

variable {env : CallEnv} {payer payee : Address} {amountWei left : Nat}
  {before after : Frame}

/-- The payer spends at most the amount. -/
theorem payer_le (paid : Paid env payer payee amountWei left before after)
    (payerMem : payer ∈ predeploys) :
    before.world.balances payer ≤ after.world.balances payer + amountWei := by
  rw [paid.balances]
  split
  · rename_i accepted
    have different : payer ≠ payee := fun same => accepted.2 (same ▸ payerMem)
    rw [Ledger.move, Ledger.credit_apply, if_neg different, Ledger.debit_apply, if_pos rfl]
    omega
  · exact Nat.le_add_right _ _

/-- A plain account gains its own payments and nothing else. -/
theorem plain_balance {plain : PlainAccounts}
    (paid : Paid env payer payee amountWei left before after)
    (payerMem : payer ∈ predeploys)
    (behaves : Behaves plain payee (env.payees before.calls)) {account : Address}
    (isPlain : account ∈ plain.accounts) :
    after.world.balances account =
      before.world.balances account + if payee = account then amountWei else 0 := by
  have notPayer : account ≠ payer := fun same =>
    plain.noCode account isPlain (same ▸ payerMem)
  have moved : before.world.balances.move payer payee amountWei account =
      before.world.balances account + if payee = account then amountWei else 0 := by
    rw [Ledger.move, Ledger.credit_apply, Ledger.debit_apply, if_neg notPayer, Nat.sub_zero]
    simp only [eq_comm]
  rw [paid.balances]
  split
  · exact moved
  · rename_i notAccepted
    have different : payee ≠ account := by
      intro same
      subst same
      rw [behaves.plain isPlain] at notAccepted
      exact notAccepted ⟨rfl, plain.noCode _ isPlain⟩
    rw [if_neg different, Nat.add_zero]

end Paid

/-- What a metered paying loop starts from: the payer can make every payment,
and the payees behave in the order they are called. -/
structure LoopStart {ι : Type} (env : CallEnv) (payer : Address) (plain : PlainAccounts)
    (payment : ι → Address × Nat) (Ready : List ι → Frame → Prop) (items : List ι)
    (frame : Frame) (gas : Nat) : Prop where
  ready : Ready items frame
  metered : frame.gas = some gas
  covered : ((items.map payment).map Prod.snd).sum ≤ frame.world.balances payer
  behaves : ∀ position, (inside : position < items.length) →
    Behaves plain (payment items[position]).1 (env.payees (frame.calls + position))

section Loop

variable {ι : Type} {env : CallEnv} {payer : Address} {plain : PlainAccounts}
  {step : Frame → ι → Except CallFailure Frame} {payment : ι → Address × Nat}
  {Ready : List ι → Frame → Prop} {items rest : List ι} {item : ι} {frame next : Frame}
  {gas left : Nat}

namespace LoopStart

theorem head_covered
    (start : LoopStart env payer plain payment Ready (item :: rest) frame gas) :
    (payment item).2 ≤ frame.world.balances payer := by
  have covered := start.covered
  simp only [List.map_cons, List.sum_cons] at covered
  omega

theorem head_behaves
    (start : LoopStart env payer plain payment Ready (item :: rest) frame gas) :
    Behaves plain (payment item).1 (env.payees frame.calls) :=
  start.behaves 0 (by simp)

theorem tail
    (start : LoopStart env payer plain payment Ready (item :: rest) frame gas)
    (payerMem : payer ∈ predeploys)
    (paid : Paid env payer (payment item).1 (payment item).2 left frame next)
    (ready : Ready rest next) :
    LoopStart env payer plain payment Ready rest next left where
  ready := ready
  metered := paid.gas
  covered := by
    have covered := start.covered
    have spent := paid.payer_le payerMem
    simp only [List.map_cons, List.sum_cons] at covered
    omega
  behaves := fun position inside => by
    have later := start.behaves (position + 1) (by simpa using inside)
    rw [paid.calls, show frame.calls + 1 + position = frame.calls + (position + 1) by omega]
    simpa using later

end LoopStart

variable (payerMem : payer ∈ predeploys)
  (iterates : ∀ item rest frame gas, Ready (item :: rest) frame → frame.gas = some gas →
    (payment item).2 ≤ frame.world.balances payer →
    (env.payees frame.calls).actions = [] →
    Iterates env payer (payment item).1 (payment item).2 gas frame (Ready rest)
      (step frame item))

include payerMem iterates

/-- A loop that returns has paid every plain account what it is due, and it runs
out of gas only if it had less than it needs. -/
theorem payLoop_meets (items : List ι) (frame : Frame) (gas : Nat)
    (start : LoopStart env payer plain payment Ready items frame gas) :
    Meets (items.foldlM step frame)
      (fun final => ∀ account ∈ plain.accounts, final.world.balances account =
        frame.world.balances account + due account (items.map payment))
      (fun failure => failure = .outOfGas ∧
        gas < env.schedule.loopGas plain ((items.map payment).map Prod.fst)) := by
  induction items generalizing frame gas with
  | nil => exact fun account _ => rfl
  | cons item rest induction =>
      have iteration := iterates item rest frame gas start.ready start.metered
        start.head_covered start.head_behaves.quiet
      rw [List.foldlM_cons]
      unfold Iterates at iteration
      cases spent : env.schedule.spend (payment item).1
          (env.payees frame.calls).gasBurned gas with
      | none =>
          rw [spent] at iteration
          rw [iteration]
          refine ⟨rfl, ?_⟩
          by_contra enough
          rcases GasSchedule.spend_of_enough start.head_behaves (Nat.le_of_not_lt enough)
            with ⟨left, leaves, _⟩
          rw [spent] at leaves
          cases leaves
      | some left =>
          rw [spent] at iteration
          rcases iteration with ⟨next, stepEq, paid, ready⟩
          rw [stepEq, ok_bind]
          refine (induction next left (start.tail payerMem paid ready)).mono ?_ ?_
          · intro final others account isPlain
            rw [others account isPlain, List.map_cons, due_cons,
              paid.plain_balance payerMem start.head_behaves isPlain, Nat.add_assoc]
          · intro failure failed
            refine ⟨failed.1, ?_⟩
            by_contra enough
            rcases GasSchedule.spend_of_enough start.head_behaves (Nat.le_of_not_lt enough)
              with ⟨enoughLeft, leaves, restLe⟩
            rw [spent] at leaves
            cases leaves
            exact absurd failed.2 (Nat.not_lt.mpr restLe)

/-- With less gas than it needs, and payees that burn all they can, the loop runs
out of gas. -/
theorem payLoop_short (items : List ι) (frame : Frame) (gas : Nat)
    (start : LoopStart env payer plain payment Ready items frame gas)
    (burnsAll : ∀ position, (inside : position < items.length) →
      plain.MayBurn (payment items[position]).1 →
      gas ≤ (env.payees (frame.calls + position)).gasBurned)
    (short : gas < env.schedule.loopGas plain ((items.map payment).map Prod.fst)) :
    items.foldlM step frame = .error .outOfGas := by
  induction items generalizing frame gas with
  | nil => exact absurd short (Nat.not_lt_zero _)
  | cons item rest induction =>
      have iteration := iterates item rest frame gas start.ready start.metered
        start.head_covered start.head_behaves.quiet
      rw [List.foldlM_cons]
      unfold Iterates at iteration
      cases spent : env.schedule.spend (payment item).1
          (env.payees frame.calls).gasBurned gas with
      | none =>
          rw [spent] at iteration
          rw [iteration]
          rfl
      | some left =>
          rw [spent] at iteration
          rcases iteration with ⟨next, stepEq, paid, ready⟩
          rw [stepEq, ok_bind]
          have leftShort := GasSchedule.spend_of_short start.head_behaves
            (burnsAll 0 (by simp)) short spent
          have leftLe := GasSchedule.spend_le spent
          refine induction next left (start.tail payerMem paid ready) ?_ leftShort
          intro position inside mayBurn
          have later := burnsAll (position + 1) (by simpa using inside) (by simpa using mayBurn)
          rw [paid.calls,
            show frame.calls + 1 + position = frame.calls + (position + 1) by omega]
          omega

end Loop

/-! ## The two system functions -/

theorem markRequest_gas (env : CallEnv) (expected : Status) (refusal : String)
    (change : Request → Request) (event : Nat → Request → Event) {frame : Frame}
    {gas : Nat} (index : Nat) (metered : frame.gas = some gas) :
    Meets (markRequest env expected refusal change event frame index)
      (fun next => env.schedule.bookkeeping ≤ gas ∧
        next.gas = some (gas - env.schedule.bookkeeping))
      (fun failure => failure = .outOfGas → gas < env.schedule.bookkeeping) := by
  unfold markRequest
  rw [Frame.charge_metered _ metered]
  by_cases enough : env.schedule.bookkeeping ≤ gas
  · rw [if_pos enough, ok_bind]
    unfold require
    dsimp only
    split
    · exact ⟨enough, rfl⟩
    · exact fun isGas => by cases isGas
  · rw [if_neg enough]
    exact fun _ => Nat.lt_of_not_le enough

/-- A loop of bookkeeping pays the same for every request. -/
theorem markLoop_gas (env : CallEnv) (expected : Status) (refusal : String)
    (change : Request → Request) (event : Nat → Request → Event) (indices : List Nat)
    {frame : Frame} {gas : Nat} (metered : frame.gas = some gas) :
    Meets (indices.foldlM (markRequest env expected refusal change event) frame)
      (fun next => indices.length * env.schedule.bookkeeping ≤ gas ∧
        next.gas = some (gas - indices.length * env.schedule.bookkeeping))
      (fun failure => failure = .outOfGas →
        gas < indices.length * env.schedule.bookkeeping) := by
  induction indices generalizing frame gas with
  | nil => exact ⟨by simp, by simp [metered]⟩
  | cons index rest induction =>
      rw [List.foldlM_cons, List.length_cons, Nat.add_mul, Nat.one_mul]
      refine Meets.bind ((markRequest_gas env expected refusal change event index
        metered).mono (fun _ charged => charged) fun _ short isGas => ?_) ?_
      · exact (short isGas).trans_le (Nat.le_add_left _ _)
      · intro next charged
        refine (induction charged.2).mono ?_ ?_
        · intro final others
          refine ⟨by omega, ?_⟩
          rw [others.2, Nat.sub_sub, Nat.add_comm]
        · intro failure short isGas
          have restShort := short isGas
          omega

/-- The payments of a deposit call. -/
def creditPayments (deposits : List (Address × Nat)) : List (Address × Nat) :=
  deposits.map fun deposit => (deposit.1, deposit.2 * weiPerSat)

/-- The payments of the refunds of a lifecycle call. -/
def refundPayments (queue : Storage) (indices : List Nat) : List (Address × Nat) :=
  indices.map fun index =>
    ((queue.requests index).requester, (queue.requests index).lockedWei)

/-- The gas of the bookkeeping that precedes the refunds. -/
def markingGas (schedule : GasSchedule) (call : SystemReportBundleLifecycleCall) : Nat :=
  (call.bundledIndices.length + call.succeededIndices.length) * schedule.bookkeeping

/-- What the refund loop starts from, for indices of bundled requests. -/
def RefundsReady (queue : Storage) (indices : List Nat) (frame : Frame) : Prop :=
  indices.Nodup ∧ ∀ index ∈ indices,
    frame.world.queue.requests index = queue.requests index ∧
      (queue.requests index).status = .bundled

theorem refundLoop_iterates (env : CallEnv) (queue : Storage) (index : Nat)
    (rest : List Nat) (frame : Frame) (gas : Nat)
    (ready : RefundsReady queue (index :: rest) frame) (metered : frame.gas = some gas)
    (covered : (queue.requests index).lockedWei ≤
      frame.world.balances withdrawalRequestQueueAddress)
    (quiet : (env.payees frame.calls).actions = []) :
    Iterates env withdrawalRequestQueueAddress (queue.requests index).requester
      (queue.requests index).lockedWei gas frame (RefundsReady queue rest)
      (refundRequest env frame index) := by
  have facts := ready.2 index (by simp)
  refine (refundRequest_iterates facts.1 facts.2 metered covered quiet).mono ?_
  intro next queueEq
  refine ⟨(List.nodup_cons.mp ready.1).2, ?_⟩
  intro other member
  have different : other ≠ index := fun same =>
    (List.nodup_cons.mp ready.1).1 (same ▸ member)
  rw [queueEq, Storage.setRequest_of_ne _ _ different]
  exact ready.2 other (by simp [member])

/-- What the bookkeeping of a lifecycle call costs. -/
theorem markLoops_gas (env : CallEnv) (call : SystemReportBundleLifecycleCall)
    {frame : Frame} {gas : Nat} (metered : frame.gas = some gas) :
    Meets (call.bundledIndices.foldlM (bundleRequest env call.newM6id) frame >>=
        call.succeededIndices.foldlM (confirmRequest env))
      (fun next => markingGas env.schedule call ≤ gas ∧
        next.gas = some (gas - markingGas env.schedule call))
      (fun failure => failure = .outOfGas → gas < markingGas env.schedule call) := by
  unfold markingGas
  rw [Nat.add_mul]
  refine Meets.bind ((markLoop_gas env .pending _ (Request.bundle call.newM6id) _
    call.bundledIndices metered).mono (fun _ bundled => bundled) fun _ short isGas => ?_) ?_
  · exact (short isGas).trans_le (Nat.le_add_right _ _)
  · intro bundled bundling
    refine (markLoop_gas env .bundled _ Request.confirm _ call.succeededIndices
      bundling.2).mono ?_ ?_
    · intro confirmed confirming
      refine ⟨by omega, ?_⟩
      rw [confirming.2, Nat.sub_sub]
    · intro failure short isGas
      have restShort := short isGas
      omega

/-- An accepted call either runs out of gas in its bookkeeping or goes on to the
refunds with everything they depend on unchanged. -/
theorem lifecycle_reaches_refunds (env : CallEnv) {call : SystemReportBundleLifecycleCall}
    (frame : Frame) {gas : Nat} (accepts : Accepts frame.world.queue call)
    (metered : frame.gas = some gas) :
    (gas < markingGas env.schedule call ∧
      systemReportBundleLifecycle env systemAddress call frame = .error .outOfGas) ∨
    (markingGas env.schedule call ≤ gas ∧ ∃ confirmed,
      systemReportBundleLifecycle env systemAddress call frame =
        call.failedIndices.foldlM (refundRequest env) confirmed ∧
      confirmed.gas = some (gas - markingGas env.schedule call) ∧
      confirmed.calls = frame.calls ∧
      confirmed.world.balances = frame.world.balances ∧
      RefundsReady frame.world.queue call.failedIndices confirmed) := by
  have marks := (markLoops_gas env call metered).and
    (markLoops_meets env call frame accepts)
  rw [systemReportBundleLifecycle_eq]
  cases marksEq : (call.bundledIndices.foldlM (bundleRequest env call.newM6id) frame >>=
      call.succeededIndices.foldlM (confirmRequest env)) with
  | error failure =>
      have failed := marks.throws_of_eq_error marksEq
      left
      rw [failed.2.1]
      exact ⟨failed.1 failed.2.1, rfl⟩
  | ok confirmed =>
      have facts := marks.returns_of_eq_ok marksEq
      have kept := accepts.kept_by_marking facts.2
      right
      refine ⟨facts.1.1, confirmed, rfl, facts.1.2, facts.2.calls, facts.2.balances,
        (List.nodup_append.mp accepts.resolved_nodup).2.1, ?_⟩
      intro index member
      exact ⟨(kept index member).2, accepts.resolved_bundled index (by simp [member])⟩

end Beth
