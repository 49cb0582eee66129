import Beth.Contracts.Escrow
import Beth.Contracts.QueueMachine

/-! # Escrow solvency

At every point of every run the contract holds what its requests lock, whatever
the index lists of the lifecycle calls name and wherever the payees of the
refunds re-enter it. -/

namespace Beth

open Foundation

namespace WithdrawalRequestQueue

/-! ## Totals -/

theorem Storage.total_setRequest_of_unqueued (amount : Request → Nat) (storage : Storage)
    {index : Nat} (request : Request) (unqueued : storage.requestCount ≤ index) :
    (storage.setRequest index request).total amount = storage.total amount := by
  apply Finset.sum_congr rfl
  intro other member
  have queued : other < storage.requestCount := Finset.mem_range.mp member
  rw [Storage.setRequest_of_ne _ _ (by omega)]

/-- The ether in escrow is that of the requests that were not refunded. -/
theorem Storage.total_escrowedSats (storage : Storage) :
    storage.total Request.escrowedSats =
      ∑ index ∈ (Finset.range storage.requestCount).filter fun index =>
          (storage.requests index).status ≠ .refunded,
        ((storage.requests index).valueSats + (storage.requests index).mainFeeSats) := by
  rw [Finset.sum_filter]
  apply Finset.sum_congr rfl
  intro index _
  unfold Request.escrowedSats
  cases (storage.requests index).status <;> rfl

/-- A bundled request, queued or not, has what it locks in escrow. -/
theorem Storage.lockedSats_le_escrowed {storage : Storage} {index : Nat}
    (unqueued : storage.requestCount ≤ index → (storage.requests index).lockedSats = 0)
    (bundled : (storage.requests index).status = .bundled) :
    (storage.requests index).lockedSats ≤ storage.total Request.escrowedSats := by
  by_cases queued : index < storage.requestCount
  · rw [← Request.escrowedSats_of_bundled bundled]
    exact Finset.single_le_sum
      (f := fun index => (storage.requests index).escrowedSats)
      (fun _ _ => Nat.zero_le _) (Finset.mem_range.mpr queued)
  · rw [unqueued (Nat.not_lt.mp queued)]
    exact Nat.zero_le _

/-- A lifecycle change moves the total by what it does to one request, unless
the index was never queued. -/
theorem Storage.total_refund {storage : Storage} {index : Nat}
    (unqueued : storage.requestCount ≤ index → (storage.requests index).lockedSats = 0)
    (bundled : (storage.requests index).status = .bundled) :
    (storage.setRequest index (storage.requests index).refund).total Request.escrowedSats +
        (storage.requests index).lockedSats = storage.total Request.escrowedSats := by
  by_cases queued : index < storage.requestCount
  · have total := storage.total_setRequest Request.escrowedSats
      (storage.requests index).refund queued
    rw [Request.escrowedSats_of_bundled bundled] at total
    exact total
  · have beyond := Nat.not_lt.mp queued
    rw [storage.total_setRequest_of_unqueued _ _ beyond, unqueued beyond, Nat.add_zero]

/-! ## What every journal keeps -/

namespace Journal

/-- Every queued request locks the `msg.value` it came with, and no other index
locks anything. -/
structure Recorded (journal : Journal) : Prop where
  length : journal.msgValues.length = journal.world.queue.requestCount
  queued : ∀ index, index < journal.world.queue.requestCount →
    0 < (journal.world.queue.requests index).valueSats ∧
      journal.msgValues[index]? = some (journal.world.queue.requests index).lockedWei
  unqueued : ∀ index, journal.world.queue.requestCount ≤ index →
    (journal.world.queue.requests index).lockedSats = 0

/-- A refund CALL of some ether is the last thing that happens to its request. -/
structure RefundedOnce (journal : Journal) : Prop where
  settled : ∀ refund ∈ journal.refunds, 0 < refund.2 →
    refund.1 < journal.world.queue.requestCount ∧
      (journal.world.queue.requests refund.1).status = .refunded
  nodup : ((journal.refunds.filter fun refund => 0 < refund.2).map Prod.fst).Nodup

structure Secured (journal : Journal) : Prop where
  escrowed : Escrowed journal.world
  recorded : journal.Recorded
  refundedOnce : journal.RefundedOnce

end Journal

theorem Journal.secured_initial (balances : Ledger Address) :
    (MachineState.initial balances).journal.Secured where
  escrowed := by
    unfold Escrowed
    change 0 * weiPerSat ≤ _
    rw [Nat.zero_mul]
    exact Nat.zero_le _
  recorded :=
    { length := rfl
      queued := fun index queued => absurd queued (Nat.not_lt_zero index)
      unqueued := fun _ _ => rfl }
  refundedOnce :=
    { settled := fun refund member => absurd member (List.not_mem_nil)
      nodup := List.nodup_nil }

namespace Journal.Secured

variable {keccak256 : Bytes → B256} {journal : Journal}

/-- Ether that moves without taking any from the contract. -/
theorem withBalances (secured : journal.Secured) {balances : Ledger Address}
    (more : journal.world.balances withdrawalRequestQueueAddress ≤
      balances withdrawalRequestQueueAddress) :
    (journal.withBalances balances).Secured where
  escrowed := secured.escrowed.of_le rfl more
  recorded := ⟨secured.recorded.length, secured.recorded.queued, secured.recorded.unqueued⟩
  refundedOnce := ⟨secured.refundedOnce.settled, secured.refundedOnce.nodup⟩

theorem request (secured : journal.Secured) {sender : Address}
    (notQueue : sender ≠ withdrawalRequestQueueAddress) {msgValue mainFeeSats : Nat}
    {btcDestination : Bytes} {next : Journal}
    (returned : journal.requestWithdrawal keccak256 sender msgValue btcDestination
      mainFeeSats = .ok next) : next.Secured := by
  rcases Journal.requestWithdrawal_ok returned with
    ⟨request, pending, positive, _, _, covered, isNext⟩
  have newest : (journal.world.queue.append request).requests
      journal.world.queue.requestCount = request := Storage.setRequest_same _ _ _
  have unchanged : ∀ index, index ≠ journal.world.queue.requestCount →
      (journal.world.queue.append request).requests index =
        journal.world.queue.requests index := fun index different =>
    Storage.setRequest_of_ne _ _ different
  subst isNext
  constructor
  · unfold Escrowed
    change Storage.total _ (journal.world.queue.append request) * weiPerSat ≤
      journal.world.balances.move sender withdrawalRequestQueueAddress request.lockedWei
        withdrawalRequestQueueAddress
    have total := journal.world.queue.total_append Request.escrowedSats request
    change Storage.total _ (journal.world.queue.append request) = _ at total
    rw [total, Request.escrowedSats_of_pending pending, Nat.add_mul, Ledger.move,
      Ledger.credit_apply, if_pos rfl, Ledger.debit_apply, if_neg notQueue.symm, Nat.sub_zero]
    exact Nat.add_le_add_right secured.escrowed _
  · constructor
    · change (journal.msgValues ++ [request.lockedWei]).length = _ + 1
      rw [List.length_append, secured.recorded.length, List.length_singleton]
    · intro index queued
      change index < journal.world.queue.requestCount + 1 at queued
      change 0 < ((journal.world.queue.append request).requests index).valueSats ∧
        (journal.msgValues ++ [request.lockedWei])[index]? =
          some ((journal.world.queue.append request).requests index).lockedWei
      by_cases atEnd : index = journal.world.queue.requestCount
      · subst atEnd
        rw [newest, ← secured.recorded.length, List.getElem?_concat_length]
        exact ⟨positive, rfl⟩
      · have before : index < journal.world.queue.requestCount := by omega
        rw [unchanged index atEnd,
          List.getElem?_append_left (secured.recorded.length ▸ before)]
        exact secured.recorded.queued index before
    · intro index beyond
      change journal.world.queue.requestCount + 1 ≤ index at beyond
      change ((journal.world.queue.append request).requests index).lockedSats = 0
      rw [unchanged index (by omega)]
      exact secured.recorded.unqueued index (by omega)
  · constructor
    · intro refund member positive
      have settled := secured.refundedOnce.settled refund member positive
      constructor
      · exact settled.1.trans (Nat.lt_succ_self _)
      · change ((journal.world.queue.append request).requests refund.1).status = _
        rw [unchanged refund.1 settled.1.ne]
        exact settled.2
    · exact secured.refundedOnce.nodup

section Changes

variable (keccak256)

/-- What a request records does not change with its status. -/
theorem recorded_assign (secured : journal.Secured) (index : Nat)
    {change : Request → Request} (fields : List Field)
    (same : ∀ request : Request, request.SameWithdrawal (change request)) :
    (journal.assign keccak256 index change fields).Recorded := by
  have withdrawal : ∀ other, (journal.world.queue.requests other).SameWithdrawal
      ((journal.assign keccak256 index change fields).world.queue.requests other) := by
    intro other
    change Request.SameWithdrawal _ ((journal.world.queue.setRequest index
      (change (journal.world.queue.requests index))).requests other)
    by_cases here : other = index
    · subst here
      rw [Storage.setRequest_same]
      exact same _
    · rw [Storage.setRequest_of_ne _ _ here]
      exact .refl _
  have locked : ∀ other,
      ((journal.assign keccak256 index change fields).world.queue.requests other).lockedSats =
        (journal.world.queue.requests other).lockedSats := by
    intro other
    rw [Request.lockedSats, Request.lockedSats, (withdrawal other).2.1, (withdrawal other).2.2.1]
  constructor
  · exact secured.recorded.length
  · intro other queued
    have before := secured.recorded.queued other queued
    rw [Request.lockedWei, locked, ← (withdrawal other).2.1]
    exact before
  · intro other beyond
    rw [locked]
    exact secured.recorded.unqueued other beyond

/-- No request that was refunded is changed again. -/
theorem status_kept (secured : journal.Secured) {index : Nat} (change : Request → Request)
    (fields : List Field)
    (notRefunded : (journal.world.queue.requests index).status ≠ .refunded) :
    ∀ refund ∈ journal.refunds, 0 < refund.2 →
      refund.1 < journal.world.queue.requestCount ∧ refund.1 ≠ index ∧
        ((journal.assign keccak256 index change fields).world.queue.requests
          refund.1).status = .refunded := by
  intro refund member positive
  have settled := secured.refundedOnce.settled refund member positive
  have different : refund.1 ≠ index := fun here => notRefunded (here ▸ settled.2)
  refine ⟨settled.1, different, ?_⟩
  change ((journal.world.queue.setRequest index _).requests refund.1).status = _
  rw [Storage.setRequest_of_ne _ _ different]
  exact settled.2

/-- Bundling and confirming keep the ether of the request in escrow. -/
theorem assign (secured : journal.Secured) {index : Nat} {change : Request → Request}
    (fields : List Field) (same : ∀ request : Request, request.SameWithdrawal (change request))
    (kept : (change (journal.world.queue.requests index)).escrowedSats =
      (journal.world.queue.requests index).escrowedSats)
    (notRefunded : (journal.world.queue.requests index).status ≠ .refunded) :
    (journal.assign keccak256 index change fields).Secured where
  escrowed := by
    by_cases queued : index < journal.world.queue.requestCount
    · exact secured.escrowed.change queued kept
    · unfold Escrowed
      change Storage.total _ (journal.world.queue.setRequest index _) * weiPerSat ≤ _
      rw [Storage.total_setRequest_of_unqueued _ _ _ (Nat.not_lt.mp queued)]
      exact secured.escrowed
  recorded := secured.recorded_assign keccak256 index fields same
  refundedOnce :=
    { settled := fun refund member positive => by
        have settled := secured.status_kept keccak256 change fields
          notRefunded refund member positive
        exact ⟨settled.1, settled.2.2⟩
      nodup := secured.refundedOnce.nodup }

variable {index : Nat}

/-- With the mark of a refund the ether of the request leaves the escrow. -/
theorem escrow_markRefunded (secured : journal.Secured)
    (bundled : (journal.world.queue.requests index).status = .bundled) :
    (journal.markRefunded keccak256 index).world.queue.total Request.escrowedSats *
        weiPerSat + (journal.world.queue.requests index).lockedWei ≤
      journal.world.balances withdrawalRequestQueueAddress := by
  have total := Storage.total_refund (secured.recorded.unqueued index) bundled
  change (journal.world.queue.setRequest index _).total _ * weiPerSat +
    (journal.world.queue.requests index).lockedSats * weiPerSat ≤ _
  rw [← Nat.add_mul, total]
  exact secured.escrowed

theorem markRefunded (secured : journal.Secured)
    (bundled : (journal.world.queue.requests index).status = .bundled) :
    (journal.markRefunded keccak256 index).Secured where
  escrowed := (Nat.le_add_right _ _).trans
    (secured.escrow_markRefunded keccak256 bundled)
  recorded := by
    have recorded := secured.recorded_assign keccak256 index [.status]
      Request.sameWithdrawal_refund
    exact ⟨recorded.length, recorded.queued, recorded.unqueued⟩
  refundedOnce := by
    have kept := secured.status_kept keccak256 Request.refund [.status]
      (show (journal.world.queue.requests index).status ≠ .refunded by
        rw [bundled]
        decide)
    have marked : ((journal.markRefunded keccak256 index).world.queue.requests index).status =
        .refunded := by
      change ((journal.world.queue.setRequest index _).requests index).status = _
      rw [Storage.setRequest_same]
      rfl
    constructor
    · intro refund member positive
      rcases List.mem_append.mp member with isEarlier | isNew
      · have settled := kept refund isEarlier positive
        exact ⟨settled.1, settled.2.2⟩
      · rw [List.mem_singleton] at isNew
        subst isNew
        refine ⟨?_, marked⟩
        by_contra unqueued
        have nothing := secured.recorded.unqueued index (Nat.not_lt.mp unqueued)
        change 0 < (journal.world.queue.requests index).lockedSats * weiPerSat at positive
        rw [nothing, Nat.zero_mul] at positive
        exact absurd positive (Nat.lt_irrefl 0)
    · change (((journal.refunds ++ [_]).filter _).map Prod.fst).Nodup
      rw [List.filter_append, List.map_append]
      apply List.nodup_append.mpr
      refine ⟨secured.refundedOnce.nodup, ?_, ?_⟩
      · exact (List.nodup_singleton index).sublist (List.filter_sublist.map Prod.fst)
      · intro earlier isEarlier newest isNewest
        rcases List.mem_map.mp isEarlier with ⟨refund, inFilter, isFirst⟩
        rcases List.mem_map.mp isNewest with ⟨last, inLast, isLast⟩
        have positive := List.mem_filter.mp inFilter
        have settled := kept refund positive.1 (of_decide_eq_true positive.2)
        have isIndex : last.1 = index := by
          rw [List.mem_singleton.mp (List.mem_filter.mp inLast).1]
        rw [← isFirst, ← isLast, isIndex]
        exact settled.2.1

theorem payRefund (secured : journal.Secured)
    (bundled : (journal.world.queue.requests index).status = .bundled)
    (notPredeploy : (journal.world.queue.requests index).requester ∉ predeploys) :
    ((journal.markRefunded keccak256 index).payRefund index).Secured := by
  have marked := secured.markRefunded keccak256 bundled
  refine ⟨?_, ⟨marked.recorded.length, marked.recorded.queued, marked.recorded.unqueued⟩,
    ⟨marked.refundedOnce.settled, marked.refundedOnce.nodup⟩⟩
  have released := secured.escrow_markRefunded keccak256 bundled
  have refunded : (journal.markRefunded keccak256 index).world.queue.requests index =
      (journal.world.queue.requests index).refund := Storage.setRequest_same _ _ _
  have notQueue : withdrawalRequestQueueAddress ≠
      (journal.world.queue.requests index).requester := fun isQueue =>
    notPredeploy (isQueue ▸ queue_mem_predeploys)
  unfold Escrowed
  change Storage.total _ (journal.markRefunded keccak256 index).world.queue * weiPerSat ≤
    journal.world.balances.move withdrawalRequestQueueAddress
      ((journal.markRefunded keccak256 index).world.queue.requests index).requester
      ((journal.markRefunded keccak256 index).world.queue.requests index).lockedWei
      withdrawalRequestQueueAddress
  rw [refunded]
  change _ ≤ journal.world.balances.move withdrawalRequestQueueAddress
    (journal.world.queue.requests index).requester
    (journal.world.queue.requests index).lockedWei withdrawalRequestQueueAddress
  rw [Ledger.move, Ledger.credit_apply, if_neg notQueue, Ledger.debit_apply, if_pos rfl]
  omega

end Changes

theorem effect (secured : journal.Secured) {next : Journal}
    (effect : journal.Effect keccak256 next) : next.Secured := by
  cases effect with
  | none => exact secured
  | credit account amountWei =>
      apply secured.withBalances
      rw [Ledger.credit_apply]
      exact Nat.le_add_right _ _
  | spend amountWei notQueue =>
      apply secured.withBalances
      rw [Ledger.debit_apply, if_neg notQueue.symm, Nat.sub_zero]
  | transfer recipient notQueue covered =>
      apply secured.withBalances
      exact Ledger.le_move_of_ne_sender _ _ notQueue.symm
  | request notQueue returned => exact secured.request notQueue returned
  | bundle newM6id pending =>
      apply secured.assign keccak256 _ (Request.sameWithdrawal_bundle · newM6id)
      · rw [Request.escrowedSats_of_pending pending]
        rfl
      · rw [pending]
        decide
  | confirm bundled =>
      apply secured.assign keccak256 _ Request.sameWithdrawal_confirm
      · rw [Request.escrowedSats_of_bundled bundled]
        rfl
      · rw [bundled]
        decide
  | refund bundled => exact secured.markRefunded keccak256 bundled
  | refundPaid bundled notPredeploy _ => exact secured.payRefund keccak256 bundled notPredeploy

end Journal.Secured

/-! ## Every point of every run -/

open MachineState

theorem secured_of_run {keccak256 : Bytes → B256} {balances : Ledger Address}
    {history : List Action} {state : MachineState}
    (run : Run (Steps keccak256) (.initial balances) history state) :
    state.journal.Secured :=
  (holds_of_run Journal.Secured (fun _ _ secured effect => secured.effect effect) rfl
    (Journal.secured_initial balances) run).1

/-- The contract covers every request that it has not refunded, can make the
refund it comes to next, refunds no request twice, and each request locks the
`msg.value` it was queued with. -/
theorem escrow_covers_requests (keccak256 : Bytes → B256) (balances : Ledger Address)
    (history : List Action) (state : MachineState)
    (run : Run (Steps keccak256) (.initial balances) history state) :
    (∑ index ∈ (Finset.range state.journal.world.queue.requestCount).filter fun index =>
          (state.journal.world.queue.requests index).status ≠ .refunded,
        ((state.journal.world.queue.requests index).valueSats +
          (state.journal.world.queue.requests index).mainFeeSats)) * weiPerSat ≤
      state.journal.world.balances withdrawalRequestQueueAddress ∧
    (∀ index, state.nextRefund = some index →
      (state.journal.world.queue.requests index).lockedWei ≤
        state.journal.world.balances withdrawalRequestQueueAddress) ∧
    ((state.journal.refunds.filter fun refund => 0 < refund.2).map Prod.fst).Nodup ∧
    (∀ refund ∈ state.journal.refunds, 0 < refund.2 →
      refund.1 < state.journal.world.queue.requestCount ∧
        (state.journal.world.queue.requests refund.1).status = .refunded) ∧
    ∀ index, index < state.journal.world.queue.requestCount →
      1 ≤ (state.journal.world.queue.requests index).valueSats ∧
      state.journal.msgValues[index]? =
        some (((state.journal.world.queue.requests index).valueSats +
          (state.journal.world.queue.requests index).mainFeeSats) * weiPerSat) ∧
      (state.journal.world.queue.requests index).valueSats < 2 ^ 64 ∧
      (state.journal.world.queue.requests index).mainFeeSats < 2 ^ 64 := by
  have secured := secured_of_run run
  have escrowed := secured.escrowed
  unfold Escrowed at escrowed
  refine ⟨?_, ?_, secured.refundedOnce.nodup, secured.refundedOnce.settled, ?_⟩
  · rw [← Storage.total_escrowedSats]
    exact escrowed
  · intro index isNext
    have locked := Storage.lockedSats_le_escrowed (secured.recorded.unqueued index)
      (nextRefund_bundled isNext)
    exact (Nat.mul_le_mul_right weiPerSat locked).trans escrowed
  · intro index queued
    have recorded := secured.recorded.queued index queued
    have fits := (state.journal.world.queue.requests index).fits
    exact ⟨recorded.1, recorded.2, by omega, by omega⟩

/-! The payee of the first of two failed requests queues a third one while it is
being refunded. The call also names an index that was never queued, whose payee
rejects its nothing. -/

def reenteringPayee : UserAccount where
  address := addressOfNat 0xcafe
  notPredeploy := by decide

def reenteringHistory : List Action :=
  [.credit reenteringPayee.address (100 * weiPerSat),
    .transact reenteringPayee,
    .requestWithdrawal (5 * weiPerSat) [0xaa] 1,
    .requestWithdrawal (7 * weiPerSat) [0xbb] 2,
    .leave,
    .systemCall
      { bundledIndices := [0, 1, 9]
        newM6id := .replicate 32 7
        succeededIndices := []
        failedIndices := [0, 9] },
    .advance,
    .advance,
    .advance,
    .advance,
    .requestWithdrawal (3 * weiPerSat) [0xcc] 0,
    .leave,
    .advance,
    .revert,
    .advance]

theorem escrow_covers_requests_reentered :
    ∃ state : MachineState,
      Run (Steps fun _ => .replicate 32 0) (.initial fun _ => 0) reenteringHistory state ∧
      (state.journal.world.queue.requestCount = 3 ∧
        state.journal.refunds = [(0, 5 * weiPerSat), (9, 0)] ∧
        state.journal.world.balances withdrawalRequestQueueAddress = 10 * weiPerSat) ∧
      (∑ index ∈ (Finset.range state.journal.world.queue.requestCount).filter fun index =>
            (state.journal.world.queue.requests index).status ≠ .refunded,
          ((state.journal.world.queue.requests index).valueSats +
            (state.journal.world.queue.requests index).mainFeeSats)) * weiPerSat ≤
        state.journal.world.balances withdrawalRequestQueueAddress := by
  have executed :
      (stepAll (fun _ => .replicate 32 0) (.initial fun _ => 0) reenteringHistory).map
        (fun state => (state.journal.world.queue.requestCount, state.journal.refunds,
          state.journal.world.balances withdrawalRequestQueueAddress)) =
      some (3, [(0, 5 * weiPerSat), (9, 0)], 10 * weiPerSat) := by
    decide +kernel
  rcases Option.map_eq_some_iff.mp executed with ⟨state, taken, fields⟩
  have run := run_of_stepAll _ taken
  exact ⟨state, run, ⟨congrArg (·.1) fields, congrArg (·.2.1) fields, congrArg (·.2.2) fields⟩,
    (escrow_covers_requests _ _ _ state run).1⟩

end WithdrawalRequestQueue

end Beth
