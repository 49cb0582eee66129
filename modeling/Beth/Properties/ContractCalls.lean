import Beth.Contracts.Calldata
import Beth.Contracts.QueueMachine

/-! # What call data can do

Users send the two contracts any bytes with any ether. All they can bring about is
that requests are queued behind those that are there, each locking the ether that
came with it. What the public getters return reads back as the entries. -/

namespace Beth

open Foundation

/-! ## One call -/

/-- Nobody but the protocol has `DepositVault` do anything. -/
theorem DepositVault.run_refuses (keccak256 : Bytes → B256) (env : CallEnv)
    {msgSender : Address} (notSystem : msgSender ≠ systemAddress) (msgValue : Nat)
    (calldata : Bytes) (frame : Frame) :
    Meets (DepositVault.run keccak256 env msgSender msgValue calldata frame)
      (fun _ => False) (fun failure => failure ≠ .outOfGas) := by
  rw [DepositVault.run]
  cases Abi.dispatch [systemCreditDepositsFunction keccak256] msgValue calldata with
  | none => exact fun isGas => by cases isGas
  | some arguments =>
      rw [dispatched, ok_bind, require_of_not _ notSystem]
      exact fun isGas => by cases isGas

namespace WithdrawalRequestQueue

/-- What one call of a user leaves: the state as it was, or one more request. -/
theorem run_user_meets (keccak256 : Bytes → B256) (env : CallEnv) {msgSender : Address}
    (notSystem : msgSender ≠ systemAddress) (msgValue : Nat) (calldata : Bytes)
    (frame : Frame) :
    Meets (run keccak256 env msgSender msgValue calldata frame)
      (fun reply => reply.frame = frame ∧ msgValue = 0 ∨
        ∃ btcDestination mainFeeSats, btcDestination.length < 2 ^ 64 ∧
          requestWithdrawal msgSender msgValue btcDestination mainFeeSats frame.world =
            .ok reply.frame.world)
      (fun _ => True) := by
  rw [run]
  cases found : Abi.dispatch (functions keccak256) msgValue calldata with
  | none => trivial
  | some invocation =>
      rcases Abi.dispatch_eq_some found with ⟨function, member, takesValue, decoded⟩
      cases Invocation.eq_function_of_decode member decoded
      rw [dispatched, ok_bind]
      cases invocation with
      | requestCount => exact Or.inl ⟨rfl, takesValue.resolve_left Bool.false_ne_true⟩
      | requests index => exact Or.inl ⟨rfl, takesValue.resolve_left Bool.false_ne_true⟩
      | requestWithdrawal btcDestination mainFeeSats =>
          have short : btcDestination.length < 2 ^ 64 := by
            rcases Option.bind_eq_some_iff.mp decoded with ⟨_, destinationFound, isCall⟩
            cases isCall
            exact Abi.length_decodeBytes destinationFound
          rw [Invocation.execute]
          cases returned : requestWithdrawal msgSender msgValue btcDestination
              mainFeeSats.toNat frame.world with
          | error failure => trivial
          | ok world => exact Or.inr ⟨btcDestination, mainFeeSats.toNat, short, returned⟩
      | systemReportBundleLifecycle bundledIndices newM6id succeededIndices failedIndices =>
          rw [Invocation.execute, systemReportBundleLifecycle, require_of_not _ notSystem]
          trivial

/-! ## Any number of calls -/

/-- A transaction of a user that calls one of the contracts. -/
structure ContractTransaction where
  sender : UserAccount
  notSystem : sender.address ≠ systemAddress
  recipient : Address
  isPredeploy : recipient ∈ predeploys
  msgValue : Nat
  calldata : Bytes
  env : CallEnv

/-- A call that reverts leaves the world. -/
def ContractTransaction.apply (keccak256 : Bytes → B256) (transaction : ContractTransaction)
    (world : World) : World :=
  match runCode keccak256 transaction.env transaction.recipient transaction.sender.address
      transaction.msgValue transaction.calldata (.start transaction.env world) with
  | .ok frame => frame.world
  | .error _ => world

def applyTransactions (keccak256 : Bytes → B256) (transactions : List ContractTransaction)
    (world : World) : World :=
  transactions.foldl (fun world transaction => transaction.apply keccak256 world) world

/-- Requests were queued behind those that were there, each by one of the
transactions, and the contract got the ether they lock. -/
structure OnlyQueued (transactions : List ContractTransaction) (before after : World) :
    Prop where
  count_le : before.queue.requestCount ≤ after.queue.requestCount
  count_le_add : after.queue.requestCount ≤ before.queue.requestCount + transactions.length
  kept : ∀ index, index < before.queue.requestCount →
    after.queue.requests index = before.queue.requests index
  queued : ∀ index, before.queue.requestCount ≤ index → index < after.queue.requestCount →
    (after.queue.requests index).status = .pending ∧
      (after.queue.requests index).btcDestination.length < 2 ^ 64 ∧
      ∃ transaction ∈ transactions,
        (after.queue.requests index).requester = transaction.sender.address ∧
        (after.queue.requests index).lockedWei = transaction.msgValue
  received : after.balances withdrawalRequestQueueAddress =
    before.balances withdrawalRequestQueueAddress +
      ∑ index ∈ Finset.Ico before.queue.requestCount after.queue.requestCount,
        (after.queue.requests index).lockedWei
  vault : after.balances depositVaultAddress = before.balances depositVaultAddress

namespace OnlyQueued

theorem refl (world : World) : OnlyQueued [] world world where
  count_le := le_rfl
  count_le_add := le_rfl
  kept := fun _ _ => rfl
  queued := fun index beyond queued => absurd queued (Nat.not_lt.mpr beyond)
  received := by rw [Finset.Ico_self, Finset.sum_empty, Nat.add_zero]
  vault := rfl

theorem mono {fewer more : List ContractTransaction} {before after : World}
    (only : OnlyQueued fewer before after) (subset : fewer ⊆ more)
    (shorter : fewer.length ≤ more.length) : OnlyQueued more before after where
  count_le := only.count_le
  count_le_add := only.count_le_add.trans (Nat.add_le_add_left shorter _)
  kept := only.kept
  queued := fun index beyond queued => by
    rcases only.queued index beyond queued with ⟨pending, short, transaction, member, facts⟩
    exact ⟨pending, short, transaction, subset member, facts⟩
  received := only.received
  vault := only.vault

theorem trans {first second : List ContractTransaction} {before middle after : World}
    (left : OnlyQueued first before middle) (right : OnlyQueued second middle after) :
    OnlyQueued (first ++ second) before after where
  count_le := left.count_le.trans right.count_le
  count_le_add := by
    have leftBound := left.count_le_add
    have rightBound := right.count_le_add
    rw [List.length_append]
    omega
  kept := fun index queued =>
    (right.kept index (queued.trans_le left.count_le)).trans (left.kept index queued)
  queued := fun index beyond queued => by
    by_cases early : index < middle.queue.requestCount
    · rcases left.queued index beyond early with ⟨pending, short, transaction, member, facts⟩
      rw [right.kept index early]
      exact ⟨pending, short, transaction, List.mem_append_left _ member, facts⟩
    · rcases right.queued index (Nat.not_lt.mp early) queued with
        ⟨pending, short, transaction, member, facts⟩
      exact ⟨pending, short, transaction, List.mem_append_right _ member, facts⟩
  received := by
    have sameEarly : ∑ index ∈ Finset.Ico before.queue.requestCount middle.queue.requestCount,
          (after.queue.requests index).lockedWei =
        ∑ index ∈ Finset.Ico before.queue.requestCount middle.queue.requestCount,
          (middle.queue.requests index).lockedWei := by
      apply Finset.sum_congr rfl
      intro index member
      rw [right.kept index (Finset.mem_Ico.mp member).2]
    rw [right.received, left.received, ← sameEarly, Nat.add_assoc,
      Finset.sum_Ico_consecutive _ left.count_le right.count_le]
  vault := right.vault.trans left.vault

end OnlyQueued

theorem onlyQueued_requestWithdrawal (transaction : ContractTransaction)
    {btcDestination : Bytes} {mainFeeSats : Nat} {world next : World}
    (short : btcDestination.length < 2 ^ 64)
    (returned : requestWithdrawal transaction.sender.address transaction.msgValue
      btcDestination mainFeeSats world = .ok next) : OnlyQueued [transaction] world next := by
  rcases requestWithdrawal_ok returned with
    ⟨request, pending, requester, _, destination, _, locked, _, balancesEq, countEq,
      requestsEq⟩
  have newest : next.queue.requests world.queue.requestCount = request := by
    rw [requestsEq, Function.update_self]
  constructor
  · omega
  · exact countEq.le
  · intro index queued
    rw [requestsEq, Function.update_of_ne queued.ne]
  · intro index beyond queued
    have atEnd : index = world.queue.requestCount := by omega
    subst atEnd
    rw [newest, destination]
    exact ⟨pending, short, transaction, List.mem_singleton_self _, requester, locked⟩
  · rw [balancesEq, countEq, Nat.Ico_succ_singleton, Finset.sum_singleton, newest, locked,
      Ledger.move, Ledger.credit_apply, if_pos rfl, Ledger.debit_apply,
      if_neg transaction.sender.ne_queue.symm, Nat.sub_zero]
  · have notVault : depositVaultAddress ≠ transaction.sender.address := fun isVault =>
      transaction.sender.notPredeploy (isVault ▸ vault_mem_predeploys)
    rw [balancesEq, Ledger.move, Ledger.credit_apply, if_neg queue_ne_vault.symm,
      Ledger.debit_apply, if_neg notVault, Nat.sub_zero, Nat.add_zero]

theorem onlyQueued_apply (keccak256 : Bytes → B256) (transaction : ContractTransaction)
    (world : World) : OnlyQueued [transaction] world (transaction.apply keccak256 world) := by
  have unchanged : OnlyQueued [transaction] world world :=
    (OnlyQueued.refl world).mono (List.nil_subset _) (Nat.zero_le _)
  rw [ContractTransaction.apply]
  by_cases isVault : transaction.recipient = depositVaultAddress
  · have refuses := DepositVault.run_refuses keccak256 transaction.env transaction.notSystem
      transaction.msgValue transaction.calldata (.start transaction.env world)
    rw [runCode, if_pos isVault]
    split
    · exact (refuses.returns_of_eq_ok ‹_›).elim
    · exact unchanged
  · have isQueue : transaction.recipient = withdrawalRequestQueueAddress := by
      have member := transaction.isPredeploy
      rw [predeploys, Finset.mem_insert, Finset.mem_singleton] at member
      exact member.resolve_left isVault
    have meets := run_user_meets keccak256 transaction.env transaction.notSystem
      transaction.msgValue transaction.calldata (.start transaction.env world)
    rw [runCode, if_neg isVault, if_pos isQueue]
    cases returned : run keccak256 transaction.env transaction.sender.address
        transaction.msgValue transaction.calldata (.start transaction.env world) with
    | error failure => exact unchanged
    | ok reply =>
        change OnlyQueued [transaction] world reply.frame.world
        rcases meets.returns_of_eq_ok returned with ⟨sameFrame, _⟩ | ⟨_, _, short, requested⟩
        · rw [sameFrame]
          exact unchanged
        · exact onlyQueued_requestWithdrawal transaction short requested

/-- Whatever bytes users send the two contracts, and with whatever ether, every request
that was there stays as it is, new ones are pending and lock what came with them, and
the queue receives just that. -/
theorem user_calldata_only_queues (keccak256 : Bytes → B256)
    (transactions : List ContractTransaction) (world : World) :
    OnlyQueued transactions world (applyTransactions keccak256 transactions world) := by
  induction transactions generalizing world with
  | nil => exact .refl world
  | cons transaction rest induction =>
      exact (onlyQueued_apply keccak256 transaction world).trans (induction _)

/-! ## The getters -/

/-- The bytes a getter returned give every field of a request. -/
structure Request.ReadsBack (request : Request) (returned : Bytes) : Prop where
  requester : Abi.decodeWord returned 0 = addressWord request.requester
  valueSats : (Abi.decodeWord returned 1).toNat = request.valueSats
  mainFeeSats : (Abi.decodeWord returned 2).toNat = request.mainFeeSats
  btcDestination : Abi.decodeBytes returned 3 = some request.btcDestination
  status : (Abi.decodeWord returned 4).toNat = request.status.code
  bundleM6id : b256OfWord (Abi.decodeWord returned 5) = request.bundleM6id

theorem Request.readsBack_encode (request : Request)
    (bounded : request.encode.length < 2 ^ 64) : request.ReadsBack request.encode := by
  have fits := request.fits
  have code : request.status.code < 2 ^ 256 := by
    cases request.status <;> norm_num [Status.code]
  have second : (numberWord request.valueSats).toNat = request.valueSats :=
    toNat_numberWord (by omega)
  have third : (numberWord request.mainFeeSats).toNat = request.mainFeeSats :=
    toNat_numberWord (by omega)
  have fifth := toNat_numberWord code
  have sixth := b256OfWord_wordOfBytes request.bundleM6id
  constructor
  · exact Abi.decodeWord_encode [] _ _
  · rw [← second]
    exact congrArg _ (Abi.decodeWord_encode [_] _ _)
  · rw [← third]
    exact congrArg _ (Abi.decodeWord_encode [_, _] _ _)
  · exact Abi.decodeBytes_encode [_, _, _] _ _ bounded
  · rw [← fifth]
    exact congrArg _ (Abi.decodeWord_encode [_, _, _, _] _ _)
  · rw [← sixth]
    exact congrArg _ (Abi.decodeWord_encode [_, _, _, _, _] _ _)

end WithdrawalRequestQueue

end Beth
