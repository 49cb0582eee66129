import Beth.Contracts.Claims

/-! # Escrowed ether

The queue always holds the ether its requests lock, apart from those that were
refunded, so that every refund is covered. -/

namespace Beth

open Foundation

namespace WithdrawalRequestQueue

/-- What the queue keeps for a request. -/
def Request.escrowedSats (request : Request) : Nat :=
  match request.status with
  | .pending => request.lockedSats
  | .bundled => request.lockedSats
  | .confirmed => request.lockedSats
  | .refunded => 0

theorem Request.escrowedSats_of_pending {request : Request}
    (pending : request.status = .pending) : request.escrowedSats = request.lockedSats := by
  simp [escrowedSats, pending]

theorem Request.escrowedSats_of_bundled {request : Request}
    (bundled : request.status = .bundled) : request.escrowedSats = request.lockedSats := by
  simp [escrowedSats, bundled]

end WithdrawalRequestQueue

open WithdrawalRequestQueue

def Escrowed (world : World) : Prop :=
  world.queue.total Request.escrowedSats * weiPerSat ≤
    world.balances withdrawalRequestQueueAddress

namespace Escrowed

variable {world next : World}

/-- More ether in the queue's account does no harm. -/
theorem of_le (escrowed : Escrowed world) (sameQueue : next.queue = world.queue)
    (more : world.balances withdrawalRequestQueueAddress ≤
      next.balances withdrawalRequestQueueAddress) : Escrowed next := by
  unfold Escrowed
  rw [sameQueue]
  exact escrowed.trans more

theorem effect (escrowed : Escrowed world) (effect : UserAction.Effect world next) :
    Escrowed next := by
  have notQueue : ∀ {account : Address}, account ∉ predeploys →
      withdrawalRequestQueueAddress ≠ account := fun notPredeploy isQueue =>
    notPredeploy (isQueue ▸ queue_mem_predeploys)
  cases effect with
  | none => exact escrowed
  | transfer userSends _ =>
      exact escrowed.of_le rfl
        (Ledger.le_move_of_ne_sender world.balances _ (notQueue userSends))
  | burn userBurns _ =>
      refine escrowed.of_le rfl ?_
      dsimp only
      rw [Ledger.debit_apply, if_neg (notQueue userBurns), Nat.sub_zero]
  | request request userAsks _ pending _ =>
      unfold Escrowed at escrowed ⊢
      dsimp only
      rw [Storage.total_append, Request.escrowedSats_of_pending pending, Nat.add_mul,
        Ledger.move, Ledger.credit_apply, if_pos rfl, Ledger.debit_apply,
        if_neg (notQueue userAsks), Nat.sub_zero]
      exact Nat.add_le_add_right escrowed _

theorem runUserCode (escrowed : Escrowed world) (actions : List UserAction) :
    Escrowed (runUserCode actions world) :=
  runUserCode_preserves Escrowed (fun _ _ kept effect => kept.effect effect) actions escrowed

/-- A credit is paid by the vault. -/
theorem credited (escrowed : Escrowed world) (recipient : Address) (amountWei : Nat) :
    Escrowed { world with
      balances := world.balances.move depositVaultAddress recipient amountWei } :=
  escrowed.of_le rfl (Ledger.le_move_of_ne_sender world.balances _ queue_ne_vault)

/-- Bundling and confirming a request keep its ether in escrow. -/
theorem change (escrowed : Escrowed world) {change : Request → Request} {index : Nat}
    (queued : index < world.queue.requestCount)
    (same : (change (world.queue.requests index)).escrowedSats =
      (world.queue.requests index).escrowedSats) :
    Escrowed (changeRequest index change world) := by
  have total := world.queue.total_setRequest Request.escrowedSats
    (change (world.queue.requests index)) queued
  rw [same] at total
  unfold Escrowed changeRequest at *
  dsimp only
  rw [Nat.add_right_cancel total]
  exact escrowed

/-- A refund takes no more than the request it releases. -/
theorem refunded (escrowed : Escrowed world) {index : Nat} {success : Bool}
    (queued : index < world.queue.requestCount)
    (bundled : (world.queue.requests index).status = .bundled)
    (effect : Frame.PaymentEffect withdrawalRequestQueueAddress
      (world.queue.requests index).requester (world.queue.requests index).lockedWei
      (changeRequest index Request.refund world) success next) : Escrowed next := by
  have total := world.queue.total_setRequest Request.escrowedSats
    (world.queue.requests index).refund queued
  rw [Request.escrowedSats_of_bundled bundled] at total
  have totalWei := congrArg (· * weiPerSat) total
  simp only [Nat.add_mul, Request.refund, Request.escrowedSats, Nat.add_zero] at totalWei
  change _ + (world.queue.requests index).lockedWei = _ at totalWei
  unfold Escrowed at escrowed
  cases effect with
  | rejected =>
      unfold Escrowed changeRequest
      change _ ≤ world.balances withdrawalRequestQueueAddress
      simp only [Request.refund]
      omega
  | paid actions notPredeploy covered =>
      apply runUserCode
      have notQueue : withdrawalRequestQueueAddress ≠
          (world.queue.requests index).requester := fun isQueue =>
        notPredeploy (isQueue ▸ queue_mem_predeploys)
      unfold Escrowed changeRequest
      dsimp only
      rw [Ledger.move, Ledger.credit_apply, if_neg notQueue, Ledger.debit_apply, if_pos rfl]
      simp only [Request.refund]
      omega

end Escrowed

/-- The queue can pay distinct bundled requests back. -/
theorem Escrowed.covers {world : World} (escrowed : Escrowed world) (indices : List Nat)
    (nodup : indices.Nodup)
    (bundled : ∀ index ∈ indices, index < world.queue.requestCount ∧
      (world.queue.requests index).status = .bundled) :
    lockedSatsOf world.queue indices * weiPerSat ≤
      world.balances withdrawalRequestQueueAddress :=
  (Nat.mul_le_mul_right _ (lockedSatsOf_le_total nodup fun index member =>
    ⟨(bundled index member).1,
      Request.escrowedSats_of_bundled (bundled index member).2⟩)).trans escrowed

end Beth
