import Beth.Contracts.DepositVault
import Beth.Contracts.ReportBundleLifecycle

/-! # Claims on the treasury

The ether a set of accounts holds and the requests that may still be paid on
the mainchain are claims on the mainchain treasury. User code never adds to
them, a deposit adds at most its amount, a confirmed request takes off what it
locked, and a refund trades a request for ether. -/

namespace Beth

open Foundation

namespace WithdrawalRequestQueue

/-! ## Totals over the queue -/

/-- The sum of an amount over all queued requests. -/
def Storage.total (amount : Request → Nat) (storage : Storage) : Nat :=
  ∑ index ∈ Finset.range storage.requestCount, amount (storage.requests index)

theorem Storage.total_setRequest (amount : Request → Nat) (storage : Storage) {index : Nat}
    (request : Request) (queued : index < storage.requestCount) :
    (storage.setRequest index request).total amount + amount (storage.requests index) =
      storage.total amount + amount request := by
  have member : index ∈ Finset.range storage.requestCount := Finset.mem_range.mpr queued
  unfold total
  rw [setRequest_requestCount, ← Finset.add_sum_erase _ _ member,
    ← Finset.add_sum_erase _ (fun index => amount (storage.requests index)) member]
  have others : ∑ other ∈ (Finset.range storage.requestCount).erase index,
        amount ((storage.setRequest index request).requests other) =
      ∑ other ∈ (Finset.range storage.requestCount).erase index,
        amount (storage.requests other) := by
    apply Finset.sum_congr rfl
    intro other inErase
    rw [setRequest_of_ne storage request (Finset.ne_of_mem_erase inErase)]
  rw [others, setRequest_same]
  omega

theorem Storage.total_append (amount : Request → Nat) (storage : Storage)
    (request : Request) :
    Storage.total amount
        { requestCount := storage.requestCount + 1
          requests := Function.update storage.requests storage.requestCount request } =
      storage.total amount + amount request := by
  unfold total
  dsimp only
  rw [Finset.sum_range_succ, Function.update_self]
  congr 1
  apply Finset.sum_congr rfl
  intro index member
  rw [Function.update_of_ne (Finset.mem_range.mp member).ne]

/-! ## Amounts asked for -/

/-- The amounts asked for are those of `before`, as far as that goes. -/
structure Storage.Keeps (before after : Storage) : Prop where
  count_le : before.requestCount ≤ after.requestCount
  same : ∀ index, index < before.requestCount →
    (after.requests index).lockedSats = (before.requests index).lockedSats

theorem Storage.Keeps.refl (storage : Storage) : storage.Keeps storage where
  count_le := le_rfl
  same := fun _ _ => rfl

theorem Storage.Keeps.trans {first second third : Storage} (left : first.Keeps second)
    (right : second.Keeps third) : first.Keeps third where
  count_le := left.count_le.trans right.count_le
  same := fun index queued =>
    (right.same index (queued.trans_le left.count_le)).trans (left.same index queued)

theorem Grows.keeps {before after : Storage} (growth : Grows before after) :
    before.Keeps after where
  count_le := growth.count_le
  same := fun index queued => by rw [growth.kept index queued]

theorem Rewrites.keeps {change : Request → Request} {indices : List Nat}
    {before after : Storage} (rewrites : Rewrites change indices before after)
    (same : ∀ request, (change request).lockedSats = request.lockedSats) :
    before.Keeps after where
  count_le := rewrites.count_le
  same := fun index queued => by
    rw [rewrites.changed index queued]
    split
    · exact same _
    · rfl

/-- The satoshis locked by a list of requests. -/
def lockedSatsOf (queue : Storage) (indices : List Nat) : Nat :=
  (indices.map fun index => (queue.requests index).lockedSats).sum

theorem Storage.Keeps.lockedSatsOf_eq {before after : Storage} (keeps : before.Keeps after)
    (indices : List Nat) (queued : ∀ index ∈ indices, index < before.requestCount) :
    lockedSatsOf after indices = lockedSatsOf before indices :=
  congrArg List.sum (List.map_congr_left fun index member =>
    keeps.same index (queued index member))

theorem lockedSatsOf_le_of_subperm {queue : Storage} {fewer more : List Nat}
    (subperm : fewer.Subperm more) : lockedSatsOf queue fewer ≤ lockedSatsOf queue more := by
  rcases subperm with ⟨permuted, perm, sublist⟩
  unfold lockedSatsOf
  rw [← (perm.map _).sum_eq]
  exact (sublist.map _).sum_le_sum fun _ _ => Nat.zero_le _

theorem lockedSatsOf_flatMap (queue : Storage) (keys : List α) (indicesOf : α → List Nat) :
    lockedSatsOf queue (keys.flatMap indicesOf) =
      (keys.map fun key => lockedSatsOf queue (indicesOf key)).sum := by
  induction keys with
  | nil => rfl
  | cons key rest induction =>
      rw [List.flatMap_cons, List.map_cons, List.sum_cons, ← induction]
      simp [lockedSatsOf]

/-- Distinct queued requests lock no more than a total they count in fully. -/
theorem lockedSatsOf_le_total {amount : Request → Nat} {queue : Storage}
    {indices : List Nat} (nodup : indices.Nodup)
    (counted : ∀ index ∈ indices, index < queue.requestCount ∧
      amount (queue.requests index) = (queue.requests index).lockedSats) :
    lockedSatsOf queue indices ≤ queue.total amount := by
  have asTotal : lockedSatsOf queue indices =
      ∑ index ∈ indices.toFinset, amount (queue.requests index) := by
    rw [List.sum_toFinset _ nodup]
    exact congrArg List.sum (List.map_congr_left fun index member =>
      (counted index member).2.symm)
  rw [asTotal]
  apply Finset.sum_le_sum_of_subset
  intro index member
  exact Finset.mem_range.mpr (counted index (List.mem_toFinset.mp member)).1

/-! ## Live requests -/

/-- What a request may still be paid on the mainchain. -/
def Request.liveSats (request : Request) : Nat :=
  match request.status with
  | .pending => request.lockedSats
  | .bundled => request.lockedSats
  | .confirmed => 0
  | .refunded => 0

def Storage.liveSats (storage : Storage) : Nat := storage.total Request.liveSats

theorem Request.liveSats_of_pending {request : Request} (pending : request.status = .pending) :
    request.liveSats = request.lockedSats := by
  simp [liveSats, pending]

theorem Request.liveSats_of_bundled {request : Request} (bundled : request.status = .bundled) :
    request.liveSats = request.lockedSats := by
  simp [liveSats, bundled]

end WithdrawalRequestQueue

open WithdrawalRequestQueue

/-! ## Claims -/

/-- What the accounts hold and the queue still owes, in wei. -/
def claimedWei (accounts : Finset Address) (world : World) : Nat :=
  Ledger.held accounts world.balances + world.queue.liveSats * weiPerSat

/-- The accounts whose ether counts: every user, and not the queue. -/
structure Claimants (accounts : Finset Address) : Prop where
  users : ∀ account, account ∉ predeploys → account ∈ accounts
  queue : withdrawalRequestQueueAddress ∉ accounts

section Claimed

variable {accounts : Finset Address}

/-- User code never adds to the claims: a request gives up the ether it locks. -/
theorem claimedWei_le_of_effect (claimants : Claimants accounts) {world next : World}
    (effect : UserAction.Effect world next) :
    claimedWei accounts next ≤ claimedWei accounts world := by
  cases effect with
  | none => exact le_rfl
  | transfer userSends covered =>
      exact Nat.add_le_add_right (Ledger.held_move_le_of_sender_mem accounts world.balances
        (claimants.users _ userSends) covered) _
  | burn userBurns _ =>
      exact Nat.add_le_add_right (Ledger.held_debit_le accounts world.balances _ _) _
  | request request userAsks covered pending _ =>
      have locked := Ledger.held_move_of_mem_of_not_mem accounts world.balances
        (claimants.users _ userAsks) claimants.queue covered
      unfold claimedWei
      dsimp only
      rw [Storage.liveSats, Storage.total_append, ← Storage.liveSats,
        Request.liveSats_of_pending pending, Nat.add_mul]
      change _ + request.lockedSats * weiPerSat = _ at locked
      omega

theorem claimedWei_runUserCode_le (claimants : Claimants accounts)
    (actions : List UserAction) (world : World) :
    claimedWei accounts (runUserCode actions world) ≤ claimedWei accounts world :=
  runUserCode_preserves
    (fun reached => claimedWei accounts reached ≤ claimedWei accounts world)
    (fun _ _ kept effect => (claimedWei_le_of_effect claimants effect).trans kept)
    actions le_rfl

/-- A CALL adds to the claims only if its payer is not one of the accounts. -/
theorem claimedWei_le_of_payment (claimants : Claimants accounts)
    {payer recipient : Address} {amountWei : Nat} {world next : World} {success : Bool}
    (effect : Frame.PaymentEffect payer recipient amountWei world success next) :
    claimedWei accounts next ≤
      claimedWei accounts world + if payer ∈ accounts then 0 else amountWei := by
  cases effect with
  | rejected => exact Nat.le_add_right _ _
  | paid actions notPredeploy covered =>
      refine (claimedWei_runUserCode_le claimants actions _).trans ?_
      have recipientMem := claimants.users recipient notPredeploy
      unfold claimedWei
      dsimp only
      split
      · rename_i payerMem
        rw [Ledger.held_move_of_mem_of_mem accounts world.balances payerMem recipientMem
          covered]
        exact Nat.le_add_right _ _
      · rename_i payerOut
        rw [Ledger.held_move_of_sender_not_mem accounts world.balances payerOut,
          if_pos recipientMem]
        omega

/-! ## The deposit call -/

/-- Each credit adds at most its amount, and nothing when the vault counts. -/
theorem claimedWei_systemCreditDeposits (claimants : Claimants accounts) (env : CallEnv)
    (deposits : List (Address × Nat)) (fits : ∀ deposit ∈ deposits, deposit.2 < 2 ^ 64)
    (frame : Frame) :
    Meets (DepositVault.systemCreditDeposits env systemAddress
        { recipients := deposits.map Prod.fst
          amountsSats := deposits.map Prod.snd } frame)
      (fun next => claimedWei accounts next.world ≤ claimedWei accounts frame.world +
        if depositVaultAddress ∈ accounts then 0
        else (deposits.map Prod.snd).sum * weiPerSat)
      fun _ => True := by
  unfold DepositVault.systemCreditDeposits
  rw [require_of_holds _ rfl, ok_bind, DepositVault.creditLoop_eq_foldlM]
  induction deposits generalizing frame with
  | nil => exact Nat.le_add_right _ _
  | cons deposit rest induction =>
      rw [List.foldlM_cons]
      refine ((DepositVault.creditDeposit_meets env deposit.1 (fits deposit (by simp))
        frame).mono (fun _ credited => credited) fun _ _ => trivial).bind ?_
      intro middle credited
      rcases credited.paid with ⟨success, _, effect⟩
      have first := claimedWei_le_of_payment claimants effect
      refine (induction (fun other member => fits other (by simp [member])) middle).mono ?_
        fun _ failed => failed
      intro next others
      by_cases vaultMem : depositVaultAddress ∈ accounts
      · rw [if_pos vaultMem, Nat.add_zero] at first others ⊢
        exact others.trans first
      · rw [if_neg vaultMem] at first others ⊢
        rw [List.map_cons, List.sum_cons, Nat.add_mul, ← Nat.add_assoc]
        exact others.trans (Nat.add_le_add_right first _)

/-! ## The lifecycle call -/

/-- Changing one request changes the claims by what it is still owed. -/
theorem claimedWei_changeRequest (accounts : Finset Address) (change : Request → Request)
    {index : Nat} {world : World} (queued : index < world.queue.requestCount) :
    claimedWei accounts (changeRequest index change world) +
        (world.queue.requests index).liveSats * weiPerSat =
      claimedWei accounts world +
        (change (world.queue.requests index)).liveSats * weiPerSat := by
  have live := world.queue.total_setRequest Request.liveSats
    (change (world.queue.requests index)) queued
  unfold claimedWei changeRequest Storage.liveSats
  dsimp only
  rw [Nat.add_assoc, ← Nat.add_mul, live, Nat.add_mul, Nat.add_assoc]

theorem markRequest_claims (env : CallEnv) (expected : Status) (refusal : String)
    (change : Request → Request) (event : Nat → Request → Event) (frame : Frame)
    {index : Nat} (paid : Request → Nat) (queued : index < frame.world.queue.requestCount)
    (same : ∀ request, (change request).lockedSats = request.lockedSats)
    (exchanged : ∀ request, request.status = expected →
      (change request).liveSats + paid request = request.liveSats) :
    Meets (markRequest env expected refusal change event frame index)
      (fun next => frame.world.queue.Keeps next.world.queue ∧
        claimedWei accounts next.world +
            paid (frame.world.queue.requests index) * weiPerSat ≤
          claimedWei accounts frame.world)
      fun _ => True := by
  unfold markRequest
  refine ((frame.charge_meets _).mono (fun _ kept => kept)
    fun _ _ => trivial).bind fun charged before => ?_
  unfold require
  dsimp only
  split
  · rename_i ready
    rw [ok_bind, Meets.pure_iff, ← before.1]
    rw [← before.1] at queued
    refine ⟨(Rewrites.setRequest queued).keeps same, ?_⟩
    have changed := claimedWei_changeRequest accounts change queued
    rw [← exchanged _ ready, Nat.add_mul] at changed
    change claimedWei accounts (changeRequest index change charged.world) + _ ≤ _
    omega
  · trivial

theorem refundRequest_claims (claimants : Claimants accounts) (env : CallEnv)
    (frame : Frame) {index : Nat} (queued : index < frame.world.queue.requestCount) :
    Meets (refundRequest env frame index)
      (fun next => frame.world.queue.Keeps next.world.queue ∧
        claimedWei accounts next.world + 0 * weiPerSat ≤ claimedWei accounts frame.world)
      fun _ => True := by
  by_cases bundled : (frame.world.queue.requests index).status = .bundled
  · refine (refundRequest_meets env frame index bundled).mono ?_ fun _ _ => trivial
    intro next refunded
    refine ⟨(refunded.rewrites queued).keeps fun _ => rfl, ?_⟩
    rcases refunded.paid with ⟨success, _, effect⟩
    have paid := claimedWei_le_of_payment claimants effect
    have changed := claimedWei_changeRequest accounts Request.refund queued
    rw [Request.liveSats_of_bundled bundled] at changed
    rw [if_neg claimants.queue] at paid
    change _ ≤ claimedWei accounts (changeRequest index Request.refund frame.world) + _
      at paid
    simp only [Request.refund, Request.liveSats, Request.lockedWei] at changed paid
    omega
  · exact (refundRequest_refuses env frame index bundled).mono
      (fun _ impossible => impossible.elim) fun _ failed => failed

/-- A loop in which every iteration takes what it pays off the claims. -/
theorem claimsLoop_meets (accounts : Finset Address)
    {step : Frame → Nat → Except CallFailure Frame} (paid : Request → Nat)
    (paidSame : ∀ left right : Request, left.lockedSats = right.lockedSats →
      paid left = paid right)
    (stepMeets : ∀ frame index, index < frame.world.queue.requestCount →
      Meets (step frame index)
        (fun next => frame.world.queue.Keeps next.world.queue ∧
          claimedWei accounts next.world +
              paid (frame.world.queue.requests index) * weiPerSat ≤
            claimedWei accounts frame.world)
        fun _ => True)
    (indices : List Nat) (frame : Frame)
    (queued : ∀ index ∈ indices, index < frame.world.queue.requestCount) :
    Meets (indices.foldlM step frame)
      (fun next => frame.world.queue.Keeps next.world.queue ∧
        claimedWei accounts next.world +
            (indices.map fun index => paid (frame.world.queue.requests index)).sum *
              weiPerSat ≤
          claimedWei accounts frame.world)
      fun _ => True := by
  induction indices generalizing frame with
  | nil => exact ⟨.refl _, by simp⟩
  | cons index rest induction =>
      rw [List.foldlM_cons]
      refine (stepMeets frame index (queued index (by simp))).bind fun middle first => ?_
      have restQueued : ∀ other ∈ rest, other < frame.world.queue.requestCount :=
        fun other member => queued other (by simp [member])
      refine (induction middle fun other member =>
        (restQueued other member).trans_le first.1.count_le).mono ?_ fun _ failed => failed
      intro next others
      refine ⟨first.1.trans others.1, ?_⟩
      have samePaid : (rest.map fun other => paid (middle.world.queue.requests other)) =
          rest.map fun other => paid (frame.world.queue.requests other) :=
        List.map_congr_left fun other member =>
          paidSame _ _ (first.1.same other (restQueued other member))
      have othersPaid := others.2
      rw [samePaid] at othersPaid
      rw [List.map_cons, List.sum_cons, Nat.add_mul]
      have firstPaid := first.2
      omega

/-- The confirmed requests come off the claims, and nothing is added to them. -/
theorem claimedWei_systemReportBundleLifecycle (claimants : Claimants accounts)
    (env : CallEnv) (call : SystemReportBundleLifecycleCall) (frame : Frame)
    (queued : ∀ index ∈ call.bundledIndices ++
      (call.succeededIndices ++ call.failedIndices),
      index < frame.world.queue.requestCount) :
    Meets (systemReportBundleLifecycle env systemAddress call frame)
      (fun next => claimedWei accounts next.world +
          lockedSatsOf frame.world.queue call.succeededIndices * weiPerSat ≤
        claimedWei accounts frame.world)
      fun _ => True := by
  unfold systemReportBundleLifecycle
  rw [require_of_holds _ rfl, ok_bind]
  refine (claimsLoop_meets accounts (fun _ => 0) (fun _ _ _ => rfl)
    (fun frame index queued => markRequest_claims env .pending _
      (Request.bundle call.newM6id) _ frame (fun _ => 0) queued (fun _ => rfl)
      fun request pending => by
        rw [Request.liveSats_of_pending pending, Request.liveSats_of_bundled rfl]
        rfl)
    call.bundledIndices frame (fun index member => queued index (by simp [member]))).bind ?_
  intro bundled bundling
  refine (claimsLoop_meets accounts Request.lockedSats
    (fun _ _ same => same)
    (fun frame index queued => markRequest_claims env .bundled _ Request.confirm _ frame
      Request.lockedSats queued (fun _ => rfl) fun request isBundled => by
        rw [Request.liveSats_of_bundled isBundled, Request.liveSats, Request.confirm,
          Nat.zero_add])
    call.succeededIndices bundled (fun index member =>
      (queued index (by simp [member])).trans_le bundling.1.count_le)).bind ?_
  intro confirmed confirming
  have keeps := bundling.1.trans confirming.1
  refine (claimsLoop_meets accounts (fun _ => 0) (fun _ _ _ => rfl)
    (fun frame index queued => refundRequest_claims claimants env frame queued)
    call.failedIndices confirmed (fun index member =>
      (queued index (by simp [member])).trans_le keeps.count_le)).mono ?_
    fun _ failed => failed
  intro next refunding
  have sameLocked := bundling.1.lockedSatsOf_eq call.succeededIndices
    fun index member => queued index (by simp [member])
  have confirmedPaid : claimedWei accounts confirmed.world +
      lockedSatsOf bundled.world.queue call.succeededIndices * weiPerSat ≤
        claimedWei accounts bundled.world := confirming.2
  rw [sameLocked] at confirmedPaid
  calc claimedWei accounts next.world +
        lockedSatsOf frame.world.queue call.succeededIndices * weiPerSat
      ≤ claimedWei accounts confirmed.world +
        lockedSatsOf frame.world.queue call.succeededIndices * weiPerSat :=
        Nat.add_le_add_right ((Nat.le_add_right _ _).trans refunding.2) _
    _ ≤ claimedWei accounts bundled.world := confirmedPaid
    _ ≤ claimedWei accounts frame.world := (Nat.le_add_right _ _).trans bundling.2

end Claimed

end Beth
