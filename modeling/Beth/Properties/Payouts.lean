import Beth.Properties.BundleContent
import Beth.Properties.PegSolvency

/-! # What the mainchain pays out

The mainchain follows the bundles that were reported as succeeded, the sidechain
the requests that were confirmed. Along a chain they agree to the satoshi: every
destination is paid what the confirmed requests to it ask for, and the treasury
loses what these requests locked. -/

namespace Beth

open Foundation WithdrawalRequestQueue

/-! ## The two sides -/

/-- What the outputs of a bundle pay to a destination. -/
def WithdrawalBundle.paidTo (bundle : WithdrawalBundle) (btcDestination : Bytes) : Nat :=
  (bundle.payouts.map fun payout =>
    if payout.scriptPubkey = btcDestination then payout.value.toNat else 0).sum

/-- The bundles of a history that were reported as succeeded. -/
def succeededBundles (hashes : Hashes) (history : List ExecutedBlock) : List Assignment :=
  (assignments hashes history).filter fun assignment =>
    (succeededIn history).contains (assignment.m6id hashes)

theorem mem_succeededBundles {hashes : Hashes} {history : List ExecutedBlock}
    {assignment : Assignment} :
    assignment ∈ succeededBundles hashes history ↔
      assignment ∈ assignments hashes history ∧
        assignment.m6id hashes ∈ succeededIn history := by
  rw [succeededBundles, List.mem_filter, List.contains_iff_mem]

theorem paidSats_eq_succeededBundles (hashes : Hashes) (history : List ExecutedBlock) :
    paidSats hashes (assignments hashes history) (succeededIn history) =
      ((succeededBundles hashes history).map fun assignment =>
        m6Sats assignment.bundle.tx).sum := by
  simp only [paidSats, succeededBundles, List.contains_eq_mem]

/-- What a destination has been paid on the mainchain. -/
def receivedSats (hashes : Hashes) (history : List ExecutedBlock)
    (btcDestination : Bytes) : Nat :=
  ((succeededBundles hashes history).map fun assignment =>
    assignment.bundle.paidTo btcDestination).sum

namespace WithdrawalRequestQueue.Request

/-- What a request asks to be paid to a destination. -/
def satsTo (btcDestination : Bytes) (request : Request) : Nat :=
  if request.btcDestination = btcDestination then request.valueSats else 0

/-- An amount of a request that counts once it is confirmed. -/
def onceConfirmed (amount : Request → Nat) (request : Request) : Nat :=
  if request.status = .confirmed then amount request else 0

theorem SameWithdrawal.satsTo_eq {left right : Request} (same : left.SameWithdrawal right)
    (btcDestination : Bytes) : left.satsTo btcDestination = right.satsTo btcDestination := by
  rw [satsTo, satsTo, same.2.1, same.2.2.2]

end WithdrawalRequestQueue.Request

/-! ## What a new bundle pays -/

section NewBundle

variable {pending : List PendingWithdrawal} {btcDestination : Bytes}

/-- What a pending request asks to be paid to a destination. -/
def PendingWithdrawal.satsTo (btcDestination : Bytes) (request : PendingWithdrawal) : Nat :=
  if request.btcDestination = btcDestination then request.valueSats.toNat else 0

/-- An output pays what the requests to its destination ask for. -/
theorem payout_satsTo
    (fits : (pending.map fun request => request.valueSats.toNat).sum < 2 ^ 64)
    (paid : Bytes) :
    (if (totalTo pending paid).payout.scriptPubkey = btcDestination
      then (totalTo pending paid).payout.value.toNat else 0) =
      ((requestsTo pending paid).map (PendingWithdrawal.satsTo btcDestination)).sum := by
  change (if paid = btcDestination then (valueTo pending paid).toNat else 0) = _
  by_cases isIt : paid = btcDestination
  · rw [if_pos isIt, valueTo, toNat_totalOf PendingWithdrawal.valueSats fits]
    apply congrArg List.sum
    apply List.map_congr_left
    intro request member
    have toPaid := of_decide_eq_true (List.mem_filter.mp member).2
    rw [PendingWithdrawal.satsTo, if_pos (toPaid.trans isIt)]
  · rw [if_neg isIt, eq_comm, List.sum_eq_zero_iff]
    intro amount member
    rcases List.mem_map.mp member with ⟨request, toIt, amountEq⟩
    have toPaid := of_decide_eq_true (List.mem_filter.mp toIt).2
    rw [← amountEq, PendingWithdrawal.satsTo, if_neg]
    exact fun same => isIt (toPaid.symm.trans same)

theorem paidTo_bundlePaying {hashes : Hashes} {blockHeight : UInt32} {paid : List Bytes}
    (nodup : paid.Nodup)
    (fits : (pending.map fun request => request.valueSats.toNat).sum < 2 ^ 64) :
    (bundlePaying pending hashes blockHeight paid).paidTo btcDestination =
      ((requestsToAny pending paid).map (PendingWithdrawal.satsTo btcDestination)).sum := by
  have grouped := (flatMap_requestsTo_perm pending nodup).map
    (PendingWithdrawal.satsTo btcDestination)
  rw [← grouped.sum_eq, List.map_flatMap, List.flatMap_def, List.sum_flatten, List.map_map,
    WithdrawalBundle.paidTo, payouts_bundlePaying, List.map_map]
  apply congrArg List.sum
  apply List.map_congr_left
  intro toIt _
  exact payout_satsTo fits toIt

end NewBundle

/-- The bundle assigned on top of a queue pays what its requests ask for. -/
theorem paidTo_selectedBundle {hashes : Hashes} {order : HashMapOrder} {queue : Storage}
    {blockHeight : UInt32} {bundle : WithdrawalBundle}
    (fits : lockedSatsOf queue (pendingIndices queue) < 2 ^ 64)
    (selected : selectedBundle hashes order queue blockHeight = some bundle)
    (btcDestination : Bytes) :
    bundle.paidTo btcDestination =
      ((bundle.requestIndices.map UInt64.toNat).map fun index =>
        (queue.requests index).satsTo btcDestination).sum := by
  have bundleEq := ((selectWithdrawalBundle_eq_some_iff _).mp selected).2
  have nodup := payees_nodup (readPendingWithdrawals queue)
  generalize payees (readPendingWithdrawals queue) = paid at bundleEq nodup
  subst bundleEq
  have sameValue : ∀ index, (pendingEntry queue index).valueSats.toNat =
      (queue.requests index).valueSats := fun index => (readEntry_amounts queue index).1
  have valuesFit : ((readPendingWithdrawals queue).map fun request =>
      request.valueSats.toNat).sum < 2 ^ 64 := by
    refine lt_of_le_of_lt ?_ fits
    rw [readPendingWithdrawals_eq, List.map_map, lockedSatsOf]
    apply List.sum_le_sum
    intro index _
    rw [Function.comp_apply, sameValue, Request.lockedSats]
    exact Nat.le_add_right _ _
  let chosen := (pendingIndices queue).filter fun index =>
    (queue.requests index).btcDestination ∈ paid
  have chosenEq : requestsToAny (readPendingWithdrawals queue) paid =
      chosen.map (pendingEntry queue) := by
    rw [readPendingWithdrawals_eq, requestsToAny, List.filter_map]
    rfl
  have indicesEq : ((requestsToAny (readPendingWithdrawals queue) paid).map
      PendingWithdrawal.index).map UInt64.toNat = chosen := by
    rw [chosenEq, List.map_map, List.map_map]
    exact toNat_index_map fun index member =>
      (mem_indicesWhere.mp (List.mem_of_mem_filter member)).1
  have consumed : ((bundlePaying (readPendingWithdrawals queue) hashes blockHeight
      paid).requestIndices.map UInt64.toNat).Perm chosen := by
    rw [← indicesEq]
    exact (requestIndices_bundlePaying_perm nodup).map UInt64.toNat
  rw [paidTo_bundlePaying nodup valuesFit, chosenEq, (consumed.map _).sum_eq, List.map_map]
  apply congrArg List.sum
  apply List.map_congr_left
  intro index _
  rw [Function.comp_apply, PendingWithdrawal.satsTo, sameValue]
  rfl

/-! ## Every chain -/

/-- The bundles of a chain pay what their requests ask for, and a bundle has
succeeded exactly when its requests are confirmed. -/
structure PaysRequests (hashes : Hashes) (assigned : List Assignment)
    (succeeded : List Txid) (queue : Storage) : Prop where
  pays : ∀ assignment ∈ assigned, ∀ btcDestination,
    assignment.bundle.paidTo btcDestination =
      (assignment.indices.map fun index =>
        (queue.requests index).satsTo btcDestination).sum
  confirmed : ∀ assignment ∈ assigned, ∀ index ∈ assignment.indices,
    ((queue.requests index).status = .confirmed ↔ assignment.m6id hashes ∈ succeeded)

theorem PaysRequests.nil (hashes : Hashes) (queue : Storage) :
    PaysRequests hashes [] [] queue := by
  constructor <;> simp

theorem settledRequest_confirmed_iff {queue : Storage}
    {call : SystemReportBundleLifecycleCall} (accepts : Accepts queue call) {index : Nat}
    (notPending : (queue.requests index).status ≠ .pending) :
    (settledRequest call index (queue.requests index)).status = .confirmed ↔
      (queue.requests index).status = .confirmed ∨ index ∈ call.succeededIndices := by
  have notBundled : index ∉ call.bundledIndices := fun bundled =>
    notPending (accepts.bundled_pending index bundled)
  unfold settledRequest
  rw [if_neg notBundled]
  by_cases succeeded : index ∈ call.succeededIndices
  · simp [succeeded, Request.confirm]
  · rw [if_neg succeeded]
    by_cases failed : index ∈ call.failedIndices
    · have wasBundled := accepts.resolved_bundled index (by simp [failed])
      simp [failed, succeeded, wasBundled, Request.refund]
    · simp [failed, succeeded]

theorem PaysRequests.extend {hashes : Hashes} {sidechainId : UInt32} {tip next : Tip}
    {history : List ExecutedBlock} {executed : ExecutedBlock}
    (before : PaysRequests hashes (assignments hashes history) (succeededIn history)
      tip.world.queue)
    (covered : Covered hashes history tip.world)
    (traced : Traced hashes (assignments hashes history) tip.world.queue)
    (intactAfter : Intact hashes
      (assignments hashes history ++ (executed.assignment hashes).toList) next.world.queue)
    (resolved : ResolvedAfterwards hashes (history ++ [executed]))
    (extends_ : Extends hashes sidechainId tip executed next)
    (settling : executed.Settling tip) :
    PaysRequests hashes (assignments hashes history ++ (executed.assignment hashes).toList)
      (succeededIn history ++ reported .succeeded executed.done.outcomes)
      next.world.queue := by
  have accepts : Accepts tip.world.queue (lifecycleCall hashes executed.order
      tip.world.queue executed.done.outcomes executed.height) :=
    lifecycleCall_accepts settling.noConflict
  have recorded := covered.intact.recorded
  have sameSats : ∀ btcDestination index, index < tip.world.queue.requestCount →
      (next.world.queue.requests index).satsTo btcDestination =
        (tip.world.queue.requests index).satsTo btcDestination :=
    fun btcDestination index queued =>
      ((extends_.advances settling queued).1.satsTo_eq btcDestination).symm
  constructor
  · intro assignment member btcDestination
    rcases List.mem_append.mp member with isOld | isNew
    · rw [before.pays assignment isOld]
      apply congrArg List.sum
      apply List.map_congr_left
      intro index inBundle
      have queued := (traced index (recorded assignment isOld index inBundle).1).2.1
      exact (sameSats btcDestination index queued).symm
    · have assigned := Option.mem_toList.mp isNew
      rcases Option.map_eq_some_iff.mp assigned with ⟨bundle, bundleEq, assignmentEq⟩
      rw [extends_.bundle_eq] at bundleEq
      have pending := (extends_.assignedOn assigned).pending
      subst assignmentEq
      rw [paidTo_selectedBundle (lockedSatsOf_pendingIndices_lt covered.capped) bundleEq]
      apply congrArg List.sum
      apply List.map_congr_left
      intro index inBundle
      have queued := (pending index inBundle).1.trans_le (readableCount_le _)
      exact (sameSats btcDestination index queued).symm
  · intro assignment member index inBundle
    rcases List.mem_append.mp member with isOld | isNew
    · have old := recorded assignment isOld index inBundle
      rw [(extends_.settles settling).settled index (traced index old.1).2.1,
        settledRequest_confirmed_iff accepts old.1, lifecycleCall_succeededIndices,
        mem_flatMap_carriers traced, before.confirmed assignment isOld index inBundle,
        old.2, List.mem_append]
      constructor
      · intro either
        exact either.imp_right And.right
      · intro either
        rcases either with succeeded | now
        · exact .inl succeeded
        · have unresolved := resolved.toResolvedOnce.unresolved isOld now
          exact .inr
            ⟨covered.backed.outstanding assignment isOld unresolved index inBundle, now⟩
    · have bundled := extends_.assigned_bundled settling assignment
        (Option.mem_toList.mp isNew) index inBundle
      have notYet := resolved.new_not_succeeded intactAfter assignment isNew
      simp [bundled.1, notYet]

theorem paysRequests_of_chain {hashes : Hashes} {sidechainId : UInt32} {genesisHash : B256}
    {withdrawalsRoot : Option B256} {history : List ExecutedBlock} {final : Tip}
    (noWithdrawals : ∀ executed ∈ history, executed.withdrawals = [])
    (unmetered : ∀ executed ∈ history, executed.lifecycleEnv.gasLimit = none)
    (free : hashes.CollisionFree (assignments hashes history))
    (resolved : ResolvedAfterwards hashes history)
    (chain : Chain hashes sidechainId (.genesis genesisHash withdrawalsRoot) history
      final) :
    PaysRequests hashes (assignments hashes history) (succeededIn history)
      final.world.queue := by
  refine Run.invariant (fun history final =>
    (∀ executed ∈ history, executed.withdrawals = []) →
    (∀ executed ∈ history, executed.lifecycleEnv.gasLimit = none) →
    hashes.CollisionFree (assignments hashes history) →
    ResolvedAfterwards hashes history →
    PaysRequests hashes (assignments hashes history) (succeededIn history)
      final.world.queue) ?_ ?_ chain noWithdrawals unmetered free resolved
  · exact fun _ _ _ _ => .nil hashes _
  · intro history tip executed next before induction extends_ noWithdrawals unmetered free
      resolved
    rw [assignments_append] at free ⊢
    rw [succeededIn_append]
    have plain : ∀ other ∈ history, other.withdrawals = [] :=
      fun other member => noWithdrawals other (by simp [member])
    have ungassed : ∀ other ∈ history, other.lifecycleEnv.gasLimit = none :=
      fun other member => unmetered other (by simp [member])
    have freeBefore := free.mono (List.subset_append_left _ _)
    have traced := traced_of_chain rfl before
    have covered := covered_of_chain plain ungassed freeBefore resolved.front before
    have settling : executed.Settling tip :=
      { unmetered := unmetered executed (by simp)
        noConflict := resolved.toResolvedOnce.noConflict traced }
    have intactAfter := covered.intact.extend traced (commits_of_chain before) free extends_
      settling
    exact (induction plain ungassed freeBefore resolved.front).extend covered traced
      intactAfter resolved extends_ settling

/-! ## The two sides agree -/

/-- An amount over all confirmed requests, summed over a list of them. -/
theorem total_onceConfirmed {queue : Storage} {indices : List Nat} (nodup : indices.Nodup)
    (listed : ∀ index, index ∈ indices ↔ (queue.requests index).status = .confirmed)
    (queued : ∀ index ∈ indices, index < queue.requestCount) (amount : Request → Nat) :
    queue.total (Request.onceConfirmed amount) =
      (indices.map fun index => amount (queue.requests index)).sum := by
  rw [← List.sum_toFinset _ nodup]
  unfold Storage.total Request.onceConfirmed
  rw [← Finset.sum_filter]
  apply Finset.sum_congr
  · ext index
    rw [Finset.mem_filter, Finset.mem_range, List.mem_toFinset, ← listed]
    exact ⟨And.right, fun member => ⟨queued index member, member⟩⟩
  · exact fun _ _ => rfl

/-- What the mainchain paid is what the confirmed requests asked for. -/
structure PaidInFull (hashes : Hashes) (history : List ExecutedBlock) (queue : Storage) :
    Prop where
  confirmed : ∀ index, (queue.requests index).status = .confirmed ↔
    ∃ assignment ∈ succeededBundles hashes history, index ∈ assignment.indices
  received : ∀ btcDestination, receivedSats hashes history btcDestination =
    queue.total (Request.onceConfirmed (Request.satsTo btcDestination))
  treasury : paidSats hashes (assignments hashes history) (succeededIn history) =
    queue.total (Request.onceConfirmed Request.lockedSats)

theorem PaysRequests.paidInFull {hashes : Hashes} {history : List ExecutedBlock}
    {queue : Storage}
    (pays : PaysRequests hashes (assignments hashes history) (succeededIn history) queue)
    (traced : Traced hashes (assignments hashes history) queue)
    (intact : Intact hashes (assignments hashes history) queue)
    (backed : Backed hashes (assignments hashes history) (terminalIn history) queue) :
    PaidInFull hashes history queue := by
  have isAssigned : ∀ assignment ∈ succeededBundles hashes history,
      assignment ∈ assignments hashes history :=
    fun _ member => (mem_succeededBundles.mp member).1
  have listed : ∀ index,
      index ∈ (succeededBundles hashes history).flatMap Assignment.indices ↔
        (queue.requests index).status = .confirmed := by
    intro index
    rw [List.mem_flatMap]
    constructor
    · intro inSucceeded
      rcases inSucceeded with ⟨assignment, member, inBundle⟩
      have succeeded := (mem_succeededBundles.mp member).2
      exact (pays.confirmed assignment (isAssigned assignment member) index
        inBundle).mpr succeeded
    · intro isConfirmed
      rcases traced index (by simp [isConfirmed]) with ⟨_, _, assignment, member, inBundle, _⟩
      have succeeded := (pays.confirmed assignment member index inBundle).mp isConfirmed
      exact ⟨assignment, mem_succeededBundles.mpr ⟨member, succeeded⟩, inBundle⟩
  have nodup : ((succeededBundles hashes history).flatMap Assignment.indices).Nodup :=
    List.nodup_flatMap.mpr
      ⟨fun assignment member => backed.nodup assignment (isAssigned assignment member),
        intact.disjoint.sublist List.filter_sublist⟩
  have queued : ∀ index ∈ (succeededBundles hashes history).flatMap Assignment.indices,
      index < queue.requestCount := fun index member =>
    (traced index (by simp [(listed index).mp member])).2.1
  constructor
  · intro index
    rw [← listed, List.mem_flatMap]
  · intro btcDestination
    rw [total_onceConfirmed nodup listed queued, receivedSats, List.map_flatMap,
      List.flatMap_def, List.sum_flatten, List.map_map]
    apply congrArg List.sum
    apply List.map_congr_left
    intro assignment member
    exact pays.pays assignment (isAssigned assignment member) btcDestination
  · rw [total_onceConfirmed nodup listed queued, paidSats_eq_succeededBundles]
    change _ = lockedSatsOf queue _
    rw [lockedSatsOf_flatMap]
    apply congrArg List.sum
    apply List.map_congr_left
    intro assignment member
    exact backed.sats assignment (isAssigned assignment member)

/-- Along every chain from genesis without body withdrawals, gas aside, whose
bundles succeed only after they were assigned and are resolved at most once: the
confirmed requests are those of the bundles that succeeded, these pay every
destination exactly what the confirmed requests to it ask for, and take from the
treasury exactly what the confirmed requests locked. -/
theorem mainchain_pays_confirmed (hashes : Hashes) (sidechainId : UInt32)
    (genesisHash : B256) (withdrawalsRoot : Option B256) (history : List ExecutedBlock)
    (final : Tip)
    (noWithdrawals : ∀ executed ∈ history, executed.withdrawals = [])
    (unmetered : ∀ executed ∈ history, executed.lifecycleEnv.gasLimit = none)
    (free : hashes.CollisionFree (assignments hashes history))
    (resolved : ResolvedAfterwards hashes history)
    (chain : Chain hashes sidechainId (.genesis genesisHash withdrawalsRoot) history
      final) :
    PaidInFull hashes history final.world.queue := by
  have covered := covered_of_chain noWithdrawals unmetered free resolved chain
  have pays := paysRequests_of_chain noWithdrawals unmetered free resolved chain
  exact pays.paidInFull (traced_of_chain rfl chain) covered.intact covered.backed

/-! The withdrawal of 2 satoshis, 1 being its fee, after it was confirmed in block 3. -/

theorem mainchain_pays_confirmed_block_three :
    ∃ history final,
      Chain withdrawalHashes 10 (.genesis (.replicate 32 0) none) history final ∧
      receivedSats withdrawalHashes history (List.replicate 22 0xaa) = 2 ∧
      PaidInFull withdrawalHashes history final.world.queue := by
  have executes : Meets (executeAll withdrawalHashes 10 (.genesis (.replicate 32 0) none)
        confirmedProposals)
      (fun result => receivedSats withdrawalHashes result.1 (List.replicate 22 0xaa) = 2 ∧
        (∀ executed ∈ result.1, executed.withdrawals = [] ∧
          executed.lifecycleEnv.gasLimit = none) ∧
        (assignments withdrawalHashes result.1).length ≤ 1 ∧
        (∀ assignment ∈ assignments withdrawalHashes result.1,
          (terminalIn result.1).count (assignment.m6id withdrawalHashes) ≤ 1) ∧
        succeededIn result.1 ⊆ assignedM6ids withdrawalHashes result.1 ∧
        ∀ position, (inside : position < result.1.length) →
          reported .succeeded result.1[position].done.outcomes ⊆
            assignedM6ids withdrawalHashes (result.1.take position))
      fun _ => False := by decide +kernel
  rcases executes.exists_ok (fun _ failed => failed) with
    ⟨result, resultEq, received, plain, single, once, known, assigned⟩
  have chain := (chain_of_executeAll resultEq).1
  exact ⟨result.1, result.2, chain, received,
    mainchain_pays_confirmed withdrawalHashes 10 _ _ result.1 result.2
      (fun executed member => (plain executed member).1)
      (fun executed member => (plain executed member).2) (.of_length_le_one single)
      { once := once
        known := known
        assigned := forall_split_of_take assigned } chain⟩

end Beth
