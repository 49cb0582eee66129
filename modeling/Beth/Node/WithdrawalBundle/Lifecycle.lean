import Beth.Contracts.Claims
import Beth.Node.EnforcerClient
import Beth.Node.WithdrawalBundle.Selection

/-! # Computing the lifecycle call

The requests are read from the parent's queue, outcomes are matched with the
bundles they name, and the pending requests are offered to the selection. The
reader gives each field of a request in the width the node uses; how the fields
are laid out in storage slots is not part of this module. -/

namespace Beth

open Foundation WithdrawalRequestQueue

/-! ## Reading the queue -/

inductive RequestStatus
  | pending
  | bundled
  | confirmed
  | refunded
deriving DecidableEq

def RequestStatus.ofStatus : Status → RequestStatus
  | .pending => .pending
  | .bundled => .bundled
  | .confirmed => .confirmed
  | .refunded => .refunded

structure RequestEntry where
  index : UInt64
  valueSats : UInt64
  mainFeeSats : UInt64
  btcDestination : Bytes
  status : RequestStatus
  bundleM6id : Option Txid
deriving DecidableEq

/-- The entry read for one index: a pending request has no bundle. -/
def readEntry (queue : Storage) (index : Nat) : RequestEntry :=
  let request := queue.requests index
  let status := RequestStatus.ofStatus request.status
  { index := UInt64.ofNat index
    valueSats := clampU64 request.valueSats
    mainFeeSats := clampU64 request.mainFeeSats
    btcDestination := request.btcDestination
    status := status
    bundleM6id := match status with
      | .pending => none
      | _ => some request.bundleM6id }

def readAllRequests (queue : Storage) : List RequestEntry :=
  (List.range (clampU64 queue.requestCount).toNat).map (readEntry queue)

/-- The candidates for a bundle, both in `read_pending_withdrawals` and in
`compute_lifecycle_update`. -/
def pendingOf (allRequests : List RequestEntry) : List PendingWithdrawal :=
  (allRequests.filter fun request => request.status = .pending).map fun request =>
    { index := request.index
      valueSats := request.valueSats
      mainFeeSats := request.mainFeeSats
      btcDestination := request.btcDestination }

def readPendingWithdrawals (queue : Storage) : List PendingWithdrawal :=
  pendingOf (readAllRequests queue)

/-! ## The update -/

structure BundleLifecycleUpdate where
  bundledIndices : List UInt64
  newM6id : Option Txid
  succeededIndices : List UInt64
  failedIndices : List UInt64
deriving DecidableEq

def BundleLifecycleUpdate.isEmpty (update : BundleLifecycleUpdate) : Bool :=
  update.bundledIndices.isEmpty && update.succeededIndices.isEmpty &&
    update.failedIndices.isEmpty

/-- The call the encoded calldata stands for. -/
def BundleLifecycleUpdate.toCalldata (update : BundleLifecycleUpdate) :
    SystemReportBundleLifecycleCall where
  bundledIndices := update.bundledIndices.map UInt64.toNat
  newM6id := update.newM6id.getD (.replicate 32 0)
  succeededIndices := update.succeededIndices.map UInt64.toNat
  failedIndices := update.failedIndices.map UInt64.toNat

/-- The bundled requests carrying an m6id. -/
def matchingIndices (allRequests : List RequestEntry) (m6id : Txid) : List UInt64 :=
  (allRequests.filter fun request =>
    request.status = .bundled ∧ request.bundleM6id = some m6id).map RequestEntry.index

/-- The loop over outcomes, extending the succeeded or the failed indices. -/
def resolveOutcomes (allRequests : List RequestEntry) :
    List WithdrawalBundleOutcome → List UInt64 → List UInt64 → List UInt64 × List UInt64
  | [], succeeded, failed => (succeeded, failed)
  | outcome :: rest, succeeded, failed =>
      let matching := matchingIndices allRequests outcome.m6id
      match outcome.status with
      | .succeeded => resolveOutcomes allRequests rest (succeeded ++ matching) failed
      | .failed => resolveOutcomes allRequests rest succeeded (failed ++ matching)
      | .submitted => resolveOutcomes allRequests rest succeeded failed

def computeLifecycleUpdate (hashes : Hashes) (order : HashMapOrder)
    (allRequests : List RequestEntry) (outcomes : List WithdrawalBundleOutcome)
    (blockHeight : UInt32) : BundleLifecycleUpdate :=
  let resolved := resolveOutcomes allRequests outcomes [] []
  match selectWithdrawalBundle hashes order (pendingOf allRequests) blockHeight with
  | some bundle =>
      { bundledIndices := bundle.requestIndices
        newM6id := some (bundle.m6id hashes)
        succeededIndices := resolved.1
        failedIndices := resolved.2 }
  | none =>
      { bundledIndices := []
        newM6id := none
        succeededIndices := resolved.1
        failedIndices := resolved.2 }

/-! ## What the reader returns -/

/-- How many requests the reader visits. -/
def readableCount (queue : Storage) : Nat := (clampU64 queue.requestCount).toNat

theorem readableCount_le (queue : Storage) : readableCount queue ≤ queue.requestCount :=
  toNat_clampU64_le _

theorem readableCount_lt (queue : Storage) : readableCount queue < 2 ^ 64 :=
  UInt64.toNat_lt _

theorem lt_readableCount {queue : Storage} {index : Nat}
    (queued : index < queue.requestCount) (small : index < 2 ^ 64 - 1) :
    index < readableCount queue := by
  unfold readableCount clampU64
  split
  · rename_i fits
    rw [UInt64.toNat_ofNat', Nat.mod_eq_of_lt fits]
    exact queued
  · rw [UInt64.toNat_ofNat']
    omega

theorem readEntry_index_toNat {queue : Storage} {index : Nat}
    (readable : index < readableCount queue) :
    (readEntry queue index).index.toNat = index := by
  have bound := readableCount_lt queue
  simp only [readEntry, UInt64.toNat_ofNat']
  exact Nat.mod_eq_of_lt (by omega)

theorem readEntry_status (queue : Storage) (index : Nat) :
    (readEntry queue index).status = .ofStatus (queue.requests index).status := rfl

@[simp] theorem ofStatus_eq_pending (status : Status) :
    RequestStatus.ofStatus status = .pending ↔ status = .pending := by
  cases status <;> simp [RequestStatus.ofStatus]

@[simp] theorem ofStatus_eq_bundled (status : Status) :
    RequestStatus.ofStatus status = .bundled ↔ status = .bundled := by
  cases status <;> simp [RequestStatus.ofStatus]

/-- A 64-bit amount is read back as it was stored. -/
theorem readEntry_amounts (queue : Storage) (index : Nat) :
    (readEntry queue index).valueSats.toNat = (queue.requests index).valueSats ∧
    (readEntry queue index).mainFeeSats.toNat = (queue.requests index).mainFeeSats := by
  have fits := (queue.requests index).fits
  exact ⟨toNat_clampU64 (by omega), toNat_clampU64 (by omega)⟩

/-- The indices of the readable requests that pass a test. -/
def indicesWhere (queue : Storage) (test : Request → Bool) : List Nat :=
  (List.range (readableCount queue)).filter fun index => test (queue.requests index)

theorem mem_indicesWhere {queue : Storage} {test : Request → Bool} {index : Nat} :
    index ∈ indicesWhere queue test ↔
      index < readableCount queue ∧ test (queue.requests index) = true := by
  simp [indicesWhere]

theorem indicesWhere_nodup (queue : Storage) (test : Request → Bool) :
    (indicesWhere queue test).Nodup :=
  List.nodup_range.filter _

def pendingIndices (queue : Storage) : List Nat :=
  indicesWhere queue fun request => request.status = .pending

/-- The requests a bundle has in flight. -/
def carriers (queue : Storage) (m6id : Txid) : List Nat :=
  indicesWhere queue fun request => request.status = .bundled ∧ request.bundleM6id = m6id

def pendingEntry (queue : Storage) (index : Nat) : PendingWithdrawal where
  index := UInt64.ofNat index
  valueSats := clampU64 (queue.requests index).valueSats
  mainFeeSats := clampU64 (queue.requests index).mainFeeSats
  btcDestination := (queue.requests index).btcDestination

theorem readPendingWithdrawals_eq (queue : Storage) :
    readPendingWithdrawals queue = (pendingIndices queue).map (pendingEntry queue) := by
  simp only [readPendingWithdrawals, pendingOf, readAllRequests, pendingIndices,
    indicesWhere, List.filter_map, List.map_map]
  congr 1
  apply List.filter_congr
  intro index _
  simp [readEntry_status]

theorem toNat_index_map {queue : Storage} {indices : List Nat}
    (readable : ∀ index ∈ indices, index < readableCount queue) :
    indices.map (fun index => (UInt64.ofNat index).toNat) = indices := by
  conv_rhs => rw [← List.map_id indices]
  apply List.map_congr_left
  intro index member
  exact readEntry_index_toNat (readable index member)

theorem readEntry_carries (queue : Storage) (index : Nat) (m6id : Txid) :
    (readEntry queue index).status = .bundled ∧
        (readEntry queue index).bundleM6id = some m6id ↔
      (queue.requests index).status = .bundled ∧
        (queue.requests index).bundleM6id = m6id := by
  simp only [readEntry]
  cases (queue.requests index).status <;> simp [RequestStatus.ofStatus]

theorem matchingIndices_eq (queue : Storage) (m6id : Txid) :
    (matchingIndices (readAllRequests queue) m6id).map UInt64.toNat =
      carriers queue m6id := by
  have filtered : (matchingIndices (readAllRequests queue) m6id).map UInt64.toNat =
      (carriers queue m6id).map fun index => (UInt64.ofNat index).toNat := by
    simp only [matchingIndices, readAllRequests, carriers, indicesWhere, List.filter_map,
      List.map_map, readableCount]
    congr 1
    apply List.filter_congr
    intro index _
    exact decide_eq_decide.mpr (readEntry_carries queue index m6id)
  rw [filtered]
  exact toNat_index_map fun index member => (mem_indicesWhere.mp member).1

/-! ## The resolved indices -/

/-- The m6ids reported with a status. -/
def reported (status : WithdrawalBundleStatus) (outcomes : List WithdrawalBundleOutcome) :
    List Txid :=
  (outcomes.filter fun outcome => outcome.status = status).map WithdrawalBundleOutcome.m6id

theorem resolveOutcomes_eq (allRequests : List RequestEntry)
    (outcomes : List WithdrawalBundleOutcome) (succeeded failed : List UInt64) :
    resolveOutcomes allRequests outcomes succeeded failed =
      (succeeded ++ (reported .succeeded outcomes).flatMap (matchingIndices allRequests),
        failed ++ (reported .failed outcomes).flatMap (matchingIndices allRequests)) := by
  induction outcomes generalizing succeeded failed with
  | nil => simp [resolveOutcomes, reported]
  | cons outcome rest induction =>
      rw [resolveOutcomes]
      cases statusEq : outcome.status with
      | submitted => simp [induction, reported, statusEq]
      | succeeded => simp [induction, reported, statusEq]
      | failed => simp [induction, reported, statusEq]

/-! ## The call for a queue -/

section Call

variable (hashes : Hashes) (order : HashMapOrder) (queue : Storage)
  (outcomes : List WithdrawalBundleOutcome) (blockHeight : UInt32)

/-- The bundle assigned on top of a queue. -/
def selectedBundle : Option WithdrawalBundle :=
  selectWithdrawalBundle hashes order (readPendingWithdrawals queue) blockHeight

/-- The lifecycle call made on top of a queue. -/
def lifecycleCall : SystemReportBundleLifecycleCall :=
  (computeLifecycleUpdate hashes order (readAllRequests queue) outcomes
    blockHeight).toCalldata

theorem lifecycleCall_bundledIndices :
    (lifecycleCall hashes order queue outcomes blockHeight).bundledIndices =
      match selectedBundle hashes order queue blockHeight with
      | some bundle => bundle.requestIndices.map UInt64.toNat
      | none => [] := by
  simp only [lifecycleCall, computeLifecycleUpdate, selectedBundle, readPendingWithdrawals]
  cases selectWithdrawalBundle hashes order (pendingOf (readAllRequests queue))
    blockHeight <;> rfl

theorem lifecycleCall_newM6id {bundle : WithdrawalBundle}
    (selected : selectedBundle hashes order queue blockHeight = some bundle) :
    (lifecycleCall hashes order queue outcomes blockHeight).newM6id =
      bundle.m6id hashes := by
  simp only [selectedBundle, readPendingWithdrawals] at selected
  simp [lifecycleCall, computeLifecycleUpdate, selected, BundleLifecycleUpdate.toCalldata]

theorem lifecycleCall_succeededIndices :
    (lifecycleCall hashes order queue outcomes blockHeight).succeededIndices =
      (reported .succeeded outcomes).flatMap (carriers queue) := by
  have resolved : (lifecycleCall hashes order queue outcomes blockHeight).succeededIndices =
      (resolveOutcomes (readAllRequests queue) outcomes [] []).1.map UInt64.toNat := by
    simp only [lifecycleCall, computeLifecycleUpdate]
    cases selectWithdrawalBundle hashes order (pendingOf (readAllRequests queue))
      blockHeight <;> rfl
  rw [resolved, resolveOutcomes_eq]
  simp only [List.nil_append, List.map_flatMap]
  exact List.flatMap_congr fun m6id _ => matchingIndices_eq queue m6id

theorem lifecycleCall_failedIndices :
    (lifecycleCall hashes order queue outcomes blockHeight).failedIndices =
      (reported .failed outcomes).flatMap (carriers queue) := by
  have resolved : (lifecycleCall hashes order queue outcomes blockHeight).failedIndices =
      (resolveOutcomes (readAllRequests queue) outcomes [] []).2.map UInt64.toNat := by
    simp only [lifecycleCall, computeLifecycleUpdate]
    cases selectWithdrawalBundle hashes order (pendingOf (readAllRequests queue))
      blockHeight <;> rfl
  rw [resolved, resolveOutcomes_eq]
  simp only [List.nil_append, List.map_flatMap]
  exact List.flatMap_congr fun m6id _ => matchingIndices_eq queue m6id

end Call

/-! ## What the assigned bundle contains -/

/-- The bundle assigned on top of a queue consumes distinct pending requests
and pays exactly what they lock. -/
structure Bundles (hashes : Hashes) (queue : Storage) (blockHeight : UInt32)
    (bundle : WithdrawalBundle) : Prop where
  nonempty : bundle.requestIndices ≠ []
  nodup : (bundle.requestIndices.map UInt64.toNat).Nodup
  pending : ∀ index ∈ bundle.requestIndices.map UInt64.toNat, index ∈ pendingIndices queue
  commitment : bundle.tx.output[1]? =
    some (requestsCommitmentTxout
      (requestsCommitment hashes bundle.requestIndices blockHeight))
  sats : lockedSatsOf queue (pendingIndices queue) < 2 ^ 64 →
    m6Sats bundle.tx = lockedSatsOf queue (bundle.requestIndices.map UInt64.toNat)

theorem pendingEntry_totalSats (queue : Storage) (index : Nat) :
    (pendingEntry queue index).totalSats = (queue.requests index).lockedSats := by
  have amounts := readEntry_amounts queue index
  exact congrArg₂ (· + ·) amounts.1 amounts.2

theorem selectedBundle_bundles {hashes : Hashes} {order : HashMapOrder} {queue : Storage}
    {blockHeight : UInt32} {bundle : WithdrawalBundle}
    (selected : selectedBundle hashes order queue blockHeight = some bundle) :
    Bundles hashes queue blockHeight bundle := by
  rcases selectWithdrawalBundle_consumes selected with ⟨covered, consumes⟩
  rw [readPendingWithdrawals_eq] at consumes
  have readable : ∀ index ∈ pendingIndices queue, index < readableCount queue :=
    fun index member => (mem_indicesWhere.mp member).1
  rcases consumes.subperm with ⟨permuted, perm, sublist⟩
  rcases List.sublist_map_iff.mp sublist with ⟨chosen, chosenSublist, permutedEq⟩
  have chosenReadable : ∀ index ∈ chosen, index < readableCount queue :=
    fun index member => readable index (chosenSublist.subset member)
  have indicesPerm : (bundle.requestIndices.map UInt64.toNat).Perm chosen := by
    have mapped := (consumes.indices.trans
      (perm.symm.map PendingWithdrawal.index)).map UInt64.toNat
    rw [permutedEq, List.map_map, List.map_map] at mapped
    have sameIndices : chosen.map
        ((UInt64.toNat ∘ PendingWithdrawal.index) ∘ pendingEntry queue) = chosen :=
      toNat_index_map chosenReadable
    rwa [sameIndices] at mapped
  constructor
  · intro empty
    have lengthEq := consumes.indices.length_eq
    rw [empty, List.length_map, List.length_nil] at lengthEq
    exact consumes.nonempty (List.eq_nil_of_length_eq_zero lengthEq.symm)
  · exact indicesPerm.symm.nodup (chosenSublist.nodup (indicesWhere_nodup queue _))
  · intro index member
    exact chosenSublist.subset (indicesPerm.subset member)
  · exact consumes.commitment
  · intro fits
    have totals : ∀ indices : List Nat,
        ((indices.map (pendingEntry queue)).map PendingWithdrawal.totalSats).sum =
          lockedSatsOf queue indices := by
      intro indices
      rw [List.map_map, lockedSatsOf]
      exact congrArg List.sum
        (List.map_congr_left fun index _ => pendingEntry_totalSats queue index)
    rw [consumes.sats (by rw [totals]; exact fits),
      ← (perm.map PendingWithdrawal.totalSats).sum_eq, permutedEq, totals]
    exact (indicesPerm.map _).sum_eq.symm

/-! ## Acceptance by the contract -/

/-- No m6id is reported as both or twice resolved. -/
def OneTerminalEach (outcomes : List WithdrawalBundleOutcome) : Prop :=
  (reported .succeeded outcomes ++ reported .failed outcomes).Nodup

instance (outcomes : List WithdrawalBundleOutcome) :
    Decidable (OneTerminalEach outcomes) := by
  unfold OneTerminalEach
  infer_instance

/-- No m6id that bundled requests carry is reported as both or twice resolved. -/
def NoConflict (queue : Storage) (outcomes : List WithdrawalBundleOutcome) : Prop :=
  ∀ m6id, carriers queue m6id ≠ [] →
    (reported .succeeded outcomes ++ reported .failed outcomes).count m6id ≤ 1

theorem OneTerminalEach.noConflict {outcomes : List WithdrawalBundleOutcome}
    (oneTerminal : OneTerminalEach outcomes) (queue : Storage) :
    NoConflict queue outcomes := fun m6id _ =>
  List.nodup_iff_count_le_one.mp oneTerminal m6id

/-- Different bundles have no request in common, so only a bundle reported more
than once names a request twice. -/
theorem flatMap_carriers_nodup_iff (queue : Storage) (m6ids : List Txid) :
    (m6ids.flatMap (carriers queue)).Nodup ↔
      ∀ m6id, carriers queue m6id ≠ [] → m6ids.count m6id ≤ 1 := by
  rw [List.nodup_flatMap, List.pairwise_iff_forall_sublist]
  constructor
  · intro distinct m6id inFlight
    by_contra repeated
    have twice : [m6id, m6id].Sublist m6ids :=
      List.duplicate_iff_sublist.mp (List.duplicate_iff_two_le_count.mpr (by omega))
    rcases List.exists_mem_of_ne_nil _ inFlight with ⟨index, carried⟩
    exact distinct.2 twice carried carried
  · intro once
    refine ⟨fun m6id _ => indicesWhere_nodup queue _, ?_⟩
    intro left right sublist index inLeft inRight
    have leftCarries := of_decide_eq_true (mem_indicesWhere.mp inLeft).2
    have rightCarries := of_decide_eq_true (mem_indicesWhere.mp inRight).2
    have same : right = left := rightCarries.2.symm.trans leftCarries.2
    rw [same] at sublist
    have atMostOnce := once left (List.ne_nil_of_mem inLeft)
    have atLeastTwice := List.duplicate_iff_two_le_count.mp
      (List.duplicate_iff_sublist.mpr sublist)
    omega

section CallIndices

variable {hashes : Hashes} {order : HashMapOrder} {queue : Storage}
  {outcomes : List WithdrawalBundleOutcome} {blockHeight : UInt32}

theorem lifecycleCall_resolved_eq :
    (lifecycleCall hashes order queue outcomes blockHeight).succeededIndices ++
        (lifecycleCall hashes order queue outcomes blockHeight).failedIndices =
      (reported .succeeded outcomes ++ reported .failed outcomes).flatMap
        (carriers queue) := by
  rw [lifecycleCall_succeededIndices, lifecycleCall_failedIndices, List.flatMap_append]

theorem lifecycleCall_bundled_pending {index : Nat}
    (member : index ∈ (lifecycleCall hashes order queue outcomes blockHeight).bundledIndices) :
    index < readableCount queue ∧ (queue.requests index).status = .pending := by
  rw [lifecycleCall_bundledIndices] at member
  cases selected : selectedBundle hashes order queue blockHeight with
  | none => simp [selected] at member
  | some bundle =>
      rw [selected] at member
      have facts := mem_indicesWhere.mp
        ((selectedBundle_bundles selected).pending index member)
      exact ⟨facts.1, of_decide_eq_true facts.2⟩

theorem lifecycleCall_resolved_bundled {index : Nat}
    (member : index ∈
      (lifecycleCall hashes order queue outcomes blockHeight).succeededIndices ++
        (lifecycleCall hashes order queue outcomes blockHeight).failedIndices) :
    index < readableCount queue ∧ (queue.requests index).status = .bundled := by
  rw [lifecycleCall_resolved_eq] at member
  rcases List.mem_flatMap.mp member with ⟨m6id, _, carried⟩
  have facts := mem_indicesWhere.mp carried
  exact ⟨facts.1, (of_decide_eq_true facts.2).1⟩

/-- Every index of the call belongs to a request that was read. -/
theorem lifecycleCall_readable {index : Nat}
    (member : index ∈ (lifecycleCall hashes order queue outcomes blockHeight).bundledIndices ++
      ((lifecycleCall hashes order queue outcomes blockHeight).succeededIndices ++
        (lifecycleCall hashes order queue outcomes blockHeight).failedIndices)) :
    index < readableCount queue := by
  rcases List.mem_append.mp member with bundled | resolved
  · exact (lifecycleCall_bundled_pending bundled).1
  · exact (lifecycleCall_resolved_bundled resolved).1

theorem lifecycleCall_bundled_nodup :
    (lifecycleCall hashes order queue outcomes blockHeight).bundledIndices.Nodup := by
  rw [lifecycleCall_bundledIndices]
  cases selected : selectedBundle hashes order queue blockHeight with
  | none => exact List.nodup_nil
  | some bundle => exact (selectedBundle_bundles selected).nodup

variable (hashes order blockHeight) in
theorem lifecycleCall_resolved_nodup_iff :
    ((lifecycleCall hashes order queue outcomes blockHeight).succeededIndices ++
        (lifecycleCall hashes order queue outcomes blockHeight).failedIndices).Nodup ↔
      NoConflict queue outcomes := by
  rw [lifecycleCall_resolved_eq]
  exact flatMap_carriers_nodup_iff queue _

/-- Without conflicting outcomes the computed call passes every `require` of
the contract. -/
theorem lifecycleCall_accepts (noConflict : NoConflict queue outcomes) :
    Accepts queue (lifecycleCall hashes order queue outcomes blockHeight) where
  bundled_pending := fun _ member => (lifecycleCall_bundled_pending member).2
  resolved_bundled := fun _ member => (lifecycleCall_resolved_bundled member).2
  queued := fun _ member =>
    (lifecycleCall_readable member).trans_le (readableCount_le queue)
  bundled_nodup := lifecycleCall_bundled_nodup
  resolved_nodup := (lifecycleCall_resolved_nodup_iff _ _ _).mpr noConflict

end CallIndices

end Beth
