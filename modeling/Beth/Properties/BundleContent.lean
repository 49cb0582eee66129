import Beth.Node.WithdrawalBundle.Payees

/-! # What a bundle contains

A bundle takes each pending request wholly or not at all: it pays every
destination it names the sum of all requests to it, consumes exactly those
requests and encodes exactly their fees. -/

namespace Beth

open Foundation

/-! ## Sums over the paid requests -/

/-- The pending requests to any of the destinations. -/
def requestsToAny (pending : List PendingWithdrawal) (destinations : List Bytes) :
    List PendingWithdrawal :=
  pending.filter fun request => request.btcDestination ∈ destinations

section Sums

variable {pending : List PendingWithdrawal}

variable (pending) in
theorem flatMap_requestsTo_perm {destinations : List Bytes} (nodup : destinations.Nodup) :
    (destinations.flatMap (requestsTo pending)).Perm (requestsToAny pending destinations) := by
  have grouped := Grouping.flatMap_filter_perm PendingWithdrawal.btcDestination nodup
    (requestsToAny pending destinations)
    (fun request member => by simpa using (List.mem_filter.mp member).2)
  have sameRequests : (destinations.flatMap fun btcDestination =>
        (requestsToAny pending destinations).filter fun request =>
          request.btcDestination = btcDestination) =
      destinations.flatMap (requestsTo pending) := by
    apply List.flatMap_congr
    intro btcDestination member
    rw [requestsToAny, List.filter_filter]
    apply List.filter_congr
    intro request _
    by_cases toIt : request.btcDestination = btcDestination
    · simp [toIt, member]
    · simp [toIt]
  rwa [sameRequests] at grouped

variable (pending) in
theorem sum_filter_le (amount : PendingWithdrawal → Nat) (test : PendingWithdrawal → Bool) :
    ((pending.filter test).map amount).sum ≤ (pending.map amount).sum :=
  (List.filter_sublist.map amount).sum_le_sum fun _ _ => Nat.zero_le _

variable (amount : PendingWithdrawal → UInt64)
  (fits : (pending.map fun request => (amount request).toNat).sum < 2 ^ 64)

include fits

/-- Nothing saturates in the total of one destination. -/
theorem toNat_totalOf (btcDestination : Bytes) :
    (((requestsTo pending btcDestination).map amount).foldl saturatingAdd 0).toNat =
      ((requestsTo pending btcDestination).map fun request => (amount request).toNat).sum := by
  have within := (sum_filter_le pending (fun request => (amount request).toNat)
    fun request => request.btcDestination = btcDestination).trans_lt fits
  rw [toNat_foldl_saturatingAdd_of_fits, List.map_map]
  · rfl
  · rw [List.map_map]
    exact within

/-- The totals of distinct destinations are the total of all their requests. -/
theorem sum_totalOf {destinations : List Bytes} (nodup : destinations.Nodup) :
    (destinations.map fun btcDestination =>
        (((requestsTo pending btcDestination).map amount).foldl saturatingAdd 0).toNat).sum =
      ((requestsToAny pending destinations).map fun request => (amount request).toNat).sum := by
  have grouped := (flatMap_requestsTo_perm pending nodup).map
    fun request => (amount request).toNat
  rw [← grouped.sum_eq, List.map_flatMap, List.flatMap_def, List.sum_flatten, List.map_map]
  congr 1
  apply List.map_congr_left
  intro btcDestination _
  exact toNat_totalOf amount fits btcDestination

end Sums

/-! ## The content of a bundle -/

/-- The outputs after the two commitments. -/
def WithdrawalBundle.payouts (bundle : WithdrawalBundle) : List TxOut :=
  bundle.tx.output.drop 2

structure Conserves (hashes : Hashes) (pending : List PendingWithdrawal)
    (blockHeight : UInt32) (bundle : WithdrawalBundle) : Prop where
  distinct : (bundle.payouts.map TxOut.scriptPubkey).Nodup
  values : ∀ payout ∈ bundle.payouts, payout.value.toNat =
    ((requestsTo pending payout.scriptPubkey).map fun request =>
      request.valueSats.toNat).sum
  increasing : bundle.requestIndices.Pairwise (· < ·)
  consumed : bundle.requestIndices.Perm
    ((requestsToAny pending (bundle.payouts.map TxOut.scriptPubkey)).map
      PendingWithdrawal.index)
  whole : ∀ request ∈ pending, request.index ∈ bundle.requestIndices ↔
    request.btcDestination ∈ bundle.payouts.map TxOut.scriptPubkey
  fee : bundle.tx.output[0]? = some
    { value := 0
      scriptPubkey := opReturnScript (toBeBytes 8
        ((requestsToAny pending (bundle.payouts.map TxOut.scriptPubkey)).map fun request =>
          request.mainFeeSats.toNat).sum) }
  commitment : bundle.tx.output[1]? = some
    { value := 0
      scriptPubkey := opReturnScript (hashes.keccak256
        (requestsCommitmentPreimage bundle.requestIndices blockHeight)).bytes }
  recoverable : ∀ requestIndices height,
    requestsCommitmentPreimage requestIndices height =
      requestsCommitmentPreimage bundle.requestIndices blockHeight →
    requestIndices = bundle.requestIndices ∧ height = blockHeight
  total : m6Sats bundle.tx =
    ((requestsToAny pending (bundle.payouts.map TxOut.scriptPubkey)).map
      PendingWithdrawal.totalSats).sum

section Bundle

variable {hashes : Hashes} {order : HashMapOrder} {pending : List PendingWithdrawal}
  {blockHeight : UInt32} {bundle : WithdrawalBundle}

theorem payouts_bundlePaying (paid : List Bytes) :
    (bundlePaying pending hashes blockHeight paid).payouts =
      paid.map fun btcDestination => (totalTo pending btcDestination).payout := rfl

theorem scripts_bundlePaying (paid : List Bytes) :
    (bundlePaying pending hashes blockHeight paid).payouts.map TxOut.scriptPubkey = paid := by
  rw [payouts_bundlePaying, List.map_map]
  exact List.map_id paid

/-- The indices are those of the requests to the paid destinations, sorted. -/
theorem requestIndices_bundlePaying_perm {paid : List Bytes} (nodup : paid.Nodup) :
    (bundlePaying pending hashes blockHeight paid).requestIndices.Perm
      ((requestsToAny pending paid).map PendingWithdrawal.index) := by
  have grouped := (flatMap_requestsTo_perm pending nodup).map
    PendingWithdrawal.index
  rw [List.map_flatMap] at grouped
  exact (List.perm_insertionSort _ _).trans grouped

/-- The encoded fee is the exact sum of the fees of the paid requests. -/
theorem toNat_totalMainFee {paid : List Bytes} (nodup : paid.Nodup)
    (feesFit : (pending.map fun request => request.mainFeeSats.toNat).sum < 2 ^ 64) :
    (selectionOf pending paid).totalMainFeeSats.toNat =
      ((requestsToAny pending paid).map fun request => request.mainFeeSats.toNat).sum := by
  have total := sum_totalOf PendingWithdrawal.mainFeeSats feesFit nodup
  have within := (sum_filter_le pending (fun request => request.mainFeeSats.toNat)
    fun request => request.btcDestination ∈ paid).trans_lt feesFit
  have sameSum : ((paid.map (feeTo pending)).map UInt64.toNat).sum =
      ((requestsToAny pending paid).map fun request => request.mainFeeSats.toNat).sum := by
    rw [List.map_map]
    exact total
  rw [selectionOf, toNat_foldl_saturatingAdd_of_fits _ (sameSum ▸ within), sameSum]

end Bundle

/-- A selected bundle conserves value and requests. -/
theorem bundle_conserves (hashes : Hashes) (order : HashMapOrder)
    (pending : List PendingWithdrawal) (blockHeight : UInt32) (bundle : WithdrawalBundle)
    (distinct : (pending.map PendingWithdrawal.index).Nodup)
    (valuesFit : (pending.map fun request => request.valueSats.toNat).sum < 2 ^ 64)
    (feesFit : (pending.map fun request => request.mainFeeSats.toNat).sum < 2 ^ 64)
    (selected : selectWithdrawalBundle hashes order pending blockHeight = some bundle) :
    Conserves hashes pending blockHeight bundle := by
  have bundleEq := ((selectWithdrawalBundle_eq_some_iff pending).mp selected).2
  have nodup := payees_nodup pending
  generalize payees pending = paid at bundleEq nodup
  subst bundleEq
  have consumed : (bundlePaying pending hashes blockHeight paid).requestIndices.Perm
      ((requestsToAny pending paid).map PendingWithdrawal.index) :=
    requestIndices_bundlePaying_perm nodup
  have feeNat := toNat_totalMainFee nodup feesFit
  constructor
  · rw [scripts_bundlePaying]
    exact nodup
  · intro payout member
    rw [payouts_bundlePaying] at member
    rcases List.mem_map.mp member with ⟨btcDestination, _, payoutEq⟩
    rw [← payoutEq]
    exact toNat_totalOf PendingWithdrawal.valueSats valuesFit btcDestination
  · have sorted : (bundlePaying pending hashes blockHeight paid).requestIndices.Pairwise
        (· ≤ ·) := List.pairwise_insertionSort _ _
    have once : (bundlePaying pending hashes blockHeight paid).requestIndices.Nodup := by
      rw [consumed.nodup_iff]
      exact distinct.sublist (List.filter_sublist.map _)
    exact (sorted.and once).imp fun both => UInt64.lt_of_le_of_ne both.1 both.2
  · rw [scripts_bundlePaying]
    exact consumed
  · intro request member
    rw [scripts_bundlePaying, consumed.mem_iff, List.mem_map]
    constructor
    · intro found
      rcases found with ⟨other, otherPaid, sameIndex⟩
      rcases List.mem_filter.mp otherPaid with ⟨otherMem, toPaid⟩
      rw [← List.inj_on_of_nodup_map distinct otherMem member sameIndex]
      simpa using toPaid
    · intro toPaid
      exact ⟨request, List.mem_filter.mpr ⟨member, by simpa using toPaid⟩, rfl⟩
  · rw [scripts_bundlePaying, ← feeNat]
    rfl
  · rfl
  · intro requestIndices height same
    exact requestsCommitmentPreimage_injective same
  · rw [scripts_bundlePaying, bundlePaying, m6Sats_buildWithdrawalBundle, feeNat,
      sum_map_totalSats]
    congr 1
    have total := sum_totalOf PendingWithdrawal.valueSats valuesFit nodup
    rw [← total, selectionOf, List.map_map]
    rfl

/-- Two of these three requests share a destination. -/
def threeRequests : List PendingWithdrawal :=
  [{ index := 0, valueSats := 1000, mainFeeSats := 100, btcDestination := [0xAA] },
    { index := 1, valueSats := 500, mainFeeSats := 10, btcDestination := [0xBB] },
    { index := 2, valueSats := 2000, mainFeeSats := 50, btcDestination := [0xAA] }]

theorem bundle_conserves_three_requests :
    ∃ bundle, selectWithdrawalBundle .unused .insertion threeRequests 1 = some bundle ∧
      Conserves .unused threeRequests 1 bundle := by
  have found : (selectWithdrawalBundle .unused .insertion threeRequests 1).isSome := by
    decide +kernel
  rcases Option.isSome_iff_exists.mp found with ⟨bundle, selected⟩
  exact ⟨bundle, selected, bundle_conserves .unused .insertion threeRequests 1 bundle
    (by decide) (by decide) (by decide) selected⟩

end Beth
