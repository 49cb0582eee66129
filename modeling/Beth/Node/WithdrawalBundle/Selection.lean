import Beth.Foundation.Grouping
import Beth.Node.WithdrawalBundle.Transaction

/-! # Selecting a withdrawal bundle

`select_withdrawal_bundle`: pending requests are aggregated by destination in a
hash map, sorted, and taken greedily while the M6 transaction stays within the
standard weight. -/

namespace Beth

open Foundation

structure PendingWithdrawal where
  index : UInt64
  valueSats : UInt64
  mainFeeSats : UInt64
  btcDestination : Bytes
deriving DecidableEq

structure AggregatedWithdrawal where
  btcDestination : Bytes
  valueSats : UInt64
  mainFeeSats : UInt64
  requestIndices : List UInt64
deriving DecidableEq

namespace AggregatedWithdrawal

/-- The value `or_insert_with` starts an entry from. -/
def fresh (btcDestination : Bytes) : AggregatedWithdrawal where
  btcDestination := btcDestination
  valueSats := 0
  mainFeeSats := 0
  requestIndices := []

def add (aggregated : AggregatedWithdrawal) (request : PendingWithdrawal) :
    AggregatedWithdrawal :=
  { aggregated with
    valueSats := saturatingAdd aggregated.valueSats request.valueSats
    mainFeeSats := saturatingAdd aggregated.mainFeeSats request.mainFeeSats
    requestIndices := aggregated.requestIndices ++ [request.index] }

/-- The sort order: descending by fee, then value, then destination bytes. -/
def Precedes (left right : AggregatedWithdrawal) : Prop :=
  right.mainFeeSats < left.mainFeeSats ∨
    (right.mainFeeSats = left.mainFeeSats ∧
      (right.valueSats < left.valueSats ∨
        (right.valueSats = left.valueSats ∧ right.btcDestination ≤ left.btcDestination)))

instance : DecidableRel Precedes := fun left right => by
  unfold Precedes
  infer_instance

/-- The output that pays this destination. -/
def payout (aggregated : AggregatedWithdrawal) : TxOut where
  value := aggregated.valueSats
  scriptPubkey := aggregated.btcDestination

end AggregatedWithdrawal

/-- The order in which the node's own `HashMap` yields its values. -/
structure HashMapOrder where
  intoValues : List AggregatedWithdrawal → List AggregatedWithdrawal
  perm : ∀ values, (intoValues values).Perm values

/-- The order of insertion, one of the possible orders. -/
def HashMapOrder.insertion : HashMapOrder where
  intoValues := id
  perm := .refl

def aggregate (pending : List PendingWithdrawal) : List AggregatedWithdrawal :=
  Grouping.collect AggregatedWithdrawal.btcDestination PendingWithdrawal.btcDestination
    AggregatedWithdrawal.fresh AggregatedWithdrawal.add pending

/-- The accumulators of the greedy loop. -/
structure Selection where
  requestIndices : List UInt64
  bundleOutputs : List TxOut
  bundleTxoutsSize : UInt32
  totalMainFeeSats : UInt64

def Selection.initial : Selection where
  requestIndices := []
  bundleOutputs := []
  bundleTxoutsSize := 0
  totalMainFeeSats := 0

def Selection.push (destination : AggregatedWithdrawal) (sumTxoutSizes : UInt32)
    (selection : Selection) : Selection where
  requestIndices := selection.requestIndices ++ destination.requestIndices
  bundleOutputs := selection.bundleOutputs ++ [destination.payout]
  bundleTxoutsSize := sumTxoutSizes
  totalMainFeeSats := saturatingAdd selection.totalMainFeeSats destination.mainFeeSats

/-- The greedy loop. A destination whose own size cannot be computed is
skipped; one that no longer fits ends the loop. -/
def selectLoop : List AggregatedWithdrawal → Selection → Selection
  | [], selection => selection
  | destination :: rest, selection =>
      match tryFromU32 destination.btcDestination.length with
      | none => selectLoop rest selection
      | some spkSize =>
          match txoutSize spkSize with
          | none => selectLoop rest selection
          | some thisTxoutSize =>
              match tryFromU32 (selection.bundleOutputs.length + 1) with
              | none => selection
              | some nOutputs =>
                  match checkedAddU32 selection.bundleTxoutsSize thisTxoutSize with
                  | none => selection
                  | some sumTxoutSizes =>
                      match predictWeight nOutputs sumTxoutSizes with
                      | none => selection
                      | some _ =>
                          selectLoop rest (selection.push destination sumTxoutSizes)

def selectWithdrawalBundle (hashes : Hashes) (order : HashMapOrder)
    (pending : List PendingWithdrawal) (blockHeight : UInt32) :
    Option WithdrawalBundle :=
  if pending.isEmpty then none
  else
    let aggregated := (order.intoValues (aggregate pending)).insertionSort
      AggregatedWithdrawal.Precedes
    let selection := selectLoop aggregated .initial
    if selection.bundleOutputs.isEmpty then none
    else
      some (buildWithdrawalBundle hashes blockHeight selection.totalMainFeeSats
        (selection.requestIndices.insertionSort (· ≤ ·)) selection.bundleOutputs)

/-! ## What the loop accumulates -/

/-- The accumulators after paying exactly the `chosen` destinations. -/
structure Selection.Pays (start : Selection) (chosen : List AggregatedWithdrawal)
    (final : Selection) : Prop where
  requestIndices : final.requestIndices =
    start.requestIndices ++ chosen.flatMap AggregatedWithdrawal.requestIndices
  bundleOutputs : final.bundleOutputs =
    start.bundleOutputs ++ chosen.map AggregatedWithdrawal.payout
  totalMainFeeSats : final.totalMainFeeSats =
    (chosen.map AggregatedWithdrawal.mainFeeSats).foldl saturatingAdd start.totalMainFeeSats

theorem Selection.Pays.nil (start : Selection) : start.Pays [] start where
  requestIndices := by simp
  bundleOutputs := by simp
  totalMainFeeSats := rfl

theorem Selection.Pays.push {start final : Selection}
    {chosen : List AggregatedWithdrawal} {destination : AggregatedWithdrawal}
    {sumTxoutSizes : UInt32}
    (pays : (start.push destination sumTxoutSizes).Pays chosen final) :
    start.Pays (destination :: chosen) final where
  requestIndices := by
    simp [pays.requestIndices, Selection.push]
  bundleOutputs := by
    simp [pays.bundleOutputs, Selection.push]
  totalMainFeeSats := by
    simp [pays.totalMainFeeSats, Selection.push]

/-- The four accumulators stay in step: they all describe one sublist of the
destinations. -/
theorem selectLoop_pays (destinations : List AggregatedWithdrawal)
    (selection : Selection) :
    ∃ chosen, chosen.Sublist destinations ∧
      selection.Pays chosen (selectLoop destinations selection) := by
  induction destinations generalizing selection with
  | nil => exact ⟨[], .refl _, .nil _⟩
  | cons destination rest induction =>
      have skipped : ∃ chosen : List AggregatedWithdrawal,
          chosen.Sublist (destination :: rest) ∧
            selection.Pays chosen (selectLoop rest selection) := by
        rcases induction selection with ⟨chosen, sublist, pays⟩
        exact ⟨chosen, sublist.cons _, pays⟩
      have ended : ∃ chosen : List AggregatedWithdrawal,
          chosen.Sublist (destination :: rest) ∧ selection.Pays chosen selection :=
        ⟨[], List.nil_sublist _, .nil _⟩
      rw [selectLoop]
      cases tryFromU32 destination.btcDestination.length with
      | none => exact skipped
      | some spkSize =>
          dsimp only
          cases txoutSize spkSize with
          | none => exact skipped
          | some thisTxoutSize =>
              dsimp only
              cases tryFromU32 (selection.bundleOutputs.length + 1) with
              | none => exact ended
              | some nOutputs =>
                  dsimp only
                  cases checkedAddU32 selection.bundleTxoutsSize thisTxoutSize with
                  | none => exact ended
                  | some sumTxoutSizes =>
                      dsimp only
                      cases predictWeight nOutputs sumTxoutSizes with
                      | none => exact ended
                      | some _ =>
                          rcases induction (selection.push destination sumTxoutSizes) with
                            ⟨chosen, sublist, pays⟩
                          exact ⟨destination :: chosen, sublist.cons_cons _, pays.push⟩

/-! ## Saturating sums -/

/-- A saturating sum is the exact sum, capped. -/
theorem toNat_foldl_saturatingAdd (amounts : List UInt64) (start : UInt64) :
    (amounts.foldl saturatingAdd start).toNat =
      min (start.toNat + (amounts.map UInt64.toNat).sum) (2 ^ 64 - 1) := by
  induction amounts generalizing start with
  | nil =>
      have bound := start.toNat_lt
      simp only [List.foldl_nil, List.map_nil, List.sum_nil]
      omega
  | cons amount rest induction =>
      have added := toNat_saturatingAdd start amount
      rw [List.foldl_cons, induction, added]
      simp only [List.map_cons, List.sum_cons]
      omega

theorem toNat_foldl_saturatingAdd_of_fits (amounts : List UInt64)
    (fits : (amounts.map UInt64.toNat).sum < 2 ^ 64) :
    (amounts.foldl saturatingAdd 0).toNat = (amounts.map UInt64.toNat).sum := by
  rw [toNat_foldl_saturatingAdd]
  simp only [UInt64.toNat_zero]
  omega

/-- Adding requests to an aggregate adds them to each of its fields. -/
theorem foldl_add (requests : List PendingWithdrawal) (start : AggregatedWithdrawal) :
    requests.foldl AggregatedWithdrawal.add start =
      { btcDestination := start.btcDestination
        valueSats := (requests.map PendingWithdrawal.valueSats).foldl saturatingAdd
          start.valueSats
        mainFeeSats := (requests.map PendingWithdrawal.mainFeeSats).foldl saturatingAdd
          start.mainFeeSats
        requestIndices := start.requestIndices ++ requests.map PendingWithdrawal.index } := by
  induction requests generalizing start with
  | nil => simp
  | cons request rest induction =>
      rw [List.foldl_cons, induction]
      simp [AggregatedWithdrawal.add]

/-! ## What a bundle contains -/

/-- What a pending request takes out of the treasury when it is paid. -/
def PendingWithdrawal.totalSats (request : PendingWithdrawal) : Nat :=
  request.valueSats.toNat + request.mainFeeSats.toNat

/-- The pending requests to a destination. -/
def requestsTo (pending : List PendingWithdrawal) (btcDestination : Bytes) :
    List PendingWithdrawal :=
  pending.filter fun request => request.btcDestination = btcDestination

theorem aggregate_groups (pending : List PendingWithdrawal) :
    Grouping.Groups AggregatedWithdrawal.btcDestination PendingWithdrawal.btcDestination
      AggregatedWithdrawal.fresh AggregatedWithdrawal.add pending (aggregate pending) :=
  Grouping.groups_collect AggregatedWithdrawal.btcDestination
    PendingWithdrawal.btcDestination AggregatedWithdrawal.fresh AggregatedWithdrawal.add
    (fun _ => rfl) (fun _ _ => rfl) pending

/-- The aggregates are the folds of the requests to their destinations. -/
theorem eq_of_mem_aggregate {pending : List PendingWithdrawal}
    {aggregated : AggregatedWithdrawal} (member : aggregated ∈ aggregate pending) :
    let requests := requestsTo pending aggregated.btcDestination
    requests ≠ [] ∧
    aggregated.valueSats =
      (requests.map PendingWithdrawal.valueSats).foldl saturatingAdd 0 ∧
    aggregated.mainFeeSats =
      (requests.map PendingWithdrawal.mainFeeSats).foldl saturatingAdd 0 ∧
    aggregated.requestIndices = requests.map PendingWithdrawal.index := by
  intro requests
  have groups := aggregate_groups pending
  have folded := groups.fold aggregated member
  change aggregated = requests.foldl _ _ at folded
  rw [foldl_add] at folded
  refine ⟨?_, ?_, ?_, ?_⟩
  · have key := (groups.mem_key aggregated.btcDestination).mp (List.mem_map_of_mem member)
    rcases key with ⟨request, inPending, sameKey⟩
    apply List.ne_nil_of_mem (a := request)
    simp [requests, requestsTo, inPending, sameKey]
  · rw [folded]
    rfl
  · rw [folded]
    rfl
  · rw [folded]
    simp [requests, AggregatedWithdrawal.fresh]

/-- The satoshis an M6 transaction takes out of the mainchain treasury: its
payouts and the fee encoded in its first output. -/
def m6Sats (tx : Transaction) : Nat :=
  ((tx.output.drop 2).map fun output => output.value.toNat).sum +
    ((tx.output.head?.map fun output => ofBeBytes (output.scriptPubkey.drop 2)).getD 0)

theorem m6Sats_buildWithdrawalBundle (hashes : Hashes) (blockHeight : UInt32)
    (totalMainFeeSats : UInt64) (requestIndices : List UInt64)
    (bundleOutputs : List TxOut) :
    m6Sats (buildWithdrawalBundle hashes blockHeight totalMainFeeSats requestIndices
      bundleOutputs).tx =
      (bundleOutputs.map fun output => output.value.toNat).sum +
        totalMainFeeSats.toNat := by
  have bound := totalMainFeeSats.toNat_lt
  have feeRead := ofBeBytes_toBeBytes 8 totalMainFeeSats.toNat (by omega)
  simp [m6Sats, buildWithdrawalBundle, mainchainFeeTxout, opReturnScript, feeRead]

/-- A bundle consumes some of the pending requests, each at most once, and pays
exactly what they total as long as that total fits 64 bits. -/
structure Consumes (hashes : Hashes) (blockHeight : UInt32)
    (pending covered : List PendingWithdrawal) (bundle : WithdrawalBundle) : Prop where
  subperm : covered.Subperm pending
  nonempty : covered ≠ []
  indices : bundle.requestIndices.Perm (covered.map PendingWithdrawal.index)
  commitment : bundle.tx.output[1]? =
    some (requestsCommitmentTxout
      (requestsCommitment hashes bundle.requestIndices blockHeight))
  sats : (pending.map PendingWithdrawal.totalSats).sum < 2 ^ 64 →
    m6Sats bundle.tx = (covered.map PendingWithdrawal.totalSats).sum

theorem sum_map_le_of_subperm {covered pending : List PendingWithdrawal}
    (subperm : covered.Subperm pending) (amount : PendingWithdrawal → Nat) :
    (covered.map amount).sum ≤ (pending.map amount).sum := by
  rcases subperm with ⟨permuted, perm, sublist⟩
  rw [← (perm.map amount).sum_eq]
  exact (sublist.map amount).sum_le_sum fun _ _ => Nat.zero_le _

theorem sum_map_totalSats (requests : List PendingWithdrawal) :
    (requests.map PendingWithdrawal.totalSats).sum =
      (requests.map fun request => request.valueSats.toNat).sum +
        (requests.map fun request => request.mainFeeSats.toNat).sum :=
  List.sum_map_add

/-- Aggregated amounts of chosen groups, when nothing saturates. -/
theorem sum_aggregated_toNat {pending : List PendingWithdrawal}
    (chosen : List AggregatedWithdrawal) (total : AggregatedWithdrawal → UInt64)
    (amount : PendingWithdrawal → UInt64)
    (folded : ∀ aggregated ∈ chosen, total aggregated =
      ((requestsTo pending aggregated.btcDestination).map amount).foldl saturatingAdd 0)
    (fits : ((chosen.flatMap fun aggregated =>
      requestsTo pending aggregated.btcDestination).map
        fun request => (amount request).toNat).sum < 2 ^ 64) :
    (chosen.map fun aggregated => (total aggregated).toNat).sum =
      ((chosen.flatMap fun aggregated =>
        requestsTo pending aggregated.btcDestination).map
          fun request => (amount request).toNat).sum := by
  induction chosen with
  | nil => simp
  | cons aggregated rest induction =>
      simp only [List.flatMap_cons, List.map_append, List.sum_append] at fits ⊢
      have headSum := toNat_foldl_saturatingAdd_of_fits
        ((requestsTo pending aggregated.btcDestination).map amount)
        (by simp only [List.map_map, Function.comp_def]; omega)
      simp only [List.map_map, Function.comp_def] at headSum
      simp only [List.map_cons, List.sum_cons]
      rw [folded aggregated (by simp), headSum,
        induction (fun other member => folded other (by simp [member])) (by omega)]

theorem selectWithdrawalBundle_consumes {hashes : Hashes} {order : HashMapOrder}
    {pending : List PendingWithdrawal} {blockHeight : UInt32}
    {bundle : WithdrawalBundle}
    (selected : selectWithdrawalBundle hashes order pending blockHeight = some bundle) :
    ∃ covered, Consumes hashes blockHeight pending covered bundle := by
  unfold selectWithdrawalBundle at selected
  split at selected
  · cases selected
  · dsimp only at selected
    split at selected
    · cases selected
    · rename_i nonempty
      generalize sortedEq : (order.intoValues (aggregate pending)).insertionSort
        AggregatedWithdrawal.Precedes = sorted at selected nonempty
      rcases selectLoop_pays sorted .initial with ⟨chosen, sublist, pays⟩
      have sortedPerm : sorted.Perm (aggregate pending) := by
        rw [← sortedEq]
        exact (List.perm_insertionSort _ _).trans (order.perm _)
      have chosenMem : ∀ aggregated ∈ chosen, aggregated ∈ aggregate pending :=
        fun aggregated member => sortedPerm.subset (sublist.subset member)
      have outputsEq : (selectLoop sorted .initial).bundleOutputs =
          chosen.map AggregatedWithdrawal.payout := by
        simpa [Selection.initial] using pays.bundleOutputs
      have chosenNonempty : chosen ≠ [] := by
        intro empty
        rw [outputsEq, empty] at nonempty
        simp at nonempty
      let covered := chosen.flatMap fun aggregated =>
        requestsTo pending aggregated.btcDestination
      have subperm : covered.Subperm pending := by
        have whole : (sorted.flatMap fun aggregated =>
            requestsTo pending aggregated.btcDestination).Perm pending :=
          (sortedPerm.flatMap_right _).trans (aggregate_groups pending).flatMap_filter_perm
        exact (sublist.flatMap _).subperm.trans whole.subperm
      have indicesEq : (selectLoop sorted .initial).requestIndices =
          covered.map PendingWithdrawal.index := by
        rw [pays.requestIndices]
        simp only [Selection.initial, List.nil_append, covered, List.map_flatMap]
        apply List.flatMap_congr
        intro aggregated member
        exact (eq_of_mem_aggregate (chosenMem aggregated member)).2.2.2
      refine ⟨covered, subperm, ?_, ?_, ?_, ?_⟩
      · intro empty
        rcases List.exists_mem_of_ne_nil _ chosenNonempty with ⟨aggregated, member⟩
        have requestsNonempty := (eq_of_mem_aggregate (chosenMem aggregated member)).1
        exact requestsNonempty (List.flatMap_eq_nil_iff.mp empty aggregated member)
      · cases selected
        exact (List.perm_insertionSort _ _).trans (by rw [indicesEq])
      · cases selected
        rfl
      · intro fits
        have coveredFits := (sum_map_le_of_subperm subperm
          PendingWithdrawal.totalSats).trans_lt fits
        rw [sum_map_totalSats] at coveredFits
        have values := sum_aggregated_toNat chosen AggregatedWithdrawal.valueSats
          PendingWithdrawal.valueSats
          (fun aggregated member => (eq_of_mem_aggregate (chosenMem aggregated member)).2.1)
          (by change (covered.map _).sum < _; omega)
        have fees := sum_aggregated_toNat chosen AggregatedWithdrawal.mainFeeSats
          PendingWithdrawal.mainFeeSats
          (fun aggregated member =>
            (eq_of_mem_aggregate (chosenMem aggregated member)).2.2.1)
          (by change (covered.map _).sum < _; omega)
        have feeTotal : (selectLoop sorted .initial).totalMainFeeSats.toNat =
            (chosen.map fun aggregated => aggregated.mainFeeSats.toNat).sum := by
          rw [pays.totalMainFeeSats]
          have unsaturated := toNat_foldl_saturatingAdd_of_fits
            (chosen.map AggregatedWithdrawal.mainFeeSats) (by
              simp only [List.map_map, Function.comp_def]
              rw [fees]
              change (covered.map _).sum < _
              omega)
          simpa [Selection.initial, Function.comp_def] using unsaturated
        cases selected
        rw [m6Sats_buildWithdrawalBundle, outputsEq, feeTotal, fees, sum_map_totalSats,
          List.map_map]
        exact congrArg (· + _) values

end Beth
