import Beth.Properties.BundleContent

/-! # A bundle is the longest prefix of standard weight

The destinations are listed in descending order of total fee, total value and
bytes. A bundle pays the longest prefix of this list whose M6 transaction has
standard weight, and the weight the node predicts is the exact one. -/

namespace Beth

open Foundation

/-! ## The order of the destinations -/

def totalFeeTo (pending : List PendingWithdrawal) (btcDestination : Bytes) : Nat :=
  ((requestsTo pending btcDestination).map fun request => request.mainFeeSats.toNat).sum

def totalValueTo (pending : List PendingWithdrawal) (btcDestination : Bytes) : Nat :=
  ((requestsTo pending btcDestination).map fun request => request.valueSats.toNat).sum

/-- The greatest total the node computes with. -/
def capped (total : Nat) : Nat := min total (2 ^ 64 - 1)

/-- Strictly descending by fee, then value, then bytes. -/
def Outranks (feeOf valueOf : Bytes → Nat) (left right : Bytes) : Prop :=
  feeOf right < feeOf left ∨
    (feeOf right = feeOf left ∧
      (valueOf right < valueOf left ∨ (valueOf right = valueOf left ∧ right < left)))

instance (feeOf valueOf : Bytes → Nat) : DecidableRel (Outranks feeOf valueOf) :=
  fun left right => by
    unfold Outranks
    infer_instance

/-- The destinations of the pending requests, in descending order. -/
structure IsRanking (feeOf valueOf : Bytes → Nat) (pending : List PendingWithdrawal)
    (destinations : List Bytes) : Prop where
  mem_iff : ∀ btcDestination, btcDestination ∈ destinations ↔
    ∃ request ∈ pending, request.btcDestination = btcDestination
  descending : destinations.Pairwise (Outranks feeOf valueOf)

section Ranking

variable (pending : List PendingWithdrawal)

theorem toNat_feeTo (btcDestination : Bytes) :
    (feeTo pending btcDestination).toNat = capped (totalFeeTo pending btcDestination) := by
  rw [feeTo, toNat_foldl_saturatingAdd, List.map_map, capped, totalFeeTo]
  simp [Function.comp_def]

theorem toNat_valueTo (btcDestination : Bytes) :
    (valueTo pending btcDestination).toNat =
      capped (totalValueTo pending btcDestination) := by
  rw [valueTo, toNat_foldl_saturatingAdd, List.map_map, capped, totalValueTo]
  simp [Function.comp_def]

/-- The comparison of the node is the descending order of the capped totals. -/
theorem outranks_iff (left right : Bytes) :
    Outranks (fun btcDestination => capped (totalFeeTo pending btcDestination))
        (fun btcDestination => capped (totalValueTo pending btcDestination)) left right ↔
      RanksBefore pending left right ∧ ¬ RanksBefore pending right left := by
  have total := List.le_total left right
  have strict : left < right ↔ ¬ right ≤ left := List.not_le.symm
  have strict' : right < left ↔ ¬ left ≤ right := List.not_le.symm
  unfold Outranks RanksBefore AggregatedWithdrawal.Precedes
  simp only [totalTo, UInt64.lt_iff_toNat_lt, ← UInt64.toNat_inj, toNat_feeTo, toNat_valueTo]
  grind

theorem IsRanking.eq_rankedDestinations {destinations : List Bytes}
    (ranking : IsRanking (fun btcDestination => capped (totalFeeTo pending btcDestination))
      (fun btcDestination => capped (totalValueTo pending btcDestination)) pending
      destinations) : destinations = rankedDestinations pending := by
  have ranked : Ranked (RanksBefore pending) destinations :=
    ranking.descending.imp fun {left right} outranks =>
      (outranks_iff pending left right).mp outranks
  apply ranked.eq_of_perm (ranked_rankedDestinations pending)
  rw [List.perm_ext_iff_of_nodup ranked.nodup (ranked_rankedDestinations pending).nodup]
  intro btcDestination
  rw [ranking.mem_iff, mem_rankedDestinations]

end Ranking

/-! ## The weight of a bundle -/

/-- The transaction with one more output. -/
def Transaction.withOutput (tx : Transaction) (txOut : TxOut) : Transaction :=
  { tx with output := tx.output ++ [txOut] }

/-- Attached inputs have an empty script, as the prediction assumes. -/
structure PaysLongestPrefix (destinations : List Bytes) (bundle : WithdrawalBundle) :
    Prop where
  isPrefix : bundle.payouts.map TxOut.scriptPubkey <+: destinations
  predicted : ∃ nOutputs sumTxoutSizes weight,
    nOutputs.toNat = bundle.payouts.length ∧
    sumTxoutSizes.toNat = (bundle.payouts.map fun payout => payout.serialize.length).sum ∧
    predictWeight nOutputs sumTxoutSizes = some weight ∧
    ∀ txIn : TxIn, txIn.scriptSig = [] →
      (bundle.tx.withInput txIn).weight = weight.toNat
  standard : ∀ txIn : TxIn, txIn.scriptSig = [] →
    (bundle.tx.withInput txIn).weight ≤ maxStandardWeight.toNat
  maximal : ∀ next : TxOut,
    bundle.payouts.map TxOut.scriptPubkey ++ [next.scriptPubkey] <+: destinations →
    ∀ txIn : TxIn, txIn.scriptSig = [] →
      maxStandardWeight.toNat < ((bundle.tx.withOutput next).withInput txIn).weight

/-- Whenever a size or a weight is computed it is the exact one, and so is the
sum the loop ends with. -/
structure ComputesExactly (order : HashMapOrder) (pending : List PendingWithdrawal)
    (bundle : WithdrawalBundle) : Prop where
  txout : ∀ spkSize size : UInt32, txoutSize spkSize = some size →
    ∀ txOut : TxOut, txOut.scriptPubkey.length = spkSize.toNat →
      size.toNat = txOut.serialize.length
  weight : ∀ (nOutputs sumTxoutSizes : UInt32) (weight : UInt64),
    predictWeight nOutputs sumTxoutSizes = some weight →
      weight.toNat = 4 * (4 + (1 + 41) + ((compactSize (nOutputs.toNat + 2)).length + 19 +
        43 + sumTxoutSizes.toNat) + 4)
  running : (selectLoop ((order.intoValues (aggregate pending)).insertionSort
      AggregatedWithdrawal.Precedes) .initial).bundleTxoutsSize.toNat =
    (bundle.payouts.map fun payout => payout.serialize.length).sum

theorem sized_of_short {btcDestination : Bytes} (short : btcDestination.length ≤ 2 ^ 31) :
    Sized btcDestination := by
  have prefixSize := varIntSize_le btcDestination.length
  unfold Sized payoutSize
  omega

section Bundle

variable {hashes : Hashes} {pending : List PendingWithdrawal} {blockHeight : UInt32}
  {paid : List Bytes}

theorem sum_serialize_bundlePaying :
    ((bundlePaying pending hashes blockHeight paid).payouts.map fun payout =>
      payout.serialize.length).sum = payoutSizes paid := by
  rw [payouts_bundlePaying, List.map_map]
  congr 1
  apply List.map_congr_left
  intro btcDestination _
  exact TxOut.length_serialize _

theorem weight_bundlePaying {txIn : TxIn} (emptyScript : txIn.scriptSig = []) :
    ((bundlePaying pending hashes blockHeight paid).tx.withInput txIn).weight =
      m6Weight paid.length (payoutSizes paid) := by
  rw [bundlePaying, weight_buildWithdrawalBundle _ _ _ _ _ emptyScript]
  simp [selectionOf, payoutSizes, Function.comp_def, AggregatedWithdrawal.payout]

/-- One more output changes the weight as one more payee would. -/
theorem weight_withOutput {next : TxOut} {txIn : TxIn} (emptyScript : txIn.scriptSig = []) :
    (((bundlePaying pending hashes blockHeight paid).tx.withOutput next).withInput
      txIn).weight =
        m6Weight (paid ++ [next.scriptPubkey]).length
          (payoutSizes (paid ++ [next.scriptPubkey])) := by
  have extended := weight_buildWithdrawalBundle hashes blockHeight
    (selectionOf pending paid).totalMainFeeSats
    ((selectionOf pending paid).requestIndices.insertionSort (· ≤ ·))
    ((selectionOf pending paid).bundleOutputs ++ [next]) emptyScript
  apply extended.trans
  simp [selectionOf, payoutSizes, Function.comp_def, AggregatedWithdrawal.payout]

end Bundle

/-- A bundle pays the longest prefix of standard weight of the destinations in
descending order of their capped totals, and nothing is predicted wrongly. -/
theorem bundle_is_longest_prefix (hashes : Hashes) (order : HashMapOrder)
    (pending : List PendingWithdrawal) (blockHeight : UInt32) (bundle : WithdrawalBundle)
    (destinations : List Bytes)
    (short : ∀ request ∈ pending, request.btcDestination.length ≤ 2 ^ 31)
    (ranking : IsRanking (fun btcDestination => capped (totalFeeTo pending btcDestination))
      (fun btcDestination => capped (totalValueTo pending btcDestination)) pending
      destinations)
    (selected : selectWithdrawalBundle hashes order pending blockHeight = some bundle) :
    PaysLongestPrefix destinations bundle ∧ ComputesExactly order pending bundle := by
  have bundleEq := ((selectWithdrawalBundle_eq_some_iff pending).mp selected).2
  have longest := longestFitting_payees pending
  have allSized : sizedDestinations pending = destinations := by
    rw [ranking.eq_rankedDestinations, sizedDestinations, List.filter_eq_self]
    intro btcDestination member
    rcases (mem_rankedDestinations pending btcDestination).mp member with
      ⟨request, inPending, toIt⟩
    simpa using sized_of_short (toIt ▸ short request inPending)
  have running : selectLoop ((order.intoValues (aggregate pending)).insertionSort
      AggregatedWithdrawal.Precedes) .initial = selectionOf pending (payees pending) := by
    rw [sorted_aggregate]
    exact selectLoop_eq pending fitsStandard_nil (rankedDestinations pending)
  rw [allSized] at longest
  generalize payees pending = paid at bundleEq longest running
  subst bundleEq
  have small := longest.fits.small
  have sizesNat : (UInt32.ofNat (payoutSizes paid)).toNat = payoutSizes paid := by
    rw [UInt32.toNat_ofNat', Nat.mod_eq_of_lt (by omega)]
  have countNat : (UInt32.ofNat paid.length).toNat = paid.length := by
    rw [UInt32.toNat_ofNat', Nat.mod_eq_of_lt (by omega)]
  have weightNat : (UInt64.ofNat (m6Weight paid.length (payoutSizes paid))).toNat =
      m6Weight paid.length (payoutSizes paid) := by
    rw [UInt64.toNat_ofNat', Nat.mod_eq_of_lt (longest.fits.trans_lt (by decide))]
  constructor
  · constructor
    · rw [scripts_bundlePaying]
      exact longest.isPrefix
    · refine ⟨UInt32.ofNat paid.length, UInt32.ofNat (payoutSizes paid),
        UInt64.ofNat (m6Weight paid.length (payoutSizes paid)), ?_, ?_, ?_, ?_⟩
      · rw [countNat, payouts_bundlePaying, List.length_map]
      · rw [sizesNat, sum_serialize_bundlePaying]
      · rw [predictWeight_eq_some_iff, countNat, sizesNat]
        refine ⟨by omega, weightNat, ?_⟩
        rw [UInt64.le_iff_toNat_le, weightNat]
        exact longest.fits
      · intro txIn emptyScript
        rw [weight_bundlePaying emptyScript, weightNat]
    · intro txIn emptyScript
      rw [weight_bundlePaying emptyScript]
      exact longest.fits
    · intro next longer txIn emptyScript
      rw [scripts_bundlePaying] at longer
      rw [weight_withOutput emptyScript]
      exact Nat.lt_of_not_le (longest.maximal next.scriptPubkey longer)
  · constructor
    · intro spkSize size computed txOut lengthEq
      rw [txOut.length_serialize, lengthEq]
      exact (txoutSize_eq_some_iff spkSize size).mp computed
    · intro nOutputs sumTxoutSizes weight computed
      rw [((predictWeight_eq_some_iff _ _ _).mp computed).2.1, length_compactSize]
      change 4 * (112 + _ + _) = _
      omega
    · rw [running, sum_serialize_bundlePaying]
      exact sizesNat

/-- The requests to the first destination total more fee than 64 bits hold, and
so do those to the second one. -/
def saturatingRequests : List PendingWithdrawal :=
  [{ index := 0, valueSats := 2, mainFeeSats := 2 ^ 64 - 3, btcDestination := [0xAA] },
    { index := 1, valueSats := 1, mainFeeSats := 5, btcDestination := [0xAA] },
    { index := 2, valueSats := 1, mainFeeSats := 2 ^ 64 - 2, btcDestination := [0xBB] },
    { index := 3, valueSats := 1, mainFeeSats := 9, btcDestination := [0xBB] }]

theorem bundle_is_longest_prefix_saturating :
    ∃ bundle, selectWithdrawalBundle .unused .insertion saturatingRequests 1 = some bundle ∧
      PaysLongestPrefix [[0xAA], [0xBB]] bundle ∧
      ComputesExactly .insertion saturatingRequests bundle := by
  have found : (selectWithdrawalBundle .unused .insertion saturatingRequests 1).isSome := by
    decide +kernel
  rcases Option.isSome_iff_exists.mp found with ⟨bundle, selected⟩
  refine ⟨bundle, selected, bundle_is_longest_prefix .unused .insertion saturatingRequests 1
    bundle [[0xAA], [0xBB]] ?_ ?_ selected⟩
  · simp [saturatingRequests]
  · constructor
    · intro btcDestination
      simp [saturatingRequests, eq_comm]
    · decide +kernel

/-- By the exact totals the second destination comes first, but the payouts
follow the capped totals. -/
theorem exact_totals_misorder :
    IsRanking (totalFeeTo saturatingRequests) (totalValueTo saturatingRequests)
        saturatingRequests [[0xBB], [0xAA]] ∧
      ∃ bundle,
        selectWithdrawalBundle .unused .insertion saturatingRequests 1 = some bundle ∧
        ¬ bundle.payouts.map TxOut.scriptPubkey <+: [[0xBB], [0xAA]] := by
  constructor
  · constructor
    · intro btcDestination
      simp only [saturatingRequests, List.mem_cons, List.not_mem_nil]
      grind
    · decide +kernel
  · have found : ((selectWithdrawalBundle .unused .insertion saturatingRequests 1).map
        fun bundle => bundle.payouts.map TxOut.scriptPubkey) =
          some [[0xAA], [0xBB]] := by
      decide +kernel
    rcases Option.map_eq_some_iff.mp found with ⟨bundle, selected, payouts⟩
    refine ⟨bundle, selected, ?_⟩
    rw [payouts]
    decide

end Beth
