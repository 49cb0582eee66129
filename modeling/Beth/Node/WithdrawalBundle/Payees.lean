import Beth.Foundation.GreedyPrefix
import Beth.Node.WithdrawalBundle.Selection
import Beth.Node.WithdrawalBundle.Serialization

/-! # Which destinations a bundle pays

Neither the hash map nor the order in which requests are listed matters: the
bundle is determined by the totals of each destination. The destinations are
ranked by these totals, and the bundle pays the longest prefix of the ranking
whose M6 transaction is within the standard weight. -/

namespace Beth

open Foundation

/-! ## Totals and ranking -/

namespace AggregatedWithdrawal

theorem precedes_refl (aggregated : AggregatedWithdrawal) : aggregated.Precedes aggregated :=
  .inr ⟨rfl, .inr ⟨rfl, List.le_refl _⟩⟩

theorem eq_of_precedes {left right : AggregatedWithdrawal} (forward : left.Precedes right)
    (backward : right.Precedes left) : left.btcDestination = right.btcDestination := by
  unfold Precedes at forward backward
  simp only [UInt64.lt_iff_toNat_lt, ← UInt64.toNat_inj] at forward backward
  apply List.le_antisymm
  · rcases backward with fee | ⟨_, value | ⟨_, bytes⟩⟩
    · omega
    · omega
    · exact bytes
  · rcases forward with fee | ⟨_, value | ⟨_, bytes⟩⟩
    · omega
    · omega
    · exact bytes

instance : Std.Total Precedes where
  total := by
    intro left right
    unfold Precedes
    simp only [UInt64.lt_iff_toNat_lt, ← UInt64.toNat_inj]
    have bytes := List.le_total left.btcDestination right.btcDestination
    grind

instance : IsTrans AggregatedWithdrawal Precedes where
  trans := by
    intro first second third earlier later
    unfold Precedes at *
    simp only [UInt64.lt_iff_toNat_lt, ← UInt64.toNat_inj] at *
    have bytes : third.btcDestination ≤ second.btcDestination →
        second.btcDestination ≤ first.btcDestination →
        third.btcDestination ≤ first.btcDestination := List.le_trans
    grind

end AggregatedWithdrawal

section Totals

variable (pending : List PendingWithdrawal)

def valueTo (btcDestination : Bytes) : UInt64 :=
  ((requestsTo pending btcDestination).map PendingWithdrawal.valueSats).foldl saturatingAdd 0

def feeTo (btcDestination : Bytes) : UInt64 :=
  ((requestsTo pending btcDestination).map PendingWithdrawal.mainFeeSats).foldl
    saturatingAdd 0

/-- What the requests to a destination aggregate to. -/
def totalTo (btcDestination : Bytes) : AggregatedWithdrawal where
  btcDestination := btcDestination
  valueSats := valueTo pending btcDestination
  mainFeeSats := feeTo pending btcDestination
  requestIndices := (requestsTo pending btcDestination).map PendingWithdrawal.index

@[simp] theorem totalTo_btcDestination (btcDestination : Bytes) :
    (totalTo pending btcDestination).btcDestination = btcDestination := rfl

/-- Descending order of total fee, total value and destination bytes. -/
def RanksBefore (left right : Bytes) : Prop :=
  (totalTo pending left).Precedes (totalTo pending right)

instance : DecidableRel (RanksBefore pending) := fun left right =>
  inferInstanceAs (Decidable ((totalTo pending left).Precedes (totalTo pending right)))

instance : Std.Total (RanksBefore pending) where
  total := fun left right =>
    Std.Total.total (totalTo pending left) (totalTo pending right)

instance : IsTrans Bytes (RanksBefore pending) where
  trans := fun left middle right =>
    IsTrans.trans (totalTo pending left) (totalTo pending middle) (totalTo pending right)

def rankedDestinations : List Bytes :=
  (pending.map PendingWithdrawal.btcDestination).dedup.insertionSort (RanksBefore pending)

theorem mem_rankedDestinations (btcDestination : Bytes) :
    btcDestination ∈ rankedDestinations pending ↔
      ∃ request ∈ pending, request.btcDestination = btcDestination := by
  rw [rankedDestinations, List.mem_insertionSort, List.mem_dedup, List.mem_map]

theorem ranked_of_nodup {destinations : List Bytes} (nodup : destinations.Nodup) :
    Ranked (RanksBefore pending) (destinations.insertionSort (RanksBefore pending)) := by
  apply ranked_insertionSort nodup
  intro left _ right _ forward backward
  exact AggregatedWithdrawal.eq_of_precedes forward backward

theorem ranked_rankedDestinations :
    Ranked (RanksBefore pending) (rankedDestinations pending) :=
  ranked_of_nodup pending (List.nodup_dedup _)

/-- Whatever order the hash map yields, the sorted aggregates are the totals of
the ranked destinations. -/
theorem sorted_aggregate (order : HashMapOrder) :
    (order.intoValues (aggregate pending)).insertionSort AggregatedWithdrawal.Precedes =
      (rankedDestinations pending).map (totalTo pending) := by
  have groups := aggregate_groups pending
  have perm := order.perm (aggregate pending)
  let destinations := (order.intoValues (aggregate pending)).map
    AggregatedWithdrawal.btcDestination
  have valuesEq : order.intoValues (aggregate pending) =
      destinations.map (totalTo pending) := by
    rw [List.map_map]
    conv_lhs => rw [← List.map_id (order.intoValues (aggregate pending))]
    apply List.map_congr_left
    intro aggregated member
    rcases eq_of_mem_aggregate (perm.mem_iff.mp member) with ⟨_, value, fee, indices⟩
    cases aggregated
    simp only [id, Function.comp_apply, totalTo, valueTo, feeTo]
    simp only at value fee indices
    rw [← value, ← fee, ← indices]
  have nodup : destinations.Nodup := (perm.map _).nodup_iff.mpr groups.nodup
  have sameRanking : destinations.insertionSort (RanksBefore pending) =
      rankedDestinations pending := by
    apply (ranked_of_nodup pending nodup).eq_of_perm (ranked_rankedDestinations pending)
    apply (List.perm_insertionSort _ _).trans
    apply List.Perm.trans _ (List.perm_insertionSort _ _).symm
    rw [List.perm_ext_iff_of_nodup nodup (List.nodup_dedup _)]
    intro btcDestination
    rw [List.mem_dedup, (perm.map _).mem_iff, groups.mem_key, List.mem_map]
  rw [valuesEq, ← sameRanking]
  apply Eq.symm
  apply List.map_insertionSort
  intro left _ right _
  rfl

end Totals

/-! ## One step of the greedy loop -/

/-- The size of an output to the destination can be computed in 32 bits. -/
def Sized (btcDestination : Bytes) : Prop := payoutSize btcDestination.length < 2 ^ 32

instance : DecidablePred Sized := fun btcDestination => by
  unfold Sized
  infer_instance

theorem selectLoop_of_unsized (destination : AggregatedWithdrawal)
    (unsized : ¬ Sized destination.btcDestination) (rest : List AggregatedWithdrawal)
    (selection : Selection) :
    selectLoop (destination :: rest) selection = selectLoop rest selection := by
  rw [selectLoop]
  cases spkEq : tryFromU32 destination.btcDestination.length with
  | none => rfl
  | some spkSize =>
      dsimp only
      cases sizeEq : txoutSize spkSize with
      | none => rfl
      | some thisTxoutSize =>
          have spkNat := (tryFromU32_eq_some_iff _ _).mp spkEq
          have sizeNat := (txoutSize_eq_some_iff _ _).mp sizeEq
          rw [spkNat] at sizeNat
          have bound := thisTxoutSize.toNat_lt
          rw [sizeNat] at bound
          exact absurd bound unsized

/-- A destination whose size is known is paid iff the weight stays standard. -/
theorem selectLoop_of_sized (destination : AggregatedWithdrawal)
    (sized : Sized destination.btcDestination) (rest : List AggregatedWithdrawal)
    (selection : Selection) (countable : selection.bundleOutputs.length + 3 < 2 ^ 32) :
    selectLoop (destination :: rest) selection =
      if m6Weight (selection.bundleOutputs.length + 1)
          (selection.bundleTxoutsSize.toNat +
            payoutSize destination.btcDestination.length) ≤ maxStandardWeight.toNat then
        selectLoop rest (selection.push destination
          (selection.bundleTxoutsSize +
            UInt32.ofNat (payoutSize destination.btcDestination.length)))
      else selection := by
  have lengthLe : destination.btcDestination.length ≤
      payoutSize destination.btcDestination.length := by
    unfold payoutSize
    omega
  have spkEq := (tryFromU32_eq_some_iff destination.btcDestination.length
    (UInt32.ofNat destination.btcDestination.length)).mpr
      (by rw [UInt32.toNat_ofNat', Nat.mod_eq_of_lt (lengthLe.trans_lt sized)])
  have spkNat := (tryFromU32_eq_some_iff _ _).mp spkEq
  generalize UInt32.ofNat destination.btcDestination.length = spkSize at spkEq spkNat
  generalize thisSizeEq : UInt32.ofNat (payoutSize destination.btcDestination.length) =
    thisTxoutSize
  have thisNat : thisTxoutSize.toNat = payoutSize destination.btcDestination.length := by
    rw [← thisSizeEq, UInt32.toNat_ofNat', Nat.mod_eq_of_lt sized]
  have sizeEq := (txoutSize_eq_some_iff spkSize thisTxoutSize).mpr (by rw [thisNat, spkNat])
  have countEq := (tryFromU32_eq_some_iff (selection.bundleOutputs.length + 1)
    (UInt32.ofNat (selection.bundleOutputs.length + 1))).mpr
      (by rw [UInt32.toNat_ofNat', Nat.mod_eq_of_lt (by omega)])
  have countNat := (tryFromU32_eq_some_iff _ _).mp countEq
  generalize UInt32.ofNat (selection.bundleOutputs.length + 1) = nOutputs at countEq countNat
  rw [selectLoop]
  simp only [spkEq, sizeEq, countEq]
  rw [← thisNat, ← countNat]
  cases sumEq : checkedAddU32 selection.bundleTxoutsSize thisTxoutSize with
  | none =>
      have overflows := (checkedAddU32_eq_none_iff _ _).mp sumEq
      dsimp only
      rw [if_neg]
      change ¬ 4 * (112 + _ + _) ≤ 400000
      omega
  | some sumTxoutSizes =>
      have sumNat := (checkedAddU32_eq_some_iff _ _ _).mp sumEq
      have sumIs : selection.bundleTxoutsSize + thisTxoutSize = sumTxoutSizes := by
        apply UInt32.toNat_inj.mp
        have bound := sumTxoutSizes.toNat_lt
        rw [UInt32.toNat_add, Nat.mod_eq_of_lt (by omega), sumNat]
      rw [← sumNat, sumIs]
      dsimp only
      cases weightEq : predictWeight nOutputs sumTxoutSizes with
      | none =>
          have heavy := (predictWeight_eq_none_iff _ _ (by omega)).mp weightEq
          dsimp only
          rw [if_neg (by omega)]
      | some weight =>
          have predicted := (predictWeight_eq_some_iff _ _ _).mp weightEq
          dsimp only
          rw [if_pos]
          rw [← predicted.2.1]
          exact UInt64.le_iff_toNat_le.mp predicted.2.2

/-! ## The payees of a bundle -/

/-- The total size of outputs to the destinations. -/
def payoutSizes (destinations : List Bytes) : Nat :=
  (destinations.map fun btcDestination => payoutSize btcDestination.length).sum

/-- The M6 transaction paying exactly these destinations has standard weight. -/
def FitsStandard (destinations : List Bytes) : Prop :=
  m6Weight destinations.length (payoutSizes destinations) ≤ maxStandardWeight.toNat

instance : DecidablePred FitsStandard := fun destinations => by
  unfold FitsStandard
  infer_instance

theorem fitsStandard_nil : FitsStandard [] := by
  decide

theorem fitsStandard_of_sublist {fewer more : List Bytes} (sublist : fewer.Sublist more)
    (fits : FitsStandard more) : FitsStandard fewer := by
  have sizes : payoutSizes fewer ≤ payoutSizes more :=
    (sublist.map _).sum_le_sum fun _ _ => Nat.zero_le _
  exact (m6Weight_mono sublist.length_le sizes).trans fits

/-- What fits is small, so that no counter of the loop overflows. -/
theorem FitsStandard.small {destinations : List Bytes} (fits : FitsStandard destinations) :
    destinations.length < 2 ^ 17 ∧ payoutSizes destinations < 2 ^ 17 := by
  have outputSize : ∀ btcDestination : Bytes, 1 ≤ payoutSize btcDestination.length := by
    intro btcDestination
    unfold payoutSize
    omega
  have counted : destinations.length ≤ payoutSizes destinations := by
    unfold payoutSizes
    induction destinations with
    | nil => simp
    | cons btcDestination rest induction =>
        have restFits := fitsStandard_of_sublist (List.sublist_cons_self _ _) fits
        have head := outputSize btcDestination
        have tail := induction restFits
        simp only [List.length_cons, List.map_cons, List.sum_cons]
        omega
  change 4 * (112 + _ + _) ≤ 400000 at fits
  omega

section Payees

variable (pending : List PendingWithdrawal)

/-- The destinations the loop does not skip, in ranked order. -/
def sizedDestinations : List Bytes :=
  (rankedDestinations pending).filter Sized

def payees : List Bytes :=
  takeFitting FitsStandard [] (sizedDestinations pending)

/-- The accumulators of the loop after paying the destinations taken. -/
def selectionOf (taken : List Bytes) : Selection where
  requestIndices := taken.flatMap fun btcDestination =>
    (requestsTo pending btcDestination).map PendingWithdrawal.index
  bundleOutputs := taken.map fun btcDestination => (totalTo pending btcDestination).payout
  bundleTxoutsSize := UInt32.ofNat (payoutSizes taken)
  totalMainFeeSats := (taken.map (feeTo pending)).foldl saturatingAdd 0

theorem selectionOf_push (taken : List Bytes) (btcDestination : Bytes) :
    (selectionOf pending taken).push (totalTo pending btcDestination)
        ((selectionOf pending taken).bundleTxoutsSize +
          UInt32.ofNat (payoutSize btcDestination.length)) =
      selectionOf pending (taken ++ [btcDestination]) := by
  simp [Selection.push, selectionOf, totalTo, payoutSizes, UInt32.ofNat_add]

/-- The loop takes destinations as long as the weight stays standard. -/
theorem selectLoop_eq {taken : List Bytes} (fits : FitsStandard taken)
    (destinations : List Bytes) :
    selectLoop (destinations.map (totalTo pending)) (selectionOf pending taken) =
      selectionOf pending (takeFitting FitsStandard taken (destinations.filter Sized)) := by
  induction destinations generalizing taken with
  | nil => rfl
  | cons btcDestination rest induction =>
      rw [List.map_cons]
      by_cases sized : Sized btcDestination
      · have small := fits.small
        have takenSize : (selectionOf pending taken).bundleTxoutsSize.toNat =
            payoutSizes taken := by
          simp only [selectionOf]
          rw [UInt32.toNat_ofNat', Nat.mod_eq_of_lt (by omega)]
        have takenCount : (selectionOf pending taken).bundleOutputs.length =
            taken.length := by
          simp [selectionOf]
        have extendedSize : payoutSizes (taken ++ [btcDestination]) =
            payoutSizes taken + payoutSize btcDestination.length := by
          simp [payoutSizes]
        have extendedFits : FitsStandard (taken ++ [btcDestination]) ↔
            m6Weight (taken.length + 1)
              (payoutSizes taken + payoutSize btcDestination.length) ≤
                maxStandardWeight.toNat := by
          rw [FitsStandard, extendedSize, List.length_append, List.length_singleton]
        rw [List.filter_cons_of_pos (by simpa using sized), takeFitting,
          selectLoop_of_sized (totalTo pending btcDestination) sized _ _
            (by omega), takenSize, takenCount, totalTo_btcDestination, selectionOf_push]
        by_cases extends_ : FitsStandard (taken ++ [btcDestination])
        · rw [if_pos extends_, if_pos (extendedFits.mp extends_)]
          exact induction extends_
        · rw [if_neg extends_, if_neg fun within => extends_ (extendedFits.mpr within)]
      · rw [List.filter_cons_of_neg (by simpa using sized),
          selectLoop_of_unsized (totalTo pending btcDestination) sized]
        exact induction fits

/-- The bundle that pays exactly these destinations. -/
def bundlePaying (hashes : Hashes) (blockHeight : UInt32) (paid : List Bytes) :
    WithdrawalBundle :=
  buildWithdrawalBundle hashes blockHeight (selectionOf pending paid).totalMainFeeSats
    ((selectionOf pending paid).requestIndices.insertionSort (· ≤ ·))
    (selectionOf pending paid).bundleOutputs

/-- The selection pays its payees, or there is none to pay. -/
theorem selectWithdrawalBundle_eq (hashes : Hashes) (order : HashMapOrder)
    (blockHeight : UInt32) :
    selectWithdrawalBundle hashes order pending blockHeight =
      if payees pending = [] then none
      else some (bundlePaying pending hashes blockHeight (payees pending)) := by
  have selected : selectLoop ((order.intoValues (aggregate pending)).insertionSort
      AggregatedWithdrawal.Precedes) .initial = selectionOf pending (payees pending) := by
    rw [sorted_aggregate]
    exact selectLoop_eq pending fitsStandard_nil (rankedDestinations pending)
  unfold selectWithdrawalBundle
  dsimp only
  rw [selected]
  by_cases none : pending = []
  · subst none
    rfl
  · rw [if_neg (by simpa using none)]
    simp [selectionOf, bundlePaying]

theorem selectWithdrawalBundle_eq_some_iff {hashes : Hashes} {order : HashMapOrder}
    {blockHeight : UInt32} {bundle : WithdrawalBundle} :
    selectWithdrawalBundle hashes order pending blockHeight = some bundle ↔
      payees pending ≠ [] ∧
        bundlePaying pending hashes blockHeight (payees pending) = bundle := by
  rw [selectWithdrawalBundle_eq]
  split <;> simp_all

/-! ## Who is paid -/

theorem longestFitting_payees :
    LongestFitting FitsStandard (sizedDestinations pending) (payees pending) :=
  longestFitting_takeFitting fitsStandard_nil _

theorem ranked_sizedDestinations :
    Ranked (RanksBefore pending) (sizedDestinations pending) :=
  (ranked_rankedDestinations pending).filter _

theorem mem_sizedDestinations (btcDestination : Bytes) :
    btcDestination ∈ sizedDestinations pending ↔
      (∃ request ∈ pending, request.btcDestination = btcDestination) ∧
        Sized btcDestination := by
  rw [sizedDestinations, List.mem_filter, mem_rankedDestinations]
  simp

/-- A destination is paid iff it fits together with all that rank before it. -/
theorem mem_payees_iff {btcDestination : Bytes}
    (offered : btcDestination ∈ sizedDestinations pending) :
    btcDestination ∈ payees pending ↔
      FitsStandard ((sizedDestinations pending).filter fun other =>
        RanksBefore pending other btcDestination) :=
  (longestFitting_payees pending).mem_iff (fun _ _ => fitsStandard_of_sublist)
    (fun _ => AggregatedWithdrawal.precedes_refl _) (ranked_sizedDestinations pending) offered

theorem payees_eq_nil_iff :
    payees pending = [] ↔ ∀ head ∈ (sizedDestinations pending).head?, ¬ FitsStandard [head] :=
  (longestFitting_payees pending).eq_nil_iff fun _ _ => fitsStandard_of_sublist

theorem payees_nodup : (payees pending).Nodup :=
  (ranked_sizedDestinations pending).nodup.sublist
    (longestFitting_payees pending).isPrefix.sublist

theorem payees_subset {btcDestination : Bytes} (paid : btcDestination ∈ payees pending) :
    btcDestination ∈ sizedDestinations pending :=
  (longestFitting_payees pending).isPrefix.subset paid

end Payees

/-! ## The order of the requests does not matter -/

theorem saturatingSum_perm {left right : List UInt64} (amounts : left.Perm right) :
    left.foldl saturatingAdd 0 = right.foldl saturatingAdd 0 := by
  apply UInt64.toNat_inj.mp
  rw [toNat_foldl_saturatingAdd, toNat_foldl_saturatingAdd,
    (amounts.map UInt64.toNat).sum_eq]

section Permutation

variable {pending other : List PendingWithdrawal} (perm : pending.Perm other)

include perm

theorem requestsTo_perm (btcDestination : Bytes) :
    (requestsTo pending btcDestination).Perm (requestsTo other btcDestination) :=
  perm.filter _

theorem valueTo_perm : valueTo pending = valueTo other := by
  funext btcDestination
  exact saturatingSum_perm ((requestsTo_perm perm btcDestination).map _)

theorem feeTo_perm : feeTo pending = feeTo other := by
  funext btcDestination
  exact saturatingSum_perm ((requestsTo_perm perm btcDestination).map _)

theorem ranksBefore_perm : RanksBefore pending = RanksBefore other := by
  funext left right
  simp only [RanksBefore, totalTo, AggregatedWithdrawal.Precedes, valueTo_perm perm,
    feeTo_perm perm]

theorem rankedDestinations_perm : rankedDestinations pending = rankedDestinations other := by
  have ranked := ranked_rankedDestinations pending
  rw [ranksBefore_perm perm] at ranked
  apply ranked.eq_of_perm (ranked_rankedDestinations other)
  apply (List.perm_insertionSort _ _).trans
  apply List.Perm.trans _ (List.perm_insertionSort _ _).symm
  exact (perm.map PendingWithdrawal.btcDestination).dedup

theorem payees_perm : payees pending = payees other := by
  rw [payees, sizedDestinations, rankedDestinations_perm perm]
  rfl

theorem bundlePaying_perm (hashes : Hashes) (blockHeight : UInt32) (paid : List Bytes) :
    bundlePaying pending hashes blockHeight paid =
      bundlePaying other hashes blockHeight paid := by
  have sameIndices : (selectionOf pending paid).requestIndices.insertionSort (· ≤ ·) =
      (selectionOf other paid).requestIndices.insertionSort (· ≤ ·) := by
    have indices : (selectionOf pending paid).requestIndices.Perm
        (selectionOf other paid).requestIndices := by
      apply List.Perm.flatMap_left
      intro btcDestination _
      exact (requestsTo_perm perm btcDestination).map _
    apply List.Perm.eq_of_pairwise' (List.pairwise_insertionSort _ _)
      (List.pairwise_insertionSort _ _)
    exact (List.perm_insertionSort _ _).trans
      (indices.trans (List.perm_insertionSort _ _).symm)
  have sameOutputs : (selectionOf pending paid).bundleOutputs =
      (selectionOf other paid).bundleOutputs := by
    simp only [selectionOf, totalTo, AggregatedWithdrawal.payout, valueTo_perm perm]
  have sameFee : (selectionOf pending paid).totalMainFeeSats =
      (selectionOf other paid).totalMainFeeSats := by
    simp only [selectionOf, feeTo_perm perm]
  rw [bundlePaying, bundlePaying, sameIndices, sameOutputs, sameFee]

/-- The selection depends on neither the hash map nor the order of the requests. -/
theorem selectWithdrawalBundle_perm (hashes : Hashes) (order otherOrder : HashMapOrder)
    (blockHeight : UInt32) :
    selectWithdrawalBundle hashes order pending blockHeight =
      selectWithdrawalBundle hashes otherOrder other blockHeight := by
  rw [selectWithdrawalBundle_eq, selectWithdrawalBundle_eq, payees_perm perm,
    bundlePaying_perm perm]

end Permutation

end Beth
