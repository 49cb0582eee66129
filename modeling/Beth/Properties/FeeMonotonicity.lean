import Beth.Properties.BundleContent

/-! # Paying a higher fee never hurts

Whether a destination is paid depends only on the destinations that rank before
it. Raising its totals leaves fewer of them, and less to pay never weighs more. -/

namespace Beth

open Foundation

/-! ## Raised totals -/

theorem foldl_saturatingAdd_mono {fewer more : List UInt64}
    (sums : (fewer.map UInt64.toNat).sum ≤ (more.map UInt64.toNat).sum) :
    fewer.foldl saturatingAdd 0 ≤ more.foldl saturatingAdd 0 := by
  rw [UInt64.le_iff_toNat_le, toNat_foldl_saturatingAdd, toNat_foldl_saturatingAdd]
  omega

/-- The requests of `after` favour one destination at least as much as those of
`before`, and the other destinations exactly as much. -/
structure Favours (favoured : Bytes) (before after : List PendingWithdrawal) : Prop where
  sameDestinations : ∀ btcDestination,
    (∃ request ∈ after, request.btcDestination = btcDestination) ↔
      ∃ request ∈ before, request.btcDestination = btcDestination
  feeRaised : feeTo before favoured ≤ feeTo after favoured
  valueRaised : valueTo before favoured ≤ valueTo after favoured
  others : ∀ btcDestination, btcDestination ≠ favoured →
    requestsTo after btcDestination = requestsTo before btcDestination

section Favours

variable {favoured : Bytes} {before after : List PendingWithdrawal}
  (favours : Favours favoured before after)

include favours

theorem Favours.totalTo_eq {btcDestination : Bytes} (different : btcDestination ≠ favoured) :
    totalTo after btcDestination = totalTo before btcDestination := by
  simp only [totalTo, valueTo, feeTo, favours.others btcDestination different]

theorem Favours.mem_sizedDestinations_iff (btcDestination : Bytes) :
    btcDestination ∈ sizedDestinations after ↔ btcDestination ∈ sizedDestinations before := by
  rw [mem_sizedDestinations, mem_sizedDestinations, favours.sameDestinations]

/-- What still ranks before the favoured destination did so already. -/
theorem Favours.ranksBefore {other : Bytes} (ranks : RanksBefore after other favoured) :
    RanksBefore before other favoured := by
  by_cases same : other = favoured
  · rw [same]
    exact AggregatedWithdrawal.precedes_refl _
  · have fees := UInt64.le_iff_toNat_le.mp favours.feeRaised
    have values := UInt64.le_iff_toNat_le.mp favours.valueRaised
    unfold RanksBefore at ranks ⊢
    rw [favours.totalTo_eq same] at ranks
    unfold AggregatedWithdrawal.Precedes at ranks ⊢
    simp only [totalTo, UInt64.lt_iff_toNat_lt, ← UInt64.toNat_inj] at ranks ⊢
    rcases ranks with moreFee | ⟨sameFee, moreValue | ⟨sameValue, laterBytes⟩⟩
    · omega
    · omega
    · grind

end Favours

theorem fitsStandard_of_subperm {fewer more : List Bytes} (subperm : fewer.Subperm more)
    (fits : FitsStandard more) : FitsStandard fewer := by
  rcases subperm with ⟨permuted, perm, sublist⟩
  have permutedFits := fitsStandard_of_sublist sublist fits
  rw [FitsStandard, payoutSizes] at permutedFits ⊢
  rwa [← perm.length_eq, ← (perm.map _).sum_eq]

/-- A favoured destination stays paid. -/
theorem Favours.mem_payees {favoured : Bytes} {before after : List PendingWithdrawal}
    (favours : Favours favoured before after) (paid : favoured ∈ payees before) :
    favoured ∈ payees after := by
  have offered := payees_subset before paid
  have offeredAfter := (favours.mem_sizedDestinations_iff favoured).mpr offered
  have distinct := (ranked_sizedDestinations after).nodup
  rw [mem_payees_iff before offered] at paid
  rw [mem_payees_iff after offeredAfter]
  apply fitsStandard_of_subperm _ paid
  apply List.subperm_of_subset (distinct.filter _)
  intro other inFront
  rcases List.mem_filter.mp inFront with ⟨otherOffered, ranks⟩
  apply List.mem_filter.mpr
  constructor
  · exact (favours.mem_sizedDestinations_iff other).mp otherOffered
  · simpa using favours.ranksBefore (by simpa using ranks)

/-! ## Requests that pay more -/

section Raising

variable {front back : List PendingWithdrawal} {request : PendingWithdrawal}

theorem requestsTo_append (btcDestination : Bytes) :
    requestsTo (front ++ request :: back) btcDestination =
      requestsTo front btcDestination ++
        ((if request.btcDestination = btcDestination then [request] else []) ++
          requestsTo back btcDestination) := by
  by_cases toIt : request.btcDestination = btcDestination
  · simp [requestsTo, toIt]
  · simp [requestsTo, toIt]

theorem favours_raised {fee : UInt64} (higher : request.mainFeeSats ≤ fee) :
    Favours request.btcDestination (front ++ request :: back)
      (front ++ { request with mainFeeSats := fee } :: back) := by
  constructor
  · intro btcDestination
    simp [or_and_right, exists_or]
  · have higherNat := UInt64.le_iff_toNat_le.mp higher
    apply foldl_saturatingAdd_mono
    simp only [requestsTo_append, List.map_append, List.sum_append, if_true, List.map_cons,
      List.map_nil, List.sum_cons, List.sum_nil]
    omega
  · apply foldl_saturatingAdd_mono
    simp only [requestsTo_append, List.map_append, List.sum_append, if_true, List.map_cons,
      List.map_nil, List.sum_cons, List.sum_nil]
    omega
  · intro btcDestination different
    rw [requestsTo_append, requestsTo_append, if_neg (Ne.symm different),
      if_neg (Ne.symm different)]

theorem favours_further {pending : List PendingWithdrawal} {further : PendingWithdrawal}
    (member : request ∈ pending)
    (sameDestination : further.btcDestination = request.btcDestination) :
    Favours request.btcDestination pending (further :: pending) := by
  have added : requestsTo (further :: pending) request.btcDestination =
      further :: requestsTo pending request.btcDestination := by
    simp [requestsTo, sameDestination]
  constructor
  · intro btcDestination
    simp only [List.mem_cons, exists_eq_or_imp, or_iff_right_iff_imp]
    intro toFurther
    exact ⟨request, member, by rw [← toFurther, sameDestination]⟩
  · apply foldl_saturatingAdd_mono
    simp [added]
  · apply foldl_saturatingAdd_mono
    simp [added]
  · intro btcDestination different
    have skipped : ¬ further.btcDestination = btcDestination := by
      rw [sameDestination]
      exact different.symm
    simp [requestsTo, skipped]

end Raising

/-! ## Inclusion in a bundle -/

/-- The bundle pays the destination of the request and consumes its index. -/
structure WithdrawalBundle.Includes (bundle : WithdrawalBundle)
    (request : PendingWithdrawal) : Prop where
  paid : request.btcDestination ∈ bundle.payouts.map TxOut.scriptPubkey
  consumed : request.index ∈ bundle.requestIndices

section Includes

variable {hashes : Hashes} {order : HashMapOrder} {pending : List PendingWithdrawal}
  {blockHeight : UInt32} {bundle : WithdrawalBundle} {request : PendingWithdrawal}

theorem includes_bundlePaying_iff (member : request ∈ pending) {paid : List Bytes}
    (nodup : paid.Nodup) :
    (bundlePaying pending hashes blockHeight paid).Includes request ↔
      request.btcDestination ∈ paid := by
  constructor
  · intro included
    simpa [scripts_bundlePaying] using included.paid
  · intro paidTo
    constructor
    · rwa [scripts_bundlePaying]
    · rw [(requestIndices_bundlePaying_perm nodup).mem_iff]
      apply List.mem_map_of_mem
      simp [requestsToAny, member, paidTo]

/-- Where the indices are distinct, a bundle includes the requests it lists. -/
theorem includes_iff_mem_requestIndices
    (distinct : (pending.map PendingWithdrawal.index).Nodup)
    (selected : selectWithdrawalBundle hashes order pending blockHeight = some bundle)
    (member : request ∈ pending) :
    bundle.Includes request ↔ request.index ∈ bundle.requestIndices := by
  constructor
  · exact fun included => included.consumed
  · intro listed
    have bundleEq := ((selectWithdrawalBundle_eq_some_iff pending).mp selected).2
    have nodup := payees_nodup pending
    rw [← bundleEq] at listed ⊢
    rw [includes_bundlePaying_iff member nodup]
    rw [(requestIndices_bundlePaying_perm nodup).mem_iff] at listed
    rcases List.mem_map.mp listed with ⟨other, otherPaid, sameIndex⟩
    rcases List.mem_filter.mp otherPaid with ⟨otherMem, toPaid⟩
    rw [← List.inj_on_of_nodup_map distinct otherMem member sameIndex]
    simpa using toPaid

/-- The selection includes a request iff its destination is among the payees. -/
theorem exists_includes_iff (member : request ∈ pending) :
    (∃ bundle, selectWithdrawalBundle hashes order pending blockHeight = some bundle ∧
      bundle.Includes request) ↔ request.btcDestination ∈ payees pending := by
  have nodup := payees_nodup pending
  constructor
  · intro exists_
    rcases exists_ with ⟨bundle, selected, included⟩
    rw [← ((selectWithdrawalBundle_eq_some_iff pending).mp selected).2] at included
    exact (includes_bundlePaying_iff member nodup).mp included
  · intro paid
    refine ⟨bundlePaying pending hashes blockHeight (payees pending), ?_, ?_⟩
    · rw [selectWithdrawalBundle_eq_some_iff]
      exact ⟨List.ne_nil_of_mem paid, rfl⟩
    · exact (includes_bundlePaying_iff member nodup).mpr paid

end Includes

/-- A request that is included stays included when its fee is raised, or when
a further request to its destination is listed anywhere. -/
theorem higher_fee_keeps_request (hashes : Hashes) (order otherOrder : HashMapOrder)
    (front back : List PendingWithdrawal) (request : PendingWithdrawal)
    (blockHeight : UInt32) (bundle : WithdrawalBundle)
    (selected : selectWithdrawalBundle hashes order (front ++ request :: back) blockHeight =
      some bundle)
    (included : bundle.Includes request) :
    (∀ fee, request.mainFeeSats < fee → ∃ raised,
      selectWithdrawalBundle hashes otherOrder
          (front ++ { request with mainFeeSats := fee } :: back) blockHeight = some raised ∧
        raised.Includes { request with mainFeeSats := fee }) ∧
    ∀ further : PendingWithdrawal, further.btcDestination = request.btcDestination →
      ∀ pending : List PendingWithdrawal,
        pending.Perm (further :: (front ++ request :: back)) → ∃ joined,
          selectWithdrawalBundle hashes otherOrder pending blockHeight = some joined ∧
            joined.Includes request := by
  have member : request ∈ front ++ request :: back := by simp
  have paid := (exists_includes_iff member).mp ⟨bundle, selected, included⟩
  constructor
  · intro fee higher
    have notLower : request.mainFeeSats ≤ fee := by
      rw [UInt64.le_iff_toNat_le]
      exact Nat.le_of_lt (UInt64.lt_iff_toNat_lt.mp higher)
    rw [exists_includes_iff (by simp)]
    exact (favours_raised notLower).mem_payees paid
  · intro further sameDestination pending perm
    rw [exists_includes_iff (perm.mem_iff.mpr (.tail _ member)), payees_perm perm]
    exact (favours_further member sameDestination).mem_payees paid

theorem higher_fee_keeps_request_three_requests :
    ∃ raised,
      selectWithdrawalBundle .unused .insertion
          (([] : List PendingWithdrawal) ++
            { index := 0, valueSats := 1000, mainFeeSats := 101, btcDestination := [0xAA] } ::
              threeRequests.tail) 1 = some raised ∧
        raised.Includes
          { index := 0, valueSats := 1000, mainFeeSats := 101, btcDestination := [0xAA] } := by
  let request : PendingWithdrawal :=
    { index := 0, valueSats := 1000, mainFeeSats := 100, btcDestination := [0xAA] }
  have found : ((selectWithdrawalBundle .unused .insertion
      ([] ++ request :: threeRequests.tail) 1).map fun bundle =>
        (decide (request.btcDestination ∈ bundle.payouts.map TxOut.scriptPubkey),
          decide (request.index ∈ bundle.requestIndices))) = some (true, true) := by
    decide +kernel
  rcases Option.map_eq_some_iff.mp found with ⟨bundle, selected, includedEq⟩
  simp only [Prod.mk.injEq, decide_eq_true_eq] at includedEq
  exact (higher_fee_keeps_request .unused .insertion .insertion [] threeRequests.tail request 1
    bundle selected ⟨includedEq.1, includedEq.2⟩).1 101 (by decide)

end Beth
