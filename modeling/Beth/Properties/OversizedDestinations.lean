import Beth.Node.WithdrawalBundle.Payees

/-! # A destination too large for any bundle

`select_withdrawal_bundle` documents that it returns nothing only where nothing
fits. The greedy loop skips a destination whose output size cannot be computed,
but ends at one that is merely too heavy: whether the other destinations are
still paid depends on where the heavy one ranks. -/

namespace Beth

open Foundation

/-! ## Destinations on their own -/

/-- The size of an output to a destination, as the loop computes it. -/
def txoutSizeTo (btcDestination : Bytes) : Option UInt32 :=
  (tryFromU32 btcDestination.length).bind txoutSize

/-- The destination fits in a bundle that pays nothing else. -/
def FitsAlone (btcDestination : Bytes) : Prop :=
  ((txoutSizeTo btcDestination).bind (predictWeight 1)).isSome

instance : DecidablePred FitsAlone := fun btcDestination =>
  inferInstanceAs (Decidable (((txoutSizeTo btcDestination).bind (predictWeight 1)).isSome))

theorem txoutSizeTo_eq_some_iff (btcDestination : Bytes) (size : UInt32) :
    txoutSizeTo btcDestination = some size ↔
      size.toNat = payoutSize btcDestination.length := by
  rw [txoutSizeTo, Option.bind_eq_some_iff]
  constructor
  · intro computed
    rcases computed with ⟨spkSize, spkEq, sizeEq⟩
    rw [← (tryFromU32_eq_some_iff _ _).mp spkEq]
    exact (txoutSize_eq_some_iff spkSize size).mp sizeEq
  · intro exact_
    have bound := size.toNat_lt
    have lengthLt : btcDestination.length < 2 ^ 32 := by
      rw [exact_, payoutSize] at bound
      omega
    have spkNat : (UInt32.ofNat btcDestination.length).toNat = btcDestination.length := by
      rw [UInt32.toNat_ofNat', Nat.mod_eq_of_lt lengthLt]
    refine ⟨UInt32.ofNat btcDestination.length, ?_, ?_⟩
    · rw [tryFromU32_eq_some_iff, spkNat]
    · rw [txoutSize_eq_some_iff, spkNat]
      exact exact_

theorem isSome_txoutSizeTo (btcDestination : Bytes) :
    (txoutSizeTo btcDestination).isSome ↔ Sized btcDestination := by
  rw [Option.isSome_iff_exists]
  constructor
  · intro computed
    rcases computed with ⟨size, sizeEq⟩
    rw [Sized, ← (txoutSizeTo_eq_some_iff _ _).mp sizeEq]
    exact size.toNat_lt
  · intro sized
    refine ⟨UInt32.ofNat (payoutSize btcDestination.length), ?_⟩
    rw [txoutSizeTo_eq_some_iff, UInt32.toNat_ofNat', Nat.mod_eq_of_lt sized]

theorem FitsAlone.sized {btcDestination : Bytes} (fits : FitsAlone btcDestination) :
    Sized btcDestination := by
  rw [← isSome_txoutSizeTo]
  rcases Option.isSome_iff_exists.mp fits with ⟨weight, predicted⟩
  rcases Option.bind_eq_some_iff.mp predicted with ⟨size, sizeEq, _⟩
  rw [sizeEq]
  rfl

/-- The prediction for one output is the test of the loop for the first payee. -/
theorem fitsAlone_iff {btcDestination : Bytes} (sized : Sized btcDestination) :
    FitsAlone btcDestination ↔ FitsStandard [btcDestination] := by
  rcases Option.isSome_iff_exists.mp ((isSome_txoutSizeTo _).mpr sized) with ⟨size, sizeEq⟩
  have sizeNat := (txoutSizeTo_eq_some_iff _ _).mp sizeEq
  have unpredicted := predictWeight_eq_none_iff 1 size (by decide)
  have onePayee : m6Weight (1 : UInt32).toNat size.toNat =
      m6Weight [btcDestination].length (payoutSizes [btcDestination]) := by
    rw [sizeNat]
    rfl
  rw [FitsAlone, sizeEq, Option.bind_some, FitsStandard, ← onePayee, ← Nat.not_lt,
    ← unpredicted, Option.isSome_iff_ne_none]

/-! ## When a heavy destination comes first -/

section Blocking

variable (pending : List PendingWithdrawal)

/-- The destinations that the loop compares the weight of. -/
theorem mem_sizedDestinations_of_request {request : PendingWithdrawal}
    (member : request ∈ pending) (sized : Sized request.btcDestination) :
    request.btcDestination ∈ sizedDestinations pending :=
  (mem_sizedDestinations pending _).mpr ⟨⟨request, member, rfl⟩, sized⟩

theorem selectWithdrawalBundle_eq_none_iff (hashes : Hashes) (order : HashMapOrder)
    (blockHeight : UInt32) :
    selectWithdrawalBundle hashes order pending blockHeight = none ↔
      payees pending = [] := by
  rw [selectWithdrawalBundle_eq]
  split <;> simp_all

/-- A heavy destination that ranks before all others ends the loop at once. -/
theorem payees_eq_nil_of_heavy {heavy : Bytes} (offered : heavy ∈ sizedDestinations pending)
    (misfits : ¬ FitsStandard [heavy])
    (before : ∀ other ∈ sizedDestinations pending, RanksBefore pending heavy other) :
    payees pending = [] := by
  rw [payees_eq_nil_iff]
  intro head isHead
  rcases List.head?_eq_some_iff.mp isHead with ⟨rest, sizedEq⟩
  have ranked := ranked_sizedDestinations pending
  rw [sizedEq] at ranked offered before
  rcases List.mem_cons.mp offered with isHeavy | later
  · rwa [← isHeavy]
  · have headFirst := (List.pairwise_cons.mp ranked).1 heavy later
    exact absurd (before head (by simp)) headFirst.2

/-- The condition under which no heavy destination blocks the others. -/
def Unblocked : Prop :=
  (∀ request ∈ pending, ¬ FitsAlone request.btcDestination) ∨
    ∃ fitting ∈ pending, FitsAlone fitting.btcDestination ∧
      ∀ heavy ∈ pending, (txoutSizeTo heavy.btcDestination).isSome →
        ¬ FitsAlone heavy.btcDestination →
        ¬ RanksBefore pending heavy.btcDestination fitting.btcDestination

instance : Decidable (Unblocked pending) := by
  unfold Unblocked
  infer_instance

/-- Nothing is returned exactly when nothing fits, if and only if a fitting
destination ranks before all heavy ones. -/
theorem none_iff_none_fits_iff (hashes : Hashes) (order : HashMapOrder)
    (pending : List PendingWithdrawal) (blockHeight : UInt32) :
    (selectWithdrawalBundle hashes order pending blockHeight = none ↔
        pending = [] ∨ ∀ request ∈ pending, ¬ FitsAlone request.btcDestination) ↔
      Unblocked pending := by
  have emptyOr : (pending = [] ∨ ∀ request ∈ pending, ¬ FitsAlone request.btcDestination) ↔
      ∀ request ∈ pending, ¬ FitsAlone request.btcDestination := by
    constructor
    · intro either
      rcases either with empty | noneFits
      · simp [empty]
      · exact noneFits
    · exact .inr
  rw [selectWithdrawalBundle_eq_none_iff, emptyOr, payees_eq_nil_iff]
  have ranked := ranked_sizedDestinations pending
  cases sizedEq : sizedDestinations pending with
  | nil =>
      have noneFits : ∀ request ∈ pending, ¬ FitsAlone request.btcDestination := by
        intro request member fits
        have offered := mem_sizedDestinations_of_request pending member fits.sized
        simp [sizedEq] at offered
      simp only [List.head?_nil]
      exact iff_of_true (iff_of_true (by simp) noneFits) (.inl noneFits)
  | cons head rest =>
      rw [sizedEq] at ranked
      have headOffered : head ∈ sizedDestinations pending := by simp [sizedEq]
      rcases (mem_sizedDestinations pending head).mp headOffered with
        ⟨⟨first, firstMem, toHead⟩, headSized⟩
      have headAlone := fitsAlone_iff headSized
      have isHead : (∀ other ∈ (head :: rest).head?, ¬ FitsStandard [other]) ↔
          ¬ FitsStandard [head] := by simp
      rw [isHead, ← headAlone]
      by_cases headFits : FitsAlone head
      · have someFits : ¬ ∀ request ∈ pending, ¬ FitsAlone request.btcDestination := by
          intro noneFits
          exact noneFits first firstMem (toHead ▸ headFits)
        apply iff_of_true (iff_of_false (not_not_intro headFits) someFits)
        refine .inr ⟨first, firstMem, toHead ▸ headFits, ?_⟩
        intro heavy heavyMem heavySized misfits before
        have offered := mem_sizedDestinations_of_request pending heavyMem
          ((isSome_txoutSizeTo _).mp heavySized)
        rw [sizedEq] at offered
        rw [toHead] at before
        rcases List.mem_cons.mp offered with isFirst | later
        · rw [isFirst] at misfits
          exact misfits headFits
        · exact ((List.pairwise_cons.mp ranked).1 _ later).2 before
      · constructor
        · intro noneIff
          exact .inl (noneIff.mp headFits)
        · intro unblocked
          rcases unblocked with noneFits | ⟨fitting, fittingMem, fits, notBefore⟩
          · exact iff_of_true headFits noneFits
          · have offered := mem_sizedDestinations_of_request pending fittingMem fits.sized
            rw [sizedEq] at offered
            have headBefore : RanksBefore pending head fitting.btcDestination := by
              rcases List.mem_cons.mp offered with isFirst | later
              · rw [isFirst]
                exact AggregatedWithdrawal.precedes_refl _
              · exact ((List.pairwise_cons.mp ranked).1 _ later).1
            have blocked := notBefore first firstMem
            rw [toHead] at blocked
            exact absurd headBefore
              (blocked ((isSome_txoutSizeTo _).mpr headSized) headFits)

end Blocking

/-- Of two requests, the one to the `heavy` destination offers the higher fee. -/
def heavyFirst (heavy : Bytes) : List PendingWithdrawal :=
  [{ index := 0, valueSats := 1, mainFeeSats := 2, btcDestination := heavy },
    { index := 1, valueSats := 1, mainFeeSats := 1, btcDestination := [0xAA] }]

theorem payees_heavyFirst {heavy : Bytes} (sized : Sized heavy)
    (misfits : ¬ FitsStandard [heavy]) (different : heavy ≠ [0xAA]) :
    payees (heavyFirst heavy) = [] := by
  have offered : heavy ∈ sizedDestinations (heavyFirst heavy) :=
    mem_sizedDestinations_of_request (heavyFirst heavy) (List.mem_cons_self ..) sized
  apply payees_eq_nil_of_heavy (heavyFirst heavy) offered misfits
  intro other otherOffered
  rcases ((mem_sizedDestinations (heavyFirst heavy) other).mp otherOffered).1 with
    ⟨request, member, toOther⟩
  have otherEq : other = heavy ∨ other = [0xAA] := by
    simp only [heavyFirst, List.mem_cons, List.not_mem_nil, or_false] at member
    rcases member with isFirst | isSecond
    · exact .inl (by rw [← toOther, isFirst])
    · exact .inr (by rw [← toOther, isSecond])
  rcases otherEq with isHeavy | isSmall
  · rw [isHeavy]
    exact AggregatedWithdrawal.precedes_refl _
  · have moreFee : feeTo (heavyFirst heavy) heavy = 2 ∧
        feeTo (heavyFirst heavy) [0xAA] = 1 := by
      simp [feeTo, requestsTo, heavyFirst, different, different.symm]
      decide
    rw [isSmall, RanksBefore]
    apply Or.inl
    change feeTo _ _ < feeTo _ _
    rw [moreFee.1, moreFee.2]
    decide

/-- Nothing is paid although the second destination fits on its own. -/
theorem heavy_destination_blocks :
    selectWithdrawalBundle .unused .insertion (heavyFirst (.replicate 100000 0)) 1 = none ∧
      ¬ (heavyFirst (.replicate 100000 0) = [] ∨
        ∀ request ∈ heavyFirst (.replicate 100000 0),
          ¬ FitsAlone request.btcDestination) := by
  have heavyLength : (List.replicate 100000 (0 : UInt8)).length = 100000 :=
    List.length_replicate
  generalize List.replicate 100000 (0 : UInt8) = heavy at heavyLength ⊢
  have sized : Sized heavy := by
    rw [Sized, heavyLength]
    decide
  have misfits : ¬ FitsStandard [heavy] := by
    rw [FitsStandard, payoutSizes, List.map_singleton, heavyLength, List.length_singleton]
    decide
  have different : heavy ≠ [0xAA] := by
    intro same
    rw [same] at heavyLength
    simp at heavyLength
  constructor
  · rw [selectWithdrawalBundle_eq_none_iff]
    exact payees_heavyFirst sized misfits different
  · intro either
    rcases either with empty | noneFits
    · simp [heavyFirst] at empty
    · exact noneFits { index := 1, valueSats := 1, mainFeeSats := 1, btcDestination := [0xAA] }
        (by simp [heavyFirst]) (by decide +kernel)

end Beth
