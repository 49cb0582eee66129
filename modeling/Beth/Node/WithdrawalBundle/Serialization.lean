import Beth.Node.WithdrawalBundle.Transaction

/-! # Bitcoin serialization and the size arithmetic

The consensus encoding of a transaction without witness data, and the proof
that the checked 32-bit arithmetic of `txout_size` and `predict_weight` either
fails or gives exactly the size and the weight of what would be encoded. -/

namespace Beth

open Foundation

/-! ## The encoding -/

def toLeBytes (width value : Nat) : Bytes := (toBeBytes width value).reverse

/-- A count or a length, in one, three, five or nine bytes. -/
def compactSize (value : Nat) : Bytes :=
  if value ≤ 0xFC then [UInt8.ofNat value]
  else if value ≤ 0xFFFF then 0xFD :: toLeBytes 2 value
  else if value ≤ 0xFFFFFFFF then 0xFE :: toLeBytes 4 value
  else 0xFF :: toLeBytes 8 value

def OutPoint.serialize (outPoint : OutPoint) : Bytes :=
  outPoint.txid.bytes ++ toLeBytes 4 outPoint.vout.toNat

def TxIn.serialize (txIn : TxIn) : Bytes :=
  txIn.previousOutput.serialize ++ compactSize txIn.scriptSig.length ++ txIn.scriptSig ++
    toLeBytes 4 txIn.sequence.toNat

def TxOut.serialize (txOut : TxOut) : Bytes :=
  toLeBytes 8 txOut.value.toNat ++ compactSize txOut.scriptPubkey.length ++
    txOut.scriptPubkey

def Transaction.serialize (tx : Transaction) : Bytes :=
  toLeBytes 4 tx.version.toNat ++
    (compactSize tx.input.length ++ tx.input.flatMap TxIn.serialize) ++
    (compactSize tx.output.length ++ tx.output.flatMap TxOut.serialize) ++
    toLeBytes 4 tx.lockTime.toNat

/-- The weight of a transaction without witness data. -/
def Transaction.weight (tx : Transaction) : Nat :=
  witnessScaleFactor.toNat * tx.serialize.length

/-- The transaction the enforcer broadcasts: the blinded one with its input. -/
def Transaction.withInput (tx : Transaction) (txIn : TxIn) : Transaction :=
  { tx with input := [txIn] }

/-! ## Sizes -/

@[simp] theorem length_toLeBytes (width value : Nat) :
    (toLeBytes width value).length = width := by
  simp [toLeBytes]

@[simp] theorem length_compactSize (value : Nat) :
    (compactSize value).length = varIntSize value := by
  unfold compactSize varIntSize
  split
  · rfl
  · split
    · simp
    · split <;> simp

theorem varIntSize_le (value : Nat) : varIntSize value ≤ 9 := by
  unfold varIntSize
  split
  · omega
  · split
    · omega
    · split <;> omega

theorem varIntSize_mono {smaller larger : Nat} (le : smaller ≤ larger) :
    varIntSize smaller ≤ varIntSize larger := by
  unfold varIntSize
  split_ifs <;> omega

/-- The serialized size of an output with a script of this length. -/
def payoutSize (scriptLength : Nat) : Nat := 8 + varIntSize scriptLength + scriptLength

theorem TxOut.length_serialize (txOut : TxOut) :
    txOut.serialize.length = payoutSize txOut.scriptPubkey.length := by
  simp [serialize, payoutSize, Nat.add_assoc]

theorem TxIn.length_serialize {txIn : TxIn} (emptyScript : txIn.scriptSig = []) :
    txIn.serialize.length = 41 := by
  simp [serialize, OutPoint.serialize, emptyScript, txIn.previousOutput.txid.length_eq,
    varIntSize]

/-- The serialized size of an M6 transaction with one input, by the number of
its payouts and their total size. -/
def m6Size (payouts totalSize : Nat) : Nat := 112 + varIntSize (payouts + 2) + totalSize

/-- The weight of the M6 transaction that pays these outputs. -/
def m6Weight (payouts totalSize : Nat) : Nat :=
  witnessScaleFactor.toNat * m6Size payouts totalSize

theorem m6Weight_mono {fewer more smaller larger : Nat} (counts : fewer ≤ more)
    (sizes : smaller ≤ larger) : m6Weight fewer smaller ≤ m6Weight more larger := by
  have counted := varIntSize_mono (Nat.add_le_add_right counts 2)
  apply Nat.mul_le_mul_left
  unfold m6Size
  omega

theorem length_opReturnScript (data : Bytes) :
    (opReturnScript data).length = data.length + 2 := rfl

/-- The size of a built bundle, once its input is attached. -/
theorem weight_buildWithdrawalBundle (hashes : Hashes) (blockHeight : UInt32)
    (totalMainFeeSats : UInt64) (requestIndices : List UInt64) (bundleOutputs : List TxOut)
    {txIn : TxIn} (emptyScript : txIn.scriptSig = []) :
    ((buildWithdrawalBundle hashes blockHeight totalMainFeeSats requestIndices
      bundleOutputs).tx.withInput txIn).weight =
      m6Weight bundleOutputs.length
        (bundleOutputs.map fun output => payoutSize output.scriptPubkey.length).sum := by
  have feeSize : (mainchainFeeTxout totalMainFeeSats).serialize.length = 19 := by
    simp [TxOut.length_serialize, mainchainFeeTxout, length_opReturnScript, payoutSize,
      varIntSize]
  have commitmentSize : (requestsCommitmentTxout
      (requestsCommitment hashes requestIndices blockHeight)).serialize.length = 43 := by
    simp [TxOut.length_serialize, requestsCommitmentTxout, length_opReturnScript, payoutSize,
      varIntSize, (requestsCommitment hashes requestIndices blockHeight).length_eq]
  have payoutsSize : (bundleOutputs.flatMap TxOut.serialize).length =
      (bundleOutputs.map fun output => payoutSize output.scriptPubkey.length).sum := by
    rw [List.length_flatMap]
    congr 1
    apply List.map_congr_left
    intro output _
    exact output.length_serialize
  have oneInput : varIntSize 1 = 1 := rfl
  have twoMore : bundleOutputs.length + 1 + 1 = bundleOutputs.length + 2 := rfl
  unfold Transaction.weight m6Weight m6Size
  congr 1
  simp only [Transaction.serialize, Transaction.withInput, buildWithdrawalBundle,
    List.length_append, length_toLeBytes, length_compactSize, List.flatMap_cons,
    List.flatMap_nil, List.append_nil, List.length_cons, List.length_nil, feeSize,
    commitmentSize, payoutsSize, TxIn.length_serialize emptyScript, Nat.zero_add, oneInput,
    twoMore]
  omega

/-! ## The checked arithmetic is exact -/

theorem checkedAddU32_eq_some_iff (left right sum : UInt32) :
    checkedAddU32 left right = some sum ↔ sum.toNat = left.toNat + right.toNat := by
  have sumBound := sum.toNat_lt
  unfold checkedAddU32
  split
  · rename_i fits
    rw [Option.some.injEq, ← UInt32.toNat_inj, UInt32.toNat_add, Nat.mod_eq_of_lt fits]
    exact eq_comm
  · simp
    omega

theorem checkedAddU32_eq_none_iff (left right : UInt32) :
    checkedAddU32 left right = none ↔ 2 ^ 32 ≤ left.toNat + right.toNat := by
  unfold checkedAddU32
  split
  · rename_i fits
    simp
    omega
  · rename_i overflows
    simp
    omega

theorem tryFromU32_eq_some_iff (value : Nat) (converted : UInt32) :
    tryFromU32 value = some converted ↔ converted.toNat = value := by
  have bound := converted.toNat_lt
  unfold tryFromU32
  split
  · rename_i fits
    rw [Option.some.injEq, ← UInt32.toNat_inj, UInt32.toNat_ofNat', Nat.mod_eq_of_lt fits]
    exact eq_comm
  · simp
    omega

/-- Two checked additions in a row are one exact sum. -/
theorem checkedAddU32_bind_eq_some_iff (left right third sum : UInt32) :
    ((checkedAddU32 left right).bind fun partialSum => checkedAddU32 partialSum third) =
        some sum ↔
      sum.toNat = left.toNat + right.toNat + third.toNat := by
  rw [Option.bind_eq_some_iff]
  constructor
  · intro added
    rcases added with ⟨partialSum, firstEq, secondEq⟩
    rw [(checkedAddU32_eq_some_iff _ _ _).mp secondEq,
      (checkedAddU32_eq_some_iff _ _ _).mp firstEq]
  · intro total
    have sumBound := sum.toNat_lt
    have fits : left.toNat + right.toNat < 2 ^ 32 := by omega
    have partialEq : (left + right).toNat = left.toNat + right.toNat := by
      rw [UInt32.toNat_add, Nat.mod_eq_of_lt fits]
    exact ⟨left + right, (checkedAddU32_eq_some_iff _ _ _).mpr partialEq,
      (checkedAddU32_eq_some_iff _ _ _).mpr (by rw [partialEq, total])⟩

theorem txoutSize_eq_some_iff (spkSize size : UInt32) :
    txoutSize spkSize = some size ↔ size.toNat = payoutSize spkSize.toNat := by
  have small := varIntSize_le spkSize.toNat
  have lengthSize : (UInt32.ofNat (varIntSize spkSize.toNat)).toNat =
      varIntSize spkSize.toNat := by
    rw [UInt32.toNat_ofNat', Nat.mod_eq_of_lt (by omega)]
  have chained := checkedAddU32_bind_eq_some_iff amountSize
    (UInt32.ofNat (varIntSize spkSize.toNat)) spkSize size
  rw [lengthSize] at chained
  exact chained

theorem txBaseSize_eq_some_iff (nOutputs sumTxoutSizes baseSize : UInt32) :
    txBaseSize 1 41 nOutputs sumTxoutSizes = some baseSize ↔
      baseSize.toNat = 50 + varIntSize nOutputs.toNat + sumTxoutSizes.toNat := by
  have small := varIntSize_le nOutputs.toNat
  have lengthSize : (UInt8.ofNat (varIntSize nOutputs.toNat)).toUInt32.toNat =
      varIntSize nOutputs.toNat := by
    rw [UInt8.toNat_toUInt32, UInt8.toNat_ofNat', Nat.mod_eq_of_lt (by omega)]
  have beforeOutputs : vinBaseSize 1 41 = some 42 := by decide
  have versioned : checkedAddU32 (4 : UInt8).toUInt32 42 = some 46 := by decide
  have baseBound := baseSize.toNat_lt
  unfold txBaseSize voutSize
  simp only [beforeOutputs, versioned, Option.bind_eq_bind, Option.bind_some,
    Option.bind_eq_some_iff, checkedAddU32_eq_some_iff, lengthSize]
  constructor
  · intro added
    rcases added with ⟨outputsSize, outputsEq, withOutputs, withOutputsEq, baseEq⟩
    rw [baseEq, withOutputsEq, outputsEq]
    change 46 + _ + 4 = _
    omega
  · intro total
    have outputsFit : varIntSize nOutputs.toNat + sumTxoutSizes.toNat < 2 ^ 32 := by omega
    have withOutputsFit : 46 + (varIntSize nOutputs.toNat + sumTxoutSizes.toNat) < 2 ^ 32 := by
      omega
    refine ⟨UInt32.ofNat (varIntSize nOutputs.toNat + sumTxoutSizes.toNat), ?_,
      UInt32.ofNat (46 + (varIntSize nOutputs.toNat + sumTxoutSizes.toNat)), ?_, ?_⟩
    · rw [UInt32.toNat_ofNat', Nat.mod_eq_of_lt outputsFit]
    · rw [UInt32.toNat_ofNat', UInt32.toNat_ofNat', Nat.mod_eq_of_lt outputsFit,
        Nat.mod_eq_of_lt withOutputsFit]
      rfl
    · rw [UInt32.toNat_ofNat', Nat.mod_eq_of_lt withOutputsFit, total]
      change _ = _ + 4
      omega

/-- A predicted weight is the exact weight, and is predicted iff it is standard
and the outputs can be counted. -/
theorem predictWeight_eq_some_iff (nOutputs sumTxoutSizes : UInt32) (weight : UInt64) :
    predictWeight nOutputs sumTxoutSizes = some weight ↔
      nOutputs.toNat + 2 < 2 ^ 32 ∧
      weight.toNat = m6Weight nOutputs.toNat sumTxoutSizes.toNat ∧
      weight ≤ maxStandardWeight := by
  have inputSize : txinBaseSize 0 = some 41 := by decide
  have commitmentSize : txoutSize 34 = some 43 := by decide
  have feeSize : txoutSize 10 = some 19 := by decide
  have multiplied : ∀ baseSize : UInt32, checkedMulU64 baseSize.toUInt64 witnessScaleFactor =
      some (baseSize.toUInt64 * witnessScaleFactor) ∧
      (baseSize.toUInt64 * witnessScaleFactor).toNat = 4 * baseSize.toNat := by
    intro baseSize
    have bound := baseSize.toNat_lt
    have scale : witnessScaleFactor.toNat = 4 := rfl
    have asNat : baseSize.toUInt64.toNat = baseSize.toNat := UInt32.toNat_toUInt64 _
    have fits : baseSize.toUInt64.toNat * witnessScaleFactor.toNat < 2 ^ 64 := by
      rw [scale]
      omega
    refine ⟨if_pos fits, ?_⟩
    rw [UInt64.toNat_mul, Nat.mod_eq_of_lt fits, asNat, scale, Nat.mul_comm]
  have weightBound : weight ≤ maxStandardWeight ↔ weight.toNat ≤ 400000 :=
    UInt64.le_iff_toNat_le
  have weightEq : m6Weight nOutputs.toNat sumTxoutSizes.toNat =
      4 * m6Size nOutputs.toNat sumTxoutSizes.toNat := rfl
  have outputsBound := nOutputs.toNat_lt
  have sizesBound := sumTxoutSizes.toNat_lt
  unfold predictWeight
  simp only [inputSize, commitmentSize, feeSize, Option.bind_eq_bind, Option.bind_some,
    Option.bind_eq_some_iff, (multiplied _).1]
  constructor
  · intro predicted
    rcases predicted with
      ⟨counted, countedEq, summed, summedEq, baseSize, baseEq, within⟩
    have countedNat := (checkedAddU32_eq_some_iff _ _ _).mp countedEq
    have summedNat := (checkedAddU32_eq_some_iff _ _ _).mp summedEq
    have baseNat := (txBaseSize_eq_some_iff _ _ _).mp baseEq
    have countedBound := counted.toNat_lt
    split at within
    · rename_i standard
      cases within
      change counted.toNat = _ + 2 at countedNat
      change summed.toNat = 62 + _ at summedNat
      refine ⟨by omega, ?_, standard⟩
      rw [(multiplied baseSize).2, baseNat, summedNat, countedNat, weightEq, m6Size]
      omega
    · cases within
  · intro facts
    rcases facts with ⟨countable, weightNat, standard⟩
    have within := weightBound.mp standard
    rw [weightEq, m6Size] at weightNat
    have countedNat : (nOutputs + 2).toNat = nOutputs.toNat + 2 := by
      rw [UInt32.toNat_add]
      exact Nat.mod_eq_of_lt countable
    have summedNat : (62 + sumTxoutSizes).toNat = 62 + sumTxoutSizes.toNat := by
      rw [UInt32.toNat_add]
      apply Nat.mod_eq_of_lt
      change 62 + _ < _
      omega
    have baseNat : (UInt32.ofNat (m6Size nOutputs.toNat sumTxoutSizes.toNat)).toNat =
        m6Size nOutputs.toNat sumTxoutSizes.toNat := by
      rw [UInt32.toNat_ofNat']
      apply Nat.mod_eq_of_lt
      rw [m6Size]
      omega
    refine ⟨nOutputs + 2, (checkedAddU32_eq_some_iff _ _ _).mpr countedNat,
      62 + sumTxoutSizes, (checkedAddU32_eq_some_iff _ _ _).mpr summedNat,
      UInt32.ofNat (m6Size nOutputs.toNat sumTxoutSizes.toNat), ?_, ?_⟩
    · rw [txBaseSize_eq_some_iff, baseNat, countedNat, summedNat, m6Size]
      omega
    · have weightIs : (UInt32.ofNat (m6Size nOutputs.toNat
          sumTxoutSizes.toNat)).toUInt64 * witnessScaleFactor = weight := by
        apply UInt64.toNat_inj.mp
        rw [(multiplied _).2, baseNat, weightNat, m6Size]
      rw [weightIs, if_pos standard]

/-- No weight is predicted exactly when it is above the standard limit, for
outputs that can be counted. -/
theorem predictWeight_eq_none_iff (nOutputs sumTxoutSizes : UInt32)
    (countable : nOutputs.toNat + 2 < 2 ^ 32) :
    predictWeight nOutputs sumTxoutSizes = none ↔
      maxStandardWeight.toNat < m6Weight nOutputs.toNat sumTxoutSizes.toNat := by
  constructor
  · intro unpredicted
    by_contra standard
    have within : m6Weight nOutputs.toNat sumTxoutSizes.toNat ≤ maxStandardWeight.toNat := by
      omega
    have weightNat : (UInt64.ofNat (m6Weight nOutputs.toNat sumTxoutSizes.toNat)).toNat =
        m6Weight nOutputs.toNat sumTxoutSizes.toNat := by
      rw [UInt64.toNat_ofNat', Nat.mod_eq_of_lt (within.trans_lt (by decide))]
    have standardWeight : UInt64.ofNat (m6Weight nOutputs.toNat sumTxoutSizes.toNat) ≤
        maxStandardWeight := by
      rw [UInt64.le_iff_toNat_le, weightNat]
      exact within
    rw [(predictWeight_eq_some_iff _ _ _).mpr ⟨countable, weightNat, standardWeight⟩]
      at unpredicted
    cases unpredicted
  · intro heavy
    cases predicted : predictWeight nOutputs sumTxoutSizes with
    | none => rfl
    | some weight =>
        have facts := (predictWeight_eq_some_iff _ _ _).mp predicted
        have within := UInt64.le_iff_toNat_le.mp facts.2.2
        omega

end Beth
