import Beth.Node.EnforcerMessages

/-! # The M6 transaction and its predicted weight

The parts of `withdrawal_bundle.rs` that build Bitcoin data: the two commitment
outputs, the blinded transaction and the size arithmetic in checked 32-bit
integers. The hash functions are given by their digests. -/

namespace Beth

open Foundation

/-! ## Bitcoin transactions -/

structure OutPoint where
  txid : Txid
  vout : UInt32
deriving DecidableEq

structure TxIn where
  previousOutput : OutPoint
  scriptSig : Bytes
  sequence : UInt32
deriving DecidableEq

structure TxOut where
  value : UInt64
  scriptPubkey : Bytes
deriving DecidableEq

structure Transaction where
  version : UInt32
  lockTime : UInt32
  input : List TxIn
  output : List TxOut
deriving DecidableEq

structure Hashes where
  keccak256 : Bytes → B256
  computeTxid : Transaction → Txid

/-- Stands in where nothing is hashed. -/
def Hashes.unused : Hashes where
  keccak256 := fun _ => .replicate 32 0
  computeTxid := fun _ => .replicate 32 0

/-! ## Fixed-width arithmetic -/

def saturatingAdd (left right : UInt64) : UInt64 :=
  if left.toNat + right.toNat < 2 ^ 64 then left + right else UInt64.ofNat (2 ^ 64 - 1)

def checkedAddU32 (left right : UInt32) : Option UInt32 :=
  if left.toNat + right.toNat < 2 ^ 32 then some (left + right) else none

def checkedMulU64 (left right : UInt64) : Option UInt64 :=
  if left.toNat * right.toNat < 2 ^ 64 then some (left * right) else none

def tryFromU32 (value : Nat) : Option UInt32 :=
  if value < 2 ^ 32 then some (UInt32.ofNat value) else none

/-- `u64::try_from(value).unwrap_or(u64::MAX)`. -/
def clampU64 (value : Nat) : UInt64 :=
  if value < 2 ^ 64 then UInt64.ofNat value else UInt64.ofNat (2 ^ 64 - 1)

/-- `u32::try_from(value).unwrap_or(u32::MAX)`. -/
def clampU32 (value : UInt64) : UInt32 :=
  if value.toNat < 2 ^ 32 then value.toUInt32 else UInt32.ofNat (2 ^ 32 - 1)

theorem toNat_saturatingAdd (left right : UInt64) :
    (saturatingAdd left right).toNat = min (left.toNat + right.toNat) (2 ^ 64 - 1) := by
  unfold saturatingAdd
  split
  · rename_i fits
    rw [UInt64.toNat_add, Nat.mod_eq_of_lt fits]
    omega
  · rw [UInt64.toNat_ofNat']
    omega

theorem toNat_clampU64_eq (value : Nat) :
    (clampU64 value).toNat = min value (2 ^ 64 - 1) := by
  unfold clampU64
  split
  · rw [UInt64.toNat_ofNat']
    omega
  · rw [UInt64.toNat_ofNat']
    omega

theorem toNat_clampU64 {value : Nat} (fits : value < 2 ^ 64) :
    (clampU64 value).toNat = value := by
  rw [toNat_clampU64_eq]
  omega

theorem toNat_clampU64_le (value : Nat) : (clampU64 value).toNat ≤ value := by
  rw [toNat_clampU64_eq]
  exact Nat.min_le_left _ _

/-! ## Commitment outputs -/

def opReturn : UInt8 := 0x6a

/-- `Builder::push_opcode(OP_RETURN).push_slice(data)` for data shorter than 76
bytes, which are pushed by a single length byte. -/
def opReturnScript (data : Bytes) : Bytes :=
  opReturn :: UInt8.ofNat data.length :: data

def mainchainFeeTxout (totalMainFeeSats : UInt64) : TxOut where
  value := 0
  scriptPubkey := opReturnScript (toBeBytes 8 totalMainFeeSats.toNat)

def requestsCommitmentPreimage (requestIndices : List UInt64) (blockHeight : UInt32) :
    Bytes :=
  requestIndices.flatMap (fun index => toBeBytes 8 index.toNat) ++
    toBeBytes 4 blockHeight.toNat

def requestsCommitment (hashes : Hashes) (requestIndices : List UInt64)
    (blockHeight : UInt32) : B256 :=
  hashes.keccak256 (requestsCommitmentPreimage requestIndices blockHeight)

def requestsCommitmentTxout (commitment : B256) : TxOut where
  value := 0
  scriptPubkey := opReturnScript commitment.bytes

/-- A withdrawal bundle: the blinded M6 transaction, plus the request indices
it consumes. -/
structure WithdrawalBundle where
  requestIndices : List UInt64
  tx : Transaction
deriving DecidableEq

def WithdrawalBundle.m6id (hashes : Hashes) (bundle : WithdrawalBundle) : Txid :=
  hashes.computeTxid bundle.tx

def buildWithdrawalBundle (hashes : Hashes) (blockHeight : UInt32)
    (totalMainFeeSats : UInt64) (requestIndices : List UInt64)
    (bundleOutputs : List TxOut) : WithdrawalBundle where
  requestIndices := requestIndices
  tx :=
    { version := 2
      lockTime := 0
      input := []
      output := mainchainFeeTxout totalMainFeeSats ::
        requestsCommitmentTxout (requestsCommitment hashes requestIndices blockHeight) ::
        bundleOutputs }

/-- The preimage determines the indices and the height. -/
theorem requestsCommitmentPreimage_injective {left right : List UInt64}
    {leftHeight rightHeight : UInt32}
    (equal : requestsCommitmentPreimage left leftHeight =
      requestsCommitmentPreimage right rightHeight) :
    left = right ∧ leftHeight = rightHeight := by
  have asNats : ∀ indices : List UInt64,
      indices.flatMap (fun index => toBeBytes 8 index.toNat) =
        (indices.map UInt64.toNat).flatMap (toBeBytes 8) := by
    intro indices
    rw [List.flatMap_map]
  have sameLength : left.length = right.length := by
    have lengths := congrArg List.length equal
    simp only [requestsCommitmentPreimage, List.length_append, List.length_flatMap,
      length_toBeBytes, List.map_const', List.sum_replicate, smul_eq_mul] at lengths
    omega
  have indexFits : ∀ indices : List UInt64,
      ∀ value ∈ indices.map UInt64.toNat, value < 256 ^ 8 := by
    intro indices value member
    rcases List.mem_map.mp member with ⟨index, _, valueEq⟩
    have bound := index.toNat_lt
    omega
  unfold requestsCommitmentPreimage at equal
  rw [asNats, asNats] at equal
  have parts := flatMap_toBeBytes_append_injective (indexFits left) (indexFits right)
    (by simpa using sameLength) equal
  constructor
  · exact List.map_injective_iff.mpr (fun _ _ => UInt64.toNat_inj.mp) parts.1
  · have leftBound := leftHeight.toNat_lt
    have rightBound := rightHeight.toNat_lt
    exact UInt32.toNat_inj.mp
      (toBeBytes_injective 4 (by omega) (by omega) parts.2)

/-! ## Size and weight -/

/-- `VarInt(value).size()`. -/
def varIntSize (value : Nat) : Nat :=
  if value ≤ 0xFC then 1
  else if value ≤ 0xFFFF then 3
  else if value ≤ 0xFFFFFFFF then 5
  else 9

def amountSize : UInt32 := 8

def txoutSize (spkSize : UInt32) : Option UInt32 := do
  let size ← checkedAddU32 amountSize (UInt32.ofNat (varIntSize spkSize.toNat))
  checkedAddU32 size spkSize

def txinBaseSize (scriptSigSize : UInt32) : Option UInt32 := do
  let outpointSize : UInt8 := 36
  let sequenceSize : UInt8 := 4
  let scriptSigLenSize := UInt8.ofNat (varIntSize scriptSigSize.toNat)
  let res ← checkedAddU32 (outpointSize + scriptSigLenSize).toUInt32 scriptSigSize
  checkedAddU32 res sequenceSize.toUInt32

def vinBaseSize (nInputs sumTxinBaseSizes : UInt32) : Option UInt32 :=
  checkedAddU32 (UInt8.ofNat (varIntSize nInputs.toNat)).toUInt32 sumTxinBaseSizes

def voutSize (nOutputs sumTxoutSizes : UInt32) : Option UInt32 :=
  checkedAddU32 (UInt8.ofNat (varIntSize nOutputs.toNat)).toUInt32 sumTxoutSizes

def txBaseSize (nInputs sumTxinBaseSizes nOutputs sumTxoutSizes : UInt32) :
    Option UInt32 := do
  let versionSize : UInt8 := 4
  let locktimeSize : UInt8 := 4
  let vinSize ← vinBaseSize nInputs sumTxinBaseSizes
  let res ← checkedAddU32 versionSize.toUInt32 vinSize
  let outputsSize ← voutSize nOutputs sumTxoutSizes
  let res ← checkedAddU32 res outputsSize
  checkedAddU32 res locktimeSize.toUInt32

def witnessScaleFactor : UInt64 := 4

def maxStandardWeight : UInt64 := 400000

/-- The weight of the bundle with its two commitment outputs and one treasury
input, if it is within the standard limit. -/
def predictWeight (nOutputs sumTxoutSizes : UInt32) : Option UInt64 := do
  let sumTxinBaseSizes ← txinBaseSize 0
  let nOutputs ← checkedAddU32 nOutputs 2
  let inputsCommitmentTxoutSize ← txoutSize 34
  let mainchainFeeCommitmentTxoutSize ← txoutSize 10
  let sumTxoutSizes ← checkedAddU32
    (inputsCommitmentTxoutSize + mainchainFeeCommitmentTxoutSize) sumTxoutSizes
  let baseSize ← txBaseSize 1 sumTxinBaseSizes nOutputs sumTxoutSizes
  let txWeightWu ← checkedMulU64 baseSize.toUInt64 witnessScaleFactor
  if txWeightWu ≤ maxStandardWeight then some txWeightWu else none

example : txoutSize 253 = some 264 ∧ (predictWeight 1 43).isSome := by
  decide

end Beth
