import Beth.Foundation.PrefixCode
import Beth.Node.PayloadBuilder

/-! # Transactions are determined by their bytes

The serialization a transaction is hashed by, and the encoding it is broadcast in,
are both prefix-free on the transactions whose counts and lengths fit 64 bits. -/

namespace Beth

open Foundation

/-! ## Numbers -/

theorem toLeBytes_free (width : Nat) :
    PrefixFree {value | value < 256 ^ width} (toLeBytes width) := by
  apply PrefixFree.of_length fun value _ => length_toLeBytes width value
  intro left leftFits right rightFits equal
  exact toBeBytes_injective width leftFits rightFits (List.reverse_injective equal)

theorem byte_ne_marker {value : Nat} (small : value ≤ 0xFC) {marker : UInt8}
    (large : 0xFC < marker.toNat) : UInt8.ofNat value ≠ marker := by
  intro equal
  have asNat := congrArg UInt8.toNat equal
  rw [UInt8.toNat_ofNat'] at asNat
  omega

theorem compactSize_free : PrefixFree {value | value < 2 ^ 64} compactSize := by
  intro left leftFits right rightFits leftRest rightRest equal
  change left < 2 ^ 64 at leftFits
  change right < 2 ^ 64 at rightFits
  unfold compactSize at equal
  split_ifs at equal
  all_goals rw [List.cons_append, List.cons_append, List.cons.injEq] at equal
  · have asNat := congrArg UInt8.toNat equal.1
    rw [UInt8.toNat_ofNat', UInt8.toNat_ofNat'] at asNat
    exact ⟨by omega, equal.2⟩
  · exact absurd equal.1 (byte_ne_marker ‹_› (by decide))
  · exact absurd equal.1 (byte_ne_marker ‹_› (by decide))
  · exact absurd equal.1 (byte_ne_marker ‹_› (by decide))
  · exact absurd equal.1.symm (byte_ne_marker ‹_› (by decide))
  · exact toLeBytes_free 2 _ (by change _ < 256 ^ 2; omega) _ (by change _ < 256 ^ 2; omega) _ _
      equal.2
  · exact absurd equal.1 (by decide)
  · exact absurd equal.1 (by decide)
  · exact absurd equal.1.symm (byte_ne_marker ‹_› (by decide))
  · exact absurd equal.1 (by decide)
  · exact toLeBytes_free 4 _ (by change _ < 256 ^ 4; omega) _ (by change _ < 256 ^ 4; omega) _ _
      equal.2
  · exact absurd equal.1 (by decide)
  · exact absurd equal.1.symm (byte_ne_marker ‹_› (by decide))
  · exact absurd equal.1 (by decide)
  · exact absurd equal.1 (by decide)
  · exact toLeBytes_free 8 _ (by change _ < 256 ^ 8; omega) _ (by change _ < 256 ^ 8; omega) _ _
      equal.2

theorem uint32_free : PrefixFree Set.univ fun value : UInt32 => toLeBytes 4 value.toNat := by
  intro left _ right _ leftRest rightRest equal
  have parts := toLeBytes_free 4 _ left.toNat_lt _ right.toNat_lt _ _ equal
  exact ⟨UInt32.toNat_inj.mp parts.1, parts.2⟩

theorem uint64_free : PrefixFree Set.univ fun value : UInt64 => toLeBytes 8 value.toNat := by
  intro left _ right _ leftRest rightRest equal
  have parts := toLeBytes_free 8 _ left.toNat_lt _ right.toNat_lt _ _ equal
  exact ⟨UInt64.toNat_inj.mp parts.1, parts.2⟩

theorem txid_free : PrefixFree Set.univ fun txid : Txid => txid.bytes :=
  PrefixFree.of_length (fun txid _ => txid.length_eq) fun _ _ _ _ equal => FixedBytes.ext equal

/-! ## Inputs and outputs -/

/-- Scripts behind their length. -/
theorem script_free :
    PrefixFree {script : Bytes | script.length < 2 ^ 64}
      (fun script => compactSize script.length ++ script) :=
  compactSize_free.lengthPrefixed

theorem txOut_free :
    PrefixFree {txOut : TxOut | txOut.scriptPubkey.length < 2 ^ 64} TxOut.serialize := by
  intro left leftFits right rightFits leftRest rightRest equal
  simp only [TxOut.serialize, List.append_assoc] at equal
  have values := uint64_free _ trivial _ trivial _ _ equal
  have scripts := script_free.parts leftFits rightFits values.2
  cases left
  cases right
  exact ⟨congrArg₂ TxOut.mk values.1 scripts.1, scripts.2⟩

theorem outPoint_free : PrefixFree Set.univ OutPoint.serialize := by
  intro left _ right _ leftRest rightRest equal
  simp only [OutPoint.serialize, List.append_assoc] at equal
  have txids := txid_free _ trivial _ trivial _ _ equal
  have vouts := uint32_free _ trivial _ trivial _ _ txids.2
  cases left
  cases right
  exact ⟨congrArg₂ OutPoint.mk txids.1 vouts.1, vouts.2⟩

theorem txIn_free :
    PrefixFree {txIn : TxIn | txIn.scriptSig.length < 2 ^ 64} TxIn.serialize := by
  intro left leftFits right rightFits leftRest rightRest equal
  simp only [TxIn.serialize, List.append_assoc] at equal
  have outPoints := outPoint_free _ trivial _ trivial _ _ equal
  have scripts := script_free.parts leftFits rightFits outPoints.2
  have sequences := uint32_free _ trivial _ trivial _ _ scripts.2
  rcases left with ⟨leftPoint, leftScript, leftSequence⟩
  rcases right with ⟨rightPoint, rightScript, rightSequence⟩
  cases outPoints.1
  cases scripts.1
  cases sequences.1
  exact ⟨rfl, sequences.2⟩

/-! ## Transactions -/

/-- The counts and lengths of a transaction can be written. -/
structure Transaction.Writable (tx : Transaction) : Prop where
  inputs : tx.input.length < 2 ^ 64
  scriptSigs : ∀ txIn ∈ tx.input, txIn.scriptSig.length < 2 ^ 64
  outputs : tx.output.length < 2 ^ 64
  scriptPubkeys : ∀ txOut ∈ tx.output, txOut.scriptPubkey.length < 2 ^ 64

/-- Inputs and outputs, each behind their count, and the lock time. -/
theorem inputs_free :
    PrefixFree {inputs : List TxIn | inputs.length < 2 ^ 64 ∧
        ∀ txIn ∈ inputs, txIn.scriptSig.length < 2 ^ 64}
      (fun inputs => compactSize inputs.length ++ inputs.flatMap TxIn.serialize) :=
  compactSize_free.counted txIn_free

theorem outputs_free :
    PrefixFree {outputs : List TxOut | outputs.length < 2 ^ 64 ∧
        ∀ txOut ∈ outputs, txOut.scriptPubkey.length < 2 ^ 64}
      (fun outputs => compactSize outputs.length ++ outputs.flatMap TxOut.serialize) :=
  compactSize_free.counted txOut_free

/-- What follows the version, and the marker where there is one, determines the rest. -/
theorem eq_of_body {left right : Transaction} (leftWritable : left.Writable)
    (rightWritable : right.Writable) (sameVersion : left.version = right.version)
    {leftRest rightRest : Bytes}
    (equal : compactSize left.input.length ++ (left.input.flatMap TxIn.serialize ++
        (compactSize left.output.length ++ (left.output.flatMap TxOut.serialize ++
          (toLeBytes 4 left.lockTime.toNat ++ leftRest)))) =
      compactSize right.input.length ++ (right.input.flatMap TxIn.serialize ++
        (compactSize right.output.length ++ (right.output.flatMap TxOut.serialize ++
          (toLeBytes 4 right.lockTime.toNat ++ rightRest))))) :
    left = right ∧ leftRest = rightRest := by
  have inputs := inputs_free.parts ⟨leftWritable.inputs, leftWritable.scriptSigs⟩
    ⟨rightWritable.inputs, rightWritable.scriptSigs⟩ equal
  have outputs := outputs_free.parts ⟨leftWritable.outputs, leftWritable.scriptPubkeys⟩
    ⟨rightWritable.outputs, rightWritable.scriptPubkeys⟩ inputs.2
  have lockTimes := uint32_free _ trivial _ trivial _ _ outputs.2
  rcases left with ⟨leftVersion, leftLockTime, leftInputs, leftOutputs⟩
  rcases right with ⟨rightVersion, rightLockTime, rightInputs, rightOutputs⟩
  cases sameVersion
  cases inputs.1
  cases outputs.1
  cases lockTimes.1
  exact ⟨rfl, lockTimes.2⟩

theorem serialize_free : PrefixFree {tx | tx.Writable} Transaction.serialize := by
  intro left leftWritable right rightWritable leftRest rightRest equal
  simp only [Transaction.serialize, List.append_assoc] at equal
  have versions := uint32_free _ trivial _ trivial _ _ equal
  exact eq_of_body leftWritable rightWritable versions.1 versions.2

/-- A count that is not zero does not start like the marker. -/
theorem compactSize_ne_marker {count : Nat} (fits : count < 2 ^ 64) (positive : count ≠ 0)
    (rest others : Bytes) : compactSize count ++ rest ≠ 0x00 :: others := by
  intro equal
  have zero : compactSize 0 ++ others = 0x00 :: others := rfl
  have parts := compactSize_free _ fits 0 (by decide) _ _ (equal.trans zero.symm)
  exact positive parts.1

theorem encode_free : PrefixFree {tx | tx.Writable} Transaction.encode := by
  intro left leftWritable right rightWritable leftRest rightRest equal
  simp only [Transaction.encode, List.append_assoc] at equal
  have versions := uint32_free _ trivial _ trivial _ _ equal
  have behind := versions.2
  by_cases leftEmpty : left.input.isEmpty
  · by_cases rightEmpty : right.input.isEmpty
    · rw [if_pos leftEmpty, if_pos rightEmpty, List.append_cancel_left_eq] at behind
      exact eq_of_body leftWritable rightWritable versions.1 behind
    · rw [if_pos leftEmpty, if_neg rightEmpty] at behind
      have positive : right.input.length ≠ 0 := by simpa using rightEmpty
      exact absurd behind.symm
        (compactSize_ne_marker rightWritable.inputs positive _ _)
  · by_cases rightEmpty : right.input.isEmpty
    · rw [if_neg leftEmpty, if_pos rightEmpty] at behind
      have positive : left.input.length ≠ 0 := by simpa using leftEmpty
      exact absurd behind (compactSize_ne_marker leftWritable.inputs positive _ _)
    · rw [if_neg leftEmpty, if_neg rightEmpty] at behind
      exact eq_of_body leftWritable rightWritable versions.1 behind

end Beth
