import Beth.Contracts.StorageLayout
import Beth.Node.WithdrawalBundle.Payees
import Beth.Node.WithdrawalBundle.UniqueEncoding
import Beth.Properties.LifecycleCall

/-! # What an m6id stands for

An m6id is the digest of the serialized M6 transaction, which carries the digest of
the requests and of the height. Hash collisions aside it identifies the whole bundle
and the height it was assigned at, whichever nodes, branches or chains are compared,
and so do the bytes that are broadcast. -/

namespace Beth

open Foundation

/-- `Transaction::compute_txid`: the digest of the serialization. -/
def Hashes.ofDigests (keccak256 : Bytes → B256) (sha256d : Bytes → Txid) : Hashes where
  keccak256 := keccak256
  computeTxid := fun tx => sha256d tx.serialize

/-! ## Bundles can be written -/

theorem length_le_payoutSizes {destinations : List Bytes} {btcDestination : Bytes}
    (member : btcDestination ∈ destinations) :
    btcDestination.length ≤ payoutSizes destinations := by
  have single : payoutSize btcDestination.length ≤ payoutSizes destinations :=
    List.le_sum_of_mem (List.mem_map_of_mem member)
  unfold payoutSize at single
  omega

theorem length_mainchainFeeTxout (totalMainFeeSats : UInt64) :
    (mainchainFeeTxout totalMainFeeSats).scriptPubkey.length = 10 := by
  rw [mainchainFeeTxout, length_opReturnScript, length_toBeBytes]

theorem length_requestsCommitmentTxout (commitment : B256) :
    (requestsCommitmentTxout commitment).scriptPubkey.length = 34 := by
  rw [requestsCommitmentTxout, length_opReturnScript, commitment.length_eq]

/-- The counts and lengths of a bundle within the standard weight are small. -/
theorem writable_of_selected {hashes : Hashes} {order : HashMapOrder}
    {pending : List PendingWithdrawal} {blockHeight : UInt32} {bundle : WithdrawalBundle}
    (selected : selectWithdrawalBundle hashes order pending blockHeight = some bundle) :
    bundle.tx.Writable := by
  have small := (longestFitting_payees pending).fits.small
  rcases (selectWithdrawalBundle_eq_some_iff pending).mp selected with ⟨_, isBundle⟩
  subst isBundle
  constructor
  · exact Nat.two_pow_pos 64
  · exact fun txIn member => absurd member List.not_mem_nil
  · change ((selectionOf pending (payees pending)).bundleOutputs.length + 1 + 1) < 2 ^ 64
    rw [selectionOf, List.length_map]
    omega
  · intro txOut member
    rcases List.mem_cons.mp member with isFee | others
    · rw [isFee, length_mainchainFeeTxout]
      decide
    · rcases List.mem_cons.mp others with isCommitment | isPayout
      · rw [isCommitment, length_requestsCommitmentTxout]
        decide
      · rcases List.mem_map.mp isPayout with ⟨btcDestination, paid, isTxOut⟩
        have short := length_le_payoutSizes paid
        rw [← isTxOut]
        change btcDestination.length < _
        omega

theorem writable_of_chain {hashes : Hashes} {sidechainId : UInt32} {start final : Tip}
    {history : List ExecutedBlock} (chain : Chain hashes sidechainId start history final) :
    ∀ assignment ∈ assignments hashes history, assignment.bundle.tx.Writable := by
  induction chain with
  | start => simp [assignments]
  | extend earlier extends_ induction =>
      intro assignment member
      rw [assignments_append] at member
      rcases List.mem_append.mp member with before | new
      · exact induction assignment before
      · rcases Option.map_eq_some_iff.mp (Option.mem_toList.mp new) with
          ⟨bundle, selected, isAssignment⟩
        rw [← isAssignment]
        exact writable_of_selected selected

/-! ## Bundles that share an m6id -/

/-- Two assigned bundles have the same m6id, and are broadcast as the same bytes, only
when they are the same bundle at the same height, as long as the hash functions do not
collide on what these two hash. -/
theorem m6id_identifies_bundle (keccak256 : Bytes → B256) (sha256d : Bytes → Txid)
    (leftSidechain rightSidechain : UInt32) (leftStart rightStart leftFinal rightFinal : Tip)
    (leftHistory rightHistory : List ExecutedBlock)
    (leftChain : Chain (.ofDigests keccak256 sha256d) leftSidechain leftStart leftHistory
      leftFinal)
    (rightChain : Chain (.ofDigests keccak256 sha256d) rightSidechain rightStart rightHistory
      rightFinal)
    (left right : Assignment)
    (leftMember : left ∈ assignments (.ofDigests keccak256 sha256d) leftHistory)
    (rightMember : right ∈ assignments (.ofDigests keccak256 sha256d) rightHistory)
    (noDigestCollision : sha256d left.bundle.tx.serialize =
      sha256d right.bundle.tx.serialize →
        left.bundle.tx.serialize = right.bundle.tx.serialize)
    (noCommitmentCollision : keccak256 left.preimage = keccak256 right.preimage →
      left.preimage = right.preimage) :
    (left.m6id (.ofDigests keccak256 sha256d) = right.m6id (.ofDigests keccak256 sha256d) ↔
      left = right) ∧
    (left.bundle.tx.encode = right.bundle.tx.encode ↔ left = right) := by
  have leftWritable := writable_of_chain leftChain left leftMember
  have rightWritable := writable_of_chain rightChain right rightMember
  have sameBundle (sameTx : left.bundle.tx = right.bundle.tx) : left = right := by
    have leftCommits := commits_of_chain leftChain left leftMember
    have rightCommits := commits_of_chain rightChain right rightMember
    rw [Assignment.Commits, sameTx] at leftCommits
    have sameOutput := Option.some.inj (leftCommits.symm.trans rightCommits)
    have sameScript := congrArg TxOut.scriptPubkey sameOutput
    have sameDigest : keccak256 left.preimage = keccak256 right.preimage :=
      FixedBytes.ext (List.cons.inj (List.cons.inj sameScript).2).2
    have sameCommitted := requestsCommitmentPreimage_injective
      (noCommitmentCollision sameDigest)
    rcases left with ⟨⟨leftIndices, leftTx⟩, leftHeight⟩
    rcases right with ⟨⟨rightIndices, rightTx⟩, rightHeight⟩
    cases sameTx
    cases sameCommitted.1
    cases sameCommitted.2
    rfl
  constructor
  · constructor
    · intro sameM6id
      exact sameBundle (serialize_free.injOn leftWritable rightWritable
        (noDigestCollision sameM6id))
    · intro same
      rw [same]
  · constructor
    · intro sameBytes
      exact sameBundle (encode_free.injOn leftWritable rightWritable sameBytes)
    · intro same
      rw [same]

/-! The same request, bundled at height 2 on one branch and at height 3 on another. -/

def branchKeccak256 : Bytes → B256 := digestOf
  [(toBeBytes 12 2, 0xdeac3e31a8d9e021d4f80e33324724bdd8e6e1ab45256f05fa93be0309e509e9),
    (toBeBytes 12 3, 0x0b7efa94f08799a48a839cafd05791fec4fc78096522f12fd71a37cd3c115fe0)]

/-- The M6 transaction of the request at a height. -/
def branchBundle (height : UInt32) : WithdrawalBundle :=
  buildWithdrawalBundle { Hashes.unused with keccak256 := branchKeccak256 } height 1 [0]
    [{ value := 2, scriptPubkey := List.replicate 22 0xaa }]

def branchSha256d : Bytes → Txid := digestOf
  [((branchBundle 2).tx.serialize,
      0x03ccb683d7f9a5ba4661d01cd6172b529022a6dddbd3096a7790a754d5c03da8),
    ((branchBundle 3).tx.serialize,
      0xef412b08b52e9d10c54ecda282811bf474a0ae632cffa14eee8fba8c68f256c1)]

def branchHashes : Hashes := .ofDigests branchKeccak256 branchSha256d

def branchProposals (requestingAt : Nat) : List Proposal :=
  let enforcer := (withdrawalMainchain depositAtBlockOne).enforcer (Mainchain.linearBlock 3)
  let idle (number : Nat) : Proposal :=
    .empty (.replicate 32 (UInt8.ofNat number)) (Mainchain.linearBlock number) enforcer
  (List.range (requestingAt + 1)).map fun earlier =>
    if earlier + 1 = requestingAt then
      { idle (earlier + 1) with body := (requestingProposal enforcer).body }
    else idle (earlier + 1)

/-- A branch assigns one bundle, at the height after the request. -/
theorem exists_branch (requestingAt : Nat) (height : UInt32)
    (executes : Meets (executeAll branchHashes 10 (.genesis (.replicate 32 0) none)
        (branchProposals requestingAt))
      (fun result => (assignments branchHashes result.1).map (fun assignment =>
        (assignment.bundle, assignment.height)) = [(branchBundle height, height)])
      fun _ => False) :
    ∃ history final,
      Chain branchHashes 10 (.genesis (.replicate 32 0) none) history final ∧
      (⟨branchBundle height, height⟩ : Assignment) ∈ assignments branchHashes history := by
  rcases executes.exists_ok (fun _ failed => failed) with ⟨result, executedAll, assigned⟩
  refine ⟨result.1, result.2, (chain_of_executeAll executedAll).1, ?_⟩
  have member : (branchBundle height, height) ∈ (assignments branchHashes result.1).map
      fun assignment => (assignment.bundle, assignment.height) := by
    rw [assigned]
    exact List.mem_singleton_self _
  rcases List.mem_map.mp member with ⟨assignment, inHistory, same⟩
  have isAssignment : assignment = ⟨branchBundle height, height⟩ :=
    congrArg₂ Assignment.mk (congrArg Prod.fst same) (congrArg Prod.snd same)
  exact isAssignment ▸ inHistory

theorem m6id_identifies_bundle_branches :
    (branchBundle 2).requestIndices = (branchBundle 3).requestIndices ∧
      (branchBundle 2).tx.output.drop 2 = (branchBundle 3).tx.output.drop 2 ∧
      (branchBundle 2).m6id branchHashes ≠ (branchBundle 3).m6id branchHashes := by
  rcases exists_branch 1 2 (by decide +kernel) with ⟨_, _, leftChain, leftMember⟩
  rcases exists_branch 2 3 (by decide +kernel) with ⟨_, _, rightChain, rightMember⟩
  have identifies := m6id_identifies_bundle branchKeccak256 branchSha256d 10 10 _ _ _ _ _ _
    leftChain rightChain _ _ leftMember rightMember
    (fun equal => absurd equal (by decide +kernel))
    (fun equal => absurd equal (by decide +kernel))
  refine ⟨rfl, rfl, ?_⟩
  intro sameM6id
  have same := congrArg Assignment.height (identifies.1.mp sameM6id)
  exact absurd same (by decide)

end Beth
