import Beth.Node.Consensus
import Beth.Node.Mainchain

/-! # The BMM check of a header

The verdict on a header depends on the mainchain blocks around the tip at the
time of the check, and not on the mainchain block the header names. -/

namespace Beth

open Foundation

/-- With the enforcer answering from a mainchain, a header is accepted iff the
other checks pass, its `extraData` has 32 bytes and its hash is recorded in the
tip or one of the 16 nearest ancestors. -/
theorem validateHeader_iff_recorded (consensus : Bip300301Consensus)
    {mainchain : Mainchain} {tip : B256}
    (reports : consensus.enforcer.ReportsCommitments mainchain consensus.sidechainId tip)
    (header : SealedHeader) :
    consensus.validateHeader header = .ok () ↔
      consensus.inner.headerFault header = none ∧
      header.header.extraData.length = 32 ∧
      mainchain.RecordedIn header.hash (mainchain.window 16 tip) := by
  rw [Bip300301Consensus.validateHeader_eq_ok_iff]
  refine and_congr_right fun _ => ?_
  constructor
  · intro accepted
    rcases accepted with ⟨prevMainHash, named, committed⟩
    refine ⟨?_, (EnforcerClient.isCommitted_iff reports _ _).mp committed⟩
    rw [← FixedBytes.tryFrom_eq_some named]
    exact prevMainHash.length_eq
  · intro facts
    rcases facts with ⟨lengthEq, recorded⟩
    exact ⟨⟨_, lengthEq⟩, by simp [FixedBytes.tryFrom, lengthEq],
      (EnforcerClient.isCommitted_iff reports _ _).mpr recorded⟩

/-! ## Checking again later -/

/-- A header accepted at one tip is accepted at a tip some blocks past it
exactly when its hash is recorded in the later tip or one of the 16 nearest
ancestors; so it is while the recording block has not left that window. -/
theorem accepted_later_iff (inner : EthBeaconConsensus) (sidechainId : UInt32)
    (mainchain : Mainchain) (earlier later : Enforcer) (tip laterTip : B256)
    (newer : List B256) (header : SealedHeader)
    (reportsEarlier : earlier.ReportsCommitments mainchain sidechainId tip)
    (reportsLater : later.ReportsCommitments mainchain sidechainId laterTip)
    (descends : mainchain.tree.lineage laterTip = newer ++ mainchain.tree.lineage tip)
    (accepted : Bip300301Consensus.validateHeader
      { inner := inner, enforcer := earlier, sidechainId := sidechainId } header = .ok ()) :
    (Bip300301Consensus.validateHeader
        { inner := inner, enforcer := later, sidechainId := sidechainId } header = .ok () ↔
      mainchain.RecordedIn header.hash (mainchain.window 16 laterTip)) ∧
    ∀ (depth : Nat) (block : B256), (mainchain.tree.lineage tip)[depth]? = some block →
      mainchain.hStar block = some header.hash → newer.length + depth ≤ 16 →
      Bip300301Consensus.validateHeader
        { inner := inner, enforcer := later, sidechainId := sidechainId } header =
          .ok () := by
  have before := (validateHeader_iff_recorded
    { inner := inner, enforcer := earlier, sidechainId := sidechainId }
    reportsEarlier header).mp accepted
  have verdict : Bip300301Consensus.validateHeader
        { inner := inner, enforcer := later, sidechainId := sidechainId } header = .ok () ↔
      mainchain.RecordedIn header.hash (mainchain.window 16 laterTip) := by
    rw [validateHeader_iff_recorded
      { inner := inner, enforcer := later, sidechainId := sidechainId } reportsLater header]
    exact ⟨fun facts => facts.2.2, fun recorded => ⟨before.1, before.2.1, recorded⟩⟩
  refine ⟨verdict, ?_⟩
  intro depth block atDepth records near
  refine verdict.mpr ⟨block, ?_, records⟩
  have atLater : (mainchain.tree.lineage laterTip)[newer.length + depth]? = some block := by
    rw [descends, List.getElem?_append_right (by omega), Nat.add_sub_cancel_left]
    exact atDepth
  apply List.mem_of_getElem? (i := newer.length + depth)
  rw [Mainchain.window, List.getElem?_take_of_lt (by omega)]
  exact atLater

/-- Headers that pass every check of the inner consensus. -/
def EthBeaconConsensus.lenient : EthBeaconConsensus where
  headerFault := fun _ => none
  againstParentFault := fun _ _ => none
  bodyFault := fun _ _ => none
  withdrawalsRootOf := fun _ => .replicate 32 0
  preExecutionFault := fun _ _ => none
  postExecutionFault := fun _ _ _ => none

/-- A mainchain without branches whose block 1 records the hash of ones. -/
def onesMainchain : Mainchain where
  tree := Mainchain.linearTree
  hStar := fun block =>
    if block = Mainchain.linearBlock 1 then some (.replicate 32 1) else none
  events := fun _ => []

/-- A header with the hash of ones that names the mainchain block `mainBlock`. -/
def onesHeader (mainBlock : Nat) : SealedHeader where
  hash := .replicate 32 1
  header :=
    { parentHash := .replicate 32 0
      number := 1
      extraData := (Mainchain.linearBlock mainBlock).bytes
      withdrawalsRoot := none }

def onesConsensus (tip : Nat) : Bip300301Consensus where
  inner := .lenient
  enforcer := onesMainchain.enforcer (Mainchain.linearBlock tip)
  sidechainId := 10

theorem accepted_later_iff_two_blocks :
    (onesConsensus 3).validateHeader (onesHeader 0) = .ok () :=
  (accepted_later_iff .lenient 10 onesMainchain _ _ (Mainchain.linearBlock 2)
    (Mainchain.linearBlock 3) [Mainchain.linearBlock 3] (onesHeader 0)
    (onesMainchain.enforcer_reportsCommitments 10 _)
    (onesMainchain.enforcer_reportsCommitments 10 _) (by decide +kernel)
    (by decide +kernel)).2 1 (Mainchain.linearBlock 1) (by decide +kernel)
    (by decide +kernel) (by decide)

/-- Accepted at the recording block and refused 17 blocks later. -/
theorem accepted_then_refused :
    (onesConsensus 1).validateHeader (onesHeader 0) = .ok () ∧
    Mainchain.linearBlock 1 ∈
      onesMainchain.tree.lineage (Mainchain.linearBlock 18) ∧
    (onesConsensus 18).validateHeader (onesHeader 0) =
      .error (Bip300301Consensus.notCommittedFault (onesHeader 0)
        (Mainchain.linearBlock 0)) := by
  decide +kernel

/-! ## The mainchain block a header names -/

/-- Acceptance binds the reference: the hash is recorded on the tip's branch in
a block that has the named mainchain block as a proper ancestor. -/
def BindsReference (consensus : Bip300301Consensus) (mainchain : Mainchain) (tip : B256)
    (header : SealedHeader) (mainHash : B256) : Prop :=
  consensus.validateHeader header = .ok () →
    ∃ block ∈ mainchain.tree.lineage tip,
      mainchain.hStar block = some header.hash ∧
      mainHash ∈ (mainchain.tree.lineage block).tail

/-- The newest block of the searched window that records a hash. -/
def newestRecording (mainchain : Mainchain) (tip hash : B256) : Option B256 :=
  (mainchain.window 16 tip).find? fun block => mainchain.hStar block = some hash

/-- Every recording block of a branch is the newest one or below it. -/
theorem mem_lineage_newestRecording {mainchain : Mainchain} {tip hash newest block : B256}
    (found : newestRecording mainchain tip hash = some newest)
    (onBranch : block ∈ mainchain.tree.lineage tip)
    (records : mainchain.hStar block = some hash) :
    block ∈ mainchain.tree.lineage newest := by
  rcases List.find?_eq_some_iff_append.mp found with ⟨_, newer, older, windowEq, noneNewer⟩
  have branchEq : mainchain.tree.lineage tip =
      newer ++ newest :: (older ++ (mainchain.tree.lineage tip).drop 17) := by
    conv_lhs => rw [← List.take_append_drop 17 (mainchain.tree.lineage tip)]
    rw [show (mainchain.tree.lineage tip).take 17 = newer ++ newest :: older from windowEq]
    simp
  rw [mainchain.tree.lineage_eq_of_split branchEq]
  rw [branchEq] at onBranch
  rcases List.mem_append.mp onBranch with isNewer | notNewer
  · have notRecording := noneNewer block isNewer
    simp [records] at notRecording
  · exact notNewer

end Beth
