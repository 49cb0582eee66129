import Beth.Properties.BuilderAgreement
import Beth.Properties.BundleContent
import Beth.Properties.SystemCallResults

/-! # Broadcast bundles across branches

A bundle is broadcast before a block is built and cannot be recalled. Along one
branch this is harmless, because the next block of the branch assigns it. On
competing branches a request can be covered by different M6 transactions: they
agree when height and covered requests do, and only when height and indices do. -/

namespace Beth

open Foundation WithdrawalRequestQueue

/-! ## Builds -/

/-- The height a bundle built on this tip commits to. -/
def Tip.childHeight (tip : Tip) : UInt32 := blockHeight (tip.block.header.number + 1)

/-- Some builder that knows the tip broadcasts the bundle when building on it. -/
def Broadcasts (hashes : Hashes) (tip : Tip) (bundle : WithdrawalBundle) : Prop :=
  ∃ (builder : Bip300301PayloadBuilder) (order : HashMapOrder) (context : NextBlockContext),
    tip.KnownTo builder.client ∧
    builder.nextBlockContext hashes order tip.block.hash
      (clampU64 tip.block.header.number) = .ok context ∧
    context.bundle = some bundle

section Builds

variable {hashes : Hashes} {tip : Tip} {bundle : WithdrawalBundle}

theorem Broadcasts.selected (built : Broadcasts hashes tip bundle) (order : HashMapOrder) :
    selectedBundle hashes order tip.world.queue tip.childHeight = some bundle := by
  rcases built with ⟨builder, builderOrder, context, known, contextEq, isBundle⟩
  rw [← isBundle, bundle_of_nextBlockContext known contextEq]
  exact selectedBundle_eq_of_orders hashes order builderOrder _ _

theorem broadcasts_of_selected {order : HashMapOrder} {enforcer : Enforcer} {mainTip : B256}
    (tipKnown : EnforcerClient.chainTip enforcer = .ok mainTip)
    (selected : selectedBundle hashes order tip.world.queue tip.childHeight = some bundle) :
    Broadcasts hashes tip bundle := by
  cases contextEq : (tip.builder enforcer).nextBlockContext hashes order tip.block.hash
      (clampU64 tip.block.header.number) with
  | error failure =>
      rw [Bip300301PayloadBuilder.nextBlockContext, Tip.builder, tipKnown] at contextEq
      cases contextEq
  | ok context =>
      refine ⟨tip.builder enforcer, order, context, tip.knownTo_provider, contextEq, ?_⟩
      rw [bundle_of_nextBlockContext tip.knownTo_provider contextEq]
      exact selected

end Builds

/-! ## Along one branch -/

/-- Every lifecycle call that was made succeeded. -/
def LifecycleCallsSucceed (history : List ExecutedBlock) : Prop :=
  ∀ executed ∈ history, ∀ result ∈ executed.done.lifecycleResult, result.isSuccess

section Branch

variable {hashes : Hashes} {sidechainId : UInt32} {tip next : Tip} {executed : ExecutedBlock}

theorem Extends.settles_of_success (extends_ : Extends hashes sidechainId tip executed next)
    (success : ∀ result ∈ executed.done.lifecycleResult, result.isSuccess) :
    NoConflict tip.world.queue executed.done.outcomes ∧
      Settles (lifecycleCall hashes executed.order tip.world.queue executed.done.outcomes
        executed.height) tip.world.queue next.world.queue := by
  rcases extends_.preExecuted with ⟨mainHash, credited, facts⟩
  have growth := grows_creditDeposits facts.creditedBy
  have lifecycle := reportLifecycle_result facts.updateComputed growth facts.reportedBy
  have noConflict := (lifecycle.1.mp success).2
  have settles := lifecycle.2 success
  rw [extends_.toCalldata_eq] at settles
  have transactions := grows_runUserCode executed.body.transactions executed.done.state
  have whole := (settles.of_grows (lifecycleCall_accepts noConflict) growth).then_grows
    transactions
  rw [extends_.next_eq]
  refine ⟨noConflict, ?_⟩
  simpa [ExecutedBlock.tip] using whole

/-- A request recorded under an m6id. -/
def RecordedUnder (queue : Storage) (m6id : Txid) (index : Nat) : Prop :=
  index < queue.requestCount ∧ (queue.requests index).status ≠ .pending ∧
    (queue.requests index).bundleM6id = m6id

theorem Extends.recordedUnder (extends_ : Extends hashes sidechainId tip executed next)
    (success : ∀ result ∈ executed.done.lifecycleResult, result.isSuccess) {m6id : Txid}
    {index : Nat} (recorded : RecordedUnder tip.world.queue m6id index) :
    RecordedUnder next.world.queue m6id index := by
  have settled := extends_.settles_of_success success
  have accepts : Accepts tip.world.queue (lifecycleCall hashes executed.order
      tip.world.queue executed.done.outcomes executed.height) :=
    lifecycleCall_accepts settled.1
  have kept := settledRequest_recorded accepts recorded.2.1
  rw [RecordedUnder, settled.2.settled index recorded.1]
  exact ⟨recorded.1.trans_le settled.2.count_le, kept.1, kept.2.trans recorded.2.2⟩

/-- The block after a broadcast records the requests of the broadcast bundle. -/
theorem Extends.records_broadcast (extends_ : Extends hashes sidechainId tip executed next)
    (success : ∀ result ∈ executed.done.lifecycleResult, result.isSuccess)
    {bundle : WithdrawalBundle} (built : Broadcasts hashes tip bundle) {index : Nat}
    (member : index ∈ bundle.requestIndices.map UInt64.toNat) :
    RecordedUnder next.world.queue (bundle.m6id hashes) index := by
  have settled := extends_.settles_of_success success
  have heightEq : executed.height = tip.childHeight := by
    rw [ExecutedBlock.height, extends_.number, Tip.childHeight]
  have selected := built.selected executed.order
  rw [← heightEq] at selected
  have bundled : index ∈ (lifecycleCall hashes executed.order tip.world.queue
      executed.done.outcomes executed.height).bundledIndices := by
    rw [lifecycleCall_bundledIndices, selected]
    exact member
  have queued := (lifecycleCall_bundled_pending bundled).1.trans_le (readableCount_le _)
  rw [RecordedUnder, settled.2.settled index queued, settledRequest, if_pos bundled,
    lifecycleCall_newM6id _ _ _ _ _ selected]
  exact ⟨queued.trans_le settled.2.count_le, by simp [Request.bundle], rfl⟩

/-- Later on the branch the requests of a broadcast bundle stay recorded under it. -/
theorem recordedUnder_of_chain {final : Tip} {history : List ExecutedBlock}
    (success : LifecycleCallsSucceed history) (nonempty : history ≠ [])
    {bundle : WithdrawalBundle} (built : Broadcasts hashes tip bundle)
    (chain : Chain hashes sidechainId tip history final) :
    ∀ index ∈ bundle.requestIndices.map UInt64.toNat,
      RecordedUnder final.world.queue (bundle.m6id hashes) index := by
  refine Run.invariant (fun history final => LifecycleCallsSucceed history →
    history ≠ [] → ∀ index ∈ bundle.requestIndices.map UInt64.toNat,
      RecordedUnder final.world.queue (bundle.m6id hashes) index) ?_ ?_ chain success nonempty
  · intro _ nonempty
    exact absurd rfl nonempty
  · intro history state executed next before induction extends_ success _ index member
    have lastSuccess := success executed (by simp)
    cases history with
    | nil =>
        rw [Run.final_eq_of_nil before] at extends_
        exact extends_.records_broadcast lastSuccess built member
    | cons first rest =>
        have recorded := induction
          (fun other otherMem => success other (List.mem_append_left _ otherMem)) (by simp)
          index member
        exact extends_.recordedUnder lastSuccess recorded

/-- What a build broadcasts is pending at its parent. -/
theorem Broadcasts.pending {bundle : WithdrawalBundle} (built : Broadcasts hashes tip bundle)
    {index : Nat} (member : index ∈ bundle.requestIndices.map UInt64.toNat) :
    (tip.world.queue.requests index).status = .pending := by
  have bundles := selectedBundle_bundles (built.selected .insertion)
  exact of_decide_eq_true (mem_indicesWhere.mp (bundles.pending index member)).2

end Branch

/-! ## Across branches -/

/-- The pending requests that a bundle covers. -/
def coveredRequests (pending : List PendingWithdrawal) (bundle : WithdrawalBundle) :
    List PendingWithdrawal :=
  requestsToAny pending (bundle.payouts.map TxOut.scriptPubkey)

section Covering

variable {pending : List PendingWithdrawal} {paid : List Bytes}

theorem requestsTo_requestsToAny {btcDestination : Bytes} (member : btcDestination ∈ paid) :
    requestsTo (requestsToAny pending paid) btcDestination =
      requestsTo pending btcDestination := by
  rw [requestsTo, requestsToAny, List.filter_filter]
  apply List.filter_congr
  intro request _
  by_cases toIt : request.btcDestination = btcDestination
  · simp [toIt, member]
  · simp [toIt]

theorem totalTo_requestsToAny {btcDestination : Bytes} (member : btcDestination ∈ paid) :
    totalTo (requestsToAny pending paid) btcDestination = totalTo pending btcDestination := by
  simp only [totalTo, valueTo, feeTo, requestsTo_requestsToAny member]

/-- Only the covered requests enter a bundle. -/
theorem bundlePaying_requestsToAny (hashes : Hashes) (blockHeight : UInt32) :
    bundlePaying (requestsToAny pending paid) hashes blockHeight paid =
      bundlePaying pending hashes blockHeight paid := by
  have sameSelection : selectionOf (requestsToAny pending paid) paid =
      selectionOf pending paid := by
    have sameIndices : (paid.flatMap fun btcDestination =>
          (requestsTo (requestsToAny pending paid) btcDestination).map
            PendingWithdrawal.index) =
        paid.flatMap fun btcDestination =>
          (requestsTo pending btcDestination).map PendingWithdrawal.index := by
      apply List.flatMap_congr
      intro btcDestination member
      rw [requestsTo_requestsToAny member]
    have sameOutputs : (paid.map fun btcDestination =>
          (totalTo (requestsToAny pending paid) btcDestination).payout) =
        paid.map fun btcDestination => (totalTo pending btcDestination).payout := by
      apply List.map_congr_left
      intro btcDestination member
      rw [totalTo_requestsToAny member]
    have sameFees : paid.map (feeTo (requestsToAny pending paid)) =
        paid.map (feeTo pending) := by
      apply List.map_congr_left
      intro btcDestination member
      rw [feeTo, requestsTo_requestsToAny member, feeTo]
    rw [selectionOf, selectionOf, sameIndices, sameOutputs, sameFees]
  rw [bundlePaying, bundlePaying, sameSelection]

variable (pending) in
theorem ranked_payees :
    Ranked (RanksBefore (requestsToAny pending (payees pending))) (payees pending) := by
  have ranked : Ranked (RanksBefore pending) (payees pending) :=
    (ranked_sizedDestinations pending).sublist
      (longestFitting_payees pending).isPrefix.sublist
  apply List.Pairwise.imp_of_mem _ ranked
  intro left right leftMem rightMem strict
  simpa only [RanksBefore, totalTo_requestsToAny leftMem, totalTo_requestsToAny rightMem]
    using strict

theorem mem_payees_iff_covered (btcDestination : Bytes) :
    btcDestination ∈ payees pending ↔
      ∃ request ∈ requestsToAny pending (payees pending),
        request.btcDestination = btcDestination := by
  constructor
  · intro paid
    rcases ((mem_sizedDestinations pending _).mp (payees_subset pending paid)).1 with
      ⟨request, member, toIt⟩
    exact ⟨request, List.mem_filter.mpr ⟨member, by simpa [toIt] using paid⟩, toIt⟩
  · intro covered
    rcases covered with ⟨request, member, toIt⟩
    rw [← toIt]
    simpa using (List.mem_filter.mp member).2

/-- Selections that cover the same requests pay the same destinations in the
same order. -/
theorem payees_eq_of_covered {left right : List PendingWithdrawal}
    (covered : (requestsToAny left (payees left)).Perm (requestsToAny right (payees right))) :
    payees left = payees right := by
  have leftRanked := ranked_payees left
  rw [ranksBefore_perm covered] at leftRanked
  apply leftRanked.eq_of_perm (ranked_payees right)
  rw [List.perm_ext_iff_of_nodup (payees_nodup left) (payees_nodup right)]
  intro btcDestination
  rw [mem_payees_iff_covered, mem_payees_iff_covered]
  simp only [covered.mem_iff]

end Covering

section Branches

variable {hashes : Hashes} {left right : Tip} {leftBundle rightBundle : WithdrawalBundle}

/-- Height and covered requests determine the bundle. -/
theorem Broadcasts.eq_of_covered (leftBuilt : Broadcasts hashes left leftBundle)
    (rightBuilt : Broadcasts hashes right rightBundle)
    (sameHeight : left.childHeight = right.childHeight)
    (covered : (coveredRequests (readPendingWithdrawals left.world.queue) leftBundle).Perm
      (coveredRequests (readPendingWithdrawals right.world.queue) rightBundle)) :
    leftBundle = rightBundle := by
  have leftEq := ((selectWithdrawalBundle_eq_some_iff _).mp (leftBuilt.selected .insertion)).2
  have rightEq := ((selectWithdrawalBundle_eq_some_iff _).mp (rightBuilt.selected .insertion)).2
  rw [← leftEq, ← rightEq, coveredRequests, coveredRequests, scripts_bundlePaying,
    scripts_bundlePaying] at covered
  rw [← leftEq, ← rightEq, sameHeight, ← bundlePaying_requestsToAny,
    bundlePaying_perm covered, payees_eq_of_covered covered, bundlePaying_requestsToAny]

/-- The transaction determines height and indices, as far as its commitment does. -/
theorem Broadcasts.commitment_eq (leftBuilt : Broadcasts hashes left leftBundle)
    (rightBuilt : Broadcasts hashes right rightBundle)
    (noCollision : requestsCommitment hashes leftBundle.requestIndices left.childHeight =
        requestsCommitment hashes rightBundle.requestIndices right.childHeight →
      requestsCommitmentPreimage leftBundle.requestIndices left.childHeight =
        requestsCommitmentPreimage rightBundle.requestIndices right.childHeight)
    (sameTx : leftBundle.tx = rightBundle.tx) :
    left.childHeight = right.childHeight ∧
      leftBundle.requestIndices = rightBundle.requestIndices := by
  have leftCommits := (selectedBundle_bundles (leftBuilt.selected .insertion)).commitment
  have rightCommits := (selectedBundle_bundles (rightBuilt.selected .insertion)).commitment
  rw [sameTx, rightCommits] at leftCommits
  have sameScript := congrArg TxOut.scriptPubkey (Option.some.inj leftCommits)
  have sameDigest := FixedBytes.ext (List.cons.inj (List.cons.inj sameScript).2).2
  have same := requestsCommitmentPreimage_injective (noCollision sameDigest.symm)
  exact ⟨same.2, same.1⟩

end Branches

/-- Two builds that broadcast one request: on one branch it is the same build's
bundle, recorded as such by every later block. On competing branches the two
transactions agree when height and covered requests do, and only when height
and indices do. -/
theorem broadcasts_of_one_request (hashes : Hashes) (left right : Tip)
    (leftBundle rightBundle : WithdrawalBundle)
    (leftBuilt : Broadcasts hashes left leftBundle)
    (rightBuilt : Broadcasts hashes right rightBundle)
    (noCollision : requestsCommitment hashes leftBundle.requestIndices left.childHeight =
        requestsCommitment hashes rightBundle.requestIndices right.childHeight →
      requestsCommitmentPreimage leftBundle.requestIndices left.childHeight =
        requestsCommitmentPreimage rightBundle.requestIndices right.childHeight) :
    (∀ sidechainId history, Chain hashes sidechainId left history right →
      LifecycleCallsSucceed history →
      (history ≠ [] → ∀ index ∈ leftBundle.requestIndices,
        RecordedUnder right.world.queue (leftBundle.m6id hashes) index.toNat) ∧
      ∀ index ∈ leftBundle.requestIndices, index ∈ rightBundle.requestIndices →
        left = right ∧ leftBundle.tx = rightBundle.tx) ∧
    (left.childHeight = right.childHeight →
      (coveredRequests (readPendingWithdrawals left.world.queue) leftBundle).Perm
        (coveredRequests (readPendingWithdrawals right.world.queue) rightBundle) →
      leftBundle.tx = rightBundle.tx) ∧
    (leftBundle.tx = rightBundle.tx →
      left.childHeight = right.childHeight ∧
        leftBundle.requestIndices = rightBundle.requestIndices) := by
  refine ⟨?_, ?_, leftBuilt.commitment_eq rightBuilt noCollision⟩
  · intro sidechainId history chain success
    have recorded : history ≠ [] → ∀ index ∈ leftBundle.requestIndices,
        RecordedUnder right.world.queue (leftBundle.m6id hashes) index.toNat := by
      intro nonempty index member
      exact recordedUnder_of_chain success nonempty leftBuilt chain index.toNat
        (List.mem_map_of_mem member)
    refine ⟨recorded, ?_⟩
    intro index inLeft inRight
    cases history with
    | nil =>
        have sameTip := Run.final_eq_of_nil chain
        subst sameTip
        have same := leftBuilt.selected .insertion
        rw [rightBuilt.selected .insertion] at same
        exact ⟨rfl, congrArg WithdrawalBundle.tx (Option.some.inj same).symm⟩
    | cons executed rest =>
        have notPending := (recorded (by simp) index inLeft).2.1
        exact absurd (rightBuilt.pending (List.mem_map_of_mem inRight)) notPending
  · intro sameHeight covered
    rw [leftBuilt.eq_of_covered rightBuilt sameHeight covered]

/-! Two blocks on genesis with the request of the recipient of the deposit. The
second one carries a further request. -/

/-- The digests of the bundles selected on the two blocks. -/
def forkHashes : Hashes where
  keccak256 := fun preimage =>
    if preimage.length = 12 then withdrawalHashes.keccak256 preimage
    else ⟨
      [ 0xa7, 0x1c, 0x65, 0x74, 0xb5, 0xea, 0x8c, 0x9e,
        0xe3, 0xcd, 0x9f, 0x5e, 0xc0, 0xc7, 0xa7, 0x94,
        0xa3, 0x04, 0xde, 0x06, 0x9e, 0x83, 0xe7, 0xb2,
        0x45, 0x76, 0x1e, 0xde, 0x19, 0x60, 0x0f, 0xcb],
      rfl⟩
  computeTxid := fun tx =>
    if tx.output.length = 3 then withdrawalHashes.computeTxid tx
    else ⟨
      [ 0x19, 0x08, 0x55, 0x66, 0x90, 0xfd, 0x3a, 0xf5,
        0x5f, 0x5e, 0xa8, 0xc5, 0x33, 0x9c, 0xe3, 0x96,
        0xe8, 0x2f, 0x47, 0xa6, 0x97, 0x71, 0xdf, 0x48,
        0x23, 0x44, 0x71, 0xdc, 0x98, 0xd2, 0x1e, 0xbe],
      rfl⟩

def twiceRequestingProposal (enforcer : Enforcer) : Proposal :=
  { Proposal.empty (.replicate 32 2) (Mainchain.linearBlock 1) enforcer with
    body :=
      { transactions :=
          [.requestWithdrawal (.replicate 20 0x11) (3 * weiPerSat) (List.replicate 22 0xaa) 1,
            .requestWithdrawal (.replicate 20 0x11) (2 * weiPerSat) (List.replicate 22 0xbb) 1]
        withdrawals := some [] } }

/-- A block on genesis and the bundle broadcast when building on it. -/
structure BuiltOnGenesis (requestIndices : List UInt64) (tip : Tip)
    (bundle : WithdrawalBundle) : Prop where
  chain : ∃ history, Chain forkHashes 10 (.genesis (.replicate 32 0) none) history tip ∧
    LifecycleCallsSucceed history
  built : Broadcasts forkHashes tip bundle
  indices : bundle.requestIndices = requestIndices
  height : tip.childHeight = 2
  request : tip.world.queue.requests 0 =
    { requester := .replicate 20 0x11
      valueSats := 2
      mainFeeSats := 1
      btcDestination := List.replicate 22 0xaa
      status := .pending
      bundleM6id := .replicate 32 0
      fits := by decide }

theorem exists_builtOnGenesis (proposal : Enforcer → Proposal) (requestIndices : List UInt64)
    (executes : Meets (executeAll forkHashes 10 (.genesis (.replicate 32 0) none)
        [proposal ((withdrawalMainchain depositAtBlockOne).enforcer (Mainchain.linearBlock 1))])
      (fun result => (∀ executed ∈ result.1, ∀ outcome ∈ executed.done.lifecycleResult,
          outcome.isSuccess) ∧
        (selectedBundle forkHashes .insertion result.2.world.queue
          result.2.childHeight).map WithdrawalBundle.requestIndices = some requestIndices ∧
        result.2.childHeight = 2 ∧
        result.2.world.queue.requests 0 =
          { requester := .replicate 20 0x11
            valueSats := 2
            mainFeeSats := 1
            btcDestination := List.replicate 22 0xaa
            status := .pending
            bundleM6id := .replicate 32 0
            fits := by decide })
      fun _ => False) :
    ∃ tip bundle, BuiltOnGenesis requestIndices tip bundle := by
  rcases executes.exists_ok (fun _ failed => failed) with
    ⟨result, resultEq, success, selected, height, request⟩
  rcases Option.map_eq_some_iff.mp selected with ⟨bundle, bundleEq, indices⟩
  have tipKnown : EnforcerClient.chainTip ((withdrawalMainchain depositAtBlockOne).enforcer
      (Mainchain.linearBlock 1)) = .ok (Mainchain.linearBlock 1) := by
    decide +kernel
  exact ⟨result.2, bundle,
    { chain := ⟨result.1, (chain_of_executeAll resultEq).1, success⟩
      built := broadcasts_of_selected tipKnown bundleEq
      indices := indices
      height := height
      request := request }⟩

theorem siblings_noCollision {left right : Tip} {leftBundle rightBundle : WithdrawalBundle}
    (leftFacts : BuiltOnGenesis [0] left leftBundle)
    (rightFacts : BuiltOnGenesis [0, 1] right rightBundle) :
    requestsCommitment forkHashes leftBundle.requestIndices left.childHeight =
        requestsCommitment forkHashes rightBundle.requestIndices right.childHeight →
      requestsCommitmentPreimage leftBundle.requestIndices left.childHeight =
        requestsCommitmentPreimage rightBundle.requestIndices right.childHeight := by
  rw [leftFacts.indices, rightFacts.indices, leftFacts.height, rightFacts.height]
  decide +kernel

theorem broadcasts_of_one_request_siblings :
    ∃ left right leftBundle rightBundle,
      Broadcasts forkHashes left leftBundle ∧ Broadcasts forkHashes right rightBundle ∧
      left.childHeight = right.childHeight ∧ ¬ leftBundle.tx = rightBundle.tx := by
  rcases exists_builtOnGenesis requestingProposal [0] (by decide +kernel) with
    ⟨left, leftBundle, leftFacts⟩
  rcases exists_builtOnGenesis twiceRequestingProposal [0, 1] (by decide +kernel) with
    ⟨right, rightBundle, rightFacts⟩
  have noCollision := siblings_noCollision leftFacts rightFacts
  have apart := (broadcasts_of_one_request forkHashes left right leftBundle rightBundle
    leftFacts.built rightFacts.built noCollision).2.2
  refine ⟨left, right, leftBundle, rightBundle, leftFacts.built, rightFacts.built,
    leftFacts.height.trans rightFacts.height.symm, ?_⟩
  intro sameTx
  have sameIndices := (apart sameTx).2
  rw [leftFacts.indices, rightFacts.indices] at sameIndices
  simp at sameIndices

/-- The same request is broadcast in two different transactions. -/
theorem siblings_broadcast_apart :
    ∃ leftHistory rightHistory left right leftBundle rightBundle,
      Chain forkHashes 10 (.genesis (.replicate 32 0) none) leftHistory left ∧
      Chain forkHashes 10 (.genesis (.replicate 32 0) none) rightHistory right ∧
      LifecycleCallsSucceed leftHistory ∧ LifecycleCallsSucceed rightHistory ∧
      Broadcasts forkHashes left leftBundle ∧ Broadcasts forkHashes right rightBundle ∧
      0 ∈ leftBundle.requestIndices ∧ 0 ∈ rightBundle.requestIndices ∧
      (left.world.queue.requests 0).SameWithdrawal (right.world.queue.requests 0) ∧
      leftBundle.tx ≠ rightBundle.tx := by
  rcases exists_builtOnGenesis requestingProposal [0] (by decide +kernel) with
    ⟨left, leftBundle, leftFacts⟩
  rcases exists_builtOnGenesis twiceRequestingProposal [0, 1] (by decide +kernel) with
    ⟨right, rightBundle, rightFacts⟩
  rcases leftFacts.chain with ⟨leftHistory, leftChain, leftSuccess⟩
  rcases rightFacts.chain with ⟨rightHistory, rightChain, rightSuccess⟩
  refine ⟨leftHistory, rightHistory, left, right, leftBundle, rightBundle, leftChain,
    rightChain, leftSuccess, rightSuccess, leftFacts.built, rightFacts.built, ?_, ?_, ?_, ?_⟩
  · simp [leftFacts.indices]
  · simp [rightFacts.indices]
  · rw [leftFacts.request, rightFacts.request]
    exact .refl _
  · intro sameTx
    have noCollision := siblings_noCollision leftFacts rightFacts
    have sameIndices := (leftFacts.built.commitment_eq rightFacts.built noCollision sameTx).2
    rw [leftFacts.indices, rightFacts.indices] at sameIndices
    simp at sameIndices

end Beth
