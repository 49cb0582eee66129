import Beth.Properties.BroadcastBundles
import Beth.Properties.FeeMonotonicity
import Beth.Properties.OversizedDestinations

/-! # Draining the queue

Every block that assigns a bundle takes at least one destination off the queue with
all its pending requests. The destinations waiting are counted along a chain: blocks
that assign a bundle are paid for by the backlog and by the requests queued meanwhile,
and a queue that gets no further requests is emptied. -/

namespace Beth

open Foundation WithdrawalRequestQueue

/-! ## The backlog -/

/-- The destinations of the pending requests. -/
def pendingDestinations (queue : Storage) : Finset Bytes :=
  ((pendingIndices queue).map fun index => (queue.requests index).btcDestination).toFinset

/-- How many destinations wait for a bundle. -/
def backlog (queue : Storage) : Nat := (pendingDestinations queue).card

theorem mem_pendingDestinations {queue : Storage} {btcDestination : Bytes} :
    btcDestination ∈ pendingDestinations queue ↔
      ∃ index ∈ pendingIndices queue, (queue.requests index).btcDestination = btcDestination := by
  simp [pendingDestinations]

theorem exists_pending_iff {queue : Storage} {btcDestination : Bytes} :
    (∃ request ∈ readPendingWithdrawals queue, request.btcDestination = btcDestination) ↔
      btcDestination ∈ pendingDestinations queue := by
  rw [readPendingWithdrawals_eq, mem_pendingDestinations]
  simp [pendingEntry]

theorem pendingIndices_eq_nil_iff {queue : Storage} :
    pendingIndices queue = [] ↔ backlog queue = 0 := by
  rw [backlog, Finset.card_eq_zero, pendingDestinations, List.toFinset_eq_empty_iff,
    List.map_eq_nil_iff]

/-- The destinations that the next block takes off the queue. -/
def nextPayees (queue : Storage) : List Bytes := payees (readPendingWithdrawals queue)

theorem nextPayees_subset (queue : Storage) :
    (nextPayees queue).toFinset ⊆ pendingDestinations queue := by
  intro btcDestination paid
  have offered := payees_subset _ (List.mem_toFinset.mp paid)
  exact exists_pending_iff.mp ((mem_sizedDestinations _ _).mp offered).1

/-- Where everything that waits fits in a bundle of its own, something is paid. -/
theorem nextPayees_ne_nil {queue : Storage} (waiting : 0 < backlog queue)
    (fits : ∀ btcDestination ∈ pendingDestinations queue, FitsAlone btcDestination) :
    nextPayees queue ≠ [] := by
  intro nothing
  rcases Finset.card_pos.mp waiting with ⟨btcDestination, waits⟩
  have offered : btcDestination ∈ sizedDestinations (readPendingWithdrawals queue) :=
    (mem_sizedDestinations _ _).mpr
      ⟨exists_pending_iff.mpr waits, (fits btcDestination waits).sized⟩
  cases sizedEq : sizedDestinations (readPendingWithdrawals queue) with
  | nil =>
      rw [sizedEq] at offered
      cases offered
  | cons head rest =>
      have headOffered : head ∈ sizedDestinations (readPendingWithdrawals queue) := by
        simp [sizedEq]
      have headSized := (mem_sizedDestinations _ _).mp headOffered
      have headFits := fits head (exists_pending_iff.mp headSized.1)
      apply (payees_eq_nil_iff _).mp nothing head
      · rw [sizedEq]
        rfl
      · exact (fitsAlone_iff headSized.2).mp headFits

/-- The call of the next block bundles all pending requests to a destination it pays. -/
theorem mem_bundledIndices_of_paid (hashes : Hashes) (order : HashMapOrder) {queue : Storage}
    (outcomes : List WithdrawalBundleOutcome) (blockHeight : UInt32) {index : Nat}
    (isPending : index ∈ pendingIndices queue)
    (paid : (queue.requests index).btcDestination ∈ nextPayees queue) :
    index ∈ (lifecycleCall hashes order queue outcomes blockHeight).bundledIndices := by
  have listed : pendingEntry queue index ∈ readPendingWithdrawals queue := by
    rw [readPendingWithdrawals_eq]
    exact List.mem_map_of_mem isPending
  have included : ∃ bundle, selectedBundle hashes order queue blockHeight = some bundle ∧
      bundle.Includes (pendingEntry queue index) := (exists_includes_iff listed).mpr paid
  rcases included with ⟨bundle, selected, includes⟩
  rw [lifecycleCall_bundledIndices, selected]
  apply List.mem_map.mpr
  exact ⟨_, includes.consumed, readEntry_index_toNat (mem_indicesWhere.mp isPending).1⟩

/-! ## One block -/

section Block

variable {hashes : Hashes} {sidechainId : UInt32} {tip next : Tip} {executed : ExecutedBlock}

/-- The destinations of the requests queued by a block. -/
def newDestinations (tip next : Tip) : Finset Bytes :=
  (Finset.Ico tip.world.queue.requestCount next.world.queue.requestCount).image
    fun index => (next.world.queue.requests index).btcDestination

/-- What waits after a block either waited before and was not paid, or is new. -/
theorem Extends.pendingDestinations_subset
    (extends_ : Extends hashes sidechainId tip executed next)
    (success : ∀ result ∈ executed.done.lifecycleResult, result.isSuccess) :
    pendingDestinations next.world.queue ⊆
      (pendingDestinations tip.world.queue \ (nextPayees tip.world.queue).toFinset) ∪
        newDestinations tip next := by
  have settled := extends_.settles_of_success success
  have accepts : Accepts tip.world.queue (lifecycleCall hashes executed.order
      tip.world.queue executed.done.outcomes executed.height) :=
    lifecycleCall_accepts settled.1
  intro btcDestination waits
  rcases mem_pendingDestinations.mp waits with ⟨index, isPending, isDestination⟩
  have facts := mem_indicesWhere.mp isPending
  have readable := readableCount_lt next.world.queue
  have pendingAfter := of_decide_eq_true facts.2
  by_cases queued : index < tip.world.queue.requestCount
  · apply Finset.mem_union_left
    have same := settled.2.settled index queued
    have advances := settledRequest_advances accepts index
    rw [← same] at advances
    have pendingBefore : (tip.world.queue.requests index).status = .pending := by
      rcases statusEq : (tip.world.queue.requests index).status
      · rfl
      all_goals
        rw [statusEq, pendingAfter] at advances
        cases advances.2
    have wasPending : index ∈ pendingIndices tip.world.queue := by
      apply mem_indicesWhere.mpr
      exact ⟨lt_readableCount queued (by omega), decide_eq_true pendingBefore⟩
    have sameDestination := advances.1.2.2.2
    rw [isDestination] at sameDestination
    apply Finset.mem_sdiff.mpr
    constructor
    · exact mem_pendingDestinations.mpr ⟨index, wasPending, sameDestination⟩
    · intro paid
      rw [List.mem_toFinset, ← sameDestination] at paid
      have bundled := mem_bundledIndices_of_paid hashes executed.order executed.done.outcomes
        executed.height wasPending paid
      rw [settledRequest, if_pos bundled] at same
      rw [same] at pendingAfter
      cases pendingAfter
  · apply Finset.mem_union_right
    apply Finset.mem_image.mpr
    refine ⟨index, ?_, isDestination⟩
    exact Finset.mem_Ico.mpr ⟨Nat.not_lt.mp queued, facts.1.trans_le (readableCount_le _)⟩

/-- A block takes its payees off the backlog and adds at most its new requests. -/
theorem Extends.backlog_le (extends_ : Extends hashes sidechainId tip executed next)
    (success : ∀ result ∈ executed.done.lifecycleResult, result.isSuccess) :
    backlog next.world.queue + (nextPayees tip.world.queue).length +
        tip.world.queue.requestCount ≤
      backlog tip.world.queue + next.world.queue.requestCount := by
  have paid : (nextPayees tip.world.queue).toFinset.card =
      (nextPayees tip.world.queue).length := List.toFinset_card_of_nodup (payees_nodup _)
  have kept := Finset.card_sdiff_add_card_eq_card (nextPayees_subset tip.world.queue)
  have new : (newDestinations tip next).card ≤
      next.world.queue.requestCount - tip.world.queue.requestCount := by
    apply Finset.card_image_le.trans
    rw [Nat.card_Ico]
  have waiting := (Finset.card_le_card (extends_.pendingDestinations_subset success)).trans
    (Finset.card_union_le _ _)
  have counts := extends_.requestCount_le
  unfold backlog
  omega

/-- A block assigns a bundle exactly when it pays something. -/
theorem Extends.bundle_isSome_iff (extends_ : Extends hashes sidechainId tip executed next) :
    (executed.bundle hashes).isSome ↔ nextPayees tip.world.queue ≠ [] := by
  rw [extends_.bundle_eq, Option.isSome_iff_ne_none, selectedBundle, Ne,
    selectWithdrawalBundle_eq_none_iff]
  rfl

end Block

/-! ## Chains -/

/-- The blocks that assign a bundle. -/
def bundlingBlocks (hashes : Hashes) (history : List ExecutedBlock) : List ExecutedBlock :=
  history.filter fun executed => (executed.bundle hashes).isSome

section Chains

variable {hashes : Hashes} {sidechainId : UInt32} {start final : Tip}
  {history : List ExecutedBlock}

theorem requestCount_le_of_chain (chain : Chain hashes sidechainId start history final) :
    start.world.queue.requestCount ≤ final.world.queue.requestCount := by
  induction chain with
  | start => exact le_rfl
  | extend _ extends_ induction => exact induction.trans extends_.requestCount_le

theorem bundlingBlocks_le (chain : Chain hashes sidechainId start history final)
    (success : LifecycleCallsSucceed history) :
    (bundlingBlocks hashes history).length +
        backlog final.world.queue + start.world.queue.requestCount ≤
      backlog start.world.queue + final.world.queue.requestCount := by
  induction chain with
  | start => simp [bundlingBlocks]
  | @extend history tip executed next earlier extends_ induction =>
      have before := induction
        fun other member => success other (List.mem_append_left _ member)
      have step := extends_.backlog_le (success executed (by simp))
      have counts := extends_.requestCount_le
      rw [bundlingBlocks, List.filter_append, List.length_append, List.filter_singleton,
        Bool.cond_eq_ite]
      rw [bundlingBlocks] at before
      by_cases assigns : (executed.bundle hashes).isSome
      · have pays := List.length_pos_iff.mpr (extends_.bundle_isSome_iff.mp assigns)
        rw [if_pos assigns, List.length_singleton]
        omega
      · rw [if_neg assigns, List.length_nil]
        omega

/-- With no request queued meanwhile, the backlog shrinks block by block until nothing
waits. -/
theorem backlog_shrinks (chain : Chain hashes sidechainId start history final)
    (success : LifecycleCallsSucceed history)
    (noneQueued : final.world.queue.requestCount = start.world.queue.requestCount)
    (fits : ∀ btcDestination ∈ pendingDestinations start.world.queue,
      FitsAlone btcDestination) :
    pendingDestinations final.world.queue ⊆ pendingDestinations start.world.queue ∧
      (backlog final.world.queue = 0 ∨
        history.length + backlog final.world.queue ≤ backlog start.world.queue) := by
  induction chain with
  | start => exact ⟨Finset.Subset.refl _, Or.inr (by simp)⟩
  | @extend history tip executed next earlier extends_ induction =>
      have counts := extends_.requestCount_le
      have earlierCounts := requestCount_le_of_chain earlier
      have before := induction
        (fun other member => success other (List.mem_append_left _ member)) (by omega)
      have lastSuccess := success executed (by simp)
      have step := extends_.backlog_le lastSuccess
      have nothingNew : newDestinations tip next = ∅ := by
        rw [newDestinations, Finset.Ico_eq_empty_of_le (by omega), Finset.image_empty]
      have waiting := extends_.pendingDestinations_subset lastSuccess
      rw [nothingNew, Finset.union_empty] at waiting
      have stillWaiting := waiting.trans Finset.sdiff_subset
      refine ⟨stillWaiting.trans before.1, ?_⟩
      by_cases idle : backlog tip.world.queue = 0
      · left
        omega
      · have pays := List.length_pos_iff.mpr (nextPayees_ne_nil (Nat.pos_of_ne_zero idle)
          fun btcDestination waits => fits btcDestination (before.1 waits))
        right
        rw [List.length_append, List.length_singleton]
        omega

end Chains

/-- Along a chain whose lifecycle calls succeed, the blocks that assign a bundle are at
most the backlog at its start and the requests queued meanwhile. Where no request is
queued meanwhile and every destination that waits fits in a bundle of its own, nothing
is pending after as many blocks as there were destinations. -/
theorem queue_drains (hashes : Hashes) (sidechainId : UInt32) (start final : Tip)
    (history : List ExecutedBlock) (chain : Chain hashes sidechainId start history final)
    (success : LifecycleCallsSucceed history) :
    (bundlingBlocks hashes history).length +
          backlog final.world.queue + start.world.queue.requestCount ≤
        backlog start.world.queue + final.world.queue.requestCount ∧
      (final.world.queue.requestCount = start.world.queue.requestCount →
        (∀ btcDestination ∈ pendingDestinations start.world.queue,
          FitsAlone btcDestination) →
        backlog start.world.queue ≤ history.length →
        pendingIndices final.world.queue = []) := by
  refine ⟨bundlingBlocks_le chain success, ?_⟩
  intro noneQueued fits enoughBlocks
  rw [pendingIndices_eq_nil_iff]
  rcases (backlog_shrinks chain success noneQueued fits).2 with nothing | shrunk
  · exact nothing
  · omega

/-! One request waits at the tip of the first request, and one block takes it. -/

theorem queue_drains_one_request :
    ∃ start final executed,
      Chain withdrawalHashes 10 start [executed] final ∧
      backlog start.world.queue = 1 ∧
      pendingIndices final.world.queue = [] := by
  let enforcer := (withdrawalMainchain depositAtBlockOne).enforcer (Mainchain.linearBlock 2)
  have executes : Meets (do
        let first ← executeAll withdrawalHashes 10 (.genesis (.replicate 32 0) none)
          [requestingProposal enforcer]
        let second ← (Proposal.empty (.replicate 32 2) (Mainchain.linearBlock 2)
          enforcer).execute withdrawalHashes 10 first.2
        pure (first.2, second))
      (fun result => backlog result.1.world.queue = 1 ∧
        result.2.tip.world.queue.requestCount = result.1.world.queue.requestCount ∧
        (∀ btcDestination ∈ pendingDestinations result.1.world.queue,
          FitsAlone btcDestination) ∧
        ∀ called ∈ result.2.done.lifecycleResult, called.isSuccess)
      fun _ => False := by decide +kernel
  rcases executes.exists_ok (fun _ failed => failed) with
    ⟨result, resultEq, waiting, noneQueued, fits, success⟩
  rcases bind_eq_ok.mp resultEq with ⟨first, firstEq, rest⟩
  rcases bind_eq_ok.mp rest with ⟨second, secondEq, resultIs⟩
  cases resultIs
  have chain : Chain withdrawalHashes 10 first.2 [second] second.tip :=
    .extend .start (Proposal.extends_of_execute secondEq).1
  have drained := (queue_drains withdrawalHashes 10 first.2 second.tip [second] chain
    (by simpa [LifecycleCallsSucceed] using success)).2 noneQueued fits (by simp [waiting])
  exact ⟨first.2, second.tip, second, chain, waiting, drained⟩

end Beth
