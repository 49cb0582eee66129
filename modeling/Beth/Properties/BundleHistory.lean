import Beth.Chain

/-! # The bundles a chain has assigned

Which bundle a request belongs to is recorded in the queue by its m6id. On
every chain, whatever the outcomes and the results of the system calls, a
request that is no longer pending was put into the bundle it names by an
earlier block. -/

namespace Beth

open Foundation WithdrawalRequestQueue

/-! ## Assigned bundles -/

/-- A bundle with the height it commits to. -/
structure Assignment where
  bundle : WithdrawalBundle
  height : UInt32

namespace Assignment

variable (assignment : Assignment)

def indices : List Nat := assignment.bundle.requestIndices.map UInt64.toNat

def m6id (hashes : Hashes) : Txid := assignment.bundle.m6id hashes

def preimage : Bytes :=
  requestsCommitmentPreimage assignment.bundle.requestIndices assignment.height

/-- The M6 transaction commits to the indices and the height. -/
def Commits (hashes : Hashes) : Prop :=
  assignment.bundle.tx.output[1]? =
    some (requestsCommitmentTxout (hashes.keccak256 assignment.preimage))

end Assignment

def ExecutedBlock.assignment (hashes : Hashes) (executed : ExecutedBlock) :
    Option Assignment :=
  (executed.bundle hashes).map fun bundle =>
    { bundle := bundle
      height := executed.height }

/-- The bundles of a history, oldest first. -/
def assignments (hashes : Hashes) (history : List ExecutedBlock) : List Assignment :=
  history.filterMap (ExecutedBlock.assignment hashes)

theorem assignments_append (hashes : Hashes) (history : List ExecutedBlock)
    (executed : ExecutedBlock) :
    assignments hashes (history ++ [executed]) =
      assignments hashes history ++ (executed.assignment hashes).toList := by
  simp only [assignments, List.filterMap_append, List.filterMap_cons, List.filterMap_nil]
  cases executed.assignment hashes <;> rfl

/-- The two hash functions do not collide on what these bundles hash. -/
structure Hashes.CollisionFree (hashes : Hashes) (assigned : List Assignment) : Prop where
  computeTxid : ∀ left ∈ assigned, ∀ right ∈ assigned,
    left.m6id hashes = right.m6id hashes → left.bundle.tx = right.bundle.tx
  keccak256 : ∀ left ∈ assigned, ∀ right ∈ assigned,
    hashes.keccak256 left.preimage = hashes.keccak256 right.preimage →
      left.preimage = right.preimage

theorem Hashes.CollisionFree.mono {hashes : Hashes} {fewer more : List Assignment}
    (free : hashes.CollisionFree more) (subset : fewer ⊆ more) :
    hashes.CollisionFree fewer where
  computeTxid := fun left leftMem right rightMem =>
    free.computeTxid left (subset leftMem) right (subset rightMem)
  keccak256 := fun left leftMem right rightMem =>
    free.keccak256 left (subset leftMem) right (subset rightMem)

/-- A single bundle has nothing to collide with. -/
theorem Hashes.CollisionFree.of_length_le_one {hashes : Hashes}
    {assigned : List Assignment} (single : assigned.length ≤ 1) :
    hashes.CollisionFree assigned := by
  have same : ∀ left ∈ assigned, ∀ right ∈ assigned, left = right := by
    intro left leftMem right rightMem
    match assigned, single with
    | [only], _ =>
        rw [List.mem_singleton.mp leftMem, List.mem_singleton.mp rightMem]
  constructor
  · intro left leftMem right rightMem _
    rw [same left leftMem right rightMem]
  · intro left leftMem right rightMem _
    rw [same left leftMem right rightMem]

/-- Bundles with the same m6id consume the same requests. -/
theorem Hashes.CollisionFree.indices_eq {hashes : Hashes} {assigned : List Assignment}
    (free : hashes.CollisionFree assigned) {left right : Assignment}
    (leftMem : left ∈ assigned) (rightMem : right ∈ assigned)
    (leftCommits : left.Commits hashes) (rightCommits : right.Commits hashes)
    (sameM6id : left.m6id hashes = right.m6id hashes) : left.indices = right.indices := by
  have sameTx := free.computeTxid left leftMem right rightMem sameM6id
  have sameOutput : requestsCommitmentTxout (hashes.keccak256 left.preimage) =
      requestsCommitmentTxout (hashes.keccak256 right.preimage) := by
    apply Option.some.inj
    rw [← leftCommits, ← rightCommits, sameTx]
  have sameScript := congrArg TxOut.scriptPubkey sameOutput
  have sameDigest : hashes.keccak256 left.preimage = hashes.keccak256 right.preimage :=
    FixedBytes.ext (List.cons.inj (List.cons.inj sameScript).2).2
  have samePreimage := free.keccak256 left leftMem right rightMem sameDigest
  exact congrArg (List.map UInt64.toNat)
    (requestsCommitmentPreimage_injective samePreimage).1

/-- What holds of every bundle a block assigned on top of `queue`. -/
structure Assignment.AssignedOn (hashes : Hashes) (queue : Storage)
    (assignment : Assignment) : Prop where
  commits : assignment.Commits hashes
  nonempty : assignment.indices ≠ []
  pending : ∀ index ∈ assignment.indices,
    index < readableCount queue ∧ (queue.requests index).status = .pending

theorem Extends.assignedOn {hashes : Hashes} {sidechainId : UInt32} {tip next : Tip}
    {executed : ExecutedBlock} {assignment : Assignment}
    (extends_ : Extends hashes sidechainId tip executed next)
    (assigned : assignment ∈ executed.assignment hashes) :
    assignment.AssignedOn hashes tip.world.queue := by
  rcases Option.map_eq_some_iff.mp assigned with ⟨bundle, bundleEq, assignmentEq⟩
  rw [extends_.bundle_eq] at bundleEq
  have bundles := selectedBundle_bundles bundleEq
  subst assignmentEq
  constructor
  · exact bundles.commitment
  · intro empty
    exact bundles.nonempty (List.map_eq_nil_iff.mp empty)
  · intro index member
    have facts := mem_indicesWhere.mp (bundles.pending index member)
    exact ⟨facts.1, of_decide_eq_true facts.2⟩

/-! ## Every chain -/

/-- A request that is not pending is in the bundle it names. -/
def Traced (hashes : Hashes) (assigned : List Assignment) (queue : Storage) : Prop :=
  ∀ index, (queue.requests index).status ≠ .pending →
    index < 2 ^ 64 - 1 ∧ index < queue.requestCount ∧
    ∃ assignment ∈ assigned, index ∈ assignment.indices ∧
      (queue.requests index).bundleM6id = assignment.m6id hashes

theorem traced_initial (hashes : Hashes) : Traced hashes [] Storage.initial := by
  intro index notPending
  exact absurd rfl notPending

theorem Traced.mono {hashes : Hashes} {fewer more : List Assignment} {queue : Storage}
    (traced : Traced hashes fewer queue) (subset : fewer ⊆ more) :
    Traced hashes more queue := by
  intro index notPending
  rcases traced index notPending with ⟨small, queued, assignment, member, facts⟩
  exact ⟨small, queued, assignment, subset member, facts⟩

theorem Traced.effect {hashes : Hashes} {assigned : List Assignment} {world next : World}
    (traced : Traced hashes assigned world.queue)
    (effect : UserAction.Effect world next) : Traced hashes assigned next.queue := by
  cases effect with
  | none => exact traced
  | transfer => exact traced
  | burn => exact traced
  | request request _ _ pending _ =>
      intro index notPending
      by_cases fresh : index = world.queue.requestCount
      · simp [fresh, pending] at notPending
      · simp only [ne_eq, fresh, not_false_eq_true, Function.update_of_ne] at notPending ⊢
        rcases traced index notPending with ⟨small, queued, facts⟩
        exact ⟨small, queued.trans (Nat.lt_succ_self _), facts⟩

/-- The queue only ever gets longer. -/
theorem Extends.requestCount_le {hashes : Hashes} {sidechainId : UInt32} {tip next : Tip}
    {executed : ExecutedBlock} (extends_ : Extends hashes sidechainId tip executed next) :
    tip.world.queue.requestCount ≤ next.world.queue.requestCount := by
  refine extends_.preserves (fun world : World =>
    tip.world.queue.requestCount ≤ world.queue.requestCount)
    (fun _ _ _ _ _ kept _ => kept) (fun _ _ _ _ kept _ => kept)
    (fun _ _ _ _ kept _ _ _ => kept) ?_ ?_ le_rfl
  · intro world next kept effect
    exact kept.trans (grows_of_effect effect).count_le
  · intro world kept
    rwa [finish_queue]

theorem Traced.extend {hashes : Hashes} {sidechainId : UInt32} {tip next : Tip}
    {assigned : List Assignment} {executed : ExecutedBlock}
    (traced : Traced hashes assigned tip.world.queue)
    (extends_ : Extends hashes sidechainId tip executed next) :
    Traced hashes (assigned ++ (executed.assignment hashes).toList) next.world.queue := by
  have counted : Traced hashes (assigned ++ (executed.assignment hashes).toList)
        next.world.queue ∧
      tip.world.queue.requestCount ≤ next.world.queue.requestCount := by
    refine extends_.preserves (fun world : World =>
      Traced hashes (assigned ++ (executed.assignment hashes).toList) world.queue ∧
        tip.world.queue.requestCount ≤ world.queue.requestCount) ?_ ?_ ?_ ?_ ?_
      ⟨traced.mono (List.subset_append_left _ _), le_rfl⟩
    · intro bundle bundleEq index inBundle world kept pending
      refine ⟨?_, kept.2⟩
      intro other notPending
      have isAssigned : ({ bundle := bundle, height := executed.height } : Assignment) ∈
          executed.assignment hashes := by
        simp [ExecutedBlock.assignment, bundleEq]
      by_cases same : other = index
      · subst same
        have readable := ((extends_.assignedOn isAssigned).pending other inBundle).1
        have small := readableCount_lt tip.world.queue
        have queued := readableCount_le tip.world.queue
        refine ⟨by omega, readable.trans_le (queued.trans kept.2), _,
          List.mem_append_right _ (Option.mem_toList.mpr isAssigned), inBundle, ?_⟩
        simp [changeRequest, Request.bundle, Assignment.m6id]
      · simp only [changeRequest, Storage.setRequest_of_ne _ _ same] at notPending ⊢
        exact kept.1 other notPending
    · intro change isChange index world kept bundled
      refine ⟨?_, kept.2⟩
      intro other notPending
      by_cases same : other = index
      · subst same
        have facts := kept.1 other (by simp [bundled])
        have sameM6id : (change (world.queue.requests other)).bundleM6id =
            (world.queue.requests other).bundleM6id := by
          rcases List.mem_pair.mp isChange with confirms | refunds
          · rw [confirms]
            rfl
          · rw [refunds]
            rfl
        simpa [changeRequest, sameM6id] using facts
      · simp only [changeRequest, Storage.setRequest_of_ne _ _ same] at notPending ⊢
        exact kept.1 other notPending
    · exact fun _ _ _ _ kept _ _ _ => kept
    · intro world next kept effect
      exact ⟨kept.1.effect effect, kept.2.trans (grows_of_effect effect).count_le⟩
    · intro world kept
      rwa [finish_queue]
  exact counted.1

/-- On every chain from an empty queue, requests are traced to their bundles. -/
theorem traced_of_chain {hashes : Hashes} {sidechainId : UInt32} {start final : Tip}
    {history : List ExecutedBlock} (empty : start.world.queue = .initial)
    (chain : Chain hashes sidechainId start history final) :
    Traced hashes (assignments hashes history) final.world.queue := by
  refine Run.invariant (fun history final =>
    Traced hashes (assignments hashes history) final.world.queue) ?_ ?_ chain
  · rw [empty]
    exact traced_initial hashes
  · intro history tip executed next _ traced extends_
    rw [assignments_append]
    exact traced.extend extends_

/-- Every bundle of a history commits to its indices and its height. -/
theorem commits_of_chain {hashes : Hashes} {sidechainId : UInt32} {start final : Tip}
    {history : List ExecutedBlock} (chain : Chain hashes sidechainId start history final) :
    ∀ assignment ∈ assignments hashes history, assignment.Commits hashes := by
  refine Run.invariant (fun history _ =>
    ∀ assignment ∈ assignments hashes history, assignment.Commits hashes) ?_ ?_ chain
  · simp [assignments]
  · intro history tip executed next _ induction extends_ assignment member
    rw [assignments_append] at member
    rcases List.mem_append.mp member with before | new
    · exact induction assignment before
    · exact (extends_.assignedOn (Option.mem_toList.mp new)).commits

end Beth
