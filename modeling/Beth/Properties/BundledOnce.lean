import Beth.Properties.LifecycleCall

/-! # Requests are bundled and settled at most once

Over whole chains, as long as no m6id is reported twice in one block and gas
is left aside: a request keeps what was asked for and its status only advances,
the bundles of different blocks share neither a request nor an m6id, and the
requests of a bundle stay together. -/

namespace Beth

open Foundation WithdrawalRequestQueue

/-! ## One block -/

/-- What is assumed of every block of the chain. -/
structure ExecutedBlock.Regular (executed : ExecutedBlock) : Prop where
  unmetered : executed.lifecycleEnv.gasLimit = none
  oneTerminal : OneTerminalEach executed.done.outcomes

/-- On this parent nothing keeps the lifecycle call of the block from being
carried out. -/
structure ExecutedBlock.Settling (executed : ExecutedBlock) (tip : Tip) : Prop where
  unmetered : executed.lifecycleEnv.gasLimit = none
  noConflict : NoConflict tip.world.queue executed.done.outcomes

theorem ExecutedBlock.Regular.settling {executed : ExecutedBlock}
    (regular : executed.Regular) (tip : Tip) : executed.Settling tip where
  unmetered := regular.unmetered
  noConflict := regular.oneTerminal.noConflict tip.world.queue

/-- The lifecycle call of a block, which is made unless it is empty, leaves a
settled queue. -/
theorem settles_reportLifecycle {env : CallEnv} {update : BundleLifecycleUpdate}
    {world : World} {reported : Option ExecutionResult × World}
    (unmetered : env.gasLimit = none) (accepts : Accepts world.queue update.toCalldata)
    (returned : reportLifecycle env update world = .ok reported) :
    Settles update.toCalldata world.queue reported.2.queue := by
  unfold reportLifecycle at returned
  split at returned
  · rename_i isEmpty
    cases returned
    simp only [BundleLifecycleUpdate.isEmpty, Bool.and_eq_true, List.isEmpty_iff] at isEmpty
    exact .of_empty (by simp [BundleLifecycleUpdate.toCalldata, isEmpty])
      (by simp [BundleLifecycleUpdate.toCalldata, isEmpty])
      (by simp [BundleLifecycleUpdate.toCalldata, isEmpty]) _
  · rcases bind_eq_ok.mp returned with ⟨called, calledEq, returned⟩
    cases returned
    have bodyMeets := (systemReportBundleLifecycle_meets env update.toCalldata
      (.start env world) accepts).mono (fun _ settles => settles)
      fun _ failed => failed.2 unmetered
    rcases transactSystemCall_meets bodyMeets (orElseFail_eq_ok.mp calledEq) with
      ⟨frame, settles, stateEq, _⟩
    change Settles update.toCalldata world.queue called.state.queue
    rw [stateEq]
    exact settles

/-- A settling block settles the queue of its parent. -/
theorem Extends.settles {hashes : Hashes} {sidechainId : UInt32} {tip next : Tip}
    {executed : ExecutedBlock} (extends_ : Extends hashes sidechainId tip executed next)
    (settling : executed.Settling tip) :
    Settles (lifecycleCall hashes executed.order tip.world.queue executed.done.outcomes
      executed.height) tip.world.queue next.world.queue := by
  rcases extends_.preExecuted with ⟨mainHash, credited, facts⟩
  have growth := grows_creditDeposits facts.creditedBy
  have accepts : Accepts tip.world.queue executed.done.update.toCalldata := by
    rw [extends_.toCalldata_eq]
    exact lifecycleCall_accepts settling.noConflict
  have settles := settles_reportLifecycle settling.unmetered (accepts.of_grows growth)
    facts.reportedBy
  have transactions := grows_runUserCode executed.body.transactions executed.done.state
  have whole := (settles.of_grows accepts growth).then_grows transactions
  rw [extends_.toCalldata_eq] at whole
  rw [extends_.next_eq]
  simpa [ExecutedBlock.tip] using whole

/-- One step of a request's lifecycle, or none. -/
inductive Advances : Status → Status → Prop
  | stay (status : Status) : Advances status status
  | bundle : Advances .pending .bundled
  | confirm : Advances .bundled .confirmed
  | refund : Advances .bundled .refunded

theorem settledRequest_advances {call : SystemReportBundleLifecycleCall} {queue : Storage}
    (accepts : Accepts queue call) (index : Nat) :
    (queue.requests index).SameWithdrawal
        (settledRequest call index (queue.requests index)) ∧
      Advances (queue.requests index).status
        (settledRequest call index (queue.requests index)).status := by
  unfold settledRequest
  split
  · rename_i bundled
    rw [accepts.bundled_pending index bundled]
    exact ⟨⟨rfl, rfl, rfl, rfl⟩, .bundle⟩
  · split
    · rename_i succeeded
      rw [accepts.resolved_bundled index (by simp [succeeded])]
      exact ⟨⟨rfl, rfl, rfl, rfl⟩, .confirm⟩
    · split
      · rename_i failed
        rw [accepts.resolved_bundled index (by simp [failed])]
        exact ⟨⟨rfl, rfl, rfl, rfl⟩, .refund⟩
      · exact ⟨.refl _, .stay _⟩

theorem Extends.advances {hashes : Hashes} {sidechainId : UInt32} {tip next : Tip}
    {executed : ExecutedBlock} (extends_ : Extends hashes sidechainId tip executed next)
    (settling : executed.Settling tip) {index : Nat}
    (queued : index < tip.world.queue.requestCount) :
    (tip.world.queue.requests index).SameWithdrawal (next.world.queue.requests index) ∧
      Advances (tip.world.queue.requests index).status
        (next.world.queue.requests index).status := by
  rw [(extends_.settles settling).settled index queued]
  exact settledRequest_advances (lifecycleCall_accepts settling.noConflict) index

/-- Between two states of a regular chain requests keep what was asked for, and
their status advances step by step. -/
theorem advances_of_chain {hashes : Hashes} {sidechainId : UInt32} {start final : Tip}
    {history : List ExecutedBlock}
    (regular : ∀ executed ∈ history, executed.Regular)
    (chain : Chain hashes sidechainId start history final) {index : Nat}
    (queued : index < start.world.queue.requestCount) :
    (start.world.queue.requests index).SameWithdrawal (final.world.queue.requests index) ∧
      Relation.ReflTransGen Advances (start.world.queue.requests index).status
        (final.world.queue.requests index).status := by
  have invariant : start.world.queue.requestCount ≤ final.world.queue.requestCount ∧
      (start.world.queue.requests index).SameWithdrawal
        (final.world.queue.requests index) ∧
      Relation.ReflTransGen Advances (start.world.queue.requests index).status
        (final.world.queue.requests index).status := by
    refine Run.invariant (fun history final =>
      (∀ executed ∈ history, executed.Regular) →
      start.world.queue.requestCount ≤ final.world.queue.requestCount ∧
      (start.world.queue.requests index).SameWithdrawal
        (final.world.queue.requests index) ∧
      Relation.ReflTransGen Advances (start.world.queue.requests index).status
        (final.world.queue.requests index).status) ?_ ?_ chain regular
    · exact fun _ => ⟨le_rfl, .refl _, .refl⟩
    · intro history tip executed next _ induction extends_ regular
      have before := induction fun other member => regular other (by simp [member])
      have step := extends_.advances ((regular executed (by simp)).settling tip)
        (queued.trans_le before.1)
      exact ⟨before.1.trans extends_.requestCount_le, before.2.1.trans step.1,
        before.2.2.tail step.2⟩
  exact invariant.2

/-! ## Bundles stay intact -/

/-- The requests of every assigned bundle are still recorded under it, have one
status, and belong to no other bundle. -/
structure Intact (hashes : Hashes) (assigned : List Assignment) (queue : Storage) :
    Prop where
  recorded : ∀ assignment ∈ assigned, ∀ index ∈ assignment.indices,
    (queue.requests index).status ≠ .pending ∧
      (queue.requests index).bundleM6id = assignment.m6id hashes
  together : ∀ assignment ∈ assigned, ∀ left ∈ assignment.indices,
    ∀ right ∈ assignment.indices,
      (queue.requests left).status = (queue.requests right).status
  disjoint : assigned.Pairwise fun earlier later =>
    earlier.indices.Disjoint later.indices
  distinct : assigned.Pairwise fun earlier later =>
    earlier.m6id hashes ≠ later.m6id hashes

theorem Intact.nil (hashes : Hashes) (queue : Storage) : Intact hashes [] queue := by
  constructor <;> simp

/-- Requests under one m6id with one status are settled alike. -/
theorem settledRequest_status_congr {queue : Storage}
    {call : SystemReportBundleLifecycleCall} {hashes : Hashes} {order : HashMapOrder}
    {outcomes : List WithdrawalBundleOutcome} {blockHeight : UInt32}
    {assigned : List Assignment} (traced : Traced hashes assigned queue)
    (callEq : call = lifecycleCall hashes order queue outcomes blockHeight)
    {left right : Nat} (notPending : (queue.requests left).status ≠ .pending)
    (sameStatus : (queue.requests left).status = (queue.requests right).status)
    (sameM6id : (queue.requests left).bundleM6id = (queue.requests right).bundleM6id) :
    (settledRequest call left (queue.requests left)).status =
      (settledRequest call right (queue.requests right)).status := by
  have notBundled : ∀ index, (queue.requests index).status ≠ .pending →
      index ∉ call.bundledIndices := by
    intro index notPending bundled
    rw [callEq] at bundled
    exact notPending (lifecycleCall_bundled_pending bundled).2
  have succeededIff : left ∈ call.succeededIndices ↔ right ∈ call.succeededIndices := by
    rw [callEq, lifecycleCall_succeededIndices, mem_flatMap_carriers traced,
      mem_flatMap_carriers traced, sameStatus, sameM6id]
  have failedIff : left ∈ call.failedIndices ↔ right ∈ call.failedIndices := by
    rw [callEq, lifecycleCall_failedIndices, mem_flatMap_carriers traced,
      mem_flatMap_carriers traced, sameStatus, sameM6id]
  unfold settledRequest
  rw [if_neg (notBundled left notPending), if_neg (notBundled right (sameStatus ▸ notPending))]
  simp only [succeededIff, failedIff]
  split
  · rfl
  · split
    · rfl
    · exact sameStatus

/-- Settling leaves requests that are not pending under their m6id. -/
theorem settledRequest_recorded {queue : Storage} {call : SystemReportBundleLifecycleCall}
    (accepts : Accepts queue call) {index : Nat}
    (notPending : (queue.requests index).status ≠ .pending) :
    (settledRequest call index (queue.requests index)).status ≠ .pending ∧
      (settledRequest call index (queue.requests index)).bundleM6id =
        (queue.requests index).bundleM6id := by
  have notBundled : index ∉ call.bundledIndices := fun bundled =>
    notPending (accepts.bundled_pending index bundled)
  unfold settledRequest
  rw [if_neg notBundled]
  split
  · simp [Request.confirm]
  · split
    · simp [Request.refund]
    · exact ⟨notPending, rfl⟩

/-- The requests of the bundle a block assigned are bundled under it. -/
theorem Extends.assigned_bundled {hashes : Hashes} {sidechainId : UInt32} {tip next : Tip}
    {executed : ExecutedBlock} (extends_ : Extends hashes sidechainId tip executed next)
    (settling : executed.Settling tip) (assignment : Assignment)
    (isNew : assignment ∈ executed.assignment hashes) :
    ∀ index ∈ assignment.indices,
      (next.world.queue.requests index).status = .bundled ∧
        (next.world.queue.requests index).bundleM6id = assignment.m6id hashes := by
  intro index member
  have readable := ((extends_.assignedOn isNew).pending index member).1
  rcases Option.map_eq_some_iff.mp isNew with ⟨bundle, bundleEq, assignmentEq⟩
  subst assignmentEq
  rw [extends_.bundle_eq] at bundleEq
  have bundled : index ∈ (lifecycleCall hashes executed.order tip.world.queue
      executed.done.outcomes executed.height).bundledIndices := by
    rw [lifecycleCall_bundledIndices, bundleEq]
    exact member
  rw [(extends_.settles settling).settled index
    (readable.trans_le (readableCount_le _)), settledRequest, if_pos bundled,
    lifecycleCall_newM6id _ _ _ _ _ bundleEq]
  exact ⟨rfl, rfl⟩

theorem Intact.extend {hashes : Hashes} {sidechainId : UInt32} {tip next : Tip}
    {assigned : List Assignment} {executed : ExecutedBlock}
    (intact : Intact hashes assigned tip.world.queue)
    (traced : Traced hashes assigned tip.world.queue)
    (commits : ∀ assignment ∈ assigned, assignment.Commits hashes)
    (free : hashes.CollisionFree (assigned ++ (executed.assignment hashes).toList))
    (extends_ : Extends hashes sidechainId tip executed next)
    (settling : executed.Settling tip) :
    Intact hashes (assigned ++ (executed.assignment hashes).toList) next.world.queue := by
  have settles := extends_.settles settling
  have accepts : Accepts tip.world.queue (lifecycleCall hashes executed.order
      tip.world.queue executed.done.outcomes executed.height) :=
    lifecycleCall_accepts settling.noConflict
  have queuedOf : ∀ index, (tip.world.queue.requests index).status ≠ .pending →
      index < tip.world.queue.requestCount := fun index notPending =>
    (traced index notPending).2.1
  have newFacts := fun assignment isNew =>
    extends_.assigned_bundled settling assignment isNew
  have separate : ∀ earlier ∈ assigned, ∀ later ∈ (executed.assignment hashes).toList,
      earlier.indices.Disjoint later.indices := by
    intro earlier isOld later isNew index inOld inNew
    have pending := ((extends_.assignedOn (Option.mem_toList.mp isNew)).pending index
      inNew).2
    exact (intact.recorded earlier isOld index inOld).1 pending
  constructor
  · intro assignment member index inBundle
    rcases List.mem_append.mp member with isOld | isNew
    · have old := intact.recorded assignment isOld index inBundle
      have kept := settledRequest_recorded accepts old.1
      rw [settles.settled index (queuedOf index old.1)]
      exact ⟨kept.1, kept.2.trans old.2⟩
    · have new := newFacts assignment (Option.mem_toList.mp isNew) index inBundle
      exact ⟨by simp [new.1], new.2⟩
  · intro assignment member left leftMem right rightMem
    rcases List.mem_append.mp member with isOld | isNew
    · have leftOld := intact.recorded assignment isOld left leftMem
      have rightOld := intact.recorded assignment isOld right rightMem
      rw [settles.settled left (queuedOf left leftOld.1),
        settles.settled right (queuedOf right rightOld.1)]
      exact settledRequest_status_congr traced rfl leftOld.1
        (intact.together assignment isOld left leftMem right rightMem)
        (leftOld.2.trans rightOld.2.symm)
    · rw [(newFacts assignment (Option.mem_toList.mp isNew) left leftMem).1,
        (newFacts assignment (Option.mem_toList.mp isNew) right rightMem).1]
  · rw [List.pairwise_append]
    refine ⟨intact.disjoint, ?_, separate⟩
    cases executed.assignment hashes <;> simp
  · rw [List.pairwise_append]
    refine ⟨intact.distinct, ?_, ?_⟩
    · cases executed.assignment hashes <;> simp
    · intro earlier isOld later isNew sameM6id
      have assignedOn := extends_.assignedOn (Option.mem_toList.mp isNew)
      have sameIndices := free.indices_eq (List.mem_append_left _ isOld)
        (List.mem_append_right _ isNew) (commits earlier isOld) assignedOn.commits sameM6id
      rcases List.exists_mem_of_ne_nil _ assignedOn.nonempty with ⟨index, inNew⟩
      exact separate earlier isOld later isNew (sameIndices ▸ inNew) inNew

theorem intact_of_chain {hashes : Hashes} {sidechainId : UInt32} {start final : Tip}
    {history : List ExecutedBlock} (empty : start.world.queue = .initial)
    (regular : ∀ executed ∈ history, executed.Regular)
    (free : hashes.CollisionFree (assignments hashes history))
    (chain : Chain hashes sidechainId start history final) :
    Intact hashes (assignments hashes history) final.world.queue := by
  refine Run.invariant (fun history final =>
    (∀ executed ∈ history, executed.Regular) →
    hashes.CollisionFree (assignments hashes history) →
    Intact hashes (assignments hashes history) final.world.queue) ?_ ?_ chain regular free
  · exact fun _ _ => .nil _ _
  · intro history tip executed next before induction extends_ regular free
    rw [assignments_append] at free ⊢
    have intact := induction (fun other member => regular other (by simp [member]))
      (free.mono (List.subset_append_left _ _))
    exact intact.extend (traced_of_chain empty before) (commits_of_chain before) free
      extends_ ((regular executed (by simp)).settling tip)

/-! ## The whole property -/

/-- The update of a block assigns its bundle, or none. -/
theorem Extends.update_eq {hashes : Hashes} {sidechainId : UInt32} {tip next : Tip}
    {executed : ExecutedBlock} (extends_ : Extends hashes sidechainId tip executed next) :
    executed.done.update.newM6id =
        (executed.assignment hashes).map (fun assigned => assigned.m6id hashes) ∧
      executed.bundledIndices =
        ((executed.assignment hashes).map Assignment.indices).getD [] := by
  rcases extends_.preExecuted with ⟨mainHash, credited, facts⟩
  have bundleEq := extends_.bundle_eq
  rw [ExecutedBlock.bundledIndices, facts.updateComputed, ExecutedBlock.assignment, bundleEq]
  cases selected : selectedBundle hashes executed.order tip.world.queue
      executed.height with
  | none =>
      have update := update_of_not_selected executed.done.outcomes selected
      exact ⟨update.1, congrArg (List.map UInt64.toNat) update.2⟩
  | some bundle =>
      have update := update_of_selected executed.done.outcomes selected
      exact ⟨update.1, congrArg (List.map UInt64.toNat) update.2⟩

theorem update_eq_of_chain {hashes : Hashes} {sidechainId : UInt32} {start final : Tip}
    {history : List ExecutedBlock} (chain : Chain hashes sidechainId start history final) :
    ∀ executed ∈ history,
      executed.done.update.newM6id =
          (executed.assignment hashes).map (fun assigned => assigned.m6id hashes) ∧
        executed.bundledIndices =
          ((executed.assignment hashes).map Assignment.indices).getD [] := by
  refine Run.invariant (fun history _ => ∀ executed ∈ history,
    executed.done.update.newM6id =
        (executed.assignment hashes).map (fun assigned => assigned.m6id hashes) ∧
      executed.bundledIndices =
        ((executed.assignment hashes).map Assignment.indices).getD []) ?_ ?_ chain
  · simp
  · intro history tip executed next _ induction extends_ other member
    rcases List.mem_append.mp member with before | isLast
    · exact induction other before
    · rw [List.mem_singleton.mp isLast]
      exact extends_.update_eq

/-- The bundles of a history against the queue it leads to. -/
structure BundledOnce (history : List ExecutedBlock) (queue : Storage) : Prop where
  disjoint : history.Pairwise fun earlier later =>
    earlier.bundledIndices.Disjoint later.bundledIndices
  distinct : history.Pairwise fun earlier later =>
    ∀ m6id ∈ earlier.done.update.newM6id, m6id ∉ later.done.update.newM6id
  carried : ∀ index, (queue.requests index).status ≠ .pending →
    ∃ executed ∈ history,
      (queue.requests index).bundleM6id ∈ executed.done.update.newM6id
  carriers : ∀ executed ∈ history, ∀ m6id ∈ executed.done.update.newM6id, ∀ index,
    (queue.requests index).status ≠ .pending ∧ (queue.requests index).bundleM6id = m6id ↔
      index ∈ executed.bundledIndices
  together : ∀ left right, (queue.requests left).status ≠ .pending →
    (queue.requests right).status ≠ .pending →
    (queue.requests left).bundleM6id = (queue.requests right).bundleM6id →
    (queue.requests left).status = (queue.requests right).status

theorem bundledOnce_of_intact {hashes : Hashes} {history : List ExecutedBlock}
    {queue : Storage} (traced : Traced hashes (assignments hashes history) queue)
    (intact : Intact hashes (assignments hashes history) queue)
    (commits : ∀ assignment ∈ assignments hashes history, assignment.Commits hashes)
    (free : hashes.CollisionFree (assignments hashes history))
    (updates : ∀ executed ∈ history,
      executed.done.update.newM6id =
          (executed.assignment hashes).map (fun assigned => assigned.m6id hashes) ∧
        executed.bundledIndices =
          ((executed.assignment hashes).map Assignment.indices).getD []) :
    BundledOnce history queue := by
  have inBundle : ∀ assignment ∈ assignments hashes history, ∀ index,
      (queue.requests index).status ≠ .pending →
      (queue.requests index).bundleM6id = assignment.m6id hashes →
      index ∈ assignment.indices := by
    intro assignment member index notPending sameM6id
    rcases traced index notPending with ⟨_, _, named, namedMem, inNamed, namedM6id⟩
    rw [free.indices_eq member namedMem (commits assignment member)
      (commits named namedMem) (sameM6id.symm.trans namedM6id)]
    exact inNamed
  constructor
  · refine (List.pairwise_filterMap.mp intact.disjoint).imp_of_mem ?_
    intro earlier later earlierMem laterMem apart
    rw [(updates earlier earlierMem).2, (updates later laterMem).2]
    cases earlierEq : earlier.assignment hashes with
    | none => simp
    | some first =>
        cases laterEq : later.assignment hashes with
        | none => simp
        | some second => exact apart first earlierEq second laterEq
  · refine (List.pairwise_filterMap.mp intact.distinct).imp_of_mem ?_
    intro earlier later earlierMem laterMem apart m6id inEarlier inLater
    rw [(updates earlier earlierMem).1] at inEarlier
    rw [(updates later laterMem).1] at inLater
    rcases Option.map_eq_some_iff.mp inEarlier with ⟨first, firstEq, firstM6id⟩
    rcases Option.map_eq_some_iff.mp inLater with ⟨second, secondEq, secondM6id⟩
    exact apart first firstEq second secondEq (firstM6id.trans secondM6id.symm)
  · intro index notPending
    rcases traced index notPending with ⟨_, _, assignment, member, _, m6idEq⟩
    rcases List.mem_filterMap.mp member with ⟨executed, inHistory, assigned⟩
    refine ⟨executed, inHistory, ?_⟩
    rw [(updates executed inHistory).1, assigned, m6idEq]
    rfl
  · intro executed inHistory m6id isNew index
    rw [(updates executed inHistory).1] at isNew
    rw [(updates executed inHistory).2]
    rcases Option.map_eq_some_iff.mp isNew with ⟨assignment, assigned, m6idEq⟩
    have member : assignment ∈ assignments hashes history :=
      List.mem_filterMap.mpr ⟨executed, inHistory, assigned⟩
    rw [assigned, ← m6idEq]
    constructor
    · intro carries
      exact inBundle assignment member index carries.1 carries.2
    · intro member'
      exact intact.recorded assignment member index member'
  · intro left right leftNotPending rightNotPending sameM6id
    rcases traced left leftNotPending with ⟨_, _, assignment, member, leftMem, m6idEq⟩
    exact intact.together assignment member left leftMem right
      (inBundle assignment member right rightNotPending (sameM6id.symm.trans m6idEq))

/-- Along every regular chain from an empty queue: requests keep what was asked
for and their status advances one step at a time; and bundles of different
blocks share no request and no m6id, each m6id being carried by exactly the
requests of the block that assigned it, all with one status. -/
theorem bundled_and_settled_once (hashes : Hashes) (sidechainId : UInt32)
    (start final : Tip) (history : List ExecutedBlock)
    (empty : start.world.queue = .initial)
    (regular : ∀ executed ∈ history, executed.Regular)
    (free : hashes.CollisionFree (assignments hashes history))
    (chain : Chain hashes sidechainId start history final) :
    (∀ earlier executed later tip next, history = earlier ++ executed :: later →
      Chain hashes sidechainId start earlier tip →
      Extends hashes sidechainId tip executed next →
      ∀ index, index < tip.world.queue.requestCount →
        (tip.world.queue.requests index).SameWithdrawal
            (next.world.queue.requests index) ∧
          Advances (tip.world.queue.requests index).status
            (next.world.queue.requests index).status) ∧
    (∀ earlier later middle, history = earlier ++ later →
      Chain hashes sidechainId start earlier middle →
      Chain hashes sidechainId middle later final →
      ∀ index, index < middle.world.queue.requestCount →
        (middle.world.queue.requests index).SameWithdrawal
            (final.world.queue.requests index) ∧
          Relation.ReflTransGen Advances (middle.world.queue.requests index).status
            (final.world.queue.requests index).status) ∧
    BundledOnce history final.world.queue := by
  refine ⟨?_, ?_, ?_⟩
  · intro earlier executed later tip next split _ extends_ index queued
    exact extends_.advances ((regular executed (by simp [split])).settling tip) queued
  · intro earlier later middle split _ fromMiddle index queued
    exact advances_of_chain (fun executed member => regular executed (by simp [split, member]))
      fromMiddle queued
  · exact bundledOnce_of_intact (traced_of_chain empty chain)
      (intact_of_chain empty regular free chain) (commits_of_chain chain) free
      (update_eq_of_chain chain)

/-! The request of block 1 is bundled in block 2 and confirmed in block 3. -/

def bundleEvent (m6id : Txid) (outcome : BundleOutcomeKind) : BlockEvent where
  event := some (.withdrawalBundle
    { m6id := some { hex := some (hexEncode m6id.bytes) }
      event := some { event := some outcome } })

def confirmedEvents (number : Nat) : List BlockEvent :=
  if number = 3 then
    [bundleEvent (withdrawalHashes.computeTxid
      { version := 2
        lockTime := 0
        input := []
        output := [] }) .succeeded]
  else depositAtBlockOne number

def confirmedProposals : List Proposal :=
  let enforcer := (withdrawalMainchain confirmedEvents).enforcer (Mainchain.linearBlock 3)
  [requestingProposal enforcer,
    .empty (.replicate 32 2) (Mainchain.linearBlock 2) enforcer,
    .empty (.replicate 32 3) (Mainchain.linearBlock 3) enforcer]

theorem bundled_and_settled_once_confirmed :
    ∃ history final,
      Chain withdrawalHashes 10 (.genesis (.replicate 32 0) none) history final ∧
      (final.world.queue.requests 0).status = .confirmed ∧
      BundledOnce history final.world.queue := by
  have executes : Meets (executeAll withdrawalHashes 10 (.genesis (.replicate 32 0) none)
        confirmedProposals)
      (fun result => (assignments withdrawalHashes result.1).length ≤ 1 ∧
        (result.2.world.queue.requests 0).status = .confirmed ∧
        ∀ executed ∈ result.1, executed.lifecycleEnv.gasLimit = none ∧
          OneTerminalEach executed.done.outcomes)
      fun _ => False := by decide +kernel
  rcases executes.exists_ok (fun _ failed => failed) with
    ⟨result, resultEq, single, confirmed, regular⟩
  have chain := (chain_of_executeAll resultEq).1
  exact ⟨result.1, result.2, chain, confirmed,
    (bundled_and_settled_once withdrawalHashes 10 _ _ result.1 rfl
      (fun executed member => ⟨(regular executed member).1, (regular executed member).2⟩)
      (.of_length_le_one single) chain).2.2⟩

end Beth
