import Beth.Properties.BundledOnce

/-! # Solvency of the peg

The mainchain treasury gains every deposit and pays every bundle reported as
succeeded. As long as bundles succeed only after a block assigned them, and
each is resolved at most once, it covers the ether outside the two predeploys
and every request that is pending or bundled. -/

namespace Beth

open Foundation WithdrawalRequestQueue

/-! ## The treasury -/

/-- The accounts other than the two predeploys. -/
def circulating : Finset Address := predeploysᶜ

theorem mem_circulating (account : Address) : account ∈ circulating ↔ account ∉ predeploys :=
  Finset.mem_compl

-- Membership in a complement of accounts must not be evaluated.
attribute [irreducible] circulating

def depositedSats (deposits : List Deposit) : Nat :=
  (deposits.map fun deposit => deposit.valueSats.toNat).sum

/-- What the bundles reported as succeeded take out of the treasury. -/
def paidSats (hashes : Hashes) (assigned : List Assignment) (succeeded : List Txid) : Nat :=
  ((assigned.filter fun assignment => assignment.m6id hashes ∈ succeeded).map
    fun assignment => m6Sats assignment.bundle.tx).sum

section History

variable (hashes : Hashes) (history : List ExecutedBlock)

def depositedIn : Nat :=
  (history.map fun executed => depositedSats executed.done.deposits).sum

def succeededIn : List Txid :=
  history.flatMap fun executed => reported .succeeded executed.done.outcomes

/-- The m6ids reported as succeeded or failed. -/
def terminalIn : List Txid :=
  history.flatMap fun executed =>
    reported .succeeded executed.done.outcomes ++ reported .failed executed.done.outcomes

def assignedM6ids : List Txid :=
  (assignments hashes history).map fun assignment => assignment.m6id hashes

def treasurySats : Int :=
  (depositedIn history : Int) -
    (paidSats hashes (assignments hashes history) (succeededIn history) : Int)

/-- The treasury covers the circulating ether and the live requests. -/
def PegSolvent (world : World) : Prop :=
  (Ledger.held circulating world.balances : Int) +
      (weiPerSat : Int) * (world.queue.liveSats : Int) ≤
    (weiPerSat : Int) * treasurySats hashes history

/-- Every bundle of the chain is resolved at most once, and only bundles of the
chain succeed. -/
structure ResolvedOnce : Prop where
  once : ∀ assignment ∈ assignments hashes history,
    (terminalIn history).count (assignment.m6id hashes) ≤ 1
  known : succeededIn history ⊆ assignedM6ids hashes history

/-- Bundles succeed only in blocks after the one that assigned them. -/
structure ResolvedAfterwards : Prop extends ResolvedOnce hashes history where
  assigned : ∀ earlier executed later, history = earlier ++ executed :: later →
    reported .succeeded executed.done.outcomes ⊆ assignedM6ids hashes earlier

end History

theorem depositedIn_append (history : List ExecutedBlock) (executed : ExecutedBlock) :
    depositedIn (history ++ [executed]) =
      depositedIn history + depositedSats executed.done.deposits := by
  simp [depositedIn]

theorem succeededIn_append (history : List ExecutedBlock) (executed : ExecutedBlock) :
    succeededIn (history ++ [executed]) =
      succeededIn history ++ reported .succeeded executed.done.outcomes := by
  simp [succeededIn]

theorem terminalIn_append (history : List ExecutedBlock) (executed : ExecutedBlock) :
    terminalIn (history ++ [executed]) =
      terminalIn history ++ (reported .succeeded executed.done.outcomes ++
        reported .failed executed.done.outcomes) := by
  simp [terminalIn]

theorem ResolvedAfterwards.front {hashes : Hashes} {history : List ExecutedBlock}
    {executed : ExecutedBlock}
    (resolved : ResolvedAfterwards hashes (history ++ [executed])) :
    ResolvedAfterwards hashes history := by
  have assigned : ∀ earlier other later, history = earlier ++ other :: later →
      reported .succeeded other.done.outcomes ⊆ assignedM6ids hashes earlier := by
    intro earlier other later split
    exact resolved.assigned earlier other (later ++ [executed]) (by simp [split])
  refine { once := ?_, known := ?_, assigned := assigned }
  · intro assignment member
    have atMostOnce := resolved.once assignment
      (by rw [assignments_append]; exact List.mem_append_left _ member)
    rw [terminalIn_append, List.count_append] at atMostOnce
    omega
  · intro m6id member
    rcases List.mem_flatMap.mp member with ⟨other, inHistory, succeeded⟩
    rcases List.append_of_mem inHistory with ⟨earlier, later, split⟩
    have inEarlier := assigned earlier other later split succeeded
    rw [split, assignedM6ids, assignments, List.filterMap_append, List.map_append]
    exact List.mem_append_left _ inEarlier

/-! ## What succeeded bundles take -/

theorem paidSats_append_right_le (hashes : Hashes) (assigned : List Assignment)
    (before now : List Txid) :
    paidSats hashes assigned (before ++ now) ≤
      paidSats hashes assigned before + paidSats hashes assigned now := by
  induction assigned with
  | nil => simp [paidSats]
  | cons assignment rest induction =>
      simp only [paidSats, List.filter_cons, List.mem_append] at induction ⊢
      by_cases inBefore : assignment.m6id hashes ∈ before
      · by_cases inNow : assignment.m6id hashes ∈ now
        · simp only [inBefore, inNow, or_self, decide_true, if_true, List.map_cons,
            List.sum_cons]
          omega
        · simp only [inBefore, inNow, or_false, decide_true, if_true, decide_false,
            Bool.false_eq_true, if_false, List.map_cons, List.sum_cons]
          omega
      · by_cases inNow : assignment.m6id hashes ∈ now
        · simp only [inBefore, inNow, or_true, decide_true, if_true, decide_false,
            Bool.false_eq_true, if_false, List.map_cons, List.sum_cons]
          omega
        · simp only [inBefore, inNow, or_self, decide_false, Bool.false_eq_true, if_false]
          omega

/-- Bundles that are not reported take nothing. -/
theorem paidSats_append_left (hashes : Hashes) (assigned new : List Assignment)
    (succeeded : List Txid)
    (notReported : ∀ assignment ∈ new, assignment.m6id hashes ∉ succeeded) :
    paidSats hashes (assigned ++ new) succeeded = paidSats hashes assigned succeeded := by
  have none : (new.filter fun assignment => assignment.m6id hashes ∈ succeeded) = [] := by
    rw [List.filter_eq_nil_iff]
    intro assignment member
    simpa using notReported assignment member
  rw [paidSats, paidSats, List.filter_append, none, List.append_nil]

/-- Bundles with distinct m6ids take no more than is set aside for each report. -/
theorem paidSats_le (hashes : Hashes) {assigned : List Assignment} {succeeded : List Txid}
    {aside : Txid → Nat}
    (distinct : assigned.Pairwise fun earlier later =>
      earlier.m6id hashes ≠ later.m6id hashes)
    (covered : ∀ assignment ∈ assigned, assignment.m6id hashes ∈ succeeded →
      m6Sats assignment.bundle.tx ≤ aside (assignment.m6id hashes)) :
    paidSats hashes assigned succeeded ≤ (succeeded.map aside).sum := by
  let paid := assigned.filter fun assignment => assignment.m6id hashes ∈ succeeded
  have subperm : (paid.map fun assignment => assignment.m6id hashes).Subperm succeeded := by
    apply List.subperm_of_subset
    · exact List.pairwise_map.mpr (distinct.sublist List.filter_sublist)
    · intro m6id member
      rcases List.mem_map.mp member with ⟨assignment, inPaid, sameM6id⟩
      have isReported := (List.mem_filter.mp inPaid).2
      rw [← sameM6id]
      simpa using isReported
  calc paidSats hashes assigned succeeded
      ≤ (paid.map fun assignment => aside (assignment.m6id hashes)).sum := by
        apply List.sum_le_sum
        intro assignment member
        have facts := List.mem_filter.mp member
        exact covered assignment facts.1 (by simpa using facts.2)
    _ = ((paid.map fun assignment => assignment.m6id hashes).map aside).sum := by
        rw [List.map_map]
        rfl
    _ ≤ (succeeded.map aside).sum := by
        rcases subperm with ⟨permuted, perm, sublist⟩
        rw [← (perm.map aside).sum_eq]
        exact (sublist.map aside).sum_le_sum fun _ _ => Nat.zero_le _

/-! ## The claims over one block -/

theorem claimedWei_creditDeposits {accounts : Finset Address}
    (claimants : Claimants accounts) {env : CallEnv} {deposits : List Deposit}
    {world : World} {credited : Option ExecutionResult × World}
    (returned : creditDeposits env deposits world = .ok credited) :
    claimedWei accounts credited.2 ≤ claimedWei accounts world +
      if depositVaultAddress ∈ accounts then 0 else depositedSats deposits * weiPerSat := by
  unfold creditDeposits at returned
  rw [depositsCalldata_eq] at returned
  by_cases noDeposits : deposits = []
  · rw [if_pos noDeposits] at returned
    cases returned
    exact Nat.le_add_right _ _
  · rw [if_neg noDeposits] at returned
    rcases bind_eq_ok.mp returned with ⟨called, calledEq, isCalled⟩
    cases isCalled
    have bodyClaims := claimedWei_systemCreditDeposits claimants env
      (deposits.map fun deposit => (deposit.address, deposit.valueSats.toNat))
      (by
        intro pair member
        rcases List.mem_map.mp member with ⟨deposit, _, pairEq⟩
        rw [← pairEq]
        exact deposit.valueSats.toNat_lt) (.start env world)
    have sameSats : ((deposits.map fun deposit =>
        (deposit.address, deposit.valueSats.toNat)).map Prod.snd).sum =
        depositedSats deposits := by
      rw [List.map_map]
      rfl
    rw [sameSats] at bodyClaims
    exact transactSystemCall_preserves
      (fun reached => claimedWei accounts reached ≤ claimedWei accounts world +
        if depositVaultAddress ∈ accounts then 0 else depositedSats deposits * weiPerSat)
      bodyClaims (Nat.le_add_right _ _) (orElseFail_eq_ok.mp calledEq)

theorem claimedWei_reportLifecycle {accounts : Finset Address}
    (claimants : Claimants accounts) {env : CallEnv} {update : BundleLifecycleUpdate}
    {world : World} {reported : Option ExecutionResult × World}
    (unmetered : env.gasLimit = none) (accepts : Accepts world.queue update.toCalldata)
    (returned : reportLifecycle env update world = .ok reported) :
    claimedWei accounts reported.2 +
        lockedSatsOf world.queue update.toCalldata.succeededIndices * weiPerSat ≤
      claimedWei accounts world := by
  unfold reportLifecycle at returned
  split at returned
  · rename_i isEmpty
    cases returned
    simp only [BundleLifecycleUpdate.isEmpty, Bool.and_eq_true, List.isEmpty_iff] at isEmpty
    rw [BundleLifecycleUpdate.toCalldata, isEmpty.1.2, List.map_nil, lockedSatsOf,
      List.map_nil, List.sum_nil, Nat.zero_mul, Nat.add_zero]
  · rcases bind_eq_ok.mp returned with ⟨called, calledEq, isCalled⟩
    cases isCalled
    have bodyMeets := ((claimedWei_systemReportBundleLifecycle claimants env
      update.toCalldata (.start env world) accepts.queued).and
      (systemReportBundleLifecycle_meets env update.toCalldata (.start env world)
        accepts)).mono (fun _ holds => holds.1) fun _ failed => failed.2.2 unmetered
    rcases transactSystemCall_meets bodyMeets (orElseFail_eq_ok.mp calledEq) with
      ⟨frame, claims, stateEq, _⟩
    change claimedWei accounts called.state + _ ≤ _
    rw [stateEq]
    exact claims

/-- The requests whose bundle is reported as succeeded in a block. -/
def succeededIndices (tip : Tip) (executed : ExecutedBlock) : List Nat :=
  (reported .succeeded executed.done.outcomes).flatMap (carriers tip.world.queue)

/-- A block adds its deposits to the claims and takes off what succeeded. -/
theorem Extends.claimedWei_le {accounts : Finset Address} (claimants : Claimants accounts)
    {hashes : Hashes} {sidechainId : UInt32} {tip next : Tip} {executed : ExecutedBlock}
    (extends_ : Extends hashes sidechainId tip executed next)
    (settling : executed.Settling tip) (noWithdrawals : executed.withdrawals = []) :
    claimedWei accounts next.world +
        lockedSatsOf tip.world.queue (succeededIndices tip executed) * weiPerSat ≤
      claimedWei accounts tip.world +
        if depositVaultAddress ∈ accounts then 0
        else depositedSats executed.done.deposits * weiPerSat := by
  rcases extends_.preExecuted with ⟨mainHash, credited, facts⟩
  have growth := grows_creditDeposits facts.creditedBy
  have accepts : Accepts tip.world.queue executed.done.update.toCalldata := by
    rw [extends_.toCalldata_eq]
    exact lifecycleCall_accepts settling.noConflict
  have deposits := claimedWei_creditDeposits claimants facts.creditedBy
  have lifecycle := claimedWei_reportLifecycle claimants settling.unmetered
    (accepts.of_grows growth) facts.reportedBy
  have sameLocked := growth.keeps.lockedSatsOf_eq
    executed.done.update.toCalldata.succeededIndices
    fun index member => accepts.queued index (by simp [member])
  have sameIndices : executed.done.update.toCalldata.succeededIndices =
      succeededIndices tip executed := by
    rw [extends_.toCalldata_eq, lifecycleCall_succeededIndices]
    rfl
  change claimedWei accounts executed.done.state +
    lockedSatsOf credited.queue executed.done.update.toCalldata.succeededIndices * _ ≤ _
    at lifecycle
  rw [sameLocked, sameIndices] at lifecycle
  have userCode := claimedWei_runUserCode_le claimants executed.body.transactions
    executed.done.state
  have nextEq : next.world = runUserCode executed.body.transactions executed.done.state := by
    rw [extends_.next_eq, ExecutedBlock.tip, noWithdrawals]
    rfl
  rw [nextEq]
  exact (Nat.add_le_add_right userCode _).trans (lifecycle.trans deposits)

theorem Extends.keeps {hashes : Hashes} {sidechainId : UInt32} {tip next : Tip}
    {executed : ExecutedBlock} (extends_ : Extends hashes sidechainId tip executed next)
    (settling : executed.Settling tip) : tip.world.queue.Keeps next.world.queue where
  count_le := extends_.requestCount_le
  same := fun index queued => by
    have same := (extends_.advances settling queued).1
    rw [Request.lockedSats, Request.lockedSats, same.2.1, same.2.2.1]

/-! ## The invariant -/

/-- Bundles pay what their requests lock, and stay bundled until resolved. -/
structure Backed (hashes : Hashes) (assigned : List Assignment) (terminal : List Txid)
    (queue : Storage) : Prop where
  nodup : ∀ assignment ∈ assigned, assignment.indices.Nodup
  sats : ∀ assignment ∈ assigned,
    m6Sats assignment.bundle.tx = lockedSatsOf queue assignment.indices
  outstanding : ∀ assignment ∈ assigned, assignment.m6id hashes ∉ terminal →
    ∀ index ∈ assignment.indices, (queue.requests index).status = .bundled

theorem Backed.nil (hashes : Hashes) (queue : Storage) : Backed hashes [] [] queue := by
  constructor <;> simp

/-- Within the cap, what is pending fits 64 bits. -/
theorem lockedSatsOf_pendingIndices_lt {accounts : Finset Address} {world : World}
    (capped : claimedWei accounts world ≤ supplyCapWei) :
    lockedSatsOf world.queue (pendingIndices world.queue) < 2 ^ 64 := by
  have pendingLe : lockedSatsOf world.queue (pendingIndices world.queue) ≤
      world.queue.liveSats := by
    apply lockedSatsOf_le_total (indicesWhere_nodup world.queue _)
    intro index member
    have facts := mem_indicesWhere.mp member
    exact ⟨facts.1.trans_le (readableCount_le _),
      Request.liveSats_of_pending (of_decide_eq_true facts.2)⟩
  have liveLe : world.queue.liveSats * weiPerSat ≤ supplyCapWei :=
    (Nat.le_add_left _ _).trans capped
  simp only [weiPerSat, supplyCapWei] at liveLe
  omega

theorem Backed.extend {hashes : Hashes} {sidechainId : UInt32} {tip next : Tip}
    {assigned : List Assignment} {terminal : List Txid} {executed : ExecutedBlock}
    (backed : Backed hashes assigned terminal tip.world.queue)
    (traced : Traced hashes assigned tip.world.queue)
    (intact : Intact hashes assigned tip.world.queue)
    (fits : lockedSatsOf tip.world.queue (pendingIndices tip.world.queue) < 2 ^ 64)
    (extends_ : Extends hashes sidechainId tip executed next)
    (settling : executed.Settling tip) :
    Backed hashes (assigned ++ (executed.assignment hashes).toList)
      (terminal ++ (reported .succeeded executed.done.outcomes ++
        reported .failed executed.done.outcomes)) next.world.queue := by
  have keeps := extends_.keeps settling
  have queuedOf : ∀ assignment ∈ assigned, ∀ index ∈ assignment.indices,
      index < tip.world.queue.requestCount := fun assignment member index inBundle =>
    (traced index (intact.recorded assignment member index inBundle).1).2.1
  have newBundles : ∀ assignment ∈ executed.assignment hashes,
      Bundles hashes tip.world.queue executed.height assignment.bundle := by
    intro assignment isNew
    rcases Option.map_eq_some_iff.mp isNew with ⟨bundle, bundleEq, assignmentEq⟩
    rw [extends_.bundle_eq] at bundleEq
    rw [← assignmentEq]
    exact selectedBundle_bundles bundleEq
  constructor
  · intro assignment member
    rcases List.mem_append.mp member with isOld | isNew
    · exact backed.nodup assignment isOld
    · exact (newBundles assignment (Option.mem_toList.mp isNew)).nodup
  · intro assignment member
    rcases List.mem_append.mp member with isOld | isNew
    · rw [backed.sats assignment isOld]
      exact (keeps.lockedSatsOf_eq _ (queuedOf assignment isOld)).symm
    · have assignedOn := extends_.assignedOn (Option.mem_toList.mp isNew)
      rw [(newBundles assignment (Option.mem_toList.mp isNew)).sats fits]
      exact (keeps.lockedSatsOf_eq _ fun index inBundle =>
        (assignedOn.pending index inBundle).1.trans_le (readableCount_le _)).symm
  · intro assignment member notTerminal index inBundle
    simp only [List.mem_append, not_or] at notTerminal
    rcases List.mem_append.mp member with isOld | isNew
    · have isBundled := backed.outstanding assignment isOld notTerminal.1 index inBundle
      have recorded := (intact.recorded assignment isOld index inBundle).2
      rw [(extends_.settles settling).settled index
        (queuedOf assignment isOld index inBundle), settledRequest]
      have notSelected : index ∉ (lifecycleCall hashes executed.order tip.world.queue
          executed.done.outcomes executed.height).bundledIndices := by
        intro selected
        have pending := (lifecycleCall_bundled_pending selected).2
        rw [isBundled] at pending
        cases pending
      rw [if_neg notSelected, if_neg, if_neg, isBundled]
      · rw [lifecycleCall_failedIndices, mem_flatMap_carriers traced, recorded]
        exact fun failed => notTerminal.2.2 failed.2
      · rw [lifecycleCall_succeededIndices, mem_flatMap_carriers traced, recorded]
        exact fun succeeded => notTerminal.2.1 succeeded.2
    · exact (extends_.assigned_bundled settling _ (Option.mem_toList.mp isNew) index
        inBundle).1

/-- What the bundles reported in a block pay is locked by the requests the block
confirms. -/
theorem paidSats_le_lockedSatsOf {hashes : Hashes} {tip : Tip} (executed : ExecutedBlock)
    {assigned : List Assignment} {terminal : List Txid}
    (backed : Backed hashes assigned terminal tip.world.queue)
    (traced : Traced hashes assigned tip.world.queue)
    (intact : Intact hashes assigned tip.world.queue)
    (unresolved : ∀ assignment ∈ assigned,
      assignment.m6id hashes ∈ reported .succeeded executed.done.outcomes →
      assignment.m6id hashes ∉ terminal) :
    paidSats hashes assigned (reported .succeeded executed.done.outcomes) ≤
      lockedSatsOf tip.world.queue (succeededIndices tip executed) := by
  rw [succeededIndices, lockedSatsOf_flatMap]
  apply paidSats_le hashes intact.distinct
  intro assignment member succeeded
  rw [backed.sats assignment member]
  apply lockedSatsOf_le_of_subperm
  apply List.subperm_of_subset (backed.nodup assignment member)
  intro index inBundle
  have isBundled := backed.outstanding assignment member
    (unresolved assignment member succeeded) index inBundle
  have recorded := intact.recorded assignment member index inBundle
  have trace := traced index recorded.1
  exact mem_indicesWhere.mpr
    ⟨lt_readableCount trace.2.1 trace.1, by simp [isBundled, recorded.2]⟩

/-! ## Every chain -/

/-- All accounts but the queue. -/
def outsideQueue : Finset Address := {withdrawalRequestQueueAddress}ᶜ

theorem mem_outsideQueue (account : Address) :
    account ∈ outsideQueue ↔ account ≠ withdrawalRequestQueueAddress := by
  rw [outsideQueue, Finset.mem_compl, Finset.mem_singleton]

attribute [irreducible] outsideQueue

theorem claimants_circulating : Claimants circulating where
  users := fun account notPredeploy => (mem_circulating account).mpr notPredeploy
  queue := fun isIn => (mem_circulating _).mp isIn queue_mem_predeploys

theorem claimants_outsideQueue : Claimants outsideQueue where
  users := fun account notPredeploy => (mem_outsideQueue account).mpr fun isQueue =>
    notPredeploy (isQueue ▸ queue_mem_predeploys)
  queue := fun isIn => (mem_outsideQueue _).mp isIn rfl

theorem vault_not_mem_circulating : depositVaultAddress ∉ circulating := fun isIn =>
  (mem_circulating _).mp isIn vault_mem_predeploys

theorem vault_mem_outsideQueue : depositVaultAddress ∈ outsideQueue :=
  (mem_outsideQueue _).mpr queue_ne_vault.symm

theorem claimedWei_genesis (accounts : Finset Address) :
    claimedWei accounts .genesis =
      if depositVaultAddress ∈ accounts then supplyCapWei else 0 := by
  have live : World.genesis.queue.liveSats = 0 := by
    simp [World.genesis, Storage.initial, Storage.liveSats, Storage.total]
  rw [claimedWei, live, Nat.zero_mul, Nat.add_zero, World.genesis]
  exact Ledger.held_credit_zero accounts depositVaultAddress supplyCapWei

/-- What is known of a state of the chain besides where its bundles came from. -/
structure Covered (hashes : Hashes) (history : List ExecutedBlock) (world : World) :
    Prop where
  covered : claimedWei circulating world +
      paidSats hashes (assignments hashes history) (succeededIn history) * weiPerSat ≤
    depositedIn history * weiPerSat
  capped : claimedWei outsideQueue world ≤ supplyCapWei
  backed : Backed hashes (assignments hashes history) (terminalIn history) world.queue
  intact : Intact hashes (assignments hashes history) world.queue

theorem covered_genesis (hashes : Hashes) : Covered hashes [] .genesis where
  covered := by
    rw [claimedWei_genesis, if_neg vault_not_mem_circulating]
    simp [paidSats, assignments]
  capped := ((claimedWei_genesis outsideQueue).trans (if_pos vault_mem_outsideQueue)).le
  backed := .nil hashes _
  intact := .nil hashes _

/-- Outcomes that resolve every bundle at most once conflict in no block. -/
theorem ResolvedOnce.noConflict {hashes : Hashes} {history : List ExecutedBlock}
    {executed : ExecutedBlock} {queue : Storage}
    (resolved : ResolvedOnce hashes (history ++ [executed]))
    (traced : Traced hashes (assignments hashes history) queue) :
    NoConflict queue executed.done.outcomes := by
  intro m6id inFlight
  rcases List.exists_mem_of_ne_nil _ inFlight with ⟨index, carried⟩
  have facts := of_decide_eq_true (mem_indicesWhere.mp carried).2
  rcases traced index (by simp [facts.1]) with ⟨_, _, assignment, member, _, m6idEq⟩
  have atMostOnce := resolved.once assignment
    (by rw [assignments_append]; exact List.mem_append_left _ member)
  rw [← m6idEq, facts.2, terminalIn_append, List.count_append] at atMostOnce
  omega

/-- A bundle that succeeds now was not resolved before. -/
theorem ResolvedOnce.unresolved {hashes : Hashes} {history : List ExecutedBlock}
    {executed : ExecutedBlock} (resolved : ResolvedOnce hashes (history ++ [executed]))
    {assignment : Assignment} (member : assignment ∈ assignments hashes history)
    (succeeded : assignment.m6id hashes ∈ reported .succeeded executed.done.outcomes) :
    assignment.m6id hashes ∉ terminalIn history := by
  intro already
  have atMostOnce := resolved.once assignment
    (by rw [assignments_append]; exact List.mem_append_left _ member)
  rw [terminalIn_append, List.count_append, List.count_append] at atMostOnce
  have before := List.count_pos_iff.mpr already
  have now := List.count_pos_iff.mpr succeeded
  omega

/-- The bundle a block assigns has not succeeded by the end of the block. -/
theorem ResolvedAfterwards.new_not_succeeded {hashes : Hashes}
    {history : List ExecutedBlock} {executed : ExecutedBlock}
    (resolved : ResolvedAfterwards hashes (history ++ [executed])) {queue : Storage}
    (intact : Intact hashes (assignments hashes history ++
      (executed.assignment hashes).toList) queue) :
    ∀ assignment ∈ (executed.assignment hashes).toList,
      assignment.m6id hashes ∉
        succeededIn history ++ reported .succeeded executed.done.outcomes := by
  intro assignment isNew succeeded
  have known : assignment.m6id hashes ∈ assignedM6ids hashes history := by
    rcases List.mem_append.mp succeeded with before | now
    · exact resolved.front.known before
    · exact resolved.assigned history executed [] rfl now
  rcases List.mem_map.mp known with ⟨other, isOld, sameM6id⟩
  exact (List.pairwise_append.mp intact.distinct).2.2 other isOld assignment isNew sameM6id

theorem Covered.extend {hashes : Hashes} {sidechainId : UInt32} {tip next : Tip}
    {history : List ExecutedBlock} {executed : ExecutedBlock}
    (before : Covered hashes history tip.world)
    (traced : Traced hashes (assignments hashes history) tip.world.queue)
    (commits : ∀ assignment ∈ assignments hashes history, assignment.Commits hashes)
    (free : hashes.CollisionFree
      (assignments hashes history ++ (executed.assignment hashes).toList))
    (resolved : ResolvedAfterwards hashes (history ++ [executed]))
    (extends_ : Extends hashes sidechainId tip executed next)
    (unmetered : executed.lifecycleEnv.gasLimit = none)
    (noWithdrawals : executed.withdrawals = []) :
    Covered hashes (history ++ [executed]) next.world := by
  have settling : executed.Settling tip :=
    { unmetered := unmetered
      noConflict := resolved.toResolvedOnce.noConflict traced }
  have intact := before.intact.extend traced commits free extends_ settling
  have claims := extends_.claimedWei_le claimants_circulating settling noWithdrawals
  rw [if_neg vault_not_mem_circulating] at claims
  have capped := extends_.claimedWei_le claimants_outsideQueue settling noWithdrawals
  rw [if_pos vault_mem_outsideQueue, Nat.add_zero] at capped
  have paidNow := paidSats_le_lockedSatsOf executed before.backed traced
    before.intact fun _ member => resolved.toResolvedOnce.unresolved member
  have paid : paidSats hashes (assignments hashes (history ++ [executed]))
        (succeededIn (history ++ [executed])) ≤
      paidSats hashes (assignments hashes history) (succeededIn history) +
        lockedSatsOf tip.world.queue (succeededIndices tip executed) := by
    rw [assignments_append, succeededIn_append,
      paidSats_append_left _ _ _ _ (resolved.new_not_succeeded intact)]
    exact (paidSats_append_right_le _ _ _ _).trans (Nat.add_le_add_left paidNow _)
  constructor
  · rw [depositedIn_append, Nat.add_mul]
    have paidWei := Nat.mul_le_mul_right weiPerSat paid
    rw [Nat.add_mul] at paidWei
    have coveredBefore := before.covered
    linarith
  · exact (Nat.le_add_right _ _).trans (capped.trans before.capped)
  · rw [assignments_append, terminalIn_append]
    exact before.backed.extend traced before.intact
      (lockedSatsOf_pendingIndices_lt before.capped) extends_ settling
  · rw [assignments_append]
    exact intact

theorem covered_of_chain {hashes : Hashes} {sidechainId : UInt32} {genesisHash : B256}
    {withdrawalsRoot : Option B256} {history : List ExecutedBlock} {final : Tip}
    (noWithdrawals : ∀ executed ∈ history, executed.withdrawals = [])
    (unmetered : ∀ executed ∈ history, executed.lifecycleEnv.gasLimit = none)
    (free : hashes.CollisionFree (assignments hashes history))
    (resolved : ResolvedAfterwards hashes history)
    (chain : Chain hashes sidechainId (.genesis genesisHash withdrawalsRoot) history
      final) :
    Covered hashes history final.world := by
  refine Run.invariant (fun history final =>
    (∀ executed ∈ history, executed.withdrawals = []) →
    (∀ executed ∈ history, executed.lifecycleEnv.gasLimit = none) →
    hashes.CollisionFree (assignments hashes history) →
    ResolvedAfterwards hashes history →
    Covered hashes history final.world) ?_ ?_ chain noWithdrawals unmetered free resolved
  · exact fun _ _ _ _ => covered_genesis hashes
  · intro history tip executed next before induction extends_ noWithdrawals unmetered free
      resolved
    rw [assignments_append] at free
    have coveredBefore := induction
      (fun other member => noWithdrawals other (by simp [member]))
      (fun other member => unmetered other (by simp [member]))
      (free.mono (List.subset_append_left _ _)) resolved.front
    exact coveredBefore.extend (traced_of_chain rfl before) (commits_of_chain before) free
      resolved extends_ (unmetered executed (by simp)) (noWithdrawals executed (by simp))

/-- Along every chain from genesis without body withdrawals, gas aside, whose
bundles succeed only after they were assigned and are resolved at most once, the
treasury covers the circulating ether and the live requests. -/
theorem treasury_covers_claims (hashes : Hashes) (sidechainId : UInt32)
    (genesisHash : B256) (withdrawalsRoot : Option B256) (history : List ExecutedBlock)
    (final : Tip)
    (noWithdrawals : ∀ executed ∈ history, executed.withdrawals = [])
    (unmetered : ∀ executed ∈ history, executed.lifecycleEnv.gasLimit = none)
    (free : hashes.CollisionFree (assignments hashes history))
    (resolved : ResolvedAfterwards hashes history)
    (chain : Chain hashes sidechainId (.genesis genesisHash withdrawalsRoot) history
      final) :
    PegSolvent hashes history final.world := by
  have covered := (covered_of_chain noWithdrawals unmetered free resolved chain).covered
  have asIntegers : (claimedWei circulating final.world : Int) +
        (paidSats hashes (assignments hashes history) (succeededIn history) : Int) *
          (weiPerSat : Int) ≤
      (depositedIn history : Int) * (weiPerSat : Int) := by exact_mod_cast covered
  rw [claimedWei] at asIntegers
  unfold PegSolvent treasurySats
  push_cast at asIntegers
  linarith

/-! The deposit of 5 satoshis, after the withdrawal of 3 was confirmed in block 3,
and when the bundle of block 2 is reported as succeeded in block 2 already. -/

theorem treasury_covers_claims_confirmed :
    ∃ history final,
      Chain withdrawalHashes 10 (.genesis (.replicate 32 0) none) history final ∧
      treasurySats withdrawalHashes history = 2 ∧
      PegSolvent withdrawalHashes history final.world := by
  have executes : Meets (executeAll withdrawalHashes 10 (.genesis (.replicate 32 0) none)
        confirmedProposals)
      (fun result => treasurySats withdrawalHashes result.1 = 2 ∧
        (∀ executed ∈ result.1, executed.withdrawals = [] ∧
          executed.lifecycleEnv.gasLimit = none) ∧
        (assignments withdrawalHashes result.1).length ≤ 1 ∧
        (∀ assignment ∈ assignments withdrawalHashes result.1,
          (terminalIn result.1).count (assignment.m6id withdrawalHashes) ≤ 1) ∧
        succeededIn result.1 ⊆ assignedM6ids withdrawalHashes result.1 ∧
        ∀ position, (inside : position < result.1.length) →
          reported .succeeded result.1[position].done.outcomes ⊆
            assignedM6ids withdrawalHashes (result.1.take position))
      fun _ => False := by decide +kernel
  rcases executes.exists_ok (fun _ failed => failed) with
    ⟨result, resultEq, treasury, plain, single, once, known, assigned⟩
  have chain := (chain_of_executeAll resultEq).1
  exact ⟨result.1, result.2, chain, treasury,
    treasury_covers_claims withdrawalHashes 10 _ _ result.1 result.2
      (fun executed member => (plain executed member).1)
      (fun executed member => (plain executed member).2) (.of_length_le_one single)
      { once := once
        known := known
        assigned := forall_split_of_take assigned } chain⟩

def earlyEvents (number : Nat) : List BlockEvent :=
  if number = 2 then
    [bundleEvent (withdrawalHashes.computeTxid
      { version := 2
        lockTime := 0
        input := []
        output := [] }) .succeeded]
  else depositAtBlockOne number

def earlyProposals : List Proposal :=
  let enforcer := (withdrawalMainchain earlyEvents).enforcer (Mainchain.linearBlock 2)
  [requestingProposal enforcer,
    .empty (.replicate 32 2) (Mainchain.linearBlock 2) enforcer]

/-- The requests of a bundle that succeeded too early stay live. -/
theorem early_success_insolvent :
    ∃ history final,
      Chain withdrawalHashes 10 (.genesis (.replicate 32 0) none) history final ∧
      (∀ executed ∈ history, executed.withdrawals = [] ∧
        executed.depositEnv.gasLimit = none ∧ executed.lifecycleEnv.gasLimit = none) ∧
      withdrawalHashes.CollisionFree (assignments withdrawalHashes history) ∧
      ResolvedOnce withdrawalHashes history ∧
      ¬ PegSolvent withdrawalHashes history final.world := by
  have executes : Meets (executeAll withdrawalHashes 10 (.genesis (.replicate 32 0) none)
        earlyProposals)
      (fun result => treasurySats withdrawalHashes result.1 = 2 ∧
        result.2.world.queue.liveSats = 3 ∧
        (∀ executed ∈ result.1, executed.withdrawals = [] ∧
          executed.depositEnv.gasLimit = none ∧ executed.lifecycleEnv.gasLimit = none) ∧
        (assignments withdrawalHashes result.1).length ≤ 1 ∧
        (∀ assignment ∈ assignments withdrawalHashes result.1,
          (terminalIn result.1).count (assignment.m6id withdrawalHashes) ≤ 1) ∧
        succeededIn result.1 ⊆ assignedM6ids withdrawalHashes result.1)
      fun _ => False := by decide +kernel
  rcases executes.exists_ok (fun _ failed => failed) with
    ⟨result, resultEq, treasury, live, plain, single, once, known⟩
  refine ⟨result.1, result.2, (chain_of_executeAll resultEq).1, plain,
    .of_length_le_one single, ⟨once, known⟩, ?_⟩
  unfold PegSolvent
  rw [treasury, live]
  have positive : (0 : Int) < weiPerSat := by
    have asNat : 0 < weiPerSat := by simp [weiPerSat]
    exact_mod_cast asNat
  have held : (0 : Int) ≤ Ledger.held circulating result.2.world.balances :=
    Int.natCast_nonneg _
  push_cast
  omega

end Beth
