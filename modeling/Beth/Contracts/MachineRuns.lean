import Beth.Contracts.QueueMachine

/-! # System calls as runs of the machine

Every call of `systemReportBundleLifecycle` that the block execution makes and
that returns is a run of the machine between two states with no frame open, so
that what holds of all runs holds of all blocks. -/

namespace Beth

open Foundation

namespace WithdrawalRequestQueue

/-! ## What an iteration that returns did -/

theorem markRequest_ok {env : CallEnv} {expected : Status} {refusal : String}
    {change : Request → Request} {event : Nat → Request → Event} {frame next : Frame}
    {index : Nat}
    (returned : markRequest env expected refusal change event frame index = .ok next) :
    (frame.world.queue.requests index).status = expected ∧
      next.world = changeRequest index change frame.world := by
  rcases bind_eq_ok.mp returned with ⟨charged, charging, afterCharge⟩
  have sameWorld := (frame.charge_meets _).returns_of_eq_ok charging
  rcases bind_eq_ok.mp afterCharge with ⟨_, required, isNext⟩
  by_cases ready : (charged.world.queue.requests index).status = expected
  · cases isNext
    rw [sameWorld.1] at ready
    refine ⟨ready, ?_⟩
    rw [Frame.emit_world, Frame.setRequest, sameWorld.1]
    rfl
  · rw [require_of_not _ ready] at required
    cases required

theorem refundRequest_ok {env : CallEnv} {frame next : Frame} {index : Nat}
    (returned : refundRequest env frame index = .ok next) :
    (frame.world.queue.requests index).status = .bundled ∧
      ∃ success, Frame.PaymentEffect withdrawalRequestQueueAddress
        (frame.world.queue.requests index).requester
        (frame.world.queue.requests index).lockedWei
        (changeRequest index Request.refund frame.world) success next.world := by
  by_cases bundled : (frame.world.queue.requests index).status = .bundled
  · have refunded := (refundRequest_meets env frame index bundled).returns_of_eq_ok returned
    rcases refunded.paid with ⟨success, _, effect⟩
    exact ⟨bundled, success, effect⟩
  · exact ((refundRequest_refuses env frame index bundled).returns_of_eq_ok returned).elim

/-! ## Short destinations -/

namespace Storage.ShortDestinations

theorem of_grows {before after : Storage} (short : after.ShortDestinations)
    (growth : Grows before after) : before.ShortDestinations := by
  intro index queued
  rw [← growth.kept index queued]
  exact short index (queued.trans_le growth.count_le)

theorem of_setRequest {storage : Storage} {index : Nat} {request : Request}
    (short : (storage.setRequest index request).ShortDestinations)
    (same : (storage.requests index).SameWithdrawal request) :
    storage.ShortDestinations := by
  intro other queued
  have found := short other queued
  by_cases here : other = index
  · subst here
    rw [Storage.setRequest_same] at found
    rw [same.2.2.2]
    exact found
  · rw [Storage.setRequest_of_ne _ _ here] at found
    exact found

theorem of_requestWithdrawal {sender : Address} {msgValue mainFeeSats : Nat}
    {btcDestination : Bytes} {world next : World} (short : next.queue.ShortDestinations)
    (returned : requestWithdrawal sender msgValue btcDestination mainFeeSats world = .ok next) :
    btcDestination.length < 2 ^ 64 := by
  rcases requestWithdrawal_ok returned with
    ⟨request, _, _, _, destination, _, _, _, _, countEq, requestsEq⟩
  have newest := short world.queue.requestCount (by omega)
  rw [requestsEq, Function.update_self, destination] at newest
  exact newest

theorem of_refundRequest {env : CallEnv} {frame next : Frame} {index : Nat}
    (short : next.world.queue.ShortDestinations)
    (returned : refundRequest env frame index = .ok next) :
    frame.world.queue.ShortDestinations := by
  rcases refundRequest_ok returned with ⟨_, success, effect⟩
  have marked : (changeRequest index Request.refund frame.world).queue.ShortDestinations :=
    short.of_grows (grows_of_payment effect)
  exact of_setRequest marked (Request.sameWithdrawal_refund _)

theorem of_refunds {env : CallEnv} {indices : List Nat} {frame next : Frame}
    (short : next.world.queue.ShortDestinations)
    (returned : indices.foldlM (refundRequest env) frame = .ok next) :
    frame.world.queue.ShortDestinations := by
  induction indices generalizing frame with
  | nil =>
      cases returned
      exact short
  | cons index rest induction =>
      rw [List.foldlM_cons] at returned
      rcases bind_eq_ok.mp returned with ⟨middle, first, others⟩
      exact (induction others).of_refundRequest first

theorem of_marks {env : CallEnv} {expected : Status} {refusal : String}
    {change : Request → Request} {event : Nat → Request → Event} {indices : List Nat}
    {frame next : Frame} (short : next.world.queue.ShortDestinations)
    (same : ∀ request : Request, request.SameWithdrawal (change request))
    (returned : indices.foldlM (markRequest env expected refusal change event) frame =
      .ok next) : frame.world.queue.ShortDestinations := by
  induction indices generalizing frame with
  | nil =>
      cases returned
      exact short
  | cons index rest induction =>
      rw [List.foldlM_cons] at returned
      rcases bind_eq_ok.mp returned with ⟨middle, first, others⟩
      have marked := induction others
      rw [(markRequest_ok first).2] at marked
      exact of_setRequest marked (same _)

theorem of_lifecycleCall {env : CallEnv} {call : SystemReportBundleLifecycleCall}
    {frame next : Frame} (short : next.world.queue.ShortDestinations)
    (returned : systemReportBundleLifecycle env systemAddress call frame = .ok next) :
    frame.world.queue.ShortDestinations := by
  rw [systemReportBundleLifecycle_eq] at returned
  rcases bind_eq_ok.mp returned with ⟨confirmed, marking, refunding⟩
  rcases bind_eq_ok.mp marking with ⟨bundled, bundling, confirming⟩
  have afterConfirming := short.of_refunds refunding
  have afterBundling := afterConfirming.of_marks Request.sameWithdrawal_confirm confirming
  exact afterBundling.of_marks (Request.sameWithdrawal_bundle · call.newM6id) bundling

end Storage.ShortDestinations

/-- A call of the contract that returns is a call of the machine that does. -/
theorem Journal.exists_requestWithdrawal (keccak256 : Bytes → B256) (journal : Journal)
    {sender : Address} {msgValue mainFeeSats : Nat} {btcDestination : Bytes} {next : World}
    (decodes : btcDestination.length < 2 ^ 64)
    (returned : WithdrawalRequestQueue.requestWithdrawal sender msgValue btcDestination
      mainFeeSats journal.world = .ok next) :
    ∃ after, journal.requestWithdrawal keccak256 sender msgValue btcDestination mainFeeSats =
      .ok after ∧ after.world = next := by
  rw [Journal.requestWithdrawal, require_of_holds _ decodes, ok_bind, returned, ok_bind]
  exact ⟨_, rfl, rfl⟩

/-! ## Reaching a world -/

/-- Some run from `state` ends in `world` with `stack` open. -/
def MachineState.Reaches (keccak256 : Bytes → B256) (state : MachineState) (world : World)
    (stack : List OpenFrame) : Prop :=
  ∃ history journal, Run (Steps keccak256) state history { journal := journal, stack := stack } ∧
    journal.world = world

namespace MachineState

variable {keccak256 : Bytes → B256}

theorem reaches_refl (journal : Journal) (stack : List OpenFrame) :
    Reaches keccak256 { journal := journal, stack := stack } journal.world stack :=
  ⟨[], journal, .start, rfl⟩

/-- One step first. -/
theorem reaches_step {state middle : MachineState} {world : World} {stack : List OpenFrame}
    (action : Action) (taken : step keccak256 state action = some middle)
    (reaches : Reaches keccak256 middle world stack) : Reaches keccak256 state world stack := by
  rcases reaches with ⟨history, journal, run, isWorld⟩
  have started : Run (Steps keccak256) state ([] ++ [action]) middle := .extend .start taken
  exact ⟨_, journal, started.append run, isWorld⟩

theorem Reaches.trans {state : MachineState} {middle world : World}
    {first second : List OpenFrame} (reaches : Reaches keccak256 state middle first)
    (onwards : ∀ journal : Journal, journal.world = middle →
      Reaches keccak256 { journal := journal, stack := first } world second) :
    Reaches keccak256 state world second := by
  rcases reaches with ⟨history, journal, run, isMiddle⟩
  rcases onwards journal isMiddle with ⟨later, final, run', isWorld⟩
  exact ⟨_, final, run.append run', isWorld⟩

/-! ## User code -/

/-- The user code on top of the stack lets another account act in its place. -/
theorem reaches_acting {journal : Journal} {running : UserAccount} {snapshot : Journal}
    {outer : List OpenFrame} (actor : UserAccount) {world : World}
    (acts : Reaches keccak256
      { journal := journal
        stack := { activation := .user actor, snapshot := journal } ::
          { activation := .user running, snapshot := snapshot } :: outer }
      world
      ({ activation := .user actor, snapshot := journal } ::
        { activation := .user running, snapshot := snapshot } :: outer)) :
    Reaches keccak256
      { journal := journal
        stack := { activation := .user running, snapshot := snapshot } :: outer }
      world ({ activation := .user running, snapshot := snapshot } :: outer) := by
  refine reaches_step (.call actor 0) (congrArg some (if_pos (Nat.zero_le _))) ?_
  rw [Ledger.move_zero]
  apply acts.trans
  intro after isWorld
  apply reaches_step .leave rfl
  exact isWorld ▸ reaches_refl after _

theorem reaches_apply {action : UserAction} {journal : Journal}
    (short : (action.apply journal.world).queue.ShortDestinations)
    (running : UserAccount) (snapshot : Journal) (outer : List OpenFrame) :
    Reaches keccak256
      { journal := journal
        stack := { activation := .user running, snapshot := snapshot } :: outer }
      (action.apply journal.world)
      ({ activation := .user running, snapshot := snapshot } :: outer) := by
  by_cases spends : action.spender ∈ predeploys
  · have unchanged : action.apply journal.world = journal.world := if_pos spends
    rw [unchanged]
    exact reaches_refl journal _
  unfold UserAction.apply at short ⊢
  rw [if_neg spends] at short ⊢
  apply reaches_acting ⟨action.spender, spends⟩
  cases action with
  | transfer sender recipient amountWei =>
      dsimp only
      split
      · refine reaches_step (.forceEther recipient amountWei) (congrArg some (if_pos ‹_›)) ?_
        exact reaches_refl (journal.withBalances _) _
      · exact reaches_refl journal _
  | burn owner amountWei =>
      have notQueue : owner ≠ withdrawalRequestQueueAddress :=
        UserAccount.ne_queue ⟨owner, spends⟩
      dsimp only
      split
      · apply reaches_step (.spend owner amountWei) (if_neg notQueue)
        exact reaches_refl (journal.withBalances _) _
      · exact reaches_refl journal _
  | requestWithdrawal sender msgValue btcDestination mainFeeSats =>
      dsimp only at short ⊢
      cases returned : WithdrawalRequestQueue.requestWithdrawal sender msgValue btcDestination
          mainFeeSats journal.world with
      | ok next =>
          rw [returned] at short
          have decodes : btcDestination.length < 2 ^ 64 := short.of_requestWithdrawal returned
          rcases journal.exists_requestWithdrawal keccak256 decodes returned with
            ⟨after, requested, isWorld⟩
          apply reaches_step (.requestWithdrawal msgValue btcDestination mainFeeSats) rfl
          dsimp only [UserAction.spender]
          rw [requested]
          exact isWorld ▸ reaches_refl after _
      | error failure => exact reaches_refl journal _

theorem reaches_runUserCode {actions : List UserAction} {journal : Journal}
    (short : (runUserCode actions journal.world).queue.ShortDestinations)
    (running : UserAccount) (snapshot : Journal) (outer : List OpenFrame) :
    Reaches keccak256
      { journal := journal
        stack := { activation := .user running, snapshot := snapshot } :: outer }
      (runUserCode actions journal.world)
      ({ activation := .user running, snapshot := snapshot } :: outer) := by
  induction actions generalizing journal with
  | nil => exact reaches_refl journal _
  | cons action rest induction =>
      change (runUserCode rest (action.apply journal.world)).queue.ShortDestinations at short
      apply (reaches_apply (short.of_grows (grows_runUserCode rest _)) running snapshot
        outer).trans
      intro after isWorld
      rw [← isWorld] at short
      have others := induction short
      rw [isWorld] at others
      exact others

/-! ## The loops -/

section Loops

variable {env : CallEnv} {newM6id : B256} {succeeded failed : List Nat} {snapshot : Journal}
  {outer : List OpenFrame}

theorem reaches_bundling {indices : List Nat} {frame next : Frame}
    (returned : indices.foldlM (bundleRequest env newM6id) frame = .ok next)
    (journal : Journal) (isWorld : journal.world = frame.world) :
    Reaches keccak256
      { journal := journal
        stack :=
          { activation := .lifecycle ⟨indices, newM6id, succeeded, failed⟩
            snapshot := snapshot } :: outer }
      next.world
      ({ activation := .lifecycle ⟨[], newM6id, succeeded, failed⟩
         snapshot := snapshot } :: outer) := by
  induction indices generalizing frame journal with
  | nil =>
      cases returned
      exact isWorld ▸ reaches_refl journal _
  | cons index rest induction =>
      rw [List.foldlM_cons] at returned
      rcases bind_eq_ok.mp returned with ⟨middle, first, others⟩
      have marked := markRequest_ok first
      rw [← isWorld] at marked
      refine reaches_step .advance (congrArg some (if_pos marked.1)) ?_
      exact induction others _ marked.2.symm

theorem reaches_confirming {indices : List Nat} {frame next : Frame}
    (returned : indices.foldlM (confirmRequest env) frame = .ok next)
    (journal : Journal) (isWorld : journal.world = frame.world) :
    Reaches keccak256
      { journal := journal
        stack :=
          { activation := .lifecycle ⟨[], newM6id, indices, failed⟩
            snapshot := snapshot } :: outer }
      next.world
      ({ activation := .lifecycle ⟨[], newM6id, [], failed⟩, snapshot := snapshot } :: outer) := by
  induction indices generalizing frame journal with
  | nil =>
      cases returned
      exact isWorld ▸ reaches_refl journal _
  | cons index rest induction =>
      rw [List.foldlM_cons] at returned
      rcases bind_eq_ok.mp returned with ⟨middle, first, others⟩
      have marked := markRequest_ok first
      rw [← isWorld] at marked
      refine reaches_step .advance (congrArg some (if_pos marked.1)) ?_
      exact induction others _ marked.2.symm

/-- The refund of one request, with the frame of its payee run to its end. -/
theorem reaches_refund {index : Nat} {frame next : Frame}
    (short : next.world.queue.ShortDestinations)
    (returned : refundRequest env frame index = .ok next)
    (journal : Journal) (isWorld : journal.world = frame.world) (waiting : OpenFrame) :
    Reaches keccak256 (refundStep keccak256 index waiting outer journal) next.world
      (waiting :: outer) := by
  rcases refundRequest_ok returned with ⟨_, success, effect⟩
  rw [← isWorld] at effect
  generalize worldIs : next.world = world at effect short ⊢
  cases effect with
  | rejected =>
      unfold refundStep
      dsimp only
      split
      · -- the frame of the payee reverts, which puts the marked journal back
        apply reaches_step .revert rfl
        exact reaches_refl (journal.markRefunded keccak256 index) _
      · exact reaches_refl (journal.markRefunded keccak256 index) _
  | paid actions notPredeploy covered =>
      rw [refundStep, dif_pos ⟨notPredeploy, covered⟩]
      have refunded : (journal.markRefunded keccak256 index).world.queue.requests index =
          (journal.world.queue.requests index).refund := Storage.setRequest_same _ _ _
      have worldPaid :
          ((journal.markRefunded keccak256 index).payRefund index).world =
            { changeRequest index Request.refund journal.world with
              balances := journal.world.balances.move withdrawalRequestQueueAddress
                (journal.world.queue.requests index).requester
                (journal.world.queue.requests index).lockedWei } := by
        rw [Journal.payRefund, refunded]
        rfl
      change (runUserCode actions { changeRequest index Request.refund journal.world with
        balances := journal.world.balances.move _ _ _ }).queue.ShortDestinations at short
      change Reaches keccak256 _ (runUserCode actions
        { changeRequest index Request.refund journal.world with
          balances := journal.world.balances.move _ _ _ }) _
      rw [← worldPaid] at short ⊢
      apply (reaches_runUserCode short _ _ _).trans
      intro after isAfter
      apply reaches_step .leave rfl
      exact isAfter ▸ reaches_refl after _

theorem reaches_refunding {indices : List Nat} {frame next : Frame}
    (short : next.world.queue.ShortDestinations)
    (returned : indices.foldlM (refundRequest env) frame = .ok next)
    (journal : Journal) (isWorld : journal.world = frame.world) :
    Reaches keccak256
      { journal := journal
        stack :=
          { activation := .lifecycle ⟨[], newM6id, [], indices⟩, snapshot := snapshot } :: outer }
      next.world
      ({ activation := .lifecycle ⟨[], newM6id, [], []⟩, snapshot := snapshot } :: outer) := by
  induction indices generalizing frame journal with
  | nil =>
      cases returned
      exact isWorld ▸ reaches_refl journal _
  | cons index rest induction =>
      rw [List.foldlM_cons] at returned
      rcases bind_eq_ok.mp returned with ⟨middle, first, others⟩
      have bundled := (refundRequest_ok first).1
      rw [← isWorld] at bundled
      refine reaches_step .advance (congrArg some (if_pos bundled)) ?_
      apply (reaches_refund (short.of_refunds others) first journal isWorld _).trans
      intro after isAfter
      exact induction others after isAfter

end Loops

/-- The machine makes every system call that the block execution makes. -/
theorem reaches_systemReportBundleLifecycle {env : CallEnv}
    {call : SystemReportBundleLifecycleCall} {frame : Frame} {journal : Journal}
    (short : frame.world.queue.ShortDestinations)
    (returned : systemReportBundleLifecycle env systemAddress call
      (.start env journal.world) = .ok frame) :
    Reaches keccak256 { journal := journal, stack := [] } frame.world [] := by
  rw [systemReportBundleLifecycle_eq] at returned
  rcases bind_eq_ok.mp returned with ⟨confirmed, marking, refunding⟩
  rcases bind_eq_ok.mp marking with ⟨bundled, bundling, confirming⟩
  apply reaches_step (.systemCall call) rfl
  apply (reaches_bundling bundling journal rfl).trans
  intro afterBundling isBundled
  apply (reaches_confirming confirming afterBundling isBundled).trans
  intro afterConfirming isConfirmed
  apply (reaches_refunding short refunding afterConfirming isConfirmed).trans
  intro afterRefunding isRefunded
  apply reaches_step .advance rfl
  exact isRefunded ▸ reaches_refl afterRefunding _

end MachineState

end WithdrawalRequestQueue

end Beth
