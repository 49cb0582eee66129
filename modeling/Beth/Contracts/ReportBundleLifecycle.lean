import Beth.Contracts.SystemCall

/-! # `WithdrawalRequestQueue.systemReportBundleLifecycle` -/

namespace Beth

open Foundation

namespace WithdrawalRequestQueue

structure SystemReportBundleLifecycleCall where
  bundledIndices : List Nat
  newM6id : B256
  succeededIndices : List Nat
  failedIndices : List Nat
deriving DecidableEq

/-! ## The lifecycle changes of one request -/

def Request.bundle (newM6id : B256) (request : Request) : Request :=
  { request with status := .bundled, bundleM6id := newM6id }

def Request.confirm (request : Request) : Request :=
  { request with status := .confirmed }

def Request.refund (request : Request) : Request :=
  { request with status := .refunded }

/-! ## The three loops -/

/-- The body the first two loops share: check the status, write the request,
emit the event. -/
def markRequest (env : CallEnv) (expected : Status) (refusal : String)
    (change : Request → Request) (event : Nat → Request → Event)
    (frame : Frame) (index : Nat) : Except CallFailure Frame := do
  let frame ← frame.charge env.schedule.bookkeeping
  let request := frame.world.queue.requests index
  require (request.status = expected) refusal
  pure ((frame.setRequest index (change request)).emit (event index request))

/-- One iteration of the loop over `bundledIndices`. -/
def bundleRequest (env : CallEnv) (newM6id : B256) :
    Frame → Nat → Except CallFailure Frame :=
  markRequest env .pending "WithdrawalRequestQueue: not pending"
    (Request.bundle newM6id) (fun index _ => .withdrawalBundled index newM6id)

/-- One iteration of the loop over `succeededIndices`. -/
def confirmRequest (env : CallEnv) : Frame → Nat → Except CallFailure Frame :=
  markRequest env .bundled "WithdrawalRequestQueue: not bundled"
    Request.confirm (fun index request => .withdrawalConfirmed index request.bundleM6id)

/-- One iteration of the loop over `failedIndices`. The request is marked
refunded before the CALL that returns its ether. -/
def refundRequest (env : CallEnv) (frame : Frame) (index : Nat) :
    Except CallFailure Frame := do
  let request := frame.world.queue.requests index
  let frame ← frame.charge (env.schedule.beforeCall request.requester)
  require (request.status = .bundled) "WithdrawalRequestQueue: not bundled"
  let frame := frame.setRequest index request.refund
  let lockedSats ← checkedAdd request.valueSats request.mainFeeSats
  let amountWei ← checkedMul lockedSats weiPerSat
  let called := frame.call env withdrawalRequestQueueAddress request.requester amountWei
  let frame ← called.1.charge env.schedule.afterCall
  pure (frame.emit (.withdrawalRefunded index request.bundleM6id called.2))

def systemReportBundleLifecycle (env : CallEnv) (msgSender : Address)
    (call : SystemReportBundleLifecycleCall) (frame : Frame) :
    Except CallFailure Frame := do
  require (msgSender = systemAddress) "WithdrawalRequestQueue: not a system call"
  let frame ← call.bundledIndices.foldlM (bundleRequest env call.newM6id) frame
  let frame ← call.succeededIndices.foldlM (confirmRequest env) frame
  call.failedIndices.foldlM (refundRequest env) frame

/-- What a request locks never overflows in wei. -/
theorem Request.lockedWei_checked (request : Request) :
    checkedAdd request.valueSats request.mainFeeSats = .ok request.lockedSats ∧
    checkedMul request.lockedSats weiPerSat = .ok request.lockedWei := by
  have fits := request.fits
  have satsBound : request.valueSats + request.mainFeeSats < 2 ^ 256 := by omega
  have weiBound : (request.valueSats + request.mainFeeSats) * weiPerSat < 2 ^ 256 := by
    simp only [weiPerSat]
    omega
  rw [checkedAdd, checkedMul, Request.lockedWei, Request.lockedSats, if_pos satsBound,
    if_pos weiBound]
  exact ⟨rfl, rfl⟩

/-! ## Append-only growth -/

/-- `after` is `before` with requests appended, all of them pending. -/
structure Grows (before after : Storage) : Prop where
  count_le : before.requestCount ≤ after.requestCount
  kept : ∀ index, index < before.requestCount →
    after.requests index = before.requests index
  appended : ∀ index, before.requestCount ≤ index → index < after.requestCount →
    (after.requests index).status = .pending
  untouched : ∀ index, after.requestCount ≤ index →
    after.requests index = before.requests index

theorem Grows.refl (storage : Storage) : Grows storage storage where
  count_le := le_rfl
  kept := fun _ _ => rfl
  appended := fun _ _ _ => by omega
  untouched := fun _ _ => rfl

theorem grows_of_effect {world next : World} (effect : UserAction.Effect world next) :
    Grows world.queue next.queue := by
  cases effect with
  | none => exact .refl _
  | transfer => exact .refl _
  | burn => exact .refl _
  | request request _ _ pending _ =>
      constructor
      · exact Nat.le_succ _
      · intro index queued
        simp [show index ≠ world.queue.requestCount by omega]
      · intro index fresh bound
        have atEnd : index = world.queue.requestCount := by
          dsimp only at bound
          omega
        simp [atEnd, pending]
      · intro index beyond
        dsimp only at beyond
        simp [show index ≠ world.queue.requestCount by omega]

/-- Replacing requests below the count by `change`, together with growth. -/
structure Rewrites (change : Request → Request) (indices : List Nat)
    (before after : Storage) : Prop where
  count_le : before.requestCount ≤ after.requestCount
  changed : ∀ index, index < before.requestCount →
    after.requests index =
      if index ∈ indices then change (before.requests index)
      else before.requests index
  appended : ∀ index, before.requestCount ≤ index → index < after.requestCount →
    (after.requests index).status = .pending
  untouched : ∀ index, after.requestCount ≤ index →
    after.requests index = before.requests index

namespace Rewrites

variable {change : Request → Request} {before middle after : Storage}

variable (change) in
theorem nil (storage : Storage) : Rewrites change [] storage storage where
  count_le := le_rfl
  changed := fun _ _ => by simp
  appended := fun _ _ _ => by omega
  untouched := fun _ _ => rfl

theorem grows (rewrites : Rewrites change [] before after) : Grows before after where
  count_le := rewrites.count_le
  kept := fun index queued => by simpa using rewrites.changed index queued
  appended := rewrites.appended
  untouched := rewrites.untouched

theorem setRequest {index : Nat} (queued : index < before.requestCount) :
    Rewrites change [index] before
      (before.setRequest index (change (before.requests index))) where
  count_le := le_rfl
  changed := fun other _ => by
    by_cases same : other = index
    · subst same
      simp
    · simp [same]
  appended := fun _ _ _ => by
    simp only [Storage.setRequest_requestCount] at *
    omega
  untouched := fun other beyond => by
    simp only [Storage.setRequest_requestCount] at beyond
    exact Storage.setRequest_of_ne _ _ (by omega)

theorem then_grows {indices : List Nat} (first : Rewrites change indices before middle)
    (growth : Grows middle after) : Rewrites change indices before after where
  count_le := first.count_le.trans growth.count_le
  changed := fun index queued => by
    rw [growth.kept index (queued.trans_le first.count_le)]
    exact first.changed index queued
  appended := fun index fresh bound => by
    by_cases inMiddle : index < middle.requestCount
    · rw [growth.kept index inMiddle]
      exact first.appended index fresh inMiddle
    · exact growth.appended index (by omega) bound
  untouched := fun index beyond => by
    have countLe := growth.count_le
    rw [growth.untouched index beyond]
    exact first.untouched index (by omega)

/-- One rewritten index followed by the others. -/
theorem cons {index : Nat} {rest : List Nat}
    (first : Rewrites change [index] before middle)
    (second : Rewrites change rest middle after)
    (restQueued : ∀ other ∈ rest, other < before.requestCount) (fresh : index ∉ rest) :
    Rewrites change (index :: rest) before after where
  count_le := first.count_le.trans second.count_le
  changed := fun other queued => by
    rw [second.changed other (queued.trans_le first.count_le), first.changed other queued]
    by_cases same : other = index
    · subst same
      simp [fresh]
    · simp [same]
  appended := fun other beyond bound => by
    have notRest : other ∉ rest := fun member => by
      have queued := restQueued other member
      omega
    by_cases inMiddle : other < middle.requestCount
    · rw [second.changed other inMiddle, if_neg notRest]
      exact first.appended other beyond inMiddle
    · exact second.appended other (by omega) bound
  untouched := fun other beyond => by
    have countLe := second.count_le
    rw [second.untouched other beyond]
    exact first.untouched other (by omega)

end Rewrites

theorem Grows.trans {first second third : Storage} (left : Grows first second)
    (right : Grows second third) : Grows first third :=
  (((Rewrites.nil id first).then_grows left).then_grows right).grows

/-- User code, in a transaction or in a callback, only appends requests. -/
theorem grows_runUserCode (actions : List UserAction) (world : World) :
    Grows world.queue (runUserCode actions world).queue := by
  apply runUserCode_preserves
    (fun reached : World => Grows world.queue reached.queue) ?_ actions (.refl _)
  intro reached next grown effect
  exact grown.trans (grows_of_effect effect)

theorem grows_of_payment {payer recipient : Address} {amountWei : Nat}
    {world next : World} {success : Bool}
    (effect : Frame.PaymentEffect payer recipient amountWei world success next) :
    Grows world.queue next.queue := by
  cases effect with
  | rejected => exact .refl _
  | paid actions _ _ =>
      exact grows_runUserCode actions
        { world with balances := world.balances.move payer recipient amountWei }

/-! ## What one iteration does -/

/-- Only a metered frame can run out of gas. -/
def RanOutOfGas (frame : Frame) (failure : CallFailure) : Prop :=
  failure = .outOfGas ∧ frame.gas ≠ none

theorem markRequest_meets (env : CallEnv) (expected : Status) (refusal : String)
    (change : Request → Request) (event : Nat → Request → Event)
    (frame : Frame) (index : Nat)
    (queued : index < frame.world.queue.requestCount)
    (ready : (frame.world.queue.requests index).status = expected) :
    Meets (markRequest env expected refusal change event frame index)
      (fun next => Rewrites change [index] frame.world.queue next.world.queue ∧
        (next.world.balances = frame.world.balances ∧ next.calls = frame.calls) ∧
        (frame.gas = none → next.gas = none))
      (RanOutOfGas frame) := by
  unfold markRequest
  refine Meets.bind (frame.charge_meets _) ?_
  rintro charged ⟨worldEq, callsEq, _, unmetered⟩
  dsimp only
  rw [require_of_holds _ (by rw [worldEq]; exact ready), ok_bind, Meets.pure_iff]
  simp only [Frame.emit_world, Frame.setRequest_queue, Frame.setRequest_balances,
    Frame.emit_calls, Frame.setRequest_calls, Frame.emit_gas, Frame.setRequest_gas, worldEq]
  exact ⟨.setRequest queued, ⟨trivial, callsEq⟩, unmetered⟩

/-- The state after refunding one request: it was marked first, then one CALL
offered its requester exactly what the request locked. -/
structure Refunded (index : Nat) (before after : Frame) : Prop where
  unmetered : before.gas = none → after.gas = none
  calls : after.calls = before.calls + 1
  paid : ∃ success,
    after.logs = before.logs ++
      [.withdrawalRefunded index (before.world.queue.requests index).bundleM6id success] ∧
    Frame.PaymentEffect withdrawalRequestQueueAddress
      (before.world.queue.requests index).requester
      (before.world.queue.requests index).lockedWei
      (before.setRequest index (before.world.queue.requests index).refund).world
      success after.world

theorem refundRequest_meets (env : CallEnv) (frame : Frame) (index : Nat)
    (bundled : (frame.world.queue.requests index).status = .bundled) :
    Meets (refundRequest env frame index) (Refunded index frame) (RanOutOfGas frame) := by
  unfold refundRequest
  dsimp only
  generalize requestEq : frame.world.queue.requests index = request at bundled ⊢
  refine Meets.bind (frame.charge_meets _) ?_
  rintro charged ⟨worldEq, callsEq, logsEq, chargedFree⟩
  rw [require_of_holds _ bundled, ok_bind, request.lockedWei_checked.1, ok_bind,
    request.lockedWei_checked.2, ok_bind]
  have effect := (charged.setRequest index request.refund).call_effect env
    withdrawalRequestQueueAddress request.requester request.lockedWei
  have calls := (charged.setRequest index request.refund).call_calls env
    withdrawalRequestQueueAddress request.requester request.lockedWei
  have logs := (charged.setRequest index request.refund).call_logs env
    withdrawalRequestQueueAddress request.requester request.lockedWei
  have calledFree := (charged.setRequest index request.refund).call_unmetered env
    withdrawalRequestQueueAddress request.requester request.lockedWei
  generalize (charged.setRequest index request.refund).call env
    withdrawalRequestQueueAddress request.requester request.lockedWei = called
    at effect calls logs calledFree ⊢
  refine Meets.bind ((called.1.charge_meets _).mono (fun _ holds => holds) ?_) ?_
  · rintro failure ⟨isGas, metered⟩
    exact ⟨isGas, fun free => metered (calledFree (chargedFree free))⟩
  · rintro after ⟨afterWorld, afterCalls, afterLogs, afterFree⟩
    have startWorld : (frame.setRequest index request.refund).world =
        (charged.setRequest index request.refund).world := by
      simp only [Frame.setRequest, worldEq]
    refine ⟨fun free => afterFree (calledFree (chargedFree free)), ?_, called.2, ?_, ?_⟩
    · rw [Frame.emit_calls, afterCalls, calls, Frame.setRequest_calls, callsEq]
    · rw [Frame.emit_logs, afterLogs, logs, Frame.setRequest_logs, logsEq, requestEq]
    · rw [Frame.emit_world, afterWorld, requestEq, startWorld]
      exact effect

theorem Refunded.rewrites {index : Nat} {before after : Frame}
    (refunded : Refunded index before after)
    (queued : index < before.world.queue.requestCount) :
    Rewrites Request.refund [index] before.world.queue after.world.queue := by
  rcases refunded.paid with ⟨success, _, effect⟩
  exact (Rewrites.setRequest queued).then_grows (grows_of_payment effect)

/-! ## Whole loops -/

/-- A loop that rewrites one request per iteration rewrites all of its indices,
provided they are distinct, queued, and ready when the loop starts. -/
theorem rewriteLoop_meets {step : Frame → Nat → Except CallFailure Frame}
    (change : Request → Request) (Ready : Request → Prop) (Kept : Frame → Frame → Prop)
    (keptRefl : ∀ frame, Kept frame frame)
    (keptTrans : ∀ {first second third}, Kept first second → Kept second third →
      Kept first third)
    (stepMeets : ∀ frame index, index < frame.world.queue.requestCount →
      Ready (frame.world.queue.requests index) →
      Meets (step frame index)
        (fun next => Rewrites change [index] frame.world.queue next.world.queue ∧
          Kept frame next ∧ (frame.gas = none → next.gas = none))
        (RanOutOfGas frame))
    (indices : List Nat) (frame : Frame) (nodup : indices.Nodup)
    (queued : ∀ index ∈ indices, index < frame.world.queue.requestCount)
    (ready : ∀ index ∈ indices, Ready (frame.world.queue.requests index)) :
    Meets (indices.foldlM step frame)
      (fun next => Rewrites change indices frame.world.queue next.world.queue ∧
        Kept frame next ∧ (frame.gas = none → next.gas = none))
      (RanOutOfGas frame) := by
  induction indices generalizing frame with
  | nil => exact ⟨.nil _ _, keptRefl _, id⟩
  | cons index rest induction =>
      rw [List.foldlM_cons]
      have restNodup := (List.nodup_cons.mp nodup).2
      have indexFresh := (List.nodup_cons.mp nodup).1
      refine Meets.bind (stepMeets frame index (queued index (by simp))
        (ready index (by simp))) ?_
      rintro middle ⟨rewritten, kept, stillFree⟩
      have restQueued : ∀ other ∈ rest, other < frame.world.queue.requestCount :=
        fun other member => queued other (by simp [member])
      have restReady : ∀ other ∈ rest, Ready (middle.world.queue.requests other) := by
        intro other member
        have different : other ≠ index := fun equal => indexFresh (equal ▸ member)
        rw [rewritten.changed other (restQueued other member), if_neg (by simpa using different)]
        exact ready other (by simp [member])
      refine (induction middle restNodup
        (fun other member => (restQueued other member).trans_le rewritten.count_le)
        restReady).mono ?_ ?_
      · rintro next ⟨restRewritten, restKept, restFree⟩
        exact ⟨rewritten.cons restRewritten restQueued indexFresh,
          keptTrans kept restKept, fun free => restFree (stillFree free)⟩
      · rintro failure ⟨isGas, metered⟩
        exact ⟨isGas, fun free => metered (stillFree free)⟩

/-- The first two loops move no ether and make no CALL. -/
theorem markLoop_meets (env : CallEnv) (expected : Status) (refusal : String)
    (change : Request → Request) (event : Nat → Request → Event) (indices : List Nat)
    (frame : Frame) (nodup : indices.Nodup)
    (queued : ∀ index ∈ indices, index < frame.world.queue.requestCount)
    (ready : ∀ index ∈ indices, (frame.world.queue.requests index).status = expected) :
    Meets (indices.foldlM (markRequest env expected refusal change event) frame)
      (fun next => Rewrites change indices frame.world.queue next.world.queue ∧
        (next.world.balances = frame.world.balances ∧ next.calls = frame.calls) ∧
        (frame.gas = none → next.gas = none))
      (RanOutOfGas frame) :=
  rewriteLoop_meets change (fun request => request.status = expected)
    (fun before after => after.world.balances = before.world.balances ∧
      after.calls = before.calls)
    (fun _ => ⟨rfl, rfl⟩)
    (fun first second => ⟨second.1.trans first.1, second.2.trans first.2⟩)
    (fun frame index => markRequest_meets env expected refusal change event frame index)
    indices frame nodup queued ready

/-! ## The whole call -/

/-- The `require`s of the three loops hold for a call made on `queue`. -/
structure Accepts (queue : Storage) (call : SystemReportBundleLifecycleCall) : Prop where
  bundled_pending : ∀ index ∈ call.bundledIndices,
    (queue.requests index).status = .pending
  resolved_bundled : ∀ index ∈ call.succeededIndices ++ call.failedIndices,
    (queue.requests index).status = .bundled
  queued : ∀ index ∈ call.bundledIndices ++ (call.succeededIndices ++ call.failedIndices),
    index < queue.requestCount
  bundled_nodup : call.bundledIndices.Nodup
  resolved_nodup : (call.succeededIndices ++ call.failedIndices).Nodup

/-- What the call makes of the request at `index`. -/
def settledRequest (call : SystemReportBundleLifecycleCall) (index : Nat)
    (request : Request) : Request :=
  if index ∈ call.bundledIndices then request.bundle call.newM6id
  else if index ∈ call.succeededIndices then request.confirm
  else if index ∈ call.failedIndices then request.refund
  else request

/-- The complete effect of an accepted call: every request queued before it is
settled, and the refunds' recipients may have appended pending requests. -/
structure Settles (call : SystemReportBundleLifecycleCall) (before after : Storage) :
    Prop where
  count_le : before.requestCount ≤ after.requestCount
  settled : ∀ index, index < before.requestCount →
    after.requests index = settledRequest call index (before.requests index)
  appended : ∀ index, before.requestCount ≤ index → index < after.requestCount →
    (after.requests index).status = .pending
  untouched : ∀ index, after.requestCount ≤ index →
    after.requests index = before.requests index

theorem Accepts.bundled_not_resolved {queue : Storage}
    {call : SystemReportBundleLifecycleCall} (accepts : Accepts queue call) {index : Nat}
    (resolved : index ∈ call.succeededIndices ++ call.failedIndices) :
    index ∉ call.bundledIndices := by
  intro member
  have pending := accepts.bundled_pending index member
  rw [accepts.resolved_bundled index resolved] at pending
  cases pending

/-- Later growth of the queue does not make the call unacceptable. -/
theorem Accepts.of_grows {before after : Storage}
    {call : SystemReportBundleLifecycleCall} (accepts : Accepts before call)
    (growth : Grows before after) : Accepts after call where
  bundled_pending := fun index member => by
    rw [growth.kept index (accepts.queued index (by simp [member]))]
    exact accepts.bundled_pending index member
  resolved_bundled := fun index member => by
    rw [growth.kept index (accepts.queued index (List.mem_append_right _ member))]
    exact accepts.resolved_bundled index member
  queued := fun index member => (accepts.queued index member).trans_le growth.count_le
  bundled_nodup := accepts.bundled_nodup
  resolved_nodup := accepts.resolved_nodup

/-- Three successive rewrites with disjoint index lists settle every request. -/
theorem Settles.of_rewrites {call : SystemReportBundleLifecycleCall}
    {before bundled confirmed after : Storage} (accepts : Accepts before call)
    (bundling : Rewrites (Request.bundle call.newM6id) call.bundledIndices before bundled)
    (confirming : Rewrites Request.confirm call.succeededIndices bundled confirmed)
    (refunding : Rewrites Request.refund call.failedIndices confirmed after) :
    Settles call before after where
  count_le := bundling.count_le.trans (confirming.count_le.trans refunding.count_le)
  settled := fun index queued => by
    have queuedBundled := queued.trans_le bundling.count_le
    have queuedConfirmed := queuedBundled.trans_le confirming.count_le
    rw [refunding.changed index queuedConfirmed, confirming.changed index queuedBundled,
      bundling.changed index queued, settledRequest]
    by_cases isBundled : index ∈ call.bundledIndices
    · have notResolved : index ∉ call.succeededIndices ++ call.failedIndices :=
        fun resolved => accepts.bundled_not_resolved resolved isBundled
      simp only [List.mem_append, not_or] at notResolved
      simp [isBundled, notResolved]
    · by_cases isConfirmed : index ∈ call.succeededIndices
      · have notFailed : index ∉ call.failedIndices := fun failed =>
          (List.nodup_append.mp accepts.resolved_nodup).2.2 index isConfirmed index failed rfl
        simp [isBundled, isConfirmed, notFailed]
      · simp [isBundled, isConfirmed]
  appended := fun index fresh bound => by
    have notListed : index ∉ call.bundledIndices ++
        (call.succeededIndices ++ call.failedIndices) := fun member => by
      have queued := accepts.queued index member
      omega
    simp only [List.mem_append, not_or] at notListed
    by_cases inConfirmed : index < confirmed.requestCount
    · rw [refunding.changed index inConfirmed, if_neg notListed.2.2]
      by_cases inBundled : index < bundled.requestCount
      · rw [confirming.changed index inBundled, if_neg notListed.2.1]
        exact bundling.appended index fresh inBundled
      · exact confirming.appended index (by omega) inConfirmed
    · exact refunding.appended index (by omega) bound
  untouched := fun index beyond => by
    have refundLe := refunding.count_le
    have confirmLe := confirming.count_le
    rw [refunding.untouched index beyond, confirming.untouched index (by omega),
      bundling.untouched index (by omega)]

/-- The queue may have grown between the state a call was computed from and the
state it is made on. -/
theorem Settles.of_grows {call : SystemReportBundleLifecycleCall}
    {before grown after : Storage} (accepts : Accepts before call)
    (growth : Grows before grown) (settles : Settles call grown after) :
    Settles call before after where
  count_le := growth.count_le.trans settles.count_le
  settled := fun index queued => by
    rw [settles.settled index (queued.trans_le growth.count_le), growth.kept index queued]
  appended := fun index fresh bound => by
    by_cases inGrown : index < grown.requestCount
    · have notListed : ∀ indices, indices ⊆ call.bundledIndices ++
          (call.succeededIndices ++ call.failedIndices) → index ∉ indices :=
        fun indices subset member => absurd (accepts.queued index (subset member)) (by omega)
      rw [settles.settled index inGrown, settledRequest,
        if_neg (notListed _ (by simp)), if_neg (notListed _ (by simp)),
        if_neg (notListed _ (by simp))]
      exact growth.appended index fresh inGrown
    · exact settles.appended index (by omega) bound
  untouched := fun index beyond => by
    have countLe := settles.count_le
    rw [settles.untouched index beyond, growth.untouched index (by omega)]

theorem Settles.then_grows {call : SystemReportBundleLifecycleCall}
    {before after grown : Storage} (settles : Settles call before after)
    (growth : Grows after grown) : Settles call before grown where
  count_le := settles.count_le.trans growth.count_le
  settled := fun index queued => by
    rw [growth.kept index (queued.trans_le settles.count_le), settles.settled index queued]
  appended := fun index fresh bound => by
    by_cases inAfter : index < after.requestCount
    · rw [growth.kept index inAfter]
      exact settles.appended index fresh inAfter
    · exact growth.appended index (by omega) bound
  untouched := fun index beyond => by
    have countLe := growth.count_le
    rw [growth.untouched index beyond, settles.untouched index (by omega)]

/-- A call that names no request settles nothing. -/
theorem Settles.of_empty {call : SystemReportBundleLifecycleCall}
    (noneBundled : call.bundledIndices = []) (noneSucceeded : call.succeededIndices = [])
    (noneFailed : call.failedIndices = []) (storage : Storage) :
    Settles call storage storage where
  count_le := le_rfl
  settled := fun index _ => by
    simp [settledRequest, noneBundled, noneSucceeded, noneFailed]
  appended := fun _ _ _ => by omega
  untouched := fun _ _ => rfl

/-- The call made by the protocol: two loops of bookkeeping, then the refunds. -/
theorem systemReportBundleLifecycle_eq (env : CallEnv)
    (call : SystemReportBundleLifecycleCall) (frame : Frame) :
    systemReportBundleLifecycle env systemAddress call frame =
      (call.bundledIndices.foldlM (bundleRequest env call.newM6id) frame >>=
        call.succeededIndices.foldlM (confirmRequest env)) >>=
          call.failedIndices.foldlM (refundRequest env) := by
  unfold systemReportBundleLifecycle
  rw [require_of_holds _ rfl, ok_bind, bind_assoc]

/-- The frame after the bookkeeping of an accepted call. -/
structure Marked (call : SystemReportBundleLifecycleCall) (before after : Frame) : Prop where
  rewritten : ∃ bundled,
    Rewrites (Request.bundle call.newM6id) call.bundledIndices before.world.queue bundled ∧
    Rewrites Request.confirm call.succeededIndices bundled after.world.queue
  balances : after.world.balances = before.world.balances
  calls : after.calls = before.calls
  unmetered : before.gas = none → after.gas = none

/-- Bundling changes none of the requests that are to be resolved. -/
theorem Accepts.kept_by_bundling {call : SystemReportBundleLifecycleCall}
    {before bundled : Storage} (accepts : Accepts before call)
    (bundling : Rewrites (Request.bundle call.newM6id) call.bundledIndices before bundled) :
    ∀ index ∈ call.succeededIndices ++ call.failedIndices,
      index < bundled.requestCount ∧ bundled.requests index = before.requests index := by
  intro index resolved
  have queued := accepts.queued index (List.mem_append_right _ resolved)
  refine ⟨queued.trans_le bundling.count_le, ?_⟩
  rw [bundling.changed index queued, if_neg (accepts.bundled_not_resolved resolved)]

/-- The bookkeeping changes none of the requests that are to be refunded. -/
theorem Accepts.kept_by_marking {call : SystemReportBundleLifecycleCall}
    {before after : Frame} (accepts : Accepts before.world.queue call)
    (marked : Marked call before after) :
    ∀ index ∈ call.failedIndices, index < after.world.queue.requestCount ∧
      after.world.queue.requests index = before.world.queue.requests index := by
  intro index failed
  rcases marked.rewritten with ⟨bundled, bundling, confirming⟩
  have kept := accepts.kept_by_bundling bundling index (List.mem_append_right _ failed)
  have notSucceeded : index ∉ call.succeededIndices := fun succeeded =>
    (List.nodup_append.mp accepts.resolved_nodup).2.2 index succeeded index failed rfl
  refine ⟨kept.1.trans_le confirming.count_le, ?_⟩
  rw [confirming.changed index kept.1, if_neg notSucceeded, kept.2]

theorem markLoops_meets (env : CallEnv) (call : SystemReportBundleLifecycleCall)
    (frame : Frame) (accepts : Accepts frame.world.queue call) :
    Meets (call.bundledIndices.foldlM (bundleRequest env call.newM6id) frame >>=
        call.succeededIndices.foldlM (confirmRequest env))
      (Marked call frame) (RanOutOfGas frame) := by
  refine Meets.bind (markLoop_meets env .pending _ (Request.bundle call.newM6id) _
    call.bundledIndices frame accepts.bundled_nodup
    (fun index member => accepts.queued index (by simp [member]))
    accepts.bundled_pending) ?_
  intro bundled bundling
  have kept := accepts.kept_by_bundling bundling.1
  refine (markLoop_meets env .bundled _ Request.confirm _ call.succeededIndices bundled
    (List.nodup_append.mp accepts.resolved_nodup).1
    (fun index member => (kept index (by simp [member])).1)
    (fun index member => by
      rw [(kept index (by simp [member])).2]
      exact accepts.resolved_bundled index (by simp [member]))).mono ?_ ?_
  · intro confirmed confirming
    exact
      { rewritten := ⟨bundled.world.queue, bundling.1, confirming.1⟩
        balances := confirming.2.1.1.trans bundling.2.1.1
        calls := confirming.2.1.2.trans bundling.2.1.2
        unmetered := fun free => confirming.2.2 (bundling.2.2 free) }
  · exact fun _ failed => ⟨failed.1, fun free => failed.2 (bundling.2.2 free)⟩

/-- An accepted call either settles every request it names or, when gas is
counted, runs out of it. -/
theorem systemReportBundleLifecycle_meets (env : CallEnv)
    (call : SystemReportBundleLifecycleCall) (frame : Frame)
    (accepts : Accepts frame.world.queue call) :
    Meets (systemReportBundleLifecycle env systemAddress call frame)
      (fun next => Settles call frame.world.queue next.world.queue)
      (RanOutOfGas frame) := by
  rw [systemReportBundleLifecycle_eq]
  refine Meets.bind (markLoops_meets env call frame accepts) ?_
  intro confirmed marked
  have kept := accepts.kept_by_marking marked
  refine (rewriteLoop_meets Request.refund (fun request => request.status = .bundled)
    (fun _ _ => True)
    (fun _ => trivial) (fun _ _ => trivial)
    (fun frame index queued ready => (refundRequest_meets env frame index ready).mono
      (fun _ refunded => ⟨refunded.rewrites queued, trivial, refunded.unmetered⟩)
      (fun _ failed => failed))
    call.failedIndices confirmed (List.nodup_append.mp accepts.resolved_nodup).2.1
    (fun index member => (kept index member).1)
    (fun index member => by
      rw [(kept index member).2]
      exact accepts.resolved_bundled index (by simp [member]))).mono ?_ ?_
  · intro next refunding
    rcases marked.rewritten with ⟨bundled, bundling, confirming⟩
    exact .of_rewrites accepts bundling confirming refunding.1
  · exact fun _ failed => ⟨failed.1, fun free => failed.2 (marked.unmetered free)⟩

/-! ## Refusals -/

/-- A loop that only handles requests in one status, and takes them out of it,
returns only if its indices are distinct and none was handled before. -/
theorem rewriteLoop_refuses {step : Frame → Nat → Except CallFailure Frame}
    (change : Request → Request) (Ready : Request → Prop)
    (spent : ∀ request, ¬ Ready (change request))
    (refuses : ∀ frame index, ¬ Ready (frame.world.queue.requests index) →
      Meets (step frame index) (fun _ => False) fun _ => True)
    (stepMeets : ∀ frame index, index < frame.world.queue.requestCount →
      Ready (frame.world.queue.requests index) →
      Meets (step frame index)
        (fun next => Rewrites change [index] frame.world.queue next.world.queue)
        fun _ => True)
    (indices handled : List Nat) (frame : Frame)
    (queued : ∀ index ∈ indices ++ handled, index < frame.world.queue.requestCount)
    (spentBefore : ∀ index ∈ handled, ¬ Ready (frame.world.queue.requests index)) :
    Meets (indices.foldlM step frame)
      (fun next => (indices.Nodup ∧ ∀ index ∈ indices, index ∉ handled) ∧
        frame.world.queue.requestCount ≤ next.world.queue.requestCount ∧
        ∀ index ∈ indices ++ handled, ¬ Ready (next.world.queue.requests index))
      fun _ => True := by
  induction indices generalizing frame handled with
  | nil => exact ⟨⟨.nil, by simp⟩, le_rfl, spentBefore⟩
  | cons index rest induction =>
      rw [List.foldlM_cons]
      by_cases ready : Ready (frame.world.queue.requests index)
      · refine (stepMeets frame index (queued index (by simp)) ready).bind
          fun middle rewritten => ?_
        have fresh : index ∉ handled := fun member => spentBefore index member ready
        have spentMiddle : ∀ other ∈ index :: handled,
            ¬ Ready (middle.world.queue.requests other) := by
          intro other member
          rw [rewritten.changed other (queued other (by
            rcases List.mem_cons.mp member with isIndex | inHandled
            · simp [isIndex]
            · simp [inHandled]))]
          split
          · exact spent _
          · rename_i notIndex
            rcases List.mem_cons.mp member with isIndex | inHandled
            · simp [isIndex] at notIndex
            · exact spentBefore other inHandled
        refine (induction (index :: handled) middle ?_ spentMiddle).mono ?_
          fun _ failed => failed
        · intro other member
          refine (queued other ?_).trans_le rewritten.count_le
          rcases List.mem_append.mp member with inRest | inOthers
          · simp [inRest]
          · rcases List.mem_cons.mp inOthers with isIndex | inHandled
            · simp [isIndex]
            · simp [inHandled]
        · intro next facts
          rcases facts with ⟨⟨restNodup, restFresh⟩, countLe, spentNext⟩
          refine ⟨⟨List.nodup_cons.mpr ⟨?_, restNodup⟩, ?_⟩,
            rewritten.count_le.trans countLe, ?_⟩
          · exact fun inRest => restFresh index inRest (by simp)
          · intro other member inHandled
            rcases List.mem_cons.mp member with isIndex | inRest
            · exact fresh (isIndex ▸ inHandled)
            · exact restFresh other inRest (by simp [inHandled])
          · intro other member
            apply spentNext other
            simp only [List.mem_append, List.mem_cons] at member ⊢
            tauto
      · exact (refuses frame index ready).bind fun _ impossible => impossible.elim

theorem confirmRequest_refuses (env : CallEnv) (frame : Frame) (index : Nat)
    (notBundled : ¬ (frame.world.queue.requests index).status = .bundled) :
    Meets (confirmRequest env frame index) (fun _ => False) fun _ => True := by
  unfold confirmRequest markRequest
  refine ((frame.charge_meets _).mono (fun _ kept => kept)
    fun _ _ => trivial).bind fun charged before => ?_
  dsimp only
  rw [require_of_not _ (by rw [before.1]; exact notBundled)]
  trivial

theorem refundRequest_refuses (env : CallEnv) (frame : Frame) (index : Nat)
    (notBundled : ¬ (frame.world.queue.requests index).status = .bundled) :
    Meets (refundRequest env frame index) (fun _ => False) fun _ => True := by
  unfold refundRequest
  dsimp only
  refine ((frame.charge_meets _).mono (fun _ kept => kept)
    fun _ _ => trivial).bind fun charged before => ?_
  rw [require_of_not _ notBundled]
  trivial

/-- A call that returns resolved each of its requests once. -/
theorem systemReportBundleLifecycle_resolved_nodup (env : CallEnv)
    (call : SystemReportBundleLifecycleCall) (frame : Frame)
    (bundledNodup : call.bundledIndices.Nodup)
    (bundledPending : ∀ index ∈ call.bundledIndices,
      (frame.world.queue.requests index).status = .pending)
    (queued : ∀ index ∈ call.bundledIndices ++
      (call.succeededIndices ++ call.failedIndices),
      index < frame.world.queue.requestCount) :
    Meets (systemReportBundleLifecycle env systemAddress call frame)
      (fun _ => (call.succeededIndices ++ call.failedIndices).Nodup) fun _ => True := by
  unfold systemReportBundleLifecycle
  rw [require_of_holds _ rfl, ok_bind]
  refine Meets.bind ((markLoop_meets env .pending _ (Request.bundle call.newM6id) _
    call.bundledIndices frame bundledNodup
    (fun index member => queued index (by simp [member]))
    bundledPending).mono (fun _ bundled => bundled) fun _ _ => trivial) ?_
  intro bundled bundling
  have queuedBundled : ∀ index ∈ call.succeededIndices ++ call.failedIndices,
      index < bundled.world.queue.requestCount := fun index member =>
    (queued index (List.mem_append_right _ member)).trans_le bundling.1.count_le
  refine (rewriteLoop_refuses Request.confirm
    (fun request => request.status = .bundled)
    (by simp [Request.confirm]) (confirmRequest_refuses env)
    (fun frame index queued ready => (markRequest_meets env .bundled _ _ _ frame index
      queued ready).mono (fun _ marked => marked.1) fun _ _ => trivial)
    call.succeededIndices [] bundled
    (fun index member => queuedBundled index
      (List.mem_append_left _ (by simpa using member)))
    (by simp)).bind ?_
  intro confirmed confirming
  refine (rewriteLoop_refuses Request.refund
    (fun request => request.status = .bundled)
    (by simp [Request.refund]) (refundRequest_refuses env)
    (fun frame index queued ready => (refundRequest_meets env frame index ready).mono
      (fun _ refunded => refunded.rewrites queued) fun _ _ => trivial)
    call.failedIndices call.succeededIndices confirmed
    (fun index member => (queuedBundled index (by
      rcases List.mem_append.mp member with failed | succeeded
      · simp [failed]
      · simp [succeeded])).trans_le confirming.2.1)
    (fun index member => confirming.2.2 index (by simp [member]))).mono ?_
    fun _ failed => failed
  intro next refunding
  exact List.nodup_append.mpr ⟨confirming.1.1, refunding.1.1,
    fun index succeeded other failed same => refunding.1.2 other failed (same ▸ succeeded)⟩

/-! ## What every call keeps -/

/-- The change a loop makes to the storage at one index. -/
def changeRequest (index : Nat) (change : Request → Request) (world : World) :
    World :=
  { world with
    queue := world.queue.setRequest index (change (world.queue.requests index)) }

theorem markRequest_preserves {Holds : World → Prop} (env : CallEnv) (expected : Status)
    (refusal : String) (change : Request → Request) (event : Nat → Request → Event)
    (index : Nat)
    (changed : ∀ world, Holds world → (world.queue.requests index).status = expected →
      Holds (changeRequest index change world))
    {frame : Frame} (holds : Holds frame.world) :
    Meets (markRequest env expected refusal change event frame index)
      (fun next => Holds next.world) fun _ => True := by
  unfold markRequest
  refine ((frame.charge_meets _).mono (fun _ kept => kept)
    fun _ _ => trivial).bind fun charged before => ?_
  unfold require
  dsimp only
  split
  · rename_i ready
    rw [ok_bind, Meets.pure_iff]
    exact changed charged.world (before.1 ▸ holds) ready
  · trivial

theorem refundRequest_preserves {Holds : World → Prop} (env : CallEnv) (index : Nat)
    (refunded : ∀ world next success, Holds world →
      (world.queue.requests index).status = .bundled →
      Frame.PaymentEffect withdrawalRequestQueueAddress
        (world.queue.requests index).requester (world.queue.requests index).lockedWei
        (changeRequest index Request.refund world) success next →
      Holds next)
    {frame : Frame} (holds : Holds frame.world) :
    Meets (refundRequest env frame index) (fun next => Holds next.world) fun _ => True := by
  by_cases bundled : (frame.world.queue.requests index).status = .bundled
  · refine (refundRequest_meets env frame index bundled).mono ?_ fun _ _ => trivial
    intro next after
    rcases after.paid with ⟨success, _, effect⟩
    exact refunded frame.world next.world success holds bundled effect
  · exact (refundRequest_refuses env frame index bundled).mono
      (fun _ impossible => impossible.elim) fun _ failed => failed

/-- What the changes of the requests and the refunds keep, the whole call keeps. -/
theorem systemReportBundleLifecycle_preserves {Holds : World → Prop} (env : CallEnv)
    (msgSender : Address) (call : SystemReportBundleLifecycleCall)
    (bundled : ∀ index ∈ call.bundledIndices, ∀ world, Holds world →
      (world.queue.requests index).status = .pending →
      Holds (changeRequest index (Request.bundle call.newM6id) world))
    (confirmed : ∀ index ∈ call.succeededIndices, ∀ world, Holds world →
      (world.queue.requests index).status = .bundled →
      Holds (changeRequest index Request.confirm world))
    (refunded : ∀ index ∈ call.failedIndices, ∀ world next success, Holds world →
      (world.queue.requests index).status = .bundled →
      Frame.PaymentEffect withdrawalRequestQueueAddress
        (world.queue.requests index).requester (world.queue.requests index).lockedWei
        (changeRequest index Request.refund world) success next →
      Holds next)
    (frame : Frame) (holds : Holds frame.world) :
    Meets (systemReportBundleLifecycle env msgSender call frame)
      (fun next => Holds next.world) fun _ => True := by
  unfold systemReportBundleLifecycle require
  split
  · rw [ok_bind]
    refine (Meets.foldlM_const (fun frame : Frame => Holds frame.world)
      (fun frame index member kept => markRequest_preserves env .pending _ _ _ index
        (bundled index member) kept) frame holds).bind
      fun bundled bundledHolds => ?_
    refine (Meets.foldlM_const (fun frame : Frame => Holds frame.world)
      (fun frame index member kept => markRequest_preserves env .bundled _ _ _ index
        (confirmed index member) kept) bundled bundledHolds).bind
      fun confirmed confirmedHolds => ?_
    exact Meets.foldlM_const (fun frame : Frame => Holds frame.world)
      (fun frame index member kept => refundRequest_preserves env index
        (refunded index member) kept) confirmed confirmedHolds
  · trivial

end WithdrawalRequestQueue

end Beth
