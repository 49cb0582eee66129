import Beth.Contracts.QueueMachine

/-! # The events of the queue contract

The events are kept beside the state of the machine. A frame that reverts takes back
what was emitted since it was opened, and the event of a refund comes when its CALL has
ended, with whether it did so regularly. What the events tell is the storage they add
up to. -/

namespace Beth

open Foundation

namespace WithdrawalRequestQueue

/-! ## Events -/

inductive QueueEvent
  | withdrawalRequested (index : Nat) (requester : Address) (valueSats mainFeeSats : Nat)
      (btcDestination : Bytes)
  | withdrawalBundled (index : Nat) (m6id : B256)
  | withdrawalConfirmed (index : Nat) (m6id : B256)
  | withdrawalRefunded (index : Nat) (m6id : B256) (transferSucceeded : Bool)
deriving DecidableEq

/-- The storage after an event, for a reader that takes no event it did not expect. -/
def QueueEvent.apply (event : QueueEvent) (storage : Storage) : Option Storage :=
  match event with
  | .withdrawalRequested index requester valueSats mainFeeSats btcDestination =>
      if expected : index = storage.requestCount ∧ valueSats + mainFeeSats < 2 ^ 64 then
        some (storage.append
          { requester := requester
            valueSats := valueSats
            mainFeeSats := mainFeeSats
            btcDestination := btcDestination
            status := .pending
            bundleM6id := .replicate 32 0
            fits := expected.2 })
      else none
  | .withdrawalBundled index m6id =>
      let request := storage.requests index
      if request.status = .pending then
        some (storage.setRequest index (request.bundle m6id))
      else none
  | .withdrawalConfirmed index m6id =>
      let request := storage.requests index
      if request.status = .bundled ∧ request.bundleM6id = m6id then
        some (storage.setRequest index request.confirm)
      else none
  | .withdrawalRefunded index m6id _ =>
      let request := storage.requests index
      if request.status = .bundled ∧ request.bundleM6id = m6id then
        some (storage.setRequest index request.refund)
      else none

def replay (log : List QueueEvent) : Option Storage :=
  log.foldlM (fun storage event => event.apply storage) .initial

theorem replay_concat (log : List QueueEvent) (event : QueueEvent) :
    replay (log ++ [event]) = (replay log).bind event.apply := by
  rw [replay, List.foldlM_append]
  exact congrArg _ (funext fun storage => bind_pure (event.apply storage))

/-! ## Logs -/

/-- What was emitted before a frame was opened, and the request whose refund the frame
receives, if it is the payee's. -/
structure LogFrame where
  snapshot : List QueueEvent
  refund : Option (Nat × B256)

/-- The log once the CALL of the frame has ended. -/
def LogFrame.finish (frame : LogFrame) (success : Bool) (log : List QueueEvent) :
    List QueueEvent :=
  match frame.refund with
  | none => log
  | some (index, m6id) => log ++ [.withdrawalRefunded index m6id success]

structure LogState where
  log : List QueueEvent
  frames : List LogFrame

namespace LogState

def initial : LogState where
  log := []
  frames := []

def emit (event : QueueEvent) (logs : LogState) : LogState :=
  { logs with log := logs.log ++ [event] }

def enter (refund : Option (Nat × B256)) (logs : LogState) : LogState :=
  { logs with frames := { snapshot := logs.log, refund := refund } :: logs.frames }

def leave (logs : LogState) : LogState :=
  match logs.frames with
  | [] => logs
  | frame :: outer => { log := frame.finish true logs.log, frames := outer }

def revert (logs : LogState) : LogState :=
  match logs.frames with
  | [] => logs
  | frame :: outer => { log := frame.finish false frame.snapshot, frames := outer }

/-- The refunds whose CALL has not ended, the last one first. -/
def underWay (logs : LogState) : List (Nat × B256) := logs.frames.filterMap LogFrame.refund

/-- The refund of one request. The event of a CALL that cannot be made comes at once. -/
def refundStep (index : Nat) (journal : Journal) (logs : LogState) : LogState :=
  let request := journal.world.queue.requests index
  if request.requester ∉ predeploys ∧
      request.lockedWei ≤ journal.world.balances withdrawalRequestQueueAddress then
    logs.enter (some (index, request.bundleM6id))
  else logs.emit (.withdrawalRefunded index request.bundleM6id false)

/-- The events of one iteration of the loops, or of their end. -/
def lifecycleStep (call : SystemReportBundleLifecycleCall) (journal : Journal)
    (logs : LogState) : LogState :=
  match call.bundledIndices, call.succeededIndices, call.failedIndices with
  | index :: _, _, _ =>
      if (journal.world.queue.requests index).status = .pending then
        logs.emit (.withdrawalBundled index call.newM6id)
      else logs.revert
  | [], index :: _, _ =>
      if (journal.world.queue.requests index).status = .bundled then
        logs.emit (.withdrawalConfirmed index (journal.world.queue.requests index).bundleM6id)
      else logs.revert
  | [], [], index :: _ =>
      if (journal.world.queue.requests index).status = .bundled then
        logs.refundStep index journal
      else logs.revert
  | [], [], [] => logs.leave

/-- The events of a step that the machine takes. -/
def step (keccak256 : Bytes → B256) (state : MachineState) (logs : LogState) :
    Action → LogState
  | .credit _ _ => logs
  | .spend _ _ => logs
  | .transact _ => logs.enter none
  | .systemCall _ => logs.enter none
  | .call _ amountWei =>
      match state.runner with
      | none => logs
      | some account =>
          if amountWei ≤ state.journal.world.balances account.address then logs.enter none
          else logs
  | .forceEther _ _ => logs
  | .requestWithdrawal msgValue btcDestination mainFeeSats =>
      match state.runner with
      | none => logs
      | some account =>
          match state.journal.requestWithdrawal keccak256 account.address msgValue
              btcDestination mainFeeSats with
          | .ok _ =>
              logs.emit (.withdrawalRequested state.journal.world.queue.requestCount
                account.address (msgValue / weiPerSat - mainFeeSats) mainFeeSats btcDestination)
          | .error _ => logs
  | .systemReportBundleLifecycle _ =>
      match state.runner with
      | none => logs
      | some account => if account.address = systemAddress then logs.enter none else logs
  | .advance =>
      match state.stack with
      | { activation := .lifecycle call, .. } :: _ => logs.lifecycleStep call state.journal
      | _ => logs
  | .leave => logs.leave
  | .revert => logs.revert

end LogState

/-! ## Runs with their events -/

structure LoggedState where
  machine : MachineState
  logs : LogState

/-- The requests that a lifecycle call reports as failed. -/
def Action.failedIndices : Action → List Nat
  | .systemCall made => made.failedIndices
  | .systemReportBundleLifecycle made => made.failedIndices
  | _ => []

/-- These requests are queued, as those in the call of a node are. -/
def Action.NamesQueued (queue : Storage) (action : Action) : Prop :=
  ∀ index ∈ action.failedIndices, index < queue.requestCount

instance (queue : Storage) (action : Action) : Decidable (action.NamesQueued queue) :=
  inferInstanceAs (Decidable (∀ index ∈ action.failedIndices, index < queue.requestCount))

structure LoggedSteps (keccak256 : Bytes → B256) (state : LoggedState) (action : Action)
    (next : LoggedState) : Prop where
  taken : MachineState.Steps keccak256 state.machine action next.machine
  logged : next.logs = state.logs.step keccak256 state.machine action
  named : action.NamesQueued state.machine.journal.world.queue

namespace LoggedState

def step (keccak256 : Bytes → B256) (state : LoggedState) (action : Action) :
    Option LoggedState :=
  if action.NamesQueued state.machine.journal.world.queue then
    (state.machine.step keccak256 action).map fun machine =>
      { machine := machine
        logs := state.logs.step keccak256 state.machine action }
  else none

theorem steps_of_step {keccak256 : Bytes → B256} {state next : LoggedState} {action : Action}
    (taken : state.step keccak256 action = some next) :
    LoggedSteps keccak256 state action next := by
  rcases Option.ite_none_right_eq_some.mp taken with ⟨named, stepped⟩
  rcases Option.map_eq_some_iff.mp stepped with ⟨machine, isMachine, isNext⟩
  cases isNext
  exact ⟨isMachine, rfl, named⟩

def stepAll (keccak256 : Bytes → B256) (state : LoggedState) (actions : List Action) :
    Option LoggedState :=
  actions.foldlM (step keccak256) state

theorem run_of_stepAll {keccak256 : Bytes → B256} {state next : LoggedState}
    {actions : List Action} (taken : stepAll keccak256 state actions = some next) :
    Run (LoggedSteps keccak256) state actions next :=
  (Run.of_foldlM taken).weaken fun _ _ _ => steps_of_step

end LoggedState

end WithdrawalRequestQueue

end Beth
