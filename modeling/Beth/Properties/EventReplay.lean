import Beth.Contracts.EventLog
import Beth.Properties.EscrowSolvency

/-! # Replaying the events

The events the contract emitted add up to its storage, whatever is called, re-entered
or reverted. While the CALL of a refund is under way the request is marked in the
storage and not yet in the events. -/

namespace Beth

open Foundation

namespace WithdrawalRequestQueue

/-! ## What the events show -/

/-- A storage that differs from the queue by the refunds under way. -/
structure Storage.Shows (shown queue : Storage) (underWay : List (Nat × B256)) : Prop where
  count : shown.requestCount = queue.requestCount
  settled : ∀ index, index ∉ underWay.map Prod.fst →
    shown.requests index = queue.requests index
  bundled : ∀ refund ∈ underWay, (shown.requests refund.1).status = .bundled ∧
    (shown.requests refund.1).bundleM6id = refund.2
  marked : ∀ refund ∈ underWay, refund.1 < queue.requestCount ∧
    queue.requests refund.1 = (shown.requests refund.1).refund
  nodup : (underWay.map Prod.fst).Nodup

namespace Storage.Shows

variable {shown queue : Storage} {underWay : List (Nat × B256)} {index : Nat}

theorem initial : Shows .initial .initial [] where
  count := rfl
  settled := fun _ _ => rfl
  bundled := by simp
  marked := by simp
  nodup := List.nodup_nil

/-- With no refund under way it is the queue. -/
theorem eq_of_nil (shows_ : Shows shown queue []) : shown = queue := by
  rcases shown with ⟨count, requests⟩
  rcases queue with ⟨queueCount, queueRequests⟩
  congr
  · exact shows_.count
  · funext index
    exact shows_.settled index List.not_mem_nil

/-- A request that is not refunded has no refund under way. -/
theorem not_underWay (shows_ : Shows shown queue underWay)
    (notRefunded : (queue.requests index).status ≠ .refunded) :
    index ∉ underWay.map Prod.fst := by
  intro member
  rcases List.mem_map.mp member with ⟨refund, isUnderWay, isIndex⟩
  apply notRefunded
  rw [← isIndex, (shows_.marked refund isUnderWay).2]
  rfl

theorem append (shows_ : Shows shown queue underWay) (request : Request) :
    Shows (shown.append request) (queue.append request) underWay := by
  have different : ∀ refund ∈ underWay, refund.1 ≠ queue.requestCount := fun refund member =>
    (shows_.marked refund member).1.ne
  constructor
  · exact congrArg (· + 1) shows_.count
  · intro index notUnderWay
    rw [Storage.append, Storage.append, shows_.count]
    by_cases here : index = queue.requestCount
    · subst here
      rw [setRequest_same, setRequest_same]
    · rw [setRequest_of_ne _ _ here, setRequest_of_ne _ _ here]
      exact shows_.settled index notUnderWay
  · intro refund member
    rw [Storage.append, shows_.count, setRequest_of_ne _ _ (different refund member)]
    exact shows_.bundled refund member
  · intro refund member
    have marked := shows_.marked refund member
    rw [Storage.append, Storage.append, shows_.count,
      setRequest_of_ne _ _ (different refund member),
      setRequest_of_ne _ _ (different refund member)]
    exact ⟨marked.1.trans (Nat.lt_succ_self _), marked.2⟩
  · exact shows_.nodup

/-- A change of a request that both have. -/
theorem change (shows_ : Shows shown queue underWay) (request : Request)
    (notRefunded : (queue.requests index).status ≠ .refunded) :
    Shows (shown.setRequest index request) (queue.setRequest index request) underWay := by
  have notUnderWay := shows_.not_underWay notRefunded
  have different : ∀ refund ∈ underWay, refund.1 ≠ index := fun refund member isIndex =>
    notUnderWay (isIndex ▸ List.mem_map_of_mem member)
  constructor
  · exact shows_.count
  · intro other notOther
    by_cases here : other = index
    · subst here
      rw [setRequest_same, setRequest_same]
    · rw [setRequest_of_ne _ _ here, setRequest_of_ne _ _ here]
      exact shows_.settled other notOther
  · intro refund member
    rw [setRequest_of_ne _ _ (different refund member)]
    exact shows_.bundled refund member
  · intro refund member
    rw [setRequest_of_ne _ _ (different refund member),
      setRequest_of_ne _ _ (different refund member)]
    exact shows_.marked refund member
  · exact shows_.nodup

/-- The contract marks a request and calls its requester. -/
theorem mark (shows_ : Shows shown queue underWay) (queued : index < queue.requestCount)
    (isBundled : (queue.requests index).status = .bundled) :
    Shows shown (queue.setRequest index (queue.requests index).refund)
      ((index, (queue.requests index).bundleM6id) :: underWay) := by
  have notRefunded : (queue.requests index).status ≠ .refunded := by
    rw [isBundled]
    decide
  have notUnderWay := shows_.not_underWay notRefunded
  have same := shows_.settled index notUnderWay
  constructor
  · exact shows_.count
  · intro other notOther
    rw [List.map_cons, List.mem_cons, not_or] at notOther
    rw [setRequest_of_ne _ _ notOther.1]
    exact shows_.settled other notOther.2
  · intro refund member
    rcases List.mem_cons.mp member with isNew | isOld
    · subst isNew
      rw [same]
      exact ⟨isBundled, rfl⟩
    · exact shows_.bundled refund isOld
  · intro refund member
    rcases List.mem_cons.mp member with isNew | isOld
    · subst isNew
      rw [setRequest_same, same]
      exact ⟨queued, rfl⟩
    · have different : refund.1 ≠ index := fun isIndex =>
        notUnderWay (isIndex ▸ List.mem_map_of_mem isOld)
      rw [setRequest_of_ne _ _ different]
      exact shows_.marked refund isOld
  · exact List.nodup_cons.mpr ⟨notUnderWay, shows_.nodup⟩

/-- The CALL of the last refund has ended. -/
theorem settle {m6id : B256} (shows_ : Shows shown queue ((index, m6id) :: underWay)) :
    Shows (shown.setRequest index (shown.requests index).refund) queue underWay := by
  rcases List.nodup_cons.mp shows_.nodup with ⟨notUnderWay, nodup⟩
  dsimp only at notUnderWay
  have marked := shows_.marked _ (List.mem_cons_self ..)
  have different : ∀ refund ∈ underWay, refund.1 ≠ index := fun refund member isIndex =>
    notUnderWay (isIndex ▸ List.mem_map_of_mem member)
  constructor
  · exact shows_.count
  · intro other notOther
    by_cases here : other = index
    · subst here
      rw [setRequest_same]
      exact marked.2.symm
    · rw [setRequest_of_ne _ _ here]
      apply shows_.settled other
      rw [List.map_cons, List.mem_cons, not_or]
      exact ⟨here, notOther⟩
  · intro refund member
    rw [setRequest_of_ne _ _ (different refund member)]
    exact shows_.bundled refund (List.mem_cons_of_mem _ member)
  · intro refund member
    rw [setRequest_of_ne _ _ (different refund member)]
    exact shows_.marked refund (List.mem_cons_of_mem _ member)
  · exact nodup

end Storage.Shows

/-! ## Logs -/

/-- The log can be replayed and shows the queue. -/
def Replays (log : List QueueEvent) (queue : Storage) (underWay : List (Nat × B256)) : Prop :=
  ∃ shown, replay log = some shown ∧ shown.Shows queue underWay

namespace Replays

variable {log : List QueueEvent} {queue : Storage} {underWay : List (Nat × B256)} {index : Nat}

theorem initial : Replays [] .initial [] := ⟨.initial, rfl, .initial⟩

/-- One more event, and what it does to the storage shown. -/
theorem emit {shown next : Storage} {event : QueueEvent} (replayed : replay log = some shown)
    (applied : event.apply shown = some next) {after : Storage}
    {afterUnderWay : List (Nat × B256)} (shows_ : next.Shows after afterUnderWay) :
    Replays (log ++ [event]) after afterUnderWay := by
  refine ⟨next, ?_, shows_⟩
  rw [replay_concat, replayed]
  exact applied

theorem requested (replays : Replays log queue underWay) (request : Request)
    (pending : request.status = .pending) (unbundled : request.bundleM6id = .replicate 32 0) :
    Replays
      (log ++ [.withdrawalRequested queue.requestCount request.requester request.valueSats
        request.mainFeeSats request.btcDestination])
      (queue.append request) underWay := by
  rcases replays with ⟨shown, replayed, shows_⟩
  apply emit replayed _ (shows_.append request)
  rw [QueueEvent.apply, dif_pos ⟨shows_.count.symm, request.fits⟩, ← pending, ← unbundled]

theorem bundled (replays : Replays log queue underWay) (m6id : B256)
    (pending : (queue.requests index).status = .pending) :
    Replays (log ++ [.withdrawalBundled index m6id])
      (queue.setRequest index ((queue.requests index).bundle m6id)) underWay := by
  rcases replays with ⟨shown, replayed, shows_⟩
  have notRefunded : (queue.requests index).status ≠ .refunded := by
    rw [pending]
    decide
  have same := shows_.settled index (shows_.not_underWay notRefunded)
  apply emit replayed _ (shows_.change _ notRefunded)
  rw [QueueEvent.apply, same]
  exact if_pos pending

theorem confirmed (replays : Replays log queue underWay)
    (isBundled : (queue.requests index).status = .bundled) :
    Replays (log ++ [.withdrawalConfirmed index (queue.requests index).bundleM6id])
      (queue.setRequest index (queue.requests index).confirm) underWay := by
  rcases replays with ⟨shown, replayed, shows_⟩
  have notRefunded : (queue.requests index).status ≠ .refunded := by
    rw [isBundled]
    decide
  have same := shows_.settled index (shows_.not_underWay notRefunded)
  apply emit replayed _ (shows_.change _ notRefunded)
  rw [QueueEvent.apply, same]
  exact if_pos ⟨isBundled, rfl⟩

theorem marked (replays : Replays log queue underWay) (queued : index < queue.requestCount)
    (isBundled : (queue.requests index).status = .bundled) :
    Replays log (queue.setRequest index (queue.requests index).refund)
      ((index, (queue.requests index).bundleM6id) :: underWay) := by
  rcases replays with ⟨shown, replayed, shows_⟩
  exact ⟨shown, replayed, shows_.mark queued isBundled⟩

theorem refunded {m6id : B256} (replays : Replays log queue ((index, m6id) :: underWay))
    (success : Bool) :
    Replays (log ++ [.withdrawalRefunded index m6id success]) queue underWay := by
  rcases replays with ⟨shown, replayed, shows_⟩
  apply emit replayed _ shows_.settle
  exact if_pos (shows_.bundled _ (List.mem_cons_self ..))

/-- A frame has ended: if a refund was under way in it, its event has come. -/
theorem finish {frame : LogFrame} {outer : List LogFrame}
    (replays : Replays log queue ((frame :: outer).filterMap LogFrame.refund))
    (success : Bool) :
    Replays (frame.finish success log) queue (outer.filterMap LogFrame.refund) := by
  rcases frame with ⟨snapshot, _ | ⟨index, m6id⟩⟩
  · exact replays
  · exact replays.refunded success

end Replays

/-- The request of a successful `requestWithdrawal`. -/
theorem requestWithdrawal_appends {sender : Address} {msgValue mainFeeSats : Nat}
    {btcDestination : Bytes} {world next : World}
    (returned : requestWithdrawal sender msgValue btcDestination mainFeeSats world = .ok next) :
    ∃ fits, next.queue = world.queue.append
      { requester := sender
        valueSats := msgValue / weiPerSat - mainFeeSats
        mainFeeSats := mainFeeSats
        btcDestination := btcDestination
        status := .pending
        bundleM6id := .replicate 32 0
        fits := fits } := by
  unfold requestWithdrawal at returned
  dsimp only at returned
  repeat' split at returned
  all_goals cases returned
  exact ⟨_, rfl⟩

/-! ## Frames -/

/-- The loops a frame runs fail only requests that were queued when it was opened. -/
def OpenFrame.NamesQueued (frame : OpenFrame) : Prop :=
  match frame.activation with
  | .user _ => True
  | .lifecycle call =>
      ∀ index ∈ call.failedIndices, index < frame.snapshot.world.queue.requestCount

/-- The state that each frame would put back is shown by the log it would put back, and
the queue only grew from one frame to the next. -/
inductive Framed : Nat → List OpenFrame → List LogFrame → Prop
  | nil {count : Nat} : Framed count [] []
  | cons {count : Nat} {frame : OpenFrame} {outer : List OpenFrame} {logFrame : LogFrame}
      {outerLogs : List LogFrame} :
      frame.snapshot.world.queue.requestCount ≤ count →
      frame.NamesQueued →
      Replays logFrame.snapshot frame.snapshot.world.queue
        ((logFrame :: outerLogs).filterMap LogFrame.refund) →
      Framed frame.snapshot.world.queue.requestCount outer outerLogs →
      Framed count (frame :: outer) (logFrame :: outerLogs)

theorem Framed.mono {count more : Nat} {stack : List OpenFrame} {frames : List LogFrame}
    (framed : Framed count stack frames) (le : count ≤ more) : Framed more stack frames := by
  cases framed with
  | nil => exact .nil
  | cons before named replays below => exact .cons (before.trans le) named replays below

structure LoggedState.Faithful (state : LoggedState) : Prop where
  replays : Replays state.logs.log state.machine.journal.world.queue state.logs.underWay
  framed : Framed state.machine.journal.world.queue.requestCount state.machine.stack
    state.logs.frames

namespace LoggedState.Faithful

variable {machine : MachineState} {logs : LogState} {frame : OpenFrame}
  {outer : List OpenFrame}

theorem withJournal (faithful : Faithful ⟨machine, logs⟩) {journal : Journal}
    (sameQueue : journal.world.queue = machine.journal.world.queue) :
    Faithful ⟨machine.withJournal journal, logs⟩ where
  replays := by
    change Replays _ journal.world.queue _
    rw [sameQueue]
    exact faithful.replays
  framed := by
    change Framed journal.world.queue.requestCount _ _
    rw [sameQueue]
    exact faithful.framed

theorem enter (faithful : Faithful ⟨machine, logs⟩) {activation : Activation}
    (named : OpenFrame.NamesQueued { activation := activation, snapshot := machine.journal }) :
    Faithful ⟨machine.enter activation, logs.enter none⟩ where
  replays := faithful.replays
  framed := .cons le_rfl named faithful.replays faithful.framed

theorem leave (faithful : Faithful ⟨machine, logs⟩) (onTop : machine.stack = frame :: outer) :
    Faithful ⟨{ machine with stack := outer }, logs.leave⟩ := by
  rcases machine with ⟨journal, stack⟩
  rcases logs with ⟨log, frames⟩
  rcases faithful with ⟨replays, framed⟩
  dsimp only at onTop replays framed
  subst onTop
  cases framed with
  | cons before _ _ below => exact ⟨replays.finish true, below.mono before⟩

theorem revert (faithful : Faithful ⟨machine, logs⟩) (onTop : machine.stack = frame :: outer) :
    Faithful ⟨{ journal := frame.snapshot, stack := outer }, logs.revert⟩ := by
  rcases machine with ⟨journal, stack⟩
  rcases logs with ⟨log, frames⟩
  rcases faithful with ⟨_, framed⟩
  dsimp only at onTop framed
  subst onTop
  cases framed with
  | cons _ _ replays below => exact ⟨replays.finish false, below⟩

/-- The loops of the frame on top go on, after a change of the queue and its events. -/
theorem waiting (faithful : Faithful ⟨machine, logs⟩) (onTop : machine.stack = frame :: outer)
    {call : SystemReportBundleLifecycleCall}
    (named : ∀ index ∈ call.failedIndices, index < frame.snapshot.world.queue.requestCount)
    {journal : Journal} {log : List QueueEvent}
    (replays : Replays log journal.world.queue logs.underWay)
    (sameCount : journal.world.queue.requestCount =
      machine.journal.world.queue.requestCount) :
    Faithful
      ⟨{ journal := journal
         stack := { activation := .lifecycle call, snapshot := frame.snapshot } :: outer },
        { logs with log := log }⟩ := by
  rcases machine with ⟨before, stack⟩
  rcases logs with ⟨oldLog, frames⟩
  rcases faithful with ⟨_, framed⟩
  dsimp only at onTop framed sameCount
  subst onTop
  cases framed with
  | cons le _ shown below =>
      rw [← sameCount] at le
      exact ⟨replays, .cons le named shown below⟩

theorem request (faithful : Faithful ⟨machine, logs⟩) {keccak256 : Bytes → B256}
    {sender : Address} {msgValue mainFeeSats : Nat} {btcDestination : Bytes} {next : Journal}
    (returned : machine.journal.requestWithdrawal keccak256 sender msgValue btcDestination
      mainFeeSats = .ok next) :
    Faithful ⟨machine.withJournal next,
      logs.emit (.withdrawalRequested machine.journal.world.queue.requestCount sender
        (msgValue / weiPerSat - mainFeeSats) mainFeeSats btcDestination)⟩ := by
  rcases bind_eq_ok.mp returned with ⟨_, _, afterDecoding⟩
  rcases bind_eq_ok.mp afterDecoding with ⟨world, executed, isNext⟩
  cases isNext
  rcases requestWithdrawal_appends executed with ⟨fits, appended⟩
  have requested := faithful.replays.requested
    { requester := sender
      valueSats := msgValue / weiPerSat - mainFeeSats
      mainFeeSats := mainFeeSats
      btcDestination := btcDestination
      status := .pending
      bundleM6id := .replicate 32 0
      fits := fits } rfl rfl
  rw [← appended] at requested
  constructor
  · exact requested
  · change Framed world.queue.requestCount _ _
    rw [appended]
    exact faithful.framed.mono (Nat.le_succ _)

/-- A refund: its CALL is made, or fails at once. -/
theorem refundStep (faithful : Faithful ⟨machine, logs⟩)
    (onTop : machine.stack = frame :: outer) {keccak256 : Bytes → B256}
    {call : SystemReportBundleLifecycleCall} {index : Nat}
    (named : ∀ other ∈ call.failedIndices, other < frame.snapshot.world.queue.requestCount)
    (queued : index < machine.journal.world.queue.requestCount)
    (isBundled : (machine.journal.world.queue.requests index).status = .bundled) :
    Faithful
      ⟨MachineState.refundStep keccak256 index
          { activation := .lifecycle call, snapshot := frame.snapshot } outer machine.journal,
        logs.refundStep index machine.journal⟩ := by
  have marked : Replays logs.log
      (machine.journal.markRefunded keccak256 index).world.queue
      ((index, (machine.journal.world.queue.requests index).bundleM6id) :: logs.underWay) :=
    faithful.replays.marked queued isBundled
  unfold MachineState.refundStep LogState.refundStep
  dsimp only
  split
  · have under := faithful.waiting onTop named faithful.replays rfl
    constructor
    · exact marked
    · exact .cons le_rfl trivial marked under.framed
  · exact faithful.waiting onTop named (marked.refunded false) rfl

theorem named (faithful : Faithful ⟨machine, logs⟩) (onTop : machine.stack = frame :: outer) :
    frame.NamesQueued ∧
      frame.snapshot.world.queue.requestCount ≤ machine.journal.world.queue.requestCount := by
  rcases machine with ⟨journal, stack⟩
  rcases logs with ⟨log, frames⟩
  rcases faithful with ⟨_, framed⟩
  dsimp only at onTop framed
  subst onTop
  cases framed with
  | cons before named _ _ => exact ⟨named, before⟩

theorem lifecycleStep (faithful : Faithful ⟨machine, logs⟩) {keccak256 : Bytes → B256}
    {call : SystemReportBundleLifecycleCall} {snapshot : Journal}
    (onTop : machine.stack = { activation := .lifecycle call, snapshot := snapshot } :: outer) :
    Faithful ⟨MachineState.lifecycleStep keccak256 call snapshot outer machine.journal,
      logs.lifecycleStep call machine.journal⟩ := by
  have reverted := faithful.revert onTop
  rcases faithful.named onTop with ⟨named, before⟩
  rcases call with ⟨bundledIndices, newM6id, succeededIndices, failedIndices⟩
  cases bundledIndices with
  | cons index rest =>
      dsimp only [MachineState.lifecycleStep, LogState.lifecycleStep]
      split
      · apply faithful.waiting onTop
        · exact named
        · exact faithful.replays.bundled newM6id ‹_›
        · rfl
      · exact reverted
  | nil =>
      cases succeededIndices with
      | cons index rest =>
          dsimp only [MachineState.lifecycleStep, LogState.lifecycleStep]
          split
          · apply faithful.waiting onTop
            · exact named
            · exact faithful.replays.confirmed ‹_›
            · rfl
          · exact reverted
      | nil =>
          cases failedIndices with
          | cons index rest =>
              dsimp only [MachineState.lifecycleStep, LogState.lifecycleStep]
              split
              · have queued := named index (List.mem_cons_self ..)
                exact faithful.refundStep onTop
                  (fun other member => named other (List.mem_cons_of_mem _ member))
                  (queued.trans_le before) ‹_›
              · exact reverted
          | nil => exact faithful.leave onTop

theorem step {keccak256 : Bytes → B256} {state next : LoggedState} {action : Action}
    (faithful : state.Faithful) (step : LoggedSteps keccak256 state action next) :
    next.Faithful := by
  rcases state with ⟨machine, logs⟩
  rcases next with ⟨nextMachine, nextLogs⟩
  rcases step with ⟨taken, logged, named⟩
  dsimp only at taken logged named
  subst logged
  unfold MachineState.Steps at taken
  cases action with
  | credit account amountWei =>
      cases taken
      exact faithful.withJournal rfl
  | spend account amountWei =>
      rcases Option.ite_none_left_eq_some.mp taken with ⟨_, isNext⟩
      cases isNext
      exact faithful.withJournal rfl
  | transact sender =>
      rcases Option.ite_none_right_eq_some.mp taken with ⟨_, isNext⟩
      cases isNext
      exact faithful.enter trivial
  | systemCall call =>
      rcases Option.ite_none_right_eq_some.mp taken with ⟨_, isNext⟩
      cases isNext
      exact faithful.enter named
  | call recipient amountWei =>
      rcases Option.map_eq_some_iff.mp taken with ⟨account, isRunner, isNext⟩
      subst isNext
      rw [LogState.step, isRunner]
      dsimp only
      split
      · have entered : Faithful ⟨machine.enter (.user recipient), logs.enter none⟩ :=
          faithful.enter trivial
        exact entered.withJournal rfl
      · exact faithful
  | forceEther recipient amountWei =>
      rcases Option.map_eq_some_iff.mp taken with ⟨account, _, isNext⟩
      subst isNext
      split
      · exact faithful.withJournal rfl
      · exact faithful
  | requestWithdrawal msgValue btcDestination mainFeeSats =>
      rcases Option.map_eq_some_iff.mp taken with ⟨account, isRunner, isNext⟩
      subst isNext
      rw [LogState.step, isRunner]
      dsimp only
      cases returned : machine.journal.requestWithdrawal keccak256 account.address msgValue
          btcDestination mainFeeSats with
      | ok journal => exact faithful.request returned
      | error failure => exact faithful
  | systemReportBundleLifecycle call =>
      rcases Option.map_eq_some_iff.mp taken with ⟨account, isRunner, isNext⟩
      subst isNext
      rw [LogState.step, isRunner]
      dsimp only
      split
      · exact faithful.enter named
      · exact faithful
  | advance =>
      dsimp only [MachineState.step] at taken
      split at taken
      · rename_i onTop
        cases taken
        rw [LogState.step, onTop]
        exact faithful.lifecycleStep onTop
      · cases taken
  | leave =>
      dsimp only [MachineState.step] at taken
      split at taken
      · cases taken
        exact faithful.leave ‹_›
      · cases taken
  | revert =>
      dsimp only [MachineState.step] at taken
      split at taken
      · cases taken
        exact faithful.revert ‹_›
      · cases taken

end LoggedState.Faithful

/-! ## Runs -/

/-- Whatever is called, re-entered and reverted, the events can be replayed at any point,
and they show the storage apart from the refunds whose CALL has not ended. Between
transactions they give the storage itself. -/
theorem events_replay_storage (keccak256 : Bytes → B256) (balances : Ledger Address)
    (history : List Action) (state : LoggedState)
    (run : Run (LoggedSteps keccak256) ⟨.initial balances, .initial⟩ history state) :
    Replays state.logs.log state.machine.journal.world.queue state.logs.underWay ∧
      (state.machine.stack = [] →
        replay state.logs.log = some state.machine.journal.world.queue) := by
  have faithful : state.Faithful := by
    induction run with
    | start => exact ⟨.initial, .nil⟩
    | extend _ step induction => exact induction.step step
  refine ⟨faithful.replays, ?_⟩
  intro nothingOpen
  have framed := faithful.framed
  have replays := faithful.replays
  rw [nothingOpen] at framed
  unfold LogState.underWay at replays
  cases noFrames : state.logs.frames with
  | cons frame outer =>
      rw [noFrames] at framed
      cases framed
  | nil =>
      rw [noFrames] at replays
      rcases replays with ⟨shown, replayed, shows_⟩
      rw [replayed, shows_.eq_of_nil]

/-! Two requests are bundled and refunded in one call: the payee of the first asks for a
third withdrawal before it takes its ether, and refuses the ether of the second. -/

def refundingHistory : List Action :=
  [.credit reenteringPayee.address (100 * weiPerSat),
    .transact reenteringPayee,
    .requestWithdrawal (5 * weiPerSat) [0xaa] 1,
    .requestWithdrawal (7 * weiPerSat) [0xbb] 2,
    .leave,
    .systemCall
      { bundledIndices := [0, 1]
        newM6id := .replicate 32 7
        succeededIndices := []
        failedIndices := [0, 1] },
    .advance,
    .advance,
    .advance,
    .requestWithdrawal (3 * weiPerSat) [0xcc] 0,
    .leave,
    .advance,
    .revert,
    .advance]

def refundingEvents : List QueueEvent :=
  [.withdrawalRequested 0 reenteringPayee.address 4 1 [0xaa],
    .withdrawalRequested 1 reenteringPayee.address 5 2 [0xbb],
    .withdrawalBundled 0 (.replicate 32 7),
    .withdrawalBundled 1 (.replicate 32 7),
    .withdrawalRequested 2 reenteringPayee.address 3 0 [0xcc],
    .withdrawalRefunded 0 (.replicate 32 7) true,
    .withdrawalRefunded 1 (.replicate 32 7) false]

theorem events_replay_storage_refunding :
    ∃ state : LoggedState,
      Run (LoggedSteps fun _ => .replicate 32 0) ⟨.initial fun _ => 0, .initial⟩
        refundingHistory state ∧
      state.logs.log = refundingEvents ∧
      replay refundingEvents = some state.machine.journal.world.queue := by
  have executed :
      (LoggedState.stepAll (fun _ => .replicate 32 0) ⟨.initial fun _ => 0, .initial⟩
        refundingHistory).map (fun state => (state.logs.log, state.machine.stack.isEmpty)) =
      some (refundingEvents, true) := by
    decide +kernel
  rcases Option.map_eq_some_iff.mp executed with ⟨state, taken, fields⟩
  have run := LoggedState.run_of_stepAll taken
  have isLog : state.logs.log = refundingEvents := congrArg Prod.fst fields
  have nothingOpen : state.machine.stack = [] :=
    List.isEmpty_iff.mp (congrArg Prod.snd fields)
  refine ⟨state, run, isLog, ?_⟩
  rw [← isLog]
  exact (events_replay_storage _ _ _ state run).2 nothingOpen

end WithdrawalRequestQueue

end Beth
