import Beth.Contracts.ReportBundleLifecycle
import Beth.Contracts.StorageLayout
import Beth.Foundation.Runs

/-! # The queue contract, one step at a time

The state is a journal of what transactions change and the stack of the call
frames that are open. User code calls other accounts and the contract, returns
and reverts. `systemReportBundleLifecycle` takes one iteration of its loops at a
time, and a refund CALL opens a frame of the payee, which runs like any other
user code before the loop goes on. -/

namespace Beth

open Foundation

namespace WithdrawalRequestQueue

/-! ## States -/

/-- An account that runs code of its own, or sends transactions. -/
structure UserAccount where
  address : Address
  notPredeploy : address ∉ predeploys

theorem UserAccount.ne_queue (account : UserAccount) :
    account.address ≠ withdrawalRequestQueueAddress := fun isQueue =>
  account.notPredeploy (isQueue ▸ queue_mem_predeploys)

/-- What a frame that reverts puts back. The `msg.value` of every request and the
amount of every refund CALL are written down along with the state. -/
structure Journal where
  world : World
  slots : Slots
  msgValues : List Nat
  refunds : List (Nat × Nat)

/-- What an open frame runs: user code, or the loops over the indices left. -/
inductive Activation
  | user (account : UserAccount)
  | lifecycle (call : SystemReportBundleLifecycleCall)

structure OpenFrame where
  activation : Activation
  snapshot : Journal

structure MachineState where
  journal : Journal
  stack : List OpenFrame

/-- Any distribution of ether, with nothing queued and no frame open. -/
def MachineState.initial (balances : Ledger Address) : MachineState where
  journal :=
    { world := { balances := balances, queue := .initial }
      slots := fun _ => 0
      msgValues := []
      refunds := [] }
  stack := []

/-- A step of the chain around the contract, of the user code on top of the
stack, or of the contract. -/
inductive Action
  | credit (account : Address) (amountWei : Nat)
  | spend (account : Address) (amountWei : Nat)
  | transact (sender : UserAccount)
  | systemCall (call : SystemReportBundleLifecycleCall)
  | call (recipient : UserAccount) (amountWei : Nat)
  | forceEther (recipient : Address) (amountWei : Nat)
  | requestWithdrawal (msgValue : Nat) (btcDestination : Bytes) (mainFeeSats : Nat)
  | systemReportBundleLifecycle (call : SystemReportBundleLifecycleCall)
  | advance
  | leave
  | revert

/-! ## Changes of the journal -/

namespace Request

variable (request : Request)

theorem sameWithdrawal_bundle (newM6id : B256) :
    request.SameWithdrawal (request.bundle newM6id) := ⟨rfl, rfl, rfl, rfl⟩

theorem sameWithdrawal_confirm : request.SameWithdrawal request.confirm :=
  ⟨rfl, rfl, rfl, rfl⟩

theorem sameWithdrawal_refund : request.SameWithdrawal request.refund :=
  ⟨rfl, rfl, rfl, rfl⟩

end Request

namespace Journal

variable (keccak256 : Bytes → B256)

def withBalances (balances : Ledger Address) (journal : Journal) : Journal :=
  { journal with world := { journal.world with balances := balances } }

/-- A call of `requestWithdrawal`. The decoder of its arguments refuses a
destination whose length does not fit 64 bits. -/
def requestWithdrawal (sender : Address) (msgValue : Nat) (btcDestination : Bytes)
    (mainFeeSats : Nat) (journal : Journal) : Except CallFailure Journal := do
  require (btcDestination.length < 2 ^ 64) ""
  let next ← WithdrawalRequestQueue.requestWithdrawal sender msgValue btcDestination
    mainFeeSats journal.world
  let index := journal.world.queue.requestCount
  pure
    { world := next
      slots := storeAll (Location.slot keccak256)
        (appendWrites index (next.queue.requests index)) journal.slots
      msgValues := journal.msgValues ++ [msgValue]
      refunds := journal.refunds }

/-- Assign some fields of the request at `index`. -/
def assign (index : Nat) (change : Request → Request) (fields : List Field)
    (journal : Journal) : Journal :=
  { journal with
    world := changeRequest index change journal.world
    slots := storeAll (Location.slot keccak256)
      (entryWrites index (change (journal.world.queue.requests index)) fields) journal.slots }

/-- The request is marked refunded before its CALL is made. -/
def markRefunded (index : Nat) (journal : Journal) : Journal :=
  { journal.assign keccak256 index Request.refund [.status] with
    refunds := journal.refunds ++ [(index, (journal.world.queue.requests index).lockedWei)] }

/-- The ether of the request at `index` goes to its requester. -/
def payRefund (index : Nat) (journal : Journal) : Journal :=
  journal.withBalances (journal.world.balances.move withdrawalRequestQueueAddress
    (journal.world.queue.requests index).requester
    (journal.world.queue.requests index).lockedWei)

end Journal

/-! ## Steps -/

namespace MachineState

variable (keccak256 : Bytes → B256)

/-- The account whose code is on top of the stack. -/
def runner (state : MachineState) : Option UserAccount :=
  match state.stack with
  | { activation := .user account, .. } :: _ => some account
  | _ => none

def withJournal (journal : Journal) (state : MachineState) : MachineState :=
  { state with journal := journal }

def enter (activation : Activation) (state : MachineState) : MachineState :=
  { state with stack := { activation := activation, snapshot := state.journal } :: state.stack }

/-- The refund of one request, in a frame that has `waiting` to do afterwards. A
payee without the power to take ether refuses at once, as does a contract that
cannot pay; the loop goes on in either case. -/
def refundStep (index : Nat) (waiting : OpenFrame) (outer : List OpenFrame)
    (journal : Journal) : MachineState :=
  let request := journal.world.queue.requests index
  let marked := journal.markRefunded keccak256 index
  if covered : request.requester ∉ predeploys ∧
      request.lockedWei ≤ journal.world.balances withdrawalRequestQueueAddress then
    { journal := marked.payRefund index
      stack :=
        { activation := .user ⟨request.requester, covered.1⟩, snapshot := marked } ::
          waiting :: outer }
  else
    { journal := marked, stack := waiting :: outer }

/-- One iteration of the loops of `systemReportBundleLifecycle`, or its return.
A `require` that fails reverts the whole call. -/
def lifecycleStep (call : SystemReportBundleLifecycleCall) (snapshot : Journal)
    (outer : List OpenFrame) (journal : Journal) : MachineState :=
  let reverted : MachineState := { journal := snapshot, stack := outer }
  let waiting (rest : SystemReportBundleLifecycleCall) : OpenFrame :=
    { activation := .lifecycle rest, snapshot := snapshot }
  match call.bundledIndices, call.succeededIndices, call.failedIndices with
  | index :: rest, _, _ =>
      if (journal.world.queue.requests index).status = .pending then
        { journal := journal.assign keccak256 index (Request.bundle call.newM6id)
            [.status, .bundleM6id]
          stack := waiting { call with bundledIndices := rest } :: outer }
      else reverted
  | [], index :: rest, _ =>
      if (journal.world.queue.requests index).status = .bundled then
        { journal := journal.assign keccak256 index Request.confirm [.status]
          stack := waiting { call with succeededIndices := rest } :: outer }
      else reverted
  | [], [], index :: rest =>
      if (journal.world.queue.requests index).status = .bundled then
        refundStep keccak256 index (waiting { call with failedIndices := rest }) outer journal
      else reverted
  | [], [], [] => { journal := journal, stack := outer }

/-- What `action` does, where it can be taken. A call the user code cannot pay
for, or that reverts, has no effect. -/
def step (state : MachineState) : Action → Option MachineState
  | .credit account amountWei =>
      some (state.withJournal
        (state.journal.withBalances (state.journal.world.balances.credit account amountWei)))
  | .spend account amountWei =>
      if account = withdrawalRequestQueueAddress then none
      else
        some (state.withJournal
          (state.journal.withBalances (state.journal.world.balances.debit account amountWei)))
  | .transact sender =>
      if state.stack.isEmpty then some (state.enter (.user sender)) else none
  | .systemCall call =>
      if state.stack.isEmpty then some (state.enter (.lifecycle call)) else none
  | .call recipient amountWei =>
      state.runner.map fun account =>
        if amountWei ≤ state.journal.world.balances account.address then
          (state.enter (.user recipient)).withJournal
            (state.journal.withBalances (state.journal.world.balances.move account.address
              recipient.address amountWei))
        else state
  | .forceEther recipient amountWei =>
      state.runner.map fun account =>
        if amountWei ≤ state.journal.world.balances account.address then
          state.withJournal (state.journal.withBalances
            (state.journal.world.balances.move account.address recipient amountWei))
        else state
  | .requestWithdrawal msgValue btcDestination mainFeeSats =>
      state.runner.map fun account =>
        match state.journal.requestWithdrawal keccak256 account.address msgValue
            btcDestination mainFeeSats with
        | .ok journal => state.withJournal journal
        | .error _ => state
  | .systemReportBundleLifecycle call =>
      state.runner.map fun account =>
        -- `require(msg.sender == SYSTEM_ADDRESS)`
        if account.address = systemAddress then state.enter (.lifecycle call) else state
  | .advance =>
      match state.stack with
      | { activation := .lifecycle call, snapshot := snapshot } :: outer =>
          some (lifecycleStep keccak256 call snapshot outer state.journal)
      | _ => none
  | .leave =>
      match state.stack with
      | { activation := .user _, .. } :: outer => some { state with stack := outer }
      | _ => none
  | .revert =>
      match state.stack with
      | frame :: outer => some { journal := frame.snapshot, stack := outer }
      | [] => none

/-- The request that the contract refunds in its next step. -/
def nextRefund (state : MachineState) : Option Nat :=
  match state.stack with
  | { activation := .lifecycle call, .. } :: _ =>
      match call.bundledIndices, call.succeededIndices, call.failedIndices with
      | [], [], index :: _ =>
          if (state.journal.world.queue.requests index).status = .bundled then some index
          else none
      | _, _, _ => none
  | _ => none

/-- The steps a run is made of. -/
def Steps (state : MachineState) (action : Action) (next : MachineState) : Prop :=
  step keccak256 state action = some next

theorem nextRefund_bundled {state : MachineState} {index : Nat}
    (isNext : state.nextRefund = some index) :
    (state.journal.world.queue.requests index).status = .bundled := by
  unfold nextRefund at isNext
  split at isNext
  · split at isNext
    · rcases Option.ite_none_right_eq_some.mp isNext with ⟨bundled, same⟩
      cases same
      exact bundled
    · cases isNext
  · cases isNext

/-- Several steps, one after the other. -/
def stepAll (state : MachineState) (actions : List Action) : Option MachineState :=
  actions.foldlM (step keccak256) state

theorem run_of_stepAll {state next : MachineState} {actions : List Action}
    (taken : stepAll keccak256 state actions = some next) :
    Run (Steps keccak256) state actions next :=
  Run.of_foldlM taken

variable {keccak256} in
/-- What several steps show of the state they end in. -/
theorem eq_of_stepAll {state next : MachineState} {actions : List Action} {α : Type}
    (view : MachineState → α) {value : α}
    (taken : stepAll keccak256 state actions = some next)
    (viewed : (stepAll keccak256 state actions).map view = some value) :
    view next = value := by
  rw [taken] at viewed
  exact Option.some.inj viewed

end MachineState

/-! ## What a step can do -/

/-- Everything that can happen to the journal short of putting back an old one. -/
inductive Journal.Effect (keccak256 : Bytes → B256) (journal : Journal) : Journal → Prop
  | none : Effect keccak256 journal journal
  | credit (account : Address) (amountWei : Nat) :
      Effect keccak256 journal
        (journal.withBalances (journal.world.balances.credit account amountWei))
  | spend {account : Address} (amountWei : Nat) :
      account ≠ withdrawalRequestQueueAddress →
      Effect keccak256 journal
        (journal.withBalances (journal.world.balances.debit account amountWei))
  | transfer {sender : Address} (recipient : Address) {amountWei : Nat} :
      sender ≠ withdrawalRequestQueueAddress →
      amountWei ≤ journal.world.balances sender →
      Effect keccak256 journal
        (journal.withBalances (journal.world.balances.move sender recipient amountWei))
  | request {sender : Address} {msgValue mainFeeSats : Nat} {btcDestination : Bytes}
      {next : Journal} :
      sender ≠ withdrawalRequestQueueAddress →
      journal.requestWithdrawal keccak256 sender msgValue btcDestination mainFeeSats =
        .ok next →
      Effect keccak256 journal next
  | bundle {index : Nat} (newM6id : B256) :
      (journal.world.queue.requests index).status = .pending →
      Effect keccak256 journal
        (journal.assign keccak256 index (Request.bundle newM6id) [.status, .bundleM6id])
  | confirm {index : Nat} :
      (journal.world.queue.requests index).status = .bundled →
      Effect keccak256 journal (journal.assign keccak256 index Request.confirm [.status])
  | refund {index : Nat} :
      (journal.world.queue.requests index).status = .bundled →
      Effect keccak256 journal (journal.markRefunded keccak256 index)
  | refundPaid {index : Nat} :
      (journal.world.queue.requests index).status = .bundled →
      (journal.world.queue.requests index).requester ∉ predeploys →
      (journal.world.queue.requests index).lockedWei ≤
        journal.world.balances withdrawalRequestQueueAddress →
      Effect keccak256 journal ((journal.markRefunded keccak256 index).payRefund index)

/-- The journals after a step, current or to be put back, come from the journals
before it. -/
structure MachineState.Continues (keccak256 : Bytes → B256) (state next : MachineState) :
    Prop where
  journal : state.journal.Effect keccak256 next.journal ∨
    ∃ frame ∈ state.stack, next.journal = frame.snapshot
  snapshots : ∀ frame ∈ next.stack,
    state.journal.Effect keccak256 frame.snapshot ∨
      ∃ old ∈ state.stack, frame.snapshot = old.snapshot

namespace MachineState

variable {keccak256 : Bytes → B256} {state next : MachineState}

theorem continues_of_effect {journal : Journal}
    (effect : state.journal.Effect keccak256 journal) :
    Continues keccak256 state (state.withJournal journal) where
  journal := Or.inl effect
  snapshots := fun frame member => Or.inr ⟨frame, member, rfl⟩

theorem continues_refl : Continues keccak256 state state :=
  continues_of_effect .none

theorem continues_enter (activation : Activation) :
    Continues keccak256 state (state.enter activation) where
  journal := Or.inl .none
  snapshots := fun frame member => by
    rcases List.mem_cons.mp member with isNew | isOld
    · exact Or.inl (isNew ▸ .none)
    · exact Or.inr ⟨frame, isOld, rfl⟩

/-- A frame that goes on, or is replaced by one with the same way back. -/
theorem continues_waiting {frame : OpenFrame} {outer : List OpenFrame} {journal : Journal}
    (onTop : state.stack = frame :: outer) (activation : Activation)
    (effect : state.journal.Effect keccak256 journal) :
    Continues keccak256 state
      { journal := journal
        stack := { activation := activation, snapshot := frame.snapshot } :: outer } where
  journal := Or.inl effect
  snapshots := fun other member => by
    rcases List.mem_cons.mp member with isNew | isOuter
    · exact Or.inr ⟨frame, by simp [onTop], by rw [isNew]⟩
    · exact Or.inr ⟨other, by simp [onTop, isOuter], rfl⟩

theorem continues_leave {frame : OpenFrame} {outer : List OpenFrame}
    (onTop : state.stack = frame :: outer) :
    Continues keccak256 state { state with stack := outer } where
  journal := Or.inl .none
  snapshots := fun other member => Or.inr ⟨other, by simp [onTop, member], rfl⟩

theorem continues_revert {frame : OpenFrame} {outer : List OpenFrame}
    (onTop : state.stack = frame :: outer) :
    Continues keccak256 state { journal := frame.snapshot, stack := outer } where
  journal := Or.inr ⟨frame, by simp [onTop], rfl⟩
  snapshots := fun other member => Or.inr ⟨other, by simp [onTop, member], rfl⟩

theorem continues_refundStep {frame : OpenFrame} {outer : List OpenFrame} {index : Nat}
    (onTop : state.stack = frame :: outer) (activation : Activation)
    (bundled : (state.journal.world.queue.requests index).status = .bundled) :
    Continues keccak256 state
      (refundStep keccak256 index { activation := activation, snapshot := frame.snapshot }
        outer state.journal) := by
  have effect : state.journal.Effect keccak256 (state.journal.markRefunded keccak256 index) :=
    .refund bundled
  have marks := continues_waiting onTop activation effect
  unfold refundStep
  dsimp only
  split
  · rename_i covered
    constructor
    · exact Or.inl (.refundPaid bundled covered.1 covered.2)
    · intro other member
      rcases List.mem_cons.mp member with isPayee | isWaiting
      · exact Or.inl (isPayee ▸ .refund bundled)
      · exact marks.snapshots other isWaiting
  · exact marks

theorem continues_lifecycleStep {call : SystemReportBundleLifecycleCall}
    {snapshot : Journal} {outer : List OpenFrame}
    (onTop : state.stack = { activation := .lifecycle call, snapshot := snapshot } :: outer) :
    Continues keccak256 state (lifecycleStep keccak256 call snapshot outer state.journal) := by
  unfold lifecycleStep
  dsimp only
  split
  · split
    · exact continues_waiting onTop _ (.bundle _ ‹_›)
    · exact continues_revert onTop
  · split
    · exact continues_waiting onTop _ (.confirm ‹_›)
    · exact continues_revert onTop
  · split
    · exact continues_refundStep onTop _ ‹_›
    · exact continues_revert onTop
  · exact continues_leave onTop

theorem continues_of_step {action : Action} (taken : Steps keccak256 state action next) :
    Continues keccak256 state next := by
  unfold Steps at taken
  cases action with
  | credit account amountWei =>
      cases taken
      exact continues_of_effect (.credit _ _)
  | spend account amountWei =>
      rcases Option.ite_none_left_eq_some.mp taken with ⟨notQueue, isNext⟩
      cases isNext
      exact continues_of_effect (.spend _ notQueue)
  | transact sender =>
      rcases Option.ite_none_right_eq_some.mp taken with ⟨_, isNext⟩
      cases isNext
      exact continues_enter _
  | systemCall call =>
      rcases Option.ite_none_right_eq_some.mp taken with ⟨_, isNext⟩
      cases isNext
      exact continues_enter _
  | call recipient amountWei =>
      rcases Option.map_eq_some_iff.mp taken with ⟨account, _, isNext⟩
      subst isNext
      split
      · have entered : Continues keccak256 state (state.enter (.user recipient)) :=
          continues_enter _
        exact ⟨Or.inl (.transfer _ account.ne_queue ‹_›), entered.snapshots⟩
      · exact continues_refl
  | forceEther recipient amountWei =>
      rcases Option.map_eq_some_iff.mp taken with ⟨account, _, isNext⟩
      subst isNext
      split
      · exact continues_of_effect (.transfer _ account.ne_queue ‹_›)
      · exact continues_refl
  | requestWithdrawal msgValue btcDestination mainFeeSats =>
      rcases Option.map_eq_some_iff.mp taken with ⟨account, _, isNext⟩
      subst isNext
      split
      · exact continues_of_effect (.request account.ne_queue ‹_›)
      · exact continues_refl
  | systemReportBundleLifecycle call =>
      rcases Option.map_eq_some_iff.mp taken with ⟨account, _, isNext⟩
      subst isNext
      split
      · exact continues_enter _
      · exact continues_refl
  | advance =>
      dsimp only [step] at taken
      split at taken
      · cases taken
        exact continues_lifecycleStep ‹_›
      · cases taken
  | leave =>
      dsimp only [step] at taken
      split at taken
      · cases taken
        exact continues_leave ‹_›
      · cases taken
  | revert =>
      dsimp only [step] at taken
      split at taken
      · cases taken
        exact continues_revert ‹_›
      · cases taken

/-- What every change of the journal keeps holds at every point of a run, and of
every state a frame may go back to. -/
theorem holds_of_run (Holds : Journal → Prop)
    (kept : ∀ journal next, Holds journal → journal.Effect keccak256 next → Holds next)
    {history : List Action} {start : MachineState} (nothingOpen : start.stack = [])
    (initially : Holds start.journal) (run : Run (Steps keccak256) start history state) :
    Holds state.journal ∧ ∀ frame ∈ state.stack, Holds frame.snapshot := by
  apply run.invariant fun _ reached =>
    Holds reached.journal ∧ ∀ frame ∈ reached.stack, Holds frame.snapshot
  · exact ⟨initially, by simp [nothingOpen]⟩
  · intro _ reached action after _ holds taken
    have continues := continues_of_step taken
    constructor
    · rcases continues.journal with effect | ⟨frame, member, isSnapshot⟩
      · exact kept _ _ holds.1 effect
      · exact isSnapshot ▸ holds.2 frame member
    · intro frame member
      rcases continues.snapshots frame member with effect | ⟨old, isOld, isSnapshot⟩
      · exact kept _ _ holds.1 effect
      · exact isSnapshot ▸ holds.2 old isOld

end MachineState

/-! ## Requests -/

/-- A successful `requestWithdrawal` moves its `msg.value`, appends a pending
request that locks it, and stores that request. -/
theorem Journal.requestWithdrawal_ok {keccak256 : Bytes → B256} {sender : Address}
    {msgValue mainFeeSats : Nat} {btcDestination : Bytes} {journal next : Journal}
    (returned : journal.requestWithdrawal keccak256 sender msgValue btcDestination
      mainFeeSats = .ok next) :
    ∃ request : Request,
      request.status = .pending ∧ 0 < request.valueSats ∧
      request.btcDestination.length < 2 ^ 64 ∧
      msgValue = request.lockedWei ∧
      request.lockedWei ≤ journal.world.balances sender ∧
      next =
        { world :=
            { balances := journal.world.balances.move sender withdrawalRequestQueueAddress
                request.lockedWei
              queue := journal.world.queue.append request }
          slots := storeAll (Location.slot keccak256)
            (appendWrites journal.world.queue.requestCount request) journal.slots
          msgValues := journal.msgValues ++ [request.lockedWei]
          refunds := journal.refunds } := by
  rcases bind_eq_ok.mp returned with ⟨_, decoded, afterDecoding⟩
  rcases bind_eq_ok.mp afterDecoding with ⟨world, executed, isNext⟩
  rcases WithdrawalRequestQueue.requestWithdrawal_ok executed with
    ⟨request, pending, _, _, destination, positive, locked, covered, balancesEq, countEq,
      requestsEq⟩
  have short : btcDestination.length < 2 ^ 64 := by
    by_contra long
    rw [require_of_not _ long] at decoded
    cases decoded
  have queueEq : world.queue = journal.world.queue.append request := by
    rcases queueIs : world.queue with ⟨count, requests⟩
    rw [queueIs] at countEq requestsEq
    change count = _ at countEq
    change requests = _ at requestsEq
    rw [countEq, requestsEq]
    rfl
  have newest : world.queue.requests journal.world.queue.requestCount = request := by
    rw [requestsEq, Function.update_self]
  refine ⟨request, pending, positive, destination ▸ short, locked.symm, locked ▸ covered, ?_⟩
  cases isNext
  rcases world with ⟨balances, queue⟩
  dsimp only at balancesEq queueEq newest ⊢
  rw [newest, balancesEq, queueEq, locked]

end WithdrawalRequestQueue

end Beth
