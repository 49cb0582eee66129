import Beth.Contracts.RequestWithdrawal

/-! # Call frames of a system call

A system call runs one contract function with a fixed gas limit. Inside it the
contract makes value CALLs without a gas cap: all but one 64th of the remaining
gas is forwarded, and the payee's code may burn any part of that, reject the
call, or run user code of its own. Gas can also be left out of account
(`gasLimit := none`), in which case nothing runs out of it. -/

namespace Beth

open Foundation WithdrawalRequestQueue

inductive Event
  | depositCredited (recipient : Address) (amountSats : Nat) (success : Bool)
  | withdrawalBundled (index : Nat) (m6id : B256)
  | withdrawalConfirmed (index : Nat) (m6id : B256)
  | withdrawalRefunded (index : Nat) (m6id : B256) (transferSucceeded : Bool)
deriving DecidableEq

/-- What the loops of the two system functions pay for their own work. -/
structure GasSchedule where
  bookkeeping : Nat
  beforeCall : Address → Nat
  afterCall : Nat
  bookkeeping_pos : 0 < bookkeeping
  beforeCall_pos : ∀ payee, 0 < beforeCall payee

/-- How the code behind an address reacts to one CALL. -/
structure Payee where
  accepts : Bool
  actions : List UserAction
  gasBurned : Nat

/-- An account without code takes the ether and does nothing. -/
def Payee.plain : Payee where
  accepts := true
  actions := []
  gasBurned := 0

/-- The circumstances of one system call: its gas, the reaction of the payee of
each CALL it makes, and a failure of the node itself (its database, say). -/
structure CallEnv where
  gasLimit : Option Nat
  schedule : GasSchedule
  payees : Nat → Payee
  hostFault : Option String

def GasSchedule.unit : GasSchedule where
  bookkeeping := 1
  beforeCall := fun _ => 1
  afterCall := 1
  bookkeeping_pos := by decide
  beforeCall_pos := fun _ => by decide

/-- A call whose gas is not counted and whose payees are all plain accounts. -/
def CallEnv.unmetered : CallEnv where
  gasLimit := none
  schedule := .unit
  payees := fun _ => .plain
  hostFault := none

structure Frame where
  world : World
  gas : Option Nat
  calls : Nat
  logs : List Event

namespace Frame

def charge (cost : Nat) (frame : Frame) : Except CallFailure Frame :=
  match frame.gas with
  | none => .ok frame
  | some remaining =>
      if cost ≤ remaining then .ok { frame with gas := some (remaining - cost) }
      else .error .outOfGas

def emit (event : Event) (frame : Frame) : Frame :=
  { frame with logs := frame.logs ++ [event] }

def setRequest (index : Nat) (request : Request) (frame : Frame) : Frame :=
  { frame with
    world := { frame.world with queue := frame.world.queue.setRequest index request } }

/-- All but one 64th of the remaining gas. -/
def forwardedGas (remaining : Nat) : Nat := remaining - remaining / 64

def burnForwarded (burned : Nat) (frame : Frame) : Frame :=
  { frame with
    gas := frame.gas.map fun remaining => remaining - min burned (forwardedGas remaining) }

/-- `payable(recipient).call{value: amountWei}("")`. A caller without the
amount gets `false` and the callee does not run; a rejected call is undone. -/
def call (env : CallEnv) (sender recipient : Address) (amountWei : Nat)
    (frame : Frame) : Frame × Bool :=
  let payee := env.payees frame.calls
  if frame.world.balances sender < amountWei then
    ({ frame with calls := frame.calls + 1 }, false)
  else
    let returned : Frame :=
      { burnForwarded payee.gasBurned frame with calls := frame.calls + 1 }
    if payee.accepts ∧ recipient ∉ predeploys then
      ({ returned with
          world := runUserCode payee.actions
            { frame.world with
              balances := frame.world.balances.move sender recipient amountWei } },
        true)
    else
      (returned, false)

/-! ## What the frame operations do to each field -/

section Fields

variable (frame : Frame) (event : Event) (index : Nat) (request : Request)

@[simp] theorem emit_world : (frame.emit event).world = frame.world := rfl

@[simp] theorem emit_gas : (frame.emit event).gas = frame.gas := rfl

@[simp] theorem emit_calls : (frame.emit event).calls = frame.calls := rfl

@[simp] theorem emit_logs : (frame.emit event).logs = frame.logs ++ [event] := rfl

@[simp] theorem setRequest_balances :
    (frame.setRequest index request).world.balances = frame.world.balances := rfl

@[simp] theorem setRequest_queue :
    (frame.setRequest index request).world.queue =
      frame.world.queue.setRequest index request := rfl

@[simp] theorem setRequest_gas :
    (frame.setRequest index request).gas = frame.gas := rfl

@[simp] theorem setRequest_calls :
    (frame.setRequest index request).calls = frame.calls := rfl

@[simp] theorem setRequest_logs :
    (frame.setRequest index request).logs = frame.logs := rfl

@[simp] theorem charge_of_unmetered {frame : Frame} (cost : Nat)
    (unmetered : frame.gas = none) : frame.charge cost = .ok frame := by
  simp [charge, unmetered]

end Fields

/-- Charging either runs out of metered gas or changes nothing but the gas. -/
theorem charge_meets (cost : Nat) (frame : Frame) :
    Meets (frame.charge cost)
      (fun charged => charged.world = frame.world ∧ charged.calls = frame.calls ∧
        charged.logs = frame.logs ∧ (frame.gas = none → charged.gas = none))
      (fun failure => failure = .outOfGas ∧ frame.gas ≠ none) := by
  unfold charge
  cases gasEq : frame.gas with
  | none => simp [gasEq]
  | some remaining =>
      dsimp only
      split <;> simp

/-- Everything a CALL can do to the world, by whether it reports success. -/
inductive PaymentEffect (payer recipient : Address) (amountWei : Nat) (world : World) :
    Bool → World → Prop
  | rejected : PaymentEffect payer recipient amountWei world false world
  | paid (actions : List UserAction) :
      recipient ∉ predeploys → amountWei ≤ world.balances payer →
      PaymentEffect payer recipient amountWei world true
        (runUserCode actions
          { world with balances := world.balances.move payer recipient amountWei })

theorem call_effect (env : CallEnv) (sender recipient : Address) (amountWei : Nat)
    (frame : Frame) :
    PaymentEffect sender recipient amountWei frame.world
      (frame.call env sender recipient amountWei).2
      (frame.call env sender recipient amountWei).1.world := by
  unfold call
  dsimp only
  split
  · exact .rejected
  · split
    · exact .paid _ (‹_ ∧ _›).2 (by omega)
    · exact .rejected

section Call

variable (env : CallEnv) (sender recipient : Address) (amountWei : Nat) (frame : Frame)

@[simp] theorem call_calls :
    (frame.call env sender recipient amountWei).1.calls = frame.calls + 1 := by
  unfold call
  dsimp only
  split
  · rfl
  · split <;> rfl

@[simp] theorem call_logs :
    (frame.call env sender recipient amountWei).1.logs = frame.logs := by
  unfold call
  dsimp only
  split
  · rfl
  · split <;> rfl

theorem call_unmetered (unmetered : frame.gas = none) :
    (frame.call env sender recipient amountWei).1.gas = none := by
  unfold call
  dsimp only
  split
  · exact unmetered
  · split <;> simp [burnForwarded, unmetered]

end Call

/-- A property of the world kept by the payment itself and by user code is kept
by the whole CALL. -/
theorem PaymentEffect.preserves {Holds : World → Prop} {payer recipient : Address}
    {amountWei : Nat} {world next : World} {success : Bool}
    (effect : PaymentEffect payer recipient amountWei world success next)
    (holds : Holds world)
    (payment : recipient ∉ predeploys → amountWei ≤ world.balances payer →
      Holds { world with balances := world.balances.move payer recipient amountWei })
    (userCode : ∀ world next, Holds world → UserAction.Effect world next → Holds next) :
    Holds next := by
  cases effect with
  | rejected => exact holds
  | paid actions notPredeploy covered =>
      exact runUserCode_preserves Holds userCode actions (payment notPredeploy covered)

end Frame

/-! ## Results of a system call -/

inductive ExecutionResult
  | success (logs : List Event)
  | revert (reason : String)
  | halt
deriving DecidableEq

structure ResultAndState where
  result : ExecutionResult
  state : World

def ExecutionResult.isSuccess : ExecutionResult → Bool
  | .success _ => true
  | .revert _ => false
  | .halt => false

/-- The frame a system call starts in. -/
def Frame.start (env : CallEnv) (world : World) : Frame where
  world := world
  gas := env.gasLimit
  calls := 0
  logs := []

/-- Run a contract function as the protocol. A frame that reverts or halts
leaves the world as it was; only a fault of the host is an error. -/
def transactSystemCall (env : CallEnv) (body : Frame → Except CallFailure Frame)
    (world : World) : Except String ResultAndState :=
  match env.hostFault with
  | some message => .error message
  | none =>
      match body (.start env world) with
      | .ok frame => .ok { result := .success frame.logs, state := frame.world }
      | .error (.revert reason) => .ok { result := .revert reason, state := world }
      | .error .outOfGas => .ok { result := .halt, state := world }

theorem transactSystemCall_of_ok {env : CallEnv} {body : Frame → Except CallFailure Frame}
    {world : World} {frame : Frame} (noFault : env.hostFault = none)
    (ended : body (.start env world) = .ok frame) :
    transactSystemCall env body world =
      .ok { result := .success frame.logs, state := frame.world } := by
  simp only [transactSystemCall, noFault, ended]

theorem transactSystemCall_of_outOfGas {env : CallEnv}
    {body : Frame → Except CallFailure Frame} {world : World}
    (noFault : env.hostFault = none)
    (ended : body (.start env world) = .error .outOfGas) :
    transactSystemCall env body world = .ok { result := .halt, state := world } := by
  simp only [transactSystemCall, noFault, ended]

/-- A property kept by the body is kept by the call, however it ends. -/
theorem transactSystemCall_preserves (Holds : World → Prop) {env : CallEnv}
    {body : Frame → Except CallFailure Frame} {world : World} {called : ResultAndState}
    (bodyKeeps : Meets (body (.start env world)) (fun frame => Holds frame.world)
      fun _ => True)
    (holds : Holds world)
    (returned : transactSystemCall env body world = .ok called) : Holds called.state := by
  unfold transactSystemCall at returned
  split at returned
  · cases returned
  · cases ended : body (.start env world) with
    | ok frame =>
        rw [ended] at returned
        cases returned
        exact bodyKeeps.returns_of_eq_ok ended
    | error failure =>
        rw [ended] at returned
        cases failure <;> cases returned <;> exact holds

/-- A call that is sure not to fail succeeds with the state its body leaves. -/
theorem transactSystemCall_meets {Returns : Frame → Prop} {env : CallEnv}
    {body : Frame → Except CallFailure Frame} {world : World} {called : ResultAndState}
    (bodyMeets : Meets (body (.start env world)) Returns fun _ => False)
    (returned : transactSystemCall env body world = .ok called) :
    ∃ frame, Returns frame ∧ called.state = frame.world ∧
      called.result = .success frame.logs := by
  rcases bodyMeets.exists_ok (fun _ impossible => impossible) with ⟨frame, ended, holds⟩
  unfold transactSystemCall at returned
  split at returned
  · cases returned
  · rw [ended] at returned
    cases returned
    exact ⟨frame, holds, rfl, rfl⟩

/-- The frame of the call ends for lack of gas. -/
def RunsOutOfGas (env : CallEnv) (body : Frame → Except CallFailure Frame)
    (world : World) : Prop :=
  body (.start env world) = .error .outOfGas

/-- A body that fails only for lack of gas succeeds exactly when it has enough. -/
theorem transactSystemCall_success_iff {Returns : Frame → Prop} {env : CallEnv}
    {body : Frame → Except CallFailure Frame} {world : World} {called : ResultAndState}
    (bodyMeets : Meets (body (.start env world)) Returns (· = .outOfGas))
    (returned : transactSystemCall env body world = .ok called) :
    called.result.isSuccess ↔ ¬ RunsOutOfGas env body world := by
  unfold transactSystemCall at returned
  unfold RunsOutOfGas
  split at returned
  · cases returned
  · cases ended : body (.start env world) with
    | ok frame =>
        rw [ended] at returned
        cases returned
        simp [ExecutionResult.isSuccess]
    | error failure =>
        rw [ended] at bodyMeets
        rw [show failure = .outOfGas from bodyMeets] at ended ⊢
        rw [ended] at returned
        cases returned
        simp [ExecutionResult.isSuccess]

/-- A successful call is one whose body returned. -/
theorem returned_of_success {env : CallEnv} {body : Frame → Except CallFailure Frame}
    {world : World} {called : ResultAndState}
    (returned : transactSystemCall env body world = .ok called)
    (success : called.result.isSuccess) :
    ∃ frame, body (.start env world) = .ok frame ∧ called.state = frame.world ∧
      called.result = .success frame.logs := by
  unfold transactSystemCall at returned
  split at returned
  · cases returned
  · split at returned
    · rename_i frame ended
      cases returned
      exact ⟨frame, ended, rfl, rfl⟩
    · cases returned
      simp [ExecutionResult.isSuccess] at success
    · cases returned
      simp [ExecutionResult.isSuccess] at success

end Beth
