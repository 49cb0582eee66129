import Beth.Foundation.Bytes
import Beth.Foundation.Ledger
import Beth.Foundation.Outcome

/-! # Accounts, contract storage and the world state

The part of the EVM state the two predeployed contracts read and write: every
account's balance in wei and the storage of `WithdrawalRequestQueue`.
`DepositVault` has no storage of its own. -/

namespace Beth

open Foundation

abbrev Address := FixedBytes 20

abbrev B256 := FixedBytes 32

def addressOfNat (value : Nat) : Address := ⟨toBeBytes 20 value, length_toBeBytes 20 value⟩

/-- The sender of every protocol-level system call. -/
def systemAddress : Address := addressOfNat 0xfffffffffffffffffffffffffffffffffffffffe

def depositVaultAddress : Address := addressOfNat 0xd300

def withdrawalRequestQueueAddress : Address := addressOfNat 0xB300

/-- wei per satoshi, the same constant in both contracts. Unification never has to
look at its value. -/
@[irreducible] def weiPerSat : Nat := 10 ^ 10

/-- The two predeployed contracts. Neither has a receive or fallback function,
and both send ether only from the loops of their system functions. -/
def predeploys : Finset Address := {depositVaultAddress, withdrawalRequestQueueAddress}

theorem queue_ne_vault : withdrawalRequestQueueAddress ≠ depositVaultAddress := by
  decide

@[simp] theorem vault_mem_predeploys : depositVaultAddress ∈ predeploys := by
  simp [predeploys]

@[simp] theorem queue_mem_predeploys : withdrawalRequestQueueAddress ∈ predeploys := by
  simp [predeploys]

/-! ## Failing frames -/

/-- How a contract's own frame ends without success: a `require`, a checked
arithmetic panic, or running out of gas. -/
inductive CallFailure
  | revert (reason : String)
  | outOfGas
deriving DecidableEq

def require (condition : Prop) [Decidable condition] (reason : String) :
    Except CallFailure Unit :=
  if condition then .ok () else .error (.revert reason)

def arithmeticPanic : CallFailure := .revert "Panic(0x11)"

/-- Solidity's checked `uint256` multiplication. -/
def checkedMul (left right : Nat) : Except CallFailure Nat :=
  if left * right < 2 ^ 256 then .ok (left * right) else .error arithmeticPanic

/-- Solidity's checked `uint256` addition. -/
def checkedAdd (left right : Nat) : Except CallFailure Nat :=
  if left + right < 2 ^ 256 then .ok (left + right) else .error arithmeticPanic

@[simp] theorem require_of_holds {condition : Prop} [Decidable condition]
    (reason : String) (holds : condition) : require condition reason = .ok () := by
  simp [require, holds]

theorem require_of_not {condition : Prop} [Decidable condition]
    (reason : String) (fails : ¬ condition) :
    require condition reason = .error (.revert reason) := by
  simp [require, fails]

/-! ## The queue's storage -/

namespace WithdrawalRequestQueue

/-- The `STATUS_*` constants. -/
inductive Status
  | pending
  | bundled
  | confirmed
  | refunded
deriving DecidableEq

/-- One entry of the `requests` mapping. Every request ever queued passed the
64-bit check of `requestWithdrawal`, and an unwritten slot is all zero, so the
bound is carried by the value. -/
structure Request where
  requester : Address
  valueSats : Nat
  mainFeeSats : Nat
  btcDestination : Bytes
  status : Status
  bundleM6id : B256
  fits : valueSats + mainFeeSats < 2 ^ 64
deriving DecidableEq

/-- An unwritten mapping slot. -/
def Request.unwritten : Request where
  requester := addressOfNat 0
  valueSats := 0
  mainFeeSats := 0
  btcDestination := []
  status := .pending
  bundleM6id := .replicate 32 0
  fits := by decide

/-- What a request locks in the contract, in satoshis. -/
def Request.lockedSats (request : Request) : Nat :=
  request.valueSats + request.mainFeeSats

/-- What a request locks in the contract, in wei. -/
def Request.lockedWei (request : Request) : Nat := request.lockedSats * weiPerSat

/-- Two entries that record the same withdrawal, whatever its lifecycle. -/
def Request.SameWithdrawal (left right : Request) : Prop :=
  left.requester = right.requester ∧ left.valueSats = right.valueSats ∧
    left.mainFeeSats = right.mainFeeSats ∧ left.btcDestination = right.btcDestination

structure Storage where
  requestCount : Nat
  requests : Nat → Request

def Storage.initial : Storage where
  requestCount := 0
  requests := fun _ => .unwritten

def Storage.setRequest (storage : Storage) (index : Nat) (request : Request) :
    Storage :=
  { storage with requests := Function.update storage.requests index request }

namespace Storage

variable (storage : Storage) (index other : Nat) (request : Request)

@[simp] theorem setRequest_requestCount :
    (storage.setRequest index request).requestCount = storage.requestCount := rfl

@[simp] theorem setRequest_same :
    (storage.setRequest index request).requests index = request := by
  simp [setRequest]

@[simp] theorem setRequest_of_ne {index other : Nat} (different : other ≠ index) :
    (storage.setRequest index request).requests other = storage.requests other := by
  simp [setRequest, different]

end Storage

theorem Request.SameWithdrawal.refl (request : Request) : request.SameWithdrawal request :=
  ⟨rfl, rfl, rfl, rfl⟩

theorem Request.SameWithdrawal.trans {first second third : Request}
    (left : first.SameWithdrawal second) (right : second.SameWithdrawal third) :
    first.SameWithdrawal third :=
  ⟨left.1.trans right.1, left.2.1.trans right.2.1, left.2.2.1.trans right.2.2.1,
    left.2.2.2.trans right.2.2.2⟩

end WithdrawalRequestQueue

/-! ## The world -/

structure World where
  balances : Ledger Address
  queue : WithdrawalRequestQueue.Storage

/-- Genesis: `DepositVault` holds the whole supply and nothing is queued. -/
@[irreducible] def supplyCapWei : Nat := 21000000 * 10 ^ 18

def World.genesis : World where
  balances := Ledger.credit (fun _ => 0) depositVaultAddress supplyCapWei
  queue := .initial

end Beth
