import Mathlib

/-! # Account balances

A ledger assigns an amount to each of finitely many accounts. `held accounts`
is the amount a set of accounts holds together; the lemmas say how each
elementary movement changes it, so that conservation and bounds over any set
of accounts follow without unfolding a movement. -/

namespace Foundation

open Finset

abbrev Ledger (Account : Type u) := Account → Nat

namespace Ledger

variable {Account : Type u} [DecidableEq Account]

def credit (ledger : Ledger Account) (account : Account) (amount : Nat) :
    Ledger Account :=
  Function.update ledger account (ledger account + amount)

def debit (ledger : Ledger Account) (account : Account) (amount : Nat) :
    Ledger Account :=
  Function.update ledger account (ledger account - amount)

/-- Move an amount between two accounts, which may be the same account. The
sender is expected to hold the amount. -/
def move (ledger : Ledger Account) (sender recipient : Account) (amount : Nat) :
    Ledger Account :=
  (ledger.debit sender amount).credit recipient amount

/-- The amount a set of accounts holds together. -/
def held (accounts : Finset Account) (ledger : Ledger Account) : Nat :=
  ∑ account ∈ accounts, ledger account

/-! ## Single accounts -/

theorem credit_apply (ledger : Ledger Account) (account other : Account)
    (amount : Nat) :
    ledger.credit account amount other =
      ledger other + if other = account then amount else 0 := by
  by_cases same : other = account
  · subst same
    simp [credit]
  · simp [credit, same]

theorem debit_apply (ledger : Ledger Account) (account other : Account)
    (amount : Nat) :
    ledger.debit account amount other =
      ledger other - if other = account then amount else 0 := by
  by_cases same : other = account
  · subst same
    simp [debit]
  · simp [debit, same]

theorem le_move_of_ne_sender (ledger : Ledger Account)
    {sender recipient account : Account} (amount : Nat)
    (different : account ≠ sender) :
    ledger account ≤ ledger.move sender recipient amount account := by
  rw [move, credit_apply, debit_apply, if_neg different]
  omega

theorem move_zero (ledger : Ledger Account) (sender recipient : Account) :
    ledger.move sender recipient 0 = ledger := by
  funext account
  rw [move, credit_apply, debit_apply, ite_self, ite_self, Nat.add_zero, Nat.sub_zero]

/-! ## Sets of accounts -/

section Held

variable (accounts : Finset Account) (ledger : Ledger Account)

omit [DecidableEq Account] in
theorem le_held {account : Account} (member : account ∈ accounts) :
    ledger account ≤ held accounts ledger :=
  Finset.single_le_sum (f := ledger) (fun _ _ => Nat.zero_le _) member

theorem held_credit (account : Account) (amount : Nat) :
    held accounts (ledger.credit account amount) =
      held accounts ledger + if account ∈ accounts then amount else 0 := by
  simp [held, credit_apply, Finset.sum_add_distrib, Finset.sum_ite_eq']

theorem held_debit_of_not_mem {account : Account} (amount : Nat)
    (outside : account ∉ accounts) :
    held accounts (ledger.debit account amount) = held accounts ledger := by
  apply Finset.sum_congr rfl
  intro other member
  have different : other ≠ account := fun equal => outside (equal ▸ member)
  simp [debit_apply, different]

theorem held_debit_of_mem {account : Account} {amount : Nat}
    (member : account ∈ accounts) (covered : amount ≤ ledger account) :
    held accounts (ledger.debit account amount) + amount =
      held accounts ledger := by
  unfold held
  rw [← Finset.add_sum_erase accounts ledger member,
    ← Finset.add_sum_erase accounts (ledger.debit account amount) member]
  have others : ∑ other ∈ accounts.erase account, ledger.debit account amount other =
      ∑ other ∈ accounts.erase account, ledger other := by
    apply Finset.sum_congr rfl
    intro other inErase
    simp [debit_apply, Finset.ne_of_mem_erase inErase]
  rw [others, debit_apply, if_pos rfl]
  omega

theorem held_debit_le (account : Account) (amount : Nat) :
    held accounts (ledger.debit account amount) ≤ held accounts ledger := by
  apply Finset.sum_le_sum
  intro other _
  rw [debit_apply]
  exact Nat.sub_le _ _

/-- A movement inside the set changes nothing. -/
theorem held_move_of_mem_of_mem {sender recipient : Account} {amount : Nat}
    (senderMem : sender ∈ accounts) (recipientMem : recipient ∈ accounts)
    (covered : amount ≤ ledger sender) :
    held accounts (ledger.move sender recipient amount) = held accounts ledger := by
  rw [move, held_credit, if_pos recipientMem]
  exact held_debit_of_mem accounts ledger senderMem covered

/-- A movement out of the set takes exactly its amount. -/
theorem held_move_of_mem_of_not_mem {sender recipient : Account} {amount : Nat}
    (senderMem : sender ∈ accounts) (recipientOut : recipient ∉ accounts)
    (covered : amount ≤ ledger sender) :
    held accounts (ledger.move sender recipient amount) + amount =
      held accounts ledger := by
  rw [move, held_credit, if_neg recipientOut, Nat.add_zero]
  exact held_debit_of_mem accounts ledger senderMem covered

/-- A movement from outside the set adds at most its amount. -/
theorem held_move_of_sender_not_mem {sender recipient : Account} {amount : Nat}
    (senderOut : sender ∉ accounts) :
    held accounts (ledger.move sender recipient amount) =
      held accounts ledger + if recipient ∈ accounts then amount else 0 := by
  rw [move, held_credit, held_debit_of_not_mem accounts ledger amount senderOut]

/-- A covered movement from inside the set never increases what it holds. -/
theorem held_move_le_of_sender_mem {sender recipient : Account} {amount : Nat}
    (senderMem : sender ∈ accounts) (covered : amount ≤ ledger sender) :
    held accounts (ledger.move sender recipient amount) ≤ held accounts ledger := by
  by_cases recipientMem : recipient ∈ accounts
  · exact (held_move_of_mem_of_mem accounts ledger senderMem recipientMem covered).le
  · have taken := held_move_of_mem_of_not_mem accounts ledger senderMem recipientMem covered
    omega

end Held

/-! ## All accounts -/

/-- The amount held by all accounts together. -/
def total [Fintype Account] (ledger : Ledger Account) : Nat :=
  held Finset.univ ledger

section Total

variable [Fintype Account] (ledger : Ledger Account)

omit [DecidableEq Account] in
theorem held_le_total (accounts : Finset Account) :
    held accounts ledger ≤ total ledger :=
  Finset.sum_le_sum_of_subset (Finset.subset_univ accounts)

theorem total_credit (account : Account) (amount : Nat) :
    total (ledger.credit account amount) = total ledger + amount := by
  simp [total, held_credit]

theorem total_debit_le (account : Account) (amount : Nat) :
    total (ledger.debit account amount) ≤ total ledger :=
  held_debit_le _ _ account amount

theorem total_move {sender : Account} (recipient : Account) {amount : Nat}
    (covered : amount ≤ ledger sender) :
    total (ledger.move sender recipient amount) = total ledger :=
  held_move_of_mem_of_mem _ _ (Finset.mem_univ _) (Finset.mem_univ _) covered

omit [Fintype Account] in
/-- A single funded account holds everything. -/
theorem held_credit_zero (accounts : Finset Account) (account : Account)
    (amount : Nat) :
    held accounts (credit (fun _ => 0) account amount) =
      if account ∈ accounts then amount else 0 := by
  rw [held_credit]
  simp [held]

end Total

end Ledger

end Foundation
