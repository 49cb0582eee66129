import Beth.Contracts.World

/-! # `WithdrawalRequestQueue.requestWithdrawal` and the code users run

Everything user code can do to balances and to the queue, whether it runs in a
transaction of a block or inside a CALL that a system function makes. Calls
that revert leave no trace, so user code is the list of its lasting effects. -/

namespace Beth

open Foundation WithdrawalRequestQueue

namespace WithdrawalRequestQueue

/-- `requestWithdrawal`, called by `sender` with `msgValue` wei attached. The
attached value moves before the body runs; a caller that does not have it
cannot make the call. -/
def requestWithdrawal (sender : Address) (msgValue : Nat) (btcDestination : Bytes)
    (mainFeeSats : Nat) (world : World) : Except CallFailure World :=
  let totalSats := msgValue / weiPerSat
  if world.balances sender < msgValue then
    .error (.revert "insufficient balance")
  else if ¬ 0 < msgValue then
    .error (.revert "WithdrawalRequestQueue: zero amount")
  else if msgValue % weiPerSat ≠ 0 then
    .error (.revert "WithdrawalRequestQueue: not a whole number of satoshis")
  else if feeBelowTotal : ¬ mainFeeSats < totalSats then
    .error (.revert "WithdrawalRequestQueue: fee exceeds withdrawal value")
  else if totalFits : ¬ totalSats < 2 ^ 64 then
    .error (.revert "WithdrawalRequestQueue: amount too large")
  else if ¬ world.queue.requestCount + 1 < 2 ^ 256 then
    .error arithmeticPanic
  else
    let request : Request :=
      { requester := sender
        valueSats := totalSats - mainFeeSats
        mainFeeSats := mainFeeSats
        btcDestination := btcDestination
        status := .pending
        bundleM6id := .replicate 32 0
        fits := by omega }
    .ok
      { balances := world.balances.move sender withdrawalRequestQueueAddress msgValue
        queue :=
          { world.queue.setRequest world.queue.requestCount request with
            requestCount := world.queue.requestCount + 1 } }

/-- A successful `requestWithdrawal` moves exactly what the new request locks
and appends that request, pending, at the next index. -/
theorem requestWithdrawal_ok {sender : Address} {msgValue mainFeeSats : Nat}
    {btcDestination : Bytes} {world next : World}
    (returned : requestWithdrawal sender msgValue btcDestination mainFeeSats world =
      .ok next) :
    ∃ request : Request,
      request.status = .pending ∧
      request.requester = sender ∧
      request.mainFeeSats = mainFeeSats ∧
      request.btcDestination = btcDestination ∧
      0 < request.valueSats ∧
      request.lockedWei = msgValue ∧
      msgValue ≤ world.balances sender ∧
      next.balances =
        world.balances.move sender withdrawalRequestQueueAddress msgValue ∧
      next.queue.requestCount = world.queue.requestCount + 1 ∧
      next.queue.requests =
        Function.update world.queue.requests world.queue.requestCount request := by
  unfold requestWithdrawal at returned
  simp only at returned
  split at returned
  · cases returned
  · rename_i covered
    split at returned
    · cases returned
    · split at returned
      · cases returned
      · rename_i wholeSats
        split at returned
        · cases returned
        · rename_i feeBelowTotal
          split at returned
          · cases returned
          · split at returned
            · cases returned
            · cases returned
              refine ⟨_, rfl, rfl, rfl, rfl, ?_, ?_, by omega, rfl, rfl, rfl⟩
              · dsimp only
                omega
              · have recombined := Nat.div_add_mod msgValue weiPerSat
                simp only [Request.lockedWei, Request.lockedSats]
                rw [Nat.sub_add_cancel (by omega), Nat.mul_comm]
                omega

end WithdrawalRequestQueue

/-! ## User code -/

/-- A lasting effect of user code. Ether sent by user code to a predeploy is
ether forced into it (a self-destruct, a fee recipient). -/
inductive UserAction
  | transfer (sender recipient : Address) (amountWei : Nat)
  | burn (owner : Address) (amountWei : Nat)
  | requestWithdrawal (sender : Address) (msgValue : Nat) (btcDestination : Bytes)
      (mainFeeSats : Nat)
deriving DecidableEq

namespace UserAction

/-- The account whose ether the action spends. -/
def spender : UserAction → Address
  | .transfer sender _ _ => sender
  | .burn owner _ => owner
  | .requestWithdrawal sender _ _ _ => sender

/-- An action that cannot be carried out leaves the world unchanged. The
predeploys never run user code. -/
def apply (action : UserAction) (world : World) : World :=
  if action.spender ∈ predeploys then world else
    match action with
    | .transfer sender recipient amountWei =>
        if amountWei ≤ world.balances sender then
          { world with balances := world.balances.move sender recipient amountWei }
        else world
    | .burn owner amountWei =>
        if amountWei ≤ world.balances owner then
          { world with balances := world.balances.debit owner amountWei }
        else world
    | .requestWithdrawal sender msgValue btcDestination mainFeeSats =>
        match WithdrawalRequestQueue.requestWithdrawal sender msgValue btcDestination
            mainFeeSats world with
        | .ok next => next
        | .error _ => world

/-- Everything one action can do, guards included. -/
inductive Effect (world : World) : World → Prop
  | none : Effect world world
  | transfer {sender recipient amountWei} :
      sender ∉ predeploys → amountWei ≤ world.balances sender →
      Effect world
        { world with balances := world.balances.move sender recipient amountWei }
  | burn {owner amountWei} :
      owner ∉ predeploys → amountWei ≤ world.balances owner →
      Effect world { world with balances := world.balances.debit owner amountWei }
  | request {sender} (request : Request) :
      sender ∉ predeploys →
      request.lockedWei ≤ world.balances sender →
      request.status = .pending →
      0 < request.valueSats →
      Effect world
        { balances := world.balances.move sender withdrawalRequestQueueAddress
            request.lockedWei
          queue :=
            { requestCount := world.queue.requestCount + 1
              requests := Function.update world.queue.requests
                world.queue.requestCount request } }

theorem apply_effect (action : UserAction) (world : World) :
    Effect world (action.apply world) := by
  unfold apply
  split
  · exact .none
  · rename_i userSpends
    cases action with
    | transfer sender recipient amountWei =>
        dsimp only
        split
        · exact .transfer userSpends ‹_›
        · exact .none
    | burn owner amountWei =>
        dsimp only
        split
        · exact .burn userSpends ‹_›
        · exact .none
    | requestWithdrawal sender msgValue btcDestination mainFeeSats =>
        dsimp only
        split
        · rename_i next returned
          rcases requestWithdrawal_ok returned with
            ⟨request, pending, _, _, _, positive, locked, covered, balancesEq,
              countEq, requestsEq⟩
          have nextEq : next =
              { balances := world.balances.move sender withdrawalRequestQueueAddress
                  request.lockedWei
                queue :=
                  { requestCount := world.queue.requestCount + 1
                    requests := Function.update world.queue.requests
                      world.queue.requestCount request } } := by
            cases next
            rename_i queue
            cases queue
            subst locked
            simp_all
          rw [nextEq]
          exact .request request userSpends (locked ▸ covered) pending positive
        · exact .none

end UserAction

/-- User code run from start to end. -/
def runUserCode (actions : List UserAction) (world : World) : World :=
  actions.foldl (fun world action => action.apply world) world

@[simp] theorem runUserCode_nil (world : World) : runUserCode [] world = world := rfl

theorem runUserCode_append (earlier later : List UserAction) (world : World) :
    runUserCode (earlier ++ later) world = runUserCode later (runUserCode earlier world) :=
  List.foldl_append

/-- What every single effect preserves, user code preserves. -/
theorem runUserCode_preserves (Holds : World → Prop)
    (preserved : ∀ world next, Holds world → UserAction.Effect world next → Holds next)
    (actions : List UserAction) {world : World} (holds : Holds world) :
    Holds (runUserCode actions world) := by
  induction actions generalizing world with
  | nil => exact holds
  | cons action rest induction =>
      exact induction (preserved world _ holds (action.apply_effect world))

end Beth
