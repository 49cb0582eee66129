import Beth.Properties.BundledOnce
import Beth.Properties.EscrowSolvency

/-! # The history of a request

What the contract records of a request stays what it was from the end of the
transaction that queued it, through any later calls, callbacks and reverts: the
request keeps what was asked for, takes its status from the lifecycle one step at a
time, and stays in the bundle it was once put in. -/

namespace Beth

open Foundation

namespace WithdrawalRequestQueue

/-! ## What may become of a request -/

/-- The later state of a request. -/
structure Request.Becomes (before after : Request) : Prop where
  sameWithdrawal : before.SameWithdrawal after
  advances : Relation.ReflTransGen Advances before.status after.status
  sameBundle : before.status ≠ .pending → after.bundleM6id = before.bundleM6id

namespace Request

theorem Becomes.refl (request : Request) : request.Becomes request where
  sameWithdrawal := .refl request
  advances := .refl
  sameBundle := fun _ => rfl

/-- A request does not become pending again. -/
theorem not_pending_of_advances {before after : Status}
    (advances : Relation.ReflTransGen Advances before after) (notPending : before ≠ .pending) :
    after ≠ .pending := by
  induction advances with
  | refl => exact notPending
  | tail _ step induction => cases step <;> simp_all

theorem Becomes.trans {first second third : Request} (left : first.Becomes second)
    (right : second.Becomes third) : first.Becomes third where
  sameWithdrawal := left.sameWithdrawal.trans right.sameWithdrawal
  advances := left.advances.trans right.advances
  sameBundle := fun notPending =>
    (right.sameBundle (not_pending_of_advances left.advances notPending)).trans
      (left.sameBundle notPending)

/-- A confirmed or refunded request stays as it is. -/
theorem Becomes.eq_of_settled {before after : Request} (becomes : before.Becomes after)
    (settled : before.status = .confirmed ∨ before.status = .refunded) : after = before := by
  have sameStatus : after.status = before.status := by
    have advances := becomes.advances
    generalize after.status = later at advances
    induction advances with
    | refl => rfl
    | tail _ step induction =>
        rw [induction] at step
        rcases settled with confirmed | refunded
        · rw [confirmed] at step ⊢
          cases step
          rfl
        · rw [refunded] at step ⊢
          cases step
          rfl
  have notPending : before.status ≠ .pending := by
    rcases settled with confirmed | refunded
    · rw [confirmed]
      decide
    · rw [refunded]
      decide
  have sameBundle := becomes.sameBundle notPending
  rcases becomes.sameWithdrawal with ⟨requester, value, fee, destination⟩
  cases before
  cases after
  simp_all

end Request

/-! ## Journals -/

/-- The journal of a later point: what was recorded is still there, in its place. -/
structure Journal.Later (before after : Journal) : Prop where
  requests : ∀ index, index < before.world.queue.requestCount →
    index < after.world.queue.requestCount ∧
      (before.world.queue.requests index).Becomes (after.world.queue.requests index)
  msgValues : before.msgValues <+: after.msgValues
  refunds : before.refunds <+: after.refunds

namespace Journal.Later

theorem refl (journal : Journal) : journal.Later journal where
  requests := fun _ queued => ⟨queued, .refl _⟩
  msgValues := List.prefix_rfl
  refunds := List.prefix_rfl

theorem trans {first second third : Journal} (left : first.Later second)
    (right : second.Later third) : first.Later third where
  requests := fun index queued => by
    have middle := left.requests index queued
    have last := right.requests index middle.1
    exact ⟨last.1, middle.2.trans last.2⟩
  msgValues := left.msgValues.trans right.msgValues
  refunds := left.refunds.trans right.refunds

variable {keccak256 : Bytes → B256} {journal : Journal}

theorem withBalances (balances : Ledger Address) : journal.Later (journal.withBalances balances) :=
  ⟨(refl journal).requests, List.prefix_rfl, List.prefix_rfl⟩

/-- A change of one request along its lifecycle. -/
theorem assign (index : Nat) {change : Request → Request} (fields : List Field)
    (becomes : (journal.world.queue.requests index).Becomes
      (change (journal.world.queue.requests index))) :
    journal.Later (journal.assign keccak256 index change fields) where
  requests := fun other queued => by
    refine ⟨queued, ?_⟩
    change Request.Becomes _ ((journal.world.queue.setRequest index _).requests other)
    by_cases here : other = index
    · subst here
      rw [Storage.setRequest_same]
      exact becomes
    · rw [Storage.setRequest_of_ne _ _ here]
      exact .refl _
  msgValues := List.prefix_rfl
  refunds := List.prefix_rfl

theorem request {sender : Address} {msgValue mainFeeSats : Nat} {btcDestination : Bytes}
    {next : Journal}
    (returned : journal.requestWithdrawal keccak256 sender msgValue btcDestination
      mainFeeSats = .ok next) : journal.Later next := by
  rcases Journal.requestWithdrawal_ok returned with ⟨request, _, _, _, _, _, isNext⟩
  subst isNext
  constructor
  · intro index queued
    change index < journal.world.queue.requestCount + 1 ∧ Request.Becomes _
      ((journal.world.queue.setRequest journal.world.queue.requestCount request).requests index)
    rw [Storage.setRequest_of_ne _ _ queued.ne]
    exact ⟨queued.trans (Nat.lt_succ_self _), .refl _⟩
  · exact List.prefix_append _ _
  · exact List.prefix_rfl

theorem bundle {index : Nat} (newM6id : B256)
    (pending : (journal.world.queue.requests index).status = .pending) :
    journal.Later
      (journal.assign keccak256 index (Request.bundle newM6id) [.status, .bundleM6id]) := by
  apply assign index
  constructor
  · exact Request.sameWithdrawal_bundle _ newM6id
  · rw [pending]
    exact .single .bundle
  · exact fun notPending => absurd pending notPending

theorem confirm {index : Nat}
    (bundled : (journal.world.queue.requests index).status = .bundled) :
    journal.Later (journal.assign keccak256 index Request.confirm [.status]) := by
  apply assign index
  constructor
  · exact Request.sameWithdrawal_confirm _
  · rw [bundled]
    exact .single .confirm
  · exact fun _ => rfl

theorem markRefunded {index : Nat}
    (bundled : (journal.world.queue.requests index).status = .bundled) :
    journal.Later (journal.markRefunded keccak256 index) := by
  have marked : journal.Later (journal.assign keccak256 index Request.refund [.status]) := by
    apply assign index
    constructor
    · exact Request.sameWithdrawal_refund _
    · rw [bundled]
      exact .single .refund
    · exact fun _ => rfl
  exact ⟨marked.requests, List.prefix_rfl, List.prefix_append _ _⟩

theorem effect {next : Journal} (effect : journal.Effect keccak256 next) :
    journal.Later next := by
  cases effect with
  | none => exact refl journal
  | credit => exact withBalances _
  | spend => exact withBalances _
  | transfer => exact withBalances _
  | request _ returned => exact request returned
  | bundle newM6id pending => exact bundle newM6id pending
  | confirm bundled => exact confirm bundled
  | refund bundled => exact markRefunded bundled
  | refundPaid bundled _ _ => exact (markRefunded bundled).trans (withBalances _)

end Journal.Later

/-! ## Runs -/

/-- From a point between transactions on, whatever is called, re-entered or reverted:
every queued request keeps what was asked for and where it is, its status advances along
the lifecycle, a bundled one keeps its m6id and a settled one stays as it is, also while a
later call is under way. -/
theorem requests_keep_history (keccak256 : Bytes → B256) (start final : MachineState)
    (history : List Action) (betweenTransactions : start.stack = [])
    (run : Run (MachineState.Steps keccak256) start history final) :
    start.journal.Later final.journal ∧
      ∀ index, index < start.journal.world.queue.requestCount →
        (start.journal.world.queue.requests index).status = .confirmed ∨
          (start.journal.world.queue.requests index).status = .refunded →
        final.journal.world.queue.requests index =
          start.journal.world.queue.requests index := by
  have later := (MachineState.holds_of_run start.journal.Later
    (fun _ _ before effect => before.trans (.effect effect)) betweenTransactions
    (.refl start.journal) run).1
  refine ⟨later, ?_⟩
  intro index queued settled
  exact (later.requests index queued).2.eq_of_settled settled

theorem requests_keep_history_reentered :
    ∃ start final : MachineState,
      Run (MachineState.Steps fun _ => .replicate 32 0) start (reenteringHistory.drop 5) final ∧
      (start.journal.world.queue.requestCount = 2 ∧
        (final.journal.world.queue.requests 0).status = .refunded) ∧
      start.journal.Later final.journal := by
  have queued :
      (MachineState.stepAll (fun _ => .replicate 32 0) (.initial fun _ => 0)
          (reenteringHistory.take 5)).map
        (fun state => (state.stack.isEmpty, state.journal.world.queue.requestCount)) =
      some (true, 2) := by
    decide +kernel
  have settled :
      (MachineState.stepAll (fun _ => .replicate 32 0) (.initial fun _ => 0)
          (reenteringHistory.take 5 ++ reenteringHistory.drop 5)).map
        (fun state => (state.journal.world.queue.requests 0).status) = some .refunded := by
    decide +kernel
  rcases Option.map_eq_some_iff.mp queued with ⟨start, started, atStart⟩
  rcases Option.map_eq_some_iff.mp settled with ⟨final, ended, atEnd⟩
  rw [MachineState.stepAll, List.foldlM_append] at ended
  rcases Option.bind_eq_some_iff.mp ended with ⟨middle, first, taken⟩
  cases first.symm.trans started
  have run := MachineState.run_of_stepAll _ taken
  have betweenTransactions : start.stack = [] :=
    List.isEmpty_iff.mp (congrArg Prod.fst atStart)
  exact ⟨start, final, run, ⟨congrArg Prod.snd atStart, atEnd⟩,
    (requests_keep_history _ start final _ betweenTransactions run).1⟩

end WithdrawalRequestQueue

end Beth
