import Beth.Chain
import Beth.Node.Mainchain

/-! # Deposits with malformed addresses

The destination of a deposit is free text. A range all of whose destinations
are addresses is read in full; a single other destination fails the query, and
with it the block. -/

namespace Beth

open Foundation EnforcerClient

/-- The value and the address text of a deposit whose fields are all present. -/
def DepositEvent.fields (deposit : DepositEvent) : Option (UInt64 × String) := do
  let output ← deposit.output
  let valueSats ← output.valueSats
  let address ← output.address
  let hex ← address.hex
  pure (valueSats, hex)

def BlockEvent.deposit (event : BlockEvent) : Option DepositEvent :=
  match event.event with
  | some (.deposit deposit) => some deposit
  | _ => none

/-- Every deposit event has its fields; what they contain is left open. -/
def FieldsPresent (events : List BlockEvent) : Prop :=
  ∀ event ∈ events, ∀ deposit ∈ event.deposit, deposit.fields.isSome

/-- Every deposit event names an address. -/
def AddressesParse (events : List BlockEvent) : Prop :=
  ∀ event ∈ events, ∀ deposit ∈ event.deposit, ∀ fields ∈ deposit.fields,
    (parseDepositAddress fields.2).isOk

instance (events : List BlockEvent) : Decidable (FieldsPresent events) := by
  unfold FieldsPresent
  infer_instance

instance (events : List BlockEvent) : Decidable (AddressesParse events) := by
  unfold AddressesParse
  infer_instance

/-- The deposit of an event whose address parses. -/
def BlockEvent.wellFormedDeposit (event : BlockEvent) : Option Deposit := do
  let deposit ← event.deposit
  let fields ← deposit.fields
  match parseDepositAddress fields.2 with
  | .ok address => some { address := address, valueSats := fields.1 }
  | .error _ => none

/-- The deposits of the blocks whose address parses, in order. -/
def wellFormedDeposits (blocks : List PegDataBlock) : List Deposit :=
  (blocks.flatMap PegDataBlock.events).filterMap BlockEvent.wellFormedDeposit

/-! ## Reading the events -/

theorem pushDeposit_of_not_deposit {event : BlockEvent} (other : event.deposit = none) :
    pushDeposit [] event = .ok [] := by
  rcases event with ⟨event⟩
  cases event with
  | none => rfl
  | some event =>
      cases event with
      | deposit deposit => cases other
      | withdrawalBundle bundle => rfl

/-- A deposit with its fields present is read iff its address parses. -/
theorem pushDeposit_of_fields {event : BlockEvent} {deposit : DepositEvent}
    {valueSats : UInt64} {hex : String} (isDeposit : event.deposit = some deposit)
    (present : deposit.fields = some (valueSats, hex)) :
    pushDeposit [] event =
      (fun address => [{ address := address, valueSats := valueSats }]) <$>
        parseDepositAddress hex := by
  have eventEq : event.event = some (.deposit deposit) := by
    unfold BlockEvent.deposit at isDeposit
    split at isDeposit
    · rename_i eventEq
      rw [eventEq, Option.some.inj isDeposit]
    · cases isDeposit
  simp only [DepositEvent.fields, Option.bind_eq_bind, Option.bind_eq_some_iff,
    Option.pure_def, Option.some.injEq, Prod.mk.injEq] at present
  rcases present with
    ⟨output, outputEq, value, valueEq, address, addressEq, text, textEq, sameValue, sameText⟩
  subst sameValue
  subst sameText
  simp only [pushDeposit, eventEq, outputEq, valueEq, addressEq, textEq, okOr,
    Option.bind_some, ok_bind, List.nil_append]
  cases parseDepositAddress text <;> rfl

theorem addressesParse_cons {event : BlockEvent} {rest : List BlockEvent} :
    AddressesParse (event :: rest) ↔
      (∀ deposit ∈ event.deposit, ∀ fields ∈ deposit.fields,
        (parseDepositAddress fields.2).isOk) ∧ AddressesParse rest := by
  simp [AddressesParse]

/-- A range is read iff all of its addresses parse, and then it yields its
well-formed deposits. -/
theorem mapM_pushDeposit {events : List BlockEvent} (present : FieldsPresent events) :
    Meets (events.mapM (pushDeposit []))
      (fun read => AddressesParse events ∧
        read.flatten = events.filterMap BlockEvent.wellFormedDeposit)
      (fun _ => ¬ AddressesParse events) := by
  induction events with
  | nil => exact ⟨by simp [AddressesParse], rfl⟩
  | cons event rest induction =>
      have restMeets := induction fun other member => present other (by simp [member])
      rw [List.mapM_cons, addressesParse_cons]
      cases isDeposit : event.deposit with
      | none =>
          rw [pushDeposit_of_not_deposit isDeposit, ok_bind]
          refine Meets.bind (restMeets.mono (fun _ holds => holds)
            fun _ fails both => fails both.2) ?_
          intro read restRead
          refine ⟨⟨by simp, restRead.1⟩, ?_⟩
          simp [BlockEvent.wellFormedDeposit, isDeposit, restRead.2]
      | some deposit =>
          have hasFields := present event (by simp) deposit (by simp [isDeposit])
          rcases Option.isSome_iff_exists.mp hasFields with ⟨⟨valueSats, hex⟩, fieldsEq⟩
          rw [pushDeposit_of_fields isDeposit fieldsEq]
          cases parsed : parseDepositAddress hex with
          | error failure =>
              intro both
              have isOk := both.1 deposit rfl _ fieldsEq
              simp [parsed, Except.isOk, Except.toBool] at isOk
          | ok address =>
              simp only [Except.map_ok, ok_bind]
              refine Meets.bind (restMeets.mono (fun _ holds => holds)
                fun _ fails both => fails both.2) ?_
              intro read restRead
              refine ⟨⟨?_, restRead.1⟩, ?_⟩
              · intro other otherMem fields fieldsMem
                cases otherMem
                rw [fieldsEq] at fieldsMem
                cases fieldsMem
                simp [parsed, Except.isOk, Except.toBool]
              · simp [BlockEvent.wellFormedDeposit, isDeposit, fieldsEq, parsed,
                  restRead.2]

/-! ## Failures of the executor -/

/-- A failure that is not about the address of a deposit. -/
def NotAddressFailure (failure : BlockExecutionError) : Prop :=
  ∀ text, failure ≠ .enforcer (.invalidDepositAddress text)

theorem withdrawalBundleEvents_meets (enforcer : Enforcer) (sidechainId : UInt32)
    (start : Option B256) (stop : B256) :
    Meets (withdrawalBundleEvents enforcer sidechainId start stop) (fun _ => True)
      (fun failure => ∀ text, failure ≠ .invalidDepositAddress text) := by
  have okOrMeets : ∀ {α : Type} (value : Option α) (failure : EnforcerError),
      (∀ text, failure ≠ .invalidDepositAddress text) →
      Meets (okOr value failure) (fun _ => True)
        (fun failure => ∀ text, failure ≠ .invalidDepositAddress text) := by
    intro α value failure other
    cases value with
    | none => exact other
    | some found => trivial
  have pushMeets : ∀ outcomes event, Meets (pushOutcome outcomes event) (fun _ => True)
      (fun failure => ∀ text, failure ≠ .invalidDepositAddress text) := by
    intro outcomes event
    unfold pushOutcome
    split
    · refine (okOrMeets _ _ (by simp)).bind fun m6idHex _ => ?_
      unfold parseTxidConsensus
      refine Meets.bind_any ?_ fun m6id => ?_
      · exact (okOrMeets _ _ (by simp)).bind fun bytes _ => okOrMeets _ _ (by simp)
      · split <;> trivial
    · trivial
  unfold withdrawalBundleEvents ofRpc
  split
  · rename_i response _
    rw [ok_bind, collectEvents]
    apply Meets.foldlM_const (fun _ => True) _ _ trivial
    intro outcomes block _ _
    split
    · trivial
    · exact Meets.foldlM_const (fun _ => True)
        (fun collected event _ _ => pushMeets collected event) _ trivial
  · simp

/-- Once the deposits of its range are read, a block applies exactly these and
never fails on an address. -/
theorem applyPreExecutionChanges_of_deposits (hashes : Hashes) (order : HashMapOrder)
    (executor : Bip300301BlockExecutor) (world : World) {parentHeader : Header}
    {mainHash : B256} {deposits : List Deposit}
    (numbered : clampU64 executor.blockNumber ≠ 0)
    (found : executor.provider.header executor.parentHash = .ok (some parentHeader))
    (hash : FixedBytes.tryFrom 32 executor.extraData = some mainHash)
    (read : EnforcerClient.deposits executor.enforcer executor.sidechainId
      (FixedBytes.tryFrom 32 parentHeader.extraData) mainHash = .ok deposits) :
    Meets (executor.applyPreExecutionChanges hashes order world)
      (fun done => done.deposits = deposits) NotAddressFailure := by
  unfold Bip300301BlockExecutor.applyPreExecutionChanges
  split
  · simp [NotAddressFailure]
  · dsimp only
    rw [if_neg numbered, found]
    simp only [orElseFail, ok_bind, hash, read]
    have callMeets : ∀ (env : CallEnv) (body : Frame → Except CallFailure Frame)
        (world : World), Meets (orElseFail (transactSystemCall env body world)
          BlockExecutionError.msg) (fun _ => True) NotAddressFailure := fun _ _ _ =>
      (orElseFail_meets _ (by simp [NotAddressFailure])).mono (fun _ _ => trivial)
        fun _ failed => failed
    refine Meets.bind_any ?_ fun credited => ?_
    · unfold creditDeposits
      split
      · trivial
      · exact (callMeets _ _ _).bind fun _ _ => trivial
    refine (orElseFail_meets BlockExecutionError.provider
      (by simp [NotAddressFailure])).bind fun state _ => ?_
    refine (orElseFail_meets BlockExecutionError.provider
      (by simp [NotAddressFailure])).bind fun queue _ => ?_
    refine (orElseFail_meets BlockExecutionError.enforcer ?_).bind
      fun outcomes _ => ?_
    · intro cause failed text isAddress
      have noAddress := (withdrawalBundleEvents_meets executor.enforcer executor.sidechainId
        (FixedBytes.tryFrom 32 parentHeader.extraData) mainHash).throws_of_eq_error failed
      exact noAddress text (BlockExecutionError.enforcer.inj isAddress)
    refine Meets.bind_any ?_ fun reported => rfl
    unfold reportLifecycle
    split
    · trivial
    · exact (callMeets _ _ _).bind fun _ _ => trivial

/-! ## The property and its condition -/

/-- An executor whose range is answered by these blocks. -/
structure ReadsRange (executor : Bip300301BlockExecutor) (enforcer : Enforcer)
    (sidechainId : UInt32) (start : Option B256) (stop : B256) : Prop where
  enforcer_eq : executor.enforcer = enforcer
  sidechainId_eq : executor.sidechainId = sidechainId
  numbered : clampU64 executor.blockNumber ≠ 0
  start_eq : ∃ parentHeader,
    executor.provider.header executor.parentHash = .ok (some parentHeader) ∧
    FixedBytes.tryFrom 32 parentHeader.extraData = start
  stop_eq : FixedBytes.tryFrom 32 executor.extraData = some stop

/-- Deposits of any address are survived: the query yields the well-formed ones,
and no block of the range fails on an address or applies other deposits. -/
def SurvivesAddresses (enforcer : Enforcer) (sidechainId : UInt32) (start : Option B256)
    (stop : B256) (blocks : List PegDataBlock) : Prop :=
  EnforcerClient.deposits enforcer sidechainId start stop =
      .ok (wellFormedDeposits blocks) ∧
    ∀ hashes order executor world, ReadsRange executor enforcer sidechainId start stop →
      Meets (executor.applyPreExecutionChanges hashes order world)
        (fun done => done.deposits = wellFormedDeposits blocks) NotAddressFailure

/-! A block with a deposit to an address and one to the text `hello`. -/

def depositEvent (addressHex : String) (valueSats : UInt64) : BlockEvent where
  event := some (.deposit
    { output := some
        { address := some { hex := some addressHex }
          valueSats := some valueSats } })

/-- The wire form of an address whose digits are all 1. -/
def onesAddressHex : String :=
  "3078" ++ String.ofList (List.replicate 40 ['3', '1']).flatten

def mixedBlocks : List PegDataBlock :=
  [{ blockInfo := some
      { events := [depositEvent onesAddressHex 5, depositEvent "68656c6c6f" 7] } }]

def wellFormedBlocks : List PegDataBlock :=
  [{ blockInfo := some { events := [depositEvent onesAddressHex 5] } }]

/-- An enforcer that answers every peg query with these blocks. -/
def Enforcer.answering (blocks : List PegDataBlock) : Enforcer where
  getChainTip := .error "unavailable"
  getBmmHStarCommitment := fun _ => .error "unavailable"
  getTwoWayPegData := fun _ => .ok { blocks := blocks }

end Beth
