import Beth.Contracts.QueueMachine
import Beth.Node.StorageReader

/-! # Reading back what the contract stored

After every run of the contract the reader of raw slots returns the requests as
the contract has them, as long as the slots in use do not overlap. -/

namespace Beth

open Foundation

namespace WithdrawalRequestQueue

/-! ## What every journal keeps -/

namespace Journal

/-- The slots hold the queue, unless some of those in use overlap. -/
structure Stored (keccak256 : Bytes → B256) (journal : Journal) : Prop where
  blank : journal.world.queue.UnqueuedBlank
  short : journal.world.queue.ShortDestinations
  laidOut : journal.world.queue.SlotsDistinct keccak256 →
    journal.world.queue.LaidOut keccak256 journal.slots

variable {keccak256 : Bytes → B256} {journal : Journal}

theorem stored_initial (balances : Ledger Address) :
    (MachineState.initial balances).journal.Stored keccak256 where
  blank := unqueuedBlank_initial
  short := fun index queued => absurd queued (Nat.not_lt_zero index)
  laidOut := fun _ => laidOut_initial keccak256

namespace Stored

theorem withBalances (stored : journal.Stored keccak256) (balances : Ledger Address) :
    (journal.withBalances balances).Stored keccak256 :=
  ⟨stored.blank, stored.short, stored.laidOut⟩

theorem request (stored : journal.Stored keccak256) {sender : Address}
    {msgValue mainFeeSats : Nat} {btcDestination : Bytes} {next : Journal}
    (returned : journal.requestWithdrawal keccak256 sender msgValue btcDestination
      mainFeeSats = .ok next) : next.Stored keccak256 := by
  rcases Journal.requestWithdrawal_ok returned with ⟨request, _, _, decodes, _, _, isNext⟩
  subst isNext
  refine ⟨stored.blank.append request, ?_, ?_⟩
  · intro index queued
    change index < journal.world.queue.requestCount + 1 at queued
    change ((journal.world.queue.append request).requests index).btcDestination.length < _
    by_cases atEnd : index = journal.world.queue.requestCount
    · subst atEnd
      rw [Storage.append, Storage.setRequest_same]
      exact decodes
    · rw [Storage.append, Storage.setRequest_of_ne _ _ atEnd]
      exact stored.short index (by omega)
  · intro distinct
    change (journal.world.queue.append request).SlotsDistinct keccak256 at distinct
    have before := distinct.of_subset (locations_append request stored.blank)
    dsimp only
    exact laidOut_append (stored.laidOut before) stored.blank request distinct

/-- A lifecycle change that stores every field it changes. -/
theorem assign (stored : journal.Stored keccak256) {index : Nat} {change : Request → Request}
    {fields : List Field} (same : ∀ request : Request, request.SameWithdrawal (change request))
    (marked : ∀ request, (change request).status ≠ .pending)
    (unchanged : ∀ request : Request, ∀ field, field ∉ fields →
      (change request).word field = request.word field) :
    (journal.assign keccak256 index change fields).Stored keccak256 := by
  refine ⟨stored.blank.setRequest (same _) (marked _), ?_, ?_⟩
  · intro other queued
    change ((journal.world.queue.setRequest index _).requests other).btcDestination.length < _
    by_cases here : other = index
    · subst here
      rw [Storage.setRequest_same, ← (same _).2.2.2]
      exact stored.short other queued
    · rw [Storage.setRequest_of_ne _ _ here]
      exact stored.short other queued
  · intro distinct
    have before : journal.world.queue.SlotsDistinct keccak256 :=
      distinct.of_subset (locations_setRequest (same _) (marked _))
    exact laidOut_setRequest (stored.laidOut before) stored.blank fields (same _) (marked _)
      (unchanged _) distinct

theorem markRefunded (stored : journal.Stored keccak256) (index : Nat) :
    (journal.markRefunded keccak256 index).Stored keccak256 := by
  have assigned : (journal.assign keccak256 index Request.refund [.status]).Stored keccak256 :=
    stored.assign Request.sameWithdrawal_refund (fun _ => by simp [Request.refund])
      (fun request field notStatus => by
        cases field <;> first | rfl | exact absurd (by simp) notStatus)
  exact ⟨assigned.blank, assigned.short, assigned.laidOut⟩

theorem effect (stored : journal.Stored keccak256) {next : Journal}
    (effect : journal.Effect keccak256 next) : next.Stored keccak256 := by
  cases effect with
  | none => exact stored
  | credit | spend | transfer => exact stored.withBalances _
  | request _ returned => exact stored.request returned
  | bundle newM6id _ =>
      apply stored.assign (Request.sameWithdrawal_bundle · newM6id)
      · intro request
        simp [Request.bundle]
      · intro request field notStored
        cases field <;> first | rfl | exact absurd (by simp) notStored
  | confirm _ =>
      apply stored.assign Request.sameWithdrawal_confirm
      · intro request
        simp [Request.confirm]
      · intro request field notStatus
        cases field <;> first | rfl | exact absurd (by simp) notStatus
  | refund _ => exact stored.markRefunded _
  | refundPaid _ _ _ => exact (stored.markRefunded _).withBalances _

end Stored

end Journal

open MachineState

theorem stored_of_run {keccak256 : Bytes → B256} {balances : Ledger Address}
    {history : List Action} {state : MachineState}
    (run : Run (Steps keccak256) (.initial balances) history state) :
    state.journal.Stored keccak256 :=
  (holds_of_run (Journal.Stored keccak256) (fun _ _ stored effect => stored.effect effect) rfl
    (Journal.stored_initial balances) run).1

end WithdrawalRequestQueue

/-! ## The requests read -/

open WithdrawalRequestQueue

/-- An entry gives every field of the request at its index as the contract has
it, and the bundle of a request that is not pending. -/
structure RequestEntry.Matches (entry : RequestEntry) (index : Nat) (request : Request) :
    Prop where
  index : entry.index.toNat = index
  valueSats : entry.valueSats.toNat = request.valueSats
  mainFeeSats : entry.mainFeeSats.toNat = request.mainFeeSats
  btcDestination : entry.btcDestination = request.btcDestination
  status : entry.status = .ofStatus request.status
  bundleM6id_none : entry.bundleM6id = none ↔ request.status = .pending
  bundleM6id : ∀ update : BundleLifecycleUpdate, ∀ txid, update.newM6id = some txid →
    update.toCalldata.newM6id = request.bundleM6id → request.status ≠ .pending →
    entry.bundleM6id = some txid

theorem readEntry_matches {queue : Storage} {index : Nat} (fits : index < 2 ^ 64) :
    (readEntry queue index).Matches index (queue.requests index) := by
  have amounts := readEntry_amounts queue index
  constructor
  · change (UInt64.ofNat index).toNat = index
    rw [UInt64.toNat_ofNat', Nat.mod_eq_of_lt fits]
  · exact amounts.1
  · exact amounts.2
  · rfl
  · rfl
  · unfold readEntry
    dsimp only
    cases (queue.requests index).status <;> simp [RequestStatus.ofStatus]
  · intro update txid isTxid stored notPending
    have isStored : (queue.requests index).bundleM6id = txid := by
      rw [← stored, BundleLifecycleUpdate.toCalldata, isTxid]
      rfl
    unfold readEntry
    dsimp only
    cases status : (queue.requests index).status with
    | pending => exact absurd status notPending
    | bundled | confirmed | refunded => exact congrArg some isStored

/-- Reading raw storage after any run gives one entry for each request, in order,
with every field as the contract has it, and the pending ones among them. -/
theorem storage_read_back (keccak256 : Bytes → B256) (balances : Ledger Address)
    (history : List Action) (state : MachineState)
    (run : Run (MachineState.Steps keccak256) (.initial balances) history state)
    (distinct : state.journal.world.queue.SlotsDistinct keccak256)
    (fewer : state.journal.world.queue.requestCount < 2 ^ 64)
    (provider : StorageReader.StateProvider)
    (provides : StorageReader.Provides provider state.journal.slots) :
    ∃ entries,
      StorageReader.readAllRequests keccak256 provider = .ok entries ∧
      entries.length = state.journal.world.queue.requestCount ∧
      (∀ index, (inside : index < entries.length) →
        entries[index].Matches index (state.journal.world.queue.requests index)) ∧
      StorageReader.readPendingWithdrawals keccak256 provider =
        .ok ((entries.filter fun entry => entry.status = .pending).map fun entry =>
          { index := entry.index
            valueSats := entry.valueSats
            mainFeeSats := entry.mainFeeSats
            btcDestination := entry.btcDestination }) ∧
      entries = readAllRequests state.journal.world.queue := by
  have stored := stored_of_run run
  have read := StorageReader.readAllRequests_eq (stored.laidOut distinct) provides
    stored.short fewer
  have length : (readAllRequests state.journal.world.queue).length =
      state.journal.world.queue.requestCount := by
    rw [readAllRequests, List.length_map, List.length_range, toNat_clampU64 fewer]
  refine ⟨readAllRequests state.journal.world.queue, read, length, ?_, ?_, rfl⟩
  · intro index inside
    have isEntry : (readAllRequests state.journal.world.queue)[index] =
        readEntry state.journal.world.queue index := by
      simp only [readAllRequests, List.getElem_map, List.getElem_range]
    rw [isEntry]
    exact readEntry_matches ((inside.trans_eq length).trans fewer)
  · rw [StorageReader.readPendingWithdrawals, read, ok_bind]
    rfl

/-! Two requests, the first with a destination of 33 bytes and in a bundle. -/

theorem storingPayee_notPredeploy : addressOfNat 0xcafe ∉ predeploys := by
  decide

def storingPayee : UserAccount where
  address := addressOfNat 0xcafe
  notPredeploy := storingPayee_notPredeploy

def storedDestination : Bytes := (List.range 33).map UInt8.ofNat

def storingHistory : List WithdrawalRequestQueue.Action :=
  [.credit storingPayee.address (100 * weiPerSat),
    .transact storingPayee,
    .requestWithdrawal (5 * weiPerSat) storedDestination 1,
    .requestWithdrawal (7 * weiPerSat) [0xbb, 0xbc] 2,
    .leave,
    .systemCall
      { bundledIndices := [0]
        newM6id := .replicate 32 7
        succeededIndices := []
        failedIndices := [] },
    .advance,
    .advance]

/-- The digests of the two entries and of the slot of the long destination. -/
def storedDigests (preimage : Bytes) : B256 :=
  if preimage = toBeBytes 32 0 ++ toBeBytes 32 1 then
    b256OfWord 0xa6eef7e35abe7026729641147f7915573c7e97b47efa546f5f6e3230263bcb49
  else if preimage = toBeBytes 32 1 ++ toBeBytes 32 1 then
    b256OfWord 0xcc69885fda6bcc1a4ace058b4a62bf5e179ea78fd58a1ccd71c22cc9b688792f
  else if preimage =
      toBeBytes 32 0xa6eef7e35abe7026729641147f7915573c7e97b47efa546f5f6e3230263bcb4c then
    b256OfWord 0xbaf12935195c1e0b72bbb35b5b92413cddce785944ba9be7f5ae9ca89c1f0ca4
  else .replicate 32 0

def storedLocations : List Location :=
  [.requestCount, .destination 0 0, .destination 0 1] ++ Field.all.map (.entry 0) ++
    Field.all.map (.entry 1)

def storedEntries : List RequestEntry :=
  [{ index := 0
     valueSats := 4
     mainFeeSats := 1
     btcDestination := storedDestination
     status := .bundled
     bundleM6id := some (.replicate 32 7) },
    { index := 1
      valueSats := 5
      mainFeeSats := 2
      btcDestination := [0xbb, 0xbc]
      status := .pending
      bundleM6id := none }]

theorem storedLocations_distinct :
    ∀ left ∈ storedLocations, ∀ right ∈ storedLocations,
      left.slot storedDigests = right.slot storedDigests → left = right := by
  decide +kernel

/-- The locations in use after the two requests. -/
theorem locations_of_two {queue : Storage} (count : queue.requestCount = 2)
    (first : (queue.requests 0).btcDestination = storedDestination)
    (second : (queue.requests 1).btcDestination = [0xbb, 0xbc])
    (others : ∀ index, queue.requests (index + 2) = .unwritten) :
    ∀ location ∈ queue.locations, location ∈ storedLocations := by
  intro location inUse
  cases location with
  | requestCount => decide
  | entry index field =>
      match index with
      | 0 => cases field <;> decide
      | 1 => cases field <;> decide
      | index + 2 =>
          rcases inUse with queued | marked
          · omega
          · rw [others] at marked
            exact absurd rfl marked
  | destination index piece =>
      change piece < pieceCount (queue.requests index).btcDestination at inUse
      match index with
      | 0 =>
          rw [first] at inUse
          have within : piece < 2 := inUse
          interval_cases piece <;> decide
      | 1 =>
          rw [second] at inUse
          exact absurd inUse (Nat.not_lt_zero _)
      | index + 2 =>
          rw [others] at inUse
          exact absurd inUse (Nat.not_lt_zero _)

theorem storage_read_back_two_requests :
    ∃ state : MachineState,
      Run (MachineState.Steps storedDigests) (.initial fun _ => 0) storingHistory state ∧
      StorageReader.readAllRequests storedDigests
        (fun slot => .ok (some (state.journal.slots slot))) = .ok storedEntries := by
  have executed : (MachineState.stepAll storedDigests (.initial fun _ => 0)
      storingHistory).map (fun state => readAllRequests state.journal.world.queue) =
        some storedEntries := by
    decide +kernel
  rcases Option.map_eq_some_iff.mp executed with ⟨state, taken, entriesAre⟩
  have run := MachineState.run_of_stepAll _ taken
  have count : state.journal.world.queue.requestCount = 2 :=
    MachineState.eq_of_stepAll (fun state => state.journal.world.queue.requestCount) taken
      (by decide +kernel)
  have first : (state.journal.world.queue.requests 0).btcDestination = storedDestination :=
    MachineState.eq_of_stepAll
      (fun state => (state.journal.world.queue.requests 0).btcDestination) taken
      (by decide +kernel)
  have second : (state.journal.world.queue.requests 1).btcDestination = [0xbb, 0xbc] :=
    MachineState.eq_of_stepAll
      (fun state => (state.journal.world.queue.requests 1).btcDestination) taken
      (by decide +kernel)
  have others : ∀ index, state.journal.world.queue.requests (index + 2) = .unwritten :=
    fun index => MachineState.eq_of_stepAll
      (fun state => state.journal.world.queue.requests (index + 2)) taken
      (by with_unfolding_all rfl)
  have listed := locations_of_two count first second others
  have distinct : state.journal.world.queue.SlotsDistinct storedDigests :=
    fun left leftUsed right rightUsed => storedLocations_distinct left (listed left leftUsed)
      right (listed right rightUsed)
  rcases storage_read_back storedDigests _ storingHistory state run distinct
    (by rw [count]; decide) (fun slot => .ok (some (state.journal.slots slot)))
    (fun slot => ⟨_, rfl, rfl⟩) with ⟨entries, read, _, _, _, isQueue⟩
  exact ⟨state, run, by rw [read, isQueue, entriesAre]⟩

end Beth
