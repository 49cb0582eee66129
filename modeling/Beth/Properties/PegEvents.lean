import Beth.Properties.DepositAddresses

/-! # Peg events along a chain

Every block applies the events of its own mainchain range. The ranges of a
chain tile the history of the mainchain, and a range whose deposits name a
malformed address stops the block that covers it. -/

namespace Beth

open Foundation EnforcerClient

/-! ## Ranges tile the history -/

/-- Everything up to the mainchain block named by the tip was read, once and in
order. Before the first reference nothing was read. -/
def ReadSoFar (mainchain : Mainchain) (history : List ExecutedBlock) (tip : Tip) : Prop :=
  match FixedBytes.tryFrom 32 tip.block.header.extraData with
  | none => history = []
  | some mainHash =>
      collectEvents pushDeposit
          ((mainchain.tree.history mainHash).map mainchain.blockInfo) =
        .ok (history.flatMap fun executed => executed.done.deposits) ∧
      collectEvents pushOutcome
          ((mainchain.tree.history mainHash).map mainchain.blockInfo) =
        .ok (history.flatMap fun executed => executed.done.outcomes)

/-- What a query answered from the mainchain reads is the events of its range,
and the range starts on the branch of its end. -/
theorem read_of_reportsPegData {α : Type} {enforcer : Enforcer} {mainchain : Mainchain}
    {sidechainId : UInt32} (reports : enforcer.ReportsPegData mainchain sidechainId)
    {push : List α → BlockEvent → Except EnforcerError (List α)} {start : Option B256}
    {stop : B256} {items : List α}
    (queried : (do
      let response ← ofRpc (enforcer.getTwoWayPegData
        (pegDataRequest sidechainId start stop))
      collectEvents push response.blocks) = .ok items) :
    (∀ hash ∈ start, hash ∈ mainchain.tree.lineage stop) ∧
      collectEvents push ((mainchain.tree.range start stop).map mainchain.blockInfo) =
        .ok items := by
  cases answered : enforcer.getTwoWayPegData (pegDataRequest sidechainId start stop) with
  | error status => simp [answered, ofRpc] at queried
  | ok response =>
      have facts := reports start stop response answered
      simp only [answered, ofRpc, ok_bind] at queried
      rw [← facts.2]
      exact ⟨facts.1, queried⟩

/-- Reading on from a reference reads on to the next one. -/
theorem read_next {α : Type} {mainchain : Mainchain}
    {push : List α → BlockEvent → Except EnforcerError (List α)} (appends : Appends push)
    {start stop : B256} {before items : List α}
    (onBranch : start ∈ mainchain.tree.lineage stop)
    (readBefore : collectEvents push
      ((mainchain.tree.history start).map mainchain.blockInfo) = .ok before)
    (readRange : collectEvents push
      ((mainchain.tree.range (some start) stop).map mainchain.blockInfo) = .ok items) :
    collectEvents push ((mainchain.tree.history stop).map mainchain.blockInfo) =
      .ok (before ++ items) := by
  rw [← mainchain.tree.history_append_range onBranch, List.map_append]
  exact collectEvents_append appends readBefore readRange

/-- One block reads exactly the events between its parent's reference and its
own. -/
theorem ReadSoFar.extend {hashes : Hashes} {sidechainId : UInt32} {mainchain : Mainchain}
    {history : List ExecutedBlock} {tip next : Tip} {executed : ExecutedBlock}
    (readBefore : ReadSoFar mainchain history tip)
    (extends_ : Extends hashes sidechainId tip executed next)
    (reports : executed.enforcer.ReportsPegData mainchain sidechainId) :
    (∃ mainHash, FixedBytes.tryFrom 32 next.block.header.extraData = some mainHash) ∧
      ReadSoFar mainchain (history ++ [executed]) next := by
  rcases extends_.preExecuted with ⟨mainHash, credited, facts⟩
  have nextHash : FixedBytes.tryFrom 32 next.block.header.extraData = some mainHash := by
    rw [extends_.next_eq]
    exact facts.mainHashFound
  have deposits := read_of_reportsPegData reports facts.depositsFound
  have outcomes := read_of_reportsPegData reports facts.outcomesFound
  refine ⟨⟨mainHash, nextHash⟩, ?_⟩
  unfold ReadSoFar at readBefore ⊢
  rw [nextHash]
  simp only [List.flatMap_append, List.flatMap_singleton]
  cases parentHash : FixedBytes.tryFrom 32 tip.block.header.extraData with
  | none =>
      rw [parentHash] at readBefore deposits outcomes
      rw [readBefore]
      exact ⟨deposits.2, outcomes.2⟩
  | some start =>
      rw [parentHash] at readBefore deposits outcomes
      have onBranch := deposits.1 start rfl
      exact ⟨read_next appends_pushDeposit onBranch readBefore.1 deposits.2,
        read_next appends_pushOutcome onBranch readBefore.2 outcomes.2⟩

/-! A mainchain with a deposit in its blocks 2 and 3, read by two blocks that
name its blocks 1 and 3. -/

def depositMainchain : Mainchain where
  tree := Mainchain.linearTree
  hStar := fun _ => none
  events := fun block =>
    if block = Mainchain.linearBlock 2 then [depositEvent onesAddressHex 5]
    else if block = Mainchain.linearBlock 3 then [depositEvent onesAddressHex 7]
    else []

def depositProposals : List Proposal :=
  [.empty (.replicate 32 1) (Mainchain.linearBlock 1)
      (depositMainchain.enforcer (Mainchain.linearBlock 4)),
    .empty (.replicate 32 2) (Mainchain.linearBlock 3)
      (depositMainchain.enforcer (Mainchain.linearBlock 4))]

end Beth
