import Beth.Node.Network
import Beth.Properties.PayeeIsolation
import Beth.Properties.SupplyCap

/-! # The chains that nodes hold

Whatever is delivered to a node, in whatever order, every block it has lies on a chain
of blocks that it has too, each accepted and executed on the one before. What holds
along all accepted chains therefore holds of every state of every node. -/

namespace Beth

open Foundation

/-- The standard check of the number of a header. -/
def EthBeaconConsensus.ChecksNumbers (inner : EthBeaconConsensus) : Prop :=
  ∀ header parent, inner.againstParentFault header parent = none →
    header.header.number = parent.header.number + 1

theorem failWith_eq_ok {fault : Option String} : failWith fault = .ok () ↔ fault = none := by
  cases fault <;> simp [failWith]

/-- An import is a step of an accepted chain. -/
theorem ReceivedBlock.ExecutedOn.acceptedExtends {rules : Rules} {received : ReceivedBlock}
    {provider : Provider} {parent : Tip} {done : PreExecution}
    (executed : received.ExecutedOn rules provider parent done)
    (checksNumbers : rules.inner.ChecksNumbers)
    (isParent : received.block.header.parentHash = parent.block.hash)
    (known : parent.KnownTo provider) :
    AcceptedExtends rules.hashes rules.sidechainId rules.inner parent
      (received.executed rules provider done) (received.tip done) := by
  have isNext := checksNumbers _ _ (failWith_eq_ok.mp executed.againstParent)
  refine ⟨extends_of_returned isParent isNext known executed.returned, received.enforcer, ?_⟩
  exact
    { header := executed.header
      againstParent := executed.againstParent
      body := executed.body
      preExecution := executed.preExecution
      postExecution := executed.postExecution }

section Nodes

variable {Node : Type} (rules : Rules) (genesis : Tip) (history : List (Delivery Node))

/-- An accepted chain from genesis to a tip. Its blocks were delivered, and the database
has each of them with the state after it. -/
structure Database.HoldsChain (database : Database) (chain : List ExecutedBlock) (tip : Tip) :
    Prop where
  run : Run (AcceptedExtends rules.hashes rules.sidechainId rules.inner) genesis chain tip
  number : tip.block.header.number = genesis.block.header.number + chain.length
  stored : ∀ executed ∈ chain, database.tips executed.block.hash = some executed.tip
  delivered : ∀ executed ∈ chain, ∃ delivery ∈ history,
    delivery.received.block = executed.block ∧ delivery.received.body = executed.body

variable {rules genesis history}

namespace Database.HoldsChain

variable {database : Database} {chain : List ExecutedBlock} {tip : Tip}

/-- A further delivery, which may have added a block, leaves the chain where it was. -/
theorem mono (holds : database.HoldsChain rules genesis history chain tip) {larger : Database}
    (kept : ∀ hash tip, database.tips hash = some tip → larger.tips hash = some tip)
    (delivery : Delivery Node) :
    larger.HoldsChain rules genesis (history ++ [delivery]) chain tip where
  run := holds.run
  number := holds.number
  stored := fun executed member => kept _ _ (holds.stored executed member)
  delivered := fun executed member => by
    rcases holds.delivered executed member with ⟨earlier, delivered, same⟩
    exact ⟨earlier, List.mem_append_left _ delivered, same⟩

/-- One more block on the chain of its parent. -/
theorem extend (holds : database.HoldsChain rules genesis history chain tip)
    (checksNumbers : rules.inner.ChecksNumbers) {delivery : Delivery Node} {provider : Provider}
    {done : PreExecution} (delivered : delivery ∈ history)
    (isParent : delivery.received.block.header.parentHash = tip.block.hash)
    (known : tip.KnownTo provider)
    (executed : delivery.received.ExecutedOn rules provider tip done)
    (hasTip : database.tips delivery.received.block.hash = some (delivery.received.tip done)) :
    database.HoldsChain rules genesis history
      (chain ++ [delivery.received.executed rules provider done])
      (delivery.received.tip done) where
  run := .extend holds.run (executed.acceptedExtends checksNumbers isParent known)
  number := by
    have isNext := checksNumbers _ _ (failWith_eq_ok.mp executed.againstParent)
    change delivery.received.block.header.number = _
    rw [isNext, holds.number, List.length_append, List.length_singleton, Nat.add_assoc]
  stored := fun other member => by
    rcases List.mem_append.mp member with onChain | isNew
    · exact holds.stored other onChain
    · cases List.mem_singleton.mp isNew
      exact hasTip
  delivered := fun other member => by
    rcases List.mem_append.mp member with onChain | isNew
    · exact holds.delivered other onChain
    · cases List.mem_singleton.mp isNew
      exact ⟨delivery, delivered, rfl, rfl⟩

end Database.HoldsChain

/-- What one delivery keeps: no block of any node is lost or replaced. -/
theorem Network.tips_deliver [DecidableEq Node] {network : Network Node}
    {delivery : Delivery Node} {node : Node} {hash : B256} {tip : Tip}
    (found : (network node).tips hash = some tip) :
    (network.deliver rules delivery node).tips hash = some tip := by
  rcases network.deliver_cases rules delivery with
    unchanged | ⟨parent, done, unknown, _, _, isNext⟩
  · rw [unchanged]
    exact found
  · rw [isNext]
    by_cases here : node = delivery.node
    · subst here
      rw [Function.update_self]
      have different : hash ≠ delivery.received.block.hash := fun same => by
        rw [same, unknown] at found
        cases found
      rw [Database.tips_insert_of_ne _ _ different]
      exact found
    · rw [Function.update_of_ne here]
      exact found

/-- Every block of every node lies on a chain that the node holds. -/
theorem holdsChain_of_deliveries [DecidableEq Node] {network : Network Node}
    (checksNumbers : rules.inner.ChecksNumbers)
    (run : Run (Network.Delivers rules) (fun _ => .initial genesis) history network) :
    ∀ node hash tip, (network node).tips hash = some tip →
      ∃ chain, (network node).HoldsChain rules genesis history chain tip := by
  induction run with
  | start =>
      intro node hash tip found
      rcases Option.ite_none_right_eq_some.mp found with ⟨_, isGenesis⟩
      cases isGenesis
      exact ⟨[], .start, rfl, by simp, by simp⟩
  | @extend history network delivery next earlier delivered induction =>
      unfold Network.Delivers at delivered
      subst delivered
      intro node hash tip found
      have kept : ∀ {chain tip}, (network node).HoldsChain rules genesis history chain tip →
          (network.deliver rules delivery node).HoldsChain rules genesis
            (history ++ [delivery]) chain tip := fun holds =>
        holds.mono (fun _ _ => Network.tips_deliver) delivery
      rcases network.deliver_cases rules delivery with
        unchanged | ⟨parent, done, _, hasParent, executed, isNext⟩
      · rw [unchanged] at found
        rcases induction node hash tip found with ⟨chain, holds⟩
        exact ⟨chain, kept holds⟩
      · by_cases isNew : node = delivery.node ∧ hash = delivery.received.block.hash
        · rcases isNew with ⟨here, isHash⟩
          subst here isHash
          have inserted := Database.tips_insert_self (delivery.received.tip done)
            (network delivery.node)
          have isTip : tip = delivery.received.tip done := by
            rw [isNext, Function.update_self] at found
            exact Option.some.inj (found.symm.trans inserted)
          subst isTip
          rcases induction delivery.node _ parent hasParent with ⟨chain, holds⟩
          have isParent := (network delivery.node).hashed _ _ hasParent
          exact ⟨_, (kept holds).extend checksNumbers (by simp) isParent.symm
            (Database.knownTo_provider hasParent) executed found⟩
        · have before : (network node).tips hash = some tip := by
            rw [isNext] at found
            by_cases here : node = delivery.node
            · subst here
              rw [Function.update_self] at found
              rw [Database.tips_insert_of_ne _ _ fun isHash => isNew ⟨rfl, isHash⟩] at found
              exact found
            · rw [Function.update_of_ne here] at found
              exact found
          rcases induction node hash tip before with ⟨chain, holds⟩
          exact ⟨chain, kept holds⟩

end Nodes

/-- Along a chain whose bodies mint nothing there is no new ether. -/
theorem total_le_of_chain {hashes : Hashes} {sidechainId : UInt32} {start final : Tip}
    {history : List ExecutedBlock} (chain : Chain hashes sidechainId start history final)
    (worthless : ∀ executed ∈ history, WorthlessWithdrawals executed.withdrawals) :
    final.world.balances.total ≤ start.world.balances.total := by
  induction chain with
  | start => exact le_rfl
  | @extend history tip executed next _ extended induction =>
      have before := induction fun other member => worthless other (by simp [member])
      exact (extended.total_le (worthless executed (by simp))).trans before

/-- However blocks are delivered: every block of a node lies on an accepted chain of that
many delivered blocks, all of which it has with their states; in its state the queue can
pay all refunds, and there is no ether beyond the cap unless a body on the chain mints it. -/
theorem nodes_hold_sound_chains {Node : Type} [DecidableEq Node] (rules : Rules)
    (genesisHash : B256) (withdrawalsRoot : Option B256) (history : List (Delivery Node))
    (network : Network Node) (checksNumbers : rules.inner.ChecksNumbers)
    (run : Run (Network.Delivers rules)
      (fun _ => .initial (.genesis genesisHash withdrawalsRoot)) history network)
    (node : Node) (hash : B256) (tip : Tip) (found : (network node).tips hash = some tip) :
    ∃ chain,
      (network node).HoldsChain rules (.genesis genesisHash withdrawalsRoot) history chain tip ∧
      Escrowed tip.world ∧
      ((∀ executed ∈ chain, WorthlessWithdrawals executed.withdrawals) →
        tip.world.balances.total ≤ supplyCapWei) := by
  rcases holdsChain_of_deliveries checksNumbers run node hash tip found with ⟨chain, holds⟩
  have executed : Chain rules.hashes rules.sidechainId (.genesis genesisHash withdrawalsRoot)
      chain tip := holds.run.weaken fun _ _ _ accepted => accepted.1
  refine ⟨chain, holds, escrowed_of_chain executed, ?_⟩
  intro worthless
  exact (total_le_of_chain executed worthless).trans total_genesis.le

/-! Block 1 of a node whose consensus looks at numbers and the withdrawals root. -/

def numberedRules : Rules where
  hashes := .unused
  sidechainId := 10
  inner :=
    { rootOnlyConsensus with
      againstParentFault := fun header parent =>
        if header.header.number = parent.header.number + 1 then none
        else some "block number does not match parent" }
  depositEnv := fun _ => .unmetered
  lifecycleEnv := fun _ => .unmetered

theorem numberedRules_checksNumbers : numberedRules.inner.ChecksNumbers := by
  intro header parent passed
  by_contra notNext
  change (if _ then none else some _) = none at passed
  rw [if_neg notNext] at passed
  cases passed

def numberedDelivery : Delivery Unit where
  node := ()
  received :=
    { block := (committedProposal []).header (.genesis (.replicate 32 0) none)
      body := (committedProposal []).body
      enforcer := committingMainchain.enforcer (Mainchain.linearBlock 1)
      order := .insertion
      innerFault := none }

theorem nodes_hold_sound_chains_one_block :
    ∃ network tip,
      Run (Network.Delivers numberedRules)
        (fun _ => .initial (.genesis (.replicate 32 0) none)) [numberedDelivery] network ∧
      (network ()).tips (.replicate 32 1) = some tip ∧
      Escrowed tip.world := by
  let network : Network Unit := Network.deliver numberedRules numberedDelivery
    fun _ => .initial (.genesis (.replicate 32 0) none)
  have imported : ((network ()).tips (.replicate 32 1)).isSome := by decide +kernel
  rcases Option.isSome_iff_exists.mp imported with ⟨tip, hasTip⟩
  have run : Run (Network.Delivers numberedRules)
      (fun _ => .initial (.genesis (.replicate 32 0) none)) [numberedDelivery] network :=
    .extend .start rfl
  rcases nodes_hold_sound_chains numberedRules _ _ _ network numberedRules_checksNumbers run ()
    _ tip hasTip with ⟨chain, _, escrowed, _⟩
  exact ⟨network, tip, run, hasTip, escrowed⟩

end Beth
