import Beth.Node.PayloadBuilder
import Beth.Node.WithdrawalBundle.Payees
import Beth.Properties.LifecycleCall

/-! # Builder and validators pick the same bundle

The payload builder and the block executor read the same queue and compute the
same height on their own paths, and the selection depends on neither the hash
map of the process nor the order of the requests. -/

namespace Beth

open Foundation WithdrawalRequestQueue

/-- The bundle a builder broadcasts is the one selected on the parent's queue. -/
theorem bundle_of_nextBlockContext {hashes : Hashes} {order : HashMapOrder}
    {builder : Bip300301PayloadBuilder} {tip : Tip} {context : NextBlockContext}
    (known : tip.KnownTo builder.client)
    (built : builder.nextBlockContext hashes order tip.block.hash
      (clampU64 tip.block.header.number) = .ok context) :
    context.bundle = selectedBundle hashes order tip.world.queue
      (blockHeight (tip.block.header.number + 1)) := by
  unfold Bip300301PayloadBuilder.nextBlockContext at built
  cases tipEq : EnforcerClient.chainTip builder.enforcer with
  | error failure =>
      rw [tipEq] at built
      cases built
  | ok mainTip =>
      rw [tipEq] at built
      cases built
      rw [NextBlockContext.bundle, Option.map_map, Bip300301PayloadBuilder.selectBundle,
        known.state, clampU32_saturatingAdd_one]
      exact Option.map_id'

theorem selectedBundle_eq_of_orders (hashes : Hashes) (order otherOrder : HashMapOrder)
    (queue : Storage) (blockHeight : UInt32) :
    selectedBundle hashes order queue blockHeight =
      selectedBundle hashes otherOrder queue blockHeight :=
  selectWithdrawalBundle_perm (.refl _) hashes order otherOrder blockHeight

/-- The update assigns exactly this bundle. -/
structure BundleLifecycleUpdate.Assigns (update : BundleLifecycleUpdate) (hashes : Hashes)
    (bundle : Option WithdrawalBundle) : Prop where
  newM6id : update.newM6id = bundle.map fun bundle => bundle.m6id hashes
  bundledIndices : update.bundledIndices =
    (bundle.map WithdrawalBundle.requestIndices).getD []

theorem Extends.assigns {hashes : Hashes} {sidechainId : UInt32} {tip next : Tip}
    {executed : ExecutedBlock} (extends_ : Extends hashes sidechainId tip executed next) :
    executed.done.update.Assigns hashes
      (selectedBundle hashes executed.order tip.world.queue executed.height) := by
  rcases extends_.preExecuted with ⟨mainHash, credited, facts⟩
  have computed := facts.updateComputed
  change executed.done.update = computeLifecycleUpdate hashes executed.order
    (readAllRequests tip.world.queue) executed.done.outcomes executed.height at computed
  rw [computed]
  cases selected : selectedBundle hashes executed.order tip.world.queue executed.height with
  | none =>
      have update := update_of_not_selected executed.done.outcomes selected
      exact ⟨update.1, update.2⟩
  | some bundle =>
      have update := update_of_selected executed.done.outcomes selected
      exact ⟨update.1, update.2⟩

/-- On every parent, whatever the hash map orders, the outcomes and the listing
of the requests: the bundle broadcast at build time is the one every child
assigns. -/
theorem builder_and_validators_agree (hashes : Hashes) (builder : Bip300301PayloadBuilder)
    (order : HashMapOrder) (tip : Tip) (context : NextBlockContext)
    (known : tip.KnownTo builder.client)
    (built : builder.nextBlockContext hashes order tip.block.hash
      (clampU64 tip.block.header.number) = .ok context) :
    (∀ sidechainId executed next, Extends hashes sidechainId tip executed next →
      executed.bundle hashes = context.bundle ∧
        executed.done.update.Assigns hashes context.bundle) ∧
    (∀ otherOrder listed, listed.Perm (readPendingWithdrawals tip.world.queue) →
      selectWithdrawalBundle hashes otherOrder listed
        (blockHeight (tip.block.header.number + 1)) = context.bundle) ∧
    ∀ (pending permuted : List PendingWithdrawal) (height : UInt32)
      (leftOrder rightOrder : HashMapOrder), pending.Perm permuted →
      selectWithdrawalBundle hashes leftOrder pending height =
        selectWithdrawalBundle hashes rightOrder permuted height := by
  have contextEq := bundle_of_nextBlockContext known built
  refine ⟨?_, ?_, ?_⟩
  · intro sidechainId executed next extends_
    have heightEq : executed.height = blockHeight (tip.block.header.number + 1) := by
      rw [ExecutedBlock.height, extends_.number]
    have sameBundle : selectedBundle hashes executed.order tip.world.queue executed.height =
        context.bundle := by
      rw [contextEq, heightEq]
      exact selectedBundle_eq_of_orders hashes executed.order order _ _
    constructor
    · rw [extends_.bundle_eq, sameBundle]
    · rw [← sameBundle]
      exact extends_.assigns
  · intro otherOrder listed perm
    rw [contextEq]
    exact selectWithdrawalBundle_perm perm hashes otherOrder order _
  · intro pending permuted height leftOrder rightOrder perm
    exact selectWithdrawalBundle_perm perm hashes leftOrder rightOrder height

/-! A builder on the tip of the first request, and the block that is built. -/

/-- The builder of a node that knows this tip. -/
def Tip.builder (tip : Tip) (enforcer : Enforcer) : Bip300301PayloadBuilder where
  client := tip.provider
  builderConfig := { extraData := [] }
  enforcer := enforcer
  wallet := { broadcastWithdrawalBundle := fun _ => .ok () }
  sidechainId := 10

theorem builder_and_validators_agree_first_request :
    ∃ tip executed bundle,
      tip.world.queue.requestCount = 1 ∧
      Extends withdrawalHashes 10 tip executed executed.tip ∧
      executed.bundle withdrawalHashes = some bundle ∧
      executed.done.update.Assigns withdrawalHashes (some bundle) := by
  let enforcer := (withdrawalMainchain depositAtBlockOne).enforcer (Mainchain.linearBlock 2)
  have executes : Meets (do
        let first ← executeAll withdrawalHashes 10 (.genesis (.replicate 32 0) none)
          [requestingProposal enforcer]
        let second ← (Proposal.empty (.replicate 32 2) (Mainchain.linearBlock 2)
          enforcer).execute withdrawalHashes 10 first.2
        pure (first.2, second))
      (fun result => result.1.world.queue.requestCount = 1 ∧
        (result.2.bundle withdrawalHashes).isSome ∧
        ((result.1.builder enforcer).nextBlockContext withdrawalHashes .insertion
          result.1.block.hash (clampU64 result.1.block.header.number)).isOk)
      fun _ => False := by decide +kernel
  rcases executes.exists_ok (fun _ failed => failed) with
    ⟨result, resultEq, oneRequest, assigned, built⟩
  rcases bind_eq_ok.mp resultEq with ⟨first, firstEq, rest⟩
  rcases bind_eq_ok.mp rest with ⟨second, secondEq, resultIs⟩
  cases resultIs
  rcases Option.isSome_iff_exists.mp assigned with ⟨bundle, bundleEq⟩
  have extends_ := (Proposal.extends_of_execute secondEq).1
  cases contextEq : (first.2.builder enforcer).nextBlockContext withdrawalHashes .insertion
      first.2.block.hash (clampU64 first.2.block.header.number) with
  | error failure =>
      rw [contextEq] at built
      cases built
  | ok context =>
      have agree := (builder_and_validators_agree withdrawalHashes (first.2.builder enforcer)
        .insertion first.2 context first.2.knownTo_provider contextEq).1 10 second
        second.tip extends_
      rw [← agree.1, bundleEq] at agree
      exact ⟨first.2, second, bundle, oneRequest, extends_, bundleEq, agree.2⟩

end Beth
