import Beth.Foundation.BlockTree
import Beth.Node.EnforcerClient

/-! # The mainchain behind an enforcer

A mainchain is a block tree with, for one sidechain, the h* commitment and the
peg events recorded in each block. The two properties of an enforcer below are
what its RPC documentation promises; everything it may do when a call fails is
left open. -/

namespace Beth

open Foundation

structure Mainchain where
  tree : BlockTree B256
  hStar : B256 → Option B256
  events : B256 → List BlockEvent

namespace Mainchain

variable (mainchain : Mainchain)

def commitmentField (block : B256) : Option HexField :=
  (mainchain.hStar block).map fun hash => { hex := some (hexEncode hash.bytes) }

/-- A block and its nearest ancestors. -/
def window (ancestors : Nat) (block : B256) : List B256 :=
  (mainchain.tree.lineage block).take (ancestors + 1)

/-- Whether one of the blocks records the hash. -/
def RecordedIn (hash : B256) (blocks : List B256) : Prop :=
  ∃ block ∈ blocks, mainchain.hStar block = some hash

def blockInfo (block : B256) : PegDataBlock where
  blockInfo := some { events := mainchain.events block }

end Mainchain

/-- The tip is the one given, and the commitments reported for a block are its
own and those of up to `maxAncestors` of its ancestors. -/
structure Enforcer.ReportsCommitments (enforcer : Enforcer) (mainchain : Mainchain)
    (sidechainId : UInt32) (tip : B256) : Prop where
  chainTip : enforcer.getChainTip = .ok
    { blockHeaderInfo := some
        { blockHash := some { hex := some (hexEncode tip.bytes) } } }
  commitments : ∀ (block : B256) (maxAncestors : UInt32),
    enforcer.getBmmHStarCommitment
      { blockHash := some { hex := some (hexEncode block.bytes) }
        sidechainId := some sidechainId
        maxAncestors := some maxAncestors } =
    .ok
      { result := some (.commitment
          { commitment := mainchain.commitmentField block
            ancestorCommitments :=
              ((mainchain.tree.lineage block).tail.take maxAncestors.toNat).map
                fun ancestor => { commitment := mainchain.commitmentField ancestor } }) }

/-- Peg data is returned only for a range on one branch, and is then the
events of the blocks of that range in order. -/
def Enforcer.ReportsPegData (enforcer : Enforcer) (mainchain : Mainchain)
    (sidechainId : UInt32) : Prop :=
  ∀ start stop response,
    enforcer.getTwoWayPegData (EnforcerClient.pegDataRequest sidechainId start stop) =
      .ok response →
    (∀ hash ∈ start, hash ∈ mainchain.tree.lineage stop) ∧
    response.blocks = (mainchain.tree.range start stop).map mainchain.blockInfo

/-! ## What the client reads -/

namespace EnforcerClient

theorem anyCommitted_map (mainchain : Mainchain) (hash : B256) (blocks : List B256) :
    anyCommitted hash (blocks.map mainchain.commitmentField) =
      .ok (blocks.any fun block => mainchain.hStar block = some hash) := by
  induction blocks with
  | nil => rfl
  | cons block rest induction =>
      rw [List.map_cons, List.any_cons, Mainchain.commitmentField]
      cases mainchain.hStar block with
      | none => simpa [anyCommitted] using induction
      | some recorded =>
          simp only [Option.map_some, anyCommitted, parseHex32_hexEncode, ok_bind]
          by_cases same : recorded = hash
          · simp [same]
            rfl
          · simp [same, induction]

/-- The verdict is whether the tip or one of its 16 nearest ancestors records
the hash. The mainchain block named by the header plays no part. -/
theorem isCommitted_eq {enforcer : Enforcer} {mainchain : Mainchain}
    {sidechainId : UInt32} {tip : B256}
    (reports : enforcer.ReportsCommitments mainchain sidechainId tip)
    (sidechainBlockHash mainBlockHash : B256) :
    isCommitted enforcer sidechainBlockHash mainBlockHash sidechainId =
      .ok ((mainchain.window 16 tip).any fun block =>
        mainchain.hStar block = some sidechainBlockHash) := by
  rcases mainchain.tree.lineage_eq_cons tip with ⟨ancestors, lineageEq⟩
  unfold isCommitted
  rw [reports.chainTip]
  simp only [ofRpc, tipHex, okOr, ok_bind]
  rw [reports.commitments tip bmmCommitmentSearchAncestors]
  simp only [ok_bind, List.map_map, Function.comp_def]
  rw [← List.map_cons, anyCommitted_map, Mainchain.window, lineageEq]
  rfl

theorem isCommitted_iff {enforcer : Enforcer} {mainchain : Mainchain}
    {sidechainId : UInt32} {tip : B256}
    (reports : enforcer.ReportsCommitments mainchain sidechainId tip)
    (sidechainBlockHash mainBlockHash : B256) :
    isCommitted enforcer sidechainBlockHash mainBlockHash sidechainId = .ok true ↔
      mainchain.RecordedIn sidechainBlockHash (mainchain.window 16 tip) := by
  rw [isCommitted_eq reports]
  simp [Mainchain.RecordedIn]

end EnforcerClient

/-! ## An enforcer that answers from a mainchain -/

namespace Mainchain

def readHash (field : Option HexField) : Option B256 :=
  match (field.bind fun field => field.hex).map parseHex32 with
  | some (.ok hash) => some hash
  | _ => none

theorem readHash_hexEncode (hash : B256) :
    readHash (some { hex := some (hexEncode hash.bytes) }) = some hash := by
  simp [readHash]

def reportCommitments (mainchain : Mainchain) (request : GetBmmHStarCommitmentRequest) :
    GetBmmHStarCommitmentResponse :=
  match readHash request.blockHash with
  | none => { result := some .blockNotFound }
  | some block =>
      { result := some (.commitment
          { commitment := mainchain.commitmentField block
            ancestorCommitments := ((mainchain.tree.lineage block).tail.take
              (request.maxAncestors.getD 0).toNat).map
                fun ancestor => { commitment := mainchain.commitmentField ancestor } }) }

def reportPegData (mainchain : Mainchain) (request : GetTwoWayPegDataRequest) :
    Except String GetTwoWayPegDataResponse :=
  match readHash request.endBlockHash with
  | none => .error "end block not found"
  | some stop =>
      match request.startBlockHash with
      | none => .ok { blocks := (mainchain.tree.range none stop).map mainchain.blockInfo }
      | some field =>
          match readHash (some field) with
          | none => .error "start block not found"
          | some start =>
              if start ∈ mainchain.tree.lineage stop then
                .ok
                  { blocks := (mainchain.tree.range (some start) stop).map
                      mainchain.blockInfo }
              else .error "start block is not an ancestor of end block"

def enforcer (mainchain : Mainchain) (tip : B256) : Enforcer where
  getChainTip := .ok
    { blockHeaderInfo := some
        { blockHash := some { hex := some (hexEncode tip.bytes) } } }
  getBmmHStarCommitment := fun request => .ok (mainchain.reportCommitments request)
  getTwoWayPegData := mainchain.reportPegData

theorem enforcer_reportsCommitments (mainchain : Mainchain) (sidechainId : UInt32)
    (tip : B256) :
    (mainchain.enforcer tip).ReportsCommitments mainchain sidechainId tip where
  chainTip := rfl
  commitments := fun block maxAncestors => by
    simp only [enforcer, reportCommitments, readHash_hexEncode, Option.getD_some]

theorem enforcer_reportsPegData (mainchain : Mainchain) (sidechainId : UInt32)
    (tip : B256) : (mainchain.enforcer tip).ReportsPegData mainchain sidechainId := by
  intro start stop response answered
  simp only [enforcer, reportPegData, EnforcerClient.pegDataRequest, readHash_hexEncode]
    at answered
  cases start with
  | none =>
      cases answered
      exact ⟨by simp, rfl⟩
  | some start =>
      simp only [Option.map_some, readHash_hexEncode] at answered
      split at answered
      · rename_i onBranch
        cases answered
        exact ⟨by simpa using onBranch, rfl⟩
      · cases answered

/-- Block `number` of the mainchain without branches. -/
def linearBlock (number : Nat) : B256 := ⟨toBeBytes 32 number, length_toBeBytes 32 number⟩

def linearNumber (block : B256) : Nat := ofBeBytes block.bytes

def linearParent (block : B256) : Option B256 :=
  if linearNumber block = 0 then none else some (linearBlock (linearNumber block - 1))

theorem linearNumber_linearBlock {number : Nat} (fits : number < 256 ^ 32) :
    linearNumber (linearBlock number) = number :=
  ofBeBytes_toBeBytes 32 number fits

theorem linearNumber_of_parent {child base : B256} (known : linearParent child = some base) :
    linearNumber base < linearNumber child := by
  unfold linearParent at known
  split at known
  · cases known
  · rename_i notRoot
    have bound : linearNumber child < 256 ^ 32 := by
      have general := ofBeBytes_lt child.bytes
      rwa [child.length_eq] at general
    rw [← Option.some.inj known, linearNumber_linearBlock (by omega)]
    omega

/-- The tree without branches: every block but block 0 stands on the block
numbered one less. -/
def linearTree : BlockTree B256 where
  parent := linearParent
  height := linearNumber
  height_of_parent := linearNumber_of_parent

end Mainchain

end Beth
