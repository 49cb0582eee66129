import Beth.Node.EnforcerMessages

/-! # The enforcer client -/

namespace Beth

open Foundation

inductive EnforcerError
  | grpc (status : String)
  | missingField (field : String)
  | invalidHex (text : String)
  | invalidDepositAddress (text : String)
deriving DecidableEq

/-- A BIP300 two-way-peg deposit onto this sidechain. -/
structure Deposit where
  address : Address
  valueSats : UInt64
deriving DecidableEq

inductive WithdrawalBundleStatus
  | submitted
  | succeeded
  | failed
deriving DecidableEq

structure WithdrawalBundleOutcome where
  m6id : Txid
  status : WithdrawalBundleStatus
deriving DecidableEq

def okOr (value : Option α) (failure : EnforcerError) : Except EnforcerError α :=
  match value with
  | some found => .ok found
  | none => .error failure

def ofRpc (response : Except String α) : Except EnforcerError α :=
  match response with
  | .ok value => .ok value
  | .error status => .error (.grpc status)

/-! ## Hexadecimal fields -/

def strip0x (hexStr : String) : String :=
  match hexStr.toList with
  | '0' :: 'x' :: rest => String.ofList rest
  | '0' :: 'X' :: rest => String.ofList rest
  | _ => hexStr

def parseHex32 (hexStr : String) : Except EnforcerError B256 := do
  let bytes ← okOr (hexDecode (strip0x hexStr)) (.invalidHex hexStr)
  okOr (FixedBytes.tryFrom 32 bytes) (.invalidHex hexStr)

/-- `Address::from_str`: an optional `0x` and 40 hexadecimal digits of either
case. -/
def addressFromStr (text : String) : Option Address :=
  let digits := match text.toList with
    | '0' :: 'x' :: rest => rest
    | chars => chars
  (hexDecodeChars digits).bind (FixedBytes.tryFrom 20)

/-- The wire value is the hex of the UTF-8 bytes of the depositor's string,
which must itself be an address. -/
def parseDepositAddress (hexStr : String) : Except EnforcerError Address := do
  let rawBytes ← okOr (hexDecode (strip0x hexStr)) (.invalidDepositAddress hexStr)
  let addressStr ← okOr (String.fromUTF8? rawBytes.toByteArray)
    (.invalidDepositAddress hexStr)
  okOr (addressFromStr addressStr) (.invalidDepositAddress addressStr)

/-- A `ConsensusHex` txid keeps its byte order. -/
def parseTxidConsensus (hexStr : String) : Except EnforcerError Txid := do
  let bytes ← okOr (hexDecode (strip0x hexStr)) (.invalidHex hexStr)
  okOr (FixedBytes.tryFrom 32 bytes) (.invalidHex hexStr)

theorem hexDigit_ne_x (value : Nat) (isDigit : value < 16) :
    hexDigit value ≠ 'x' ∧ hexDigit value ≠ 'X' := by
  have checked : ∀ digit : Fin 16,
      hexDigit digit.val ≠ 'x' ∧ hexDigit digit.val ≠ 'X' := by decide
  exact checked ⟨value, isDigit⟩

/-- Encoded bytes never look like they carry a prefix. -/
@[simp] theorem strip0x_hexEncode (bytes : Bytes) :
    strip0x (hexEncode bytes) = hexEncode bytes := by
  cases bytes with
  | nil => rfl
  | cons byte rest =>
      have lowDigit := hexDigit_ne_x (byte.toNat % 16) (by omega)
      have chars : (hexEncode (byte :: rest)).toList =
          hexDigit (byte.toNat / 16) :: hexDigit (byte.toNat % 16) ::
            rest.flatMap hexByte := by
        simp [hexEncode, hexByte]
      unfold strip0x
      rw [chars]
      split
      · rename_i _ equal
        exact absurd (List.cons.inj (List.cons.inj equal).2).1 lowDigit.1
      · rename_i _ equal
        exact absurd (List.cons.inj (List.cons.inj equal).2).1 lowDigit.2
      · rfl

@[simp] theorem parseHex32_hexEncode (hash : B256) :
    parseHex32 (hexEncode hash.bytes) = .ok hash := by
  simp [parseHex32, okOr]

/-! ## RPC calls -/

namespace EnforcerClient

/-- The hash reported by a chain tip response, as the text on the wire. -/
def tipHex (response : GetChainTipResponse) : Except EnforcerError String := do
  let headerInfo ← okOr response.blockHeaderInfo (.missingField "block_header_info")
  let blockHash ← okOr headerInfo.blockHash (.missingField "block_hash")
  okOr blockHash.hex (.missingField "hex")

def chainTip (enforcer : Enforcer) : Except EnforcerError B256 := do
  let response ← ofRpc enforcer.getChainTip
  let hex ← tipHex response
  parseHex32 hex

def bmmCommitmentSearchAncestors : UInt32 := 16

/-- Search the reported commitments, skipping the absent ones. -/
def anyCommitted (sidechainBlockHash : B256) : List (Option HexField) →
    Except EnforcerError Bool
  | [] => pure false
  | none :: rest => anyCommitted sidechainBlockHash rest
  | some field :: rest =>
      match field.hex with
      | none => anyCommitted sidechainBlockHash rest
      | some hex => do
          let commitment ← parseHex32 hex
          if commitment = sidechainBlockHash then pure true
          else anyCommitted sidechainBlockHash rest

/-- `_mainBlockHash` is only logged. -/
def isCommitted (enforcer : Enforcer) (sidechainBlockHash _mainBlockHash : B256)
    (sidechainId : UInt32) : Except EnforcerError Bool := do
  let tipResponse ← ofRpc enforcer.getChainTip
  let tipHex ← tipHex tipResponse
  let response ← ofRpc (enforcer.getBmmHStarCommitment
    { blockHash := some { hex := some tipHex }
      sidechainId := some sidechainId
      maxAncestors := some bmmCommitmentSearchAncestors })
  match response.result with
  | some (.commitment commitment) =>
      anyCommitted sidechainBlockHash (commitment.commitment ::
        commitment.ancestorCommitments.map fun ancestor => ancestor.commitment)
  | _ => pure false

/-- The request both peg queries send for a range. -/
def pegDataRequest (sidechainId : UInt32) (startBlockHash : Option B256)
    (endBlockHash : B256) : GetTwoWayPegDataRequest where
  sidechainId := some sidechainId
  startBlockHash := startBlockHash.map fun hash => { hex := some (hexEncode hash.bytes) }
  endBlockHash := some { hex := some (hexEncode endBlockHash.bytes) }

/-- Read one event of the deposits loop; other events are skipped. -/
def pushDeposit (deposits : List Deposit) (event : BlockEvent) :
    Except EnforcerError (List Deposit) :=
  match event.event with
  | some (.deposit deposit) => do
      let output ← okOr deposit.output (.missingField "output")
      let valueSats ← okOr output.valueSats (.missingField "value_sats")
      let addressHex ← okOr (output.address.bind fun address => address.hex)
        (.missingField "address")
      let address ← parseDepositAddress addressHex
      pure (deposits ++ [{ address := address, valueSats := valueSats }])
  | _ => pure deposits

/-- Read one event of the outcomes loop. A bundle event without a status is
skipped, after its m6id was read. -/
def pushOutcome (outcomes : List WithdrawalBundleOutcome) (event : BlockEvent) :
    Except EnforcerError (List WithdrawalBundleOutcome) :=
  match event.event with
  | some (.withdrawalBundle bundleEvent) => do
      let m6idHex ← okOr (bundleEvent.m6id.bind fun m6id => m6id.hex)
        (.missingField "m6id")
      let m6id ← parseTxidConsensus m6idHex
      match bundleEvent.event.bind fun event => event.event with
      | none => pure outcomes
      | some .submitted => pure (outcomes ++ [{ m6id := m6id, status := .submitted }])
      | some .succeeded => pure (outcomes ++ [{ m6id := m6id, status := .succeeded }])
      | some .failed => pure (outcomes ++ [{ m6id := m6id, status := .failed }])
  | _ => pure outcomes

/-- The loop over blocks and their events that both peg queries run. -/
def collectEvents (push : List α → BlockEvent → Except EnforcerError (List α))
    (blocks : List PegDataBlock) : Except EnforcerError (List α) :=
  blocks.foldlM (fun collected block =>
    match block.blockInfo with
    | none => pure collected
    | some blockInfo => blockInfo.events.foldlM push collected) []

def deposits (enforcer : Enforcer) (sidechainId : UInt32)
    (startBlockHash : Option B256) (endBlockHash : B256) :
    Except EnforcerError (List Deposit) := do
  let response ← ofRpc (enforcer.getTwoWayPegData
    (pegDataRequest sidechainId startBlockHash endBlockHash))
  collectEvents pushDeposit response.blocks

def withdrawalBundleEvents (enforcer : Enforcer) (sidechainId : UInt32)
    (startBlockHash : Option B256) (endBlockHash : B256) :
    Except EnforcerError (List WithdrawalBundleOutcome) := do
  let response ← ofRpc (enforcer.getTwoWayPegData
    (pegDataRequest sidechainId startBlockHash endBlockHash))
  collectEvents pushOutcome response.blocks

/-! ## What a peg query reads -/

/-- Reading an event only adds to what was collected before. -/
def Appends (push : List α → BlockEvent → Except EnforcerError (List α)) : Prop :=
  ∀ collected event, push collected event = (collected ++ ·) <$> push [] event

theorem appends_pushDeposit : Appends pushDeposit := by
  intro collected event
  unfold pushDeposit
  cases event.event with
  | none => simp [pure, Except.pure]
  | some pegEvent =>
      cases pegEvent with
      | withdrawalBundle bundle => simp [pure, Except.pure]
      | deposit deposit =>
          dsimp only
          cases okOr deposit.output (.missingField "output") with
          | error failure => rfl
          | ok output =>
              simp only [ok_bind]
              cases okOr output.valueSats (.missingField "value_sats") with
              | error failure => rfl
              | ok valueSats =>
                  simp only [ok_bind]
                  cases okOr (output.address.bind fun address => address.hex)
                      (.missingField "address") with
                  | error failure => rfl
                  | ok addressHex =>
                      simp only [ok_bind]
                      cases parseDepositAddress addressHex <;> rfl

theorem appends_pushOutcome : Appends pushOutcome := by
  intro collected event
  unfold pushOutcome
  cases event.event with
  | none => simp [pure, Except.pure]
  | some pegEvent =>
      cases pegEvent with
      | deposit deposit => simp [pure, Except.pure]
      | withdrawalBundle bundle =>
          dsimp only
          cases okOr (bundle.m6id.bind fun m6id => m6id.hex) (.missingField "m6id") with
          | error failure => rfl
          | ok m6idHex =>
              simp only [ok_bind]
              cases parseTxidConsensus m6idHex with
              | error failure => rfl
              | ok m6id =>
                  simp only [ok_bind]
                  cases bundle.event.bind fun event => event.event with
                  | none => simp [pure, Except.pure]
                  | some status => cases status <;> rfl

section Collecting

variable {α : Type} {push : List α → BlockEvent → Except EnforcerError (List α)}

theorem foldlM_eq_mapM (appends : Appends push) (events : List BlockEvent)
    (collected : List α) :
    events.foldlM push collected =
      (fun read => collected ++ read.flatten) <$> events.mapM (push []) := by
  induction events generalizing collected with
  | nil => simp [pure, Except.pure]
  | cons event rest induction =>
      rw [List.foldlM_cons, List.mapM_cons, appends]
      cases push [] event with
      | error failure => rfl
      | ok read =>
          simp only [Except.map_ok, ok_bind, induction]
          cases rest.mapM (push []) with
          | error failure => rfl
          | ok others => simp [pure, Except.pure]

theorem foldlM_blocks_eq (blocks : List PegDataBlock) (collected : List α) :
    blocks.foldlM (fun collected block =>
        match block.blockInfo with
        | none => pure collected
        | some blockInfo => blockInfo.events.foldlM push collected) collected =
      (blocks.flatMap PegDataBlock.events).foldlM push collected := by
  induction blocks generalizing collected with
  | nil => rfl
  | cons block rest induction =>
      rw [List.foldlM_cons, List.flatMap_cons, List.foldlM_append]
      simp only [induction]
      cases infoEq : block.blockInfo <;> simp [PegDataBlock.events, infoEq]

/-- A peg query reads every event of every block, in order. -/
theorem collectEvents_eq_mapM (appends : Appends push) (blocks : List PegDataBlock) :
    collectEvents push blocks =
      List.flatten <$> (blocks.flatMap PegDataBlock.events).mapM (push []) := by
  rw [collectEvents, foldlM_blocks_eq, foldlM_eq_mapM appends]
  simp

/-- Consecutive ranges read one after the other are read as one. -/
theorem collectEvents_append (appends : Appends push) {earlier later : List PegDataBlock}
    {first second : List α} (firstRead : collectEvents push earlier = .ok first)
    (secondRead : collectEvents push later = .ok second) :
    collectEvents push (earlier ++ later) = .ok (first ++ second) := by
  rw [collectEvents_eq_mapM appends] at firstRead secondRead ⊢
  rw [List.flatMap_append, List.mapM_append]
  cases firstEq : (earlier.flatMap PegDataBlock.events).mapM (push []) with
  | error failure => simp [firstEq] at firstRead
  | ok firstItems =>
      cases secondEq : (later.flatMap PegDataBlock.events).mapM (push []) with
      | error failure => simp [secondEq] at secondRead
      | ok secondItems =>
          rw [firstEq] at firstRead
          rw [secondEq] at secondRead
          cases firstRead
          cases secondRead
          simp [pure, Except.pure]

end Collecting

end EnforcerClient

end Beth
