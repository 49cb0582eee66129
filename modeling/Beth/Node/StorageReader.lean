import Beth.Contracts.StorageLayout
import Beth.Node.WithdrawalBundle.Lifecycle

/-! # Reading raw storage slots

How `withdrawal_bundle.rs` reads the queue from the slots of a state provider. On
slots that are laid out as the contract lays them out it returns the fields of
the queue. -/

namespace Beth

open Foundation WithdrawalRequestQueue

namespace StorageReader

/-! ## The reader -/

/-- `StateProvider::storage` for the address of the queue. -/
abbrev StateProvider := B256 → Except String (Option U256)

def requestCountSlot : B256 := .replicate 32 0

def requestsMappingSlot : UInt64 := 1

variable (keccak256 : Bytes → B256) (state : StateProvider)

def requestsEntrySlot (index : UInt64) : B256 :=
  keccak256 (List.replicate 24 0 ++ toBeBytes 8 index.toNat ++
    (List.replicate 24 0 ++ toBeBytes 8 requestsMappingSlot.toNat))

def addSlot (slot : B256) (offset : UInt64) : B256 :=
  b256OfWord (wordOfBytes slot.bytes + .ofNat 256 offset.toNat)

/-- The word at a slot, zero where there is none. -/
def readWord (slot : B256) : Except String U256 := do
  let value ← state slot
  pure (value.getD 0)

def readU64 (slot : B256) : Except String UInt64 := do
  let value ← readWord state slot
  pure (clampU64 value.toNat)

/-- The data itself where it is inline, or else its length. -/
def decodeBytesHead (word : U256) : Except UInt64 Bytes :=
  let wordBytes := toBeBytes 32 word.toNat
  let last := wordBytes.getD 31 0
  if last &&& 1 = 0 then .ok (wordBytes.take (last / 2).toNat)
  else .error (clampU64 (word >>> 1).toNat)

/-- The loop over the words of a long value. -/
def readChunks (length : Nat) (chunkSlot : B256) (data : Bytes) : Except String Bytes :=
  if data.length < length then do
    let chunk ← readWord state chunkSlot
    readChunks length (addSlot chunkSlot 1) (data ++ toBeBytes 32 chunk.toNat)
  else .ok data
termination_by length - data.length
decreasing_by
  rw [List.length_append, length_toBeBytes]
  omega

def readDynamicBytes (slot : B256) : Except String Bytes := do
  let word ← readWord state slot
  match decodeBytesHead word with
  | .ok short => pure short
  | .error length => do
      let data ← readChunks state length.toNat (keccak256 slot.bytes) []
      pure (data.take length.toNat)

def statusOfCode (code : UInt64) : RequestStatus :=
  if code = 0 then .pending
  else if code = 1 then .bundled
  else if code = 2 then .confirmed
  else .refunded

/-- A pending request has no bundle. -/
def readBundleM6id (status : RequestStatus) (slot : B256) : Except String (Option Txid) :=
  match status with
  | .pending => pure none
  | _ => do
      let word ← readWord state slot
      pure (some (b256OfWord word))

/-- One iteration of the loop over the indices. The requester is not read. -/
def readRequest (index : UInt64) : Except String RequestEntry := do
  let base := requestsEntrySlot keccak256 index
  let valueSats ← readU64 state (addSlot base 1)
  let mainFeeSats ← readU64 state (addSlot base 2)
  let btcDestination ← readDynamicBytes keccak256 state (addSlot base 3)
  let code ← readU64 state (addSlot base 4)
  let bundleM6id ← readBundleM6id state (statusOfCode code) (addSlot base 5)
  pure
    { index := index
      valueSats := valueSats
      mainFeeSats := mainFeeSats
      btcDestination := btcDestination
      status := statusOfCode code
      bundleM6id := bundleM6id }

def readAllRequests : Except String (List RequestEntry) := do
  let requestCount ← readU64 state requestCountSlot
  (List.range requestCount.toNat).mapM fun index =>
    readRequest keccak256 state (UInt64.ofNat index)

def readPendingWithdrawals : Except String (List PendingWithdrawal) := do
  let allRequests ← readAllRequests keccak256 state
  pure (pendingOf allRequests)

/-! ## The head of a `bytes` value -/

theorem getD_last (front : Bytes) (last : UInt8) (wide : front.length = 31) :
    (front ++ [last]).getD 31 0 = last := by
  rw [List.getD_eq_getElem?_getD, ← wide, List.getElem?_concat_length, Option.getD_some]

theorem low_bit_ofNat (value : Nat) :
    UInt8.ofNat value &&& 1 = 0 ↔ value % 2 = 0 := by
  rw [← UInt8.toNat_inj, UInt8.toNat_and, UInt8.toNat_ofNat']
  change (value % 256) &&& 1 = 0 ↔ _
  rw [Nat.and_one_is_mod]
  omega

/-- A value of up to 31 bytes stands in its head. -/
theorem decodeBytesHead_short {data : Bytes} (short : data.length ≤ 31) :
    decodeBytesHead (bytesHead data) = .ok data := by
  have front : (data ++ List.replicate (31 - data.length) 0).length = 31 := by
    rw [List.length_append, List.length_replicate]
    omega
  have wide : (data ++ List.replicate (31 - data.length) 0 ++
      [UInt8.ofNat (2 * data.length)]).length = 32 := by
    rw [List.length_append, front, List.length_singleton]
  have even : UInt8.ofNat (2 * data.length) &&& 1 = 0 :=
    (low_bit_ofNat _).mpr (by omega)
  have half : (UInt8.ofNat (2 * data.length) / 2).toNat = data.length := by
    rw [UInt8.toNat_div, UInt8.toNat_ofNat']
    change 2 * data.length % 256 / 2 = _
    omega
  rw [bytesHead, if_pos short, decodeBytesHead, toBeBytes_wordOfBytes wide,
    getD_last _ _ front, if_pos even, half, List.append_assoc, List.take_left]

/-- The head of a longer value is its length. -/
theorem decodeBytesHead_long {data : Bytes} (long : 31 < data.length)
    (fits : data.length < 2 ^ 64) :
    decodeBytesHead (bytesHead data) = .error (UInt64.ofNat data.length) := by
  have number : (BitVec.ofNat 256 (2 * data.length + 1)).toNat = 2 * data.length + 1 := by
    rw [BitVec.toNat_ofNat]
    omega
  have odd : ¬ UInt8.ofNat (2 * data.length + 1) &&& 1 = 0 := by
    rw [low_bit_ofNat]
    omega
  have half : (BitVec.ofNat 256 (2 * data.length + 1) >>> 1).toNat = data.length := by
    rw [BitVec.toNat_ushiftRight, number, Nat.shiftRight_one]
    omega
  rw [bytesHead, if_neg (Nat.not_le.mpr long), decodeBytesHead, half, number]
  change (if (toBeBytes 31 ((2 * data.length + 1) / 256) ++
    [UInt8.ofNat (2 * data.length + 1)]).getD 31 0 &&& 1 = 0 then _ else _) = _
  rw [getD_last _ _ (length_toBeBytes 31 _), if_neg odd, clampU64, if_pos fits]

/-! ## Slots laid out by the contract -/

/-- The provider answers with these slots; it may leave zero words out. -/
def Provides (state : StateProvider) (slots : Slots) : Prop :=
  ∀ slot, ∃ value, state slot = .ok value ∧ value.getD 0 = slots slot

theorem readWord_of_provides {state : StateProvider} {slots : Slots}
    (provides : Provides state slots) (slot : B256) :
    readWord state slot = .ok (slots slot) := by
  rcases provides slot with ⟨value, answered, isWord⟩
  rw [readWord, answered, ok_bind, isWord]
  rfl

theorem requestsEntrySlot_eq (keccak256 : Bytes → B256) {index : Nat}
    (fits : index < 2 ^ 64) :
    requestsEntrySlot keccak256 (UInt64.ofNat index) = entrySlot keccak256 index := by
  have indexWord : toBeBytes 32 index = List.replicate 24 0 ++ toBeBytes 8 index :=
    toBeBytes_widen 24 8 (fits.trans_eq (by norm_num))
  have mappingWord : toBeBytes 32 1 = List.replicate 24 0 ++ toBeBytes 8 1 :=
    toBeBytes_widen 24 8 (by norm_num)
  rw [requestsEntrySlot, entrySlot, indexWord, mappingWord, UInt64.toNat_ofNat',
    Nat.mod_eq_of_lt fits]
  rfl

theorem addSlot_eq (slot : B256) (offset : UInt64) :
    addSlot slot offset = slotAt slot offset.toNat := rfl

section Chunks

variable {state : StateProvider} {data : Bytes} {base : B256}

/-- Truncating what was read leaves the data. -/
theorem take_of_read {read padding : Nat} (enough : data.length ≤ read) :
    (data.take read ++ List.replicate padding 0).take data.length = data := by
  have whole : data.take read = data := List.take_of_length_le enough
  rw [whole, List.take_left]

/-- The loop from any word on: what it has read is the start of the data, with
zeros behind the end of the data only. -/
theorem readChunks_from (long : 31 < data.length)
    (pieces : ∀ piece, piece < pieceCount data →
      readWord state (slotAt base piece) = .ok (bytesPiece data piece))
    (remaining piece padding : Nat) (enough : data.length ≤ 32 * (piece + remaining))
    (acc : Bytes) (accLength : acc.length = 32 * piece)
    (accIs : acc = data.take (32 * piece) ++ List.replicate padding 0) :
    ∃ read, readChunks state data.length (slotAt base piece) acc = .ok read ∧
      read.take data.length = data := by
  induction remaining generalizing piece padding acc with
  | zero =>
      rw [readChunks, if_neg (by omega)]
      exact ⟨acc, rfl, accIs ▸ take_of_read (by omega)⟩
  | succ remaining induction =>
      rw [readChunks]
      by_cases more : acc.length < data.length
      · have inside : piece < pieceCount data := by
          rw [pieceCount, if_neg (by omega)]
          omega
        have noPadding : padding = 0 := by
          have lengths := congrArg List.length accIs
          rw [List.length_append, List.length_take, List.length_replicate] at lengths
          omega
        have wide : (padded ((data.drop (32 * piece)).take 32)).length = 32 := by
          rw [padded, List.length_append, List.length_replicate, List.length_take]
          omega
        rw [if_pos more, pieces piece inside, ok_bind, bytesPiece, toBeBytes_wordOfBytes wide,
          addSlot_eq, slotAt_slotAt]
        apply induction (piece + 1) (32 - ((data.drop (32 * piece)).take 32).length) (by omega)
        · rw [List.length_append, wide, accLength]
          omega
        · rw [accIs, noPadding, List.replicate_zero, List.append_nil, padded,
            ← List.append_assoc, ← List.take_add, Nat.mul_succ]
      · rw [if_neg more]
        exact ⟨acc, rfl, accIs ▸ take_of_read (by omega)⟩

theorem readDynamicBytes_eq {keccak256 : Bytes → B256} {slot : B256}
    (fits : data.length < 2 ^ 64)
    (head : readWord state slot = .ok (bytesHead data))
    (pieces : ∀ piece, piece < pieceCount data →
      readWord state (slotAt (keccak256 slot.bytes) piece) = .ok (bytesPiece data piece)) :
    readDynamicBytes keccak256 state slot = .ok data := by
  rw [readDynamicBytes, head, ok_bind]
  by_cases short : data.length ≤ 31
  · rw [decodeBytesHead_short short]
    rfl
  · have long : 31 < data.length := Nat.not_le.mp short
    have sameLength : (UInt64.ofNat data.length).toNat = data.length := by
      rw [UInt64.toNat_ofNat', Nat.mod_eq_of_lt fits]
    rw [decodeBytesHead_long long fits]
    dsimp only
    rcases readChunks_from long pieces data.length 0 0 (by omega) [] rfl (by simp) with
      ⟨read, returned, isData⟩
    rw [slotAt_zero] at returned
    rw [sameLength, returned, ok_bind, isData]
    rfl

end Chunks

/-! ## Whole entries -/

section Entries

variable {keccak256 : Bytes → B256} {state : StateProvider} {slots : Slots} {queue : Storage}
  {index : Nat}

theorem readWord_location (laidOut : queue.LaidOut keccak256 slots)
    (provides : Provides state slots) (location : Location)
    (inUse : location ∈ queue.locations) :
    readWord state (location.slot keccak256) = .ok (queue.word location) := by
  rw [readWord_of_provides provides, laidOut.kept location inUse]

/-- A number of the entry is read as it is, in the width of the reader. -/
theorem readU64_field (laidOut : queue.LaidOut keccak256 slots)
    (provides : Provides state slots) (queued : index < queue.requestCount) (field : Field)
    {value : Nat} (isNumber : (queue.requests index).word field = .ofNat 256 value)
    (fits : value < 2 ^ 64) :
    readU64 state (fieldSlot keccak256 index field) = .ok (clampU64 value) := by
  have read := readWord_location laidOut provides (.entry index field) (Or.inl queued)
  change readWord state (fieldSlot keccak256 index field) =
    .ok ((queue.requests index).word field) at read
  have unchanged : (BitVec.ofNat 256 value).toNat = value := by
    rw [BitVec.toNat_ofNat]
    omega
  rw [readU64, read, ok_bind, isNumber, unchanged]
  rfl

theorem statusOfCode_code (status : Status) :
    statusOfCode (clampU64 status.code) = .ofStatus status := by
  cases status <;> decide

theorem readBundleM6id_eq (laidOut : queue.LaidOut keccak256 slots)
    (provides : Provides state slots) (queued : index < queue.requestCount) :
    readBundleM6id state (.ofStatus (queue.requests index).status)
        (fieldSlot keccak256 index .bundleM6id) =
      .ok (readEntry queue index).bundleM6id := by
  have read : readWord state (fieldSlot keccak256 index .bundleM6id) =
      .ok (wordOfBytes (queue.requests index).bundleM6id.bytes) :=
    readWord_location laidOut provides (.entry index .bundleM6id) (Or.inl queued)
  unfold readEntry
  dsimp only
  cases (queue.requests index).status with
  | pending => rfl
  | bundled | confirmed | refunded =>
      change (readWord state _ >>= _) = _
      rw [read, ok_bind, b256OfWord_wordOfBytes]
      rfl

theorem readDestination_eq (laidOut : queue.LaidOut keccak256 slots)
    (provides : Provides state slots) (short : queue.ShortDestinations)
    (queued : index < queue.requestCount) :
    readDynamicBytes keccak256 state (fieldSlot keccak256 index .btcDestination) =
      .ok (queue.requests index).btcDestination := by
  apply readDynamicBytes_eq (short index queued)
  · exact readWord_location laidOut provides (.entry index .btcDestination)
      (Or.inl queued)
  · intro piece inside
    have read := readWord_location laidOut provides (.destination index piece)
      inside
    rw [Storage.word, if_pos inside] at read
    exact read

theorem readRequest_eq (laidOut : queue.LaidOut keccak256 slots)
    (provides : Provides state slots) (short : queue.ShortDestinations)
    (queued : index < queue.requestCount) (fits : index < 2 ^ 64) :
    readRequest keccak256 state (UInt64.ofNat index) = .ok (readEntry queue index) := by
  have amounts := (queue.requests index).fits
  have codeFits : (queue.requests index).status.code < 2 ^ 64 := by
    cases (queue.requests index).status <;> decide
  have value := readU64_field laidOut provides queued .valueSats rfl (by omega)
  have fee := readU64_field laidOut provides queued .mainFeeSats rfl (by omega)
  have code := readU64_field laidOut provides queued .status rfl codeFits
  rw [readRequest, requestsEntrySlot_eq keccak256 fits]
  change (readU64 state (fieldSlot keccak256 index .valueSats) >>= _) = _
  rw [value, ok_bind]
  change (readU64 state (fieldSlot keccak256 index .mainFeeSats) >>= _) = _
  rw [fee, ok_bind]
  change (readDynamicBytes keccak256 state (fieldSlot keccak256 index .btcDestination) >>= _) = _
  rw [readDestination_eq laidOut provides short queued, ok_bind]
  change (readU64 state (fieldSlot keccak256 index .status) >>= _) = _
  rw [code, ok_bind, statusOfCode_code]
  change (readBundleM6id state _ (fieldSlot keccak256 index .bundleM6id) >>= _) = _
  rw [readBundleM6id_eq laidOut provides queued]
  rfl

/-- The reader returns what the contract stored. -/
theorem readAllRequests_eq (laidOut : queue.LaidOut keccak256 slots)
    (provides : Provides state slots) (short : queue.ShortDestinations)
    (fits : queue.requestCount < 2 ^ 64) :
    readAllRequests keccak256 state = .ok (Beth.readAllRequests queue) := by
  have count : readWord state (b256OfWord 0) = .ok (.ofNat 256 queue.requestCount) :=
    readWord_location laidOut provides .requestCount trivial
  have countSlot : requestCountSlot = b256OfWord 0 := by decide
  have unchanged : (BitVec.ofNat 256 queue.requestCount).toNat = queue.requestCount := by
    rw [BitVec.toNat_ofNat]
    omega
  rw [readAllRequests, readU64, countSlot, count, ok_bind, unchanged]
  change List.mapM _ (List.range (clampU64 queue.requestCount).toNat) = _
  apply mapM_eq_ok
  intro index member
  rw [List.mem_range, toNat_clampU64 fits] at member
  exact readRequest_eq laidOut provides short member (member.trans fits)

end Entries

end StorageReader

end Beth
