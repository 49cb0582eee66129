import Beth.Contracts.RequestWithdrawal
import Beth.Foundation.Addressing

/-! # The queue in storage slots

Where `WithdrawalRequestQueue` keeps its fields: `requestCount` at slot 0, the
entry of an index from `keccak256(abi.encode(index, 1))`, and a destination of
more than 31 bytes in pieces from the hash of its own slot. Each assignment of
the contract is the list of words it stores. -/

namespace Beth

open Foundation

/-! ## Words and slots -/

abbrev U256 := BitVec 256

def wordOfBytes (bytes : Bytes) : U256 := .ofNat 256 (ofBeBytes bytes)

/-- `to_be_bytes::<32>()`. -/
def b256OfWord (word : U256) : B256 := ⟨toBeBytes 32 word.toNat, length_toBeBytes 32 _⟩

theorem wordOfBytes_b256OfWord (word : U256) : wordOfBytes (b256OfWord word).bytes = word := by
  rw [wordOfBytes, b256OfWord, ofBeBytes_toBeBytes 32 word.toNat word.isLt,
    BitVec.ofNat_toNat, BitVec.setWidth_eq]

theorem toBeBytes_wordOfBytes {bytes : Bytes} (wide : bytes.length = 32) :
    toBeBytes 32 (wordOfBytes bytes).toNat = bytes := by
  have bound : ofBeBytes bytes < 2 ^ 256 :=
    (ofBeBytes_lt bytes).trans_eq (by rw [wide]; norm_num)
  rw [wordOfBytes, BitVec.toNat_ofNat, Nat.mod_eq_of_lt bound]
  have back := toBeBytes_ofBeBytes bytes
  rw [wide] at back
  exact back

theorem b256OfWord_wordOfBytes (value : B256) : b256OfWord (wordOfBytes value.bytes) = value :=
  FixedBytes.ext (toBeBytes_wordOfBytes value.length_eq)

/-- A hash function that knows the digests of some preimages. -/
def digestOf (digests : List (Bytes × Nat)) (preimage : Bytes) : B256 :=
  match digests.lookup preimage with
  | some digest => b256OfWord (.ofNat 256 digest)
  | none => .replicate 32 0

/-- Slot arithmetic is modulo `2^256`. -/
def slotAt (base : B256) (offset : Nat) : B256 :=
  b256OfWord (wordOfBytes base.bytes + .ofNat 256 offset)

theorem slotAt_slotAt (base : B256) (first second : Nat) :
    slotAt (slotAt base first) second = slotAt base (first + second) := by
  rw [slotAt, slotAt, slotAt, wordOfBytes_b256OfWord, BitVec.ofNat_add, BitVec.add_assoc]

theorem slotAt_zero (base : B256) : slotAt base 0 = base := by
  rw [slotAt, BitVec.add_zero, b256OfWord_wordOfBytes]

/-- The storage of the contract, a word for each slot. -/
abbrev Slots := B256 → U256

namespace WithdrawalRequestQueue

/-! ## Locations -/

/-- The fields of a `Request`, in the order of its declaration. -/
inductive Field
  | requester
  | valueSats
  | mainFeeSats
  | btcDestination
  | status
  | bundleM6id
deriving DecidableEq

def Field.offset : Field → Nat
  | .requester => 0
  | .valueSats => 1
  | .mainFeeSats => 2
  | .btcDestination => 3
  | .status => 4
  | .bundleM6id => 5

def Field.all : List Field :=
  [.requester, .valueSats, .mainFeeSats, .btcDestination, .status, .bundleM6id]

/-- What a word of the storage is for. -/
inductive Location
  | requestCount
  | entry (index : Nat) (field : Field)
  | destination (index piece : Nat)
deriving DecidableEq

/-- `keccak256(abi.encode(index, uint256(1)))`. -/
def entrySlot (keccak256 : Bytes → B256) (index : Nat) : B256 :=
  keccak256 (toBeBytes 32 index ++ toBeBytes 32 1)

def fieldSlot (keccak256 : Bytes → B256) (index : Nat) (field : Field) : B256 :=
  slotAt (entrySlot keccak256 index) field.offset

def Location.slot (keccak256 : Bytes → B256) : Location → B256
  | .requestCount => b256OfWord 0
  | .entry index field => fieldSlot keccak256 index field
  | .destination index piece =>
      slotAt (keccak256 (fieldSlot keccak256 index .btcDestination).bytes) piece

/-! ## What is kept at a location -/

/-- Zero bytes up to a full word. -/
def padded (bytes : Bytes) : Bytes := bytes ++ List.replicate (32 - bytes.length) 0

/-- The word of a `bytes` field itself: up to 31 bytes stand in it, above the
doubled length in its last byte; of a longer value it has the length alone. -/
def bytesHead (data : Bytes) : U256 :=
  if data.length ≤ 31 then
    wordOfBytes (data ++ List.replicate (31 - data.length) 0 ++ [UInt8.ofNat (2 * data.length)])
  else .ofNat 256 (2 * data.length + 1)

/-- How many words a `bytes` value takes besides its head. -/
def pieceCount (data : Bytes) : Nat :=
  if data.length ≤ 31 then 0 else (data.length + 31) / 32

def bytesPiece (data : Bytes) (piece : Nat) : U256 :=
  wordOfBytes (padded ((data.drop (32 * piece)).take 32))

/-- The `STATUS_*` constants as numbers. -/
def Status.code : Status → Nat
  | .pending => 0
  | .bundled => 1
  | .confirmed => 2
  | .refunded => 3

def Request.word (request : Request) : Field → U256
  | .requester => wordOfBytes request.requester.bytes
  | .valueSats => .ofNat 256 request.valueSats
  | .mainFeeSats => .ofNat 256 request.mainFeeSats
  | .btcDestination => bytesHead request.btcDestination
  | .status => .ofNat 256 request.status.code
  | .bundleM6id => wordOfBytes request.bundleM6id.bytes

namespace Storage

def word (storage : Storage) : Location → U256
  | .requestCount => .ofNat 256 storage.requestCount
  | .entry index field => (storage.requests index).word field
  | .destination index piece =>
      if piece < pieceCount (storage.requests index).btcDestination then
        bytesPiece (storage.requests index).btcDestination piece
      else 0

/-- The locations in use: the count, every entry that was queued or marked, and
the pieces of its destination. -/
def locations (storage : Storage) : Set Location := fun location =>
  match location with
  | .requestCount => True
  | .entry index _ =>
      index < storage.requestCount ∨ (storage.requests index).status ≠ .pending
  | .destination index piece =>
      piece < pieceCount (storage.requests index).btcDestination

/-- The slots of the locations in use do not overlap. -/
def SlotsDistinct (keccak256 : Bytes → B256) (storage : Storage) : Prop :=
  Set.InjOn (Location.slot keccak256) storage.locations

/-- The slots hold the fields of the storage and nothing else. -/
def LaidOut (keccak256 : Bytes → B256) (storage : Storage) (slots : Slots) : Prop :=
  Keeps (Location.slot keccak256) 0 storage.locations storage.word slots

/-- An index that was never queued has nothing but a lifecycle mark, if that. -/
def UnqueuedBlank (storage : Storage) : Prop :=
  ∀ index, storage.requestCount ≤ index →
    Request.unwritten.SameWithdrawal (storage.requests index) ∧
      ((storage.requests index).status = .pending → storage.requests index = .unwritten)

/-- Every queued destination passed the decoder of `requestWithdrawal`. -/
def ShortDestinations (storage : Storage) : Prop :=
  ∀ index, index < storage.requestCount →
    (storage.requests index).btcDestination.length < 2 ^ 64

/-- The storage with a request appended. -/
def append (storage : Storage) (request : Request) : Storage :=
  { storage.setRequest storage.requestCount request with
    requestCount := storage.requestCount + 1 }

end Storage

/-! ## What an assignment stores -/

def entryWrites (index : Nat) (request : Request) (fields : List Field) :
    List (Location × U256) :=
  fields.map fun field => (.entry index field, request.word field)

/-- `requestCount++` and `requests[index] = Request(..)`. The entry was blank
before, so no longer destination has to be cleared. -/
def appendWrites (index : Nat) (request : Request) : List (Location × U256) :=
  (.requestCount, .ofNat 256 (index + 1)) ::
    entryWrites index request Field.all ++
      (List.range (pieceCount request.btcDestination)).map fun piece =>
        (.destination index piece, bytesPiece request.btcDestination piece)

/-! ## Blank locations -/

theorem word_unwritten (field : Field) : Request.unwritten.word field = 0 := by
  cases field <;> decide

theorem word_eq_zero_of_not_mem {storage : Storage} (blank : storage.UnqueuedBlank)
    {location : Location} (unused : location ∉ storage.locations) :
    storage.word location = 0 := by
  cases location with
  | requestCount => exact absurd trivial unused
  | entry index field =>
      have parts := not_or.mp unused
      change (storage.requests index).word field = 0
      rw [(blank index (Nat.not_lt.mp parts.1)).2 (not_not.mp parts.2)]
      exact word_unwritten field
  | destination index piece => exact if_neg unused

theorem unqueuedBlank_initial : Storage.initial.UnqueuedBlank := by
  intro index _
  exact ⟨.refl _, fun _ => rfl⟩

theorem Storage.UnqueuedBlank.append {storage : Storage} (blank : storage.UnqueuedBlank)
    (request : Request) : (storage.append request).UnqueuedBlank := by
  intro index beyond
  change storage.requestCount + 1 ≤ index at beyond
  have unchanged : (storage.append request).requests index = storage.requests index :=
    Storage.setRequest_of_ne _ _ (by omega)
  rw [unchanged]
  exact blank index (by omega)

/-- A lifecycle change leaves the withdrawal and moves on from pending. -/
theorem Storage.UnqueuedBlank.setRequest {storage : Storage} (blank : storage.UnqueuedBlank)
    {index : Nat} {request : Request}
    (same : (storage.requests index).SameWithdrawal request)
    (marked : request.status ≠ .pending) :
    (storage.setRequest index request).UnqueuedBlank := by
  intro other beyond
  by_cases here : other = index
  · subst here
    rw [Storage.setRequest_same]
    exact ⟨(blank other beyond).1.trans same, fun pending => absurd pending marked⟩
  · rw [Storage.setRequest_of_ne _ _ here]
    exact blank other beyond

/-! ## Assignments keep the layout -/

theorem laidOut_initial (keccak256 : Bytes → B256) :
    Storage.initial.LaidOut keccak256 fun _ => 0 where
  kept := fun location _ => by
    cases location with
    | requestCount => rfl
    | entry index field => exact (word_unwritten field).symm
    | destination index piece => rfl
  elsewhere := fun _ _ => rfl

theorem Storage.SlotsDistinct.of_subset {keccak256 : Bytes → B256} {before after : Storage}
    (distinct : after.SlotsDistinct keccak256) (grown : before.locations ⊆ after.locations) :
    before.SlotsDistinct keccak256 :=
  Set.InjOn.mono grown distinct

section Assignments

variable {keccak256 : Bytes → B256} {storage : Storage} {slots : Slots}

theorem locations_append (request : Request) (blank : storage.UnqueuedBlank) :
    storage.locations ⊆ (storage.append request).locations := by
  intro location inUse
  have unchanged : ∀ index, index ≠ storage.requestCount →
      (storage.append request).requests index = storage.requests index := fun index different =>
    Storage.setRequest_of_ne _ _ different
  cases location with
  | requestCount => trivial
  | entry index field =>
      change index < storage.requestCount + 1 ∨ _
      change index < storage.requestCount ∨ _ at inUse
      by_cases atEnd : index = storage.requestCount
      · exact Or.inl (by omega)
      · rw [unchanged index atEnd]
        exact inUse.imp_left fun queued => by omega
  | destination index piece =>
      change piece < pieceCount (storage.requests index).btcDestination at inUse
      change piece < pieceCount ((storage.append request).requests index).btcDestination
      by_cases atEnd : index = storage.requestCount
      · rw [← (blank index atEnd.ge).1.2.2.2] at inUse
        exact absurd inUse (Nat.not_lt_zero _)
      · rw [unchanged index atEnd]
        exact inUse

theorem laidOut_append (laidOut : storage.LaidOut keccak256 slots)
    (blank : storage.UnqueuedBlank) (request : Request)
    (distinct : (storage.append request).SlotsDistinct keccak256) :
    (storage.append request).LaidOut keccak256
      (storeAll (Location.slot keccak256) (appendWrites storage.requestCount request)
        slots) := by
  have newest : (storage.append request).requests storage.requestCount = request :=
    Storage.setRequest_same _ _ _
  apply laidOut.storeAll (locations_append request blank) distinct
  · intro write member
    rcases List.mem_cons.mp member with isCount | member
    · subst isCount
      exact ⟨trivial, rfl⟩
    rcases List.mem_append.mp member with inFields | inPieces
    · rcases List.mem_map.mp inFields with ⟨field, _, isWrite⟩
      subst isWrite
      refine ⟨Or.inl (Nat.lt_succ_self _), ?_⟩
      change request.word field = ((storage.append request).requests _).word field
      rw [newest]
    · rcases List.mem_map.mp inPieces with ⟨piece, inRange, isWrite⟩
      subst isWrite
      have within := List.mem_range.mp inRange
      constructor
      · change piece < pieceCount ((storage.append request).requests _).btcDestination
        rw [newest]
        exact within
      · change _ = if piece < pieceCount ((storage.append request).requests _).btcDestination
          then bytesPiece ((storage.append request).requests _).btcDestination piece else 0
        rw [newest, if_pos within]
  · intro location inUse notWritten
    have unchanged : ∀ index, index ≠ storage.requestCount →
        (storage.append request).requests index = storage.requests index :=
      fun index different => Storage.setRequest_of_ne _ _ different
    cases location with
    | requestCount => exact absurd rfl (notWritten (.requestCount, _) (List.mem_cons_self))
    | entry index field =>
        have different : index ≠ storage.requestCount := fun atEnd => by
          apply notWritten (.entry index field, request.word field)
          · rw [atEnd]
            apply List.mem_cons_of_mem
            apply List.mem_append_left
            exact List.mem_map.mpr ⟨field, by cases field <;> decide, rfl⟩
          · rfl
        change ((storage.append request).requests index).word field = _
        rw [unchanged index different]
        rfl
    | destination index piece =>
        have different : index ≠ storage.requestCount := fun atEnd => by
          subst atEnd
          change piece < pieceCount ((storage.append request).requests _).btcDestination
            at inUse
          rw [newest] at inUse
          apply notWritten (.destination storage.requestCount piece,
            bytesPiece request.btcDestination piece)
          · apply List.mem_cons_of_mem
            apply List.mem_append_right
            exact List.mem_map.mpr ⟨piece, List.mem_range.mpr inUse, rfl⟩
          · rfl
        change (if _ < pieceCount ((storage.append request).requests index).btcDestination
          then bytesPiece ((storage.append request).requests index).btcDestination piece
          else 0) = _
        rw [unchanged index different]
        rfl
  · exact fun location _ unused => word_eq_zero_of_not_mem blank unused

theorem locations_setRequest {index : Nat} {request : Request}
    (same : (storage.requests index).SameWithdrawal request)
    (marked : request.status ≠ .pending) :
    storage.locations ⊆ (storage.setRequest index request).locations := by
  intro location inUse
  cases location with
  | requestCount => trivial
  | entry other field =>
      change other < storage.requestCount ∨ _
      change other < storage.requestCount ∨ _ at inUse
      by_cases here : other = index
      · subst here
        rw [Storage.setRequest_same]
        exact Or.inr marked
      · rw [Storage.setRequest_of_ne _ _ here]
        exact inUse
  | destination other piece =>
      change piece < pieceCount (storage.requests other).btcDestination at inUse
      change piece < pieceCount ((storage.setRequest index request).requests other).btcDestination
      by_cases here : other = index
      · subst here
        rw [Storage.setRequest_same, ← same.2.2.2]
        exact inUse
      · rw [Storage.setRequest_of_ne _ _ here]
        exact inUse

/-- Storing the changed fields of one entry carries out a lifecycle change. -/
theorem laidOut_setRequest (laidOut : storage.LaidOut keccak256 slots)
    (blank : storage.UnqueuedBlank) {index : Nat} {request : Request} (fields : List Field)
    (same : (storage.requests index).SameWithdrawal request)
    (marked : request.status ≠ .pending)
    (unchanged : ∀ field, field ∉ fields →
      request.word field = (storage.requests index).word field)
    (distinct : (storage.setRequest index request).SlotsDistinct keccak256) :
    (storage.setRequest index request).LaidOut keccak256
      (storeAll (Location.slot keccak256) (entryWrites index request fields) slots) := by
  apply laidOut.storeAll (locations_setRequest same marked) distinct
  · intro write member
    rcases List.mem_map.mp member with ⟨field, _, isWrite⟩
    subst isWrite
    constructor
    · apply Or.inr
      rw [Storage.setRequest_same]
      exact marked
    · change request.word field = ((storage.setRequest index request).requests index).word field
      rw [Storage.setRequest_same]
  · intro location _ notWritten
    cases location with
    | requestCount => rfl
    | entry other field =>
        change ((storage.setRequest index request).requests other).word field =
          (storage.requests other).word field
        by_cases here : other = index
        · subst here
          rw [Storage.setRequest_same]
          apply unchanged
          intro member
          exact notWritten (.entry other field, request.word field)
            (List.mem_map.mpr ⟨field, member, rfl⟩) rfl
        · rw [Storage.setRequest_of_ne _ _ here]
    | destination other piece =>
        have sameDestination :
            ((storage.setRequest index request).requests other).btcDestination =
              (storage.requests other).btcDestination := by
          by_cases here : other = index
          · subst here
            rw [Storage.setRequest_same, same.2.2.2]
          · rw [Storage.setRequest_of_ne _ _ here]
        change (if _ < pieceCount ((storage.setRequest index request).requests other).btcDestination
          then bytesPiece ((storage.setRequest index request).requests other).btcDestination piece
          else 0) = _
        rw [sameDestination]
        rfl
  · exact fun location _ unused => word_eq_zero_of_not_mem blank unused

end Assignments

end WithdrawalRequestQueue

end Beth
