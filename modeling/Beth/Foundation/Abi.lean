import Beth.Foundation.Bytes

/-! # Arguments of contract calls

The encoding of an argument list as bytes. The head has one word for each
argument: its value, or where a longer value starts. The longer values follow in
order, each behind its length. The decoder is the one of compiled contracts. It
reads bytes that are missing as zeros and refuses data whose offsets and lengths
lead out of it. -/

namespace Foundation

namespace Abi

abbrev Word := BitVec 256

def wordBytes (word : Word) : Bytes := toBeBytes 32 word.toNat

@[simp] theorem length_wordBytes (word : Word) : (wordBytes word).length = 32 :=
  length_toBeBytes 32 _

/-! ## Encoding -/

inductive Argument
  | word (value : Word)
  | words (elements : List Word)
  | bytes (data : Bytes)

namespace Argument

/-- What stands behind the head. -/
def tail : Argument → Bytes
  | .word _ => []
  | .words elements => toBeBytes 32 elements.length ++ elements.flatMap wordBytes
  | .bytes data =>
      toBeBytes 32 data.length ++ (data ++ List.replicate ((32 - data.length % 32) % 32) 0)

/-- The word in the head, for a tail that starts at `offset`. -/
def head (offset : Nat) : Argument → Bytes
  | .word value => wordBytes value
  | .words _ => toBeBytes 32 offset
  | .bytes _ => toBeBytes 32 offset

@[simp] theorem length_head (offset : Nat) (argument : Argument) :
    (argument.head offset).length = 32 := by
  cases argument <;> exact length_toBeBytes 32 _

end Argument

def heads : Nat → List Argument → Bytes
  | _, [] => []
  | offset, argument :: rest =>
      argument.head offset ++ heads (offset + argument.tail.length) rest

def encode (arguments : List Argument) : Bytes :=
  heads (32 * arguments.length) arguments ++ arguments.flatMap Argument.tail

/-! ## Decoding -/

/-- The word at a position. -/
def load (data : Bytes) (position : Nat) : Word :=
  let found := (data.drop position).take 32
  .ofNat 256 (ofBeBytes (found ++ List.replicate (32 - found.length) 0))

def readWords (data : Bytes) : (position count : Nat) → List Word
  | _, 0 => []
  | position, count + 1 => load data position :: readWords data (position + 32) count

/-- Where the elements of a longer value start and how many there are, with
`width` bytes for each. -/
def decodeRange (width : Nat) (data : Bytes) (position : Nat) : Option (Nat × Nat) :=
  let offset := (load data (32 * position)).toNat
  if offset < 2 ^ 64 ∧ offset + 31 < data.length then
    let count := (load data offset).toNat
    if count < 2 ^ 64 ∧ offset + 32 + width * count ≤ data.length then
      some (offset + 32, count)
    else none
  else none

def decodeWord (data : Bytes) (position : Nat) : Word := load data (32 * position)

def decodeWords (data : Bytes) (position : Nat) : Option (List Word) :=
  (decodeRange 32 data position).map fun range => readWords data range.1 range.2

def decodeBytes (data : Bytes) (position : Nat) : Option Bytes :=
  (decodeRange 1 data position).map fun range => (data.drop range.1).take range.2

/-! ## Where the encoding puts an argument -/

theorem heads_append (offset : Nat) (before after : List Argument) :
    heads offset (before ++ after) =
      heads offset before ++ heads (offset + (before.flatMap Argument.tail).length) after := by
  induction before generalizing offset with
  | nil => rfl
  | cons argument rest induction =>
      rw [List.cons_append, heads, heads, induction, List.append_assoc, List.flatMap_cons,
        List.length_append, Nat.add_assoc]

@[simp] theorem length_heads (offset : Nat) (arguments : List Argument) :
    (heads offset arguments).length = 32 * arguments.length := by
  induction arguments generalizing offset with
  | nil => rfl
  | cons argument rest induction =>
      rw [heads, List.length_append, Argument.length_head, induction, List.length_cons]
      omega

theorem length_encode (arguments : List Argument) :
    (encode arguments).length =
      32 * arguments.length + (arguments.flatMap Argument.tail).length := by
  rw [encode, List.length_append, length_heads]

/-- An argument stands in the data: its word in the head at `position`, its tail at
`offset`. -/
structure Placed (data : Bytes) (position offset : Nat) (argument : Argument) : Prop where
  head : ∃ rest, data.drop (32 * position) = argument.head offset ++ rest
  tail : ∃ rest, data.drop offset = argument.tail ++ rest
  within : offset + argument.tail.length ≤ data.length

theorem exists_placed (before : List Argument) (argument : Argument)
    (after : List Argument) :
    ∃ offset, Placed (encode (before ++ argument :: after)) before.length offset argument := by
  let arguments := before ++ argument :: after
  let offset := 32 * arguments.length + (before.flatMap Argument.tail).length
  have headsAre : heads (32 * arguments.length) arguments =
      heads (32 * arguments.length) before ++
        (argument.head offset ++ heads (offset + argument.tail.length) after) :=
    heads_append _ before (argument :: after)
  have tailsAre : arguments.flatMap Argument.tail =
      before.flatMap Argument.tail ++ (argument.tail ++ after.flatMap Argument.tail) := by
    rw [List.flatMap_append, List.flatMap_cons]
  refine ⟨offset, ⟨heads (offset + argument.tail.length) after ++
    arguments.flatMap Argument.tail, ?_⟩, ⟨after.flatMap Argument.tail, ?_⟩, ?_⟩
  · change (heads _ arguments ++ _).drop _ = _
    rw [headsAre, List.append_assoc, List.append_assoc]
    exact List.drop_left' (length_heads _ before)
  · change (heads _ arguments ++ arguments.flatMap Argument.tail).drop _ = _
    rw [tailsAre, ← List.append_assoc]
    apply List.drop_left'
    rw [List.length_append, length_heads]
  · have tailsLength := congrArg List.length tailsAre
    rw [List.length_append, List.length_append] at tailsLength
    change 32 * arguments.length + _ + _ ≤ (encode arguments).length
    rw [length_encode, tailsLength]
    omega

/-! ## Reading back -/

theorem load_toBeBytes {data rest : Bytes} {position value : Nat}
    (found : data.drop position = toBeBytes 32 value ++ rest) (fits : value < 2 ^ 256) :
    (load data position).toNat = value := by
  have read : (data.drop position).take 32 = toBeBytes 32 value := by
    rw [found]
    exact List.take_left' (length_toBeBytes 32 value)
  rw [load, read, length_toBeBytes, Nat.sub_self, List.replicate_zero, List.append_nil,
    ofBeBytes_toBeBytes 32 value fits, BitVec.toNat_ofNat, Nat.mod_eq_of_lt fits]

theorem load_wordBytes {data rest : Bytes} {position : Nat} {word : Word}
    (found : data.drop position = wordBytes word ++ rest) : load data position = word :=
  BitVec.eq_of_toNat_eq (load_toBeBytes found word.isLt)

theorem readWords_flatMap {data rest : Bytes} {position : Nat} {elements : List Word}
    (found : data.drop position = elements.flatMap wordBytes ++ rest) :
    readWords data position elements.length = elements := by
  induction elements generalizing position with
  | nil => rfl
  | cons word others induction =>
      rw [List.flatMap_cons, List.append_assoc] at found
      have following : data.drop (position + 32) = others.flatMap wordBytes ++ rest := by
        rw [← List.drop_drop, found]
        exact List.drop_left' (length_wordBytes word)
      rw [List.length_cons, readWords, load_wordBytes found, induction following]

/-- The range of a longer value, for data that could be held in memory. -/
theorem decodeRange_of_placed {width : Nat} {data elements : Bytes} {position offset count : Nat}
    {argument : Argument} (placed : Placed data position offset argument)
    (headIs : argument.head offset = toBeBytes 32 offset)
    (tailIs : argument.tail = toBeBytes 32 count ++ elements)
    (holds : width * count ≤ elements.length) (positive : 0 < width)
    (bounded : data.length < 2 ^ 64) :
    decodeRange width data position = some (offset + 32, count) ∧
      ∃ rest, data.drop (offset + 32) = elements ++ rest := by
  rcases placed.head with ⟨afterHead, headFound⟩
  rcases placed.tail with ⟨afterTail, tailFound⟩
  have within := placed.within
  rw [headIs] at headFound
  rw [tailIs, List.append_assoc] at tailFound
  rw [tailIs, List.length_append, length_toBeBytes] at within
  have fewer : count ≤ width * count := Nat.le_mul_of_pos_left count positive
  have offsetRead := load_toBeBytes headFound (by omega)
  have countRead := load_toBeBytes tailFound (by omega)
  constructor
  · rw [decodeRange]
    dsimp only
    rw [offsetRead, countRead, if_pos ⟨by omega, by omega⟩, if_pos ⟨by omega, by omega⟩]
  · refine ⟨afterTail, ?_⟩
    rw [← List.drop_drop, tailFound]
    exact List.drop_left' (length_toBeBytes 32 count)

variable (before after : List Argument)

@[simp] theorem decodeWord_encode (value : Word) :
    decodeWord (encode (before ++ .word value :: after)) before.length = value := by
  rcases exists_placed before (.word value) after with ⟨offset, placed⟩
  rcases placed.head with ⟨rest, found⟩
  exact load_wordBytes found

theorem decodeWords_encode (elements : List Word)
    (bounded : (encode (before ++ .words elements :: after)).length < 2 ^ 64) :
    decodeWords (encode (before ++ .words elements :: after)) before.length =
      some elements := by
  rcases exists_placed before (.words elements) after with ⟨offset, placed⟩
  have holds : 32 * elements.length ≤ (elements.flatMap wordBytes).length := by
    rw [List.length_flatMap]
    simp [Nat.mul_comm]
  rcases decodeRange_of_placed placed rfl rfl holds (by decide) bounded with
    ⟨rangeIs, rest, found⟩
  rw [decodeWords, rangeIs, Option.map_some, readWords_flatMap found]

theorem decodeBytes_encode (value : Bytes)
    (bounded : (encode (before ++ .bytes value :: after)).length < 2 ^ 64) :
    decodeBytes (encode (before ++ .bytes value :: after)) before.length = some value := by
  rcases exists_placed before (.bytes value) after with ⟨offset, placed⟩
  have holds : 1 * value.length ≤
      (value ++ List.replicate ((32 - value.length % 32) % 32) (0 : UInt8)).length := by
    rw [List.length_append]
    omega
  rcases decodeRange_of_placed placed rfl rfl holds (by decide) bounded with
    ⟨rangeIs, rest, found⟩
  rw [decodeBytes, rangeIs, Option.map_some, found, List.append_assoc, List.take_left]

/-- A decoded value has the length its range allows. -/
theorem length_decodeBytes {data value : Bytes} {position : Nat}
    (decoded : decodeBytes data position = some value) : value.length < 2 ^ 64 := by
  rcases Option.map_eq_some_iff.mp decoded with ⟨range, isRange, isValue⟩
  rw [decodeRange] at isRange
  rcases Option.ite_none_right_eq_some.mp isRange with ⟨_, inner⟩
  rcases Option.ite_none_right_eq_some.mp inner with ⟨bounds, rangeIs⟩
  rw [← isValue, List.length_take]
  cases rangeIs
  exact (Nat.min_le_left _ _).trans_lt bounds.1

/-! ## Functions -/

/-- How a function of a contract is called: the bytes that name it, whether it takes
ether, the words in the head of its arguments and their decoder. -/
structure Function (Call : Type) where
  selector : FixedBytes 4
  payable : Bool
  headWords : Nat
  decode : Bytes → Option Call

/-- What the call data asks of a contract, if it asks for anything it offers. -/
def dispatch {Call : Type} (functions : List (Function Call)) (value : Nat)
    (calldata : Bytes) : Option Call :=
  match functions.find? fun function => calldata.take 4 = function.selector.bytes with
  | none => none
  | some function =>
      let data := calldata.drop 4
      if (function.payable ∨ value = 0) ∧ 32 * function.headWords ≤ data.length then
        function.decode data
      else none

theorem find?_selector {Call : Type} {functions : List (Function Call)}
    {function : Function Call} (member : function ∈ functions)
    (distinct : (functions.map Function.selector).Nodup) :
    (functions.find? fun other => function.selector.bytes = other.selector.bytes) =
      some function := by
  induction functions with
  | nil => cases member
  | cons first rest induction =>
      have parts := List.nodup_cons.mp distinct
      rcases List.mem_cons.mp member with isFirst | inRest
      · subst isFirst
        exact List.find?_cons_of_pos (by simp)
      · have different : function.selector.bytes ≠ first.selector.bytes := fun equal =>
          parts.1 (FixedBytes.ext equal ▸ List.mem_map_of_mem inRest)
        rw [List.find?_cons_of_neg (by simpa using different)]
        exact induction inRest parts.2

/-- Encoded arguments behind a selector reach the decoder of their function. -/
theorem dispatch_encode {Call : Type} {functions : List (Function Call)}
    {function : Function Call} (member : function ∈ functions)
    (distinct : (functions.map Function.selector).Nodup) {value : Nat}
    (takesValue : function.payable ∨ value = 0) (arguments : List Argument)
    (head : arguments.length = function.headWords) :
    dispatch functions value (function.selector.bytes ++ encode arguments) =
      function.decode (encode arguments) := by
  have named : (function.selector.bytes ++ encode arguments).take 4 =
      function.selector.bytes := List.take_left' function.selector.length_eq
  have behind : (function.selector.bytes ++ encode arguments).drop 4 = encode arguments :=
    List.drop_left' function.selector.length_eq
  have wide : 32 * function.headWords ≤ (encode arguments).length := by
    rw [length_encode, head]
    exact Nat.le_add_right _ _
  rw [dispatch, named, find?_selector member distinct]
  dsimp only
  rw [behind, if_pos ⟨takesValue, wide⟩]

/-- What is dispatched came from the decoder of a function that takes the value. -/
theorem dispatch_eq_some {Call : Type} {functions : List (Function Call)} {value : Nat}
    {calldata : Bytes} {call : Call}
    (dispatched : dispatch functions value calldata = some call) :
    ∃ function ∈ functions, (function.payable ∨ value = 0) ∧
      function.decode (calldata.drop 4) = some call := by
  rw [dispatch] at dispatched
  split at dispatched
  · cases dispatched
  · rename_i function found
    rcases Option.ite_none_right_eq_some.mp dispatched with ⟨accepted, decoded⟩
    exact ⟨function, List.mem_of_find?_eq_some found, accepted.1, decoded⟩

end Abi

end Foundation
