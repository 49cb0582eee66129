import Beth.Contracts.DepositVault
import Beth.Contracts.ReportBundleLifecycle
import Beth.Contracts.StorageLayout
import Beth.Foundation.Abi

/-! # Calls as data

What the two contracts do with the bytes of a call: they find the function that is
named, decode its arguments and run it. A call that names none of their functions,
does not decode or brings ether where none is taken reverts without a reason. -/

namespace Beth

open Foundation

/-- The first four bytes of the digest of a signature. -/
def selectorOf (keccak256 : Bytes → B256) (signature : String) : FixedBytes 4 where
  bytes := (keccak256 signature.toUTF8.data.toList).bytes.take 4
  length_eq := by rw [List.length_take, FixedBytes.length_eq, Nat.min_eq_left (by decide)]

/-- The digests of the signatures of all functions of the two contracts. -/
def signatureDigests : List (Bytes × Nat) :=
  [("requestCount()".toUTF8.data.toList,
      0x5badbe4c1fbcf8bae3f0bb39ae4183ee7b0e8b92871c5ef0de96e08de897128f),
    ("requests(uint256)".toUTF8.data.toList,
      0x81d12c586782e1491409764941ee47c6107680737d1de32157f100ee88d790ee),
    ("requestWithdrawal(bytes,uint256)".toUTF8.data.toList,
      0xd5b8f5e245dac998c455d4c70508155e65c73adc44fa0a7d4d2d4a9bd09ef774),
    ("systemReportBundleLifecycle(uint256[],bytes32,uint256[],uint256[])".toUTF8.data.toList,
      0xec7c304c8bef2438978cf9b8a2bbb7594eb7c4a6451bdbdec25ef0f8c084fa51),
    ("systemCreditDeposits(address[],uint256[])".toUTF8.data.toList,
      0xe998b531aefde0fb7e7b0f4eaaee6f745f25c8ff71d7957de232284ffdb6f507)]

def dispatched (call : Option α) : Except CallFailure α :=
  match call with
  | some value => .ok value
  | none => .error (.revert "")

/-- An address as an argument. -/
def addressWord (address : Address) : U256 := wordOfBytes address.bytes

/-- A number as an argument. -/
def numberWord (number : Nat) : U256 := .ofNat 256 number

theorem toNat_numberWord {number : Nat} (fits : number < 2 ^ 256) :
    (numberWord number).toNat = number := by
  rw [numberWord, BitVec.toNat_ofNat, Nat.mod_eq_of_lt fits]

theorem toNat_numberWords {numbers : List Nat} (fit : ∀ number ∈ numbers, number < 2 ^ 256) :
    (numbers.map numberWord).map BitVec.toNat = numbers := by
  rw [List.map_map]
  exact (List.map_congr_left fun number member => toNat_numberWord (fit number member)).trans
    (List.map_id numbers)

namespace DepositVault

/-! ## `DepositVault` -/

/-- The arguments of `systemCreditDeposits` as they arrive. The elements of
`recipients` are not looked at until the loop comes to them. -/
structure CreditArguments where
  recipients : List U256
  amountsSats : List U256

variable (keccak256 : Bytes → B256)

def systemCreditDepositsFunction : Abi.Function CreditArguments where
  selector := selectorOf keccak256 "systemCreditDeposits(address[],uint256[])"
  payable := false
  headWords := 2
  decode := fun data => do
    let recipients ← Abi.decodeWords data 0
    let amountsSats ← Abi.decodeWords data 1
    pure { recipients := recipients, amountsSats := amountsSats }

/-- The `address` a word stands for. -/
def recipientOf (word : U256) : Option Address :=
  if word.toNat < 2 ^ 160 then some (addressOfNat word.toNat) else none

/-- One iteration on the words as they are. A recipient that is no address reverts,
after its amount was scaled. -/
def creditWord (env : CallEnv) (recipient amountSats : U256) (frame : Frame) :
    Except CallFailure Frame :=
  match recipientOf recipient with
  | some recipient => creditDeposit env recipient amountSats.toNat frame
  | none => do
      let _ ← checkedMul amountSats.toNat weiPerSat
      .error (.revert "")

def creditWords (env : CallEnv) : List U256 → List U256 → Frame → Except CallFailure Frame
  | [], _, frame => .ok frame
  | _ :: _, [], _ => .error (.revert "Panic(0x32)")
  | recipient :: recipients, amountSats :: amountsSats, frame => do
      let frame ← creditWord env recipient amountSats frame
      creditWords env recipients amountsSats frame

/-- A call with `calldata`. -/
def run (env : CallEnv) (msgSender : Address) (msgValue : Nat) (calldata : Bytes)
    (frame : Frame) : Except CallFailure Frame := do
  let arguments ← dispatched
    (Abi.dispatch [systemCreditDepositsFunction keccak256] msgValue calldata)
  require (msgSender = systemAddress) "DepositVault: not a system call"
  creditWords env arguments.recipients arguments.amountsSats frame

variable {keccak256}

theorem recipientOf_addressWord (address : Address) :
    recipientOf (addressWord address) = some address := by
  have narrow : ofBeBytes address.bytes < 256 ^ 20 := by
    have bound := ofBeBytes_lt address.bytes
    rw [address.length_eq] at bound
    exact bound
  have value : (addressWord address).toNat = ofBeBytes address.bytes := by
    rw [addressWord, wordOfBytes, BitVec.toNat_ofNat]
    exact Nat.mod_eq_of_lt (narrow.trans (by norm_num))
  have back := toBeBytes_ofBeBytes address.bytes
  rw [address.length_eq] at back
  rw [recipientOf, value, if_pos (narrow.trans_eq (by norm_num))]
  exact congrArg some (FixedBytes.ext back)

/-- On addresses and amounts the loop over the words is the loop over their values. -/
theorem creditWords_eq (env : CallEnv) (recipients : List Address) {amountsSats : List Nat}
    (fit : ∀ amountSats ∈ amountsSats, amountSats < 2 ^ 256) (frame : Frame) :
    creditWords env (recipients.map addressWord) (amountsSats.map numberWord) frame =
      creditLoop env recipients amountsSats frame := by
  induction recipients generalizing amountsSats frame with
  | nil => rfl
  | cons recipient rest induction =>
      cases amountsSats with
      | nil => rfl
      | cons amountSats others =>
          rw [List.map_cons, List.map_cons, creditWords, creditLoop, creditWord,
            recipientOf_addressWord, toNat_numberWord (fit amountSats (by simp))]
          dsimp only
          cases creditDeposit env recipient amountSats frame with
          | error failure => rfl
          | ok next =>
              exact induction (fun other member => fit other (by simp [member])) next

/-- A call of `systemCreditDeposits` as data. -/
def SystemCreditDepositsCall.encode (selector : FixedBytes 4)
    (call : SystemCreditDepositsCall) : Bytes :=
  selector.bytes ++ Abi.encode
    [.words (call.recipients.map addressWord), .words (call.amountsSats.map numberWord)]

theorem decode_encode {recipients amountsSats : List U256}
    (bounded : (Abi.encode [.words recipients, .words amountsSats]).length < 2 ^ 64) :
    (systemCreditDepositsFunction keccak256).decode
        (Abi.encode [.words recipients, .words amountsSats]) =
      some { recipients := recipients, amountsSats := amountsSats } := by
  have first := Abi.decodeWords_encode [] [.words amountsSats] recipients bounded
  have second := Abi.decodeWords_encode [.words recipients] [] amountsSats bounded
  change Abi.decodeWords (Abi.encode [.words recipients, .words amountsSats]) 0 = _ at first
  change Abi.decodeWords (Abi.encode [.words recipients, .words amountsSats]) 1 = _ at second
  rw [systemCreditDepositsFunction]
  dsimp only
  rw [first, second]
  rfl

/-- The bytes of a call run the call. -/
theorem run_encode (env : CallEnv) (msgSender : Address) {call : SystemCreditDepositsCall}
    (fit : ∀ amountSats ∈ call.amountsSats, amountSats < 2 ^ 256)
    (bounded : (call.encode (systemCreditDepositsFunction keccak256).selector).length < 2 ^ 64)
    (frame : Frame) :
    run keccak256 env msgSender 0
        (call.encode (systemCreditDepositsFunction keccak256).selector) frame =
      systemCreditDeposits env msgSender call frame := by
  have dispatches : Abi.dispatch [systemCreditDepositsFunction keccak256] 0
      (call.encode (systemCreditDepositsFunction keccak256).selector) =
        some
          { recipients := call.recipients.map addressWord
            amountsSats := call.amountsSats.map numberWord } := by
    rw [SystemCreditDepositsCall.encode, List.length_append] at bounded
    rw [SystemCreditDepositsCall.encode,
      Abi.dispatch_encode (List.mem_singleton_self _) (List.nodup_singleton _) (Or.inr rfl) _ rfl]
    exact decode_encode ((Nat.le_add_left _ _).trans_lt bounded)
  rw [run, dispatches, dispatched, ok_bind, systemCreditDeposits]
  congr 1
  funext _
  exact creditWords_eq env call.recipients fit frame

end DepositVault

namespace WithdrawalRequestQueue

/-! ## `WithdrawalRequestQueue` -/

/-- A call of one of the functions, the two public getters among them, with its
arguments as they arrive. -/
inductive Invocation
  | requestCount
  | requests (index : U256)
  | requestWithdrawal (btcDestination : Bytes) (mainFeeSats : U256)
  | systemReportBundleLifecycle (bundledIndices : List U256) (newM6id : U256)
      (succeededIndices failedIndices : List U256)
deriving DecidableEq

section Functions

variable (keccak256 : Bytes → B256)

def requestCountFunction : Abi.Function Invocation where
  selector := selectorOf keccak256 "requestCount()"
  payable := false
  headWords := 0
  decode := fun _ => some .requestCount

def requestsFunction : Abi.Function Invocation where
  selector := selectorOf keccak256 "requests(uint256)"
  payable := false
  headWords := 1
  decode := fun data => some (.requests (Abi.decodeWord data 0))

def requestWithdrawalFunction : Abi.Function Invocation where
  selector := selectorOf keccak256 "requestWithdrawal(bytes,uint256)"
  payable := true
  headWords := 2
  decode := fun data => do
    let btcDestination ← Abi.decodeBytes data 0
    pure (.requestWithdrawal btcDestination (Abi.decodeWord data 1))

def systemReportBundleLifecycleFunction : Abi.Function Invocation where
  selector := selectorOf keccak256
    "systemReportBundleLifecycle(uint256[],bytes32,uint256[],uint256[])"
  payable := false
  headWords := 4
  decode := fun data => do
    let bundledIndices ← Abi.decodeWords data 0
    let succeededIndices ← Abi.decodeWords data 2
    let failedIndices ← Abi.decodeWords data 3
    pure (.systemReportBundleLifecycle bundledIndices (Abi.decodeWord data 1)
      succeededIndices failedIndices)

def functions : List (Abi.Function Invocation) :=
  [requestCountFunction keccak256, requestsFunction keccak256,
    requestWithdrawalFunction keccak256, systemReportBundleLifecycleFunction keccak256]

/-- The compiler refuses a contract two of whose functions have the same selector. -/
def SelectorsDistinct : Prop := ((functions keccak256).map Abi.Function.selector).Nodup

instance : Decidable (SelectorsDistinct keccak256) :=
  inferInstanceAs (Decidable (List.Nodup _))

end Functions

/-- The selectors in the compiled code. -/
example : (functions (digestOf signatureDigests)).map (fun function =>
    hexEncode function.selector.bytes) = ["5badbe4c", "81d12c58", "d5b8f5e2", "ec7c304c"] := by
  decide +kernel

theorem selectorsDistinct_signatureDigests : SelectorsDistinct (digestOf signatureDigests) := by
  decide +kernel

/-- The state after a call and the bytes it returns. -/
structure Reply where
  frame : Frame
  returned : Bytes

/-- What the getter of the `requests` mapping returns: every field of the entry. -/
def Request.encode (request : Request) : Bytes :=
  Abi.encode
    [.word (addressWord request.requester), .word (numberWord request.valueSats),
      .word (numberWord request.mainFeeSats), .bytes request.btcDestination,
      .word (numberWord request.status.code), .word (wordOfBytes request.bundleM6id.bytes)]

def Invocation.execute (env : CallEnv) (msgSender : Address) (msgValue : Nat)
    (invocation : Invocation) (frame : Frame) : Except CallFailure Reply :=
  match invocation with
  | .requestCount =>
      .ok
        { frame := frame
          returned := Abi.encode [.word (numberWord frame.world.queue.requestCount)] }
  | .requests index =>
      .ok
        { frame := frame
          returned := (frame.world.queue.requests index.toNat).encode }
  | .requestWithdrawal btcDestination mainFeeSats => do
      let world ← WithdrawalRequestQueue.requestWithdrawal msgSender msgValue btcDestination
        mainFeeSats.toNat frame.world
      pure
        { frame := { frame with world := world }
          returned := Abi.encode [.word (numberWord frame.world.queue.requestCount)] }
  | .systemReportBundleLifecycle bundledIndices newM6id succeededIndices failedIndices => do
      let frame ← WithdrawalRequestQueue.systemReportBundleLifecycle env msgSender
        { bundledIndices := bundledIndices.map BitVec.toNat
          newM6id := b256OfWord newM6id
          succeededIndices := succeededIndices.map BitVec.toNat
          failedIndices := failedIndices.map BitVec.toNat } frame
      pure { frame := frame, returned := [] }

/-- A call with `calldata`. -/
def run (keccak256 : Bytes → B256) (env : CallEnv) (msgSender : Address) (msgValue : Nat)
    (calldata : Bytes) (frame : Frame) : Except CallFailure Reply := do
  let invocation ← dispatched (Abi.dispatch (functions keccak256) msgValue calldata)
  invocation.execute env msgSender msgValue frame

namespace Invocation

variable (keccak256 : Bytes → B256)

def function : Invocation → Abi.Function Invocation
  | .requestCount => requestCountFunction keccak256
  | .requests _ => requestsFunction keccak256
  | .requestWithdrawal _ _ => requestWithdrawalFunction keccak256
  | .systemReportBundleLifecycle _ _ _ _ => systemReportBundleLifecycleFunction keccak256

def arguments : Invocation → List Abi.Argument
  | .requestCount => []
  | .requests index => [.word index]
  | .requestWithdrawal btcDestination mainFeeSats =>
      [.bytes btcDestination, .word mainFeeSats]
  | .systemReportBundleLifecycle bundledIndices newM6id succeededIndices failedIndices =>
      [.words bundledIndices, .word newM6id, .words succeededIndices, .words failedIndices]

/-- A call as data. -/
def encode (invocation : Invocation) : Bytes :=
  (invocation.function keccak256).selector.bytes ++ Abi.encode invocation.arguments

variable {keccak256}

theorem function_mem (invocation : Invocation) :
    invocation.function keccak256 ∈ functions keccak256 := by
  cases invocation <;> simp [function, functions]

/-- A decoder gives calls of its own function only. -/
theorem eq_function_of_decode {function : Abi.Function Invocation} {data : Bytes}
    {invocation : Invocation} (member : function ∈ functions keccak256)
    (decoded : function.decode data = some invocation) :
    function = invocation.function keccak256 := by
  rw [functions] at member
  fin_cases member
  · cases decoded
    rfl
  · cases decoded
    rfl
  · rcases Option.bind_eq_some_iff.mp decoded with ⟨_, _, isCall⟩
    cases isCall
    rfl
  · rcases Option.bind_eq_some_iff.mp decoded with ⟨_, _, afterBundled⟩
    rcases Option.bind_eq_some_iff.mp afterBundled with ⟨_, _, afterSucceeded⟩
    rcases Option.bind_eq_some_iff.mp afterSucceeded with ⟨_, _, isCall⟩
    cases isCall
    rfl

theorem decode_encode (invocation : Invocation)
    (bounded : (Abi.encode invocation.arguments).length < 2 ^ 64) :
    (invocation.function keccak256).decode (Abi.encode invocation.arguments) =
      some invocation := by
  cases invocation with
  | requestCount => rfl
  | requests index =>
      have only := Abi.decodeWord_encode [] [] index
      exact congrArg (fun word => some (Invocation.requests word)) only
  | requestWithdrawal btcDestination mainFeeSats =>
      have first := Abi.decodeBytes_encode [] [.word mainFeeSats] btcDestination bounded
      have second := Abi.decodeWord_encode [.bytes btcDestination] [] mainFeeSats
      change Abi.decodeBytes (Abi.encode [.bytes btcDestination, .word mainFeeSats]) 0 = _
        at first
      change Abi.decodeWord (Abi.encode [.bytes btcDestination, .word mainFeeSats]) 1 = _
        at second
      rw [function, arguments, requestWithdrawalFunction]
      dsimp only
      rw [first, second]
      rfl
  | systemReportBundleLifecycle bundledIndices newM6id succeededIndices failedIndices =>
      have first := Abi.decodeWords_encode []
        [.word newM6id, .words succeededIndices, .words failedIndices] bundledIndices bounded
      have second := Abi.decodeWord_encode [.words bundledIndices]
        [.words succeededIndices, .words failedIndices] newM6id
      have third := Abi.decodeWords_encode [.words bundledIndices, .word newM6id]
        [.words failedIndices] succeededIndices bounded
      have fourth := Abi.decodeWords_encode
        [.words bundledIndices, .word newM6id, .words succeededIndices] [] failedIndices bounded
      rw [arguments]
      generalize dataIs : Abi.encode [.words bundledIndices, .word newM6id,
        .words succeededIndices, .words failedIndices] = data
      change Abi.decodeWords (Abi.encode [_, _, _, _]) 0 = _ at first
      change Abi.decodeWord (Abi.encode [_, _, _, _]) 1 = _ at second
      change Abi.decodeWords (Abi.encode [_, _, _, _]) 2 = _ at third
      change Abi.decodeWords (Abi.encode [_, _, _, _]) 3 = _ at fourth
      rw [dataIs] at first second third fourth
      rw [function, systemReportBundleLifecycleFunction]
      dsimp only
      rw [first, second, third, fourth]
      rfl

/-- The bytes of a call run the call. -/
theorem run_encode (distinct : SelectorsDistinct keccak256) (env : CallEnv)
    (msgSender : Address) {msgValue : Nat} (invocation : Invocation)
    (takesValue : (invocation.function keccak256).payable ∨ msgValue = 0)
    (bounded : (invocation.encode keccak256).length < 2 ^ 64) (frame : Frame) :
    run keccak256 env msgSender msgValue (invocation.encode keccak256) frame =
      invocation.execute env msgSender msgValue frame := by
  have dispatches : Abi.dispatch (functions keccak256) msgValue (invocation.encode keccak256) =
      some invocation := by
    have head : invocation.arguments.length = (invocation.function keccak256).headWords := by
      cases invocation <;> rfl
    rw [encode, List.length_append] at bounded
    rw [encode, Abi.dispatch_encode invocation.function_mem distinct takesValue _ head]
    exact invocation.decode_encode ((Nat.le_add_left _ _).trans_lt bounded)
  rw [run, dispatches, dispatched, ok_bind]

end Invocation

end WithdrawalRequestQueue

/-- The code of the two predeploys. No other account is called this way. -/
def runCode (keccak256 : Bytes → B256) (env : CallEnv) (account msgSender : Address)
    (msgValue : Nat) (calldata : Bytes) (frame : Frame) : Except CallFailure Frame :=
  if account = depositVaultAddress then
    DepositVault.run keccak256 env msgSender msgValue calldata frame
  else if account = withdrawalRequestQueueAddress then
    (WithdrawalRequestQueue.run keccak256 env msgSender msgValue calldata frame).map
      WithdrawalRequestQueue.Reply.frame
  else .ok frame

end Beth
