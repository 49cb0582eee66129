import Mathlib

/-! # Byte strings, fixed-width words and hexadecimal text

Fixed-width byte arrays carry their length as a field, so a value of the wrong
width cannot be built. Big-endian integer encodings and hexadecimal text are
given together with their inverses. -/

namespace Foundation

abbrev Bytes := List UInt8

/-! ## Fixed-width byte arrays -/

/-- A byte array of exactly `width` bytes. -/
structure FixedBytes (width : Nat) where
  bytes : Bytes
  length_eq : bytes.length = width
deriving DecidableEq

namespace FixedBytes

@[ext] theorem ext {left right : FixedBytes width}
    (equal : left.bytes = right.bytes) : left = right := by
  cases left
  cases right
  congr

/-- Conversion from a slice, which succeeds only on the exact length. -/
def tryFrom (width : Nat) (bytes : Bytes) : Option (FixedBytes width) :=
  if lengthEq : bytes.length = width then some ⟨bytes, lengthEq⟩ else none

def replicate (width : Nat) (byte : UInt8) : FixedBytes width :=
  ⟨List.replicate width byte, List.length_replicate⟩

@[simp] theorem tryFrom_bytes (value : FixedBytes width) :
    tryFrom width value.bytes = some value := by
  simp [tryFrom, value.length_eq]

theorem tryFrom_eq_some {bytes : Bytes} {value : FixedBytes width}
    (found : tryFrom width bytes = some value) : value.bytes = bytes := by
  unfold tryFrom at found
  split at found
  · cases found
    rfl
  · cases found

theorem tryFrom_eq_none_iff {bytes : Bytes} :
    tryFrom width bytes = none ↔ bytes.length ≠ width := by
  unfold tryFrom
  split <;> simp_all

instance : Fintype UInt8 :=
  Fintype.ofEquiv (Fin 256)
    { toFun := UInt8.ofFin
      invFun := UInt8.toFin
      left_inv := fun _ => rfl
      right_inv := fun _ => rfl }

instance : Fintype (FixedBytes width) :=
  Fintype.ofEquiv (List.Vector UInt8 width)
    { toFun := fun vector => ⟨vector.1, vector.2⟩
      invFun := fun value => ⟨value.bytes, value.length_eq⟩
      left_inv := fun _ => rfl
      right_inv := fun _ => rfl }

end FixedBytes

/-! ## Big-endian integers -/

/-- The low `width` bytes of a natural number, most significant byte first. -/
def toBeBytes : (width value : Nat) → Bytes
  | 0, _ => []
  | width + 1, value => toBeBytes width (value / 256) ++ [UInt8.ofNat value]

/-- The natural number a big-endian byte string spells. -/
def ofBeBytes (bytes : Bytes) : Nat :=
  bytes.foldl (fun accumulated byte => 256 * accumulated + byte.toNat) 0

@[simp] theorem length_toBeBytes (width value : Nat) :
    (toBeBytes width value).length = width := by
  induction width generalizing value with
  | zero => rfl
  | succ width induction => simp [toBeBytes, induction]

theorem ofBeBytes_append_singleton (bytes : Bytes) (byte : UInt8) :
    ofBeBytes (bytes ++ [byte]) = 256 * ofBeBytes bytes + byte.toNat := by
  simp [ofBeBytes]

theorem ofBeBytes_toBeBytes (width value : Nat) (fits : value < 256 ^ width) :
    ofBeBytes (toBeBytes width value) = value := by
  induction width generalizing value with
  | zero =>
      have valueZero : value = 0 := by simpa using fits
      simp [toBeBytes, ofBeBytes, valueZero]
  | succ width induction =>
      have quotientFits : value / 256 < 256 ^ width := by
        rw [Nat.div_lt_iff_lt_mul (by omega), ← Nat.pow_succ]
        exact fits
      rw [toBeBytes, ofBeBytes_append_singleton, induction _ quotientFits,
        UInt8.toNat_ofNat']
      exact Nat.div_add_mod value 256

theorem ofBeBytes_lt (bytes : Bytes) : ofBeBytes bytes < 256 ^ bytes.length := by
  induction bytes using List.reverseRecOn with
  | nil => decide
  | append_singleton front byte induction =>
      have byteBound := byte.toNat_lt
      rw [ofBeBytes_append_singleton, List.length_append, List.length_singleton,
        Nat.pow_succ]
      omega

/-- Every byte string is the encoding of the number it spells. -/
theorem toBeBytes_ofBeBytes (bytes : Bytes) : toBeBytes bytes.length (ofBeBytes bytes) = bytes := by
  induction bytes using List.reverseRecOn with
  | nil => rfl
  | append_singleton front byte induction =>
      have byteBound := byte.toNat_lt
      have quotient : (256 * ofBeBytes front + byte.toNat) / 256 = ofBeBytes front := by omega
      have lowByte : UInt8.ofNat (256 * ofBeBytes front + byte.toNat) = byte := by
        rw [← UInt8.toNat_inj, UInt8.toNat_ofNat']
        omega
      rw [List.length_append, List.length_singleton, ofBeBytes_append_singleton, toBeBytes,
        quotient, induction, lowByte]

theorem toBeBytes_zero (width : Nat) : toBeBytes width 0 = List.replicate width 0 := by
  induction width with
  | zero => rfl
  | succ width induction =>
      rw [toBeBytes, Nat.zero_div, induction, List.replicate_succ']
      rfl

/-- A wider encoding of a value that fits has zeros in front. -/
theorem toBeBytes_widen (extra width : Nat) {value : Nat} (fits : value < 256 ^ width) :
    toBeBytes (extra + width) value = List.replicate extra 0 ++ toBeBytes width value := by
  induction width generalizing value with
  | zero =>
      have valueZero : value = 0 := by simpa using fits
      rw [valueZero, toBeBytes_zero, toBeBytes_zero]
      simp
  | succ width induction =>
      have quotientFits : value / 256 < 256 ^ width := by
        rw [Nat.div_lt_iff_lt_mul (by omega), ← Nat.pow_succ]
        exact fits
      rw [← Nat.add_assoc, toBeBytes, induction quotientFits, toBeBytes, List.append_assoc]

/-- A fixed-width big-endian encoding is injective on the values that fit. -/
theorem toBeBytes_injective (width : Nat) {left right : Nat}
    (leftFits : left < 256 ^ width) (rightFits : right < 256 ^ width)
    (equal : toBeBytes width left = toBeBytes width right) : left = right := by
  rw [← ofBeBytes_toBeBytes width left leftFits, equal,
    ofBeBytes_toBeBytes width right rightFits]

/-- Concatenated fixed-width encodings can be split again. -/
theorem flatMap_toBeBytes_append_injective {width : Nat}
    {left right : List Nat} {leftRest rightRest : Bytes}
    (leftFits : ∀ value ∈ left, value < 256 ^ width)
    (rightFits : ∀ value ∈ right, value < 256 ^ width)
    (sameLength : left.length = right.length)
    (equal : left.flatMap (toBeBytes width) ++ leftRest =
      right.flatMap (toBeBytes width) ++ rightRest) :
    left = right ∧ leftRest = rightRest := by
  induction left generalizing right with
  | nil =>
      cases right with
      | nil => exact ⟨rfl, by simpa using equal⟩
      | cons head tail => simp at sameLength
  | cons head tail induction =>
      cases right with
      | nil => simp at sameLength
      | cons other others =>
          simp only [List.flatMap_cons, List.append_assoc] at equal
          have parts := List.append_inj equal (by simp)
          have headEqual : head = other :=
            toBeBytes_injective width (leftFits head (by simp))
              (rightFits other (by simp)) parts.1
          have tailEqual := induction
            (fun value member => leftFits value (by simp [member]))
            (fun value member => rightFits value (by simp [member]))
            (by simpa using sameLength) parts.2
          exact ⟨by rw [headEqual, tailEqual.1], tailEqual.2⟩

/-! ## Hexadecimal text -/

def hexDigit (value : Nat) : Char :=
  if value < 10 then Char.ofNat (48 + value) else Char.ofNat (87 + value)

/-- The value of a hexadecimal digit of either case. -/
def hexValue (char : Char) : Option Nat :=
  if '0' ≤ char ∧ char ≤ '9' then some (char.toNat - 48)
  else if 'a' ≤ char ∧ char ≤ 'f' then some (char.toNat - 87)
  else if 'A' ≤ char ∧ char ≤ 'F' then some (char.toNat - 55)
  else none

def hexByte (byte : UInt8) : List Char :=
  [hexDigit (byte.toNat / 16), hexDigit (byte.toNat % 16)]

/-- Lower-case hexadecimal text, two digits for each byte and no prefix. -/
def hexEncode (bytes : Bytes) : String :=
  String.ofList (bytes.flatMap hexByte)

/-- Decoding refuses an odd number of digits and every other character. -/
def hexDecodeChars : List Char → Option Bytes
  | [] => some []
  | [_] => none
  | high :: low :: rest => do
      let highValue ← hexValue high
      let lowValue ← hexValue low
      let bytes ← hexDecodeChars rest
      pure (UInt8.ofNat (16 * highValue + lowValue) :: bytes)

def hexDecode (text : String) : Option Bytes := hexDecodeChars text.toList

theorem hexValue_hexDigit {value : Nat} (isDigit : value < 16) :
    hexValue (hexDigit value) = some value := by
  have checked : ∀ digit : Fin 16,
      hexValue (hexDigit digit.val) = some digit.val := by decide
  exact checked ⟨value, isDigit⟩

theorem hexDecodeChars_flatMap_hexByte (bytes : Bytes) :
    hexDecodeChars (bytes.flatMap hexByte) = some bytes := by
  induction bytes with
  | nil => rfl
  | cons byte rest induction =>
      have byteBound := byte.toNat_lt
      have highDigit : byte.toNat / 16 < 16 := by omega
      have lowDigit : byte.toNat % 16 < 16 := by omega
      have recombined :
          UInt8.ofNat (16 * (byte.toNat / 16) + byte.toNat % 16) = byte := by
        rw [Nat.div_add_mod, UInt8.ofNat_toNat]
      simp only [List.flatMap_cons, hexByte, List.cons_append, List.nil_append,
        hexDecodeChars, hexValue_hexDigit highDigit, hexValue_hexDigit lowDigit,
        induction, recombined, Option.bind_eq_bind, Option.bind_some, Option.pure_def]

@[simp] theorem hexDecode_hexEncode (bytes : Bytes) :
    hexDecode (hexEncode bytes) = some bytes := by
  simp [hexDecode, hexEncode, hexDecodeChars_flatMap_hexByte]

end Foundation
