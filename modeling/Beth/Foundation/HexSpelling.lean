import Beth.Foundation.Bytes

/-! # Spellings of bytes in hexadecimal

A byte string has one spelling up to the case of its letters. Decoding accepts
exactly the spellings, and a marker such as `0x` cannot be mistaken for
digits. -/

namespace Foundation

/-- The digits spell the bytes, each letter in either case. -/
def SpellsHex (digits : List Char) (bytes : Bytes) : Prop :=
  digits.map Char.toLower = bytes.flatMap hexByte

instance (digits : List Char) (bytes : Bytes) : Decidable (SpellsHex digits bytes) := by
  unfold SpellsHex
  infer_instance

theorem not_le_of_not_ascii {char : Char} (bound : Char) (notAscii : ¬ char.toNat < 128)
    (small : bound.toNat < 128) : ¬ char ≤ bound := by
  intro within
  exact notAscii (lt_of_le_of_lt (UInt32.le_iff_toNat_le.mp within) small)

theorem hexValue_of_not_ascii {char : Char} (notAscii : ¬ char.toNat < 128) :
    hexValue char = none := by
  have digits := not_le_of_not_ascii '9' notAscii (by decide)
  have lower := not_le_of_not_ascii 'f' notAscii (by decide)
  have upper := not_le_of_not_ascii 'F' notAscii (by decide)
  simp [hexValue, digits, lower, upper]

theorem hexValue_eq_some_iff (char : Char) {value : Nat} (isDigit : value < 16) :
    hexValue char = some value ↔ char.toLower = hexDigit value := by
  by_cases ascii : char.toNat < 128
  · have checked : ∀ code : Fin 128, ∀ digit : Fin 16,
        hexValue (Char.ofNat code.val) = some digit.val ↔
          (Char.ofNat code.val).toLower = hexDigit digit.val := by
      decide +kernel
    have atChar := checked ⟨char.toNat, ascii⟩ ⟨value, isDigit⟩
    rwa [Char.ofNat_toNat] at atChar
  · have unchanged : char.toLower = char := by
      apply Char.toLower_eq_of_not_isUpper
      intro isUpper
      simp only [Char.isUpper, decide_eq_true_eq] at isUpper
      exact not_le_of_not_ascii 'Z' ascii (by decide) isUpper.2
    rw [hexValue_of_not_ascii ascii, unchanged]
    constructor
    · intro impossible
      cases impossible
    · intro equal
      have small : ∀ digit : Fin 16, (hexDigit digit.val).toNat < 128 := by decide
      exact absurd (equal ▸ small ⟨value, isDigit⟩) ascii

theorem hexValue_lt {char : Char} {value : Nat} (isHex : hexValue char = some value) :
    value < 16 := by
  have code : char.toNat = char.val.toNat := rfl
  unfold hexValue at isHex
  split at isHex
  · rename_i range
    have upper := UInt32.le_iff_toNat_le.mp range.2
    change char.toNat ≤ 57 at upper
    cases isHex
    omega
  · split at isHex
    · rename_i range
      have upper := UInt32.le_iff_toNat_le.mp range.2
      change char.toNat ≤ 102 at upper
      cases isHex
      omega
    · split at isHex
      · rename_i range
        have upper := UInt32.le_iff_toNat_le.mp range.2
        change char.toNat ≤ 70 at upper
        cases isHex
        omega
      · cases isHex

/-! ## Decoding accepts the spellings -/

/-- A byte is determined by the values of its two digits. -/
theorem hexByte_ofNat {highValue lowValue : Nat} (high : highValue < 16)
    (low : lowValue < 16) :
    hexByte (UInt8.ofNat (16 * highValue + lowValue)) =
      [hexDigit highValue, hexDigit lowValue] := by
  have asNat : (UInt8.ofNat (16 * highValue + lowValue)).toNat =
      16 * highValue + lowValue := by
    rw [UInt8.toNat_ofNat']
    exact Nat.mod_eq_of_lt (by omega)
  rw [hexByte, asNat]
  congr 2
  · omega
  · congr 1
    omega

theorem hexDecodeChars_eq_some_iff (digits : List Char) (bytes : Bytes) :
    hexDecodeChars digits = some bytes ↔ SpellsHex digits bytes := by
  fun_induction hexDecodeChars digits generalizing bytes with
  | case1 =>
      cases bytes with
      | nil => simp [SpellsHex]
      | cons byte rest => simp [SpellsHex, hexByte]
  | case2 digit =>
      cases bytes with
      | nil => simp [SpellsHex]
      | cons byte rest => simp [SpellsHex, hexByte]
  | case3 high low rest induction =>
      simp only [Option.bind_eq_bind, Option.bind_eq_some_iff, Option.pure_def,
        Option.some.injEq]
      constructor
      · intro decoded
        rcases decoded with
          ⟨highValue, highEq, lowValue, lowEq, others, othersEq, bytesEq⟩
        have highLt := hexValue_lt highEq
        have lowLt := hexValue_lt lowEq
        have restSpelled : SpellsHex rest others := (induction others).mp othersEq
        rw [← bytesEq]
        simp only [SpellsHex, List.map_cons, List.flatMap_cons,
          hexByte_ofNat highLt lowLt, List.cons_append, List.nil_append]
        rw [(hexValue_eq_some_iff high highLt).mp highEq,
          (hexValue_eq_some_iff low lowLt).mp lowEq, restSpelled]
      · intro spelled
        cases bytes with
        | nil => simp [SpellsHex] at spelled
        | cons byte others =>
            have byteBound := byte.toNat_lt
            simp only [SpellsHex, List.map_cons, List.flatMap_cons, hexByte,
              List.cons_append, List.nil_append, List.cons.injEq] at spelled
            rcases spelled with ⟨highSpelled, lowSpelled, restSpelled⟩
            refine ⟨_, (hexValue_eq_some_iff high (by omega)).mpr highSpelled, _,
              (hexValue_eq_some_iff low (by omega)).mpr lowSpelled, others,
              (induction others).mpr restSpelled, ?_⟩
            rw [Nat.div_add_mod, UInt8.ofNat_toNat]

theorem SpellsHex.length {digits : List Char} {bytes : Bytes}
    (spelled : SpellsHex digits bytes) : digits.length = 2 * bytes.length := by
  have lengths := congrArg List.length spelled
  simpa [hexByte, Nat.mul_comm] using lengths

theorem SpellsHex.ascii {digits : List Char} {bytes : Bytes}
    (spelled : SpellsHex digits bytes) : ∀ char ∈ digits, char.toNat < 128 := by
  intro char member
  have lowered : char.toLower ∈ bytes.flatMap hexByte := by
    rw [← spelled]
    exact List.mem_map_of_mem member
  rcases List.mem_flatMap.mp lowered with ⟨byte, _, isDigit⟩
  have byteBound := byte.toNat_lt
  by_contra notAscii
  have notHex := hexValue_of_not_ascii notAscii
  simp only [hexByte, List.mem_cons, List.not_mem_nil, or_false] at isDigit
  rcases isDigit with high | low
  · rw [(hexValue_eq_some_iff char (by omega)).mpr high] at notHex
    cases notHex
  · rw [(hexValue_eq_some_iff char (by omega)).mpr low] at notHex
    cases notHex

/-- No byte string is spelled with a second character `x`. -/
theorem SpellsHex.not_marked {marker first : Char} {rest : List Char} {bytes : Bytes}
    (notDigit : hexValue marker = none) :
    ¬ SpellsHex (first :: marker :: rest) bytes := by
  intro spelled
  have decoded := (hexDecodeChars_eq_some_iff _ _).mpr spelled
  rw [hexDecodeChars, notDigit] at decoded
  cases firstValue : hexValue first with
  | none => simp [firstValue] at decoded
  | some value => simp [firstValue] at decoded

end Foundation
