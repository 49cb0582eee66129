import Beth.Foundation.HexSpelling
import Beth.Node.EnforcerClient

/-! # What the wire value of a deposit destination stands for

A wire value spells, in hexadecimal, the UTF-8 bytes of a text that itself
spells an account. The parser accepts exactly these values. -/

namespace Beth

open Foundation

/-- The text spells the bytes in hexadecimal, behind one of the markers or none. -/
def SpellsBehind (markers : List String) (text : String) (bytes : Bytes) : Prop :=
  ∃ marker ∈ "" :: markers, ∃ digits,
    text.toList = marker.toList ++ digits ∧ SpellsHex digits bytes

def utf8Bytes (text : String) : Bytes := text.toByteArray.data.toList

/-- The forty digits of an account, with or without `0x`. -/
def SpellsAddress (text : String) (address : Address) : Prop :=
  SpellsBehind ["0x"] text address.bytes

/-- The digits of a text's UTF-8 bytes, with or without `0x` or `0X`. -/
def SpellsOnWire (wire text : String) : Prop :=
  SpellsBehind ["0x", "0X"] wire (utf8Bytes text)

/-! ## Markers -/

/-- Two characters, the second of which is no hexadecimal digit. -/
def IsMarker (marker : String) : Prop :=
  ∃ first second, marker.toList = [first, second] ∧ hexValue second = none

theorem isMarker_of_mem {marker : String} (member : marker ∈ ["0x", "0X"]) :
    IsMarker marker := by
  simp only [List.mem_cons, List.not_mem_nil, or_false] at member
  rcases member with lower | upper
  · exact ⟨'0', 'x', by simp [lower], by decide⟩
  · exact ⟨'0', 'X', by simp [upper], by decide⟩

section Marker

variable {markers : List String} {text : String} {bytes : Bytes}

/-- Behind a marker the rest of the text has to be the digits. -/
theorem spellsBehind_of_marked (areMarkers : ∀ marker ∈ markers, IsMarker marker)
    {marker : String} {rest : List Char} (member : marker ∈ markers)
    (marked : text.toList = marker.toList ++ rest) :
    SpellsBehind markers text bytes ↔ SpellsHex rest bytes := by
  constructor
  · intro behind
    rcases behind with ⟨other, otherMem, digits, textEq, spelled⟩
    rcases areMarkers marker member with ⟨first, second, markerEq, notDigit⟩
    rw [marked, markerEq] at textEq
    rcases List.mem_cons.mp otherMem with isNone | isOther
    · rw [isNone] at textEq
      rw [show digits = first :: second :: rest by simpa using textEq.symm] at spelled
      exact absurd spelled (SpellsHex.not_marked notDigit)
    · rcases areMarkers other isOther with ⟨_, _, otherEq, _⟩
      rw [otherEq] at textEq
      rw [(List.append_inj textEq rfl).2]
      exact spelled
  · intro spelled
    exact ⟨marker, List.mem_cons_of_mem _ member, rest, marked, spelled⟩

/-- Without a marker the whole text has to be the digits. -/
theorem spellsBehind_of_unmarked
    (unmarked : ∀ marker ∈ markers, ∀ rest, text.toList ≠ marker.toList ++ rest) :
    SpellsBehind markers text bytes ↔ SpellsHex text.toList bytes := by
  constructor
  · intro behind
    rcases behind with ⟨marker, member, digits, textEq, spelled⟩
    rcases List.mem_cons.mp member with isNone | isMarker
    · rw [isNone] at textEq
      rw [show text.toList = digits by simpa using textEq]
      exact spelled
    · exact absurd textEq (unmarked marker isMarker digits)
  · intro spelled
    exact ⟨"", List.mem_cons_self, text.toList, by simp, spelled⟩

end Marker

theorem isMarker_of_mem_address {marker : String} (member : marker ∈ ["0x"]) :
    IsMarker marker := by
  apply isMarker_of_mem
  simp [List.mem_singleton.mp member]

theorem SpellsBehind.length {markers : List String} {text : String} {bytes : Bytes}
    (areMarkers : ∀ marker ∈ markers, IsMarker marker)
    (behind : SpellsBehind markers text bytes) :
    text.length = 2 * bytes.length ∨ text.length = 2 * bytes.length + 2 := by
  rcases behind with ⟨marker, member, digits, textEq, spelled⟩
  rw [← String.length_toList, textEq, List.length_append, spelled.length]
  rcases List.mem_cons.mp member with isNone | isMarker
  · left
    rw [isNone]
    simp
  · right
    rcases areMarkers marker isMarker with ⟨first, second, markerEq, _⟩
    rw [markerEq, Nat.add_comm]
    rfl

/-! ## The two levels of the parser -/

theorem hexDecode_strip0x_eq_some_iff (wire : String) (bytes : Bytes) :
    hexDecode (strip0x wire) = some bytes ↔ SpellsBehind ["0x", "0X"] wire bytes := by
  have decodes : hexDecode (strip0x wire) = some bytes ↔
      SpellsHex (strip0x wire).toList bytes := hexDecodeChars_eq_some_iff _ _
  rw [decodes]
  unfold strip0x
  split
  · rename_i rest marked
    rw [String.toList_ofList]
    exact (spellsBehind_of_marked (fun _ => isMarker_of_mem) List.mem_cons_self marked).symm
  · rename_i rest marked
    rw [String.toList_ofList]
    exact (spellsBehind_of_marked (fun _ => isMarker_of_mem)
      (List.mem_cons_of_mem _ List.mem_cons_self) marked).symm
  · rename_i notLower notUpper
    apply Iff.symm
    apply spellsBehind_of_unmarked
    intro marker member rest marked
    simp only [List.mem_cons, List.not_mem_nil, or_false] at member
    rcases member with lower | upper
    · exact notLower rest (by simpa [lower] using marked)
    · exact notUpper rest (by simpa [upper] using marked)

theorem addressFromStr_eq_some_iff (text : String) (address : Address) :
    addressFromStr text = some address ↔ SpellsAddress text address := by
  have decodes : ∀ digits, (hexDecodeChars digits).bind (FixedBytes.tryFrom 20) =
      some address ↔ SpellsHex digits address.bytes := by
    intro digits
    rw [← hexDecodeChars_eq_some_iff, Option.bind_eq_some_iff]
    constructor
    · intro found
      rcases found with ⟨bytes, decoded, fixed⟩
      rw [FixedBytes.tryFrom_eq_some fixed]
      exact decoded
    · intro decoded
      exact ⟨address.bytes, decoded, by simp⟩
  unfold addressFromStr SpellsAddress
  dsimp only
  rw [decodes]
  split
  · rename_i rest marked
    exact (spellsBehind_of_marked (fun _ => isMarker_of_mem_address) List.mem_cons_self
      marked).symm
  · rename_i unmarked
    apply Iff.symm
    apply spellsBehind_of_unmarked
    intro marker member rest marked
    apply unmarked rest
    rw [marked, List.mem_singleton.mp member]
    simp

theorem fromUTF8_eq_some_iff (bytes : Bytes) (text : String) :
    String.fromUTF8? bytes.toByteArray = some text ↔ utf8Bytes text = bytes := by
  unfold String.fromUTF8? utf8Bytes
  constructor
  · intro decoded
    split at decoded
    · cases decoded
      simp [String.fromUTF8]
    · cases decoded
  · intro encoded
    have sameBytes : bytes.toByteArray = text.toByteArray := by
      apply ByteArray.ext
      rw [← Array.toList_inj, List.toList_data_toByteArray, encoded]
    rw [sameBytes, dif_pos text.isValidUTF8]
    rfl

theorem length_utf8Bytes {text : String} (ascii : ∀ char ∈ text.toList, char.toNat < 128) :
    (utf8Bytes text).length = text.length := by
  rcases text.exists_eq_ofList with ⟨chars, textEq⟩
  subst textEq
  rw [String.toList_ofList] at ascii
  rw [utf8Bytes, String.toByteArray_ofList, List.utf8Encode, List.toList_data_toByteArray,
    List.length_flatMap, String.length_ofList]
  have ones : chars.map (fun char => (String.utf8EncodeChar char).length) =
      chars.map fun _ => 1 := by
    apply List.map_congr_left
    intro char member
    have small : char.val ≤ 0x7F := by
      rw [UInt32.le_iff_toNat_le]
      exact Nat.le_of_lt_succ (ascii char member)
    rw [String.length_utf8EncodeChar, Char.utf8Size]
    exact if_pos small
  rw [ones]
  simp

theorem SpellsAddress.ascii {text : String} {address : Address}
    (spelled : SpellsAddress text address) : ∀ char ∈ text.toList, char.toNat < 128 := by
  rcases spelled with ⟨marker, member, digits, textEq, digitsSpelled⟩
  intro char inText
  rw [textEq] at inText
  rcases List.mem_append.mp inText with inMarker | inDigits
  · have markersAscii : ∀ marker ∈ ["", "0x"],
        marker.toList.all (fun char => char.toNat < 128) := by decide
    exact of_decide_eq_true (List.all_eq_true.mp (markersAscii marker member) char inMarker)
  · exact digitsSpelled.ascii char inDigits

theorem okOr_eq_ok_iff {value : Option α} {failure : EnforcerError} {found : α} :
    okOr value failure = .ok found ↔ value = some found := by
  cases value <;> simp [okOr]

/-! ## Which values are accepted, and for which account -/

end Beth
