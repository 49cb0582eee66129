import Mathlib

/-! # Memory reached through addresses

A program means locations, and a flat memory keeps one word at each key. The
address of a location says which key that is. As long as the locations in use
have addresses of their own, a batch of writes does to the memory what it does
to the contents. -/

namespace Foundation

variable {Location : Type u} {Key : Type v} {Word : Type w} [DecidableEq Key]

/-- Write words to the addresses of locations, in order. -/
def storeAll (address : Location → Key) (writes : List (Location × Word))
    (memory : Key → Word) : Key → Word :=
  writes.foldl (fun memory write => Function.update memory (address write.1) write.2) memory

/-- The memory keeps the contents of each used location at its address, and a
blank word at every other key. -/
structure Keeps (address : Location → Key) (blank : Word) (used : Set Location)
    (contents : Location → Word) (memory : Key → Word) : Prop where
  kept : ∀ location ∈ used, memory (address location) = contents location
  elsewhere : ∀ key, key ∉ address '' used → memory key = blank

section StoreAll

variable (address : Location → Key) {writes : List (Location × Word)} {key : Key}

theorem storeAll_of_not_written (memory : Key → Word)
    (notWritten : ∀ write ∈ writes, address write.1 ≠ key) :
    storeAll address writes memory key = memory key := by
  induction writes generalizing memory with
  | nil => rfl
  | cons write rest induction =>
      have different : key ≠ address write.1 := (notWritten write (by simp)).symm
      change storeAll address rest (Function.update memory (address write.1) write.2) key = _
      rw [induction _ fun other member => notWritten other (by simp [member]),
        Function.update_of_ne different]

/-- Writes to one key that agree on the word leave that word there. -/
theorem storeAll_of_written (memory : Key → Word) {word : Word}
    (agree : ∀ write ∈ writes, address write.1 = key → write.2 = word)
    (written : ∃ write ∈ writes, address write.1 = key) :
    storeAll address writes memory key = word := by
  induction writes generalizing memory with
  | nil => simp at written
  | cons write rest induction =>
      change storeAll address rest (Function.update memory (address write.1) write.2) key = _
      by_cases again : ∃ other ∈ rest, address other.1 = key
      · exact induction _ (fun other member => agree other (by simp [member])) again
      · have here : address write.1 = key := by
          rcases written with ⟨other, member, atKey⟩
          rcases List.mem_cons.mp member with isWrite | inRest
          · exact isWrite ▸ atKey
          · exact absurd ⟨other, inRest, atKey⟩ again
        rw [storeAll_of_not_written address _ fun other member atKey =>
          again ⟨other, member, atKey⟩, ← here, Function.update_self]
        exact agree write (by simp) here

end StoreAll

namespace Keeps

variable {address : Location → Key} {blank : Word} {used later : Set Location}
  {contents newContents : Location → Word} {memory : Key → Word}

omit [DecidableEq Key] in
/-- A location that comes into use still has a blank word at its address. -/
theorem blank_of_fresh (keeps : Keeps address blank used contents memory)
    (grown : used ⊆ later) (distinct : Set.InjOn address later) {location : Location}
    (inUse : location ∈ later) (fresh : location ∉ used) :
    memory (address location) = blank := by
  apply keeps.elsewhere
  rintro ⟨other, otherUsed, sameAddress⟩
  exact fresh (distinct (grown otherUsed) inUse sameAddress ▸ otherUsed)

/-- A batch of writes that turns the old contents into the new ones keeps the
memory in step, provided the locations used afterwards have distinct addresses. -/
theorem storeAll (keeps : Keeps address blank used contents memory)
    (grown : used ⊆ later) (distinct : Set.InjOn address later)
    {writes : List (Location × Word)}
    (written : ∀ write ∈ writes, write.1 ∈ later ∧ write.2 = newContents write.1)
    (unwritten : ∀ location ∈ later, (∀ write ∈ writes, write.1 ≠ location) →
      newContents location = contents location)
    (freshBlank : ∀ location ∈ later, location ∉ used → contents location = blank) :
    Keeps address blank later newContents (storeAll address writes memory) where
  kept := fun location inUse => by
    have sameLocation : ∀ write ∈ writes, address write.1 = address location →
        write.1 = location := fun write member sameAddress =>
      distinct (written write member).1 inUse sameAddress
    by_cases isWritten : ∃ write ∈ writes, write.1 = location
    · apply storeAll_of_written
      · intro write member sameAddress
        rw [(written write member).2, sameLocation write member sameAddress]
      · rcases isWritten with ⟨write, member, atLocation⟩
        exact ⟨write, member, by rw [atLocation]⟩
    · rw [storeAll_of_not_written address _ fun write member sameAddress =>
          isWritten ⟨write, member, sameLocation write member sameAddress⟩,
        unwritten location inUse fun write member atLocation =>
          isWritten ⟨write, member, atLocation⟩]
      by_cases wasUsed : location ∈ used
      · exact keeps.kept location wasUsed
      · rw [freshBlank location inUse wasUsed]
        exact keeps.blank_of_fresh grown distinct inUse wasUsed
  elsewhere := fun key notUsed => by
    rw [storeAll_of_not_written address _ fun write member atKey =>
      notUsed ⟨write.1, (written write member).1, atKey⟩]
    apply keeps.elsewhere
    rintro ⟨location, wasUsed, atKey⟩
    exact notUsed ⟨location, grown wasUsed, atKey⟩

end Keeps

end Foundation
