import Mathlib

/-! # Encodings that can be told from what follows them

An encoding of some values is prefix-free when the end of each can be found without
looking at what comes next, so that encodings written one after the other determine
their values. -/

namespace Foundation

universe u v

variable {σ : Type u} {α : Type v}

def PrefixFree (values : Set α) (write : α → List σ) : Prop :=
  ∀ left ∈ values, ∀ right ∈ values, ∀ leftRest rightRest,
    write left ++ leftRest = write right ++ rightRest → left = right ∧ leftRest = rightRest

namespace PrefixFree

variable {values : Set α} {write : α → List σ}

theorem injOn (free : PrefixFree values write) : Set.InjOn write values := by
  intro left leftMember right rightMember equal
  exact (free left leftMember right rightMember [] [] (congrArg (· ++ []) equal)).1

/-- An encoding in two parts, within a longer list. -/
theorem parts {first second : α → List σ}
    (free : PrefixFree values fun value => first value ++ second value) {left right : α}
    (leftMember : left ∈ values) (rightMember : right ∈ values) {leftRest rightRest : List σ}
    (equal : first left ++ (second left ++ leftRest) =
      first right ++ (second right ++ rightRest)) : left = right ∧ leftRest = rightRest := by
  rw [← List.append_assoc, ← List.append_assoc] at equal
  exact free left leftMember right rightMember _ _ equal

/-- Encodings of one length. -/
theorem of_length {width : Nat} (fixed : ∀ value ∈ values, (write value).length = width)
    (injective : Set.InjOn write values) : PrefixFree values write := by
  intro left leftMember right rightMember leftRest rightRest equal
  have parts := List.append_inj equal
    ((fixed left leftMember).trans (fixed right rightMember).symm)
  exact ⟨injective leftMember rightMember parts.1, parts.2⟩

/-- Data behind its length. -/
theorem lengthPrefixed {lengths : Set Nat} {writeLength : Nat → List σ}
    (free : PrefixFree lengths writeLength) :
    PrefixFree {data : List σ | data.length ∈ lengths}
      (fun data => writeLength data.length ++ data) := by
  intro left leftMember right rightMember leftRest rightRest equal
  rw [List.append_assoc, List.append_assoc] at equal
  have parts := free _ leftMember _ rightMember _ _ equal
  exact List.append_inj parts.2 parts.1

/-- As many elements, one after the other. -/
theorem flatMap (free : PrefixFree values write) {left right : List α}
    {leftRest rightRest : List σ} (sameLength : left.length = right.length)
    (leftMembers : ∀ value ∈ left, value ∈ values)
    (rightMembers : ∀ value ∈ right, value ∈ values)
    (equal : left.flatMap write ++ leftRest = right.flatMap write ++ rightRest) :
    left = right ∧ leftRest = rightRest := by
  induction left generalizing right with
  | nil =>
      cases right with
      | nil => exact ⟨rfl, equal⟩
      | cons head tail => cases sameLength
  | cons head tail induction =>
      cases right with
      | nil => cases sameLength
      | cons other others =>
          rw [List.flatMap_cons, List.flatMap_cons, List.append_assoc, List.append_assoc]
            at equal
          have heads := free head (leftMembers head List.mem_cons_self) other
            (rightMembers other List.mem_cons_self) _ _ equal
          have tails := induction (Nat.succ.inj sameLength)
            (fun value member => leftMembers value (List.mem_cons_of_mem _ member))
            (fun value member => rightMembers value (List.mem_cons_of_mem _ member)) heads.2
          exact ⟨by rw [heads.1, tails.1], tails.2⟩

/-- Elements behind their count. -/
theorem counted {counts : Set Nat} {writeCount : Nat → List σ}
    (countFree : PrefixFree counts writeCount) (free : PrefixFree values write) :
    PrefixFree {elements : List α | elements.length ∈ counts ∧
        ∀ value ∈ elements, value ∈ values}
      (fun elements => writeCount elements.length ++ elements.flatMap write) := by
  intro left leftMember right rightMember leftRest rightRest equal
  rw [List.append_assoc, List.append_assoc] at equal
  have parts := countFree _ leftMember.1 _ rightMember.1 _ _ equal
  exact free.flatMap parts.1 leftMember.2 rightMember.2 parts.2

end PrefixFree

end Foundation
