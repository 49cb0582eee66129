import Mathlib

/-! # Greedy prefixes of ranked lists

Elements are taken from the front of a list while what was taken still fits.
When everything contained in a fitting choice fits, this is the longest fitting
prefix, and whether an element of a ranked list is taken depends only on the
elements that are not ranked after it. -/

namespace Foundation

variable {α : Type u}

/-! ## Ranked lists -/

section Ranking

variable {Before : α → α → Prop}

/-- Every element comes strictly before the later ones. -/
def Ranked (Before : α → α → Prop) (elements : List α) : Prop :=
  elements.Pairwise fun earlier later => Before earlier later ∧ ¬ Before later earlier

theorem Ranked.antisymm {elements : List α} (ranked : Ranked Before elements)
    {left right : α} (leftMem : left ∈ elements) (rightMem : right ∈ elements)
    (forward : Before left right) (backward : Before right left) : left = right := by
  have apart : elements.Pairwise fun earlier later =>
      earlier = later ∨ ¬ (Before earlier later ∧ Before later earlier) :=
    ranked.imp fun strict => .inr fun both => strict.2 both.2
  have symmetric : Std.Symm fun earlier later : α =>
      earlier = later ∨ ¬ (Before earlier later ∧ Before later earlier) := by
    constructor
    intro earlier later either
    rcases either with equal | strict
    · exact .inl equal.symm
    · exact .inr fun both => strict both.symm
  by_contra different
  rcases apart.forall leftMem rightMem different with equal | strict
  · exact different equal
  · exact strict ⟨forward, backward⟩

theorem Ranked.nodup {elements : List α} (ranked : Ranked Before elements) :
    elements.Nodup :=
  ranked.imp fun {earlier later} strict equal => by
    rw [equal] at strict
    exact strict.2 strict.1

/-- The elements of a ranked list determine the list. -/
theorem Ranked.eq_of_perm {left right : List α} (leftRanked : Ranked Before left)
    (rightRanked : Ranked Before right) (perm : left.Perm right) : left = right := by
  apply perm.eq_of_pairwise _ (leftRanked.imp And.left) (rightRanked.imp And.left)
  intro first second firstMem secondMem
  exact leftRanked.antisymm firstMem (perm.mem_iff.mpr secondMem)

/-- Sorting ranks a list on which the order is strict. -/
theorem ranked_insertionSort [DecidableRel Before] [Std.Total Before] [IsTrans α Before]
    {elements : List α} (nodup : elements.Nodup)
    (antisymm : ∀ left ∈ elements, ∀ right ∈ elements, Before left right →
      Before right left → left = right) :
    Ranked Before (elements.insertionSort Before) := by
  have sorted := List.pairwise_insertionSort Before elements
  have perm := elements.perm_insertionSort Before
  have distinct : (elements.insertionSort Before).Nodup := perm.nodup_iff.mpr nodup
  apply (sorted.and distinct).imp_of_mem
  intro earlier later earlierMem laterMem both
  refine ⟨both.1, fun backward => both.2 ?_⟩
  exact antisymm _ (perm.mem_iff.mp earlierMem) _ (perm.mem_iff.mp laterMem) both.1 backward

end Ranking

/-! ## Taking while it fits -/

section Taking

variable (Fits : List α → Prop) [DecidablePred Fits]

def takeFitting : List α → List α → List α
  | taken, [] => taken
  | taken, next :: rest =>
      if Fits (taken ++ [next]) then takeFitting (taken ++ [next]) rest else taken

/-- A fitting prefix that no longer fits with the element after it. -/
structure LongestFitting (offered chosen : List α) : Prop where
  isPrefix : chosen <+: offered
  fits : Fits chosen
  maximal : ∀ next, chosen ++ [next] <+: offered → ¬ Fits (chosen ++ [next])

variable {Fits}

theorem takeFitting_spec {taken : List α} (fits : Fits taken) (offered : List α) :
    ∃ chosen, takeFitting Fits taken offered = taken ++ chosen ∧ chosen <+: offered ∧
      Fits (taken ++ chosen) ∧
      ∀ next, chosen ++ [next] <+: offered → ¬ Fits (taken ++ chosen ++ [next]) := by
  induction offered generalizing taken with
  | nil => exact ⟨[], by simp [takeFitting], by simp, by simpa using fits, by simp⟩
  | cons head rest induction =>
      rw [takeFitting]
      split
      · rename_i headFits
        rcases induction headFits with ⟨chosen, takenEq, isPrefix, chosenFits, maximal⟩
        refine ⟨head :: chosen, by simp [takenEq], by simpa using isPrefix,
          by simpa using chosenFits, ?_⟩
        intro next longer
        have inRest : chosen ++ [next] <+: rest := by simpa using longer
        simpa using maximal next inRest
      · rename_i headMisfits
        refine ⟨[], by simp, by simp, by simpa using fits, ?_⟩
        intro next longer
        have nextEq : next = head := by simpa using longer
        simpa [nextEq] using headMisfits

theorem longestFitting_takeFitting (fitsNothing : Fits []) (offered : List α) :
    LongestFitting Fits offered (takeFitting Fits [] offered) := by
  rcases takeFitting_spec fitsNothing offered with ⟨chosen, takenEq, isPrefix, fits, maximal⟩
  rw [List.nil_append] at takenEq
  rw [takenEq]
  exact ⟨isPrefix, fits, maximal⟩

end Taking

/-! ## When less fits as well -/

section Shrinking

variable {Fits : List α → Prop} {offered chosen : List α}
  (shrinks : ∀ fewer more : List α, fewer.Sublist more → Fits more → Fits fewer)

include shrinks

/-- No fitting prefix is longer. -/
theorem LongestFitting.prefix_of_fits (longest : LongestFitting Fits offered chosen)
    {other : List α} (isPrefix : other <+: offered) (fits : Fits other) :
    other <+: chosen := by
  rcases List.prefix_or_prefix_of_prefix isPrefix longest.isPrefix with shorter | longer
  · exact shorter
  · rcases longer with ⟨tail, otherEq⟩
    cases tail with
    | nil =>
        rw [← otherEq, List.append_nil]
    | cons next rest =>
        have extended : chosen ++ [next] <+: other := by
          rw [← otherEq]
          simp
        exact absurd (shrinks _ _ extended.sublist fits)
          (longest.maximal next (extended.trans isPrefix))

theorem LongestFitting.eq_nil_iff (longest : LongestFitting Fits offered chosen) :
    chosen = [] ↔ ∀ head ∈ offered.head?, ¬ Fits [head] := by
  constructor
  · intro empty head isHead headFits
    rcases List.head?_eq_some_iff.mp isHead with ⟨rest, offeredEq⟩
    have inside := longest.prefix_of_fits shrinks (by simp [offeredEq]) headFits
    simp [empty] at inside
  · intro misfit
    rcases longest.isPrefix with ⟨rest, offeredEq⟩
    cases chosen with
    | nil => rfl
    | cons head others =>
        have headFits : Fits [head] := shrinks _ _ (by simp) longest.fits
        exact absurd headFits (misfit head (by simp [← offeredEq]))

/-- An element is taken iff everything not ranked after it fits together. -/
theorem LongestFitting.mem_iff {Before : α → α → Prop} [DecidableRel Before]
    (refl : ∀ element, Before element element) (ranked : Ranked Before offered)
    (longest : LongestFitting Fits offered chosen) {element : α}
    (member : element ∈ offered) :
    element ∈ chosen ↔ Fits (offered.filter fun other => Before other element) := by
  rcases longest.isPrefix with ⟨later, offeredEq⟩
  have parts : Ranked Before (chosen ++ later) := offeredEq ▸ ranked
  have crossing := (List.pairwise_append.mp parts).2.2
  rw [← offeredEq, List.filter_append]
  constructor
  · intro taken
    have noneLater : later.filter (fun other => Before other element) = [] := by
      rw [List.filter_eq_nil_iff]
      intro other otherMem
      simpa using (crossing element taken other otherMem).2
    rw [noneLater, List.append_nil]
    exact shrinks _ _ List.filter_sublist longest.fits
  · intro fits
    rw [← offeredEq] at member
    rcases List.mem_append.mp member with taken | left
    · exact taken
    · have allChosen : chosen.filter (fun other => Before other element) = chosen := by
        rw [List.filter_eq_self]
        intro other otherMem
        simpa using (crossing other otherMem element left).1
      rw [allChosen] at fits
      cases later with
      | nil => simp at left
      | cons next rest =>
          have nextBefore : Before next element := by
            rcases List.mem_cons.mp left with isNext | inRest
            · exact isNext ▸ refl element
            · have tail := (List.pairwise_append.mp parts).2.1
              exact ((List.pairwise_cons.mp tail).1 element inRest).1
          have smaller : (chosen ++ [next]).Sublist
              (chosen ++ (next :: rest).filter fun other => Before other element) := by
            simp [nextBefore]
          have isPrefix : chosen ++ [next] <+: offered := by
            rw [← offeredEq]
            simp
          exact absurd (shrinks _ _ smaller fits) (longest.maximal next isPrefix)

end Shrinking

end Foundation
