import Mathlib

/-! # Block trees

Blocks name their parent, and heights rule out cycles. The lineage of a block
is its branch down to the root, nearest block first; its history is the same
branch in the order the blocks were made. Half-open ranges of a history are
the blocks after one of its members up to its end. -/

namespace Foundation

structure BlockTree (Hash : Type u) where
  parent : Hash → Option Hash
  height : Hash → Nat
  height_of_parent : ∀ {child base}, parent child = some base →
    height base < height child

namespace BlockTree

variable {Hash : Type u} (tree : BlockTree Hash)

/-- At most `fuel + 1` blocks of a branch. -/
def lineageWithin : (fuel : Nat) → Hash → List Hash
  | 0, block => [block]
  | fuel + 1, block =>
      match tree.parent block with
      | none => [block]
      | some base => block :: lineageWithin fuel base

/-- The branch of a block down to the root, the block itself first. -/
def lineage (block : Hash) : List Hash := tree.lineageWithin (tree.height block) block

/-- The branch of a block, oldest block first and the block itself last. -/
def history (block : Hash) : List Hash := (tree.lineage block).reverse

/-! ## The lineage recursion -/

theorem lineageWithin_of_height_le {fuel : Nat} {block : Hash}
    (enough : tree.height block ≤ fuel) :
    tree.lineageWithin fuel block = tree.lineage block := by
  induction fuel using Nat.strong_induction_on generalizing block with
  | _ fuel induction =>
      cases fuel with
      | zero =>
          have atRoot : tree.height block = 0 := by omega
          rw [lineage, atRoot]
      | succ fuel =>
          cases known : tree.parent block with
          | none =>
              rw [lineageWithin, lineage]
              cases tree.height block <;> simp [lineageWithin, known]
          | some base =>
              have lower := tree.height_of_parent known
              obtain ⟨below, heightEq⟩ : ∃ below, tree.height block = below + 1 :=
                ⟨tree.height block - 1, by omega⟩
              rw [lineage, heightEq, lineageWithin, lineageWithin, known]
              simp only [List.cons.injEq, true_and]
              rw [induction fuel (by omega) (by omega),
                induction below (by omega) (by omega)]

theorem lineage_of_root {block : Hash} (root : tree.parent block = none) :
    tree.lineage block = [block] := by
  rw [lineage]
  cases tree.height block <;> simp [lineageWithin, root]

theorem lineage_of_parent {block base : Hash} (known : tree.parent block = some base) :
    tree.lineage block = block :: tree.lineage base := by
  have lower := tree.height_of_parent known
  rw [← tree.lineageWithin_of_height_le (Nat.le_succ (tree.height block)),
    lineageWithin, known]
  simp only [List.cons.injEq, true_and]
  exact tree.lineageWithin_of_height_le lower.le

/-- Induction from the root up. -/
theorem inductionOn {motive : Hash → Prop} (block : Hash)
    (root : ∀ block, tree.parent block = none → motive block)
    (child : ∀ block base, tree.parent block = some base → motive base → motive block) :
    motive block := by
  generalize heightEq : tree.height block = height
  induction height using Nat.strong_induction_on generalizing block with
  | _ height induction =>
      cases known : tree.parent block with
      | none => exact root block known
      | some base =>
          have lower := tree.height_of_parent known
          exact child block base known (induction _ (by omega) base rfl)

theorem lineage_eq_cons (block : Hash) :
    ∃ rest, tree.lineage block = block :: rest := by
  cases known : tree.parent block with
  | none => exact ⟨[], tree.lineage_of_root known⟩
  | some base => exact ⟨_, tree.lineage_of_parent known⟩

@[simp] theorem mem_lineage_self (block : Hash) : block ∈ tree.lineage block := by
  obtain ⟨rest, equal⟩ := tree.lineage_eq_cons block
  simp [equal]

theorem height_le_of_mem_lineage {block ancestor : Hash}
    (member : ancestor ∈ tree.lineage block) :
    tree.height ancestor ≤ tree.height block := by
  induction block using tree.inductionOn with
  | root block root =>
      rw [tree.lineage_of_root root] at member
      simp [List.mem_singleton.mp member]
  | child block base known induction =>
      rw [tree.lineage_of_parent known] at member
      rcases List.mem_cons.mp member with equal | inBase
      · rw [equal]
      · exact (induction inBase).trans (tree.height_of_parent known).le

/-- Above an ancestor a branch only adds newer blocks. -/
theorem lineage_eq_append_of_mem {block ancestor : Hash}
    (member : ancestor ∈ tree.lineage block) :
    ∃ newer, tree.lineage block = newer ++ tree.lineage ancestor ∧
      ancestor ∉ newer := by
  induction block using tree.inductionOn with
  | root block root =>
      rw [tree.lineage_of_root root] at member
      rw [List.mem_singleton.mp member]
      exact ⟨[], rfl, by simp⟩
  | child block base known induction =>
      by_cases atBlock : ancestor = block
      · rw [atBlock]
        exact ⟨[], rfl, by simp⟩
      · rw [tree.lineage_of_parent known] at member ⊢
        rcases List.mem_cons.mp member with equal | inBase
        · exact absurd equal atBlock
        · obtain ⟨newer, split, absent⟩ := induction inBase
          refine ⟨block :: newer, by rw [split, List.cons_append], ?_⟩
          simp [atBlock, absent]

theorem mem_lineage_trans {first second third : Hash}
    (firstMem : first ∈ tree.lineage second)
    (secondMem : second ∈ tree.lineage third) : first ∈ tree.lineage third := by
  obtain ⟨newer, split, _⟩ := tree.lineage_eq_append_of_mem secondMem
  rw [split]
  exact List.mem_append_right _ firstMem

theorem lineage_nodup (block : Hash) : (tree.lineage block).Nodup := by
  induction block using tree.inductionOn with
  | root block root =>
      rw [tree.lineage_of_root root]
      exact List.nodup_singleton block
  | child block base known induction =>
      rw [tree.lineage_of_parent known]
      refine List.nodup_cons.mpr ⟨fun member => ?_, induction⟩
      have bound := tree.height_le_of_mem_lineage member
      have lower := tree.height_of_parent known
      omega

/-- What follows a block on a branch is the rest of its own lineage. -/
theorem lineage_eq_of_split {block stop : Hash} {newer older : List Hash}
    (split : tree.lineage stop = newer ++ block :: older) :
    tree.lineage block = block :: older := by
  induction newer generalizing stop with
  | nil =>
      rcases tree.lineage_eq_cons stop with ⟨rest, stopFirst⟩
      rw [List.nil_append] at split
      have sameBlock : stop = block := by
        rw [stopFirst] at split
        exact (List.cons.inj split).1
      rw [← sameBlock, split, sameBlock]
  | cons newest newer induction =>
      cases known : tree.parent stop with
      | none =>
          rw [tree.lineage_of_root known] at split
          simp at split
      | some base =>
          rw [tree.lineage_of_parent known] at split
          exact induction (List.cons.inj split).2

theorem mem_tail_lineage {block ancestor : Hash} :
    ancestor ∈ (tree.lineage block).tail ↔
      ancestor ∈ tree.lineage block ∧ ancestor ≠ block := by
  rcases tree.lineage_eq_cons block with ⟨rest, blockFirst⟩
  have nodup := tree.lineage_nodup block
  rw [blockFirst] at nodup ⊢
  have notInRest := (List.nodup_cons.mp nodup).1
  constructor
  · intro member
    exact ⟨List.mem_cons_of_mem _ member, fun equal => notInRest (equal ▸ member)⟩
  · intro facts
    rcases List.mem_cons.mp facts.1 with equal | inRest
    · exact absurd equal facts.2
    · exact inRest

/-- A proper ancestor stays one higher up the branch. -/
theorem mem_tail_lineage_trans {first second third : Hash}
    (firstMem : first ∈ (tree.lineage second).tail)
    (secondMem : second ∈ tree.lineage third) : first ∈ (tree.lineage third).tail := by
  rcases tree.mem_tail_lineage.mp firstMem with ⟨inSecond, different⟩
  refine tree.mem_tail_lineage.mpr ⟨tree.mem_lineage_trans inSecond secondMem, ?_⟩
  intro equal
  subst equal
  rcases tree.lineage_eq_append_of_mem secondMem with ⟨newer, split, absent⟩
  rcases tree.lineage_eq_append_of_mem inSecond with ⟨between, secondSplit, notBetween⟩
  have lengths := congrArg List.length split
  have secondLengths := congrArg List.length secondSplit
  rw [List.length_append] at lengths secondLengths
  have noneBetween : between = [] := List.eq_nil_of_length_eq_zero (by omega)
  rw [noneBetween, List.nil_append] at secondSplit
  rcases tree.lineage_eq_cons second with ⟨_, secondFirst⟩
  rcases tree.lineage_eq_cons first with ⟨_, firstFirst⟩
  rw [secondFirst, firstFirst] at secondSplit
  exact different (List.cons.inj secondSplit).1.symm

/-! ## Ranges -/

section Ranges

variable [DecidableEq Hash]

/-- The blocks after `start` (from the root when there is none) up to and
including `stop`, oldest first. -/
def range (start : Option Hash) (stop : Hash) : List Hash :=
  match start with
  | none => tree.history stop
  | some start => ((tree.lineage stop).takeWhile (· ≠ start)).reverse

theorem history_append_range {start stop : Hash}
    (onBranch : start ∈ tree.lineage stop) :
    tree.history start ++ tree.range (some start) stop = tree.history stop := by
  obtain ⟨newer, split, absent⟩ := tree.lineage_eq_append_of_mem onBranch
  obtain ⟨rest, startFirst⟩ := tree.lineage_eq_cons start
  have newerOnly : (tree.lineage stop).takeWhile (· ≠ start) = newer := by
    rw [split, startFirst, List.takeWhile_append_of_pos]
    · simp
    · intro block member
      have different : block ≠ start := fun equal => absent (equal ▸ member)
      simpa using different
  rw [range, newerOnly, history, history, split, List.reverse_append]

end Ranges

end BlockTree

end Foundation
