import Mathlib

/-! # Replicas that compute what they store

Every node stores values by key and computes the value of a key from a value it
stores under another one. Where the key settles what the computation starts from
and what it gives, nodes that store keys in any order agree on those they share. -/

namespace Foundation

universe u v w

variable {Node : Type u} {Key : Type v} {Value : Type w}

/-- How values come about. `computes key parent base value` says that `value` is
one the computation may give for `key` on the value `base` of `parent`. -/
structure Computation (Key : Type v) (Value : Type w) where
  root : Key → Option Value
  computes : Key → Key → Value → Value → Prop

namespace Computation

variable (computation : Computation Key Value)

/-- The values obtained from a root, one computation after the other. -/
inductive Derives : Key → Value → Prop
  | root {key value} : computation.root key = some value → Derives key value
  | computed {key parent base value} : Derives parent base →
      computation.computes key parent base value → Derives key value

/-- A key that is computed is no root, has one parent, and has one value on each
value of that parent. -/
structure Deterministic : Prop where
  notRoot : ∀ {key parent base value}, computation.computes key parent base value →
    computation.root key = none
  parent : ∀ {key parent other base otherBase value otherValue},
    computation.computes key parent base value →
    computation.computes key other otherBase otherValue → parent = other
  value : ∀ {key parent base value otherValue},
    computation.computes key parent base value →
    computation.computes key parent base otherValue → value = otherValue

variable {computation}

theorem Derives.unique (deterministic : computation.Deterministic) {key : Key}
    {value other : Value} (derived : computation.Derives key value)
    (otherDerived : computation.Derives key other) : value = other := by
  induction derived generalizing other with
  | root isRoot =>
      cases otherDerived with
      | root otherIsRoot => exact Option.some.inj (isRoot.symm.trans otherIsRoot)
      | computed _ computes =>
          rw [deterministic.notRoot computes] at isRoot
          cases isRoot
  | computed _ computes induction =>
      cases otherDerived with
      | root otherIsRoot =>
          rw [deterministic.notRoot computes] at otherIsRoot
          cases otherIsRoot
      | computed otherBase otherComputes =>
          cases deterministic.parent computes otherComputes
          cases induction otherBase
          exact deterministic.value computes otherComputes

/-- A value that is no root was computed. -/
theorem Derives.exists_computes {key : Key} {value : Value}
    (derived : computation.Derives key value) (notRoot : computation.root key = none) :
    ∃ parent base, computation.Derives parent base ∧
      computation.computes key parent base value := by
  cases derived with
  | root isRoot =>
      rw [notRoot] at isRoot
      cases isRoot
  | computed base computes => exact ⟨_, _, base, computes⟩

variable (computation)

/-- All that the nodes store is derived. -/
def Stored (stores : Node → Key → Option Value) : Prop :=
  ∀ node key value, stores node key = some value → computation.Derives key value

variable {computation}

theorem Stored.agree {stores : Node → Key → Option Value}
    (stored : computation.Stored stores) (deterministic : computation.Deterministic)
    {left right : Node} {key : Key} {value other : Value}
    (onLeft : stores left key = some value) (onRight : stores right key = some other) :
    value = other :=
  (stored left key value onLeft).unique deterministic (stored right key other onRight)

/-- One node stores a value it computed from what it had stored. -/
theorem Stored.compute [DecidableEq Node] [DecidableEq Key]
    {stores : Node → Key → Option Value} (stored : computation.Stored stores) {node : Node}
    {key parent : Key} {base value : Value} (hasParent : stores node parent = some base)
    (computes : computation.computes key parent base value) :
    computation.Stored
      (Function.update stores node (Function.update (stores node) key (some value))) := by
  intro other otherKey otherValue found
  by_cases sameNode : other = node
  · subst sameNode
    rw [Function.update_self] at found
    by_cases sameKey : otherKey = key
    · subst sameKey
      rw [Function.update_self] at found
      cases found
      exact .computed (stored other parent base hasParent) computes
    · rw [Function.update_of_ne sameKey] at found
      exact stored other otherKey otherValue found
  · rw [Function.update_of_ne sameNode] at found
    exact stored other otherKey otherValue found

end Computation

end Foundation
