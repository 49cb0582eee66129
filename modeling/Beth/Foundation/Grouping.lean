import Mathlib

/-! # Grouping records by a key

Records are folded into groups, one group for each key, in the order the keys
first occur. A group is the fold of exactly the records with its key. -/

namespace Foundation.Grouping

variable {Key : Type u} {Record : Type v} {Group : Type w} [DecidableEq Key]

/-- Change the group with this key, starting it from `fresh` when absent. -/
def entry (keyOf : Group → Key) (key : Key) (fresh : Group)
    (change : Group → Group) : List Group → List Group
  | [] => [change fresh]
  | group :: rest =>
      if keyOf group = key then change group :: rest
      else group :: entry keyOf key fresh change rest

/-- Group a list of records, adding each to the group of its key. -/
def collect (keyOf : Group → Key) (recordKey : Record → Key) (fresh : Key → Group)
    (add : Group → Record → Group) (records : List Record) : List Group :=
  records.foldl (fun groups record =>
    entry keyOf (recordKey record) (fresh (recordKey record))
      (fun group => add group record) groups) []

section

variable {keyOf : Group → Key} {recordKey : Record → Key} {fresh : Key → Group}
  {add : Group → Record → Group}

variable (keyOf) in
theorem map_key_entry (key : Key) (start : Group) (change : Group → Group)
    (startKey : keyOf (change start) = key)
    (changeKey : ∀ group, keyOf (change group) = keyOf group) (groups : List Group) :
    (entry keyOf key start change groups).map keyOf =
      if key ∈ groups.map keyOf then groups.map keyOf else groups.map keyOf ++ [key] := by
  induction groups with
  | nil => simp [entry, startKey]
  | cons group rest induction =>
      by_cases same : keyOf group = key
      · simp [entry, same, changeKey]
      · have different : key ≠ keyOf group := fun equal => same equal.symm
        by_cases inRest : key ∈ rest.map keyOf
        · rw [if_pos inRest] at induction
          simp [entry, same, induction, List.mem_map.mp inRest]
        · rw [if_neg inRest] at induction
          have absent : key ∉ (group :: rest).map keyOf := by
            simpa [different] using inRest
          rw [if_neg absent]
          simp [entry, same, induction]

/-- The defining property of a list of groups for the records seen so far. -/
structure Groups (keyOf : Group → Key) (recordKey : Record → Key)
    (fresh : Key → Group) (add : Group → Record → Group)
    (records : List Record) (groups : List Group) : Prop where
  nodup : (groups.map keyOf).Nodup
  fold : ∀ group ∈ groups, group =
    (records.filter fun record => recordKey record = keyOf group).foldl add
      (fresh (keyOf group))
  mem_key : ∀ key, key ∈ groups.map keyOf ↔ ∃ record ∈ records, recordKey record = key

theorem mem_entry {key : Key} {start : Group} {change : Group → Group}
    {groups : List Group} (nodup : (groups.map keyOf).Nodup) {group : Group}
    (member : group ∈ entry keyOf key start change groups) :
    (group ∈ groups ∧ keyOf group ≠ key) ∨
      (∃ old ∈ groups, keyOf old = key ∧ group = change old) ∨
      (key ∉ groups.map keyOf ∧ group = change start) := by
  induction groups with
  | nil =>
      right
      right
      simpa [entry] using member
  | cons head rest induction =>
      have parts := List.nodup_cons.mp nodup
      by_cases same : keyOf head = key
      · rw [entry, if_pos same] at member
        rcases List.mem_cons.mp member with equal | inRest
        · exact .inr (.inl ⟨head, by simp, same, equal⟩)
        · left
          refine ⟨by simp [inRest], fun groupKey => parts.1 ?_⟩
          rw [same, ← groupKey]
          exact List.mem_map_of_mem inRest
      · rw [entry, if_neg same] at member
        rcases List.mem_cons.mp member with equal | inRest
        · rw [equal]
          exact .inl ⟨by simp, same⟩
        · rcases induction parts.2 inRest with kept | changed | started
          · exact .inl ⟨by simp [kept.1], kept.2⟩
          · rcases changed with ⟨old, oldMem, oldKey, equal⟩
            exact .inr (.inl ⟨old, by simp [oldMem], oldKey, equal⟩)
          · refine .inr (.inr ⟨?_, started.2⟩)
            have different : key ≠ keyOf head := fun equal => same equal.symm
            simpa [different] using started.1

theorem Groups.snoc (freshKey : ∀ key, keyOf (fresh key) = key)
    (addKey : ∀ group record, keyOf (add group record) = keyOf group)
    {records : List Record} {groups : List Group}
    (holds : Groups keyOf recordKey fresh add records groups) (record : Record) :
    Groups keyOf recordKey fresh add (records ++ [record])
      (entry keyOf (recordKey record) (fresh (recordKey record))
        (fun group => add group record) groups) := by
  have keys := map_key_entry keyOf (recordKey record) (fresh (recordKey record))
    (fun group => add group record)
    (by rw [addKey, freshKey]) (fun group => addKey group record) groups
  constructor
  · rw [keys]
    split
    · exact holds.nodup
    · rename_i absent
      rw [List.nodup_append]
      refine ⟨holds.nodup, List.nodup_singleton _, ?_⟩
      intro key member other isNew equal
      rw [List.mem_singleton.mp isNew] at equal
      exact absent (equal ▸ member)
  · intro group member
    rw [List.filter_append]
    rcases mem_entry holds.nodup member with kept | changed | started
    · have skipped : ¬ recordKey record = keyOf group := fun equal => kept.2 equal.symm
      simpa [skipped] using holds.fold group kept.1
    · rcases changed with ⟨old, oldMem, oldKey, equal⟩
      have groupKey : keyOf group = keyOf old := by rw [equal, addKey]
      have oldFold := holds.fold old oldMem
      rw [groupKey, equal]
      simp only [List.filter_singleton, oldKey, decide_true, cond_true, List.foldl_append,
        List.foldl_cons, List.foldl_nil]
      rw [oldKey] at oldFold
      rw [← oldFold]
    · have groupKey : keyOf group = recordKey record := by
        rw [started.2, addKey, freshKey]
      have none : records.filter (fun other => recordKey other = recordKey record) = [] := by
        rw [List.filter_eq_nil_iff]
        intro other otherMem
        have notKey : ¬ ∃ record' ∈ records, recordKey record' = recordKey record :=
          fun found => started.1 ((holds.mem_key _).mpr found)
        simpa using fun equal => notKey ⟨other, otherMem, equal⟩
      rw [groupKey]
      simp [none, started.2]
  · intro key
    have split : (∃ other ∈ records ++ [record], recordKey other = key) ↔
        (∃ other ∈ records, recordKey other = key) ∨ recordKey record = key := by
      simp [or_and_right, exists_or]
    rw [keys, split, ← holds.mem_key]
    by_cases known : recordKey record ∈ groups.map keyOf
    · rw [if_pos known]
      constructor
      · exact .inl
      · intro either
        rcases either with member | equal
        · exact member
        · exact equal ▸ known
    · rw [if_neg known, List.mem_append, List.mem_singleton]
      exact or_congr_right eq_comm

variable (keyOf recordKey fresh add) in
/-- `collect` groups its records. -/
theorem groups_collect (freshKey : ∀ key, keyOf (fresh key) = key)
    (addKey : ∀ group record, keyOf (add group record) = keyOf group)
    (records : List Record) :
    Groups keyOf recordKey fresh add records
      (collect keyOf recordKey fresh add records) := by
  induction records using List.reverseRecOn with
  | nil =>
      constructor
      · simp [collect]
      · simp [collect]
      · simp [collect]
  | append_singleton records record induction =>
      have stepped := induction.snoc freshKey addKey record
      simpa [collect] using stepped

/-- Records whose keys are listed once are the records of the keys together. -/
theorem flatMap_filter_perm (recordKey : Record → Key) {keys : List Key} (nodup : keys.Nodup)
    (records : List Record) (covered : ∀ record ∈ records, recordKey record ∈ keys) :
    (keys.flatMap fun key => records.filter fun record => recordKey record = key).Perm
      records := by
  induction keys generalizing records with
  | nil =>
      cases records with
      | nil => simp
      | cons record rest => simpa using covered record (by simp)
  | cons key rest induction =>
      have parts := List.nodup_cons.mp nodup
      have others := induction parts.2
        (records.filter fun record => ¬ recordKey record = key) (by
          intro record member
          rcases List.mem_filter.mp member with ⟨inRecords, notKey⟩
          rcases List.mem_cons.mp (covered record inRecords) with equal | inRest
          · exact absurd equal (by simpa using notKey)
          · exact inRest)
      have sameFilter : (rest.flatMap fun other =>
            records.filter fun record => recordKey record = other) =
          rest.flatMap fun other =>
            (records.filter fun record => ¬ recordKey record = key).filter
              fun record => recordKey record = other := by
        apply List.flatMap_congr
        intro other otherMem
        rw [List.filter_filter]
        apply List.filter_congr
        intro record _
        by_cases equal : recordKey record = other
        · have different : ¬ other = key := fun otherKey => parts.1 (otherKey ▸ otherMem)
          simp [equal, different]
        · simp [equal]
      rw [List.flatMap_cons, sameFilter]
      refine (List.Perm.append_left _ others).trans ?_
      simpa using List.filter_append_perm (fun record => recordKey record = key) records

/-- The records of all groups together are the records grouped. -/
theorem Groups.flatMap_filter_perm {records : List Record} {groups : List Group}
    (holds : Groups keyOf recordKey fresh add records groups) :
    (groups.flatMap fun group =>
      records.filter fun record => recordKey record = keyOf group).Perm records := by
  have mapped := Grouping.flatMap_filter_perm recordKey holds.nodup records
    (fun record member => (holds.mem_key _).mpr ⟨record, member, rfl⟩)
  rwa [List.flatMap_map] at mapped

end

end Foundation.Grouping
