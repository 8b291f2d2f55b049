/-!
Contract: finite tables from names to entries, as hash maps are.

Owns:
- look-up and insertion;
- the distinctness law: insertion keeps the names of a table distinct, and a look-up finds what was
  inserted last.

The entries of a table are listed in some order, which nothing but the list depends on.  An entry is
put over an older one of the same name, or behind all others.
-/

namespace NanoScript

/-- Entries under names, in whatever order they are kept. -/
structure Table (α : Type) where
  entries : List (String × α)

namespace Table

variable {α : Type}

/-- The table without entries. -/
def empty : Table α :=
  ⟨[]⟩

instance : EmptyCollection (Table α) :=
  ⟨empty⟩

instance : Inhabited (Table α) :=
  ⟨empty⟩

/-- The first entry of a list under a name. -/
def seek (name : String) : List (String × α) → Option α
  | [] => none
  | (other, entry) :: rest => if name = other then some entry else seek name rest

/-- The entry under a name. -/
def find? (table : Table α) (name : String) : Option α :=
  seek name table.entries

/-- Whether a table has an entry under a name. -/
def contains (table : Table α) (name : String) : Bool :=
  (table.find? name).isSome

/-- The names of the entries, in the order of the entries. -/
def names (table : Table α) : List String :=
  table.entries.map Prod.fst

/-- Put an entry over an older one of the same name, or at the end. -/
def put (name : String) (entry : α) : List (String × α) → List (String × α)
  | [] => [(name, entry)]
  | (other, older) :: rest =>
      if name = other then (name, entry) :: rest else (other, older) :: put name entry rest

/-- The table with `entry` under `name`, in place of whatever stood there. -/
def insert (table : Table α) (name : String) (entry : α) : Table α :=
  ⟨put name entry table.entries⟩

/-- Enter a list from the left: of two entries under one name the later one stays. -/
def ofList (entries : List (String × α)) : Table α :=
  entries.foldl (fun table entry => table.insert entry.1 entry.2) empty

/-- No two entries of a table stand under one name. -/
def Distinct (table : Table α) : Prop :=
  table.names.Nodup

/-! ## Reading after writing -/

theorem seek_put (name other : String) (entry : α) (entries : List (String × α)) :
    seek other (put name entry entries) =
      if other = name then some entry else seek other entries := by
  induction entries with
  | nil => rfl
  | cons head rest inductionHypothesis =>
      obtain ⟨key, older⟩ := head
      unfold put
      split
      · next same =>
          subst same
          by_cases atName : other = name <;> simp [seek, atName]
      · next differs =>
          by_cases atKey : other = key
          · subst atKey
            simp [seek, Ne.symm differs]
          · simp [seek, atKey, inductionHypothesis]

@[simp] theorem find?_empty (name : String) : (empty : Table α).find? name = none :=
  rfl

@[simp] theorem find?_insert (table : Table α) (name other : String) (entry : α) :
    (table.insert name entry).find? other =
      if other = name then some entry else table.find? other :=
  seek_put name other entry table.entries

@[simp] theorem contains_empty (name : String) : (empty : Table α).contains name = false :=
  rfl

@[simp] theorem contains_insert (table : Table α) (name other : String) (entry : α) :
    (table.insert name entry).contains other = (decide (other = name) || table.contains other) := by
  unfold contains
  rw [find?_insert]
  by_cases same : other = name <;> simp [same]

/-! ## Distinct names -/

theorem mem_names_put (name other : String) (entry : α) (entries : List (String × α)) :
    other ∈ (put name entry entries).map Prod.fst ↔
      other = name ∨ other ∈ entries.map Prod.fst := by
  induction entries with
  | nil => simp [put]
  | cons head rest inductionHypothesis =>
      obtain ⟨key, older⟩ := head
      unfold put
      split
      · next same => simp [same]
      · simp only [List.map_cons, List.mem_cons, inductionHypothesis]
        exact or_left_comm

theorem nodup_names_put (name : String) (entry : α) (entries : List (String × α))
    (distinct : (entries.map Prod.fst).Nodup) : ((put name entry entries).map Prod.fst).Nodup := by
  induction entries with
  | nil => simp [put]
  | cons head rest inductionHypothesis =>
      obtain ⟨key, older⟩ := head
      obtain ⟨notBehind, restDistinct⟩ := List.nodup_cons.1 distinct
      unfold put
      split
      · next same =>
          subst same
          exact distinct
      · next differs =>
          refine List.nodup_cons.2 ⟨fun behind => ?_, inductionHypothesis restDistinct⟩
          rcases (mem_names_put name key entry rest).1 behind with same | inRest
          · exact differs same.symm
          · exact notBehind inRest

theorem distinct_empty : (empty : Table α).Distinct :=
  List.nodup_nil

theorem Distinct.insert {table : Table α} (distinct : table.Distinct) (name : String) (entry : α) :
    (table.insert name entry).Distinct :=
  nodup_names_put name entry table.entries distinct

theorem distinct_ofList (entries : List (String × α)) : (ofList entries).Distinct := by
  suffices grows : ∀ table : Table α, table.Distinct →
      (entries.foldl (fun table entry => table.insert entry.1 entry.2) table).Distinct from
    grows empty distinct_empty
  induction entries with
  | nil => exact fun _ distinct => distinct
  | cons entry rest inductionHypothesis =>
      exact fun table distinct => inductionHypothesis _ (distinct.insert entry.1 entry.2)

end Table

end NanoScript
