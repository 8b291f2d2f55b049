import NanoScript.Table

/-!
Contract: finite tables from names to entries, kept in the order of their names.

Owns:
- look-up and insertion;
- the order law: insertion keeps the names strictly ascending.

Names are compared code point by code point, the order of `String`.  What is shown of a table is
shown in this order.
-/

namespace NanoScript

/-- Entries under distinct names, listed in ascending order of the names. -/
structure Table.Sorted (α : Type) where
  entries : List (String × α)

namespace Table.Sorted

variable {α : Type}

/-- The sorted table without entries. -/
def empty : Sorted α :=
  ⟨[]⟩

/-- The entry under a name. -/
def find? (table : Sorted α) (name : String) : Option α :=
  seek name table.entries

/-- The names in ascending order. -/
def names (table : Sorted α) : List String :=
  table.entries.map Prod.fst

/-- Put an entry at its place in an ascending list, over an older one of the same name. -/
def place (name : String) (entry : α) : List (String × α) → List (String × α)
  | [] => [(name, entry)]
  | (other, older) :: rest =>
      if name = other then
        (name, entry) :: rest
      else if name < other then
        (name, entry) :: (other, older) :: rest
      else
        (other, older) :: place name entry rest

/-- The sorted table with `entry` under `name`, in place of whatever stood there. -/
def insert (table : Sorted α) (name : String) (entry : α) : Sorted α :=
  ⟨place name entry table.entries⟩

/-- Enter a list from the left: of two entries under one name the later one stays. -/
def ofList (entries : List (String × α)) : Sorted α :=
  entries.foldl (fun table entry => table.insert entry.1 entry.2) empty

/-- The names of a sorted table in order ascend strictly. -/
def Ordered (table : Sorted α) : Prop :=
  table.names.Pairwise (· < ·)

/-! ## Reading after writing -/

theorem seek_place (name other : String) (entry : α) (entries : List (String × α)) :
    seek other (place name entry entries) =
      if other = name then some entry else seek other entries := by
  induction entries with
  | nil => rfl
  | cons head rest inductionHypothesis =>
      obtain ⟨key, older⟩ := head
      unfold place
      split
      · next same =>
          subst same
          by_cases atName : other = name <;> simp [seek, atName]
      · next differs =>
          split
          · rfl
          · by_cases atKey : other = key
            · subst atKey
              simp [seek, Ne.symm differs]
            · simp [seek, atKey, inductionHypothesis]

@[simp] theorem find?_empty (name : String) : (empty : Sorted α).find? name = none :=
  rfl

@[simp] theorem find?_insert (table : Sorted α) (name other : String) (entry : α) :
    (table.insert name entry).find? other =
      if other = name then some entry else table.find? other :=
  seek_place name other entry table.entries

/-! ## The order of the names -/

theorem mem_names_place (name other : String) (entry : α) (entries : List (String × α)) :
    other ∈ (place name entry entries).map Prod.fst ↔
      other = name ∨ other ∈ entries.map Prod.fst := by
  induction entries with
  | nil => simp [place]
  | cons head rest inductionHypothesis =>
      obtain ⟨key, older⟩ := head
      unfold place
      split
      · next same => simp [same]
      · split
        · simp
        · simp only [List.map_cons, List.mem_cons, inductionHypothesis]
          exact or_left_comm

theorem pairwise_names_place (name : String) (entry : α) (entries : List (String × α))
    (ascending : (entries.map Prod.fst).Pairwise (· < ·)) :
    ((place name entry entries).map Prod.fst).Pairwise (· < ·) := by
  induction entries with
  | nil => simp [place]
  | cons head rest inductionHypothesis =>
      obtain ⟨key, older⟩ := head
      have headBelow := (List.pairwise_cons.1 ascending).1
      have restAscends := (List.pairwise_cons.1 ascending).2
      unfold place
      split
      · next same =>
          subst same
          exact ascending
      · next differs =>
          split
          · next below =>
              refine List.pairwise_cons.2 ⟨?_, ascending⟩
              intro other member
              rcases List.mem_cons.1 member with atKey | inRest
              · exact atKey ▸ below
              · exact String.lt_trans below (headBelow other inRest)
          · next notBelow =>
              refine List.pairwise_cons.2 ⟨?_, inductionHypothesis restAscends⟩
              intro other member
              rcases (mem_names_place name other entry rest).1 member with atName | inRest
              · subst atName
                exact Std.lt_of_le_of_ne (String.not_lt.1 notBelow) (Ne.symm differs)
              · exact headBelow other inRest

theorem ordered_empty : (empty : Sorted α).Ordered :=
  List.Pairwise.nil

theorem Ordered.insert {table : Sorted α} (ordered : table.Ordered) (name : String) (entry : α) :
    (table.insert name entry).Ordered :=
  pairwise_names_place name entry table.entries ordered

theorem ordered_ofList (entries : List (String × α)) : (ofList entries).Ordered := by
  suffices grows : ∀ table : Sorted α, table.Ordered →
      (entries.foldl (fun table entry => table.insert entry.1 entry.2) table).Ordered from
    grows empty ordered_empty
  induction entries with
  | nil => exact fun _ ordered => ordered
  | cons entry rest inductionHypothesis =>
      exact fun table ordered => inductionHypothesis _ (ordered.insert entry.1 entry.2)

end Table.Sorted

/-- Names in ascending order, each once. -/
def Table.sortedNames (names : List String) : List String :=
  (Sorted.ofList (names.map fun name => (name, ()))).names

end NanoScript
