import Mathlib.Data.List.Forall2
import Mathlib.Data.List.Induction
import Mathlib.Data.List.Perm.Subperm
import NanoScript.Table

/-!
Contract: tables as lists of entries.

Owns:
- which entries a table has after an entry was put into it, and where a look-up finds its entry;
- tables of distinct names, the entries of which are what look-ups find;
- the entries of a table that was filled from a list: under every name the one entered last;
- options that correspond, and what corresponds then;
- tables whose entries correspond one by one: looking up and inserting keep the correspondence.
-/

/-! ## Corresponding options -/

namespace Option.Rel

variable {α β γ δ : Type} {alike : α → β → Prop} {left : Option α} {right : Option β}

theorem bind (options : Option.Rel alike left right) {other : γ → δ → Prop}
    {onLeft : α → Option γ} {onRight : β → Option δ}
    (results : ∀ {first second}, alike first second →
      Option.Rel other (onLeft first) (onRight second)) :
    Option.Rel other (left.bind onLeft) (right.bind onRight) := by
  cases options with
  | none => exact .none
  | some same => exact results same

theorem map (options : Option.Rel alike left right) {other : γ → δ → Prop}
    {onLeft : α → γ} {onRight : β → δ}
    (results : ∀ {first second}, alike first second → other (onLeft first) (onRight second)) :
    Option.Rel other (left.map onLeft) (right.map onRight) := by
  cases options with
  | none => exact .none
  | some same => exact .some (results same)

theorem map_eq (options : Option.Rel alike left right) {onLeft : α → γ} {onRight : β → γ}
    (results : ∀ {first second}, alike first second → onLeft first = onRight second) :
    left.map onLeft = right.map onRight := by
  cases options with
  | none => rfl
  | some same => exact congrArg Option.some (results same)

theorem isSome_eq (options : Option.Rel alike left right) : left.isSome = right.isSome := by
  cases options <;> rfl

end Option.Rel

/-- Whatever is in a list corresponds to something in the other one. -/
theorem List.Forall₂.exists_mem {α β : Type} {alike : α → β → Prop} {left : List α}
    {right : List β} (lists : List.Forall₂ alike left right) {first : α} (member : first ∈ left) :
    ∃ second ∈ right, alike first second := by
  induction lists with
  | nil => cases member
  | cons heads _ inductionHypothesis =>
      rcases List.mem_cons.1 member with rfl | inTail
      · exact ⟨_, List.mem_cons_self, heads⟩
      · obtain ⟨second, inRight, same⟩ := inductionHypothesis inTail
        exact ⟨second, List.mem_cons_of_mem _ inRight, same⟩

/-- Functions that agree on corresponding things make one list out of corresponding lists. -/
theorem List.Forall₂.map_eq {α β γ : Type} {alike : α → β → Prop} {left : List α}
    {right : List β} (lists : List.Forall₂ alike left right) {onLeft : α → γ} {onRight : β → γ}
    (results : ∀ {first second}, alike first second → onLeft first = onRight second) :
    left.map onLeft = right.map onRight := by
  induction lists with
  | nil => rfl
  | cons heads _ inductionHypothesis =>
      rw [List.map_cons, List.map_cons, results heads, inductionHypothesis]

/-- Searches of corresponding lists find corresponding things. -/
theorem List.Forall₂.findSome? {α β γ δ : Type} {alike : α → β → Prop} {left : List α}
    {right : List β} (lists : List.Forall₂ alike left right) {other : γ → δ → Prop}
    {onLeft : α → Option γ} {onRight : β → Option δ}
    (results : ∀ {first second}, alike first second →
      Option.Rel other (onLeft first) (onRight second)) :
    Option.Rel other (left.findSome? onLeft) (right.findSome? onRight) := by
  induction lists with
  | nil => exact .none
  | cons heads _ inductionHypothesis =>
      have found := results heads
      rw [List.findSome?_cons, List.findSome?_cons]
      revert found
      cases onLeft _ <;> cases onRight _ <;> intro found
      · exact inductionHypothesis
      · cases found
      · cases found
      · exact found

theorem List.Forall₂.find? {α β : Type} {alike : α → β → Prop} {left : List α}
    {right : List β} (lists : List.Forall₂ alike left right) {onLeft : α → Bool}
    {onRight : β → Bool}
    (results : ∀ {first second}, alike first second → onLeft first = onRight second) :
    Option.Rel alike (left.find? onLeft) (right.find? onRight) := by
  induction lists with
  | nil => exact .none
  | cons heads _ inductionHypothesis =>
      rw [List.find?_cons, List.find?_cons, results heads]
      split
      · exact .some heads
      · exact inductionHypothesis

namespace NanoScript.Table

variable {α β : Type}

/-! ## Entries of one table -/

theorem mem_of_seek {name : String} {entry : α} {entries : List (String × α)}
    (found : seek name entries = some entry) : (name, entry) ∈ entries := by
  induction entries with
  | nil => cases found
  | cons head rest inductionHypothesis =>
      obtain ⟨key, first⟩ := head
      unfold seek at found
      split at found
      · next same =>
          cases found
          rw [same]
          exact List.mem_cons_self
      · exact List.mem_cons_of_mem _ (inductionHypothesis found)

theorem mem_of_find? {table : Table α} {name : String} {entry : α}
    (found : table.find? name = some entry) : (name, entry) ∈ table.entries :=
  mem_of_seek found

theorem eq_or_mem_of_mem_put {name : String} {entry : α} {entries : List (String × α)}
    {other : String × α} (member : other ∈ put name entry entries) :
    other = (name, entry) ∨ other ∈ entries := by
  induction entries with
  | nil => exact .inl (List.mem_singleton.1 member)
  | cons head rest inductionHypothesis =>
      obtain ⟨key, first⟩ := head
      unfold put at member
      split at member
      · rcases List.mem_cons.1 member with here | inRest
        · exact .inl here
        · exact .inr (List.mem_cons_of_mem _ inRest)
      · rcases List.mem_cons.1 member with here | inRest
        · exact .inr (List.mem_cons.2 (.inl here))
        · exact (inductionHypothesis inRest).imp_right (List.mem_cons_of_mem _)

/-- An entry of a table that another entry was put into is that entry, or was there before. -/
theorem eq_or_mem_of_mem_insert {table : Table α} {name : String} {entry : α}
    {other : String × α} (member : other ∈ (table.insert name entry).entries) :
    other = (name, entry) ∨ other ∈ table.entries :=
  eq_or_mem_of_mem_put member

/-- An entry under a new name is put behind all others. -/
theorem put_of_not_mem {name : String} {entry : α} {entries : List (String × α)}
    (isNew : name ∉ entries.map Prod.fst) :
    put name entry entries = entries ++ [(name, entry)] := by
  induction entries with
  | nil => rfl
  | cons head rest inductionHypothesis =>
      obtain ⟨key, older⟩ := head
      obtain ⟨differs, notBehind⟩ := not_or.1 (mt List.mem_cons.2 isNew)
      rw [put, if_neg differs, inductionHypothesis notBehind, List.cons_append]

theorem isSome_seek_iff {name : String} {entries : List (String × α)} :
    (seek name entries).isSome = true ↔ name ∈ entries.map Prod.fst := by
  induction entries with
  | nil => simp [seek]
  | cons head rest inductionHypothesis =>
      obtain ⟨key, entry⟩ := head
      by_cases same : name = key <;> simp [seek, same, inductionHypothesis]

theorem mem_names_iff {table : Table α} {name : String} :
    name ∈ table.names ↔ (table.find? name).isSome = true :=
  isSome_seek_iff.symm

theorem seek_map (onEntry : α → β) (name : String) (entries : List (String × α)) :
    seek name (entries.map fun entry => (entry.1, onEntry entry.2)) =
      (seek name entries).map onEntry := by
  induction entries with
  | nil => rfl
  | cons head rest inductionHypothesis =>
      obtain ⟨key, entry⟩ := head
      by_cases same : name = key <;> simp [seek, same, inductionHypothesis]

/-! ## Distinct names -/

theorem seek_of_mem {name : String} {entry : α} {entries : List (String × α)}
    (distinct : (entries.map Prod.fst).Nodup) (member : (name, entry) ∈ entries) :
    seek name entries = some entry := by
  induction entries with
  | nil => cases member
  | cons head rest inductionHypothesis =>
      obtain ⟨key, first⟩ := head
      obtain ⟨notBehind, restDistinct⟩ := List.nodup_cons.1 distinct
      rcases List.mem_cons.1 member with here | inRest
      · cases here
        simp [seek]
      · have differs : name ≠ key := by
          intro same
          apply notBehind
          show key ∈ rest.map Prod.fst
          rw [← same]
          exact List.mem_map_of_mem inRest
        simp [seek, differs, inductionHypothesis restDistinct inRest]

/-- The entries of a table are what look-ups find. -/
theorem Distinct.mem_entries_iff {table : Table α} (distinct : table.Distinct) {name : String}
    {entry : α} : (name, entry) ∈ table.entries ↔ table.find? name = some entry :=
  ⟨seek_of_mem distinct, mem_of_find?⟩

instance (table : Table α) : Decidable table.Distinct :=
  inferInstanceAs (Decidable table.names.Nodup)

/-- A table that is as large as another one and has only names of it has all of its names. -/
theorem Distinct.names_subset {left : Table α} {right : Table β} (distinct : left.Distinct)
    (sizes : left.entries.length = right.entries.length)
    (among : left.names ⊆ right.names) : right.names ⊆ left.names := by
  have enough : right.names.length ≤ left.names.length := by simp [names, sizes]
  exact ((List.subperm_of_subset distinct among).perm_of_length_le enough).symm.subset

/-! ## Filled tables -/

theorem ofList_append_singleton (entries : List (String × α)) (last : String × α) :
    ofList (entries ++ [last]) = (ofList entries).insert last.1 last.2 := by
  simp [ofList]

/-- What was entered last under a name. -/
def lastUnder (name : String) (entered : List (String × α)) : Option α :=
  seek name entered.reverse

@[simp] theorem lastUnder_nil (name : String) : lastUnder name ([] : List (String × α)) = none :=
  rfl

@[simp] theorem lastUnder_concat (name : String) (entered : List (String × α))
    (last : String × α) :
    lastUnder name (entered ++ [last]) =
      if name = last.1 then some last.2 else lastUnder name entered := by
  simp [lastUnder, seek]

theorem lastUnder_map (onEntry : α → β) (name : String) (entered : List (String × α)) :
    lastUnder name (entered.map fun entry => (entry.1, onEntry entry.2)) =
      (lastUnder name entered).map onEntry := by
  rw [lastUnder, ← List.map_reverse, seek_map, lastUnder]

/-- What is listed under a name once was entered there last. -/
theorem lastUnder_of_nodup {entered : List (String × α)}
    (distinct : (entered.map Prod.fst).Nodup) (name : String) :
    lastUnder name entered = seek name entered := by
  have backwards : (entered.reverse.map Prod.fst).Nodup := by
    rw [List.map_reverse]
    exact List.pairwise_reverse.2 (distinct.imp Ne.symm)
  ext entry
  constructor
  · exact fun found => seek_of_mem distinct (List.mem_reverse.1 (mem_of_seek found))
  · exact fun found => seek_of_mem backwards (List.mem_reverse.2 (mem_of_seek found))

/-- A filled table has under every name what was entered there last. -/
theorem find?_ofList (entered : List (String × α)) (name : String) :
    (ofList entered).find? name = lastUnder name entered := by
  induction entered using List.reverseRecOn with
  | nil => rfl
  | append_singleton front last inductionHypothesis =>
      rw [ofList_append_singleton, find?_insert, lastUnder_concat, inductionHypothesis]

/-! ## Corresponding tables -/

/-- Entries under one name that correspond. -/
def EntriesAlike (alike : α → β → Prop) (left : String × α) (right : String × β) : Prop :=
  left.1 = right.1 ∧ alike left.2 right.2

/-- Tables with the same names in which the entries under each name correspond. -/
def Alike (alike : α → β → Prop) (left : Table α) (right : Table β) : Prop :=
  List.Forall₂ (EntriesAlike alike) left.entries right.entries

theorem alike_empty (alike : α → β → Prop) : Alike alike empty empty :=
  .nil

theorem Alike.find? {alike : α → β → Prop} {left : Table α} {right : Table β}
    (tables : Alike alike left right) (name : String) :
    Option.Rel alike (left.find? name) (right.find? name) := by
  obtain ⟨left⟩ := left
  obtain ⟨right⟩ := right
  change List.Forall₂ (EntriesAlike alike) left right at tables
  change Option.Rel alike (seek name left) (seek name right)
  induction tables with
  | nil => exact .none
  | cons heads _ inductionHypothesis =>
      obtain ⟨names, entries⟩ := heads
      unfold seek
      rw [names]
      split
      · exact .some entries
      · exact inductionHypothesis

theorem Alike.insert {alike : α → β → Prop} {left : Table α} {right : Table β}
    (tables : Alike alike left right) (name : String) {leftEntry : α} {rightEntry : β}
    (entries : alike leftEntry rightEntry) :
    Alike alike (left.insert name leftEntry) (right.insert name rightEntry) := by
  obtain ⟨left⟩ := left
  obtain ⟨right⟩ := right
  change List.Forall₂ (EntriesAlike alike) left right at tables
  change List.Forall₂ (EntriesAlike alike) (put name leftEntry left)
    (put name rightEntry right)
  induction tables with
  | nil => exact .cons ⟨rfl, entries⟩ .nil
  | cons heads tails inductionHypothesis =>
      obtain ⟨names, older⟩ := heads
      unfold put
      rw [names]
      split
      · exact .cons ⟨rfl, entries⟩ tails
      · exact .cons ⟨rfl, older⟩ inductionHypothesis

end NanoScript.Table
