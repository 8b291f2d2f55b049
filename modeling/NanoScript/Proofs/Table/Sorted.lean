import Mathlib.Data.List.Sort
import NanoScript.Proofs.Table
import NanoScript.Table.Sorted

/-!
Contract: sorted tables as finite maps.

Owns:
- the entries of a sorted table, which are what look-ups find;
- sorted tables in which all look-ups agree, which are the same table;
- the sorted table of listed entries: under every name the entry listed last, whatever the order of
  the list was;
- sorted names: those that were given, each once and in ascending order.

A list of entries is sorted by entering one after the other.  All that is said of the outcome is
told by the two laws of an insertion, the one of look-ups and the one of the order.
-/

namespace NanoScript.Table

namespace Sorted

variable {α β : Type}

instance (table : Sorted α) : Decidable table.Ordered :=
  inferInstanceAs (Decidable (table.names.Pairwise (· < ·)))

/-! ## Look-ups -/

/-- The names of a sorted table are distinct. -/
theorem Ordered.nodup {table : Sorted α} (ordered : table.Ordered) : table.names.Nodup := by
  refine List.Pairwise.imp ?_ ordered
  intro name other below same
  exact String.lt_irrefl name (same ▸ below)

/-- The entries of a sorted table are what look-ups find. -/
theorem Ordered.mem_entries_iff {table : Sorted α} (ordered : table.Ordered) {name : String}
    {entry : α} : (name, entry) ∈ table.entries ↔ table.find? name = some entry :=
  ⟨seek_of_mem ordered.nodup, mem_of_seek⟩

/-- Sorted tables in which all look-ups agree are the same table. -/
theorem Ordered.ext {left right : Sorted α} (leftOrdered : left.Ordered)
    (rightOrdered : right.Ordered) (same : ∀ name, left.find? name = right.find? name) :
    left = right := by
  have byNames {table : Sorted α} (ordered : table.Ordered) :
      table.entries.Pairwise fun entry other => entry.1 < other.1 :=
    List.pairwise_map.1 ordered
  have distinct {table : Sorted α} (ordered : table.Ordered) : table.entries.Nodup :=
    .of_map Prod.fst ordered.nodup
  have members (entry : String × α) : entry ∈ left.entries ↔ entry ∈ right.entries := by
    rw [leftOrdered.mem_entries_iff, rightOrdered.mem_entries_iff, same]
  have perm : left.entries.Perm right.entries :=
    (List.perm_ext_iff_of_nodup (distinct leftOrdered) (distinct rightOrdered)).2 members
  have entries : left.entries = right.entries := by
    refine perm.eq_of_pairwise ?_ (byNames leftOrdered) (byNames rightOrdered)
    intro entry other _ _ below above
    exact absurd (String.lt_trans below above) (String.lt_irrefl entry.1)
  exact congrArg Sorted.mk entries

/-! ## Sorted lists -/

theorem ofList_append_singleton (entries : List (String × α)) (last : String × α) :
    ofList (entries ++ [last]) = (ofList entries).insert last.1 last.2 := by
  simp [ofList]

/-- A sorted list has under every name the entry that was listed last. -/
theorem find?_ofList (entries : List (String × α)) (name : String) :
    (ofList entries).find? name = lastUnder name entries := by
  induction entries using List.reverseRecOn with
  | nil => rfl
  | append_singleton front last inductionHypothesis =>
      rw [ofList_append_singleton, find?_insert, lastUnder_concat, inductionHypothesis]

theorem mem_ofList_iff {entries : List (String × α)} {name : String} {entry : α} :
    (name, entry) ∈ (ofList entries).entries ↔ lastUnder name entries = some entry := by
  rw [(ordered_ofList entries).mem_entries_iff, find?_ofList]

/-- If the names of listed entries are distinct, each of the entries is found under its name. -/
theorem find?_ofList_of_mem {entries : List (String × α)}
    (distinct : (entries.map Prod.fst).Nodup) {entry : String × α} (member : entry ∈ entries) :
    (ofList entries).find? entry.1 = some entry.2 := by
  rw [find?_ofList, lastUnder_of_nodup distinct, seek_of_mem distinct member]

/-- A sorted list has no entries but those that were listed. -/
theorem mem_of_mem_ofList {entries : List (String × α)} {entry : String × α}
    (member : entry ∈ (ofList entries).entries) : entry ∈ entries :=
  List.mem_reverse.1 (mem_of_seek (mem_ofList_iff.1 member))

/-- Lists with the same entry listed last under every name are sorted alike. -/
theorem ofList_congr {left right : List (String × α)}
    (same : ∀ name, lastUnder name left = lastUnder name right) : ofList left = ofList right := by
  apply (ordered_ofList left).ext (ordered_ofList right)
  intro name
  rw [find?_ofList, find?_ofList, same]

/-- Entries may be changed before they are sorted or after, as long as their names stay. -/
theorem entries_ofList_map (onEntry : α → β) (entries : List (String × α)) :
    (ofList (entries.map fun entry => (entry.1, onEntry entry.2))).entries =
      (ofList entries).entries.map fun entry => (entry.1, onEntry entry.2) := by
  have ordered :
      Ordered ⟨(ofList entries).entries.map fun entry => (entry.1, onEntry entry.2)⟩ := by
    simpa [Ordered, names, Function.comp_def] using ordered_ofList entries
  refine congrArg Sorted.entries (Ordered.ext (ordered_ofList _) ordered fun name => ?_)
  rw [find?_ofList, lastUnder_map, ← find?_ofList]
  exact (seek_map onEntry name _).symm

/-- Entries listed under distinct names are determined by their sorted table and the names. -/
theorem ofList_injective {left right : List (String × α)}
    (names : left.map Prod.fst = right.map Prod.fst) (distinct : (left.map Prod.fst).Nodup)
    (same : ofList left = ofList right) : left = right := by
  have found (entries : List (String × α)) (distinct : (entries.map Prod.fst).Nodup) :
      entries.map (fun entry => (entry.1, some entry.2)) =
        (entries.map Prod.fst).map fun name => (name, (ofList entries).find? name) := by
    rw [List.map_map]
    refine List.map_congr_left fun entry member => ?_
    rw [Function.comp_apply, find?_ofList_of_mem distinct member]
  have injective : Function.Injective fun entry : String × α => (entry.1, some entry.2) := by
    rintro ⟨name, entry⟩ ⟨other, otherEntry⟩ alike
    simpa using alike
  refine List.map_injective_iff.2 injective ?_
  rw [found left distinct, found right (names ▸ distinct), names, same]

end Sorted

/-! ## Sorted names -/

theorem mem_sortedNames {names : List String} {name : String} :
    name ∈ sortedNames names ↔ name ∈ names := by
  unfold sortedNames Sorted.names
  rw [← isSome_seek_iff]
  change ((Sorted.ofList _).find? name).isSome = true ↔ _
  rw [Sorted.find?_ofList, lastUnder, isSome_seek_iff]
  simp

theorem ascending_sortedNames (names : List String) : (sortedNames names).Pairwise (· < ·) :=
  Sorted.ordered_ofList _

end NanoScript.Table
