import Mathlib.Data.List.DropRight
import NanoScript.Completion
import NanoScript.Proofs.Scope.Views

/-!
Contract: completion offers the names that would work, and no others.

Owns:
- the word in front of the cursor: the longest run of letters that ends there;
- the candidates, which are the keywords and the names that a look-up finds;
- the completions of a word: its proper extensions among the candidates, each once and in
  ascending order.
-/

namespace NanoScript

namespace Store

/-- The names visible in a scope are those that a look-up finds. -/
theorem mem_visibleNames_iff_lookup {store : Store} {id : ScopeId} {name : String} :
    name ∈ store.visibleNames id ↔ ∃ value, store.lookup id name = .ok value := by
  rw [mem_visibleNames]
  constructor
  · intro resolves
    exact Resolves.exists_lookup resolves
  · rintro ⟨value, found⟩
    obtain ⟨owner, member, binding, bound, -⟩ := lookup_eq_ok found
    exact ⟨owner, member, by rw [declares, bound, Option.isSome_some]⟩

end Store

namespace Completion

/-! ## The word in front of the cursor -/

/-- A text ends with a word of letters, and with no longer one. -/
structure EndsWith (text front word : String) : Prop where
  cut : text = front ++ word
  letters : ∀ c ∈ word.toList, Token.isLetter c = true
  longest : ∀ otherFront other : String, text = otherFront ++ other →
    (∀ c ∈ other.toList, Token.isLetter c = true) → other.length ≤ word.length

/-- The last word of a text are the letters taken from its end. -/
theorem lastWord_eq (text : List Char) : lastWord text = text.rtakeWhile Token.isLetter :=
  rfl

theorem rdropWhile_append_lastWord (text : List Char) :
    text.rdropWhile Token.isLetter ++ lastWord text = text :=
  List.rdropWhile_append_rtakeWhile

/-- A text that ends with letters has all of them in its last word. -/
theorem lastWord_append {front word : List Char}
    (letters : ∀ c ∈ word, Token.isLetter c = true) :
    lastWord (front ++ word) = lastWord front ++ word := by
  unfold lastWord
  have backwards : ∀ c ∈ word.reverse, Token.isLetter c = true :=
    fun c member => letters c (List.mem_reverse.1 member)
  rw [List.reverse_append, List.takeWhile_append_of_pos backwards, List.reverse_append,
    List.reverse_reverse]

/-- The last word of a text is the longest run of letters at its end. -/
theorem endsWith_lastWord (text : String) :
    EndsWith text (.ofList (text.toList.rdropWhile Token.isLetter))
      (.ofList (lastWord text.toList)) where
  cut := by
    rw [← String.ofList_append, rdropWhile_append_lastWord, String.ofList_toList]
  letters c member := by
    rw [String.toList_ofList, lastWord_eq] at member
    exact List.mem_rtakeWhile_imp member
  longest otherFront other cut letters := by
    rw [cut, String.toList_append, lastWord_append letters, ← String.length_toList,
      ← String.length_toList, String.toList_ofList, List.length_append]
    exact Nat.le_add_left _ _

/-! ## The candidates -/

theorem mem_candidates {store : Store} {scope : ScopeId} {name : String} :
    name ∈ candidates store scope ↔
      name ∈ keywords ∨ ∃ value, store.lookup scope name = .ok value := by
  unfold candidates
  rw [Table.mem_sortedNames, List.mem_append, Store.mem_visibleNames_iff_lookup, or_comm]

theorem ascending_candidates (store : Store) (scope : ScopeId) :
    (candidates store scope).Pairwise (· < ·) :=
  Table.ascending_sortedNames _

/-- A name extends a word if it is the word with something behind it. -/
theorem extendsWord_iff {word : List Char} {name : String} :
    extendsWord word name = true ↔ ∃ more, more ≠ "" ∧ name = .ofList word ++ more := by
  unfold extendsWord
  rw [Bool.and_eq_true, List.isPrefixOf_iff_prefix, decide_eq_true_iff]
  constructor
  · rintro ⟨⟨more, characters⟩, longer⟩
    refine ⟨.ofList more, ?_, ?_⟩
    · intro empty
      have nothing : more = [] := by simpa using empty
      rw [nothing, List.append_nil] at characters
      exact longer characters.symm
    · rw [← String.ofList_append, characters, String.ofList_toList]
  · rintro ⟨more, something, rfl⟩
    rw [String.toList_append, String.toList_ofList]
    refine ⟨List.prefix_append _ _, ?_⟩
    intro same
    have nothing : more.toList = [] := List.append_right_eq_self.1 same
    exact something (String.toList_eq_nil_iff.1 nothing)

end Completion

/-! ## The completions of a word -/

theorem complete_append (store : Store) (scope : ScopeId) (before after : String) :
    complete store scope (before ++ after) before.utf8ByteSize =
      ⟨Text.byteLength (before.toList.rdropWhile Token.isLetter),
        if Completion.lastWord before.toList = [] then []
        else (Completion.candidates store scope).filter
          (Completion.extendsWord (Completion.lastWord before.toList))⟩ := by
  have cut : (Text.splitAtByte before.utf8ByteSize (before ++ after).toList).1 =
      before.toList := by
    rw [String.toList_append, ← Text.byteLength_toList, Text.splitAtByte_byteLength]
  have sizes : Text.byteLength (before.toList.rdropWhile Token.isLetter) +
      Text.byteLength (Completion.lastWord before.toList) = before.utf8ByteSize := by
    rw [← Text.byteLength_append, Completion.rdropWhile_append_lastWord,
      Text.byteLength_toList]
  unfold complete
  simp only [cut]
  rw [← sizes, Nat.add_sub_cancel]

/-- A line is completed at a cursor from the longest run of letters in front of it.  Without a
letter there is nothing to complete.  Otherwise the names are, in ascending order, those that go
on behind these letters and are a keyword or found by a look-up in the scope. -/
theorem complete_offers_names_that_work (store : Store) (scope : ScopeId) (before after : String) :
    ∃ front word, Completion.EndsWith before front word ∧
      let completion := complete store scope (before ++ after) before.utf8ByteSize
      completion.start = front.utf8ByteSize ∧
        (word = "" → completion.start = before.utf8ByteSize ∧ completion.names = []) ∧
        (word ≠ "" → completion.names.Pairwise (· < ·) ∧ ∀ name, name ∈ completion.names ↔
          (∃ more, more ≠ "" ∧ name = word ++ more) ∧
            (name ∈ ["let", "const", "fn"] ∨ ∃ value, store.lookup scope name = .ok value)) := by
  have ends := Completion.endsWith_lastWord before
  refine ⟨_, _, ends, ?_⟩
  rw [complete_append]
  have atFront : Text.byteLength (before.toList.rdropWhile Token.isLetter) =
      (String.ofList (before.toList.rdropWhile Token.isLetter)).utf8ByteSize := by
    rw [← Text.byteLength_toList, String.toList_ofList]
  refine ⟨atFront, ?_, ?_⟩
  · intro empty
    have nothing : Completion.lastWord before.toList = [] := by simpa using empty
    refine ⟨?_, if_pos nothing⟩
    have whole := ends.cut
    rw [empty, String.append_empty] at whole
    exact atFront.trans (congrArg String.utf8ByteSize whole.symm)
  · intro letters
    have something : Completion.lastWord before.toList ≠ [] := by simpa using letters
    simp only [if_neg something]
    refine ⟨(Completion.ascending_candidates store scope).filter _, fun name => ?_⟩
    rw [List.mem_filter, Completion.mem_candidates, Completion.extendsWord_iff, and_comm]
    rfl

/-- What stands behind the cursor does not matter, nor do names that do not go on behind the
word. -/
example :
    complete (Store.empty.addOutermost.2.define ⟨0⟩ "length" (.boolean true)) ⟨0⟩ "1 + lexy" 6 =
      ⟨4, ["length", "let"]⟩ := by
  decide +kernel

end NanoScript
