import NanoScript.Proofs.Evaluation.Primitive
import NanoScript.Proofs.Reading.Source
import NanoScript.Proofs.Value.Data

/-!
Contract: the displayed form of a data value is a program for it.

Owns:
- texts that spell one expression, which read back as that expression up to places;
- the value of what reads as the expression of a data value, wherever the names of constants mean
  what they mean at the start;
- the theorem that a data value is what its displayed form evaluates to in a fresh global scope.

The properties of an object are displayed in the order of their keys, whatever their order in the
object.  The object that comes out has the same content, not always in the same order.
-/

namespace NanoScript

open Grammar Token

/-! ## Reading -/

/-- A text that spells the words of a derivable expression is a program of this expression alone. -/
theorem Phrase.exists_program_of_spells {source : String} {phrase : Phrase}
    (shape : phrase.IsExpression) (derivable : Derivable phrase)
    (spells : Spells source.toList phrase.words) :
    ∃ again span, ofSource source = .ok (.program [again] span) ∧ again.bare = phrase.bare := by
  obtain ⟨tokens, mark, sameWords, ofKind, scans⟩ := spells.scan
  obtain ⟨before, last, split, _, areLexical⟩ := exists_of_scan scans
  obtain ⟨rfl, _⟩ := List.append_inj' split rfl
  obtain ⟨found, isBefore⟩ := beforeMark_of_areLexical areLexical ofKind
  have isStatement : ∀ statement ∈ [phrase], statement.IsStatement :=
    List.forall_mem_singleton.2 (.expression shape)
  have isDerivable : ∀ statement ∈ [phrase], DerivableAsStatement statement :=
    List.forall_mem_singleton.2 (derivableAsStatement_of_isExpression shape derivable)
  obtain ⟨statements, derived, alike, separated⟩ := exists_separated_statements isStatement
    isDerivable (List.isChain_singleton _) (sameWords.trans (by simp))
  let derivation : Grammar.Program := ⟨statements, separated⟩
  have reads : ofTokens (tokens ++ [mark]) = .ok (derivation.phrase mark.span.stop) :=
    derivation.read found (derived.trans isBefore.symm)
  obtain ⟨again, single, same⟩ := List.map_eq_singleton_iff.1 alike
  refine ⟨again, ⟨0, mark.span.stop⟩, ?_, same⟩
  rw [ofSource_of_scan scans, reads, Program.phrase, single]

/-! ## Expressions up to places -/

namespace Phrase

variable {phrase : Phrase} {place : Span}

theorem eq_identifier_of_bare {name : String} (same : phrase.bare = .identifier name place) :
    ∃ span, phrase = .identifier name span := by
  cases phrase with
  | identifier text span =>
      cases same
      exact ⟨span, rfl⟩
  | variableDeclaration name value constant span => cases value <;> cases same
  | _ => cases same

theorem eq_numericLiteral_of_bare {value : Number}
    (same : phrase.bare = .numericLiteral value place) :
    ∃ span, phrase = .numericLiteral value span := by
  cases phrase with
  | numericLiteral value span =>
      cases same
      exact ⟨span, rfl⟩
  | variableDeclaration name value constant span => cases value <;> cases same
  | _ => cases same

theorem eq_objectLiteral_of_bare {entries : List NanoScript.Entry}
    (same : phrase.bare = .objectLiteral entries place) :
    ∃ others span, phrase = .objectLiteral others span ∧
      others.map NanoScript.Entry.bare = entries := by
  cases phrase with
  | objectLiteral others span =>
      rw [bare, rewritten_objectLiteral] at same
      cases same
      exact ⟨others, span, rfl, rfl⟩
  | variableDeclaration name value constant span => cases value <;> cases same
  | _ => cases same

end Phrase

theorem Entry.eq_keyed_of_bare {entry : NanoScript.Entry} {key : String} {value : Phrase}
    {place : Span} (same : entry.bare = .keyed key value place) :
    ∃ written span, entry = .keyed key written span ∧ written.bare = value := by
  cases entry with
  | shorthand text span => cases same
  | keyed text written span =>
      cases same
      exact ⟨written, span, rfl, rfl⟩

/-! ## Evaluation -/

/-- The names of constants mean in a scope what they mean at the start. -/
structure Store.NamesConstants (store : Store) (scope : ScopeId) : Prop where
  null : store.lookup scope "null" = .ok .null
  boolean : ∀ value : Bool,
    store.lookup scope (if value then "true" else "false") = .ok (.boolean value)

theorem State.namesConstants_initial :
    State.initial.2.addText.store.NamesConstants State.initial.1 := by
  refine ⟨rfl, fun value => ?_⟩
  cases value <;> rfl

section

variable {invoker : Invoker} {scope : ScopeId} {state : State}

theorem Evaluation.lookup_eq_ok {name : String} {value : Value}
    (found : state.store.lookup scope name = .ok value) (span : Span) :
    Evaluation.lookup scope name span state = .ok value state := by
  rw [Evaluation.lookup_apply, found]

/-- Entries that write out properties under distinct keys, each entered behind the ones before. -/
theorem Entry.evaluateAll_of_nodup {entered properties : List (String × Value)}
    {entries : List NanoScript.Entry}
    (same : entries.map NanoScript.Entry.bare =
      (properties.map Value.entry).map NanoScript.Entry.bare)
    (each : ∀ property ∈ properties, ∀ phrase : Phrase, phrase.bare = property.2.phrase.bare →
      ∃ again, phrase.evaluate invoker scope state = .ok again state ∧
        property.2.SameContent again)
    (distinct : (entered.map Prod.fst ++ properties.map Prod.fst).Nodup) :
    ∃ others, List.Forall₂ (Table.EntriesAlike Value.SameContent) properties others ∧
      Entry.evaluateAll invoker scope ⟨entered⟩ entries state =
        .ok ⟨entered ++ others⟩ state := by
  -- The table that was entered so far grows by one property with every entry.
  induction properties generalizing entered entries with
  | nil =>
      cases List.map_eq_nil_iff.1 same
      refine ⟨[], .nil, ?_⟩
      rw [List.append_nil]
      rfl
  | cons property rest inductionHypothesis =>
      obtain ⟨key, value⟩ := property
      obtain ⟨entry, others, rfl, sameEntry, sameOthers⟩ := List.map_eq_cons_iff.1 same
      obtain ⟨written, span, rfl, sameValue⟩ := Entry.eq_keyed_of_bare sameEntry
      obtain ⟨again, gives, alike⟩ := each (key, value) List.mem_cons_self written sameValue
      have isNew : key ∉ entered.map Prod.fst := fun member =>
        (List.nodup_append.1 distinct).2.2 key member key List.mem_cons_self rfl
      have insertion : Table.insert ⟨entered⟩ key again = ⟨entered ++ [(key, again)]⟩ :=
        congrArg Table.mk (Table.put_of_not_mem isNew)
      have distinctLater :
          ((entered ++ [(key, again)]).map Prod.fst ++ rest.map Prod.fst).Nodup := by
        rw [List.map_append, List.append_assoc]
        exact distinct
      obtain ⟨later, alikeLater, givesLater⟩ := inductionHypothesis sameOthers
        (fun other member => each other (List.mem_cons_of_mem _ member)) distinctLater
      refine ⟨(key, again) :: later, .cons ⟨rfl, alike⟩ alikeLater, ?_⟩
      rw [Entry.evaluateAll, Evaluation.bind_apply, Entry.evaluate, gives]
      dsimp only [Entry.key]
      rw [insertion, givesLater, List.append_cons entered (key, again) later]

/-- An object has the content of what corresponds to its properties in the order of their keys. -/
theorem Value.sameContent_of_sorted {properties : Table Value} (distinct : properties.Distinct)
    {others : List (String × Value)}
    (alike : List.Forall₂ (Table.EntriesAlike SameContent)
      (Table.Sorted.ofList properties.entries).entries others) :
    (object properties).SameContent (.object ⟨others⟩) := by
  have tables : Table.Alike SameContent ⟨(Table.Sorted.ofList properties.entries).entries⟩
      ⟨others⟩ := alike
  have found (key : String) :
      Option.Rel SameContent (properties.find? key) (Table.find? ⟨others⟩ key) := by
    have same : (Table.Sorted.ofList properties.entries).find? key = properties.find? key := by
      rw [Table.Sorted.find?_ofList, Table.lastUnder_of_nodup distinct]
      rfl
    exact same ▸ tables.find? key
  have sameNames : (Table.Sorted.ofList properties.entries).names = others.map Prod.fst :=
    alike.map_eq fun entries => entries.1
  have othersDistinct : (others.map Prod.fst).Nodup :=
    sameNames ▸ (Table.Sorted.ordered_ofList properties.entries).nodup
  refine .object distinct othersDistinct (fun key => (found key).isSome_eq) ?_
  intro key first second here there
  have both := found key
  rw [here, there] at both
  cases both with
  | some alike => exact alike

/-- What reads as the expression of a data value has a value of the same content, and leaves the
state alone. -/
theorem Value.IsData.evaluate {value : Value} (data : value.IsData) (invoker : Invoker)
    (constants : state.store.NamesConstants scope) {phrase : Phrase}
    (same : phrase.bare = value.phrase.bare) :
    ∃ again, phrase.evaluate invoker scope state = .ok again state ∧ value.SameContent again := by
  induction data generalizing phrase with
  | null =>
      obtain ⟨span, rfl⟩ := Phrase.eq_identifier_of_bare same
      exact ⟨_, Evaluation.lookup_eq_ok constants.null span, .same _⟩
  | boolean value =>
      obtain ⟨span, rfl⟩ := Phrase.eq_identifier_of_bare same
      exact ⟨_, Evaluation.lookup_eq_ok (constants.boolean value) span, .same _⟩
  | number finite nonnegative =>
      obtain ⟨span, rfl⟩ := Phrase.eq_numericLiteral_of_bare same
      exact ⟨_, rfl, .same _⟩
  | @object properties distinct areNames values inductionHypothesis =>
      rw [Value.phrase_object, Phrase.bare, Phrase.rewritten_objectLiteral] at same
      obtain ⟨entries, span, rfl, sameEntries⟩ := Phrase.eq_objectLiteral_of_bare same
      have each : ∀ property ∈ (Table.Sorted.ofList properties.entries).entries,
          ∀ phrase : Phrase, phrase.bare = property.2.phrase.bare →
            ∃ again, phrase.evaluate invoker scope state = .ok again state ∧
              property.2.SameContent again :=
        forall_sorted fun property listed phrase => inductionHypothesis property listed
      have filled : ∃ others, List.Forall₂ (Table.EntriesAlike Value.SameContent)
          (Table.Sorted.ofList properties.entries).entries others ∧
          Entry.evaluateAll invoker scope ⟨[]⟩ entries state = .ok ⟨[] ++ others⟩ state :=
        Entry.evaluateAll_of_nodup sameEntries each (Table.Sorted.ordered_ofList _).nodup
      obtain ⟨others, alike, entered⟩ := filled
      refine ⟨.object ⟨others⟩, ?_, Value.sameContent_of_sorted distinct alike⟩
      rw [Phrase.evaluate, Evaluation.bind_apply, Table.empty, entered]
      rfl

end

/-! ## Running the displayed form -/

/-- The displayed form of a data value, run in a fresh global scope, gives a value of the same
content, which is equal to it, and changes nothing. -/
theorem Value.IsData.run_text {value : Value} (data : value.IsData) (invoker : Invoker) :
    ∃ again, run invoker value.text State.initial.1 State.initial.2 =
        (.ok again, State.initial.2.addText) ∧
      value.SameContent again ∧ value.equals again = true ∧ again.equals value = true := by
  obtain ⟨phrase, span, reads, same⟩ :=
    Phrase.exists_program_of_spells data.isExpression data.derivable data.spells
  obtain ⟨again, gives, alike⟩ := data.evaluate (invoker.within State.initial.2.store.texts)
    State.namesConstants_initial same
  have equal := alike.equals data.equals_self
  refine ⟨again, ?_, alike, equal, equals_symm data.isKeyed (alike.isKeyed data.isKeyed) equal⟩
  rw [run_of_reads invoker reads, Evaluation.outcome_apply, Phrase.evaluate, Phrase.evaluateBlock,
    Evaluation.bind_apply, gives]
  rfl

/-- An object inside an object, beside a fraction and a boolean, not in the order of the keys. -/
def Value.nested : Value :=
  .object ⟨[("c", .number ⟨0x4004000000000000⟩), ("a", .object ⟨[("b", .null)]⟩),
    ("d", .boolean true)]⟩

theorem Value.nested_isData : Value.nested.IsData := by
  have areNames : IsName "a" ∧ IsName "b" ∧ IsName "c" ∧ IsName "d" := by decide
  obtain ⟨isA, isB, isC, isD⟩ := areNames
  have inner : (Value.object ⟨[("b", .null)]⟩).IsData := by
    refine .object (List.pairwise_singleton _ _) ?_ ?_
    · simpa using isB
    · simpa using Value.IsData.null
  have fraction : (Value.number ⟨0x4004000000000000⟩).IsData := .number (by decide) (by decide)
  refine .object (by decide) ?_ ?_
  · simpa using ⟨isC, isA, isD⟩
  · simpa using ⟨fraction, inner, .boolean true⟩

/-- An object equal to this one comes back from what it is displayed as. -/
theorem Value.nested_comes_back :
    Value.nested.text = "\x7b a: \x7b b: null \x7d, c: 2.5, d: true \x7d" ∧
      ∃ again, (run (Invoker.upTo Host.standard 0)
          "\x7b a: \x7b b: null \x7d, c: 2.5, d: true \x7d" State.initial.1
          State.initial.2).1 = .ok again ∧
        Value.nested.equals again = true ∧ again.equals Value.nested = true := by
  have shown : Value.nested.text = "\x7b a: \x7b b: null \x7d, c: 2.5, d: true \x7d" := by
    decide +kernel
  obtain ⟨again, gives, _, equal, turned⟩ :=
    Value.nested_isData.run_text (Invoker.upTo Host.standard 0)
  rw [shown] at gives
  exact ⟨shown, again, congrArg Prod.fst gives, equal, turned⟩

end NanoScript
