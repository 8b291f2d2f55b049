import NanoScript.Phrase.Record
import NanoScript.Proofs.Record.Equality
import NanoScript.Proofs.Reprinting.RoundTrip

/-!
Contract: what the records of phrases keep.

Owns:
- the names of the parts under which each form of phrase is recorded;
- records determine forms, parts and places, one layer of a phrase at a time;
- the theorem that two programs which source texts spell out have equal records only if they are the
  same program.

The absent value stands for two things, a part that is left out and a number without digits.  They
are told apart by where it stands: a part is recorded with the fields of a phrase, and a number
under the form of a numeral.  Of the numbers without digits a source text can write infinity alone.
-/

namespace NanoScript

/-! ## One layer -/

/-- The names under which the parts of a form are recorded. -/
def Phrase.Kind.partNames : Phrase.Kind → List String
  | .program => ["body"]
  | .variableDeclaration => ["identifier", "value", "constant"]
  | .functionDeclaration => ["name", "parameters", "body"]
  | .identifier => ["symbol"]
  | .numericLiteral => ["value"]
  | .binary => ["left", "right", "operator"]
  | .assignment => ["assignee", "value"]
  | .objectLiteral => ["properties"]
  | .call => ["caller", "arguments"]
  | .member => ["object", "property", "computed"]

theorem Phrase.Kind.partNames_distinct (kind : Phrase.Kind) :
    ("kind" :: kind.partNames ++ ["span"]).Nodup := by
  cases kind <;> decide

theorem Phrase.Kind.name_injective {kind other : Phrase.Kind} (same : kind.name = other.name) :
    kind = other := by
  cases kind <;> cases other <;> first | rfl | exact absurd same (by decide)

theorem Span.record_injective {span other : Span} (same : span.record = other.record) :
    span = other := by
  unfold Span.record at same
  have entries := Record.ofFields_injective same rfl (by simp)
  cases span
  cases other
  simpa using entries

namespace Record

section Layer

variable {kind otherKind : Phrase.Kind} {parts otherParts : List (String × Record)}

theorem map_fst_ofPhrase (names : parts.map Prod.fst = kind.partNames) (span : Span) :
    (("kind", text kind.name) :: parts ++ [("span", span.record)]).map Prod.fst =
      "kind" :: kind.partNames ++ ["span"] := by
  simp [names]

/-- The form of a phrase is found in its record. -/
theorem find?_kind_ofPhrase (names : parts.map Prod.fst = kind.partNames) (span : Span) :
    (Table.Sorted.ofList (("kind", text kind.name) :: parts ++ [("span", span.record)])).find? "kind" =
      some (text kind.name) := by
  have distinct := kind.partNames_distinct
  rw [← map_fst_ofPhrase names span] at distinct
  exact Table.Sorted.find?_ofList_of_mem distinct (List.mem_append_left _ List.mem_cons_self)

/-- A record of a phrase determines the form, the parts and the place. -/
theorem ofPhrase_injective {span otherSpan : Span} (names : parts.map Prod.fst = kind.partNames)
    (otherNames : otherParts.map Prod.fst = otherKind.partNames)
    (same : ofPhrase kind parts span = ofPhrase otherKind otherParts otherSpan) :
    kind = otherKind ∧ parts = otherParts ∧ span = otherSpan := by
  have kinds : some (text kind.name) = some (text otherKind.name) := by
    rw [← find?_kind_ofPhrase names span, fields.inj same, find?_kind_ofPhrase otherNames]
  obtain rfl := Phrase.Kind.name_injective (text.inj (Option.some.inj kinds))
  -- Records of one form have the same names, so that they agree name by name.
  have distinct := kind.partNames_distinct
  rw [← map_fst_ofPhrase names span] at distinct
  have entries := ofFields_injective same
    ((map_fst_ofPhrase names span).trans (map_fst_ofPhrase otherNames otherSpan).symm) distinct
  rw [List.cons_append, List.cons_append, List.cons.injEq] at entries
  obtain ⟨sameParts, sameSpans⟩ := List.append_inj' entries.2 rfl
  simp only [List.cons.injEq, Prod.mk.injEq, true_and, and_true] at sameSpans
  exact ⟨rfl, sameParts, Span.record_injective sameSpans⟩

end Layer

theorem ofEntry_injective {key otherKey : String} {value otherValue : Record}
    {span otherSpan : Span}
    (same : ofEntry key value span = ofEntry otherKey otherValue otherSpan) :
    key = otherKey ∧ value = otherValue ∧ span = otherSpan := by
  unfold ofEntry at same
  have entries := ofFields_injective same rfl (by simp)
  simp only [List.cons.injEq, Prod.mk.injEq, text.injEq, true_and, and_true] at entries
  exact ⟨entries.1, entries.2.1, Span.record_injective entries.2.2⟩

end Record

namespace Phrase

theorem exists_parts (phrase : Phrase) :
    ∃ parts, phrase.record = .ofPhrase phrase.kind parts phrase.span ∧
      parts.map Prod.fst = phrase.kind.partNames := by
  cases phrase with
  | variableDeclaration name value constant span => cases value <;> exact ⟨_, rfl, rfl⟩
  | _ => exact ⟨_, rfl, rfl⟩

/-- A phrase is never recorded as the absent value. -/
theorem record_ne_absent (phrase : Phrase) : phrase.record ≠ .absent := by
  obtain ⟨parts, isRecord, _⟩ := phrase.exists_parts
  rw [isRecord]
  exact nofun

theorem kind_eq_of_record_eq {left right : Phrase} (same : left.record = right.record) :
    left.kind = right.kind := by
  obtain ⟨parts, isRecord, names⟩ := left.exists_parts
  obtain ⟨otherParts, otherIsRecord, otherNames⟩ := right.exists_parts
  rw [isRecord, otherIsRecord] at same
  exact (Record.ofPhrase_injective names otherNames same).1

/-! ## Plain phrases -/

/-- The numerals in a phrase are plain numbers. -/
def IsPlain (phrase : Phrase) : Prop :=
  ∀ value span, (numericLiteral value span).OccursIn phrase → value.IsPlain

theorem IsPlain.part {part whole : Phrase} (plain : whole.IsPlain) (member : part ∈ whole.parts) :
    part.IsPlain :=
  fun value span occurs => plain value span (.inPart member occurs)

theorem IsPlain.statement {part whole : Phrase} (plain : whole.IsPlain)
    (member : part ∈ whole.body) : part.IsPlain :=
  fun value span occurs => plain value span (.inBody member occurs)

end Phrase

/-- The value that an entry writes out, if it does, is plain. -/
def Entry.IsPlain (entry : Entry) : Prop :=
  ∀ value, entry.value? = some value → value.IsPlain

namespace Phrase

theorem IsPlain.entries {entries : List Entry} {span : Span}
    (plain : (objectLiteral entries span).IsPlain) : ∀ entry ∈ entries, entry.IsPlain :=
  fun entry member _ written => plain.part (List.mem_filterMap.2 ⟨entry, member, written⟩)

theorem IsStatement.of_occursIn {part whole : Phrase} (occurs : part.OccursIn whole)
    (isStatement : whole.IsStatement) : part.IsStatement := by
  induction occurs with
  | here => exact isStatement
  | inPart member _ inductionHypothesis =>
      exact inductionHypothesis (isStatement.of_mem_parts member)
  | inBody member _ inductionHypothesis =>
      exact inductionHypothesis (isStatement.of_mem_body member)

theorem IsStatement.isPlain {statement : Phrase} (isStatement : statement.IsStatement) :
    statement.IsPlain := by
  intro value span occurs
  cases isStatement.of_occursIn occurs with
  | expression isExpression =>
      cases isExpression with
      | numericLiteral nonnegative isNumber => exact ⟨nonnegative, isNumber⟩

/-- The program that a source text spells out is plain. -/
theorem isPlain_of_ofSource {source : String} {program : Phrase}
    (reads : ofSource source = .ok program) : program.IsPlain := by
  obtain ⟨body, span, rfl, statements⟩ := exists_statements_of_ofSource reads
  intro value place occurs
  cases occurs with
  | inPart member occurs => exact (statements _ member).isPlain value place occurs
  | inBody member occurs => cases member

end Phrase

/-! ## The records of plain phrases -/

theorem Span.isPlain_record (span : Span) : span.record.IsPlain := by
  refine .ofFields ?_
  simp only [List.forall_mem_cons]
  exact ⟨.natural _, .natural _, nofun⟩

theorem Record.IsPlain.ofPhrase {kind : Phrase.Kind} {parts : List (String × Record)} {span : Span}
    (arePlain : ∀ part ∈ parts, part.2.IsPlain) : (Record.ofPhrase kind parts span).IsPlain := by
  refine .ofFields fun entry member => ?_
  rcases List.mem_append.1 member with inFront | isLast
  · rcases List.mem_cons.1 inFront with rfl | inParts
    · exact .text kind.name
    · exact arePlain entry inParts
  · cases List.mem_singleton.1 isLast
    exact span.isPlain_record

theorem Record.IsPlain.ofEntry {key : String} {value : Record} {span : Span}
    (isPlain : value.IsPlain) : (Record.ofEntry key value span).IsPlain := by
  refine .ofFields ?_
  simp only [List.forall_mem_cons]
  exact ⟨.text _, .text _, isPlain, span.isPlain_record, nofun⟩

mutual

theorem Phrase.isPlain_record (phrase : Phrase) (plain : phrase.IsPlain) :
    phrase.record.IsPlain := by
  match phrase with
  | .program body span =>
      have bodyPlain := Phrase.arePlain_records body fun _ => plain.part
      exact .ofPhrase (List.forall_mem_cons.2 ⟨.list bodyPlain, nofun⟩)
  | .variableDeclaration name none constant span =>
      refine .ofPhrase ?_
      simp only [List.forall_mem_cons]
      exact ⟨.text _, .absent, .boolean _, nofun⟩
  | .variableDeclaration name (some value) constant span =>
      have valuePlain := Phrase.isPlain_record value (plain.part List.mem_cons_self)
      refine .ofPhrase ?_
      simp only [List.forall_mem_cons]
      exact ⟨.text _, valuePlain, .boolean _, nofun⟩
  | .functionDeclaration name parameters body span =>
      have bodyPlain := Phrase.arePlain_records body fun _ => plain.statement
      have parametersPlain : ∀ item ∈ parameters.map Record.text, item.IsPlain := by
        rintro item member
        obtain ⟨parameter, _, rfl⟩ := List.mem_map.1 member
        exact .text parameter
      refine .ofPhrase ?_
      simp only [List.forall_mem_cons]
      exact ⟨.text _, .list parametersPlain, .list bodyPlain, nofun⟩
  | .identifier name span => exact .ofPhrase (List.forall_mem_cons.2 ⟨.text _, nofun⟩)
  | .numericLiteral value span =>
      have isPlain := plain value span .here
      exact .ofPhrase (List.forall_mem_cons.2 ⟨.ofNumber isPlain, nofun⟩)
  | .binary left operator right span =>
      have leftPlain := Phrase.isPlain_record left (plain.part List.mem_cons_self)
      have rightPlain := Phrase.isPlain_record right
        (plain.part (List.mem_cons_of_mem _ List.mem_cons_self))
      refine .ofPhrase ?_
      simp only [List.forall_mem_cons]
      exact ⟨leftPlain, rightPlain, .text _, nofun⟩
  | .assignment target value span =>
      have targetPlain := Phrase.isPlain_record target (plain.part List.mem_cons_self)
      have valuePlain := Phrase.isPlain_record value
        (plain.part (List.mem_cons_of_mem _ List.mem_cons_self))
      refine .ofPhrase ?_
      simp only [List.forall_mem_cons]
      exact ⟨targetPlain, valuePlain, nofun⟩
  | .objectLiteral entries span =>
      have entriesPlain := Entry.arePlain_records entries plain.entries
      exact .ofPhrase (List.forall_mem_cons.2 ⟨.list entriesPlain, nofun⟩)
  | .call callee arguments span =>
      have calleePlain := Phrase.isPlain_record callee (plain.part List.mem_cons_self)
      have argumentsPlain := Phrase.arePlain_records arguments fun _ member =>
        plain.part (List.mem_cons_of_mem _ member)
      refine .ofPhrase ?_
      simp only [List.forall_mem_cons]
      exact ⟨calleePlain, .list argumentsPlain, nofun⟩
  | .member object property computed span =>
      have objectPlain := Phrase.isPlain_record object (plain.part List.mem_cons_self)
      have propertyPlain := Phrase.isPlain_record property
        (plain.part (List.mem_cons_of_mem _ List.mem_cons_self))
      refine .ofPhrase ?_
      simp only [List.forall_mem_cons]
      exact ⟨objectPlain, propertyPlain, .boolean _, nofun⟩

theorem Phrase.arePlain_records (phrases : List Phrase)
    (plain : ∀ phrase ∈ phrases, phrase.IsPlain) : ∀ record ∈ Phrase.records phrases, record.IsPlain := by
  match phrases with
  | [] => exact nofun
  | phrase :: rest =>
      refine List.forall_mem_cons.2 ⟨?_, ?_⟩
      · exact Phrase.isPlain_record phrase (plain _ List.mem_cons_self)
      · exact Phrase.arePlain_records rest fun _ member => plain _ (List.mem_cons_of_mem _ member)

theorem Entry.isPlain_record (entry : Entry) (plain : entry.IsPlain) : entry.record.IsPlain := by
  match entry with
  | .shorthand key span => exact .ofEntry .absent
  | .keyed key value span => exact .ofEntry (Phrase.isPlain_record value (plain value rfl))

theorem Entry.arePlain_records (entries : List Entry) (plain : ∀ entry ∈ entries, entry.IsPlain) :
    ∀ record ∈ Entry.records entries, record.IsPlain := by
  match entries with
  | [] => exact nofun
  | entry :: rest =>
      refine List.forall_mem_cons.2 ⟨?_, ?_⟩
      · exact Entry.isPlain_record entry (plain _ List.mem_cons_self)
      · exact Entry.arePlain_records rest fun _ member => plain _ (List.mem_cons_of_mem _ member)

end

/-! ## Whole phrases -/

theorem Operator.symbol_injective {operator other : Operator}
    (same : operator.symbol = other.symbol) : operator = other := by
  have found := congrArg Operator.ofSymbol? same
  simpa using found

theorem Record.map_text_injective {left right : List String}
    (same : left.map Record.text = right.map Record.text) : left = right :=
  List.map_injective_iff.2 (fun _ _ texts => Record.text.inj texts) same

mutual

/-- Plain phrases of one record are the same. -/
theorem Phrase.eq_of_record_eq (left right : Phrase) (leftPlain : left.IsPlain)
    (rightPlain : right.IsPlain) (same : left.record = right.record) : left = right := by
  have kinds := Phrase.kind_eq_of_record_eq same
  match left, right, kinds with
  | .program body span, .program otherBody otherSpan, _ =>
      obtain ⟨_, parts, rfl⟩ := Record.ofPhrase_injective rfl rfl same
      simp only [List.cons.injEq, Prod.mk.injEq, Record.list.injEq, true_and, and_true] at parts
      rw [Phrase.eq_of_records_eq body otherBody (fun _ => leftPlain.part)
        (fun _ => rightPlain.part) parts]
  | .variableDeclaration name none constant span,
      .variableDeclaration otherName none otherConstant otherSpan, _ =>
      obtain ⟨_, parts, rfl⟩ := Record.ofPhrase_injective rfl rfl same
      simp only [List.cons.injEq, Prod.mk.injEq, Record.text.injEq, Record.boolean.injEq, true_and,
        and_true] at parts
      obtain ⟨rfl, rfl⟩ := parts
      rfl
  | .variableDeclaration name none constant span,
      .variableDeclaration otherName (some value) otherConstant otherSpan, _ =>
      obtain ⟨_, parts, _⟩ := Record.ofPhrase_injective rfl rfl same
      simp only [List.cons.injEq, Prod.mk.injEq, true_and] at parts
      exact absurd parts.2.1.symm value.record_ne_absent
  | .variableDeclaration name (some value) constant span,
      .variableDeclaration otherName none otherConstant otherSpan, _ =>
      obtain ⟨_, parts, _⟩ := Record.ofPhrase_injective rfl rfl same
      simp only [List.cons.injEq, Prod.mk.injEq, true_and] at parts
      exact absurd parts.2.1 value.record_ne_absent
  | .variableDeclaration name (some value) constant span,
      .variableDeclaration otherName (some otherValue) otherConstant otherSpan, _ =>
      obtain ⟨_, parts, rfl⟩ := Record.ofPhrase_injective rfl rfl same
      simp only [List.cons.injEq, Prod.mk.injEq, Record.text.injEq, Record.boolean.injEq, true_and,
        and_true] at parts
      obtain ⟨rfl, values, rfl⟩ := parts
      rw [Phrase.eq_of_record_eq value otherValue (leftPlain.part List.mem_cons_self)
        (rightPlain.part List.mem_cons_self) values]
  | .functionDeclaration name parameters body span,
      .functionDeclaration otherName otherParameters otherBody otherSpan, _ =>
      obtain ⟨_, parts, rfl⟩ := Record.ofPhrase_injective rfl rfl same
      simp only [List.cons.injEq, Prod.mk.injEq, Record.text.injEq, Record.list.injEq, true_and,
        and_true] at parts
      obtain ⟨rfl, parameters, bodies⟩ := parts
      rw [Record.map_text_injective parameters,
        Phrase.eq_of_records_eq body otherBody (fun _ => leftPlain.statement)
          (fun _ => rightPlain.statement) bodies]
  | .identifier name span, .identifier otherName otherSpan, _ =>
      obtain ⟨_, parts, rfl⟩ := Record.ofPhrase_injective rfl rfl same
      simp only [List.cons.injEq, Prod.mk.injEq, Record.text.injEq, true_and, and_true] at parts
      rw [parts]
  | .numericLiteral value span, .numericLiteral otherValue otherSpan, _ =>
      obtain ⟨_, parts, rfl⟩ := Record.ofPhrase_injective rfl rfl same
      simp only [List.cons.injEq, Prod.mk.injEq, true_and, and_true] at parts
      rw [Record.ofNumber_injective (leftPlain value span .here)
        (rightPlain otherValue span .here) parts]
  | .binary first operator second span, .binary otherFirst otherOperator otherSecond otherSpan, _ =>
      obtain ⟨_, parts, rfl⟩ := Record.ofPhrase_injective rfl rfl same
      simp only [List.cons.injEq, Prod.mk.injEq, Record.text.injEq, true_and, and_true] at parts
      obtain ⟨firsts, seconds, operators⟩ := parts
      rw [Operator.symbol_injective operators,
        Phrase.eq_of_record_eq first otherFirst (leftPlain.part List.mem_cons_self)
          (rightPlain.part List.mem_cons_self) firsts,
        Phrase.eq_of_record_eq second otherSecond
          (leftPlain.part (List.mem_cons_of_mem _ List.mem_cons_self))
          (rightPlain.part (List.mem_cons_of_mem _ List.mem_cons_self)) seconds]
  | .assignment target value span, .assignment otherTarget otherValue otherSpan, _ =>
      obtain ⟨_, parts, rfl⟩ := Record.ofPhrase_injective rfl rfl same
      simp only [List.cons.injEq, Prod.mk.injEq, true_and, and_true] at parts
      obtain ⟨targets, values⟩ := parts
      rw [Phrase.eq_of_record_eq target otherTarget (leftPlain.part List.mem_cons_self)
          (rightPlain.part List.mem_cons_self) targets,
        Phrase.eq_of_record_eq value otherValue
          (leftPlain.part (List.mem_cons_of_mem _ List.mem_cons_self))
          (rightPlain.part (List.mem_cons_of_mem _ List.mem_cons_self)) values]
  | .objectLiteral entries span, .objectLiteral otherEntries otherSpan, _ =>
      obtain ⟨_, parts, rfl⟩ := Record.ofPhrase_injective rfl rfl same
      simp only [List.cons.injEq, Prod.mk.injEq, Record.list.injEq, true_and, and_true] at parts
      rw [Entry.eq_of_records_eq entries otherEntries leftPlain.entries
        rightPlain.entries parts]
  | .call callee arguments span, .call otherCallee otherArguments otherSpan, _ =>
      obtain ⟨_, parts, rfl⟩ := Record.ofPhrase_injective rfl rfl same
      simp only [List.cons.injEq, Prod.mk.injEq, Record.list.injEq, true_and, and_true] at parts
      obtain ⟨callees, listed⟩ := parts
      rw [Phrase.eq_of_record_eq callee otherCallee (leftPlain.part List.mem_cons_self)
          (rightPlain.part List.mem_cons_self) callees,
        Phrase.eq_of_records_eq arguments otherArguments
          (fun _ member => leftPlain.part (List.mem_cons_of_mem _ member))
          (fun _ member => rightPlain.part (List.mem_cons_of_mem _ member)) listed]
  | .member object property computed span,
      .member otherObject otherProperty otherComputed otherSpan, _ =>
      obtain ⟨_, parts, rfl⟩ := Record.ofPhrase_injective rfl rfl same
      simp only [List.cons.injEq, Prod.mk.injEq, Record.boolean.injEq, true_and, and_true] at parts
      obtain ⟨objects, properties, rfl⟩ := parts
      rw [Phrase.eq_of_record_eq object otherObject (leftPlain.part List.mem_cons_self)
          (rightPlain.part List.mem_cons_self) objects,
        Phrase.eq_of_record_eq property otherProperty
          (leftPlain.part (List.mem_cons_of_mem _ List.mem_cons_self))
          (rightPlain.part (List.mem_cons_of_mem _ List.mem_cons_self)) properties]

/-- Plain phrases with the same records, one by one, are the same. -/
theorem Phrase.eq_of_records_eq (left right : List Phrase)
    (leftPlain : ∀ phrase ∈ left, phrase.IsPlain) (rightPlain : ∀ phrase ∈ right, phrase.IsPlain)
    (same : Phrase.records left = Phrase.records right) : left = right := by
  match left, right with
  | [], [] => rfl
  | phrase :: rest, other :: otherRest =>
      obtain ⟨heads, tails⟩ := List.cons.inj same
      rw [Phrase.eq_of_record_eq phrase other (leftPlain _ List.mem_cons_self)
          (rightPlain _ List.mem_cons_self) heads,
        Phrase.eq_of_records_eq rest otherRest
          (fun _ member => leftPlain _ (List.mem_cons_of_mem _ member))
          (fun _ member => rightPlain _ (List.mem_cons_of_mem _ member)) tails]

/-- Plain entries of one record are the same. -/
theorem Entry.eq_of_record_eq (left right : Entry) (leftPlain : left.IsPlain)
    (rightPlain : right.IsPlain) (same : left.record = right.record) : left = right := by
  match left, right with
  | .shorthand key span, .shorthand otherKey otherSpan =>
      obtain ⟨rfl, _, rfl⟩ := Record.ofEntry_injective same
      rfl
  | .shorthand key span, .keyed otherKey value otherSpan =>
      obtain ⟨_, values, _⟩ := Record.ofEntry_injective same
      exact absurd values.symm value.record_ne_absent
  | .keyed key value span, .shorthand otherKey otherSpan =>
      obtain ⟨_, values, _⟩ := Record.ofEntry_injective same
      exact absurd values value.record_ne_absent
  | .keyed key value span, .keyed otherKey otherValue otherSpan =>
      obtain ⟨rfl, values, rfl⟩ := Record.ofEntry_injective same
      rw [Phrase.eq_of_record_eq value otherValue (leftPlain value rfl) (rightPlain otherValue rfl)
        values]

/-- Entries of the same records, one by one, are the same. -/
theorem Entry.eq_of_records_eq (left right : List Entry)
    (leftPlain : ∀ entry ∈ left, entry.IsPlain) (rightPlain : ∀ entry ∈ right, entry.IsPlain)
    (same : Entry.records left = Entry.records right) : left = right := by
  match left, right with
  | [], [] => rfl
  | entry :: rest, other :: otherRest =>
      obtain ⟨heads, tails⟩ := List.cons.inj same
      rw [Entry.eq_of_record_eq entry other (leftPlain _ List.mem_cons_self)
          (rightPlain _ List.mem_cons_self) heads,
        Entry.eq_of_records_eq rest otherRest
          (fun _ member => leftPlain _ (List.mem_cons_of_mem _ member))
          (fun _ member => rightPlain _ (List.mem_cons_of_mem _ member)) tails]

end

/-- Records lose nothing: the programs that two source texts spell out have equal records just if
they are the same program, forms, parts and places included. -/
theorem Phrase.record_faithful {left right : String} {leftProgram rightProgram : Phrase}
    (readsLeft : Phrase.ofSource left = .ok leftProgram)
    (readsRight : Phrase.ofSource right = .ok rightProgram) :
    (leftProgram.record = rightProgram.record ↔ leftProgram = rightProgram) ∧
      (leftProgram.record.equals rightProgram.record = true ↔ leftProgram = rightProgram) := by
  have leftPlain := Phrase.isPlain_of_ofSource readsLeft
  have rightPlain := Phrase.isPlain_of_ofSource readsRight
  have sameRecord : leftProgram.record = rightProgram.record ↔ leftProgram = rightProgram :=
    ⟨Phrase.eq_of_record_eq leftProgram rightProgram leftPlain rightPlain,
      congrArg Phrase.record⟩
  have equalRecord := Record.IsPlain.equals_iff (leftProgram.isPlain_record leftPlain)
    (rightProgram.isPlain_record rightPlain)
  exact ⟨sameRecord, equalRecord.trans sameRecord⟩

/-- A declaration with a value and one without. -/
theorem Phrase.record_of_declaration_faithful :
    ∃ initialized declared,
      Phrase.ofSource "let a = 1;" = .ok initialized ∧ Phrase.ofSource "let a;" = .ok declared ∧
      (initialized.record = declared.record ↔ initialized = declared) ∧
      (initialized.record.equals declared.record = true ↔ initialized = declared) := by
  have found (source : String) (isOk : (Phrase.ofSource source).isOk = true) :
      ∃ program, Phrase.ofSource source = .ok program := by
    cases reads : Phrase.ofSource source with
    | error fault =>
        rw [reads] at isOk
        cases isOk
    | ok program => exact ⟨program, rfl⟩
  obtain ⟨initialized, readsInitialized⟩ := found "let a = 1;" (by decide +kernel)
  obtain ⟨declared, readsDeclared⟩ := found "let a;" (by decide +kernel)
  exact ⟨initialized, declared, readsInitialized, readsDeclared,
    Phrase.record_faithful readsInitialized readsDeclared⟩

-- A numeral may be too large to have a finite value.
example : Number.read? (String.ofList (List.replicate 310 '9')) = some .infinity := by
  rw [Number.read?, String.toList_ofList]
  decide +kernel

end NanoScript
