import NanoScript.Proofs.Grammar.Pieces
import NanoScript.Proofs.Phrase.Node
import NanoScript.Proofs.Reading.Source
import NanoScript.Proofs.Token.Arrangement

/-!
Contract: the places of the nodes of a program mirror its source text.

Owns:
- what it means for a node to mirror tokens: each child covers some of them inside the place of the
  node, the children stand one behind the other, and names and numbers have tokens of their own;
- the theorem that what tokens form mirrors them, and what is formed from others between them;
- the theorem that every node of a program mirrors the tokens of the source text.

A place is always the smallest range around two others, the first and the last of some that the
tokens lay out in order.  What stands between the two is inside the place.  The tokens of a node
need not be: parentheses around its first or last part are left out.
-/

namespace NanoScript

open Token

/-! ## Nodes that mirror tokens -/

/-- A name or a number is one of the tokens, at the place of that token. -/
def Node.HasOwnToken (tokens : List Token) : Node → Prop
  | .phrase (.identifier name span) => ∃ token ∈ tokens, Grammar.Spells name span token
  | .phrase (.numericLiteral value span) =>
      ∃ token ∈ tokens, token.kind = .number ∧ Number.read? token.text = some value ∧
        token.span = span
  | .entry (.shorthand key span) => ∃ token ∈ tokens, Grammar.Spells key span token
  | _ => True

/-- Each child of a node covers some tokens inside the place of the node, one child behind the
other, and a name or a number has a token of its own. -/
structure Node.Mirrors (tokens : List Token) (node : Node) : Prop where
  children : ∀ child ∈ node.children,
    MarkOut tokens child.span ∧ node.span.Encloses child.span
  order : node.children.Pairwise fun left right => left.span.stop ≤ right.span.start
  ownToken : node.HasOwnToken tokens

theorem Node.HasOwnToken.mono {tokens others : List Token} {node : Node}
    (hasOwnToken : node.HasOwnToken tokens) (among : tokens ⊆ others) :
    node.HasOwnToken others := by
  match node with
  | .phrase (.identifier name span) =>
      obtain ⟨token, member, spells⟩ := hasOwnToken
      exact ⟨token, among member, spells⟩
  | .phrase (.numericLiteral value span) =>
      obtain ⟨token, member, reads⟩ := hasOwnToken
      exact ⟨token, among member, reads⟩
  | .entry (.shorthand key span) =>
      obtain ⟨token, member, spells⟩ := hasOwnToken
      exact ⟨token, among member, spells⟩
  | .entry (.keyed ..) => trivial
  | .phrase (.program ..) => trivial
  | .phrase (.variableDeclaration ..) => trivial
  | .phrase (.functionDeclaration ..) => trivial
  | .phrase (.binary ..) => trivial
  | .phrase (.assignment ..) => trivial
  | .phrase (.objectLiteral ..) => trivial
  | .phrase (.call ..) => trivial
  | .phrase (.member ..) => trivial

theorem Node.Mirrors.mono {tokens others : List Token} {node : Node}
    (mirrors : node.Mirrors tokens) (among : tokens ⊆ others) : node.Mirrors others :=
  ⟨fun child member => (mirrors.children child member).imp_left fun markOut => markOut.mono among,
    mirrors.order, mirrors.ownToken.mono among⟩

/-- A node covers some tokens, and so does everything in it. -/
structure Node.IsPlaced (tokens : List Token) (node : Node) : Prop where
  markOut : MarkOut tokens node.span
  mirrors : ∀ inner : Node, inner.OccursIn node → inner.Mirrors tokens

/-- Nodes cover some tokens one behind the other, and so does everything in each. -/
structure Node.ArePlaced (tokens : List Token) (nodes : List Node) : Prop where
  layOut : LayOut tokens (nodes.map span)
  placed : ∀ node ∈ nodes, node.IsPlaced tokens

namespace Node

variable {tokens : List Token} {node : Node}

theorem IsPlaced.mono {others : List Token} (isPlaced : node.IsPlaced tokens)
    (among : tokens ⊆ others) : node.IsPlaced others :=
  ⟨isPlaced.markOut.mono among, fun inner occurs => (isPlaced.mirrors inner occurs).mono among⟩

theorem ArePlaced.mono {others : List Token} {nodes : List Node} (arePlaced : ArePlaced tokens nodes)
    (among : tokens ⊆ others) : ArePlaced others nodes :=
  ⟨arePlaced.layOut.mono among, fun node member => (arePlaced.placed node member).mono among⟩

theorem arePlaced_nil (tokens : List Token) : ArePlaced tokens [] :=
  ⟨.nil tokens, nofun⟩

theorem IsPlaced.single (isPlaced : node.IsPlaced tokens) : ArePlaced tokens [node] :=
  ⟨.singleton isPlaced.markOut, List.forall_mem_singleton.2 isPlaced⟩

/-- Nodes that earlier tokens place stand before those that later ones place. -/
theorem ArePlaced.append {later : List Token} {nodes others : List Node}
    (arePlaced : ArePlaced tokens nodes) (arranged : Arranged (tokens ++ later))
    (laterPlaced : ArePlaced later others) : ArePlaced (tokens ++ later) (nodes ++ others) := by
  refine ⟨?_, List.forall_mem_append.2 ⟨fun node member => ?_, fun node member => ?_⟩⟩
  · rw [List.map_append]
    exact LayOut.append arranged arePlaced.layOut laterPlaced.layOut
  · exact (arePlaced.placed node member).mono (List.subset_append_left _ _)
  · exact (laterPlaced.placed node member).mono (List.subset_append_right _ _)

/-! ## Placing a node around its children -/

theorem mirrors_of_occursIn (mirrors : node.Mirrors tokens)
    (placed : ∀ child ∈ node.children, child.IsPlaced tokens) {inner : Node}
    (occurs : inner.OccursIn node) : inner.Mirrors tokens := by
  cases occurs with
  | here => exact mirrors
  | inChild member occurs => exact (placed _ member).mirrors inner occurs

/-- A node without children is placed if it covers tokens. -/
theorem isPlaced_of_childless (childless : node.children = []) (markOut : MarkOut tokens node.span)
    (ownToken : node.HasOwnToken tokens) : node.IsPlaced tokens := by
  have none (child : Node) : child ∉ node.children := by
    rw [childless]
    exact List.not_mem_nil
  have mirrors : node.Mirrors tokens := by
    refine ⟨fun child member => absurd member (none child), ?_, ownToken⟩
    rw [childless]
    exact .nil
  exact ⟨markOut, fun inner occurs =>
    mirrors_of_occursIn mirrors (fun child member => absurd member (none child)) occurs⟩

/-- A node is placed if it reaches from the first to the last of some ranges in order, and its
children are among these. -/
theorem isPlaced_of_layOut {first last : Span} (middle : List Span)
    (layOut : LayOut tokens (first :: (middle ++ [last])))
    (among : (node.children.map Node.span).Sublist (first :: (middle ++ [last])))
    (placed : ∀ child ∈ node.children, child.IsPlaced tokens)
    (span : node.span = first.merge last) (ownToken : node.HasOwnToken tokens) :
    node.IsPlaced tokens := by
  have mirrors : node.Mirrors tokens := by
    refine ⟨fun child member => ⟨(placed child member).markOut, ?_⟩, ?_, ownToken⟩
    · rw [span]
      exact layOut.merge_encloses (among.subset (List.mem_map_of_mem member))
    · exact List.pairwise_map.1 (layOut.order.sublist among)
  refine ⟨?_, fun inner occurs => mirrors_of_occursIn mirrors placed occurs⟩
  rw [span]
  exact layOut.markOut_merge

/-- A node that reaches from its first child to its second, with a token between them. -/
theorem isPlaced_pair {first second : Node} {later : List Token} (mark : Token)
    (arranged : Arranged (tokens ++ mark :: later)) (isFirst : first.IsPlaced tokens)
    (isSecond : second.IsPlaced later) (children : node.children = [first, second])
    (span : node.span = first.span.merge second.span)
    (ownToken : node.HasOwnToken (tokens ++ mark :: later)) :
    node.IsPlaced (tokens ++ mark :: later) := by
  have behind := isSecond.single.mono (List.subset_cons_self mark later)
  have both := isFirst.single.append arranged behind
  refine isPlaced_of_layOut [] both.layOut ?_ ?_ span ownToken
  · rw [children]
    exact List.Sublist.refl _
  · rw [children]
    exact both.placed

/-- A node that reaches from its first child to a token behind its other children. -/
theorem isPlaced_suffixed {first : Node} {others : List Node} {inner : List Token}
    (opening closing : Token) (arranged : Arranged (tokens ++ opening :: (inner ++ [closing])))
    (isFirst : first.IsPlaced tokens) (arePlaced : ArePlaced inner others)
    (children : node.children = first :: others) (span : node.span = first.span.merge closing.span)
    (ownToken : node.HasOwnToken (tokens ++ opening :: (inner ++ [closing]))) :
    node.IsPlaced (tokens ++ opening :: (inner ++ [closing])) := by
  have suffix := (LayOut.concat arranged.right.tail arePlaced.layOut).mono
    (List.subset_cons_self opening _)
  have layOut := LayOut.append arranged (.singleton isFirst.markOut) suffix
  refine isPlaced_of_layOut (others.map Node.span) layOut ?_ ?_ span ownToken
  · rw [children]
    exact (List.sublist_append_left _ _).cons_cons _
  · rw [children]
    refine List.forall_mem_cons.2 ⟨isFirst.mono (List.subset_append_left _ _), ?_⟩
    exact fun child member => (arePlaced.placed child member).mono fun token among => by
      simp [among]

/-- A node that reaches from a token before its children to a token behind them. -/
theorem isPlaced_enclosed {inner : List Token} (opening closing : Token) (front : List Token)
    (arranged : Arranged (opening :: (front ++ (inner ++ [closing]))))
    (arePlaced : ArePlaced inner node.children)
    (span : node.span = opening.span.merge closing.span)
    (ownToken : node.HasOwnToken (opening :: (front ++ (inner ++ [closing])))) :
    node.IsPlaced (opening :: (front ++ (inner ++ [closing]))) := by
  have suffix := (LayOut.concat arranged.tail.right arePlaced.layOut).mono
    (List.subset_append_right front _)
  have layOut := LayOut.cons arranged suffix
  refine isPlaced_of_layOut (node.children.map Node.span) layOut ?_ ?_ span ownToken
  · exact (List.sublist_append_left _ _).cons _
  · exact fun child member => (arePlaced.placed child member).mono fun token among => by
      simp [among]

end Node

namespace Grammar

/-! ## What tokens form -/

/-- A node stands before those that later tokens place, whatever separates it from what was
before. -/
theorem arePlaced_cons {tokens separator rest : List Token} {node : Node} {nodes : List Node}
    (arranged : Arranged (separator ++ (tokens ++ rest))) (isPlaced : node.IsPlaced tokens)
    (others : Node.ArePlaced rest nodes) :
    Node.ArePlaced (separator ++ (tokens ++ rest)) (node :: nodes) :=
  (isPlaced.single.append arranged.right others).mono (List.subset_append_right _ _)

/-- A name is placed at its token. -/
theorem Terminal.isPlaced (key : Terminal .identifier) (arranged : Arranged [key.token]) :
    (Node.phrase (.identifier key.token.text key.token.span)).IsPlaced [key.token] := by
  refine Node.isPlaced_of_childless rfl (arranged.markOut List.mem_cons_self) ?_
  exact ⟨key.token, List.mem_cons_self, key.ofKind, rfl, rfl⟩

theorem Numeral.isPlaced (numeral : Numeral) (arranged : Arranged [numeral.token]) :
    (Node.phrase (.numericLiteral numeral.value numeral.token.span)).IsPlaced
      [numeral.token] := by
  refine Node.isPlaced_of_childless rfl (arranged.markOut List.mem_cons_self) ?_
  exact ⟨numeral.token, List.mem_cons_self, numeral.ofKind, numeral.reads, rfl⟩

theorem Terminal.isPlaced_shorthand (key : Terminal .identifier) (arranged : Arranged [key.token]) :
    (Node.entry (.shorthand key.token.text key.token.span)).IsPlaced [key.token] := by
  refine Node.isPlaced_of_childless rfl (arranged.markOut List.mem_cons_self) ?_
  exact ⟨key.token, List.mem_cons_self, key.ofKind, rfl, rfl⟩

/-- An entry reaches from its key to its value. -/
theorem Terminal.isPlaced_keyed (key : Terminal .identifier) {colon : Token} {tokens : List Token}
    {value : Phrase} (arranged : Arranged (key.token :: colon :: tokens))
    (isValue : (Node.phrase value).IsPlaced tokens) :
    (Node.entry (.keyed key.token.text value (key.token.span.merge value.span))).IsPlaced
      (key.token :: colon :: tokens) := by
  have behind := isValue.single.mono (List.subset_cons_self colon tokens)
  refine Node.isPlaced_of_layOut [] (LayOut.cons arranged behind.layOut)
    ((List.Sublist.refl _).cons _) ?_ rfl trivial
  exact (behind.mono (List.subset_cons_self key.token _)).placed

mutual

/-- What tokens form is placed among them. -/
theorem Forms.isPlaced {tokens : List Token} {phrase : Phrase} (forms : Forms tokens phrase)
    (arranged : Arranged tokens) (shape : phrase.IsStatement) :
    (Node.phrase phrase).IsPlaced tokens := by
  match forms with
  | .name key => exact key.isPlaced arranged
  | .numeral figures => exact figures.isPlaced arranged
  | .within before after forms =>
      have isPlaced := forms.isPlaced arranged.right.left shape
      exact isPlaced.mono fun token member => by simp [member]
  | .binary operator mark first second =>
      have isFirst := first.isPlaced arranged.left (shape.of_mem_parts List.mem_cons_self)
      have isSecond := second.isPlaced arranged.right.tail
        (shape.of_mem_parts (List.mem_cons_of_mem _ List.mem_cons_self))
      exact Node.isPlaced_pair mark arranged isFirst isSecond rfl rfl trivial
  | .assignment equals first second =>
      have isFirst := first.isPlaced arranged.left (shape.of_mem_parts List.mem_cons_self)
      have isSecond := second.isPlaced arranged.right.tail
        (shape.of_mem_parts (List.mem_cons_of_mem _ List.mem_cons_self))
      exact Node.isPlaced_pair equals arranged isFirst isSecond rfl rfl trivial
  | .objectLiteral opening closing form =>
      refine Node.isPlaced_enclosed opening closing [] arranged
        (form.arePlaced arranged.tail.left ?_) rfl trivial
      intro entry listed value written
      exact shape.of_mem_parts (List.mem_filterMap.2 ⟨entry, listed, written⟩)
  | .call opening closing first form =>
      have isFirst := first.isPlaced arranged.left (shape.of_mem_parts List.mem_cons_self)
      have others := form.arePlaced arranged.right.tail.left fun argument listed =>
        shape.of_mem_parts (List.mem_cons_of_mem _ listed)
      exact Node.isPlaced_suffixed opening closing arranged isFirst others rfl rfl trivial
  | .named dot key first =>
      have isFirst := first.isPlaced arranged.left (shape.of_mem_parts List.mem_cons_self)
      have isSecond := key.isPlaced arranged.right.tail
      exact Node.isPlaced_pair dot arranged isFirst isSecond rfl rfl trivial
  | .computed opening closing first second =>
      have isFirst := first.isPlaced arranged.left (shape.of_mem_parts List.mem_cons_self)
      have isSecond := second.isPlaced arranged.right.tail.left
        (shape.of_mem_parts (List.mem_cons_of_mem _ List.mem_cons_self))
      exact Node.isPlaced_suffixed opening closing arranged isFirst isSecond.single rfl rfl trivial
  | .declaration keyword semicolon key =>
      have isPlaced : (Node.phrase (.variableDeclaration key.token.text none false
          (keyword.span.merge semicolon.span))).IsPlaced
            (keyword :: ([key.token] ++ ([] ++ [semicolon]))) :=
        Node.isPlaced_enclosed keyword semicolon _ arranged (Node.arePlaced_nil []) rfl trivial
      exact isPlaced
  | .initialized constant keyword equals semicolon key forms =>
      have isValue := forms.isPlaced arranged.tail.tail.tail.left
        (shape.of_mem_parts List.mem_cons_self)
      exact Node.isPlaced_enclosed keyword semicolon [key.token, equals] arranged isValue.single
        rfl trivial
  | @Forms.function inner _ keyword opening closing key listed parameters form =>
      have body := form.arePlaced arranged.tail.tail.right.tail.left
        fun statement member => shape.of_mem_body member
      have regrouped : key.token :: (listed ++ opening :: (inner ++ [closing])) =
          (key.token :: (listed ++ [opening])) ++ (inner ++ [closing]) := by simp
      rw [regrouped] at arranged ⊢
      exact Node.isPlaced_enclosed keyword closing _ arranged body rfl trivial
  | .program stop form => exact absurd rfl shape.kind_ne
termination_by structural forms

theorem FormAll.arePlaced {tokens : List Token} {phrases : List Phrase}
    (form : FormAll tokens phrases) (arranged : Arranged tokens)
    (shapes : ∀ phrase ∈ phrases, phrase.IsStatement) :
    Node.ArePlaced tokens (phrases.map .phrase) := by
  match form with
  | .none => exact Node.arePlaced_nil []
  | .more separator first others =>
      obtain ⟨shape, otherShapes⟩ := List.forall_mem_cons.1 shapes
      exact arePlaced_cons arranged (first.isPlaced arranged.right.left shape)
        (others.arePlaced arranged.right.right otherShapes)
termination_by structural form

theorem FormEntries.arePlaced {tokens : List Token} {entries : List NanoScript.Entry}
    (form : FormEntries tokens entries) (arranged : Arranged tokens)
    (shapes : ∀ entry ∈ entries, ∀ value, entry.value? = some value → value.IsStatement) :
    Node.ArePlaced tokens (entries.map .entry) := by
  match form with
  | .none trailing => exact Node.arePlaced_nil trailing
  | @FormEntries.shorthand rest _ separator key others =>
      obtain ⟨_, otherShapes⟩ := List.forall_mem_cons.1 shapes
      have apart : Arranged (separator ++ ([key.token] ++ rest)) := arranged
      exact arePlaced_cons apart (key.isPlaced_shorthand apart.right.left)
        (others.arePlaced apart.right.right otherShapes)
  | @FormEntries.keyed tokens rest value _ separator key colon first others =>
      obtain ⟨shape, otherShapes⟩ := List.forall_mem_cons.1 shapes
      have apart : Arranged (separator ++ ((key.token :: colon :: tokens) ++ rest)) := arranged
      have isValue := first.isPlaced apart.right.left.tail.tail (shape value rfl)
      exact arePlaced_cons apart (key.isPlaced_keyed apart.right.left isValue)
        (others.arePlaced apart.right.right otherShapes)
termination_by structural form

end

end Grammar

/-! ## Programs -/

/-- The place of a program is the whole source text.  Everything in it covers some tokens, inside
the place of its parent and behind the earlier children of that parent; and names and numbers are
tokens at their places. -/
theorem Phrase.mirrors_of_ofSource {source : String} {program : Phrase}
    (reads : ofSource source = .ok program) :
    program.span = ⟨0, source.utf8ByteSize⟩ ∧
      ∃ tokens, scan source = .ok (tokens ++ [endOfInput source.utf8ByteSize]) ∧
        ∀ node : Node, node.OccursIn (.phrase program) → node.Mirrors tokens := by
  obtain ⟨derivation, scans, areLexical, rfl⟩ := exists_derivation_of_ofSource reads
  obtain ⟨arranged, bounded⟩ := arranged_of_scan scans
  refine ⟨rfl, derivation.tokens, scans, fun node occurs => ?_⟩
  have arePlaced : Node.ArePlaced derivation.tokens (derivation.statements.phrases.map .phrase) :=
    derivation.statements.forms.arePlaced arranged
      (derivation.statements.areStatements areLexical)
  have mirrors : (Node.phrase (derivation.phrase source.utf8ByteSize)).Mirrors derivation.tokens := by
    refine ⟨fun child member => ?_, List.pairwise_map.1 arePlaced.layOut.order, trivial⟩
    have markOut := (arePlaced.placed child member).markOut
    obtain ⟨last, isLast, stops⟩ := markOut.stops
    refine ⟨markOut, Nat.zero_le _, ?_⟩
    rw [← stops]
    exact bounded last isLast
  exact Node.mirrors_of_occursIn mirrors arePlaced.placed occurs

/-- A call with a group among its arguments: the call reaches over the group, the name in it does
not reach over the parentheses, and both mirror the tokens. -/
theorem call_of_group_mirrors :
    ∃ program, Phrase.ofSource "f((a), 2)" = .ok program ∧ program.span = ⟨0, 9⟩ ∧
      ∃ tokens, scan "f((a), 2)" = .ok (tokens ++ [endOfInput 9]) ∧
        (Node.phrase program).Mirrors tokens ∧
        ∀ call ∈ (Node.phrase program).children, call.Mirrors tokens := by
  have isOk : (Phrase.ofSource "f((a), 2)").isOk = true := by decide +kernel
  cases reads : Phrase.ofSource "f((a), 2)" with
  | error error =>
      rw [reads] at isOk
      cases isOk
  | ok program =>
      obtain ⟨span, tokens, scans, mirrors⟩ := Phrase.mirrors_of_ofSource reads
      refine ⟨program, rfl, span, tokens, scans, mirrors _ .here, fun call member => ?_⟩
      exact mirrors call (.inChild member .here)

end NanoScript
