import NanoScript.Proofs.Token.Exactness

/-!
Contract: ranges that tokens mark out.

Owns:
- ranges that enclose others;
- tokens arranged one behind the other, as those of a source text are;
- ranges from the start of one token to the end of another, and lists of such ranges in order;
- the range from the first to the last of such a list, which encloses all of them.
-/

namespace NanoScript

/-- A range reaches at least as far as another one on both sides. -/
structure Span.Encloses (outer inner : Span) : Prop where
  start : outer.start ≤ inner.start
  stop : inner.stop ≤ outer.stop

namespace Token

/-! ## Arranged tokens -/

/-- No token is empty, and each starts where the one before it stops, or later. -/
structure Arranged (tokens : List Token) : Prop where
  nonempty : ∀ token ∈ tokens, token.span.start < token.span.stop
  behind : tokens.Pairwise fun left right => left.span.stop ≤ right.span.start

theorem Arranged.of_sublist {inner tokens : List Token} (arranged : Arranged tokens)
    (inside : inner.Sublist tokens) : Arranged inner :=
  ⟨fun token member => arranged.nonempty token (inside.subset member),
    arranged.behind.sublist inside⟩

theorem Arranged.left {left right : List Token} (arranged : Arranged (left ++ right)) :
    Arranged left :=
  arranged.of_sublist (List.sublist_append_left left right)

theorem Arranged.right {left right : List Token} (arranged : Arranged (left ++ right)) :
    Arranged right :=
  arranged.of_sublist (List.sublist_append_right left right)

theorem Arranged.tail {token : Token} {rest : List Token} (arranged : Arranged (token :: rest)) :
    Arranged rest :=
  arranged.of_sublist (List.sublist_cons_self token rest)

/-- The tokens of a source text before the end-of-input mark are arranged, and none reaches behind
the text. -/
theorem arranged_of_scan {source : String} {tokens : List Token} {mark : Token}
    (scans : scan source = .ok (tokens ++ [mark])) :
    Arranged tokens ∧ ∀ token ∈ tokens, token.span.stop ≤ source.utf8ByteSize := by
  have derivation := scans_of_scan scans
  obtain ⟨_, before, split, stand, _⟩ := derivation.exact [] rfl
  obtain ⟨rfl, _⟩ := List.append_inj' split rfl
  have inOrder := derivation.inOrder.2
  rw [Nat.zero_add, Text.byteLength_toList] at inOrder
  refine ⟨⟨fun token member => ?_, (List.pairwise_append.1 inOrder.behind).1⟩, fun token member => ?_⟩
  · obtain ⟨_, _, _, between⟩ := stand token member
    exact between.nonempty
  · exact (inOrder.inside token (List.mem_append_left _ member)).bounded

/-! ## Ranges among tokens -/

/-- A range that is not empty, from the start of one token to the end of another. -/
structure MarkOut (tokens : List Token) (span : Span) : Prop where
  starts : ∃ token ∈ tokens, token.span.start = span.start
  stops : ∃ token ∈ tokens, token.span.stop = span.stop
  nonempty : span.start < span.stop

theorem MarkOut.mono {tokens others : List Token} {span : Span} (markOut : MarkOut tokens span)
    (among : tokens ⊆ others) : MarkOut others span := by
  obtain ⟨first, isFirst, starts⟩ := markOut.starts
  obtain ⟨last, isLast, stops⟩ := markOut.stops
  exact ⟨⟨first, among isFirst, starts⟩, ⟨last, among isLast, stops⟩, markOut.nonempty⟩

theorem Arranged.markOut {tokens : List Token} (arranged : Arranged tokens) {token : Token}
    (member : token ∈ tokens) : MarkOut tokens token.span :=
  ⟨⟨token, member, rfl⟩, ⟨token, member, rfl⟩, arranged.nonempty token member⟩

/-- What earlier tokens mark out stops before what later ones mark out. -/
theorem Arranged.stop_le_start {left right : List Token} (arranged : Arranged (left ++ right))
    {first second : Span} (isFirst : MarkOut left first) (isSecond : MarkOut right second) :
    first.stop ≤ second.start := by
  obtain ⟨last, isLast, stops⟩ := isFirst.stops
  obtain ⟨next, isNext, starts⟩ := isSecond.starts
  rw [← stops, ← starts]
  exact (List.pairwise_append.1 arranged.behind).2.2 last isLast next isNext

/-! ## Ranges one behind the other -/

/-- Ranges that tokens mark out, each starting where the one before it stops, or later. -/
structure LayOut (tokens : List Token) (spans : List Span) : Prop where
  markOut : ∀ span ∈ spans, MarkOut tokens span
  order : spans.Pairwise fun left right => left.stop ≤ right.start

namespace LayOut

theorem nil (tokens : List Token) : LayOut tokens [] :=
  ⟨nofun, .nil⟩

theorem singleton {tokens : List Token} {span : Span} (markOut : MarkOut tokens span) :
    LayOut tokens [span] :=
  ⟨List.forall_mem_singleton.2 markOut, List.pairwise_singleton _ _⟩

theorem mono {tokens others : List Token} {spans : List Span} (layOut : LayOut tokens spans)
    (among : tokens ⊆ others) : LayOut others spans :=
  ⟨fun span member => (layOut.markOut span member).mono among, layOut.order⟩

theorem append {left right : List Token} {spans others : List Span}
    (arranged : Arranged (left ++ right)) (first : LayOut left spans)
    (second : LayOut right others) : LayOut (left ++ right) (spans ++ others) := by
  refine ⟨List.forall_mem_append.2 ⟨fun span member => ?_, fun span member => ?_⟩,
    List.pairwise_append.2 ⟨first.order, second.order, fun span member other isOther => ?_⟩⟩
  · exact (first.markOut span member).mono (List.subset_append_left left right)
  · exact (second.markOut span member).mono (List.subset_append_right left right)
  · exact arranged.stop_le_start (first.markOut span member) (second.markOut other isOther)

/-- A token before the others puts its own range in front. -/
theorem cons {token : Token} {rest : List Token} {spans : List Span}
    (arranged : Arranged (token :: rest)) (layOut : LayOut rest spans) :
    LayOut (token :: rest) (token.span :: spans) := by
  have apart : Arranged ([token] ++ rest) := arranged
  exact append apart (singleton (apart.left.markOut List.mem_cons_self)) layOut

/-- A token behind the others adds its own range at the end. -/
theorem concat {token : Token} {before : List Token} {spans : List Span}
    (arranged : Arranged (before ++ [token])) (layOut : LayOut before spans) :
    LayOut (before ++ [token]) (spans ++ [token.span]) :=
  append arranged layOut (singleton (arranged.right.markOut List.mem_cons_self))

/-- The smallest range around the first and the last of some ranges in order. -/
theorem merge_eq {tokens : List Token} {first last : Span} {middle : List Span}
    (layOut : LayOut tokens (first :: (middle ++ [last]))) :
    first.merge last = ⟨first.start, last.stop⟩ ∧ first.stop ≤ last.start := by
  have behind : first.stop ≤ last.start :=
    (List.pairwise_cons.1 layOut.order).1 last (by simp)
  have firstNonempty := (layOut.markOut first (by simp)).nonempty
  have lastNonempty := (layOut.markOut last (by simp)).nonempty
  unfold Span.merge
  rw [Nat.min_eq_left (by omega), Nat.max_eq_right (by omega)]
  exact ⟨rfl, behind⟩

theorem markOut_merge {tokens : List Token} {first last : Span} {middle : List Span}
    (layOut : LayOut tokens (first :: (middle ++ [last]))) :
    MarkOut tokens (first.merge last) := by
  obtain ⟨merged, behind⟩ := layOut.merge_eq
  have isFirst := layOut.markOut first (by simp)
  have isLast := layOut.markOut last (by simp)
  rw [merged]
  exact ⟨isFirst.starts, isLast.stops,
    Nat.lt_of_lt_of_le isFirst.nonempty (Nat.le_trans behind (Nat.le_of_lt isLast.nonempty))⟩

theorem merge_encloses {tokens : List Token} {first last : Span} {middle : List Span}
    (layOut : LayOut tokens (first :: (middle ++ [last]))) {span : Span}
    (member : span ∈ first :: (middle ++ [last])) : (first.merge last).Encloses span := by
  obtain ⟨merged, behind⟩ := layOut.merge_eq
  have firstNonempty := (layOut.markOut first (by simp)).nonempty
  have lastNonempty := (layOut.markOut last (by simp)).nonempty
  obtain ⟨behindFirst, others⟩ := List.pairwise_cons.1 layOut.order
  have beforeLast := (List.pairwise_append.1 others).2.2
  rw [merged]
  rcases List.mem_cons.1 member with isFirst | inRest
  · subst isFirst
    refine ⟨Nat.le_refl _, ?_⟩
    show _ ≤ last.stop
    omega
  · have afterFirst := behindFirst span inRest
    refine ⟨?_, ?_⟩
    · show first.start ≤ span.start
      omega
    · rcases List.mem_append.1 inRest with inMiddle | isLast
      · have upToLast := beforeLast span inMiddle last List.mem_cons_self
        show span.stop ≤ last.stop
        omega
      · rw [List.mem_singleton.1 isLast]

end LayOut

end Token

end NanoScript
