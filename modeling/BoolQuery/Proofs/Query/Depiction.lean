import BoolQuery.Proofs.Query.Placement

/-! Depicting a text is spelling it.

Both notions are compared from the inside of a phrase outwards, over bodies and nodes to trees.
The tree that is read from a query is therefore the only one that depicts it:
`read_depicts_unique`.
-/

set_option autoImplicit false

namespace BoolQuery.Query

open Text (isBlank)

/-! ## The inside of a phrase -/

/-- Terms that fill a text up to a closing quote, except for blanks after each of them. -/
structure Inside (text : List Char) (start : Nat) (terms : List Term) (closing : Nat) : Prop where
  words : ∀ word ∈ terms, word.Placed text
  first : ∀ word ∈ terms.head?, word.offset = start
  apart : terms.IsChain fun word next =>
    ∃ index, word.stop ≤ index ∧ index < next.offset ∧ BlankAt text index
  ends : lastStop start terms ≤ closing
  trailing : BlankBetween text (lastStop start terms) closing
  empty : terms = [] → closing = start
  covered : ∀ index, start ≤ index → index < closing →
    (∃ word ∈ terms, word.Covers index) ∨ BlankAt text index

theorem stop_le_lastStop {word : Term} {others : List Term}
    (ordered : (word :: others).IsChain fun one next => one.stop ≤ next.offset) :
    ∀ other ∈ word :: others, other.stop ≤ lastStop word.stop others := by
  induction others generalizing word with
  | nil => simp [lastStop]
  | cons next others ih =>
    obtain ⟨here, ordered⟩ := List.isChain_cons_cons.mp ordered
    have later := ih ordered
    intro other inside
    rcases List.mem_cons.mp inside with rfl | inside
    · have := later next (by simp)
      simp only [lastStop]
      unfold Term.stop at *
      omega
    · exact later other inside

theorem within_of_chain {start closing : Nat} {terms : List Term}
    (ordered : terms.IsChain fun one next => one.stop ≤ next.offset)
    (first : ∀ word ∈ terms.head?, word.offset = start) (ends : lastStop start terms ≤ closing) :
    ∀ word ∈ terms, start ≤ word.offset ∧ word.stop ≤ closing := by
  intro word member
  cases terms with
  | nil => cases member
  | cons front others =>
    have starts := first front rfl
    have upper := stop_le_lastStop ordered word member
    simp only [lastStop] at ends
    rcases List.mem_cons.mp member with rfl | member
    · omega
    · have lower := stop_le_of_chain ordered (by simp [Term.stop]) word member
      unfold Term.stop at *
      omega

namespace Inside

variable {text : List Char} {start closing : Nat} {word : Term} {terms others : List Term}

theorem within (inside : Inside text start terms closing) {word : Term} (member : word ∈ terms) :
    start ≤ word.offset ∧ word.stop ≤ closing :=
  within_of_chain (ordered_of_apart inside.apart) inside.first inside.ends word member

/-- Where the first term ends, blanks go on to the next one or to the closing quote. -/
theorem uncons (inside : Inside text start (word :: others) closing) :
    ∃ next, word.stop ≤ next ∧ (others ≠ [] → word.stop < next) ∧
      BlankBetween text word.stop next ∧ Inside text next others closing := by
  have starts := inside.first word rfl
  cases others with
  | nil =>
    refine ⟨closing, inside.ends, by simp, inside.trailing, ?_⟩
    exact ⟨by simp, by simp, .nil, Nat.le_refl _, fun index lower upper => by
      simp only [lastStop] at lower; omega, fun _ => rfl, fun index lower upper => by omega⟩
  | cons second others =>
    obtain ⟨⟨index, lower, upper, blank⟩, apart⟩ := List.isChain_cons_cons.mp inside.apart
    obtain ⟨-, ordered⟩ := List.isChain_cons_cons.mp (ordered_of_apart inside.apart)
    have bound := (inside.within (show second ∈ word :: second :: others by simp)).2
    have later := stop_le_of_chain ordered (by simp [Term.stop])
    refine ⟨second.offset, by omega, fun _ => by omega, ?_, ?_⟩
    · intro place after before
      have reach : start ≤ place ∧ place < closing := by
        unfold Term.stop at *
        omega
      refine (inside.covered place reach.1 reach.2).resolve_left ?_
      -- The first term ends before this place, and all others start after it.
      rintro ⟨other, member, covers⟩
      unfold Term.Covers at covers
      rcases List.mem_cons.mp member with rfl | member
      · omega
      · rcases List.mem_cons.mp member with rfl | member
        · omega
        · have := later other member
          unfold Term.stop at *
          omega
    · refine ⟨fun other member => inside.words other (by simp [member]), by simp, apart,
        inside.ends, inside.trailing, by simp, ?_⟩
      intro place lower upper
      have reach : start ≤ place := by
        unfold Term.stop at *
        omega
      rcases inside.covered place reach upper with ⟨other, member, covers⟩ | blank
      · rcases List.mem_cons.mp member with rfl | member
        · unfold Term.Covers at covers
          omega
        · exact Or.inl ⟨other, member, covers⟩
      · exact Or.inr blank

theorem cons {next : Nat} (placed : word.Placed text) (le : word.stop ≤ next)
    (apart : others ≠ [] → word.stop < next) (between : BlankBetween text word.stop next)
    (inside : Inside text next others closing) :
    Inside text word.offset (word :: others) closing where
  words := by
    intro other member
    rcases List.mem_cons.mp member with rfl | member
    · exact placed
    · exact inside.words other member
  first := by simp
  apart := by
    cases others with
    | nil => exact .singleton word
    | cons second others =>
      have starts := inside.first second rfl
      have gap := apart (by simp)
      exact List.isChain_cons_cons.mpr
        ⟨⟨word.stop, Nat.le_refl _, by omega, between _ (Nat.le_refl _) gap⟩, inside.apart⟩
  ends := by
    cases others with
    | nil => exact inside.empty rfl ▸ le
    | cons second others => exact inside.ends
  trailing := by
    cases others with
    | nil => exact inside.empty rfl ▸ between
    | cons second others => exact inside.trailing
  empty := by simp
  covered := by
    intro index lower upper
    by_cases first : index < word.stop
    · exact Or.inl ⟨word, by simp, lower, first⟩
    by_cases gap : index < next
    · exact Or.inr (between index (by omega) gap)
    · rcases inside.covered index (by omega) upper with ⟨other, member, covers⟩ | blank
      · exact Or.inl ⟨other, by simp [member], covers⟩
      · exact Or.inr blank

-- The offsets say where each term and the blanks after it are cut off.
theorem spells (inside : Inside text start terms closing) :
    ∃ inner, text.drop start = inner ++ text.drop closing ∧ closing = start + inner.length ∧
      PhraseSpells start inner terms := by
  induction terms generalizing start with
  | nil =>
    cases inside.empty rfl
    exact ⟨[], rfl, rfl, .empty⟩
  | cons word others ih =>
    cases inside.first word rfl
    obtain ⟨plain, cut⟩ := Term.placed_iff.mp (inside.words word (by simp))
    obtain ⟨next, le, apart, between, inside⟩ := inside.uncons
    obtain ⟨blanks, all, gap, place⟩ := exists_blanks between le
    obtain ⟨inner, rest, length, spelled⟩ := ih inside
    have spelled : PhraseSpells (word.offset + word.text.toList.length + blanks.length) inner
        others := by
      rwa [String.length_toList, ← Term.stop, ← place]
    have whole := PhraseSpells.word plain all (fun more => by
      rintro rfl
      have := apart more
      simp at place
      omega) spelled
    rw [String.ofList_toList] at whole
    refine ⟨_, ?_, ?_, whole⟩
    · rw [cut, gap, rest, List.append_assoc, List.append_assoc]
    · rw [length, place, Term.stop]
      simp only [List.length_append, String.length_toList]
      omega

end Inside

theorem PhraseSpells.inside {text inner rest : List Char} {start : Nat} {terms : List Term}
    (spelled : PhraseSpells start inner terms) (cut : text.drop start = inner ++ rest) :
    Inside text start terms (start + inner.length) := by
  induction spelled with
  | @empty start =>
    exact ⟨by simp, by simp, .nil, by simp [lastStop], fun index lower upper => by
      simp [lastStop] at lower upper; omega, fun _ => rfl, fun index lower upper => by
      simp at upper; omega⟩
  | @word start chars blanks inner others word all apart spelled ih =>
    rw [List.append_assoc, List.append_assoc] at cut
    have gap := drop_add_length cut
    have next := drop_add_length gap
    have stop : (Term.mk (String.ofList chars) start).stop = start + chars.length := by
      simp [Term.stop]
    have placed : (Term.mk (String.ofList chars) start).Placed text := by
      rw [Term.placed_iff, stop, String.toList_ofList]
      exact ⟨word, cut.trans (by rw [gap])⟩
    have length : start + (chars ++ (blanks ++ inner)).length =
        start + chars.length + blanks.length + inner.length := by
      simp only [List.length_append]
      omega
    rw [length]
    refine Inside.cons placed ?_ ?_ ?_ (ih next)
    · rw [stop]
      omega
    · intro more
      have := List.length_pos_iff.mpr (apart more)
      rw [stop]
      omega
    · rw [stop]
      exact blankBetween_of_drop all gap

/-! ## Bodies -/

/-- What a body does not cover of its own stretch is blank. -/
def Body.Filled (text : List Char) (body : Body) : Prop :=
  ∀ index, body.offset ≤ index → index < body.stop text →
    body.Covers text index ∨ BlankAt text index

theorem closingQuote_eq {text : List Char} {terms : List Term} {offset closing : Nat}
    (ends : lastStop (offset + 1) terms ≤ closing)
    (trailing : BlankBetween text (lastStop (offset + 1) terms) closing)
    (closes : QuoteAt text closing) : closingQuote text terms offset = closing := by
  obtain ⟨blanks, all, cut, length⟩ := exists_blanks trailing ends
  -- The first quote after the terms cannot come earlier, as only blanks stand before this one.
  have unquoted : ∀ c ∈ blanks, (c != '"') = true := by
    intro c inside
    exact bne_iff_ne.mpr (ne_quote_of_isBlank (all c inside))
  have run : (text.drop (lastStop (offset + 1) terms)).takeWhile (· != '"') = blanks := by
    rw [cut, drop_of_getElem? closes]
    exact takeWhile_append_of_break unquoted (by simp)
  rw [closingQuote, run, length]

theorem lastStop_le_closingQuote (text : List Char) (terms : List Term) (offset : Nat) :
    lastStop (offset + 1) terms ≤ closingQuote text terms offset := Nat.le_add_right _ _

theorem PhrasePlaced.inside {text : List Char} {terms : List Term} {offset : Nat}
    (placed : PhrasePlaced text terms offset) (filled : (Body.phrase terms offset).Filled text) :
    Inside text (offset + 1) terms (closingQuote text terms offset) where
  words := placed.words
  first := placed.first
  apart := placed.apart
  ends := lastStop_le_closingQuote text terms offset
  trailing := placed.trailing
  empty := placed.empty
  covered := by
    intro index lower upper
    rcases filled index (Nat.le_of_lt lower) (Nat.lt_succ_of_lt upper) with covers | blank
    · rcases covers with rfl | rfl | covers
      · omega
      · omega
      · exact Or.inl covers
    · exact Or.inr blank

theorem Inside.phrase {text : List Char} {terms : List Term} {offset closing : Nat}
    (inside : Inside text (offset + 1) terms closing) (opens : QuoteAt text offset)
    (closes : QuoteAt text closing) :
    PhrasePlaced text terms offset ∧ (Body.phrase terms offset).Filled text ∧
      closingQuote text terms offset = closing := by
  have same := closingQuote_eq inside.ends inside.trailing closes
  refine ⟨⟨opens, inside.words, inside.first, inside.apart, ?_, ?_, ?_⟩, ?_, same⟩
  · rwa [same]
  · rw [same]
    exact inside.trailing
  · rw [same]
    exact inside.empty
  · intro index lower upper
    simp only [Body.offset, Body.stop, Body.Covers, same] at *
    by_cases first : index = offset
    · exact Or.inl (Or.inl first)
    by_cases last : index = closing
    · exact Or.inl (Or.inr (Or.inl last))
    rcases inside.covered index (by omega) (by omega) with covers | blank
    · exact Or.inl (Or.inr (Or.inr covers))
    · exact Or.inr blank

theorem PhrasePlaced.within {text : List Char} {terms : List Term} {offset : Nat}
    (placed : PhrasePlaced text terms offset) :
    ∀ word ∈ terms, offset + 1 ≤ word.offset ∧ word.stop ≤ closingQuote text terms offset :=
  within_of_chain (ordered_of_apart placed.apart) placed.first
    (lastStop_le_closingQuote text terms offset)

theorem start_le_lastStop {start : Nat} {terms : List Term}
    (ordered : terms.IsChain fun word next => word.stop ≤ next.offset)
    (first : ∀ word ∈ terms.head?, word.offset = start) : start ≤ lastStop start terms := by
  cases terms with
  | nil => exact Nat.le_refl _
  | cons word others =>
    have := stop_le_lastStop ordered word (by simp)
    have := first word rfl
    simp only [lastStop]
    unfold Term.stop at *
    omega

theorem breaks_drop_iff {text : List Char} {index : Nat} :
    Breaks (text.drop index) ↔
      text.length ≤ index ∨ BlankAt text index ∨ QuoteAt text index := by
  rw [Breaks, List.head?_drop, BlankAt, QuoteAt]
  cases here : text[index]? with
  | none => simpa using here
  | some c =>
    have inside := (List.getElem?_eq_some_iff.mp here).1
    simp only [Option.mem_def, Option.some.injEq, forall_eq', exists_eq_left', not_isTermChar_iff]
    simp [Nat.not_le.mpr inside]

theorem Term.Placed.stop_le_length {text : List Char} {word : Term} (placed : word.Placed text) :
    word.stop ≤ text.length := by
  obtain ⟨plain, cut⟩ := Term.placed_iff.mp placed
  have length := congrArg List.length cut
  have := List.length_pos_iff.mpr plain.nonempty
  simp only [List.length_drop, List.length_append, String.length_toList] at length this
  unfold Term.stop at *
  omega

theorem Body.Placed.within {text : List Char} {body : Body} (placed : body.Placed text)
    {index : Nat} (covers : body.Covers text index) :
    body.offset ≤ index ∧ index < body.stop text := by
  cases body with
  | term word => exact covers
  | phrase terms offset =>
    have ends := lastStop_le_closingQuote text terms offset
    have starts := start_le_lastStop (ordered_of_apart placed.apart) placed.first
    simp only [Body.offset, Body.stop]
    rcases covers with rfl | rfl | ⟨word, member, lower, upper⟩
    · omega
    · omega
    · have := PhrasePlaced.within placed word member
      omega

theorem Body.Placed.offset_lt_stop {text : List Char} {body : Body} (placed : body.Placed text) :
    body.offset < body.stop text := by
  cases body with
  | term word =>
    have := List.length_pos_iff.mpr (Term.placed_iff.mp placed.1).1.nonempty
    simp only [String.length_toList] at this
    simp only [Body.offset, Body.stop, Term.stop]
    omega
  | phrase terms offset => exact (placed.within (Or.inl rfl)).2

theorem Body.Placed.spells {text : List Char} {body : Body} (placed : body.Placed text)
    (filled : body.Filled text) :
    ∃ chars, text.drop body.offset = chars ++ text.drop (body.stop text) ∧
      body.stop text = body.offset + chars.length ∧ BodySpells body.offset chars body ∧
      body.EndsBefore (text.drop (body.stop text)) := by
  cases body with
  | term word =>
    obtain ⟨plain, cut⟩ := Term.placed_iff.mp placed.1
    have whole : BodySpells word.offset word.text.toList (.term ⟨_, word.offset⟩) := .term plain
    rw [String.ofList_toList] at whole
    refine ⟨word.text.toList, cut, ?_, whole, ?_⟩
    · rw [String.length_toList]
      rfl
    · exact breaks_drop_iff.mpr (placed.2.imp_left fun same => Nat.le_of_eq same.symm)
  | phrase terms offset =>
    obtain ⟨inner, cut, length, spelled⟩ := (placed.inside filled).spells
    refine ⟨'"' :: (inner ++ ['"']), ?_, ?_, .phrase spelled, trivial⟩
    · simp only [Body.offset, Body.stop]
      rw [drop_of_getElem? placed.opens, cut, drop_of_getElem? placed.closes]
      simp
    · simp only [Body.offset, Body.stop, List.length_cons, List.length_append, List.length_nil]
      omega

theorem BodySpells.placed {text chars rest : List Char} {offset : Nat} {body : Body}
    (spelled : BodySpells offset chars body) (cut : text.drop offset = chars ++ rest)
    (ends : body.EndsBefore rest) :
    body.Placed text ∧ body.Filled text ∧ body.offset = offset ∧
      body.stop text = offset + chars.length := by
  cases spelled with
  | term word =>
    have stop : (Term.mk (String.ofList chars) offset).stop = offset + chars.length := by
      simp [Term.stop]
    have after := drop_add_length cut
    have placed : (Term.mk (String.ofList chars) offset).Placed text := by
      rw [Term.placed_iff, stop, String.toList_ofList, after]
      exact ⟨word, cut⟩
    refine ⟨⟨placed, ?_⟩, fun index lower upper => Or.inl ⟨lower, upper⟩, rfl, stop⟩
    have breaks : Breaks (text.drop (offset + chars.length)) := after ▸ ends
    have bound := placed.stop_le_length
    rw [stop] at bound ⊢
    exact (breaks_drop_iff.mp breaks).imp_left (Nat.le_antisymm bound)
  | @phrase inner terms spelled =>
    rw [List.cons_append, List.append_assoc, List.singleton_append] at cut
    have opens := getElem?_of_drop cut
    have next := drop_succ_of_drop cut
    have closes := getElem?_of_drop (drop_add_length next)
    obtain ⟨placed, filled, closing⟩ := (spelled.inside next).phrase opens closes
    refine ⟨placed, filled, rfl, ?_⟩
    simp only [Body.stop, closing, List.length_cons, List.length_append, List.length_nil]
    omega

/-! ## Nodes -/

def Node.Filled (text : List Char) (node : Node) : Prop :=
  ∀ index, node.offset ≤ index → index < node.body.stop text →
    node.Covers text index ∨ BlankAt text index

theorem Node.Placed.body_offset {text : List Char} {node : Node} (placed : node.Placed text) :
    node.body.offset = node.offset + (if node.sign.isSome then 1 else 0) := by
  cases known : node.sign with
  | some sign => exact (placed.signed sign known).2
  | none => exact (placed.unsigned known).1

theorem Node.Placed.offset_lt_stop {text : List Char} {node : Node} (placed : node.Placed text) :
    node.offset < node.body.stop text := by
  have := placed.body_offset
  have := placed.body.offset_lt_stop
  omega

theorem Node.Placed.within {text : List Char} {node : Node} (placed : node.Placed text)
    {index : Nat} (covers : node.Covers text index) :
    node.offset ≤ index ∧ index < node.body.stop text := by
  have starts := placed.body_offset
  rcases covers with ⟨-, rfl⟩ | covers
  · exact ⟨Nat.le_refl _, placed.offset_lt_stop⟩
  · have := placed.body.within covers
    omega

theorem Node.Filled.body {text : List Char} {node : Node} (placed : node.Placed text)
    (filled : node.Filled text) : node.body.Filled text := by
  intro index lower upper
  have starts := placed.body_offset
  rcases filled index (by omega) upper with (⟨signed, rfl⟩ | covers) | blank
  · -- The place of a sign lies before the body.
    rw [if_pos signed] at starts
    omega
  · exact Or.inl covers
  · exact Or.inr blank

theorem Node.Placed.spells {text : List Char} {node : Node} (placed : node.Placed text)
    (filled : node.Filled text) :
    ∃ chars, text.drop node.offset = chars ++ text.drop (node.body.stop text) ∧
      node.body.stop text = node.offset + chars.length ∧ NodeSpells node.offset chars node ∧
      node.body.EndsBefore (text.drop (node.body.stop text)) := by
  obtain ⟨chars, cut, length, spelled, ends⟩ := placed.body.spells (filled.body placed)
  obtain ⟨sign, body, offset⟩ := node
  cases sign with
  | some sign =>
    obtain ⟨here, starts⟩ := placed.signed sign rfl
    dsimp only at *
    rw [starts] at cut length spelled
    refine ⟨sign.toChar :: chars, ?_, ?_, .signed sign spelled, ends⟩
    · rw [drop_of_getElem? here, cut, List.cons_append]
    · rw [length, List.length_cons]
      omega
  | none =>
    obtain ⟨starts, unsigned⟩ := placed.unsigned rfl
    dsimp only at *
    rw [starts] at cut length spelled
    refine ⟨chars, cut, length, .unsigned spelled ?_, ends⟩
    intro c head
    rw [Sign.ofChar?_eq_none]
    -- A phrase begins with its quote, so only terms need the condition.
    cases spelled with
    | term word =>
      apply unsigned _ rfl
      rwa [String.toList_ofList]
    | phrase =>
      cases head
      decide

theorem NodeSpells.placed {text chars rest : List Char} {offset : Nat} {node : Node}
    (spelled : NodeSpells offset chars node) (cut : text.drop offset = chars ++ rest)
    (ends : node.body.EndsBefore rest) :
    node.Placed text ∧ node.Filled text ∧ node.offset = offset ∧
      node.body.stop text = offset + chars.length := by
  cases spelled with
  | @signed chars body sign spelled =>
    obtain ⟨placed, filled, starts, stop⟩ := spelled.placed (drop_succ_of_drop cut) ends
    refine ⟨⟨placed, ?_, by simp⟩, ?_, rfl, ?_⟩
    · intro other same
      cases same
      exact ⟨getElem?_of_drop cut, starts⟩
    · intro index lower upper
      by_cases first : index = offset
      · exact Or.inl (Or.inl ⟨rfl, first⟩)
      · exact (filled index (by dsimp only at *; omega) upper).imp_left Or.inr
    · rw [stop, List.length_cons]
      omega
  | @unsigned _ body spelled unsigned =>
    obtain ⟨placed, filled, starts, stop⟩ := spelled.placed cut ends
    refine ⟨⟨placed, by simp, ?_⟩, ?_, rfl, stop⟩
    · intro _
      refine ⟨starts, ?_⟩
      rintro word rfl c head
      cases spelled with
      | term word =>
        rw [String.toList_ofList] at head
        exact Sign.ofChar?_eq_none.mp (unsigned c head)
    · intro index lower upper
      exact (filled index (by dsimp only at *; omega) upper).imp_left Or.inr

/-! ## Trees -/

/-- The nodes of a tree account for a text from a place on. -/
structure DepictsFrom (text : List Char) (start : Nat) (tree : Tree) : Prop where
  starts : ∀ node ∈ tree.head?, start ≤ node.offset
  ordered : tree.IsChain fun node next =>
    node.offset < next.offset ∧ node.body.stop text ≤ next.offset
  placed : ∀ node ∈ tree, node.Placed text
  covered : ∀ index, start ≤ index → index < text.length →
    (∃ node ∈ tree, node.Covers text index) ∨ BlankAt text index

theorem Tree.depicts_iff {text : List Char} {tree : Tree} :
    tree.Depicts text ↔ DepictsFrom text 0 tree := by
  constructor
  · intro depicts
    exact ⟨fun _ _ => Nat.zero_le _, depicts.ordered, depicts.placed,
      fun index _ => depicts.covered index⟩
  · intro depicts
    exact ⟨depicts.ordered, depicts.placed, fun index => depicts.covered index (Nat.zero_le _)⟩

theorem Node.Placed.stop_le_length {text : List Char} {node : Node} (placed : node.Placed text) :
    node.body.stop text ≤ text.length := by
  have body := placed.body
  cases known : node.body with
  | term word =>
    rw [known] at body
    exact body.1.stop_le_length
  | phrase terms offset =>
    rw [known] at body
    exact (List.getElem?_eq_some_iff.mp body.closes).1

namespace DepictsFrom

variable {text : List Char} {start : Nat} {node : Node} {others tree : Tree}

/-- Blanks go on to the first node, which fills its stretch, and the others go on from there. -/
theorem uncons (depicts : DepictsFrom text start (node :: others)) :
    start ≤ node.offset ∧ BlankBetween text start node.offset ∧ node.Placed text ∧
      node.Filled text ∧ DepictsFrom text (node.body.stop text) others := by
  have starts := depicts.starts node rfl
  have here := depicts.placed node (by simp)
  have placed : ∀ other ∈ others, other.Placed text :=
    fun other member => depicts.placed other (by simp [member])
  have later : ∀ other ∈ others, node.body.stop text ≤ other.offset :=
    stop_le_of_chain (depicts.ordered.imp fun one next both => both.2)
      fun other member => Nat.le_of_lt (placed other member).offset_lt_stop
  have bound := here.stop_le_length
  have size := here.offset_lt_stop
  refine ⟨starts, ?_, here, ?_, ?_, ?_, placed, ?_⟩
  · intro index lower upper
    refine (depicts.covered index lower (by omega)).resolve_left ?_
    rintro ⟨other, member, covers⟩
    rcases List.mem_cons.mp member with rfl | member
    · have := here.within covers
      omega
    · have := (placed other member).within covers
      have := later other member
      omega
  · intro index lower upper
    refine (depicts.covered index (by omega) (by omega)).imp_left ?_
    rintro ⟨other, member, covers⟩
    rcases List.mem_cons.mp member with rfl | member
    · exact covers
    · have := (placed other member).within covers
      have := later other member
      omega
  · intro other head
    exact later other (List.mem_of_mem_head? head)
  · cases others with
    | nil => exact .nil
    | cons next others => exact (List.isChain_cons_cons.mp depicts.ordered).2
  · intro index lower upper
    refine (depicts.covered index (by omega) upper).imp_left ?_
    rintro ⟨other, member, covers⟩
    rcases List.mem_cons.mp member with rfl | member
    · have := here.within covers
      omega
    · exact ⟨other, member, covers⟩

theorem cons (placed : node.Placed text) (filled : node.Filled text)
    (depicts : DepictsFrom text (node.body.stop text) others) :
    DepictsFrom text node.offset (node :: others) where
  starts := by simp
  ordered := by
    cases others with
    | nil => exact .singleton node
    | cons next others =>
      have le := depicts.starts next rfl
      exact List.isChain_cons_cons.mpr
        ⟨⟨Nat.lt_of_lt_of_le placed.offset_lt_stop le, le⟩, depicts.ordered⟩
  placed := by
    intro other member
    rcases List.mem_cons.mp member with rfl | member
    · exact placed
    · exact depicts.placed other member
  covered := by
    intro index lower upper
    by_cases first : index < node.body.stop text
    · exact (filled index lower first).imp_left fun covers => ⟨node, by simp, covers⟩
    · refine (depicts.covered index (by omega) upper).imp_left ?_
      rintro ⟨other, member, covers⟩
      exact ⟨other, by simp [member], covers⟩

theorem skip (blank : BlankAt text start) (depicts : DepictsFrom text (start + 1) tree) :
    DepictsFrom text start tree where
  starts := fun node head => Nat.le_of_succ_le (depicts.starts node head)
  ordered := depicts.ordered
  placed := depicts.placed
  covered := by
    intro index lower upper
    by_cases first : index = start
    · exact Or.inr (first ▸ blank)
    · exact depicts.covered index (by omega) upper

end DepictsFrom

theorem DepictsFrom.spells {text : List Char} {start : Nat} {tree : Tree}
    (depicts : DepictsFrom text start tree) : TreeSpells start (text.drop start) tree := by
  induction tree generalizing start with
  | nil =>
    -- Without a node all that is left of the text is blank.
    by_cases le : start ≤ text.length
    · have between : BlankBetween text start text.length := fun index lower upper =>
        (depicts.covered index lower upper).resolve_left (by simp)
      obtain ⟨blanks, all, cut, -⟩ := exists_blanks between le
      rw [cut, List.drop_length]
      exact TreeSpells.blanks all .empty
    · rw [List.drop_eq_nil_of_le (by omega)]
      exact .empty
  | cons node others ih =>
    obtain ⟨le, between, placed, filled, depicts⟩ := depicts.uncons
    obtain ⟨blanks, all, gap, place⟩ := exists_blanks between le
    obtain ⟨chars, cut, length, spelled, ends⟩ := placed.spells filled
    have rest := ih depicts
    rw [length] at rest
    rw [gap, cut]
    apply TreeSpells.blanks all
    rw [← place]
    exact .node spelled ends (length ▸ rest)

theorem TreeSpells.depicts {text input : List Char} {start : Nat} {tree : Tree}
    (spelled : TreeSpells start input tree) (cut : text.drop start = input) :
    DepictsFrom text start tree := by
  induction spelled with
  | empty =>
    have past := List.drop_eq_nil_iff.mp cut
    exact ⟨by simp, .nil, by simp, fun index lower upper => by omega⟩
  | @blank start c rest tree blank spelled ih =>
    have here := getElem?_of_drop cut
    exact .skip ⟨c, here, blank⟩ (ih (drop_succ_of_drop cut))
  | node node ends others ih =>
    obtain ⟨placed, filled, starts, stop⟩ := node.placed cut ends
    have depicts := ih (drop_add_length cut)
    rw [← stop] at depicts
    rw [← starts]
    exact .cons placed filled depicts

/-- The tree that is read from a query depicts it, and no other tree does. -/
theorem read_depicts_unique (query : String) (tree : Tree) (read : Tree.read query = .ok tree) :
    tree.Depicts query.toList ∧ ∀ other : Tree, other.Depicts query.toList → other = tree := by
  constructor
  · rw [Tree.depicts_iff]
    exact (spells_of_readNodes read).depicts rfl
  · intro other depicts
    have spelled := (Tree.depicts_iff.mp depicts).spells
    have found : Tree.read query = .ok other := readNodes_of_spells spelled
    rw [read] at found
    exact (Except.ok.inj found).symm

theorem glued_nodes_depict_unique :
    ∃ tree : Tree, Tree.read "a+\"\" -\"b  c \"+d" = .ok tree ∧
      tree.map Node.offset = [0, 2, 5, 13] ∧ tree.Depicts "a+\"\" -\"b  c \"+d".toList ∧
      ∀ other : Tree, other.Depicts "a+\"\" -\"b  c \"+d".toList → other = tree := by
  have read : Tree.read "a+\"\" -\"b  c \"+d" = .ok
      [⟨none, .term ⟨"a+", 0⟩, 0⟩, ⟨none, .phrase [] 2, 2⟩,
        ⟨some .minus, .phrase [⟨"b", 7⟩, ⟨"c", 10⟩] 6, 5⟩, ⟨some .plus, .term ⟨"d", 14⟩, 13⟩] := by
    decide +kernel
  exact ⟨_, read, rfl, read_depicts_unique _ _ read⟩

end BoolQuery.Query
