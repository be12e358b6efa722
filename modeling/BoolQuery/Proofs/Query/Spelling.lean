import BoolQuery.Proofs.Query.Reading

/-! The grammar of queries, as a relation between texts and trees.

A text may be spelled by one tree only, with the offsets of all its parts, and this tree is what
the reader finds: `readNodes_eq_ok_iff`.
-/

set_option autoImplicit false

namespace BoolQuery.Query

open Text (isBlank)

/-- The inside of a phrase, between its quotes. Blanks stand after terms only, and at least one
stands between two terms. -/
inductive PhraseSpells : Nat → List Char → List Term → Prop where
  | empty {offset : Nat} : PhraseSpells offset [] []
  | word {offset : Nat} {text blanks rest : List Char} {others : List Term} : Word text →
      Blanks blanks → (others ≠ [] → blanks ≠ []) →
      PhraseSpells (offset + text.length + blanks.length) rest others →
      PhraseSpells offset (text ++ (blanks ++ rest)) (⟨String.ofList text, offset⟩ :: others)

inductive BodySpells : Nat → List Char → Body → Prop where
  | term {offset : Nat} {text : List Char} : Word text →
      BodySpells offset text (.term ⟨String.ofList text, offset⟩)
  | phrase {offset : Nat} {inner : List Char} {terms : List Term} :
      PhraseSpells (offset + 1) inner terms →
      BodySpells offset ('"' :: (inner ++ ['"'])) (.phrase terms offset)

inductive NodeSpells : Nat → List Char → Node → Prop where
  | signed {offset : Nat} {text : List Char} {body : Body} (sign : Sign) :
      BodySpells (offset + 1) text body →
      NodeSpells offset (sign.toChar :: text) ⟨some sign, body, offset⟩
  | unsigned {offset : Nat} {text : List Char} {body : Body} : BodySpells offset text body →
      (∀ c ∈ text.head?, Sign.ofChar? c = none) → NodeSpells offset text ⟨none, body, offset⟩

/-- A bare term takes in all term characters that follow; a phrase ends with its quote. -/
def Body.EndsBefore (rest : List Char) : Body → Prop
  | .term _ => Breaks rest
  | .phrase .. => True

inductive TreeSpells : Nat → List Char → Tree → Prop where
  | empty {offset : Nat} : TreeSpells offset [] []
  | blank {offset : Nat} {c : Char} {rest : List Char} {tree : Tree} : isBlank c = true →
      TreeSpells (offset + 1) rest tree → TreeSpells offset (c :: rest) tree
  | node {offset : Nat} {text rest : List Char} {node : Node} {others : Tree} :
      NodeSpells offset text node → node.body.EndsBefore rest →
      TreeSpells (offset + text.length) rest others →
      TreeSpells offset (text ++ rest) (node :: others)

theorem TreeSpells.blanks {offset : Nat} {blanks rest : List Char} {tree : Tree}
    (all : Blanks blanks) (spelled : TreeSpells (offset + blanks.length) rest tree) :
    TreeSpells offset (blanks ++ rest) tree := by
  induction blanks generalizing offset with
  | nil => exact spelled
  | cons c blanks ih =>
    refine .blank (all c (by simp)) (ih (fun d inside => all d (by simp [inside])) ?_)
    rwa [List.length_cons, Nat.add_comm blanks.length, ← Nat.add_assoc] at spelled

/-! ## The reader finds what is spelled -/

theorem PhraseSpells.solid {offset : Nat} {inner : List Char} {terms : List Term}
    (spelled : PhraseSpells offset inner terms) (rest : List Char) :
    Solid (inner ++ '"' :: rest) := by
  cases spelled with
  | empty =>
    intro c head
    cases head
    exact isBlank_quote
  | word word all apart others =>
    rw [List.append_assoc]
    exact word.solid _

theorem readPhrase_of_spells {offset : Nat} {inner : List Char} {terms : List Term}
    (spelled : PhraseSpells offset inner terms) (rest : List Char) :
    readPhrase offset (inner ++ '"' :: rest) = .ok ⟨terms, offset + inner.length + 1, rest⟩ := by
  induction spelled with
  | empty => exact readPhrase_quote _ _
  | @word offset text blanks more others word all apart spelled ih =>
    -- The word ends at a blank, or at the quote if it is the last one.
    have breaks : Breaks (blanks ++ (more ++ '"' :: rest)) := by
      cases blanks with
      | nil =>
        cases spelled with
        | empty => exact breaks_cons.mpr (Or.inr rfl)
        | word => exact absurd rfl (apart (by simp))
      | cons c blanks => exact breaks_cons.mpr (Or.inl (all c (by simp)))
    rw [List.append_assoc, List.append_assoc,
      readPhrase_word offset word all breaks (spelled.solid rest), ih]
    simp [Except.map, Reading.map, Nat.add_assoc]

theorem readBody_of_spells {offset : Nat} {text : List Char} {body : Body}
    (spelled : BodySpells offset text body) {rest : List Char} (ends : body.EndsBefore rest) :
    readBody offset (text ++ rest) = .ok ⟨body, offset + text.length, rest⟩ := by
  cases spelled with
  | term word => exact readBody_word offset word ends
  | phrase inside =>
    rw [List.cons_append, List.append_assoc, readBody_quote]
    rw [List.singleton_append, readPhrase_of_spells inside rest]
    simp only [Except.map, Reading.map, List.length_cons, List.length_append, List.length_nil]
    congr 2
    omega

theorem BodySpells.exists_cons {offset : Nat} {text : List Char} {body : Body}
    (spelled : BodySpells offset text body) :
    ∃ c rest, text = c :: rest ∧ isBlank c = false := by
  cases spelled with
  | term word =>
    obtain ⟨c, rest, rfl, solid, -⟩ := word.exists_cons
    exact ⟨c, rest, rfl, solid⟩
  | phrase inside => exact ⟨_, _, rfl, isBlank_quote⟩

theorem readNode_of_spells {offset : Nat} {text : List Char} {node : Node}
    (spelled : NodeSpells offset text node) {rest : List Char}
    (ends : node.body.EndsBefore rest) :
    readNode offset (text ++ rest) = .ok ⟨node, offset + text.length, rest⟩ := by
  cases spelled with
  | signed sign body =>
    rw [List.cons_append, readNode_sign, readBody_of_spells body ends]
    simp only [Except.map, Reading.map, List.length_cons]
    congr 2
    omega
  | unsigned body unsigned =>
    have read := readBody_of_spells body ends
    obtain ⟨c, more, rfl, -⟩ := body.exists_cons
    rw [List.cons_append] at read ⊢
    rw [readNode_unsigned offset _ (unsigned c rfl), read]
    rfl

theorem Sign.isBlank_toChar (sign : Sign) : isBlank sign.toChar = false := by
  cases sign <;> rfl

theorem NodeSpells.exists_cons {offset : Nat} {text : List Char} {node : Node}
    (spelled : NodeSpells offset text node) :
    ∃ c rest, text = c :: rest ∧ isBlank c = false := by
  cases spelled with
  | signed sign body => exact ⟨_, _, rfl, sign.isBlank_toChar⟩
  | unsigned body => exact body.exists_cons

-- Each rule of the grammar is one step of the reader, since the conditions of the rules leave the
-- reader no other choice.
theorem readNodes_of_spells {offset : Nat} {input : List Char} {tree : Tree}
    (spelled : TreeSpells offset input tree) : readNodes offset input = .ok tree := by
  induction spelled with
  | empty => rw [readNodes]
  | blank blank spelled ih => rw [readNodes_blank _ _ blank, ih]
  | node node ends others ih =>
    have read := readNode_of_spells node ends
    obtain ⟨c, more, rfl, solid⟩ := node.exists_cons
    rw [List.cons_append] at read ⊢
    rw [readNodes_node _ _ solid, read]
    simp only [Except.bind, ih]
    rfl

/-! ## What the reader finds is spelled -/

theorem spells_of_readPhrase {offset : Nat} {input : List Char} {terms : Reading (List Term)}
    (read : readPhrase offset input = .ok terms) :
    ∃ inner, input = inner ++ '"' :: terms.rest ∧ PhraseSpells offset inner terms.value ∧
      terms.offset = offset + inner.length + 1 := by
  induction offset, input using phraseInduction generalizing terms with
  | nil offset => simp [readPhrase_nil] at read
  | quote offset rest =>
    rw [readPhrase_quote] at read
    cases read
    exact ⟨[], rfl, .empty, rfl⟩
  | blank offset c rest blank => simp [readPhrase_blank offset rest blank] at read
  | word offset text blanks rest word all breaks solid ih =>
    rw [readPhrase_word offset word all breaks solid] at read
    obtain ⟨⟨others, stop, after⟩, step, rfl⟩ := map_eq_ok read
    obtain ⟨inner, rfl, spelled, place⟩ := ih step
    dsimp only at spelled place
    refine ⟨text ++ (blanks ++ inner), by simp [Reading.map], ?_, ?_⟩
    · apply PhraseSpells.word word all _ spelled
      -- Without blanks the word would have taken in the next one.
      rintro more rfl
      cases spelled with
      | empty => exact more rfl
      | word next =>
        obtain ⟨c, rest, rfl, solid, unquoted, -⟩ := next.exists_cons
        rcases breaks_cons.mp breaks with blank | quoted
        · rw [solid] at blank
          cases blank
        · exact unquoted quoted
    · simp only [Reading.map, place, List.length_append]
      omega

theorem spells_of_readBody {offset : Nat} {input : List Char} {body : Reading Body}
    (read : readBody offset input = .ok body) :
    ∃ text, input = text ++ body.rest ∧ BodySpells offset text body.value ∧
      body.value.EndsBefore body.rest ∧ body.offset = offset + text.length := by
  cases input with
  | nil => simp [readBody] at read
  | cons c rest =>
    by_cases quoted : c = '"'
    · subst quoted
      rw [readBody_quote] at read
      obtain ⟨terms, step, rfl⟩ := map_eq_ok read
      obtain ⟨inner, rfl, spelled, place⟩ := spells_of_readPhrase step
      refine ⟨'"' :: (inner ++ ['"']), by simp [Reading.map], .phrase spelled, trivial, ?_⟩
      simp only [Reading.map, place, List.length_cons, List.length_append, List.length_nil]
      omega
    · cases blank : isBlank c with
      | true => simp [readBody, quoted, blank] at read
      | false =>
        obtain ⟨text, after, cut, word, breaks⟩ :=
          exists_word rest (isTermChar_iff.mpr ⟨blank, quoted⟩)
        rw [cut, readBody_word offset word breaks] at read
        cases read
        exact ⟨text, cut, .term word, breaks, rfl⟩

theorem spells_of_readNode {offset : Nat} {input : List Char} {node : Reading Node}
    (read : readNode offset input = .ok node) :
    ∃ text, input = text ++ node.rest ∧ NodeSpells offset text node.value ∧
      node.value.body.EndsBefore node.rest ∧ node.offset = offset + text.length := by
  cases input with
  | nil => simp [readNode] at read
  | cons c rest =>
    cases known : Sign.ofChar? c with
    | some sign =>
      cases Sign.ofChar?_eq_some.mp known
      rw [readNode_sign] at read
      obtain ⟨body, step, rfl⟩ := map_eq_ok read
      obtain ⟨text, rfl, spelled, ends, place⟩ := spells_of_readBody step
      refine ⟨sign.toChar :: text, rfl, .signed sign spelled, ends, ?_⟩
      simp only [Reading.map, place, List.length_cons]
      omega
    | none =>
      rw [readNode_unsigned offset rest known] at read
      obtain ⟨body, step, rfl⟩ := map_eq_ok read
      obtain ⟨text, cut, spelled, ends, place⟩ := spells_of_readBody step
      refine ⟨text, cut, .unsigned spelled ?_, ends, place⟩
      intro d head
      obtain ⟨e, more, rfl, -⟩ := spelled.exists_cons
      cases head
      cases cut
      exact known

theorem spells_of_readNodes {offset : Nat} {input : List Char} {tree : Tree}
    (read : readNodes offset input = .ok tree) : TreeSpells offset input tree := by
  fun_induction readNodes offset input generalizing tree with
  | case1 =>
    cases read
    exact .empty
  | case2 offset c rest blank ih => exact .blank blank (ih read)
  | case3 => cases read
  | case4 => cases read
  | case5 offset c rest solid node found others done ih =>
    cases read
    obtain ⟨text, cut, spelled, ends, place⟩ := spells_of_readNode found
    rw [cut]
    apply TreeSpells.node spelled ends
    rw [← place]
    exact ih done

theorem readNodes_eq_ok_iff {offset : Nat} {input : List Char} {tree : Tree} :
    readNodes offset input = .ok tree ↔ TreeSpells offset input tree :=
  ⟨spells_of_readNodes, readNodes_of_spells⟩

end BoolQuery.Query
