import BoolQuery.Proofs.Query.Joining
import BoolQuery.Query.Trace

/-! Queries that differ in their blanks only.

Where blanks stand in a query matters, but not which ones and how many, and blanks at its ends do
not matter at all: `read_spacedAlike`. Acceptance and what is missing are compared by scanning
both queries at once, clauses along the grammar.
-/

set_option autoImplicit false

namespace BoolQuery.Query

open Text (isBlank)

/-- Each longest run of blanks is replaced by some run, and all other characters stay. -/
inductive Respaced : List Char → List Char → Prop where
  | nil : Respaced [] []
  | char {c : Char} {first second : List Char} : isBlank c = false → Respaced first second →
      Respaced (c :: first) (c :: second)
  | run {blanks others first second : List Char} : blanks ≠ [] → others ≠ [] →
      Blanks blanks → Blanks others → Solid first → Respaced first second →
      Respaced (blanks ++ first) (others ++ second)

/-- Runs of blanks are replaced, and any blanks stand at the two ends. -/
inductive SpacedAlike : List Char → List Char → Prop where
  | intro {lead inner trail lead' inner' trail' : List Char} : Blanks lead → Blanks trail →
      Blanks lead' → Blanks trail' → Respaced inner inner' →
      SpacedAlike (lead ++ (inner ++ trail)) (lead' ++ (inner' ++ trail'))

namespace Respaced

variable {first second text blanks rest : List Char}

/-! ## Cuts of respaced texts -/

theorem head (alike : Respaced first second) {c : Char} (found : c ∈ second.head?) :
    ∃ d ∈ first.head?, d = c ∨ isBlank d = true ∧ isBlank c = true := by
  cases alike with
  | nil => cases found
  | char solid alike => exact ⟨_, rfl, Or.inl (Option.some.inj found)⟩
  | run filled filled' all all' solid alike =>
    obtain ⟨d, blanks, rfl⟩ := List.exists_cons_of_ne_nil filled
    obtain ⟨e, others, rfl⟩ := List.exists_cons_of_ne_nil filled'
    have same : e = c := Option.some.inj found
    exact ⟨d, rfl, Or.inr ⟨all d (by simp), same ▸ all' e (by simp)⟩⟩

theorem breaks (alike : Respaced first second) (breaks : Breaks first) : Breaks second := by
  intro c found
  obtain ⟨d, here, rfl | ⟨-, blank⟩⟩ := alike.head found
  · exact breaks d here
  · exact not_isTermChar_iff.mpr (Or.inl blank)

theorem cons_inv {c : Char} (alike : Respaced (c :: rest) second) (solid : isBlank c = false) :
    ∃ after, second = c :: after ∧ Respaced rest after := by
  generalize whole : c :: rest = first at alike
  cases alike with
  | nil => cases whole
  | char _ alike =>
    cases whole
    exact ⟨_, rfl, alike⟩
  | run filled _ all =>
    obtain ⟨d, blanks, rfl⟩ := List.exists_cons_of_ne_nil filled
    cases whole
    rw [all c (by simp)] at solid
    cases solid

theorem append_inv (alike : Respaced (text ++ rest) second)
    (solid : ∀ c ∈ text, isBlank c = false) :
    ∃ after, second = text ++ after ∧ Respaced rest after := by
  induction text generalizing second with
  | nil => exact ⟨second, rfl, alike⟩
  | cons c text ih =>
    obtain ⟨more, rfl, next⟩ := alike.cons_inv (solid c (by simp))
    obtain ⟨after, rfl, onward⟩ := ih next fun d inside => solid d (by simp [inside])
    exact ⟨after, rfl, onward⟩

theorem blanks_inv (alike : Respaced (blanks ++ rest) second) (all : Blanks blanks)
    (solid : Solid rest) :
    ∃ others after, second = others ++ after ∧ Blanks others ∧ (others = [] ↔ blanks = []) ∧
      Respaced rest after := by
  cases blanks with
  | nil => exact ⟨[], second, rfl, .nil, Iff.rfl, alike⟩
  | cons c blanks =>
    generalize whole : c :: blanks ++ rest = first at alike
    cases alike with
    | nil => cases whole
    | char visible =>
      cases whole
      rw [all c (by simp)] at visible
      cases visible
    | @run run others _ after filled filled' all' others_blank solid' alike =>
      -- Both runs reach up to the first character that is no blank.
      have same : c :: blanks = run := by
        rw [← takeWhile_append_of_break all solid, whole, takeWhile_append_of_break all' solid']
      subst same
      cases List.append_cancel_left whole
      exact ⟨others, after, rfl, others_blank, by simp [filled'], alike⟩

theorem eq_nil (alike : Respaced [] second) : second = [] := by
  generalize whole : [] = first at alike
  cases alike with
  | nil => rfl
  | char => cases whole
  | run filled =>
    obtain ⟨c, blanks, rfl⟩ := List.exists_cons_of_ne_nil filled
    cases whole

end Respaced

/-! ## Clauses -/

theorem PhraseSpells.respaced {offset : Nat} {inner rest second : List Char} {terms : List Term}
    (spelled : PhraseSpells offset inner terms) (place : Nat)
    (alike : Respaced (inner ++ '"' :: rest) second) :
    ∃ other words after, second = other ++ '"' :: after ∧ PhraseSpells place other words ∧
      words.map Term.text = terms.map Term.text ∧ Respaced rest after := by
  induction spelled generalizing second place with
  | empty =>
    obtain ⟨after, rfl, onward⟩ := alike.cons_inv isBlank_quote
    exact ⟨[], [], after, rfl, .empty, rfl, onward⟩
  | @word offset text blanks more terms word all apart spelled ih =>
    rw [List.append_assoc, List.append_assoc] at alike
    obtain ⟨_, rfl, onward⟩ := alike.append_inv word.visible
    obtain ⟨gap, _, rfl, all', empty, onward⟩ := onward.blanks_inv all (spelled.solid rest)
    obtain ⟨other, words, after, rfl, spelled', same, onward⟩ :=
      ih (place + text.length + gap.length) onward
    refine ⟨text ++ (gap ++ other), ⟨String.ofList text, place⟩ :: words, after, by simp,
      .word word all' ?_ spelled', by simp [same], onward⟩
    intro more
    rw [ne_eq, empty]
    apply apart
    rintro rfl
    exact more (by simpa using same)

theorem BodySpells.respaced {offset : Nat} {text rest second : List Char} {body : Body}
    (spelled : BodySpells offset text body) (ends : body.EndsBefore rest) (place : Nat)
    (alike : Respaced (text ++ rest) second) :
    ∃ other twin after, second = other ++ after ∧ BodySpells place other twin ∧
      twin.EndsBefore after ∧ twin.leaf = body.leaf ∧ other.head? = text.head? ∧
      Respaced rest after := by
  cases spelled with
  | term word =>
    obtain ⟨after, rfl, onward⟩ := alike.append_inv word.visible
    exact ⟨text, _, after, rfl, .term word, onward.breaks ends, rfl, rfl, onward⟩
  | @phrase inner terms inside =>
    rw [List.cons_append, List.append_assoc] at alike
    obtain ⟨_, rfl, onward⟩ := alike.cons_inv isBlank_quote
    obtain ⟨other, words, after, rfl, spelled, same, onward⟩ := inside.respaced (place + 1) onward
    refine ⟨'"' :: (other ++ ['"']), .phrase words place, after, by simp, .phrase spelled,
      trivial, ?_, rfl, onward⟩
    rw [Body.leaf, Body.leaf, same]

theorem NodeSpells.respaced {offset : Nat} {text rest second : List Char} {node : Node}
    (spelled : NodeSpells offset text node) (ends : node.body.EndsBefore rest) (place : Nat)
    (alike : Respaced (text ++ rest) second) :
    ∃ other twin after, second = other ++ after ∧ NodeSpells place other twin ∧
      twin.body.EndsBefore after ∧ twin.clause = node.clause ∧ Respaced rest after := by
  cases spelled with
  | @signed text body sign spelled =>
    obtain ⟨_, rfl, onward⟩ := alike.cons_inv sign.isBlank_toChar
    obtain ⟨other, twin, after, rfl, spelled', ends', leaf, -, onward⟩ :=
      spelled.respaced ends (place + 1) onward
    refine ⟨sign.toChar :: other, ⟨some sign, twin, place⟩, after, rfl, .signed sign spelled',
      ends', ?_, onward⟩
    rw [Node.clause, Node.clause, leaf]
  | @unsigned _ body spelled unsigned =>
    obtain ⟨other, twin, after, rfl, spelled', ends', leaf, head, onward⟩ :=
      spelled.respaced ends place alike
    refine ⟨other, ⟨none, twin, place⟩, after, rfl, .unsigned spelled' (head ▸ unsigned), ends',
      ?_, onward⟩
    rw [Node.clause, Node.clause, leaf]

theorem TreeSpells.respaced {offset : Nat} {first second : List Char} {tree : Tree}
    (spelled : TreeSpells offset first tree) (place : Nat) (alike : Respaced first second) :
    ∃ twin : Tree, TreeSpells place second twin ∧ twin.clauses = tree.clauses := by
  induction spelled generalizing second place with
  | empty =>
    cases alike.eq_nil
    exact ⟨[], .empty, rfl⟩
  | @blank offset c rest tree blank spelled ih =>
    obtain ⟨blanks, rest, rfl, all, solid⟩ := exists_run isBlank rest
    have whole : Blanks (c :: blanks) := fun d inside =>
      (List.mem_cons.mp inside).elim (fun same => same ▸ blank) (all d)
    rw [← List.cons_append] at alike
    obtain ⟨others, after, rfl, all', empty, onward⟩ := alike.blanks_inv whole solid
    cases blanks with
    | nil =>
      obtain ⟨twin, spelled', same⟩ := ih (place + others.length) onward
      exact ⟨twin, .blanks all' spelled', same⟩
    | cons d blanks =>
      exact ih place (.run (by simp) (by simp [empty]) all all' solid onward)
  | node node ends spelled ih =>
    obtain ⟨other, twin, after, rfl, node', ends', same, onward⟩ := node.respaced ends place alike
    obtain ⟨twins, spelled', others⟩ := ih (place + other.length) onward
    refine ⟨twin :: twins, .node node' ends' spelled', ?_⟩
    rw [Tree.clauses, List.map_cons, same]
    exact congrArg _ others

/-! ## Acceptance and what is missing -/

namespace Spot

/-- Blanks, however many, either lead from a spot to one where the same is missing, or none of
them fits. -/
theorem pass_or_stop (spot : Spot) :
    (∃ next : Spot, next.missing = spot.missing ∧
      ∀ blanks, Blanks blanks → blanks ≠ [] → spot.run blanks = some next) ∨
    ∀ c, isBlank c = true → spot.step c = none := by
  cases spot with
  | gap | word => exact Or.inl ⟨.gap, rfl, fun blanks => run_blanks rfl⟩
  | signed | opened => exact Or.inr fun c blank => step_eq_none_iff.mpr ⟨blank, by simp⟩
  | phrase =>
    refine Or.inl ⟨.phrase, rfl, fun blanks all _ => run_phrase fun c inside => ?_⟩
    exact ne_quote_of_isBlank (all c inside)

end Spot

/-- What is missing where a scan fails. -/
def lack (spot : Spot) (offset : Nat) (text : List Char) : Option Expected :=
  (scan spot offset text).map Failure.expected

theorem lack_nil (spot : Spot) (offset : Nat) : lack spot offset [] = spot.missing := by
  cases spot <;> rfl

theorem lack_cons {spot next : Spot} {c : Char} (offset : Nat) (rest : List Char)
    (taken : spot.step c = some next) : lack spot offset (c :: rest) = lack next (offset + 1) rest := by
  simp only [lack, scan, taken]

theorem lack_stuck {spot : Spot} {c : Char} (offset : Nat) (rest : List Char)
    (stuck : spot.step c = none) : lack spot offset (c :: rest) = spot.missing := by
  simp only [lack, scan, stuck]
  cases spot <;> rfl

theorem lack_append {spot next : Spot} {text : List Char} (offset : Nat) (rest : List Char)
    (fits : spot.run text = some next) :
    lack spot offset (text ++ rest) = lack next (offset + text.length) rest := by
  rw [lack, scan_append offset text rest fits, lack]

theorem Respaced.lack_eq {first second : List Char} (alike : Respaced first second) (spot : Spot)
    (offset place : Nat) : lack spot offset first = lack spot place second := by
  induction alike generalizing spot offset place with
  | nil => rw [lack_nil, lack_nil]
  | @char c first second solid alike ih =>
    cases taken : spot.step c with
    | some next => rw [lack_cons _ _ taken, lack_cons _ _ taken, ih]
    | none =>
      rw [(Spot.step_eq_none_iff.mp taken).1] at solid
      cases solid
  | @run blanks others first second filled filled' all all' solid alike ih =>
    rcases spot.pass_or_stop with ⟨next, -, pass⟩ | stop
    · rw [lack_append _ _ (pass blanks all filled), lack_append _ _ (pass others all' filled'), ih]
    · obtain ⟨c, blanks, rfl⟩ := List.exists_cons_of_ne_nil filled
      obtain ⟨d, others, rfl⟩ := List.exists_cons_of_ne_nil filled'
      rw [List.cons_append, List.cons_append, lack_stuck _ _ (stop c (all c (by simp))),
        lack_stuck _ _ (stop d (all' d (by simp)))]

theorem lack_trail {trail : List Char} (all : Blanks trail) (spot : Spot) (offset place : Nat)
    (text : List Char) : lack spot offset (text ++ trail) = lack spot place text := by
  induction text generalizing spot offset place with
  | nil =>
    rw [List.nil_append, lack_nil]
    by_cases filled : trail = []
    · rw [filled, lack_nil]
    · rcases spot.pass_or_stop with ⟨next, same, pass⟩ | stop
      · rw [← List.append_nil trail, lack_append _ _ (pass trail all filled), lack_nil, same]
      · obtain ⟨c, trail, rfl⟩ := List.exists_cons_of_ne_nil filled
        exact lack_stuck _ _ (stop c (all c (by simp)))
  | cons c text ih =>
    rw [List.cons_append]
    cases taken : spot.step c with
    | some next => rw [lack_cons _ _ taken, lack_cons _ _ taken, ih]
    | none => rw [lack_stuck _ _ taken, lack_stuck _ _ taken]

/-! ## Offsets left aside -/

/-- An outcome of reading without any offsets: the clauses, or what is missing. -/
def gist : Except Failure Tree → Except Expected (List Clause)
  | .error failure => .error failure.expected
  | .ok tree => .ok (Tree.clauses tree)

/-- Two texts are read alike if they lack the same and every tree of the first has a twin. -/
theorem gist_eq {first second : List Char} (same : lack .gap 0 first = lack .gap 0 second)
    (twins : ∀ tree : Tree, TreeSpells 0 first tree →
      ∃ twin : Tree, TreeSpells 0 second twin ∧ twin.clauses = tree.clauses) :
    gist (readNodes 0 first) = gist (readNodes 0 second) := by
  rw [lack, lack, ← failure_readNodes, ← failure_readNodes] at same
  cases read : readNodes 0 first with
  | ok tree =>
    obtain ⟨twin, spelled, clauses⟩ := twins tree (spells_of_readNodes read)
    rw [readNodes_of_spells spelled]
    exact congrArg Except.ok clauses.symm
  | error failure =>
    cases reread : readNodes 0 second with
    | ok tree => simp [read, reread, failure?] at same
    | error other =>
      rw [read, reread] at same
      exact congrArg Except.error (Option.some.inj same)

theorem Node.clause_shift (distance : Nat) (node : Node) :
    (node.shift distance).clause = node.clause := by
  obtain ⟨sign, body, offset⟩ := node
  cases body with
  | term word => rfl
  | phrase terms place =>
    simp only [clause, shift, Body.shift, Body.leaf, List.map_map]
    rfl

theorem Tree.clauses_shift (distance : Nat) (tree : Tree) :
    (tree.shift distance).clauses = tree.clauses := by
  rw [clauses, clauses, shift, List.map_map]
  exact List.map_congr_left fun node _ => node.clause_shift distance

theorem gist_ends {lead trail : List Char} (before : Blanks lead) (after : Blanks trail)
    (inner : List Char) :
    gist (readNodes 0 inner) = gist (readNodes 0 (lead ++ (inner ++ trail))) := by
  apply gist_eq
  · rw [lack_append 0 _ (Spot.run_gap_blanks before), lack_trail after]
  · intro tree spelled
    have whole : TreeSpells 0 (inner ++ trail) tree := by
      by_cases filled : trail = []
      · rwa [filled, List.append_nil]
      · have joined : TreeSpells 0 (inner ++ (trail ++ [])) (tree ++ []) :=
          spelled.append after filled .empty
        rwa [List.append_nil, List.append_nil] at joined
    exact ⟨tree.shift lead.length, .blanks before (whole.shift lead.length),
      tree.clauses_shift lead.length⟩

theorem SpacedAlike.gist_eq {first second : List Char} (alike : SpacedAlike first second) :
    gist (readNodes 0 first) = gist (readNodes 0 second) := by
  cases alike with
  | @intro lead inner trail lead' inner' trail' before after before' after' alike =>
    have middle : gist (readNodes 0 inner) = gist (readNodes 0 inner') :=
      Query.gist_eq (alike.lack_eq _ _ _) fun tree spelled => spelled.respaced 0 alike
    rw [← gist_ends before after, middle, gist_ends before' after']

/-- Two queries that differ only in which blanks they have, and in blanks at their ends, are both
accepted, with the same clauses and documents, or both rejected where the same is missing. -/
theorem read_spacedAlike (first second : String)
    (alike : SpacedAlike first.toList second.toList) :
    (∃ tree other, Tree.read first = .ok tree ∧ Tree.read second = .ok other ∧
      tree.clauses = other.clauses ∧
      ∃ document, compile first = .ok document ∧ compile second = .ok document) ∨
    ∃ failure other, Tree.read first = .error failure ∧ Tree.read second = .error other ∧
      failure.expected = other.expected := by
  have same : gist (Tree.read first) = gist (Tree.read second) := alike.gist_eq
  cases read : Tree.read first with
  | ok tree =>
    cases reread : Tree.read second with
    | ok other =>
      rw [read, reread] at same
      have clauses : tree.clauses = other.clauses := Except.ok.inj same
      refine Or.inl ⟨tree, other, rfl, rfl, clauses, tree.document, ?_, ?_⟩
      · rw [compile, read]
        rfl
      · rw [compile, reread, Tree.document, clauses]
        rfl
    | error => simp [read, reread, gist] at same
  | error failure =>
    cases reread : Tree.read second with
    | ok => simp [read, reread, gist] at same
    | error other =>
      rw [read, reread] at same
      exact Or.inr ⟨failure, other, rfl, rfl, Except.error.inj same⟩

theorem widened_phrase_read_spacedAlike :
    SpacedAlike "-\"b c\" a".toList "\n-\"b \t c\"\r\na ".toList ∧
    compile "\n-\"b \t c\"\r\na " = .ok ⟨[.term "a"], [], [.phrase "b c"]⟩ := by
  have space : Blanks [' '] := by simp [Blanks, isBlank]
  have wide : Blanks [' ', '\t', ' '] := by simp [Blanks, isBlank]
  have line : Blanks ['\r', '\n'] := by simp [Blanks, isBlank]
  have feed : Blanks ['\n'] := by simp [Blanks, isBlank]
  have outer : Respaced ([' '] ++ ['a']) (['\r', '\n'] ++ ['a']) :=
    .run (by simp) (by simp) space line (by simp [Solid, isBlank]) (.char rfl .nil)
  have inner : Respaced ([' '] ++ 'c' :: '"' :: ' ' :: ['a'])
      ([' ', '\t', ' '] ++ 'c' :: '"' :: '\r' :: '\n' :: ['a']) :=
    .run (by simp) (by simp) space wide (by simp [Solid, isBlank])
      (.char rfl (.char rfl outer))
  have whole := SpacedAlike.intro .nil .nil feed space
    (.char (c := '-') rfl (.char (c := '"') rfl (.char (c := 'b') rfl inner)))
  have alike : SpacedAlike "-\"b c\" a".toList "\n-\"b \t c\"\r\na ".toList := whole
  refine ⟨alike, ?_⟩
  have known : compile "-\"b c\" a" = .ok ⟨[.term "a"], [], [.phrase "b c"]⟩ := by decide +kernel
  rcases read_spacedAlike _ _ alike with ⟨tree, other, -, -, -, document, one, two⟩ | ⟨_, _, one, -⟩
  · rw [two, ← one, known]
  · rw [compile, one] at known
    cases known

end BoolQuery.Query
