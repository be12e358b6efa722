import BoolQuery.Proofs.Query.Reading

/-! Scanning a query one character at a time.

The reader takes terms and phrases whole. The scan only knows what kind of spot it stands at, and
stops where neither the next character nor the end of the query fits. Both stop at the same place
for the same cause: `failure_readNodes`.
-/

set_option autoImplicit false

namespace BoolQuery.Query

open Text (isBlank)

/-- What stands before a place in a query, as far as it bears on what may follow. -/
inductive Spot where
  -- The start of the query, a blank or a closing quote.
  | gap
  | word
  | signed
  -- An opening quote.
  | opened
  | phrase
  deriving DecidableEq, Repr

namespace Spot

def step : Spot → Char → Option Spot
  | .gap, c =>
    if isBlank c then some .gap
    else if c = '"' then some .opened
    else if (Sign.ofChar? c).isSome then some .signed
    else some .word
  | .word, c => if isBlank c then some .gap else if c = '"' then some .opened else some .word
  | .signed, c => if isBlank c then none else if c = '"' then some .opened else some .word
  | .opened, c => if isBlank c then none else if c = '"' then some .gap else some .phrase
  | .phrase, c => if c = '"' then some .gap else some .phrase

def missing : Spot → Option Expected
  | .gap | .word => none
  | .signed => some .term
  | .opened | .phrase => some .phraseClose

def run (spot : Spot) (text : List Char) : Option Spot := text.foldlM step spot

@[simp] theorem run_nil (spot : Spot) : spot.run [] = some spot := rfl

@[simp] theorem run_cons (spot : Spot) (c : Char) (rest : List Char) :
    spot.run (c :: rest) = (spot.step c).bind fun next => next.run rest := rfl

theorem run_append (spot : Spot) (text rest : List Char) :
    spot.run (text ++ rest) = (spot.run text).bind fun next => next.run rest :=
  List.foldlM_append

theorem run_snoc (spot : Spot) (text : List Char) (c : Char) :
    spot.run (text ++ [c]) = (spot.run text).bind fun next => next.step c := by
  rw [run_append]
  congr 1
  funext next
  simp

/-- Only a blank can be out of place, and only after a sign or an opening quote. -/
theorem step_eq_none_iff {spot : Spot} {c : Char} :
    spot.step c = none ↔ isBlank c = true ∧ (spot = .signed ∨ spot = .opened) := by
  cases spot <;> simp only [step] <;> split <;> simp_all <;> (repeat' split) <;> simp

/-- Where no blank fits, the query cannot stop either. -/
theorem missing_ne_none_of_step {spot : Spot} {c : Char} (stuck : spot.step c = none) :
    spot.missing ≠ none := by
  rcases (step_eq_none_iff.mp stuck).2 with rfl | rfl <;> simp [missing]

end Spot

/-- The failure of a query that goes on from a spot, if it fails. -/
def scan (spot : Spot) (offset : Nat) : List Char → Option Failure
  | [] => spot.missing.map fun expected => ⟨offset, expected⟩
  | c :: rest =>
    match spot.step c with
    | some next => scan next (offset + 1) rest
    | none => spot.missing.map fun expected => ⟨offset, expected⟩

theorem scan_append {spot next : Spot} (offset : Nat) (text rest : List Char)
    (fits : spot.run text = some next) :
    scan spot offset (text ++ rest) = scan next (offset + text.length) rest := by
  induction text generalizing spot offset with
  | nil =>
    cases fits
    rfl
  | cons c text ih =>
    obtain ⟨middle, taken, fits⟩ := Option.bind_eq_some_iff.mp (Spot.run_cons spot c text ▸ fits)
    simp only [List.cons_append, scan, taken, List.length_cons, ih (offset + 1) fits]
    rw [Nat.add_assoc, Nat.add_comm 1]

theorem scan_eq_none_iff {spot : Spot} {offset : Nat} {input : List Char} :
    scan spot offset input = none ↔ ∃ last, spot.run input = some last ∧ last.missing = none := by
  induction input generalizing spot offset with
  | nil => simp [scan]
  | cons c rest ih =>
    cases taken : spot.step c with
    | some next => simp [scan, taken, ih]
    | none => simpa [scan, taken] using Spot.missing_ne_none_of_step taken

/-- A scan fails right after a text that fits, at a spot where something is missing, and there
either the query ends or the next character does not fit. -/
theorem scan_eq_some {spot : Spot} {offset : Nat} {input : List Char} {failure : Failure}
    (fails : scan spot offset input = some failure) :
    ∃ before after reached, input = before ++ after ∧ failure.offset = offset + before.length ∧
      spot.run before = some reached ∧ reached.missing = some failure.expected ∧
      ∀ c ∈ after.head?, reached.step c = none := by
  induction input generalizing spot offset with
  | nil =>
    obtain ⟨expected, missing, rfl⟩ := Option.map_eq_some_iff.mp fails
    exact ⟨[], [], spot, rfl, rfl, rfl, missing, by simp⟩
  | cons c rest ih =>
    cases taken : spot.step c with
    | some next =>
      simp only [scan, taken] at fails
      obtain ⟨before, after, reached, rfl, place, fits, missing, stuck⟩ := ih fails
      refine ⟨c :: before, after, reached, rfl, ?_, ?_, missing, stuck⟩
      · rw [place, List.length_cons]
        omega
      · simpa [taken] using fits
    | none =>
      simp only [scan, taken] at fails
      obtain ⟨expected, missing, rfl⟩ := Option.map_eq_some_iff.mp fails
      exact ⟨[], c :: rest, spot, rfl, rfl, rfl, missing, by simpa using taken⟩

theorem Spot.run_word {text : List Char} (plain : ∀ c ∈ text, isTermChar c = true) :
    Spot.word.run text = some .word := by
  induction text with
  | nil => rfl
  | cons c text ih =>
    have here := isTermChar_iff.mp (plain c (by simp))
    simpa [step, here.1, here.2] using ih fun d inside => plain d (by simp [inside])

theorem Spot.run_phrase {text : List Char} (unquoted : ∀ c ∈ text, c ≠ '"') :
    Spot.phrase.run text = some .phrase := by
  induction text with
  | nil => rfl
  | cons c text ih =>
    simpa [step, unquoted c (by simp)] using ih fun d inside => unquoted d (by simp [inside])

/-- Where a term cannot go on, its end is as good as a gap. -/
theorem scan_word_eq_gap (offset : Nat) {input : List Char} (breaks : Breaks input) :
    scan .word offset input = scan .gap offset input := by
  cases input with
  | nil => rfl
  | cons c rest =>
    rcases breaks_cons.mp breaks with blank | rfl
    · simp [scan, Spot.step, blank]
    · rfl

/-- Before anything but a blank, the inside of a phrase is as good as its start. -/
theorem scan_phrase_eq_opened (offset : Nat) {input : List Char} (solid : Solid input) :
    scan .phrase offset input = scan .opened offset input := by
  cases input with
  | nil => rfl
  | cons c rest =>
    have same : Spot.phrase.step c = Spot.opened.step c := by
      simp [Spot.step, solid c rfl]
    simp only [scan, same]
    rfl

/-- The failure of a part, or that of what follows it. -/
def resume {α : Type} : Except Failure (Reading α) → Option Failure
  | .error failure => some failure
  | .ok reading => scan .gap reading.offset reading.rest

@[simp] theorem resume_map {α β : Type} (convert : α → β) (outcome : Except Failure (Reading α)) :
    resume (outcome.map (Reading.map convert)) = resume outcome := by
  cases outcome <;> rfl

theorem scan_bare {spot : Spot} (offset : Nat) {text rest : List Char} (word : Word text)
    (breaks : Breaks rest) (starts : ∀ c ∈ text.head?, spot.step c = some .word) :
    scan spot offset (text ++ rest) = scan .gap (offset + text.length) rest := by
  have fits : spot.run text = some .word := by
    obtain ⟨c, text, rfl, -, -, plain⟩ := word.exists_cons
    rw [Spot.run_cons, starts c rfl]
    exact Spot.run_word plain
  rw [scan_append offset text rest fits, scan_word_eq_gap _ breaks]

theorem scan_opened (offset : Nat) (input : List Char) :
    scan .opened offset input = resume (readPhrase offset input) := by
  induction offset, input using phraseInduction with
  | nil offset =>
    rw [readPhrase_nil]
    rfl
  | quote offset rest =>
    rw [readPhrase_quote]
    rfl
  | blank offset c rest blank =>
    rw [readPhrase_blank offset rest blank]
    simp [scan, Spot.step, blank, Spot.missing, resume]
  | word offset text blanks rest word all breaks solid ih =>
    -- After its first character nothing but a quote ends a phrase, so blanks fit as well.
    have fits : Spot.opened.run (text ++ blanks) = some .phrase := by
      obtain ⟨c, text, rfl, visible, unquoted, plain⟩ := word.exists_cons
      have step : Spot.opened.step c = some .phrase := by simp [Spot.step, visible, unquoted]
      rw [List.cons_append, Spot.run_cons, step]
      apply Spot.run_phrase
      intro d inside
      rcases List.mem_append.mp inside with inside | inside
      · exact (isTermChar_iff.mp (plain d inside)).2
      · exact ne_quote_of_isBlank (all d inside)
    rw [readPhrase_word offset word all breaks solid, ← List.append_assoc,
      scan_append offset _ _ fits, scan_phrase_eq_opened _ solid, List.length_append,
      ← Nat.add_assoc, resume_map]
    exact ih

/-- After a sign, or at the start of a node that has none. -/
theorem scan_body {spot : Spot} (offset : Nat) {c : Char} (rest : List Char)
    (solid : isBlank c = false) (quote : spot.step '"' = some .opened)
    (starts : isTermChar c = true → spot.step c = some .word) :
    scan spot offset (c :: rest) = resume (readBody offset (c :: rest)) := by
  by_cases quoted : c = '"'
  · subst quoted
    rw [readBody_quote, resume_map, ← scan_opened]
    simp only [scan, quote]
  · have first : isTermChar c = true := isTermChar_iff.mpr ⟨solid, quoted⟩
    obtain ⟨text, after, cut, word, breaks⟩ := exists_word rest first
    rw [cut, readBody_word offset word breaks]
    apply scan_bare offset word breaks
    obtain ⟨d, more, rfl, -⟩ := word.exists_cons
    cases cut
    intro e head
    cases head
    exact starts first

theorem scan_signed (offset : Nat) (input : List Char) :
    scan .signed offset input = resume (readBody offset input) := by
  cases input with
  | nil => rfl
  | cons c rest =>
    cases blank : isBlank c with
    | true =>
      simp [scan, Spot.step, Spot.missing, readBody, resume, blank, ne_quote_of_isBlank blank]
    | false =>
      apply scan_body offset rest blank rfl
      intro first
      simp [Spot.step, blank, (isTermChar_iff.mp first).2]

theorem scan_node (offset : Nat) {c : Char} (rest : List Char) (solid : isBlank c = false) :
    scan .gap offset (c :: rest) = resume (readNode offset (c :: rest)) := by
  cases known : Sign.ofChar? c with
  | some sign =>
    cases Sign.ofChar?_eq_some.mp known
    rw [readNode_sign, resume_map, ← scan_signed]
    cases sign <;> rfl
  | none =>
    rw [readNode_unsigned offset rest known, resume_map]
    apply scan_body offset rest solid rfl
    intro first
    simp [Spot.step, solid, (isTermChar_iff.mp first).2, known]

def failure? {α : Type} : Except Failure α → Option Failure
  | .error failure => some failure
  | .ok _ => none

/-- The reader fails where the scan does, for the same cause, and nowhere else. -/
theorem failure_readNodes (offset : Nat) (input : List Char) :
    failure? (readNodes offset input) = scan .gap offset input := by
  -- One case for each branch of the reader: the end, a blank, a node that fails, and a node
  -- before nodes that fail or not. The scan stands in a gap before each node.
  fun_induction readNodes offset input with
  | case1 => rfl
  | case2 offset c rest blank ih => simpa [scan, Spot.step, blank] using ih
  | case3 offset c rest solid failure failed =>
    rw [scan_node offset rest (by simpa using solid), failed]
    rfl
  | case4 offset c rest solid node read failure failed ih =>
    rw [scan_node offset rest (by simpa using solid), read]
    rw [failed] at ih
    exact ih
  | case5 offset c rest solid node read others done ih =>
    rw [scan_node offset rest (by simpa using solid), read]
    rw [done] at ih
    exact ih

theorem read_eq_error_iff {query : String} {failure : Failure} :
    Tree.read query = .error failure ↔ scan .gap 0 query.toList = some failure := by
  rw [← failure_readNodes, Tree.read]
  cases readNodes 0 query.toList <;> simp [failure?]

def Accepted (query : String) : Prop := ∃ tree, Tree.read query = .ok tree

theorem accepted_iff {query : String} :
    Accepted query ↔ ∃ last, Spot.gap.run query.toList = some last ∧ last.missing = none := by
  have outcome : scan .gap 0 query.toList = none ↔ Accepted query := by
    rw [← failure_readNodes, Accepted, Tree.read]
    cases readNodes 0 query.toList <;> simp [failure?]
  rw [← outcome, scan_eq_none_iff]

end BoolQuery.Query
