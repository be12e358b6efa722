import BoolQuery.Proofs.Query.Scan
import Mathlib.Order.Bounds.Defs

/-! Failures and the prefixes of accepted queries.

A text is viable if some accepted query begins with it. Every text that fits can still be
completed, so a failure stands at the end of the longest viable text:
`read_error_isGreatest_viable`.
-/

set_option autoImplicit false

namespace BoolQuery.Query

open Text (isBlank)

/-- Some accepted query begins with this text. -/
def Viable (text : List Char) : Prop := ∃ query, Accepted query ∧ text <+: query.toList

def Spot.completion : Spot → List Char
  | .gap | .word => []
  | .signed => ['a']
  | .opened | .phrase => ['"']

theorem Spot.run_completion (spot : Spot) :
    ∃ last, spot.run spot.completion = some last ∧ last.missing = none := by
  cases spot <;> exact ⟨_, rfl, rfl⟩

theorem accepted_append_iff {text : List Char} {spot : Spot} (fits : Spot.gap.run text = some spot)
    (rest : List Char) :
    Accepted (String.ofList (text ++ rest)) ↔
      ∃ last, spot.run rest = some last ∧ last.missing = none := by
  rw [accepted_iff, String.toList_ofList, Spot.run_append, fits, Option.bind_some]

theorem viable_iff {text : List Char} : Viable text ↔ ∃ spot, Spot.gap.run text = some spot := by
  constructor
  · rintro ⟨query, accepted, rest, cut⟩
    obtain ⟨last, fits, -⟩ := accepted_iff.mp accepted
    rw [← cut, Spot.run_append] at fits
    obtain ⟨spot, fits, -⟩ := Option.bind_eq_some_iff.mp fits
    exact ⟨spot, fits⟩
  · -- Whatever fits can still be completed.
    rintro ⟨spot, fits⟩
    refine ⟨String.ofList (text ++ spot.completion), ?_, ?_⟩
    · exact (accepted_append_iff fits _).mpr spot.run_completion
    · rw [String.toList_ofList]
      exact List.prefix_append text _

theorem Viable.of_append {text rest : List Char} (viable : Viable (text ++ rest)) :
    Viable text := by
  obtain ⟨query, accepted, begins⟩ := viable
  exact ⟨query, accepted, (List.prefix_append text rest).trans begins⟩

/-- No viable text is longer than one at whose end the query fails. -/
theorem length_le_of_viable {before after : List Char} {reached : Spot}
    (fits : Spot.gap.run before = some reached)
    (stuck : ∀ c ∈ after.head?, reached.step c = none) {length : Nat}
    (bounded : length ≤ (before ++ after).length)
    (viable : Viable ((before ++ after).take length)) : length ≤ before.length := by
  -- A longer text would go past the character that does not fit.
  by_contra longer
  cases after with
  | nil => simp at bounded; omega
  | cons c after =>
    obtain ⟨more, rfl⟩ : ∃ more, length = before.length + 1 + more :=
      ⟨length - (before.length + 1), by omega⟩
    have cut : (before ++ c :: after).take (before.length + 1 + more) =
        (before ++ [c]) ++ after.take more := by
      rw [Nat.add_assoc, List.take_length_add_append]
      simp [Nat.add_comm 1]
    rw [cut] at viable
    obtain ⟨spot, passed⟩ := viable_iff.mp viable.of_append
    rw [Spot.run_snoc, fits, Option.bind_some, stuck c rfl] at passed
    cases passed

/-- What fits at a spot where something is missing: a closing quote exactly where it is the
missing part, and any word exactly where a term is. -/
theorem Spot.missing_closes {spot : Spot} {expected : Expected}
    (missing : spot.missing = some expected) :
    expected = .phraseClose ↔ ∃ last, spot.run ['"'] = some last ∧ last.missing = none := by
  cases spot <;> cases missing <;> simp [Spot.step, isBlank_quote, Spot.missing]

theorem Spot.missing_word {spot : Spot} {expected : Expected} {text : List Char}
    (missing : spot.missing = some expected) (word : Word text) :
    expected = .term ↔ ∃ last, spot.run text = some last ∧ last.missing = none := by
  obtain ⟨c, rest, rfl, visible, first, plain⟩ := word.exists_cons
  have unquoted : ∀ d ∈ rest, d ≠ '"' := fun d inside => (isTermChar_iff.mp (plain d inside)).2
  cases spot <;> cases missing <;>
    simp [Spot.step, visible, first, Spot.run_word plain, Spot.run_phrase unquoted, Spot.missing]

/-- A failure stands at the end of the longest viable text that the query begins with, and names
a part with which this text becomes a query: a closing quote or any word. -/
theorem read_error_isGreatest_viable (query : String) (failure : Failure)
    (rejected : Tree.read query = .error failure) :
    (1 ≤ failure.offset ∧ failure.offset ≤ query.length) ∧
    IsGreatest {length | length ≤ query.length ∧ Viable (query.toList.take length)}
      failure.offset ∧
    failure.expected ≠ .endOfInput ∧
    (failure.expected = .phraseClose ↔
      Accepted (String.ofList (query.toList.take failure.offset ++ ['"']))) ∧
    ∀ text, Word text → (failure.expected = .term ↔
      Accepted (String.ofList (query.toList.take failure.offset ++ text))) := by
  obtain ⟨before, after, reached, cut, place, fits, missing, stuck⟩ :=
    scan_eq_some (read_eq_error_iff.mp rejected)
  rw [Nat.zero_add] at place
  have length : query.length = (before ++ after).length := by rw [← cut, String.length_toList]
  have taken : query.toList.take failure.offset = before := by simp [cut, place]
  rw [taken]
  refine ⟨⟨?_, ?_⟩, ⟨⟨?_, ?_⟩, ?_⟩, ?_, ?_, ?_⟩
  · -- Nothing is missing at the start of a query.
    rw [place, Nat.one_le_iff_ne_zero, Ne, List.length_eq_zero_iff]
    rintro rfl
    cases fits
    cases missing
  · rw [length, place, List.length_append]
    omega
  · rw [length, place, List.length_append]
    omega
  · rw [taken]
    exact viable_iff.mpr ⟨reached, fits⟩
  · rintro longer ⟨bounded, viable⟩
    rw [length] at bounded
    rw [cut] at viable
    rw [place]
    exact length_le_of_viable fits stuck bounded viable
  · intro ended
    rw [ended] at missing
    cases reached <;> cases missing
  · rw [accepted_append_iff fits]
    exact Spot.missing_closes missing
  · intro text word
    rw [accepted_append_iff fits]
    exact Spot.missing_word missing word

theorem unclosed_phrase_isGreatest_viable :
    Tree.read "a -\"b  " = .error ⟨7, .phraseClose⟩ ∧
    IsGreatest {length | length ≤ 7 ∧ Viable ("a -\"b  ".toList.take length)} 7 ∧
    Accepted "a -\"b  \"" ∧ ¬ Accepted "a -\"b  c" := by
  have rejected : Tree.read "a -\"b  " = .error ⟨7, .phraseClose⟩ :=
    read_eq_error_iff.mpr (by decide)
  obtain ⟨-, longest, -, closes, words⟩ := read_error_isGreatest_viable _ _ rejected
  have word : Word ['c'] := ⟨by simp, by simp [isTermChar, isBlank]⟩
  refine ⟨rejected, longest, closes.mp rfl, ?_⟩
  intro accepted
  cases (words ['c'] word).mpr accepted

end BoolQuery.Query
