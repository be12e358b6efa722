import BoolQuery.Proofs.Command.Compilation
import BoolQuery.Proofs.Query.Respacing

/-! A query as an argument and on the standard input.

What is read from the standard input has other line ends than the query that was written to it, and
lacks those at its end. All of them are blanks, so both ways lead to the same document:
`run_argument_eq_run_input`.
-/

set_option autoImplicit false

namespace BoolQuery

open Text (isBlank)

namespace Query

/-! ## Normalized line ends -/

theorem Blanks.normalizeEnds {text : List Char} (all : Blanks text) :
    Blanks (Text.normalizeEnds text) := by
  fun_induction Text.normalizeEnds text with
  | case1 => exact .nil
  | case2 rest ih =>
    exact List.forall_mem_cons.mpr ⟨rfl, ih fun c inside => all c (by simp [inside])⟩
  | case3 c rest _ ih =>
    refine List.forall_mem_cons.mpr ⟨?_, ih fun c inside => all c (by simp [inside])⟩
    split
    · rfl
    · exact all c (by simp)

theorem normalizeEnds_ne_nil {text : List Char} (filled : text ≠ []) :
    Text.normalizeEnds text ≠ [] := by
  fun_cases Text.normalizeEnds text <;> simp_all

/-- A carriage return and its line feed are in one run of blanks. -/
theorem respaced_normalizeEnds (text : List Char) : Respaced text (Text.normalizeEnds text) := by
  induction size : text.length using Nat.strong_induction_on generalizing text with
  | _ size ih =>
    subst size
    obtain ⟨blanks, rest, rfl, all, solid⟩ := exists_run isBlank text
    by_cases filled : blanks = []
    · cases filled
      cases rest with
      | nil => exact .nil
      | cons c rest =>
        have visible : isBlank c = false := solid c rfl
        have plain : c ≠ '\r' := by
          rintro rfl
          exact Bool.noConfusion visible
        rw [List.nil_append, Text.normalizeEnds_cons plain]
        exact .char visible (ih rest.length (by simp) rest rfl)
    · have parted : ∀ c ∈ rest.head?, c ≠ '\n' := by
        rintro _ here rfl
        exact Bool.noConfusion (solid '\n' here)
      have shorter : rest.length < (blanks ++ rest).length := by
        have filled := List.length_pos_iff.mpr filled
        rw [List.length_append]
        omega
      rw [Text.normalizeEnds_append blanks parted]
      exact .run filled (normalizeEnds_ne_nil filled) all (Blanks.normalizeEnds all) solid
        (ih _ shorter rest rfl)

/-! ## Documents without offsets -/

/-- The document of a query, if it has one. -/
theorem toOption_compile (query : String) :
    (compile query).toOption = (gist (readNodes 0 query.toList)).toOption.map fun clauses =>
      .ofBuckets (.ofClauses clauses) := by
  rw [compile, Tree.read]
  cases readNodes 0 query.toList <;> rfl

end Query

namespace Command.Compile

open Config (Environment Settings)
open Query (Blanks Document SpacedAlike gist readNodes)

theorem readInput_trims (input : String) :
    ∃ count, Text.normalizeEnds input.toList =
        (readInput input).toList ++ List.replicate count '\n' ∧
      (readInput input).toList.getLast? ≠ some '\n' := by
  obtain ⟨⟨count, shape⟩, last⟩ := trimEndWhile_eq_iff.mp
    (rfl : Text.trimEndWhile (· == '\n') (Text.normalizeEnds input.toList) = _)
  refine ⟨count, ?_⟩
  rw [readInput, String.toList_ofList]
  exact ⟨shape, last⟩

theorem gist_readInput (query : String) :
    gist (readNodes 0 (readInput query).toList) = gist (readNodes 0 query.toList) := by
  obtain ⟨count, shape, -⟩ := readInput_trims query
  have feeds : Blanks (List.replicate count '\n') := fun c inside =>
    List.eq_of_mem_replicate inside ▸ rfl
  have alike := SpacedAlike.intro .nil .nil .nil .nil (Query.respaced_normalizeEnds query.toList)
  calc gist (readNodes 0 (readInput query).toList)
      = gist (readNodes 0 (Text.normalizeEnds query.toList)) := by
        rw [shape, Query.gist_ends .nil feeds, List.nil_append]
    _ = gist (readNodes 0 query.toList) := by
        simpa only [List.nil_append, List.append_nil] using alike.gist_eq.symm

/-- Without a limit on its length a query matters only by its document. -/
theorem answer_congr {first second : String} {settings : Settings}
    (unlimited : settings.maxQueryLength = 0)
    (same : (Query.compile first).toOption = (Query.compile second).toOption)
    (indent : Option Nat) :
    answer indent first (.ok settings) = answer indent second (.ok settings) := by
  have short (length : Nat) : ¬ (0 < settings.maxQueryLength ∧ settings.maxQueryLength < length) :=
    fun limited => limited.1.ne' unlimited
  rw [answer, answer, if_neg (short _), if_neg (short _)]
  cases one : Query.compile first with
  | error failure =>
    cases two : Query.compile second with
    | error other => rfl
    | ok document => simp [one, two, Except.toOption] at same
  | ok document =>
    cases two : Query.compile second with
    | error failure => simp [one, two, Except.toOption] at same
    | ok other =>
      rw [one, two] at same
      cases same
      rfl

/-- A query, whatever its characters, has the same exit code and the same standard output as the
argument after two dashes and as the standard input, unless its length is limited. -/
theorem run_argument_eq_run_input (view : Files.View) (environment : Environment)
    {settings : Settings} (loads : ({} : Sources).load view environment = .ok (.ok settings))
    (unlimited : settings.maxQueryLength = 0) (query input : String) :
    (run view environment ["--", query] input).map Outcome.seen =
      (run view environment [] query).map Outcome.seen := by
  have argument : readChoices ["--", query] = .ok { query := some query } := rfl
  have nothing : readChoices [] = .ok {} := rfl
  obtain ⟨count, shape, last⟩ := readInput_trims query
  have asks : Asks {} query (readInput query) := .input count rfl shape last
  rw [run_seen view environment input argument rfl rfl loads (.argument rfl),
    run_seen view environment query nothing rfl rfl loads asks]
  apply answer_congr unlimited
  rw [Query.toOption_compile, Query.toOption_compile, gist_readInput]

/-- After two dashes neither an empty argument nor one that looks like an option is taken for
something else. -/
theorem option_like_run_argument_eq_run_input :
    let view : Files.View := fun _ => .error .missing
    ({} : Sources).load view [] = .ok (.ok ⟨2, 0⟩) ∧
    (run view [] ["--", "--tree\r\n"] "").map Outcome.seen =
      (run view [] [] "--tree\r\n").map Outcome.seen ∧
    (run view [] ["--", ""] "a").map Outcome.seen = (run view [] [] "").map Outcome.seen := by
  intro view
  have loads : ({} : Sources).load view [] = .ok (.ok ⟨2, 0⟩) := by decide +kernel
  have same := run_argument_eq_run_input view [] loads rfl
  exact ⟨loads, same "--tree\r\n" "", same "" "a"⟩

end Command.Compile

end BoolQuery
