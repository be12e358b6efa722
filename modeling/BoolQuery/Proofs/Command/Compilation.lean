import BoolQuery.Command.Compile
import BoolQuery.Proofs.Query.Printing
import Mathlib.Data.List.DropRight

/-! What the command that compiles a query leaves behind.

While the log goes to the standard error nothing but the document reaches the standard output, so
neither the options of the log nor the outline are seen there: `run_seen`. The exit code and the
standard output follow the settings and the query: `run_fulfils`.
-/

set_option autoImplicit false

namespace BoolQuery.Command

open Log (Stream)

/-! ## What goes to a stream -/

theorem textOf_append (stream : Stream) (written others : List (Stream × String)) :
    textOf stream (written ++ others) = textOf stream written ++ textOf stream others := by
  simp [textOf, String.join_append]

/-- Nothing is written to the standard output. -/
def Quiet (written : List (Stream × String)) : Prop := ∀ part ∈ written, part.1 = .err

theorem Quiet.textOf_out {written : List (Stream × String)} (quiet : Quiet written) :
    textOf .out written = "" := by
  have none : written.filter (fun part => part.1 == Stream.out) = [] := by
    rw [List.filter_eq_nil_iff]
    intro part member
    simp [quiet part member]
  rw [textOf, none]
  rfl

theorem Quiet.append {written others : List (Stream × String)} (quiet : Quiet written)
    (quiet' : Quiet others) : Quiet (written ++ others) :=
  List.forall_mem_append.mpr ⟨quiet, quiet'⟩

theorem quiet_line (text : String) : Quiet [(.err, text)] := by
  simp [Quiet]

/-- What the caller of a command sees, apart from what it is told on the standard error. -/
def Outcome.seen (outcome : Outcome) : Nat × String := (outcome.exit, outcome.out)

theorem Quiet.seen {written : List (Stream × String)} (quiet : Quiet written) (exit : Nat) :
    (Outcome.ofWritten exit written).seen = (exit, "") := by
  rw [Outcome.seen, Outcome.ofWritten, quiet.textOf_out]

namespace Compile

open Config (Environment Problem Settings)
open Query (Document)

theorem quiet_logged (level : Int) (layout : Log.Layout) (record : Log.Record) :
    Quiet (logged ⟨level, Log.handlers layout .err⟩ record) := by
  intro part member
  unfold logged Log.Router.emit at member
  split at member
  next lines emitted =>
    split at emitted
    · cases emitted
      cases member
    · split at emitted
      · cases emitted
      · cases emitted
        obtain ⟨handler, accepted, written⟩ := List.mem_filterMap.mp member
        have sole : handler.stream = .err := by
          have known := List.mem_of_mem_filter accepted
          rw [Log.handlers, List.mem_singleton] at known
          rw [known]
        simp only [Option.bind_eq_bind, Option.bind_eq_some_iff, Option.some.injEq] at written
        obtain ⟨entry, -, line, -, rfl⟩ := written
        exact sole
  next => cases member

theorem quiet_flatMap_logged (level : Int) (layout : Log.Layout) (events : List Query.Event) :
    Quiet (events.flatMap fun event =>
      logged ⟨level, Log.handlers layout .err⟩ event.record) := by
  intro part member
  obtain ⟨event, -, inside⟩ := List.mem_flatMap.mp member
  exact quiet_logged level layout event.record part inside

theorem admits_iff (limit length : Nat) :
    Config.admits limit length = true ↔ ¬ (0 < limit ∧ limit < length) := by
  simp only [Config.admits, Config.unlimited, Bool.or_eq_true, beq_iff_eq, decide_eq_true_eq]
  omega

/-! ## The query -/

theorem trimEndWhile_eq_iff {c : Char} {text front : List Char} :
    Text.trimEndWhile (· == c) text = front ↔
      (∃ count, text = front ++ List.replicate count c) ∧ front.getLast? ≠ some c := by
  rw [show Text.trimEndWhile (· == c) text = text.rdropWhile (· == c) from rfl]
  constructor
  · rintro rfl
    constructor
    · refine ⟨(text.rtakeWhile (· == c)).length, ?_⟩
      have row : text.rtakeWhile (· == c) =
          List.replicate (text.rtakeWhile (· == c)).length c := by
        refine List.eq_replicate_of_mem fun d member => ?_
        simpa using List.mem_rtakeWhile_imp member
      rw [← row, List.rdropWhile_append_rtakeWhile]
    · intro last
      obtain ⟨nonempty, final⟩ := List.mem_getLast?_eq_getLast last
      exact List.rdropWhile_last_not _ _ nonempty (by simp [← final])
  · rintro ⟨⟨count, rfl⟩, last⟩
    induction count with
    | zero =>
      rw [List.replicate_zero, List.append_nil, List.rdropWhile_eq_self_iff]
      intro nonempty final
      apply last
      rw [List.getLast?_eq_some_getLast nonempty]
      simpa using final
    | succ count ih =>
      rw [List.replicate_succ', ← List.append_assoc, List.rdropWhile_concat_pos _ _ _ (by simp), ih]

/-- The query of a command line: its argument, or without one what stands on the standard input
before the line ends that close it. -/
inductive Asks (choices : Choices) (input query : String) : Prop where
  | argument : choices.query = some query → Asks choices input query
  | input (count : Nat) : choices.query = none →
      Text.normalizeEnds input.toList = query.toList ++ List.replicate count '\n' →
      query.toList.getLast? ≠ some '\n' → Asks choices input query

theorem Asks.getD_eq {choices : Choices} {input query : String}
    (asks : Asks choices input query) : choices.query.getD (readInput input) = query := by
  cases asks with
  | argument given => rw [given, Option.getD_some]
  | input count missing shape last =>
    have trimmed := trimEndWhile_eq_iff.mpr ⟨⟨count, shape⟩, last⟩
    rw [missing, Option.getD_none, readInput, trimmed, String.ofList_toList]

/-! ## The outcome -/

/-- What is seen of the command, once its options are read and its sources are loaded. -/
def answer (indent : Option Nat) (query : String) :
    Except Problem Settings → Except Breakdown (Nat × String)
  | .error _ => .ok (exitConfigError, "")
  | .ok settings =>
    if 0 < settings.maxQueryLength ∧ settings.maxQueryLength < query.length then
      .ok (exitInputError, "")
    else match Query.compile query with
      | .error _ => .ok (exitInputError, "")
      | .ok document =>
        match Json.writeIndented (indent.getD settings.indent) document.toData with
        | .error cause => .error (.excess cause)
        | .ok text => .ok (exitOk, text ++ "\n")

theorem compileQuery_seen (level : Int) (choices : Choices) (settings : Settings)
    (query : String) :
    (compileQuery ⟨level, Log.handlers choices.layout .err⟩ choices settings query).map
      Outcome.seen = answer choices.indent query (.ok settings) := by
  have ready := quiet_logged level choices.layout readyRecord
  rw [compileQuery, answer]
  by_cases long : 0 < settings.maxQueryLength ∧ settings.maxQueryLength < query.length
  · have refused : Config.admits settings.maxQueryLength query.length = false := by
      rw [← Bool.not_eq_true, admits_iff, not_not]
      exact long
    rw [if_pos long, refused]
    exact congrArg Except.ok ((ready.append (quiet_logged _ _ _)).seen _)
  · have admitted := (admits_iff settings.maxQueryLength query.length).mpr long
    have traced := quiet_flatMap_logged level choices.layout (Query.trace query)
    rw [if_neg long, admitted, Query.compile]
    cases Query.Tree.read query with
    | error failure =>
      have failed := quiet_logged level choices.layout (failureRecord failure)
      exact congrArg Except.ok
        ((((ready.append traced).append failed).append (quiet_line _)).seen _)
    | ok tree =>
      have outlined : Quiet (if choices.tree then [(Stream.err, tree.outline ++ "\n")] else []) := by
        split
        · exact quiet_line _
        · exact List.forall_mem_nil _
      have before := ((ready.append outlined).append traced).textOf_out
      simp only [Except.map]
      cases Json.writeIndented (choices.indent.getD settings.indent) tree.document.toData with
      | error cause => rfl
      | ok text =>
        refine congrArg Except.ok (congrArg (exitOk, ·) ?_)
        have last : textOf .out [(.out, text ++ "\n")] = text ++ "\n" := by
          simp [textOf]
        simp only [Outcome.ofWritten]
        rw [textOf_append, before, last, String.empty_append]

theorem Choices.router_eq (choices : Choices) {level : Log.Level}
    (leveled : choices.level = some level) :
    choices.router = .ok ⟨level.number, Log.handlers choices.layout choices.destination⟩ := by
  rw [router, leveled]

section

variable (view : Files.View) (environment : Environment) {arguments : List String} (input : String)
  {choices : Choices} (parsed : readChoices arguments = .ok choices)

include parsed

theorem run_eq {level : Log.Level} (leveled : choices.level = some level)
    {loaded : Except Problem Settings}
    (loads : choices.sources.load view environment = .ok loaded) :
    let router : Log.Router := ⟨level.number, Log.handlers choices.layout choices.destination⟩
    run view environment arguments input = match loaded with
      | .error problem => .ok (.ofWritten exitConfigError (logged router (problemRecord problem)))
      | .ok settings =>
        compileQuery router choices settings (choices.query.getD (readInput input)) := by
  rw [run, parsed]
  simp only [choices.router_eq leveled, loads, bind, Except.bind]
  cases loaded <;> rfl

/-- What stops the loading stops the command. -/
theorem run_of_breakdown {level : Log.Level} (leveled : choices.level = some level)
    {cause : Breakdown} (stops : choices.sources.load view environment = .error cause) :
    run view environment arguments input = .error cause := by
  rw [run, parsed]
  simp only [choices.router_eq leveled, stops, bind, Except.bind]

/-- Without a value for the level the command breaks down before it loads anything. -/
theorem run_of_no_level (unleveled : choices.level = none) :
    run view environment arguments input = .error .noLevel := by
  have unrouted : choices.router = .error .noLevel := by rw [Choices.router, unleveled]
  rw [run, parsed]
  simp only [unrouted, bind, Except.bind]

theorem run_seen {level : Log.Level} {query : String} {loaded : Except Problem Settings}
    (leveled : choices.level = some level) (diverted : choices.destination = .err)
    (loads : choices.sources.load view environment = .ok loaded)
    (asks : Asks choices input query) :
    (run view environment arguments input).map Outcome.seen =
      answer choices.indent query loaded := by
  rw [run_eq view environment input parsed leveled loads, diverted, asks.getD_eq]
  cases loaded with
  | error problem => exact congrArg Except.ok ((quiet_logged _ _ _).seen _)
  | ok settings => exact compileQuery_seen level.number choices settings query

end

/-- A query that is refused: it is longer than the settings allow, or cannot be read. -/
def Refuses (settings : Settings) (query : String) : Prop :=
  0 < settings.maxQueryLength ∧ settings.maxQueryLength < query.length ∨
    ∃ failure, Query.Tree.read query = .error failure

/-- There are more blanks in the text of a document than can be made. -/
def Overflows (document : Document) (indent : Nat) : Prop :=
  Text.room < indent ∨ Text.room < (Json.Layout.ofIndent indent).filling document.toData

/-- A problem with the settings and a query that is refused leave the standard output empty; else
it holds the document, at the indent of the command line or, without one, of the settings. -/
structure Fulfils (indent : Option Nat) (query : String) (loaded : Except Problem Settings)
    (result : Except Breakdown Outcome) : Prop where
  misconfigured : ∀ problem, loaded = .error problem → ∃ err, result = .ok ⟨2, "", err⟩
  refused : ∀ settings, loaded = .ok settings → Refuses settings query →
    ∃ err, result = .ok ⟨1, "", err⟩
  compiled : ∀ settings, loaded = .ok settings → ¬ Refuses settings query →
    ∃ document, Query.compile query = .ok document ∧
      ((∃ err, result = .ok ⟨0, document.text (indent.getD settings.indent) ++ "\n", err⟩) ∨
        Overflows document (indent.getD settings.indent) ∧
          ∃ cause, result = .error (.excess cause))

theorem exists_of_seen {result : Except Breakdown Outcome} {exit : Nat} {out : String}
    (seen : result.map Outcome.seen = .ok (exit, out)) : ∃ err, result = .ok ⟨exit, out, err⟩ := by
  cases result with
  | error cause => cases seen
  | ok outcome =>
    cases seen
    exact ⟨outcome.err, rfl⟩

theorem error_of_seen {result : Except Breakdown Outcome} {cause : Breakdown}
    (seen : result.map Outcome.seen = .error cause) : result = .error cause := by
  cases result with
  | error cause =>
    cases seen
    rfl
  | ok outcome => cases seen

theorem overflows_of_error {indent : Nat} {document : Document} {cause : Text.Excess}
    (refused : Json.writeIndented indent document.toData = .error cause) :
    Overflows document indent := by
  refine Classical.byContradiction fun bounded => ?_
  obtain ⟨row, filling⟩ := not_or.mp bounded
  have least : Text.leastCount ≤ 0 := by decide
  have made : Json.writeIndented indent document.toData =
      .ok (Json.write (.ofIndent indent) document.toData) := by
    refine Json.writeIndented_eq_ok_iff.mpr ⟨?_, ?_, rfl⟩
    · exact (Text.checkRow_eq_ok_iff _).mpr ⟨by omega, by omega⟩
    · exact (Text.checkRow_eq_ok_iff _).mpr ⟨by omega, by omega⟩
  rw [made] at refused
  cases refused

theorem fulfils_of_seen {indent : Option Nat} {query : String} {loaded : Except Problem Settings}
    {result : Except Breakdown Outcome}
    (seen : result.map Outcome.seen = answer indent query loaded) :
    Fulfils indent query loaded result where
  misconfigured := by
    rintro problem rfl
    exact exists_of_seen seen
  refused := by
    rintro settings rfl refuses
    apply exists_of_seen
    rw [seen, answer]
    split
    next => rfl
    next short =>
      obtain ⟨failure, rejected⟩ := refuses.resolve_left short
      rw [Query.compile, rejected]
      rfl
  compiled := by
    rintro settings rfl accepts
    obtain ⟨short, readable⟩ := not_or.mp accepts
    rw [answer, if_neg short] at seen
    cases compiled : Query.compile query with
    | error failure =>
      cases rejected : Query.Tree.read query with
      | error failure => exact absurd ⟨failure, rejected⟩ readable
      | ok tree =>
        rw [Query.compile, rejected] at compiled
        cases compiled
    | ok document =>
      simp only [compiled] at seen
      refine ⟨document, rfl, ?_⟩
      cases written : Json.writeIndented (indent.getD settings.indent) document.toData with
      | error cause =>
        rw [written] at seen
        exact .inr ⟨overflows_of_error written, cause, error_of_seen seen⟩
      | ok text =>
        rw [written] at seen
        obtain ⟨-, -, rfl⟩ := Json.writeIndented_eq_ok_iff.mp written
        exact .inl (exists_of_seen seen)

end Compile

end BoolQuery.Command
