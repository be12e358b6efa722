import BoolQuery.Proofs.Command.Compilation
import BoolQuery.Proofs.Config.Breakdowns
import BoolQuery.Session

/-! How problems with the sources surface.

Loading is behind every entry but one to set things up, and each entry tells of a problem in its
own way. What stops the loading stops the entry, and nothing else does: `sources_inform`.
-/

set_option autoImplicit false

namespace BoolQuery

open Config (Breakdown Choice Digestible Distinct Legible LoadError Settings Source Texts)

/-- What the tasks of the command for the configuration make of it. -/
def Command.Configure.Task.report (task : Task) (result : Except Config.Problem Settings) :
    Outcome :=
  match task with
  | .show => showSettings result
  | .doctor => checkSettings result

theorem Command.Configure.Task.exit_report (task : Task)
    (result : Except Config.Problem Settings) :
    (task.report result).exit = 0 ∨ (task.report result).exit = 1 := by
  cases result with
  | ok settings => cases task <;> exact .inl rfl
  | error problem => cases task <;> exact .inr rfl

namespace Session

/-! ## One step -/

section

variable {session : Session} {choice : Choice} {loaded : Except LoadError Settings}
  (loads : session.load choice = loaded)

include loads

theorem step_doctor :
    session.step (.doctor choice) = (session, checked (Config.separate loaded)) := by
  simp only [step, loads]

theorem step_configure {arguments : List String} {choices : Command.Configure.Choices}
    (parsed : Command.Configure.readChoices arguments = .ok choices)
    (chosen : choices.sources.choice = .ok choice) {task : Command.Configure.Task}
    (given : choices.task = some task) :
    session.step (.configure arguments) = (session, outcome
      (((Config.separate loaded).mapError .config).map task.report)) := by
  simp only [step, Command.Configure.run, parsed, given]
  rw [Command.Sources.load_of_load chosen loads]
  cases task <;> rfl

end

/-! ## Problems and breakdowns -/

/-- Each entry ends in the settings, or tells of a problem with them. -/
structure Informs (session : Session) (choice : Choice) : Prop where
  load : (∃ settings, session.load choice = .ok settings) ∨
    ∃ problem, session.load choice = .error (.problem problem)
  doctor : ∃ checkup, session.step (.doctor choice) = (session, .ok (.checkup checkup))
  configure : ∀ arguments choices, Command.Configure.readChoices arguments = .ok choices →
    choices.task ≠ none → choices.sources.choice = .ok choice →
    ∃ outcome, session.step (.configure arguments) = (session, .ok (.outcome outcome)) ∧
      (outcome.exit = 0 ∨ outcome.exit = 1)
  compile : ∀ arguments input choices problem,
    Command.Compile.readChoices arguments = .ok choices → choices.level ≠ none →
    choices.sources.choice = .ok choice → session.load choice = .error (.problem problem) →
    ∃ outcome, session.step (.compile arguments input) = (session, .ok (.outcome outcome)) ∧
      outcome.exit = 2

/-- Each entry breaks down. -/
structure Collapses (session : Session) (choice : Choice) (breakdown : Breakdown) : Prop where
  load : session.load choice = .error (.breakdown breakdown)
  doctor : session.step (.doctor choice) = (session, .error (.load (.breakdown breakdown)))
  configure : ∀ arguments choices, Command.Configure.readChoices arguments = .ok choices →
    choices.task ≠ none → choices.sources.choice = .ok choice →
    session.step (.configure arguments) = (session, .error (.command (.config breakdown)))
  compile : ∀ arguments input choices,
    Command.Compile.readChoices arguments = .ok choices → choices.level ≠ none →
    choices.sources.choice = .ok choice →
    session.step (.compile arguments input) = (session, .error (.command (.config breakdown)))

section

variable {session : Session} {choice : Choice}

theorem informs_of_load
    (ends : (∃ settings, session.load choice = .ok settings) ∨
      ∃ problem, session.load choice = .error (.problem problem)) :
    Informs session choice := by
  have ⟨result, same⟩ : ∃ result, Config.separate (session.load choice) = .ok result := by
    obtain ⟨settings, loaded⟩ | ⟨problem, failed⟩ := ends
    · exact ⟨.ok settings, by rw [loaded, Config.separate]⟩
    · exact ⟨.error problem, by rw [failed, Config.separate]⟩
  refine ⟨ends, ?_, ?_, ?_⟩
  · rw [step_doctor rfl, same]
    exact ⟨_, rfl⟩
  · intro arguments choices parsed given chosen
    obtain ⟨task, given⟩ := Option.ne_none_iff_exists'.mp given
    rw [step_configure rfl parsed chosen given, same]
    exact ⟨_, rfl, task.exit_report result⟩
  · intro arguments input choices problem parsed leveled chosen failed
    obtain ⟨level, leveled⟩ := Option.ne_none_iff_exists'.mp leveled
    have loaded := Command.Sources.load_of_load chosen failed
    simp only [step]
    rw [Command.Compile.run_eq _ _ input parsed leveled loaded]
    exact ⟨_, rfl, rfl⟩

theorem collapses_of_breakdown {breakdown : Breakdown}
    (loads : session.load choice = .error (.breakdown breakdown)) :
    Collapses session choice breakdown where
  load := loads
  doctor := step_doctor loads
  configure := by
    intro arguments choices parsed given chosen
    obtain ⟨task, given⟩ := Option.ne_none_iff_exists'.mp given
    exact step_configure loads parsed chosen given
  compile := by
    intro arguments input choices parsed leveled chosen
    obtain ⟨level, leveled⟩ := Option.ne_none_iff_exists'.mp leveled
    have stops := Command.Sources.load_of_load chosen loads
    simp only [step]
    rw [Command.Compile.run_of_breakdown _ _ input parsed leveled stops]
    rfl

end

/-- Files that hold text, and variables, end in settings or in a problem that every entry tells
of, unless there is something in the configuration file that cannot be taken in. In a moderate
text there is nothing of that kind. -/
theorem sources_inform (session : Session) (choice : Choice)
    (env : Legible session.store.read
      (Source.envFile.resolve choice.envFile session.environment))
    (config : Legible session.store.read
      (Source.configFile.resolve choice.configFile session.environment))
    (distinct : Distinct (choice.bindings.getD session.environment.toMembers))
    (texts : Texts (choice.bindings.getD session.environment.toMembers)) :
    (Digestible session.store.read session.environment choice → Informs session choice) ∧
    (¬ Digestible session.store.read session.environment choice →
      Collapses session choice .oversized ∨ Collapses session choice .tooDeep) ∧
    ((∀ text, session.store.read
        (Source.configFile.resolve choice.configFile session.environment) = .ok (some text) →
        Toml.Moderate text.toList) → Informs session choice) := by
  have informs (digestible : Digestible session.store.read session.environment choice) :
      Informs session choice :=
    informs_of_load (Config.load_of_digestible distinct texts env config digestible)
  refine ⟨informs, ?_, fun moderate => informs (Config.digestible_of_moderate moderate)⟩
  intro indigestible
  obtain long | deep := Config.load_of_not_digestible distinct texts indigestible
  · exact .inl (collapses_of_breakdown long)
  · exact .inr (collapses_of_breakdown deep)

/-- A variable that is no number is told of along with a hexadecimal number in the file. -/
theorem wrong_variable_sources_inform :
    let session : Session :=
      { store := (Files.Store.empty.write (.ofText "default.toml")
          (.file (some "[limits]\nmax_query_length = 0x10\n"))).1
        environment := [("QUERY_COMPILER_OUTPUT_INDENT", "many")] }
    Informs session {} ∧ session.load {} = .error (.problem (.invalid [.outputIndent])) := by
  intro session
  have env : Legible session.store.read (Source.envFile.resolve none session.environment) :=
    ⟨by decide +kernel, by decide +kernel⟩
  have held : session.store.read (Source.configFile.resolve none session.environment) =
      .ok (some "[limits]\nmax_query_length = 0x10\n") := by decide +kernel
  have config : Legible session.store.read
      (Source.configFile.resolve none session.environment) := by
    rw [Legible, held]
    exact ⟨nofun, nofun⟩
  have distinct : Distinct session.environment.toMembers := List.pairwise_singleton _ _
  refine ⟨?_, by decide +kernel⟩
  apply (sources_inform session {} env config distinct (Config.texts_toMembers _)).2.2
  intro text found
  have same : some "[limits]\nmax_query_length = 0x10\n" = some text :=
    Except.ok.inj (held.symm.trans found)
  cases same
  exact Toml.moderate_of_length (by decide)

end Session

end BoolQuery
