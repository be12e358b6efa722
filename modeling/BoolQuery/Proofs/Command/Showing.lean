import BoolQuery.Command.Configure
import BoolQuery.Proofs.Config.Carriers
import BoolQuery.Proofs.Json.RoundTrip

/-! What the command shows of the settings.

The text that is shown holds the two numbers, and is the same whichever source carries them:
`show_carried`.
-/

set_option autoImplicit false

namespace BoolQuery

open Config (Carries Choice Environment Setting Settings Writing)
open Files (View)

theorem Config.Settings.exact_toData (settings : Settings) : Json.Exact settings.toData := by
  have field (name : String) (number : Nat) : Json.Exact (.object [(name, .int number)]) :=
    .object (List.pairwise_singleton _ _) fun entry member => by
      cases List.mem_singleton.mp member
      exact .int number
  refine .object (by simp only [List.map_cons, List.map_nil]; decide) fun entry member => ?_
  rw [List.mem_cons, List.mem_singleton] at member
  rcases member with rfl | rfl
  · exact field _ _
  · exact field _ _

/-- What is shown of the settings is JSON, and ends with a line end. -/
theorem Config.Settings.read_show (settings : Settings) :
    Json.read settings.show = some settings.toData := by
  have feed : Json.Gap ['\n'] := by simp [Json.Gap, Json.isGap]
  exact Json.read_write_append settings.exact_toData (.block 2) feed

namespace Command.Configure

theorem run_show (view : Files.View) (environment : Environment) {arguments : List String}
    {choices : Choices} {choice : Choice} {settings : Settings}
    (parsed : readChoices arguments = .ok choices) (task : choices.task = some .show)
    (chosen : choices.sources.choice = .ok choice)
    (loads : Config.load view environment choice = .ok settings) :
    run view environment arguments = .ok ⟨exitOk, settings.show, ""⟩ := by
  have loaded := Sources.load_of_load chosen loads
  simp only [run, parsed, task, loaded]
  rfl

/-- Whichever source carries two numbers that are short enough for a text, they are loaded as the
settings, and the command shows the same text, in which they stand. -/
theorem show_carried (indent length : Nat) (few : indent < Data.textBound)
    (few' : length < Data.textBound) :
    ∃ text, Json.read text = some (.object
      [("limits", .object [("max_query_length", .int length)]),
        ("output", .object [("indent", .int indent)])]) ∧
    ∀ view environment choice, Carries ⟨indent, length⟩ view environment choice →
      Config.load view environment choice = .ok ⟨indent, length⟩ ∧
      ∀ arguments choices, readChoices arguments = .ok choices → choices.task = some .show →
        choices.sources.choice = .ok choice →
        run view environment arguments = .ok ⟨0, text, ""⟩ := by
  have small : (⟨indent, length⟩ : Settings).Small := by
    intro setting
    cases setting with
    | outputIndent => exact few
    | maxQueryLength => exact few'
  refine ⟨(⟨indent, length⟩ : Settings).show, Settings.read_show _, ?_⟩
  intro view environment choice carried
  have loads := Config.load_carried small carried
  exact ⟨loads, fun arguments choices parsed task chosen =>
    run_show view environment parsed task chosen loads⟩

/-- Both files give the numbers in the other order, with different quotes. -/
theorem reordered_files_show_carried :
    let table : View := fun path =>
      if path = .ofText "default.toml" then
        .ok (some "[limits]\nmax_query_length = \x27120\x27\n[output]\nindent = 4\n")
      else .error .missing
    let rows : View := fun path =>
      if path = .ofText "default.env" then
        .ok (some "export QUERY_COMPILER_MAX_QUERY_LENGTH=\"120\"\nQUERY_COMPILER_OUTPUT_INDENT=4")
      else .error .missing
    ∃ text, run table [] ["show"] = .ok ⟨0, text, ""⟩ ∧
      run rows [] ["show"] = .ok ⟨0, text, ""⟩ := by
  intro table rows
  have silent : Config.SilentVariables [] := ⟨[], rfl, List.nodup_nil, fun _ => rfl⟩
  let writing (quoting : Setting → Text.Quoting) (ends : Nat) : Writing :=
    ⟨[.maxQueryLength, .outputIndent], by decide, quoting, ends⟩
  have carried : Carries ⟨4, 120⟩ table [] {} := by
    refine .configFile (writing (fun setting =>
      if setting = .outputIndent then .bare else .single) 1) (by decide +kernel) ?_ silent
    exact Config.silentEnvFile_of_missing (by decide +kernel)
  have carried' : Carries ⟨4, 120⟩ rows [] {} := by
    refine .envFile (writing (fun setting =>
      if setting = .outputIndent then .bare else .double) 0) (· == .maxQueryLength)
      (by decide +kernel) ?_ silent
    exact Config.silentTable_of_missing (by decide +kernel)
  obtain ⟨text, -, each⟩ := show_carried 4 120 (by decide +kernel) (by decide +kernel)
  have parsed : readChoices ["show"] = .ok { task := some .show } := by rfl
  exact ⟨text, (each table [] {} carried).2 ["show"] _ parsed rfl rfl,
    (each rows [] {} carried').2 ["show"] _ parsed rfl rfl⟩

end Command.Configure

end BoolQuery
