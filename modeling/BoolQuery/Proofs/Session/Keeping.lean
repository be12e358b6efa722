import BoolQuery.Session
import Mathlib.Control.Monad.Basic
import Mathlib.Tactic.Tauto

/-! What a session keeps.

Only two steps touch the kept configuration: one fills it, by a load that succeeds, and one
forgets it. So over a run it is the configuration that was last told and not forgotten since:
`kept_run`.
-/

set_option autoImplicit false

namespace BoolQuery.Session

open Config (Environment Settings)
open Files (Store)

/-- Steps of a run, each with its answer. -/
abbrev History := List (Step × Except Failure Answer)

def history (session : Session) (steps : List Step) : History := steps.zip (session.run steps).2

/-- A configuration was told, and nothing was forgotten since. -/
def Told (history : History) (settings : Settings) : Prop :=
  ∃ before since, history = before ++ (.settings, .ok (.settings settings)) :: since ∧
    .forget ∉ since.map Prod.fst

theorem not_told_nil (settings : Settings) : ¬ Told [] settings := by
  rintro ⟨before, since, same, -⟩
  simp at same

theorem told_cons (entry : Step × Except Failure Answer) (history : History)
    (settings : Settings) :
    Told (entry :: history) settings ↔
      (entry = (.settings, .ok (.settings settings)) ∧ .forget ∉ history.map Prod.fst) ∨
      Told history settings := by
  constructor
  · rintro ⟨before, since, same, lasting⟩
    rcases List.cons_eq_append_iff.mp same with ⟨-, here⟩ | ⟨before, -, later⟩
    · obtain ⟨rfl, rfl⟩ := List.cons.inj here
      exact .inl ⟨rfl, lasting⟩
    · exact .inr ⟨before, since, later, lasting⟩
  · rintro (⟨rfl, lasting⟩ | ⟨before, since, rfl, lasting⟩)
    · exact ⟨[], history, rfl, lasting⟩
    · exact ⟨entry :: before, since, rfl, lasting⟩

/-! ## One step -/

/-- A step that neither asks for the kept configuration nor forgets it does the same whatever is
kept, and leaves it. -/
theorem step_with_kept (session : Session) {step : Step} (asks : step ≠ .settings)
    (forgets : step ≠ .forget) (kept : Option Settings) :
    ({ session with kept }).step step =
      ({ (session.step step).1 with kept }, (session.step step).2) := by
  obtain ⟨store, environment, old⟩ := session
  cases step with
  | settings => exact absurd rfl asks
  | forget => exact absurd rfl forgets
  | remove path =>
    simp only [Session.step, remove]
    cases store.remove path <;> simp only
  | setVariable name value =>
    simp only [Session.step, setVariable]
    cases environment.set name value <;> simp only
  | write => simp only [Session.step, write]
  | load | doctor => simp only [Session.step, Session.load]
  | unsetVariable | readEnvFile | compile | configure => simp only [Session.step]

theorem step_settings_of_kept {session : Session} {settings : Settings}
    (kept : session.kept = some settings) :
    session.step .settings = (session, .ok (.settings settings)) := by
  simp only [step, Session.settings, kept, loaded]

/-- With nothing kept the configuration is loaded anew, and kept if that succeeds. -/
theorem step_settings_of_empty {session : Session} (empty : session.kept = none) :
    session.step .settings =
      ({ session with kept := (session.load {}).toOption }, (session.step (.load {})).2) := by
  simp only [step, Session.settings, empty]
  cases session.load {} with
  | ok settings => simp only [loaded, Except.toOption]
  | error error => simp only [loaded, Except.toOption, ← empty]

theorem kept_step (session : Session) (step : Step) (settings : Settings) :
    (session.step step).1.kept = some settings ↔
      (session.kept = some settings ∧ step ≠ .forget) ∨
      (step = .settings ∧ (session.step step).2 = .ok (.settings settings)) := by
  by_cases forgets : step = .forget
  · subst forgets
    simp [Session.step]
  by_cases asks : step = .settings
  · subst asks
    cases kept : session.kept with
    | some other =>
      rw [step_settings_of_kept kept]
      simp [kept]
    | none =>
      rw [step_settings_of_empty kept]
      simp only [Session.step]
      cases session.load {} <;> simp [loaded, Except.toOption]
  · have same := step_with_kept session asks forgets session.kept
    rw [same]
    simp [asks, forgets]

/-! ## Runs -/

theorem history_cons (session : Session) (step : Step) (steps : List Step) :
    session.history (step :: steps) =
      (step, (session.step step).2) :: (session.step step).1.history steps := rfl

theorem steps_history (session : Session) (steps : List Step) :
    (session.history steps).map Prod.fst = steps := by
  induction steps generalizing session with
  | nil => rfl
  | cons step steps ih => rw [history_cons, List.map_cons, ih]

theorem run_cons (session : Session) (step : Step) (steps : List Step) :
    (session.run (step :: steps)).1 = ((session.step step).1.run steps).1 := rfl

/-- After a run that configuration is kept which was told in it, or before it, and not forgotten
since. -/
theorem kept_run (session : Session) (steps : List Step) (settings : Settings) :
    (session.run steps).1.kept = some settings ↔
      (session.kept = some settings ∧ .forget ∉ steps) ∨ Told (session.history steps) settings := by
  induction steps generalizing session with
  | nil => simp [run, history, not_told_nil]
  | cons step steps ih =>
    rw [run_cons, ih, kept_step, history_cons, told_cons, steps_history]
    simp only [List.mem_cons, not_or, Prod.mk.injEq]
    tauto

/-- In any run that begins with nothing kept, a configuration that was told is told again until it
is forgotten, whatever becomes of its sources. -/
theorem settings_over_run (store : Store) (environment : Environment) (steps : List Step)
    {now : Session} {answers : List (Except Failure Answer)}
    (ran : ({ store, environment } : Session).run steps = (now, answers)) :
    (∀ settings, now.kept = some settings ↔ Told (steps.zip answers) settings) ∧
    (∀ settings, Told (steps.zip answers) settings →
      now.step .settings = (now, .ok (.settings settings))) ∧
    ((∀ settings, ¬ Told (steps.zip answers) settings) →
      now.step .settings =
        ({ now with kept := (now.load {}).toOption }, (now.step (.load {})).2)) ∧
    ∀ step, step ≠ .settings → step ≠ .forget → ∀ kept,
      ({ now with kept } : Session).step step =
        ({ (now.step step).1 with kept }, (now.step step).2) := by
  have keeps (settings : Settings) :
      now.kept = some settings ↔ Told (steps.zip answers) settings := by
    have kept := kept_run { store, environment } steps settings
    rw [history, ran] at kept
    simpa using kept
  refine ⟨keeps, ?_, ?_, ?_⟩
  · intro settings told
    exact step_settings_of_kept ((keeps settings).mpr told)
  · intro untold
    apply step_settings_of_empty
    rw [Option.eq_none_iff_forall_ne_some]
    intro settings kept
    exact untold settings ((keeps settings).mp kept)
  · intro step asks forgets kept
    exact step_with_kept now asks forgets kept

/-- A variable that has become invalid is seen by a load, but not where a configuration is kept. -/
theorem changed_variable_settings_over_run :
    let steps : List Step :=
      [.settings, .forget, .setVariable "QUERY_COMPILER_OUTPUT_INDENT" "4", .settings,
        .setVariable "QUERY_COMPILER_OUTPUT_INDENT" "x", .load {}]
    let now := (({} : Session).run steps).1
    (now.step (.load {})).2 = .error (.load (.problem (.invalid [.outputIndent]))) ∧
      now.step .settings = (now, .ok (.settings ⟨4, 0⟩)) := by
  intro steps now
  have answers : (({} : Session).run steps).2 =
      [.ok (.settings ⟨2, 0⟩), .ok .done, .ok .done, .ok (.settings ⟨4, 0⟩), .ok .done,
        .error (.load (.problem (.invalid [.outputIndent])))] := by
    decide +kernel
  have told : Told (steps.zip (({} : Session).run steps).2) ⟨4, 0⟩ := by
    rw [answers]
    exact ⟨[(.settings, .ok (.settings ⟨2, 0⟩)), (.forget, .ok .done),
      (.setVariable "QUERY_COMPILER_OUTPUT_INDENT" "4", .ok .done)], _, rfl, by simp⟩
  refine ⟨by decide +kernel, ?_⟩
  exact (settings_over_run .empty [] steps rfl).2.1 _ told

end BoolQuery.Session
