import BoolQuery.Log.Router
import Mathlib.Data.List.Nodup

/-! Where records go.

A request for a level puts in handlers that do not take one record twice, and of a destination
that splits by level each takes its own side of the split: `filter_accepts_of_leads`. Levels above
the information level and below the warning level lie on neither side, so records of these are
lost; all others that pass reach one stream once: `emit_routed`.
-/

set_option autoImplicit false

namespace BoolQuery.Log

/-! ## Levels that are asked for -/

/-- The names of levels, in capitals. -/
def levelNames : List (String × Level) :=
  [("CRITICAL", .critical), ("FATAL", .critical), ("ERROR", .error), ("WARNING", .warning),
   ("WARN", .warning), ("INFO", .info), ("DEBUG", .debug), ("NOTSET", .notSet)]

/-- A number asks for itself, and a name for its level in whatever case it is written. -/
inductive LevelRequest.Asks : LevelRequest → Int → Prop where
  | number (level : Int) : Asks (.number level) level
  | name {name : String} {level : Level} :
    (Text.capitals name, level) ∈ levelNames → Asks (.name name) level.number

/-- A name that no level has. -/
def LevelRequest.Unknown (request : LevelRequest) : Prop := ∀ level, ¬ request.Asks level

theorem ofName?_eq_some_iff {name : String} {level : Level} :
    Level.ofName? name = some level ↔ (Text.capitals name, level) ∈ levelNames := by
  rw [Level.ofName?]
  generalize Text.capitals name = capitals
  constructor
  · intro found
    obtain own | ⟨-, other⟩ := Option.or_eq_some_iff.mp found
    · have same := List.find?_some own
      rw [beq_iff_eq] at same
      subst same
      cases level <;> decide
    · obtain ⟨before, after, aliases, -⟩ := List.lookup_eq_some_iff.mp other
      have listed : (capitals, level) ∈ levelAliases := by simp [aliases]
      have included : levelAliases ⊆ levelNames := by decide
      exact included listed
  · intro listed
    simp only [levelNames, List.mem_cons, Prod.mk.injEq, List.not_mem_nil, or_false] at listed
    rcases listed with ⟨rfl, rfl⟩ | ⟨rfl, rfl⟩ | ⟨rfl, rfl⟩ | ⟨rfl, rfl⟩ | ⟨rfl, rfl⟩ | ⟨rfl, rfl⟩ |
      ⟨rfl, rfl⟩ | ⟨rfl, rfl⟩ <;> rfl

theorem LevelRequest.resolve_eq_ok_iff {request : LevelRequest} {level : Int} :
    request.resolve = .ok level ↔ request.Asks level := by
  cases request with
  | number asked =>
    constructor
    · rintro ⟨⟩
      exact .number _
    · rintro ⟨⟩
      rfl
  | name wanted =>
    constructor
    · intro resolved
      cases found : Level.ofName? wanted with
      | none => simp [resolve, found] at resolved
      | some known =>
        obtain rfl : known.number = level := by simpa [resolve, found] using resolved
        exact .name (ofName?_eq_some_iff.mp found)
    · rintro (_ | listed)
      rw [resolve, ofName?_eq_some_iff.mpr listed]

theorem LevelRequest.unknown_name_iff {wanted : String} :
    (name wanted).Unknown ↔ Level.ofName? wanted = none := by
  rw [Option.eq_none_iff_forall_ne_some]
  constructor
  · intro unknown level found
    exact unknown level.number (.name (ofName?_eq_some_iff.mp found))
  · rintro missing _ (_ | listed)
    exact missing _ (ofName?_eq_some_iff.mpr listed)

theorem LevelRequest.resolve_eq_error_iff {request : LevelRequest} {unknown : UnknownLevel} :
    request.resolve = .error unknown ↔ request = .name unknown.name ∧ request.Unknown := by
  cases request with
  | number asked =>
    constructor
    · rintro ⟨⟩
    · rintro ⟨⟨⟩, -⟩
  | name wanted =>
    rw [unknown_name_iff, resolve]
    cases Level.ofName? wanted with
    | some level => simp
    | none =>
      constructor
      · rintro ⟨⟩
        exact ⟨rfl, rfl⟩
      · rintro ⟨⟨⟩, -⟩
        rfl

/-! ## One request -/

theorem foldl_add (own : List Handler) (router : Router) :
    own.foldl Router.add router = { router with handlers := router.handlers ++ own } := by
  induction own generalizing router with
  | nil => rw [List.foldl_nil, List.append_nil]
  | cons handler own ih =>
    rw [List.foldl_cons, ih, Router.add, List.append_assoc, List.singleton_append]

/-- Nothing of the router is left but what the request says. -/
theorem configure_of_asks (router : Router) {request : Request} {level : Int}
    (asks : request.level.Asks level) :
    router.configure request = (⟨level, handlers request.layout request.destination⟩, none) := by
  rw [Router.configure, LevelRequest.resolve_eq_ok_iff.mpr asks]
  simp only [foldl_add, List.nil_append]

theorem configure_of_unknown (router : Router) {request : Request}
    (unknown : request.level.Unknown) :
    ∃ name, request.level = .name name ∧ router.configure request = (router, some ⟨name⟩) := by
  cases resolved : request.level.resolve with
  | ok level => exact absurd (LevelRequest.resolve_eq_ok_iff.mp resolved) (unknown level)
  | error other =>
    obtain ⟨asked, -⟩ := LevelRequest.resolve_eq_error_iff.mp resolved
    exact ⟨other.name, asked, by rw [Router.configure, resolved]⟩

theorem configure_succeeds_iff {router : Router} {request : Request} :
    (router.configure request).2 = none ↔ ¬ request.level.Unknown := by
  constructor
  · intro succeeds unknown
    obtain ⟨name, -, failed⟩ := configure_of_unknown router unknown
    rw [failed] at succeeds
    cases succeeds
  · intro known
    obtain ⟨level, asks⟩ := not_forall_not.mp known
    rw [configure_of_asks router asks]

/-- Only a name that no level has is refused, and it is told. -/
theorem configure_fails_iff {router : Router} {request : Request} {unknown : UnknownLevel} :
    (router.configure request).2 = some unknown ↔
      request.level = .name unknown.name ∧ request.level.Unknown := by
  rw [← LevelRequest.resolve_eq_error_iff, Router.configure]
  cases request.level.resolve <;> simp

theorem configure_eq_none {before after : Router} {request : Request}
    (configured : before.configure request = (after, none)) :
    request.level.Asks after.level ∧
      after.handlers = handlers request.layout request.destination := by
  have known := configure_succeeds_iff.mp (congrArg Prod.snd configured)
  obtain ⟨level, asks⟩ := not_forall_not.mp known
  rw [configure_of_asks before asks] at configured
  cases configured
  exact ⟨asks, rfl⟩

/-! ## Handlers -/

/-- The stream that a destination leads records of a level to. -/
inductive Destination.Leads : Destination → Int → Stream → Prop where
  | out (level : Int) : Leads .out level .out
  | err (level : Int) : Leads .err level .err
  | low {level : Int} : level ≤ Level.info.number → Leads .auto level .out
  | high {level : Int} : Level.warning.number ≤ level → Leads .auto level .err

/-- A level that lies on neither side of the split. -/
def Destination.Misses (destination : Destination) (level : Int) : Prop :=
  destination = .auto ∧ Level.info.number < level ∧ level < Level.warning.number

theorem Destination.existsUnique_leads_iff {destination : Destination} {level : Int} :
    (∃! stream, destination.Leads level stream) ↔ ¬ destination.Misses level := by
  constructor
  · rintro ⟨stream, leads, -⟩ ⟨rfl, above, below⟩
    cases leads with
    | low small => exact absurd small (by omega)
    | high large => exact absurd large (by omega)
  · intro covered
    cases destination with
    | out =>
      refine ⟨.out, .out level, ?_⟩
      rintro _ ⟨⟩
      rfl
    | err =>
      refine ⟨.err, .err level, ?_⟩
      rintro _ ⟨⟩
      rfl
    | auto =>
      have gap : Level.info.number < Level.warning.number := by decide
      by_cases small : level ≤ Level.info.number
      · refine ⟨.out, .low small, ?_⟩
        rintro _ (_ | _ | _ | large)
        · rfl
        · omega
      · have large : Level.warning.number ≤ level := by
          by_contra below
          exact covered ⟨rfl, by omega, by omega⟩
        refine ⟨.err, .high large, ?_⟩
        rintro _ (_ | _ | again | _)
        · omega
        · rfl

/-- The handlers that take a record of a level: one at its stream, or none at all. -/
theorem filter_accepts_of_leads {destination : Destination} {level : Int} {stream : Stream}
    (leads : destination.Leads level stream) (layout : Layout) :
    ∃ handler : Handler, handler.stream = stream ∧ handler.layout = layout ∧
      (handlers layout destination).filter (·.accepts level) = [handler] := by
  cases leads with
  | out => exact ⟨_, rfl, rfl, rfl⟩
  | err => exact ⟨_, rfl, rfl, rfl⟩
  | low small =>
    refine ⟨{ stream := .out, layout, greatest := some Level.info.number }, rfl, rfl, ?_⟩
    have apart : ¬ Level.warning.number ≤ level := by
      simp only [Level.number] at small ⊢
      omega
    simp [handlers, Handler.accepts, small, apart]
  | high large =>
    refine ⟨{ stream := .err, layout, least := some Level.warning.number }, rfl, rfl, ?_⟩
    have apart : ¬ level ≤ Level.info.number := by
      simp only [Level.number] at large ⊢
      omega
    simp [handlers, Handler.accepts, large, apart]

theorem filter_accepts_of_misses {destination : Destination} {level : Int}
    (misses : destination.Misses level) (layout : Layout) :
    (handlers layout destination).filter (·.accepts level) = [] := by
  obtain ⟨rfl, above, below⟩ := misses
  simp [handlers, Handler.accepts, above, below]

/-! ## Records -/

/-- No field of the record stands under a refused name. -/
def Record.Clear (record : Record) : Prop := ∀ field ∈ record.fields, field.1 ∉ refusedNames

/-- What a layout makes of a record, with a line end; none if it has no form for it. -/
def Record.line? (record : Record) (layout : Layout) : Option String :=
  record.entry?.bind fun entry => (layout.render? entry).map (· ++ "\n")

/-- The lines of a record that handlers have taken, each at the stream of its handler. -/
def Record.written (record : Record) (takers : List Handler) : List (Stream × String) :=
  takers.filterMap fun handler => (record.line? handler.layout).map (handler.stream, ·)

theorem emit_of_not_passes {router : Router} {record : Record}
    (held : router.passes record.level = false) : router.emit record = .ok [] := by
  rw [Router.emit, held]
  rfl

theorem emit_of_passes {router : Router} {record : Record} (clear : record.Clear)
    (passes : router.passes record.level = true) :
    router.emit record =
      .ok (record.written (router.handlers.filter (·.accepts record.level))) := by
  have unrefused : record.fields.find? (fun field => refusedNames.contains field.1) = none := by
    simpa [List.find?_eq_none, Record.Clear] using clear
  simp only [Router.emit, passes, unrefused, Bool.not_true, Bool.false_eq_true, if_false]
  congr 2
  funext handler
  simp [Record.line?, Option.map_eq_bind, Option.bind_assoc]

/-- A record that passes is written only if it is clear. -/
theorem clear_of_emit {router : Router} {record : Record} {lines : List (Stream × String)}
    (passes : router.passes record.level = true) (emitted : router.emit record = .ok lines) :
    record.Clear := by
  cases refused : record.fields.find? fun field => refusedNames.contains field.1 with
  | none => simpa [List.find?_eq_none, Record.Clear] using refused
  | some field =>
    simp only [Router.emit, passes, refused, Bool.not_true, Bool.false_eq_true, if_false] at emitted
    cases emitted

theorem Record.streams_written (record : Record) (takers : List Handler) :
    ((record.written takers).map Prod.fst).Sublist (takers.map Handler.stream) := by
  induction takers with
  | nil => exact List.Sublist.slnil
  | cons taker takers ih =>
    rw [written, List.filterMap_cons]
    cases record.line? taker.layout with
    | none => exact ih.cons _
    | some line => exact ih.cons_cons _

/-- Whatever is written goes to the streams of the handlers, once for each of them at most. -/
theorem streams_emit {router : Router} {record : Record} {lines : List (Stream × String)}
    (emitted : router.emit record = .ok lines) :
    (lines.map Prod.fst).Sublist (router.handlers.map Handler.stream) := by
  cases passes : router.passes record.level with
  | false =>
    rw [emit_of_not_passes passes] at emitted
    cases emitted
    exact List.nil_sublist _
  | true =>
    rw [emit_of_passes (clear_of_emit passes emitted) passes] at emitted
    cases emitted
    exact (record.streams_written _).trans (List.filter_sublist.map Handler.stream)

/-- A request sets the level that it asks for. From then on a record below it is written nowhere.
One from it on, with a positive level, is taken by a single handler and gives its line to the one
stream that the destination leads its level to, unless the level lies between the two sides of the
split: then it is lost. -/
theorem emit_routed {before after : Router} {request : Request}
    (configured : before.configure request = (after, none)) :
    request.level.Asks after.level ∧ ∀ record : Record, record.Clear →
      (record.level < after.level → after.emit record = .ok []) ∧
      (0 < record.level → after.level ≤ record.level →
        (∀ stream, request.destination.Leads record.level stream →
          (after.handlers.filter (·.accepts record.level)).map Handler.stream = [stream] ∧
          after.emit record =
            .ok ((record.line? request.layout).toList.map fun line => (stream, line))) ∧
        ((∃! stream, request.destination.Leads record.level stream) ↔
          ¬ request.destination.Misses record.level) ∧
        (request.destination.Misses record.level → after.emit record = .ok [])) := by
  obtain ⟨asks, own⟩ := configure_eq_none configured
  refine ⟨asks, fun record clear => ⟨?_, ?_⟩⟩
  · intro low
    apply emit_of_not_passes
    simp [Router.passes, low]
  · intro positive reaches
    have passes : after.passes record.level = true := by simp [Router.passes, positive, reaches]
    refine ⟨?_, Destination.existsUnique_leads_iff, ?_⟩
    · intro stream leads
      obtain ⟨handler, rfl, same, sole⟩ := filter_accepts_of_leads leads request.layout
      rw [emit_of_passes clear passes, own, sole]
      refine ⟨rfl, ?_⟩
      rw [← same, Record.written, List.filterMap_cons, List.filterMap_nil]
      cases record.line? handler.layout <;> rfl
    · intro misses
      rw [emit_of_passes clear passes, own, filter_accepts_of_misses misses]
      rfl

/-- A level without a name, above the split; a level within it is lost. -/
theorem unnamed_level_emit_routed :
    let before : Router := ⟨50, [{ stream := .out, layout := .json }]⟩
    let after := (before.configure { level := .name "Debug" }).1
    let record (level : Int) : Record := { logger := "app", level, message := "full" }
    after.emit (record 35) = .ok [(.err, "<time> | Level 35 | app | full\n")] ∧
      after.emit (record 25) = .ok [] ∧ after.emit (record 9) = .ok [] := by
  intro before after record
  have configured : before.configure { level := .name "Debug" } = (after, none) := rfl
  obtain ⟨-, routed⟩ := emit_routed configured
  have clear (level : Int) : (record level).Clear := List.forall_mem_nil _
  refine ⟨?_, ?_, (routed (record 9) (clear 9)).1 (by decide)⟩
  · obtain ⟨leads, -⟩ := (routed (record 35) (clear 35)).2 (by decide) (by decide)
    have told : (record 35).line? .text = some "<time> | Level 35 | app | full\n" := by
      decide +kernel
    obtain ⟨-, emitted⟩ := leads .err (.high (by decide))
    rwa [told] at emitted
  · obtain ⟨-, -, lost⟩ := (routed (record 25) (clear 25)).2 (by decide) (by decide)
    exact lost ⟨rfl, by decide, by decide⟩

end BoolQuery.Log
