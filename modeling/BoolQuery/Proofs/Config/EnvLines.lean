import BoolQuery.Proofs.Config.EnvRows

/-! Files of rows that say something and rows that say nothing.

A row binds a name to a quoted value, or it is blank, a comment or has no equals sign; either way
the reader takes from it what it says: `Gives.readBinding?`. A file of such rows gives every name
that a row binds the value of the last of them, and no other name a value: `loadEnvFile_gives`.
-/

set_option autoImplicit false

namespace BoolQuery.Config

open Files (Path View)
open Text (Unbroken isSpace)

/-! ## Rows -/

/-- What a row says: the value of a name, which stands between two equal quotes, or nothing. Blanks
may stand around the name and around the quotes, and the word export before the name. -/
inductive Gives : List Char → Option (String × String) → Prop where
  | binding (exported : Bool) {name value lead gap gap' trail : List Char} {quote : Char} :
    Bindable name → IsQuote quote →
    (∀ c ∈ lead ++ gap ++ gap' ++ trail, isSpace c = true) →
    Gives (lead ++ (exportPart exported ++
        (name ++ (gap ++ '=' :: (gap' ++ quote :: (value ++ [quote])))) ++ trail))
      (some (String.ofList name, String.ofList value))
  | blank {row : List Char} : (∀ c ∈ row, isSpace c = true) → Gives row none
  | comment {lead text : List Char} :
    (∀ c ∈ lead, isSpace c = true) → Gives (lead ++ '#' :: text) none
  | undivided {row : List Char} : '=' ∉ row → Gives row none

theorem trimmed_quoted {quote : Char} (mark : IsQuote quote) (value : List Char) :
    Text.Trimmed isSpace (quote :: (value ++ [quote])) := by
  have solid : isSpace quote = false := by
    obtain rfl | rfl := mark <;> rfl
  constructor
  · rintro _ ⟨⟩
    exact solid
  · rw [← List.cons_append, List.getLast?_concat]
    rintro _ ⟨⟩
    exact solid

theorem readBinding?_blank {row : List Char} (blank : ∀ c ∈ row, isSpace c = true) :
    readBinding? row = none := by
  have nothing : Text.trim row = [] := by
    rw [Text.trim, Text.trimWhile, List.dropWhile_eq_nil_iff.mpr blank]
    rfl
  rw [readBinding?, nothing]
  rfl

theorem readBinding?_comment {lead : List Char} (blank : ∀ c ∈ lead, isSpace c = true)
    (text : List Char) : readBinding? (lead ++ '#' :: text) = none := by
  have kept : Text.trim (lead ++ '#' :: text) = '#' :: Text.trimEndWhile isSpace text := by
    rw [Text.trim, Text.trimWhile, List.dropWhile_append_of_pos blank,
      List.dropWhile_cons_of_neg (by decide), Text.trimEndWhile_cons (by decide)]
  rw [readBinding?, kept]
  rfl

theorem readBinding?_undivided {row : List Char} (undivided : '=' ∉ row) :
    readBinding? row = none := by
  have uncut (line : List Char) (sublist : line.Sublist row) :
      line.dropWhile (· != '=') = [] := by
    rw [List.dropWhile_eq_nil_iff]
    intro c inside
    rw [bne_iff_ne]
    rintro rfl
    exact undivided (sublist.subset inside)
  have trimmed : (Text.trim row).Sublist row := Text.trimWhile_sublist isSpace row
  rw [readBinding?]
  split
  · rfl
  · split
    · simp only [uncut _ ((List.drop_sublist _ _).trans trimmed)]
    · simp only [uncut _ trimmed]

theorem Gives.readBinding? {row : List Char} {binding : Option (String × String)}
    (gives : Gives row binding) : readBinding? row = binding := by
  cases gives with
  | binding exported bindable mark blank =>
    simp only [List.forall_mem_append] at blank
    obtain ⟨⟨⟨before, apart⟩, apart'⟩, after⟩ := blank
    rw [bindable.readBinding? exported before apart apart' after (List.cons_ne_nil _ _)
      (trimmed_quoted mark _), unquote_between mark]
  | blank blank => exact readBinding?_blank blank
  | comment blank => exact readBinding?_comment blank _
  | undivided undivided => exact readBinding?_undivided undivided

/-! ## Files -/

theorem Environment.mem_iff_lookup {environment : Environment}
    (distinct : (environment.map Prod.fst).Nodup) {name value : String} :
    (name, value) ∈ environment ↔ environment.lookup name = some value :=
  (lookup_eq_some_iff_mem distinct).symm

/-- A name has the value of its last binding. -/
theorem lookup_reverse_eq_some_iff {bindings : List (String × String)} {name value : String} :
    bindings.reverse.lookup name = some value ↔
      ∃ before since, bindings = before ++ (name, value) :: since ∧ name ∉ since.map Prod.fst := by
  rw [List.lookup_eq_some_iff]
  constructor
  · rintro ⟨since, before, whole, others⟩
    refine ⟨before.reverse, since.reverse, ?_, ?_⟩
    · simpa using congrArg List.reverse whole
    · intro again
      obtain ⟨other, inside, rfl⟩ := List.mem_map.mp again
      simpa using others other (List.mem_reverse.mp inside)
  · rintro ⟨before, since, rfl, others⟩
    refine ⟨since.reverse, before.reverse, by simp, ?_⟩
    intro other inside
    rw [bne_iff_ne]
    rintro rfl
    exact others (List.mem_map_of_mem (List.mem_reverse.mp inside))

theorem nodup_names_readEnvFile (text : String) : ((readEnvFile text).map Prod.fst).Nodup := by
  have distinct := distinct_readEnvFile text
  rwa [Distinct, Environment.toMembers, List.map_map] at distinct

/-- A file of rows, joined by line feeds, gives each name that a row binds the value of the last row
that does, and binds no other name. -/
theorem loadEnvFile_gives {rows : List (List Char × Option (String × String))}
    (gives : ∀ row ∈ rows, Unbroken row.1 ∧ Gives row.1 row.2) {view : View} {path : Path}
    (found : view path = .ok (some (String.ofList (['\n'].intercalate (rows.map Prod.fst))))) :
    ∃ environment, loadEnvFile view path = .ok environment ∧
      (environment.map Prod.fst).Nodup ∧
      ∀ name value, (name, value) ∈ environment ↔
        ∃ before since, rows.filterMap Prod.snd = before ++ (name, value) :: since ∧
          name ∉ since.map Prod.fst := by
  have distinct := nodup_names_readEnvFile (String.ofList (['\n'].intercalate (rows.map Prod.fst)))
  refine ⟨_, by rw [loadEnvFile, Source.read, found]; rfl, distinct, fun name value => ?_⟩
  have bindings : (rows.map Prod.fst).filterMap readBinding? = rows.filterMap Prod.snd := by
    rw [List.filterMap_map]
    exact List.filterMap_congr fun row member => (gives row member).2.readBinding?
  have unbroken : ∀ row ∈ rows.map Prod.fst, Unbroken row := by
    intro row member
    obtain ⟨row, inside, rfl⟩ := List.mem_map.mp member
    exact (gives row inside).1
  rw [← lookup_reverse_eq_some_iff, ← bindings]
  cases rows with
  | nil => simp [readEnvFile, Text.lines, Text.splitWhere, Text.normalizeEnds]
  | cons row rows =>
    have nonempty : (row :: rows).map Prod.fst ≠ [] := by simp
    rw [← lookup_readEnvFile nonempty unbroken]
    exact Environment.mem_iff_lookup distinct

/-- The second of two rows for a name counts, and quotes within its quotes stay. -/
theorem repeated_name_loadEnvFile_gives :
    let path := Path.ofText "default.env"
    let view : View := fun _ =>
      .ok (some "# k='c'\nexport k = \"a=b\"\n\n\tk='\"# ' \nalone")
    ∃ environment, loadEnvFile view path = .ok environment ∧
      (environment.map Prod.fst).Nodup ∧ ("k", "\"# ") ∈ environment := by
  intro path view
  let rows : List (List Char × Option (String × String)) :=
    [("# k='c'".toList, none), ("export k = \"a=b\"".toList, some ("k", "a=b")), ([], none),
      ("\tk='\"# ' ".toList, some ("k", "\"# ")), ("alone".toList, none)]
  have bindable : Bindable ['k'] :=
    ⟨by decide, by simp, ⟨by rintro _ ⟨⟩; rfl, by rintro _ ⟨⟩; rfl⟩, by simp, by decide, by decide⟩
  have first : Gives "export k = \"a=b\"".toList (some ("k", "a=b")) :=
    @Gives.binding true ['k'] ['a', '=', 'b'] [] [' '] [' '] [] '"' bindable (.inr rfl)
      (List.all_eq_true.mp (by decide))
  have second : Gives "\tk='\"# ' ".toList (some ("k", "\"# ")) :=
    @Gives.binding false ['k'] ['"', '#', ' '] ['\t'] [] [] [' '] '\x27' bindable (.inl rfl)
      (List.all_eq_true.mp (by decide))
  have gives : ∀ row ∈ rows, Unbroken row.1 ∧ Gives row.1 row.2 := by
    simp only [rows, List.forall_mem_cons]
    refine ⟨⟨?_, @Gives.comment [] _ (List.forall_mem_nil _)⟩, ⟨?_, first⟩,
      ⟨?_, .blank (List.forall_mem_nil _)⟩, ⟨?_, second⟩, ⟨?_, .undivided (by decide)⟩,
      List.forall_mem_nil _⟩ <;> exact Text.unbroken_of_all (by decide)
  obtain ⟨environment, loaded, distinct, bound⟩ := @loadEnvFile_gives rows gives view path rfl
  exact ⟨environment, loaded, distinct, (bound _ _).mpr ⟨[("k", "a=b")], [], rfl, by simp⟩⟩

end BoolQuery.Config
