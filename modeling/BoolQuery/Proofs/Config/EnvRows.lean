import BoolQuery.Proofs.Config.Sources
import BoolQuery.Proofs.Text.Lines
import Mathlib.Data.List.Basic

/-! Rows of environment files, read back.

A row gives a name a value, which may stand between quotes, and the name may stand behind the word
export: `readBinding?_row`. A file of rows is read row by row, and the last row of a name counts:
`lookup_readEnvFile`.
-/

set_option autoImplicit false

namespace BoolQuery.Config

open Text (Quoting Trimmed Unbroken isSpace)

/-! ## Values -/

def IsQuote (c : Char) : Prop := c = '\x27' ∨ c = '"'

theorem unquote_between {quote : Char} (mark : IsQuote quote) (value : List Char) :
    unquote (quote :: (value ++ [quote])) = value := by
  have last : (value ++ [quote]).getLast? = some quote := by simp
  rw [unquote, if_pos ⟨mark, last⟩, List.dropLast_concat]

/-- Only a value that begins with a quote needs another pair of them. -/
theorem unquote_enclose {quoting : Quoting} {value : List Char}
    (plain : quoting = .bare → ∀ c ∈ value.head?, ¬ IsQuote c) :
    unquote (quoting.enclose value) = value := by
  cases quoting with
  | bare =>
    rw [Quoting.enclose, Quoting.mark, List.nil_append, List.append_nil]
    cases value with
    | nil => rfl
    | cons c value => exact if_neg fun quoted => plain rfl c rfl quoted.1
  | single => exact unquote_between (.inl rfl) value
  | double => exact unquote_between (.inr rfl) value

theorem trimmed_enclose {quoting : Quoting} {value : List Char}
    (trimmed : quoting = .bare → Trimmed isSpace value) :
    Trimmed isSpace (quoting.enclose value) := by
  cases quoting with
  | bare =>
    rw [Quoting.enclose, Quoting.mark, List.nil_append, List.append_nil]
    exact trimmed rfl
  | single | double =>
    constructor
    · rintro _ ⟨⟩
      rfl
    · rw [Quoting.enclose, ← List.append_assoc, Quoting.mark, List.getLast?_concat]
      rintro _ ⟨⟩
      rfl

/-! ## Names -/

/-- A name that a row can give a value. -/
structure Bindable (name : List Char) : Prop where
  filled : name ≠ []
  undivided : ∀ c ∈ name, c ≠ '='
  trimmed : Trimmed isSpace name
  uncommented : ∀ c ∈ name.head?, c ≠ '#'
  unexported : ¬ exportWord <+: name
  different : name ≠ "export".toList

/-- The word export, if it stands in front of a name. -/
def exportPart (exported : Bool) : List Char := if exported then exportWord else []

section

variable {name : List Char} (bindable : Bindable name)

include bindable

/-- Blanks after a name do not make the word of it, and neither does the equals sign. -/
theorem Bindable.not_prefix {rest : List Char}
    (first : ∀ c ∈ rest.head?, isSpace c = true ∨ c = '=') : ¬ exportWord <+: name ++ rest := by
  rintro ⟨tail, whole⟩
  obtain ⟨more, rfl, -⟩ | ⟨more, word, rfl⟩ := List.append_eq_append_iff.mp whole
  · exact bindable.unexported (List.prefix_append exportWord more)
  · cases more with
    | nil =>
      rw [List.append_nil] at word
      exact bindable.unexported (word ▸ List.prefix_rfl)
    | cons c more =>
      -- Only the last character of the word is a blank.
      have letters : exportWord.dropLast.all fun d => !(isSpace d || d == '=') := by decide
      cases more with
      | nil =>
        have front := congrArg List.dropLast word
        rw [List.dropLast_concat] at front
        exact bindable.different front.symm
      | cons d more =>
        have inside : c ∈ exportWord.dropLast := by
          rw [word, List.dropLast_append_cons, List.mem_append]
          exact .inr (by simp)
        have letter := List.all_eq_true.mp letters c inside
        obtain blank | equals := first c rfl
        · simp [blank] at letter
        · simp [equals] at letter

theorem Bindable.first (exported : Bool) (rest : List Char) :
    ∃ c more, exportPart exported ++ (name ++ rest) = c :: more ∧ isSpace c = false ∧ c ≠ '#' := by
  obtain ⟨c, name, rfl⟩ := List.exists_cons_of_ne_nil bindable.filled
  cases exported with
  | false =>
    exact ⟨c, name ++ rest, rfl, bindable.trimmed.first c rfl, bindable.uncommented c rfl⟩
  | true => exact ⟨'e', "xport ".toList ++ (c :: name ++ rest), rfl, rfl, by decide⟩

theorem Bindable.dropExport (exported : Bool) {rest : List Char}
    (first : ∀ c ∈ rest.head?, isSpace c = true ∨ c = '=') :
    (if exportWord.isPrefixOf (exportPart exported ++ (name ++ rest)) then
      (exportPart exported ++ (name ++ rest)).drop exportWord.length
      else exportPart exported ++ (name ++ rest)) = name ++ rest := by
  cases exported with
  | false =>
    refine if_neg fun word => bindable.not_prefix first ?_
    exact List.isPrefixOf_iff_prefix.mp word
  | true =>
    have word : exportWord.isPrefixOf (exportWord ++ (name ++ rest)) = true :=
      List.isPrefixOf_iff_prefix.mpr (List.prefix_append _ _)
    exact (if_pos word).trans List.drop_left

/-- Once a row is trimmed it is cut at its first equals sign. -/
theorem Bindable.readBinding?_of_trim (exported : Bool) {line gap value : List Char}
    (apart : ∀ c ∈ gap, isSpace c = true)
    (trimmed : Text.trim line = exportPart exported ++ (name ++ (gap ++ '=' :: value))) :
    readBinding? line =
      some (String.ofList name, String.ofList (unquote (Text.trim value))) := by
  obtain ⟨c, more, shape, -, comment⟩ := bindable.first exported (gap ++ '=' :: value)
  have follows : ∀ d ∈ (gap ++ '=' :: value).head?, isSpace d = true ∨ d = '=' := by
    cases gap with
    | nil =>
      rintro _ ⟨⟩
      exact .inr rfl
    | cons d gap =>
      rintro _ ⟨⟩
      exact .inl (apart _ (by simp))
  have binding := bindable.dropExport exported follows
  have undivided : ∀ d ∈ name ++ gap, (d != '=') = true := by
    refine List.forall_mem_append.mpr ⟨fun d inside => by simp [bindable.undivided d inside], ?_⟩
    intro d inside
    rw [bne_iff_ne]
    rintro rfl
    cases apart '=' inside
  have left : (name ++ (gap ++ '=' :: value)).dropWhile (· != '=') = '=' :: value := by
    rw [← List.append_assoc, List.dropWhile_append_of_pos undivided]
    rfl
  have taken : (name ++ (gap ++ '=' :: value)).takeWhile (· != '=') = name ++ gap := by
    rw [← List.append_assoc, List.takeWhile_append_of_pos undivided]
    simp
  have bare : Text.trim (name ++ gap) = name :=
    Text.trimWhile_append (List.forall_mem_nil _) bindable.trimmed apart
  rw [shape] at binding trimmed
  simp only [readBinding?, trimmed, binding, left, taken, bare, List.isEmpty_cons, List.head?_cons,
    Option.some.injEq, comment, decide_false, Bool.or_self, Bool.false_eq_true, if_false]

/-- A row gives a name its value, whatever blanks surround both. -/
theorem Bindable.readBinding? (exported : Bool) {lead gap gap' trail written : List Char}
    (before : ∀ c ∈ lead, isSpace c = true) (apart : ∀ c ∈ gap, isSpace c = true)
    (apart' : ∀ c ∈ gap', isSpace c = true) (after : ∀ c ∈ trail, isSpace c = true)
    (filled : written ≠ []) (trimmed : Trimmed isSpace written) :
    readBinding? (lead ++ (exportPart exported ++
      (name ++ (gap ++ '=' :: (gap' ++ written))) ++ trail)) =
        some (String.ofList name, String.ofList (unquote written)) := by
  obtain ⟨c, more, shape, solid, -⟩ := bindable.first exported (gap ++ '=' :: (gap' ++ written))
  have final : (exportPart exported ++ (name ++ (gap ++ '=' :: (gap' ++ written)))).getLast? =
      written.getLast? := by
    have cut : exportPart exported ++ (name ++ (gap ++ '=' :: (gap' ++ written))) =
        exportPart exported ++ (name ++ (gap ++ '=' :: gap')) ++ written := by
      simp only [List.append_assoc, List.cons_append]
    rw [cut, List.getLast?_append, Option.or_of_isSome (by simpa using filled)]
  have whole : Trimmed isSpace
      (exportPart exported ++ (name ++ (gap ++ '=' :: (gap' ++ written)))) := by
    refine ⟨?_, final ▸ trimmed.last⟩
    rw [shape]
    rintro _ ⟨⟩
    exact solid
  have value : Text.trim (gap' ++ written) = written := by
    have cut := Text.trimWhile_append apart' trimmed (List.forall_mem_nil _)
    rwa [List.append_nil] at cut
  have line := Text.trimWhile_append before whole after
  rw [bindable.readBinding?_of_trim exported apart line, value]

end

/-! ## Files -/

theorem Environment.map_lookup_put (environment : Environment) (name other value : String) :
    ((environment.put name value).lookup other).map Data.text =
      (environment.toMembers.put name (.text value)).lookup other := by
  rw [← lookup_toMembers, toMembers_put]

theorem Environment.lookup_put_same (environment : Environment) (name value : String) :
    (environment.put name value).lookup name = some value := by
  have text : Function.Injective Data.text := fun _ _ => Data.text.inj
  apply Option.map_injective text
  rw [map_lookup_put, Members.lookup_put_same, Option.map_some]

theorem Environment.lookup_put_other (environment : Environment) {name other : String}
    (value : String) (differs : other ≠ name) :
    (environment.put name value).lookup other = environment.lookup other := by
  have text : Function.Injective Data.text := fun _ _ => Data.text.inj
  apply Option.map_injective text
  rw [map_lookup_put, Members.lookup_put_other _ _ differs, lookup_toMembers]

/-- The last binding of a name counts. -/
theorem lookup_foldl_put (bindings : List (String × String)) (environment : Environment)
    (name : String) :
    (bindings.foldl (fun environment binding => environment.put binding.1 binding.2)
      environment).lookup name = (bindings.reverse.lookup name).or (environment.lookup name) := by
  induction bindings generalizing environment with
  | nil => rfl
  | cons binding bindings ih =>
    obtain ⟨first, value⟩ := binding
    rw [List.foldl_cons, ih, List.reverse_cons, List.lookup_append, Option.or_assoc]
    congr 1
    by_cases same : name = first
    · subst same
      simp [Environment.lookup_put_same]
    · have skip : (name == first) = false := by simpa using same
      simp [Environment.lookup_put_other _ _ same, List.lookup_cons, skip]

theorem lookup_readEnvFile {rows : List (List Char)} (nonempty : rows ≠ [])
    (unbroken : ∀ row ∈ rows, Unbroken row) (name : String) :
    (readEnvFile (String.ofList (['\n'].intercalate rows))).lookup name =
      (rows.filterMap readBinding?).reverse.lookup name := by
  have kept : (Text.lines (Text.normalizeEnds (['\n'].intercalate rows))).filterMap readBinding? =
      rows.filterMap readBinding? := by
    rw [Text.lines_intercalate nonempty unbroken]
    split
    next blank =>
      -- The last row is blank, and gives no name a value.
      have cut := List.dropLast_append_getLast? [] blank
      conv_rhs => rw [← cut]
      rw [List.filterMap_append]
      exact (List.append_nil _).symm
    next => rfl
  rw [readEnvFile, String.toList_ofList, kept, lookup_foldl_put, List.lookup_nil, Option.or_none]

end BoolQuery.Config
