import BoolQuery.Proofs.Toml.Numbers
import BoolQuery.Toml.Document

/-! Written documents, read back.

A row of a document is a header of one name or a pair of a name and a number. It is read in the same
way whatever rows come after it, so a document is read row by row: `Run.readLines`. One that is made
of tables with a number each is read back as these tables: `read_parts`.
-/

set_option autoImplicit false

namespace BoolQuery.Toml

/-! ## Rows -/

/-- A name that a key can be without quotes. -/
structure Bare (name : List Char) : Prop where
  nonempty : name ≠ []
  plain : ∀ c ∈ name, isBareKeyChar c = true

theorem not_isBareKeyChar_of_isGap {c : Char} (gap : isGap c = true) :
    isBareKeyChar c = false := by
  simp only [isGap, Bool.or_eq_true, beq_iff_eq] at gap
  rcases gap with rfl | rfl <;> rfl

theorem not_isGap_of_isBareKeyChar {c : Char} (plain : isBareKeyChar c = true) :
    isGap c = false := by
  rw [← Bool.not_eq_true]
  intro gap
  rw [not_isBareKeyChar_of_isGap gap] at plain
  cases plain

theorem skipGap_append (gap : List Char) {rest : List Char} (blank : ∀ c ∈ gap, isGap c = true)
    (stops : ∀ c ∈ rest.head?, isGap c = false) : skipGap (gap ++ rest) = rest := by
  rw [skipGap, List.dropWhile_append_of_pos blank, Text.dropWhile_eq_self stops]

theorem skipGap_cons {c : Char} (solid : isGap c = false) (rest : List Char) :
    skipGap (c :: rest) = c :: rest := by
  refine Text.dropWhile_eq_self ?_
  rintro _ ⟨⟩
  exact solid

theorem Ends.skipGap {rest : List Char} (ends : Ends rest) : Toml.skipGap rest = rest := by
  refine Text.dropWhile_eq_self fun c here => ?_
  rw [ends c here]
  rfl

section

variable {name : List Char} (bare : Bare name)

include bare

theorem Bare.readKeyPart {rest : List Char} (stops : ∀ c ∈ rest.head?, isBareKeyChar c = false) :
    readKeyPart (name ++ rest) = .ok (String.ofList name, rest) := by
  have taken : (name ++ rest).takeWhile isBareKeyChar = name := by
    rw [List.takeWhile_append_of_pos bare.plain]
    cases rest with
    | nil => simp
    | cons c rest => simp [stops c rfl]
  have left : (name ++ rest).dropWhile isBareKeyChar = rest := by
    rw [List.dropWhile_append_of_pos bare.plain, Text.dropWhile_eq_self stops]
  simp only [Toml.readKeyPart, taken, left, List.isEmpty_iff, bare.nonempty, if_false]

theorem Bare.readKey (fuel : Nat) (gap : List Char) {rest : List Char}
    (blank : ∀ c ∈ gap, isGap c = true)
    (stops : ∀ c ∈ rest.head?, isGap c = false ∧ isBareKeyChar c = false ∧ c ≠ '.') :
    readKey (fuel + 1) (name ++ (gap ++ rest)) = .ok ([String.ofList name], rest) := by
  have part : Toml.readKeyPart (name ++ (gap ++ rest)) = .ok (String.ofList name, gap ++ rest) := by
    refine bare.readKeyPart fun c here => ?_
    cases gap with
    | nil => exact (stops c here).2.1
    | cons d gap =>
      cases here
      exact not_isBareKeyChar_of_isGap (blank _ (by simp))
  rw [Toml.readKey, part]
  simp only [bind, Except.bind, skipGap_append gap blank fun c here => (stops c here).1]
  split
  next => exact absurd rfl (stops '.' rfl).2.2
  next => rfl

/-- A bare name begins with neither a blank nor any mark. -/
theorem Bare.first (rest : List Char) :
    ∃ c more, name ++ rest = c :: more ∧ isBareKeyChar c = true := by
  obtain ⟨c, name, rfl⟩ := List.exists_cons_of_ne_nil bare.nonempty
  exact ⟨c, name ++ rest, rfl, bare.plain c (by simp)⟩

end

/-- What progress makes of a header or a pair. -/
def Progress.settled (progress : Progress) : Progress :=
  { progress with marks := progress.marks.settle }

theorem readStatement_header (fuel : Nat) {progress next : Progress} {name : List Char}
    (bare : Bare name) (opens : progress.settled.openTable [String.ofList name] = .ok next)
    (rest : List Char) :
    readStatement (fuel + 1) progress ('[' :: (name ++ ']' :: rest)) = .ok (next, rest) := by
  have key : readKey (fuel + 1) (name ++ ']' :: rest) =
      .ok ([String.ofList name], ']' :: rest) :=
    bare.readKey fuel [] (by simp) (by simp [isGap, isBareKeyChar])
  obtain ⟨c, more, shape, plain⟩ := bare.first (']' :: rest)
  rw [shape] at key ⊢
  have solid := skipGap_cons (not_isGap_of_isBareKeyChar plain) more
  rw [readStatement]
  · rw [Progress.settled] at opens
    simp only [solid, key, bind, Except.bind, opens]
    rfl
  · rintro _ ⟨⟩
    cases plain

/-- A quote or a digit. -/
theorem not_isGap_head_enclose (quoting : Text.Quoting) (number : Nat) (rest : List Char) :
    ∀ c ∈ (quoting.enclose (Nat.toDigits 10 number) ++ rest).head?, isGap c = false := by
  cases quoting with
  | bare =>
    obtain ⟨d, digits, shape⟩ :=
      List.exists_cons_of_ne_nil (Nat.toDigits_ne_nil (n := number) (b := 10))
    have digit : d ∈ Nat.toDigits 10 number := by simp [shape]
    simp only [Text.Quoting.enclose, Text.Quoting.mark, shape]
    rintro _ ⟨⟩
    exact of_isDigit (motive := fun c => isGap c = false) (by decide) (isDigit_of_mem digit)
  | single | double =>
    rintro _ ⟨⟩
    rfl

/-- What stands behind the name of a number, and what follows it. -/
def pairTail (quoting : Text.Quoting) (number : Nat) (rest : List Char) : List Char :=
  ' ' :: '=' :: ' ' :: (quoting.enclose (Nat.toDigits 10 number) ++ rest)

section

variable {name : List Char} (bare : Bare name) (quoting : Text.Quoting) {number : Nat}
  (small : number < Data.textBound) {rest : List Char} (ends : Ends rest)

include bare small ends

theorem readPair_number (fuel depth : Nat) :
    readPair (fuel + 2) depth (name ++ pairTail quoting number rest) =
      .ok ([String.ofList name], numberData quoting number, rest) := by
  have key : readKey (fuel + 1) (name ++ pairTail quoting number rest) =
      .ok ([String.ofList name], '=' :: ' ' ::
        (quoting.enclose (Nat.toDigits 10 number) ++ rest)) :=
    bare.readKey fuel [' '] (by simp [isGap]) (by simp [isGap, isBareKeyChar])
  have value := readValue_enclose fuel depth quoting small ends
  have here : skipGap (' ' :: (quoting.enclose (Nat.toDigits 10 number) ++ rest)) =
      quoting.enclose (Nat.toDigits 10 number) ++ rest :=
    skipGap_append [' '] (by simp [isGap]) (not_isGap_head_enclose quoting number rest)
  rw [readPair, key]
  simp only [bind, Except.bind, here, value]
  rfl

theorem readStatement_pair (fuel : Nat) {progress next : Progress}
    (adds : progress.addPair [String.ofList name] (numberData quoting number) = .ok next) :
    readStatement (fuel + 1) progress (name ++ pairTail quoting number rest) =
      .ok (next, rest) := by
  have pair := readPair_number bare quoting small ends (2 * fuel) deepest
  obtain ⟨c, more, shape, plain⟩ := bare.first (pairTail quoting number rest)
  rw [shape] at pair ⊢
  rw [readStatement, Nat.mul_add_one, pair]
  · simp only [bind, Except.bind, adds]
    rfl
  · rintro _ ⟨⟩
    cases plain
  · rintro _ ⟨⟩
    cases plain

end

/-! ## Documents -/

/-- A row that changes progress, whatever rows come after it. -/
def Leads (progress : Progress) (row : List Char) (next : Progress) : Prop :=
  ∀ fuel rest, Ends rest →
    readContent (fuel + 1) progress (skipGap (row ++ rest)) = .ok (next, rest)

theorem leads_empty (progress : Progress) : Leads progress [] progress := by
  intro fuel rest ends
  rw [List.nil_append, ends.skipGap]
  cases rest with
  | nil => rfl
  | cons c rest =>
    rw [ends c rfl]
    rfl

theorem leads_of_readStatement {progress next : Progress} {c : Char} {row : List Char}
    (solid : isGap c = false ∧ c ≠ '\n' ∧ c ≠ '#')
    (read : ∀ fuel rest, Ends rest →
      readStatement (fuel + 1) progress (c :: row ++ rest) = .ok (next, rest)) :
    Leads progress (c :: row) next := by
  intro fuel rest ends
  rw [List.cons_append, skipGap_cons solid.1]
  unfold readContent
  split
  next whole => cases whole
  next whole => cases whole; exact absurd rfl solid.2.1
  next whole => cases whole; exact absurd rfl solid.2.2
  next =>
    rw [← List.cons_append, read fuel rest ends]
    simp only [bind, Except.bind, ends.skipGap]
    rfl

/-- Rows that change progress one after the other. -/
inductive Run : Progress → List (List Char) → Progress → Prop where
  | nil (progress : Progress) : Run progress [] progress
  | cons {progress middle next : Progress} {row : List Char} {rows : List (List Char)} :
      Leads progress row middle → Run middle rows next → Run progress (row :: rows) next

theorem Run.append {progress middle next : Progress} {rows others : List (List Char)}
    (run : Run progress rows middle) (run' : Run middle others next) :
    Run progress (rows ++ others) next := by
  induction run with
  | nil => exact run'
  | cons leads _ ih => exact .cons leads (ih run')

theorem Run.readLines {progress next : Progress} {rows : List (List Char)}
    (run : Run progress rows next) {fuel : Nat} (enough : rows.length ≤ fuel + 1) :
    readLines (fuel + 1) progress (['\n'].intercalate rows) = .ok next := by
  induction run generalizing fuel with
  | nil => rfl
  | @cons _ middle _ row rows leads run ih =>
    cases rows with
    | nil =>
      cases run
      have content := leads fuel [] (by simp [Ends])
      rw [List.append_nil] at content
      rw [List.intercalate_singleton, Toml.readLines, content]
      rfl
    | cons other rows =>
      obtain ⟨fuel, rfl⟩ : ∃ fewer, fuel = fewer + 1 :=
        ⟨fuel - 1, by simp only [List.length_cons] at enough; omega⟩
      have content := leads (fuel + 1) ('\n' :: ['\n'].intercalate (other :: rows))
        (by simp [Ends])
      rw [List.intercalate_cons_cons, List.append_assoc, List.singleton_append, Toml.readLines,
        content]
      exact ih (Nat.le_of_succ_le_succ enough)

/-! ## Tables -/

section

variable {root : Members} {opened : List Key} {name : String}

theorem openTable_fresh (header : Key) (unopened : [name] ∉ opened)
    (absent : root.lookup name = none) :
    (⟨root, { opened }, header⟩ : Progress).settled.openTable [name] =
      .ok ⟨root.put name (.object []), { opened := [name] :: opened }, [name]⟩ := by
  have fresh : opened.contains [name] = false := by simpa using unopened
  simp only [Progress.openTable, Progress.settled, Marks.settle, Marks.isOpened, Marks.isClosed,
    List.nil_append, fresh, List.any_nil, Bool.or_self, change?, absent, Option.map_some, require]
  rfl

theorem addPair_fresh (opened : List Key) (key : String) {inner : Members} {value : Data}
    (held : root.lookup name = some (.object inner)) (absent : inner.lookup key = none)
    (simple : isInline value = false) :
    (⟨root, { opened }, [name]⟩ : Progress).addPair [key] value =
      .ok ⟨root.put name (.object (inner.put key value)), { opened }, [name]⟩ := by
  have added : add? key value inner = some (inner.put key value) := by
    rw [add?, absent]
    rfl
  simp only [Progress.addPair, List.length_singleton, Nat.sub_self, List.range_zero, List.map_nil,
    List.any_nil, List.foldl_nil, Marks.isClosed, List.dropLast_singleton, List.append_nil,
    List.getLast?_singleton, Option.getD_some, change?, held, added, Option.map_some, require,
    simple]
  rfl

end

/-- A table of one number, as it is written. -/
structure Part where
  name : String
  key : String
  quoting : Text.Quoting
  number : Nat

namespace Part

variable (part : Part)

def value : Data := numberData part.quoting part.number

def headerRow : List Char := '[' :: (part.name.toList ++ [']'])

def pairRow : List Char :=
  part.key.toList ++ ' ' :: '=' :: ' ' :: part.quoting.enclose (Nat.toDigits 10 part.number)

def rows : List (List Char) := [part.headerRow, part.pairRow]

/-- Both names need no quotes, and the number has few enough digits. -/
structure Sound : Prop where
  name : Bare part.name.toList
  key : Bare part.key.toList
  small : part.number < Data.textBound

variable {part}

theorem Sound.leads_headerRow (sound : part.Sound) {progress next : Progress}
    (opens : progress.settled.openTable [part.name] = .ok next) :
    Leads progress part.headerRow next := by
  refine leads_of_readStatement (by decide) fun fuel rest _ => ?_
  rw [List.cons_append, List.append_assoc, List.singleton_append]
  exact readStatement_header fuel sound.name (by rw [String.ofList_toList]; exact opens) rest

theorem Sound.leads_pairRow (sound : part.Sound) {progress next : Progress}
    (adds : progress.addPair [part.key] part.value = .ok next) :
    Leads progress part.pairRow next := by
  obtain ⟨c, more, shape, plain⟩ := sound.key.first
    (' ' :: '=' :: ' ' :: part.quoting.enclose (Nat.toDigits 10 part.number))
  have solid : isGap c = false ∧ c ≠ '\n' ∧ c ≠ '#' := by
    refine ⟨not_isGap_of_isBareKeyChar plain, ?_, ?_⟩
    all_goals
      rintro rfl
      cases plain
  rw [pairRow, shape]
  refine leads_of_readStatement solid fun fuel rest ends => ?_
  rw [← shape, List.append_assoc]
  exact readStatement_pair sound.key part.quoting sound.small ends fuel
    (by rw [String.ofList_toList]; exact adds)

theorem isInline_value (part : Part) : isInline part.value = false := by
  rw [value, numberData]
  split <;> rfl

/-- A table that is not there yet is opened, and then it gets its number. -/
theorem Sound.run (sound : part.Sound) {root : Members} {opened : List Key} (header : Key)
    (unopened : [part.name] ∉ opened) (absent : root.lookup part.name = none) :
    Run ⟨root, { opened }, header⟩ part.rows
      ⟨(root.put part.name (.object [])).put part.name (.object [(part.key, part.value)]),
        { opened := [part.name] :: opened }, [part.name]⟩ := by
  have opens := openTable_fresh header unopened absent
  have adds := addPair_fresh ([part.name] :: opened) part.key
    (root.lookup_put_same part.name (.object [])) rfl part.isInline_value
  exact .cons (sound.leads_headerRow opens) (.cons (sound.leads_pairRow adds) (.nil _))

end Part

/-- The tables of a document are opened one after the other. -/
theorem run_parts {parts : List Part} (distinct : (parts.map Part.name).Nodup)
    (sound : ∀ part ∈ parts, part.Sound) {root : Members} {opened : List Key} (header : Key)
    (fresh : ∀ part ∈ parts, [part.name] ∉ opened ∧ root.lookup part.name = none) :
    ∃ next, Run ⟨root, { opened }, header⟩ (parts.flatMap Part.rows) next ∧
      (∀ part ∈ parts,
        next.root.lookup part.name = some (.object [(part.key, part.value)])) ∧
      ∀ name ∉ parts.map Part.name, next.root.lookup name = root.lookup name := by
  induction parts generalizing root opened header with
  | nil => exact ⟨_, .nil _, by simp, fun _ _ => rfl⟩
  | cons part parts ih =>
    obtain ⟨once, distinct⟩ := List.nodup_cons.mp distinct
    obtain ⟨unopened, absent⟩ := fresh part (by simp)
    have here := (sound part (by simp)).run header unopened absent
    have later : ∀ other ∈ parts, [other.name] ∉ [part.name] :: opened ∧
        ((root.put part.name (.object [])).put part.name
          (.object [(part.key, part.value)])).lookup other.name = none := by
      intro other member
      have differs : other.name ≠ part.name := fun same =>
        once (same ▸ List.mem_map_of_mem member)
      obtain ⟨unopened, absent⟩ := fresh other (by simp [member])
      rw [Members.lookup_put_other _ _ differs, Members.lookup_put_other _ _ differs]
      exact ⟨by simp [differs, unopened], absent⟩
    obtain ⟨next, run, held, kept⟩ := ih distinct
      (fun other member => sound other (by simp [member])) [part.name] later
    refine ⟨next, ?_, ?_, ?_⟩
    · rw [List.flatMap_cons]
      exact here.append run
    · refine List.forall_mem_cons.mpr ⟨?_, held⟩
      rw [kept _ once, Members.lookup_put_same]
    · intro name absent
      rw [List.map_cons, List.mem_cons, not_or] at absent
      rw [kept name absent.2, Members.lookup_put_other _ _ absent.1,
        Members.lookup_put_other _ _ absent.1]

/-! ## Whole documents -/

theorem joinLineEnds_eq_self {text : List Char} (plain : ∀ c ∈ text, c ≠ '\r') :
    joinLineEnds text = text := by
  induction text with
  | nil => rfl
  | cons c text ih =>
    rw [joinLineEnds, ih fun d inside => plain d (by simp [inside])]
    rintro rest rfl
    exact absurd rfl (plain '\r' (by simp))

theorem length_le_intercalate (rows : List (List Char)) :
    rows.length ≤ (['\n'].intercalate rows).length + 1 := by
  induction rows with
  | nil => exact Nat.zero_le _
  | cons row rows ih =>
    cases rows with
    | nil => exact Nat.le_add_left 1 _
    | cons other rows =>
      simp only [List.intercalate_cons_cons, List.length_append, List.length_cons,
        List.length_nil] at ih ⊢
      omega

theorem Bare.ne_return {name : List Char} (bare : Bare name) : ∀ c ∈ name, c ≠ '\r' := by
  rintro _ inside rfl
  cases bare.plain '\r' inside

theorem ne_return_of_mem_enclose {quoting : Text.Quoting} {number : Nat} {c : Char}
    (inside : c ∈ quoting.enclose (Nat.toDigits 10 number)) : c ≠ '\r' := by
  rintro rfl
  have mark : '\r' ∉ quoting.mark := by cases quoting <;> decide
  rw [Text.Quoting.enclose, List.mem_append, List.mem_append] at inside
  rcases inside with quote | digit | quote
  · exact mark quote
  · cases isDigit_of_mem digit
  · exact mark quote

theorem Part.Sound.ne_return {part : Part} (sound : part.Sound) :
    ∀ row ∈ part.rows, ∀ c ∈ row, c ≠ '\r' := by
  have name := sound.name.ne_return
  have key := sound.key.ne_return
  have number : ∀ c ∈ part.quoting.enclose (Nat.toDigits 10 part.number), c ≠ '\r' :=
    fun _ => ne_return_of_mem_enclose
  have marks : '[' ≠ '\r' ∧ ']' ≠ '\r' ∧ ' ' ≠ '\r' ∧ '=' ≠ '\r' := by decide
  simp only [rows, headerRow, pairRow, List.forall_mem_cons, List.forall_mem_append]
  exact ⟨⟨marks.1, name, marks.2.1, by simp⟩,
    ⟨key, marks.2.2.1, marks.2.2.2, marks.2.2.1, number⟩, by simp⟩

/-- A document of tables with a number each, with any number of line ends after it, is read back as
these tables. -/
theorem read_parts {parts : List Part} (distinct : (parts.map Part.name).Nodup)
    (sound : ∀ part ∈ parts, part.Sound) (count : Nat) :
    ∃ table, read (String.ofList (['\n'].intercalate
        (parts.flatMap Part.rows ++ List.replicate count []))) = .ok table ∧
      ∀ part ∈ parts, table.lookup part.name = some (.object [(part.key, part.value)]) := by
  have fresh : ∀ part ∈ parts,
      [part.name] ∉ ([] : List Key) ∧ ([] : Members).lookup part.name = none := by simp
  obtain ⟨next, run, held, -⟩ := run_parts distinct sound [] fresh
  have blank (progress : Progress) : Run progress (List.replicate count []) progress := by
    induction count with
    | zero => exact .nil progress
    | succ count ih => exact .cons (leads_empty progress) ih
  have whole := run.append (blank next)
  have plain : ∀ c ∈ ['\n'].intercalate (parts.flatMap Part.rows ++ List.replicate count []),
      c ≠ '\r' := by
    intro c inside
    obtain rfl | ⟨row, member, here⟩ := Text.mem_intercalate inside
    · decide
    · obtain written | blank := List.mem_append.mp member
      · obtain ⟨part, known, row⟩ := List.mem_flatMap.mp written
        exact (sound part known).ne_return _ row c here
      · rw [List.eq_of_mem_replicate blank] at here
        cases here
  refine ⟨next.root, ?_, held⟩
  rw [read, String.toList_ofList, joinLineEnds_eq_self plain]
  simp only [bind, Except.bind]
  rw [whole.readLines (length_le_intercalate _)]
  rfl

end BoolQuery.Toml
