import BoolQuery.Proofs.Json.Escapes
import BoolQuery.Proofs.Json.Numbers

/-! Written values, read back.

A value is read back from its text, whatever the layout, if it is `Exact`: without binary numbers,
and with each name once in an object. A number is read as far as it goes, so what follows a value
must not carry it on: `readValue_writeAt`. The reader's fuel covers any text, which gives
`read_write`.
-/

set_option autoImplicit false

namespace BoolQuery.Json

/-! ## Gaps -/

def Gap (text : List Char) : Prop := ∀ c ∈ text, isGap c = true

theorem gap_lineBreak (layout : Layout) (depth : Nat) : Gap (layout.lineBreak depth) := by
  cases layout with
  | line => simp [Gap, Layout.lineBreak]
  | block indent =>
    intro c inside
    rw [Layout.lineBreak, List.mem_cons] at inside
    rcases inside with rfl | inside
    · rfl
    · rw [List.eq_of_mem_replicate inside]
      rfl

theorem exists_separator (layout : Layout) (depth : Nat) :
    ∃ gap, layout.separator depth = ',' :: gap ∧ Gap gap := by
  cases layout with
  | line => exact ⟨[' '], rfl, by simp [Gap, isGap]⟩
  | block indent => exact ⟨_, rfl, gap_lineBreak (.block indent) depth⟩

/-- No number goes on with a blank. -/
theorem ne_of_isGap {c : Char} (blank : isGap c = true) :
    c.isDigit = false ∧ c ≠ '.' ∧ c ≠ 'e' ∧ c ≠ 'E' := by
  simp only [isGap, Bool.or_eq_true, beq_iff_eq] at blank
  rcases blank with ((rfl | rfl) | rfl) | rfl <;> decide

section

variable {gap : List Char} (blank : Gap gap)

include blank

theorem Gap.skip (input : List Char) : skipGap (gap ++ input) = skipGap input :=
  List.dropWhile_append_of_pos blank

theorem Gap.skip_cons {c : Char} (solid : isGap c = false) (rest : List Char) :
    skipGap (gap ++ c :: rest) = c :: rest := by
  rw [blank.skip, skipGap, List.dropWhile_cons_of_neg (by simp [solid])]

theorem Gap.readValue (fuel : Nat) (input : List Char) :
    readValue fuel (gap ++ input) = readValue fuel input := by
  cases fuel with
  | zero => rw [Json.readValue, Json.readValue]
  | succ fuel => rw [Json.readValue, Json.readValue, blank.skip]

theorem Gap.readMembers (fuel : Nat) (members : Members) (input : List Char) :
    readMembers fuel members (gap ++ input) = readMembers fuel members input := by
  cases fuel with
  | zero => rw [Json.readMembers, Json.readMembers]
  | succ fuel => rw [Json.readMembers, Json.readMembers, blank.skip]

theorem Gap.halts {c : Char} (after : Halts [c]) (rest : List Char) : Halts (gap ++ c :: rest) := by
  cases gap with
  | nil => exact fun d head => after d head
  | cons first gap =>
    intro d head
    cases head
    exact ne_of_isGap (blank _ (by simp))

theorem Gap.halts_self : Halts gap :=
  fun c here => ne_of_isGap (blank c (List.mem_of_mem_head? here))

end

/-! ## Values -/

/-- Values that are read back as they were written: there is no binary number in them, and in an
object a name stands once. -/
inductive Exact : Data → Prop where
  | null : Exact .null
  | bool (value : Bool) : Exact (.bool value)
  | int (value : Int) : Exact (.int value)
  | text (value : String) : Exact (.text value)
  | list {items : List Data} : (∀ item ∈ items, Exact item) → Exact (.list items)
  | object {members : Members} : (members.map Prod.fst).Nodup →
      (∀ entry ∈ members, Exact entry.2) → Exact (.object members)

theorem exists_writeAt {value : Data} (exact : Exact value) (layout : Layout) (depth : Nat) :
    ∃ c text, writeAt layout depth value = c :: text ∧ isGap c = false ∧ c ≠ ']' := by
  cases exact with
  | null => exact ⟨'n', "ull".toList, by rw [writeAt]; rfl, rfl, by decide⟩
  | bool value =>
    cases value with
    | true => exact ⟨'t', "rue".toList, by rw [writeAt]; rfl, rfl, by decide⟩
    | false => exact ⟨'f', "alse".toList, by rw [writeAt]; rfl, rfl, by decide⟩
  | int value =>
    obtain ⟨c, text, shape, sort⟩ := exists_toString value
    refine ⟨c, text, by rw [writeAt, shape], not_isGap_of_number sort, ?_⟩
    rintro rfl
    cases sort <;> contradiction
  | text value => exact ⟨'"', _, by rw [writeAt]; rfl, rfl, by decide⟩
  | list each =>
    rename_i items
    cases items with
    | nil => exact ⟨'[', _, by rw [writeAt], rfl, by decide⟩
    | cons item items => exact ⟨'[', _, by rw [writeAt]; rfl, rfl, by decide⟩
  | object once each =>
    rename_i members
    cases members with
    | nil => exact ⟨'\x7b', _, by rw [writeAt], rfl, by decide⟩
    | cons member members =>
      obtain ⟨name, value⟩ := member
      exact ⟨'\x7b', _, by rw [writeAt]; rfl, rfl, by decide⟩

theorem put_fresh {members : Members} {name : String} (fresh : name ∉ members.map Prod.fst)
    (value : Data) : members.put name value = members ++ [(name, value)] := by
  induction members with
  | nil => rfl
  | cons entry members ih =>
    obtain ⟨other, old⟩ := entry
    simp only [List.map_cons, List.mem_cons, not_or] at fresh
    rw [Members.put, if_neg (Ne.symm fresh.1), ih fresh.2]
    rfl

theorem fresh_of_nodup {before members : Members} {entry : String × Data}
    (once : ((before ++ entry :: members).map Prod.fst).Nodup) :
    entry.1 ∉ before.map Prod.fst := by
  intro member
  rw [List.map_append, List.map_cons] at once
  exact (List.nodup_append.mp once).2.2 entry.1 member entry.1 (by simp) rfl

theorem readWord_append (word : String) (value : Data) (rest : List Char) :
    readWord word value (word.toList ++ rest) = some (value, rest) := by
  have here : word.toList.isPrefixOf (word.toList ++ rest) = true := by simp
  rw [readWord, if_pos here, ← String.length_toList, List.drop_left]

theorem readValue_null (fuel : Nat) (rest : List Char) :
    readValue (fuel + 1) ("null".toList ++ rest) = some (.null, rest) :=
  readWord_append "null" .null rest

theorem readValue_true (fuel : Nat) (rest : List Char) :
    readValue (fuel + 1) ("true".toList ++ rest) = some (.bool true, rest) :=
  readWord_append "true" (.bool true) rest

theorem readValue_false (fuel : Nat) (rest : List Char) :
    readValue (fuel + 1) ("false".toList ++ rest) = some (.bool false, rest) :=
  readWord_append "false" (.bool false) rest

theorem readValue_writeText (fuel : Nat) (text : String) (rest : List Char) :
    readValue (fuel + 1) (writeText text ++ rest) = some (.text text, rest) := by
  have back := readText_flatMap_escapeChar text.toList rest
  have shape : writeText text ++ rest =
      '"' :: (text.toList.flatMap escapeChar ++ '"' :: rest) := by simp [writeText]
  have solid : skipGap (writeText text ++ rest) = writeText text ++ rest := by
    rw [shape]
    rfl
  rw [readValue, solid, shape]
  simp only [back, Option.map_some, String.ofList_toList]

theorem readValue_toString (fuel : Nat) (value : Int) {rest : List Char} (halts : Halts rest) :
    readValue (fuel + 1) ((toString value).toList ++ rest) = some (.int value, rest) := by
  have back := readNumber_toString value halts
  obtain ⟨c, text, shape, sort⟩ := exists_toString value
  have solid : skipGap (c :: (text ++ rest)) = c :: (text ++ rest) :=
    List.dropWhile_cons_of_neg (by simp [not_isGap_of_number sort])
  rw [shape, List.cons_append] at back ⊢
  rw [readValue, solid, ← back]
  -- Nothing else begins with a minus sign or a digit.
  split
  case h_8 => rfl
  all_goals
    rename_i same
    cases same <;> cases sort <;> contradiction

/-! ## Lists and objects -/

theorem readValue_bracket (fuel : Nat) {gap : List Char} (blank : Gap gap) {c : Char}
    (solid : isGap c = false) (nonempty : c ≠ ']') (text : List Char) :
    readValue (fuel + 1) ('[' :: (gap ++ c :: text)) =
      (readItems fuel (gap ++ c :: text)).map fun (items, after) => (.list items, after) := by
  have here : skipGap ('[' :: (gap ++ c :: text)) = '[' :: (gap ++ c :: text) := rfl
  rw [readValue, here]
  simp only [blank.skip_cons solid]
  split
  next same => exact absurd (List.cons.inj same).1 nonempty
  next => rfl

theorem readValue_brace (fuel : Nat) {gap : List Char} (blank : Gap gap) (text : List Char) :
    readValue (fuel + 1) ('\x7b' :: (gap ++ '"' :: text)) =
      (readMembers fuel [] ('"' :: text)).map fun (members, after) => (.object members, after) := by
  have here : skipGap ('\x7b' :: (gap ++ '"' :: text)) = '\x7b' :: (gap ++ '"' :: text) := rfl
  rw [readValue, here]
  simp only [blank.skip_cons (c := '"') rfl, blank.readMembers]
  rfl

theorem readMembers_writeText (fuel : Nat) (before : Members) (name : String)
    {text after : List Char} {value : Data} (read : readValue fuel text = some (value, after)) :
    (∀ rest, skipGap after = '\x7d' :: rest →
      readMembers (fuel + 1) before (writeText name ++ ':' :: ' ' :: text) =
        some (before.put name value, rest)) ∧
    ∀ rest, skipGap after = ',' :: rest →
      readMembers (fuel + 1) before (writeText name ++ ':' :: ' ' :: text) =
        readMembers fuel (before.put name value) rest := by
  have quote (others : List Char) : skipGap ('"' :: others) = '"' :: others := rfl
  have colon (others : List Char) : skipGap (':' :: others) = ':' :: others := rfl
  have blank : Gap [' '] := by simp [Gap, isGap]
  have shape : writeText name ++ ':' :: ' ' :: text =
      '"' :: (name.toList.flatMap escapeChar ++ '"' :: ':' :: ([' '] ++ text)) := by
    simp [writeText]
  constructor
  all_goals
    intro rest next
    rw [shape, readMembers, quote]
    simp only [readText_flatMap_escapeChar, Option.bind_eq_bind, Option.bind_some, colon,
      blank.readValue, read, String.ofList_toList, next]

theorem halts_writeItems (layout : Layout) (depth : Nat) (items : List Data) (rest : List Char) :
    Halts (writeItems layout depth items ++ rest) := by
  cases items with
  | nil =>
    rw [writeItems, List.append_assoc]
    exact (gap_lineBreak layout depth).halts (by simp [Halts]) rest
  | cons item items =>
    obtain ⟨gap, separator, -⟩ := exists_separator layout (depth + 1)
    rw [writeItems, separator]
    simp [Halts]

theorem halts_writeMembers (layout : Layout) (depth : Nat) (members : Members)
    (rest : List Char) : Halts (writeMembers layout depth members ++ rest) := by
  cases members with
  | nil =>
    rw [writeMembers, List.append_assoc]
    exact (gap_lineBreak layout depth).halts (by simp [Halts]) rest
  | cons entry members =>
    obtain ⟨gap, separator, -⟩ := exists_separator layout (depth + 1)
    rw [writeMembers, separator]
    simp [Halts]

mutual

/-- A written value is read back before any rest that its last number cannot run into. -/
theorem readValue_writeAt (layout : Layout) (depth : Nat) {value : Data} (exact : Exact value)
    {rest : List Char} (halts : Halts rest) (fuel : Nat)
    (enough : 2 * (writeAt layout depth value).length ≤ fuel) :
    readValue fuel (writeAt layout depth value ++ rest) = some (value, rest) := by
  obtain ⟨c, text, shape, -, -⟩ := exists_writeAt exact layout depth
  cases fuel with
  | zero =>
    rw [shape, List.length_cons] at enough
    omega
  | succ fuel =>
  cases exact with
  | null =>
    rw [writeAt]
    exact readValue_null fuel rest
  | bool value =>
    cases value with
    | true =>
      rw [writeAt]
      exact readValue_true fuel rest
    | false =>
      rw [writeAt]
      exact readValue_false fuel rest
  | int value =>
    rw [writeAt]
    exact readValue_toString fuel value halts
  | text value =>
    rw [writeAt]
    exact readValue_writeText fuel value rest
  | @list items each =>
    cases items with
    | nil =>
      rw [writeAt]
      rfl
    | cons item items =>
      rw [writeAt] at enough ⊢
      simp only [List.cons_append, List.append_assoc, List.length_cons, List.length_append]
        at enough ⊢
      have blank := gap_lineBreak layout (depth + 1)
      have back := readItems_write layout depth each blank rest fuel (by omega)
      obtain ⟨c, text, first, solid, other⟩ :=
        exists_writeAt (each item (by simp)) layout (depth + 1)
      rw [first, List.cons_append] at back ⊢
      rw [readValue_bracket fuel blank solid other, back]
      rfl
  | @object members once each =>
    cases members with
    | nil =>
      rw [writeAt]
      rfl
    | cons member members =>
      obtain ⟨name, value⟩ := member
      rw [writeAt] at enough ⊢
      simp only [List.cons_append, List.append_assoc, List.length_cons, List.length_append]
        at enough ⊢
      have back := readMembers_write layout depth [] once each rest fuel (by omega)
      have quote : ∃ text, writeText name = '"' :: text := ⟨_, rfl⟩
      obtain ⟨text, quote⟩ := quote
      rw [quote, List.cons_append] at back ⊢
      rw [readValue_brace fuel (gap_lineBreak layout (depth + 1))]
      simp only [List.nil_append] at back ⊢
      rw [back]
      rfl
termination_by fuel

/-- Items are read back together with the bracket that closes them. -/
theorem readItems_write (layout : Layout) (depth : Nat) {item : Data} {items : List Data}
    (each : ∀ other ∈ item :: items, Exact other) {gap : List Char} (blank : Gap gap)
    (rest : List Char) (fuel : Nat)
    (enough : 2 * ((writeAt layout (depth + 1) item).length +
      (writeItems layout depth items).length) < fuel) :
    readItems fuel (gap ++ (writeAt layout (depth + 1) item ++
      (writeItems layout depth items ++ rest))) = some (item :: items, rest) := by
  cases fuel with
  | zero => omega
  | succ fuel =>
  have first := readValue_writeAt layout (depth + 1) (each item (by simp))
    (halts_writeItems layout depth items rest) fuel (by omega)
  rw [readItems, blank.readValue, first]
  simp only [Option.bind_eq_bind, Option.bind_some]
  cases items with
  | nil =>
    rw [writeItems, List.append_assoc, List.singleton_append,
      (gap_lineBreak layout depth).skip_cons rfl]
    rfl
  | cons next items =>
    obtain ⟨gap', separator, blank'⟩ := exists_separator layout (depth + 1)
    rw [writeItems, separator] at enough ⊢
    simp only [List.cons_append, List.append_assoc, List.length_cons, List.length_append]
      at enough ⊢
    have others := readItems_write layout depth
      (fun other member => each other (List.mem_cons_of_mem _ member)) blank' rest fuel (by omega)
    have comma (text : List Char) : skipGap (',' :: text) = ',' :: text := rfl
    simp only [comma, others, Option.bind_some]
termination_by fuel

/-- Members are read back after those that were read, together with the brace that closes them. -/
theorem readMembers_write (layout : Layout) (depth : Nat) (before : Members) {name : String}
    {value : Data} {members : Members}
    (once : ((before ++ (name, value) :: members).map Prod.fst).Nodup)
    (each : ∀ entry ∈ (name, value) :: members, Exact entry.2) (rest : List Char) (fuel : Nat)
    (enough : 2 * ((writeText name).length + (writeAt layout (depth + 1) value).length +
      (writeMembers layout depth members).length) < fuel) :
    readMembers fuel before (writeText name ++ (':' :: ' ' ::
      (writeAt layout (depth + 1) value ++ (writeMembers layout depth members ++ rest)))) =
        some (before ++ (name, value) :: members, rest) := by
  cases fuel with
  | zero => omega
  | succ fuel =>
  have exact : Exact value := each (name, value) (by simp)
  have first := readValue_writeAt layout (depth + 1) exact
    (halts_writeMembers layout depth members rest) fuel (by omega)
  have member := readMembers_writeText fuel before name first
  rw [put_fresh (fresh_of_nodup once)] at member
  cases members with
  | nil =>
    have closing : skipGap (writeMembers layout depth [] ++ rest) = '\x7d' :: rest := by
      rw [writeMembers, List.append_assoc, List.singleton_append,
        (gap_lineBreak layout depth).skip_cons rfl]
    exact member.1 rest closing
  | cons next members =>
    obtain ⟨other, following⟩ := next
    obtain ⟨gap, separator, blank⟩ := exists_separator layout (depth + 1)
    rw [writeMembers, separator] at enough member ⊢
    simp only [List.cons_append, List.append_assoc, List.length_cons, List.length_append]
      at enough member ⊢
    have others := readMembers_write layout depth (before ++ [(name, value)]) (by simpa using once)
      (fun entry member => each entry (List.mem_cons_of_mem _ member)) rest fuel (by omega)
    rw [member.2 _ rfl, List.nil_append, blank.readMembers, others, List.append_assoc]
    rfl
termination_by fuel

end

/-- Blanks may follow a text. -/
theorem read_write_append {value : Data} (exact : Exact value) (layout : Layout)
    {gap : List Char} (blank : Gap gap) :
    read (write layout value ++ String.ofList gap) = some value := by
  have back := readValue_writeAt layout 0 exact blank.halts_self
    (2 * (writeAt layout 0 value ++ gap).length + 2)
    (by rw [List.length_append]; omega)
  have left : skipGap gap = [] := by
    rw [← List.append_nil gap, blank.skip]
    rfl
  simp only [read, write, String.toList_append, String.toList_ofList, back, left]
  rfl

theorem read_write {value : Data} (exact : Exact value) (layout : Layout) :
    read (write layout value) = some value := by
  have back := read_write_append exact layout (List.forall_mem_nil _ : Gap [])
  rwa [String.ofList_nil, String.append_empty] at back

end BoolQuery.Json
