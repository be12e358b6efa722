import BoolQuery.Proofs.Number.Decimal
import BoolQuery.Query.Diagnostic

/-! Lines and columns of diagnostics.

An offset within a query lies on one of its lines, behind the lines before it and some characters of
its own line. The line and the column of a diagnostic tell which, so they lead back to the offset
and are in the order of the offsets; the text of the diagnostic shows that line with the caret below
the place: `positions_exact`.
-/

set_option autoImplicit false

namespace BoolQuery.Query

open Text (ended pieces)

/-! ## Places -/

/-- Where an offset lies: behind the rows that end before it and the first characters of its line,
and before the others of that line and the lines that follow. -/
structure LiesAt (text : List Char) (offset : Nat) (rows : List (List Char))
    (before after : List Char) (following : List (List Char)) : Prop where
  feedless : ∀ row ∈ rows, '\n' ∉ row
  plain : '\n' ∉ before
  front : text.take offset = ended rows ++ before
  back : (text.drop offset).takeWhile (· != '\n') = after
  lines : pieces text = rows ++ (before ++ after) :: following
  reached : (text.take offset).length = offset

theorem exists_liesAt {text : List Char} {offset : Nat} (within : offset ≤ text.length) :
    ∃ rows before after following, LiesAt text offset rows before after following := by
  obtain ⟨rows, before, front, feedless, plain⟩ := Text.exists_ended (text.take offset)
  obtain ⟨following, first⟩ := Text.exists_pieces_eq_cons (before ++ text.drop offset)
  rw [List.takeWhile_append_of_pos (Text.isNotFeed_eq_true plain)] at first
  refine ⟨rows, before, _, following, feedless, plain, front, rfl, ?_, ?_⟩
  · rw [← first, ← Text.pieces_ended_append feedless, ← List.append_assoc, ← front,
      List.take_append_drop]
  · rw [List.length_take, Nat.min_eq_left within]

/-- Nothing before the last of the ended rows is on the line of what follows them. -/
theorem takeWhile_reverse_ended (rows : List (List Char)) :
    (ended rows).reverse.takeWhile (· != '\n') = [] := by
  induction rows using List.reverseRecOn with
  | nil => rfl
  | append_singleton rows row ih => simp [ended]

/-- The offset at which a line begins; the first line has the number one. -/
def lineStart (lines : List (List Char)) (line : Nat) : Nat :=
  ((lines.take (line - 1)).map fun row => row.length + 1).sum

namespace Diagnostic

variable {query : String} {offset : Nat} {expected : Expected}

theorem cut_of_le (within : offset ≤ query.length) :
    cut ⟨query, offset, expected⟩ = offset := by
  have natural : ¬ (offset : Int) < 0 := by omega
  simp only [cut, natural, if_false, Int.toNat_natCast, Nat.min_eq_left within]

section

variable {rows following : List (List Char)} {before after : List Char}
  (within : offset ≤ query.length)
  (lies : LiesAt query.toList offset rows before after following)

include within lies

theorem before_of_liesAt : Diagnostic.before ⟨query, offset, expected⟩ = ended rows ++ before := by
  rw [Diagnostic.before, cut_of_le within, lies.front]

theorem lineBefore_of_liesAt : lineBefore ⟨query, offset, expected⟩ = before := by
  have plain : '\n' ∉ before.reverse := mt List.mem_reverse.mp lies.plain
  rw [lineBefore, before_of_liesAt within lies, List.reverse_append,
    List.takeWhile_append_of_pos (Text.isNotFeed_eq_true plain), takeWhile_reverse_ended,
    List.append_nil, List.reverse_reverse]

theorem line_of_liesAt : line ⟨query, offset, expected⟩ = rows.length + 1 := by
  rw [line, before_of_liesAt within lies, List.count_append, Text.count_ended lies.feedless,
    List.count_eq_zero_of_not_mem lies.plain, Nat.add_zero]

theorem column_of_liesAt : column ⟨query, offset, expected⟩ = before.length + 1 := by
  have reached := lies.reached
  rw [lies.front, List.length_append] at reached
  rw [column, cut_of_le within, lineBefore_of_liesAt within lies]
  dsimp only
  omega

theorem getElem?_line :
    (pieces query.toList)[line ⟨query, offset, expected⟩ - 1]? = some (before ++ after) := by
  rw [line_of_liesAt within lies, Nat.add_sub_cancel, lies.lines,
    List.getElem?_append_right (Nat.le_refl _), Nat.sub_self, List.getElem?_cons_zero]

variable (expected)

theorem sourceLine_of_liesAt : sourceLine ⟨query, offset, expected⟩ = before ++ after := by
  rw [sourceLine, lineBefore_of_liesAt within lies, cut_of_le within, lies.back]

theorem lineStart_of_liesAt :
    lineStart (pieces query.toList) (line ⟨query, offset, expected⟩) + before.length = offset := by
  have reached := lies.reached
  rw [lies.front, List.length_append, Text.length_ended] at reached
  rw [lineStart, line_of_liesAt within lies, Nat.add_sub_cancel, lies.lines,
    List.take_left' rfl, reached]

end

/-! ## Order -/

theorem line_le_line {first second : Nat} {other : Expected} (ordered : first ≤ second)
    (within : second ≤ query.length) :
    line ⟨query, first, expected⟩ ≤ line ⟨query, second, other⟩ := by
  rw [line, line, before, before, cut_of_le (Nat.le_trans ordered within), cut_of_le within]
  have part := (List.take_prefix_take_left (l := query.toList) ordered).sublist
  exact Nat.succ_le_succ (part.count_le '\n')

/-- On one line the columns are as far apart as the offsets. -/
theorem column_lt_column {first second : Nat} {other : Expected} (ordered : first < second)
    (within : second ≤ query.length)
    (same : line ⟨query, first, expected⟩ = line ⟨query, second, other⟩) :
    column ⟨query, first, expected⟩ < column ⟨query, second, other⟩ := by
  have within' : first ≤ query.toList.length := by
    rw [String.length_toList]
    omega
  obtain ⟨rows, before, after, following, lies⟩ := exists_liesAt within'
  obtain ⟨rows', before', after', following', lies'⟩ :=
    exists_liesAt (String.length_toList ▸ within : second ≤ query.toList.length)
  have start := lineStart_of_liesAt expected (by omega) lies
  have start' := lineStart_of_liesAt other within lies'
  rw [column_of_liesAt (by omega) lies, column_of_liesAt within lies']
  rw [same] at start
  omega

/-! ## Text -/

theorem feed_not_mem_message (diagnostic : Diagnostic) :
    '\n' ∉ diagnostic.message.toList := by
  have description : '\n' ∉ diagnostic.expected.description.toList := by
    cases diagnostic.expected <;> decide
  have words : '\n' ∉ "Expected ".toList ∧ '\n' ∉ " at line ".toList ∧
      '\n' ∉ ", column ".toList := by
    decide
  simp only [message, String.toList_append, List.mem_append, toList_toString_nat, description,
    words, feed_not_mem_toDigits, feed_not_mem_toString_int, or_false, not_false_eq_true]

/-- How a diagnostic tells of an offset within its query, of whose lines this is the row that it is
on. -/
structure Pinpoints (diagnostic : Diagnostic) (offset : Nat) (row : List Char) : Prop where
  line_bounds : 1 ≤ diagnostic.line ∧ diagnostic.line ≤ (pieces diagnostic.query.toList).length
  line_is : (pieces diagnostic.query.toList)[diagnostic.line - 1]? = some row
  column_bounds : 1 ≤ diagnostic.column ∧ diagnostic.column ≤ row.length + 1
  leads_back : (offset : Int) =
    lineStart (pieces diagnostic.query.toList) diagnostic.line + diagnostic.column - 1
  shows : pieces diagnostic.render.toList =
    [diagnostic.message.toList, ' ' :: ' ' :: row,
      List.replicate (diagnostic.column + 1).toNat ' ' ++ ['^']]
  -- The caret stands below the character at the offset, unless the line ends there.
  above_caret : ∀ c, diagnostic.query.toList[offset]? = some c → c ≠ '\n' →
    (' ' :: ' ' :: row)[(diagnostic.column + 1).toNat]? = some c

theorem pieces_render {diagnostic : Diagnostic} (feedless : '\n' ∉ diagnostic.sourceLine)
    (positive : 1 ≤ diagnostic.column) :
    pieces diagnostic.render.toList =
      [diagnostic.message.toList, ' ' :: ' ' :: diagnostic.sourceLine,
        List.replicate (diagnostic.column + 1).toNat ' ' ++ ['^']] := by
  have blanks : (diagnostic.column + 1).toNat = diagnostic.padding.toNat + 1 + 1 := by
    rw [padding]
    omega
  rw [render, Text.pieces_intercalate (by simp)]
  · simp [blanks, List.replicate_succ]
  · simp [feed_not_mem_message, feedless]

theorem pinpoints_of_liesAt {rows following : List (List Char)} {before after : List Char}
    (within : offset ≤ query.length)
    (lies : LiesAt query.toList offset rows before after following) :
    Pinpoints ⟨query, offset, expected⟩ offset (before ++ after) where
  line_bounds := by
    rw [line_of_liesAt within lies, lies.lines, List.length_append, List.length_cons]
    omega
  line_is := getElem?_line within lies
  column_bounds := by
    rw [column_of_liesAt within lies, List.length_append]
    omega
  leads_back := by
    have start := lineStart_of_liesAt expected within lies
    rw [column_of_liesAt within lies]
    dsimp only
    omega
  shows := by
    rw [← sourceLine_of_liesAt expected within lies]
    apply pieces_render
    · rw [sourceLine_of_liesAt _ within lies, ← lies.back, List.mem_append]
      rintro (here | there)
      · exact lies.plain here
      · simpa using List.mem_takeWhile_imp there
    · rw [column_of_liesAt within lies]
      omega
  above_caret := by
    intro c here visible
    have index : (column ⟨query, offset, expected⟩ + 1).toNat = before.length + 1 + 1 := by
      rw [column_of_liesAt within lies]
      omega
    have rest : query.toList.drop offset = c :: query.toList.drop (offset + 1) := by
      obtain ⟨inside, rfl⟩ := List.getElem?_eq_some_iff.mp here
      exact List.drop_eq_getElem_cons inside
    rw [index, List.getElem?_cons_succ, List.getElem?_cons_succ,
      List.getElem?_append_right (Nat.le_refl _), Nat.sub_self, ← lies.back, rest,
      List.takeWhile_cons_of_pos (by simpa using visible)]
    rfl

/-- The line and the column of an offset within a query are numbers of a line and of a column of it,
lead back to the offset, and come in the order of the offsets. The text of the diagnostic is the
message, the line, and a caret below the place. -/
theorem positions_exact (query : String) :
    (∀ (offset : Nat) (expected : Expected), offset ≤ query.length →
      ∃ row, Pinpoints ⟨query, offset, expected⟩ offset row) ∧
    ∀ (first second : Nat) (expected other : Expected), first < second → second ≤ query.length →
      let earlier : Diagnostic := ⟨query, first, expected⟩
      let later : Diagnostic := ⟨query, second, other⟩
      earlier.line < later.line ∨ earlier.line = later.line ∧ earlier.column < later.column := by
  constructor
  · intro offset expected within
    obtain ⟨rows, before, after, following, lies⟩ :=
      exists_liesAt (String.length_toList ▸ within : offset ≤ query.toList.length)
    exact ⟨before ++ after, pinpoints_of_liesAt within lies⟩
  · intro first second expected other ordered within earlier later
    have lines : earlier.line ≤ later.line := line_le_line (Nat.le_of_lt ordered) within
    obtain less | same := Nat.lt_or_eq_of_le lines
    · exact .inl less
    · exact .inr ⟨same, column_lt_column ordered within same⟩

/-- The place before a line feed, and the one behind it on an empty line. -/
theorem feeds_positions_exact :
    let earlier : Diagnostic := ⟨"+a\n\n\"b", 2, .term⟩
    let later : Diagnostic := ⟨"+a\n\n\"b", 3, .phraseClose⟩
    earlier.Pinpoints 2 "+a".toList ∧ later.Pinpoints 3 [] ∧
      (earlier.line, earlier.column) = (1, 3) ∧ (later.line, later.column) = (2, 1) ∧
      earlier.line < later.line := by
  intro earlier later
  obtain ⟨pinpointed, ordered⟩ := positions_exact "+a\n\n\"b"
  obtain ⟨row, here⟩ := pinpointed 2 .term (by decide)
  obtain ⟨row', there⟩ := pinpointed 3 .phraseClose (by decide)
  have first : row = "+a".toList := Option.some.inj (here.line_is.symm.trans (by decide))
  have second : row' = [] := Option.some.inj (there.line_is.symm.trans (by decide))
  refine ⟨first ▸ here, second ▸ there, by decide, by decide, ?_⟩
  obtain less | ⟨same, -⟩ := ordered 2 3 .term .phraseClose (by decide) (by decide)
  · exact less
  · exact absurd same (by decide)

end Diagnostic

end BoolQuery.Query
