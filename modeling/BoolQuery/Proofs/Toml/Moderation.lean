import BoolQuery.Proofs.Toml.Limits

/-! Moderate documents.

If no number of a text is long, and few of its characters nest, then reading it ends in a table
that can be written as text, or finds the text malformed: `read_manages`.
-/

set_option autoImplicit false

namespace BoolQuery.Toml

open Data (Writable)

/-! ## Tables -/

section

variable {table changed : Members} {steps : Nat}

/-- Each name of a key takes at most two steps: into an array of tables, and into a table. -/
theorem writable_change? {reach : Reach} {alter : Members → Option Members} (size : Nat)
    (alters : ∀ {steps : Nat} {inner altered : Members}, size ≤ steps →
      Writable steps (.object inner) → alter inner = some altered →
      Writable steps (.object altered))
    {key : Key} (room : 2 * key.length + size ≤ steps) (writable : Writable steps (.object table))
    (change : change? reach alter key table = some changed) :
    Writable steps (.object changed) := by
  induction key generalizing steps table changed with
  | nil => exact alters (by simpa using room) writable change
  | cons name key ih =>
    rw [List.length_cons] at room
    obtain ⟨fewer, rfl⟩ : ∃ fewer, steps = fewer + 2 := ⟨steps - 2, by omega⟩
    rw [change?] at change
    split at change
    next =>
      obtain ⟨inner, below, rfl⟩ := Option.map_eq_some_iff.mp change
      exact writable.put name (ih (by omega) (Data.writable_nil _) below)
    next old found =>
      obtain ⟨inner, below, rfl⟩ := Option.map_eq_some_iff.mp change
      exact writable.put name (ih (by omega) (writable.lookup found) below)
    next items found =>
      split at change
      next old last =>
        obtain ⟨inner, below, rfl⟩ := Option.map_eq_some_iff.mp change
        have each := Data.writable_list_iff.mp (writable.lookup found)
        have changed := ih (by omega) (each _ (List.mem_of_getLast? last)) below
        refine writable.put name (Data.writable_list_iff.mpr fun item member => ?_)
        obtain member | member := List.mem_append.mp member
        · exact each item (List.dropLast_subset items member)
        · rw [List.mem_singleton.mp member]
          exact changed
      next => cases change
    next => cases change

theorem writable_add? {name : String} {value : Data} (inner : Writable steps value)
    (writable : Writable (steps + 1) (.object table)) (add : add? name value table = some changed) :
    Writable (steps + 1) (.object changed) := by
  unfold add? at add
  split at add
  · cases add
  · cases add
    exact writable.put name inner

theorem writable_append? {name : String} (writable : Writable (steps + 2) (.object table))
    (append : append? name table = some changed) : Writable (steps + 2) (.object changed) := by
  have empty : Writable (steps + 1) (.list [.object []]) :=
    Data.writable_list_iff.mpr fun item member =>
      List.mem_singleton.mp member ▸ Data.writable_nil steps
  unfold append? at append
  split at append
  next =>
    cases append
    exact writable.put name empty
  next items found =>
    cases append
    refine writable.put name (Data.writable_list_iff.mpr fun item member => ?_)
    obtain member | member := List.mem_append.mp member
    · exact Data.writable_list_iff.mp (writable.lookup found) item member
    · exact Data.writable_list_iff.mp empty item member
  next => cases append

end

/-! ## Values -/

variable {input : List Char}

/-- A key with its value. The openers that the key has taken are not there for the value. -/
structure PairTaken (input : List Char) (found : Key × Data × List Char) : Prop where
  rest : found.2.2 <:+ input
  writable : ∃ left, Writable (2 * left) found.2.1 ∧ found.1.length - 1 + left ≤ openers input

/-- A table that a pair was added to. -/
theorem PairTaken.change {found : Key × Data × List Char} (taken : PairTaken input found)
    {reach : Reach} (header : Key) {steps : Nat}
    (room : 2 * (header.length + openers input) ≤ steps) {table changed : Members}
    (writable : Writable (steps + 1) (.object table))
    (change : change? reach (add? (found.1.getLast?.getD "") found.2.1)
      (header ++ found.1.dropLast) table = some changed) :
    Writable (steps + 1) (.object changed) := by
  obtain ⟨left, inner, few⟩ := taken.writable
  refine writable_change? (2 * left + 1) ?_ ?_ writable change
  · intro steps table changed most writable add
    obtain ⟨below, rfl⟩ : ∃ below, steps = below + 1 := ⟨steps - 1, by omega⟩
    exact writable_add? (inner.mono (by omega)) writable add
  · rw [List.length_append, List.length_dropLast]
    omega

/-- What the readers of values manage with some fuel, if the input is short and its openers leave
room for the steps down. -/
structure Managing (fuel : Nat) : Prop where
  value : ∀ {input : List Char} {depth : Nat}, Short input → 3 * openers input ≤ depth →
    Manages (ValueTaken input) (readValue fuel depth input)
  items : ∀ {input : List Char} {depth : Nat}, Short input → 3 * openers input ≤ depth →
    Manages (fun found => found.2 <:+ input ∧ Writable (2 * openers input + 1) (.list found.1))
      (readItems fuel depth input)
  inline : ∀ {input : List Char} {depth : Nat}, Short input → 3 * openers input ≤ depth →
    ∀ {steps : Nat}, 2 * openers input ≤ steps →
    ∀ {table : Members}, Writable (steps + 1) (.object table) →
    ∀ known, Manages (fun found => found.2 <:+ input ∧ Writable (steps + 1) (.object found.1))
      (readInline fuel depth table known input)
  pair : ∀ {input : List Char} {depth : Nat}, Short input → 3 * openers input ≤ depth →
    Manages (PairTaken input) (readPair fuel depth input)

theorem managing_zero : Managing 0 where
  value := by
    intros
    rw [readValue]
    exact manages_malformed
  items := by
    intros
    rw [readItems]
    exact manages_malformed
  inline := by
    intros
    rw [readInline]
    exact manages_malformed
  pair := by
    intros
    rw [readPair]
    exact manages_malformed

section

variable {fuel depth : Nat} (managing : Managing fuel) (short : Short input)
  (room : 3 * openers input ≤ depth)

include managing short room

theorem Managing.value_succ : Manages (ValueTaken input) (readValue (fuel + 1) depth input) := by
  have text : Manages (fun found => found.2 <:+ input) (require (readText input)) :=
    require_manages fun found read => readText_rest read
  unfold readValue
  split
  next => exact manages_malformed
  next => exact text.bind fun found left => ⟨left, Data.writable_text _ _⟩
  next => exact text.bind fun found left => ⟨left, Data.writable_text _ _⟩
  next rest => exact ⟨List.suffix_append ['t', 'r', 'u', 'e'] rest, Data.writable_bool _ _⟩
  next rest => exact ⟨List.suffix_append ['f', 'a', 'l', 's', 'e'] rest, Data.writable_bool _ _⟩
  next rest =>
    -- The bracket leaves room for the steps down to the items.
    rw [openers_cons rfl] at room
    rw [if_neg (by simp only [arraySteps]; omega)]
    refine (skipBetween_manages false rest).bind fun middle left => ?_
    have few := openers_rest left
    have left := rest_cons (c := '[') left
    have room : 3 * openers middle ≤ depth - arraySteps := by
      simp only [arraySteps]
      omega
    have items := managing.items (short.of_rest left) room
    refine items.bind fun found taken => ⟨taken.1.trans left, ?_⟩
    rw [openers_cons rfl]
    exact taken.2.mono (by omega)
  next rest =>
    -- So does the brace, with nothing to spare.
    rw [openers_cons rfl] at room
    rw [if_neg (by simp only [tableSteps]; omega)]
    have left := rest_cons (c := '\x7b') (skipGap_rest rest)
    have few := openers_rest (skipGap_rest rest)
    simp only
    split
    next after same =>
      rw [same] at left
      exact ⟨(List.suffix_cons _ after).trans left, Data.writable_nil _⟩
    next =>
      have room : 3 * openers (skipGap rest) ≤ depth - tableSteps := by
        simp only [tableSteps]
        omega
      have inline := managing.inline (short.of_rest left) room (Nat.mul_le_mul_left 2 few)
        (Data.writable_nil _) {}
      refine inline.bind fun found taken => ⟨taken.1.trans left, ?_⟩
      rw [openers_cons rfl]
      exact taken.2.mono (by omega)
  next =>
    split
    next reading read =>
      obtain moment | ⟨-, number⟩ := Option.or_eq_some_iff.mp read
      · exact readMoment?_manages moment
      · exact readNumber?_manages short number
    next => exact manages_malformed

theorem Managing.items_succ :
    Manages (fun found => found.2 <:+ input ∧ Writable (2 * openers input + 1) (.list found.1))
      (readItems (fuel + 1) depth input) := by
  unfold readItems
  split
  next rest => exact ⟨List.suffix_cons _ rest, Data.writable_list_iff.mpr (List.forall_mem_nil _)⟩
  next =>
    refine (managing.value short room).bind ?_
    rintro ⟨item, middle⟩ taken
    refine (skipBetween_manages false middle).bind fun between left => ?_
    have left := left.trans taken.rest
    split
    next rest left =>
      refine ⟨(List.suffix_cons _ rest).trans left, Data.writable_list_iff.mpr ?_⟩
      exact List.forall_mem_singleton.mpr taken.writable
    next rest left =>
      refine (skipBetween_manages false rest).bind fun after left' => ?_
      have left := left'.trans ((List.suffix_cons _ rest).trans left)
      have few := openers_rest left
      refine (managing.items (short.of_rest left) (by omega)).bind fun found others => ?_
      refine ⟨others.1.trans left, Data.writable_list_iff.mpr ?_⟩
      have each := Data.writable_list_iff.mp others.2
      refine List.forall_mem_cons.mpr ⟨taken.writable, fun other member => ?_⟩
      exact (each other member).mono (Nat.mul_le_mul_left 2 few)
    next => exact manages_malformed

theorem Managing.inline_succ {steps : Nat} (most : 2 * openers input ≤ steps)
    {table : Members} (writable : Writable (steps + 1) (.object table)) (known : Marks) :
    Manages (fun found => found.2 <:+ input ∧ Writable (steps + 1) (.object found.1))
      (readInline (fuel + 1) depth table known input) := by
  unfold readInline
  refine (managing.pair short room).bind ?_
  rintro ⟨key, value, middle⟩ taken
  simp only
  split
  next => exact manages_malformed
  next =>
    have change : Manages (fun changed => Writable (steps + 1) (.object changed))
        (require (change? .tables (add? (key.getLast?.getD "") value) key.dropLast table)) :=
      require_manages fun changed change =>
        taken.change [] (by simpa using most) writable change
    refine change.bind fun changed writable => ?_
    have left := (skipGap_rest middle).trans taken.rest
    split
    next rest same =>
      rw [same] at left
      exact ⟨(List.suffix_cons _ rest).trans left, writable⟩
    next rest same =>
      rw [same] at left
      have left := (skipGap_rest rest).trans ((List.suffix_cons _ rest).trans left)
      have few := openers_rest left
      have most : 2 * openers (skipGap rest) ≤ steps := by omega
      have room : 3 * openers (skipGap rest) ≤ depth := by omega
      have inline := managing.inline (short.of_rest left) room most writable
      exact (inline _).mono fun found others => ⟨others.1.trans left, others.2⟩
    next => exact manages_malformed

theorem Managing.pair_succ : Manages (PairTaken input) (readPair (fuel + 1) depth input) := by
  unfold readPair
  refine (readKey_manages fuel input).bind ?_
  rintro ⟨key, middle⟩ taken
  have left := taken.rest
  have few := taken.openers
  simp only at left few ⊢
  split
  next rest =>
    have gap := (skipGap_rest rest).trans (List.suffix_cons '=' rest)
    have less := openers_rest gap
    have left := gap.trans left
    refine (managing.value (short.of_rest left) (by omega)).bind ?_
    rintro ⟨value, after⟩ found
    exact ⟨found.rest.trans left, _, found.writable, by simp only; omega⟩
  next => exact manages_malformed

end

theorem managing (fuel : Nat) : Managing fuel := by
  induction fuel with
  | zero => exact managing_zero
  | succ fuel ih => exact ⟨ih.value_succ, ih.items_succ, ih.inline_succ, ih.pair_succ⟩

/-! ## Statements -/

/-- What has been read so far took no more openers than there are, the last header included. -/
structure Progress.Within (limit : Nat) (progress : Progress) (input : List Char) : Prop where
  root : Writable (2 * limit + 1) (.object progress.root)
  header : progress.header.length + openers input ≤ limit

section

variable {limit : Nat} {progress : Progress} (within : progress.Within limit input)

include within

theorem Progress.Within.of_rest {rest : List Char} (left : rest <:+ input) :
    progress.Within limit rest := by
  have fewer := openers_rest left
  have few := within.header
  exact ⟨within.root, by omega⟩

theorem Progress.Within.addPair {found : Key × Data × List Char} (taken : PairTaken input found) :
    Manages (fun progress => progress.Within limit found.2.2)
      (progress.addPair found.1 found.2.1) := by
  unfold Progress.addPair
  simp only
  split
  next => exact manages_malformed
  split
  next => exact manages_malformed
  have few := within.header
  have fewer := openers_rest taken.rest
  have room : 2 * (progress.header.length + openers input) ≤ 2 * limit := by omega
  refine (require_manages fun changed => taken.change progress.header room within.root).bind
    fun root writable => ⟨writable, ?_⟩
  exact (within.of_rest taken.rest).header

theorem Progress.Within.openTable {key : Key} {rest : List Char}
    (taken : key.length + openers rest ≤ openers input) :
    Manages (fun progress => progress.Within limit rest) (progress.openTable key) := by
  unfold Progress.openTable
  split
  next => exact manages_malformed
  have few := within.header
  have change (changed : Members)
      (change : change? .tablesAndArrays some key progress.root = some changed) :
      Writable (2 * limit + 1) (.object changed) := by
    refine writable_change? 0 ?_ (by omega) within.root change
    rintro steps inner _ - writable ⟨⟩
    exact writable
  exact (require_manages change).bind fun root writable => ⟨writable, by simp only; omega⟩

theorem Progress.Within.openItem {key : Key} {rest : List Char}
    (taken : key.length - 1 + 2 + openers rest ≤ openers input) :
    Manages (fun progress => progress.Within limit rest) (progress.openItem key) := by
  unfold Progress.openItem
  split
  next => exact manages_malformed
  have few := within.header
  have change (changed : Members) (change : change? .tablesAndArrays
      (append? (key.getLast?.getD "")) key.dropLast progress.root = some changed) :
      Writable (2 * limit + 1) (.object changed) := by
    refine writable_change? 2 ?_ ?_ within.root change
    · intro steps table changed most writable append
      obtain ⟨fewer, rfl⟩ : ∃ fewer, steps = fewer + 2 := ⟨steps - 2, by omega⟩
      exact writable_append? writable append
    · rw [List.length_dropLast]
      omega
  exact (require_manages change).bind fun root writable => ⟨writable, by simp only; omega⟩

variable (short : Short input) (room : 3 * limit ≤ deepest)

include short room

theorem Progress.Within.readStatement (fuel : Nat) :
    Manages (fun found => found.2 <:+ input ∧ found.1.Within limit found.2)
      (readStatement fuel progress input) := by
  have settled : Within limit { progress with marks := progress.marks.settle } input :=
    ⟨within.root, within.header⟩
  unfold Toml.readStatement
  simp only
  split
  next rest =>
    refine (readKey_skipGap_manages fuel rest).bind ?_
    rintro ⟨key, middle⟩ taken
    have fewer := taken.openers
    have left := taken.rest.trans (List.suffix_append ['[', '['] rest)
    have few : key.length - 1 + 2 + openers middle ≤ openers ('[' :: '[' :: rest) := by
      rw [openers_cons rfl, openers_cons rfl]
      simp only at fewer
      omega
    refine (settled.openItem few).bind fun progress within => ?_
    simp only
    split
    next after =>
      have left' : after <:+ ']' :: ']' :: after := rest_cons (List.suffix_cons _ after)
      exact ⟨left'.trans left, within.of_rest left'⟩
    next => exact manages_malformed
  next rest _ =>
    refine (readKey_skipGap_manages fuel rest).bind ?_
    rintro ⟨key, middle⟩ taken
    have fewer := taken.openers
    have left := taken.rest.trans (List.suffix_cons '[' rest)
    have few : key.length + openers middle ≤ openers ('[' :: rest) := by
      rw [openers_cons rfl]
      simp only at fewer
      omega
    refine (settled.openTable few).bind fun progress within => ?_
    simp only
    split
    next after =>
      have left' : after <:+ ']' :: after := List.suffix_cons _ after
      exact ⟨left'.trans left, within.of_rest left'⟩
    next => exact manages_malformed
  next =>
    have few := within.header
    have room : 3 * openers input ≤ deepest := by omega
    refine ((managing (2 * fuel)).pair short room).bind ?_
    rintro ⟨key, value, rest⟩ taken
    exact (within.addPair taken).bind fun progress within => ⟨taken.rest, within⟩

theorem Progress.Within.readContent (fuel : Nat) :
    Manages (fun found => found.2 <:+ input ∧ found.1.Within limit found.2)
      (readContent fuel progress input) := by
  unfold Toml.readContent
  split
  next => exact ⟨List.suffix_rfl, within⟩
  next => exact ⟨List.suffix_rfl, within⟩
  next => exact ⟨List.suffix_rfl, within⟩
  next =>
    refine (within.readStatement short room fuel).bind ?_
    rintro ⟨progress, rest⟩ taken
    have gap := skipGap_rest rest
    exact ⟨gap.trans taken.1, taken.2.of_rest gap⟩

theorem Progress.Within.readLines (fuel : Nat) :
    Manages (fun progress => Writable (2 * limit + 1) (.object progress.root))
      (readLines fuel progress input) := by
  induction fuel generalizing progress input with
  | zero => exact manages_malformed
  | succ fuel ih =>
    rw [Toml.readLines]
    have gap := skipGap_rest input
    have content := (within.of_rest gap).readContent (short.of_rest gap) room (fuel + 1)
    refine content.bind ?_
    rintro ⟨progress, rest⟩ taken
    obtain ⟨left, within⟩ := taken
    refine (skipComment_manages rest).bind fun after left' => ?_
    have within := within.of_rest left'
    have left := left'.trans (left.trans gap)
    split
    next => exact within.root
    next next_line =>
      have left' := List.suffix_cons '\n' next_line
      exact ih (within.of_rest left') (short.of_rest (left'.trans left))
    next => exact manages_malformed

end

/-! ## Documents -/

/-- As many openers leave room for the steps down to what they lead into. -/
def mostOpeners : Nat := deepest / tableSteps

/-- A text without long numbers and with few openers. -/
structure Moderate (input : List Char) : Prop where
  short : Short input
  few : openers input ≤ mostOpeners

theorem moderate_of_length (few : input.length ≤ mostOpeners) : Moderate input where
  short run within _ := Nat.le_trans within.length_le (Nat.le_trans few (by decide))
  few := Nat.le_trans List.countP_le_length few

theorem openers_joinLineEnds (input : List Char) :
    openers (joinLineEnds input) ≤ openers input := by
  have sublist : (joinLineEnds input).Sublist input := by
    fun_induction joinLineEnds input with
    | case1 => exact List.Sublist.refl []
    | case2 rest ih => exact (ih.cons_cons '\n').cons '\r'
    | case3 c rest _ ih => exact ih.cons_cons c
  exact sublist.countP_le

/-- Where numerals begin the joined text, they begin the text. -/
theorem prefix_of_joinLineEnds {run : List Char} (numerals : run.all isNumeral = true)
    (begins : run <+: joinLineEnds input) : run <+: input := by
  fun_induction joinLineEnds input generalizing run with
  | case1 => exact begins
  | case2 rest ih =>
    obtain rfl | ⟨others, rfl, -⟩ := List.prefix_cons_iff.mp begins
    · exact List.nil_prefix
    · cases numerals
  | case3 c rest _ ih =>
    obtain rfl | ⟨others, rfl, follow⟩ := List.prefix_cons_iff.mp begins
    · exact List.nil_prefix
    · rw [List.all_cons, Bool.and_eq_true] at numerals
      exact List.prefix_cons_iff.mpr (.inr ⟨others, rfl, ih numerals.2 follow⟩)

/-- An end of the joined text is an end of the text, joined. -/
theorem suffix_of_joinLineEnds {rest : List Char} (ends : rest <:+ joinLineEnds input) :
    ∃ left, left <:+ input ∧ rest = joinLineEnds left := by
  fun_induction joinLineEnds input with
  | case1 => exact ⟨[], List.suffix_rfl, List.suffix_nil.mp ends⟩
  | case2 others ih =>
    obtain rfl | later := List.suffix_cons_iff.mp ends
    · exact ⟨'\r' :: '\n' :: others, List.suffix_rfl, by rw [joinLineEnds]⟩
    · obtain ⟨left, within, same⟩ := ih later
      exact ⟨left, rest_cons (rest_cons within), same⟩
  | case3 c others free ih =>
    obtain rfl | later := List.suffix_cons_iff.mp ends
    · exact ⟨c :: others, List.suffix_rfl, by rw [joinLineEnds]; exact free⟩
    · obtain ⟨left, within, same⟩ := ih later
      exact ⟨left, rest_cons within, same⟩

theorem Short.joinLineEnds (short : Short input) : Short (joinLineEnds input) := by
  intro run within numerals
  obtain ⟨rest, begins, ends⟩ := List.infix_iff_prefix_suffix.mp within
  obtain ⟨left, ends', rfl⟩ := suffix_of_joinLineEnds ends
  exact short run ((prefix_of_joinLineEnds numerals begins).isInfix.trans ends'.isInfix) numerals

/-- A moderate text is read into a table that can be written as text, or is malformed. -/
theorem read_manages {text : String} (moderate : Moderate text.toList) :
    Manages (fun table => Writable (2 * mostOpeners + 1) (.object table)) (read text) := by
  unfold read
  have within : Progress.Within mostOpeners {} (joinLineEnds text.toList) :=
    ⟨Data.writable_nil _, by
      simpa using Nat.le_trans (openers_joinLineEnds text.toList) moderate.few⟩
  exact (within.readLines moderate.short.joinLineEnds (by decide) _).bind fun progress root => root

end BoolQuery.Toml
