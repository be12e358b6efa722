import BoolQuery.Proofs.Json.RoundTrip

/-! The characters of written values.

Text is escaped, so whatever it holds its written form is made of visible ASCII characters. Only
the layout adds line breaks, and none on a single line: `fits_writeAt`.
-/

set_option autoImplicit false

namespace BoolQuery.Json

/-- The characters from the space to the tilde. -/
def Visible (c : Char) : Prop := 0x20 ≤ c.toNat ∧ c.toNat ≤ 0x7e

instance (c : Char) : Decidable (Visible c) := inferInstanceAs (Decidable (_ ∧ _))

/-! ## Text and numbers -/

theorem visible_of_mem_hexDigits {width value : Nat} {c : Char}
    (member : c ∈ Text.hexDigits width value) : Visible c := by
  have each : ∀ digit : Fin 16, Visible (Nat.digitChar digit) := by decide
  obtain ⟨digit, rfl⟩ := Text.exists_of_mem_hexDigits member
  exact each digit

theorem visible_of_mem_escapeUnit {unit : Nat} {c : Char} (member : c ∈ escapeUnit unit) :
    Visible c := by
  rw [escapeUnit, List.mem_cons, List.mem_cons] at member
  rcases member with rfl | rfl | member
  · decide
  · decide
  · exact visible_of_mem_hexDigits member

theorem visible_of_mem_escapeChar {source c : Char} (member : c ∈ escapeChar source) :
    Visible c := by
  have pair {first second : Char} (visible : Visible first ∧ Visible second)
      (member : c ∈ [first, second]) : Visible c := by
    rw [List.mem_cons, List.mem_singleton] at member
    rcases member with rfl | rfl
    · exact visible.1
    · exact visible.2
  unfold escapeChar at member
  -- The seven characters that have an escape of one letter.
  iterate 7
    split at member
    next => exact pair (by decide) member
  split at member
  next visible =>
    rw [List.mem_singleton.mp member]
    exact visible
  split at member
  next => exact visible_of_mem_escapeUnit member
  next =>
    rcases List.mem_append.mp member with member | member
    · exact visible_of_mem_escapeUnit member
    · exact visible_of_mem_escapeUnit member

theorem visible_of_mem_writeText {text : String} {c : Char} (member : c ∈ writeText text) :
    Visible c := by
  simp only [writeText, List.mem_append, List.mem_cons, List.mem_flatMap, List.not_mem_nil,
    or_false] at member
  rcases member with (rfl | ⟨source, -, member⟩) | rfl
  · decide
  · exact visible_of_mem_escapeChar member
  · decide

theorem visible_of_mem_toString {value : Int} {c : Char} (member : c ∈ (toString value).toList) :
    Visible c := by
  have digits (member : c ∈ Nat.toDigits 10 value.natAbs) : Visible c := by
    have digit := isDigit_of_mem member
    have between : 48 ≤ c.toNat ∧ c.toNat ≤ 57 := Char.isDigit_iff_toNat.mp digit
    exact ⟨by omega, by omega⟩
  rw [toList_toString_int] at member
  split at member
  · rcases List.mem_cons.mp member with rfl | member
    · decide
    · exact digits member
  · exact digits member

/-! ## Values -/

/-- The characters that a layout leaves in a text. -/
def Layout.Allows (layout : Layout) (c : Char) : Prop :=
  Visible c ∨ c = '\n' ∧ layout ≠ .line

def Layout.Fits (layout : Layout) (text : List Char) : Prop := ∀ c ∈ text, layout.Allows c

section

variable {layout : Layout}

@[simp] theorem Layout.fits_nil : layout.Fits [] := by
  intro c member
  cases member

@[simp] theorem Layout.fits_cons {c : Char} {text : List Char} :
    layout.Fits (c :: text) ↔ layout.Allows c ∧ layout.Fits text := List.forall_mem_cons

@[simp] theorem Layout.fits_append {front back : List Char} :
    layout.Fits (front ++ back) ↔ layout.Fits front ∧ layout.Fits back := List.forall_mem_append

theorem Layout.fits_of_visible {text : List Char} (visible : ∀ c ∈ text, Visible c) :
    layout.Fits text := fun c member => .inl (visible c member)

theorem Layout.fits_of_all {text : List Char} (visible : text.all (Visible ·) = true) :
    layout.Fits text :=
  fits_of_visible fun c member => of_decide_eq_true (List.all_eq_true.mp visible c member)

variable (layout)

theorem Layout.fits_lineBreak (depth : Nat) : layout.Fits (layout.lineBreak depth) := by
  cases layout with
  | line => exact fits_nil
  | block indent =>
    rw [lineBreak, fits_cons]
    constructor
    · exact .inr ⟨rfl, by simp⟩
    · apply fits_of_visible
      intro c member
      rw [List.eq_of_mem_replicate member]
      decide

theorem Layout.fits_separator (depth : Nat) : layout.Fits (layout.separator depth) := by
  cases layout with
  | line =>
    rw [separator]
    exact fits_of_all (by decide)
  | block indent => exact fits_cons.mpr ⟨.inl (by decide), fits_lineBreak (.block indent) depth⟩

mutual

theorem fits_writeAt (depth : Nat) (value : Data) (exact : Exact value) :
    layout.Fits (writeAt layout depth value) := by
  have plain (c : Char) (visible : Visible c) : layout.Allows c := .inl visible
  cases value with
  | null =>
    rw [writeAt]
    exact Layout.fits_of_all (by decide)
  | bool value =>
    cases value with
    | true =>
      rw [writeAt]
      exact Layout.fits_of_all (by decide)
    | false =>
      rw [writeAt]
      exact Layout.fits_of_all (by decide)
  | int value =>
    rw [writeAt]
    exact Layout.fits_of_visible fun c member => visible_of_mem_toString member
  | float value => cases exact
  | text text =>
    rw [writeAt]
    exact Layout.fits_of_visible fun c member => visible_of_mem_writeText member
  | list items =>
    have each : ∀ item ∈ items, Exact item := by
      cases exact
      assumption
    cases items with
    | nil =>
      rw [writeAt]
      exact Layout.fits_of_all (by decide)
    | cons item items =>
      rw [writeAt]
      simp only [Layout.fits_append, Layout.fits_cons]
      refine ⟨⟨⟨plain _ (by decide), ?_⟩, ?_⟩, ?_⟩
      · exact layout.fits_lineBreak (depth + 1)
      · exact fits_writeAt (depth + 1) item (each item (by simp))
      · exact fits_writeItems depth items fun other member => each other (by simp [member])
  | object members =>
    have each : ∀ entry ∈ members, Exact entry.2 := by
      cases exact
      assumption
    cases members with
    | nil =>
      rw [writeAt]
      exact Layout.fits_of_all (by decide)
    | cons member members =>
      obtain ⟨name, value⟩ := member
      rw [writeAt]
      simp only [Layout.fits_append, Layout.fits_cons]
      refine ⟨⟨⟨⟨⟨plain _ (by decide), ?_⟩, ?_⟩, ?_⟩, ?_⟩, ?_⟩
      · exact layout.fits_lineBreak (depth + 1)
      · exact Layout.fits_of_visible fun c member => visible_of_mem_writeText member
      · exact ⟨plain _ (by decide), plain _ (by decide), Layout.fits_nil⟩
      · exact fits_writeAt (depth + 1) value (each (name, value) (by simp))
      · exact fits_writeMembers depth members fun entry member => each entry (by simp [member])

theorem fits_writeItems (depth : Nat) (items : List Data) (each : ∀ item ∈ items, Exact item) :
    layout.Fits (writeItems layout depth items) := by
  cases items with
  | nil =>
    rw [writeItems, Layout.fits_append]
    exact ⟨layout.fits_lineBreak depth, Layout.fits_of_all (by decide)⟩
  | cons item items =>
    rw [writeItems]
    simp only [Layout.fits_append]
    refine ⟨⟨layout.fits_separator (depth + 1), ?_⟩, ?_⟩
    · exact fits_writeAt (depth + 1) item (each item (by simp))
    · exact fits_writeItems depth items fun other member => each other (by simp [member])

theorem fits_writeMembers (depth : Nat) (members : Members)
    (each : ∀ entry ∈ members, Exact entry.2) :
    layout.Fits (writeMembers layout depth members) := by
  cases members with
  | nil =>
    rw [writeMembers, Layout.fits_append]
    exact ⟨layout.fits_lineBreak depth, Layout.fits_of_all (by decide)⟩
  | cons member members =>
    obtain ⟨name, value⟩ := member
    rw [writeMembers]
    simp only [Layout.fits_append]
    refine ⟨⟨⟨⟨layout.fits_separator (depth + 1), ?_⟩, ?_⟩, ?_⟩, ?_⟩
    · exact Layout.fits_of_visible fun c member => visible_of_mem_writeText member
    · exact Layout.fits_of_all (by decide)
    · exact fits_writeAt (depth + 1) value (each (name, value) (by simp))
    · exact fits_writeMembers depth members fun entry member => each entry (by simp [member])

end

end

end BoolQuery.Json
