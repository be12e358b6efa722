import BoolQuery.Proofs.Json.Characters
import BoolQuery.Proofs.Query.Writing

/-! Printing documents.

A document is determined by its data, and its data by the text that is printed for it. Of that
text only the line breaks depend on the indent: `text_faithful`.
-/

set_option autoImplicit false

namespace BoolQuery.Query

open Json (Exact)

theorem Operator.name_injective : Function.Injective Operator.name := by
  intro first second same
  cases first <;> cases second <;> first | rfl | exact absurd same (by decide)

theorem Leaf.toData_injective : Function.Injective Leaf.toData := by
  intro first second same
  cases first <;> cases second <;> simp_all [Leaf.toData]

theorem Leaf.exact_toData (leaf : Leaf) : Exact leaf.toData := by
  have single {name : String} {value : Data} (exact : Exact value) :
      Exact (.object [(name, value)]) := by
    apply Exact.object
    · simp
    · simpa using exact
  cases leaf with
  | term text => exact single (single (single (.text text)))
  | phrase text => exact single (single (single (.text text)))

/-! ## The data of a document -/

def Document.groups (document : Document) : Members :=
  document.operators.map fun operator =>
    (operator.name, .list ((document.get operator).map Leaf.toData))

theorem Document.toData_eq (document : Document) :
    document.toData = .object [("query", .object [("bool", .object document.groups)])] := rfl

theorem Document.names_groups (document : Document) :
    document.groups.map Prod.fst = document.operators.map Operator.name := List.map_map

theorem Document.names_sublist (document : Document) :
    (document.groups.map Prod.fst).Sublist ["should", "must", "must_not"] := by
  rw [names_groups]
  exact List.filter_sublist.map Operator.name

theorem Document.exact_toData (document : Document) : Exact document.toData := by
  have groups : Exact (.object document.groups) := by
    apply Exact.object
    · rw [names_groups]
      exact document.nodup_operators.map Operator.name_injective
    · intro entry member
      obtain ⟨operator, -, rfl⟩ := List.mem_map.mp member
      apply Exact.list
      intro item inside
      obtain ⟨leaf, -, rfl⟩ := List.mem_map.mp inside
      exact leaf.exact_toData
  rw [toData_eq]
  exact .object (by simp) (by simpa using Exact.object (by simp) (by simpa using groups))

/-- A group that is not empty is found under its name in either document. -/
theorem Document.get_eq_of_groups {first second : Document} (same : first.groups = second.groups)
    {operator : Operator} (filled : first.get operator ≠ []) :
    first.get operator = second.get operator := by
  have member : (operator.name, Data.list ((first.get operator).map Leaf.toData)) ∈
      second.groups := by
    rw [← same]
    exact List.mem_map_of_mem (Document.mem_operators.mpr filled)
  obtain ⟨other, -, entry⟩ := List.mem_map.mp member
  simp only [Prod.mk.injEq, Data.list.injEq] at entry
  obtain rfl := Operator.name_injective entry.1
  exact (List.map_injective_iff.mpr Leaf.toData_injective entry.2).symm

theorem Document.toData_injective : Function.Injective Document.toData := by
  intro first second same
  have groups : first.groups = second.groups := by simpa [toData_eq] using same
  apply Buckets.ext_get
  intro operator
  by_cases filled : first.get operator = []
  · by_cases other : second.get operator = []
    · rw [filled, other]
    · exact (get_eq_of_groups groups.symm other).symm
  · exact get_eq_of_groups groups filled

/-! ## The text of a document -/

/-- The JSON text of a document at an indent. -/
def Document.text (document : Document) (indent : Nat) : String :=
  Json.write (.ofIndent indent) document.toData

theorem Document.read_text (document : Document) (indent : Nat) :
    Json.read (document.text indent) = some document.toData :=
  Json.read_write document.exact_toData _

theorem Document.text_injective (indent : Nat) :
    Function.Injective fun document : Document => document.text indent := by
  intro first second same
  apply toData_injective
  have back := congrArg Json.read same
  simpa only [read_text, Option.some.injEq] using back

theorem ofIndent_eq_line_iff (indent : Nat) :
    Json.Layout.ofIndent indent = .line ↔ indent = 0 := by
  unfold Json.Layout.ofIndent
  split
  next none => simpa using none
  next some =>
    simp only [reduceCtorEq, false_iff]
    omega

theorem Document.mem_text {document : Document} {indent : Nat} {c : Char}
    (member : c ∈ (document.text indent).toList) :
    0x20 ≤ c.toNat ∧ c.toNat ≤ 0x7e ∨ c = '\n' ∧ indent ≠ 0 := by
  have fits := Json.fits_writeAt (.ofIndent indent) 0 document.toData document.exact_toData
  rw [text, Json.write, String.toList_ofList] at member
  rcases fits c member with visible | ⟨lineBreak, several⟩
  · exact .inl visible
  · rw [ne_eq, ofIndent_eq_line_iff] at several
    exact .inr ⟨lineBreak, several⟩

/-- The text for a query at an indent. -/
def printed (indent : Nat) (query : String) : Except Failure String :=
  (compile query).map fun document => document.text indent

theorem printed_eq_ok {indent : Nat} {query text : String} :
    printed indent query = .ok text ↔
      ∃ document, compile query = .ok document ∧ document.text indent = text := by
  unfold printed
  cases compile query <;> simp [Except.map]

end BoolQuery.Query
