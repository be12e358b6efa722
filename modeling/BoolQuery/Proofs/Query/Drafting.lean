import BoolQuery.Proofs.Query.Runs
import BoolQuery.Query.Draft

/-! Trees as drafts.

The stages that work on drafts may find a fault at each part. With the draft of a tree none of them
does, and what comes of it is the document of the tree: `translate_draft`.
-/

set_option autoImplicit false

namespace BoolQuery.Query

def Term.draft (word : Term) : Draft.Term := ⟨word.text, word.offset⟩

def Body.draft : Body → Draft.Body
  | .term word => .term word.draft
  | .phrase terms offset => .phrase (terms.map Term.draft) offset

def Node.draft (node : Node) : Draft.Node :=
  ⟨node.sign.map fun sign => sign.toChar.toString, node.body.draft, node.offset⟩

namespace Draft

/-- The document of drafted nodes, or the first fault that a stage finds. -/
def translate (nodes : List Node) : Except Fault Document := do
  let clauses ← clauses nodes
  let buckets ← gather (clauses.map .clause)
  document buckets

theorem operator_sign (sign : Option Sign) :
    operator (sign.map fun sign => sign.toChar.toString) = .ok (.ofSign sign) := by
  cases sign with
  | none => rfl
  | some sign => cases sign <;> rfl

theorem leaf_draft (body : Query.Body) : body.draft.leaf = .ok body.leaf := by
  cases body with
  | term word => rfl
  | phrase terms offset =>
    rw [Query.Body.draft, Body.leaf, List.map_map]
    rfl

theorem clause_draft (node : Query.Node) : node.draft.clause = .ok node.clause := by
  rw [Query.Node.draft, Node.clause, operator_sign, leaf_draft]
  rfl

theorem clauses_draft (tree : Tree) : clauses (tree.map Query.Node.draft) = .ok tree.clauses := by
  rw [clauses, List.mapM_map]
  have each : Node.clause ∘ Query.Node.draft = fun node => pure node.clause := by
    funext node
    exact clause_draft node
  rw [each, List.mapM_pure]
  rfl

theorem outlineLines_draft (node : Query.Node) :
    node.draft.outlineLines = .ok node.outlineLines := by
  obtain ⟨sign, body, offset⟩ := node
  cases body with
  | term word => rfl
  | phrase terms place =>
    rw [Query.Node.draft, Node.outlineLines, Query.Body.draft, Body.outlineLines, List.map_map]
    rfl

theorem outline_draft (tree : Tree) : outline (tree.map Query.Node.draft) = .ok tree.outline := by
  rw [outline, List.mapM_map]
  have each : Node.outlineLines ∘ Query.Node.draft = fun node => pure node.outlineLines := by
    funext node
    exact outlineLines_draft node
  rw [each, List.mapM_pure, Tree.outline, Tree.outlineLines, List.flatMap_def]
  rfl

/-! ## Items -/

variable {α β : Type} (convert : α → β)

/-- Runs of converted items are the converted runs. -/
theorem runs_map (operatorOf : β → Option Operator) (items : List α) :
    Gathering.runs operatorOf (items.map convert) =
      (Gathering.runs (operatorOf ∘ convert) items).map (List.map convert) := by
  rw [Gathering.runs, List.splitBy_eq_iff]
  have joined : (Gathering.runs (operatorOf ∘ convert) items).flatten = items :=
    List.flatten_splitBy _ items
  refine ⟨?_, ?_, ?_, ?_⟩
  · rw [← List.map_flatten, joined]
  · intro empty
    obtain ⟨run, member, none⟩ := List.mem_map.mp empty
    rw [List.map_eq_nil_iff] at none
    exact List.ne_nil_of_mem_splitBy member none
  · intro row member
    obtain ⟨run, inside, rfl⟩ := List.mem_map.mp member
    rw [List.isChain_map]
    exact List.isChain_of_mem_splitBy inside
  · rw [List.isChain_map]
    refine (List.isChain_getLast_head_splitBy _ items).imp ?_
    rintro first second ⟨filled, filled', differ⟩
    refine ⟨by simpa using filled, by simpa using filled', ?_⟩
    rw [List.getLast_map, List.head_map]
    exact differ

theorem runOperator_map (operatorOf : β → Option Operator) (run : List α) :
    Gathering.runOperator operatorOf (run.map convert) =
      Gathering.runOperator (operatorOf ∘ convert) run := by
  cases run <;> rfl

theorem buckets_ofItems_map (operatorOf : β → Option Operator) (items : List α) :
    (Gathering.ofItems operatorOf (items.map convert)).buckets =
      (Gathering.ofItems (operatorOf ∘ convert) items).buckets.map convert := by
  apply Buckets.ext_get
  intro operator
  rw [Buckets.get_map, Gathering.get_ofItems, Gathering.get_ofItems, runs_map, List.filter_map,
    List.getLast?_map]
  have same : (fun run : List β => decide (Gathering.runOperator operatorOf run = some operator)) ∘
      List.map convert =
        fun run => decide (Gathering.runOperator (operatorOf ∘ convert) run = some operator) := by
    funext run
    simp only [Function.comp_apply, runOperator_map]
  rw [same]
  cases ((Gathering.runs (operatorOf ∘ convert) items).filter fun run =>
    Gathering.runOperator (operatorOf ∘ convert) run = some operator).getLast? <;> rfl

theorem gather_clauses (clauses : List Clause) :
    gather (clauses.map .clause) = .ok ((Buckets.ofClauses clauses).map .clause) := by
  have sound : (clauses.map Item.clause).findSome? Item.fault? = none := by
    rw [List.findSome?_eq_none_iff]
    intro item member
    obtain ⟨clause, -, rfl⟩ := List.mem_map.mp member
    rfl
  rw [gather, sound]
  exact congrArg Except.ok (buckets_ofItems_map Item.clause Item.operator? clauses)

theorem leaves_clauses (clauses : List Clause) :
    (clauses.map Item.clause).mapM Item.leaf = .ok (clauses.map Clause.leaf) := by
  have each : Item.leaf ∘ Item.clause = fun clause => pure clause.leaf := rfl
  rw [List.mapM_map, each, List.mapM_pure]
  rfl

theorem document_clauses (buckets : Buckets Clause) :
    document (buckets.map .clause) = .ok (.ofBuckets buckets) := by
  simp only [document, Buckets.map, leaves_clauses]
  rfl

/-- No stage finds a fault with a tree. -/
theorem translate_draft (tree : Tree) :
    translate (tree.map Query.Node.draft) = .ok tree.document := by
  simp only [translate, clauses_draft, bind, Except.bind, gather_clauses, document_clauses]
  rfl

end Draft

end BoolQuery.Query
