import BoolQuery.Data.Display
import BoolQuery.Query.Document
import BoolQuery.Query.Outline

/-! Drafts: parts of a query put together by hand.

A draft need not be anything that a query can be read to. Its sign may be any text, its offset
negative, and any value may stand where a body or a clause belongs. `check` and its companions
turn a draft into the part that it stands for, or say what is wrong with it.
-/

set_option autoImplicit false

namespace BoolQuery.Query

structure Draft.Term where
  text : String
  offset : Int

inductive Draft.Body where
  | term (word : Draft.Term)
  | phrase (terms : List Draft.Term) (offset : Int)
  | node (sign : Option String) (body : Draft.Body) (offset : Int)
  | data (value : Data)

structure Draft.Node where
  sign : Option String
  body : Draft.Body
  offset : Int

inductive Draft.Item where
  | clause (found : Clause)
  | node (body : Draft.Body)
  | data (value : Data)

/-- What is wrong with a draft; each cause holds the display form of the part at fault. -/
inductive Draft.Fault where
  | unknownOperator (sign : String)
  | unexpectedBody (shown : String)
  | unknownClause (shown : String)
  -- A part that names no operator stands among those that are gathered by theirs.
  | noOperator (shown : String)
  -- A part that is neither term nor phrase stands as a body to be outlined.
  | noOutline (shown : String)
  -- A part is nested too deep to be displayed.
  | tooDeep
  deriving DecidableEq, Repr

namespace Draft

def Fault.message : Fault → String
  | .unknownOperator sign => "Unknown operator: " ++ Text.quoted sign
  | .unexpectedBody shown => "Unexpected clause body: " ++ shown
  | .unknownClause shown => "Unknown clause type: " ++ shown
  | .noOperator shown => "No operator: " ++ shown
  | .noOutline shown => "No outline: " ++ shown
  | .tooDeep => "Nested too deep"

/-- A row of values in parentheses; a single one is followed by a comma. -/
def displayRow : List String → String
  | [] => "()"
  | [only] => "(" ++ only ++ ",)"
  | several => "(" ++ ", ".intercalate several ++ ")"

def Term.display (term : Term) : String :=
  "TermNode(text=" ++ Text.quoted term.text ++ ", offset=" ++ toString term.offset ++ ")"

def displaySign : Option String → String
  | none => "None"
  | some sign => Text.quoted sign

def Body.display : Body → String
  | .term word => word.display
  | .phrase terms offset =>
    "PhraseNode(terms=" ++ displayRow (terms.map Term.display) ++
      ", offset=" ++ toString offset ++ ")"
  | .node sign body offset =>
    "ClauseNode(operator=" ++ displaySign sign ++ ", body=" ++ body.display ++
      ", offset=" ++ toString offset ++ ")"
  | .data value => String.ofList value.display

def Body.depth : Body → Nat
  | .node _ body _ => body.depth + 1
  | _ => 0

/-- Nodes nested deeper than this are not displayed. -/
def deepestDisplay : Nat := 330

def Body.fault (body : Body) (cause : String → Fault) : Fault :=
  if deepestDisplay < body.depth then .tooDeep else cause body.display

/-- The operator of a sign; only the two signs of a query have one. -/
def operator : Option String → Except Fault Operator
  | none => .ok .should
  | some sign =>
    if sign = "+" then .ok .must
    else if sign = "-" then .ok .mustNot
    else .error (.unknownOperator sign)

def Body.leaf : Body → Except Fault Leaf
  | .term word => .ok (.term word.text)
  | .phrase terms _ => .ok (.phrase (" ".intercalate (terms.map Term.text)))
  | body => .error (body.fault .unexpectedBody)

/-- The clause of a drafted node. A wrong sign is reported before a wrong body. -/
def Node.clause (node : Node) : Except Fault Clause := do
  let operator ← operator node.sign
  let leaf ← node.body.leaf
  return ⟨operator, leaf⟩

def clauses (nodes : List Node) : Except Fault (List Clause) := nodes.mapM Node.clause

/-- The operator that an item is grouped by. A node that stands where a clause belongs goes with
the operator that its sign spells out. -/
def Item.operator? : Item → Option Operator
  | .clause found => some found.operator
  | .node (.node (some sign) _ _) => Operator.ofName? sign
  | _ => none

/-- The fault of an item that has no place for an operator, not even for a wrong one. -/
def Item.fault? : Item → Option Fault
  | .clause _ | .node (.node ..) => none
  | .node body => some (.noOperator body.display)
  | .data value => some (.noOperator (String.ofList value.display))

def gather (items : List Item) : Except Fault (Buckets Item) :=
  match items.findSome? Item.fault? with
  | some fault => .error fault
  | none => .ok (Gathering.ofItems Item.operator? items).buckets

def Item.leaf : Item → Except Fault Leaf
  | .clause found => .ok found.leaf
  | .node body => .error (body.fault .unknownClause)
  | .data value => .error (.unknownClause (String.ofList value.display))

/-- The document of drafted buckets, or the first fault in document order. -/
def document (buckets : Buckets Item) : Except Fault Document := do
  let should ← buckets.should.mapM Item.leaf
  let must ← buckets.must.mapM Item.leaf
  let mustNot ← buckets.mustNot.mapM Item.leaf
  return ⟨should, must, mustNot⟩

def Body.outlineLines : Body → Except Fault (List String)
  | .term word => .ok [Outline.termLine (toString word.offset) word.text]
  | .phrase terms offset =>
    .ok (Outline.phraseLine (toString offset) ::
      terms.map fun word => Outline.innerTermLine (toString word.offset) word.text)
  | body => .error (.noOutline body.display)

def Node.outlineLines (node : Node) : Except Fault (List String) :=
  node.body.outlineLines.map fun lines =>
    Outline.nodeLine (toString node.offset) node.sign :: lines

def outline (nodes : List Node) : Except Fault String := do
  let lines ← nodes.mapM Node.outlineLines
  return "\n".intercalate ("query" :: lines.flatten)

end BoolQuery.Query.Draft
