import BoolQuery.Query.Tree
import BoolQuery.Text.Quoted

/-! The outline of a tree: one line for the query, then one for each node, each body and each
term of a phrase, indented by depth. -/

set_option autoImplicit false

namespace BoolQuery.Query.Outline

/-- Text of the line of a node; a missing sign is written out. -/
def nodeLine (offset : String) (sign : Option String) : String :=
  "  clause @" ++ offset ++ " operator=" ++ sign.getD "(none)"

def phraseLine (offset : String) : String := "    phrase @" ++ offset

def termText (offset text : String) : String := "term @" ++ offset ++ " " ++ Text.quoted text

def termLine (offset text : String) : String := "    " ++ termText offset text

def innerTermLine (offset text : String) : String := "      " ++ termText offset text

end BoolQuery.Query.Outline

namespace BoolQuery.Query

open Outline

def Body.outlineLines : Body → List String
  | .term word => [termLine (toString word.offset) word.text]
  | .phrase terms offset =>
    phraseLine (toString offset) ::
      terms.map fun word => innerTermLine (toString word.offset) word.text

def Node.outlineLines (node : Node) : List String :=
  nodeLine (toString node.offset) (node.sign.map fun sign => sign.toChar.toString) ::
    node.body.outlineLines

def Tree.outlineLines (tree : Tree) : List String :=
  "query" :: tree.flatMap Node.outlineLines

def Tree.outline (tree : Tree) : String := "\n".intercalate tree.outlineLines

end BoolQuery.Query
