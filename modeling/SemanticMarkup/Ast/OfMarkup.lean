import SemanticMarkup.Fault
import SemanticMarkup.Markup.Piece
import SemanticMarkup.Walk

namespace SemanticMarkup.Ast
open Markup

-- The text of an attribute value of any shape: nothing for a missing one, and the parts of a list
-- with spaces between them.
def attributeText : Value → String
  | .null => ""
  | .list items => String.intercalate " " (items.map Value.shown)
  | value => value.shown

def tagHead (name : String) (attributes : Table Value) : AstHead :=
  AstHead.tag (Text.lowered name)
    (Table.ofPairs (attributes.map fun entry => (Text.lowered entry.1, attributeText entry.2)))

def depthRefusal : Fault := .tooDeep depthLimit "parse" .null none

-- The trees of the pieces that stand at a depth. Declarations leave no trace; a tag or text below
-- the greatest depth is refused.
def ofPieces (depth : Nat) : List Piece → Except Fault (List Ast)
  | [] => .ok []
  | .declaration :: rest => ofPieces depth rest
  | .text data :: rest =>
    if maxDepth < depth then .error depthRefusal
    else do
      let more ← ofPieces depth rest
      return .node (.text data) [] :: more
  | .tag name attributes children :: rest =>
    if maxDepth < depth then .error depthRefusal
    else do
      let inside ← ofPieces (depth + 1) children
      let more ← ofPieces depth rest
      return .node (tagHead name attributes) inside :: more

def ofDocument (pieces : List Piece) : Except Fault Ast :=
  (ofPieces 1 pieces).map fun children => .node .root children

def refusal : Refusal → Fault
  | .section reason =>
    .rejected ("The markup you provided was rejected by the parser. Trying a different parser or a " ++
      "different encoding may help.\n\nOriginal exception(s) from parser:\n AssertionError: " ++ reason)
  | .longReference digits => .value ((Text.NumeralError.tooLong digits).message "")

abbrev Reader := String → Except Fault (List Piece)

-- Whatever is malformed is recovered from; only unknown marked sections and references with too many
-- digits are refused.
def reader : Reader := fun markup => (read markup).mapError refusal

def parseWith (reader : Reader) (markup : String) : Except Fault Ast := do
  ofDocument (← reader markup)

def parse (markup : String) : Except Fault Ast := parseWith reader markup

end SemanticMarkup.Ast
