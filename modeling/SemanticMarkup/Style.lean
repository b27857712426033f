import SemanticMarkup.Text.Blank
import SemanticMarkup.Text.Casing
import SemanticMarkup.Value

namespace SemanticMarkup.Style

-- Style tables have keys such as `fontSize`; style attributes and stylesheets write `font-size`.
-- Names that begin with two dashes are custom properties and keep their spelling in both.
def isCustom : List Char → Bool
  | '-' :: '-' :: _ => true
  | _ => false

def isSmallLetter (c : Char) : Bool := 'a' ≤ c && c ≤ 'z'
def isCapitalLetter (c : Char) : Bool := 'A' ≤ c && c ≤ 'Z'

-- A dash before a small letter goes and makes the letter a capital.
def joinWords : List Char → List Char
  | '-' :: c :: rest =>
    if isSmallLetter c then c.toUpper :: joinWords rest else '-' :: joinWords (c :: rest)
  | c :: rest => c :: joinWords rest
  | [] => []

-- A dash comes between a small letter or digit and the capital after it.
def splitWords : List Char → List Char
  | c :: d :: rest =>
    if (isSmallLetter c || c.isDigit) && isCapitalLetter d then c :: '-' :: splitWords (d :: rest)
    else c :: splitWords (d :: rest)
  | cs => cs

def toKey (name : List Char) : List Char := if isCustom name then name else joinWords name

-- From the key to the written name. A leading capital stands for a leading dash.
def toName (key : List Char) : List Char :=
  if isCustom key then key
  else
    let name := Text.lower (splitWords key)
    match key with
    | c :: _ => if Text.isUpper c then '-' :: name else name
    | [] => name

-- One declaration, split at its first colon. Without a colon, a name or a value it is skipped.
def readDeclaration? (cs : List Char) : Option (String × String) :=
  match cs.dropWhile (· ≠ ':') with
  | [] => none
  | _ :: value =>
    let name := Text.trim (cs.takeWhile (· ≠ ':'))
    let value := Text.trim value
    if name.isEmpty || value.isEmpty then none
    else
      let name := if isCustom name then name else Text.lower name
      some (.ofList (toKey name), .ofList value)

-- The declarations of a style text, which semicolons separate. Of two with one key the first
-- gives the place and the last the value.
def declarations (cs : List Char) : Table String :=
  Table.ofPairs ((Text.pieces (· = ';') cs).filterMap readDeclaration?)

def parse (style : String) : Table String := declarations style.toList

-- Font properties that elements hand down to the text inside them.
def inherited : List String :=
  ["fontFamily", "fontSize", "fontWeight", "fontStyle", "lineHeight", "color"]

def inheritable (style : Table Value) : Table Value :=
  inherited.filterMap fun key =>
    match Table.get? style key with
    | none => none
    | some .null => none
    | some value => some (key, value)

end SemanticMarkup.Style
