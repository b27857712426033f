import SemanticMarkup.Fault
import SemanticMarkup.Fuzz.Source
import SemanticMarkup.Tag

namespace SemanticMarkup.Fuzz
open Gen
variable {S : Type} [RandomSource S]

-- What documents are made of.

def mappedTags : List String := (Table.keys Tag.mappings).mergeSort fun a b => decide (a ≤ b)

theorem mappedTags_ne_nil : mappedTags ≠ [] := by
  intro none
  have length := congrArg List.length none
  simp [mappedTags, Table.keys, Tag.mappings] at length

def unmappedTags : List String := [
  "script", "style", "iframe", "object", "embed", "form", "input", "button", "select",
  "textarea", "video", "audio", "canvas", "svg", "math", "template", "noscript", "marquee"]

def formattingTags : List String := ["b", "strong", "i", "em", "u", "code"]

def blockTags : List String :=
  ["div", "p", "section", "article", "blockquote", "pre", "h1", "h2", "h3"]

def attributeNames : List String :=
  ["id", "class", "style", "src", "width", "height", "href", "alt", "title", "data-x"]

-- Some lack the colon, the name or the value.
def declarations : List String := [
  "color: red", "font-size: 16px", "width: 50%", "height: 10px", "-webkit-transform: none",
  "--brand: #fff", "background: url(http://example.com/a.png)", "color", ": red", "width:", "",
  ";;;", "COLOR: Blue"]

def specialChars : List Char := [
  '\x00', '\x0b', '\x0c', '\x7f', '\ufffd', '\u00a0', '\u2028', '\u2029', '\u200b', '\ufeff']

def references : List String :=
  ["&amp;", "&lt;", "&gt;", "&nbsp;", "&", "&amp", "&#x1f;", "&#99999999;", "&unknown;"]

def charsFrom (first : Char) (count : Nat) : List Char :=
  (List.range count).map fun i => Char.ofNat (first.toNat + i)

def wordChars : List Char := charsFrom 'a' 26 ++ charsFrom 'A' 26 ++ charsFrom '0' 10

def word (shortest longest : Int) : Gen S String := do
  let chars ← several shortest longest (choose wordChars (by decide))
  return .ofList chars

-- A word whose length has bounds given by a caller. There is nothing to draw from when they
-- are one apart the wrong way round.
def wordWithin (shortest longest : Int) : Except Fault (Gen S String) :=
  if longest + 1 = shortest then .error (.division "integer modulo by zero")
  else .ok (word shortest longest)

def styleText : Gen S String := do
  let parts ← several 0 5 (choose declarations (by decide))
  return String.intercalate "; " parts

-- A value that is drawn need not be written: the name may stand alone, and quotes may be missing
-- at one end or at both.
def attributeText : Gen S String := do
  let name ← choose attributeNames (by decide)
  let value ←
    if name = "style" then styleText
    else if name = "width" ∨ name = "height" then do
      let size ← word 0 5
      choose ["100", "50%", "", "auto", size] (by simp)
    else word 0 20
  let (opening, closing) ←
    choose [("=\"", "\""), ("='", "'"), ("=", ""), ("", ""), ("=\"", "")] (by simp)
  return if opening = "" then name else name ++ opening ++ value ++ closing

def tagName : Gen S String :=
  oneOf [
    choose mappedTags mappedTags_ne_nil,
    choose mappedTags mappedTags_ne_nil,
    choose formattingTags (by decide),
    choose unmappedTags (by decide),
    do return (← choose mappedTags mappedTags_ne_nil).toUpper,
    word 1 8] (by simp)

def repeated (s : String) (count : Int) : String := String.join (List.replicate count.toNat s)

def text : Gen S String :=
  oneOf [
    word 1 30,
    do return " " ++ (← word 1 10) ++ " ",
    choose references (by decide),
    do return .ofList (← several 1 5 (choose specialChars (by decide))),
    do return "<" ++ (← word 1 5),
    do return repeated " " (← between 1 20),
    do return repeated "\r\n" (← between 1 3),
    pure "<br>",
    pure " <br/> "] (by simp)

-- An element within elements, so many levels at most. It may stay open, or be closed by the name
-- of another.
def nested : Nat → Gen S String
  | 0 => text
  | levels + 1 => do
    if ← chance 300 then text
    else
      let tag ← tagName
      let attributes ← several 0 3 attributeText
      let start := "<" ++ String.intercalate " " (tag :: attributes) ++ ">"
      let children ← several 0 3 (nested levels)
      let body := start ++ String.join children
      if ← chance 200 then return body
      else if ← chance 100 then return body ++ "</" ++ (← tagName) ++ ">"
      else return body ++ "</" ++ tag ++ ">"

def nestedFrom (depth limit : Int) : Gen S String := nested (limit - depth).toNat

def opened (tag : String) : String := "<" ++ tag ++ ">"
def closed (tag : String) : String := "</" ++ tag ++ ">"
def wrapped (tag body : String) : String := opened tag ++ body ++ closed tag

def formattingRun : Gen S String := do
  let a ← choose formattingTags (by decide)
  let b ← choose formattingTags (by decide)
  let block ← choose blockTags (by decide)
  choose [
    opened a ++ "text" ++ opened block ++ "more" ++ closed a ++ "content" ++ closed block,
    opened a ++ opened b ++ "x" ++ closed a ++ "y" ++ closed b,
    wrapped a "",
    wrapped a "one<br>two<br><br>three",
    wrapped block (wrapped a "a" ++ wrapped b "b" ++ " c "),
    repeated (opened a) 5 ++ "deep" ++ repeated (closed a) 3] (by simp)

-- One child of a list, not always an item. All candidates are made, one is taken.
def listChild (inner : Gen S String) : Gen S String := do
  let plain ← word 1 10
  let paragraph ← word 1 10
  let run ← formattingRun
  let stray ← word 1 5
  let last ← if ← chance 300 then inner else pure "x"
  choose [
    wrapped "li" plain,
    wrapped "li" (wrapped "p" paragraph),
    wrapped "li" "",
    wrapped "li" run,
    wrapped "p" stray,
    wrapped "li" last] (by simp)

def listOf (child : Gen S String) : Gen S String := do
  let kind ← choose ["ul", "ol"] (by simp)
  let children ← several 0 5 child
  return wrapped kind (String.join children)

-- A list within lists. Chance ends the nesting; the number of levels is only there to bound it.
def listWithin (levels : Nat) (s : S) : String × S :=
  match levels with
  | 0 => ("x", s)
  | levels + 1 => listOf (listChild (listWithin levels)) s

def mostLevels : Nat := 2147483648

def list : Gen S String := listWithin mostLevels

def row : Gen S String := do
  let cells ← several 0 3 do
    let kind ← choose ["td", "th"] (by simp)
    let content ← word 0 5
    return opened kind ++ content ++ closed "td"
  return wrapped "tr" (String.join cells)

def table : Gen S String := do
  let count ← between 1 4
  let kinds ← sample count.toNat [some "thead", some "tbody", some "tfoot", none]
  let sections ← kinds.mapM fun kind => do
    let rows ← several 0 3 row
    return match kind with
      | some tag => wrapped tag (String.join rows)
      | none => String.join rows
  return wrapped Tag.table (String.join sections)

def image : Gen S String := do
  let attributes ← several 0 4 attributeText
  let source ←
    if ← chance 700 then
      let name ← word 1 10
      pure ["src=\"" ++ name ++ ".png\""]
    else pure []
  let attributes ← shuffled (attributes ++ source)
  let content ← word 1 5
  let ending ← choose [">", "/>", "></img>", ">" ++ content ++ "</img>"] (by simp)
  return "<img " ++ String.intercalate " " attributes ++ ending

def document : Gen S String := do
  let parts ← several 1 6
    (oneOf [nested 8, nested 8, formattingRun, list, table, image, text] (by simp))
  return String.join parts

end SemanticMarkup.Fuzz
