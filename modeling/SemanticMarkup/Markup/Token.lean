import SemanticMarkup.Markup.Reference
import SemanticMarkup.Table
import SemanticMarkup.Text.Blank
import SemanticMarkup.Text.Casing

namespace SemanticMarkup.Markup

-- What markup text is cut into. Comments, doctypes, processing instructions and marked sections
-- show nothing, but end the text before them.
inductive Token where
  | data (text : List Char)
  | opening (name : String) (attributes : Table String) (closed : Bool)
  | closing (name : String)
  | declaration
  deriving Repr

-- Why a document is refused as a whole: a marked section of no known kind, or a reference to a
-- character by a number of too many digits.
inductive Refusal where
  | section (reason : String)
  | longReference (digits : Nat)
  deriving DecidableEq, Repr

namespace Lexer

def isLetter (c : Char) : Bool := c.isAlpha

def past? (c : Char) (cs : List Char) : Option (List Char) :=
  match cs.dropWhile (· ≠ c) with
  | [] => none
  | _ :: rest => some rest

theorem past?_shorter {c : Char} {cs rest : List Char} (found : past? c cs = some rest) :
    rest.length < cs.length := by
  unfold past? at found
  have whole := (List.dropWhile_suffix (fun d => d ≠ c) (l := cs)).length_le
  split at found
  · cases found
  · rename_i shape
    cases found
    simp only [shape, List.length_cons] at whole
    omega

-- The text behind the end of a comment: two dashes, blanks, and the closing bracket.
def pastComment? : List Char → Option (List Char)
  | [] => none
  | '-' :: tail@('-' :: rest) =>
    match rest.dropWhile Text.isBlank with
    | '>' :: after => some after
    | _ => pastComment? tail
  | _ :: rest => pastComment? rest

-- The text behind `]>`, or behind `]]>`, where blanks may stand before the later brackets.
def pastCondition? : List Char → Option (List Char)
  | [] => none
  | ']' :: rest =>
    match rest.dropWhile Text.isBlank with
    | '>' :: after => some after
    | _ => pastCondition? rest
  | _ :: rest => pastCondition? rest

def pastSection? : List Char → Option (List Char)
  | [] => none
  | ']' :: rest =>
    match rest.dropWhile Text.isBlank with
    | ']' :: more =>
      match more.dropWhile Text.isBlank with
      | '>' :: after => some after
      | _ => pastSection? rest
    | _ => pastSection? rest
  | _ :: rest => pastSection? rest

theorem dropWhile_length_le (p : Char → Bool) (cs : List Char) : (cs.dropWhile p).length ≤ cs.length :=
  (List.dropWhile_suffix p).length_le

theorem dropWhile_cons_shorter {p : Char → Bool} {cs rest : List Char} {c : Char}
    (shape : cs.dropWhile p = c :: rest) : rest.length < cs.length := by
  have := dropWhile_length_le p cs
  simp only [shape, List.length_cons] at this
  omega

theorem pastComment?_shorter {cs rest : List Char} (found : pastComment? cs = some rest) :
    rest.length < cs.length := by
  fun_induction pastComment? cs with
  | case1 => cases found
  | case2 inner after shape =>
    cases found
    have := dropWhile_cons_shorter shape
    simp only [List.length_cons]
    omega
  | case3 inner _ ih =>
    have := ih found
    simp only [List.length_cons] at this ⊢
    omega
  | case4 c inner _ ih =>
    have := ih found
    simp only [List.length_cons]
    omega

theorem pastCondition?_shorter {cs rest : List Char} (found : pastCondition? cs = some rest) :
    rest.length < cs.length := by
  fun_induction pastCondition? cs with
  | case1 => cases found
  | case2 inner after shape =>
    cases found
    have := dropWhile_cons_shorter shape
    simp only [List.length_cons]
    omega
  | case3 inner _ ih =>
    have := ih found
    simp only [List.length_cons]
    omega
  | case4 c inner _ ih =>
    have := ih found
    simp only [List.length_cons]
    omega

theorem pastSection?_shorter {cs rest : List Char} (found : pastSection? cs = some rest) :
    rest.length < cs.length := by
  fun_induction pastSection? cs with
  | case1 => cases found
  | case2 inner more shape after shape' =>
    cases found
    have := dropWhile_cons_shorter shape
    have := dropWhile_cons_shorter shape'
    simp only [List.length_cons]
    omega
  | case3 inner more _ _ ih =>
    have := ih found
    simp only [List.length_cons]
    omega
  | case4 inner _ ih =>
    have := ih found
    simp only [List.length_cons]
    omega
  | case5 c inner _ ih =>
    have := ih found
    simp only [List.length_cons]
    omega

-- Tag names run up to a blank of ASCII, a slash, a closing bracket or NUL.
def inTagName (c : Char) : Bool :=
  !(c == '\t' || c == '\n' || c == '\r' || c == '\x0c' || c == ' ' || c == '/' || c == '>' ||
    c == '\x00')

-- Passes blanks and slashes, but not a slash that closes the tag. Also tells the last character
-- passed, or the one given when there is none.
def skipSeparators : Char → List Char → Char × List Char
  | last, [] => (last, [])
  | last, '/' :: '>' :: rest => (last, '/' :: '>' :: rest)
  | last, c :: rest =>
    if Text.isBlank c || c == '/' then skipSeparators c rest else (last, c :: rest)

theorem skipSeparators_suffix (last : Char) (cs : List Char) : (skipSeparators last cs).2 <:+ cs := by
  fun_induction skipSeparators last cs with
  | case1 => exact List.suffix_refl _
  | case2 => exact List.suffix_refl _
  | case3 last c rest _ _ ih => exact ih.trans (List.suffix_cons _ _)
  | case4 => exact List.suffix_refl _

def inAttributeStart (c : Char) : Bool := !(Text.isBlank c || c == '/' || c == '>')
def inAttributeName (c : Char) : Bool := inAttributeStart c && c ≠ '='

def mayPrecedeName (c : Char) : Bool := Text.isBlank c || c == '/' || c == '\'' || c == '"'

def inBareValue (c : Char) : Bool := !(Text.isBlank c || c == '>')

structure Valued where
  value : List Char
  last : Char
  rest : List Char

def bareValue (last : Char) (cs : List Char) : Valued :=
  let value := cs.takeWhile inBareValue
  ⟨value, (value.getLast?).getD last, cs.dropWhile inBareValue⟩

-- Reads what may follow an attribute name: one or more equal signs and a value. A quote that is
-- never closed begins no value: after blanks the value is empty, after several equal signs the
-- last of them belongs to a bare value, and otherwise there is no value at all.
def value (last : Char) (cs : List Char) : Valued :=
  let fromSigns := cs.dropWhile Text.isBlank
  let signs := fromSigns.takeWhile (· = '=')
  let afterSigns := fromSigns.dropWhile (· = '=')
  let start := afterSigns.dropWhile Text.isBlank
  if signs.isEmpty then ⟨[], last, cs⟩
  else
    match start with
    | q :: inside =>
      if q = '\'' ∨ q = '"' then
        match past? q inside with
        | some rest => ⟨inside.takeWhile (· ≠ q), q, rest⟩
        | none =>
          if start.length < afterSigns.length then ⟨[], ' ', start⟩
          else if 1 < signs.length then
            let bare := bareValue '=' start
            ⟨'=' :: bare.value, bare.last, bare.rest⟩
          else ⟨[], last, cs⟩
      else
        bareValue '=' start
    | [] => ⟨[], '=', []⟩

theorem value_length_le (last : Char) (cs : List Char) : (value last cs).rest.length ≤ cs.length := by
  have one := dropWhile_length_le Text.isBlank cs
  have two := dropWhile_length_le (· = '=') (cs.dropWhile Text.isBlank)
  have three := dropWhile_length_le Text.isBlank ((cs.dropWhile Text.isBlank).dropWhile (· = '='))
  have four := dropWhile_length_le inBareValue
    (((cs.dropWhile Text.isBlank).dropWhile (· = '=')).dropWhile Text.isBlank)
  unfold value
  simp only [bareValue]
  split
  · simp
  · split
    · rename_i q inside shape
      split
      · split
        · rename_i rest found
          have := past?_shorter found
          have whole := congrArg List.length shape
          simp only [List.length_cons] at whole
          simp only
          omega
        · split
          · simp only
            omega
          · split
            · simp only
              omega
            · simp
      · simp only
        omega
    · simp

-- The attributes from here on with their values as they are written, and what follows them. Names
-- are read in lower case.
def attributes (last : Char) (cs : List Char) : List (String × List Char) × List Char :=
  match cs with
  | [] => ([], [])
  | c :: tail =>
    if inAttributeStart c && mayPrecedeName last then
      let name := c :: tail.takeWhile inAttributeName
      let v := value ((name.getLast?).getD c) (tail.dropWhile inAttributeName)
      let next := skipSeparators v.last v.rest
      let more := attributes next.1 next.2
      ((.ofList (Text.lower name), v.value) :: more.1, more.2)
    else ([], c :: tail)
termination_by cs.length
decreasing_by
  have one := dropWhile_length_le inAttributeName tail
  have two := value_length_le (((c :: tail.takeWhile inAttributeName).getLast?).getD c)
    (tail.dropWhile inAttributeName)
  have three := (skipSeparators_suffix
    (value (((c :: tail.takeWhile inAttributeName).getLast?).getD c) (tail.dropWhile inAttributeName)).last
    (value (((c :: tail.takeWhile inAttributeName).getLast?).getD c)
      (tail.dropWhile inAttributeName)).rest).length_le
  simp only [List.length_cons]
  omega

theorem attributes_length_le (last : Char) (cs : List Char) :
    (attributes last cs).2.length ≤ cs.length := by
  fun_induction attributes last cs with
  | case1 => simp
  | case2 last c tail _ name v next more ih =>
    have one := dropWhile_length_le inAttributeName tail
    have two : v.rest.length ≤ (tail.dropWhile inAttributeName).length := value_length_le _ _
    have three : next.2.length ≤ v.rest.length := (skipSeparators_suffix v.last v.rest).length_le
    have four : more.2.length ≤ next.2.length := ih
    simp only [List.length_cons]
    omega
  | case3 => simp

-- What stands at an opening bracket: a token or nothing visible, with the text after it; a piece
-- of plain text that begins with the bracket; something that is not finished; or something for
-- which the document is refused.
inductive Lexeme where
  | token (t : Token) (rest : List Char)
  | nothing (rest : List Char)
  | plain (more rest : List Char)
  | unfinished
  | refused (reason : Refusal)

def Lexeme.rest? : Lexeme → Option (List Char)
  | .token _ rest | .nothing rest | .plain _ rest => some rest
  | .unfinished | .refused _ => none

def Lexeme.unlessExcess (found : List (String × List Char)) (lexeme : Lexeme) : Lexeme :=
  match found.findSome? fun entry => Reference.excessIn? entry.2 with
  | some digits => .refused (.longReference digits)
  | none => lexeme

theorem Lexeme.unlessExcess_rest {found : List (String × List Char)} {lexeme : Lexeme}
    {rest : List Char} (h : (lexeme.unlessExcess found).rest? = some rest) :
    lexeme.rest? = some rest := by
  unfold unlessExcess at h
  split at h
  · cases h
  · exact h

def decoded (found : List (String × List Char)) : Table String :=
  Table.ofPairs (found.map fun entry => (entry.1, .ofList (Reference.decode entry.2)))

def startTagEnd (name : List Char) (last : Char) (behind : List Char) : Lexeme :=
  let next := skipSeparators last behind
  let found := attributes next.1 next.2
  let tag (closed : Bool) : Token := .opening (.ofList (Text.lower name)) (decoded found.1) closed
  match found.2 with
  | '>' :: rest => (Lexeme.token (tag false) rest).unlessExcess found.1
  | '/' :: '>' :: rest => (Lexeme.token (tag true) rest).unlessExcess found.1
  | _ => .unfinished

-- A start tag from its first letter on. A name that NUL ends makes no tag, unless it has a quote
-- for its last character.
def startTag (unclosed : Bool) (c : Char) (tail : List Char) : Lexeme :=
  match tail.dropWhile inTagName with
  | [] => .unfinished
  | d :: behind =>
    let name := c :: tail.takeWhile inTagName
    let last := (name.getLast?).getD c
    if d = '\x00' ∧ ¬mayPrecedeName last then .plain name (d :: behind)
    else if unclosed then .unfinished
    else startTagEnd name last (d :: behind)

def inClosingName (c : Char) : Bool := c.isAlphanum || c == '-' || c == '.' || c == ':' || c == '_'

def closingName? (cs : List Char) : Option (List Char) :=
  match cs.dropWhile Text.isBlank with
  | c :: tail =>
    if isLetter c then
      match (tail.dropWhile inClosingName).dropWhile Text.isBlank with
      | '>' :: _ => some (c :: tail.takeWhile inClosingName)
      | _ => none
    else none
  | [] => none

-- The readers that follow are told when the text is known to have no closing bracket. What only
-- such a bracket can end is not searched for then.
@[macro_inline] def search (unclosed : Bool) (found : Option (List Char)) : Option (List Char) :=
  if unclosed then none else found

theorem search_found {unclosed : Bool} {found : Option (List Char)} {rest : List Char}
    (h : search unclosed found = some rest) : found = some rest := by
  cases unclosed <;> simp_all [search]

-- An end tag, from behind its slash. What is no name makes a comment.
def endTag (unclosed : Bool) (cs : List Char) : Lexeme :=
  match search unclosed (past? '>' cs) with
  | none => .unfinished
  | some rest =>
    match closingName? cs, cs with
    | some name, _ => .token (.closing (.ofList (Text.lower name))) rest
    | none, '>' :: _ => .nothing rest
    | none, c :: tail =>
      if isLetter c then .token (.closing (.ofList (Text.lower (c :: tail.takeWhile inTagName)))) rest
      else .token .declaration rest
    | none, [] => .unfinished

def inSectionName (c : Char) : Bool := c.isAlphanum || c == '-' || c == '_' || c == '.'

def ended (rest : Option (List Char)) : Lexeme :=
  match rest with
  | some rest => .token .declaration rest
  | none => .unfinished

def section? (unclosed : Bool) (cs : List Char) : Lexeme :=
  match cs with
  | [] => .unfinished
  | c :: tail =>
    if isLetter c then
      let name := c :: tail.takeWhile inSectionName
      let afterName := tail.dropWhile inSectionName
      let rest := afterName.dropWhile Text.isBlank
      let key := Text.lower name
      if rest.isEmpty then .unfinished
      else if ["temp", "cdata", "ignore", "include", "rcdata"].any (·.toList == key) then
        ended (search unclosed (pastSection? cs))
      else if ["if", "else", "endif"].any (·.toList == key) then
        ended (search unclosed (pastCondition? cs))
      else .refused (.section ("unknown status keyword " ++
        .ofList (Text.quoted (name ++ afterName.takeWhile Text.isBlank)) ++ " in marked section"))
    else
      .refused (.section ("expected name token at " ++
        .ofList (Text.quoted (('<' :: '!' :: '[' :: cs).take 20))))

def lexeme (unclosed : Bool) (cs : List Char) : Lexeme :=
  match cs with
  | [] => .unfinished
  | '/' :: rest => endTag unclosed rest
  | '!' :: '-' :: '-' :: rest => ended (search unclosed (pastComment? rest))
  | '!' :: '[' :: rest => section? unclosed rest
  | '!' :: rest => ended (search unclosed (past? '>' rest))
  | '?' :: rest => ended (search unclosed (past? '>' rest))
  | c :: rest => if isLetter c then startTag unclosed c rest else .plain [] (c :: rest)

end Lexer
end SemanticMarkup.Markup
