import SemanticMarkup.Markup.Token

namespace SemanticMarkup.Markup.Lexer

theorem ended_rest {o : Option (List Char)} {rest : List Char} (h : (ended o).rest? = some rest) :
    o = some rest := by
  cases o with
  | none => cases h
  | some r => exact h

theorem startTagEnd_rest {name behind rest : List Char} {last : Char}
    (h : (startTagEnd name last behind).rest? = some rest) : rest.length ≤ behind.length := by
  have one := (skipSeparators_suffix last behind).length_le
  have two := attributes_length_le (skipSeparators last behind).1 (skipSeparators last behind).2
  unfold startTagEnd at h
  simp only at h
  split at h
  · rename_i shape
    cases Lexeme.unlessExcess_rest h
    simp only [shape, List.length_cons] at two
    omega
  · rename_i shape
    cases Lexeme.unlessExcess_rest h
    simp only [shape, List.length_cons] at two
    omega
  · cases h

theorem startTag_rest {unclosed : Bool} {c : Char} {tail rest : List Char}
    (h : (startTag unclosed c tail).rest? = some rest) : rest.length ≤ tail.length := by
  have whole := dropWhile_length_le inTagName tail
  unfold startTag at h
  split at h
  · cases h
  · rename_i shape
    rw [shape] at whole
    simp only at h
    split at h
    · cases h
      exact whole
    · split at h
      · cases h
      · exact Nat.le_trans (startTagEnd_rest h) whole

theorem endTag_rest {unclosed : Bool} {cs rest : List Char}
    (h : (endTag unclosed cs).rest? = some rest) : rest.length ≤ cs.length := by
  unfold endTag at h
  split at h
  · cases h
  · rename_i found
    have short := past?_shorter (search_found found)
    split at h
    · cases h; omega
    · cases h; omega
    · split at h <;> (cases h; omega)
    · cases h

theorem section?_rest {unclosed : Bool} {cs rest : List Char}
    (h : (section? unclosed cs).rest? = some rest) : rest.length ≤ cs.length := by
  unfold section? at h
  split at h
  · cases h
  · split at h
    · simp only at h
      split at h
      · cases h
      · split at h
        · exact Nat.le_of_lt (pastSection?_shorter (search_found (ended_rest h)))
        · split at h
          · exact Nat.le_of_lt (pastCondition?_shorter (search_found (ended_rest h)))
          · cases h
    · cases h

theorem lexeme_rest {unclosed : Bool} {cs rest : List Char}
    (h : (lexeme unclosed cs).rest? = some rest) : rest.length ≤ cs.length := by
  unfold lexeme at h
  split at h
  · cases h
  · have := endTag_rest h
    simp only [List.length_cons]
    omega
  · have := pastComment?_shorter (search_found (ended_rest h))
    simp only [List.length_cons]
    omega
  · have := section?_rest h
    simp only [List.length_cons]
    omega
  · have := past?_shorter (search_found (ended_rest h))
    simp only [List.length_cons]
    omega
  · have := past?_shorter (search_found (ended_rest h))
    simp only [List.length_cons]
    omega
  · split at h
    · have := startTag_rest h
      simp only [List.length_cons]
      omega
    · cases h
      exact Nat.le_refl _

-- A letter of a closing script or style tag. The long s and the two foreign forms of i count as
-- the letter they look like here, though not for the name that they make.
def looksLike (letter c : Char) : Bool :=
  c.toLower == letter || (letter == 's' && c.toNat == 0x17F) ||
    (letter == 'i' && (c.toNat == 0x131 || c.toNat == 0x130))

def afterName? : List Char → List Char → Option (List Char)
  | [], cs => some cs
  | _ :: _, [] => none
  | letter :: name, c :: cs => if looksLike letter c then afterName? name cs else none

theorem afterName?_length {name cs rest : List Char} (found : afterName? name cs = some rest) :
    rest.length ≤ cs.length := by
  induction name generalizing cs with
  | nil =>
    simp only [afterName?, Option.some.injEq] at found
    simp [found]
  | cons letter name ih =>
    cases cs with
    | nil => cases found
    | cons c cs =>
      simp only [afterName?] at found
      split at found
      · have := ih found
        simp only [List.length_cons]
        omega
      · cases found

-- The end tag that raw text waits for: how it is written, whether its name is spelled with plain
-- letters, and the text behind it.
structure RawEnd where
  written : List Char
  plain : Bool
  rest : List Char

def rawEnd? (name cs : List Char) : Option RawEnd :=
  match cs with
  | '<' :: '/' :: more =>
    let start := more.dropWhile Text.isBlank
    (afterName? name start).bind fun rest =>
      match rest.dropWhile Text.isBlank with
      | '>' :: after =>
        let spelled := start.take name.length
        some ⟨'<' :: '/' :: (more.takeWhile Text.isBlank ++ spelled ++ rest.takeWhile Text.isBlank ++ ['>']),
          spelled.all (·.toNat < 0x80), after⟩
      | _ => none
  | _ => none

theorem rawEnd?_shorter {name cs : List Char} {e : RawEnd} (found : rawEnd? name cs = some e) :
    e.rest.length < cs.length := by
  unfold rawEnd? at found
  split at found
  · rename_i more
    have one := dropWhile_length_le Text.isBlank more
    simp only at found
    cases named : afterName? name (more.dropWhile Text.isBlank) with
    | none => simp [named] at found
    | some rest' =>
      have two := afterName?_length named
      simp only [named, Option.bind_some] at found
      split at found
      · rename_i shape
        cases found
        have three := dropWhile_cons_shorter shape
        simp only [List.length_cons]
        omega
      · cases found
  · cases found

-- Raw text up to the end tag: what is shown, and what comes behind the end tag. Without an end
-- tag only the part up to the last lookalike is shown.
def rawText (name cs : List Char) : List Char × Option (List Char) :=
  match cs with
  | [] => ([], none)
  | c :: tail =>
    match _found : rawEnd? name (c :: tail) with
    | some e =>
      if e.plain then ([], some e.rest)
      else
        let more := rawText name e.rest
        (e.written ++ more.1, more.2)
    | none =>
      let more := rawText name tail
      if more.1.isEmpty && more.2.isNone then ([], none) else (c :: more.1, more.2)
termination_by cs.length
decreasing_by
  · exact rawEnd?_shorter _found
  · simp

theorem rawText_rest {name cs rest : List Char} (found : (rawText name cs).2 = some rest) :
    rest.length ≤ cs.length := by
  fun_induction rawText name cs with
  | case1 => cases found
  | case2 c tail e shape plain =>
    cases found
    exact Nat.le_of_lt (rawEnd?_shorter shape)
  | case3 c tail e shape plain more ih =>
    have one := rawEnd?_shorter shape
    have two := ih found
    omega
  | case4 c tail _ more _ => cases found
  | case5 c tail _ more _ ih =>
    have two := ih found
    simp only [List.length_cons]
    omega

def isRaw (name : String) : Bool := name == "script" || name == "style"

def isText (c : Char) : Bool := c ≠ '<' && c ≠ '&'

inductive TextReference where
  | char (data : List Char) (rest : List Char)
  | plain
  | broken
  | atEnd
  | refused (reason : Refusal)

-- A name is followed by a character that cannot be part of one, or by its own last dash or dot
-- at the end of the text.
def nameEnd? (cs : List Char) : Option (List Char × List Char) :=
  let name := cs.takeWhile Reference.isNameChar
  match cs.dropWhile Reference.isNameChar with
  | c :: rest => some (name, c :: rest)
  | [] =>
    let behind := (name.reverse.takeWhile Char.isAlphanum).length
    if behind < name.length then
      some (name.take (name.length - behind - 1), name.drop (name.length - behind - 1))
    else none

def textReference (cs : List Char) : TextReference :=
  match cs with
  | '#' :: rest =>
    match Reference.number? rest with
    | some (n, c :: after) =>
      if Reference.isHex c then .broken
      else
        match Reference.excess? rest with
        | some digits => .refused (.longReference digits)
        | none => .char [Reference.numbered n] (Reference.skipSemicolon (c :: after))
    | _ => .broken
  | c :: _ =>
    if isLetter c then
      match nameEnd? cs with
      | some (name, rest) =>
        .char (match Reference.byName? name with
          | some char => [char]
          | none => '&' :: name) (Reference.skipSemicolon rest)
      | none => .atEnd
    else .plain
  | [] => .plain

theorem nameEnd?_length {cs name rest : List Char} (found : nameEnd? cs = some (name, rest)) :
    rest.length ≤ cs.length := by
  have whole := dropWhile_length_le Reference.isNameChar cs
  have split' := congrArg List.length
    (List.takeWhile_append_dropWhile (p := Reference.isNameChar) (l := cs))
  simp only [List.length_append] at split'
  unfold nameEnd? at found
  simp only at found
  split at found
  · rename_i shape
    cases found
    simp only [shape] at whole
    exact whole
  · split at found
    · cases found
      simp only [List.length_drop]
      omega
    · cases found

theorem textReference_rest {cs data rest : List Char} (found : textReference cs = .char data rest) :
    rest.length ≤ cs.length := by
  unfold textReference at found
  split at found
  · rename_i inner
    split at found
    · rename_i n c after number
      split at found
      · cases found
      · split at found
        · cases found
        cases found
        have one := (Reference.number?_suffix number).length_le
        have two := (Reference.skipSemicolon_suffix (c :: after)).length_le
        simp only [List.length_cons] at one two ⊢
        omega
    · cases found
  · split at found
    · split at found
      · rename_i name rest' named
        cases found
        have one := nameEnd?_length named
        have two := (Reference.skipSemicolon_suffix rest').length_le
        omega
      · cases found
    · cases found
  · cases found

-- What a scan knows of its text. It is fresh until it comes to something unfinished. From then on
-- a broken numeric reference turns all that follows it into plain text. The text is unclosed when
-- no closing bracket is left in it.
inductive Outlook where
  | fresh
  | resumed
  | unclosed
  deriving DecidableEq, Repr

structure Unfinished where
  more : List Char
  rest : List Char
  outlook : Outlook

-- Something unfinished is plain text: up to its closing bracket, or else up to the next opening
-- one, or else just its first character.
def unfinished (outlook : Outlook) (cs : List Char) : Unfinished :=
  match search (outlook == .unclosed) (past? '>' cs) with
  | some rest => ⟨cs.takeWhile (· ≠ '>') ++ ['>'], rest, .resumed⟩
  | none =>
    match cs.dropWhile (· ≠ '<') with
    | [] => ⟨[], cs, .unclosed⟩
    | rest => ⟨cs.takeWhile (· ≠ '<'), rest, .unclosed⟩

theorem unfinished_length (outlook : Outlook) (cs : List Char) :
    (unfinished outlook cs).rest.length ≤ cs.length := by
  unfold unfinished
  split
  · rename_i found
    exact Nat.le_of_lt (past?_shorter (search_found found))
  · split
    · exact Nat.le_refl _
    · exact dropWhile_length_le _ cs

-- Cuts markup into tokens. A text may be cut into several data tokens.
def scan (outlook : Outlook) (cs : List Char) : Except Refusal (List Token) :=
  match cs with
  | [] => .ok []
  | '<' :: tail =>
    match _found : lexeme (outlook == .unclosed) tail with
    | .token t rest => do
      match t with
      | .opening name _ false =>
        if isRaw name then
          match _raw : rawText name.toList rest with
          | (shown, some after) =>
            return t :: .data shown :: .closing name :: (← scan outlook after)
          | (shown, none) => return [t, .data shown]
        else return t :: (← scan outlook rest)
      | _ => return t :: (← scan outlook rest)
    | .nothing rest => scan outlook rest
    | .plain more rest => return .data ('<' :: more) :: (← scan outlook rest)
    | .unfinished =>
      let cut := unfinished outlook tail
      return .data ('<' :: cut.more) :: (← scan cut.outlook cut.rest)
    | .refused reason => .error reason
  | '&' :: tail =>
    match _found : textReference tail with
    | .char data rest => return .data data :: (← scan outlook rest)
    | .plain => return .data ['&'] :: (← scan outlook tail)
    | .broken =>
      if outlook != .fresh || !tail.contains ';' then return [.data ('&' :: tail)]
      else return .data ['&', '#'] :: (← scan .resumed (tail.drop 1))
    | .atEnd => return [.data (if tail.length = 1 then tail else '&' :: tail)]
    | .refused reason => .error reason
  | c :: tail =>
    return .data (c :: tail.takeWhile isText) :: (← scan outlook (tail.dropWhile isText))
termination_by cs.length
decreasing_by
  all_goals simp only [List.length_cons]
  · have one := lexeme_rest (show (lexeme (outlook == .unclosed) tail).rest? = some rest by rw [_found]; rfl)
    have two := rawText_rest (show (rawText name.toList rest).2 = some after by rw [_raw])
    omega
  · have one := lexeme_rest (show (lexeme (outlook == .unclosed) tail).rest? = some rest by rw [_found]; rfl)
    omega
  · have one := lexeme_rest (show (lexeme (outlook == .unclosed) tail).rest? = some rest by rw [_found]; rfl)
    omega
  · have one := lexeme_rest (show (lexeme (outlook == .unclosed) tail).rest? = some rest by rw [_found]; rfl)
    omega
  · have one := lexeme_rest (show (lexeme (outlook == .unclosed) tail).rest? = some rest by rw [_found]; rfl)
    omega
  · have one := unfinished_length outlook tail
    omega
  · have one := textReference_rest _found
    omega
  · omega
  · simp only [List.length_drop]
    omega
  · have one := dropWhile_length_le isText tail
    omega

end SemanticMarkup.Markup.Lexer
