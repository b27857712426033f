import SemanticMarkup.Stylesheet.Palette
import SemanticMarkup.Proofs.Style.Declarations

namespace SemanticMarkup

namespace Style
open Stylesheet (isNameChar)

def isLetter (c : Char) : Bool := isSmallLetter c || isCapitalLetter c
def isAlphanumeric (c : Char) : Bool := isLetter c || c.isDigit

theorem ascii_of_alphanumeric {c : Char} (plain : isAlphanumeric c = true) : c.toNat < 0x80 := by
  simp only [isAlphanumeric, isLetter, isSmallLetter, isCapitalLetter, Char.isDigit, Char.le_def,
    UInt32.le_iff_toNat_le, Bool.or_eq_true, Bool.and_eq_true, decide_eq_true_eq, ge_iff_le] at plain
  have bounds : 'z'.val.toNat = 122 ∧ 'Z'.val.toNat = 90 ∧ '9'.val.toNat = 57 := by decide
  have value : c.val.toNat = c.toNat := rfl
  omega

theorem ascii_of_nameChar {c : Char} (inName : isNameChar c = true) : c.toNat < 0x80 := by
  rcases Bool.or_eq_true_iff.mp inName with plain | dash
  · refine ascii_of_alphanumeric ?_
    rcases Bool.or_eq_true_iff.mp plain with small | digit
    · simp [isAlphanumeric, isLetter, small]
    · simp [isAlphanumeric, digit]
  · rw [beq_iff_eq.mp dash]
    decide

theorem nameChar_cases {c : Char} (inName : isNameChar c = true) :
    c.toLower = c ∧ Text.isBlank c = false ∧ c ≠ ':' ∧ c ≠ ';' :=
  Text.ascii_cases (P := fun c => isNameChar c = true →
    c.toLower = c ∧ Text.isBlank c = false ∧ c ≠ ':' ∧ c ≠ ';')
    (by decide +kernel) (ascii_of_nameChar inName) inName

theorem capital_cases {c : Char} (capital : isCapitalLetter c = true) :
    isSmallLetter c.toLower = true ∧ c.toLower.toUpper = c ∧ Text.isUpper c = true :=
  Text.ascii_cases (P := fun c => isCapitalLetter c = true →
    isSmallLetter c.toLower = true ∧ c.toLower.toUpper = c ∧ Text.isUpper c = true)
    (by decide +kernel) (ascii_of_alphanumeric (by simp [isAlphanumeric, isLetter, capital])) capital

theorem other_cases {c : Char} (plain : isAlphanumeric c = true) (other : isCapitalLetter c = false) :
    isNameChar c = true ∧ c ≠ '-' ∧ (isSmallLetter c || c.isDigit) = true ∧ Text.isUpper c = false :=
  Text.ascii_cases (P := fun c => isAlphanumeric c = true → isCapitalLetter c = false →
    isNameChar c = true ∧ c ≠ '-' ∧ (isSmallLetter c || c.isDigit) = true ∧ Text.isUpper c = false)
    (by decide +kernel) (ascii_of_alphanumeric plain) plain other

def hyphenated : List Char → List Char
  | [] => []
  | c :: rest =>
    if isCapitalLetter c then '-' :: c.toLower :: hyphenated rest else c :: hyphenated rest

theorem joinWords_cons {c : Char} (letter : c ≠ '-') (rest : List Char) :
    joinWords (c :: rest) = c :: joinWords rest := by
  rw [joinWords]
  intro _ _ dash
  exact absurd dash letter

theorem joinWords_hyphenated {cs : List Char} (plain : ∀ c ∈ cs, isAlphanumeric c = true) :
    joinWords (hyphenated cs) = cs := by
  induction cs with
  | nil => rfl
  | cons c rest ih =>
    have others := ih fun d member => plain d (List.mem_cons_of_mem _ member)
    rw [hyphenated]
    cases capital : isCapitalLetter c with
    | true =>
      obtain ⟨small, back, _⟩ := capital_cases capital
      rw [if_pos rfl, joinWords, if_pos small, back, others]
    | false =>
      have letter := (other_cases (plain c List.mem_cons_self) capital).2.1
      rw [if_neg Bool.false_ne_true, joinWords_cons letter, others]

theorem nameChar_hyphenated {cs : List Char} (plain : ∀ c ∈ cs, isAlphanumeric c = true) :
    ∀ c ∈ hyphenated cs, isNameChar c = true := by
  induction cs with
  | nil => simp [hyphenated]
  | cons d rest ih =>
    have others := ih fun e member => plain e (List.mem_cons_of_mem _ member)
    rw [hyphenated]
    cases capital : isCapitalLetter d with
    | true =>
      have small := (capital_cases capital).1
      simpa [isNameChar, small] using others
    | false =>
      have inName := (other_cases (plain d List.mem_cons_self) capital).1
      simpa [inName] using others

def Apart (c d : Char) : Prop := ¬(isCapitalLetter c = true ∧ isCapitalLetter d = true)

instance : DecidableRel Apart := fun c d =>
  inferInstanceAs (Decidable ¬(isCapitalLetter c = true ∧ isCapitalLetter d = true))

-- Keys of letters and digits, without two capitals in a row.
structure Camel (key : List Char) : Prop where
  letter : key.head?.any isLetter = true
  plain : ∀ c ∈ key, isAlphanumeric c = true
  apart : key.IsChain Apart

instance (key : List Char) : Decidable (Camel key) :=
  decidable_of_iff
    (key.head?.any isLetter = true ∧ key.all isAlphanumeric = true ∧ key.IsChain Apart)
    ⟨fun ⟨letter, plain, apart⟩ => ⟨letter, List.all_eq_true.mp plain, apart⟩,
      fun camel => ⟨camel.letter, List.all_eq_true.mpr camel.plain, camel.apart⟩⟩

theorem lower_splitWords {c : Char} {rest : List Char} (plain : ∀ d ∈ c :: rest, isAlphanumeric d = true)
    (apart : (c :: rest).IsChain Apart) :
    (splitWords (c :: rest)).map Char.toLower = c.toLower :: hyphenated rest := by
  induction rest generalizing c with
  | nil => rfl
  | cons d rest ih =>
    obtain ⟨notBoth, later⟩ := List.isChain_cons_cons.mp apart
    have inner := ih (fun e member => plain e (List.mem_cons_of_mem _ member)) later
    have plainNext := plain d (by simp)
    rw [splitWords, hyphenated]
    cases capital : isCapitalLetter d with
    | true =>
      have before : isCapitalLetter c = false := by simpa [Apart, capital] using notBoth
      have ends := (other_cases (plain c List.mem_cons_self) before).2.2.1
      rw [ends, Bool.and_self, if_pos rfl, if_pos rfl, List.map_cons, List.map_cons, inner]
      rfl
    | false =>
      have same := (nameChar_cases (other_cases plainNext capital).1).1
      rw [Bool.and_false, if_neg Bool.false_ne_true, if_neg Bool.false_ne_true, List.map_cons, inner, same]

theorem mem_splitWords {cs : List Char} {c : Char} (member : c ∈ splitWords cs) : c ∈ cs ∨ c = '-' := by
  fun_induction splitWords cs with
  | case1 d e rest _ ih => grind
  | case2 d e rest _ ih => grind
  | case3 cs => exact .inl member

theorem not_custom {c : Char} (letter : c ≠ '-') (rest : List Char) : isCustom (c :: rest) = false := by
  unfold isCustom
  split
  · rename_i shape
    cases shape
    exact absurd rfl letter
  · rfl

theorem toName_camel {key : List Char} (camel : Camel key) : toName key = hyphenated key := by
  cases key with
  | nil => rfl
  | cons c rest =>
    have first := camel.plain c List.mem_cons_self
    have letter : c ≠ '-' := by
      rintro rfl
      simp [isAlphanumeric, isLetter, isSmallLetter, isCapitalLetter, Char.isDigit] at first
    have ascii : ∀ d ∈ splitWords (c :: rest), d.toNat < 0x80 := by
      intro d member
      rcases mem_splitWords member with inside | rfl
      · exact ascii_of_alphanumeric (camel.plain d inside)
      · decide
    have name : Text.lower (splitWords (c :: rest)) = c.toLower :: hyphenated rest := by
      rw [Text.lower_ascii ascii, lower_splitWords camel.plain camel.apart]
    rw [toName, not_custom letter, if_neg Bool.false_ne_true, name, hyphenated]
    dsimp only
    cases capital : isCapitalLetter c with
    | true =>
      rw [(capital_cases capital).2.2]
      rfl
    | false =>
      obtain ⟨inName, _, _, small⟩ := other_cases first capital
      rw [small, (nameChar_cases inName).1]

theorem keyOf_hyphenated {key : List Char} (camel : Camel key) : keyOf (hyphenated key) = key := by
  have inName := nameChar_hyphenated camel.plain
  have notCustom : isCustom (hyphenated key) = false := by
    obtain _ | ⟨c, rest⟩ := key
    · rfl
    · have first := camel.plain c List.mem_cons_self
      rw [hyphenated]
      cases capital : isCapitalLetter c with
      | true =>
        have small := (capital_cases capital).1
        have letter : c.toLower ≠ '-' := fun dash => absurd small (by rw [dash]; decide)
        rw [if_pos rfl]
        unfold isCustom
        split
        · rename_i shape
          exact absurd (List.cons.inj (List.cons.inj shape).2).1 letter
        · rfl
      | false => exact not_custom (other_cases first capital).2.1 _
  have same : Text.lower (hyphenated key) = hyphenated key := by
    rw [Text.lower_ascii fun c member => ascii_of_nameChar (inName c member)]
    exact (List.map_congr_left fun c member => (nameChar_cases (inName c member)).1).trans (List.map_id _)
  rw [keyOf, notCustom, if_neg Bool.false_ne_true, same, toKey, notCustom, if_neg Bool.false_ne_true,
    joinWords_hyphenated camel.plain]

structure Custom (key : List Char) : Prop where
  custom : isCustom key = true
  plain : ':' ∉ key
  solid : ';' ∉ key
  closed : Text.trimEnd key = key

instance (key : List Char) : Decidable (Custom key) :=
  decidable_of_iff (isCustom key = true ∧ ':' ∉ key ∧ ';' ∉ key ∧ Text.trimEnd key = key)
    ⟨fun ⟨custom, plain, solid, closed⟩ => ⟨custom, plain, solid, closed⟩,
      fun custom => ⟨custom.custom, custom.plain, custom.solid, custom.closed⟩⟩

-- A written name stands in a declaration as it is, and its key is the one that it was written for.
structure Readable (name key : List Char) : Prop where
  filled : Text.allBlank name = false
  plain : ':' ∉ name
  solid : ';' ∉ name
  trimmed : Text.trim name = name
  back : keyOf name = key

theorem Custom.readable {key : List Char} (custom : Custom key) : Readable (toName key) key := by
  have same : toName key = key := by rw [toName, if_pos custom.custom]
  obtain ⟨rest, rfl⟩ : ∃ rest, key = '-' :: '-' :: rest := by
    have dashes := custom.custom
    unfold isCustom at dashes
    split at dashes
    · exact ⟨_, rfl⟩
    · cases dashes
  have start : Text.trimStart ('-' :: '-' :: rest) = '-' :: '-' :: rest :=
    Text.trimStart_cons_of_seen (by decide) _
  rw [same]
  refine ⟨rfl, custom.plain, custom.solid, ?_, rfl⟩
  rw [Text.trim, start, custom.closed]

theorem Camel.readable {key : List Char} (camel : Camel key) : Readable (toName key) key := by
  have inName := nameChar_hyphenated camel.plain
  have trimmed := Text.trim_solid fun c member => (nameChar_cases (inName c member)).2.1
  rw [toName_camel camel]
  refine ⟨?_, ?_, ?_, trimmed, keyOf_hyphenated camel⟩
  · rw [← Bool.not_eq_true, ← Text.trim_eq_nil_iff, trimmed]
    obtain _ | ⟨c, rest⟩ := key
    · exact absurd camel.letter (by simp)
    · rw [hyphenated]
      split <;> simp
  · exact fun colon => (nameChar_cases (inName _ colon)).2.2.1 rfl
  · exact fun cut => (nameChar_cases (inName _ cut)).2.2.2 rfl

theorem readDeclaration?_written {lead name key : List Char} (blank : Text.allBlank lead = true)
    (readable : Readable name key) {text : String} (value : IsValue text) :
    readDeclaration? (lead ++ name ++ ':' :: ' ' :: text.toList) = some (.ofList key, text) := by
  have plain : ':' ∉ lead ++ name := by
    intro colon
    rcases List.mem_append.mp colon with before | inside
    · exact Text.not_mem_of_blank blank (by decide) before
    · exact readable.plain inside
  have trimmed : Text.trim text.toList = text.toList := by
    have same := congrArg String.toList value.trimmed
    rwa [Text.withoutOuterBlanks, String.toList_ofList] at same
  have filled : Text.allBlank text.toList = false := by
    rw [← Bool.not_eq_true, ← Text.trim_eq_nil_iff, trimmed, String.toList_eq_nil_iff]
    exact value.filled
  have space : Text.trim (' ' :: text.toList) = text.toList :=
    (Text.trim_append_of_blank (show Text.allBlank [' '] = true from rfl) _).trans trimmed
  rw [readDeclaration?_colon plain, Text.allBlank_append, readable.filled, Bool.and_false, Bool.false_or,
    show Text.allBlank (' ' :: text.toList) = Text.allBlank text.toList from rfl, filled,
    if_neg Bool.false_ne_true, Text.trim_append_of_blank blank, readable.trimmed, readable.back, space,
    String.ofList_toList]

theorem whole_nameChar (n : Int) : (toString n).toList.all isNameChar = true := by
  have digits : ∀ k : Nat, k.repr.toList.all isNameChar = true := by
    refine fun k => List.all_eq_true.mpr fun c member => ?_
    rw [Nat.toList_repr] at member
    have digit := Nat.isDigit_of_mem_toDigits (by decide) (by decide) member
    simp [isNameChar, digit]
  cases n with
  | ofNat k => exact digits k
  | negSucc k =>
    have signed : (toString (Int.negSucc k)).toList = '-' :: (k + 1).repr.toList :=
      String.toList_append ..
    rw [signed]
    exact digits (k + 1)

theorem isValue_of_nameChar {text : String} (filled : text ≠ "")
    (all : text.toList.all isNameChar = true) : IsValue text := by
  have inName := List.all_eq_true.mp all
  refine ⟨filled, fun cut => (nameChar_cases (inName _ cut)).2.2.2 rfl, ?_⟩
  rw [Text.withoutOuterBlanks, Text.trim_solid fun c member => (nameChar_cases (inName c member)).2.1,
    String.ofList_toList]

-- Values of a style that can be written: whole numbers, flags, and texts that a declaration can hold.
def Plain : Value → Prop
  | .whole _ _ => True
  | .flag _ => True
  | .text s => IsValue s
  | _ => False

instance : DecidablePred Plain
  | .whole _ _ | .flag _ => .isTrue trivial
  | .text s => inferInstanceAs (Decidable (IsValue s))
  | .null | .real _ | .list _ | .record _ => .isFalse id

theorem valueText_isValue (key : String) {value : Value} (plain : Plain value) :
    IsValue (Stylesheet.valueText key value) := by
  cases value with
  | flag b =>
    cases b with
    | false => exact (isValue_of_nameChar (by decide) (by decide) : IsValue "false")
    | true => exact (isValue_of_nameChar (by decide) (by decide) : IsValue "true")
  | whole n short =>
    have digits := whole_nameChar n
    have filled := Text.whole_ne_empty n
    rw [Stylesheet.valueText]
    split
    · exact isValue_of_nameChar filled digits
    · refine isValue_of_nameChar (by simp) ?_
      rw [String.toList_append, List.all_append, show (Value.whole n short).shown = toString n from rfl, digits]
      rfl
  | text s => exact plain
  | _ => exact plain.elim

def Declarable (entry : String × Value) : Prop :=
  (Custom entry.1.toList ∨ Camel entry.1.toList) ∧ Plain entry.2

instance : DecidablePred Declarable := fun entry =>
  inferInstanceAs (Decidable ((Custom entry.1.toList ∨ Camel entry.1.toList) ∧ Plain entry.2))

theorem declarationText_toList (indent key : String) (value : Value) :
    (Stylesheet.declarationText indent key value).toList =
      indent.toList ++ toName key.toList ++ ':' :: ' ' :: (Stylesheet.valueText key value).toList ++ [';'] := by
  simp [Stylesheet.declarationText]

theorem styleText_cons (entry : String × Value) (rest : Table Value) (indent : String) :
    ∃ lead : List Char, Text.allBlank lead = true ∧
      (Stylesheet.styleText (entry :: rest) indent).toList =
        (Stylesheet.declarationText indent entry.1 entry.2).toList ++
          (lead ++ (Stylesheet.styleText rest indent).toList) := by
  cases rest with
  | nil => exact ⟨[], rfl, by simp [Stylesheet.styleText]⟩
  | cons next more =>
    refine ⟨['\n'], rfl, ?_⟩
    rw [Stylesheet.styleText, List.map_cons, String.intercalate_cons_of_ne_nil (by simp)]
    simp [Stylesheet.styleText]

theorem declarations_styleText {style : Table Value} (all : ∀ entry ∈ style, Declarable entry)
    {indent : String} (blank : Text.isAllBlank indent = true) {lead : List Char}
    (leading : Text.allBlank lead = true) :
    (Text.pieces (· = ';') (lead ++ (Stylesheet.styleText style indent).toList)).filterMap
        readDeclaration? =
      style.map fun entry => (entry.1, Stylesheet.valueText entry.1 entry.2) := by
  induction style generalizing lead with
  | nil =>
    have solid : ';' ∉ lead := Text.not_mem_of_blank leading (by decide)
    have plain : ':' ∉ lead := Text.not_mem_of_blank leading (by decide)
    rw [show (Stylesheet.styleText [] indent).toList = [] from rfl, List.append_nil,
      Text.pieces_solid (uncut solid), List.filterMap_cons_none (readDeclaration?_plain plain)]
    rfl
  | cons entry rest ih =>
    obtain ⟨behind, blankBehind, whole⟩ := styleText_cons entry rest indent
    obtain ⟨written, plain⟩ := all entry List.mem_cons_self
    have others := ih (fun other member => all other (List.mem_cons_of_mem _ member)) blankBehind
    have readable : Readable (toName entry.1.toList) entry.1.toList :=
      written.elim Custom.readable Camel.readable
    have value := valueText_isValue entry.1 plain
    have before : Text.allBlank (lead ++ indent.toList) = true := by
      rw [Text.allBlank_append, leading]
      exact blank
    have solid : ';' ∉ lead ++ indent.toList ++ toName entry.1.toList ++
        ':' :: ' ' :: (Stylesheet.valueText entry.1 entry.2).toList := by
      have blanks : ';' ∉ lead ++ indent.toList := Text.not_mem_of_blank before (by decide)
      have name := readable.solid
      have text := value.solid
      grind
    have first : lead ++ (Stylesheet.styleText (entry :: rest) indent).toList =
        (lead ++ indent.toList ++ toName entry.1.toList ++
          ':' :: ' ' :: (Stylesheet.valueText entry.1 entry.2).toList) ++
          ';' :: (behind ++ (Stylesheet.styleText rest indent).toList) := by
      rw [whole, declarationText_toList]
      simp
    rw [first, Text.pieces_append (uncut solid) (by decide),
      List.filterMap_cons_some (readDeclaration?_written before readable value), others, List.map_cons,
      String.ofList_toList]

def buttonStyle : Table Value :=
  [("WebkitTransform", .text "url(a:b)"), ("fontSize", .whole 14), ("--Main Colour", .text "red"),
    ("zIndex", .whole (-3)), ("grid2D", .flag true), ("margin", .whole 0 Text.short_zero)]

end Style
end SemanticMarkup
