namespace SemanticMarkup.Text

-- The blank characters: tab to carriage return, the four separators before the space, the space,
-- and the spaces and line ends beyond ASCII. Zero-width characters are not blank.
def isBlank (c : Char) : Bool :=
  let n := c.toNat
  (9 ≤ n && n ≤ 13) || (28 ≤ n && n ≤ 32) || n == 0x85 || n == 0xA0 || n == 0x1680 ||
    (0x2000 ≤ n && n ≤ 0x200A) || n == 0x2028 || n == 0x2029 || n == 0x202F || n == 0x205F ||
    n == 0x3000

def trimStart (cs : List Char) : List Char := cs.dropWhile isBlank
def trimEnd (cs : List Char) : List Char := (cs.reverse.dropWhile isBlank).reverse
def trim (cs : List Char) : List Char := trimEnd (trimStart cs)

def allBlank (cs : List Char) : Bool := cs.all isBlank

-- The stretches between the characters that `cut` picks, empty ones included: one more than
-- there are such characters.
def pieces (cut : Char → Bool) : List Char → List (List Char)
  | [] => [[]]
  | c :: rest =>
    if cut c then [] :: pieces cut rest
    else match pieces cut rest with
      | [] => [[c]]
      | piece :: more => (c :: piece) :: more

def words (cs : List Char) : List (List Char) := (pieces isBlank cs).filter (· ≠ [])

def joined (between : List Char) : List (List Char) → List Char
  | [] => []
  | [piece] => piece
  | piece :: more => piece ++ between ++ joined between more

theorem pieces_ne_nil (cut : Char → Bool) (cs : List Char) : pieces cut cs ≠ [] := by
  cases cs with
  | nil => simp [pieces]
  | cons c rest =>
    unfold pieces
    split
    · simp
    · split <;> simp

@[simp] theorem trimStart_nil : trimStart [] = [] := rfl
@[simp] theorem trimEnd_nil : trimEnd [] = [] := rfl
@[simp] theorem trim_nil : trim [] = [] := rfl

theorem dropWhile_eq_nil {p : Char → Bool} {cs : List Char} :
    cs.dropWhile p = [] ↔ ∀ c ∈ cs, p c = true := by
  induction cs with
  | nil => simp
  | cons c rest ih => by_cases h : p c <;> simp [h, ih]

theorem trimStart_eq_nil_iff {cs : List Char} : trimStart cs = [] ↔ allBlank cs = true := by
  rw [trimStart, dropWhile_eq_nil, allBlank, List.all_eq_true]

theorem trimEnd_eq_nil_iff {cs : List Char} : trimEnd cs = [] ↔ allBlank cs = true := by
  rw [trimEnd, List.reverse_eq_nil_iff, dropWhile_eq_nil, allBlank, List.all_eq_true]
  simp only [List.mem_reverse]

def withoutLeadingBlanks (s : String) : String := .ofList (trimStart s.toList)
def withoutTrailingBlanks (s : String) : String := (s.dropEndWhile isBlank).copy
def withoutOuterBlanks (s : String) : String := .ofList (trim s.toList)

theorem dropWhile_append_of_all {p : Char → Bool} {front back : List Char}
    (all : front.all p = true) : (front ++ back).dropWhile p = back.dropWhile p := by
  rw [List.dropWhile_append, if_pos]
  rw [List.isEmpty_iff, dropWhile_eq_nil]
  exact List.all_eq_true.1 all

theorem toList_withoutTrailingBlanks (s : String) :
    (withoutTrailingBlanks s).toList = trimEnd s.toList := by
  have whole : (s.dropEndWhile isBlank).copy.toList ++ (s.takeEndWhile isBlank).copy.toList
      = s.toList := by
    rw [← String.toList_append, String.dropEndWhile_append_takeEndWhile]
  have blank : (s.takeEndWhile isBlank).copy.toList.all isBlank = true := by
    rw [← String.Slice.revAll_bool_eq]
    exact String.revAll_takeEndWhile
  have ends : (s.dropEndWhile isBlank).copy.toList.getLast?.any isBlank = false := by
    rw [← String.Slice.endsWith_bool_eq_getLast?]
    exact String.endsWith_dropEndWhile
  rw [withoutTrailingBlanks, trimEnd, ← whole, List.reverse_append,
    dropWhile_append_of_all (by simpa using blank)]
  rw [← List.head?_reverse] at ends
  generalize (s.dropEndWhile isBlank).copy.toList = kept at ends
  cases reversed : kept.reverse with
  | nil => simpa using List.reverse_eq_nil_iff.1 reversed
  | cons c rest =>
    rw [reversed] at ends
    rw [List.dropWhile_cons_of_neg (by simpa using ends), ← reversed, List.reverse_reverse]

-- True of the empty text as well.
def isAllBlank (s : String) : Bool := allBlank s.toList

end SemanticMarkup.Text
