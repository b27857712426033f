import SemanticMarkup.Fault
import SemanticMarkup.Stylesheet.Basic

namespace SemanticMarkup.Stylesheet

-- Light and dark hosts give the colour variables different values.
inductive Palette where
  | light
  | dark
  deriving DecidableEq, Repr

namespace Palette

def ofName? (name : String) : Option Palette :=
  if name = "light" then some .light else if name = "dark" then some .dark else none

def ofValue (given : Value) : Except Fault Palette :=
  match given.text?.bind ofName? with
  | some palette => .ok palette
  | none => .error (.value ("Unknown colour mode: " ++ given.quoted))

-- The variables, without the dashes and the word that all of them begin with, and their colours.
def colours : Palette → Table String
  | .light =>
    [("text-color", "#212529"), ("text-color-secondary", "#495057"), ("border-color", "#dee2e6"),
     ("bg-color-secondary", "#f8f9fa"), ("bg-color-tertiary", "#f5f5f5"),
     ("divider-color", "#ccc"), ("blockquote-border", "#ddd")]
  | .dark =>
    [("text-color", "#e9ecef"), ("text-color-secondary", "#adb5bd"), ("border-color", "#404040"),
     ("bg-color-secondary", "#2d2d2d"), ("bg-color-tertiary", "#1e1e1e"),
     ("divider-color", "#3a3a3a"), ("blockquote-border", "#555")]

def fullName (name : String) : String := "--mkn-" ++ name

def allVariables (p : Palette) : Table String :=
  p.colours.map fun entry => (fullName entry.1, entry.2)

end Palette

def variablesText (root : String) (values : Table String) : String :=
  block ("." ++ root) (String.intercalate "\n" (values.map fun entry =>
    "  " ++ entry.1 ++ ": " ++ entry.2 ++ ";"))

def darkClass : String := "mkn-dark"

def allVariablesText (root : String) : String :=
  "/* CSS variables */\n" ++ variablesText root Palette.light.allVariables ++
    "\n\n/* Dark mode CSS variables */\n" ++
    variablesText (root ++ "." ++ darkClass) Palette.dark.allVariables ++ "\n"

def referenceStart : List Char := "var(--mkn-".toList

def isNameChar (c : Char) : Bool := Style.isSmallLetter c || c.isDigit || c == '-'

def after? : List Char → List Char → Option (List Char)
  | [], cs => some cs
  | _ :: _, [] => none
  | b :: beginning, c :: cs => if b = c then after? beginning cs else none

def reference? (cs : List Char) : Option (List Char × List Char) :=
  (after? referenceStart cs).bind fun rest =>
    let name := rest.takeWhile isNameChar
    match rest.dropWhile isNameChar with
    | ')' :: later => if name.isEmpty then none else some (name, later)
    | _ => none

theorem after?_length {beginning cs rest : List Char} (found : after? beginning cs = some rest) :
    cs.length = beginning.length + rest.length := by
  induction beginning generalizing cs with
  | nil => simp_all [after?]
  | cons b beginning ih =>
    cases cs with
    | nil => simp [after?] at found
    | cons c cs =>
      simp only [after?] at found
      split at found
      · have := ih found
        simp only [List.length_cons]
        omega
      · cases found

theorem reference?_shorter {cs name rest : List Char} (found : reference? cs = some (name, rest)) :
    rest.length < cs.length := by
  unfold reference? at found
  cases begun : after? referenceStart cs with
  | none => simp [begun] at found
  | some tail =>
    have long := after?_length begun
    have kept : (tail.dropWhile isNameChar).length ≤ tail.length := by
      have := congrArg List.length (List.takeWhile_append_dropWhile (p := isNameChar) (l := tail))
      simp only [List.length_append] at this
      omega
    simp only [begun, Option.bind_some] at found
    split at found
    · rename_i later shape
      split at found
      · cases found
      · cases found
        simp only [shape, List.length_cons] at kept
        omega
    · cases found

-- Every reference to a known variable becomes its colour; all other text stays.
def resolve (colours : Table String) (cs : List Char) : List Char :=
  match _found : reference? cs with
  | some (name, rest) =>
    (match Table.get? colours (.ofList name) with
      | some colour => colour.toList
      | none => referenceStart ++ name ++ [')']) ++ resolve colours rest
  | none =>
    match cs with
    | [] => []
    | c :: rest => c :: resolve colours rest
termination_by cs.length
decreasing_by
  · exact reference?_shorter _found
  · simp

def resolved (p : Palette) (text : String) : String := .ofList (resolve p.colours text.toList)

end SemanticMarkup.Stylesheet
