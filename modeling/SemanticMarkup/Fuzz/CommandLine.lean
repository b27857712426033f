import SemanticMarkup.Fuzz.Campaign
import SemanticMarkup.Text.Numeral

namespace SemanticMarkup.Fuzz
open Decimal (Binary64)

inductive Switch where
  | help
  | tests
  | seed
  | styleMode
  | verbose
  | saveFailures
  | sample
  deriving DecidableEq, Repr

namespace Switch

def takesValue : Switch → Bool
  | .tests | .seed | .styleMode | .sample => true
  | .help | .verbose | .saveFailures => false

def spellings : Table Switch := [
  ("-h", .help), ("--help", .help), ("--num-tests", .tests), ("-n", .tests), ("--seed", .seed),
  ("-s", .seed), ("--style-mode", .styleMode), ("--verbose", .verbose), ("-v", .verbose),
  ("--save-failures", .saveFailures), ("--sample", .sample)]

def spelled? (word : List Char) : Option Switch := Table.get? spellings (.ofList word)

def startingWith (cs : List Char) : Table Switch :=
  spellings.filter fun entry => cs.isPrefixOf entry.1.toList

def ofLetter? (c : Char) : Option Switch := spelled? ['-', c]

def names (s : Switch) : String :=
  String.intercalate "/" (Table.keys (spellings.filter fun entry => entry.2 = s))

end Switch

inductive UsageError where
  | ambiguous (word : String) (spellings : List String)
  | missingValue (s : Switch)
  | unwantedValue (s : Switch) (value : String)
  | badNumber (s : Switch) (value : String)
  | badChoice (s : Switch) (value : String)
  | unrecognized (words : List String)
  deriving DecidableEq, Repr

namespace UsageError

def message : UsageError → String
  | .ambiguous word spellings =>
    "ambiguous option: " ++ word ++ " could match " ++ String.intercalate ", " spellings
  | .missingValue s => "argument " ++ s.names ++ ": expected one argument"
  | .unwantedValue s value =>
    "argument " ++ s.names ++ ": ignored explicit argument " ++ Text.quotedForm value
  | .badNumber s value => "argument " ++ s.names ++ ": invalid int value: " ++ Text.quotedForm value
  | .badChoice s value =>
    "argument " ++ s.names ++ ": invalid choice: " ++ Text.quotedForm value ++
      " (choose from 'inline', 'css-class')"
  | .unrecognized words => "unrecognized arguments: " ++ String.intercalate " " words

end UsageError

-- What a word of a command line is by itself: a text that may be a value, the mark after which
-- all words are texts, a switch with what follows it in the same word, or none of the known ones.
inductive Word where
  | plain (text : String)
  | mark
  | short (s : Switch) (attached : Option (List Char))
  | long (s : Switch) (attached : Option (List Char))
  | unknown (text : String)

namespace Word

-- A sign and digits, which may have a point before or among them; a line may end behind them.
def isNegativeNumber (cs : List Char) : Bool :=
  let isDigit (c : Char) : Bool := (Text.digitValue? c).isSome
  let isDigits (cs : List Char) : Bool := !cs.isEmpty && cs.all isDigit
  match cs with
  | '-' :: rest =>
    let rest := if rest.getLast? = some '\n' then rest.dropLast else rest
    isDigits rest ||
      (match rest.dropWhile isDigit with
        | '.' :: places => isDigits places
        | _ => false)
  | _ => false

def parts (cs : List Char) : List Char × Option (List Char) :=
  let name := cs.takeWhile (· ≠ '=')
  match cs.drop name.length with
  | [] => (name, none)
  | _ :: value => (name, some value)

def orPlain (word : String) (cs : List Char) : Word :=
  if isNegativeNumber cs || cs.contains ' ' then .plain word else .unknown word

-- Long spellings may be cut short where one switch is left. What follows a short spelling in
-- its word belongs to it.
def read (word : String) : Except UsageError Word :=
  let cs := word.toList
  match cs with
  | ['-', '-'] => .ok .mark
  | '-' :: '-' :: _ =>
    let (name, attached) := parts cs
    match Switch.spelled? name with
    | some s => .ok (.long s attached)
    | none =>
      match Switch.startingWith name with
      | [(_, s)] => .ok (.long s attached)
      | [] => .ok (orPlain word cs)
      | several => .error (.ambiguous word (Table.keys several))
  | '-' :: c :: rest =>
    match Switch.ofLetter? c, rest with
    | some s, [] => .ok (.short s none)
    | some s, '=' :: value => .ok (.short s (some value))
    | some s, attached => .ok (.short s (some attached))
    | none, _ => .ok (orPlain word cs)
  | _ => .ok (.plain word)

def readAll : List String → Except UsageError (List Word)
  | [] => .ok []
  | word :: rest => do
    match ← read word with
    | .mark => return .mark :: rest.map .plain
    | w => return w :: (← readAll rest)

def text : Word → String
  | .plain text | .unknown text => text
  | _ => "--"

end Word

-- The switches of one word. Only the last can take a value, and it may bring it along.
structure Cluster where
  flags : List Switch
  last : Switch
  value : Option String

namespace Cluster

-- Letters after a switch without a value are switches again; after one with a value they are it.
def ofLetters (s : Switch) : List Char → Except UsageError Cluster
  | [] => .ok ⟨[], s, none⟩
  | c :: rest =>
    if s.takesValue then .ok ⟨[], s, some (.ofList (c :: rest))⟩
    else
      match Switch.ofLetter? c with
      | some next => (ofLetters next rest).map fun k => { k with flags := s :: k.flags }
      | none => .error (.unwantedValue s (.ofList (c :: rest)))

def ofShort (s : Switch) : Option (List Char) → Except UsageError Cluster
  | none => .ok ⟨[], s, none⟩
  | some [] => if s.takesValue then .ok ⟨[], s, some ""⟩ else .error (.unwantedValue s "")
  | some (c :: rest) => ofLetters s (c :: rest)

def ofLong (s : Switch) : Option (List Char) → Except UsageError Cluster
  | none => .ok ⟨[], s, none⟩
  | some value =>
    if s.takesValue then .ok ⟨[], s, some (.ofList value)⟩
    else .error (.unwantedValue s (.ofList value))

end Cluster

-- What a command line asks for. A value that is just the mark `--` makes a list of nothing.
structure Request where
  tests : Value := .whole 1000
  seed : Value := .null
  styleMode : Value := .text StyleMode.inline.name
  verbose : Bool := false
  saveFailures : Bool := false
  sample : Value := .null
  help : Bool := false

namespace Request

def number (s : Switch) (value : String) : Except UsageError Value :=
  if value = "--" then .ok (.list [])
  else
    match read : Text.readInt value.toList with
    | .ok n => .ok (.whole n (Text.short_of_readInt read))
    | .error _ => .error (.badNumber s value)

def mode (s : Switch) (value : String) : Except UsageError Value :=
  if value = "--" then .ok (.list [])
  else if (StyleMode.ofName? value).isSome then .ok (.text value)
  else .error (.badChoice s value)

def withFlag (r : Request) : Switch → Request
  | .verbose => { r with verbose := true }
  | .saveFailures => { r with saveFailures := true }
  | .help => { r with help := true }
  | _ => r

def withFlags (r : Request) (flags : List Switch) : Request := flags.foldl withFlag r

def withValue (r : Request) (s : Switch) (value : String) : Except UsageError Request :=
  match s with
  | .tests => (number s value).map fun v => { r with tests := v }
  | .seed => (number s value).map fun v => { r with seed := v }
  | .sample => (number s value).map fun v => { r with sample := v }
  | .styleMode => (mode s value).map fun v => { r with styleMode := v }
  | s => .ok (r.withFlag s)

-- Goes through the words. A switch that lacks its value takes the next word, which must be a
-- text. Texts that no switch takes are left over.
def read (r : Request) (leftOver : List String) : List Word → Except UsageError (Request × List String)
  | [] => .ok (r, leftOver)
  | word :: rest =>
    if r.help then .ok (r, [])
    else
      let cluster := match word with
        | .short s attached => some (Cluster.ofShort s attached)
        | .long s attached => some (Cluster.ofLong s attached)
        | _ => none
      match cluster with
      | none => read r (leftOver ++ [word.text]) rest
      | some (.error e) => .error e
      | some (.ok c) =>
        let r := r.withFlags c.flags
        if c.last.takesValue then
          match c.value, rest with
          | some value, rest =>
            match r.withValue c.last value with
            | .ok r => read r leftOver rest
            | .error e => .error e
          | none, .plain value :: rest =>
            match r.withValue c.last value with
            | .ok r => read r leftOver rest
            | .error e => .error e
          | none, _ => .error (.missingValue c.last)
        else read (r.withFlag c.last) leftOver rest

def ofWords (words : List String) : Except UsageError Request := do
  let words ← Word.readAll words
  let (r, leftOver) ← read {} [] words
  if leftOver.isEmpty || r.help then return r else throw (.unrecognized leftOver)

def plan (r : Request) : Plan := ⟨r.tests, r.seed, r.verbose, r.saveFailures, r.styleMode⟩

-- How many samples are asked for. Zero asks for none, and then for a campaign.
def sampleCount? (r : Request) : Option Int :=
  match r.sample with
  | .whole n _ => if n = 0 then none else some n
  | _ => none

variable {S : Type} [RandomSource S]

-- Sample documents. A seed that counts as no is none.
def samples (r : Request) (count : Int) (source : S) : List String × S :=
  documents count (seeded (r.seed.orElse .null) source)

def failureStatus : Nat := 1
def usageStatus : Nat := 2

def run (r : Request) (clock : Nat → Binary64) (test : Nat → String → Outcome) (source : S) :
    Ending S (Option Nat) :=
  match r.sampleCount? with
  | some count =>
    match r.samples count source with
    | (documents, source) => ⟨.ok none, sampleLines documents, [], [], source⟩
  | none =>
    let ending := r.plan.run clock test source
    { ending with result := ending.result.map fun good => some (if good then 0 else failureStatus) }

end Request

def runWords {S : Type} [RandomSource S] (words : List String) (clock : Nat → Binary64)
    (test : Request → Nat → String → Outcome) (source : S) : Ending S (Option Nat) :=
  match Request.ofWords words with
  | .error _ => ⟨.ok (some Request.usageStatus), [], [], [], source⟩
  | .ok r => r.run clock (test r) source

end SemanticMarkup.Fuzz
