import SemanticMarkup.Fuzz.Document
import SemanticMarkup.Fuzz.Trial
import SemanticMarkup.Transform

namespace SemanticMarkup.Fuzz
open Decimal (Binary64)

-- What a campaign is to do. The number of tests, the seed and the style mode are kept as they
-- were asked for; no seed is `null`.
structure Plan where
  tests : Value
  seed : Value
  verbose : Bool
  saveFailures : Bool
  styleMode : Value

structure Ending (S α : Type) where
  result : Except Fault α
  printed : List String
  files : List (String × List String)
  trials : List Trial
  source : S

def textOf (lines : List String) : String := String.join (lines.map (· ++ "\n"))

namespace Plan

def count (p : Plan) : Except Fault Int :=
  match p.tests.whole? with
  | some n => .ok n
  | none => .error (.type ("'" ++ p.tests.typeName ++ "' object cannot be interpreted as an integer"))

-- Documents are transformed without their class names being dropped, and the nodes are checked.
def options (p : Plan) : Except Fault (Options (HandlerName Empty) Unit) :=
  Options.ofDraft { styleMode := p.styleMode, removeAllClass := .flag false, validate := .flag true }

def transformer (o : Options (HandlerName Empty) Unit) : Transformer Empty Unit :=
  .ofOptions o Empty.elim

def transformed (p : Plan) (document : String) : Except Fault (List Node) := do
  let o ← p.options
  ((transformer o).transform document ()).1

-- Every hundredth test is announced.
def announcement (p : Plan) (number : Nat) : List String :=
  if number % 100 = 0 then ["  Test " ++ toString number ++ "/" ++ p.tests.shown ++ "..."] else []

def progress (p : Plan) (t : Trial) : List String :=
  if p.verbose then p.announcement t.number ++ t.news else []

def opening (p : Plan) : String :=
  "Fuzzing markupnodes (" ++ p.styleMode.shown ++ ") with " ++ p.tests.shown ++ " test cases..."

end Plan

def rule : String := String.ofList (List.replicate 60 '=')

def heading (title : String) : List String := ["", rule, title, rule]

namespace Report

def counts (p : Plan) (trials : List Trial) (seconds : Binary64) : List String :=
  heading "FUZZING RESULTS" ++ [
    "Total tests:    " ++ p.tests.shown,
    "Successes:      " ++ toString (trials.countP Trial.succeeds),
    "Crashes:        " ++ toString (trials.countP Trial.crashes),
    "Hangs (>5s):    " ++ toString (trials.countP Trial.hangs),
    "Total time:     " ++ Trial.secondsText seconds ++ "s"]

-- Tests for each second. There is no such number when no time went by.
def rate (tests : Int) (seconds : Binary64) : Except Fault Binary64 :=
  match Binary64.ofInt? tests with
  | none => .error (.overflow "int too large to convert to float")
  | some count =>
    if seconds.isZero then .error (.division "float division by zero") else .ok (count.dividedBy seconds)

def rateLine (rate : Binary64) : String := "Tests/second:   " ++ rate.fixed 1

def crashLines (crashes : List Trial) : List String :=
  if crashes.isEmpty then []
  else
    heading "CRASH DETAILS:" ++ (crashes.take 10).flatMap Trial.details ++
      (if 10 < crashes.length then
        ["", "... and " ++ toString (crashes.length - 10) ++ " more crashes"] else [])

def hangLines (hangs : List Trial) : List String :=
  if hangs.isEmpty then [] else heading "HANG DETAILS:" ++ (hangs.take 5).flatMap Trial.details

-- A file is named for the whole second in which it is written.
def fileName (now : Binary64) : String :=
  "fuzz_failures_" ++ toString (now.truncate?.getD 0) ++ ".txt"

def fileLines (p : Plan) (crashes hangs : List Trial) : List String :=
  ["Seed: " ++ p.seed.shown, ""] ++ crashes.flatMap Trial.record ++ hangs.flatMap Trial.record

def close (p : Plan) (count : Int) (trials : List Trial) (clock : Nat → Binary64) :
    List String × List (String × List String) × Except Fault Bool :=
  let seconds := (clock 1).minus (clock 0)
  let counts := counts p trials seconds
  match rate count seconds with
  | .error f => (counts, [], .error f)
  | .ok rate =>
    let crashes := trials.filter Trial.crashes
    let hangs := trials.filter Trial.hangs
    let verdict := crashes.isEmpty && hangs.isEmpty
    let lines := counts ++ [rateLine rate] ++ crashLines crashes ++ hangLines hangs
    if p.saveFailures && !verdict then
      let file := fileName (clock 2)
      (lines ++ ["", "Failures saved to " ++ file], [(file, fileLines p crashes hangs)], .ok verdict)
    else (lines, [], .ok verdict)

end Report

section Running
variable {S : Type} [RandomSource S]

def seeded (seed : Value) (source : S) : S :=
  if seed.isNull then source else RandomSource.seed seed source

def documents (count : Int) : Gen S (List String) := Gen.times count.toNat document

def trialsOf (test : Nat → String → Outcome) (documents : List String) : List Trial :=
  documents.zipIdx.map fun (document, number) => ⟨number, document, test number document⟩

namespace Plan

-- Runs a campaign. The clock gives its readings by number: the first before the tests, the second
-- after them, and a third one if failures are saved. Tests are given by what comes of a document.
def run (p : Plan) (clock : Nat → Binary64) (test : Nat → String → Outcome) (source : S) :
    Ending S Bool :=
  let source := seeded p.seed source
  match p.options, p.count with
  | .error f, _ => ⟨.error f, [], [], [], source⟩
  | .ok _, .error f => ⟨.error f, [p.opening], [], [], source⟩
  | .ok _, .ok count =>
    match documents count source with
    | (documents, source) =>
      let trials := trialsOf test documents
      match Report.close p count trials clock with
      | (lines, files, verdict) =>
        ⟨verdict, p.opening :: trials.flatMap p.progress ++ lines, files, trials, source⟩

end Plan

def sampleLines (documents : List String) : List String :=
  documents.zipIdx.flatMap fun (document, place) =>
    ["=== Sample " ++ toString (place + 1) ++ " ===", document, ""]

end Running
end SemanticMarkup.Fuzz
