import SemanticMarkup.Fuzz.CommandLine

namespace SemanticMarkup.Fuzz
open Decimal (Binary64)

def usageLines : List String := [
  "usage: fuzz [-h] [--num-tests NUM_TESTS] [--seed SEED]",
  "            [--style-mode \x7binline,css-class\x7d] [--verbose] [--save-failures]",
  "            [--sample N]"]

def helpLines : List String := usageLines ++ [
  "",
  "Fuzz the markupnodes transform with malformed HTML",
  "",
  "options:",
  "  -h, --help            show this help message and exit",
  "  --num-tests NUM_TESTS, -n NUM_TESTS",
  "                        Number of test cases to generate (default: 1000)",
  "  --seed SEED, -s SEED  Random seed for reproducibility",
  "  --style-mode \x7binline,css-class\x7d",
  "                        Style mode to transform with (default: inline)",
  "  --verbose, -v         Verbose output",
  "  --save-failures       Save failures to a file",
  "  --sample N            Just print N sample fuzzed HTML documents (no",
  "                        transforming)"]

def printLines (lines : List String) : IO Unit := do
  (← IO.getStdout).putStr (textOf lines)
  (← IO.getStdout).flush

-- Seconds on a clock that never runs backwards.
def now : IO Binary64 := do
  return .ofRatio false (← IO.monoNanosNow) 1000000000

def tryDocument (p : Plan) (number : Nat) (document : String) : IO Trial := do
  let before ← now
  let result ← IO.lazyPure fun _ => p.transformed document
  let after ← now
  return ⟨number, document, .ofResult result (after.minus before) ""⟩

def tryDocuments (p : Plan) (count : Int) (source : Congruential) : IO (List Trial) := do
  let mut source := source
  let mut trials := #[]
  for number in [0:count.toNat] do
    let (document, next) := document source
    source := next
    if p.verbose then printLines (p.announcement number)
    let trial ← tryDocument p number document
    if p.verbose then printLines trial.news
    trials := trials.push trial
  return trials.toList

def orFail {α : Type} (result : Except Fault α) : IO α :=
  match result with
  | .ok a => pure a
  | .error f => throw (IO.userError f.text)

def runCampaign (p : Plan) (source : Congruential) : IO UInt32 := do
  let _ ← orFail p.options
  printLines [p.opening]
  let count ← orFail p.count
  let start ← now
  let trials ← tryDocuments p count (seeded p.seed source)
  let finish ← now
  let (lines, files, verdict) :=
    Report.close p count trials fun reading => if reading = 0 then start else finish
  printLines lines
  for (name, kept) in files do
    IO.FS.writeFile name (textOf kept)
  return if ← orFail verdict then 0 else Request.failureStatus.toUInt32

def runRequest (r : Request) : IO UInt32 := do
  let source : Congruential := ⟨← IO.monoNanosNow⟩
  if r.help then
    printLines helpLines
    return 0
  match r.sampleCount? with
  | some count =>
    printLines (sampleLines (r.samples count source).1)
    return 0
  | none => runCampaign r.plan source

end SemanticMarkup.Fuzz

def main (words : List String) : IO UInt32 := do
  match SemanticMarkup.Fuzz.Request.ofWords words with
  | .ok r => SemanticMarkup.Fuzz.runRequest r
  | .error e =>
    (← IO.getStderr).putStr (SemanticMarkup.Fuzz.textOf
      (SemanticMarkup.Fuzz.usageLines ++ ["fuzz: error: " ++ e.message]))
    return SemanticMarkup.Fuzz.Request.usageStatus.toUInt32
