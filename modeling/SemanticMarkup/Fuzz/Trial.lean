import SemanticMarkup.Decimal.Fixed
import SemanticMarkup.Fault

namespace SemanticMarkup.Fuzz

open Decimal (Binary64)

-- How the transform of a document ended: it came back after so many seconds, or it failed, with
-- the text of the fault and the account of where it arose.
inductive Outcome where
  | returned (seconds : Binary64)
  | failed (message trace : String)

namespace Outcome

def patience : Binary64 := .ofRatio false 5 1

def hangs : Outcome → Bool
  | .returned seconds => patience.less seconds
  | .failed .. => false

def crashes : Outcome → Bool
  | .returned _ => false
  | .failed .. => true

def succeeds (o : Outcome) : Bool := !o.hangs && !o.crashes

def ofResult {α : Type} (result : Except Fault α) (seconds : Binary64) (trace : String) : Outcome :=
  match result with
  | .ok _ => .returned seconds
  | .error f => .failed f.text trace

end Outcome

structure Trial where
  number : Nat
  document : String
  outcome : Outcome

namespace Trial

def hangs (t : Trial) : Bool := t.outcome.hangs
def crashes (t : Trial) : Bool := t.outcome.crashes
def succeeds (t : Trial) : Bool := t.outcome.succeeds

def secondsText (seconds : Binary64) : String := seconds.fixed 2

def news (t : Trial) : List String :=
  match t.outcome with
  | .returned seconds =>
    if t.hangs then ["  HANG: Test " ++ toString t.number ++ " took " ++ secondsText seconds ++ "s"]
    else []
  | .failed message _ => ["  CRASH: Test " ++ toString t.number ++ ": " ++ message]

def documentLine (t : Trial) : String :=
  "  HTML: " ++ Text.quotedForm (.ofList (t.document.toList.take 200)) ++ "..."

def details (t : Trial) : List String :=
  let heading := "Test #" ++ toString t.number
  match t.outcome with
  | .returned seconds => ["", heading ++ " (" ++ secondsText seconds ++ "s):", t.documentLine]
  | .failed message _ => ["", heading ++ ":", t.documentLine, "  Error: " ++ message]

def record (t : Trial) : List String :=
  let number := toString t.number
  match t.outcome with
  | .returned seconds =>
    ["=== HANG #" ++ number ++ " (" ++ secondsText seconds ++ "s) ===", "HTML:", t.document, ""]
  | .failed message trace =>
    ["=== CRASH #" ++ number ++ " ===", "HTML:", t.document, "Error: " ++ message, "Traceback:",
      trace, ""]

end Trial
end SemanticMarkup.Fuzz
