import SemanticMarkup.Decimal.Arithmetic
import SemanticMarkup.Decimal.Shortest
import SemanticMarkup.Table
import SemanticMarkup.Text.Numeral

namespace SemanticMarkup
open Decimal

-- What attributes, options and metadata hold: data of open shape. A whole number has a numeral, so
-- that every value can be written.
inductive Value where
  | null
  | flag (b : Bool)
  | whole (n : Int) (short : Text.Short n := by decide)
  | real (x : Binary64)
  | text (s : String)
  | list (items : List Value)
  | record (fields : List (String × Value))
  deriving Inhabited

namespace Value

def typeName : Value → String
  | .null => "NoneType"
  | .flag _ => "bool"
  | .whole _ _ => "int"
  | .real _ => "float"
  | .text _ => "str"
  | .list _ => "list"
  | .record _ => "dict"

-- Empty things, zeros, `null` and `false` count as no.
def isTrue : Value → Bool
  | .null => false
  | .flag b => b
  | .whole n _ => n ≠ 0
  | .real x => !x.isZero
  | .text s => s ≠ ""
  | .list items => !items.isEmpty
  | .record fields => !fields.isEmpty

mutual

def quoted : Value → String
  | .null => "None"
  | .flag b => if b then "True" else "False"
  | .whole n _ => toString n
  | .real x => x.text
  | .text s => Text.quotedForm s
  | .list items => "[" ++ quotedItems items ++ "]"
  | .record fields => "\x7b" ++ quotedFields fields ++ "\x7d"

def quotedItems : List Value → String
  | [] => ""
  | [item] => item.quoted
  | item :: next :: rest => item.quoted ++ ", " ++ quotedItems (next :: rest)

def quotedFields : List (String × Value) → String
  | [] => ""
  | [(key, value)] => Text.quotedForm key ++ ": " ++ value.quoted
  | (key, value) :: next :: rest =>
    Text.quotedForm key ++ ": " ++ value.quoted ++ ", " ++ quotedFields (next :: rest)

end

-- A value as text: text stands for itself, all else is quoted.
def shown : Value → String
  | .text s => s
  | v => v.quoted

def whole? : Value → Option Int
  | .flag b => some (if b then 1 else 0)
  | .whole n _ => some n
  | _ => none

def sameNumber (a b : Value) : Bool :=
  match a.whole?, b.whole? with
  | some m, some n => m == n
  | some m, none => match b with
    | .real y => y.toInt? == some m
    | _ => false
  | none, some n => match a with
    | .real x => x.toInt? == some n
    | _ => false
  | none, none => match a, b with
    | .real x, .real y => x.same y
    | _, _ => false

mutual

-- Equality of values: numbers by size, records without regard to order.
def same : Value → Value → Bool
  | .null, .null => true
  | .text s, .text t => s == t
  | .list items, .list others => sameItems items others
  | .record fields, .record others =>
    fields.length == others.length && sameFields fields others
  | a, b => sameNumber a b

def sameItems : List Value → List Value → Bool
  | [], [] => true
  | item :: rest, other :: others => item.same other && sameItems rest others
  | _, _ => false

def sameFields : List (String × Value) → Table Value → Bool
  | [], _ => true
  | (key, value) :: rest, others =>
    (match Table.get? others key with
      | some other => value.same other
      | none => false) && sameFields rest others

end

def sameTable (a b : Table Value) : Bool := a.length == b.length && sameFields a b

def text? : Value → Option String
  | .text s => some s
  | _ => none

def record? : Value → Option (Table Value)
  | .record fields => some fields
  | _ => none

def isNull : Value → Bool
  | .null => true
  | _ => false

def isText (v : Value) (text : String) : Bool := v.text? == some text

def mapText (f : String → String) : Value → Value
  | .text s => .text (f s)
  | v => v

-- The first of two values, unless it counts as no.
def orElse (v other : Value) : Value := if v.isTrue then v else other

def real? : Value → Option Binary64
  | .real x => some x
  | v => v.whole?.bind Binary64.ofInt?

-- Two values put together: texts and lists one behind the other, numbers by their sum. Values
-- that do not go together give the first.
def joined (a b : Value) : Value :=
  match a, b with
  | .text s, .text t => .text (s ++ t)
  | .list items, .list others => .list (items ++ others)
  | a, b =>
    match a.whole?, b.whole? with
    | some m, some n => if short : Text.Short (m + n) then .whole (m + n) short else a
    | _, _ =>
      match a.real?, b.real? with
      | some x, some y => .real (x.plus y)
      | _, _ => a

def key : Value → String
  | .null => "null"
  | .flag b => if b then "true" else "false"
  | v => v.shown

-- An entry may be written as anything with two parts: a list, a text of two characters, or a
-- record, whose keys are its parts.
def entry? : Value → Option (String × Value)
  | .list [first, second] => some (first.key, second)
  | .text s =>
    match s.toList with
    | [first, second] => some (String.singleton first, .text (String.singleton second))
    | _ => none
  | .record [first, second] => some (first.1, .text second.1)
  | _ => none

-- The table that a value stands for: a record, or a list of entries. Anything else is empty.
def entries : Value → Table Value
  | .record fields => fields
  | .list items => Table.ofPairs (items.filterMap entry?)
  | _ => []

end Value

namespace Table

def text? (t : Table Value) (key : String) : Option String := (get? t key).bind Value.text?

def getD (t : Table Value) (key : String) : Value := (get? t key).getD .null

end Table
end SemanticMarkup
