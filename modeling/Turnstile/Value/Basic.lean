-- The dynamic values that payloads, names, events and configuration files hold, with
-- equality by value and the rule of what may name a thing.
import Turnstile.Number.Basic
import Turnstile.Text.Quoted

namespace Turnstile

/-- A value. A record keeps its fields in the order in which they were first set, each key
once; `terminal` is the marker of the exit pseudo-state. -/
inductive Value where
  | null
  | number (n : Number)
  | text (s : String)
  | list (items : List Value)
  | record (fields : List (String × Value))
  | terminal
  deriving Repr, Inhabited

namespace Value

@[match_pattern] abbrev bool (b : Bool) : Value := .number (.flag b)
@[match_pattern] abbrev int (n : Int) : Value := .number (.whole n)
@[match_pattern] abbrev float (x : Binary64) : Value := .number (.real x)

/-- The list of some texts. -/
def texts (ss : List String) : Value := .list (ss.map .text)

/-! ## Equality -/

mutual

/-- Equality by value: numbers by size, lists in order, records in any order. -/
def same : Value → Value → Bool
  | .null, .null => true
  | .number a, .number b => a.same b
  | .text a, .text b => a == b
  | .list a, .list b => sameItems a b
  | .record a, .record b => a.length == b.length && sameFields a b
  | .terminal, .terminal => true
  | _, _ => false

def sameItems : List Value → List Value → Bool
  | [], [] => true
  | a :: as, b :: bs => same a b && sameItems as bs
  | _, _ => false

/-- Whether each field of the first record stands in the second one. -/
def sameFields : List (String × Value) → List (String × Value) → Bool
  | [], _ => true
  | (key, a) :: rest, other =>
    (match other.lookup key with
      | some b => same a b
      | none => false) && sameFields rest other

end

/-! ## Properties -/

/-- Whether a value counts as true: not null, zero or empty. -/
def isTrue : Value → Bool
  | .null => false
  | .number n => !n.isZero
  | .text s => !s.isEmpty
  | .list items => !items.isEmpty
  | .record fields => !fields.isEmpty
  | .terminal => true

/-- The name of a value's type. -/
def typeName : Value → String
  | .null => "NoneType"
  | .number (.flag _) => "bool"
  | .number (.whole _) => "int"
  | .number (.real _) => "float"
  | .text _ => "str"
  | .list _ => "list"
  | .record _ => "dict"
  | .terminal => "_Terminal"

/-- Whether a value may be a key. Lists and records may not. -/
def isKey : Value → Bool
  | .list _ | .record _ => false
  | _ => true

/-! ## Texts -/

mutual

/-- The literal form of a value, with texts quoted. -/
def literal : Value → String
  | .null => "None"
  | .number n => n.text
  | .text s => Text.quoted s
  | .list items => "[" ++ literalItems items ++ "]"
  | .record fields => "\x7b" ++ literalFields fields ++ "\x7d"
  | .terminal => "[*]"

def literalItems : List Value → String
  | [] => ""
  | [v] => literal v
  | v :: rest => literal v ++ ", " ++ literalItems rest

def literalFields : List (String × Value) → String
  | [] => ""
  | [(key, v)] => Text.quoted key ++ ": " ++ literal v
  | (key, v) :: rest => Text.quoted key ++ ": " ++ literal v ++ ", " ++ literalFields rest

end

/-- The plain form of a value: a text stands for itself. -/
def plain : Value → String
  | .text s => s
  | v => v.literal

/-! ## Fields -/

/-- Sets a key of a list of fields: a key that is there keeps its place. -/
def setField {α : Type} (fields : List (String × α)) (key : String) (v : α) :
    List (String × α) :=
  match fields with
  | [] => [(key, v)]
  | (k, w) :: rest => if k = key then (k, v) :: rest else (k, w) :: setField rest key v

/-- The fields that result from setting some keys in turn. -/
def ofPairs {α : Type} (pairs : List (String × α)) : List (String × α) :=
  pairs.foldl (fun fields (key, v) => setField fields key v) []

/-- The field of a record; null stands for a field that is not there. -/
def field (v : Value) (key : String) : Value :=
  match v with
  | .record fields => (fields.lookup key).getD .null
  | _ => .null

end Value
end Turnstile
