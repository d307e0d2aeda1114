-- YAML documents of one value: records and lists by indentation or in brackets, with
-- scalars at their ends. Anchors, tags, explicit keys and directives are not read.
import Turnstile.Yaml.ScalarForm

namespace Turnstile.Yaml

/-- The text under which a value is a key of a record. -/
def keyText? : Value → Option String
  | .null => some "null"
  | .bool b => some (if b then "true" else "false")
  | .text s => some s
  | .number n => some n.text
  | _ => none

/-- The value of a plain scalar that was read. -/
def plainValue (scalar : List Char × Cursor) : Option (Value × Cursor) :=
  (resolve? (String.ofList scalar.1)).map fun v => (v, scalar.2)

def quotedValue (c : Cursor) : Option (Value × Cursor) :=
  (quotedScalar c).map fun (text, d) => (.text (String.ofList text), d)

def atQuote (c : Cursor) : Bool := c.rest.head?.any fun x => x == '"' || x == '\''

/-! ## Brackets -/

mutual

/-- A value in brackets, with the cursor at its first token. -/
def flowValue (c : Cursor) : Nat → Option (Value × Cursor)
  | 0 => none
  | fuel + 1 =>
    match c.rest with
    | '[' :: _ => flowItems [] (c.skip 1).toToken fuel
    | '\x7b' :: _ => flowFields [] (c.skip 1).toToken fuel
    | rest =>
      if atQuote c then quotedValue c
      else if startsPlain true rest then plainValue (plainScalar true 0 c)
      else none

/-- The rest of a list. An item with a colon behind it is a record of one field. -/
def flowItems (items : List Value) (c : Cursor) : Nat → Option (Value × Cursor)
  | 0 => none
  | fuel + 1 =>
    if c.rest.head? = some ']' then some (.list items.reverse, c.skip 1)
    else do
      let (v, d) ← flowField c fuel
      let item := match v with
        | (none, v) => v
        | (some key, v) => .record [(key, v)]
      match d.rest with
      | ',' :: _ => flowItems (item :: items) (d.skip 1).toToken fuel
      | ']' :: _ => return (.list (item :: items).reverse, d.skip 1)
      | _ => none

/-- The rest of a record. A key without a colon has the value null. -/
def flowFields (fields : List (String × Value)) (c : Cursor) : Nat →
    Option (Value × Cursor)
  | 0 => none
  | fuel + 1 =>
    if c.rest.head? = some '\x7d' then some (.record fields, c.skip 1)
    else do
      let (v, d) ← flowField c fuel
      let (key, v) ← match v with
        | (some key, v) => some (key, v)
        | (none, v) => (keyText? v).map fun key => (key, .null)
      let fields := Value.setField fields key v
      match d.rest with
      | ',' :: _ => flowFields fields (d.skip 1).toToken fuel
      | '\x7d' :: _ => return (.record fields, d.skip 1)
      | _ => none

/-- A value, or a key with the value behind its colon, and the token that follows. -/
def flowField (c : Cursor) : Nat → Option ((Option String × Value) × Cursor)
  | 0 => none
  | fuel + 1 => do
    let (v, d) ← flowValue c fuel
    let d := d.toToken
    if d.rest.head? ≠ some ':' then return ((none, v), d)
    let key ← keyText? v
    let e := (d.skip 1).toToken
    if e.rest.head?.any fun x => x == ',' || x == ']' || x == '\x7d' then
      return ((some key, .null), e)
    let (w, f) ← flowValue e fuel
    return ((some key, w), f.toToken)

end

/-! ## Blocks -/

/-- A key with its colon, all on one line. -/
def keyAt? (c : Cursor) : Option (String × Cursor) := do
  let (v, d) ← if atQuote c then quotedValue c
    else if startsPlain false c.rest then plainValue (plainLine false c)
    else none
  let d := d.skipBlanks d.rest.length
  match d.rest with
  | ':' :: rest =>
    if d.line = c.line && atGap rest then return (← keyText? v, d.skip 1) else none
  | _ => none

/-- A value that is neither a list nor a record by indentation. -/
def leafAt (floor : Nat) (c : Cursor) (fuel : Nat) : Option (Value × Cursor) :=
  match c.rest with
  | '|' :: _ | '>' :: _ =>
    (blockScalar floor c).map fun (text, d) => (.text (String.ofList text), d)
  | '[' :: _ | '\x7b' :: _ => flowValue c fuel
  | rest =>
    if atQuote c then quotedValue c
    else if startsPlain false rest then plainValue (plainScalar false floor c)
    else none

mutual

/-- A value with the cursor at its first token. Its further lines begin at a column no less
than the floor. A value behind a key on the same line is a leaf. -/
def valueAt (floor : Nat) (leaf : Bool) (c : Cursor) : Nat → Option (Value × Cursor)
  | 0 => none
  | fuel + 1 =>
    if c.atItem then (if leaf then none else blockItems c.column [] c fuel)
    else if !leaf && (keyAt? c).isSome then blockFields c.column [] c fuel
    else leafAt floor c fuel

/-- The items of a list whose marks stand in a column. -/
def blockItems (column : Nat) (items : List Value) (c : Cursor) : Nat →
    Option (Value × Cursor)
  | 0 => none
  | fuel + 1 =>
    if c.atEnd || c.column ≠ column || !c.atItem then some (.list items.reverse, c)
    else do
      let d := (c.skip 1).toToken
      if d.atEnd || (d.line ≠ c.line && d.column ≤ column) then
        blockItems column (.null :: items) d fuel
      else
        let (v, e) ← valueAt (column + 1) false d fuel
        blockItems column (v :: items) e.toToken fuel

/-- The fields of a record whose keys stand in a column. A list below a key may stand in the
same column. -/
def blockFields (column : Nat) (fields : List (String × Value)) (c : Cursor) : Nat →
    Option (Value × Cursor)
  | 0 => none
  | fuel + 1 =>
    if c.atEnd || c.column ≠ column then some (.record fields, c)
    else do
      let (key, d) ← keyAt? c
      let e := d.toToken
      let empty := e.atEnd || (e.line ≠ c.line &&
        (e.column < column || (e.column = column && !e.atItem)))
      if empty then blockFields column (Value.setField fields key .null) e fuel
      else
        let (v, f) ← valueAt (column + 1) (e.line = c.line) e fuel
        blockFields column (Value.setField fields key v) f.toToken fuel

end

/-! ## Documents -/

/-- Whether nothing but the end of a document is left. -/
def isOver (c : Cursor) : Bool :=
  c.rest.isEmpty || (c.atDivider && c.rest.head? = some '.' && (c.skip 3).toToken.rest.isEmpty)

/-- The value of a document; an empty one is null. -/
def read? (text : String) : Option Value := do
  let cs := match text.toList with
    | '\ufeff' :: rest => rest
    | cs => cs
  if !cs.all isAllowed then none
  let fuel := 4 * cs.length + 8
  let start := (Cursor.start cs).toToken
  let opened := start.atDivider && start.rest.head? = some '-'
  let c := if opened then (start.skip 3).toToken else start
  if isOver c then return .null
  if c.atDivider then none
  let (v, d) ← valueAt 0 (opened && c.line = start.line) c fuel
  if isOver d.toToken then return v else none

end Turnstile.Yaml
