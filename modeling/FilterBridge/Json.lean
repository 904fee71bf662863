import FilterBridge.Hex

/-!
# JSON

Values of JSON, read from text and written as text.  A string may spell half of
a surrogate pair with its escapes; such a string has no text, which matters only
to those who want to know the text.

## Main definitions

* `Json` — the values; the fields of an object keep their order.
* `Json.parse?` — the value that a text spells.
* `Json.compact`, `Json.pretty` — a value without blanks, and one with lines.
* `Json.record?` — the named fields of an object, or the items of an array in
  their place.
-/

namespace FilterBridge

/-- A JSON value. -/
inductive Json
  /-- The value null. -/
  | null
  /-- A truth value. -/
  | bool (b : Bool)
  /-- A number, as it is written. -/
  | number (literal : String)
  /-- A string; it has no text if its escapes leave a surrogate unpaired. -/
  | string (text : Option String)
  /-- An array. -/
  | array (items : List Json)
  /-- An object with its fields in order, repeated ones too. -/
  | object (fields : List (Option String × Json))
  deriving Inhabited

namespace Json

/-! ### Reading -/

/-- Drop the blanks that may stand between tokens. -/
def skipBlanks (cs : List Char) : List Char :=
  cs.dropWhile fun c => c = ' ' || c = '\n' || c = '\t' || c = '\r'

/-- The value of a hexadecimal digit of either case. -/
def hexValue? (c : Char) : Option Nat :=
  if '0' ≤ c && c ≤ '9' then some (c.toNat - 48)
  else if 'a' ≤ c && c ≤ 'f' then some (c.toNat - 87)
  else if 'A' ≤ c && c ≤ 'F' then some (c.toNat - 55)
  else none

/-- The code that a letter stands for after a backslash. -/
def escape? : Char → Option Nat
  | '"' => some 34
  | '\\' => some 92
  | '/' => some 47
  | 'b' => some 8
  | 'f' => some 12
  | 'n' => some 10
  | 'r' => some 13
  | 't' => some 9
  | _ => none

/-- The codes of a string up to its closing quote, and the text after that.
Escapes give UTF-16 units, all other characters their code points. -/
def stringCodes? : List Char → Option (List Nat × List Char)
  | [] => none
  | '"' :: rest => some ([], rest)
  | '\\' :: 'u' :: a :: b :: c :: d :: rest => do
    let unit := (← hexValue? a) * 4096 + (← hexValue? b) * 256 + (← hexValue? c) * 16
      + (← hexValue? d)
    let (codes, rest) ← stringCodes? rest
    return (unit :: codes, rest)
  | '\\' :: c :: rest => do
    let code ← escape? c
    let (codes, rest) ← stringCodes? rest
    return (code :: codes, rest)
  | c :: rest => do
    if c.toNat < 32 || c = '\\' then none
    let (codes, rest) ← stringCodes? rest
    return (c.toNat :: codes, rest)

/-- The characters that codes spell, if every surrogate has its other half. -/
def pairUp? : List Nat → Option (List Char)
  | [] => some []
  | hi :: lo :: rest =>
    if 0xD800 ≤ hi && hi < 0xDC00 then
      if 0xDC00 ≤ lo && lo < 0xE000 then
        (pairUp? rest).map (Char.ofNat (0x10000 + (hi - 0xD800) * 1024 + (lo - 0xDC00)) :: ·)
      else none
    else if 0xDC00 ≤ hi && hi < 0xE000 then none
    else (pairUp? (lo :: rest)).map (Char.ofNat hi :: ·)
  | [c] => if 0xD800 ≤ c && c < 0xE000 then none else some [Char.ofNat c]

/-- The text of a string after its opening quote, and the text after it. -/
def stringRest? (cs : List Char) : Option (Option String × List Char) := do
  let (codes, rest) ← stringCodes? cs
  return ((pairUp? codes).map String.ofList, rest)

/-- Whether a character is a decimal digit. -/
def isDigit (c : Char) : Bool := '0' ≤ c && c ≤ '9'

/-- One or more digits, and the text after them. -/
def digits? (cs : List Char) : Option (List Char × List Char) :=
  match cs.takeWhile isDigit with
  | [] => none
  | ds => some (ds, cs.dropWhile isDigit)

/-- The whole part of a number: no zero stands before another digit. -/
def wholePart? : List Char → Option (List Char × List Char)
  | '0' :: cs => if (cs.head?.map isDigit).getD false then none else some (['0'], cs)
  | cs => digits? cs

/-- The fraction of a number, if there is one. -/
def fraction? : List Char → Option (List Char × List Char)
  | '.' :: cs => (digits? cs).map fun (ds, rest) => ('.' :: ds, rest)
  | cs => some ([], cs)

/-- The exponent of a number, if there is one. -/
def exponent? : List Char → Option (List Char × List Char)
  | e :: cs =>
    if e = 'e' || e = 'E' then
      match cs with
      | s :: cs' =>
        if s = '+' || s = '-' then (digits? cs').map fun (ds, rest) => (e :: s :: ds, rest)
        else (digits? cs).map fun (ds, rest) => (e :: ds, rest)
      | [] => none
    else some ([], e :: cs)
  | [] => some ([], [])

/-- A number, and the text after it. -/
def number? (cs : List Char) : Option (Json × List Char) := do
  let (sign, cs) := match cs with
    | '-' :: cs => (['-'], cs)
    | cs => ([], cs)
  let (whole, cs) ← wholePart? cs
  let (fraction, cs) ← fraction? cs
  let (exponent, cs) ← exponent? cs
  return (number (String.ofList (sign ++ whole ++ fraction ++ exponent)), cs)

mutual

/-- A value, and the text after it, nested less than `fuel` deep. -/
def value? : Nat → List Char → Option (Json × List Char)
  | 0, _ => none
  | fuel + 1, cs =>
    match skipBlanks cs with
    | 'n' :: 'u' :: 'l' :: 'l' :: rest => some (null, rest)
    | 't' :: 'r' :: 'u' :: 'e' :: rest => some (bool true, rest)
    | 'f' :: 'a' :: 'l' :: 's' :: 'e' :: rest => some (bool false, rest)
    | '"' :: rest => (stringRest? rest).map fun (text, rest) => (string text, rest)
    | '[' :: rest =>
      match skipBlanks rest with
      | ']' :: rest => some (array [], rest)
      | rest => (items? fuel rest).map fun (items, rest) => (array items, rest)
    | '\x7b' :: rest =>
      match skipBlanks rest with
      | '\x7d' :: rest => some (object [], rest)
      | rest => (fields? fuel rest).map fun (fields, rest) => (object fields, rest)
    | cs => number? cs

/-- The items of an array, one at least, up to its closing bracket. -/
def items? : Nat → List Char → Option (List Json × List Char)
  | 0, _ => none
  | fuel + 1, cs => do
    let (item, rest) ← value? fuel cs
    match skipBlanks rest with
    | ',' :: rest => (items? fuel rest).map fun (items, rest) => (item :: items, rest)
    | ']' :: rest => some ([item], rest)
    | _ => none

/-- The fields of an object, one at least, up to its closing brace. -/
def fields? : Nat → List Char → Option (List (Option String × Json) × List Char)
  | 0, _ => none
  | fuel + 1, cs =>
    match skipBlanks cs with
    | '"' :: rest => do
      let (name, rest) ← stringRest? rest
      match skipBlanks rest with
      | ':' :: rest => do
        let (value, rest) ← value? fuel rest
        match skipBlanks rest with
        | ',' :: rest =>
          (fields? fuel rest).map fun (fields, rest) => ((name, value) :: fields, rest)
        | '\x7d' :: rest => some ([(name, value)], rest)
        | _ => none
      | _ => none
    | _ => none

end

/-- The value that a text spells, with blanks around it and nothing else. -/
def parse? (text : String) : Option Json := do
  let cs := text.toList
  let (value, rest) ← value? (2 * cs.length + 2) cs
  if skipBlanks rest = [] then some value else none

/-! ### Writing -/

/-- A character as it stands in a string. -/
def quoteChar (c : Char) : String :=
  if c = '"' then "\\\""
  else if c = '\\' then "\\\\"
  else if c = '\n' then "\\n"
  else if c = '\r' then "\\r"
  else if c = '\t' then "\\t"
  else if c.toNat = 8 then "\\b"
  else if c.toNat = 12 then "\\f"
  else if c.toNat < 32 then "\\u" ++ String.ofList (Hex.digits 4 c.toNat)
  else c.toString

/-- A text in quotes. -/
def quote (text : String) : String :=
  "\"" ++ String.join (text.toList.map quoteChar) ++ "\""

/-- A string value. -/
def ofString (text : String) : Json := string (some text)

/-- A number value. -/
def ofNat (n : Nat) : Json := number (toString n)

/-- An object value with the given fields. -/
def ofFields (fields : List (String × Json)) : Json :=
  object (fields.map fun f => (some f.1, f.2))

mutual

/-- A value without blanks. -/
def compact : Json → String
  | null => "null"
  | bool b => if b then "true" else "false"
  | number literal => literal
  | string text => quote (text.getD "")
  | array items => "[" ++ ",".intercalate (compactItems items) ++ "]"
  | object fields => "\x7b" ++ ",".intercalate (compactFields fields) ++ "\x7d"

/-- The items of an array without blanks. -/
def compactItems : List Json → List String
  | [] => []
  | item :: items => item.compact :: compactItems items

/-- The fields of an object without blanks. -/
def compactFields : List (Option String × Json) → List String
  | [] => []
  | (name, value) :: fields =>
    (quote (name.getD "") ++ ":" ++ value.compact) :: compactFields fields

end

/-- The start of a line, `depth` levels in. -/
def newLine (depth : Nat) : String := "\n" ++ String.join (List.replicate depth "  ")

mutual

/-- A value with a line for each item and field, from the level `depth` on. -/
def prettyAt (depth : Nat) : Json → String
  | array [] => "[]"
  | object [] => "\x7b\x7d"
  | array items => "[" ++ ",".intercalate (prettyItems (depth + 1) items) ++ newLine depth ++ "]"
  | object fields =>
    "\x7b" ++ ",".intercalate (prettyFields (depth + 1) fields) ++ newLine depth ++ "\x7d"
  | null => "null"
  | bool b => if b then "true" else "false"
  | number literal => literal
  | string text => quote (text.getD "")

/-- The items of an array, each on a line of the level `depth`. -/
def prettyItems (depth : Nat) : List Json → List String
  | [] => []
  | item :: items => (newLine depth ++ item.prettyAt depth) :: prettyItems depth items

/-- The fields of an object, each on a line of the level `depth`. -/
def prettyFields (depth : Nat) : List (Option String × Json) → List String
  | [] => []
  | (name, value) :: fields =>
    (newLine depth ++ quote (name.getD "") ++ ": " ++ value.prettyAt depth) ::
      prettyFields depth fields

end

/-- A value with a line for each item and field, indented by two blanks. -/
def pretty (j : Json) : String := j.prettyAt 0

/-! ### Taking values apart -/

/-- The values of the fields called `name`. -/
def valuesOf (name : String) (fields : List (Option String × Json)) : List Json :=
  (fields.filter fun f => f.1 = some name).map (·.2)

/-- The values of the named fields, where present.  Of an object each name may
occur once, and other fields do not count.  Of an array the items stand for the
fields in order, and there may be no more items than names. -/
def record? (names : List String) : Json → Option (List (Option Json))
  | object fields =>
    if fields.any (·.1.isNone) then none
    else names.mapM fun name =>
      match valuesOf name fields with
      | [] => some none
      | [value] => some (some value)
      | _ => none
  | array items =>
    if names.length < items.length then none
    else some (items.map some ++ List.replicate (names.length - items.length) none)
  | _ => none

/-- The text of a string. -/
def string? : Json → Option String
  | string text => text
  | _ => none

/-- A truth value. -/
def bool? : Json → Option Bool
  | bool b => some b
  | _ => none

/-- The number that consists of digits alone and is below `2 ^ 64`. -/
def nat? : Json → Option Nat
  | number literal =>
    if literal.toList.all isDigit then
      let n := literal.toList.foldl (fun n c => n * 10 + (c.toNat - 48)) 0
      if n < 18446744073709551616 then some n else none
    else none
  | _ => none

/-- The items of an array. -/
def items : Json → Option (List Json)
  | array items => some items
  | _ => none

/-- One of a few named values: its name, or an object whose only field has that
name and the value null. -/
def choice? {α : Type} (choices : List (String × α)) : Json → Option α
  | string (some name) => choices.lookup name
  | object [(some name, null)] => choices.lookup name
  | _ => none

end Json

end FilterBridge
