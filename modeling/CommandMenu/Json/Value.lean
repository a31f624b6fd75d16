import CommandMenu.Number.Basic

/-! # JSON values and their texts

* `Json.Value` is a JSON value; the members of an object keep their order.
* `Json.Value.compact` writes it without white space, `Json.Value.pretty` on lines of its own with
  two spaces for each level.
* `Json.Value.sortKeys` orders the members of all objects by key.
-/

namespace CommandMenu.Json

/-- A JSON value. -/
inductive Value where
  | null
  | bool (value : Bool)
  | number (value : Number)
  | string (value : String)
  | array (items : List Value)
  | object (members : List (String × Value))
deriving Repr, BEq, Inhabited

/-! ### Strings -/

/-- What stands for a character in a JSON string.  Control characters have a letter of their own or
four hexadecimal digits. -/
def escapeChar (c : Char) : List Char :=
  if c = '"' then ['\\', '"']
  else if c = '\\' then ['\\', '\\']
  else if c = '\n' then ['\\', 'n']
  else if c = '\r' then ['\\', 'r']
  else if c = '\t' then ['\\', 't']
  else if c = '\x08' then ['\\', 'b']
  else if c = '\x0C' then ['\\', 'f']
  else if c.toNat < 0x20 then
    ['\\', 'u', '0', '0', Nat.digitChar (c.toNat / 16), Nat.digitChar (c.toNat % 16)]
  else [c]

/-- The text of a string between quotes. -/
def stringText (s : String) : String :=
  "\"" ++ String.ofList (s.toList.flatMap escapeChar) ++ "\""

namespace Value

/-- The text of a number; JSON knows no infinities. -/
def numberText : Number → String
  | .real (.infinite _) => "null"
  | .real .notANumber => "null"
  | n => n.render

/-! ### Compact texts -/

mutual

/-- The text without white space. -/
def compact : Value → String
  | .null => "null"
  | .bool b => if b then "true" else "false"
  | .number n => numberText n
  | .string s => stringText s
  | .array items => "[" ++ compactItems items ++ "]"
  | .object members => "\x7b" ++ compactMembers members ++ "\x7d"

/-- Items with commas between them. -/
def compactItems : List Value → String
  | [] => ""
  | [v] => v.compact
  | v :: rest => v.compact ++ "," ++ compactItems rest

/-- Members with commas between them. -/
def compactMembers : List (String × Value) → String
  | [] => ""
  | [(k, v)] => stringText k ++ ":" ++ v.compact
  | (k, v) :: rest => stringText k ++ ":" ++ v.compact ++ "," ++ compactMembers rest

end

/-! ### Pretty texts -/

/-- A new line with two spaces for each level. -/
def newLine (level : Nat) : String := "\n" ++ String.ofList (List.replicate (2 * level) ' ')

mutual

/-- The text on lines of its own.  A list or object without parts stays on one line. -/
def prettyAt (level : Nat) : Value → String
  | .array [] => "[]"
  | .array items => "[" ++ prettyItems (level + 1) items ++ newLine level ++ "]"
  | .object [] => "\x7b\x7d"
  | .object members => "\x7b" ++ prettyMembers (level + 1) members ++ newLine level ++ "\x7d"
  | .null => "null"
  | .bool b => if b then "true" else "false"
  | .number n => numberText n
  | .string s => stringText s

/-- Items, each on a line of its own. -/
def prettyItems (level : Nat) : List Value → String
  | [] => ""
  | [v] => newLine level ++ v.prettyAt level
  | v :: rest => newLine level ++ v.prettyAt level ++ "," ++ prettyItems level rest

/-- Members, each on a line of its own. -/
def prettyMembers (level : Nat) : List (String × Value) → String
  | [] => ""
  | [(k, v)] => newLine level ++ stringText k ++ ": " ++ v.prettyAt level
  | (k, v) :: rest =>
    newLine level ++ stringText k ++ ": " ++ v.prettyAt level ++ "," ++ prettyMembers level rest

end

/-- The text on lines of its own, from the left margin. -/
def pretty (v : Value) : String := v.prettyAt 0

/-! ### Sorted members -/

/-- Puts a member at its place among members sorted by key; it replaces a member of the same key. -/
def insertSorted (k : String) (v : Value) : List (String × Value) → List (String × Value)
  | [] => [(k, v)]
  | (l, w) :: rest =>
    if k = l then (k, v) :: rest
    else if k < l then (k, v) :: (l, w) :: rest
    else (l, w) :: insertSorted k v rest

mutual

/-- Sorts the members of all objects by key; of members with the same key the last one counts. -/
def sortKeys : Value → Value
  | .array items => .array (sortItems items)
  | .object members =>
    .object ((sortMembers members).foldl (fun ms m => insertSorted m.1 m.2 ms) [])
  | v => v

/-- Sorts the members of the objects in each item. -/
def sortItems : List Value → List Value
  | [] => []
  | v :: rest => v.sortKeys :: sortItems rest

/-- Sorts the members of the objects in each member. -/
def sortMembers : List (String × Value) → List (String × Value)
  | [] => []
  | (k, v) :: rest => (k, v.sortKeys) :: sortMembers rest

end

/-- An object of the members that are set. -/
def ofMembers (members : List (String × Option Value)) : Value :=
  .object (members.filterMap fun m => m.2.map fun v => (m.1, v))

end Value
end CommandMenu.Json
