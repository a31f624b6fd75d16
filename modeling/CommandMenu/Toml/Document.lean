import CommandMenu.Toml.Word

/-! # Tables of a TOML text

The statements of a text build up one table.  A key gets a value once; a table may be opened by its
own header after the headers of its parts, but not twice.

* `Toml.Value` is a value with its parts, each with the part of the text it comes from.
* `Table.define` gives a key its value, `Table.change` follows the path to it.
* `Toml.read` is the table that a text denotes.
-/

namespace CommandMenu.Toml

/-- Something with the part of the text it comes from. -/
structure Located (α : Type) where
  value : α
  span : Span
deriving Repr

/-- How a table came about: by its own header, by the header of a part of it, by a key with points,
or in braces. -/
inductive Origin where
  | header
  | implied
  | dotted
  | inline
deriving DecidableEq, Repr

/-- A value with its parts. -/
inductive Value where
  | scalar (value : Scalar)
  | list (items : List (Located Value)) (ofTables : Bool)
  | table (origin : Origin) (entries : List (String × Located Value))
deriving Repr

/-- A table: how it came about, and its entries, the keys in ascending order. -/
structure Table where
  origin : Origin
  entries : List (String × Located Value)
deriving Repr

namespace Table

/-- A table as a value. -/
def value (t : Table) : Value := .table t.origin t.entries

/-- The value of a key. -/
def lookup (name : String) : List (String × Located Value) → Option (Located Value)
  | [] => none
  | (k, v) :: rest => if k = name then some v else lookup name rest

/-- Sets the value of a key. -/
def place (name : String) (v : Located Value) :
    List (String × Located Value) → List (String × Located Value)
  | [] => [(name, v)]
  | (k, w) :: rest =>
    if name = k then (name, v) :: rest
    else if name < k then (name, v) :: (k, w) :: rest
    else (k, w) :: place name v rest

/-- The table without a key. -/
def erase (name : String) (t : Table) : Table :=
  { t with entries := t.entries.filter (·.1 ≠ name) }

/-- Sets the value of a key. -/
def insert (name : String) (v : Located Value) (t : Table) : Table :=
  { t with entries := place name v t.entries }

/-- Whether a table came about without a header or braces of its own. -/
def isOpen (origin : Origin) : Bool := origin = .implied || origin = .dotted

/-! ### Paths -/

/-- The name of a kind of value. -/
def kind : Value → String
  | .scalar s => s.kind
  | .list _ _ => "array"
  | .table _ _ => "inline table"

/-- What a path belongs to: a header, a key with points, or such a key in braces. -/
inductive Way where
  | header
  | dotted
  | braces
deriving DecidableEq, Repr

/-- How the tables come about that are missing on the way. -/
def Way.origin : Way → Origin
  | .header => .implied
  | .dotted | .braces => .dotted

/-- Why a path must not lead through a table.  One in braces is complete.  A key with points leads
only through tables without a header or braces of their own. -/
def Way.obstacle? (way : Way) (origin : Origin) : Option Problem :=
  if way ≠ .braces && origin = .inline then some (.extended "inline table")
  else if way ≠ .header && !isOpen origin then some .duplicateKey
  else none

/-- Changes the table at the end of a path, which may lead through the last table of a list, and
passes on what the change finds there.  Tables that are missing on the way are made. -/
def change {α : Type} (way : Way) (f : Table → Except Failure (Table × α)) :
    List (Located String) → Table → Except Failure (Table × α)
  | [], t => f t
  | key :: path, t =>
    match lookup key.value t.entries with
    | none => do
      let (inner, found) ← change way f path ⟨way.origin, []⟩
      return (t.insert key.value ⟨inner.value, key.span⟩, found)
    | some ⟨.table origin entries, span⟩ =>
      match way.obstacle? origin with
      | some problem => refuse problem key.span
      | none => do
        let (inner, found) ← change way f path ⟨origin, entries⟩
        return (t.insert key.value ⟨inner.value, span⟩, found)
    | some ⟨.list items true, span⟩ =>
      match items.reverse with
      | ⟨.table origin entries, last⟩ :: others => do
        let (inner, found) ← change way f path ⟨origin, entries⟩
        let items := others.reverse ++ [⟨inner.value, last⟩]
        return (t.insert key.value ⟨.list items true, span⟩, found)
      | _ => refuse (.extended "array") key.span
    | some ⟨v, _⟩ => refuse (.extended (kind v)) key.span

/-- Gives the key at the end of a path its value.  Keys with points and keys without do not go into
the same table. -/
def define (way : Way) (path : List (Located String)) (key : Located String) (v : Located Value)
    (t : Table) : Except Failure Table := do
  let (t, _) ← change way (fun inner =>
    if (inner.origin == .dotted) == path.isEmpty then refuse .duplicateKey key.span
    else if (lookup key.value inner.entries).isSome then refuse .duplicateKey key.span
    else .ok (inner.insert key.value v, ())) path t
  return t

end Table

/-! ### Values -/

/-- The name of a key. -/
def locate (a : Atom) : Except Failure (Located String) := return ⟨← a.name, a.span⟩

/-- How many keys may stand in front of the last one of a path. -/
def maxPath : Nat := 79

/-- The path to a key, and the key. -/
def locatePath (path : List Atom) : Except Failure (List (Located String) × Located String) := do
  let keys ← path.mapM locate
  if maxPath < keys.dropLast.length then .error ⟨.longPath, none⟩
  else return (keys.dropLast, keys.getLastD ⟨"", .point 0⟩)

mutual

/-- The value of what is written. -/
def evaluate : Written → Except Failure (Located Value)
  | .atom a => return ⟨.scalar (← a.scalar), a.span⟩
  | .list items span => return ⟨.list (← evaluateItems items) false, span⟩
  | .inline entries span => do
    let t ← evaluateEntries entries ⟨.header, []⟩
    return ⟨.table .inline t.entries, span⟩

/-- The values of the items of a list. -/
def evaluateItems : List Written → Except Failure (List (Located Value))
  | [] => .ok []
  | w :: rest => do
    let v ← evaluate w
    let vs ← evaluateItems rest
    return v :: vs

/-- The table in braces, behind the entries read so far. -/
def evaluateEntries : List (List Atom × Written) → Table → Except Failure Table
  | [], t => .ok t
  | (path, w) :: rest, t => do
    let (path, key) ← locatePath path
    let v ← evaluate w
    evaluateEntries rest (← t.define .braces path key v)

end

/-! ### Statements -/

/-- A header that was read. -/
structure Header where
  ofList : Bool
  path : List (Located String)
  key : Located String
  span : Span

/-- The outermost table, and the table that is being filled. -/
structure Building where
  root : Table
  header : Option Header
  current : Table

namespace Building

/-- Puts the table that was filled in its place. -/
def finish (b : Building) : Except Failure Table :=
  match b.header with
  | none => .ok b.current
  | some h => do
    let own : Located Value := ⟨b.current.value, h.span⟩
    let (root, _) ← Table.change .header (fun parent =>
      match h.ofList, Table.lookup h.key.value parent.entries with
      | false, none => .ok (parent.insert h.key.value own, ())
      | true, none => .ok (parent.insert h.key.value ⟨.list [own] true, h.span⟩, ())
      | true, some ⟨.list items true, span⟩ =>
        .ok (parent.insert h.key.value ⟨.list (items ++ [own]) true, span⟩, ())
      | _, some _ => refuse .duplicateKey h.key.span) h.path b.root
    return root

/-- Takes the table of a header from its place.  It must be new, or have come about by the headers
of its parts.  A table of a list is new, and its place is looked at when it is filled. -/
def start (h : Header) (root : Table) : Except Failure Building := do
  if h.ofList then return ⟨root, some h, ⟨.header, []⟩⟩
  else
    let (root, current) ← Table.change .header (fun parent =>
      match Table.lookup h.key.value parent.entries with
      | some ⟨.table .implied entries, _⟩ =>
        .ok (parent.erase h.key.value, (⟨.header, entries⟩ : Table))
      | none => .ok (parent, ⟨.header, []⟩)
      | some _ => refuse .duplicateKey h.key.span) h.path root
    return ⟨root, some h, current⟩

/-- Carries out a statement. -/
def step (b : Building) : Statement → Except Failure Building
  | .entry path written => do
    let (path, key) ← locatePath path
    let v ← evaluate written
    return { b with current := ← b.current.define .dotted path key v }
  | .header ofList path span => do
    let root ← b.finish
    let (path, key) ← locatePath path
    start ⟨ofList, path, key, span⟩ root

end Building

/-! ### Texts -/

/-- The table that a text denotes. -/
def read (text : String) : Except Failure Table := do
  let statements ← Statement.list text
  let b ← statements.foldlM Building.step ⟨⟨.header, []⟩, none, ⟨.header, []⟩⟩
  b.finish

end CommandMenu.Toml
