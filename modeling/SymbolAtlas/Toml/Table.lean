import SymbolAtlas.Toml.Value

/-!
# Tables under construction

While a document is read, its tables remember how they came about, since that decides what may be
added to them: a table is stated by one header at most, and a table of dotted keys is closed to
headers.
-/

namespace SymbolAtlas.Toml

/-- How a table came about: by a header of its own or in braces, as the parent of another table's
header, or as a step of a dotted key. -/
inductive Origin
  | stated
  | implied
  | dotted
  deriving DecidableEq

/-- What stands under a key. The last table of a list is the one that is being filled. -/
inductive Node
  | value (v : Value)
  | table (origin : Origin) (entries : List (String × Node))
  | tables (items : List (List (String × Node)))

/-- A table under construction. -/
structure Draft where
  origin : Origin := .stated
  entries : List (String × Node) := []

namespace Draft

def find? (t : Draft) (key : String) : Option Node :=
  t.entries.lookup key

/-- The table with `node` under `key`, in place of an older one. -/
def put (t : Draft) (key : String) (node : Node) : Draft :=
  { t with entries :=
      if (t.find? key).isSome then t.entries.map fun e => if e.1 = key then (key, node) else e
      else t.entries ++ [(key, node)] }

/-- Changes the table at the end of a path by `f`. Missing tables on the way are made: as steps of a
dotted key, or as parents of a header. A dotted key goes through no table that was stated. -/
def change (dotted : Bool) (f : Draft → Option Draft) : List String → Draft → Option Draft
  | [], t => f t
  | key :: rest, t =>
    match t.find? key with
    | none => do
      let child ← change dotted f rest ⟨if dotted then .dotted else .implied, []⟩
      return t.put key (.table child.origin child.entries)
    | some (.value _) => none
    | some (.table origin entries) =>
      if dotted && origin == .stated then none
      else do
        let child ← change dotted f rest ⟨origin, entries⟩
        return t.put key (.table child.origin child.entries)
    | some (.tables items) =>
      match items.getLast? with
      | none => none
      | some entries => do
        let child ← change dotted f rest ⟨.stated, entries⟩
        return t.put key (.tables (items.dropLast ++ [child.entries]))

/-- States the table `key` by a header. Only a table that other headers imply may be there. -/
def stateTable (key : String) (t : Draft) : Option Draft :=
  match t.find? key with
  | none => some (t.put key (.table .stated []))
  | some (.table .implied entries) => some (t.put key (.table .stated entries))
  | some _ => none

/-- Adds a table to the list of tables `key` by a header. -/
def addTable (key : String) (t : Draft) : Option Draft :=
  match t.find? key with
  | none => some (t.put key (.tables [[]]))
  | some (.tables items) => some (t.put key (.tables (items ++ [[]])))
  | some _ => none

/-- Sets a new key at the end of a dotted key with the steps `path`. The table there has to be one of
dotted keys exactly when there are steps. -/
def setValue (path : List String) (key : String) (v : Value) (t : Draft) : Option Draft :=
  change true (fun leaf =>
    if (leaf.origin == .dotted) == path.isEmpty || (leaf.find? key).isSome then none
    else some (leaf.put key (.value v))) path t

end Draft

mutual

def Node.toValue : Node → Value
  | .value v => v
  | .table _ entries => .table (Node.entryValues entries)
  | .tables items => .array (Node.tableValues items)

def Node.entryValues : List (String × Node) → List (String × Value)
  | [] => []
  | (key, node) :: rest => (key, node.toValue) :: Node.entryValues rest

def Node.tableValues : List (List (String × Node)) → List Value
  | [] => []
  | entries :: rest => .table (Node.entryValues entries) :: Node.tableValues rest

end

/-- What the table says. -/
def Draft.values (t : Draft) : List (String × Value) :=
  Node.entryValues t.entries

end SymbolAtlas.Toml
