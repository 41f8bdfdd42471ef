import TypeInference.Document.Value

/-!
# Tables under construction

A table is opened by a header, by a dotted key, or only because a header names
something inside it.  A table that a header opened is complete when the next
header comes, and no table is opened twice; only a table that came about through
the header of something inside it can still be opened by a header of its own.
-/

namespace TypeInference

namespace Document

/-- How a table came about. -/
inductive Origin where
  /-- By its own header, or as the document itself. -/
  | header
  /-- By a header of something inside it. -/
  | inside
  /-- By a dotted key. -/
  | dotted
deriving DecidableEq

/-- What stands behind a key of a table under construction. -/
inductive Node where
  | value (value : Value)
  | table (origin : Origin) (entries : List (String × Node))
  /-- An array of tables, each opened by a header. -/
  | tables (elements : List (List (String × Node)))

abbrev Entries := List (String × Node)

/-! ## Changing tables -/

/-- Change what stands behind a key; a new key comes last. -/
def alter (key : String) (change : Option Node → Option Node) : Entries → Option Entries
  | [] => (change none).map fun node => [(key, node)]
  | entry :: rest =>
    if entry.1 == key then (change (some entry.2)).map fun node => (key, node) :: rest
    else (alter key change rest).map (entry :: ·)

/-- Change the last element of a list, which must not be empty. -/
def alterLast {α : Type} (change : α → Option α) : List α → Option (List α)
  | [] => none
  | [element] => (change element).map fun changed => [changed]
  | element :: rest => (alterLast change rest).map (element :: ·)

/--
Change the table at the end of a path, given how it came about.  Tables that are
missing on the way come about as said; of an array of tables the last one counts.
A dotted key must not lead through a table that a header opened.
-/
def alterAt (origin : Origin) (change : Origin → Entries → Option Entries) :
    List String → Origin → Entries → Option Entries
  | [], reached, entries => change reached entries
  | key :: path, _, entries =>
    alter key
      (fun present =>
        match present with
        | none => (alterAt origin change path origin []).map (.table origin)
        | some (.value _) => none
        | some (.tables elements) =>
          (alterLast (alterAt origin change path .header) elements).map .tables
        | some (.table found inner) =>
          if origin = .dotted ∧ found = .header then none
          else (alterAt origin change path found inner).map (.table found))
      entries

/-- Give a key a value, once only. -/
def define (key : String) (value : Value) (entries : Entries) : Option Entries :=
  alter key
    (fun present =>
      match present with
      | none => some (.value value)
      | some _ => none)
    entries

def definePath (path : List String) (key : String) (value : Value) (entries : Entries) :
    Option Entries :=
  alterAt .dotted
    (fun reached inner =>
      if path.isEmpty || reached = .dotted then define key value inner else none)
    path .header entries

/-- Open the table behind a key, which then is the last of the keys. -/
def openKey (key : String) (entries : Entries) : Option Entries :=
  match entries.lookup key with
  | none => some (entries ++ [(key, .table .header [])])
  | some (.table .inside found) =>
    some (entries.filter (fun entry => entry.1 != key) ++ [(key, .table .header found)])
  | some _ => none

def openTable (path : List String) (key : String) (entries : Entries) : Option Entries :=
  alterAt .inside (fun _ inner => openKey key inner) path .header entries

def openElement (path : List String) (key : String) (entries : Entries) : Option Entries :=
  alterAt .inside
    (fun _ inner =>
      alter key
        (fun present =>
          match present with
          | none => some (.tables [[]])
          | some (.tables elements) => some (.tables (elements ++ [[]]))
          | some _ => none)
        inner)
    path .header entries

/-! ## Finished tables -/

mutual

def Node.finish : Node → Value
  | .value value => value
  | .table _ entries => .table (finishEntries entries)
  | .tables elements => .array (finishElements elements)

def finishEntries : Entries → List (String × Value)
  | [] => []
  | (key, node) :: rest => (key, node.finish) :: finishEntries rest

def finishElements : List Entries → List Value
  | [] => []
  | entries :: rest => .table (finishEntries entries) :: finishElements rest

end

end Document

end TypeInference
