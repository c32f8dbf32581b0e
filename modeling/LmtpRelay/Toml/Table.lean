/-
Tables while they are put together. A table may be named before it is defined: it is then implied by a longer name, and
a header may still define it once. A table that is implied by a dotted key may only be extended by dotted keys. No
table is defined twice and no key is given twice.
-/
import LmtpRelay.Toml.Value

namespace LmtpRelay.Toml

/-! ## Nodes -/

/-- how a table came to be -/
inductive Origin where
  /-- by a header, or as the text as a whole -/
  | defined
  /-- by a longer name in a header -/
  | implied
  /-- by a dotted key -/
  | dotted
  deriving DecidableEq, Repr

/-- what stands under a key while a table is put together -/
inductive Node where
  | value (v : Value)
  | table (origin : Origin) (entries : List (String × Node))
  /-- tables that share a name, each with its entries, last first -/
  | tables (items : List (List (String × Node)))
  deriving Repr

abbrev Entries := List (String × Node)

/-- a table with how it came to be -/
structure Table where
  origin : Origin
  entries : Entries

namespace Table

def empty (origin : Origin) : Table := ⟨origin, []⟩

def get? (t : Table) (key : String) : Option Node := t.entries.lookup key

/-- put a node under a key: in place of the one there, or at the end -/
def set (t : Table) (key : String) (node : Node) : Table :=
  if (t.get? key).isSome then { t with entries := t.entries.map fun e => if e.1 = key then (key, node) else e }
  else { t with entries := t.entries ++ [(key, node)] }

/-- change the table that a key leads to: a new one where there is none; the last one of several. A dotted key does not
lead into a table that a header has defined, and nothing leads into a value. -/
def into (dotted : Bool) (key : String) (change : Table → Option Table) (t : Table) : Option Table :=
  match t.get? key with
  | none => do
    let inner ← change (empty (if dotted then .dotted else .implied))
    return t.set key (.table inner.origin inner.entries)
  | some (.value _) => none
  | some (.table origin entries) =>
    if dotted && origin = .defined then none
    else do
      let inner ← change ⟨origin, entries⟩
      return t.set key (.table inner.origin inner.entries)
  | some (.tables items) =>
    match items with
    | [] => none
    | last :: before => do
      let inner ← change ⟨.defined, last⟩
      return t.set key (.tables (inner.entries :: before))

/-- change the table that a path leads to -/
def along (dotted : Bool) (path : List String) (change : Table → Option Table) (t : Table) : Option Table :=
  match path with
  | [] => change t
  | key :: rest => t.into dotted key (along dotted rest change)

/-- put a value under a key that is new -/
def insert (dotted : Bool) (key : String) (v : Value) (t : Table) : Option Table :=
  if (t.origin = .dotted) ≠ dotted then none
  else if (t.get? key).isSome then none
  else some (t.set key (.value v))

/-- put a value under a key, which may be dotted -/
def insertAt (path : List String) (key : String) (v : Value) (t : Table) : Option Table :=
  t.along true path (insert (!path.isEmpty) key v)

/-- define a table by a header: one that is only implied so far moves to the end -/
def define (key : String) (t : Table) : Option Table :=
  match t.get? key with
  | none => some (t.set key (.table .defined []))
  | some (.table .implied entries) =>
    let others := t.entries.filter fun e => e.1 ≠ key
    some { t with entries := others ++ [(key, .table .defined entries)] }
  | some _ => none

/-- begin one more of several tables that share a name -/
def append (key : String) (t : Table) : Option Table :=
  match t.get? key with
  | none => some (t.set key (.tables [[]]))
  | some (.tables items) => some (t.set key (.tables ([] :: items)))
  | some _ => none

end Table

/-! ## Finished tables -/

mutual

def Node.toValue : Node → Value
  | .value v => v
  | .table _ entries => .table (valuesOf entries)
  | .tables items => .array (tablesOf items).reverse

def valuesOf : List (String × Node) → List (String × Value)
  | [] => []
  | (key, node) :: rest => (key, node.toValue) :: valuesOf rest

def tablesOf : List (List (String × Node)) → List Value
  | [] => []
  | entries :: before => .table (valuesOf entries) :: tablesOf before

end

end LmtpRelay.Toml
