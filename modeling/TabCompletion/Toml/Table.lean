import TabCompletion.Toml.Value

/-!
# Building tables

Headers and keys add to a table, and no part of it may be given twice. A header names a table that
has not been defined; a dotted key adds to tables that dotted keys made.
-/

namespace TabCompletion.Toml

/-- Put the value of a key in the place of the one it has, or behind the others. -/
def Entries.set (key : String) (v : Value) : Entries → Entries
  | [] => [(key, v)]
  | (k, w) :: rest => if k = key then (k, v) :: rest else (k, w) :: Entries.set key v rest

/-- Change the last item of a list. -/
def modifyLast? (f : Value → Option Value) : List Value → Option (List Value)
  | [] => none
  | [v] => (f v).map ([·])
  | v :: w :: vs => (modifyLast? f (w :: vs)).map (v :: ·)

/-- Change the entries of a table. -/
def modifyTable? (allowed : TableKind → Bool)
    (f : TableKind → Entries → Option (TableKind × Entries)) : Value → Option Value
  | .table kind es =>
    if allowed kind then (f kind es).map fun (kind, es) => .table kind es else none
  | _ => none

/-- Change the entries of the table at the end of a path, making the tables on the way that are
    missing. The path leads through the last item of a list of tables. With `dotted` it is the path
    of a dotted key, which adds to no table that has a header; else that of a header. -/
def descend? (dotted : Bool) (f : TableKind → Entries → Option (TableKind × Entries)) :
    List String → TableKind → Entries → Option (TableKind × Entries)
  | [], kind, es => f kind es
  | key :: path, kind, es => do
    let allowed (k : TableKind) : Bool := k != .braced && !(dotted && k = .header)
    let inner := modifyTable? allowed (descend? dotted f path)
    let v ← match es.lookup key with
      | none => inner (.table (if dotted then .dotted else .passed) [])
      | some (.list true items) =>
        (modifyLast? (modifyTable? (fun _ => true) (descend? dotted f path)) items).map (.list true)
      | some v => inner v
    some (kind, Entries.set key v es)

/-- The numbers of keys that a dotted key may have in front of its last one are below this bound. -/
def maxPath : Nat := 80

/-- The keys before the last one, and the last one. -/
def splitLast? : List String → Option (List String × String)
  | [] => none
  | [k] => some ([], k)
  | k :: l :: ks => (splitLast? (l :: ks)).map fun (path, key) => (k :: path, key)

/-- Add the value of a key, dotted or not. -/
def insert? (keys : List String) (v : Value) (kind : TableKind) (es : Entries) :
    Option (TableKind × Entries) := do
  let (path, key) ← splitLast? keys
  if maxPath ≤ path.length then none
  else descend? true (fun kind es =>
    if (kind = .dotted) = (path = []) then none
    else match es.lookup key with
      | some _ => none
      | none => some (kind, es ++ [(key, v)])) path kind es

/-- Add the table that a header names. -/
def openTable? (keys : List String) (es : Entries) : Option Entries := do
  let (path, key) ← splitLast? keys
  if maxPath ≤ path.length then none
  else (descend? false (fun kind es =>
    match es.lookup key with
    | none => some (kind, es ++ [(key, .table .header [])])
    | some (.table .passed inner) => some (kind, Entries.set key (.table .header inner) es)
    | some _ => none) path .header es).map (·.2)

/-- Add an item to the list of tables that a header names. -/
def openItem? (keys : List String) (es : Entries) : Option Entries := do
  let (path, key) ← splitLast? keys
  if maxPath ≤ path.length then none
  else (descend? false (fun kind es =>
    match es.lookup key with
    | none => some (kind, es ++ [(key, .list true [.table .header []])])
    | some (.list true items) =>
      some (kind, Entries.set key (.list true (items ++ [.table .header []])) es)
    | some _ => none) path .header es).map (·.2)

/-- Add the value of a key to the table that the last header named. -/
def insertBelow? (table keys : List String) (v : Value) (es : Entries) : Option Entries :=
  (descend? false (insert? keys v) table .header es).map (·.2)

end TabCompletion.Toml
