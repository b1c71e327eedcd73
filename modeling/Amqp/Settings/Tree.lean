import Amqp.Settings.Path

/-!
# Trees of settings

The values that a settings file holds: scalars, rows and groups of named values.  `Tree.set` lays a
value over a tree.  A group is merged into what is there, entry by entry, and anything else takes
the place of the old value.  Names that are laid over a tree are in lower case from then on; those
in the items of a row stay as they are.
-/

namespace Amqp.Settings

/-- A value in a settings file. -/
inductive Tree where
  | null
  | bool (v : Bool)
  | int (v : Int)
  | float (v : Float)
  | text (v : String)
  | row (items : List Tree)
  | group (entries : List (String × Tree))

namespace Tree

/-- Binds a name, in place of what it was bound to. -/
def bind (name : String) (v : Tree) : List (String × Tree) → List (String × Tree)
  | [] => [(name, v)]
  | e :: rest => if e.1 = name then (name, v) :: rest else e :: bind name v rest

/-- The entries of a group; any other tree has none. -/
def entries : Tree → List (String × Tree)
  | group entries => entries
  | _ => []

/-- The items of a row; any other tree has none. -/
def items : Tree → List Tree
  | row items => items
  | _ => []

mutual

/-- The tree that results where `v` is laid over `old`. -/
def merge (old : Option Tree) (v : Tree) : Tree :=
  match v with
  | group entries => mergeAll (old.getD (group [])) entries
  | v => v

/-- Lays named values over the entries of a tree. -/
def mergeAll (root : Tree) : List (String × Tree) → Tree
  | [] => root
  | (name, v) :: rest =>
    let name := Step.lowerCase name
    mergeAll (group (bind name (merge (root.entries.lookup name) v) root.entries)) rest

end

/-- Changes the item at a place, with nulls for the items that are missing up to there.  Places
below zero count from the end, and the missing items are then in front. -/
def change (f : Tree → Tree) (i : Int) (items : List Tree) : List Tree :=
  if 0 ≤ i then
    let i := i.toNat
    (items ++ List.replicate (i + 1 - items.length) null).modify i f
  else
    let back := i.natAbs
    (List.replicate (back - items.length) null ++ items).modify (items.length - back) f

/-- Lays a value over the place that a path leads to. -/
def set (v : Tree) : Path → Tree → Tree
  | [], _ => v
  | [.name name], root =>
    let name := Step.lowerCase name
    group (bind name (merge (root.entries.lookup name) v) root.entries)
  | .name name :: path, root =>
    let name := Step.lowerCase name
    group (bind name (set v path ((root.entries.lookup name).getD null)) root.entries)
  | .place i :: path, root => row (change (set v path) i root.items)

end Tree

end Amqp.Settings
