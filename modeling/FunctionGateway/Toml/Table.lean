import FunctionGateway.Number.Binary64

/-!
# TOML values and tables

A table keeps its entries in the order in which their keys first appeared. How a
table came about decides what may still be done to it: a table with a header of
its own is closed to a second header and to dotted keys from outside, a table
implied by a longer header may still get a header, and a table made by a dotted
key may be extended by dotted keys only.

Places in a document are given by the number of characters that are left behind
them, so that a reader, which always holds the text left to read, knows its place.
-/

namespace FunctionGateway.Toml

open FunctionGateway.Number

/-- A stretch of a document, by the characters left at its start and at its end. -/
structure Span where
  start : Nat
  stop : Nat
deriving DecidableEq

structure Key where
  name : String
  span : Span
deriving DecidableEq

/-- How a table came about. -/
inductive Origin where
  | header
  | implied
  | dotted
deriving DecidableEq

mutual
/-- A value as it stands behind a key. -/
inductive Value where
  | text (text : String)
  | integer (value : Int)
  | float (value : Binary64)
  | boolean (value : Bool)
  | dateTime
  | array (items : List Value)
  | inlineTable (table : Table)

/-- What a key of a table stands for: a value, a table, or an array of tables. -/
inductive Item where
  | value (span : Span) (value : Value)
  | table (table : Table)
  | tables (elements : List Table)

inductive Table where
  | mk (origin : Origin) (span : Option Span) (entries : List (Key × Item))
end

namespace Table

def origin : Table → Origin
  | mk origin _ _ => origin

def span : Table → Option Span
  | mk _ span _ => span

def entries : Table → List (Key × Item)
  | mk _ _ entries => entries

def fresh (origin : Origin) : Table := mk origin none []

def lookup (entries : List (Key × Item)) (name : String) : Option Item :=
  (entries.find? (·.1.name == name)).map (·.2)

/-- Change what a key stands for, in place. -/
def replace (entries : List (Key × Item)) (name : String) (item : Item) : List (Key × Item) :=
  entries.map fun (key, old) => if key.name == name then (key, item) else (key, old)

/-- Change the last table of an array of tables. -/
def changeLast (change : Table → Option Table) : List Table → Option (List Table)
  | [] => none
  | [last] => (change last).map ([·])
  | first :: rest => (changeLast change rest).map (first :: ·)

/-- Go down a path and change the table at its end. Missing tables are made on the way. A
dotted key may not go through a table that has a header; an array of tables is entered at
its last element; a plain value is in the way. -/
def changeAt (dotted : Bool) : List Key → (Table → Option Table) → Table → Option Table
  | [], change, table => change table
  | key :: path, change, .mk origin span entries =>
      match lookup entries key.name with
      | none =>
          let made := fresh (if dotted then .dotted else .implied)
          (changeAt dotted path change made).map fun inner =>
            .mk origin span (entries ++ [(key, .table inner)])
      | some (.value _ _) => none
      | some (.tables elements) =>
          (changeLast (changeAt dotted path change) elements).map fun changed =>
            .mk origin span (replace entries key.name (.tables changed))
      | some (.table inner) =>
          if dotted && inner.origin = .header then
            none
          else
            (changeAt dotted path change inner).map fun changed =>
              .mk origin span (replace entries key.name (.table changed))

/-- Add an entry under a dotted key. The table it ends in must have been made by dotted
keys if there is a path, and must not have the key yet. -/
def addEntry (path : List Key) (key : Key) (item : Item) : Table → Option Table :=
  changeAt true path fun table =>
    if (table.origin == .dotted) == path.isEmpty || (lookup table.entries key.name).isSome then
      none
    else
      some (.mk table.origin table.span (table.entries ++ [(key, item)]))

/-- Open the table of a header. It must be new, or implied so far; it then counts as the
last entry of the table around it. -/
def openHeader (path : List Key) (key : Key) (span : Span) : Table → Option Table :=
  changeAt false path fun table =>
    let opened (entries : List (Key × Item)) : Item := .table (.mk .header (some span) entries)
    match lookup table.entries key.name with
    | none => some (.mk table.origin table.span (table.entries ++ [(key, opened [])]))
    | some (.table inner) =>
        if inner.origin = .implied then
          let others := table.entries.filter (·.1.name != key.name)
          some (.mk table.origin table.span (others ++ [(key, opened inner.entries)]))
        else
          none
    | some _ => none

/-- Open a further element of an array of tables. -/
def openElement (path : List Key) (key : Key) (span : Span) : Table → Option Table :=
  changeAt false path fun table =>
    let opened : Table := .mk .header (some span) []
    match lookup table.entries key.name with
    | none => some (.mk table.origin table.span (table.entries ++ [(key, .tables [opened])]))
    | some (.tables elements) =>
        some (.mk table.origin table.span
          (replace table.entries key.name (.tables (elements ++ [opened]))))
    | some _ => none

/-- Let the place of a table reach up to `stop`. -/
def extendTo (stop : Nat) : Table → Table
  | mk origin span entries => mk origin (span.map fun known => { known with stop }) entries

end Table

/-- The place of an item; tables made by dotted keys or longer headers have none. -/
def Item.span? : Item → Option Span
  | .value span _ => some span
  | .table inner => inner.span
  | .tables elements =>
      match elements.head?.bind Table.span, elements.getLast?.bind Table.span with
      | some first, some last => some ⟨first.start, last.stop⟩
      | _, _ => none

end FunctionGateway.Toml
