import FunctionGateway.Toml.Numerals

/-!
# TOML documents

A document is a list of lines: blank lines and comments, entries `key = value`,
and headers that open a table or a further element of an array of tables. Arrays
may spread over several lines and end in a comma; inline tables may do neither.
Containers nest less than eighty deep.
-/

namespace FunctionGateway.Toml

/-- The text behind a comment, which leaves the line break. -/
def skipComment (letters : List Char) : List Char :=
  match letters with
  | '#' :: rest => rest.dropWhile isPlainChar
  | _ => letters

/-- The text behind the end of a line: blanks, a comment, and a line break or the end. -/
def lineEnd? (letters : List Char) : Option (List Char) :=
  match skipComment (skipBlanks letters) with
  | [] => some []
  | rest => lineBreak? rest

/-- Skip blanks, comments and line breaks inside an array; `inComment` says whether a
comment goes on. -/
def skipLines : Bool → List Char → List Char
  | _, '\r' :: '\n' :: rest => skipLines false rest
  | _, '\n' :: rest => skipLines false rest
  | inComment, letter :: rest =>
      if inComment then
        if isPlainChar letter then skipLines true rest else letter :: rest
      else if letter = '#' then skipLines true rest
      else if isBlankChar letter then skipLines false rest
      else letter :: rest
  | _, [] => []

abbrev ValueReader := List Char → Option (Value × List Char)

/-- Read the items of an array from behind its bracket or behind a comma; `fuel` bounds
their number. -/
def readItems (readValue : ValueReader) : Nat → List Char → Option (List Value × List Char)
  | 0, _ => none
  | fuel + 1, letters =>
      match skipLines false letters with
      | ']' :: rest => some ([], rest)
      | start =>
          match readValue start with
          | none => none
          | some (item, left) =>
              match skipLines false left with
              | ']' :: rest => some ([item], rest)
              | ',' :: rest =>
                  (readItems readValue fuel rest).map fun (items, behind) => (item :: items, behind)
              | _ => none

/-- Read an entry: a dotted key and a value, with the place of the value. -/
def readEntry (readValue : ValueReader) (letters : List Char) :
    Option (List Key × Key × Item × List Char) := do
  let (path, key, left) ← readKey letters
  let start := skipBlanks (← expect? '=' left)
  let (value, rest) ← readValue start
  return (path, key, .value ⟨start.length, rest.length⟩ value, rest)

/-- Read the entries of an inline table into `table`, from in front of the first or from
behind a comma; `fuel` bounds their number. -/
def readInlineEntries (readValue : ValueReader) :
    Nat → Table → List Char → Option (Table × List Char)
  | 0, _, _ => none
  | fuel + 1, table, letters => do
      let (path, key, item, left) ← readEntry readValue (skipBlanks letters)
      let extended ← table.addEntry path key item
      match skipBlanks left with
      | '}' :: rest => some (extended, rest)
      | ',' :: rest => readInlineEntries readValue fuel extended rest
      | _ => none

/-- Read an inline table from behind its brace, with at most `size` entries. -/
def readInlineTable (readValue : ValueReader) (size : Nat) (letters : List Char) :
    Option (Value × List Char) :=
  match skipBlanks letters with
  | '}' :: rest => some (.inlineTable (.fresh .header), rest)
  | start =>
      (readInlineEntries readValue size (.fresh .header) start).map
        fun (table, rest) => (.inlineTable table, rest)

/-- Read a value in which at most `depth` containers nest and none has more than `size`
items. -/
def readValue (size : Nat) : Nat → ValueReader
  | 0, '[' :: _ => none
  | 0, '\x7b' :: _ => none
  | depth + 1, '[' :: rest =>
      (readItems (readValue size depth) (size + 1) rest).map
        fun (items, behind) => (.array items, behind)
  | depth + 1, '\x7b' :: rest => readInlineTable (readValue size depth) size rest
  | _, letters =>
      match letters with
      | '"' :: _ => (readString letters).map fun (text, rest) => (.text (String.ofList text), rest)
      | '\'' :: _ => (readString letters).map fun (text, rest) => (.text (String.ofList text), rest)
      | _ => readWord letters

def nestingLimit : Nat := 79

/-- A document read so far: its root table, and the path to the table that entries go to. -/
structure Draft where
  root : Table
  path : List Key

def Draft.start : Draft := ⟨.fresh .header, []⟩

/-- Add an entry to the open table, whose place then reaches up to the end of the value. -/
def Draft.addEntry (draft : Draft) (path : List Key) (key : Key) (item : Item) : Option Draft :=
  let change (table : Table) : Option Table :=
    (table.addEntry path key item).map fun extended =>
      match item.span? with
      | some span => extended.extendTo span.stop
      | none => extended
  (draft.root.changeAt false draft.path change).map fun root => { draft with root }

def readHeader (draft : Draft) (letters : List Char) : Option (Draft × List Char) :=
  match letters with
  | '[' :: '[' :: rest => do
      let (path, key, left) ← readKey rest
      let behind ← expect? ']' (← expect? ']' left)
      let root ← draft.root.openElement path key ⟨letters.length, behind.length⟩
      return (⟨root, path ++ [key]⟩, ← lineEnd? behind)
  | '[' :: rest => do
      let (path, key, left) ← readKey rest
      let behind ← expect? ']' left
      let root ← draft.root.openHeader path key ⟨letters.length, behind.length⟩
      return (⟨root, path ++ [key]⟩, ← lineEnd? behind)
  | _ => none

/-- Read lines up to the end with a reader for values; `fuel` bounds their number. -/
def readLines (readOne : ValueReader) : Nat → Draft → List Char → Option Draft
  | 0, _, _ => none
  | fuel + 1, draft, letters =>
      match skipBlanks letters with
      | [] => some draft
      | '#' :: rest => (lineEnd? ('#' :: rest)).bind (readLines readOne fuel draft)
      | '[' :: rest =>
          (readHeader draft ('[' :: rest)).bind fun (opened, behind) =>
            readLines readOne fuel opened behind
      | first :: rest =>
          match lineBreak? (first :: rest) with
          | some behind => readLines readOne fuel draft behind
          | none => do
              let (path, key, item, left) ← readEntry readOne (first :: rest)
              readLines readOne fuel (← draft.addEntry path key item) (← lineEnd? left)

/-- Read a document; a byte order mark in front of it does not count. -/
def Table.ofText? (text : String) : Option Table :=
  let letters :=
    match text.toList with
    | '\ufeff' :: rest => rest
    | letters => letters
  let size := letters.length
  (readLines (readValue size nestingLimit) (size + 1) Draft.start letters).map Draft.root

end FunctionGateway.Toml
