import FunctionGateway.Text.Utf8

/-!
# Path patterns

A pattern is text in which `{x}` stands for one or more bytes of a single segment
and `{*x}`, at the very end, for any non-empty remainder. A doubled brace is that
brace, literally; everything else is literal. Patterns are read byte by byte, as
the paths are that they are compared with.

Reading a pattern has two stages. `Piece.read?` recognises the wildcards and
refuses malformed names. `Route.ofPieces` then groups the pieces the way a path
is walked: a parameter swallows its segment, so the literal text behind it up to
and including the next `/` belongs to the parameter. A pattern whose segment
holds two wildcards, or whose `{*x}` is not at the end, still has a route: the
part in front of the fault can be laid down before the fault is met.
-/

namespace FunctionGateway.Routing

open FunctionGateway.Text

abbrev braceOpen : UInt8 := 0x7b

abbrev braceClose : UInt8 := 0x7d

abbrev star : UInt8 := 0x2a

abbrev slash : UInt8 := 0x2f

/-- A byte of a pattern; `quoted` marks a brace that was written doubled. -/
structure Glyph where
  byte : UInt8
  quoted : Bool
deriving DecidableEq

/-- Read doubled braces as quoted ones, from left to right. -/
def Glyph.read : Bytes → List Glyph
  | [] => []
  | [last] => [⟨last, false⟩]
  | first :: second :: rest =>
      if first = second ∧ (first = braceOpen ∨ first = braceClose) then
        ⟨first, true⟩ :: Glyph.read rest
      else
        ⟨first, false⟩ :: Glyph.read (second :: rest)

/-- Text without braces reads as itself. -/
theorem Glyph.read_of_no_brace (text : Bytes)
    (plain : ∀ byte ∈ text, byte ≠ braceOpen ∧ byte ≠ braceClose) :
    Glyph.read text = text.map (⟨·, false⟩) := by
  induction text with
  | nil => rfl
  | cons first rest ih =>
      have later := ih fun byte member => plain byte (List.mem_cons_of_mem first member)
      cases rest with
      | nil => rfl
      | cons second behind =>
          have single := plain first List.mem_cons_self
          simp [Glyph.read, single.1, single.2, later]

/-- A literal byte, a parameter, or a parameter for the whole remainder. -/
inductive Piece where
  | literal (byte : UInt8)
  | param (name : Bytes)
  | remainder (name : Bytes)
deriving DecidableEq

/-- Why a pattern is no pattern at all. -/
inductive PatternFault where
  /-- A brace without its partner, an empty name, or a name with `*` or `/` in it. -/
  | badName
  /-- More ordinary parameters than a pattern may hold. -/
  | tooManyParams
deriving DecidableEq

/-- How far the reader is into a wildcard. Outside of one, `slip` is the length of a
parameter's name beyond its first byte if the reader is directly behind that
parameter, and zero elsewhere. -/
inductive Piece.Reading where
  | outside (slip : Nat)
  | opened
  | naming (reversed : Bytes)

/-- Set the mark at a place, with no marks in front of it where there are none yet. -/
def Piece.markAt : Nat → List Bool → List Bool
  | 0, [] => [true]
  | 0, _ :: marks => true :: marks
  | place + 1, [] => false :: Piece.markAt place []
  | place + 1, mark :: marks => mark :: Piece.markAt place marks

/-- The largest number of ordinary parameters of one pattern. -/
def Piece.paramLimit : Nat := 25

/-- Read pieces from left to right; `room` more ordinary parameters are allowed.
The first byte of a name is free, except that `*` makes the wildcard stand for the
remainder; later bytes exclude `*` and `/`, and a quoted brace belongs to the name.

Quoting goes by place, and a parameter counts as if its name had one byte: the
quoting of a brace directly behind a parameter falls `slip` bytes later, and the
brace itself is a plain one. `late` holds the marks that fell on later glyphs. -/
def Piece.readFrom (room : Nat) :
    Piece.Reading → List Bool → List Glyph → Except PatternFault (List Piece)
  | .outside _, _, [] => .ok []
  | .opened, _, [] => .error .badName
  | .naming _, _, [] => .error .badName
  | .outside slip, late, glyph :: rest =>
      let marked := glyph.quoted || late.headD false
      let quoted := marked && slip == 0
      let marks := if marked && slip != 0 then Piece.markAt (slip - 1) late.tail else late.tail
      if glyph.byte = braceClose ∧ quoted = false then
        .error .badName
      else if glyph.byte = braceOpen ∧ quoted = false then
        Piece.readFrom room .opened marks rest
      else
        (Piece.readFrom room (.outside 0) marks rest).map (.literal glyph.byte :: ·)
  | .opened, late, glyph :: rest =>
      if glyph.byte = braceClose then
        .error .badName
      else
        Piece.readFrom room (.naming [glyph.byte]) late.tail rest
  | .naming reversed, late, glyph :: rest =>
      if glyph.byte = braceClose ∧ (glyph.quoted || late.headD false) = false then
        match reversed.reverse with
        | [] => .error .badName
        | first :: more =>
            if first = star then
              if more = [] then
                .error .badName
              else
                (Piece.readFrom room (.outside 0) late.tail rest).map (.remainder more :: ·)
            else
              match room with
              | 0 => .error .tooManyParams
              | fewer + 1 =>
                  (Piece.readFrom fewer (.outside more.length) late.tail rest).map
                    (.param (first :: more) :: ·)
      else if glyph.byte = star ∨ glyph.byte = slash then
        .error .badName
      else
        Piece.readFrom room (.naming (glyph.byte :: reversed)) late.tail rest

def Piece.read? (text : String) : Except PatternFault (List Piece) :=
  Piece.readFrom Piece.paramLimit (.outside 0) [] (Glyph.read (encodeUtf8 text))

/-- A parameter as a tree shows it that does not know its name: the first of a
pattern is `a`, the next `b`, and so on. -/
def paramLetter (earlier : Nat) : UInt8 :=
  97 + UInt8.ofNat earlier

def inBraces (name : Bytes) : Bytes :=
  braceOpen :: name ++ [braceClose]

/-- The text up to and including the next `/`, behind `earlier` parameters. -/
def Piece.spellSegment (earlier : Nat) : List Piece → Bytes
  | [] => []
  | .literal byte :: rest =>
      if byte = slash then [slash] else byte :: Piece.spellSegment earlier rest
  | .param _ :: rest =>
      inBraces [paramLetter earlier] ++ Piece.spellSegment (earlier + 1) rest
  | .remainder name :: rest =>
      inBraces (star :: name) ++ Piece.spellSegment earlier rest

/-- The steps by which a pattern walks over a path. -/
inductive Route where
  | stop
  | literal (byte : UInt8) (next : Route)
  /-- A parameter that ends both its segment and the pattern. -/
  | param
  /-- A parameter with the literal text behind it, up to and including `/` if the
  pattern has another one. -/
  | paramThen (suffix : Bytes) (next : Route)
  | remainder (name : Bytes)
  /-- A parameter whose segment holds a second wildcard: the literal text between the
  two, the rest of the segment as text, and the route from the second one on. -/
  | crowded (lead spelled : Bytes) (next : Route)
  | stray
deriving DecidableEq

/-- Group pieces into steps, behind `earlier` parameters. With `some reversed` the
reader is behind a parameter and has collected that much of its suffix. -/
def Route.ofPiecesFrom : Nat → Option Bytes → List Piece → Route
  | _, none, [] => .stop
  | earlier, none, .literal byte :: rest => .literal byte (Route.ofPiecesFrom earlier none rest)
  | earlier, none, .param _ :: rest => Route.ofPiecesFrom (earlier + 1) (some []) rest
  | _, none, .remainder name :: [] => .remainder name
  | _, none, .remainder _ :: _ :: _ => .stray
  | _, some [], [] => .param
  | _, some reversed, [] => .paramThen reversed.reverse .stop
  | earlier, some reversed, .literal byte :: rest =>
      if byte = slash then
        .paramThen (reversed.reverse ++ [slash]) (Route.ofPiecesFrom earlier none rest)
      else
        Route.ofPiecesFrom earlier (some (byte :: reversed)) rest
  | earlier, some reversed, .param name :: rest =>
      .crowded reversed.reverse (Piece.spellSegment earlier (.param name :: rest))
        (Route.ofPiecesFrom (earlier + 1) (some []) rest)
  | earlier, some reversed, .remainder name :: rest =>
      .crowded reversed.reverse (Piece.spellSegment earlier (.remainder name :: rest))
        (if rest = [] then .remainder name else .stray)

def Route.ofPieces (pieces : List Piece) : Route :=
  Route.ofPiecesFrom 0 none pieces

structure Pattern where
  params : List Bytes
  route : Route
deriving DecidableEq

def Piece.paramName? : Piece → Option Bytes
  | .param name => some name
  | _ => none

def Pattern.read? (source : String) : Except PatternFault Pattern :=
  (Piece.read? source).map fun pieces =>
    { params := pieces.filterMap Piece.paramName?
      route := Route.ofPieces pieces }

end FunctionGateway.Routing
