/-!
# Request targets

A target is an absolute path with an optional query, a full address, an
authority alone, or `*`. Only its path and its query matter here: an authority
alone has the empty path, and a full address without a path has the path `/`. A
fragment is dropped.
-/

namespace FunctionGateway.Http

/-- The path and the query of a request target, as received. -/
structure Target where
  path : String
  query : Option String
deriving DecidableEq

namespace Target

def lengthLimit : Nat := 65534

def schemeLimit : Nat := 64

/-- A character of a path. Characters outside ASCII are let through, and so are
braces and the double quote, which some clients send bare. -/
def isPathChar (letter : Char) : Bool :=
  letter.toNat ≥ 0x80 || letter.isAlphanum ||
    "!$%&'()*+,-./:;=@[\\]^_|~\"\x7b\x7d".toList.contains letter

/-- A character of a query; the double quote is not one, the backtick is. -/
def isQueryChar (letter : Char) : Bool :=
  letter.toNat ≥ 0x80 || letter.isAlphanum ||
    "!$%&'()*+,-./:;=?@[\\]^_\x60|~\x7b\x7d".toList.contains letter

def isSchemeChar (letter : Char) : Bool :=
  letter.isAlphanum || "+-.~".toList.contains letter

/-- A character of an authority, the percent sign and the delimiters apart. -/
def isAuthorityChar (letter : Char) : Bool :=
  letter.isAlphanum || "!$&'()*+,-.;=_~".toList.contains letter

def beforeFragment (letters : List Char) : List Char :=
  letters.takeWhile (· ≠ '#')

def ofPath? (letters : List Char) : Option Target :=
  let shown := beforeFragment letters
  let path := shown.takeWhile (· ≠ '?')
  if path.all isPathChar then
    match shown.dropWhile (· ≠ '?') with
    | [] => some ⟨String.ofList path, none⟩
    | _ :: query =>
        if query.all isQueryChar then
          some ⟨String.ofList path, some (String.ofList query)⟩
        else
          none
  else
    none

/-- Whether `letters` begins with `head`, letter case aside. -/
def beginsWith (head : String) (letters : List Char) : Bool :=
  (letters.take head.toList.length).map Char.toLower = head.toList

/-- The first scheme character run that ends in `://`, as the length of the scheme. -/
def schemeLength? : Nat → List Char → Option Nat
  | _, [] => none
  | count, ':' :: '/' :: '/' :: _ => some count
  | count, letter :: rest =>
      if isSchemeChar letter then schemeLength? (count + 1) rest else none

inductive Scheme where
  | absent
  | tooLong
  | length (count : Nat)

def scheme (letters : List Char) : Scheme :=
  if beginsWith "http://" letters then
    .length 4
  else if beginsWith "https://" letters then
    .length 5
  else if letters.length ≤ 3 then
    .absent
  else
    match schemeLength? 0 letters with
    | none => .absent
    | some count => if count ≤ schemeLimit then .length count else .tooLong

/-- What has been seen of an authority. -/
structure AuthorityScan where
  /-- Colons since the last `@` or `]`. -/
  colons : Nat := 0
  opened : Bool := false
  closed : Bool := false
  /-- A percent sign since the last `@` or `]`. -/
  percent : Bool := false
  endsInAt : Bool := false

/-- The largest number of colons an authority may hold at once. -/
def colonLimit : Nat := 8

/-- Take one more character of an authority. -/
def AuthorityScan.step? (scan : AuthorityScan) (letter : Char) : Option AuthorityScan :=
  if letter = ':' then
    if scan.colons < colonLimit then
      some { scan with colons := scan.colons + 1, endsInAt := false }
    else
      none
  else if letter = '[' then
    if scan.percent || scan.opened then none
    else some { scan with opened := true, endsInAt := false }
  else if letter = ']' then
    if !scan.opened || scan.closed then none
    else some { scan with closed := true, colons := 0, percent := false, endsInAt := false }
  else if letter = '@' then
    some { scan with colons := 0, percent := false, endsInAt := true }
  else if letter = '%' then
    some { scan with percent := true, endsInAt := false }
  else if isAuthorityChar letter then
    some { scan with endsInAt := false }
  else
    none

/-- Whether a text without `/`, `?` and `#` is an authority; the empty one is. -/
def isAuthority (letters : List Char) : Bool :=
  match letters.foldlM AuthorityScan.step? {} with
  | none => false
  | some scan =>
      scan.opened == scan.closed && scan.colons ≤ 1 && !scan.endsInAt && !scan.percent

def endsAuthority (letter : Char) : Bool :=
  letter == '/' || letter == '?' || letter == '#'

/-- Read a target that does not begin with `/`. -/
def ofAddress? (letters : List Char) : Option Target :=
  match scheme letters with
  | .tooLong => none
  | .absent =>
      if letters.all (!endsAuthority ·) && isAuthority letters then some ⟨"", none⟩ else none
  | .length count =>
      let behind := letters.drop (count + 3)
      let authority := behind.takeWhile (!endsAuthority ·)
      if authority.isEmpty || !isAuthority authority then
        none
      else
        (ofPath? (behind.dropWhile (!endsAuthority ·))).map fun target =>
          if target.path.isEmpty then { target with path := "/" } else target

def ofString? (text : String) : Option Target :=
  if text.utf8ByteSize > lengthLimit then
    none
  else
    match text.toList with
    | [] => none
    | ['*'] => some ⟨"*", none⟩
    | '/' :: rest => ofPath? ('/' :: rest)
    | letters => ofAddress? letters

end Target

end FunctionGateway.Http
