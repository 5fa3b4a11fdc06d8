import FunctionGateway.Http.Method
import FunctionGateway.Text.Utf8

/-!
# Header fields

A field name is a token, kept in lower case so that names compare without regard
to case. A field value is a byte string without control bytes, tab excepted. The
fields of a message are kept in the order they were added; a name may occur
several times.
-/

namespace FunctionGateway.Http

open FunctionGateway.Text

def fieldNameLimit : Nat := 65535

def isFieldName (text : String) : Bool :=
  !text.toList.isEmpty && text.toList.length ≤ fieldNameLimit &&
    text.toList.all fun letter => isTokenChar letter && !letter.isUpper

/-- The name of a header field, in lower case. -/
structure FieldName where
  text : String
  isName : isFieldName text = true
deriving DecidableEq

namespace FieldName

/-- Read a name in any case. -/
def ofString? (text : String) : Option FieldName :=
  let lowered := String.ofList (text.toList.map Char.toLower)
  if isName : isFieldName lowered = true then some ⟨lowered, isName⟩ else none

/-- Read a name from bytes; a name is ASCII, so bytes that are no text are no name. -/
def ofBytes? (bytes : Bytes) : Option FieldName :=
  (decodeUtf8? bytes).bind ofString?

def allow : FieldName := ⟨"allow", by decide⟩
def authorization : FieldName := ⟨"authorization", by decide⟩
def contentType : FieldName := ⟨"content-type", by decide⟩
def wwwAuthenticate : FieldName := ⟨"www-authenticate", by decide⟩

end FieldName

def isValueByte (byte : UInt8) : Bool :=
  (0x20 ≤ byte && byte ≠ 0x7f) || byte == 0x09

/-- A byte that shows as ASCII: a printable character, a space or a tab. -/
def isVisibleByte (byte : UInt8) : Bool :=
  (0x20 ≤ byte && byte < 0x7f) || byte == 0x09

structure FieldValue where
  bytes : Bytes
  isValue : bytes.all isValueByte = true
deriving DecidableEq

namespace FieldValue

def ofBytes? (bytes : Bytes) : Option FieldValue :=
  if isValue : bytes.all isValueByte = true then some ⟨bytes, isValue⟩ else none

/-- The value of a text written in visible ASCII. -/
def ofVisible? (text : String) : Option FieldValue :=
  if (encodeUtf8 text).all isVisibleByte then ofBytes? (encodeUtf8 text) else none

/-- The text of a value that is visible ASCII throughout. -/
def visible? (value : FieldValue) : Option String :=
  if value.bytes.all isVisibleByte then decodeUtf8? value.bytes else none

end FieldValue

abbrev Fields := List (FieldName × FieldValue)

namespace Fields

def append (fields : Fields) (name : FieldName) (value : FieldValue) : Fields :=
  fields ++ [(name, value)]

def insert (fields : Fields) (name : FieldName) (value : FieldValue) : Fields :=
  fields.filter (·.1 ≠ name) ++ [(name, value)]

def get? (fields : Fields) (name : FieldName) : Option FieldValue :=
  (fields.find? (·.1 = name)).map (·.2)

@[simp]
theorem get?_nil (name : FieldName) : get? [] name = none :=
  rfl

/-- The value that was there first goes on being found. -/
theorem get?_append (fields : Fields) (own name : FieldName) (value : FieldValue) :
    (fields.append own value).get? name =
      (fields.get? name).or (if own = name then some value else none) := by
  simp only [get?, append, List.find?_append]
  cases fields.find? fun field => decide (field.1 = name) with
  | some field => rfl
  | none => by_cases same : own = name <;> simp [same]

/-- The value that is found is the first one of its name. -/
theorem get?_eq_some_iff {fields : Fields} {name : FieldName} {value : FieldValue} :
    fields.get? name = some value ↔
      ∃ front behind : Fields, fields = front ++ (name, value) :: behind ∧
        ∀ field ∈ front, field.1 ≠ name := by
  rw [get?, Option.map_eq_some_iff]
  constructor
  · rintro ⟨⟨own, _⟩, found, rfl⟩
    obtain ⟨same, front, behind, split, others⟩ := List.find?_eq_some_iff_append.mp found
    obtain rfl : own = name := of_decide_eq_true same
    exact ⟨front, behind, split, fun field member => by simpa using others field member⟩
  · rintro ⟨front, behind, rfl, others⟩
    refine ⟨(name, value), List.find?_eq_some_iff_append.mpr ⟨by simp, front, behind, rfl, ?_⟩, rfl⟩
    exact fun field member => by simpa using others field member

theorem get?_insert_self (fields : Fields) (name : FieldName) (value : FieldValue) :
    (fields.insert name value).get? name = some value := by
  have gone : (fields.filter (·.1 ≠ name)).find? (·.1 = name) = none := by
    rw [List.find?_eq_none]
    simp
  rw [get?, insert, List.find?_append, gone]
  simp

end Fields

end FunctionGateway.Http
