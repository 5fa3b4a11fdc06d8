import FunctionGateway.Text.Quoted
import FunctionGateway.Toml.Document

/-!
# Complaints about a document

A document that is read but does not fit its purpose is met with a complaint: the
line and column of the misfit, the line itself with the misfit underlined, and
the cause. Lines and columns count from one. The underline starts under the
misfit, has one mark per byte of it that the line holds, and at least one.
-/

namespace FunctionGateway.Toml

open FunctionGateway.Text

structure Complaint where
  span : Span
  cause : String
deriving DecidableEq

def byteCount (letters : List Char) : Nat :=
  (String.ofList letters).utf8ByteSize

/-- The letters of the line a text begins in the middle of, up to its end. -/
def lineRest (letters : List Char) : List Char :=
  letters.takeWhile (· ≠ '\n')

namespace Complaint

/-- The complaint as text, for the document it is about. -/
def text (complaint : Complaint) (document : String) : String :=
  let letters := document.toList
  let before := letters.take (letters.length - complaint.span.start)
  let behind := letters.drop (letters.length - complaint.span.start)
  let misfit := behind.take (complaint.span.start - complaint.span.stop)
  let lead := (before.reverse.takeWhile (· ≠ '\n')).reverse
  let line := lead ++ lineRest behind
  let number := toString (before.count '\n' + 1)
  let gutter := String.ofList (List.replicate (number.length + 1) ' ') ++ "|"
  let marks := max 1 (min (byteCount misfit) (byteCount line - lead.length))
  "TOML parse error at line " ++ number ++ ", column " ++ toString (lead.length + 1) ++ "\n" ++
    gutter ++ "\n" ++
    number ++ " | " ++ String.ofList line ++ "\n" ++
    gutter ++ String.ofList (List.replicate (lead.length + 1) ' ') ++
    String.ofList (List.replicate marks '^') ++ "\n" ++
    complaint.cause ++ "\n"

end Complaint

/-- What a value is called in a complaint. Dates and tables are both maps. -/
def Value.described : Value → String
  | .text content => "string " ++ quoted content
  | .integer number => "integer \x60" ++ toString number ++ "\x60"
  | .float number => "floating point \x60" ++ number.text ++ "\x60"
  | .boolean truth => "boolean \x60" ++ toString truth ++ "\x60"
  | .dateTime => "map"
  | .array _ => "sequence"
  | .inlineTable _ => "map"

def Item.described : Item → String
  | .value _ content => content.described
  | .table _ => "map"
  | .tables _ => "sequence"

/-- The cause for a value of the wrong kind. -/
def wrongKind (item : Item) (expected : String) : String :=
  "invalid type: " ++ item.described ++ ", expected " ++ expected

/-- The cause for an integer out of range. -/
def outOfRange (value : Int) (expected : String) : String :=
  "invalid value: integer \x60" ++ toString value ++ "\x60, expected " ++ expected

end FunctionGateway.Toml
