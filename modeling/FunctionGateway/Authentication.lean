import FunctionGateway.Http.Request
import FunctionGateway.Http.Response
import FunctionGateway.Text.Base64

/-!
# Basic authentication

A request is accepted if its first `Authorization` field reads `Basic`, in any
letter case, one space, and the base64 spelling of `user:password`, with blanks
round the spelling ignored. The user ends at the first colon, so a user that
holds a colon is never accepted and a password may hold any number of them.
-/

namespace FunctionGateway

open FunctionGateway.Http
open FunctionGateway.Text

structure Credentials where
  user : String
  password : String
deriving DecidableEq

/-- Split at the first occurrence of a character, which is dropped. -/
def splitAtFirst? (mark : Char) (text : String) : Option (String × String) :=
  match text.toList.dropWhile (· ≠ mark) with
  | [] => none
  | _ :: behind => some (String.ofList (text.toList.takeWhile (· ≠ mark)), String.ofList behind)

/-- Drop spaces and tabs at both ends. Field values hold no other blanks. -/
def trimBlanks (text : String) : String :=
  let isBlank (letter : Char) : Bool := letter = ' ' || letter = '\t'
  String.ofList ((text.toList.dropWhile isBlank).reverse.dropWhile isBlank).reverse

namespace Credentials

/-- Read the value of an `Authorization` field. -/
def ofHeader? (value : String) : Option Credentials := do
  let (scheme, spelling) ← splitAtFirst? ' ' value
  if scheme.toList.map Char.toLower = "basic".toList then
    let bytes ← Base64.decode? (encodeUtf8 (trimBlanks spelling))
    let (user, password) ← splitAtFirst? ':' (← decodeUtf8? bytes)
    some { user, password }
  else
    none

def accept (credentials : Credentials) (request : Request) : Bool :=
  (request.field? FieldName.authorization).bind ofHeader? == some credentials

end Credentials

def unauthorized : Response :=
  let challenge : FieldValue := ⟨encodeUtf8 "Basic realm=\"Restricted\"", by decide⟩
  (Draft.withField { status := Status.unauthorized } FieldName.wwwAuthenticate challenge).text
    "invalid credentials"

end FunctionGateway
