import FunctionGateway.Surface

/-!
# The wording of fixed answers

Some answers are given by the gateway itself, and are the same every time.  What each of them
reads as is settled here, as a number and texts, for the statements about when they are given.
-/

namespace FunctionGateway

open FunctionGateway.Http
open FunctionGateway.Text

namespace Http.Response

/-- The code, the header fields in order and the body of a response. -/
structure Reads (response : Response) (code : Nat) (headers : List (String × String))
    (text : String) : Prop where
  code : response.status.code = code
  headers : response.fields.map (fun field => (field.1.text, field.2.bytes)) =
    headers.map fun header => (header.1, encodeUtf8 header.2)
  text : response.body = encodeUtf8 text

/-- What whoever is not let through is told. -/
def IsRefusal (response : Response) : Prop :=
  response.Reads 401
    [("www-authenticate", "Basic realm=\"Restricted\""),
      ("content-type", "text/plain; charset=utf-8")]
    "invalid credentials"

/-- What is told about a handler that was cut off. -/
def IsTimeout (response : Response) : Prop :=
  response.Reads 503 [("content-type", "text/plain; charset=utf-8")]
    "handler exceeded write timeout"

/-- What is told about a path where nothing is. -/
def IsNowhere (response : Response) : Prop :=
  response.Reads 404 [("content-type", "text/plain; charset=utf-8")] "404 page not found"

end Http.Response

theorem unauthorized_isRefusal : unauthorized.IsRefusal :=
  ⟨rfl, rfl, rfl⟩

theorem deadlineExceeded_isTimeout : deadlineExceeded.IsTimeout :=
  ⟨rfl, rfl, rfl⟩

theorem Routing.notFound_isNowhere : Routing.notFound.IsNowhere :=
  ⟨rfl, rfl, rfl⟩

end FunctionGateway
