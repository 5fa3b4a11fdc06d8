import FunctionGateway.Http.Header

/-!
# Responses

A response is a status, header fields and a body. Responses are put together
from a draft, which collects a status and fields and is finished by a body with
its content type or by no body at all; a content type given at the end replaces
every earlier one.
-/

namespace FunctionGateway.Http

open FunctionGateway.Text

/-- A status code of three digits. -/
structure Status where
  code : Nat
  inRange : (100 ≤ code && code ≤ 999) = true
deriving DecidableEq

namespace Status

def ofNat? (code : Nat) : Option Status :=
  if inRange : (100 ≤ code && code ≤ 999) = true then some ⟨code, inRange⟩ else none

def ok : Status := ⟨200, rfl⟩
def badRequest : Status := ⟨400, rfl⟩
def unauthorized : Status := ⟨401, rfl⟩
def notFound : Status := ⟨404, rfl⟩
def methodNotAllowed : Status := ⟨405, rfl⟩
def requestTimeout : Status := ⟨408, rfl⟩
def notImplemented : Status := ⟨501, rfl⟩
def serviceUnavailable : Status := ⟨503, rfl⟩

end Status

structure Response where
  status : Status
  fields : Fields
  body : Bytes
deriving DecidableEq

/-- A response whose body is still open. -/
structure Draft where
  status : Status := Status.ok
  fields : Fields := []

namespace Draft

/-- Add a field; earlier fields of that name stay. -/
def withField (draft : Draft) (name : FieldName) (value : FieldValue) : Draft :=
  { draft with fields := draft.fields.append name value }

/-- Finish with a body of the given content type. -/
def bytes (draft : Draft) (contentType : FieldValue) (body : Bytes) : Response :=
  { status := draft.status
    fields := draft.fields.insert FieldName.contentType contentType
    body }

def noBody (draft : Draft) : Response :=
  { status := draft.status, fields := draft.fields, body := [] }

end Draft

def plainText : FieldValue :=
  ⟨encodeUtf8 "text/plain; charset=utf-8", by decide⟩

def jsonType : FieldValue :=
  ⟨encodeUtf8 "application/json", by decide⟩

def Draft.text (draft : Draft) (body : String) : Response :=
  draft.bytes plainText (encodeUtf8 body)

namespace Response

def text (body : String) : Response :=
  Draft.text {} body

def json (body : Bytes) : Response :=
  Draft.bytes {} jsonType body

/-- A status alone, without fields and body. -/
def ofStatus (status : Status) : Response :=
  { status, fields := [], body := [] }

def statusText (status : Status) (body : String) : Response :=
  Draft.text { status } body

/-- The answer of a process that is alive. -/
def liveness : Response :=
  text "OK"

end Response

end FunctionGateway.Http
