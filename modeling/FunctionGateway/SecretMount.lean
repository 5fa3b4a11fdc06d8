import FunctionGateway.Authentication
import FunctionGateway.Text.Blank
import FunctionGateway.Text.Quoted

/-!
# Credentials from a secret mount

A secret mount is a directory with one file for the user and one for the
password. Both are text; blanks round it, such as the line feed most tools leave
at the end, do not count. The user is read first.
-/

namespace FunctionGateway

open FunctionGateway.Text

inductive FileEntry where
  | file (content : Bytes)
  | directory
  /-- A file that may not be opened. -/
  | forbidden

/-- Why a file could not be read as text. -/
inductive ReadFault where
  | absent
  | isDirectory
  | forbidden
  | notText
deriving DecidableEq

def ReadFault.message : ReadFault → String
  | .absent => "No such file or directory (os error 2)"
  | .isDirectory => "Is a directory (os error 21)"
  | .forbidden => "Permission denied (os error 13)"
  | .notText => "stream did not contain valid UTF-8"

/-- The text of an entry that may be missing. -/
def readText : Option FileEntry → Except ReadFault String
  | none => .error .absent
  | some .directory => .error .isDirectory
  | some .forbidden => .error .forbidden
  | some (.file content) =>
      match decodeUtf8? content with
      | some text => .ok text
      | none => .error .notText

/-- A file that could not be read, with its path. -/
structure UnreadableFile where
  path : String
  fault : ReadFault
deriving DecidableEq

/-- The directory that holds the two files. -/
structure SecretMount where
  path : String
  entries : List (String × FileEntry)

namespace SecretMount

def userFile : String := "basic-auth-user"

def passwordFile : String := "basic-auth-password"

/-- The path of one file; a slash goes between, unless the directory ends in one or is empty. -/
def pathOf (mount : SecretMount) (name : String) : String :=
  match mount.path.toList.getLast? with
  | none => name
  | some '/' => mount.path ++ name
  | some _ => mount.path ++ "/" ++ name

/-- The text of one file without the blanks round it. -/
def readSecret (mount : SecretMount) (name : String) : Except UnreadableFile String :=
  match readText (mount.entries.lookup name) with
  | .ok text => .ok (trim text)
  | .error fault => .error ⟨mount.pathOf name, fault⟩

def read (mount : SecretMount) : Except UnreadableFile Credentials := do
  let user ← mount.readSecret userFile
  let password ← mount.readSecret passwordFile
  return { user, password }

end SecretMount

/-- How credentials are shown: the user quoted, the password never. -/
def Credentials.shown (credentials : Credentials) : String :=
  "Credentials \x7b user: " ++ quoted credentials.user ++ ", password: \"<redacted>\" \x7d"

end FunctionGateway
