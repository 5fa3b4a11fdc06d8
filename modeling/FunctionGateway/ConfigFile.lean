import FunctionGateway.Config
import FunctionGateway.SecretMount
import FunctionGateway.Toml.Complaint

/-!
# Reading a configuration

A configuration file is a TOML document. Keys of the root table that name a
setting replace its default, other keys do not count, and the first entry that
does not fit ends the reading. Timeouts are seconds, whole or with a fraction.
-/

namespace FunctionGateway

open FunctionGateway.Number
open FunctionGateway.Text
open FunctionGateway.Toml

inductive ConfigFault where
  | unreadable (file : UnreadableFile)
  /-- The text is no TOML document. -/
  | malformed
  /-- An entry does not fit its setting. -/
  | misfit (complaint : String)
  | headTooSmall (maxHeaderBytes : Nat)
deriving DecidableEq

def ConfigFault.message : ConfigFault → String
  | .unreadable file => file.path ++ ": " ++ file.fault.message
  | .malformed => "not a TOML document"
  | .misfit complaint => complaint
  | .headTooSmall maxHeaderBytes =>
      "max_header_bytes must be at least " ++ toString ServerConfig.minHeaderBytes ++ ", got " ++
        toString maxHeaderBytes

namespace ServerConfig

/-- A configuration is valid if its head size is large enough. -/
def validate (config : ServerConfig) : Except ConfigFault Unit :=
  if config.maxHeaderBytes < minHeaderBytes then
    .error (.headTooSmall config.maxHeaderBytes)
  else
    .ok ()

def readSeconds (item : Item) : Except String Duration :=
  match item with
  | .value _ (.integer value) =>
      (Binary64.ofInt value).toDuration.mapError Binary64.SecondsFault.message
  | .value _ (.float value) => value.toDuration.mapError Binary64.SecondsFault.message
  | _ => .error (wrongKind item "f64")

/-- A natural number below `bound`. -/
def readNat (item : Item) (bound : Nat) (expected : String) : Except String Nat :=
  match item with
  | .value _ (.integer value) =>
      if 0 ≤ value ∧ value < bound then .ok value.toNat
      else .error (outOfRange value expected)
  | _ => .error (wrongKind item expected)

def readSwitch (item : Item) : Except String Bool :=
  match item with
  | .value _ (.boolean value) => .ok value
  | _ => .error (wrongKind item "a boolean")

def readPath (item : Item) : Except String String :=
  match item with
  | .value _ (.text value) => .ok value
  | _ => .error (wrongKind item "path string")

def withEntry (config : ServerConfig) (name : String) (item : Item) :
    Except String ServerConfig :=
  match name with
  | "read_timeout" => (readSeconds item).map fun readTimeout => { config with readTimeout }
  | "write_timeout" => (readSeconds item).map fun writeTimeout => { config with writeTimeout }
  | "tcp_port" =>
      (readNat item (Nat.pow 2 16) "u16").map fun port => { config with tcpPort := some port }
  | "enable_basic_auth" =>
      (readSwitch item).map fun enableBasicAuth => { config with enableBasicAuth }
  | "secret_mount_path" =>
      (readPath item).map fun secretMountPath => { config with secretMountPath }
  | "max_header_bytes" =>
      (readNat item (Nat.pow 2 64) "usize").map fun maxHeaderBytes => { config with maxHeaderBytes }
  | _ => .ok config

/-- Take over entries in order, up to the first that does not fit. -/
def withEntries (config : ServerConfig) : List (Key × Item) → Except Complaint ServerConfig
  | [] => .ok config
  | (key, item) :: rest =>
      match config.withEntry key.name item with
      | .ok changed => changed.withEntries rest
      | .error cause => .error { span := item.span?.getD key.span, cause }

def ofText (text : String) : Except ConfigFault ServerConfig :=
  match Table.ofText? text with
  | none => .error .malformed
  | some root =>
      match ServerConfig.withEntries {} root.entries with
      | .error complaint => .error (.misfit (complaint.text text))
      | .ok config => config.validate.map fun _ => config

/-- Read a configuration from a file that may be missing. -/
def load (path : String) (entry : Option FileEntry) : Except ConfigFault ServerConfig :=
  match readText entry with
  | .error fault => .error (.unreadable ⟨path, fault⟩)
  | .ok text => ofText text

end ServerConfig

end FunctionGateway
