import BackupWatch.Config.Basic
import BackupWatch.Yaml.Document

/-!
Configurations as YAML documents: a flat mapping from strings to scalars, or a manifest whose
`data` holds that mapping. Scalars are taken as the text that YAML would write for them.
-/

namespace BackupWatch.Config

open Yaml

/-- Why a document is no configuration. -/
inductive DocumentFault
  | notMapping
  | nonStringKey (key : Value)
  | notScalar (key : String) (value : Value)
  deriving Inhabited

def DocumentFault.message : DocumentFault → String
  | notMapping => "configuration must be a mapping"
  | nonStringKey key => "non-string key " ++ key.text
  | notScalar key value => "value for " ++ key ++ " must be a scalar, got " ++ value.text

/-- The text of a scalar. -/
def scalarText? : Value → Option String
  | .string s => some s
  | .number n => some n.text
  | .bool b => some (toString b)
  | _ => none

/-- One entry of a flat mapping. -/
def setting (entry : Value × Value) : Except DocumentFault (String × String) :=
  match entry.1 with
  | .string key =>
    match scalarText? entry.2 with
    | some text => .ok (key, text)
    | none => .error (.notScalar key entry.2)
  | key => .error (.nonStringKey key)

/-- The entries that hold the settings: those of `data` in a manifest, which has a `kind` and
whose `data` is a mapping, and else all. -/
def settingsOf (entries : List (Value × Value)) : List (Value × Value) :=
  match Value.find? entries "data" with
  | some (.mapping data) => if (Value.find? entries "kind").isSome then data else entries
  | _ => entries

/-- The settings of a document; the first bad entry decides the fault. -/
def flatten : Value → Except DocumentFault Settings
  | .mapping entries => (settingsOf entries).mapM setting
  | .null => .ok []
  | _ => .error .notMapping

/-- Reads the settings off a file's bytes, none of which there are if it cannot be read. A bad
document is reported under its path. -/
def settingsOfFile (path : String) (content : Option ByteArray) : Except Error Settings :=
  match content.bind String.fromUTF8? with
  | none => .error .io
  | some text =>
    match parse text with
    | none => .error .yaml
    | some document => (flatten document).mapError fun fault =>
        .config (path ++ ": " ++ fault.message)

theorem settingsOfFile_eq_ok {content : ByteArray} {text : String} {document : Value}
    {settings : Settings} (htext : String.fromUTF8? content = some text)
    (hparse : parse text = some document) (hflatten : flatten document = .ok settings)
    (path : String) : settingsOfFile path (some content) = .ok settings := by
  simp only [settingsOfFile, Option.bind_some, htext, hparse, hflatten]
  rfl

/-- The configuration of a file, for callers to whom a stop of the program is an error as well. -/
def ofFile (path : String) (content : Option ByteArray) : Except Error Config := do
  (ofSettings (← settingsOfFile path content)).mapError Fault.toError

end BackupWatch.Config
