import BackupWatch.Text.Quoted
import BackupWatch.Time.Duration
import BackupWatch.Watch.Kind

/-!
Errors: everything that can go wrong with a request, a configuration or a watched job, and the
text that reports it. A caller may see an error and go on. Only a conflict is worth a new
attempt, and it is told by its code alone.
-/

namespace BackupWatch

open Text Time Watch

/-- How the API server refuses a request. -/
structure ApiStatus where
  code : Nat
  reason : String
  message : String
  deriving DecidableEq, Repr, Inhabited

def ApiStatus.text (s : ApiStatus) : String :=
  "ApiError: " ++ s.message ++ ": " ++ s.reason
    ++ " (ErrorResponse \x7b status: \"Failure\", message: " ++ quoted s.message
    ++ ", reason: " ++ quoted s.reason ++ ", code: " ++ toString s.code ++ " \x7d)"

inductive Error
  /-- The API server refused a request. -/
  | api (status : ApiStatus)
  /-- An answer of the API server did not have the expected shape. -/
  | malformedAnswer
  /-- No request can be made for such a name. -/
  | invalidRequest
  | config (message : String)
  | discovery (message : String)
  /-- A configuration file is no YAML document. -/
  | yaml
  /-- A file could not be read. -/
  | io
  /-- A watched job ended in a failure, which will not heal by itself. -/
  | jobFailed (kind : Kind) (name phase : String) (message : Option String)
  | timeout (operation : String) (limit : Duration) (lastState : String)
  | retriesExhausted (operation : String) (attempts : Nat) (lastError : String)
  deriving DecidableEq, Repr, Inhabited

namespace Error

def isConflict : Error → Bool
  | api status => status.code == 409
  | _ => false

def isNotFound : Error → Bool
  | api status => status.code == 404
  | _ => false

def text : Error → String
  | api status => "Kubernetes API error: " ++ status.text
  | malformedAnswer => "Kubernetes API error: answer of an unexpected shape"
  | invalidRequest => "Kubernetes API error: request cannot be built"
  | config message => "Configuration error: " ++ message
  | discovery message => "Discovery error: " ++ message
  | yaml => "YAML error"
  | io => "IO error"
  | jobFailed kind name phase message =>
    kind.text ++ " " ++ name ++ " reported phase " ++ phase
      ++ (match message with
        | some m => ": " ++ m
        | none => "")
  | timeout operation limit lastState =>
    "timed out after " ++ limit.text ++ " waiting for " ++ operation
      ++ " (last state at <time>: " ++ lastState ++ ")"
  | retriesExhausted operation attempts lastError =>
    operation ++ " failed after " ++ toString attempts ++ " attempts: " ++ lastError

end Error
end BackupWatch
