import TypedClient.Config.Template
import TypedClient.Config.VerbPrefixes
import TypedClient.Run.Step

/-! The options that shape a client. -/

namespace TypedClient

open Text

inductive ErrorNotification
  | none
  | console
  | toast
  deriving DecidableEq, Repr

namespace ErrorNotification

def all : List ErrorNotification := [none, console, toast]

def name : ErrorNotification → Text
  | none => "none"
  | console => "console"
  | toast => "toast"

end ErrorNotification

/-- How mutation hooks report what became of a call. -/
structure NotificationPolicy where
  onError : ErrorNotification
  onSuccess : Bool
  successMessage : Text
  deriving DecidableEq, Repr

namespace NotificationPolicy

def standard : NotificationPolicy := ⟨.console, false, "Request completed"⟩

def usesNotifier (policy : NotificationPolicy) : Bool :=
  policy.onSuccess || policy.onError = .toast

end NotificationPolicy

/-- The modules that generated files import. -/
structure ImportPaths where
  schema : Text
  runtime : Text
  query : Text
  notifier : Text
  deriving DecidableEq, Repr

namespace ImportPaths

def standard : ImportPaths :=
  ⟨"../schema", "@/api/runtime", "@tanstack/react-query", "@/lib/notify"⟩

/-- The schema module with the names of server and tag filled in. -/
def schemaModule (paths : ImportPaths) (server tag : Text) : Text :=
  replace (inBraces "tag") tag (replace (inBraces "server") server paths.schema)

end ImportPaths

def standardDepth : Nat := 5

structure Config where
  verbs : VerbPrefixes
  /-- The features switched off. -/
  disabled : List Feature
  templates : DocTemplates
  notifications : NotificationPolicy
  imports : ImportPaths
  maxSchemaDepth : Nat
  deriving DecidableEq, Repr

namespace Config

def standard : Config where
  verbs := .standard
  disabled := []
  templates := .standard
  notifications := .standard
  imports := .standard
  maxSchemaDepth := standardDepth

def isEnabled (config : Config) (feature : Feature) : Bool := feature ∉ config.disabled

end Config

end TypedClient
