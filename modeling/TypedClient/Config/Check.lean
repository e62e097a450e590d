import TypedClient.Config.File

/-! What a configuration has to satisfy before it is used. -/

namespace TypedClient

open Text

inductive ConfigError
  | noServers
  | zeroDepth
  | emptyName (index : Nat)
  | duplicateServer (name : Text)
  | template (error : UnknownPlaceholder)
  | unknownServer (name : Text) (known : List Text)
  deriving DecidableEq, Repr

def ConfigError.message : ConfigError → Text
  | noServers => "No servers configured"
  | zeroDepth => "maxSchemaDepth must be at least 1"
  | emptyName index => "Server #" ++ ofNat index ++ " has an empty name"
  | duplicateServer name => "Server '" ++ name ++ "' is configured more than once"
  | template error => error.message
  | unknownServer name known =>
    "Unknown server '" ++ name ++ "', expected one of: " ++ join ", " known

namespace ConfigFile

/-- Checks the names of servers in order: none is blank and none stands twice. -/
def checkNames (before : List Text) : List Text → Except ConfigError Unit
  | [] => .ok ()
  | name :: rest =>
    if allBlank name then .error (.emptyName before.length)
    else if name ∈ before then .error (.duplicateServer name)
    else checkNames (before ++ [name]) rest

def serverNames (file : ConfigFile) : List Text := file.servers.map (·.name)

def check (file : ConfigFile) : Except ConfigError Unit := do
  if file.servers = [] then throw .noServers
  if file.config.maxSchemaDepth = 0 then throw .zeroDepth
  checkNames [] file.serverNames
  match file.config.templates.unknown? with
  | some error => throw (.template error)
  | none => return

/-- The server of a name. -/
def serverOf (file : ConfigFile) (name : Text) : Except ConfigError ServerEntry :=
  match file.servers.find? fun server => server.name = name with
  | some server => .ok server
  | none => .error (.unknownServer name file.serverNames)

/-- The servers of these names in this order, or all servers if there are no names. -/
def select (file : ConfigFile) (names : List Text) : Except ConfigError (List ServerEntry) :=
  if names = [] then .ok file.servers else names.mapM file.serverOf

end ConfigFile

end TypedClient
