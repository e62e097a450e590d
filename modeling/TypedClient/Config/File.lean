import TypedClient.Config.Basic
import TypedClient.FilePath
import TypedClient.Json.Decode

/-! Configuration files: JSON documents that name the servers and set options. -/

namespace TypedClient

open Text Json Json.Reader

/-- A server as it is configured. -/
structure ServerEntry where
  name : Text
  input : Text
  excludedTag : Option Text
  deriving DecidableEq, Repr

structure ConfigFile where
  output : Text
  servers : List ServerEntry
  config : Config
  deriving DecidableEq, Repr

namespace ConfigFile

def standardOutput : Text := "src/api/generated"

def standard : ConfigFile := ⟨standardOutput, [], .standard⟩

/-! Shapes of the values in a file. -/

def aText : Reader Text := text "a string"

def aPath : Reader Text := text "path string"

def field {ρ α : Type} (name : Text) (reader : Reader α) (put : ρ → α → ρ) : FieldReader ρ :=
  ⟨name, false, (fun value record => put record value) <$> reader⟩

def required {ρ α : Type} (name : Text) (reader : Reader α) (put : ρ → α → ρ) : FieldReader ρ :=
  { field name reader put with isRequired := true }

def server : RecordReader ServerEntry where
  expected := "struct ServerConfig"
  fields :=
    [required "name" aText fun server name => { server with name },
      required "input" aPath fun server input => { server with input },
      field "excludeTag" (optional aText) fun server excludedTag => { server with excludedTag }]
  isClosed := true
  start := ⟨[], [], none⟩

/-- How many levels of brackets the setting of a feature can have, below the two that stand around
it. -/
def settingLevels : Nat := 125

def isEnabledKey (name : Text) : Bool := name == "enabled"

/-- The setting of a feature: a truth value, alone or under `enabled`. -/
def settingOf? : Json → Option Bool
  | .bool isOn => some isOn
  | .object members =>
    match members.filter fun (name, _) => isEnabledKey name with
    | [(_, .bool isOn)] => some isOn
    | _ => none
  | _ => none

def setting : Reader Bool := do
  match settingOf? (← anyValue settingLevels) with
  | some isOn => return isOn
  | none => failMember (.noVariant "untagged enum FeatureSetting")

def featureNames : List (Text × Feature) := Feature.all.map fun feature => (feature.name, feature)

/-- A feature with its setting. -/
def featureSetting : Reader (Feature × Bool) := do
  let (_, feature) ← within .unknown (variant featureNames)
  colon
  return (feature, ← within .unknown setting)

/-- The features that are switched off; of several settings of one the last counts. -/
def disabledBy (settings : List (Feature × Bool)) : List Feature :=
  Feature.all.filter fun feature => settings.reverse.lookup feature = some false

def templates : RecordReader DocTemplates where
  expected := "struct DocTemplates"
  fields :=
    [field "wrapper" aText fun templates wrapper => { templates with wrapper },
      field "queryHook" aText fun templates queryHook => { templates with queryHook },
      field "mutationHook" aText fun templates mutationHook => { templates with mutationHook }]
  isClosed := false
  start := .standard

def errorNames : List (Text × ErrorNotification) :=
  ErrorNotification.all.map fun notification => (notification.name, notification)

def notifications : RecordReader NotificationPolicy where
  expected := "struct NotificationPolicy"
  fields :=
    [field "onError" (choice errorNames) fun policy onError => { policy with onError },
      field "onSuccess" bool fun policy onSuccess => { policy with onSuccess },
      field "successMessage" aText fun policy successMessage => { policy with successMessage }]
  isClosed := false
  start := .standard

def imports : RecordReader ImportPaths where
  expected := "struct ImportPaths"
  fields :=
    [field "schema" aText fun paths schema => { paths with schema },
      field "runtime" aText fun paths runtime => { paths with runtime },
      field "query" aText fun paths query => { paths with query },
      field "notifier" aText fun paths notifier => { paths with notifier }]
  isClosed := false
  start := .standard

def setConfig (file : ConfigFile) (change : Config → Config) : ConfigFile :=
  { file with config := change file.config }

def shape : RecordReader ConfigFile where
  expected := "struct ConfigFile"
  fields :=
    [field "output" aPath fun file output => { file with output },
      field "servers" (list server.read) fun file servers => { file with servers },
      field "verbPrefixes" (object (named aText)) fun file verbs =>
        setConfig file fun config => { config with verbs := VerbPrefixes.standard.override verbs },
      field "features" (object featureSetting) fun file settings =>
        setConfig file fun config => { config with disabled := disabledBy settings },
      field "docTemplates" templates.read fun file templates =>
        setConfig file fun config => { config with templates },
      field "notifications" notifications.read fun file notifications =>
        setConfig file fun config => { config with notifications },
      field "imports" imports.read fun file imports =>
        setConfig file fun config => { config with imports },
      field "maxSchemaDepth" (natural "usize") fun file maxSchemaDepth =>
        setConfig file fun config => { config with maxSchemaDepth }]
  isClosed := true
  start := standard

/-- Reads a file from its text. -/
def ofText (document : Text) : Except Failure ConfigFile := shape.read.run document

/-- What is wrong with the text of a file. -/
def failureMessage (document : Text) (failure : Failure) : Text :=
  "Invalid config at '" ++ pathText failure.path ++ "': " ++ failure.message document

/-- Takes relative inputs from a folder. -/
def resolveInputs (file : ConfigFile) (folder : Text) : ConfigFile :=
  { file with
    servers := file.servers.map fun server =>
      { server with input := FilePath.push folder server.input } }

end ConfigFile

end TypedClient
