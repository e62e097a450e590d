import TypedClient.Text.Basic

/-! The steps of a run and the features that switch them off. -/

namespace TypedClient

inductive Feature
  | tagList
  | validatedTypes
  | propertyTypes
  | endpoints
  | domainApi
  | hooks
  deriving DecidableEq, Repr

namespace Feature

def all : List Feature := [tagList, validatedTypes, propertyTypes, endpoints, domainApi, hooks]

/-- The name of a feature in a configuration. -/
def name : Feature → Text
  | tagList => "tagList"
  | validatedTypes => "validatedTypes"
  | propertyTypes => "propertyTypes"
  | endpoints => "endpoints"
  | domainApi => "domainApi"
  | hooks => "hooks"

end Feature

inductive Step
  | loadDescription
  | extractModel
  | classifyTags
  | tagList
  | validatedTypes
  | propertyTypes
  | endpoints
  | domainApi
  | hooks
  deriving DecidableEq, Repr

namespace Step

/-- The steps in the order of a run. -/
def all : List Step :=
  [loadDescription, extractModel, classifyTags, tagList, validatedTypes, propertyTypes, endpoints,
    domainApi, hooks]

def name : Step → Text
  | loadDescription => "load-description"
  | extractModel => "extract-model"
  | classifyTags => "classify-tags"
  | tagList => "tag-list"
  | validatedTypes => "validated-types"
  | propertyTypes => "property-types"
  | endpoints => "endpoints"
  | domainApi => "domain-api"
  | hooks => "hooks"

/-- The feature that switches a step off; a step without one is required. -/
def feature? : Step → Option Feature
  | loadDescription | extractModel | classifyTags => none
  | tagList => some .tagList
  | validatedTypes => some .validatedTypes
  | propertyTypes => some .propertyTypes
  | endpoints => some .endpoints
  | domainApi => some .domainApi
  | hooks => some .hooks

def isRequired (step : Step) : Bool := step.feature?.isNone

end Step

end TypedClient
