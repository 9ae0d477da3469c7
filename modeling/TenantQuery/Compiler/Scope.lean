import TenantQuery.Compiler.Config
import TenantQuery.Filter.Combine

namespace TenantQuery.Scope

def appDimension : String := "appID"
def testModeDimension : String := "isTestMode"

/-- Identifiers are stored in upper case. -/
def appSelector (id : Uuid) : Filter :=
  .selector appDimension id.upperText

def appFilter (ids : List Uuid) : Option Filter :=
  Filter.anyOf (ids.map fun id => some (appSelector id))

def testModeFilter (testMode : Option Bool) : Filter :=
  .selector testModeDimension (if testMode.getD false then "true" else "false")

def rowsOf (ids : List Uuid) (testMode : Option Bool) : Option Filter :=
  Filter.allOf [appFilter ids, some (testModeFilter testMode)]

def policyOf (q : Query) : Policy :=
  q.baseFilters.getD .thisOrganization

/-- The filter that a policy adds. Only a super organization may go without one. -/
def filter (config : Config) (policy : Policy) (q : Query) (organization : List Uuid)
    (superOrg : Bool) : Except CompileError (Option Filter) :=
  match policy with
  | .thisOrganization =>
    if organization.isEmpty then .error .noOrganization
    else .ok (rowsOf organization q.testMode)
  | .thisApp =>
    match q.appID with
    | none => .error .noApp
    | some id => .ok (rowsOf [id] q.testMode)
  | .exampleData => .ok (rowsOf [config.exampleDataAppID] q.testMode)
  | .noFilter => if superOrg then .ok none else .error .unscoped

end TenantQuery.Scope
