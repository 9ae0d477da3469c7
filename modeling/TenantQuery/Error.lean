import TenantQuery.Text.Quoted

namespace TenantQuery

inductive Code where
  | keyMissing
  | notAllowed
  | notImplemented
deriving DecidableEq

def Code.text : Code → String
  | .keyMissing => "KEY_MISSING"
  | .notAllowed => "NOT_ALLOWED"
  | .notImplemented => "NOT_IMPLEMENTED"

/-- A query that cannot be compiled as written. -/
inductive CompileError where
  | noDocument
  | noIntervals
  | twoIntervals
  | noRunnableIntervals
  | noSteps
  | emptySteps
  | noCohort (field : String)
  | unfilteredCohort (field name : String)
  | noWindow
  | shortWindow (window : String)
  | noThreshold
  | noMetric
  | noDimension
  | noOrganization
  | noApp
  | unscoped
  | notPrecompiled
  | stillSet (fields : List String)
  | notExpanded (queryType : String)
  | noColumn (name : String)
  | noOperands (what name : String)
  | notLocal (type : String)
  | unsegmented (granularity : String)
  | unboundedSegment (granularity : String)
  | mixedSegments (first second : String)
  | noReplyReader (queryType : String)
  | noReindexApps
  | noReindexTarget
deriving DecidableEq

namespace CompileError

def code : CompileError → Code
  | .unscoped | .notPrecompiled | .stillSet _ | .notExpanded _ => .notAllowed
  | .shortWindow _ | .notLocal _ | .unsegmented _ | .unboundedSegment _ | .mixedSegments _ _
  | .noReplyReader _ => .notImplemented
  | _ => .keyMissing

def field : CompileError → String
  | .noDocument => "query"
  | .noIntervals | .twoIntervals | .noRunnableIntervals | .noWindow => "intervals"
  | .noSteps | .emptySteps => "steps"
  | .noCohort field | .unfilteredCohort field _ => field
  | .noThreshold => "threshold"
  | .noMetric => "metric"
  | .noDimension => "dimension"
  | .noOrganization => "organizationAppIDs"
  | .noApp => "appID"
  | .noColumn name => name
  | .noOperands _ _ => "fields"
  | .noReindexApps => "appIDs"
  | .noReindexTarget => "target"
  | _ => ""

def reason : CompileError → String
  | .noDocument => "no query document"
  | .noIntervals => "either intervals or relativeIntervals must be set"
  | .twoIntervals => "only one of intervals and relativeIntervals may be set"
  | .noRunnableIntervals => "runnable queries need intervals"
  | .noSteps => "funnel queries need steps"
  | .emptySteps => "funnel queries need at least one step"
  | .noCohort field => "experiment queries need " ++ field
  | .unfilteredCohort _ name => "cohort " ++ Text.quote name ++ " has no filter"
  | .noWindow => "retention queries need an interval"
  | .shortWindow window =>
    "retention queries need at least one month between begin and end, got " ++ window
  | .noThreshold => "topN queries need a threshold"
  | .noMetric => "topN queries need a metric"
  | .noDimension => "topN queries need a dimension"
  | .noOrganization => "thisOrganization needs the organization's app IDs"
  | .noApp => "thisApp needs an appID"
  | .unscoped => "noFilter is reserved for super organizations"
  | .notPrecompiled => "precompilation steps incomplete: no precompiled query"
  | .stillSet fields =>
    "precompilation steps incomplete: " ++ ", ".intercalate fields ++ " still set"
  | .notExpanded queryType =>
    "precompilation steps incomplete: queryType " ++ queryType ++ " was not expanded"
  | .noColumn _ => "no aggregator value in row"
  | .noOperands what name => what ++ " " ++ Text.quote name ++ " has no fields"
  | .notLocal type => "post-aggregator " ++ Text.quote type ++ " cannot be evaluated locally"
  | .unsegmented granularity =>
    "granularity " ++ granularity ++ " not implemented for windowed caching"
  | .unboundedSegment granularity => "granularity " ++ granularity ++ " has no segment length"
  | .mixedSegments first second =>
    "merging segments of granularities " ++ first ++ " and " ++ second
  | .noReplyReader queryType => "no result parser for queryType " ++ Text.quote queryType
  | .noReindexApps => "reindexing needs at least one app"
  | .noReindexTarget => "reindexing needs a target data source"

def message (e : CompileError) : String :=
  if e.field = "" then e.code.text ++ ": " ++ e.reason
  else e.code.text ++ ": " ++ e.field ++ ": " ++ e.reason

end CompileError

inductive FileFault where
  | missing
  | isDirectory
  | notDirectory
deriving DecidableEq

def FileFault.text : FileFault → String
  | .missing => "no such file or directory"
  | .isDirectory => "is a directory"
  | .notDirectory => "not a directory"

inductive Error where
  | malformed
  -- A JSON value of another kind than the one wanted, or a number out of range.
  | mistyped
  | unencodable
  | badYaml
  | badInstant
  | badCue
  | endOfInput
  | trailingData
  | duplicateKey (key : String)
  | outOfRange (literal : String)
  | missingType
  | unknownType
  -- A node of some kind that could not be read, with the type it names, if it names one.
  | node (kind type : String) (cause : Error)
  | unknownValue (subject value : String)
  | unreadableTimestamp (text : String)
  | notAnInterval (text : String)
  | unknownContainer (type : String)
  | unknownFunction (name : String)
  | unknownSetOperation (name : String)
  | uuidLength (octets : Nat)
  | uuidFormat
  | uuidScheme (octets : List UInt8)
  | missingQueryType
  | missingGranularity
  | unsupportedFormat (label : String)
  | emptyDocument
  | document (path : String) (cause : Error)
  | file (action path : String) (fault : FileFault)
  | settingMissing (name : String)
  | compile (cause : CompileError)
  | within (context : String) (cause : Error)
  | refused (text : String)
deriving DecidableEq

namespace Error

def message : Error → String
  | .malformed => "<json syntax error>"
  | .mistyped => "<json type error>"
  | .unencodable => "<json encode error>"
  | .badYaml => "<yaml error>"
  | .badInstant => "<time error>"
  | .badCue => "<cue error>"
  | .endOfInput => "EOF"
  | .trailingData => "canonicalize: trailing data after document"
  | .duplicateKey key => "duplicate key " ++ Text.quote key ++ " after NFC normalization"
  | .outOfRange literal =>
    "number " ++ Text.quote literal ++ ": strconv.ParseFloat: parsing " ++ Text.quote literal ++
      ": value out of range"
  | .missingType => "missing type discriminator"
  | .unknownType => "unknown type"
  | .node kind type cause =>
    (if type = "" then "decode " ++ kind else "decode " ++ kind ++ " " ++ Text.quote type) ++
      ": " ++ cause.message
  | .unknownValue subject value => subject ++ ": unknown value " ++ Text.quote value
  | .unreadableTimestamp text => "interval: cannot parse timestamp " ++ Text.quote text
  | .notAnInterval text => "interval: " ++ Text.quote text ++ " is not of the form begin/end"
  | .unknownContainer type => "intervals container: unknown type " ++ Text.quote type
  | .unknownFunction name => "unknown arithmetic function " ++ Text.quote name
  | .unknownSetOperation name => "unknown set operation " ++ Text.quote name
  | .uuidLength octets => "invalid UUID length: " ++ toString octets
  | .uuidFormat => "invalid UUID format"
  | .uuidScheme octets => "invalid urn prefix: " ++ Text.quoteOctets octets
  | .missingQueryType => "query: missing queryType"
  | .missingGranularity => "query: missing granularity"
  | .unsupportedFormat label => "document: unsupported format: " ++ label
  | .emptyDocument => "empty document"
  | .document _ .badCue => "<cue error>"
  | .document path cause => path ++ ": " ++ cause.message
  | .file action path fault => action ++ " " ++ path ++ ": " ++ fault.text
  | .settingMissing name => "invalid config: " ++ name ++ " is required"
  | .compile cause => cause.message
  | .within context cause => context ++ ": " ++ cause.message
  | .refused text => text

/-- The compiler's refusal inside an error, if that is the cause. -/
def compileCause? : Error → Option CompileError
  | .compile cause => some cause
  | .within _ cause => cause.compileCause?
  | .document _ cause => cause.compileCause?
  | .node _ _ cause => cause.compileCause?
  | _ => none

def nodeFault? : Error → Option (String × String × Error)
  | .node kind type cause => some (kind, type, cause)
  | .within _ cause => cause.nodeFault?
  | .document _ cause => cause.nodeFault?
  | _ => none

def cause : Error → Error
  | .within _ cause => cause.cause
  | .document _ cause => cause.cause
  | e => e

def isIncomplete (e : Error) : Bool :=
  e.cause = .missingQueryType || e.cause = .missingGranularity

def isMissingFile (e : Error) : Bool :=
  match e.cause with
  | .file _ _ fault => fault = .missing
  | _ => false

def isUnsupported (e : Error) : Bool :=
  match e.cause with
  | .unsupportedFormat _ => true
  | _ => false

def isDocument : Error → Bool
  | .document _ _ => true
  | .within _ cause => cause.isDocument
  | _ => false

end Error

end TenantQuery
