import LiveDocs.Json.Printer
import LiveDocs.Reference

/-!
# Errors

A store reports a `StoreError`: a code, a message and, if it sent one, a structured payload. Every
failure that ends a pass over an operation is an `EngineError`, which names its cause; the wording
is in the `message` functions. `EngineError.isBenign` tells abort signals from failures.
-/

namespace LiveDocs

/-- The kind of a store's failure. -/
inductive StoreErrorCode where
  | invalidArgument
  | notFound
  | alreadyExists
  | failedPrecondition
  | outOfRange
  | permissionDenied
  | unauthenticated
  | unavailable
  | deadlineExceeded
  | resourceExhausted
  | aborted
  | cancelled
  | internal
  | unknown
  deriving DecidableEq

namespace StoreErrorCode

/-- All codes. -/
def all : List StoreErrorCode :=
  [invalidArgument, notFound, alreadyExists, failedPrecondition, outOfRange, permissionDenied,
    unauthenticated, unavailable, deadlineExceeded, resourceExhausted, aborted, cancelled, internal,
    unknown]

/-- The code as it is written. -/
def name : StoreErrorCode → String
  | invalidArgument => "INVALID_ARGUMENT"
  | notFound => "NOT_FOUND"
  | alreadyExists => "ALREADY_EXISTS"
  | failedPrecondition => "FAILED_PRECONDITION"
  | outOfRange => "OUT_OF_RANGE"
  | permissionDenied => "PERMISSION_DENIED"
  | unauthenticated => "UNAUTHENTICATED"
  | unavailable => "UNAVAILABLE"
  | deadlineExceeded => "DEADLINE_EXCEEDED"
  | resourceExhausted => "RESOURCE_EXHAUSTED"
  | aborted => "ABORTED"
  | cancelled => "CANCELLED"
  | internal => "INTERNAL"
  | unknown => "UNKNOWN"

/-- The code written like this. -/
def ofName? (s : String) : Option StoreErrorCode := all.find? (·.name == s)

theorem ofName?_name (c : StoreErrorCode) : ofName? c.name = some c := by cases c <;> rfl

/-- The same request may succeed when it is made again. -/
def isRetryable : StoreErrorCode → Bool
  | unavailable | deadlineExceeded | resourceExhausted => true
  | _ => false

/-- The request itself was rejected. -/
def isClientError : StoreErrorCode → Bool
  | invalidArgument | notFound | alreadyExists | failedPrecondition | outOfRange
  | permissionDenied | unauthenticated => true
  | _ => false

/-- The code is an abort signal. -/
def isAbort : StoreErrorCode → Bool
  | aborted | cancelled => true
  | _ => false

end StoreErrorCode

/-- A failure reported by a store. -/
structure StoreError where
  code : StoreErrorCode
  text : String
  details : Option Json

namespace StoreError

/-- The request was malformed. -/
def invalidArgument (text : String) : StoreError := ⟨.invalidArgument, text, none⟩

/-- Something the request needs does not exist. -/
def notFound (text : String) : StoreError := ⟨.notFound, text, none⟩

/-- The code and the text of an error. -/
def message (e : StoreError) : String := "[" ++ e.code.name ++ "] " ++ e.text

end StoreError

/-- What a directive argument has to be. -/
inductive ArgumentShape where
  | string
  | boolean
  | stringList

/-- A shape with its article. -/
def ArgumentShape.text : ArgumentShape → String
  | string => "a string"
  | boolean => "a boolean"
  | stringList => "a list of strings"

/-- What a query argument has to be once its placeholders are replaced. -/
inductive QueryShape where
  | documentId
  | filterList
  | filter
  | ordering
  | count

/-- A shape as it is described to the author of an operation. -/
def QueryShape.text : QueryShape → String
  | documentId => "a document id"
  | filterList => "a list of filters"
  | filter => "\x7bfieldPath, op, val\x7d"
  | ordering => "\x7bfieldPath, direction: asc|desc\x7d"
  | count => "a non-negative integer"

/-- A directive argument is missing or has the wrong shape. -/
inductive ConfigError where
  | rootTypeMissing
  | mutationTypeMissing
  | unknownName (place name : String)
  | argument (directive name : String) (expected : ArgumentShape) (got : Json)
  | exportKey (got : Json)
  | queryArgument (name : String) (expected : QueryShape) (got : Json)
  | payloadMissing (name : String)
  | payloadNotObject (got : Json)
  | idMissing (type : MutationType) (collection : CollectionRef)
  | other (text : String)

/-- The wording of a configuration error. -/
def ConfigError.text : ConfigError → String
  | rootTypeMissing => "rootType is required"
  | mutationTypeMissing => "mutationType is required"
  | unknownName place name => "unknown " ++ place ++ " `" ++ name ++ "`"
  | argument directive name expected got =>
    "@" ++ directive ++ "(" ++ name ++ ":) must be " ++ expected.text ++ ", got " ++ got.compact
  | exportKey got => "@field key must be a string or true, got " ++ got.compact
  | queryArgument name expected got =>
    name ++ " must be " ++ expected.text ++ ", got " ++ got.compact
  | payloadMissing name => "no mutation payload: set dataArg or pass `" ++ name ++ "`"
  | payloadNotObject got => "mutation payload must be an object, got " ++ got.compact
  | idMissing type collection =>
    type.title ++ " on collection `" ++ collection.toString ++
      "` needs a string `id` in the payload"
  | other text => text

/-- A mutation that does not fit the kind of its target. -/
inductive MutationError where
  | needsDocument (type : MutationType) (collection : CollectionRef)
  | needsCollection (document : DocumentRef)
  | other (text : String)

/-- The wording of a mutation error. -/
def MutationError.text : MutationError → String
  | needsDocument type collection =>
    type.title ++ " needs a document, but `" ++ collection.toString ++ "` is a collection"
  | needsCollection document =>
    "Add needs a collection, but `" ++ document.toString ++ "` is a document"
  | other text => text

/-- A failure that ends a pass over an operation. -/
inductive EngineError where
  | config (cause : ConfigError)
  | invalidMutation (cause : MutationError)
  | resolution (field text : String)
  | store (cause : StoreError)
  | aborted

namespace EngineError

/-- A field has neither a directive nor a document to read from. -/
def noContext (field : String) : EngineError := .resolution field "no snapshot or directive"

/-- The wording of an error. -/
def message : EngineError → String
  | config cause => "configuration error: " ++ cause.text
  | invalidMutation cause => "invalid mutation: " ++ cause.text
  | resolution field text => "resolution error on `" ++ field ++ "`: " ++ text
  | store cause => "backend error: " ++ cause.message
  | aborted => "operation aborted"

/-- Abort signals are not failures. -/
def isBenign : EngineError → Bool
  | aborted => true
  | store cause => cause.code.isAbort
  | _ => false

end EngineError

end LiveDocs
