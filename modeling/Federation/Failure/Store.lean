/-!
# Failures of the store

What can go wrong when documents are kept or fetched, and how the faults of the storage engine
become such failures.
-/

namespace Federation

inductive StoreError where
  | notFound (entity id : String)
  | duplicate (field value : String)
  | connectionFailed (reason : String)
  | migrationFailed (reason : String)
  | queryFailed (reason : String)
  | invalidDocument (reason : String)
  | poolExhausted
  | internal (reason : String)
  deriving DecidableEq, Repr

namespace StoreError

def message : StoreError → String
  | .notFound entity id => entity ++ " not found: " ++ id
  | .duplicate field value => "Duplicate " ++ field ++ ": '" ++ value ++ "' already exists"
  | .connectionFailed reason => "Connection failed: " ++ reason
  | .migrationFailed reason => "Migration failed: " ++ reason
  | .queryFailed reason => "Query failed: " ++ reason
  | .invalidDocument reason => "Invalid document: " ++ reason
  | .poolExhausted => "Connection pool exhausted"
  | .internal reason => "Internal database error: " ++ reason

/-- The store itself is out of reach, rather than the request being wrong. -/
def isUnavailable : StoreError → Bool
  | .connectionFailed _ | .poolExhausted => true
  | _ => false

end StoreError

inductive EngineFault where
  | rowNotFound
  | poolTimedOut
  | poolClosed
  | io (reason : String)
  | workerCrashed
  | undecodable (column : String)
  deriving DecidableEq, Repr

def StoreError.ofFault : EngineFault → StoreError
  | .rowNotFound => .notFound "Record" "unknown"
  | .poolTimedOut => .poolExhausted
  | .poolClosed => .connectionFailed "Pool is closed"
  | .io reason => .connectionFailed reason
  | .workerCrashed => .internal "attempted to communicate with a crashed background worker"
  | .undecodable column => .internal ("error occurred while decoding column " ++ column)

end Federation
