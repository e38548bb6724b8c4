import Federation.Text.Quoted

/-!
# Refused input

Input that is well formed but means nothing here. It is refused before anything is changed.
-/

namespace Federation

inductive ValidationError where
  | required (field : String)
  | invalidFormat (field reason : String)
  | notAllowed (field : String) (allowed : List String)
  | unsupportedOperation (operation : String)
  | unsupportedPath (path : String)
  | unsupportedStatus (status : String)
  deriving DecidableEq, Repr

def ValidationError.message : ValidationError → String
  | .required field => field ++ " is required"
  | .invalidFormat field reason => field ++ " has invalid format: " ++ reason
  | .notAllowed field allowed => field ++ " must be one of: " ++ Text.quotedList allowed
  | .unsupportedOperation operation => "Unsupported operation '" ++ operation ++ "'"
  | .unsupportedPath path => "Unsupported path value '" ++ path ++ "'"
  | .unsupportedStatus status => "Unsupported status value '" ++ status ++ "'"

end Federation
