import ModelDispatcher.DataTypes

/-!
The exceptions a dispatch can meet: the library's own hierarchy, the exceptions of the
interpreter that library code can raise by itself, and arbitrary exceptions of vendor SDKs
and tools.
-/

namespace ModelDispatcher.Exceptions

open Lib.Text DataTypes

/-- A piece of an f-string; a `!r` hole keeps the string whose `repr` is printed. -/
inductive Piece
  | text (s : PyStr)
  | repr (s : PyStr)
  deriving DecidableEq

abbrev FString := List Piece

def lit (s : String) : Piece := .text (py s)

/-! ### The Stage-2 handoff -/

inductive HandoffAction
  | triggerKeyWizard | upgradePlan | retryLater
  deriving DecidableEq

structure HandoffResponse where
  error : PyStr
  provider : PyStr
  action : HandoffAction
  httpStatus : ℕ
  detail : Option PyStr
  deriving DecidableEq

namespace KeyWizardHandoff

def build (provider reason : PyStr) (rateWindow : Bool) (detail : Option PyStr) :
    HandoffResponse where
  error := reason
  provider := provider
  action := .triggerKeyWizard
  httpStatus := if rateWindow then 429 else 402
  detail := detail

end KeyWizardHandoff

/-! ### The library's exceptions -/

/-- `ModelDispatcherError` and its subclasses; the status and the code of the base class are
instance attributes that `_terminal_error` overrides. -/
inductive ModelDispatcherError
  | base (message : FString) (httpStatus : ℕ) (errorCode : PyStr)
  | perimeterViolation (message : FString)
  | authenticationError (message : FString)
  | rateLimitError (message : FString)
  | quotaExceededError (handoff : HandoffResponse)
  | allProvidersExhausted (message : FString)
  | noProviderAvailableError (message : FString)
  | dispatchTimeoutError (message : FString)
  | toolExecutionError (toolName : PyStr) (message : FString)
  deriving DecidableEq

/-! ### Everything else -/

/-- The exceptions of the interpreter that library code raises on some inputs. -/
inductive BuiltinError
  | unicodeEncodeError | keyError | valueError | overflowError | assertionError
  deriving DecidableEq

/-- An exception that is not the library's, raised by a provider or a tool: its class, its
`str` form, and the headers of its `response` attribute where it has one. -/
structure VendorError where
  typeName : PyStr
  text : PyStr
  headers : Option (List (PyStr × PyStr)) := none
  deriving DecidableEq

inductive PyException
  | library (e : ModelDispatcherError)
  | builtin (e : BuiltinError)
  | vendor (e : VendorError)
  deriving DecidableEq

def PyException.isLibrary : PyException → Bool
  | .library _ => true
  | _ => false

/-- What a provider call does. -/
inductive CallResult
  | returned (response : CompletionResponse)
  | raisedLibrary (e : ModelDispatcherError)
  | raised (e : VendorError)

def CallResult.failed : CallResult → Bool
  | .returned _ => false
  | _ => true

end ModelDispatcher.Exceptions
