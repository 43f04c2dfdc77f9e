import ModelDispatcher.Lib.Js

/-!
The data of the TypeScript client: what can be thrown, the handoffs of the gateway, and the outcomes
of a dispatch.
-/

namespace ModelDispatcher.GatewayClient

open Lib.Js

/-- A thrown value, as far as the client looks at it; of a value that is no `Error` it is
`String(value)`, which is missing where the conversion throws. -/
inductive Thrown
  | timeoutError (message : JsStr)
  | typeError (message : JsStr)
  | error (message : JsStr)
  | other (text : Option JsStr)
  deriving DecidableEq

def handoffActions : List JsStr := [js "trigger_key_wizard", js "upgrade_plan", js "retry_later"]

structure Handoff where
  error : JsStr
  provider : JsStr
  action : JsStr
  known : action ∈ handoffActions
  detail : Option JsValue

structure HandoffEvent where
  status : ℕ
  handoff : Handoff

structure GatewayError where
  error : JsStr
  detail : Option JsStr
  deriving DecidableEq

inductive NetworkErrorKind
  | timeout | offline | unknown
  deriving DecidableEq

structure NetworkError where
  kind : NetworkErrorKind
  message : JsStr
  cause : Thrown
  deriving DecidableEq

inductive DispatchOutcome
  | ok (result : JsValue)
  | handoff (status : ℕ) (handoff : Handoff)
  | error (status : ℕ) (error : GatewayError)
  | network (error : NetworkError)

end ModelDispatcher.GatewayClient
