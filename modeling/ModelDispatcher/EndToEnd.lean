import ModelDispatcher.ErrorDecoding
import ModelDispatcher.Pipeline

/-!
One dispatch of the TypeScript client against the Python pipeline, over a network that may lose
requests and responses.

The server keeps its quota state between the requests that reach it; other callers may change that
state at any time. A request is only ever repeated after an error of the server has come back, so
the server answers a dispatch of the client with success at most once, whatever is lost.
-/

namespace ModelDispatcher.EndToEnd

open Lib.Text Lib.Binary64 Lib.Json Lib.Dicts Lib.Logged Lib.Js Lib.Promises DataTypes Exceptions
open Payloads Pipeline GatewayClient ClientOutcomes ErrorDecoding

/-! ### The network -/

/-- The event is a request that was sent. -/
def isFetch : Event → Bool
  | .fetched _ _ => true
  | _ => false

/-- What becomes of a request and of the response to it. -/
inductive Fate
  /-- The server handles the request, and the head of its response comes back; reading the body
  may still fail. -/
  | delivered (read : Settled Thrown Unit)
  /-- The attempt fails, before or after the server has handled the request. -/
  | lost (arrives timedOut : Bool) (e : Thrown)
  /-- The attempt never settles. -/
  | hangs (arrives : Bool)

def Fate.arrives : Fate → Bool
  | .delivered _ => true
  | .lost arrives _ _ => arrives
  | .hangs arrives => arrives

/-- What the HTTP layer hands to the pipeline. -/
structure Received where
  appCheckToken : Option PyStr
  authorizationHeader : Option PyStr
  rawBody : Bytes

/-- The response to a request the pipeline raised on; it is no success. -/
structure Crash where
  response : Response
  text : JsStr
  failed : response.ok = false

abbrev Answer := Except PyException (ℕ × JSONObject)

/-- Everything between `fetch` and the store, by the number of the request. -/
structure Network where
  receive : FetchRequest → Received
  collaborators : ℕ → Collaborators
  /-- What other callers do to the quota state before the request is handled. -/
  others : ℕ → Quota.QuotaState → Quota.QuotaState
  fate : ℕ → Fate
  crash : ℕ → PyException → Crash

namespace Network

variable (net : Network)

/-- The pipeline on the `n`-th request. -/
def handled (n : ℕ) (q : Quota.QuotaState) (request : FetchRequest) :
    EStateM.Result PyException Machines.Machine (ℕ × JSONObject) :=
  let received := net.receive request
  served (net.collaborators n) received.appCheckToken received.authorizationHeader
    received.rawBody (net.others n q)

/-- The requests seen so far, and the quota state they leave. -/
def after (q : Quota.QuotaState) (log : List Event) : ℕ × Quota.QuotaState :=
  log.foldl (fun (n, q) e => match e with
    | .fetched request _ =>
      (n + 1, if (net.fate n).arrives then (finalState (net.handled n q request)).quota
        else net.others n q)
    | _ => (n, q)) (0, q)

variable (q : Quota.QuotaState)

/-- The answer of the pipeline to a request, where the request gets there. -/
def answered (log : List Event) (request : FetchRequest) : Option Answer :=
  let (n, q) := net.after q log
  if (net.fate n).arrives then some (answer (net.handled n q request)) else none

/-- The response of the server to a request it answers. -/
def respond (n : ℕ) : Answer → Response
  | .ok (status, _) => ⟨status⟩
  | .error e => (net.crash n e).response

def bodyText (n : ℕ) : Answer → JsStr
  | .ok (_, body) => wire body
  | .error e => (net.crash n e).text

def fetch (log : List Event) (request : FetchRequest) : Transport :=
  let (n, q) := net.after q log
  match net.fate n with
  | .delivered _ => ⟨false, .fulfilled (net.respond n (answer (net.handled n q request)))⟩
  | .lost _ timedOut e => ⟨timedOut, .rejected e⟩
  | .hangs _ => ⟨false, .pending⟩

/-- The answers of the pipeline to the requests among some events, in order, each with the number
of its request. -/
def dispatches (log : List Event) : List Event → List (ℕ × Answer)
  | [] => []
  | e :: es => (match e with
      | .fetched request _ =>
        (net.answered q log request).toList.map ((net.after q log).1, ·)
      | _ => []) ++ dispatches (log ++ [e]) es

/-- Reading the body of the last response. -/
def text (log : List Event) : Settled Thrown JsStr :=
  match (net.dispatches q [] log).getLast? with
  | some (n, a) => match net.fate n with
    | .delivered (.fulfilled ()) => .fulfilled (net.bodyText n a)
    | .delivered (.rejected e) => .rejected e
    | _ => .pending
  | none => .pending

/-! ### The requests among some events -/

variable {net q} {log es fs : List Event}

@[simp] lemma dispatches_append : net.dispatches q log (es ++ fs) =
    net.dispatches q log es ++ net.dispatches q (log ++ es) fs := by
  induction es generalizing log with
  | nil => simp [dispatches]
  | cons e es ih =>
    simp only [List.cons_append, dispatches, ih, List.append_assoc, List.nil_append]

lemma dispatches_eq_nil (h : ∀ e ∈ es, isFetch e = false) : net.dispatches q log es = [] := by
  induction es generalizing log with
  | nil => rfl
  | cons e es ih =>
    have he : isFetch e = false := h e (by simp)
    unfold dispatches
    rw [ih fun e' he' => h e' (by simp [he'])]
    cases e <;> first | rfl | cases he

/-- The head of the response to a request came back. -/
def CameBack (net : Network) (n : ℕ) : Prop := ∃ read, net.fate n = .delivered read

/-- A response that comes back is the server's to the one request it is about. -/
lemma answered_of_fetch {request : FetchRequest} {response : Response}
    (h : (net.fetch q log request).response = .fulfilled response) :
    ∃ a, net.answered q log request = some a ∧ net.CameBack (net.after q log).1 ∧
      net.respond (net.after q log).1 a = response := by
  unfold fetch at h
  unfold answered
  generalize net.after q log = x at h ⊢
  obtain ⟨n, q'⟩ := x
  dsimp only at h ⊢
  cases hfate : net.fate n with
  | delivered read =>
    rw [hfate] at h
    exact ⟨_, if_pos rfl, ⟨read, hfate⟩, Settled.fulfilled.inj h⟩
  | lost arrives timedOut e => rw [hfate] at h; cases h
  | hangs arrives => rw [hfate] at h; cases h

end Network

/-! ### Sending -/

section

variable (net : Network) (q : Quota.QuotaState)

/-- What a part of the client that sends requests does: it stops at the first response not to be
retried, and hands on the last one. The requests are the same but for the text of the body. -/
structure Sent (policy : RetryPolicy) (config : GatewayRequestConfig) (few : ℕ → Prop)
    (log es : List Event) (r : EStateM.Result (Halt Thrown) (List Event) Response) : Prop where
  bounded : few (net.dispatches q log es).length
  retried : ∀ x ∈ (net.dispatches q log es).dropLast, net.CameBack x.1 ∧
    policy.retryableStatuses.contains (net.respond x.1 x.2).status
  uniform : ∀ request transport, Event.fetched request transport ∈ es →
    ∃ text, request = requestOf config text
  returned : ∀ response t, r = .ok response t → ∃ x, (net.dispatches q log es).getLast? = some x ∧
    net.CameBack x.1 ∧ net.respond x.1 x.2 = response

/-- At most one. -/
def One (k : ℕ) : Prop := k ≤ 1

/-- After some attempts there are not more than a retry policy allows, if its bound is one that the
counter of the loop can reach. -/
def Few (policy : RetryPolicy) (attempt k : ℕ) : Prop :=
  ∀ n, attempt ≤ n → n ≤ 2 ^ 53 → ¬ (ofRat n).lt policy.maxRetries → k + attempt ≤ 1 + n

lemma One.few {policy : RetryPolicy} {attempt k : ℕ} (h : One k) : Few policy attempt k := by
  intro n hattempt _ _
  unfold One at h
  omega

/-- A retry uses up one of those that are allowed. -/
lemma Few.succ {policy : RetryPolicy} {attempt k : ℕ} {response : Response}
    (hretries : policy.retries attempt response) (h : Few policy (increment attempt) k) :
    Few policy attempt (k + 1) := by
  intro n hattempt hn hlast
  have hlt : attempt < n := by
    refine hattempt.lt_of_ne fun heq => hlast ?_
    exact heq ▸ (Bool.and_eq_true_iff.mp hretries).2
  have hnext : increment attempt = attempt + 1 := if_pos (hlt.trans_le hn)
  have hrest := h n (by omega) hn hlast
  omega

variable {net q} {policy : RetryPolicy} {config : GatewayRequestConfig} {few : ℕ → Prop}

/-- A part that sends nothing and returns nothing. -/
lemma Sent.of_none {log es : List Event} {r : EStateM.Result (Halt Thrown) (List Event) Response}
    (hfew : few 0) (hes : ∀ e ∈ es, isFetch e = false) (hr : ∀ response t, r ≠ .ok response t) :
    Sent net q policy config few log es r where
  bounded := by simpa [Network.dispatches_eq_nil hes] using hfew
  retried := by simp [Network.dispatches_eq_nil hes]
  uniform := fun request transport h => by cases hes _ h
  returned := fun response t h => absurd h (hr response t)

/-- One request, whose response is handed on if it comes back. -/
lemma Sent.of_fetch {log : List Event} {text : Option JsStr} {transport : Transport}
    {r : EStateM.Result (Halt Thrown) (List Event) Response}
    (htransport : net.fetch q (log ++ [.serialised (.fulfilled text)]) (requestOf config text) =
      transport)
    (hr : ∀ response t, r = .ok response t → transport.response = .fulfilled response) :
    Sent net q policy config One log
      [.serialised (.fulfilled text), .fetched (requestOf config text) transport] r := by
  have hmade : net.dispatches q log [.serialised (.fulfilled text),
      .fetched (requestOf config text) transport] =
      (net.answered q (log ++ [.serialised (.fulfilled text)])
        (requestOf config text)).toList.map
          ((net.after q (log ++ [.serialised (.fulfilled text)])).1, ·) := by
    simp [Network.dispatches]
  have hle : (net.dispatches q log [.serialised (.fulfilled text),
      .fetched (requestOf config text) transport]).length ≤ 1 := by
    rw [hmade, List.length_map]
    exact Option.length_toList_le
  refine ⟨hle, ?_, ?_, ?_⟩
  · have hnil : (net.dispatches q log [.serialised (.fulfilled text),
        .fetched (requestOf config text) transport]).dropLast = [] := by
      rw [← List.length_eq_zero_iff, List.length_dropLast]
      omega
    simp [hnil]
  · intro request transport' h
    simp only [List.mem_cons, List.not_mem_nil, reduceCtorEq, Event.fetched.injEq, false_or,
      or_false] at h
    exact ⟨text, h.1⟩
  · intro response t h
    obtain ⟨a, hanswered, hback, hrespond⟩ :=
      Network.answered_of_fetch (htransport ▸ hr response t h)
    exact ⟨(_, a), by rw [hmade, hanswered]; rfl, hback, hrespond⟩

/-- One attempt under its deadline. -/
lemma sent_attempt (body : Body) (log : List Event) :
    Emits id (timeoutInterceptor.intercept config (terminal (net.fetch q) body)) log
      (Sent net q policy config One log) := by
  unfold Emits EStateM.run
  cases hbody : body log with
  | error e =>
    rw [run_timeout_rejected (run_terminal_error hbody)]
    exact ⟨_, rfl, .of_none (Nat.zero_le _) (by simp [isFetch]) (fun _ _ => nofun)⟩
  | ok text =>
    have hterminal : terminal (net.fetch q) body config log = _ := run_terminal_ok hbody rfl
    rw [List.append_assoc] at hterminal
    generalize htransport : net.fetch q _ _ = transport at hterminal
    obtain ⟨late, response⟩ := transport
    cases response with
    | fulfilled response =>
      rw [run_timeout_ok hterminal]
      exact ⟨_, rfl, .of_fetch htransport fun response' t h => by cases h; rfl⟩
    | rejected e =>
      rw [run_timeout_rejected hterminal]
      exact ⟨_, rfl, .of_fetch htransport fun _ _ => nofun⟩
    | pending =>
      rw [run_timeout_pending hterminal]
      exact ⟨_, rfl, .of_fetch htransport fun _ _ => nofun⟩

/-! ### The loop -/

/-- An attempt whose response is to be retried, and what is sent after the delay. -/
lemma Sent.cons {few' : ℕ → Prop} {log es ds fs : List Event} {response : Response} {t : List Event}
    {r : EStateM.Result (Halt Thrown) (List Event) Response}
    (hes : Sent net q policy config One log es (.ok response t))
    (hretry : policy.retryableStatuses.contains response.status)
    (hds : ∀ e ∈ ds, isFetch e = false) (hfew : ∀ k, few k → few' (k + 1))
    (hfs : Sent net q policy config few (log ++ es ++ ds) fs r) :
    Sent net q policy config few' log (es ++ (ds ++ fs)) r := by
  obtain ⟨x, hlast, hback, hrespond⟩ := hes.returned response t rfl
  have hone : net.dispatches q log es = [x] := by
    have hbounded : (net.dispatches q log es).length ≤ 1 := hes.bounded
    generalize net.dispatches q log es = made at hlast hbounded
    match made, hbounded, hlast with
    | [y], _, h => exact congrArg (fun z => [z]) (Option.some.inj h)
  have hmade : net.dispatches q log (es ++ (ds ++ fs)) =
      x :: net.dispatches q (log ++ es ++ ds) fs := by
    rw [Network.dispatches_append, Network.dispatches_append, hone,
      Network.dispatches_eq_nil hds]
    rfl
  constructor
  · rw [hmade, List.length_cons]
    exact hfew _ hfs.bounded
  · rw [hmade]
    intro y hy
    cases hrest : net.dispatches q (log ++ es ++ ds) fs with
    | nil => rw [hrest] at hy; cases hy
    | cons z rest =>
      rw [hrest, List.dropLast_cons_cons, List.mem_cons] at hy
      rcases hy with rfl | hy
      · rw [hrespond]
        exact ⟨hback, hretry⟩
      · exact hfs.retried y (by rw [hrest]; exact hy)
  · intro request transport h
    rcases List.mem_append.mp h with h | h
    · exact hes.uniform _ _ h
    · rcases List.mem_append.mp h with h | h
      · cases hds _ h
      · exact hfs.uniform _ _ h
  · intro response' t' h
    obtain ⟨y, hy, hend⟩ := hfs.returned response' t' h
    refine ⟨y, ?_, hend⟩
    rw [hmade, List.getLast?_cons, hy]
    rfl

/-- An attempt after which nothing more is sent. -/
lemma Sent.last {log es ds : List Event}
    {r r' : EStateM.Result (Halt Thrown) (List Event) Response}
    (hes : Sent net q policy config One log es r) (hfew : ∀ k, One k → few k)
    (hds : ∀ e ∈ ds, isFetch e = false)
    (hr : ∀ response t, r' = .ok response t → ∃ t', r = .ok response t') :
    Sent net q policy config few log (es ++ ds) r' := by
  have hmade : net.dispatches q log (es ++ ds) = net.dispatches q log es := by
    rw [Network.dispatches_append, Network.dispatches_eq_nil hds, List.append_nil]
  constructor
  · rw [hmade]
    exact hfew _ hes.bounded
  · rw [hmade]
    exact hes.retried
  · intro request transport h
    rcases List.mem_append.mp h with h | h
    · exact hes.uniform _ _ h
    · cases hds _ h
  · intro response t h
    obtain ⟨t', hr'⟩ := hr response t h
    rw [hmade]
    exact hes.returned response t' hr'

section

variable (runtime : Runtime) (options : RetryOptions)

lemma emitsOnly_sleep (attempt : ℕ) :
    EmitsOnly id (fun e => isFetch e = false) (options.sleep runtime policy attempt) :=
  emitsOnly_bind emitsOnly_get fun _ =>
    emitsOnly_bind (emitsOnly_note rfl) fun _ => emitsOnly_await _

/-- The attempts of the loop, by induction on the fuel. -/
lemma sent_tries (next : Send)
    (hnext : ∀ log, Emits id (next config) log (Sent net q policy config One log)) (fuel : ℕ) :
    ∀ attempt log, Emits id
      (next config >>= retryLoop runtime options policy config next fuel attempt) log
      (Sent net q policy config (Few policy attempt) log) := by
  have hone : ∀ {attempt k}, One k → Few policy attempt k := fun h => h.few
  induction fuel with
  | zero =>
    intro attempt log
    refine emits_bind (hnext log) (fun es response t h => ?_) fun es e t h => ?_
    · unfold retryLoop
      split_ifs
      · exact emits_throw (h.last (fun k => hone) (by simp) fun _ _ h => by cases h)
      · exact emits_pure (h.last (fun k => hone) (by simp) fun _ _ h => ⟨_, h⟩)
    · simpa using h.last (fun k => hone) (List.forall_mem_nil _) fun _ _ h => ⟨_, h⟩
  | succ fuel ih =>
    intro attempt log
    refine emits_bind (hnext log).located ?_ fun es e t h => ?_
    · rintro es response t ⟨h, ht⟩
      unfold retryLoop
      split_ifs with hretries
      · refine emits_bind (emitsOnly_sleep runtime options attempt t).located ?_ ?_
        · rintro ds _ t' ⟨hds, ht'⟩
          refine (ih (increment attempt) t').mono fun fs r hfs => ?_
          refine h.cons (Bool.and_eq_true_iff.mp hretries).1 hds (fun k => Few.succ hretries) ?_
          rwa [show t' = log ++ es ++ ds by simp_all] at hfs
        · rintro ds e t' ⟨hds, -⟩
          exact h.last (fun k => hone) hds fun _ _ h => by cases h
      · exact emits_pure (h.last (fun k => hone) (by simp) fun _ _ h => ⟨_, h⟩)
    · simpa using h.1.last (fun k => hone) (List.forall_mem_nil _) fun _ _ h => ⟨_, h⟩

/-! ### The chain -/

/-- Events before anything is sent. -/
lemma Sent.after {log ds fs : List Event}
    {r : EStateM.Result (Halt Thrown) (List Event) Response} (hds : ∀ e ∈ ds, isFetch e = false)
    (hfs : Sent net q policy config few (log ++ ds) fs r) :
    Sent net q policy config few log (ds ++ fs) r := by
  have hmade : net.dispatches q log (ds ++ fs) = net.dispatches q (log ++ ds) fs := by
    rw [Network.dispatches_append, Network.dispatches_eq_nil hds, List.nil_append]
  refine ⟨hmade ▸ hfs.bounded, hmade ▸ hfs.retried, ?_, hmade ▸ hfs.returned⟩
  intro request transport h
  rcases List.mem_append.mp h with h | h
  · cases hds _ h
  · exact hfs.uniform _ _ h

/-- From every configuration and log, requests are sent that differ in their body at most. -/
def Sends (net : Network) (q : Quota.QuotaState) (policy : RetryPolicy) (send : Send) : Prop :=
  ∀ config log, Emits id (send config) log fun es r =>
    ∃ config', Sent net q policy config' (Few policy 0) log es r

lemma sends_token {header : JsStr} {value : JsStr → JsStr} {provider : TokenProvider}
    {next : Send} (h : Sends net q policy next) :
    Sends net q policy fun config =>
      (tokenInterceptor header value provider).intercept config next := by
  intro config log
  refine emits_get ?_
  rw [← bind_assoc]
  have htoken : EmitsOnly id (fun e => isFetch e = false)
      (note (.token header (provider log)) >>= fun _ => await (provider log) :
        Client (Option JsStr)) :=
    emitsOnly_bind (emitsOnly_note rfl) fun _ => emitsOnly_await _
  refine emits_bind (htoken log).located ?_ ?_
  · rintro ds token t ⟨hds, ht⟩
    obtain rfl : t = log ++ ds := by simpa using ht
    have hafter : ∀ config, Emits id (next config) (log ++ ds) fun fs r =>
        ∃ config', Sent net q policy config' (Few policy 0) log (ds ++ fs) r := fun config =>
      (h config (log ++ ds)).mono fun fs r ⟨config', hfs⟩ => ⟨config', hfs.after hds⟩
    split
    · exact hafter _
    · exact hafter _
    · exact hafter _
  · rintro ds e t ⟨hds, -⟩
    exact ⟨config, .of_none (One.few (Nat.zero_le _)) hds fun _ _ => nofun⟩

/-- The policy the retries of a client follow. -/
def policyOf (options : GatewayClientOptions) : RetryPolicy :=
  (options.retry.getD {}).policy.getD defaultRetryPolicy

lemma sends_send {options : GatewayClientOptions} (body : Body)
    (hfetch : options.fetchImpl.getD runtime.fetch = net.fetch q) (fuel : ℕ) :
    Sends net q (policyOf options) (options.send runtime body fuel) := by
  have hretry : Sends net q (policyOf options) fun config =>
      (retryInterceptor runtime (options.retry.getD {}) fuel).intercept config fun config =>
        timeoutInterceptor.intercept config (terminal (net.fetch q) body) := by
    intro config log
    have htries := @sent_tries net q (policyOf options) config runtime (options.retry.getD {})
      (fun config => timeoutInterceptor.intercept config (terminal (net.fetch q) body))
      (fun log => sent_attempt body log) fuel 0 log
    exact htries.mono fun es r hes => ⟨config, hes⟩
  unfold GatewayClientOptions.send GatewayClientOptions.chain compose
  rw [hfetch]
  cases options.appCheckTokenProvider with
  | none =>
    cases options.authTokenProvider with
    | none => exact hretry
    | some auth => exact sends_token hretry
  | some appCheck =>
    cases options.authTokenProvider with
    | none => exact sends_token hretry
    | some auth => exact sends_token (sends_token hretry)

end

end

/-! ### A dispatch -/

/-- The pipeline answered with success. -/
def Succeeded : ℕ × Answer → Prop
  | (_, .ok (status, _)) => 200 ≤ status ∧ status ≤ 299
  | (_, .error _) => False

instance : DecidablePred Succeeded := fun x => by
  obtain ⟨n, a⟩ := x
  cases a with
  | ok v => exact inferInstanceAs (Decidable (_ ∧ _))
  | error e => exact .isFalse id

/-- The client talks to the network, and reads the body of the last response. -/
structure Connected (net : Network) (q : Quota.QuotaState) (runtime : Runtime)
    (options : GatewayClientOptions) : Prop where
  fetch : options.fetchImpl.getD runtime.fetch = net.fetch q
  text : runtime.text = net.text q

/-- What a dispatch of the client leads to on the server. -/
structure Answered (net : Network) (q : Quota.QuotaState) (runtime : Runtime)
    (policy : RetryPolicy) (log es : List Event)
    (r : EStateM.Result (Halt Thrown) (List Event) DispatchOutcome) : Prop where
  /-- The pipeline runs once, and once more for every retry at most. -/
  bounded : ∀ n : ℕ, n ≤ 2 ^ 53 → ¬ (ofRat n).lt policy.maxRetries →
    (net.dispatches q log es).length ≤ 1 + n
  /-- Only a response that came back with a status to be retried is followed by another run. -/
  retried : ∀ x ∈ (net.dispatches q log es).dropLast, net.CameBack x.1 ∧
    (net.respond x.1 x.2).status ∈ policy.retryableStatuses
  /-- At most one run succeeds, unless a success is to be retried. -/
  once : (∀ status ∈ policy.retryableStatuses, ¬ (200 ≤ status ∧ status ≤ 299)) →
    ((net.dispatches q log es).filter fun x => Succeeded x).length ≤ 1
  /-- All requests are the same but for their bodies. -/
  uniform : ∃ config, ∀ request transport, Event.fetched request transport ∈ es →
    ∃ text, request = requestOf config text
  /-- A success that is reported is the last run's, with its body. -/
  reported : ∀ result t, r = .ok (.ok result) t → ∃ n status body,
    (net.dispatches q log es).getLast? = some (n, .ok (status, body)) ∧
      Succeeded (n, .ok (status, body)) ∧
      result = (runtime.parse (wire body)).getD .undefined

section

variable {net : Network} {q : Quota.QuotaState} {runtime : Runtime} {policy : RetryPolicy}
variable {config : GatewayRequestConfig}

/-- What the decoder does after the requests is no request. -/
lemma isFetch_of_not_sending {e : Event} (h : sending e = false) : isFetch e = false := by
  cases e <;> first | rfl | cases h

/-- Runs that were all answered with a status to be retried, but for the last one. -/
lemma length_filter_succeeded {made : List (ℕ × Answer)}
    (hpolicy : ∀ status ∈ policy.retryableStatuses, ¬ (200 ≤ status ∧ status ≤ 299))
    (h : ∀ x ∈ made.dropLast, net.CameBack x.1 ∧
      policy.retryableStatuses.contains (net.respond x.1 x.2).status) :
    (made.filter fun x => Succeeded x).length ≤ 1 := by
  have hnone : made.dropLast.filter (fun x => Succeeded x) = [] := by
    refine List.filter_eq_nil_iff.mpr fun x hx => ?_
    have hretry := List.contains_iff_mem.mp (h x hx).2
    rw [decide_eq_true_iff]
    obtain ⟨n, a⟩ := x
    cases a with
    | ok v => exact hpolicy _ hretry
    | error e => exact id
  cases hmade : made.getLast? with
  | none => simp [List.getLast?_eq_none_iff.mp hmade]
  | some x =>
    rw [← List.dropLast_append_getLast? x hmade, List.filter_append, hnone, List.nil_append]
    exact List.length_filter_le _ _

/-- The value of a body that was read. -/
def parsed (runtime : Runtime) (text : JsStr) : JsValue :=
  if text = [] then .undefined else (runtime.parse text).getD .undefined

/-- Reading the body: its value, if the text arrives. -/
lemma readJson_ok {s t : List Event} {v : JsValue} (h : (readJson runtime).run s = .ok v t) :
    ∃ text, runtime.text s = .fulfilled text ∧ v = parsed runtime text := by
  unfold EStateM.run readJson at h
  rw [get_bind] at h
  cases hpromise : runtime.text s with
  | fulfilled text =>
    rw [hpromise] at h
    refine ⟨text, rfl, ?_⟩
    cases text with
    | nil =>
      cases h
      rfl
    | cons c text =>
      cases h
      simp [parsed]
  | rejected e => rw [hpromise] at h; cases h
  | pending => rw [hpromise] at h; cases h

/-- A success that the decoder reports is the body of a response that is one. -/
lemma decodeOutcome_ok {response : Response} {bus : Bus} {fuel : ℕ} {s t : List Event}
    {result : JsValue} (h : (decodeOutcome runtime response bus fuel).run s = .ok (.ok result) t) :
    response.ok ∧ ∃ text, runtime.text s = .fulfilled text ∧ result = parsed runtime text := by
  unfold decodeOutcome at h
  rw [EStateM.run_bind] at h
  cases hread : (readJson runtime).run s with
  | error e t => rw [hread] at h; cases h
  | ok v t' =>
    rw [hread] at h
    dsimp only at h
    split_ifs at h with hok
    · cases h
      exact ⟨hok, readJson_ok hread⟩
    · split at h
      · rw [EStateM.run_bind] at h
        cases hpublish : (publish bus _ fuel).run t' with
        | error e t => rw [hpublish] at h; cases h
        | ok u t => rw [hpublish] at h; cases h
      · cases h

/-- The text of the last response, when the pipeline answered with success. -/
lemma reported_of_last {options : GatewayClientOptions} {log es : List Event} {n : ℕ} {a : Answer}
    {text : JsStr} (hconnected : Connected net q runtime options)
    (hlast : (net.dispatches q log es).getLast? = some (n, a)) (hok : (net.respond n a).ok)
    (htext : runtime.text (log ++ es) = .fulfilled text) :
    ∃ status body, a = .ok (status, body) ∧ Succeeded (n, a) ∧
      parsed runtime text = (runtime.parse (wire body)).getD .undefined := by
  have hall : (net.dispatches q [] (log ++ es)).getLast? = some (n, a) := by
    rw [Network.dispatches_append, List.getLast?_append, List.nil_append, hlast]
    rfl
  rw [hconnected.text, Network.text, hall] at htext
  dsimp only at htext
  cases a with
  | error e =>
    rw [Network.respond, (net.crash n e).failed] at hok
    cases hok
  | ok v =>
    obtain ⟨status, body⟩ := v
    have hsucceeded : Succeeded (n, .ok (status, body)) := by
      obtain ⟨hlow, hhigh⟩ := Bool.and_eq_true _ _ ▸ hok
      exact ⟨of_decide_eq_true hlow, of_decide_eq_true hhigh⟩
    refine ⟨status, body, rfl, hsucceeded, ?_⟩
    cases hfate : net.fate n with
    | delivered read =>
      rw [hfate] at htext
      cases read with
      | fulfilled u =>
        cases htext
        rw [parsed, Network.bodyText, if_neg (wire_ne_nil body)]
      | rejected e => cases htext
      | pending => cases htext
    | lost arrives timedOut e => rw [hfate] at htext; cases htext
    | hangs arrives => rw [hfate] at htext; cases htext

/-- What is sent, and what happens after it. -/
lemma Sent.answered {log es fs : List Event}
    {r' : EStateM.Result (Halt Thrown) (List Event) Response}
    {r : EStateM.Result (Halt Thrown) (List Event) DispatchOutcome}
    (hes : Sent net q policy config (Few policy 0) log es r')
    (hfs : ∀ e ∈ fs, isFetch e = false)
    (hreported : ∀ result t, r = .ok (.ok result) t → ∃ n status body,
      (net.dispatches q log es).getLast? = some (n, .ok (status, body)) ∧
        Succeeded (n, .ok (status, body)) ∧
        result = (runtime.parse (wire body)).getD .undefined) :
    Answered net q runtime policy log (es ++ fs) r := by
  have hmade : net.dispatches q log (es ++ fs) = net.dispatches q log es := by
    rw [Network.dispatches_append, Network.dispatches_eq_nil hfs, List.append_nil]
  constructor
  · exact hmade ▸ fun n => hes.bounded n (Nat.zero_le n)
  · exact hmade ▸ fun x hx => (hes.retried x hx).imp_right List.contains_iff_mem.mp
  · exact hmade ▸ fun hpolicy => length_filter_succeeded hpolicy hes.retried
  · refine ⟨config, fun request transport h => ?_⟩
    rcases List.mem_append.mp h with h | h
    · exact hes.uniform _ _ h
    · cases hfs _ h
  · exact hmade ▸ hreported

end

/-- What the client makes of a value that was thrown is no success, and nothing is sent. -/
lemma emits_network (v : Thrown) (s : List Event) :
    Emits id (do return DispatchOutcome.network (← classifyNetworkError v)) s fun es r =>
      (∀ e ∈ es, isFetch e = false) ∧ ∀ result t, r ≠ .ok (.ok result) t := by
  by_cases hprint : printable v
  · obtain ⟨error, hpure⟩ := classify_printable hprint
    rw [hpure, pure_bind]
    exact emits_pure ⟨by simp, fun _ _ => nofun⟩
  · rw [classify_not_printable hprint]
    exact ⟨[], (List.append_nil s).symm, by simp, fun _ _ => nofun⟩

/-- **At most one success.** Whatever the network loses and whatever other callers do in between,
the pipeline runs at most once more than the client may retry, only errors that come back are
followed by another run, and, with a policy that retries no success, at most one run succeeds; a
success the client reports is the one of the last run. -/
theorem answered_at_most_once (net : Network) (q : Quota.QuotaState) (runtime : Runtime)
    (options : GatewayClientOptions) (body : Body) (headers : List (JsStr × JsStr))
    (before : List Event) (hconnected : Connected net q runtime options) (fuel : ℕ) :
    Emits id (options.dispatch runtime body headers fuel) before
      (Answered net q runtime (policyOf options) before) := by
  unfold GatewayClientOptions.dispatch
  extract_lets config
  have hsend : Emits id (attempt (options.send runtime body fuel config)) before fun es r =>
      ∃ r', (∃ config', Sent net q (policyOf options) config' (Few (policyOf options) 0) before es
        r') ∧ ∀ a t, r = .ok (.ok a) t → r' = .ok a t :=
    emits_attempt (sends_send runtime body hconnected.fetch fuel config before)
      (fun _ _ _ h => ⟨_, h, fun _ _ hr => by cases hr; rfl⟩) (fun _ _ _ h => ⟨_, h, nofun⟩)
      (fun _ _ h => ⟨_, h, nofun⟩) fun _ _ h => ⟨_, h, nofun⟩
  refine emits_bind hsend.located ?_ ?_
  · rintro es (v | response) t ⟨⟨r', ⟨config', hes⟩, hr'⟩, ht⟩
    · refine (emits_network v t).mono fun fs r hfs => ?_
      exact hes.answered hfs.1 fun result t h => absurd h (hfs.2 result t)
    · obtain rfl : t = before ++ es := by simpa using ht
      obtain ⟨x, hlast, -, hrespond⟩ := hes.returned response _ (hr' _ _ rfl)
      obtain ⟨fs, hlog, hfs⟩ := emitsOnly_decodeOutcome runtime response options.theBus
        (before ++ es)
      refine ⟨fs, hlog, hes.answered (fun e he => isFetch_of_not_sending (hfs e he)) ?_⟩
      intro result t hr
      obtain ⟨hok, text, htext, rfl⟩ := decodeOutcome_ok hr
      subst hrespond
      obtain ⟨status, body, ha, hsucceeded, hresult⟩ :=
        reported_of_last hconnected hlast hok htext
      exact ⟨x.1, status, body, by rw [hlast, ← ha], by rw [← ha]; exact hsucceeded, hresult⟩
  · rintro es halt t ⟨⟨r', ⟨config', hes⟩, -⟩, -⟩
    rw [← List.append_nil es]
    exact hes.answered (List.forall_mem_nil _) fun _ _ => nofun

namespace Sample

open Pipeline.Sample

/-- `json.loads` on the one body that is sent. -/
def loads : JsonLoads := fun _ => .ok (.dict [(py "prompt", .str (py "hi"))])

/-- The default server over the mock providers; its first response does not come back. -/
def net : Network where
  receive := fun _ => ⟨none, none, bytes "\x7b\"prompt\":\"hi\"\x7d"⟩
  collaborators := fun _ => defaults id vendors (fun _ => none) loads id anyApp
    (fun _ => .ok ⟨some (py "user-1")⟩) (Wiring.mockWorld vendors fun _ => 0)
  others := fun _ q => q
  fate := fun n =>
    if n = 0 then .lost true true (.error (js "aborted")) else .delivered (.fulfilled ())
  crash := fun _ _ => ⟨⟨500⟩, js "FUNCTION_INVOCATION_FAILED", by decide⟩

def runtime : Runtime where
  fetch := net.fetch {}
  setTimeout := fun _ _ => .fulfilled ()
  random := fun _ => ofRat 0
  text := net.text {}
  parse := fun text => some (.string text)

end Sample

/-- The response is lost after the server has answered, and the client does not ask again. -/
theorem lost_response_once :
    (∀ fuel,
      Emits id (GatewayClientOptions.dispatch Sample.runtime {} (fun _ => .ok none) [] fuel) []
        (Answered Sample.net {} Sample.runtime defaultRetryPolicy [])) ∧
    (match (GatewayClientOptions.dispatch Sample.runtime {} (fun _ => .ok none) [] 0).run [] with
      | .ok _ log => ((Sample.net.dispatches {} [] log).filter fun x => Succeeded x).length
      | .error _ _ => 0) = 1 :=
  ⟨answered_at_most_once Sample.net {} Sample.runtime {} (fun _ => .ok none) [] [] ⟨rfl, rfl⟩,
    by decide +kernel⟩

end ModelDispatcher.EndToEnd
