import ModelDispatcher.GatewayClient

/-!
Which dispatches of the client resolve: every one in which no promise is left pending, the body of
the response can be read, no value that is thrown resists being printed or reported, and neither the
retries nor a delivery to listeners goes on without end.
-/

namespace ModelDispatcher.ClientOutcomes

open Lib.Text Lib.Binary64 Lib.Logged Lib.Js Lib.Promises EventBus GatewayClient

/-! ### What an event ends a dispatch with -/

/-- What the timeout interceptor hands on of an attempt. -/
def relabelled (timeoutMs : ℕ) (transport : Transport) : Settled Thrown Response :=
  match transport.response with
  | .rejected e =>
    .rejected (if transport.timedOut then .timeoutError (timeoutMessage timeoutMs) else e)
  | settled => settled

/-- How an event ends the part of the dispatch it happens in. -/
def verdict (timeoutMs : ℕ) : Event → Option (Halt Thrown)
  | .token _ promise => promise.halt
  | .serialised text => text.halt
  | .fetched _ transport => (relabelled timeoutMs transport).halt
  | .slept _ timer => timer.halt
  | .bodyRead promise => promise.halt
  | .published _ _ => none
  | .delivered _ thrown => (called thrown).halt

/-- The event happens while the request is sent. -/
def sending : Event → Bool
  | .token _ _ | .serialised _ | .fetched _ _ | .slept _ _ => true
  | _ => false

/-- The event is no response that ends the retries of a policy. -/
def lasting (policy : RetryPolicy) : Event → Bool
  | .fetched _ ⟨_, .fulfilled response⟩ => policy.retryableStatuses.contains response.status
  | _ => true

def Settled.isRejected {α : Type} : Settled Thrown α → Bool
  | .rejected _ => true
  | _ => false

/-- A failure of the transport, at any stage: while the request is sent, or while the body of the
response is read. -/
def transportFailure : Event → Bool
  | .token _ promise => Settled.isRejected promise
  | .serialised text => Settled.isRejected text
  | .fetched _ transport => Settled.isRejected transport.response
  | .slept _ timer => Settled.isRejected timer
  | .bodyRead promise => Settled.isRejected promise
  | _ => false

def printable : Thrown → Bool
  | .other none => false
  | _ => true

/-- The event keeps the dispatch from resolving: a promise that stays pending, a body that cannot
be read, a delivery that the error handler breaks off, or a transport failure whose value cannot be
printed. -/
def fatal (timeoutMs : ℕ) (e : Event) : Bool :=
  match verdict timeoutMs e with
  | none | some .running => false
  | some .pending => true
  | some (.rejected v) => !(sending e && printable v)

/-! ### How long the retries last -/

section

variable {α β : Type} {policy : RetryPolicy}

/-- With so many rounds left, the retries go on only after responses to retry, and they end there
only by a bound that the counter of the loop can reach. -/
structure Lasts (policy : RetryPolicy) (rounds : ℕ) (es : List Event)
    (r : EStateM.Result (Halt Thrown) (List Event) α) : Prop where
  running : Running r →
    (∀ e ∈ es, lasting policy e) ∧ (2 ^ 53 ≤ rounds → (ofRat (2 ^ 53)).lt policy.maxRetries)
  returned : ∀ a t, r = .ok a t → (∀ e ∈ es, lasting policy e) →
    ¬ (ofRat (2 ^ 53)).lt policy.maxRetries

variable {rounds : ℕ} {es fs : List Event}
variable {r : EStateM.Result (Halt Thrown) (List Event) α}

lemma lasts_error {h : Halt Thrown} {t : List Event} (hrunning : h ≠ .running) :
    Lasts policy rounds es (.error h t : EStateM.Result (Halt Thrown) (List Event) α) where
  running hr := absurd (running_error.mp hr) hrunning
  returned _ _ hr := by cases hr

lemma Lasts.after (h : Lasts policy rounds fs r) (hes : ∀ e ∈ es, lasting policy e) :
    Lasts policy rounds (es ++ fs) r where
  running hr := ⟨List.forall_mem_append.mpr ⟨hes, (h.running hr).1⟩, (h.running hr).2⟩
  returned a t hr hall := h.returned a t hr (List.forall_mem_append.mp hall).2

lemma Lasts.mono {rounds' : ℕ} (h : Lasts policy rounds es r)
    (hle : 2 ^ 53 ≤ rounds' → 2 ^ 53 ≤ rounds) : Lasts policy rounds' es r where
  running hr := ⟨(h.running hr).1, fun hrounds => (h.running hr).2 (hle hrounds)⟩
  returned := h.returned

/-- After a response that ends the retries. -/
lemma lasts_ok {a : α} {t : List Event} (h : ¬ ∀ e ∈ es, lasting policy e) :
    Lasts policy rounds es (.ok a t : EStateM.Result (Halt Thrown) (List Event) α) where
  running hr := absurd hr (not_running_ok a t)
  returned _ _ _ hall := absurd hall h

/-- What is behind the retries needs no fuel, and its response is in the log. -/
structure Answers (policy : RetryPolicy) (es : List Event)
    (r : EStateM.Result (Halt Thrown) (List Event) Response) : Prop where
  ends : ¬ Running r
  logged : ∀ response t, r = .ok response t →
    ((∀ e ∈ es, lasting policy e) ↔ policy.retryableStatuses.contains response.status)

end

/-! ### Sending a request -/

section

variable (runtime : Runtime)

/-- What holds of a chain for every configuration with the deadline, whatever fuel it is given. -/
structure Sound (timeoutMs : ℕ) (policy : RetryPolicy) (send : ℕ → Send) : Prop where
  tells : ∀ fuel (config : GatewayRequestConfig), config.timeoutMs = timeoutMs →
    Tells (verdict timeoutMs) (send fuel config)
  sending : ∀ fuel config, EmitsOnly id (fun e => ClientOutcomes.sending e) (send fuel config)
  lasts : ∀ fuel config s, Emits id (send fuel config) s (Lasts policy fuel)
  continues : ∀ fuel fuel' config, fuel ≤ fuel' → Continues (send fuel config) (send fuel' config)

variable {timeoutMs fuel : ℕ} {policy : RetryPolicy}

lemma appends_of_sending {α : Type} {x : Client α} (h : EmitsOnly id (fun e => sending e) x) :
    Appends x := h.mono fun _ _ => trivial

lemma Sound.appends {send : ℕ → Send} (h : Sound timeoutMs policy send)
    (config : GatewayRequestConfig) : Appends (send fuel config) :=
  appends_of_sending (h.sending fuel config)

lemma emitsOnly_terminal (fetch : List Event → FetchRequest → Transport) (body : Body)
    (config : GatewayRequestConfig) :
    EmitsOnly id (fun e => sending e) (terminal fetch body config) := by
  refine emitsOnly_bind emitsOnly_get fun log => ?_
  refine emitsOnly_bind (emitsOnly_note rfl) fun _ => ?_
  refine emitsOnly_bind (emitsOnly_await _) fun text => ?_
  refine emitsOnly_bind emitsOnly_get fun log => ?_
  exact emitsOnly_bind (emitsOnly_note rfl) fun _ => emitsOnly_await _

lemma emitsOnly_timeout {next : Send} {config : GatewayRequestConfig}
    (h : EmitsOnly id (fun e => sending e) (next config)) :
    EmitsOnly id (fun e => sending e) (timeoutInterceptor.intercept config next) := by
  refine emitsOnly_bind (emitsOnly_attempt h) fun settled => ?_
  cases settled with
  | ok response => exact emitsOnly_pure response
  | error e =>
    refine emitsOnly_bind emitsOnly_get fun log => ?_
    split <;> exact emitsOnly_throw _

/-- The request that a configuration and a serialised body give. -/
def requestOf (config : GatewayRequestConfig) (text : Option JsStr) : FetchRequest :=
  { url := config.url, method := config.method, headers := config.headers, body := text }

section

variable {fetch : List Event → FetchRequest → Transport} {body : Body}
variable {config : GatewayRequestConfig} {s t : List Event}

lemma run_terminal_error {e : Thrown} (h : body s = .error e) :
    terminal fetch body config s = .error (.rejected e) (s ++ [.serialised (.rejected e)]) := by
  unfold terminal
  rw [get_bind, h]
  rfl

lemma run_terminal_ok {text : Option JsStr} {s' : List Event} (h : body s = .ok text)
    (hs : s ++ [.serialised (.fulfilled text)] = s') :
    terminal fetch body config s = (await (fetch s' (requestOf config text)).response : Client _)
      (s' ++ [.fetched (requestOf config text) (fetch s' (requestOf config text))]) := by
  subst hs
  unfold terminal
  rw [get_bind, h]
  rfl

lemma run_timeout_ok {next : Send} {response : Response} (h : next config s = .ok response t) :
    timeoutInterceptor.intercept config next s = .ok response t :=
  attempt_bind_ok h

lemma run_timeout_rejected {next : Send} {e : Thrown}
    (h : next config s = .error (.rejected e) t) :
    timeoutInterceptor.intercept config next s =
      .error (.rejected (if timedOut t then .timeoutError (timeoutMessage config.timeoutMs) else e))
        t := by
  refine (attempt_bind_rejected h).trans ?_
  refine (get_bind _ t).trans ?_
  split_ifs <;> rfl

lemma run_timeout_pending {next : Send} (h : next config s = .error .pending t) :
    timeoutInterceptor.intercept config next s = .error .pending t :=
  attempt_bind_pending h

end

section

variable (fetch : List Event → FetchRequest → Transport) (body : Body)
variable {config : GatewayRequestConfig}

/-- The innermost layer: one attempt under its deadline. -/
lemma tells_attempt (hconfig : config.timeoutMs = timeoutMs) :
    Tells (verdict timeoutMs) (timeoutInterceptor.intercept config (terminal fetch body)) := by
  subst hconfig
  intro s
  unfold Emits Told EStateM.run
  cases hbody : body s with
  | error e =>
    rw [run_timeout_rejected (run_terminal_error hbody)]
    exact ⟨_, rfl, [], _, rfl, by simp, by simp [verdict, Settled.halt, timedOut]⟩
  | ok text =>
    have hterminal : terminal fetch body config s = _ := run_terminal_ok hbody rfl
    rw [List.append_assoc] at hterminal
    generalize fetch _ _ = transport at hterminal
    obtain ⟨late, response⟩ := transport
    have hlate : timedOut (s ++ ([.serialised (.fulfilled text)] ++
        [.fetched (requestOf config text) ⟨late, response⟩])) = late := by simp [timedOut]
    cases response with
    | fulfilled response =>
      rw [run_timeout_ok hterminal]
      exact ⟨_, rfl, by simp [stopped, verdict, relabelled, Settled.halt]⟩
    | rejected e =>
      rw [run_timeout_rejected hterminal, hlate]
      exact ⟨_, rfl, [_], _, rfl, by simp [verdict, Settled.halt], rfl⟩
    | pending =>
      rw [run_timeout_pending hterminal]
      exact ⟨_, rfl, [_], _, rfl, by simp [verdict, Settled.halt], rfl⟩

lemma sending_attempt (config : GatewayRequestConfig) : EmitsOnly id (fun e => sending e)
    (timeoutInterceptor.intercept config (terminal fetch body)) :=
  emitsOnly_timeout (emitsOnly_terminal fetch body config)

lemma answers_attempt (config : GatewayRequestConfig) (s : List Event) :
    Emits id (timeoutInterceptor.intercept config (terminal fetch body)) s (Answers policy) := by
  unfold Emits EStateM.run
  cases hbody : body s with
  | error e =>
    rw [run_timeout_rejected (run_terminal_error hbody)]
    exact ⟨_, rfl, by simp, nofun⟩
  | ok text =>
    have hterminal : terminal fetch body config s = _ := run_terminal_ok hbody rfl
    rw [List.append_assoc] at hterminal
    generalize fetch _ _ = transport at hterminal
    obtain ⟨late, response⟩ := transport
    cases response with
    | fulfilled response =>
      rw [run_timeout_ok hterminal]
      refine ⟨_, rfl, not_running_ok _ _, fun response' t hr => ?_⟩
      cases hr
      simp [lasting]
    | rejected e =>
      rw [run_timeout_rejected hterminal]
      exact ⟨_, rfl, by simp, nofun⟩
    | pending =>
      rw [run_timeout_pending hterminal]
      exact ⟨_, rfl, by simp, nofun⟩

end

/-! ### The retries -/

section

variable (options : RetryOptions) (config : GatewayRequestConfig) {next : Send}

lemma tells_sleep (policy : RetryPolicy) (attempt : ℕ) :
    Tells (verdict timeoutMs) (options.sleep runtime policy attempt) :=
  tells_get fun _ => tells_await rfl

lemma emitsOnly_sleep (policy : RetryPolicy) (attempt : ℕ) :
    EmitsOnly id (fun e => sending e) (options.sleep runtime policy attempt) :=
  emitsOnly_bind emitsOnly_get fun _ =>
    emitsOnly_bind (emitsOnly_note rfl) fun _ => emitsOnly_await _

/-- A sleep needs no fuel. -/
lemma emits_sleep (policy : RetryPolicy) (attempt : ℕ) (s : List Event) :
    Emits id (options.sleep runtime policy attempt) s fun es r =>
      (∀ e ∈ es, lasting policy e) ∧ ¬ Running r := by
  refine emits_get ?_
  extract_lets ms timer
  clear_value timer
  exact ⟨[.slept ms timer], by cases timer <;> rfl, by simp [lasting], not_running_await timer _⟩

variable {runtime options config}

lemma retryLoop_of_not_retries {attempt : ℕ} {response : Response}
    (h : ¬ policy.retries attempt response) (fuel : ℕ) :
    retryLoop runtime options policy config next fuel attempt response = pure response := by
  cases fuel <;> rw [retryLoop, if_neg h]

/-- A response outside the statuses to retry ends the loop. -/
lemma retryLoop_of_status {response : Response}
    (h : ¬ policy.retryableStatuses.contains response.status) (fuel attempt : ℕ) :
    retryLoop runtime options policy config next fuel attempt response = pure response :=
  retryLoop_of_not_retries (fun hretries => h (Bool.and_elim_left hretries)) fuel

lemma tells_retryLoop (hnext : Tells (verdict timeoutMs) (next config)) (fuel : ℕ) :
    ∀ attempt response, Tells (verdict timeoutMs)
      (retryLoop runtime options policy config next fuel attempt response) := by
  induction fuel with
  | zero =>
    intro attempt response
    unfold retryLoop
    split_ifs
    · exact tells_running
    · exact tells_pure response
  | succ fuel ih =>
    intro attempt response
    unfold retryLoop
    split_ifs
    · exact tells_bind (tells_sleep runtime options policy attempt) fun _ =>
        tells_bind hnext fun response => ih (increment attempt) response
    · exact tells_pure response

lemma sending_retryLoop (hnext : EmitsOnly id (fun e => sending e) (next config)) (fuel : ℕ) :
    ∀ attempt response, EmitsOnly id (fun e => sending e)
      (retryLoop runtime options policy config next fuel attempt response) := by
  induction fuel with
  | zero =>
    intro attempt response
    unfold retryLoop
    split_ifs
    · exact emitsOnly_throw _
    · exact emitsOnly_pure response
  | succ fuel ih =>
    intro attempt response
    unfold retryLoop
    split_ifs
    · exact emitsOnly_bind (emitsOnly_sleep runtime options policy attempt) fun _ =>
        emitsOnly_bind hnext fun response => ih (increment attempt) response
    · exact emitsOnly_pure response

/-- Each round uses one unit of the fuel, so with more of it the loop gets further. -/
lemma continues_retryLoop (hnext : EmitsOnly id (fun e => sending e) (next config)) (fuel : ℕ) :
    ∀ fuel' attempt response, fuel ≤ fuel' →
      Continues (retryLoop runtime options policy config next fuel attempt response)
        (retryLoop runtime options policy config next fuel' attempt response) := by
  induction fuel with
  | zero =>
    intro fuel' attempt response _
    by_cases hretries : policy.retries attempt response
    · rw [retryLoop, if_pos hretries]
      exact continues_running (appends_of_sending (sending_retryLoop hnext fuel' attempt response))
    · rw [retryLoop_of_not_retries hretries, retryLoop_of_not_retries hretries]
      exact continues_refl _
  | succ fuel ih =>
    rintro (_ | fuel') attempt response hle
    · omega
    · by_cases hretries : policy.retries attempt response
      · rw [retryLoop, retryLoop, if_pos hretries, if_pos hretries]
        exact continues_seq _ fun _ => continues_seq _ fun response =>
          ih fuel' _ response (by omega)
      · rw [retryLoop_of_not_retries hretries, retryLoop_of_not_retries hretries]
        exact continues_refl _

/-- A response to retry that the loop returns comes after the last retry. -/
lemma bounded_of_not_retries {attempt : ℕ} {response : Response} (hattempt : attempt ≤ 2 ^ 53)
    (hretry : policy.retryableStatuses.contains response.status)
    (h : ¬ policy.retries attempt response) : ¬ (ofRat (2 ^ 53)).lt policy.maxRetries := by
  intro hlt
  have hlt' : (ofRat (2 ^ 53 : ℕ)).lt policy.maxRetries := by
    rw [Nat.cast_pow, Nat.cast_ofNat]
    exact hlt
  refine h ?_
  unfold RetryPolicy.retries
  rw [hretry, Bool.true_and]
  exact Double.lt_of_natCast_lt le_rfl hattempt hlt'

/-- The induction is on the fuel; what the counter has counted and the fuel together are the rounds
of the loop. -/
lemma lasts_retryLoop
    (hnext : ∀ s, Emits id (next config) s (Answers policy)) (fuel : ℕ) :
    ∀ attempt response s, attempt ≤ 2 ^ 53 → policy.retryableStatuses.contains response.status →
      Emits id (retryLoop runtime options policy config next fuel attempt response) s
        (Lasts policy (attempt + fuel)) := by
  induction fuel with
  | zero =>
    intro attempt response s hattempt hretry
    by_cases hretries : policy.retries attempt response
    · rw [retryLoop, if_pos hretries]
      refine emits_throw ⟨fun _ => ⟨by simp, fun hrounds => ?_⟩, nofun⟩
      obtain rfl : attempt = 2 ^ 53 := by omega
      unfold RetryPolicy.retries at hretries
      rw [hretry, Bool.true_and, Nat.cast_pow, Nat.cast_ofNat] at hretries
      exact hretries
    · rw [retryLoop_of_not_retries hretries]
      exact emits_pure ⟨by simp, fun _ _ _ _ => bounded_of_not_retries hattempt hretry hretries⟩
  | succ fuel ih =>
    intro attempt response s hattempt hretry
    by_cases hretries : policy.retries attempt response
    · rw [retryLoop, if_pos hretries]
      refine emits_bind (emits_sleep runtime options policy attempt s) ?_ ?_
      · rintro es _ t ⟨hes, -⟩
        refine (Emits.mono (Q := Lasts policy (attempt + (fuel + 1))) ?_ fun _ _ h => h.after hes)
        refine emits_bind (hnext t) ?_ fun fs halt t' hfs => lasts_error ?_
        · intro fs response' t' hfs
          have hiff := hfs.logged response' t' rfl
          by_cases hretry' : policy.retryableStatuses.contains response'.status
          · have hle : increment attempt ≤ 2 ^ 53 := by unfold increment; split_ifs <;> omega
            refine (ih (increment attempt) response' t' hle hretry').mono fun gs r h => ?_
            refine (h.mono fun hrounds => ?_).after (hiff.mpr hretry')
            unfold increment
            split_ifs <;> omega
          · rw [retryLoop_of_status hretry']
            refine emits_pure (lasts_ok ?_)
            rw [List.append_nil, hiff]
            exact hretry'
        · exact fun h => hfs.ends (running_error.mpr h)
      · rintro es e t ⟨-, hends⟩
        exact lasts_error fun h => hends (running_error.mpr h)
    · rw [retryLoop_of_not_retries hretries]
      exact emits_pure ⟨by simp, fun _ _ _ _ => bounded_of_not_retries hattempt hretry hretries⟩

end

lemma sound_retry (options : RetryOptions) {next : Send}
    (htells : ∀ config : GatewayRequestConfig, config.timeoutMs = timeoutMs →
      Tells (verdict timeoutMs) (next config))
    (hsending : ∀ config, EmitsOnly id (fun e => sending e) (next config))
    (hanswers : ∀ config s,
      Emits id (next config) s (Answers (options.policy.getD defaultRetryPolicy))) :
    Sound timeoutMs (options.policy.getD defaultRetryPolicy) fun fuel config =>
      (retryInterceptor runtime options fuel).intercept config next where
  tells := fun fuel config hconfig => tells_bind (htells config hconfig) fun response =>
    tells_retryLoop (htells config hconfig) fuel 0 response
  sending := fun fuel config => emitsOnly_bind (hsending config) fun response =>
    sending_retryLoop (hsending config) fuel 0 response
  continues := fun fuel fuel' config hle => continues_seq _ fun response =>
    continues_retryLoop (hsending config) fuel fuel' 0 response hle
  lasts := by
    intro fuel config s
    refine emits_bind (hanswers config s) ?_ fun es halt t hes =>
      lasts_error fun h => hes.ends (running_error.mpr h)
    intro es response t hes
    have hiff := hes.logged response t rfl
    by_cases hretry :
        (options.policy.getD defaultRetryPolicy).retryableStatuses.contains response.status
    · refine (lasts_retryLoop (hanswers config) fuel 0 response t (Nat.zero_le _) hretry).mono ?_
      intro fs r h
      rw [Nat.zero_add] at h
      exact h.after (hiff.mpr hretry)
    · rw [retryLoop_of_status hretry]
      refine emits_pure (lasts_ok ?_)
      rw [List.append_nil, hiff]
      exact hretry

lemma sound_token {header : JsStr} {value : JsStr → JsStr} {provider : TokenProvider}
    {next : ℕ → Send} (h : Sound timeoutMs policy next) :
    Sound timeoutMs policy fun fuel config =>
      (tokenInterceptor header value provider).intercept config (next fuel) where
  tells := by
    intro fuel config hconfig
    refine tells_get fun log => ?_
    rw [← bind_assoc]
    refine tells_bind (tells_await rfl) fun token => ?_
    split
    · exact h.tells fuel config hconfig
    · exact h.tells fuel config hconfig
    · exact h.tells fuel _ hconfig
  sending := by
    intro fuel config
    refine emitsOnly_bind emitsOnly_get fun log => ?_
    refine emitsOnly_bind (emitsOnly_note rfl) fun _ => ?_
    refine emitsOnly_bind (emitsOnly_await _) fun token => ?_
    split <;> exact h.sending fuel _
  lasts := by
    intro fuel config s
    refine emits_get ?_
    rw [← bind_assoc]
    generalize provider s = promise
    have hpromise : Emits id (note (.token header promise) >>= fun _ => await promise : Client _) s
        fun es r => (∀ e ∈ es, lasting policy e) ∧ ¬ Running r :=
      ⟨[_], by cases promise <;> rfl, by simp [lasting], not_running_await promise _⟩
    refine emits_bind hpromise ?_ ?_
    · rintro es token t ⟨hes, -⟩
      split <;> exact (h.lasts fuel _ t).mono fun fs r hfs => hfs.after hes
    · rintro es e t ⟨-, hends⟩
      exact lasts_error fun hrunning => hends (running_error.mpr hrunning)
  continues := by
    intro fuel fuel' config hle
    refine continues_seq _ fun log => continues_seq _ fun _ => continues_seq _ fun token => ?_
    rcases token with _ | _ | _ <;> exact h.continues fuel fuel' _ hle

/-- The whole chain, whichever token providers it has. -/
lemma sound_send (options : GatewayClientOptions) (body : Body) :
    Sound timeoutMs ((options.retry.getD {}).policy.getD defaultRetryPolicy)
      (options.send runtime body) := by
  let fetch := options.fetchImpl.getD runtime.fetch
  have hretry := sound_retry runtime (options.retry.getD {})
    (fun config (hconfig : config.timeoutMs = timeoutMs) => tells_attempt fetch body hconfig)
    (sending_attempt fetch body) (answers_attempt fetch body)
  unfold GatewayClientOptions.send GatewayClientOptions.chain compose
  cases options.appCheckTokenProvider with
  | none =>
    cases options.authTokenProvider with
    | none => exact hretry
    | some auth => exact sound_token hretry
  | some appCheck =>
    cases options.authTokenProvider with
    | none => exact sound_token hretry
    | some auth => exact sound_token (sound_token hretry)

/-! ### Decoding the response -/

lemma tells_publish (bus : Bus) (event : HandoffEvent) :
    Tells (verdict timeoutMs) (publish bus event fuel) := by
  refine tells_get fun log => ?_
  refine tells_bind (tells_note rfl) fun _ => ?_
  cases (bus log).emit event fuel with
  | none => exact tells_running
  | some r => exact tells_await rfl

lemma emitsOnly_publish (bus : Bus) (event : HandoffEvent) :
    EmitsOnly id (fun e => sending e = false) (publish bus event fuel) := by
  refine emitsOnly_bind emitsOnly_get fun log => ?_
  refine emitsOnly_bind (emitsOnly_note rfl) fun _ => ?_
  cases (bus log).emit event fuel with
  | none => exact emitsOnly_throw _
  | some r => exact emitsOnly_bind (emitsOnly_note rfl) fun _ => emitsOnly_await _

lemma tells_readJson : Tells (verdict timeoutMs) (readJson runtime) := by
  refine tells_get fun log => ?_
  rw [← bind_assoc]
  refine tells_bind (tells_await rfl) fun text => ?_
  split <;> exact tells_pure _

lemma tells_decodeOutcome (response : Response) (bus : Bus) :
    Tells (verdict timeoutMs) (decodeOutcome runtime response bus fuel) := by
  refine tells_bind (tells_readJson runtime) fun body => ?_
  split_ifs
  · exact tells_pure _
  · split
    · exact tells_bind (tells_publish bus _) fun _ => tells_pure _
    · exact tells_pure _

/-- Nothing is sent while a response is decoded. -/
lemma emitsOnly_decodeOutcome (response : Response) (bus : Bus) :
    EmitsOnly id (fun e => sending e = false) (decodeOutcome runtime response bus fuel) := by
  refine emitsOnly_bind ?_ fun body => ?_
  · refine emitsOnly_bind emitsOnly_get fun log => ?_
    refine emitsOnly_bind (emitsOnly_note rfl) fun _ => ?_
    refine emitsOnly_bind (emitsOnly_await _) fun text => ?_
    split <;> exact emitsOnly_pure _
  · split_ifs
    · exact emitsOnly_pure _
    · split
      · exact emitsOnly_bind (emitsOnly_publish bus _) fun _ => emitsOnly_pure _
      · exact emitsOnly_pure _

lemma continues_publish (bus : Bus) (event : HandoffEvent) {fuel' : ℕ} (hle : fuel ≤ fuel') :
    Continues (publish bus event fuel) (publish bus event fuel') := by
  refine continues_seq _ fun log => continues_seq _ fun _ => ?_
  cases hemit : (bus log).emit event fuel with
  | none =>
    refine continues_running ?_
    cases (bus log).emit event fuel' with
    | none => exact emitsOnly_throw _
    | some r => exact emitsOnly_bind (emitsOnly_note trivial) fun _ => emitsOnly_await _
  | some r =>
    rw [(bus log).emit_mono event hle hemit]
    exact continues_refl _

lemma continues_decodeOutcome (response : Response) (bus : Bus) {fuel' : ℕ} (hle : fuel ≤ fuel') :
    Continues (decodeOutcome runtime response bus fuel)
      (decodeOutcome runtime response bus fuel') := by
  refine continues_seq _ fun body => ?_
  split_ifs
  · exact continues_refl _
  · split
    · exact continues_bind (continues_publish bus _ hle) (fun _ => continues_refl _)
        fun _ => emitsOnly_pure _
    · exact continues_refl _

lemma decode_told (response : Response) (bus : Bus) (s : List Event) :
    Emits id (decodeOutcome runtime response bus fuel) s fun es r =>
      Told (verdict timeoutMs) es r ∧ ∀ e ∈ es, sending e = false :=
  (tells_decodeOutcome runtime response bus s).and (emitsOnly_decodeOutcome runtime response bus s)

/-! ### Deliveries -/

/-- A part that publishes is still running exactly where its delivery is. -/
structure Delivers {α : Type} (fuel : ℕ) (es : List Event)
    (r : EStateM.Result (Halt Thrown) (List Event) α) : Prop where
  returned : ¬ Running r → ∀ event bus, .published event bus ∈ es →
    bus.emit event fuel ≠ none
  running : Running r → (∃ event bus, .published event bus ∈ es) ∧
    ∀ event bus, .published event bus ∈ es → bus.emit event fuel = none

section

variable {α : Type} {es fs : List Event} {r : EStateM.Result (Halt Thrown) (List Event) α}

lemma Delivers.of_none (hes : ∀ event bus, .published event bus ∉ es)
    (hr : ¬ Running r) : Delivers fuel es r where
  returned _ event bus h := absurd h (hes event bus)
  running h := absurd h hr

lemma Delivers.after (h : Delivers fuel fs r) (hes : ∀ event bus, .published event bus ∉ es) :
    Delivers fuel (es ++ fs) r := by
  have hiff : ∀ event bus, .published event bus ∈ es ++ fs ↔ .published event bus ∈ fs := by
    intro event bus
    simp [hes event bus]
  exact ⟨fun hr event bus hmem => h.returned hr event bus ((hiff event bus).mp hmem),
    by simpa only [hiff] using h.running⟩

lemma not_published_of_sending (h : ∀ e ∈ es, sending e) :
    ∀ event bus, .published event bus ∉ es := fun _ _ hmem => Bool.false_ne_true (h _ hmem)

end

lemma run_publish (bus : Bus) (event : HandoffEvent) (s : List Event) :
    (publish bus event fuel).run s = (match (bus s).emit event fuel with
      | none => throw .running
      | some (d, thrown) => do
        note (.delivered d.called thrown)
        await (called thrown) : Client Unit).run (s ++ [.published event (bus s)]) := rfl

/-- What is published is one event on the bus, as it is then. -/
lemma delivers_publish (bus : Bus) (event : HandoffEvent) (s : List Event) :
    Emits id (publish bus event fuel) s (Delivers fuel) := by
  unfold Emits
  rw [run_publish]
  cases hemit : (bus s).emit event fuel with
  | none =>
    refine ⟨[.published event (bus s)], rfl, fun hr => absurd ⟨_, rfl⟩ hr, fun _ => ⟨?_, ?_⟩⟩
    · exact ⟨event, bus s, List.mem_singleton_self _⟩
    · intro event' bus' hmem
      cases List.mem_singleton.mp hmem
      exact hemit
  | some r =>
    obtain ⟨d, thrown⟩ := r
    refine ⟨[.published event (bus s), .delivered d.called thrown], ?_, fun _ => ?_, fun hr => ?_⟩
    · cases thrown <;> exact List.append_assoc _ _ _
    · intro event' bus' hmem
      have hsame : event' = event ∧ bus' = bus s := by simpa using hmem
      rw [hsame.1, hsame.2, hemit]
      exact Option.some_ne_none _
    · exact absurd hr (not_running_await _ _)

lemma emits_readJson (s : List Event) : Emits id (readJson runtime) s fun es r =>
    (∀ event bus, .published event bus ∉ es) ∧ ¬ Running r := by
  refine emits_get ?_
  rw [← bind_assoc]
  refine emits_bind (P := fun es r => (∀ event bus, .published event bus ∉ es) ∧ ¬ Running r) ?_
    ?_ fun es e t hes => ⟨hes.1, by simpa using hes.2⟩
  · exact ⟨[.bodyRead (runtime.text s)], by cases runtime.text s <;> rfl, by simp,
      not_running_await _ _⟩
  · intro es text t hes
    split <;> exact emits_pure ⟨by simpa using hes.1, not_running_ok _ _⟩

lemma delivers_decodeOutcome (response : Response) (bus : Bus) (s : List Event) :
    Emits id (decodeOutcome runtime response bus fuel) s (Delivers fuel) := by
  refine emits_bind (emits_readJson runtime s) ?_ fun es e t hes =>
    .of_none hes.1 (by simpa using hes.2)
  rintro es body t ⟨hes, -⟩
  split_ifs
  · exact emits_pure (.of_none (by simpa using hes) (not_running_ok _ _))
  · split
    · refine emits_bind (delivers_publish bus _ t) ?_ ?_
      · intro fs u t' hfs
        refine emits_pure ?_
        rw [List.append_nil]
        exact .after ⟨fun _ => hfs.returned (not_running_ok u t'), nofun⟩ hes
      · intro fs e t' hfs
        refine .after ⟨fun hr => hfs.returned (by simpa using hr), fun hr => ?_⟩ hes
        exact hfs.running (by simpa using hr)
    · exact emits_pure (.of_none (by simpa using hes) (not_running_ok _ _))

/-! ### Dispatches that resolve -/

/-- The dispatch resolves to an outcome, which is a network error if the transport failed. -/
def Normalised (es : List Event) (r : EStateM.Result (Halt Thrown) (List Event) DispatchOutcome) :
    Prop :=
  ∃ outcome, answer r = .ok outcome ∧
    (es.any transportFailure → ∃ error, outcome = .network error)

lemma isRejected_of_halt {α : Type} {promise : Settled Thrown α} (h : promise.halt = none) :
    Settled.isRejected promise = false := by
  cases promise <;> first | rfl | cases h

lemma transportFailure_of_verdict {e : Event} (h : verdict timeoutMs e = none) :
    transportFailure e = false := by
  cases e with
  | token header promise => exact isRejected_of_halt h
  | serialised text => exact isRejected_of_halt h
  | slept ms timer => exact isRejected_of_halt h
  | bodyRead text => exact isRejected_of_halt h
  | published event bus => rfl
  | delivered called thrown => rfl
  | fetched request transport =>
    obtain ⟨late, response⟩ := transport
    cases response with
    | fulfilled response => rfl
    | rejected e => cases h
    | pending => rfl

/-- No event has a verdict. -/
abbrev Smooth (timeoutMs : ℕ) (es : List Event) : Prop := ∀ e ∈ es, verdict timeoutMs e = none

lemma Smooth.any_transportFailure {es : List Event} (h : Smooth timeoutMs es) :
    es.any transportFailure = false := by
  simpa using fun e he => transportFailure_of_verdict (h e he)

lemma Smooth.not_fatal {es : List Event} (h : Smooth timeoutMs es) :
    ∀ e ∈ es, ¬ fatal timeoutMs e := by
  intro e he
  simp [fatal, h e he]

/-- Only the last event of a stopped part can be fatal. -/
lemma forall_not_fatal_append {pre : List Event} {e : Event} (h : Smooth timeoutMs pre) :
    (∀ x ∈ pre ++ [e], ¬ fatal timeoutMs x) ↔ ¬ fatal timeoutMs e := by
  constructor
  · exact fun hall => hall e (by simp)
  · intro he x hx
    rcases List.mem_append.mp hx with hx | hx
    · exact h.not_fatal x hx
    · exact List.mem_singleton.mp hx ▸ he

/-- A response was obtained: the dispatch resolves when decoding it does. -/
lemma decoded_iff {es fs : List Event}
    {r : EStateM.Result (Halt Thrown) (List Event) DispatchOutcome} (hes : Smooth timeoutMs es)
    (htold : Told (verdict timeoutMs) fs r) (hfs : ∀ e ∈ fs, sending e = false)
    (hends : ¬ Running r) :
    Normalised (es ++ fs) r ↔ ∀ e ∈ es ++ fs, ¬ fatal timeoutMs e := by
  cases r with
  | ok outcome t =>
    have hsmooth : Smooth timeoutMs (es ++ fs) := by
      intro e he
      rcases List.mem_append.mp he with he | he
      · exact hes e he
      · exact htold e he
    refine iff_of_true ⟨outcome, rfl, fun hfail => ?_⟩ hsmooth.not_fatal
    rw [hsmooth.any_transportFailure] at hfail
    cases hfail
  | error halt t =>
    have hrunning : halt ≠ .running := fun h => hends (running_error.mpr h)
    obtain ⟨pre, e, rfl, he⟩ : ∃ pre e, fs = pre ++ [e] ∧ verdict timeoutMs e = some halt := by
      cases halt with
      | running => exact absurd rfl hrunning
      | rejected v => exact let ⟨pre, e, hsplit, _, he⟩ := htold; ⟨pre, e, hsplit, he⟩
      | pending => exact let ⟨pre, e, hsplit, _, he⟩ := htold; ⟨pre, e, hsplit, he⟩
    refine iff_of_false ?_ fun hall => ?_
    · rintro ⟨outcome, hok, -⟩
      cases hok
    · refine hall e (by simp) ?_
      unfold fatal
      rw [he, hfs e (by simp)]
      cases halt with
      | running => exact absurd rfl hrunning
      | rejected v => rfl
      | pending => rfl

lemma classify_printable {v : Thrown} (h : printable v) :
    ∃ error, classifyNetworkError v = pure error := by
  unfold classifyNetworkError
  split
  · exact ⟨_, rfl⟩
  · exact ⟨_, rfl⟩
  · exact ⟨_, rfl⟩
  · exact ⟨_, rfl⟩
  · cases h

lemma classify_not_printable {v : Thrown} (h : ¬ printable v) :
    classifyNetworkError v = throw (.rejected notPrintable) := by
  unfold classifyNetworkError
  split <;> first | rfl | exact absurd rfl h

lemma fatal_of_rejected {e : Event} {v : Thrown} (hsending : sending e)
    (h : verdict timeoutMs e = some (.rejected v)) : fatal timeoutMs e = !printable v := by
  unfold fatal
  rw [h, hsending]
  rfl

/-- The transport failed: the dispatch resolves to a network error when the value is printable. -/
lemma classified_iff {pre : List Event} {e : Event} {v : Thrown} (hpre : Smooth timeoutMs pre)
    (hsending : sending e) (he : verdict timeoutMs e = some (.rejected v)) (s : List Event) :
    Emits id (do return DispatchOutcome.network (← classifyNetworkError v)) s fun fs r =>
      fs = [] ∧ ¬ Running r ∧
        (Normalised (pre ++ [e]) r ↔ ∀ x ∈ pre ++ [e], ¬ fatal timeoutMs x) := by
  rw [forall_not_fatal_append hpre, fatal_of_rejected hsending he]
  by_cases hprint : printable v
  · obtain ⟨error, hpure⟩ := classify_printable hprint
    rw [hpure, pure_bind]
    refine emits_pure ⟨rfl, not_running_ok _ _, ?_⟩
    rw [hprint]
    exact iff_of_true ⟨_, rfl, fun _ => ⟨error, rfl⟩⟩ (by simp)
  · rw [classify_not_printable hprint]
    refine ⟨[], (List.append_nil s).symm, rfl, nofun, ?_⟩
    refine iff_of_false ?_ (by simp [hprint])
    rintro ⟨outcome, hanswer, -⟩
    cases hanswer

/-- The event ends the retries: something stops the dispatch, or there is a response that is not to
be retried. -/
def ends (timeoutMs : ℕ) (policy : RetryPolicy) (e : Event) : Prop :=
  verdict timeoutMs e ≠ none ∨ ¬ lasting policy e

/-- Nothing that happens keeps a dispatch from resolving: nothing fatal, no delivery that goes on
for ever, and no retries that do. -/
structure Harmless (timeoutMs : ℕ) (policy : RetryPolicy) (happens : Event → Prop) : Prop where
  calm : ∀ e, happens e → ¬ fatal timeoutMs e
  delivered : ∀ event bus, happens (.published event bus) → bus.Settles event
  ended : ¬ (ofRat (2 ^ 53)).lt policy.maxRetries ∨ ∃ e, happens e ∧ ends timeoutMs policy e

/-- What a dispatch with some fuel shows of one without a bound. -/
structure Account (timeoutMs : ℕ) (policy : RetryPolicy) (fuel : ℕ) (es : List Event)
    (r : EStateM.Result (Halt Thrown) (List Event) DispatchOutcome) : Prop where
  resolves : ¬ Running r → (Normalised es r ↔ ∀ e ∈ es, ¬ fatal timeoutMs e)
  delivers : ¬ Running r → ∀ event bus, .published event bus ∈ es → bus.emit event fuel ≠ none
  bounded : Normalised es r → (∀ e ∈ es, ¬ ends timeoutMs policy e) →
    ¬ (ofRat (2 ^ 53)).lt policy.maxRetries
  endless : Running r →
    ((∀ e ∈ es, ¬ ends timeoutMs policy e) ∧
      (2 ^ 53 ≤ fuel → (ofRat (2 ^ 53)).lt policy.maxRetries)) ∨
    ((∃ event bus, .published event bus ∈ es) ∧
      ∀ event bus, .published event bus ∈ es → bus.emit event fuel = none)

variable {policy : RetryPolicy} {es fs : List Event}
variable {r : EStateM.Result (Halt Thrown) (List Event) DispatchOutcome}

lemma not_ends_iff {e : Event} :
    ¬ ends timeoutMs policy e ↔ verdict timeoutMs e = none ∧ lasting policy e := by
  unfold ends
  rw [not_or, not_not, not_not]

/-- How the sending of a request ends, under the `try` of the client. -/
def Sent (timeoutMs : ℕ) (policy : RetryPolicy) (fuel : ℕ) (es : List Event) :
    EStateM.Result (Halt Thrown) (List Event) (Except Thrown Response) → Prop
  | .ok (.ok _) _ => Smooth timeoutMs es ∧
    ((∀ e ∈ es, lasting policy e) → ¬ (ofRat (2 ^ 53)).lt policy.maxRetries)
  | .ok (.error v) _ =>
    ∃ pre e, es = pre ++ [e] ∧ Smooth timeoutMs pre ∧ verdict timeoutMs e = some (.rejected v)
  | .error .running _ => Smooth timeoutMs es ∧ (∀ e ∈ es, lasting policy e) ∧
    (2 ^ 53 ≤ fuel → (ofRat (2 ^ 53)).lt policy.maxRetries)
  | .error .pending _ =>
    ∃ pre e, es = pre ++ [e] ∧ Smooth timeoutMs pre ∧ verdict timeoutMs e = some .pending
  | .error (.rejected _) _ => False

lemma emits_sent {send : ℕ → Send} (h : Sound timeoutMs policy send)
    {config : GatewayRequestConfig} (hconfig : config.timeoutMs = timeoutMs) (s : List Event) :
    Emits id (attempt (send fuel config)) s fun es r =>
      Sent timeoutMs policy fuel es r ∧ ∀ e ∈ es, sending e := by
  have hsend := ((h.tells fuel config hconfig s).and (h.sending fuel config s)).and
    (h.lasts fuel config s)
  refine emits_attempt hsend ?_ ?_ ?_ ?_
  · exact fun es a t ⟨⟨htold, hsending⟩, hlasts⟩ => ⟨⟨htold, hlasts.returned a t rfl⟩, hsending⟩
  · exact fun es e t ⟨⟨htold, hsending⟩, _⟩ => ⟨htold, hsending⟩
  · exact fun es t ⟨⟨htold, hsending⟩, _⟩ => ⟨htold, hsending⟩
  · exact fun es t ⟨⟨htold, hsending⟩, hlasts⟩ => ⟨⟨htold, hlasts.running ⟨t, rfl⟩⟩, hsending⟩

lemma halts {e : Event} {h : Halt Thrown} (he : verdict timeoutMs e = some h) :
    verdict timeoutMs e ≠ none := by simp [he]

/-- Where the sending stops the dispatch for good. -/
lemma account_of_stopped {pre : List Event} {e : Event} (he : verdict timeoutMs e ≠ none)
    (hsending : ∀ x ∈ pre ++ [e], sending x) (hrunning : ¬ Running r)
    (hiff : Normalised (pre ++ [e]) r ↔ ∀ x ∈ pre ++ [e], ¬ fatal timeoutMs x) :
    Account timeoutMs policy fuel (pre ++ [e]) r where
  resolves _ := hiff
  delivers _ event bus hmem := absurd hmem (not_published_of_sending hsending event bus)
  bounded _ hall := absurd (.inl he) (hall e (by simp))
  endless hr := absurd hr hrunning

/-- Where a response was obtained. -/
lemma account_decodeOutcome {response : Response} {s : List Event}
    (hsent : Sent timeoutMs policy fuel es (.ok (.ok response) s)) (hsending : ∀ e ∈ es, sending e)
    (bus : Bus) (t : List Event) : Emits id (decodeOutcome runtime response bus fuel) t fun fs r =>
      Account timeoutMs policy fuel (es ++ fs) r := by
  have htells : Emits id (decodeOutcome runtime response bus fuel) t fun fs r =>
      Told (verdict timeoutMs) fs r ∧ ∀ e ∈ fs, sending e = false :=
    decode_told runtime response bus t
  refine (htells.and (delivers_decodeOutcome runtime response bus t)).mono ?_
  rintro fs r ⟨⟨htold, hfs⟩, hdelivers⟩
  have hafter := hdelivers.after (not_published_of_sending hsending)
  exact {
    resolves := decoded_iff hsent.1 htold hfs
    delivers := hafter.returned
    bounded := fun _ hall => hsent.2 fun e he =>
      (not_ends_iff.mp (hall e (List.mem_append_left fs he))).2
    endless := fun hr => .inr (hafter.running hr) }

lemma accounts (options : GatewayClientOptions) (body : Body) (headers : List (JsStr × JsStr))
    (fuel : ℕ) (before : List Event) :
    Emits id (options.dispatch runtime body headers fuel) before
      (Account (options.timeoutMs.getD defaultTimeoutMs)
        ((options.retry.getD {}).policy.getD defaultRetryPolicy) fuel) := by
  unfold GatewayClientOptions.dispatch
  extract_lets config
  have hsound : Sound config.timeoutMs _ (options.send runtime body) :=
    sound_send runtime options body
  refine emits_bind (emits_sent hsound rfl before) ?_ ?_
  · rintro es (v | response) t ⟨hsent, hsending⟩
    · obtain ⟨pre, e, rfl, hpre, he⟩ := hsent
      refine (classified_iff hpre (hsending e (by simp)) he t).mono ?_
      rintro fs r ⟨rfl, hrunning, hiff⟩
      rw [List.append_nil]
      exact account_of_stopped (halts he) hsending hrunning hiff
    · exact account_decodeOutcome runtime hsent hsending options.theBus t
  · rintro es halt t ⟨hsent, hsending⟩
    cases halt with
    | running =>
      refine ⟨fun hr => absurd ⟨t, rfl⟩ hr, fun hr => absurd ⟨t, rfl⟩ hr, ?_, fun _ => .inl ?_⟩
      · rintro ⟨outcome, hanswer, -⟩
        cases hanswer
      · exact ⟨fun e he => not_ends_iff.mpr ⟨hsent.1 e he, hsent.2.1 e he⟩, hsent.2.2⟩
    | rejected v => exact absurd hsent id
    | pending =>
      obtain ⟨pre, e, rfl, hpre, he⟩ := hsent
      refine account_of_stopped (halts he) hsending (by simp) ?_
      rw [forall_not_fatal_append hpre]
      refine iff_of_false ?_ (by simp [fatal, he])
      rintro ⟨outcome, hanswer, -⟩
      cases hanswer

lemma continues_dispatch (options : GatewayClientOptions) (body : Body)
    (headers : List (JsStr × JsStr)) (fuel fuel' : ℕ) (hle : fuel ≤ fuel') :
    Continues (options.dispatch runtime body headers fuel)
      (options.dispatch runtime body headers fuel') := by
  unfold GatewayClientOptions.dispatch
  extract_lets config
  have hsound : Sound config.timeoutMs _ (options.send runtime body) :=
    sound_send runtime options body
  refine continues_bind (continues_attempt (hsound.continues fuel fuel' config hle)) ?_ ?_
  · rintro (e | response)
    · exact continues_refl _
    · exact continues_decodeOutcome runtime response options.theBus hle
  · rintro (e | response)
    · refine emitsOnly_bind ?_ fun _ => emitsOnly_pure _
      by_cases hprint : printable e
      · obtain ⟨error, hpure⟩ := classify_printable hprint
        rw [hpure]
        exact emitsOnly_pure error
      · rw [classify_not_printable hprint]
        exact emitsOnly_throw _
    · exact (emitsOnly_decodeOutcome runtime response options.theBus).mono fun _ _ => trivial

/-- What still runs, once the retries are over, is a delivery. -/
lemma delivering_of_ended {options : GatewayClientOptions} {body : Body}
    {headers : List (JsStr × JsStr)} {before : List Event}
    (h : ¬ (ofRat (2 ^ 53)).lt ((options.retry.getD {}).policy.getD defaultRetryPolicy).maxRetries ∨
      ∃ e, Happens (options.dispatch runtime body headers) before e ∧
        ends (options.timeoutMs.getD defaultTimeoutMs)
          ((options.retry.getD {}).policy.getD defaultRetryPolicy) e) :
    ∃ least, ∀ fuel, least ≤ fuel →
      Emits id (options.dispatch runtime body headers fuel) before fun es r => Running r →
        (∃ event bus, .published event bus ∈ es) ∧
          ∀ event bus, .published event bus ∈ es → bus.emit event fuel = none := by
  rcases h with hbound | ⟨e, ⟨least, hmem⟩, hend⟩
  · refine ⟨2 ^ 53, fun fuel hle => (accounts runtime options body headers fuel before).mono ?_⟩
    intro es r haccount hrunning
    rcases haccount.endless hrunning with ⟨-, hrounds⟩ | hdelivering
    · exact absurd (hrounds hle) hbound
    · exact hdelivering
  · refine ⟨least, fun fuel hle => ?_⟩
    have hmem' := (continues_dispatch runtime options body headers least fuel hle).emits_mem hmem
    refine ((accounts runtime options body headers fuel before).and hmem').mono ?_
    rintro es r ⟨haccount, he⟩ hrunning
    rcases haccount.endless hrunning with ⟨hall, -⟩ | hdelivering
    · exact absurd hend (hall e he)
    · exact hdelivering

lemma not_running_of_normalised (h : Normalised es r) : ¬ Running r := by
  rintro ⟨t, rfl⟩
  obtain ⟨outcome, hanswer, -⟩ := h
  cases hanswer

/-- **Dispatches resolve.** A dispatch resolves, and to a network error when the transport fails,
exactly when what happens during it is harmless. -/
theorem normalised_iff_harmless (options : GatewayClientOptions) (body : Body)
    (headers : List (JsStr × JsStr)) (before : List Event) :
    (∃ fuel, Emits id (options.dispatch runtime body headers fuel) before Normalised) ↔
      Harmless (options.timeoutMs.getD defaultTimeoutMs)
        ((options.retry.getD {}).policy.getD defaultRetryPolicy)
        (Happens (options.dispatch runtime body headers) before) := by
  have haccounts := fun fuel => accounts runtime options body headers fuel before
  have hcontinues := continues_dispatch runtime options body headers
  constructor
  · rintro ⟨fuel, h⟩
    obtain ⟨es, hlog, hnormalised, haccount⟩ := h.and (haccounts fuel)
    have hends := not_running_of_normalised hnormalised
    have hall : ∀ e, Happens (options.dispatch runtime body headers) before e → e ∈ es :=
      fun e => mem_of_happens hcontinues hlog hends
    refine ⟨fun e he => (haccount.resolves hends).mp hnormalised e (hall e he), ?_, ?_⟩
    · intro event bus he
      have hemit := haccount.delivers hends event bus (hall _ he)
      obtain ⟨result, hresult⟩ := Option.ne_none_iff_exists'.mp hemit
      exact (bus.settles_iff event).mpr ⟨fuel, result, hresult⟩
    · by_contra hendless
      rw [not_or, not_not] at hendless
      refine haccount.bounded hnormalised (fun e he hend => ?_) hendless.1
      exact hendless.2 ⟨e, ⟨fuel, es, hlog, he⟩, hend⟩
  · intro h
    have hresolves : ∀ fuel, ¬ Running ((options.dispatch runtime body headers fuel).run before) →
        ∃ fuel, Emits id (options.dispatch runtime body headers fuel) before Normalised := by
      intro fuel hends
      obtain ⟨es, hlog, haccount⟩ := haccounts fuel
      refine ⟨fuel, es, hlog, (haccount.resolves hends).mpr fun e he => ?_⟩
      exact h.calm e ⟨fuel, es, hlog, he⟩
    obtain ⟨least, hleast⟩ := delivering_of_ended runtime h.ended
    obtain ⟨es, hlog, hdelivering⟩ := hleast least le_rfl
    by_cases hrunning : Running ((options.dispatch runtime body headers least).run before)
    · obtain ⟨⟨event, bus, hmem⟩, -⟩ := hdelivering hrunning
      have hpublished : Emits id (options.dispatch runtime body headers least) before
          fun es _ => .published event bus ∈ es := ⟨es, hlog, hmem⟩
      have hsettles := h.delivered event bus ⟨least, hpublished⟩
      obtain ⟨enough, result, hemit⟩ := (bus.settles_iff event).mp hsettles
      have hle := Nat.le_max_left least enough
      obtain ⟨es', hlog', hdelivering', hmem'⟩ := (hleast _ hle).and
        ((hcontinues least _ hle).emits_mem hpublished)
      refine hresolves (max least enough) fun hrunning' => ?_
      have hnone := (hdelivering' hrunning').2 event bus hmem'
      rw [bus.emit_mono event (Nat.le_max_right least enough) hemit] at hnone
      cases hnone
    · exact hresolves least hrunning

end

/-! ### A body that breaks off -/

namespace Sample

/-- The headers arrive, and the connection drops while the body is read. -/
def runtime : Runtime where
  fetch := fun _ _ => ⟨false, .fulfilled ⟨200⟩⟩
  setTimeout := fun _ _ => .fulfilled ()
  random := fun _ => ofRat 0
  text := fun _ => .rejected (.typeError (js "terminated"))
  parse := fun _ => none

def body : Body := fun _ => .ok (some (js "\x7b\x7d"))

end Sample

def rejects (r : EStateM.Result (Halt Thrown) (List Event) DispatchOutcome) : Bool :=
  match r with
  | .error (.rejected _) _ => true
  | _ => false

/-- A dispatch rejects when the body of its response breaks off. -/
theorem broken_body_rejects : ¬ ∀ (runtime : Runtime) (options : GatewayClientOptions) (body : Body)
    (headers : List (JsStr × JsStr)),
    ∃ fuel, Emits id (options.dispatch runtime body headers fuel) [] Normalised := by
  intro h
  obtain ⟨fuel, es, -, outcome, hanswer, -⟩ := h Sample.runtime {} Sample.body []
  have hrejects : rejects ((GatewayClientOptions.dispatch Sample.runtime {} Sample.body [] 0).run
      []) := by decide
  rcases continues_dispatch Sample.runtime {} Sample.body [] 0 fuel (Nat.zero_le _) [] with
    heq | ⟨t, ht, -⟩
  · cases hrun : (GatewayClientOptions.dispatch Sample.runtime {} Sample.body [] fuel).run [] with
    | ok a t =>
      rw [heq, hrun] at hrejects
      cases hrejects
    | error halt t =>
      rw [hrun] at hanswer
      cases hanswer
  · rw [ht] at hrejects
    cases hrejects

end ModelDispatcher.ClientOutcomes
