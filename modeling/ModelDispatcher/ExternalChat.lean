import ModelDispatcher.Lib.Logged
import ModelDispatcher.Lib.Urls

/-!
Asking outside of the app: a question is copied to the clipboard and handed to a public chat product
in a new tab, in the URL where the product reads it from there.
-/

namespace ModelDispatcher.ExternalChat

open Lib.Text Lib.Js Lib.CodePoints Lib.Urls Lib.Logged

/-! ### The products -/

inductive ExternalChatProviderId
  | chatgpt | claude | gemini | geminiApp | groq
  deriving DecidableEq

/-- What a hand-off reads of a product's metadata. -/
structure ExternalChatProviderInfo where
  homeUrl : JsStr
  buildUrl : Option (JsStr → JsStr) := none

def externalChatProviders : ExternalChatProviderId → ExternalChatProviderInfo
  | .chatgpt => {
      homeUrl := js "https://chatgpt.com/"
      buildUrl := some fun question => js "https://chatgpt.com/?" ++
        serializeParams [(js "q", question), (js "hints", js "search")] }
  | .claude => {
      homeUrl := js "https://claude.ai/new"
      buildUrl := some fun question => js "https://claude.ai/new?" ++
        serializeParams [(js "q", question)] }
  | .gemini => {
      homeUrl := js "https://www.google.com/"
      buildUrl := some fun question => js "https://www.google.com/search?" ++
        serializeParams [(js "q", question), (js "udm", js "50")] }
  | .geminiApp => { homeUrl := js "https://gemini.google.com/app" }
  | .groq => { homeUrl := js "https://groq.com/" }

/-! ### The browser -/

/-- A value the browser throws. -/
abbrev Thrown := JsStr

inductive Event
  | copied (text : JsStr) (failure : Option Thrown)
  | opened (url : JsStr) (failure : Option Thrown)

/-- `writeText`, with what it throws or rejects with. -/
abbrev Clipboard := List Event → JsStr → Option Thrown

/-- A function that opens a tab, with what it throws. -/
abbrev Opener := List Event → JsStr → Option Thrown

structure OpenExternalChatDeps where
  openTab : Option Opener := none
  clipboard : Option Clipboard := none

/-- What there is besides the dependencies: `window` and `navigator.clipboard`. -/
structure Host where
  window : Option Opener := none
  clipboard : Option Clipboard := none

structure OpenExternalChatResult where
  provider : ExternalChatProviderId
  url : JsStr
  prefilled : Bool
  copiedToClipboard : Bool
  deriving DecidableEq

abbrev Run := EStateM Thrown (List Event)

def resolveClipboard (host : Host) (clipboard : Option Clipboard) : Option Clipboard :=
  clipboard <|> host.clipboard

/-- The `try` around the clipboard, if there is one: whether the copy succeeded. -/
def copy (clipboard : Option Clipboard) (question : JsStr) : Run Bool :=
  match clipboard with
  | none => pure false
  | some clipboard => do
    let log ← get
    let failure := clipboard log question
    set (log ++ [.copied question failure])
    return failure.isNone

/-- Outside a browser nothing is opened. -/
def openWith (opener : Option Opener) (url : JsStr) : Run Unit :=
  match opener with
  | none => pure ()
  | some opener => do
    let log ← get
    let failure := opener log url
    set (log ++ [.opened url failure])
    match failure with
    | none => pure ()
    | some e => throw e

def openExternalChat (host : Host) (provider : ExternalChatProviderId) (question : JsStr)
    (deps : OpenExternalChatDeps) : Run OpenExternalChatResult := do
  let info := externalChatProviders provider
  let prefilled := info.buildUrl.isSome
  let url := match info.buildUrl with
    | some buildUrl => buildUrl question
    | none => info.homeUrl
  let copiedToClipboard ← copy (resolveClipboard host deps.clipboard) question
  openWith (deps.openTab <|> host.window) url
  return ⟨provider, url, prefilled, copiedToClipboard⟩

def urlOf (provider : ExternalChatProviderId) (question : JsStr) : JsStr :=
  match (externalChatProviders provider).buildUrl with
  | some buildUrl => buildUrl question
  | none => (externalChatProviders provider).homeUrl

example : urlOf .claude (js "a b&c") = js "https://claude.ai/new?q=a+b%26c" := by decide

/-! ### What a product reads -/

/-- The tab is on a page of the host, which reads the question among other parameters. -/
def Reads (host path : JsStr) (others : List (List Char × List Char)) (question url : JsStr) :
    Prop :=
  ∃ query, address url = some ⟨js "https", host, path, some query, none⟩ ∧
    parseParams query = some ((['q'], scalarValues question) :: others)

/-- Parameters after a question mark are read by the page they are put behind. -/
lemma reads_serializeParams {base : JsStr} (host path : JsStr) (others : List (JsStr × JsStr))
    (hbase : base = js "https" ++ js "://" ++ host ++ 0x2F :: path ++ js "?")
    (hhost : ∀ u ∈ host, u ∉ delimiters) (hpath : ∀ u ∈ path, u ∉ js "?#") :
    ∃ page parameters, ∀ question, Reads host page parameters question
      (base ++ serializeParams ((js "q", question) :: others)) := by
  refine ⟨0x2F :: path, others.map fun p => (scalarValues p.1, scalarValues p.2),
    fun question => ⟨serializeParams ((js "q", question) :: others), ?_, ?_⟩⟩
  · have hhash : ∀ text ∈ some (serializeParams ((js "q", question) :: others)),
        0x23 ∉ text := by
      intro text htext
      obtain rfl := Option.mem_some_iff.mp htext
      exact not_mem_serializeParams (not_mem_formEncode (by decide) (by decide) (by decide))
        (by decide) _
    rw [hbase, List.append_assoc _ (js "?")]
    exact address_append (forall_of_all (by decide)) hhost hpath hhash
  · rw [parseParams_serializeParams]
    rfl

/-- Every product is on an HTTPS site of its own; one that takes the question in its URL reads it
there, next to parameters that are the same for all questions. -/
lemma exists_reads (provider : ExternalChatProviderId) :
    ∃ home, address (externalChatProviders provider).homeUrl = some home ∧
      home.scheme = js "https" ∧
      ∀ buildUrl, (externalChatProviders provider).buildUrl = some buildUrl →
        ∃ path others, ∀ question,
          Reads home.authority path others question (buildUrl question) := by
  cases provider with
  | chatgpt =>
    refine ⟨⟨js "https", js "chatgpt.com", js "/", none, none⟩, by decide, rfl, ?_⟩
    intro buildUrl h
    obtain rfl := Option.some.inj h
    exact reads_serializeParams (js "chatgpt.com") [] [(js "hints", js "search")]
      (by decide) (forall_of_all (by decide)) (forall_of_all (by decide))
  | claude =>
    refine ⟨⟨js "https", js "claude.ai", js "/new", none, none⟩, by decide, rfl, ?_⟩
    intro buildUrl h
    obtain rfl := Option.some.inj h
    exact reads_serializeParams (js "claude.ai") (js "new") [] (by decide)
      (forall_of_all (by decide)) (forall_of_all (by decide))
  | gemini =>
    refine ⟨⟨js "https", js "www.google.com", js "/", none, none⟩, by decide, rfl, ?_⟩
    intro buildUrl h
    obtain rfl := Option.some.inj h
    exact reads_serializeParams (js "www.google.com") (js "search") [(js "udm", js "50")]
      (by decide) (forall_of_all (by decide)) (forall_of_all (by decide))
  | geminiApp =>
    exact ⟨⟨js "https", js "gemini.google.com", js "/app", none, none⟩, by decide, rfl,
      nofun⟩
  | groq => exact ⟨⟨js "https", js "groq.com", js "/", none, none⟩, by decide, rfl, nofun⟩

/-! ### A hand-off -/

def copiedText : Event → Option JsStr
  | .copied text _ => some text
  | _ => none

def openedUrl : Event → Option JsStr
  | .opened url _ => some url
  | _ => none

/-- The text is copied as it is, whatever the product; then one tab is opened, whatever became of
the copy; nothing but the tab can fail. -/
structure HandedOff (clipboard : Option Clipboard) (opener : Option Opener)
    (question url : JsStr) (es : List Event) (r : Except Thrown OpenExternalChatResult) : Prop where
  copies : es.filterMap copiedText = if clipboard.isSome then [question] else []
  tabs : es.filterMap openedUrl = if opener.isSome then [url] else []
  copied_first : ∀ e ∈ es, (copiedText e).isSome → es.head? = some e
  fails : ∀ e, r = .error e ↔ .opened url (some e) ∈ es
  reports : ∀ result, r = .ok result →
    result.url = url ∧ (result.copiedToClipboard ↔ .copied question none ∈ es)

/-- The events of a copy, if there is a clipboard, and whether it succeeded. -/
lemma emits_copy (clipboard : Option Clipboard) (question : JsStr) (log : List Event) :
    Emits id (copy clipboard question) log fun es r =>
      es = (clipboard.toList.map fun c => .copied question (c log question)) ∧
        answer r = .ok (clipboard.any fun c => (c log question).isNone) := by
  cases clipboard with
  | none => exact emits_pure ⟨rfl, rfl⟩
  | some clipboard => exact ⟨_, rfl, rfl, rfl⟩

/-- The events of a tab, if there is a way to open one, and how that ends. -/
lemma emits_openWith (opener : Option Opener) (url : JsStr) (log : List Event) :
    Emits id (openWith opener url) log fun es r =>
      es = (opener.toList.map fun o => .opened url (o log url)) ∧
        answer r = match opener.bind fun o => o log url with
          | none => .ok ()
          | some e => .error e := by
  cases opener with
  | none => exact emits_pure ⟨rfl, rfl⟩
  | some opener =>
    refine ⟨[.opened url (opener log url)], ?_, rfl, ?_⟩
    · unfold openWith
      cases hfailure : opener log url <;> simp [EStateM.run_bind, hfailure]
    · unfold openWith
      cases hfailure : opener log url <;> simp [EStateM.run_bind, hfailure]

lemma handedOff {clipboard : Option Clipboard} {opener : Option Opener} {question url : JsStr}
    (log log' : List Event) {r : Except Thrown OpenExternalChatResult}
    (hok : (opener.bind fun o => o log' url) = none → ∃ result, r = .ok result ∧
      result.url = url ∧
        result.copiedToClipboard = clipboard.any fun c => (c log question).isNone)
    (herror : ∀ e, (opener.bind fun o => o log' url) = some e → r = .error e) :
    HandedOff clipboard opener question url
      ((clipboard.toList.map fun c => .copied question (c log question)) ++
        opener.toList.map fun o => .opened url (o log' url)) r := by
  have htab : ∀ e, r = .error e ↔ (opener.bind fun o => o log' url) = some e := by
    intro e
    refine ⟨fun hr => ?_, herror e⟩
    cases hfailure : opener.bind fun o => o log' url with
    | none =>
      obtain ⟨result, hresult, -⟩ := hok hfailure
      rw [hresult] at hr
      cases hr
    | some e' =>
      rw [herror e' hfailure] at hr
      rw [Except.error.inj hr]
  constructor
  · cases clipboard <;> cases opener <;> rfl
  · cases clipboard <;> cases opener <;> rfl
  · cases clipboard <;> cases opener <;> simp [copiedText]
  · intro e
    rw [htab]
    cases clipboard <;> cases opener <;> simp [eq_comm]
  · intro result hr
    cases hfailure : opener.bind fun o => o log' url with
    | none =>
      obtain ⟨result', hresult, hurl, hcopied⟩ := hok hfailure
      obtain rfl := Except.ok.inj (hresult.symm.trans hr)
      refine ⟨hurl, ?_⟩
      rw [hcopied]
      cases clipboard with
      | none => cases opener <;> simp
      | some clipboard =>
        cases hcopy : clipboard log question <;> cases opener <;> simp [hcopy]
    | some e =>
      rw [herror e hfailure] at hr
      cases hr

/-- What a hand-off leaves. -/
lemma emits_openExternalChat (host : Host) (provider : ExternalChatProviderId) (question : JsStr)
    (deps : OpenExternalChatDeps) (log : List Event) :
    Emits id (openExternalChat host provider question deps) log fun es r =>
      HandedOff (resolveClipboard host deps.clipboard) (deps.openTab <|> host.window) question
        (urlOf provider question) es (answer r) := by
  unfold openExternalChat
  extract_lets info prefilled url
  refine emits_bind (emits_copy _ question log) ?_ ?_
  · rintro copies copied t ⟨rfl, hcopied⟩
    refine emits_bind (emits_openWith _ (urlOf provider question) t) ?_ ?_
    · rintro tabs _ t' ⟨rfl, htab⟩
      refine emits_pure ?_
      rw [List.append_nil]
      refine handedOff log t (fun _ => ⟨_, rfl, rfl, Except.ok.inj hcopied⟩) fun e he => ?_
      rw [he] at htab
      cases htab
    · rintro tabs e t' ⟨rfl, htab⟩
      refine handedOff log t (fun hnone => ?_) fun e' he => ?_
      · rw [hnone] at htab
        cases htab
      · rw [he] at htab
        obtain rfl := Except.error.inj htab
        rfl
  · rintro copies e t ⟨-, hcopied⟩
    cases hcopied

/-- **A question asked outside.** Every product is on an HTTPS site of its own. Where it takes the
question in its URL, it reads it there unit by unit, and no question changes the site, the page or
another parameter. Whatever the clipboard does, the question is copied and one tab is opened. -/
theorem question_handed_off (host : Host) (provider : ExternalChatProviderId)
    (deps : OpenExternalChatDeps) :
    (∃ home, address (externalChatProviders provider).homeUrl = some home ∧
      home.scheme = js "https" ∧
      ∀ buildUrl, (externalChatProviders provider).buildUrl = some buildUrl →
        ∃ path others, ∀ question,
          Reads home.authority path others question (buildUrl question)) ∧
    ∀ question log, Emits id (openExternalChat host provider question deps) log fun es r =>
      HandedOff (resolveClipboard host deps.clipboard) (deps.openTab <|> host.window) question
        (urlOf provider question) es (answer r) :=
  ⟨exists_reads provider, fun question log =>
    emits_openExternalChat host provider question deps log⟩

end ModelDispatcher.ExternalChat
