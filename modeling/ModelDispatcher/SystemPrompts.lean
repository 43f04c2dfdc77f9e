import ModelDispatcher.Messages

/-!
The system texts in the request bodies of the provider modules: two of the modules send one text
beside the turns, the other two send every system turn, and this makes a difference exactly for
messages with more than one instruction.
-/

namespace ModelDispatcher.SystemPrompts

open Lib.Js BrowserAgent Messages

/-- The body of the request that the provider's module builds. -/
def bodyOf (cfg : ProviderCallConfig) (messages : List ChatMessage) (options : RequestOptions)
    (stream : Bool) : JsValue :=
  match cfg.provider with
  | .gemini => Gemini.buildBody messages options
  | .anthropic => Anthropic.buildBody cfg messages options stream
  | .openai | .groq => OpenAICompatible.buildBody cfg messages options stream
  | .ollama => Ollama.buildBody cfg messages options stream

/-- The system texts among the turns of a body. -/
def systemTextsIn (turns : List JsValue) : List JsStr :=
  turns.filterMap fun turn =>
    if (turn.property (js "role")).asString = some (js "system") then
      (turn.property (js "content")).asString
    else none

/-- The system texts where a vendor looks for them in a body. -/
def systemTextsOf (provider : ProviderId) (body : JsValue) : List JsStr :=
  match provider with
  | .gemini =>
    ((body.property (js "systemInstruction")).property (js "parts")).elements.filterMap fun part =>
      (part.property (js "text")).asString
  | .anthropic => (body.property (js "system")).asString.toList
  | .openai | .groq | .ollama => systemTextsIn (body.property (js "messages")).elements

def systemTurns (messages : List ChatMessage) : List JsStr :=
  (messages.filter (·.role = .system)).map (·.content)

/-- What the modules send that take the system text apart. -/
def apart (messages : List ChatMessage) (explicit : Option JsStr) : List JsStr :=
  ((explicit <|> (systemTurns messages).head?).filter (· ≠ [])).toList

/-- What the modules send that leave the system turns among the others. -/
def among (messages : List ChatMessage) (explicit : Option JsStr) : List JsStr :=
  if systemTurns messages = [] then (explicit.filter (· ≠ [])).toList else systemTurns messages

/-- There is no system turn, or a single one that says something, and which an explicit instruction
repeats. -/
def OneInstruction (messages : List ChatMessage) (explicit : Option JsStr) : Prop :=
  systemTurns messages = [] ∨
    ∃ text, systemTurns messages = [text] ∧ text ≠ [] ∧ (explicit = none ∨ explicit = some text)

/-! ### The four bodies -/

section

variable (cfg : ProviderCallConfig) (messages : List ChatMessage) (options : RequestOptions)

lemma systemOf_eq (explicit : Option JsStr) :
    systemOf messages explicit = (explicit <|> (systemTurns messages).head?) := by
  rw [systemOf, systemTurns, List.head?_map, List.head?_filter]

lemma systemTextsOf_gemini : systemTextsOf .gemini (Gemini.buildBody messages options) =
    apart messages options.systemInstruction := by
  unfold Gemini.buildBody apart
  rw [← systemOf_eq]
  cases systemOf messages options.systemInstruction with
  | none => rfl
  | some system => cases system <;> rfl

lemma systemTextsOf_anthropic (stream : Bool) :
    systemTextsOf .anthropic (Anthropic.buildBody cfg messages options stream) =
      apart messages options.systemInstruction := by
  unfold Anthropic.buildBody apart
  rw [← systemOf_eq]
  cases systemOf messages options.systemInstruction with
  | none => cases stream <;> rfl
  | some system => cases system <;> cases stream <;> rfl

lemma systemTextsIn_turn : systemTextsIn (messages.map turn) = systemTurns messages := by
  induction messages with
  | nil => rfl
  | cons m messages ih =>
    rw [List.map_cons]
    obtain ⟨role, content⟩ := m
    cases role with
    | system =>
      show content :: systemTextsIn (messages.map turn) = content :: systemTurns messages
      rw [ih]
    | user => exact ih
    | assistant => exact ih

lemma any_system_iff : messages.any (·.role = .system) ↔ systemTurns messages ≠ [] := by
  simp [systemTurns]

lemma systemTextsIn_withSystem (explicit : Option JsStr) :
    systemTextsIn (withSystem messages explicit) = among messages explicit := by
  have hturns := systemTextsIn_turn messages
  unfold withSystem among
  rcases explicit with - | - | ⟨c, text⟩
  · simp only [List.nil_append, hturns]
    split_ifs with hnil <;> simp [hnil]
  · simp only [List.nil_append, hturns]
    split_ifs with hnil <;> simp [hnil]
  · simp only [any_system_iff]
    by_cases hnil : systemTurns messages = []
    · rw [if_neg (not_not_intro hnil), if_pos hnil]
      show (c :: text) :: systemTextsIn (messages.map turn) = [c :: text]
      rw [hturns, hnil]
    · rw [if_pos hnil, if_neg hnil, List.nil_append, hturns]

lemma systemTextsOf_openAICompatible (stream : Bool) :
    systemTextsOf .openai (OpenAICompatible.buildBody cfg messages options stream) =
      among messages options.systemInstruction :=
  systemTextsIn_withSystem messages options.systemInstruction

lemma systemTextsOf_ollama (stream : Bool) :
    systemTextsOf .ollama (Ollama.buildBody cfg messages options stream) =
      among messages options.systemInstruction :=
  systemTextsIn_withSystem messages options.systemInstruction

/-- Gemini and Anthropic take the system text apart, the others leave it among the turns. -/
lemma systemTextsOf_bodyOf (stream : Bool) :
    systemTextsOf cfg.provider (bodyOf cfg messages options stream) =
      if cfg.provider = .gemini ∨ cfg.provider = .anthropic then
        apart messages options.systemInstruction
      else among messages options.systemInstruction := by
  unfold bodyOf
  cases cfg.provider with
  | gemini => exact systemTextsOf_gemini messages options
  | anthropic => exact systemTextsOf_anthropic cfg messages options stream
  | openai => exact systemTextsOf_openAICompatible cfg messages options stream
  | groq => exact systemTextsOf_openAICompatible cfg messages options stream
  | ollama => exact systemTextsOf_ollama cfg messages options stream

end

/-! ### When they agree -/

section

variable {messages : List ChatMessage} {explicit : Option JsStr}

/-- The two kinds of modules send the same texts for one instruction only. -/
lemma apart_eq_among_iff : apart messages explicit = among messages explicit ↔
    OneInstruction messages explicit := by
  unfold apart among OneInstruction
  generalize systemTurns messages = turns
  rcases turns with - | ⟨text, turns⟩
  · cases explicit <;> simp
  rw [if_neg (List.cons_ne_nil text turns)]
  cases explicit with
  | none => cases text <;> cases turns <;> simp [Option.filter]
  | some e => cases e <;> cases text <;> cases turns <;> simp [Option.filter, eq_comm]

/-- One of each kind. -/
lemma agree_iff (options : RequestOptions) :
    (∀ (cfg cfg' : ProviderCallConfig) (stream stream' : Bool),
      systemTextsOf cfg.provider (bodyOf cfg messages options stream) =
        systemTextsOf cfg'.provider (bodyOf cfg' messages options stream')) ↔
      apart messages options.systemInstruction = among messages options.systemInstruction := by
  simp only [systemTextsOf_bodyOf]
  constructor
  · intro h
    exact h ⟨.gemini, [], [], []⟩ ⟨.openai, [], [], []⟩ false false
  · intro h cfg cfg' stream stream'
    split_ifs
    · rfl
    · exact h
    · exact h.symm
    · rfl

end

/-- The system texts are the same for all providers if and only if there is one instruction. -/
theorem systemTexts_agree_iff (messages : List ChatMessage) (options : RequestOptions) :
    (∀ (cfg cfg' : ProviderCallConfig) (stream stream' : Bool),
      systemTextsOf cfg.provider (bodyOf cfg messages options stream) =
        systemTextsOf cfg'.provider (bodyOf cfg' messages options stream')) ↔
      OneInstruction messages options.systemInstruction :=
  (agree_iff options).trans apart_eq_among_iff

/-- Gemini drops the second of two system turns, which OpenAI gets. -/
theorem second_system_turn_dropped :
    ¬ ∀ (messages : List ChatMessage) (options : RequestOptions) (cfg cfg' : ProviderCallConfig)
      (stream stream' : Bool),
      systemTextsOf cfg.provider (bodyOf cfg messages options stream) =
        systemTextsOf cfg'.provider (bodyOf cfg' messages options stream') := by
  intro h
  have hsame := h [⟨.system, js "be terse"⟩, ⟨.user, js "hi"⟩, ⟨.system, js "answer in French"⟩] {}
    ⟨.gemini, js "gemini-2.0-flash", js "k", []⟩ ⟨.openai, js "gpt-4o-mini", js "k", []⟩ false false
  exact absurd hsame (by decide)

/-- A chat has no system turns, so its instruction is the same for all providers. -/
theorem chat_systemTexts_agree (uiMessages : List UiMessage) (chat : BuildMessagesOptions)
    (options : RequestOptions) (cfg cfg' : ProviderCallConfig) (stream stream' : Bool) :
    systemTextsOf cfg.provider (bodyOf cfg (buildMessages uiMessages chat) options stream) =
      systemTextsOf cfg'.provider
        (bodyOf cfg' (buildMessages uiMessages chat) options stream') := by
  have hnone : systemTurns (buildMessages uiMessages chat) = [] := by
    rw [systemTurns, List.map_eq_nil_iff, List.filter_eq_nil_iff]
    intro m hm
    rcases role_of_mem_buildMessages uiMessages chat hm with hrole | hrole <;> simp [hrole]
  exact (agree_iff options).mpr (apart_eq_among_iff.mpr (.inl hnone)) cfg cfg' stream stream'

end ModelDispatcher.SystemPrompts
