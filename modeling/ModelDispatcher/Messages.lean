import Mathlib.Data.List.Chain
import Mathlib.Data.List.Induction
import ModelDispatcher.BrowserAgent

/-!
A UI's chat history as the providers take it: the roles and contents that are kept, the filler
turn, and the merge of turns of one role.
-/

namespace ModelDispatcher.Messages

open Lib.Js BrowserAgent

/-! ### The messages of a UI -/

/-- A message as the UI has it, whatever the UI put for a role; of the content it is the text
`String` makes of it, with `none` for `null` and `undefined`. -/
structure UiMessage where
  role : JsValue
  content : Option JsStr

structure BuildMessagesOptions where
  forceTrailingFiller : Bool := false
  fillerContent : JsStr := js "begin"
  dropContent : Option JsStr := none

def validTurnRoles : List ChatRole := [.user, .assistant]

def maxMessageLength : ℕ := 4000

/-- The role, where it is one of a turn, and `user` otherwise. -/
def coerceRole (role : JsValue) : ChatRole :=
  (validTurnRoles.find? fun r => role.asString = some r.text).getD .user

def toChatMessage (message : UiMessage) : ChatMessage where
  role := coerceRole message.role
  content := (trim (message.content.getD [])).take maxMessageLength

section

variable (uiMessages : List UiMessage) (options : BuildMessagesOptions)

/-- The messages that are kept, before any filler. -/
def retained : List ChatMessage :=
  (uiMessages.map toChatMessage).filter fun m =>
    0 < m.content.length && options.dropContent ≠ some m.content

def filler : ChatMessage := ⟨.user, options.fillerContent⟩

def withFiller (messages : List ChatMessage) : List ChatMessage :=
  if options.forceTrailingFiller then messages ++ [filler options]
  else if (messages.head?.map (·.role)) = some .assistant then filler options :: messages
  else messages

/-- One round of the loop that merges. -/
def merge (merged : List ChatMessage) (message : ChatMessage) : List ChatMessage :=
  match merged.getLast? with
  | none => merged ++ [message]
  | some last =>
    if last.role = message.role then
      merged.dropLast ++ [⟨last.role, last.content ++ js "\n\n" ++ message.content⟩]
    else merged ++ [message]

def buildMessages : List ChatMessage :=
  let merged := (withFiller options (retained uiMessages options)).foldl merge []
  if merged.length > 0 then merged else [filler options]

/-- The turns before they are merged: an empty history is a filler. -/
def normalised : List ChatMessage :=
  match withFiller options (retained uiMessages options) with
  | [] => [filler options]
  | m :: messages => m :: messages

end

/-- A chat: the history is normalised before it is streamed. -/
def streamChat (runtime : Runtime) (cfg : AgentConfig) (uiMessages : List UiMessage)
    (request : RequestOptions) (options : BuildMessagesOptions) :
    EStateM AgentError Machine JsStr :=
  streamComplete runtime cfg (.messages (buildMessages uiMessages options)) request

/-! ### Runs of one role -/

/-- Some contents in a row under one role. -/
structure SameRole where
  role : ChatRole
  contents : List JsStr
  filled : contents ≠ []

namespace SameRole

def messages (run : SameRole) : List ChatMessage := run.contents.map (⟨run.role, ·⟩)

/-- The contents with blank lines in between. -/
def joined (run : SameRole) : ChatMessage := ⟨run.role, (js "\n\n").intercalate run.contents⟩

def single (m : ChatMessage) : SameRole := ⟨m.role, [m.content], List.cons_ne_nil _ _⟩

def snoc (run : SameRole) (content : JsStr) : SameRole :=
  ⟨run.role, run.contents ++ [content], List.append_ne_nil_of_right_ne_nil _ (List.cons_ne_nil _ _)⟩

@[simp] lemma messages_single (m : ChatMessage) : (single m).messages = [m] := rfl

@[simp] lemma joined_single (m : ChatMessage) : (single m).joined = m := by
  simp [joined, single]

@[simp] lemma messages_snoc (run : SameRole) (content : JsStr) :
    (run.snoc content).messages = run.messages ++ [⟨run.role, content⟩] := by
  simp [messages, snoc]

lemma intercalate_snoc {sep : JsStr} {contents : List JsStr} (h : contents ≠ [])
    (content : JsStr) :
    sep.intercalate (contents ++ [content]) = sep.intercalate contents ++ sep ++ content := by
  induction contents with
  | nil => exact absurd rfl h
  | cons c contents ih =>
    cases contents with
    | nil => simp
    | cons d contents =>
      rw [List.cons_append, List.intercalate_cons_of_ne_nil (by simp),
        ih (List.cons_ne_nil _ _), List.intercalate_cons_of_ne_nil (List.cons_ne_nil _ _)]
      simp only [List.append_assoc]

lemma joined_snoc (run : SameRole) (content : JsStr) :
    (run.snoc content).joined = ⟨run.role, run.joined.content ++ js "\n\n" ++ content⟩ := by
  rw [joined, snoc, intercalate_snoc run.filled]
  rfl

end SameRole

/-- The runs make up the messages, each as long as it can be, and joined they are the merged
messages. -/
structure Groups (runs : List SameRole) (messages merged : List ChatMessage) : Prop where
  parts : runs.flatMap SameRole.messages = messages
  maximal : runs.IsChain (·.role ≠ ·.role)
  joins : runs.map SameRole.joined = merged

lemma groups_nil : Groups [] [] [] := ⟨rfl, .nil, rfl⟩

lemma groups_single (m : ChatMessage) : Groups [.single m] [m] [m] :=
  ⟨rfl, .singleton _, by simp⟩

/-- One more message extends the last run or starts one. -/
lemma groups_merge {runs : List SameRole} {messages merged : List ChatMessage}
    (h : Groups runs messages merged) (m : ChatMessage) :
    ∃ runs', Groups runs' (messages ++ [m]) (merge merged m) := by
  obtain ⟨rfl, hmaximal, rfl⟩ := h
  rcases List.eq_nil_or_concat runs with rfl | ⟨runs, run, rfl⟩
  · exact ⟨[.single m], groups_single m⟩
  rw [List.concat_eq_append] at hmaximal ⊢
  have hlast : ((runs ++ [run]).map SameRole.joined).getLast? = some run.joined := by simp
  by_cases hrole : run.role = m.role
  · have hmerge : merge ((runs ++ [run]).map SameRole.joined) m =
        (runs ++ [run.snoc m.content]).map SameRole.joined := by
      rw [merge, hlast]
      simp [show run.joined.role = m.role from hrole, SameRole.joined_snoc, ← hrole]
    refine ⟨runs ++ [run.snoc m.content], ?_, ?_, hmerge.symm⟩
    · rw [List.flatMap_append, List.flatMap_append, List.append_assoc]
      simp [hrole]
    · rw [List.isChain_append] at hmaximal ⊢
      exact ⟨hmaximal.1, .singleton _, by simpa [SameRole.snoc] using hmaximal.2.2⟩
  · have hmerge : merge ((runs ++ [run]).map SameRole.joined) m =
        (runs ++ [run] ++ [SameRole.single m]).map SameRole.joined := by
      rw [merge, hlast]
      simp [show run.joined.role ≠ m.role from hrole]
    refine ⟨runs ++ [run] ++ [.single m], by simp, ?_, hmerge.symm⟩
    refine List.isChain_append.mpr ⟨hmaximal, .singleton _, ?_⟩
    intro last hlast' next hnext
    obtain rfl : run = last := by simpa using hlast'
    obtain rfl : SameRole.single m = next := by simpa using hnext
    exact hrole

/-- What the loop has merged of the messages it has seen. -/
lemma groups_foldl (messages : List ChatMessage) :
    ∃ runs, Groups runs messages (messages.foldl merge []) := by
  induction messages using List.reverseRecOn with
  | nil => exact ⟨[], groups_nil⟩
  | append_singleton messages m ih =>
    obtain ⟨runs, hruns⟩ := ih
    rw [List.foldl_append]
    exact groups_merge hruns m

section

variable {runs : List SameRole} {messages merged : List ChatMessage}

lemma Groups.merged_eq_nil (h : Groups runs messages merged) : merged = [] ↔ messages = [] := by
  obtain ⟨rfl, -, rfl⟩ := h
  have hfilled : ∀ run : SameRole, run.messages ≠ [] := fun run hnil =>
    run.filled (List.map_eq_nil_iff.mp hnil)
  cases runs with
  | nil => simp
  | cons run runs => simp [hfilled run]

/-- Joining keeps the role in front. -/
lemma Groups.head_role (h : Groups runs messages merged) :
    merged.head?.map (·.role) = messages.head?.map (·.role) := by
  obtain ⟨rfl, -, rfl⟩ := h
  cases runs with
  | nil => rfl
  | cons run runs =>
    obtain ⟨content, contents, hcontents⟩ := List.exists_cons_of_ne_nil run.filled
    simp [SameRole.messages, SameRole.joined, hcontents]

lemma Groups.alternates (h : Groups runs messages merged) : merged.IsChain (·.role ≠ ·.role) := by
  obtain ⟨-, hmaximal, rfl⟩ := h
  exact List.isChain_map_of_isChain SameRole.joined (fun _ _ hne => hne) hmaximal

lemma Groups.role_mem (h : Groups runs messages merged) {m : ChatMessage} (hm : m ∈ merged) :
    ∃ m' ∈ messages, m'.role = m.role := by
  obtain ⟨rfl, -, rfl⟩ := h
  obtain ⟨run, hrun, rfl⟩ := List.mem_map.mp hm
  obtain ⟨content, hcontent⟩ := List.exists_mem_of_ne_nil _ run.filled
  exact ⟨⟨run.role, content⟩,
    List.mem_flatMap.mpr ⟨run, hrun, List.mem_map_of_mem hcontent⟩, rfl⟩

end

/-! ### What `buildMessages` gives -/

section

variable (uiMessages : List UiMessage) (options : BuildMessagesOptions)

lemma groups_buildMessages :
    ∃ runs, Groups runs (normalised uiMessages options) (buildMessages uiMessages options) := by
  obtain ⟨runs, hruns⟩ := groups_foldl (withFiller options (retained uiMessages options))
  unfold normalised buildMessages
  cases hturns : withFiller options (retained uiMessages options) with
  | nil => exact ⟨[.single (filler options)], groups_single _⟩
  | cons m messages =>
    rw [hturns] at hruns
    have hne : (m :: messages).foldl merge [] ≠ [] := by
      rw [ne_eq, hruns.merged_eq_nil]
      exact List.cons_ne_nil _ _
    refine ⟨runs, ?_⟩
    dsimp only
    rw [if_pos (List.length_pos_iff.mpr hne)]
    exact hruns

lemma coerceRole_mem (role : JsValue) : coerceRole role ∈ validTurnRoles := by
  unfold coerceRole
  cases h : validTurnRoles.find? fun r => role.asString = some r.text with
  | none => exact List.mem_cons_self
  | some r => exact List.mem_of_find?_eq_some h

lemma role_mem_of_retained {m : ChatMessage} (hm : m ∈ retained uiMessages options) :
    m.role ∈ validTurnRoles := by
  obtain ⟨message, -, rfl⟩ := List.mem_map.mp (List.mem_filter.mp hm).1
  exact coerceRole_mem message.role

lemma mem_withFiller {messages : List ChatMessage} {m : ChatMessage}
    (hm : m ∈ withFiller options messages) : m ∈ messages ∨ m = filler options := by
  unfold withFiller at hm
  split_ifs at hm
  · simpa using hm
  · simpa [or_comm] using hm
  · exact .inl hm

lemma role_mem_of_normalised {m : ChatMessage} (hm : m ∈ normalised uiMessages options) :
    m.role ∈ validTurnRoles := by
  have hfiller : (filler options).role ∈ validTurnRoles := List.mem_cons_self
  unfold normalised at hm
  split at hm
  · rw [List.mem_singleton.mp hm]
    exact hfiller
  · rename_i hturns
    rw [← hturns] at hm
    rcases mem_withFiller options hm with hm | rfl
    · exact role_mem_of_retained uiMessages options hm
    · exact hfiller

/-- The first turn is the filler, unless the history begins with a user's turn, or with an
assistant's that a filler is appended to. -/
lemma head_normalised :
    (normalised uiMessages options).head?.map (·.role) =
      if options.forceTrailingFiller ∧
        (retained uiMessages options).head?.map (·.role) = some .assistant then some .assistant
      else some .user := by
  unfold normalised withFiller
  cases hkept : retained uiMessages options with
  | nil => cases options.forceTrailingFiller <;> simp [filler]
  | cons m messages =>
    have hmem : m ∈ retained uiMessages options := hkept ▸ List.mem_cons_self
    have hm : m.role = .user ∨ m.role = .assistant := by
      simpa [validTurnRoles] using role_mem_of_retained uiMessages options hmem
    rcases hm with hm | hm <;> cases options.forceTrailingFiller <;> simp [filler, hm]

lemma role_of_mem_buildMessages {m : ChatMessage} (hm : m ∈ buildMessages uiMessages options) :
    m.role = .user ∨ m.role = .assistant := by
  obtain ⟨runs, hruns⟩ := groups_buildMessages uiMessages options
  obtain ⟨m', hm', hrole⟩ := hruns.role_mem hm
  simpa [validTurnRoles, hrole] using role_mem_of_normalised uiMessages options hm'

/-- The turns alternate, and the runs of one role are all there is in them. -/
theorem buildMessages_groups :
    (∃ runs, Groups runs (normalised uiMessages options) (buildMessages uiMessages options)) ∧
      (buildMessages uiMessages options).IsChain (·.role ≠ ·.role) ∧
      ∀ m ∈ buildMessages uiMessages options, m.role = .user ∨ m.role = .assistant := by
  obtain ⟨runs, hruns⟩ := groups_buildMessages uiMessages options
  exact ⟨⟨runs, hruns⟩, hruns.alternates, fun m => role_of_mem_buildMessages uiMessages options⟩

/-- A history is never empty, and begins with the user unless a filler was to be appended to one
that begins with the assistant. -/
theorem buildMessages_user_first_iff :
    buildMessages uiMessages options ≠ [] ∧
      ((buildMessages uiMessages options).head?.map (·.role) = some .user ↔
        ¬ (options.forceTrailingFiller ∧
          (retained uiMessages options).head?.map (·.role) = some .assistant)) := by
  obtain ⟨runs, hruns⟩ := groups_buildMessages uiMessages options
  have hhead := hruns.head_role.trans (head_normalised uiMessages options)
  constructor
  · intro hnil
    rw [hnil, List.head?_nil, Option.map_none] at hhead
    split_ifs at hhead
  · rw [hhead]
    split_ifs with h
    · exact iff_of_false (by simp) (not_not_intro h)
    · exact iff_of_true rfl h

end

/-- A greeting that a filler was appended to. -/
theorem assistant_first : ¬ ∀ (uiMessages : List UiMessage) (options : BuildMessagesOptions),
    options.fillerContent ≠ [] →
      buildMessages uiMessages options ≠ [] ∧
        (buildMessages uiMessages options).head?.map (·.role) = some .user := by
  intro h
  have hfirst := h [⟨.string (js "assistant"), some (js "welcome")⟩] { forceTrailingFiller := true }
    (by decide)
  exact absurd hfirst.2 (by decide)

end ModelDispatcher.Messages
