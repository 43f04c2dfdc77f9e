import ModelDispatcher.Providers

/-!
How the Gemini adapter reads a vendor response: the text parts are joined, and each function
call becomes a tool call, under the vendor's id or one made up from its position.
-/

namespace ModelDispatcher.Gemini

open Lib.Text Lib.Json DataTypes Providers

/-! ### The vendor's response -/

structure FunctionCall where
  id : Option PyStr := none
  name : PyStr
  args : Option JSONObject := none

structure Part where
  text : Option PyStr := none
  functionCall : Option FunctionCall := none

/-- A candidate answer; its content and the parts of it may be missing. -/
structure Candidate where
  content : Option (Option (List Part)) := none

structure UsageMetadata where
  promptTokenCount : ℤ
  candidatesTokenCount : ℤ

structure GenerateContentResponse where
  candidates : List Candidate := []
  usageMetadata : Option UsageMetadata := none

/-! ### The translation -/

/-- The parts of the first candidate. -/
def GenerateContentResponse.parts (r : GenerateContentResponse) : List Part :=
  ((r.candidates.head?.bind Candidate.content).getD none).getD []

/-- The text of a part, if it is not empty. -/
def Part.visibleText (part : Part) : Option PyStr := part.text.filter (· ≠ [])

/-- `str(index)`. -/
def decimal (index : ℕ) : PyStr := (Nat.toDigits 10 index).map .scalar

/-- The id made up for the call at a position. -/
def syntheticId (index : ℕ) : PyStr := py "call_" ++ decimal index

/-- `part.function_call.id or f"call_{index}"`. -/
def callId (call : FunctionCall) (index : ℕ) : PyStr :=
  (call.id.filter (· ≠ [])).getD (syntheticId index)

/-- The function calls among the parts that have no text, with their positions. -/
def functionCalls (parts : List Part) : List (FunctionCall × ℕ) :=
  parts.zipIdx.filterMap fun (part, index) =>
    if part.visibleText.isSome then none else part.functionCall.map (·, index)

def toToolCall (call : FunctionCall) (index : ℕ) : ToolCall where
  id := callId call index
  name := call.name
  arguments := call.args.getD []

/-- `"".join(text_parts) or None`. -/
def contentOf (parts : List Part) : Option PyStr :=
  some (parts.filterMap Part.visibleText).flatten |>.filter (· ≠ [])

/-- Translate a vendor response. -/
def toResponse (p : ModelProvider) (r : GenerateContentResponse) : CompletionResponse where
  message :=
    { role := .assistant
      content := contentOf r.parts
      toolCalls := (functionCalls r.parts).map fun (call, index) => toToolCall call index }
  usage := (r.usageMetadata.map fun u => ⟨u.promptTokenCount, u.candidatesTokenCount⟩).getD {}
  providerName := p.name
  tier := p.tier

/-! ### The made-up ids -/

lemma decimal_injective : Function.Injective decimal := by
  intro m n h
  have hdigits : Nat.toDigits 10 m = Nat.toDigits 10 n :=
    (List.map_injective_iff.mpr fun _ _ => PyChar.scalar.inj) h
  rw [← Nat.ofDigitChars_ten_toDigits (n := m), hdigits, Nat.ofDigitChars_ten_toDigits]

lemma syntheticId_injective : Function.Injective syntheticId :=
  (List.append_right_injective _).comp decimal_injective

/-- The positions of the function calls of a response. -/
def positions (r : GenerateContentResponse) : List ℕ := (functionCalls r.parts).map Prod.snd

lemma nodup_positions (r : GenerateContentResponse) : (positions r).Nodup := by
  have hsub : ∀ xs : List (Part × ℕ), ((xs.filterMap fun (part, index) =>
      if part.visibleText.isSome then none else part.functionCall.map (·, index)).map
        Prod.snd).Sublist (xs.map Prod.snd) := by
    intro xs
    induction xs with
    | nil => exact List.Sublist.slnil
    | cons x xs ih =>
      rw [List.filterMap_cons, List.map_cons]
      split
      · exact ih.cons _
      · next y hy =>
        have hindex : y.2 = x.2 := by
          dsimp only at hy
          split_ifs at hy
          obtain ⟨call, -, rfl⟩ := Option.map_eq_some_iff.mp hy
          rfl
        rw [List.map_cons, hindex]
        exact ih.cons_cons _
  refine List.Nodup.sublist (hsub _) ?_
  rw [List.zipIdx_map_snd]
  exact List.nodup_range'

/-- No function call has an id of the vendor's. -/
def Unnumbered (r : GenerateContentResponse) : Prop :=
  ∀ x ∈ functionCalls r.parts, x.1.id.filter (· ≠ []) = none

/-- Without ids of the vendor's, the tool calls are numbered by their positions. -/
lemma ids_toResponse {r : GenerateContentResponse} (h : Unnumbered r) (p : ModelProvider) :
    (toResponse p r).message.toolCalls.map (·.id) = (positions r).map syntheticId := by
  unfold toResponse positions
  rw [List.map_map, List.map_map]
  refine List.map_congr_left fun x hx => ?_
  change callId x.1 x.2 = syntheticId x.2
  rw [callId, h x hx, Option.getD_none]

end ModelDispatcher.Gemini
