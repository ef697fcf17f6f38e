/-
  Translate/Fields.lean --- which fields a translated request writes.

  After its messages a translated request gets its other fields one by one, each under
  a name of its own, so a name that is not among them is as it was (`member?_chatFields`,
  `member?_messageFields`).
-/
import Kaalm.Foundation.Fallible
import Kaalm.Translate.Request

namespace Kaalm.Translate

open Kaalm.Foundation Kaalm.Foundation.Json

variable {k : String}

theorem member?_copyIf_of_ne (input out : Obj) (source : String) {target : String}
    (h : target ≠ k) :
    member? k (copyIf input out source target) = member? k out := by
  unfold copyIf
  split
  · rfl
  · rfl
  · exact member?_put_of_ne _ _ h

variable {b : Bool} {input : Obj}

theorem member?_copyIf_self (out : Obj) {source : String} (target : String)
    (h : member? source input = some (.bool b)) :
    member? target (copyIf input out source target) = some (.bool b) := by
  rw [copyIf, h]
  exact member?_put_self _ _ _

/-! ## Chat completions -/

theorem member?_anthropicScalars (input out : Obj)
    (hk : k ∉ ["max_tokens", "temperature", "top_p", "stop", "stream", "user"]) :
    member? k (anthropicScalars input out) = member? k out := by
  have hne : ∀ name ∈ ["max_tokens", "temperature", "top_p", "stop", "stream", "user"], name ≠ k :=
    fun name hname heq => hk (heq ▸ hname)
  have hcopies : member? k (copyIf input (copyIf input (copyIf input (copyIf input (copyIf input out
      "max_tokens" "max_tokens") "temperature" "temperature") "top_p" "top_p")
      "stop_sequences" "stop") "stream" "stream") = member? k out := by
    rw [member?_copyIf_of_ne _ _ _ (hne _ (by simp)), member?_copyIf_of_ne _ _ _ (hne _ (by simp)),
      member?_copyIf_of_ne _ _ _ (hne _ (by simp)), member?_copyIf_of_ne _ _ _ (hne _ (by simp)),
      member?_copyIf_of_ne _ _ _ (hne _ (by simp))]
  unfold anthropicScalars
  split
  · exact hcopies
  · rw [member?_put_of_ne _ _ (hne _ (by simp)), hcopies]

theorem member?_stream_anthropicScalars (out : Obj) (h : member? "stream" input = some (.bool b)) :
    member? "stream" (anthropicScalars input out) = some (.bool b) := by
  unfold anthropicScalars
  split
  · exact member?_copyIf_self _ _ h
  · rw [member?_put_of_ne _ _ (by decide)]
    exact member?_copyIf_self _ _ h

theorem member?_anthropicToolChoice (out tc : Obj)
    (hk : k ∉ ["tool_choice", "parallel_tool_calls"]) :
    member? k (anthropicToolChoice out tc) = member? k out := by
  simp only [List.mem_cons, List.not_mem_nil, or_false, not_or] at hk
  have hchoice : ∀ v, member? k (put out "tool_choice" v) = member? k out :=
    fun v => member?_put_of_ne _ _ (Ne.symm hk.1)
  unfold anthropicToolChoice
  dsimp only
  split
  · rw [member?_put_of_ne _ _ (Ne.symm hk.2)]
    split <;> first | exact hchoice _ | rfl
  · split <;> first | exact hchoice _ | rfl

variable {out out₀ : Obj}

theorem chatFields_ok (h : chatFields input out₀ = .ok out) :
    ∃ before, out = anthropicScalars input before ∧
      ∀ k, k ∉ ["tools", "tool_choice", "parallel_tool_calls"] →
        member? k before = member? k out₀ := by
  have hchoice : ∀ (out : Obj) (k : String), k ∉ ["tools", "tool_choice", "parallel_tool_calls"] →
      member? k (chatToolChoice input out) = member? k out := by
    intro out k hk
    unfold chatToolChoice
    split
    · exact member?_anthropicToolChoice _ _ fun hmem => hk (List.mem_cons_of_mem _ hmem)
    · rfl
  unfold chatFields at h
  dsimp only at h
  split at h
  · obtain ⟨outTools, -, h⟩ := Fallible.bind_eq_ok_iff.mp h
    cases h
    refine ⟨_, rfl, fun k hk => ?_⟩
    have hne : "tools" ≠ k := fun heq => hk (heq ▸ List.mem_cons_self)
    rw [hchoice _ k hk, member?_put_of_ne _ _ hne]
  · cases h
    exact ⟨_, rfl, fun k hk => hchoice _ k hk⟩

/-- The names a translated request writes after its messages. -/
def chatNames : List String :=
  ["tools", "tool_choice", "parallel_tool_calls", "max_tokens", "temperature", "top_p", "stop",
    "stream", "user"]

theorem member?_chatFields (hk : k ∉ chatNames) (h : chatFields input out₀ = .ok out) :
    member? k out = member? k out₀ := by
  obtain ⟨before, rfl, hbefore⟩ := chatFields_ok h
  rw [member?_anthropicScalars _ _ fun hmem => hk (List.mem_append_right
    ["tools", "tool_choice", "parallel_tool_calls"] hmem)]
  exact hbefore k fun hmem => hk (List.mem_append_left _ hmem)

variable {model : String}

theorem anthropicToOpenAIRequest_ok (h : anthropicToOpenAIRequest input model = .ok out) :
    ∃ system converted, anthropicSystemText (field input "system") = .ok system ∧
      anthropicMessagesToOpenAI (asArr (field input "messages")) = .ok converted ∧
      chatFields input [("model", .str model),
        ("messages", ofSlice (promptOf system ++ converted))] = .ok out := by
  unfold anthropicToOpenAIRequest at h
  cases hfind : anthropicOnly.find? fun f => (member? f.1 input).isSome with
  | some feature =>
    rw [hfind] at h
    cases h
  | none =>
    rw [hfind] at h
    dsimp only at h
    cases hsystem : member? "system" input <;>
    · rw [hsystem] at h
      obtain ⟨text, htext, h⟩ := Fallible.bind_eq_ok_iff.mp h
      obtain ⟨converted, hconverted, h⟩ := Fallible.bind_eq_ok_iff.mp h
      exact ⟨text, converted, by rw [field, hsystem]; exact htext, hconverted, h⟩

/-! ## Messages -/

theorem member?_openAIScalars (input out : Obj)
    (hk : k ∉ ["temperature", "top_p", "stream", "stop_sequences", "metadata"]) :
    member? k (openAIScalars input out) = member? k out := by
  simp only [List.mem_cons, List.not_mem_nil, or_false, not_or] at hk
  obtain ⟨htemperature, htop, hstream, hstop, hmetadata⟩ := hk
  have hcopies : member? k (copyIf input (copyIf input (copyIf input out "temperature"
      "temperature") "top_p" "top_p") "stream" "stream") = member? k out := by
    rw [member?_copyIf_of_ne _ _ _ (Ne.symm hstream), member?_copyIf_of_ne _ _ _ (Ne.symm htop),
      member?_copyIf_of_ne _ _ _ (Ne.symm htemperature)]
  have hstops : ∀ v, member? k (put (copyIf input (copyIf input (copyIf input out "temperature"
      "temperature") "top_p" "top_p") "stream" "stream") "stop_sequences" v) = member? k out :=
    fun v => (member?_put_of_ne _ _ (Ne.symm hstop)).trans hcopies
  unfold openAIScalars
  dsimp only
  split
  · split <;> first | exact hstops _ | exact hcopies
  · rw [member?_put_of_ne _ _ (Ne.symm hmetadata)]
    split <;> first | exact hstops _ | exact hcopies

variable {maxOutputTokens : Int}

/-- The token limit and the scalars come last, over what the tools and their choice leave. -/
theorem messageFields_ok (h : messageFields input model maxOutputTokens out₀ = .ok out) :
    ∃ before maxTokens, openAIMaxTokens input model maxOutputTokens = .ok maxTokens ∧
      out = openAIScalars input (put before "max_tokens" (.num (toString maxTokens))) ∧
      ∀ k, k ∉ ["tools", "tool_choice"] → member? k before = member? k out₀ := by
  -- whatever the tools are, the choice leaves the other names alone
  have hfinish : ∀ tooled : Obj,
      (∀ k, k ∉ ["tools", "tool_choice"] → member? k tooled = member? k out₀) →
      ((openAIMaxTokens input model maxOutputTokens).bind fun maxTokens =>
        .ok (openAIScalars input (put (messageToolChoice input tooled) "max_tokens"
          (.num (toString maxTokens))))) = .ok out →
      ∃ before maxTokens, openAIMaxTokens input model maxOutputTokens = .ok maxTokens ∧
        out = openAIScalars input (put before "max_tokens" (.num (toString maxTokens))) ∧
        ∀ k, k ∉ ["tools", "tool_choice"] → member? k before = member? k out₀ := by
    intro tooled htooled hmax
    obtain ⟨maxTokens, hok, hmax⟩ := Fallible.bind_eq_ok_iff.mp hmax
    cases hmax
    refine ⟨_, maxTokens, hok, rfl, fun k hk => ?_⟩
    unfold messageToolChoice
    split
    · exact htooled k hk
    · have hne : "tool_choice" ≠ k := fun heq => hk (by simp [← heq])
      rw [member?_put_of_ne _ _ hne]
      exact htooled k hk
  unfold messageFields at h
  dsimp only at h
  split at h
  · obtain ⟨outTools, -, h⟩ := Fallible.bind_eq_ok_iff.mp h
    exact hfinish _ (fun k hk => member?_put_of_ne _ _ fun heq => hk (by simp [← heq])) h
  · exact hfinish out₀ (fun _ _ => rfl) h

/-- A translated request: the model, the system text, the messages and the fields after them. -/
theorem openAIToAnthropicRequest_ok
    (h : openAIToAnthropicRequest input model maxOutputTokens = .ok out) :
    ∃ system messages, openAIMessagesToAnthropic (field input "messages") = .ok (system, messages) ∧
      messageFields input model maxOutputTokens
        (put (if system = "" then [("model", .str model)]
          else put [("model", .str model)] "system" (.str system)) "messages" (.arr messages)) =
        .ok out := by
  obtain ⟨_, -, h⟩ := Fallible.bind_eq_ok_iff.mp h
  obtain ⟨⟨system, messages⟩, hmessages, h⟩ := Fallible.bind_eq_ok_iff.mp h
  exact ⟨system, messages, hmessages, h⟩

theorem openAIToAnthropicRequest_congr {a b : Obj}
    (h : ∀ k, k ∉ ["model", "stream_options"] → member? k a = member? k b) (model : String)
    (maxOutputTokens : Int) :
    openAIToAnthropicRequest a model maxOutputTokens =
      openAIToAnthropicRequest b model maxOutputTokens := by
  have hfield : ∀ k, k ∉ ["model", "stream_options"] → field a k = field b k :=
    fun k hk => congrArg (Option.getD · Json.null) (h k hk)
  have huntranslatable : openAIUntranslatable a = openAIUntranslatable b := by
    simp [openAIUntranslatable, openAIOnly, List.find?_cons, isSet, h]
  have hchoice : openAIToolChoiceToAnthropic a = openAIToolChoiceToAnthropic b := by
    simp [openAIToolChoiceToAnthropic, hfield]
  have hmax : openAIMaxTokens a model maxOutputTokens =
      openAIMaxTokens b model maxOutputTokens := by
    simp [openAIMaxTokens, statedMaxTokens, h]
  have hscalars : openAIScalars a = openAIScalars b := by
    funext out
    simp [openAIScalars, copyIf, hfield, h]
  unfold openAIToAnthropicRequest messageFields messageToolChoice
  rw [huntranslatable, hchoice, hmax, hscalars, hfield "messages" (by decide),
    hfield "tools" (by decide)]

theorem maxTokens_openAIToAnthropicRequest
    (h : openAIToAnthropicRequest input model maxOutputTokens = .ok out) :
    ∃ maxTokens, openAIMaxTokens input model maxOutputTokens = .ok maxTokens ∧
      field out "max_tokens" = .num (toString maxTokens) := by
  obtain ⟨system, messages, -, hfields⟩ := openAIToAnthropicRequest_ok h
  obtain ⟨before, maxTokens, hok, rfl, -⟩ := messageFields_ok hfields
  refine ⟨maxTokens, hok, ?_⟩
  rw [field, member?_openAIScalars _ _ (by decide), member?_put_self, Option.getD_some]

end Kaalm.Translate
