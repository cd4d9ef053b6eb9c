import UnifyConsole.Lib.Tally

/-!
# Tool calls in Gemini streams

`ResponseOpenAI2Gemini` and `StreamResponseOpenAI2Gemini` (`oai_chat/to_gemini_chat_resp.go`).  The
second converts every chunk by itself: each fragment of a tool call becomes a function call of its
own, and arguments that are no JSON object on their own are wrapped into one.  A chunk with tool
calls loses its text.
-/

namespace UnifyConsole.Relay

open Lib
open List

/-! ### The code -/

/-- JSON objects; `unmarshal` reads one if it can, `wrap` has the text under `arguments`. -/
structure ArgumentsCodec (Args : Type) where
  unmarshal : String → Option Args
  empty : Args
  wrap : String → Args

structure ToolCall where
  name : String
  arguments : String
deriving DecidableEq

structure ToolCallDelta extends ToolCall where
  index : Option Int

open ToolCallDelta

structure GeminiUsageMetadata where
  promptTokenCount : Int
  candidatesTokenCount : Int
  totalTokenCount : Int

/-- The usage of a response, with the Gemini metadata that are attached for billing. -/
structure ResponseUsage where
  promptTokens : Int
  completionTokens : Int
  totalTokens : Int
  geminiMetadata : Option GeminiUsageMetadata

structure TextChoice where
  index : Int
  finishReason : String
  content : String
  toolCalls : List ToolCall

structure TextResponse where
  choices : List TextChoice
  usage : ResponseUsage

structure StreamChoice where
  index : Int
  finishReason : Option String
  content : String
  toolCalls : Option (List ToolCallDelta)

structure StreamChunk where
  choices : List StreamChoice
  usage : Option ResponseUsage

inductive GeminiPart (Args : Type) where
  | text (text : String)
  | functionCall (name : String) (arguments : Args)
deriving DecidableEq

structure GeminiChatCandidate (Args : Type) where
  index : Int
  finishReason : Option String
  parts : List (GeminiPart Args)

structure GeminiChatResponse (Args : Type) where
  candidates : List (GeminiChatCandidate Args)
  usageMetadata : GeminiUsageMetadata

def geminiFinishReason : String → String
  | "length" => "MAX_TOKENS"
  | "content_filter" => "SAFETY"
  | _ => "STOP"

variable {Args : Type} (codec : ArgumentsCodec Args)

def textPart (text : String) : List (GeminiPart Args) := if text ≠ "" then [.text text] else []

def ArgumentsCodec.parse (arguments : String) : Args :=
  if arguments ≠ "" then (codec.unmarshal arguments).getD (codec.wrap arguments) else codec.empty

def ArgumentsCodec.callPart (call : ToolCall) : GeminiPart Args :=
  .functionCall call.name (codec.parse call.arguments)

def responseOpenAI2Gemini (response : TextResponse) : GeminiChatResponse Args where
  candidates := response.choices.map (fun c => ⟨c.index, some (geminiFinishReason c.finishReason),
    textPart c.content ++ c.toolCalls.map codec.callPart⟩)
  usageMetadata :=
    let u := response.usage
    u.geminiMetadata.getD ⟨u.promptTokens, u.completionTokens,
      if u.totalTokens = 0 then u.promptTokens + u.completionTokens else u.totalTokens⟩

def StreamChoice.candidate (c : StreamChoice) : GeminiChatCandidate Args where
  index := c.index
  finishReason := c.finishReason.map geminiFinishReason
  parts :=
    match c.toolCalls with
    | some calls => calls.map fun f => codec.callPart f.toToolCall
    | none => textPart c.content

/-- `none` for a chunk that has neither content nor a finish reason. -/
def streamResponseOpenAI2Gemini (estimatePromptTokens : Int) (chunk : StreamChunk) :
    Option (GeminiChatResponse Args) :=
  let hasContent := chunk.choices.any fun c =>
    decide (c.content ≠ "") || decide (c.toolCalls.getD [] ≠ [])
  let hasFinishReason := chunk.choices.any fun c => c.finishReason.isSome
  if hasContent = false ∧ hasFinishReason = false then none
  else some
    { candidates := chunk.choices.map (StreamChoice.candidate codec)
      usageMetadata :=
        match chunk.usage with
        | none => ⟨estimatePromptTokens, 0, estimatePromptTokens⟩
        | some u =>
          u.geminiMetadata.getD ⟨u.promptTokens, u.completionTokens, u.totalTokens⟩ }

/-! ### What a client gets -/

def GeminiPart.call? : GeminiPart Args → Option (String × Args)
  | .functionCall name arguments => some (name, arguments)
  | .text _ => none

def GeminiChatResponse.calls (response : GeminiChatResponse Args) (choice : Int) :
    List (String × Args) :=
  (response.candidates.filter fun c => decide (c.index = choice)).flatMap
    (fun c => c.parts.filterMap GeminiPart.call?)

def streamedCalls (estimate : Int) (stream : List StreamChunk) (choice : Int) :
    List (String × Args) :=
  (stream.filterMap (streamResponseOpenAI2Gemini codec estimate)).flatMap fun r => r.calls choice

def deltas (stream : List StreamChunk) (choice : Int) : List StreamChoice :=
  stream.flatMap fun chunk => chunk.choices.filter fun c => decide (c.index = choice)

def fragments (stream : List StreamChunk) (choice : Int) : List ToolCallDelta :=
  (deltas stream choice).flatMap fun c => c.toolCalls.getD []

/-- Fragments with one index are one call, which has the name of the first. -/
def assembledCalls (stream : List StreamChunk) (choice : Int) : List ToolCall :=
  (tally ToolCallDelta.index (fun f => ⟨f.name, ""⟩)
    (fun f call => { call with arguments := call.arguments ++ f.arguments })
    (fragments stream choice)).map Prod.snd

def assembled (stream : List StreamChunk) (choice : Int) : TextResponse where
  choices := [{
    index := choice
    finishReason := ((deltas stream choice).filterMap StreamChoice.finishReason).getLastD ""
    content := String.join ((deltas stream choice).map StreamChoice.content)
    toolCalls := assembledCalls stream choice }]
  usage := ⟨0, 0, 0, none⟩

/-- The second stream has the same calls in more fragments. -/
structure Splits (stream split : List StreamChunk) : Prop where
  same : ∀ choice, assembledCalls split choice = assembledCalls stream choice
  more : ∀ choice, (fragments stream choice).length ≤ (fragments split choice).length

/-- The text of a choice with tool calls is passed on. -/
def KeepsText (estimate : Int) (chunk : StreamChunk) : Prop :=
  ∀ c ∈ chunk.choices, c.toolCalls.getD [] ≠ [] → c.content ≠ "" →
    ∃ r, streamResponseOpenAI2Gemini codec estimate chunk = some r ∧
      c.candidate codec ∈ r.candidates ∧ .text c.content ∈ (c.candidate codec).parts

variable {codec} {estimate : Int} {stream : List StreamChunk} {choice : Int}

theorem calls_callPart {α : Type} (call : α → ToolCall) (l : List α) :
    (l.map fun a => codec.callPart (call a)).filterMap GeminiPart.call? =
      l.map (fun a => ((call a).name, codec.parse (call a).arguments)) := by
  rw [filterMap_map]
  exact congrFun filterMap_eq_map l

theorem calls_textPart (text : String) :
    (textPart text : List (GeminiPart Args)).filterMap GeminiPart.call? = [] := by
  unfold textPart
  split <;> rfl

theorem calls_candidate (c : StreamChoice) :
    (c.candidate codec).parts.filterMap GeminiPart.call? =
      (c.toolCalls.getD []).map (fun f => (f.name, codec.parse f.arguments)) := by
  unfold StreamChoice.candidate
  cases c.toolCalls with
  | some calls => exact calls_callPart toToolCall calls
  | none => exact calls_textPart c.content

/-- **Every fragment becomes a function call.** -/
theorem streamedCalls_eq : streamedCalls codec estimate stream choice =
    (fragments stream choice).map (fun f => (f.name, codec.parse f.arguments)) := by
  induction stream with
  | nil => rfl
  | cons chunk stream ih =>
    have hone : ((streamResponseOpenAI2Gemini codec estimate chunk).map
        (fun r => r.calls choice)).getD [] =
        ((chunk.choices.filter fun c => decide (c.index = choice)).flatMap
          (fun c => c.toolCalls.getD [])).map (fun f => (f.name, codec.parse f.arguments)) := by
      unfold streamResponseOpenAI2Gemini
      dsimp only
      split
      · rename_i h
        rw [flatMap_eq_nil_iff.mpr]
        · rfl
        intro c hc
        have := (any_eq_false.mp h.1) c (mem_of_mem_filter hc)
        simp at this
        exact this.2
      · simp only [Option.map_some, Option.getD_some, GeminiChatResponse.calls, filter_map,
          flatMap_map, map_flatMap, calls_candidate]
        rfl
    unfold streamedCalls at ih ⊢
    rw [filterMap_cons]
    simp only [fragments, deltas, flatMap_cons, flatMap_append, map_append] at ih ⊢
    rw [← ih, ← hone]
    cases streamResponseOpenAI2Gemini codec estimate chunk with
    | none => rfl
    | some => rfl

theorem calls_assembled : (responseOpenAI2Gemini codec (assembled stream choice)).calls choice =
    (assembledCalls stream choice).map (fun call => (call.name, codec.parse call.arguments)) := by
  simp only [responseOpenAI2Gemini, assembled, GeminiChatResponse.calls, map_singleton,
    filter_singleton, decide_true, cond_true, flatMap_singleton, filterMap_append,
    calls_textPart, nil_append]
  exact calls_callPart id _

theorem length_assembledCalls (stream : List StreamChunk) (choice : Int) :
    (assembledCalls stream choice).length ≤ (fragments stream choice).length ∧
      ((assembledCalls stream choice).length = (fragments stream choice).length →
        ((fragments stream choice).map index).Nodup) := by
  unfold assembledCalls
  rw [length_map]
  exact length_tally _

/-- **A stream gives the calls of its message if and only if no call is split.** -/
theorem streamedCalls_eq_assembled_iff : streamedCalls codec estimate stream choice =
    (responseOpenAI2Gemini codec (assembled stream choice)).calls choice ↔
      ((fragments stream choice).map index).Nodup := by
  rw [streamedCalls_eq, calls_assembled]
  constructor
  · intro h
    refine (length_assembledCalls stream choice).2 ?_
    simpa using (congrArg length h).symm
  · intro h
    rw [assembledCalls, tally_of_nodup h, map_map, map_map]
    refine map_congr_left fun f _ => ?_
    simp

theorem keepsText_iff {chunk : StreamChunk} : KeepsText codec estimate chunk ↔
    ∀ c ∈ chunk.choices, c.toolCalls.getD [] ≠ [] → c.content = "" := by
  refine forall₃_congr fun c _ hcalls => ⟨fun h => ?_, fun h hne => absurd h hne⟩
  by_contra hne
  obtain ⟨-, -, -, htext⟩ := h hne
  unfold StreamChoice.candidate at htext
  cases hc : c.toolCalls with
  | none => exact hcalls (by rw [hc]; rfl)
  | some =>
    rw [hc] at htext
    obtain ⟨f, -, hf⟩ := mem_map.mp htext
    cases hf

def oneObject : ArgumentsCodec String where
  unmarshal text := if text = "\x7b\"a\":1\x7d" then some text else none
  empty := "\x7b\x7d"
  wrap text := "\x7b\"arguments\":" ++ text ++ "\x7d"

/-- A chunk with fragments of the calls of choice `0`. -/
def callChunk (content : String) (parts : List ToolCallDelta) : StreamChunk :=
  ⟨[⟨0, none, content, some parts⟩], none⟩

def firstCall : ToolCallDelta := ⟨⟨"f", "\x7b\"a\":1\x7d"⟩, some 0⟩

def secondCall : ToolCallDelta := ⟨⟨"g", "\x7b\"a\":1\x7d"⟩, some 1⟩

/-- Two calls in one chunk, and each in one of its own. -/
theorem splits_twoCalls : Splits [callChunk "" [firstCall, secondCall]]
    [callChunk "" [firstCall], callChunk "" [secondCall]] := by
  refine ⟨fun choice => ?_, fun choice => ?_⟩
  · by_cases h : 0 = choice <;> simp [assembledCalls, callChunk, fragments, deltas, h]
  · by_cases h : 0 = choice <;> simp [callChunk, fragments, deltas, h]

def wholeCall : List StreamChunk := [callChunk "" [firstCall]]

def splitCall : List StreamChunk :=
  [callChunk "text" [⟨⟨"f", "\x7b\"a\":"⟩, some 0⟩], callChunk "" [⟨⟨"", "1\x7d"⟩, some 0⟩]]

end UnifyConsole.Relay
