import Mathlib

/-!
# Token counts

`dto.Usage` (`relaykit/dto/openai_response.go`).  Upstreams count in two ways: in the OpenAI
manner the prompt is a total that contains cached, written, image and audio tokens, and in the
Anthropic manner what was read from the cache and written to it stands beside the prompt.  Which
of the two a usage is read in is up to the caller: `UsageSemantic` may be blank, and then the format
of the request decides.
-/

namespace UnifyConsole.Pricing

inductive UsageSemantic where
  | blank
  | openai
  | anthropic
  | gemini
  | other (text : String)
deriving DecidableEq

structure InputTokenDetails where
  cachedTokens : Int
  cachedCreationTokens : Int
  cacheWriteTokens : Int
  audioTokens : Int
  imageTokens : Int

structure OutputTokenDetails where
  audioTokens : Int
  imageTokens : Int

structure Usage where
  promptTokens : Int
  completionTokens : Int
  promptTokensDetails : InputTokenDetails
  completionTokenDetails : OutputTokenDetails
  usageSemantic : UsageSemantic
  claudeCacheCreation5mTokens : Int
  claudeCacheCreation1hTokens : Int

/-- `CacheCreationTokensTotal`: the larger of the two fields for cache writes. -/
def InputTokenDetails.cacheCreationTokensTotal (d : InputTokenDetails) : Int :=
  let total := if d.cachedCreationTokens < d.cacheWriteTokens then d.cacheWriteTokens
    else d.cachedCreationTokens
  if total < 0 then 0 else total

/-! ### What was put in -/

/-- The kinds of tokens that a request puts in. -/
inductive InputKind where
  | text
  | image
  | audio
  | cacheRead
  | cacheWrite5m
  | cacheWrite1h
deriving DecidableEq

def InputKind.all : List InputKind := [.text, .image, .audio, .cacheRead, .cacheWrite5m, .cacheWrite1h]

/-- Only a usage marked as Anthropic tells cache writes for an hour from the others. -/
def Usage.cacheWrites5m (u : Usage) : Int :=
  if u.usageSemantic = .anthropic then u.claudeCacheCreation5mTokens
  else u.promptTokensDetails.cacheCreationTokensTotal

def Usage.cacheWrites1h (u : Usage) : Int :=
  if u.usageSemantic = .anthropic then u.claudeCacheCreation1hTokens else 0

/-- The tokens of each kind; with `claude`, cache reads and writes stand beside the prompt. -/
def Usage.count (u : Usage) (claude : Bool) : InputKind → Int
  | .image => u.promptTokensDetails.imageTokens
  | .audio => u.promptTokensDetails.audioTokens
  | .cacheRead => u.promptTokensDetails.cachedTokens
  | .cacheWrite5m => u.cacheWrites5m
  | .cacheWrite1h => u.cacheWrites1h
  | .text =>
    u.promptTokens - u.promptTokensDetails.imageTokens - u.promptTokensDetails.audioTokens -
      if claude then 0
      else u.promptTokensDetails.cachedTokens + u.cacheWrites5m + u.cacheWrites1h

def Usage.inputLength (u : Usage) (claude : Bool) : Int := (InputKind.all.map (u.count claude)).sum

/-- No count is negative: the parts that stand in the prompt fit into it. -/
structure Usage.WellFormed (u : Usage) (claude : Bool) : Prop where
  count_nonneg : ∀ kind, 0 ≤ u.count claude kind
  completion_nonneg : 0 ≤ u.completionTokens

theorem Usage.inputLength_claude (u : Usage) : u.inputLength true =
    u.promptTokens + u.promptTokensDetails.cachedTokens + u.cacheWrites5m + u.cacheWrites1h := by
  simp only [inputLength, InputKind.all, List.map_cons, List.map_nil, List.sum_cons, List.sum_nil,
    count, if_true]
  ring

theorem Usage.inputLength_openai (u : Usage) : u.inputLength false = u.promptTokens := by
  simp only [inputLength, InputKind.all, List.map_cons, List.map_nil, List.sum_cons, List.sum_nil,
    count, Bool.false_eq_true, if_false]
  ring

end UnifyConsole.Pricing
