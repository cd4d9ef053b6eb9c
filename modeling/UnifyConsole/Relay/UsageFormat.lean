import UnifyConsole.Pricing.Usage

/-!
# Usage between the formats

`buildClaudeUsageFromOpenAIUsage` (`oai_chat/to_claude_messages_resp.go`) and
`UsageFromClaudeAPIUsage` (`claude_messages/to_oai_chat_resp.go`).  In the Claude format cache reads
and writes stand beside `input_tokens`, in the OpenAI format they are part of `prompt_tokens`.  The
first direction takes them out of the prompt only when `cache_write_tokens` is positive, so a prompt
that was read from the cache and wrote nothing to it is counted twice.
-/

namespace UnifyConsole.Relay

open Pricing

/-! ### The code -/

structure ClaudeCacheCreationUsage where
  ephemeral5mInputTokens : Int
  ephemeral1hInputTokens : Int

structure ClaudeUsage where
  inputTokens : Int
  cacheCreationInputTokens : Int
  cacheReadInputTokens : Int
  outputTokens : Int
  cacheCreation : Option ClaudeCacheCreationUsage

open ClaudeUsage

namespace ClaudeUsage

variable (c : ClaudeUsage)

def getCacheCreation5mTokens : Int := c.cacheCreation.elim 0 (·.ephemeral5mInputTokens)

def getCacheCreation1hTokens : Int := c.cacheCreation.elim 0 (·.ephemeral1hInputTokens)

end ClaudeUsage

inductive BillingUsageSource where
  | claudeMessages
  | geminiChat
  | oaiChat
  | oaiResponses
  | other (text : String)
deriving DecidableEq

/-- The fields of `dto.BillingUsage` that decide whether its Claude usage is handed out. -/
structure BillingUsage where
  source : BillingUsageSource
  semantic : UsageSemantic
  claudeUsage : Option ClaudeUsage

def normalizeCacheCreationSplit (totalTokens tokens5m tokens1h : Int) : Int × Int :=
  let remainder := max (totalTokens - tokens5m - tokens1h) 0
  (tokens5m + remainder, tokens1h)

def attachedClaudeUsage (billing : Option BillingUsage) : Option ClaudeUsage :=
  billing.bind fun b =>
    if b.source = .claudeMessages ∨ b.semantic = .anthropic then b.claudeUsage else none

def buildClaudeUsageFromOpenAIUsage (billing : Option BillingUsage) (u : Usage) : ClaudeUsage :=
  match attachedClaudeUsage billing with
  | some usage => usage
  | none =>
    let details := u.promptTokensDetails
    let (cacheCreation5m, cacheCreation1h) := normalizeCacheCreationSplit
      details.cachedCreationTokens u.claudeCacheCreation5mTokens u.claudeCacheCreation1hTokens
    let cacheCreationTokens := details.cacheCreationTokensTotal
    { inputTokens :=
        if 0 < details.cacheWriteTokens then
          let inputTokens := u.promptTokens - details.cachedTokens - cacheCreationTokens
          if inputTokens < 0 then 0 else inputTokens
        else u.promptTokens
      cacheCreationInputTokens := cacheCreationTokens
      cacheReadInputTokens := details.cachedTokens
      outputTokens := u.completionTokens
      cacheCreation :=
        if 0 < cacheCreation5m ∨ 0 < cacheCreation1h then some ⟨cacheCreation5m, cacheCreation1h⟩
        else none }

def cacheCreationTokensForOpenAIUsage (u : Usage) : Int :=
  let splitTokens := u.claudeCacheCreation5mTokens + u.claudeCacheCreation1hTokens
  if splitTokens = 0 then u.promptTokensDetails.cachedCreationTokens
  else if splitTokens < u.promptTokensDetails.cachedCreationTokens then
    u.promptTokensDetails.cachedCreationTokens
  else splitTokens

def buildOpenAIStyleUsageFromClaudeUsage (u : Usage) : Usage :=
  let details := u.promptTokensDetails
  let (cacheCreation5m, cacheCreation1h) := normalizeCacheCreationSplit
    details.cachedCreationTokens u.claudeCacheCreation5mTokens u.claudeCacheCreation1hTokens
  let cacheCreationTokens := cacheCreationTokensForOpenAIUsage u
  { u with
    claudeCacheCreation5mTokens := cacheCreation5m
    claudeCacheCreation1hTokens := cacheCreation1h
    promptTokensDetails := { details with cacheWriteTokens := cacheCreationTokens }
    promptTokens := u.promptTokens + details.cachedTokens + cacheCreationTokens
    usageSemantic := .openai }

def usageFromClaudeAPIUsage (c : ClaudeUsage) : Usage :=
  buildOpenAIStyleUsageFromClaudeUsage
    { promptTokens := c.inputTokens
      completionTokens := c.outputTokens
      promptTokensDetails := ⟨c.cacheReadInputTokens, c.cacheCreationInputTokens, 0, 0, 0⟩
      completionTokenDetails := ⟨0, 0⟩
      usageSemantic := .anthropic
      claudeCacheCreation5mTokens := c.getCacheCreation5mTokens
      claudeCacheCreation1hTokens := c.getCacheCreation1hTokens }

/-! ### What is conserved -/

namespace ClaudeUsage

variable (c : ClaudeUsage)

def total : Int := c.inputTokens + c.cacheReadInputTokens + c.cacheCreationInputTokens

def split : Int := c.getCacheCreation5mTokens + c.getCacheCreation1hTokens

/-- The split, if there is one, does not exceed the count of cache writes. -/
def SplitFits : Prop := c.split = 0 ∨ c.split ≤ c.cacheCreationInputTokens

def counts : Int × Int × Int × Int :=
  (c.inputTokens, c.cacheReadInputTokens, c.cacheCreationInputTokens, c.outputTokens)

/-- The cache was written to, or not read from either. -/
def Returns : Prop :=
  c.SplitFits ∧ ((0 < c.cacheCreationInputTokens ∧ 0 ≤ c.inputTokens) ∨
    (c.cacheCreationInputTokens = 0 ∧ c.cacheReadInputTokens = 0))

end ClaudeUsage

/-- The prompt is a total, and the code takes cache reads and writes out of it. -/
def TakenOut (u : Usage) : Prop :=
  0 < u.promptTokensDetails.cacheWriteTokens ∨
    u.promptTokensDetails.cachedTokens + u.promptTokensDetails.cacheCreationTokensTotal = 0

/-- The split of the cache writes, filled up, is their total; or nothing was written. -/
def SplitWhole (u : Usage) : Prop :=
  let details := u.promptTokensDetails
  max details.cachedCreationTokens (u.claudeCacheCreation5mTokens + u.claudeCacheCreation1hTokens) =
      details.cacheCreationTokensTotal ∨
    (details.cacheCreationTokensTotal = 0 ∧ u.claudeCacheCreation5mTokens ≤ 0 ∧
      u.claudeCacheCreation1hTokens ≤ 0 ∧
      details.cachedCreationTokens ≤ u.claudeCacheCreation1hTokens)

variable {billing : Option BillingUsage} {u : Usage}

theorem cacheCreationTokensTotal_eq (d : InputTokenDetails) :
    d.cacheCreationTokensTotal = max (max d.cachedCreationTokens d.cacheWriteTokens) 0 := by
  simp only [InputTokenDetails.cacheCreationTokensTotal]
  omega

theorem total_buildClaudeUsage (hbilling : attachedClaudeUsage billing = none)
    (hprompt : u.promptTokensDetails.cachedTokens + u.promptTokensDetails.cacheCreationTokensTotal ≤
      u.promptTokens) :
    (buildClaudeUsageFromOpenAIUsage billing u).total = u.promptTokens ↔ TakenOut u := by
  simp only [buildClaudeUsageFromOpenAIUsage, hbilling, ClaudeUsage.total, TakenOut]
  split <;> omega

theorem split_buildClaudeUsage (hbilling : attachedClaudeUsage billing = none) :
    (buildClaudeUsageFromOpenAIUsage billing u).split =
      (buildClaudeUsageFromOpenAIUsage billing u).cacheCreationInputTokens ↔ SplitWhole u := by
  generalize hp : normalizeCacheCreationSplit u.promptTokensDetails.cachedCreationTokens
    u.claudeCacheCreation5mTokens u.claudeCacheCreation1hTokens = p
  simp only [buildClaudeUsageFromOpenAIUsage, hbilling, hp, split,
    getCacheCreation5mTokens, getCacheCreation1hTokens, SplitWhole,
    cacheCreationTokensTotal_eq]
  obtain ⟨tokens5m, tokens1h⟩ := p
  rw [normalizeCacheCreationSplit, Prod.mk.injEq] at hp
  by_cases h : 0 < tokens5m ∨ 0 < tokens1h
  · simp only [if_pos h, Option.elim_some]
    omega
  · simp only [if_neg h, Option.elim_none]
    omega

variable {c : ClaudeUsage}

/-- The cache writes that a Claude usage is taken to have: a split that is more counts. -/
theorem cacheWriteTokens_usageFromClaude :
    (usageFromClaudeAPIUsage c).promptTokensDetails.cacheWriteTokens =
      if c.split = 0 then c.cacheCreationInputTokens else max c.cacheCreationInputTokens c.split := by
  simp only [usageFromClaudeAPIUsage, buildOpenAIStyleUsageFromClaudeUsage,
    cacheCreationTokensForOpenAIUsage, split]
  omega

theorem promptTokens_usageFromClaude :
    (usageFromClaudeAPIUsage c).promptTokens = c.total ↔ c.SplitFits := by
  have hprompt : (usageFromClaudeAPIUsage c).promptTokens = c.inputTokens + c.cacheReadInputTokens +
      (usageFromClaudeAPIUsage c).promptTokensDetails.cacheWriteTokens := rfl
  rw [hprompt, cacheWriteTokens_usageFromClaude, ClaudeUsage.total, SplitFits]
  omega

theorem counts_roundTrip :
    (buildClaudeUsageFromOpenAIUsage none (usageFromClaudeAPIUsage c)).counts = c.counts ↔
      c.Returns := by
  have hwrite := cacheWriteTokens_usageFromClaude (c := c)
  have hprompt : (usageFromClaudeAPIUsage c).promptTokens = c.inputTokens + c.cacheReadInputTokens +
      (usageFromClaudeAPIUsage c).promptTokensDetails.cacheWriteTokens := rfl
  have hread : (usageFromClaudeAPIUsage c).promptTokensDetails.cachedTokens =
      c.cacheReadInputTokens := rfl
  have hcreation : (usageFromClaudeAPIUsage c).promptTokensDetails.cachedCreationTokens =
      c.cacheCreationInputTokens := rfl
  have houtput : (usageFromClaudeAPIUsage c).completionTokens = c.outputTokens := rfl
  simp only [buildClaudeUsageFromOpenAIUsage, attachedClaudeUsage, Option.bind_none,
    cacheCreationTokensTotal_eq, counts, Returns, SplitFits,
    Prod.mk.injEq]
  omega

/-- **When usage survives a change of format**: prompt and split from OpenAI to Claude, the prompt
from Claude to OpenAI, and the four counts there and back, each with its exact condition. -/
theorem usage_conserved (billing : Option BillingUsage) (u : Usage) (c : ClaudeUsage) :
    (attachedClaudeUsage billing = none →
      u.promptTokensDetails.cachedTokens + u.promptTokensDetails.cacheCreationTokensTotal ≤
        u.promptTokens →
      let c := buildClaudeUsageFromOpenAIUsage billing u
      (c.total = u.promptTokens ↔ TakenOut u) ∧
        (c.split = c.cacheCreationInputTokens ↔ SplitWhole u)) ∧
    ((usageFromClaudeAPIUsage c).promptTokens = c.total ↔ c.SplitFits) ∧
      ((buildClaudeUsageFromOpenAIUsage none (usageFromClaudeAPIUsage c)).counts = c.counts ↔
        c.Returns) :=
  ⟨fun hbilling hprompt =>
    ⟨total_buildClaudeUsage hbilling hprompt, split_buildClaudeUsage hbilling⟩,
    promptTokens_usageFromClaude, counts_roundTrip⟩

/-- Of a prompt of a hundred tokens, thirty were read from the cache and twenty written to it. -/
theorem usage_conserved_written :
    let u : Usage := ⟨100, 5, ⟨30, 0, 20, 0, 0⟩, ⟨0, 0⟩, .openai, 20, 0⟩
    TakenOut u ∧ ((buildClaudeUsageFromOpenAIUsage none u).total = u.promptTokens ↔ TakenOut u) :=
  ⟨.inl (by decide), ((usage_conserved none _ ⟨0, 0, 0, 0, none⟩).1 rfl (by decide)).1⟩

/-- Forty tokens of a hundred were read from the cache: they count twice. -/
theorem cache_reads_counted_twice :
    (buildClaudeUsageFromOpenAIUsage none
      ⟨100, 5, ⟨40, 0, 0, 0, 0⟩, ⟨0, 0⟩, .openai, 0, 0⟩).total = 140 ∧
    (buildClaudeUsageFromOpenAIUsage none (usageFromClaudeAPIUsage ⟨60, 0, 40, 5, none⟩)).counts =
      (100, 40, 0, 5) := by
  decide

end UnifyConsole.Relay
