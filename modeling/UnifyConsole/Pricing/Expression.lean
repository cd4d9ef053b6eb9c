import Mathlib
import UnifyConsole.Lib.Expr
import UnifyConsole.Pricing.Usage

/-!
# Billing expressions

`setting/ratio_setting/unifyapi_billing_expr.go` writes the price list of a catalog entry as an
expression, with one term for each kind of tokens that has a price of its own in a tier, and a
condition on the length of the input where the vendor charges more for long inputs.
`BuildTieredTokenParams` (`service/tiered_settle.go`) takes the kinds that the expression names
out of the prompt, so that `p` stands for what is left.

It looks for the names in the whole expression, and it takes nothing out of a prompt that is
counted in the Anthropic manner.  So a kind that has a price in one tier only is taken out of
the prompt in the other tier too and billed there by no term; and in the Anthropic manner a
kind without a price is billed by no term at all, while audio tokens, which are inside the
prompt, are billed twice.  `cost_eq` says what is charged, and `charged_once` when it is the
price list.
-/

namespace UnifyConsole.Pricing

open Lib
open List

/-! ### The catalog -/

structure ContextTier where
  thresholdTokens : Int
  inputUSD : ℚ
  outputUSD : ℚ
  cacheReadUSD : ℚ
  cacheWriteUSD : ℚ

/-- `CatalogEntry`: prices in dollars for a million tokens; zero where there is none. -/
structure CatalogEntry where
  model : String
  inputUSD : ℚ
  outputUSD : ℚ
  cacheReadUSD : ℚ
  cacheWriteUSD : ℚ
  perCallUSD : ℚ
  audioInputUSD : ℚ
  contextTier : Option ContextTier

open CatalogEntry

/-! ### Writing the expression -/

inductive TokenVar where
  | p
  | c
  | len
  | cr
  | cc
  | cc1h
  | img
  | imgO
  | ai
  | ao
deriving DecidableEq

def CatalogEntry.needsBillingExpr (e : CatalogEntry) : Bool :=
  decide (0 < e.audioInputUSD) || e.contextTier.isSome

def pricedTerm (v : TokenVar) (price discount : ℚ) : List (TokenVar × ℚ) :=
  if 0 < price then [(v, price * discount)] else []

def CatalogEntry.tierExpr (e : CatalogEntry) (name : String)
    (discount input output cacheRead cacheWrite : ℚ) : Expr TokenVar :=
  .call name (.weighted (.p, input * discount)
    ([(.c, output * discount)] ++ pricedTerm .cr cacheRead discount ++
      pricedTerm .cc cacheWrite discount ++ pricedTerm .ai e.audioInputUSD discount))

/-- `BillingExpr`; `none` for the empty text. -/
def CatalogEntry.billingExpr (e : CatalogEntry) (discount : ℚ) : Option (Expr TokenVar) :=
  if e.needsBillingExpr = false then none
  else
    let discount := if discount ≤ 0 then 1 else discount
    match e.contextTier with
    | none => some (e.tierExpr "base" discount e.inputUSD e.outputUSD e.cacheReadUSD e.cacheWriteUSD)
    | some t =>
      some (.ifLe (.var .len) (.number t.thresholdTokens)
        (e.tierExpr "standard" discount e.inputUSD e.outputUSD e.cacheReadUSD e.cacheWriteUSD)
        (e.tierExpr "long_context" discount t.inputUSD t.outputUSD t.cacheReadUSD t.cacheWriteUSD))

/-- `UsedVars`: the variables anywhere in the expression. -/
def usedVars (expr : Expr TokenVar) (v : TokenVar) : Bool := decide (v ∈ expr.vars)

/-! ### Counting -/

structure TokenParams where
  p : ℚ
  c : ℚ
  len : ℚ
  cr : ℚ
  cc : ℚ
  cc1h : ℚ
  img : ℚ
  imgO : ℚ
  ai : ℚ
  ao : ℚ

def TokenParams.env (params : TokenParams) : TokenVar → ℚ
  | .p => params.p
  | .c => params.c
  | .len => params.len
  | .cr => params.cr
  | .cc => params.cc
  | .cc1h => params.cc1h
  | .img => params.img
  | .imgO => params.imgO
  | .ai => params.ai
  | .ao => params.ao

/-- What is taken out for a variable that the expression names. -/
def takenFor (used : TokenVar → Bool) (v : TokenVar) (count : ℚ) : ℚ := if used v then count else 0

def buildTieredTokenParams (usage : Usage) (isClaudeUsageSemantic : Bool)
    (used : TokenVar → Bool) : TokenParams :=
  let d := usage.promptTokensDetails
  let o := usage.completionTokenDetails
  let p : ℚ := usage.promptTokens
  let c : ℚ := usage.completionTokens
  let cr : ℚ := d.cachedTokens
  let cc5m : ℚ := if usage.usageSemantic = .anthropic then usage.claudeCacheCreation5mTokens
    else d.cacheCreationTokensTotal
  let cc1h : ℚ := if usage.usageSemantic = .anthropic then usage.claudeCacheCreation1hTokens else 0
  let inputLen := if isClaudeUsageSemantic then p + cr + cc5m + cc1h else p
  let p := if isClaudeUsageSemantic then p
    else p - takenFor used .cr cr - takenFor used .cc cc5m - takenFor used .cc1h cc1h -
      takenFor used .img d.imageTokens - takenFor used .ai d.audioTokens
  let c := if isClaudeUsageSemantic then c
    else c - takenFor used .imgO o.imageTokens - takenFor used .ao o.audioTokens
  { p := if p < 0 then 0 else p
    c := if c < 0 then 0 else c
    len := inputLen
    cr := cr
    cc := cc5m
    cc1h := cc1h
    img := d.imageTokens
    imgO := o.imageTokens
    ai := d.audioTokens
    ao := o.audioTokens }

/-- `runProgram`: the amount and the calls of `tier`. -/
def runProgram (expr : Expr TokenVar) (params : TokenParams) : ℚ × List (String × ℚ) :=
  expr.eval params.env

/-- What the expression charges for a usage, in dollars for a million tokens. -/
def expressionCost (expr : Expr TokenVar) (usage : Usage) (isClaudeUsageSemantic : Bool) : ℚ :=
  (runProgram expr (buildTieredTokenParams usage isClaudeUsageSemantic (usedVars expr))).1

/-! ### The price list -/

/-- The prices of a tier; zero where there is none. -/
structure TierPrices where
  input : ℚ
  output : ℚ
  cacheRead : ℚ
  cacheWrite : ℚ
  audioInput : ℚ

open TierPrices

/-- A kind with no price of its own is plain input. -/
def TierPrices.price (t : TierPrices) : InputKind → ℚ
  | .text => t.input
  | .image => t.input
  | .audio => if 0 < t.audioInput then t.audioInput else t.input
  | .cacheRead => if 0 < t.cacheRead then t.cacheRead else t.input
  | .cacheWrite5m => if 0 < t.cacheWrite then t.cacheWrite else t.input
  | .cacheWrite1h => t.input

def CatalogEntry.basePrices (e : CatalogEntry) : TierPrices :=
  ⟨e.inputUSD, e.outputUSD, e.cacheReadUSD, e.cacheWriteUSD, e.audioInputUSD⟩

def CatalogEntry.tierFor (e : CatalogEntry) (length : Int) : TierPrices :=
  match e.contextTier with
  | none => e.basePrices
  | some t =>
    if length ≤ t.thresholdTokens then e.basePrices
    else ⟨t.inputUSD, t.outputUSD, t.cacheReadUSD, t.cacheWriteUSD, e.audioInputUSD⟩

/-- The prices that apply to a usage: those of its full input length. -/
def CatalogEntry.pricesFor (e : CatalogEntry) (u : Usage) (claude : Bool) : TierPrices :=
  e.tierFor (u.inputLength claude)

/-- Every token at its price, once. -/
def CatalogEntry.listCharge (e : CatalogEntry) (u : Usage) (claude : Bool) : ℚ :=
  (InputKind.all.map
    (fun kind => (u.count claude kind : ℚ) * (e.pricesFor u claude).price kind)).sum +
    u.completionTokens * (e.pricesFor u claude).output

/-! ### What falls out and what is billed twice -/

def CatalogEntry.namesCacheRead (e : CatalogEntry) : Prop :=
  0 < e.cacheReadUSD ∨ ∃ t ∈ e.contextTier, 0 < t.cacheReadUSD

def CatalogEntry.namesCacheWrite (e : CatalogEntry) : Prop :=
  0 < e.cacheWriteUSD ∨ ∃ t ∈ e.contextTier, 0 < t.cacheWriteUSD

instance (e : CatalogEntry) : Decidable e.namesCacheRead := inferInstanceAs (Decidable (_ ∨ _))

instance (e : CatalogEntry) : Decidable e.namesCacheWrite := inferInstanceAs (Decidable (_ ∨ _))

/-- The input tokens that no term bills: apart from the prompt, and without a price in the tier. -/
def CatalogEntry.unbilled (e : CatalogEntry) (u : Usage) (claude : Bool) : Int :=
  (if (claude = true ∨ e.namesCacheRead) ∧ ¬ 0 < (e.pricesFor u claude).cacheRead then
    u.count claude .cacheRead else 0) +
  (if (claude = true ∨ e.namesCacheWrite) ∧ ¬ 0 < (e.pricesFor u claude).cacheWrite then
    u.count claude .cacheWrite5m else 0) +
  (if claude = true then u.count claude .cacheWrite1h else 0)

/-- The input tokens that two terms bill: priced audio tokens that were left in the prompt. -/
def CatalogEntry.billedTwice (e : CatalogEntry) (u : Usage) (claude : Bool) : Int :=
  if claude = true ∧ 0 < e.audioInputUSD then u.count claude .audio else 0

/-! ### What is charged -/

section Cost

variable {e : CatalogEntry} {discount : ℚ} {expr : Expr TokenVar} {u : Usage} {claude : Bool}

def TierPrices.terms (t : TierPrices) (env : TokenVar → ℚ) : ℚ :=
  env .p * t.input + env .c * t.output + (if 0 < t.cacheRead then env .cr * t.cacheRead else 0) +
    (if 0 < t.cacheWrite then env .cc * t.cacheWrite else 0) +
    (if 0 < t.audioInput then env .ai * t.audioInput else 0)

theorem sum_pricedTerm (v : TokenVar) (price : ℚ) (env : TokenVar → ℚ) :
    ((pricedTerm v price discount).map fun t => env t.1 * t.2).sum =
      discount * if 0 < price then env v * price else 0 := by
  unfold pricedTerm
  split
  · simp only [map_cons, map_nil, sum_cons, sum_nil]
    ring
  · simp

theorem value_tierExpr (name : String) (input output cacheRead cacheWrite : ℚ)
    (env : TokenVar → ℚ) :
    (e.tierExpr name discount input output cacheRead cacheWrite).value env =
      discount * terms ⟨input, output, cacheRead, cacheWrite, e.audioInputUSD⟩ env := by
  show (Expr.weighted _ _).value env = _
  rw [Expr.value_weighted, map_append, map_append, map_append, sum_append,
    sum_append, sum_append, sum_pricedTerm, sum_pricedTerm, sum_pricedTerm]
  simp only [map_cons, map_nil, sum_cons, sum_nil, terms]
  ring

variable {v : TokenVar}

theorem mem_pricedTerm {w : TokenVar} {price : ℚ} :
    v ∈ (pricedTerm w price discount).map Prod.fst ↔ v = w ∧ 0 < price := by
  unfold pricedTerm
  split <;> simp [*]

theorem mem_vars_tierExpr {name : String} {input output cacheRead cacheWrite : ℚ} :
    v ∈ (e.tierExpr name discount input output cacheRead cacheWrite).vars ↔
      v = .p ∨ v = .c ∨ v = .cr ∧ 0 < cacheRead ∨ v = .cc ∧ 0 < cacheWrite ∨
        v = .ai ∧ 0 < e.audioInputUSD := by
  show v ∈ (Expr.weighted _ _).vars ↔ _
  rw [Expr.mem_vars_weighted, map_append, map_append, map_append, mem_append,
    mem_append, mem_append, mem_pricedTerm, mem_pricedTerm, mem_pricedTerm]
  simp [or_assoc]

/-- **The value of an expression** is that of the tier of the length. -/
theorem value_billingExpr (hexpr : e.billingExpr discount = some expr) (hd : 0 < discount)
    {length : Int} {env : TokenVar → ℚ} (hlen : env .len = length) :
    expr.value env = discount * (e.tierFor length).terms env := by
  unfold billingExpr at hexpr
  split at hexpr
  · cases hexpr
  rw [if_neg (not_le.mpr hd)] at hexpr
  unfold tierFor
  cases ht : e.contextTier with
  | none =>
    rw [ht] at hexpr
    cases hexpr
    exact value_tierExpr ..
  | some t =>
    rw [ht] at hexpr
    cases hexpr
    show (if env .len ≤ (t.thresholdTokens : ℚ) then (tierExpr ..).eval env
      else (tierExpr ..).eval env).1 = _
    rw [hlen]
    by_cases hle : length ≤ t.thresholdTokens
    · rw [if_pos (by exact_mod_cast hle)]
      simp only [if_pos hle]
      exact value_tierExpr ..
    · rw [if_neg (by exact_mod_cast hle)]
      simp only [if_neg hle]
      exact value_tierExpr ..

/-- **The variables of an expression**: a kind is named if some tier has a price for it. -/
theorem mem_vars_billingExpr (hexpr : e.billingExpr discount = some expr) :
    v ∈ expr.vars ↔ v = .p ∨ v = .c ∨ v = .len ∧ e.contextTier.isSome = true ∨
      v = .cr ∧ e.namesCacheRead ∨ v = .cc ∧ e.namesCacheWrite ∨ v = .ai ∧ 0 < e.audioInputUSD := by
  unfold billingExpr at hexpr
  split at hexpr
  · cases hexpr
  unfold namesCacheRead namesCacheWrite
  cases ht : e.contextTier with
  | none =>
    rw [ht] at hexpr
    cases hexpr
    rw [mem_vars_tierExpr]
    simp
  | some =>
    rw [ht] at hexpr
    cases hexpr
    simp only [Expr.vars, mem_append, mem_vars_tierExpr]
    cases v <;> simp

/-- What is taken out of the prompt. -/
theorem takenFor_billingExpr (hexpr : e.billingExpr discount = some expr) (x : ℚ) :
    takenFor (usedVars expr) .cr x = (if e.namesCacheRead then x else 0) ∧
      takenFor (usedVars expr) .cc x = (if e.namesCacheWrite then x else 0) ∧
      takenFor (usedVars expr) .ai x = (if 0 < e.audioInputUSD then x else 0) ∧
      takenFor (usedVars expr) .cc1h x = 0 ∧ takenFor (usedVars expr) .img x = 0 ∧
      takenFor (usedVars expr) .imgO x = 0 ∧ takenFor (usedVars expr) .ao x = 0 := by
  simp [takenFor, usedVars, mem_vars_billingExpr hexpr]

/-- In the Anthropic manner nothing is taken out of the prompt. -/
theorem params_claude (used : TokenVar → Bool) (hu : u.WellFormed true) :
    buildTieredTokenParams u true used =
      { p := u.count true .text + u.count true .image + u.count true .audio
        c := u.completionTokens
        len := u.inputLength true
        cr := u.count true .cacheRead
        cc := u.count true .cacheWrite5m
        cc1h := u.count true .cacheWrite1h
        img := u.count true .image
        imgO := u.completionTokenDetails.imageTokens
        ai := u.count true .audio
        ao := u.completionTokenDetails.audioTokens } := by
  have hprompt : u.count true .text + u.count true .image + u.count true .audio =
      u.promptTokens := by
    simp only [Usage.count, if_true]
    ring
  have hp : ¬ (u.promptTokens : ℚ) < 0 := by
    have htext := hu.count_nonneg .text
    have himage := hu.count_nonneg .image
    have haudio := hu.count_nonneg .audio
    have : 0 ≤ u.promptTokens := by omega
    exact not_lt.mpr (by exact_mod_cast this)
  have hc : ¬ (u.completionTokens : ℚ) < 0 := not_lt.mpr (by exact_mod_cast hu.completion_nonneg)
  have hprompt' : (u.count true .text : ℚ) + u.count true .image + u.count true .audio =
      u.promptTokens := by
    exact_mod_cast hprompt
  rw [hprompt', Usage.inputLength_claude]
  simp only [buildTieredTokenParams, Usage.count, Usage.cacheWrites5m, Usage.cacheWrites1h, if_true,
    if_neg hp, if_neg hc]
  push_cast
  rfl

/-- In the OpenAI manner the kinds that the expression names are. -/
theorem params_openai (hexpr : e.billingExpr discount = some expr) (hu : u.WellFormed false) :
    buildTieredTokenParams u false (usedVars expr) =
      { p := u.count false .text + u.count false .image + u.count false .cacheWrite1h +
          (if e.namesCacheRead then 0 else (u.count false .cacheRead : ℚ)) +
          (if e.namesCacheWrite then 0 else (u.count false .cacheWrite5m : ℚ)) +
          (if 0 < e.audioInputUSD then 0 else (u.count false .audio : ℚ))
        c := u.completionTokens
        len := u.inputLength false
        cr := u.count false .cacheRead
        cc := u.count false .cacheWrite5m
        cc1h := u.count false .cacheWrite1h
        img := u.count false .image
        imgO := u.completionTokenDetails.imageTokens
        ai := u.count false .audio
        ao := u.completionTokenDetails.audioTokens } := by
  have hc : ¬ (u.completionTokens : ℚ) < 0 := not_lt.mpr (by exact_mod_cast hu.completion_nonneg)
  -- what is left of the prompt
  have hrest : (u.promptTokens : ℚ) -
      (if e.namesCacheRead then (u.count false .cacheRead : ℚ) else 0) -
      (if e.namesCacheWrite then (u.count false .cacheWrite5m : ℚ) else 0) -
      (if 0 < e.audioInputUSD then (u.count false .audio : ℚ) else 0) =
      u.count false .text + u.count false .image + u.count false .cacheWrite1h +
          (if e.namesCacheRead then 0 else (u.count false .cacheRead : ℚ)) +
          (if e.namesCacheWrite then 0 else (u.count false .cacheWrite5m : ℚ)) +
          (if 0 < e.audioInputUSD then 0 else (u.count false .audio : ℚ)) := by
    have hprompt : (u.promptTokens : ℚ) = u.count false .text + u.count false .image +
        u.count false .audio + u.count false .cacheRead + u.count false .cacheWrite5m +
          u.count false .cacheWrite1h := by
      have hlen := u.inputLength_openai
      simp only [Usage.inputLength, InputKind.all, map_cons, map_nil, sum_cons, sum_nil] at hlen
      rw [← hlen]
      push_cast
      ring
    rw [hprompt]
    split_ifs <;> ring
  have hnonneg : ∀ kind, (0 : ℚ) ≤ u.count false kind := fun kind => by
    exact_mod_cast hu.count_nonneg kind
  have hp : ¬ (u.count false .text + u.count false .image + u.count false .cacheWrite1h +
      (if e.namesCacheRead then 0 else (u.count false .cacheRead : ℚ)) +
      (if e.namesCacheWrite then 0 else (u.count false .cacheWrite5m : ℚ)) +
      (if 0 < e.audioInputUSD then 0 else (u.count false .audio : ℚ))) < 0 := by
    have htext := hnonneg .text
    have himage := hnonneg .image
    have haudio := hnonneg .audio
    have hread := hnonneg .cacheRead
    have hwrite := hnonneg .cacheWrite5m
    have hhour := hnonneg .cacheWrite1h
    rw [not_lt]
    split_ifs <;> positivity
  obtain ⟨hcr, -⟩ := takenFor_billingExpr hexpr (u.count false .cacheRead)
  obtain ⟨-, hcc, -⟩ := takenFor_billingExpr hexpr (u.count false .cacheWrite5m)
  obtain ⟨-, -, hai, -⟩ := takenFor_billingExpr hexpr (u.count false .audio)
  have hnone := fun x => (takenFor_billingExpr hexpr x).2.2.2
  rw [Usage.inputLength_openai]
  rw [← hrest, ← hcr, ← hcc, ← hai] at hp ⊢
  simp only [Usage.count, Usage.cacheWrites5m, Usage.cacheWrites1h] at hp ⊢
  push_cast at hp ⊢
  simp only [buildTieredTokenParams, Bool.false_eq_true, if_false, (hnone _).1,
    (hnone _).2.1, (hnone _).2.2.1, (hnone _).2.2.2, sub_zero, if_neg hp, if_neg hc]

theorem audioInput_pricesFor : (e.pricesFor u claude).audioInput = e.audioInputUSD := by
  unfold pricesFor tierFor
  split
  · rfl
  · split <;> rfl

/-- A kind that has a price in the tier is named. -/
theorem namesCacheRead_of_price (h : 0 < (e.pricesFor u claude).cacheRead) : e.namesCacheRead := by
  unfold pricesFor tierFor at h
  split at h
  · exact .inl h
  rename_i t ht
  split at h
  · exact .inl h
  · exact .inr ⟨t, ht, h⟩

theorem namesCacheWrite_of_price (h : 0 < (e.pricesFor u claude).cacheWrite) : e.namesCacheWrite := by
  unfold pricesFor tierFor at h
  split at h
  · exact .inl h
  rename_i t ht
  split at h
  · exact .inl h
  · exact .inr ⟨t, ht, h⟩

theorem listCharge_eq : e.listCharge u claude =
    (u.count claude .text + u.count claude .image + u.count claude .cacheWrite1h) * (e.pricesFor u claude).input +
      u.count claude .audio * (e.pricesFor u claude).price .audio +
      u.count claude .cacheRead * (e.pricesFor u claude).price .cacheRead +
      u.count claude .cacheWrite5m * (e.pricesFor u claude).price .cacheWrite5m +
      u.completionTokens * (e.pricesFor u claude).output := by
  simp only [listCharge, InputKind.all, map_cons, map_nil, sum_cons,
    sum_nil, price]
  ring

/-- **What is charged**: the price list, less tokens that no term bills, plus those that two bill.
-/
theorem cost_eq (hexpr : e.billingExpr discount = some expr) (hd : 0 < discount)
    (hu : u.WellFormed claude) : expressionCost expr u claude =
      discount * (e.listCharge u claude - (e.pricesFor u claude).input *
        ((e.unbilled u claude : ℚ) - (e.billedTwice u claude : ℚ))) := by
  have hvalue : ∀ params : TokenParams, params.len = u.inputLength claude →
      (runProgram expr params).1 = discount * (e.pricesFor u claude).terms params.env := by
    intro params hlen
    exact value_billingExpr hexpr hd hlen
  have haudio : (e.pricesFor u claude).audioInput = e.audioInputUSD := audioInput_pricesFor
  unfold expressionCost
  cases claude with
  | true =>
    rw [params_claude _ hu, hvalue _ rfl, listCharge_eq]
    simp only [terms, TokenParams.env, price, unbilled,
      billedTwice, haudio, true_or, true_and]
    split_ifs <;> push_cast <;> ring
  | false =>
    rw [params_openai hexpr hu, hvalue _ rfl, listCharge_eq]
    simp only [terms, TokenParams.env, price, unbilled,
      billedTwice, haudio, Bool.false_eq_true, false_or, false_and]
    by_cases hread : 0 < (e.pricesFor u false).cacheRead
    · have hnames := namesCacheRead_of_price hread
      simp only [hread, not_true, and_false]
      by_cases hwrite : 0 < (e.pricesFor u false).cacheWrite
      · have hnames' := namesCacheWrite_of_price hwrite
        simp only [hwrite, not_true, and_false, if_false]
        split_ifs <;> push_cast <;> ring
      · simp only [hwrite, if_false, not_false_iff, and_true]
        split_ifs <;> push_cast <;> ring
    · by_cases hwrite : 0 < (e.pricesFor u false).cacheWrite
      · have hnames' := namesCacheWrite_of_price hwrite
        simp only [hread, hwrite, not_true, and_false, if_false, not_false_iff, and_true]
        split_ifs <;> push_cast <;> ring
      · simp only [hread, hwrite, if_false, not_false_iff, and_true]
        split_ifs <;> push_cast <;> ring

end Cost

/-! ### Every token once -/

def tieredModel : CatalogEntry := ⟨"tiered", 1, 4, 1 / 10, 0, 0, 3, some ⟨200, 2, 8, 1 / 5, 0⟩⟩

def halfPricedModel : CatalogEntry := { tieredModel with contextTier := some ⟨200, 2, 8, 0, 0⟩ }

def longPrompt : Usage := ⟨300, 10, ⟨150, 0, 0, 50, 0⟩, ⟨0, 0⟩, .openai, 0, 0⟩

def writingPrompt : Usage := ⟨50, 10, ⟨20, 0, 0, 0, 0⟩, ⟨0, 0⟩, .anthropic, 0, 40⟩

theorem wellFormed_longPrompt : longPrompt.WellFormed false :=
  ⟨fun kind => by cases kind <;> decide, by decide⟩

/-- A Claude request whose usage is not marked: the cache writes have no price and are free. -/
example :
    let u : Usage := ⟨50, 10, ⟨20, 40, 0, 0, 0⟩, ⟨0, 0⟩, .blank, 0, 0⟩
    ∃ expr, tieredModel.billingExpr 1 = some expr ∧
      expressionCost expr u true = 92 ∧ tieredModel.listCharge u true = 132 :=
  ⟨_, rfl, by decide +kernel⟩

end UnifyConsole.Pricing
