import Mathlib
import UnifyConsole.Lib.Table
import UnifyConsole.Lib.Text

/-!
# One-time login flows and external assertions

`auth_flows` holds the state of login ceremonies.  A row is created with a random token and
consumed once, together with an action in the same transaction; an assertion signed by a
provider is recorded as a row that is consumed from the start.  `DeleteExpiredAuthFlows` removes
a row a day after it expired or a day after it was consumed.

`step` is one transaction, atomic, at the time the clock shows.  `Sound` says what every state
keeps: a row that can still be consumed has a token that was issued and not yet consumed, and an
assertion that can still be presented has its row.  `single_use` reads both halves off it.
-/

namespace UnifyConsole.Auth

open Lib (Table)
open Lib.Table
open Lib.Text (trimSpace)
open List Option

/-- The keyed hash and the random source, which do not repeat; `token n` is that of the `n`-th flow.
-/
structure Secrets (H : Type) where
  hash : String → H
  hash_injective : Function.Injective hash
  token : ℕ → String
  token_injective : Function.Injective token

/-- `AuthFlowDefaultCleanupRetention`.  Times count nanoseconds from Go's zero time. -/
def authFlowDefaultCleanupRetention : ℤ := 24 * 60 * 60 * 1000000000

inductive AuthFlowError
  | invalid
  | expired
  | consumed
  /-- Any error of the database or of the action itself. -/
  | other
  deriving DecidableEq

structure AuthFlow (H : Type) where
  tokenHash : H
  purpose : String
  provider : String := ""
  intent : String := ""
  userId : ℤ := 0
  sessionId : String := ""
  payload : String := ""
  expiresAt : ℤ
  consumedAt : Option ℤ := none

structure AuthFlowCreate where
  purpose : String
  provider : String := ""
  intent : String := ""
  userId : ℤ := 0
  sessionId : String := ""
  payload : String := ""
  expiresAt : ℤ

structure AuthFlowMatch where
  purpose : String
  provider : String := ""
  intent : String := ""
  userId : ℤ := 0
  sessionId : String := ""

structure AssertionClaim where
  purpose : String
  assertion : String
  expiresAt : ℤ
  time : ℤ
  deriving DecidableEq

/-- The table and the clock, with the tokens consumed and the assertions claimed so far. -/
structure FlowState (H : Type) where
  clock : ℤ
  issued : ℕ
  flows : Table (AuthFlow.tokenHash : AuthFlow H → H)
  consumptions : List String
  claims : List AssertionClaim

variable {H : Type} [DecidableEq H]

/-! ### The functions of `auth_flow.go` -/

def authFlowTokenHash (k : Secrets H) (token : String) : H := k.hash token

/-- The row that `applyAuthFlowMatch` selects by its token has to meet the other conditions. -/
def AuthFlowMatch.holds (m : AuthFlowMatch) (f : AuthFlow H) : Bool :=
  f.purpose == m.purpose &&
    (m.provider == "" || f.provider == m.provider) &&
    (m.intent == "" || f.intent == m.intent) &&
    (m.userId == 0 || f.userId == m.userId) &&
    (m.sessionId == "" || f.sessionId == m.sessionId)

def applyAuthFlowMatch (k : Secrets H) (flows : Table (AuthFlow.tokenHash : AuthFlow H → H))
    (token : String) (m : AuthFlowMatch) : Option (AuthFlow H) :=
  (flows.find? (authFlowTokenHash k token)).filter m.holds

def createAuthFlow (k : Secrets H) (input : AuthFlowCreate) (s : FlowState H) :
    Except AuthFlowError String × FlowState H :=
  if trimSpace input.purpose = "" ∨ input.expiresAt = 0 ∨ input.expiresAt ≤ s.clock then
    (.error .invalid, s)
  else
    let token := k.token s.issued
    let s := { s with issued := s.issued + 1 }
    match s.flows.insert?
      { tokenHash := authFlowTokenHash k token, purpose := input.purpose,
        provider := input.provider, intent := input.intent, userId := input.userId,
        sessionId := input.sessionId, payload := input.payload,
        expiresAt := input.expiresAt } with
    | none => (.error .other, s)
    | some flows => (.ok token, { s with flows := flows })

/-- The text whose hash marks an assertion as claimed. -/
def externalToken (purpose assertion : String) : String :=
  "external:" ++ trimSpace purpose ++ ":" ++ trimSpace assertion

def claimExternalAuthAssertionWithTx (k : Secrets H) (purpose assertion : String)
    (expiresAt : ℤ) (s : FlowState H) : Except AuthFlowError Unit × FlowState H :=
  if trimSpace purpose = "" ∨ trimSpace assertion = "" ∨ expiresAt ≤ s.clock then
    (.error .invalid, s)
  else
    -- `ON CONFLICT DO NOTHING`: a row that is there already leaves no row affected.
    match s.flows.insert?
      { tokenHash := authFlowTokenHash k (externalToken purpose assertion),
        purpose := trimSpace purpose, expiresAt := expiresAt, consumedAt := some s.clock } with
    | none => (.error .consumed, s)
    | some flows =>
      (.ok (), { s with
        flows := flows, claims := s.claims ++ [⟨purpose, assertion, expiresAt, s.clock⟩] })

/-- What an action does to `auth_flows`: it claims assertions, each after some time, and ends well
or not. -/
inductive FlowAction
  | finish (result : Except AuthFlowError Unit)
  | claim (delay : ℕ) (purpose assertion : String) (expiresAt : ℤ)
      (next : Except AuthFlowError Unit → FlowAction)

def FlowState.wait (delay : ℕ) (s : FlowState H) : FlowState H :=
  { s with clock := s.clock + delay }

def FlowAction.run (k : Secrets H) : FlowAction → FlowState H →
    Except AuthFlowError Unit × FlowState H
  | .finish result, s => (result, s)
  | .claim delay purpose assertion expiresAt next, s =>
    let (answer, s') :=
      claimExternalAuthAssertionWithTx k purpose assertion expiresAt (s.wait delay)
    (next answer).run k s'

/-- The transaction is rolled back; the time it took has passed. -/
def FlowState.rollback (s s' : FlowState H) : FlowState H := { s with clock := s'.clock }

/-- The transaction of a consumption up to the action: the row is found, checked and marked. -/
def markConsumed (k : Secrets H) (token : String) (m : AuthFlowMatch) (s : FlowState H) :
    Except AuthFlowError (FlowState H) :=
  if token = "" ∨ m.purpose = "" then .error .invalid
  else
    match applyAuthFlowMatch k s.flows token m with
    | none => .error .invalid
    | some row =>
      if row.consumedAt ≠ none then .error .consumed
      else if row.expiresAt ≤ s.clock then .error .expired
      else
        let open? := fun f : AuthFlow H =>
          decide (f.tokenHash = row.tokenHash) && f.consumedAt.isNone &&
            decide (s.clock < f.expiresAt)
        if s.flows.matched open? ≠ 1 then .error .consumed
        else .ok { s with
          flows := s.flows.update open? (fun f => { f with consumedAt := some s.clock })
            (fun _ => rfl)
          consumptions := s.consumptions ++ [token] }

def consumeAuthFlowWithAction (k : Secrets H) (token : String) (m : AuthFlowMatch)
    (action : FlowAction) (s : FlowState H) : Except AuthFlowError Unit × FlowState H :=
  match markConsumed k token m s with
  | .error e => (.error e, s)
  | .ok marked =>
    match action.run k marked with
    | (.ok (), s') => (.ok (), s')
    | (.error e, s') => (.error e, s.rollback s')

/-- `DeleteExpiredAuthFlows`, called with a time `age` before the present one. -/
def deleteExpiredAuthFlows (age : ℕ) (s : FlowState H) : FlowState H :=
  let cutoff := s.clock - age - authFlowDefaultCleanupRetention
  { s with flows := s.flows.delete (fun f =>
      decide (f.expiresAt < cutoff) || f.consumedAt.any fun t => decide (t < cutoff)) }

inductive FlowEvent
  | wait (delay : ℕ)
  | create (input : AuthFlowCreate)
  /-- A consumption; without an action the action is `finish (.ok ())`. -/
  | consume (token : String) (m : AuthFlowMatch) (action : FlowAction)
  /-- `ClaimExternalAuthAssertion`, a transaction of its own. -/
  | claim (purpose assertion : String) (expiresAt : ℤ)
  | cleanup (age : ℕ)

def FlowState.step (k : Secrets H) (s : FlowState H) : FlowEvent → FlowState H
  | .wait delay => s.wait delay
  | .create input => (createAuthFlow k input s).2
  | .consume token m action => (consumeAuthFlowWithAction k token m action s).2
  | .claim purpose assertion expiresAt =>
    (claimExternalAuthAssertionWithTx k purpose assertion expiresAt s).2
  | .cleanup age => deleteExpiredAuthFlows age s

def FlowState.start (clock : ℤ) : FlowState H := ⟨clock, 0, Table.empty, [], []⟩

/-- The state after a run of transactions, from an empty table. -/
def FlowState.after (k : Secrets H) (clock : ℤ) (events : List FlowEvent) : FlowState H :=
  events.foldl (FlowState.step k) (FlowState.start clock)

/-! ### What every state keeps -/

/-- The assertion expires at most a retention period after it was claimed. -/
def AssertionClaim.Short (c : AssertionClaim) : Prop :=
  c.expiresAt ≤ c.time + authFlowDefaultCleanupRetention

def AssertionClaim.token (c : AssertionClaim) : String := externalToken c.purpose c.assertion

def AssertionClaim.Recorded (k : Secrets H) (c : AssertionClaim) (f : AuthFlow H) : Prop :=
  f.tokenHash = k.hash c.token ∧ f.expiresAt = c.expiresAt ∧ f.consumedAt = some c.time

structure Sound (k : Secrets H) (s : FlowState H) : Prop where
  /-- A row that is not consumed has a token that was issued and that no one consumed. -/
  fresh : ∀ f ∈ s.flows.rows, f.consumedAt = none →
    ∃ n < s.issued, f.tokenHash = k.hash (k.token n) ∧ k.token n ∉ s.consumptions
  issued : ∀ token ∈ s.consumptions, ∃ n < s.issued, token = k.token n
  once : s.consumptions.Nodup
  /-- A claimed assertion has expired or its row is still there. -/
  guarded : ∀ c ∈ s.claims, c.Short →
    c.expiresAt < s.clock ∨ ∃ f ∈ s.flows.rows, c.Recorded k f
  single : s.claims.Pairwise
    (fun c d => c.Short → c.token = d.token → d.expiresAt ≠ c.expiresAt)

omit [DecidableEq H] in
theorem Sound.start (k : Secrets H) (clock : ℤ) :
    Sound k (FlowState.start clock : FlowState H) :=
  ⟨nofun, nofun, nodup_nil, nofun, Pairwise.nil⟩

variable {k : Secrets H} {s s' : FlowState H}

omit [DecidableEq H] in
/-- Claims stay guarded while the rows that are consumed stay. -/
theorem Sound.guards (h : Sound k s) {clock : ℤ} {rows : List (AuthFlow H)}
    (hclock : s.clock ≤ clock) (hkept : ∀ f ∈ s.flows.rows, f.consumedAt ≠ none → f ∈ rows)
    {c : AssertionClaim} (hc : c ∈ s.claims) (hshort : c.Short) :
    c.expiresAt < clock ∨ ∃ f ∈ rows, c.Recorded k f := by
  rcases h.guarded c hc hshort with hpast | ⟨f, hf, hrec⟩
  · exact .inl (hpast.trans_le hclock)
  · exact .inr ⟨f, hkept f hf (hrec.2.2 ▸ some_ne_none _), hrec⟩

omit [DecidableEq H] in
/-- Time passes, as in a transaction that is rolled back. -/
theorem Sound.later (h : Sound k s) {clock : ℤ} (hle : s.clock ≤ clock) :
    Sound k { s with clock := clock } :=
  { h with guarded := fun _ => h.guards hle (fun _ hf _ => hf) }

omit [DecidableEq H] in
theorem Sound.wait (h : Sound k s) (delay : ℕ) : Sound k (s.wait delay) :=
  h.later (by omega)

theorem Sound.create (h : Sound k s) (input : AuthFlowCreate) :
    Sound k (createAuthFlow k input s).2 := by
  -- The number of issued tokens grows even when the insertion is refused.
  have hissued : Sound k { s with issued := s.issued + 1 } := by
    refine { h with fresh := fun f hf hopen => ?_, issued := fun token htoken => ?_ }
    · obtain ⟨n, hn, hhash, hnot⟩ := h.fresh f hf hopen
      exact ⟨n, Nat.lt_succ_of_lt hn, hhash, hnot⟩
    · obtain ⟨n, hn, he⟩ := h.issued token htoken
      exact ⟨n, Nat.lt_succ_of_lt hn, he⟩
  unfold createAuthFlow
  split
  · exact h
  simp only
  split
  · exact hissued
  rename_i flows hins
  refine ⟨fun f hf hopen => ?_, hissued.issued, h.once,
    fun _ => h.guards le_rfl (fun f hf _ => (mem_insert? hins).mpr (.inl hf)), h.single⟩
  rcases (mem_insert? hins).mp hf with hold | rfl
  · exact hissued.fresh f hold hopen
  refine ⟨s.issued, Nat.lt_succ_self _, rfl, fun hused => ?_⟩
  obtain ⟨n, hn, he⟩ := h.issued _ hused
  have := k.token_injective he
  omega

theorem Sound.claim (h : Sound k s) (purpose assertion : String) (expiresAt : ℤ) :
    Sound k (claimExternalAuthAssertionWithTx k purpose assertion expiresAt s).2 := by
  unfold claimExternalAuthAssertionWithTx
  split
  · exact h
  rename_i hvalid
  push Not at hvalid
  split
  · exact h
  rename_i flows hins
  have hmem : ∀ f, f ∈ flows.rows ↔ _ := fun f => mem_insert? hins
  refine ⟨fun f hf hopen => ?_, h.issued, h.once, fun c hc hshort => ?_, ?_⟩
  · rcases (hmem f).mp hf with hold | rfl
    · exact h.fresh f hold hopen
    · cases hopen
  · rcases mem_append.mp hc with hold | hnew
    · exact h.guards le_rfl (fun f hf _ => (hmem f).mpr (.inl hf)) hold hshort
    · rw [mem_singleton.mp hnew]
      exact .inr ⟨_, (hmem _).mpr (.inr rfl), rfl, rfl, rfl⟩
  rw [pairwise_append]
  refine ⟨h.single, pairwise_singleton _ _, ?_⟩
  intro c hc d hd hshort htoken hexpiry
  rw [mem_singleton] at hd
  subst hd
  -- The earlier claim has expired, or its row stands in the way of the insertion.
  rcases h.guarded c hc hshort with hpast | ⟨f, hf, hhash, -, -⟩
  · have hlater : s.clock < expiresAt := hvalid.2.2
    have : expiresAt = c.expiresAt := hexpiry
    omega
  have hfree := find?_eq_none_iff.mp (insert?_eq_some_iff.mp hins).1
  refine hfree f hf ?_
  rw [hhash, htoken]
  rfl

theorem Sound.run (action : FlowAction) :
    ∀ {s : FlowState H}, Sound k s → Sound k (action.run k s).2 := by
  induction action with
  | finish =>
    intro s h
    exact h
  | claim delay purpose assertion expiresAt next ih =>
    intro s h
    exact ih _ ((h.wait delay).claim purpose assertion expiresAt)

/-- A consumption that is not refused found its row open. -/
theorem markConsumed_eq_ok {token : String} {m : AuthFlowMatch}
    (hm : markConsumed k token m s = .ok s') :
    ∃ row ∈ s.flows.rows, row.tokenHash = k.hash token ∧ row.consumedAt = none ∧
      s'.clock = s.clock ∧ s'.issued = s.issued ∧ s'.claims = s.claims ∧
      s'.consumptions = s.consumptions ++ [token] ∧
      (∀ f ∈ s'.flows.rows, f.consumedAt = none → f ∈ s.flows.rows ∧ f.tokenHash ≠ k.hash token) ∧
      (∀ f ∈ s.flows.rows, f.consumedAt ≠ none → f ∈ s'.flows.rows) := by
  unfold markConsumed at hm
  split at hm
  · cases hm
  cases hrow : applyAuthFlowMatch k s.flows token m with
  | none =>
    rw [hrow] at hm
    cases hm
  | some row =>
    rw [hrow] at hm
    simp only at hm
    have hfind := (filter_eq_some_iff.mp hrow).1
    have hhash : row.tokenHash = k.hash token := key_of_find? hfind
    split_ifs at hm with hopen hlate hmatched
    cases hm
    have hopen : row.consumedAt = none := not_not.mp hopen
    refine ⟨row, mem_of_find? hfind, hhash, hopen, rfl, rfl, rfl, rfl, ?_, ?_⟩
    · intro f hf hnone
      rw [mem_update] at hf
      obtain ⟨r, hr, he⟩ := hf
      split_ifs at he with hcond
      · rw [he] at hnone
        cases hnone
      subst he
      refine ⟨hr, ?_⟩
      intro hsame
      have hrr := s.flows.eq_of_key_eq hr (mem_of_find? hfind) (hsame.trans hhash.symm)
      subst hrr
      apply hcond
      simp only [hopen, decide_true, isNone_none, Bool.true_and, decide_eq_true_eq]
      omega
    · intro f hf hdone
      rw [mem_update]
      refine ⟨f, hf, ?_⟩
      rw [if_neg]
      intro hcond
      simp only [Bool.and_eq_true, isNone_iff_eq_none] at hcond
      exact hdone hcond.1.2

theorem Sound.mark (h : Sound k s) {token : String} {m : AuthFlowMatch}
    (hm : markConsumed k token m s = .ok s') : Sound k s' := by
  obtain ⟨row, hrow, hhash, hopen, hclock, hissued, hclaims, hcons, hleft, hkept⟩ :=
    markConsumed_eq_ok hm
  obtain ⟨n, hn, hn', hnot⟩ := h.fresh row hrow hopen
  have htoken : token = k.token n := k.hash_injective (hhash.symm.trans hn')
  refine ⟨?_, ?_, ?_, ?_, ?_⟩
  · intro f hf hnone
    obtain ⟨hold, hother⟩ := hleft f hf hnone
    obtain ⟨i, hi, hfi, hinot⟩ := h.fresh f hold hnone
    refine ⟨i, hissued ▸ hi, hfi, ?_⟩
    rw [hcons, mem_append, mem_singleton]
    rintro (hmem | heq)
    · exact hinot hmem
    · exact hother (hfi.trans (congrArg k.hash heq))
  · intro t ht
    rw [hissued]
    rw [hcons, mem_append, mem_singleton] at ht
    rcases ht with hold | rfl
    · exact h.issued t hold
    · exact ⟨n, hn, htoken⟩
  · rw [hcons, nodup_append]
    refine ⟨h.once, nodup_singleton _, ?_⟩
    intro a ha b hb hab
    rw [mem_singleton] at hb
    subst hab hb
    exact hnot (htoken ▸ ha)
  · rw [hclaims]
    exact fun _ => h.guards hclock.ge hkept
  · rw [hclaims]
    exact h.single

theorem clock_claim (purpose assertion : String) (expiresAt : ℤ) (s : FlowState H) :
    (claimExternalAuthAssertionWithTx k purpose assertion expiresAt s).2.clock = s.clock := by
  unfold claimExternalAuthAssertionWithTx
  split
  · rfl
  · split <;> rfl

/-- The clock does not run backwards while an action runs. -/
theorem le_clock_run (action : FlowAction) :
    ∀ s : FlowState H, s.clock ≤ (action.run k s).2.clock := by
  induction action with
  | finish =>
    intro s
    exact le_refl _
  | claim delay purpose assertion expiresAt next ih =>
    intro s
    have hwait : s.clock ≤ (s.wait delay).clock := by
      show s.clock ≤ s.clock + delay
      omega
    refine hwait.trans ?_
    rw [← clock_claim purpose assertion expiresAt (s.wait delay)]
    exact ih _ _

theorem Sound.consume (h : Sound k s) (token : String) (m : AuthFlowMatch) (action : FlowAction) :
    Sound k (consumeAuthFlowWithAction k token m action s).2 := by
  unfold consumeAuthFlowWithAction
  cases hm : markConsumed k token m s with
  | error => exact h
  | ok marked =>
    have hrun := Sound.run action (h.mark hm)
    have hclock : s.clock ≤ (action.run k marked).2.clock := by
      obtain ⟨-, -, -, -, hc, -⟩ := markConsumed_eq_ok hm
      rw [← hc]
      exact le_clock_run action marked
    simp only
    rcases hr : action.run k marked with ⟨result, s'⟩
    rw [hr] at hrun hclock
    cases result with
    | ok => exact hrun
    | error => exact h.later hclock

omit [DecidableEq H] in
theorem Sound.cleanup (h : Sound k s) (age : ℕ) : Sound k (deleteExpiredAuthFlows age s) := by
  refine { h with fresh := fun f hf => h.fresh f (mem_delete.mp hf).1
                  guarded := fun c hc hshort => ?_ }
  show c.expiresAt < s.clock ∨ _
  rcases h.guarded c hc hshort with hpast | ⟨f, hf, hhash, hexpires, hconsumed⟩
  · exact .inl hpast
  by_cases hold : c.expiresAt < s.clock
  · exact .inl hold
  refine .inr ⟨f, mem_delete.mpr ⟨hf, ?_⟩, hhash, hexpires, hconsumed⟩
  -- Both ages at which a row is removed lie past the expiry of a short assertion.
  have hretention : (0 : ℤ) ≤ authFlowDefaultCleanupRetention := by decide
  unfold AssertionClaim.Short at hshort
  rw [hexpires, hconsumed]
  simp only [any_some, Bool.or_eq_false_iff, decide_eq_false_iff_not]
  omega

theorem Sound.step (h : Sound k s) (e : FlowEvent) : Sound k (s.step k e) := by
  cases e with
  | wait delay => exact h.wait delay
  | create input => exact h.create input
  | consume token m action => exact h.consume token m action
  | claim purpose assertion expiresAt => exact h.claim purpose assertion expiresAt
  | cleanup age => exact h.cleanup age

theorem Sound.after (k : Secrets H) (clock : ℤ) (events : List FlowEvent) :
    Sound k (FlowState.after k clock events) :=
  foldlRecOn events _ (Sound.start k clock) fun _ h e _ => h.step e

/-! ### Single use -/

/-- The committed claims of one assertion with one expiry, in order. -/
def FlowState.claimsOf (s : FlowState H) (purpose assertion : String) (expiresAt : ℤ) :
    List AssertionClaim :=
  s.claims.filter
    (fun c => c.purpose = purpose ∧ c.assertion = assertion ∧ c.expiresAt = expiresAt)

variable {purpose assertion : String} {expiresAt : ℤ}

omit [DecidableEq H] in
theorem mem_claimsOf {c : AssertionClaim} (hc : c ∈ s.claimsOf purpose assertion expiresAt) :
    c.token = externalToken purpose assertion ∧ c.expiresAt = expiresAt := by
  obtain ⟨-, rfl, rfl, rfl⟩ : c ∈ s.claims ∧ _ := by simpa [FlowState.claimsOf] using hc
  exact ⟨rfl, rfl⟩

omit [DecidableEq H] in
theorem Sound.claimsOf_le_one (h : Sound k s) {first : AssertionClaim} {rest : List AssertionClaim}
    (hclaims : s.claimsOf purpose assertion expiresAt = first :: rest) (hshort : first.Short) :
    rest = [] := by
  cases rest with
  | nil => rfl
  | cons second rest =>
    have hpair : (s.claimsOf purpose assertion expiresAt).Pairwise _ :=
      h.single.sublist filter_sublist
    rw [hclaims, pairwise_cons] at hpair
    obtain ⟨ht, he⟩ := mem_claimsOf (hclaims ▸ mem_cons_self)
    obtain ⟨ht', he'⟩ := mem_claimsOf (hclaims ▸ mem_cons_of_mem first mem_cons_self)
    exact absurd (he'.trans he.symm) (hpair.1 second mem_cons_self hshort (ht.trans ht'.symm))

/-- **Single use.** In every run, at most one committed transaction consumed a token; and of an
assertion with one expiry, only the first claim within a retention period stands. -/
theorem single_use (k : Secrets H) (clock : ℤ) (events : List FlowEvent) :
    (∀ token, (FlowState.after k clock events).consumptions.count token ≤ 1) ∧
    ∀ purpose assertion expiresAt first rest,
      (FlowState.after k clock events).claimsOf purpose assertion expiresAt = first :: rest →
      expiresAt ≤ first.time + authFlowDefaultCleanupRetention → rest = [] := by
  have h := Sound.after k clock events
  refine ⟨fun token => nodup_iff_count_le_one.mp h.once token, ?_⟩
  intro purpose assertion expiresAt first rest hclaims hshort
  have hfirst := mem_claimsOf (hclaims ▸ mem_cons_self)
  exact h.claimsOf_le_one hclaims (hfirst.2.trans_le hshort)

def plainSecrets : Secrets String where
  hash := id
  hash_injective := fun _ _ h => h
  token := fun n => String.ofList (List.replicate n 'f')
  token_injective := by
    intro m n h
    have := congrArg (fun t : String => t.toList.length) h
    simpa using this

def bindTwice : List FlowEvent :=
  let bind := FlowEvent.consume "f" ⟨"telegram_bind", "", "", 7, ""⟩
    (.claim 1 "telegram_assertion" "ab" 500 .finish)
  [.create { purpose := "oauth", expiresAt := 900 },
    .create { purpose := "telegram_bind", userId := 7, expiresAt := 900 },
    bind, .wait 5, bind, .claim "telegram_assertion" "ab" 500]

theorem single_use_bindTwice :
    (FlowState.after plainSecrets 100 bindTwice).consumptions.count "f" = 1 ∧
    ∃ rest, (FlowState.after plainSecrets 100 bindTwice).claimsOf "telegram_assertion" "ab" 500 =
        ⟨"telegram_assertion", "ab", 500, 101⟩ :: rest ∧
      (500 : ℤ) ≤ 101 + authFlowDefaultCleanupRetention ∧ rest = [] := by
  have hclaims : (FlowState.after plainSecrets 100 bindTwice).claimsOf "telegram_assertion" "ab" 500
      = [⟨"telegram_assertion", "ab", 500, 101⟩] := by decide +kernel
  have hshort : (500 : ℤ) ≤ 101 + authFlowDefaultCleanupRetention := by decide
  exact ⟨by decide +kernel, [], hclaims, hshort,
    (single_use plainSecrets 100 bindTwice).2 _ _ _ _ _ hclaims hshort⟩

end UnifyConsole.Auth
