import Mathlib
import UnifyConsole.Lib.Tally
import UnifyConsole.Routing.Weights

/-!
# Retries

`service/channel_select.go` and the retry loop of `controller/relay.go`.  The loop
counts its attempts in `retry`, but the selector sets that counter back to zero
when it moves on to another of the token's auto groups, and may ask that one
increment be left out.

`relay_attempts_le` bounds the attempts all the same: the pair of the group and
the counter only moves forward.  `walks_in_order_iff` is about the order of the
attempts.  The selector leaves a group when the counter reaches `RetryTimes`, not
when the priorities of the group are used up, and `GetRandomSatisfiedChannel`
never says that they are: it goes on with the lowest one.
-/

namespace UnifyConsole.Routing

open Lib List Option

/-! ### The selector -/

/-- Where a request may go: the group of its token, or the user's groups if that is `auto`. -/
structure RelayRoute where
  tokenGroup : String
  autoGroups : List String
  distinct : autoGroups.Nodup
  crossGroupRetry : Bool
  retryTimes : ℕ

open RelayRoute

/-- `RetryParam`, and the group index that the context of the request keeps. -/
structure RetryParam where
  retry : ℕ
  resetNextTry : Bool
  autoGroupIndex : Option ℕ

def RetryParam.start (autoGroupIndex : Option ℕ) : RetryParam := ⟨0, false, autoGroupIndex⟩

def RetryParam.increaseRetry (p : RetryParam) : RetryParam :=
  if p.resetNextTry then { p with resetNextTry := false } else { p with retry := p.retry + 1 }

section Selector

variable {C : Type} (route : RelayRoute)

/-- The loop over the auto groups: the group `i` and those after it. -/
def selectAutoGroup (pick : String → ℕ → Option C) :
    ℕ → List String → ℕ → RetryParam → Option (String × C) × RetryParam
  | _, [], _, p => (none, p)
  | i, group :: groups, priorityRetry, p =>
    match pick group priorityRetry with
    | none =>
      selectAutoGroup pick (i + 1) groups 0 { p with retry := 0, autoGroupIndex := some (i + 1) }
    | some channel =>
      (some (group, channel),
        if route.crossGroupRetry ∧ route.retryTimes ≤ priorityRetry then
          ⟨0, true, some (i + 1)⟩
        else { p with autoGroupIndex := some i })

/-- `CacheGetRandomSatisfiedChannel`; `none` where it returns an error or no channel. -/
def cacheGetRandomSatisfiedChannel (pick : String → ℕ → Option C) (p : RetryParam) :
    Option (String × C) × RetryParam :=
  if route.tokenGroup = "auto" then
    selectAutoGroup route pick (p.autoGroupIndex.getD 0)
      (route.autoGroups.drop (p.autoGroupIndex.getD 0)) p.retry p
  else ((pick route.tokenGroup p.retry).map (fun c => (route.tokenGroup, c)), p)

/-! ### The loop of `Relay` -/

/-- What `shouldRetry` reads of an error. -/
structure RelayError where
  isChannelError : Bool
  isSkipRetry : Bool
  statusCode : Int
  alwaysSkip : Bool
  retryByStatusCode : Bool

/-- What one pass meets: the channels of the time, the steps before the handler, and the handler. -/
structure Attempt (C : Type) where
  pick : String → ℕ → Option C
  setup : Bool
  prepared : Bool
  /-- Whether the handler gets as far as `InitChannelMeta`. -/
  initsChannelMeta : Bool
  error : Option RelayError
  skipAfterAffinity : Bool
  specificChannel : Bool

def shouldRetry (a : Attempt C) (e : RelayError) (retryTimes : Int) : Bool :=
  if a.skipAfterAffinity then false
  else if e.isChannelError then true
  else if e.isSkipRetry then false
  else if retryTimes ≤ 0 then false
  else if a.specificChannel then false
  else if 200 ≤ e.statusCode ∧ e.statusCode < 300 then false
  else if e.statusCode < 100 ∨ 599 < e.statusCode then true
  else if e.alwaysSkip then false
  else e.retryByStatusCode

structure RelayState where
  param : RetryParam
  /-- Whether `info.ChannelMeta` is set; the first attempt goes to the distributor's channel. -/
  channelMeta : Bool
  attempts : ℕ
  ended : Bool

/-- `getChannel`: whether there is one, and the parameters afterwards. -/
def getChannel (a : Attempt C) (s : RelayState) : Bool × RetryParam :=
  if s.channelMeta then
    let r := cacheGetRandomSatisfiedChannel route a.pick s.param
    (r.1.isSome && a.setup, r.2)
  else (true, s.param)

def relayPass (a : Attempt C) (s : RelayState) : RelayState :=
  if s.ended ∨ route.retryTimes < s.param.retry then { s with ended := true }
  else
    let (found, param) := getChannel route a s
    if found = false ∨ a.prepared = false then { s with param := param, ended := true }
    else
      let s := { s with
        param := param
        channelMeta := s.channelMeta || a.initsChannelMeta
        attempts := s.attempts + 1 }
      if a.error.any (fun e => shouldRetry a e (route.retryTimes - param.retry)) then
        { s with param := param.increaseRetry }
      else { s with ended := true }

def relayAfter (world : ℕ → Attempt C) (autoGroupIndex : Option ℕ) : ℕ → RelayState
  | 0 => ⟨.start autoGroupIndex, false, 0, false⟩
  | n + 1 => relayPass route (world n) (relayAfter world autoGroupIndex n)

def RelayRoute.groupCount : ℕ := if route.tokenGroup = "auto" then route.autoGroups.length else 1

/-! ### The bound -/

/-- How far the loop has come: the passes of the groups before this one, and those made here. -/
def RelayRoute.position (p : RetryParam) : ℕ :=
  (if route.tokenGroup = "auto" then p.autoGroupIndex.getD 0 else 0) * (route.retryTimes + 1) +
    p.retry

/-- The next pass starts further on, and not behind the last group. -/
def Forward (position : ℕ) (p : RetryParam) : Prop :=
  p.resetNextTry = false ∧ position < route.position p ∧
    route.position p ≤ route.groupCount * (route.retryTimes + 1)

variable {route}

theorem selectAutoGroup_forward {pick : String → ℕ → Option C} (hauto : route.tokenGroup = "auto")
    {found : String × C} {p' : RetryParam} : ∀ (groups : List String) (i r : ℕ) (p : RetryParam),
    i + groups.length ≤ route.autoGroups.length → p.resetNextTry = false → p.retry = r →
    r ≤ route.retryTimes → selectAutoGroup route pick i groups r p = (some found, p') →
    Forward route (i * (route.retryTimes + 1) + r) p'.increaseRetry := by
  intro groups
  induction groups with
  | nil =>
    intro i r p _ _ _ _ h
    cases h
  | cons group groups ih =>
    intro i r p hlen hreset hretry hr h
    rw [length_cons] at hlen
    unfold selectAutoGroup at h
    split at h
    · obtain ⟨h1, h2, h3⟩ := ih (i + 1) 0 { p with retry := 0, autoGroupIndex := some (i + 1) }
        (by omega) hreset rfl (Nat.zero_le _) h
      rw [Nat.succ_mul] at h2
      exact ⟨h1, by omega, h3⟩
    have hle : (i + 1) * (route.retryTimes + 1) ≤
        route.autoGroups.length * (route.retryTimes + 1) :=
      Nat.mul_le_mul_right _ (by omega)
    have hsucc : (i + 1) * (route.retryTimes + 1) =
        i * (route.retryTimes + 1) + (route.retryTimes + 1) := Nat.succ_mul i _
    cases h
    split
    · simp only [Forward, RetryParam.increaseRetry, position, groupCount,
        hauto, if_true, getD_some, true_and]
      omega
    · simp only [Forward, RetryParam.increaseRetry, position, groupCount,
        hauto, hreset, hretry, Bool.false_eq_true, if_true, if_false, getD_some, true_and]
      omega

theorem cacheGet_forward {pick : String → ℕ → Option C} {p p' : RetryParam} {found : String × C}
    (hreset : p.resetNextTry = false) (hretry : p.retry ≤ route.retryTimes)
    (h : cacheGetRandomSatisfiedChannel route pick p = (some found, p')) :
    Forward route (route.position p) p'.increaseRetry := by
  unfold cacheGetRandomSatisfiedChannel at h
  split at h
  · rename_i hauto
    rw [position, if_pos hauto]
    by_cases hlt : p.autoGroupIndex.getD 0 ≤ route.autoGroups.length
    · refine selectAutoGroup_forward hauto _ _ _ p ?_ hreset rfl hretry h
      rw [length_drop]
      omega
    · rw [drop_eq_nil_of_le (by omega)] at h
      cases h
  · rename_i hauto
    obtain ⟨-, rfl⟩ := Prod.mk.inj h
    simp only [Forward, RetryParam.increaseRetry, position, groupCount,
      hauto, hreset, Bool.false_eq_true, if_false, true_and]
    omega

/-- What holds at the head of the loop; until the first selection every attempt has counted. -/
structure Bounded (route : RelayRoute) (s : RelayState) : Prop where
  le : s.attempts ≤ route.groupCount * (route.retryTimes + 1)
  reset : s.ended = false → s.param.resetNextTry = false
  counted : s.ended = false → s.channelMeta = false → s.attempts = s.param.retry
  progress : s.ended = false → s.attempts ≤ route.position s.param

theorem Bounded.pass (hn : 1 ≤ route.groupCount) {s : RelayState} (h : Bounded route s)
    (a : Attempt C) : Bounded route (relayPass route a s) := by
  have hstop : ∀ param, Bounded route { s with param := param, ended := true } :=
    fun _ => ⟨h.le, nofun, nofun, nofun⟩
  unfold relayPass
  split
  · exact hstop s.param
  rename_i hgo
  obtain ⟨hlive, hretry⟩ := not_or.mp hgo
  rw [Bool.not_eq_true] at hlive
  rw [not_lt] at hretry
  -- the attempt is made from here on: where the parameters stand after it
  have hnext : (getChannel route a s).1 = true →
      s.attempts + 1 ≤ route.groupCount * (route.retryTimes + 1) ∧
      (getChannel route a s).2.increaseRetry.resetNextTry = false ∧
      (s.channelMeta = false →
        (getChannel route a s).2.increaseRetry.retry = s.param.retry + 1) ∧
      s.attempts + 1 ≤ route.position (getChannel route a s).2.increaseRetry := by
    have hprogress := h.progress hlive
    unfold getChannel
    split
    · rename_i hmeta
      intro hfound
      rw [Bool.and_eq_true] at hfound
      obtain ⟨found, hsome⟩ := isSome_iff_exists.mp hfound.1
      obtain ⟨h1, h2, h3⟩ := cacheGet_forward (h.reset hlive) hretry
        (Prod.ext hsome rfl : cacheGetRandomSatisfiedChannel route a.pick s.param = (_, _))
      exact ⟨by omega, h1, fun hno => by simp [hmeta] at hno, lt_of_le_of_lt hprogress h2⟩
    rename_i hmeta
    intro _
    have hcounted := h.counted hlive (Bool.not_eq_true _ ▸ hmeta)
    have hinc : s.param.increaseRetry = { s.param with retry := s.param.retry + 1 } :=
      if_neg (by simp [h.reset hlive])
    have hone : route.retryTimes + 1 ≤ route.groupCount * (route.retryTimes + 1) :=
      Nat.le_mul_of_pos_left _ hn
    rw [hinc]
    refine ⟨by omega, h.reset hlive, fun _ => rfl, ?_⟩
    simp only [position] at hprogress ⊢
    omega
  dsimp only
  split
  · exact hstop _
  rename_i hfound
  rw [not_or, Bool.not_eq_false, Bool.not_eq_false] at hfound
  obtain ⟨hle, hreset, hcounted, hprogress⟩ := hnext hfound.1
  split
  · refine ⟨hle, fun _ => hreset, fun _ hmeta => ?_, fun _ => hprogress⟩
    have hbefore : s.channelMeta = false := by
      cases hs : s.channelMeta
      · rfl
      · rw [hs] at hmeta
        cases hmeta
    rw [hcounted hbefore, ← h.counted hlive hbefore]
  · exact ⟨hle, nofun, nofun, nofun⟩

/-- A pass that does not end the loop has made an attempt. -/
theorem attempts_of_running (world : ℕ → Attempt C) (autoGroupIndex : Option ℕ) : ∀ n,
    (relayAfter route world autoGroupIndex n).ended = false →
    (relayAfter route world autoGroupIndex n).attempts = n := by
  intro n
  induction n with
  | zero =>
    intro _
    rfl
  | succ n ih =>
    intro hrun
    rw [relayAfter, relayPass] at hrun ⊢
    split at hrun
    · cases hrun
    rename_i hgo
    rw [if_neg hgo]
    dsimp only at hrun ⊢
    split at hrun
    · cases hrun
    rename_i hfound
    rw [if_neg hfound]
    split at hrun
    · rename_i hretry
      rw [if_pos hretry]
      exact congrArg (· + 1) (ih (by simpa using (not_or.mp hgo).1))
    · cases hrun

/-- **The loop is bounded**: it makes at most `RetryTimes + 1` attempts for each group, whatever the
channels and the upstreams, and then ends. -/
theorem relay_attempts_le (route : RelayRoute) (hn : 1 ≤ route.groupCount)
    (world : ℕ → Attempt C) (autoGroupIndex : Option ℕ) :
    (∀ n, (relayAfter route world autoGroupIndex n).attempts ≤
      route.groupCount * (route.retryTimes + 1)) ∧
    (relayAfter route world autoGroupIndex
      (route.groupCount * (route.retryTimes + 1) + 1)).ended = true := by
  have hbounded : ∀ n, Bounded route (relayAfter route world autoGroupIndex n) := by
    intro n
    induction n with
    | zero => exact ⟨Nat.zero_le _, fun _ => rfl, fun _ _ => rfl, fun _ => Nat.zero_le _⟩
    | succ n ih => exact ih.pass hn (world n)
  refine ⟨fun n => (hbounded n).le, ?_⟩
  by_contra hrun
  have hattempts := attempts_of_running world autoGroupIndex _ (Bool.not_eq_true _ ▸ hrun)
  have := (hbounded (route.groupCount * (route.retryTimes + 1) + 1)).le
  omega

/-- The selector stays among its groups, and does not go back. -/
theorem selectAutoGroup_among (pick : String → ℕ → Option C) (groups : List String) (i r : ℕ)
    (p : RetryParam) (hi : p.autoGroupIndex.getD 0 = i) :
    (∀ found ∈ (selectAutoGroup route pick i groups r p).1,
      found.1 ∈ groups ∧ ∃ retry ≤ r, pick found.1 retry = some found.2) ∧
    i ≤ (selectAutoGroup route pick i groups r p).2.autoGroupIndex.getD 0 := by
  fun_induction selectAutoGroup route pick i groups r p with
  | case1 => exact ⟨by simp, hi.ge⟩
  | case2 i _ _ _ _ _ ih =>
    obtain ⟨hmem, hle⟩ := ih rfl
    refine ⟨fun found h => ?_, (Nat.le_succ i).trans hle⟩
    obtain ⟨hgroup, retry, hretry, hpick⟩ := hmem found h
    exact ⟨mem_cons_of_mem _ hgroup, retry, hretry.trans (Nat.zero_le _), hpick⟩
  | case3 i _ _ r _ _ hpick =>
    refine ⟨fun found h => ?_, ?_⟩
    · cases h
      exact ⟨mem_cons_self, r, le_refl r, hpick⟩
    dsimp only
    split
    · exact Nat.le_succ i
    · exact le_refl i

theorem relayPass_index (a : Attempt C) (s : RelayState) :
    s.param.autoGroupIndex.getD 0 ≤ (relayPass route a s).param.autoGroupIndex.getD 0 := by
  have hget : s.param.autoGroupIndex.getD 0 ≤
      (getChannel route a s).2.autoGroupIndex.getD 0 := by
    unfold getChannel cacheGetRandomSatisfiedChannel
    split_ifs
    · exact (selectAutoGroup_among _ _ _ _ _ rfl).2
    · exact le_refl _
    · exact le_refl _
  unfold relayPass RetryParam.increaseRetry
  dsimp only
  split_ifs
  · exact le_refl _
  all_goals exact hget

theorem mem_cacheGetRandomSatisfiedChannel {pick : String → ℕ → Option C} {p : RetryParam}
    {found : String × C} (h : found ∈ (cacheGetRandomSatisfiedChannel route pick p).1) :
    (found.1 ∈ if route.tokenGroup = "auto" then route.autoGroups.drop (p.autoGroupIndex.getD 0)
      else [route.tokenGroup]) ∧ ∃ retry ≤ p.retry, pick found.1 retry = some found.2 := by
  unfold cacheGetRandomSatisfiedChannel at h
  split_ifs at h ⊢ with hauto
  · exact (selectAutoGroup_among _ _ _ _ _ rfl).1 found h
  · obtain ⟨c, hc, rfl⟩ := map_eq_some_iff.mp h
    exact ⟨mem_singleton_self _, p.retry, le_refl _, hc⟩

end Selector

def twoGroups : RelayRoute := ⟨"auto", ["basic", "pro"], by decide, true, 1⟩

def throttled : Attempt ℕ where
  pick _ _ := some 1
  setup := true
  prepared := true
  initsChannelMeta := true
  error := some ⟨false, false, 429, false, true⟩
  skipAfterAffinity := false
  specificChannel := false

/-- The bound is reached. -/
theorem relay_attempts_le_throttled :
    (relayAfter twoGroups (fun _ => throttled) none 5).attempts = 4 ∧
    (relayAfter twoGroups (fun _ => throttled) none 5).attempts ≤ 2 * (1 + 1) :=
  ⟨by decide, (relay_attempts_le twoGroups (by decide) (fun _ => throttled) none).1 5⟩

/-! ### What a selection picks -/

section Pick

namespace ChannelCache

variable (cache : ChannelCache) (env : SelectEnv)

/-- The priorities that a group has for a model, the highest first. -/
def levels (model requestPath group : String) : List Int :=
  sortedUniquePriorities ((cache.candidates env group model requestPath).filterMap cache.byId)

/-- The ids under a group are those of cached channels. -/
def Complete : Prop := ∀ group model, ∀ id ∈ cache.index group model, (cache.byId id).isSome = true

/-- What the selector is given for a group: an error is no channel. -/
def pick (model requestPath group : String) (retry : ℕ) : Option Channel :=
  match getRandomSatisfiedChannel env cache group model retry requestPath with
  | .ok c => c
  | .error _ => none

variable {cache env}

theorem complete_initChannelCache (pricingGroups : List String) (db : ChannelDb) :
    (initChannelCache pricingGroups db).Complete := by
  intro group model id hid
  simp only [initChannelCache, mem_insertionSort, mem_flatMap] at hid
  obtain ⟨c, hc, hentry⟩ := hid
  unfold Channel.entries at hentry
  split at hentry
  · obtain ⟨-, -, rfl⟩ := mem_map.mp hentry
    exact isSome_iff_exists.mpr ⟨c, Table.find?_eq_some_iff.mpr ⟨hc, rfl⟩⟩
  · cases hentry

theorem channelsOf_eq {ids : List Int} (h : ∀ id ∈ ids, (cache.byId id).isSome = true) :
    cache.channelsOf ids = .ok (ids.filterMap cache.byId) := by
  induction ids with
  | nil => rfl
  | cons id ids ih =>
    obtain ⟨c, hc⟩ := isSome_iff_exists.mp (h id mem_cons_self)
    have ih := ih fun id hid => h id (mem_cons_of_mem _ hid)
    unfold channelsOf at ih ⊢
    rw [mapM_cons, ih, hc, filterMap_cons_some hc]
    rfl

theorem mem_candidates {group model requestPath : String} {id : Int}
    (h : id ∈ cache.candidates env group model requestPath) :
    ∃ m, id ∈ cache.index group m := by
  have hfilter : ∀ {m}, id ∈ cache.filterChannels env (cache.index group m) requestPath model →
      id ∈ cache.index group m := by
    intro m hm
    unfold filterChannels at hm
    split at hm
    · exact hm
    · exact mem_of_mem_filter hm
  unfold candidates at h
  split at h
  · exact ⟨_, hfilter h⟩
  · exact ⟨_, hfilter h⟩

theorem pick_spec (hcomplete : cache.Complete) (hintn : ∀ n, 0 < n → env.intn n < n)
    (model requestPath group : String) (retry : ℕ) :
    (cache.levels env model requestPath group = [] →
      cache.pick env model requestPath group retry = none) ∧
    (cache.levels env model requestPath group ≠ [] →
      ∃ c, cache.pick env model requestPath group retry = some c ∧ c.priority =
        (cache.levels env model requestPath group).getD
          (min retry ((cache.levels env model requestPath group).length - 1)) 0) := by
  unfold pick levels
  rcases getRandomSatisfiedChannel_cases cache group model requestPath retry hintn with
    ⟨hids, h⟩ | ⟨id, c, hids, hc, h⟩ | ⟨id, hid, hnone, -⟩ | ⟨channels, hch, hready, h⟩
  · rw [h, hids]
    exact ⟨fun _ => rfl, fun hne => absurd rfl hne⟩
  · have hlevels : sortedUniquePriorities ([id].filterMap cache.byId) = [c.priority] := by
      simp [sortedUniquePriorities, hc]
    rw [h, hids, hlevels]
    exact ⟨fun h => absurd h (cons_ne_nil _ _), fun _ => ⟨c, rfl, by simp⟩⟩
  · obtain ⟨m, hm⟩ := mem_candidates hid
    have hsome := hcomplete group m id hm
    rw [hnone] at hsome
    cases hsome
  · have hcached : (cache.candidates env group model requestPath).filterMap cache.byId =
        channels := by
      show filterMap (id ∘ cache.byId) _ = channels
      rw [← filterMap_map, channelsOf_ok hch, filterMap_map]
      exact filterMap_some
    obtain ⟨c, hmem, hc⟩ := exists_chooseByWeight (hintn _ (totalWeight_pos hready))
    obtain ⟨hin, hp⟩ := mem_of_ready hmem
    rw [h, hcached]
    refine ⟨fun hnil => ?_, fun _ => ⟨c, hc, hp⟩⟩
    have hlevel := mem_sortedUniquePriorities.mpr ⟨c, hin, rfl⟩
    rw [hnil] at hlevel
    cases hlevel

theorem mem_candidates_of_pick {model requestPath group : String} {retry : ℕ} {c : Channel}
    (h : cache.pick env model requestPath group retry = some c) :
    ∃ id ∈ cache.candidates env group model requestPath, cache.byId id = some c := by
  unfold pick at h
  split at h
  · rename_i hc
    exact mem_candidates_of_selected (h ▸ hc)
  · cases h

end ChannelCache

/-- **The loop keeps to the groups of the request**, whatever the caches and the upstreams: a
selection is from a group that it has not left, and the channel is one that the cache of the time
lists under it. -/
theorem groups_only_forward (route : RelayRoute) (cache : ℕ → ChannelCache) (env : ℕ → SelectEnv)
    (model requestPath : String) (world : ℕ → Attempt Channel) (start : Option ℕ) :
    let pick := fun n => (cache n).pick (env n) model requestPath
    let param := fun n =>
      (relayAfter route (fun n => { world n with pick := pick n }) start n).param
    let index := fun n => (param n).autoGroupIndex.getD 0
    Monotone index ∧
    ∀ n, ∀ found ∈ (cacheGetRandomSatisfiedChannel route (pick n) (param n)).1,
      (found.1 ∈ if route.tokenGroup = "auto" then route.autoGroups.drop (index n)
        else [route.tokenGroup]) ∧
      (∃ retry ≤ (param n).retry, pick n found.1 retry = some found.2) ∧
      ∃ id ∈ (cache n).candidates (env n) found.1 model requestPath,
        (cache n).byId id = some found.2 := by
  refine ⟨monotone_nat_of_le_succ (fun n => relayPass_index _ _), fun n found h => ?_⟩
  obtain ⟨hgroup, retry, hle, hpick⟩ := mem_cacheGetRandomSatisfiedChannel h
  exact ⟨hgroup, ⟨retry, hle, hpick⟩, ChannelCache.mem_candidates_of_pick hpick⟩

end Pick

/-! ### The order of the attempts -/

section Order

variable {C : Type}

/-- The first selections of the loop when every attempt fails and may be retried. -/
def retryLoop (route : RelayRoute) (pick : ℕ → String → ℕ → Option C) :
    ℕ → ℕ → RetryParam → List (String × C)
  | 0, _, _ => []
  | n + 1, k, p =>
    if route.retryTimes < p.retry then []
    else match cacheGetRandomSatisfiedChannel route (pick k) p with
      | (none, _) => []
      | (some found, p') => found :: retryLoop route pick n (k + 1) p'.increaseRetry

variable {route : RelayRoute} {pick : ℕ → String → ℕ → Option C} {group : String}
  {before after : List String}

/-- The loop stays with a group until the counter has reached `RetryTimes`. -/
theorem retryLoop_group (hauto : route.tokenGroup = "auto") (hcross : route.crossGroupRetry = true)
    (hgroups : route.autoGroups = before ++ group :: after) {priority : C → Int} {level : ℕ → Int}
    (hpick : ∀ k r, ∃ c, pick k group r = some c ∧ priority c = level r) {rest : List (String × Int)}
    (hrest : ∀ n k, (retryLoop route pick n k ⟨0, false, some (before.length + 1)⟩).map
      (fun x => (x.1, priority x.2)) = rest.take n) : ∀ m n k r, r + m = route.retryTimes →
    (retryLoop route pick n k ⟨r, false, some before.length⟩).map (fun x => (x.1, priority x.2)) =
      ((range' r (m + 1)).map (fun j => (group, level j)) ++ rest).take n := by
  intro m
  induction m with
  | zero =>
    intro n k r hr
    cases n with
    | zero => rfl
    | succ n =>
      obtain ⟨c, hc, hp⟩ := hpick k r
      have hselect : cacheGetRandomSatisfiedChannel route (pick k) ⟨r, false, some before.length⟩ =
          (some (group, c), ⟨0, true, some (before.length + 1)⟩) := by
        simp only [cacheGetRandomSatisfiedChannel, hauto, hgroups, if_true, getD_some,
          drop_left, selectAutoGroup, hc, hcross, true_and]
        rw [if_pos (by omega)]
      rw [retryLoop, if_neg (by dsimp only; omega), hselect]
      simp only [map_cons, hp]
      exact congrArg _ (hrest n (k + 1))
  | succ m ih =>
    intro n k r hr
    cases n with
    | zero => rfl
    | succ n =>
      obtain ⟨c, hc, hp⟩ := hpick k r
      have hselect : cacheGetRandomSatisfiedChannel route (pick k) ⟨r, false, some before.length⟩ =
          (some (group, c), ⟨r, false, some before.length⟩) := by
        simp only [cacheGetRandomSatisfiedChannel, hauto, hgroups, if_true, getD_some,
          drop_left, selectAutoGroup, hc, hcross, true_and]
        rw [if_neg (by omega)]
      rw [retryLoop, if_neg (by dsimp only; omega), hselect, range'_succ]
      simp only [map_cons, hp]
      exact congrArg _ (ih n (k + 1) (r + 1) (by omega))

/-- What the loop makes of a group with these levels: `RetryTimes + 1` selections, at last of the
lowest. -/
def groupVisits (retryTimes : ℕ) (levels : String → List Int) (g : String) : List (String × Int) :=
  if levels g = [] then []
  else (range' 0 (retryTimes + 1)).map fun r => (g, (levels g).getD (min r ((levels g).length - 1)) 0)

/-- **The whole loop**: the groups one after the other, and then it ends. -/
theorem retryLoop_eq (hauto : route.tokenGroup = "auto") (hcross : route.crossGroupRetry = true)
    {priority : C → Int} {levels : String → List Int}
    (hnone : ∀ k g r, levels g = [] → pick k g r = none)
    (hsome : ∀ k g r, levels g ≠ [] → ∃ c, pick k g r = some c ∧
      priority c = (levels g).getD (min r ((levels g).length - 1)) 0) :
    ∀ (groups before : List String), route.autoGroups = before ++ groups → ∀ n k,
    (retryLoop route pick n k ⟨0, false, some before.length⟩).map (fun x => (x.1, priority x.2)) =
      (groups.flatMap (groupVisits route.retryTimes levels)).take n := by
  intro groups
  induction groups with
  | nil =>
    intro before hgroups n k
    cases n with
    | zero => rfl
    | succ n =>
      rw [append_nil] at hgroups
      simp only [retryLoop, Nat.not_lt_zero, if_false, cacheGetRandomSatisfiedChannel, hauto,
        if_true, hgroups, getD_some, drop_length, selectAutoGroup]
      rfl
  | cons g groups ih =>
    intro before hgroups n k
    have hnext : ∀ n k, (retryLoop route pick n k ⟨0, false, some (before.length + 1)⟩).map
        (fun x => (x.1, priority x.2)) =
          (groups.flatMap (groupVisits route.retryTimes levels)).take n := by
      intro n k
      have := ih (before ++ [g]) (by simp [hgroups]) n k
      rwa [length_append, length_singleton] at this
    rw [flatMap_cons, groupVisits]
    split
    · rename_i hlevels
      -- a group without a channel is passed over
      rw [nil_append, ← hnext n k]
      have hselect : cacheGetRandomSatisfiedChannel route (pick k) ⟨0, false, some before.length⟩ =
          cacheGetRandomSatisfiedChannel route (pick k) ⟨0, false, some (before.length + 1)⟩ := by
        have hdrop : (before ++ g :: groups).drop (before.length + 1) = groups := by simp
        simp only [cacheGetRandomSatisfiedChannel, hauto, hgroups, if_true, getD_some, drop_left,
          hdrop, selectAutoGroup, hnone k g 0 hlevels]
      cases n with
      | zero => rfl
      | succ n => rw [retryLoop, retryLoop, hselect]
    · rename_i hlevels
      exact retryLoop_group hauto hcross hgroups (fun k r => hsome k g r hlevels) hnext
        route.retryTimes n k 0 (Nat.zero_add _)

theorem retryLoop_start (hauto : route.tokenGroup = "auto") (n k : ℕ) :
    retryLoop route pick n k (.start none) = retryLoop route pick n k ⟨0, false, some 0⟩ := by
  cases n with
  | zero => rfl
  | succ n =>
    rw [retryLoop, retryLoop]
    cases hgroups : route.autoGroups with
    | nil =>
      simp only [cacheGetRandomSatisfiedChannel, hauto, hgroups, if_true, RetryParam.start, getD_none,
        getD_some, drop_nil, selectAutoGroup]
    | cons =>
      simp only [cacheGetRandomSatisfiedChannel, hauto, hgroups, if_true, RetryParam.start, getD_none,
        getD_some, drop_zero, selectAutoGroup]

end Order

/-- The priorities of the groups in turn, each once. -/
def walk (groups : List String) (levels : String → List Int) : List (String × Int) :=
  groups.flatMap fun g => (levels g).map (Prod.mk g)

theorem groupVisits_eq_iff {retryTimes : ℕ} {levels : String → List Int} {g : String} :
    groupVisits retryTimes levels g = (levels g).map (Prod.mk g) ↔
      (levels g ≠ [] → (levels g).length = retryTimes + 1) := by
  unfold groupVisits
  by_cases hlevels : levels g = []
  · rw [if_pos hlevels, hlevels]
    exact iff_of_true rfl fun h => absurd rfl h
  rw [if_neg hlevels]
  constructor
  · intro heq _
    have := congrArg length heq
    rw [length_map, length_map, length_range'] at this
    exact this.symm
  · intro hlen
    refine ext_getElem (by simp [hlen hlevels]) fun j h1 h2 => ?_
    rw [length_map] at h2
    simp only [getElem_map, getElem_range']
    rw [getD_eq_getElem _ _ (by omega)]
    congr 2
    omega

/-- **The loop walks the groups and their priorities in order exactly when every group that has any
has `RetryTimes + 1` of them**: it makes so many attempts in each group, the last ones with the
lowest priority again. -/
theorem walks_in_order_iff (route : RelayRoute) (hauto : route.tokenGroup = "auto")
    (hcross : route.crossGroupRetry = true) (cache : ChannelCache) (hcomplete : cache.Complete)
    (env : SelectEnv) (saturated : ℕ → Int → Bool) (intn : ℕ → ℕ → ℕ)
    (hintn : ∀ k n, 0 < n → intn k n < n) (model requestPath : String) :
    (∀ n, (retryLoop route
        (fun k => cache.pick { env with saturated := saturated k, intn := intn k } model
          requestPath) n 0 (.start none)).map (fun x => (x.1, x.2.priority)) =
      (walk route.autoGroups (cache.levels env model requestPath)).take n) ↔
    ∀ g ∈ route.autoGroups, cache.levels env model requestPath g ≠ [] →
      (cache.levels env model requestPath g).length = route.retryTimes + 1 := by
  generalize hpick : (fun k => cache.pick
    { env with saturated := saturated k, intn := intn k } model requestPath) = pick
  have hspec : ∀ k g r, (cache.levels env model requestPath g = [] → pick k g r = none) ∧
      (cache.levels env model requestPath g ≠ [] → ∃ c, pick k g r = some c ∧ c.priority =
        (cache.levels env model requestPath g).getD
          (min r ((cache.levels env model requestPath g).length - 1)) 0) := by
    intro k g r
    rw [← hpick]
    have hk : ∀ n, 0 < n →
        ({ env with saturated := saturated k, intn := intn k } : SelectEnv).intn n < n := hintn k
    exact ChannelCache.pick_spec hcomplete hk model requestPath g r
  generalize cache.levels env model requestPath = levels at *
  have hloop : ∀ n, (retryLoop route pick n 0 (.start none)).map (fun x => (x.1, x.2.priority)) =
      (route.autoGroups.flatMap (groupVisits route.retryTimes levels)).take n := by
    intro n
    rw [retryLoop_start hauto]
    exact retryLoop_eq hauto hcross (fun k g r => (hspec k g r).1) (fun k g r => (hspec k g r).2)
      route.autoGroups [] rfl n 0
  have hwhole : (∀ n, (route.autoGroups.flatMap (groupVisits route.retryTimes levels)).take n =
      (walk route.autoGroups levels).take n) ↔
      route.autoGroups.flatMap (groupVisits route.retryTimes levels) =
        walk route.autoGroups levels :=
    ⟨eq_of_forall_take_eq, fun h n => by rw [h]⟩
  simp only [hloop]
  rw [hwhole, walk, flatMap_keyed_inj ?_ ?_ route.distinct]
  · simp only [groupVisits_eq_iff]
  · intro g x hx
    unfold groupVisits at hx
    split at hx
    · cases hx
    · obtain ⟨_, -, rfl⟩ := mem_map.mp hx
      rfl
  · intro g x hx
    obtain ⟨_, -, rfl⟩ := mem_map.mp hx
    rfl

def groupChannel (id : Int) (group : String) (priority : Int) : Channel where
  id := id
  status := .enabled
  keys := ["key"]
  isMultiKey := false
  statusList _ := none
  priority := priority
  weight := 1
  groups := [group]
  models := ["gpt"]

def plainEnv : SelectEnv := ⟨id, fun _ _ _ => true, fun _ => false, fun _ => 0⟩

def oneGroupDb : ChannelDb where
  channels := ⟨[groupChannel 1 "pro" 5, groupChannel 2 "pro" 0], by decide⟩
  abilities := []

theorem walks_in_order_oneGroup :
    (retryLoop twoGroups (fun _ => (initChannelCache [] oneGroupDb).pick plainEnv "gpt" "") 5 0
      (.start none)).map (fun x => (x.1, x.2.priority)) = [("pro", 5), ("pro", 0)] :=
  (walks_in_order_iff twoGroups rfl rfl (initChannelCache [] oneGroupDb)
    (ChannelCache.complete_initChannelCache [] oneGroupDb) plainEnv (fun _ _ => false)
    (fun _ _ => 0) (fun _ _ h => h) "gpt" "").mpr (by decide +kernel) 5

def twoGroupsDb : ChannelDb where
  channels := ⟨[groupChannel 1 "basic" 0, groupChannel 2 "pro" 0], by decide⟩
  abilities := []

/-- Both selections are of the first group. -/
theorem second_group_not_reached :
    walk twoGroups.autoGroups ((initChannelCache [] twoGroupsDb).levels plainEnv "gpt" "") =
      [("basic", 0), ("pro", 0)] ∧
    (retryLoop twoGroups (fun _ => (initChannelCache [] twoGroupsDb).pick plainEnv "gpt" "") 2 0
      (.start none)).map (fun x => (x.1, x.2.id)) = [("basic", 1), ("basic", 1)] := by
  decide +kernel

end UnifyConsole.Routing
