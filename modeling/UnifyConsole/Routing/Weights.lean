import Mathlib
import UnifyConsole.Routing.Channels

/-!
# The choice by weight

At the end of `GetRandomSatisfiedChannel` a number is drawn below the total weight, and the loop
takes from it the weight of one candidate after the other until it is negative.  The total and the
weights are smoothed by two rules, in two places of the code.  `weighted_choice_exact` says that
they fit: every number stops the loop, and as many stop it at a candidate as it weighs.
-/

namespace UnifyConsole.Routing

open List

/-- `smoothingFactor` and `smoothingAdjustment`. -/
def smoothing (targets : List Channel) : ℕ × ℕ :=
  let sumWeight := (targets.map Channel.weight).sum
  if sumWeight = 0 then (1, 100) else if sumWeight / targets.length < 10 then (100, 0) else (1, 0)

/-- What the loop takes for a candidate. -/
def effectiveWeight (targets : List Channel) (c : Channel) : ℕ :=
  c.weight * (smoothing targets).1 + (smoothing targets).2

def totalWeight (targets : List Channel) : ℕ :=
  let sumWeight := (targets.map Channel.weight).sum
  (if sumWeight = 0 then targets.length * 100 else sumWeight) * (smoothing targets).1

variable {f a : ℕ} {c : Channel} {targets : List Channel} {intn : ℕ → ℕ}

theorem sum_map_weight (f a : ℕ) (l : List Channel) :
    (l.map fun c => c.weight * f + a).sum = (l.map Channel.weight).sum * f + l.length * a := by
  induction l with
  | nil => simp
  | cons c l ih =>
    simp only [map_cons, sum_cons, length_cons, ih]
    ring

theorem sum_effectiveWeight (targets : List Channel) :
    (targets.map (effectiveWeight targets)).sum = totalWeight targets := by
  show (targets.map fun c => c.weight * (smoothing targets).1 + (smoothing targets).2).sum = _
  rw [sum_map_weight]
  unfold totalWeight smoothing
  dsimp only
  split_ifs <;> simp_all

theorem totalWeight_pos (hne : targets ≠ []) : 0 < totalWeight targets := by
  have hlen := length_pos_iff.mpr hne
  unfold totalWeight smoothing
  dsimp only
  split_ifs <;> omega

theorem chooseByWeight_eq : chooseByWeight intn targets =
    pickWeighted (smoothing targets).1 (smoothing targets).2 (intn (totalWeight targets))
      targets := by
  unfold chooseByWeight totalWeight smoothing
  dsimp only
  split_ifs <;> simp only [Nat.mul_one]

/-! ### The loop -/

/-- A draw below the weight of the first candidate stops there. -/
theorem pickWeighted_of_lt {r : ℕ} (l : List Channel) (h : r < c.weight * f + a) :
    pickWeighted f a r (c :: l) = some c := by
  unfold pickWeighted
  exact if_pos (by omega)

/-- Any other goes on with what is left. -/
theorem pickWeighted_add (l : List Channel) (r : ℕ) :
    pickWeighted f a ((c.weight * f + a + r : ℕ) : Int) (c :: l) = pickWeighted f a r l := by
  rw [pickWeighted, if_neg (by omega)]
  congr 1
  omega

theorem mem_of_pickWeighted : ∀ {l : List Channel} {r : Int},
    pickWeighted f a r l = some c → c ∈ l := by
  intro l
  induction l with
  | nil =>
    intro r h
    cases h
  | cons d l ih =>
    intro r h
    unfold pickWeighted at h
    dsimp only at h
    split at h
    · cases h
      exact mem_cons_self
    · exact mem_cons_of_mem _ (ih h)

/-- **The draws that stop at some candidates** are as many as these weigh. -/
theorem countP_pickWeighted (p : Channel → Bool) (l : List Channel) :
    (range (l.map fun c => c.weight * f + a).sum).countP
        (fun r => (pickWeighted f a (r : ℕ) l).any p) =
      ((l.filter p).map fun c => c.weight * f + a).sum := by
  induction l with
  | nil => rfl
  | cons c l ih =>
    have hfirst : (range (c.weight * f + a)).countP
        (fun r => (pickWeighted f a (r : ℕ) (c :: l)).any p) =
        if p c then c.weight * f + a else 0 := by
      split
      · rename_i hp
        rw [countP_eq_length.mpr, length_range]
        intro r hr
        rw [pickWeighted_of_lt l (mem_range.mp hr)]
        exact hp
      · rename_i hp
        refine countP_eq_zero.mpr ?_
        intro r hr
        rw [pickWeighted_of_lt l (mem_range.mp hr)]
        exact hp
    have hrest : (fun r => (pickWeighted f a (r : ℕ) (c :: l)).any p) ∘
        (fun r => c.weight * f + a + r) = fun r : ℕ => (pickWeighted f a r l).any p :=
      funext fun r => congrArg (Option.any p) (pickWeighted_add l r)
    rw [map_cons, sum_cons, range_add, countP_append, countP_map, hfirst, hrest, ih, filter_cons]
    split
    · rw [map_cons, sum_cons]
    · exact Nat.zero_add _

theorem mem_of_chooseByWeight (h : chooseByWeight intn targets = some c) : c ∈ targets := by
  rw [chooseByWeight_eq] at h
  exact mem_of_pickWeighted h

theorem countP_chooseByWeight (p : Channel → Bool) (targets : List Channel) :
    (range (totalWeight targets)).countP
        (fun r => (chooseByWeight (fun _ => r) targets).any p) =
      ((targets.filter p).map (effectiveWeight targets)).sum := by
  have hloop := countP_pickWeighted (f := (smoothing targets).1) (a := (smoothing targets).2)
    p targets
  have hsum := sum_effectiveWeight targets
  unfold effectiveWeight at hsum
  rw [hsum] at hloop
  simp only [chooseByWeight_eq]
  exact hloop

/-- The loop never runs past the last candidate. -/
theorem exists_chooseByWeight (hintn : intn (totalWeight targets) < totalWeight targets) :
    ∃ c ∈ targets, chooseByWeight intn targets = some c := by
  have hall := countP_chooseByWeight (fun _ => true) targets
  rw [filter_true, sum_effectiveWeight] at hall
  have hany := countP_eq_length.mp (hall.trans length_range.symm) _ (mem_range.mpr hintn)
  cases h : chooseByWeight intn targets with
  | none =>
    rw [chooseByWeight_eq] at h hany
    rw [h] at hany
    cases hany
  | some c => exact ⟨c, mem_of_chooseByWeight h, rfl⟩

theorem withoutSaturated_ne_nil (saturated : Int → Bool) (hne : targets ≠ []) :
    withoutSaturated saturated targets ≠ [] := by
  unfold withoutSaturated
  dsimp only
  split
  · exact hne
  · assumption

theorem mem_of_withoutSaturated {saturated : Int → Bool}
    (h : c ∈ withoutSaturated saturated targets) : c ∈ targets := by
  unfold withoutSaturated at h
  dsimp only at h
  split at h
  · exact h
  · exact mem_of_mem_filter h

/-! ### Selections -/

section Selection

variable {cache : ChannelCache} {env : SelectEnv} {channels : List Channel} {ids : List Int}
  {group model requestPath : String} {retry : ℕ}

theorem channelsOf_ok : ∀ {ids : List Int} {channels : List Channel},
    cache.channelsOf ids = .ok channels → ids.map cache.byId = channels.map some := by
  intro ids
  induction ids with
  | nil =>
    intro channels h
    cases h
    rfl
  | cons id ids ih =>
    intro channels h
    rw [ChannelCache.channelsOf, mapM_cons, ← ChannelCache.channelsOf] at h
    cases hid : cache.byId id with
    | none =>
      rw [hid] at h
      cases h
    | some c =>
      rw [hid] at h
      cases hrest : cache.channelsOf ids with
      | error =>
        rw [hrest] at h
        cases h
      | ok rest =>
        rw [hrest] at h
        cases h
        rw [map_cons, map_cons, hid, ih hrest]

theorem channelsOf_error {e : SelectError} : ∀ {ids : List Int},
    cache.channelsOf ids = .error e → ∃ id ∈ ids, cache.byId id = none ∧ e = .missing id := by
  intro ids
  induction ids with
  | nil => intro h; cases h
  | cons id ids ih =>
    intro h
    rw [ChannelCache.channelsOf, mapM_cons, ← ChannelCache.channelsOf] at h
    cases hid : cache.byId id with
    | none =>
      rw [hid] at h
      cases h
      exact ⟨id, mem_cons_self, hid, rfl⟩
    | some =>
      rw [hid] at h
      cases hrest : cache.channelsOf ids with
      | error =>
        rw [hrest] at h
        cases h
        obtain ⟨id', hmem, hnone⟩ := ih hrest
        exact ⟨id', mem_cons_of_mem _ hmem, hnone⟩
      | ok =>
        rw [hrest] at h
        cases h

theorem mem_sortedUniquePriorities {p : Int} :
    p ∈ sortedUniquePriorities channels ↔ ∃ c ∈ channels, c.priority = p := by
  simp [sortedUniquePriorities]

/-- The target is the priority of one of the channels. -/
theorem level_targetPriority (hne : channels ≠ []) (retry : ℕ) :
    level channels (targetPriority channels retry) ≠ [] := by
  obtain ⟨c, hc⟩ := exists_mem_of_ne_nil _ hne
  have hpos : 0 < (sortedUniquePriorities channels).length :=
    length_pos_of_mem (mem_sortedUniquePriorities.mpr ⟨c, hc, rfl⟩)
  have hmem : targetPriority channels retry ∈ sortedUniquePriorities channels := by
    unfold targetPriority
    dsimp only
    rw [getD_eq_getElem _ _ (by omega)]
    exact getElem_mem _
  obtain ⟨d, hd, hp⟩ := mem_sortedUniquePriorities.mp hmem
  exact ne_nil_of_mem (mem_filter.mpr ⟨hd, by simpa using hp⟩)

/-- What a selection among several candidates chooses from. -/
def ready (env : SelectEnv) (channels : List Channel) (retry : ℕ) : List Channel :=
  withoutSaturated env.saturated (level channels (targetPriority channels retry))

theorem mem_of_ready (h : c ∈ ready env channels retry) :
    c ∈ channels ∧ c.priority = targetPriority channels retry := by
  have hc := mem_filter.mp (mem_of_withoutSaturated h)
  exact ⟨hc.1, by simpa using hc.2⟩

/-- **A selection** finds nothing, one candidate, a missing channel, or a choice by weight. -/
theorem getRandomSatisfiedChannel_cases (cache : ChannelCache) (group model requestPath : String)
    (retry : ℕ) (hintn : ∀ n, 0 < n → env.intn n < n) :
    (cache.candidates env group model requestPath = [] ∧
      getRandomSatisfiedChannel env cache group model retry requestPath = .ok none) ∨
    (∃ id c, cache.candidates env group model requestPath = [id] ∧ cache.byId id = some c ∧
      getRandomSatisfiedChannel env cache group model retry requestPath = .ok (some c)) ∨
    (∃ id ∈ cache.candidates env group model requestPath, cache.byId id = none ∧
      getRandomSatisfiedChannel env cache group model retry requestPath = .error (.missing id)) ∨
    ∃ channels, cache.channelsOf (cache.candidates env group model requestPath) = .ok channels ∧
      ready env channels retry ≠ [] ∧
      getRandomSatisfiedChannel env cache group model retry requestPath =
        .ok (chooseByWeight env.intn (ready env channels retry)) := by
  unfold getRandomSatisfiedChannel
  split
  · rename_i hids
    exact .inl ⟨hids, rfl⟩
  · rename_i id hids
    cases hid : cache.byId id with
    | none => exact .inr (.inr (.inl ⟨id, hids ▸ mem_cons_self, hid, rfl⟩))
    | some c => exact .inr (.inl ⟨id, c, hids, hid, rfl⟩)
  rename_i hnil _
  cases hch : cache.channelsOf (cache.candidates env group model requestPath) with
  | error e =>
    obtain ⟨id, hmem, hnone, rfl⟩ := channelsOf_error hch
    exact .inr (.inr (.inl ⟨id, hmem, hnone, rfl⟩))
  | ok channels =>
    have hne : channels ≠ [] := by
      rintro rfl
      exact hnil (map_eq_nil_iff.mp (channelsOf_ok hch))
    have hready : ready env channels retry ≠ [] :=
      withoutSaturated_ne_nil _ (level_targetPriority hne retry)
    obtain ⟨c, -, hc⟩ := exists_chooseByWeight (hintn _ (totalWeight_pos hready))
    refine .inr (.inr (.inr ⟨channels, rfl, hready, ?_⟩))
    dsimp only [bind, Except.bind]
    unfold ready at hready hc ⊢
    rw [if_neg hready, hc]

/-- A selection returns one of the candidates, as it is in the cache. -/
theorem mem_candidates_of_selected
    (h : getRandomSatisfiedChannel env cache group model retry requestPath = .ok (some c)) :
    ∃ id ∈ cache.candidates env group model requestPath, cache.byId id = some c := by
  unfold getRandomSatisfiedChannel at h
  split at h
  · cases h
  · rename_i id hids
    split at h
    · cases h
      exact ⟨id, hids ▸ mem_cons_self, by assumption⟩
    · cases h
  cases hch : cache.channelsOf (cache.candidates env group model requestPath) with
  | error =>
    rw [hch] at h
    cases h
  | ok channels =>
    rw [hch] at h
    dsimp only [bind, Except.bind] at h
    split at h
    · cases h
    split at h
    · rename_i hd
      cases h
      have hc := mem_map_of_mem (f := some) (mem_of_ready (mem_of_chooseByWeight hd)).1
      rw [← channelsOf_ok hch] at hc
      exact mem_map.mp hc
    · cases h

end Selection

/-- **The choice by weight** among the candidates of a priority that are not saturated: every draw
below the total finds one, and as many draws find one of some as these weigh. A selection makes that
choice, and never ends in `channel not found`. -/
theorem weighted_choice_exact (saturated : Int → Bool) (targets : List Channel)
    (hne : targets ≠ []) :
    (let ready := withoutSaturated saturated targets
    0 < totalWeight ready ∧ (ready.map (effectiveWeight ready)).sum = totalWeight ready ∧
      (∀ r < totalWeight ready, ∃ c ∈ ready, chooseByWeight (fun _ => r) ready = some c) ∧
      ∀ p : Channel → Bool, (range (totalWeight ready)).countP
        (fun r => (chooseByWeight (fun _ => r) ready).any p) =
          ((ready.filter p).map (effectiveWeight ready)).sum) ∧
    ∀ (env : SelectEnv) (cache : ChannelCache) (group model : String) (retry : ℕ)
      (requestPath : String), (∀ n, 0 < n → env.intn n < n) →
      getRandomSatisfiedChannel env cache group model retry requestPath ≠ .error .notFound ∧
      ∀ channels, cache.channelsOf (cache.candidates env group model requestPath) = .ok channels →
        2 ≤ (cache.candidates env group model requestPath).length →
        getRandomSatisfiedChannel env cache group model retry requestPath =
          .ok (chooseByWeight (fun _ => env.intn (totalWeight (ready env channels retry)))
            (ready env channels retry)) := by
  have hready := withoutSaturated_ne_nil saturated hne
  refine ⟨⟨totalWeight_pos hready, sum_effectiveWeight _, fun r hr => exists_chooseByWeight hr,
    fun p => countP_chooseByWeight p _⟩, ?_⟩
  intro env cache group model retry requestPath hintn
  have hcases := getRandomSatisfiedChannel_cases cache group model requestPath retry hintn
  refine ⟨?_, fun channels hch hlen => ?_⟩
  · rcases hcases with ⟨-, h⟩ | ⟨_, _, -, -, h⟩ | ⟨_, -, -, h⟩ | ⟨_, -, -, h⟩ <;> rw [h] <;> simp
  rcases hcases with ⟨hnil, -⟩ | ⟨_, _, hone, -, -⟩ | ⟨id, hid, hnone, -⟩ | ⟨_, hch', -, h⟩
  · simp [hnil] at hlen
  · simp [hone] at hlen
  · have hmem := mem_map_of_mem (f := cache.byId) hid
    rw [channelsOf_ok hch, hnone] at hmem
    obtain ⟨_, -, hc⟩ := mem_map.mp hmem
    cases hc
  · cases hch.symm.trans hch'
    rw [h, chooseByWeight_eq, chooseByWeight_eq]

/-- Of two channels with weights 1 and 3 the second is found by three draws of four. -/
theorem weighted_choice_exact_pair :
    let channel := fun id weight => (⟨id, .enabled, [], false, fun _ => none, 0, weight, [], []⟩ :
      Channel)
    [channel 1 1, channel 2 3] ≠ [] ∧ (range 400).countP (fun r =>
      (chooseByWeight (fun _ => r) [channel 1 1, channel 2 3]).any fun c => c.id = 2) = 300 :=
  ⟨by simp, (weighted_choice_exact (fun _ => false) [⟨1, .enabled, [], false, fun _ => none, 0, 1,
    [], []⟩, ⟨2, .enabled, [], false, fun _ => none, 0, 3, [], []⟩] (by simp)).1.2.2.2
      (fun c => c.id = 2)⟩

end UnifyConsole.Routing
