import Mathlib
import UnifyConsole.Lib.Text
import UnifyConsole.Subscription.Refund

/-!
# The group that a subscription gives

A plan may name a group that its buyer is moved to and a group to move to when the subscription
ends.  `CreateUserSubscriptionFromPlanTx` moves the user and remembers in the new row the group it
replaced; `ExpireDueSubscriptions` selects the users with due rows, expires a user's due rows in one
transaction, leaves the group alone while another upgrading subscription is active, and otherwise
follows the row that ended last of all that have ever expired.

The state is that of one user: `ExpireDueSubscriptions` has a transaction for each.  A pass takes
its time when it selects the users, so its transaction for one of them may come later: `passes` are
the times of the passes that have selected this user and have not come to the transaction.  `base` is
kept for the statements only: the group held before the first purchase of the present or last stretch
of overlapping upgrades, unless an administrator has changed the group since.

`Follows` is what every state keeps in a run that meets `Fits` at every step, and
`upgrade_ends_with_subscription` reads the three properties off it.  Without `Fits` each of the
three fails (`group_strays`).
-/

namespace UnifyConsole.Subscription.Group

open Lib.Text (trimSpace trimSpace_trimSpace)
open List

/-! ### The model -/

structure UserSubscription where
  planId : ℤ
  endTime : ℤ
  status : SubscriptionStatus
  upgradeGroup : String
  prevUserGroup : String
  downgradeGroup : String
deriving DecidableEq

open Group.UserSubscription

inductive DurationUnit where
  | year
  | month
  | day
  | hour
  | custom
  /-- Any other text in the column. -/
  | invalid
  deriving DecidableEq

structure SubscriptionPlan where
  id : ℤ
  durationUnit : DurationUnit
  durationValue : ℤ
  customSeconds : ℤ
  maxPurchasePerUser : ℤ
  upgradeGroup : String
  downgradeGroup : String

/-- When a subscription bought at `start` ends; the duration is an `int64` of nanoseconds, without a
bound. -/
def calcPlanEndTime (cal : Calendar) (start : ℤ) (plan : SubscriptionPlan) : Option ℤ :=
  if plan.durationValue ≤ 0 ∧ plan.durationUnit ≠ .custom then none
  else
    match plan.durationUnit with
    | .year => some (cal.addYears start plan.durationValue)
    | .month => some (cal.addMonths start plan.durationValue)
    | .day => some (start + durationSeconds (plan.durationValue * 86400))
    | .hour => some (start + durationSeconds (plan.durationValue * 3600))
    | .custom =>
      if plan.customSeconds ≤ 0 then none else some (start + durationSeconds plan.customSeconds)
    | .invalid => none

namespace UserSubscription

/-- An active subscription that moved its buyer, or would have. -/
def Upgrades (sub : UserSubscription) : Prop := sub.status = .active ∧ sub.upgradeGroup ≠ ""

instance (sub : UserSubscription) : Decidable sub.Upgrades := inferInstanceAs (Decidable (_ ∧ _))

/-- The subscription defines a group transition. -/
def Transition (sub : UserSubscription) : Prop := sub.downgradeGroup ≠ "" ∨ sub.upgradeGroup ≠ ""

instance (sub : UserSubscription) : Decidable sub.Transition :=
  inferInstanceAs (Decidable (_ ∨ _))

def Due (now : ℕ) (sub : UserSubscription) : Prop :=
  sub.status = .active ∧ 0 < sub.endTime ∧ sub.endTime ≤ now

instance (now : ℕ) (sub : UserSubscription) : Decidable (sub.Due now) :=
  inferInstanceAs (Decidable (_ ∧ _ ∧ _))

def expire (now : ℕ) (sub : UserSubscription) : UserSubscription :=
  if sub.Due now then { sub with status := .expired } else sub

end UserSubscription

/-- The user's group and subscriptions, the newest first. -/
structure State where
  clock : ℕ
  group : String
  subs : List UserSubscription
  passes : List ℕ
  base : Option String

def State.Upgraded (s : State) : Prop := ∃ sub ∈ s.subs, sub.Upgrades

instance (s : State) : Decidable s.Upgraded := inferInstanceAs (Decidable (∃ sub ∈ s.subs, _))

/-- The user is in another group than the one that the plan upgrades to. -/
def Moves (plan : SubscriptionPlan) (s : State) : Prop :=
  trimSpace plan.upgradeGroup ≠ "" ∧ s.group ≠ trimSpace plan.upgradeGroup

instance (plan : SubscriptionPlan) (s : State) : Decidable (Moves plan s) :=
  inferInstanceAs (Decidable (_ ∧ _))

def newSubscription (plan : SubscriptionPlan) (endUnix : ℤ) (s : State) : UserSubscription where
  planId := plan.id
  endTime := endUnix
  status := .active
  upgradeGroup := trimSpace plan.upgradeGroup
  prevUserGroup := if Moves plan s then s.group else ""
  downgradeGroup := trimSpace plan.downgradeGroup

/-- `CreateUserSubscriptionFromPlanTx`; where it fails it leaves the state as it is. -/
def createUserSubscriptionFromPlan (cal : Calendar) (plan : SubscriptionPlan) (s : State) : State :=
  if plan.id = 0 then s
  else if 0 < plan.maxPurchasePerUser ∧
      plan.maxPurchasePerUser ≤ s.subs.countP (fun sub => decide (sub.planId = plan.id)) then s
  else
    match calcPlanEndTime cal s.clock plan with
    | none => s
    | some endUnix =>
      { s with
        group := if Moves plan s then trimSpace plan.upgradeGroup else s.group
        subs := newSubscription plan endUnix s :: s.subs
        base := if trimSpace plan.upgradeGroup ≠ "" ∧ ¬ s.Upgraded then some s.group else s.base }

/-- `ORDER BY end_time DESC, id DESC LIMIT 1`; the list has the newest row first. -/
def latest : List UserSubscription → Option UserSubscription
  | [] => none
  | sub :: subs =>
    match latest subs with
    | none => some sub
    | some other => if other.endTime ≤ sub.endTime then some sub else some other

/-- The group to move to when `lastExpired` is the subscription that ended last. -/
def target (lastExpired : UserSubscription) (currentGroup : String) : Option String :=
  let downgradeGroup := trimSpace lastExpired.downgradeGroup
  let upgradeGroup := trimSpace lastExpired.upgradeGroup
  let prevGroup := trimSpace lastExpired.prevUserGroup
  if downgradeGroup = "" then
    if upgradeGroup = "" ∨ prevGroup = "" then none
    else if currentGroup ≠ upgradeGroup then none
    else if prevGroup = currentGroup then none
    else some prevGroup
  else if downgradeGroup = currentGroup then none
  else some downgradeGroup

/-- The expired subscriptions that define a group transition. -/
def expiredTransitions (subs : List UserSubscription) : List UserSubscription :=
  subs.filter fun sub => decide (sub.status = .expired ∧ sub.Transition)

/-- `ExpireDueSubscriptions` begins: it selects the user if they have a due row within its limit. -/
def selectDueSubscriptions (listed : Bool) (s : State) : State :=
  if listed = true ∧ ∃ sub ∈ s.subs, sub.Due s.clock then { s with passes := s.clock :: s.passes }
  else s

/-- The transaction of `ExpireDueSubscriptions` for the user, in a pass of time `now`. -/
def expireDueSubscriptions (now : ℕ) (s : State) : State :=
  let subs := s.subs.map (UserSubscription.expire now)
  if ∃ sub ∈ subs, sub.Upgrades ∧ now < sub.endTime then { s with subs := subs }
  else
    match latest (expiredTransitions subs) with
    | none => { s with subs := subs }
    | some lastExpired =>
      { s with subs := subs, group := (target lastExpired s.group).getD s.group }

inductive Event
  | purchase (plan : SubscriptionPlan)
  | select (listed : Bool)
  /-- One of the passes that have selected the user comes to the transaction. -/
  | expire (i : ℕ)
  /-- An administrator sets the group. -/
  | edit (group : String)
  | wait (seconds : ℕ)

def step (cal : Calendar) (e : Event) (s : State) : State :=
  match e with
  | .purchase plan => createUserSubscriptionFromPlan cal plan s
  | .select listed => selectDueSubscriptions listed s
  | .expire i =>
    match s.passes[i]? with
    | none => s
    | some now => expireDueSubscriptions now { s with passes := s.passes.eraseIdx i }
  | .edit group => { s with group := group, base := none }
  | .wait seconds => { s with clock := s.clock + seconds }

def after (cal : Calendar) (run : List Event) (s : State) : State :=
  run.foldl (fun s e => step cal e s) s

def fresh (clock : ℕ) (group : String) : State := ⟨clock, group, [], [], none⟩

/-! ### The last subscription to end -/

variable {subs : List UserSubscription}

theorem latest_isSome {sub : UserSubscription} (h : sub ∈ subs) :
    ∃ last, latest subs = some last := by
  cases subs with
  | nil => cases h
  | cons =>
    unfold latest
    split
    · exact ⟨_, rfl⟩
    · split <;> exact ⟨_, rfl⟩

theorem latest_spec {last : UserSubscription} (h : latest subs = some last) :
    last ∈ subs ∧ ∀ sub ∈ subs, sub.endTime ≤ last.endTime := by
  induction subs generalizing last with
  | nil => cases h
  | cons sub subs ih =>
    unfold latest at h
    split at h
    · rename_i hnone
      cases h
      refine ⟨mem_cons_self, forall_mem_cons.mpr ⟨le_refl _, fun x hx => ?_⟩⟩
      obtain ⟨last, hlast⟩ := latest_isSome hx
      rw [hnone] at hlast
      cases hlast
    rename_i other hother
    obtain ⟨hmem, hle⟩ := ih hother
    split at h
    · rename_i hge
      cases h
      exact ⟨mem_cons_self, forall_mem_cons.mpr ⟨le_refl _, fun x hx => le_trans (hle x hx) hge⟩⟩
    cases h
    exact ⟨mem_cons_of_mem _ hmem, forall_mem_cons.mpr ⟨by omega, hle⟩⟩

variable {sub : UserSubscription}

/-! ### What a pass does -/

/-- A second pass finds nothing to do. -/
theorem target_again {last : UserSubscription} {group g : String}
    (h : target last group = some g) : target last g = none := by
  unfold target at h ⊢
  simp only at h ⊢
  split at h
  · rename_i hdown
    rw [if_pos hdown]
    split at h
    · cases h
    rename_i hblank
    rw [if_neg hblank]
    split at h
    · cases h
    rename_i hup
    have hup := not_not.mp hup
    split at h
    · cases h
    rename_i hne
    cases h
    rw [if_pos]
    rw [← hup]
    exact hne
  · rename_i hdown
    rw [if_neg hdown]
    split at h
    · cases h
    · cases h
      exact if_pos rfl

/-- The group after a pass that finds no upgrading subscription active. -/
theorem expireDue_cases (now : ℕ) (s : State) :
    let subs := s.subs.map (expire now)
    ((∃ sub ∈ subs, sub.Upgrades ∧ now < sub.endTime) ∧
      expireDueSubscriptions now s = { s with subs := subs }) ∨
    ((¬ ∃ sub ∈ subs, sub.Upgrades ∧ now < sub.endTime) ∧
      expireDueSubscriptions now s = { s with
        subs := subs
        group := ((latest (expiredTransitions subs)).bind
          (fun last => target last s.group)).getD s.group }) := by
  intro subs
  unfold expireDueSubscriptions
  by_cases h : ∃ sub ∈ subs, sub.Upgrades ∧ now < sub.endTime
  · exact .inl ⟨h, if_pos h⟩
  refine .inr ⟨h, ?_⟩
  rw [if_neg h]
  cases latest (expiredTransitions subs) with
  | none => rfl
  | some => rfl

/-- A pass expires the due rows and may move the group. -/
theorem expireDue_eq (now : ℕ) (s : State) : expireDueSubscriptions now s = { s with
    subs := s.subs.map (expire now), group := (expireDueSubscriptions now s).group } := by
  rcases expireDue_cases now s with ⟨-, he⟩ | ⟨-, he⟩ <;> rw [he]

/-- The passes that wait have no part in the transaction of one. -/
theorem expireDue_group_passes (now : ℕ) (s : State) (passes : List ℕ) :
    (expireDueSubscriptions now { s with passes := passes }).group =
      (expireDueSubscriptions now s).group := by
  unfold expireDueSubscriptions
  simp only
  split
  · rfl
  · split <;> rfl

@[simp] theorem UserSubscription.expire_endTime (now : ℕ) (sub : UserSubscription) :
    (sub.expire now).endTime = sub.endTime := by
  unfold expire
  split <;> rfl

@[simp] theorem UserSubscription.expire_upgradeGroup (now : ℕ) (sub : UserSubscription) :
    (sub.expire now).upgradeGroup = sub.upgradeGroup := by
  unfold expire
  split <;> rfl

@[simp] theorem UserSubscription.expire_prevUserGroup (now : ℕ) (sub : UserSubscription) :
    (sub.expire now).prevUserGroup = sub.prevUserGroup := by
  unfold expire
  split <;> rfl

@[simp] theorem UserSubscription.expire_downgradeGroup (now : ℕ) (sub : UserSubscription) :
    (sub.expire now).downgradeGroup = sub.downgradeGroup := by
  unfold expire
  split <;> rfl

variable {now : ℕ}

theorem UserSubscription.expire_of_due (h : sub.Due now) :
    sub.expire now = { sub with status := .expired } := if_pos h

theorem UserSubscription.expire_of_not_due (h : ¬ sub.Due now) : sub.expire now = sub := if_neg h

theorem UserSubscription.transition_expire (now : ℕ) (sub : UserSubscription) :
    (sub.expire now).Transition ↔ sub.Transition := by
  unfold Transition
  rw [expire_downgradeGroup, expire_upgradeGroup]

/-- A pass that expires no transition leaves the expired ones with a transition as they were. -/
theorem expiredTransitions_expire (h : ∀ sub ∈ subs, sub.Due now → ¬ sub.Transition) :
    expiredTransitions (subs.map (expire now)) = expiredTransitions subs := by
  induction subs with
  | nil => rfl
  | cons sub subs ih =>
    have hrest := ih fun x hx => h x (mem_cons_of_mem _ hx)
    unfold expiredTransitions at hrest ⊢
    rw [map_cons, filter_cons, filter_cons, hrest]
    by_cases hdue : sub.Due now
    · have hnot := h sub mem_cons_self hdue
      rw [if_neg (by
          rw [decide_eq_true_eq, transition_expire]
          exact fun hc => hnot hc.2),
        if_neg (by
          rw [decide_eq_true_eq]
          exact fun hc => hnot hc.2)]
    · rw [expire_of_not_due hdue]

/-! ### What every state keeps -/

/-- The subscription that ended last leaves this group alone. -/
def Settled (subs : List UserSubscription) (group : String) : Prop :=
  ∀ last ∈ latest (expiredTransitions subs), target last group = none

instance (subs : List UserSubscription) (group : String) : Decidable (Settled subs group) :=
  inferInstanceAs (Decidable (∀ last ∈ latest (expiredTransitions subs), _))

/-- The subscription that began the stretch of upgrades, ends last, and remembers the group `g`. -/
structure Opener (g : String) (s : State) (sub : UserSubscription) : Prop where
  upgrades : sub.Upgrades
  group : sub.upgradeGroup = s.group
  last : ∀ other ∈ s.subs, other.upgradeGroup ≠ "" → other = sub ∨ other.endTime < sub.endTime
  before : (sub.prevUserGroup = "" ∧ g = s.group) ∨
    (sub.prevUserGroup = g ∧ trimSpace g = g ∧ g ≠ "" ∧ g ≠ s.group)

structure Follows (s : State) : Prop where
  begun : ∀ now ∈ s.passes, now ≤ s.clock
  lived : ∀ sub ∈ s.subs, sub.upgradeGroup ≠ "" → 0 < sub.endTime
  known : ∀ sub ∈ s.subs, sub.status = .active ∨ sub.status = .expired ∧ sub.endTime ≤ s.clock
  trimmed : ∀ sub ∈ s.subs, trimSpace sub.upgradeGroup = sub.upgradeGroup
  settled : ¬ s.Upgraded → Settled s.subs s.group
  opened : ∀ g, s.base = some g → s.Upgraded → ∃ sub ∈ s.subs, Opener g s sub
  back : ∀ g, s.base = some g → ¬ s.Upgraded → (∀ sub ∈ s.subs, sub.downgradeGroup = "") →
    s.group = g

/-- What the purchase of an upgrading plan must meet: it ends after it begins; the first of a
stretch finds a group that `TrimSpace` leaves alone; a later one is for the group the user has, and
ends before another. -/
@[mk_iff]
structure FitsPurchase (upgradeGroup : String) (endUnix : ℤ) (s : State) : Prop where
  later : s.clock < endUnix
  during : s.Upgraded → s.base ≠ none →
    upgradeGroup = s.group ∧ ∃ sub ∈ s.subs, sub.Upgrades ∧ endUnix < sub.endTime
  opening : ¬ s.Upgraded → s.group ≠ upgradeGroup → trimSpace s.group = s.group ∧ s.group ≠ ""

instance (upgradeGroup : String) (endUnix : ℤ) (s : State) :
    Decidable (FitsPurchase upgradeGroup endUnix s) :=
  decidable_of_iff _ (fitsPurchase_iff upgradeGroup endUnix s).symm

/-- What a step must meet: no edit without an active upgrade undoes the transition that ended last.
-/
def Fits (cal : Calendar) (e : Event) (s : State) : Prop :=
  match e with
  | .purchase plan => trimSpace plan.upgradeGroup ≠ "" →
    ∀ endUnix ∈ calcPlanEndTime cal s.clock plan, FitsPurchase (trimSpace plan.upgradeGroup) endUnix s
  | .edit group => ¬ s.Upgraded → Settled s.subs group
  | .select _ => True
  | .expire _ => True
  | .wait _ => True

instance (cal : Calendar) (e : Event) (s : State) : Decidable (Fits cal e s) := by
  cases e <;> unfold Fits <;> infer_instance

/-- Every step of the run meets `Fits` in the state it finds. -/
def AllFit (cal : Calendar) : List Event → State → Prop
  | [], _ => True
  | e :: run, s => Fits cal e s ∧ AllFit cal run (step cal e s)

def AllFit.decide (cal : Calendar) : (run : List Event) → (s : State) → Decidable (AllFit cal run s)
  | [], _ => .isTrue trivial
  | e :: run, s =>
    have := AllFit.decide cal run (step cal e s)
    inferInstanceAs (Decidable (_ ∧ _))

instance (cal : Calendar) (run : List Event) (s : State) : Decidable (AllFit cal run s) :=
  AllFit.decide cal run s

namespace Follows

variable {s : State}

/-- After a pass the active upgrades are those that end later. -/
theorem upgraded_expire (h : Follows s) (hsub : sub ∈ s.subs) (hup : (sub.expire now).Upgrades) :
    ¬ sub.Due now ∧ sub.Upgrades ∧ now < sub.endTime := by
  have hdue : ¬ sub.Due now := by
    intro hdue
    rw [expire_of_due hdue] at hup
    cases hup.1
  rw [expire_of_not_due hdue] at hup
  refine ⟨hdue, hup, ?_⟩
  by_contra hle
  exact hdue ⟨hup.1, h.lived sub hsub hup.2, not_lt.mp hle⟩

/-- **What a pass may change**: the group moves only when a transition expires. -/
theorem group_expire (h : Follows s) (hchange : (expireDueSubscriptions now s).group ≠ s.group) :
    ∃ sub ∈ s.subs, sub.Due now ∧ sub.Transition := by
  by_contra hnone
  have hnot : ∀ sub ∈ s.subs, sub.Due now → ¬ sub.Transition :=
    fun sub hsub hdue ht => hnone ⟨sub, hsub, hdue, ht⟩
  rcases expireDue_cases now s with ⟨-, he⟩ | ⟨hblock, he⟩
  · exact hchange (by rw [he])
  have hidle : ¬ s.Upgraded := by
    rintro ⟨sub, hsub, hup⟩
    by_cases hdue : sub.Due now
    · exact hnot sub hsub hdue (.inr hup.2)
    refine hblock ⟨sub.expire now, mem_map_of_mem hsub, ?_⟩
    rw [expire_of_not_due hdue]
    refine ⟨hup, ?_⟩
    by_contra hle
    exact hdue ⟨hup.1, h.lived sub hsub hup.2, not_lt.mp hle⟩
  refine hchange ?_
  rw [he, expiredTransitions_expire hnot]
  cases hl : latest (expiredTransitions s.subs) with
  | none => rfl
  | some last =>
    show (target last s.group).getD s.group = s.group
    rw [h.settled hidle last hl]
    rfl

/-- The pass that ends a stretch brings the user back: it follows the opener, which ended last. -/
theorem back_expire (h : Follows s) {g : String} {opener : UserSubscription}
    (hmem : opener ∈ s.subs) (ho : Opener g s opener)
    (hdown : ∀ sub ∈ s.subs, sub.downgradeGroup = "") (hdue : opener.Due now) :
    ((latest (expiredTransitions (s.subs.map (expire now)))).bind
      (fun last => target last s.group)).getD s.group = g := by
  have hexpired : opener.expire now ∈
      expiredTransitions (s.subs.map (expire now)) := by
    refine mem_filter.mpr ⟨mem_map_of_mem hmem, ?_⟩
    rw [decide_eq_true_eq, transition_expire]
    refine ⟨?_, .inr ho.upgrades.2⟩
    rw [expire_of_due hdue]
  obtain ⟨last, hlast⟩ := latest_isSome hexpired
  obtain ⟨hin, hmax⟩ := latest_spec hlast
  obtain ⟨hmap, hcond⟩ := mem_filter.mp hin
  obtain ⟨sub, hsub, rfl⟩ := mem_map.mp hmap
  rw [decide_eq_true_eq, transition_expire] at hcond
  have hup : sub.upgradeGroup ≠ "" := by
    rcases hcond.2 with h | h
    · exact absurd (hdown sub hsub) h
    · exact h
  have hle := hmax _ hexpired
  rw [expire_endTime, expire_endTime] at hle
  have hsame : sub = opener := by
    rcases ho.last sub hsub hup with h | h
    · exact h
    · omega
  subst hsame
  rw [hlast]
  show (target (sub.expire now) s.group).getD s.group = g
  have hblank : trimSpace "" = "" := by decide
  unfold target
  simp only [expire_downgradeGroup, expire_upgradeGroup,
    expire_prevUserGroup, hdown sub hsub, h.trimmed sub hsub, hblank]
  rcases ho.before with ⟨hprev, hg⟩ | ⟨hprev, htrim, hne, hother⟩
  · rw [hprev, if_pos (Or.inr hblank), hg]
    rfl
  · rw [hprev, htrim, if_neg (not_or.mpr ⟨hup, hne⟩), if_neg (not_not.mpr ho.group.symm),
      if_neg hother]
    rfl

/-- While an upgrade lasts, the pass leaves the group and the opener alone. -/
theorem opened_expire (h : Follows s) {g : String} (hg : s.base = some g) (hsub : sub ∈ s.subs)
    (hup : (sub.expire now).Upgrades) :
    ∃ row ∈ (expireDueSubscriptions now s).subs, Opener g (expireDueSubscriptions now s) row := by
  obtain ⟨-, hsubup, hlater⟩ := h.upgraded_expire hsub hup
  obtain ⟨opener, hmem, ho⟩ := h.opened g hg ⟨sub, hsub, hsubup⟩
  have hlive : ¬ opener.Due now := by
    intro hdue
    rcases ho.last sub hsub hsubup.2 with rfl | hlt
    · exact absurd hdue.2.2 (not_le.mpr hlater)
    · exact absurd hdue.2.2 (not_le.mpr (lt_trans hlater hlt))
  rcases expireDue_cases now s with ⟨-, he⟩ | ⟨hblock, -⟩
  · rw [he]
    refine ⟨opener, ?_, ho.upgrades, ho.group, forall_mem_map.mpr fun other hother hne => ?_,
      ho.before⟩
    · rw [← expire_of_not_due hlive]
      exact mem_map_of_mem hmem
    · rw [expire_upgradeGroup] at hne
      rw [expire_endTime]
      rcases ho.last other hother hne with rfl | hlt
      · exact .inl (expire_of_not_due hlive)
      · exact .inr hlt
  · exact absurd ⟨_, mem_map_of_mem hsub, hup, by rwa [expire_endTime]⟩ hblock

/-- The transaction of a pass that has begun. -/
theorem expireDue (h : Follows s) (hnow : now ≤ s.clock) :
    Follows (expireDueSubscriptions now s) := by
  rw [expireDue_eq]
  refine ⟨h.begun, forall_mem_map.mpr fun sub hsub => ?_, forall_mem_map.mpr fun sub hsub => ?_,
    forall_mem_map.mpr fun sub hsub => ?_, fun hidle => ?_, fun g hg hup => ?_,
    fun g hg hidle hdown => ?_⟩
  · rw [expire_upgradeGroup, expire_endTime]
    exact h.lived sub hsub
  · by_cases hdue : sub.Due now
    · rw [expire_of_due hdue]
      exact .inr ⟨rfl, le_trans hdue.2.2 (by exact_mod_cast hnow)⟩
    · rw [expire_of_not_due hdue]
      exact h.known sub hsub
  · rw [expire_upgradeGroup]
    exact h.trimmed sub hsub
  · rcases expireDue_cases now s with ⟨⟨sub, hsub, hup, -⟩, -⟩ | ⟨-, he⟩
    · exact absurd ⟨sub, hsub, hup⟩ hidle
    rw [he]
    intro last hlast
    rw [hlast]
    show target last ((target last s.group).getD s.group) = none
    cases ht : target last s.group with
    | none => exact ht
    | some => exact target_again ht
  · obtain ⟨row, hrow, hrup⟩ := hup
    obtain ⟨sub, hsub, rfl⟩ := mem_map.mp hrow
    have hopen := h.opened_expire hg hsub hrup
    rw [expireDue_eq] at hopen
    exact hopen
  · have hdown' : ∀ sub ∈ s.subs, sub.downgradeGroup = "" := by
      intro sub hsub
      rw [← expire_downgradeGroup now sub]
      exact hdown _ (mem_map_of_mem hsub)
    by_cases hup : s.Upgraded
    · obtain ⟨opener, hmem, ho⟩ := h.opened g hg hup
      have hdue : opener.Due now := by
        by_contra hnot
        refine hidle ⟨opener.expire now, mem_map_of_mem hmem, ?_⟩
        rw [expire_of_not_due hnot]
        exact ho.upgrades
      rcases expireDue_cases now s with ⟨⟨sub, hsub, hsup, -⟩, -⟩ | ⟨-, he⟩
      · exact absurd ⟨sub, hsub, hsup⟩ hidle
      · rw [he]
        exact h.back_expire hmem ho hdown' hdue
    · rw [← h.back g hg hup hdown']
      by_contra hchange
      obtain ⟨sub, hsub, hdue, ht⟩ := h.group_expire hchange
      rcases ht with ht | ht
      · exact ht (hdown' sub hsub)
      · exact hup ⟨sub, hsub, hdue.1, ht⟩

/-- Time goes on, and passes come and go. -/
theorem idle (h : Follows s) {clock : ℕ} {passes : List ℕ} (hclock : s.clock ≤ clock)
    (hbegun : ∀ now ∈ passes, now ≤ clock) :
    Follows { s with clock := clock, passes := passes } := by
  refine ⟨hbegun, h.lived, ?_, h.trimmed, h.settled, ?_, h.back⟩
  · intro sub hsub
    rcases h.known sub hsub with hactive | ⟨hexpired, hpast⟩
    · exact .inl hactive
    · exact .inr ⟨hexpired, le_trans hpast (Int.ofNat_le.mpr hclock)⟩
  · intro g hg hup
    obtain ⟨opener, hmem, ho⟩ := h.opened g hg hup
    exact ⟨opener, hmem, ho.upgrades, ho.group, ho.last, ho.before⟩

theorem expire (h : Follows s) (cal : Calendar) (i : ℕ) : Follows (step cal (.expire i) s) := by
  cases hpass : s.passes[i]? with
  | none =>
    simp only [step, hpass]
    exact h
  | some now =>
    simp only [step, hpass]
    have hrest : Follows { s with passes := s.passes.eraseIdx i } :=
      h.idle (le_refl _) fun t ht => h.begun t ((eraseIdx_sublist s.passes i).mem ht)
    exact hrest.expireDue (h.begun now (mem_of_getElem? hpass))

theorem select (h : Follows s) (cal : Calendar) (listed : Bool) :
    Follows (step cal (.select listed) s) := by
  unfold step selectDueSubscriptions
  simp only
  split
  · exact h.idle (le_refl _) (forall_mem_cons.mpr ⟨le_refl _, h.begun⟩)
  · exact h

variable {cal : Calendar} {plan : SubscriptionPlan} {endUnix : ℤ}

/-- A plan without an upgrade group. -/
theorem purchase_plain (h : Follows s) (endUnix : ℤ) (hplain : trimSpace plan.upgradeGroup = "") :
    Follows { s with subs := newSubscription plan endUnix s :: s.subs } := by
  have hup : State.Upgraded { s with subs := newSubscription plan endUnix s :: s.subs } →
      s.Upgraded := by
    rintro ⟨sub, hsub, hu⟩
    rcases mem_cons.mp hsub with rfl | hsub
    · exact absurd hplain hu.2
    · exact ⟨sub, hsub, hu⟩
  have hidle : ¬ State.Upgraded { s with subs := newSubscription plan endUnix s :: s.subs } →
      ¬ s.Upgraded := fun hnot ⟨sub, hsub, hu⟩ => hnot ⟨sub, mem_cons_of_mem _ hsub, hu⟩
  refine ⟨h.begun, ?_, ?_, ?_, fun hnot => h.settled (hidle hnot), ?_, ?_⟩
  · exact forall_mem_cons.mpr ⟨fun hne => absurd hplain hne, h.lived⟩
  · exact forall_mem_cons.mpr ⟨.inl rfl, h.known⟩
  · exact forall_mem_cons.mpr ⟨trimSpace_trimSpace _, h.trimmed⟩
  · intro g hg hu
    obtain ⟨opener, hmem, ho⟩ := h.opened g hg (hup hu)
    refine ⟨opener, mem_cons_of_mem _ hmem, ⟨ho.upgrades, ho.group, ?_, ho.before⟩⟩
    exact forall_mem_cons.mpr ⟨fun hne => absurd hplain hne, ho.last⟩
  · intro g hg hnot hdown
    exact h.back g hg (hidle hnot) fun sub hsub => hdown sub (mem_cons_of_mem _ hsub)

/-- A plan with an upgrade group: it begins a stretch, or it ends before the opener does. -/
theorem purchase_upgrade (h : Follows s)
    (hfit : FitsPurchase (trimSpace plan.upgradeGroup) endUnix s)
    (hne : trimSpace plan.upgradeGroup ≠ "") :
    Follows { s with
      group := trimSpace plan.upgradeGroup
      subs := newSubscription plan endUnix s :: s.subs
      base := if s.Upgraded then s.base else some s.group } := by
  obtain ⟨hends, hduring, hopening⟩ := hfit
  have hup : State.Upgraded { s with
      group := trimSpace plan.upgradeGroup
      subs := newSubscription plan endUnix s :: s.subs
      base := if s.Upgraded then s.base else some s.group } :=
    ⟨_, mem_cons_self, rfl, hne⟩
  refine ⟨h.begun, ?_, ?_, ?_, fun hnot => absurd hup hnot, ?_, fun g _ hnot => absurd hup hnot⟩
  · exact forall_mem_cons.mpr ⟨fun _ => lt_of_le_of_lt (Int.natCast_nonneg _) hends, h.lived⟩
  · exact forall_mem_cons.mpr ⟨.inl rfl, h.known⟩
  · exact forall_mem_cons.mpr ⟨trimSpace_trimSpace _, h.trimmed⟩
  intro g hg _
  by_cases hs : s.Upgraded
  · simp only [if_pos hs] at hg
    obtain ⟨opener, hmem, ho⟩ := h.opened g hg hs
    obtain ⟨hsame, sub, hsub, hsubup, hlater⟩ := hduring hs (by rw [hg]; simp)
    refine ⟨opener, mem_cons_of_mem _ hmem, ⟨ho.upgrades, ho.group.trans hsame.symm, ?_, ?_⟩⟩
    · refine forall_mem_cons.mpr ⟨fun _ => .inr ?_, ho.last⟩
      rcases ho.last sub hsub hsubup.2 with rfl | hlt
      · exact hlater
      · exact lt_trans hlater hlt
    · simp only [hsame]
      exact ho.before
  simp only [if_neg hs] at hg
  cases hg
  refine ⟨_, mem_cons_self, ⟨⟨rfl, hne⟩, rfl, ?_, ?_⟩⟩
  · refine forall_mem_cons.mpr ⟨fun _ => .inl rfl, fun other hother hotherne => ?_⟩
    rcases h.known other hother with hactive | ⟨-, hpast⟩
    · exact absurd ⟨other, hother, hactive, hotherne⟩ hs
    · exact .inr (lt_of_le_of_lt hpast hends)
  by_cases hgroup : s.group = trimSpace plan.upgradeGroup
  · exact .inl ⟨if_neg (fun hm => hm.2 hgroup), hgroup⟩
  · obtain ⟨htrim, hblank⟩ := hopening hs hgroup
    exact .inr ⟨if_pos ⟨hne, hgroup⟩, htrim, hblank, hgroup⟩

theorem purchase (h : Follows s) (hfit : Fits cal (.purchase plan) s) :
    Follows (step cal (.purchase plan) s) := by
  unfold step createUserSubscriptionFromPlan
  simp only
  split
  · exact h
  split
  · exact h
  cases hend : calcPlanEndTime cal s.clock plan with
  | none => exact h
  | some endUnix =>
  simp only
  by_cases hne : trimSpace plan.upgradeGroup = ""
  · rw [if_neg (fun hm => hm.1 hne), if_neg (fun hm => hm.1 hne)]
    exact h.purchase_plain endUnix hne
  have hgroup : (if Moves plan s then trimSpace plan.upgradeGroup else s.group)
      = trimSpace plan.upgradeGroup := by
    split
    · rfl
    · rename_i hm
      by_contra hdiff
      exact hm ⟨hne, hdiff⟩
  have hbase : (if trimSpace plan.upgradeGroup ≠ "" ∧ ¬ s.Upgraded then some s.group
      else s.base) = if s.Upgraded then s.base else some s.group := by
    by_cases hs : s.Upgraded
    · rw [if_neg (fun hc => hc.2 hs), if_pos hs]
    · rw [if_pos ⟨hne, hs⟩, if_neg hs]
  rw [hgroup, hbase]
  exact h.purchase_upgrade (hfit hne endUnix hend) hne

theorem edit (h : Follows s) {group : String} (hfit : Fits cal (.edit group) s) :
    Follows (step cal (.edit group) s) := by
  refine ⟨h.begun, h.lived, h.known, h.trimmed, hfit, ?_, ?_⟩
  · intro g hg
    cases hg
  · intro g hg
    cases hg

theorem wait (h : Follows s) (cal : Calendar) (seconds : ℕ) :
    Follows (step cal (.wait seconds) s) :=
  h.idle (Nat.le_add_right _ _) fun t ht => le_trans (h.begun t ht) (Nat.le_add_right _ _)

theorem step (h : Follows s) {e : Event} (hfit : Fits cal e s) : Follows (Group.step cal e s) := by
  cases e with
  | purchase => exact h.purchase hfit
  | select listed => exact h.select cal listed
  | expire i => exact h.expire cal i
  | edit => exact h.edit hfit
  | wait seconds => exact h.wait cal seconds

theorem after (h : Follows s) :
    ∀ {run : List Event}, AllFit cal run s → Follows (Group.after cal run s) := by
  intro run
  induction run generalizing s with
  | nil => exact fun _ => h
  | cons e run ih => exact fun hfit => ih (h.step hfit.1) hfit.2

end Follows

theorem follows_fresh (clock : ℕ) (group : String) : Follows (fresh clock group) := by
  constructor <;> simp [fresh, Settled, expiredTransitions, latest]

/-- **A subscription's group upgrade ends with it**, in every run of which each step meets `Fits`: a
pass changes the group only if a transition expires in it; in a stretch without an edit the group is
that of an active upgrade; and without downgrade groups, the end of the stretch brings back the
group from before it. -/
theorem upgrade_ends_with_subscription (cal : Calendar) (clock : ℕ) (group : String)
    (run : List Event) (hfit : AllFit cal run (fresh clock group)) :
    let s := after cal run (fresh clock group)
    (∀ i now, s.passes[i]? = some now → (step cal (.expire i) s).group ≠ s.group →
      ∃ sub ∈ s.subs, sub.Due now ∧ sub.Transition) ∧
    (s.base ≠ none → s.Upgraded → ∃ sub ∈ s.subs, sub.Upgrades ∧ sub.upgradeGroup = s.group) ∧
    (∀ g, s.base = some g → ¬ s.Upgraded → (∀ sub ∈ s.subs, sub.downgradeGroup = "") →
      s.group = g) := by
  intro s
  have h : Follows s := (follows_fresh clock group).after hfit
  refine ⟨fun i now hpass hchange => ?_, fun hbase hup => ?_, h.back⟩
  · refine h.group_expire fun hsame => hchange ?_
    rw [← hsame]
    simp only [step, hpass]
    exact expireDue_group_passes _ _ _
  obtain ⟨g, hg⟩ := Option.ne_none_iff_exists'.mp hbase
  obtain ⟨opener, hmem, ho⟩ := h.opened g hg hup
  exact ⟨opener, hmem, ho.upgrades, ho.group⟩

/-! ### Runs -/

def groupPlan (id seconds : ℤ) (upgradeGroup downgradeGroup : String) : SubscriptionPlan :=
  ⟨id, .custom, 0, seconds, 0, upgradeGroup, downgradeGroup⟩

/-- A long upgrade with a short one for the same group inside it. -/
def nestedRun : List Event :=
  [.purchase (groupPlan 1 100 "pro" ""), .wait 5, .purchase (groupPlan 2 10 "pro" ""), .wait 10,
    .select true, .expire 0, .wait 90, .select true, .expire 0]

theorem upgrade_ends_with_subscription_nestedRun :
    (after plainCalendar nestedRun (fresh 0 "free")).group = "free" :=
  (upgrade_ends_with_subscription plainCalendar 0 "free" nestedRun (by decide +kernel)).2.2 "free"
    (by decide +kernel) (by decide +kernel) (by decide +kernel)

/-- The three properties fail: a pass that expires a subscription without a group follows an older
one; a short upgrade outlasts itself during a long one; a renewal remembers no group to go back to;
and a plan of 999999 days ends before it begins. -/
theorem group_strays :
    (let s := after plainCalendar [.purchase (groupPlan 1 1 "" "basic"), .wait 1, .select true,
        .expire 0, .edit "vip", .purchase (groupPlan 2 1 "" ""), .wait 1, .select true]
        (fresh 0 "free");
      (∀ sub ∈ s.subs, sub.Due s.clock → ¬ sub.Transition) ∧ s.group = "vip" ∧
        s.passes = [s.clock] ∧ (step plainCalendar (.expire 0) s).group = "basic") ∧
    (let s := after plainCalendar [.purchase (groupPlan 1 100 "pro" ""),
        .purchase (groupPlan 2 10 "vip" ""), .wait 10, .select true, .expire 0] (fresh 0 "free");
      s.base = some "free" ∧ s.Upgraded ∧ s.group = "vip" ∧
        ∀ sub ∈ s.subs, sub.Upgrades → sub.upgradeGroup = "pro") ∧
    (let s := after plainCalendar [.purchase (groupPlan 1 10 "pro" ""), .wait 5,
        .purchase (groupPlan 1 10 "pro" ""), .wait 10, .select true, .expire 0] (fresh 0 "free");
      s.base = some "free" ∧ ¬ s.Upgraded ∧ (∀ sub ∈ s.subs, sub.downgradeGroup = "") ∧
        s.group = "pro") ∧
    (let longPlan : SubscriptionPlan := ⟨1, .day, 999999, 0, 0, "pro", ""⟩
      let s := after plainCalendar [.purchase longPlan, .purchase (groupPlan 2 1 "" "basic"), .wait 1,
        .select true, .expire 0] (fresh 1700000000 "free");
      calcPlanEndTime plainCalendar 1700000000 longPlan = some (-4133806769) ∧ s.Upgraded ∧
        s.group = "basic") := by
  decide +kernel

end UnifyConsole.Subscription.Group
