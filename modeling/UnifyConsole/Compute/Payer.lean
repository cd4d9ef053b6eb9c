import UnifyConsole.Account.Wallets
import UnifyConsole.Compute.Conservation

/-!
# Which wallet a hold is paid from

A hold records the tenant that paid when it was opened, but extending it and
giving its rest back go to the wallet the login has at that moment.  Here the
calls of the bridge are interleaved with the three operations that put a login
into another wallet.  `HoldDb.drawn` is a wallet's balance with what is out on
holds it paid for.

A step of the bridge that moves quota keeps all these sums if and only if the
login is still in the wallet that paid, and it is whenever logins are moved only
while they have no active hold.
-/

namespace UnifyConsole.Compute

open Lib Account
open Prog Table Pool

/-! ### The recorded payer -/

/-- The wallet recorded on a hold: its tenant, or the login's own row when there
is none. -/
def ComputeHold.payer (h : ComputeHold) : Wallet :=
  BillingEntity.wallet ⟨h.userId, h.tenantId⟩

open ComputeHold

/-- A wallet's balance with what is out on the holds drawn from it. -/
def HoldDb.drawn (db : HoldDb) (w : Wallet) : Int :=
  db.store.balance w + db.holds.sum fun h => if h.payer = w then h.outstanding else 0

def HoldDb.Unheld (db : HoldDb) (userId : Int) : Prop :=
  ∀ h ∈ db.holds.rows, h.userId = userId → h.status ≠ .active

/-- The calls of the bridge and the operations that move a login. -/
inductive WalletCall where
  | hold (c : HoldCall)
  | join (userId tenantId : Int) (commits : Bool)
  | reattach (suffix : Nat → String) (user : User) (group : String) (commits : Bool)
  | ensure (suffix : Nat → String) (userId : Int) (commits : Bool)

def WalletCall.prog : WalletCall → ComputeProg Unit
  | .hold c => do
    let _ ← c.prog
    pure ()
  | .join userId tenantId commits => do
    let _ ← transaction commits (account (joinCustomerPoolTx userId tenantId))
    pure ()
  | .reattach suffix user group commits => do
    let _ ← transaction commits (account (reattachWalletTx suffix user group))
    pure ()
  | .ensure suffix userId commits => do
    let _ ← transaction commits (account (ensureTenantForUserTx suffix userId))
    pure ()

def WalletCall.Unheld : WalletCall → HoldDb → Prop
  | .hold _, _ => True
  | .join userId _ _, db => db.Unheld userId
  | .reattach _ user _ _, db => db.Unheld user.id
  | .ensure _ userId _, db => db.Unheld userId

structure Rehoused (userId : Int) (db db' : HoldDb) : Prop where
  store : Rehomed userId db.store db'.store
  holds : db'.holds = db.holds

def WalletCall.Rel : WalletCall → HoldDb → HoldDb → Prop
  | .hold _ => LedgerStep
  | .join userId _ _ => Rehoused userId
  | .reattach _ user _ _ => Rehoused user.id
  | .ensure _ userId _ => Rehoused userId

theorem transaction_rehoused {α : Type} {userId : Int} {commits : Bool} {x : AccountTx α}
    (h : ∀ s a s', x s = .ok (a, s') → Rehomed userId s s') :
    (transaction commits (account x)).Within (Rehoused userId) := by
  refine within_transact (fun db => ⟨Rehomed.refl _ _, rfl⟩) fun db a db' hx => ?_
  obtain ⟨b, s, hs, hr⟩ := account_ok.mp hx
  obtain ⟨rfl, rfl⟩ := hr
  exact ⟨h _ _ _ hs, rfl⟩

theorem WalletCall.within (c : WalletCall) : c.prog.Within c.Rel := by
  cases c with
  | hold c => exact within_bind c.tells.within fun _ => within_pure _
  | join =>
    exact within_bind (transaction_rehoused fun _ _ _ => Rehomed.joinCustomerPoolTx)
      (fun _ => within_pure _)
  | reattach =>
    exact within_bind (transaction_rehoused fun _ _ _ => Rehomed.reattachWalletTx)
      (fun _ => within_pure _)
  | ensure =>
    exact within_bind (transaction_rehoused fun _ _ _ => Rehomed.ensureTenantForUserTx)
      (fun _ => within_pure _)

/-! ### Invariants -/

/-- The amounts of every row fit together and its payer has a row. -/
def Recorded (db : HoldDb) : Prop :=
  ∀ h ∈ db.holds.rows, Sound h ∧ (db.store.quota? h.payer).isSome = true

/-- The login of every active hold is in the wallet that paid. -/
def AtPayer (db : HoldDb) : Prop :=
  ∀ h ∈ db.holds.rows, h.status = .active → db.store.walletOf h.userId = some h.payer

variable {db db' : HoldDb} {hold : ComputeHold}

theorem Opened.walletOf (h : Opened db hold db') :
    db.store.walletOf hold.userId = some hold.payer := by
  obtain ⟨e, he, ht⟩ := h.entity
  rw [walletOf_of_entityOf he, payer, ht]
  obtain ⟨u, hu, rfl⟩ := Option.map_eq_some_iff.mp he
  rw [← key_of_find? hu]

theorem Recorded.step (hr : Recorded db) (h : LedgerStep db db') : Recorded db' := by
  rcases h.effect (fun r hm => (hr r hm).1) with hq | ⟨hold, ho⟩ | ⟨hold, u, hm⟩
  · intro r hmem
    rw [hq.holds] at hmem
    rw [hq.paid.rows]
    exact hr r hmem
  · intro r hmem
    rw [ho.paid.rows]
    rcases (mem_insert? ho.holds).mp hmem with hmem | rfl
    · exact hr r hmem
    · obtain ⟨w, hw, hrow⟩ := ho.funded
      rw [ho.walletOf, Option.some.injEq] at hw
      exact ⟨ho.sound, hw ▸ hrow⟩
  · intro r hmem
    rw [hm.apart.rows]
    rcases hm.mem_holds hmem with hmem | rfl
    · exact hr r hmem
    · exact ⟨hm.sound, (hr hold (mem_of_find? hm.find)).2⟩

theorem Recorded.rel (hr : Recorded db) {c : WalletCall} (h : c.Rel db db') : Recorded db' := by
  have hmove : ∀ userId, Rehoused userId db db' → Recorded db' := by
    intro userId hh r hmem
    rw [hh.holds] at hmem
    exact ⟨(hr r hmem).1, hh.store.rows _ (hr r hmem).2⟩
  cases c with
  | hold => exact hr.step h
  | join userId | ensure _ userId => exact hmove userId h
  | reattach suffix user => exact hmove user.id h

theorem AtPayer.step (ha : AtPayer db) (hr : Recorded db) (h : LedgerStep db db') :
    AtPayer db' := by
  rcases h.effect (fun r hm => (hr r hm).1) with hq | ⟨hold, ho⟩ | ⟨hold, u, hm⟩
  · intro r hmem hactive
    rw [hq.holds] at hmem
    rw [hq.paid.walletOf]
    exact ha r hmem hactive
  · intro r hmem hactive
    rw [ho.paid.walletOf]
    rcases (mem_insert? ho.holds).mp hmem with hmem | rfl
    · exact ha r hmem hactive
    · exact ho.walletOf
  · intro r hmem hactive
    rw [Store.walletOf, hm.apart.entity, ← Store.walletOf]
    rcases hm.mem_holds hmem with hmem | rfl
    · exact ha r hmem hactive
    · exact ha hold (mem_of_find? hm.find) hm.active

theorem AtPayer.rehoused (ha : AtPayer db) {userId : Int} (hu : db.Unheld userId)
    (h : Rehoused userId db db') : AtPayer db' := by
  intro r hmem hactive
  rw [h.holds] at hmem
  have hne : r.userId ≠ userId := fun he => hu r hmem he hactive
  rw [Store.walletOf, h.store.entity _ hne, ← Store.walletOf]
  exact ha r hmem hactive

theorem AtPayer.rel (ha : AtPayer db) (hr : Recorded db) {c : WalletCall} (hu : c.Unheld db)
    (h : c.Rel db db') : AtPayer db' := by
  cases c with
  | hold => exact ha.step hr h
  | join | reattach | ensure => exact ha.rehoused hu h

/-! ### The sums of a step -/

variable {u : HoldUpdates}

theorem Moved.drawn (h : Moved db hold u db') (w : Wallet) :
    db'.drawn w = db.drawn w + (db'.store.balance w - db.store.balance w) +
      if hold.payer = w then (u.apply hold).outstanding - hold.outstanding else 0 := by
  have hp : (u.apply hold).payer = hold.payer := rfl
  rw [HoldDb.drawn, HoldDb.drawn, h.sum_holds, hp]
  split <;> omega

theorem Moved.balance_of_payer (h : Moved db hold u db')
    (hrow : (db.store.quota? hold.payer).isSome = true)
    (hw : db.store.walletOf hold.userId = some hold.payer) (w : Wallet) :
    db'.store.balance w = db.store.balance w -
      if hold.payer = w then (u.apply hold).outstanding - hold.outstanding else 0 := by
  rw [(h.paid ⟨_, hw, hrow⟩).balance, hw]
  simp only [Option.some.injEq]

/-- A step that moves quota keeps the sums exactly when the login is in the wallet that paid. -/
theorem Moved.drawn_iff (h : Moved db hold u db')
    (hrow : (db.store.quota? hold.payer).isSome = true)
    (hne : (u.apply hold).outstanding ≠ hold.outstanding) :
    (∀ w, db'.drawn w = db.drawn w) ↔ db.store.walletOf hold.userId = some hold.payer := by
  constructor
  · intro hall
    by_contra hw
    have hd := h.drawn hold.payer
    rw [hall, h.apart.balance _ hw, if_pos rfl] at hd
    omega
  · intro hw w
    rw [h.drawn, h.balance_of_payer hrow hw]
    omega

theorem LedgerStep.drawn (h : LedgerStep db db') (hr : Recorded db) (ha : AtPayer db) (w : Wallet) :
    db'.drawn w = db.drawn w := by
  rcases h.effect (fun r hm => (hr r hm).1) with hq | ⟨hold, ho⟩ | ⟨hold, u, hm⟩
  · rw [HoldDb.drawn, HoldDb.drawn, hq.holds, hq.paid.balance]
    split <;> omega
  · rw [HoldDb.drawn, HoldDb.drawn, sum_insert? ho.holds, ho.paid.balance, ho.walletOf]
    simp only [Option.some.injEq]
    omega
  · have hmem := mem_of_find? hm.find
    rw [hm.drawn, hm.balance_of_payer (hr hold hmem).2 (ha hold hmem hm.active)]
    omega

/-- A step that changes the row of a hold is the move of that hold. -/
theorem LedgerStep.moved_of_ne (h : LedgerStep db db') (hr : Recorded db) {hold' : ComputeHold}
    (hf : db.holds.find? hold.holdId = some hold) (hf' : db'.holds.find? hold.holdId = some hold')
    (hne : hold' ≠ hold) : ∃ u, Moved db hold u db' ∧ hold' = u.apply hold := by
  rcases h.effect (fun r hm => (hr r hm).1) with hq | ⟨opened, ho⟩ | ⟨moved, u, hm⟩
  · rw [hq.holds, hf, Option.some.injEq] at hf'
    exact absurd hf'.symm hne
  · rw [find?_insert? ho.holds] at hf'
    split at hf'
    · rename_i hk
      have := (insert?_eq_some_iff.mp ho.holds).1
      rw [hk, hf] at this
      cases this
    · rw [hf, Option.some.injEq] at hf'
      exact absurd hf'.symm hne
  · rw [hm.find?_holds] at hf'
    split at hf'
    · rename_i hk
      have hfind := hm.find
      rw [← hk, hf, Option.some.injEq] at hfind
      subst hfind
      exact ⟨u, hm, (Option.some.inj hf').symm⟩
    · rw [hf, Option.some.injEq] at hf'
      exact absurd hf'.symm hne

/-- A step that closes an active hold gives its rest to the wallet that paid. -/
theorem LedgerStep.balance_of_close (h : LedgerStep db db') (hr : Recorded db) (ha : AtPayer db)
    {hold' : ComputeHold} (hf : db.holds.find? hold.holdId = some hold)
    (hactive : hold.status = .active) (hf' : db'.holds.find? hold.holdId = some hold')
    (hclosed : hold'.status ≠ .active) (w : Wallet) :
    db'.store.balance w = db.store.balance w + if hold.payer = w then hold'.releasedQuota else 0 := by
  have hne : hold' ≠ hold := by
    rintro rfl
    exact hclosed hactive
  obtain ⟨u, hm, rfl⟩ := h.moved_of_ne hr hf hf' hne
  have hmem := mem_of_find? hf
  rw [hm.balance_of_payer (hr hold hmem).2 (ha hold hmem hactive), outstanding,
    outstanding, hm.quota hclosed, (hr hold hmem).1.released_active hactive]
  split <;> omega

/-! ### Runs -/

theorem recorded_of_run {ok : WalletCall → HoldDb → Prop}
    (hr : Relation.ReflTransGen (fun s s' => ∃ c, ok c s ∧ WalletCall.Rel c s s') db db')
    (h : Recorded db) : Recorded db' := by
  induction hr with
  | refl => exact h
  | tail _ hs ih =>
    obtain ⟨c, -, hc⟩ := hs
    exact ih.rel hc

theorem atPayer_of_run
    (hr : Relation.ReflTransGen (fun s s' => ∃ c : WalletCall, c.Unheld s ∧ c.Rel s s') db db')
    (h : Recorded db) (ha : AtPayer db) : AtPayer db' := by
  induction hr with
  | refl => exact ha
  | tail hrun hs ih =>
    obtain ⟨c, hu, hc⟩ := hs
    exact ih.rel (recorded_of_run hrun h) hu hc

theorem step_of_call {p : Pool WalletCall HoldDb Unit} (hw : Within WalletCall.Rel p)
    {c : HoldCall} {act : HoldDb → HoldDb} {next : HoldDb → ComputeProg Unit}
    (hc : (WalletCall.hold c, .step act next) ∈ p.calls) : LedgerStep p.state (act p.state) := by
  obtain ⟨_, h, -⟩ := hw _ hc p.state
  exact h

/-- **Refunds and the wallet that paid.** A step that moves quota of an active hold keeps every
wallet's sum if and only if the login is in the wallet recorded on the hold; and where logins move
only without active holds, every step keeps the sums, and what is left of a closed hold goes to that
wallet. -/
theorem refund_reaches_payer {db : HoldDb} (hempty : db.holds.rows = []) :
    (∀ p, Reach WalletCall.prog (Pool.start db) p →
      ∀ c act next, (WalletCall.hold c, .step act next) ∈ p.calls →
      ∀ h h', p.state.holds.find? h.holdId = some h → h.status = .active →
        (act p.state).holds.find? h.holdId = some h' → h'.outstanding ≠ h.outstanding →
        ((∀ w, (act p.state).drawn w = p.state.drawn w) ↔
          p.state.store.walletOf h.userId = some h.payer)) ∧
    (∀ p, ReachIf WalletCall.prog WalletCall.Unheld (Pool.start db) p →
      ∀ c act next, (WalletCall.hold c, .step act next) ∈ p.calls →
        (∀ w, (act p.state).drawn w = p.state.drawn w) ∧
        ∀ h h', p.state.holds.find? h.holdId = some h → h.status = .active →
          (act p.state).holds.find? h.holdId = some h' → h'.status ≠ .active →
          ∀ w, (act p.state).store.balance w =
            p.state.store.balance w + if h.payer = w then h'.releasedQuota else 0) := by
  have hr₀ : Recorded db := fun h hh => by rw [hempty] at hh; cases hh
  have ha₀ : AtPayer db := fun h hh => by rw [hempty] at hh; cases hh
  constructor
  · intro p hreach c act next hc h h' hf hactive hf' hne
    obtain ⟨hw, hrun⟩ := reach_within WalletCall.within hreach (within_start _ _)
    have hr := recorded_of_run hrun hr₀
    obtain ⟨u, hm, rfl⟩ := (step_of_call hw hc).moved_of_ne hr hf hf' fun he => hne (he ▸ rfl)
    exact hm.drawn_iff (hr h (mem_of_find? hf)).2 hne
  intro p hreach c act next hc
  obtain ⟨hw, hrun⟩ := reach_within WalletCall.within hreach (within_start _ _)
  have hr := recorded_of_run hrun hr₀
  have ha := atPayer_of_run hrun hr₀ ha₀
  have hstep := step_of_call hw hc
  exact ⟨hstep.drawn hr ha, fun h h' hf hactive hf' hclosed =>
    hstep.balance_of_close hr ha hf hactive hf' hclosed⟩

/-- The request to give back the rest of hold `h`. -/
def requestRelease : WalletCall := .hold (.release "h" 300 fun _ => true)

theorem refund_reaches_payer_release :
    sharedWalletDb.holds.rows = [] ∧
    ∃ db, db = Pool.execs WalletCall.prog [.hold (requestHold "h" 100)] sharedWalletDb ∧
      db.store.balance (.tenant 7) = 900 ∧
      ∃ act next, requestRelease.prog = .step act next ∧
        ∀ w, (act db).drawn w = db.drawn w := by
  have hok : ∀ c ∈ [WalletCall.hold (requestHold "h" 100)], ∀ s, c.Unheld s := by
    intro c hc s
    obtain rfl := List.mem_singleton.mp hc
    trivial
  obtain ⟨l, hl⟩ := reach_execs WalletCall.prog _ hok sharedWalletDb []
  refine ⟨rfl, _, rfl, by decide, _, _, rfl, ?_⟩
  exact ((refund_reaches_payer rfl).2 _ (hl.tail (Step.call requestRelease _ l)) _ _ _
    List.mem_cons_self).1

def leaveAfterOpening : List WalletCall :=
  [.hold (requestHold "h" 100),
    .reattach (fun _ => "x") ⟨1, "ada", "Ada", 1, "acme", 0, 7⟩ "default" true]

/-- The release gives the rest to the login's new wallet, and tenant `7`, which paid, loses `100`.
-/
theorem refund_misses_payer : ∃ p c act next,
    sharedWalletDb.holds.rows = [] ∧
    Reach WalletCall.prog (Pool.start sharedWalletDb) p ∧
    (WalletCall.hold c, .step act next) ∈ p.calls ∧
    p.state.holds.rows.map payer = [.tenant 7] ∧
    p.state.drawn (.tenant 7) = 1000 ∧ (act p.state).drawn (.tenant 7) = 900 ∧
    p.state.store.balance (.tenant 8) = 0 ∧ (act p.state).store.balance (.tenant 8) = 100 := by
  obtain ⟨l, hl⟩ := reach_execs WalletCall.prog leaveAfterOpening (fun _ _ _ => trivial)
    sharedWalletDb []
  have hpayer : (execs WalletCall.prog leaveAfterOpening sharedWalletDb).holds.rows.map
      payer = [.tenant 7] := by decide
  have hbefore : (execs WalletCall.prog leaveAfterOpening sharedWalletDb).drawn (.tenant 7) =
      1000 ∧ (execs WalletCall.prog leaveAfterOpening sharedWalletDb).store.balance
        (.tenant 8) = 0 := by decide
  have hafter : (execs WalletCall.prog (leaveAfterOpening ++ [requestRelease])
      sharedWalletDb).drawn (.tenant 7) = 900 ∧
      (execs WalletCall.prog (leaveAfterOpening ++ [requestRelease])
        sharedWalletDb).store.balance (.tenant 8) = 100 := by decide
  exact ⟨_, _, _, _, rfl, hl.tail (Step.call requestRelease _ l), List.mem_cons_self, hpayer,
    hbefore.1, hafter.1, hbefore.2, hafter.2⟩

/-- **Holds stay sound while logins move**: spent lies between zero and the quota, exactly the rest
is released on closing, and the wallet that paid is still there. -/
theorem holds_sound_while_logins_move {db : HoldDb} (hempty : db.holds.rows = [])
    {p : Pool WalletCall HoldDb Unit} (hr : Reach WalletCall.prog (Pool.start db) p) :
    ∀ h ∈ p.state.holds.rows, 0 ≤ h.settledQuota ∧ h.settledQuota ≤ h.quota ∧
      h.quota ≤ maxComputeQuota ∧
      h.releasedQuota = (if h.status = .active then 0 else h.quota - h.settledQuota) ∧
      (p.state.store.quota? h.payer).isSome = true := by
  have hr₀ : Recorded db := fun h hh => by rw [hempty] at hh; cases hh
  intro h hh
  obtain ⟨-, hrun⟩ := reach_within WalletCall.within hr (within_start _ _)
  obtain ⟨hs, hpayer⟩ := recorded_of_run hrun hr₀ h hh
  refine ⟨hs.settled_nonneg, hs.settled_le, hs.quota_le, ?_, hpayer⟩
  split
  · exact hs.released_active ‹_›
  · exact hs.released_closed ‹_›

theorem holds_sound_while_logins_move_left :
    sharedWalletDb.holds.rows = [] ∧
    let db := execs WalletCall.prog (leaveAfterOpening ++ [requestRelease]) sharedWalletDb
    db.holds.rows.map releasedQuota = [100] ∧
      ∀ h ∈ db.holds.rows, h.settledQuota ≤ h.quota := by
  obtain ⟨l, hl⟩ := reach_execs WalletCall.prog (leaveAfterOpening ++ [requestRelease])
    (fun _ _ _ => trivial) sharedWalletDb []
  exact ⟨rfl, by decide, fun h hh => (holds_sound_while_logins_move rfl hl h hh).2.1⟩

end UnifyConsole.Compute
