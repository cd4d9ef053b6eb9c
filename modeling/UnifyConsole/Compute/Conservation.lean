import UnifyConsole.Compute.Ledger

/-!
# Conservation of quota in the compute bridge

Every step of `LedgerStep` does one of three things to the money: nothing, it
opens one hold, or it moves the row of one active hold.  `LedgerStep.effect`
says so, with what each does to the balances (`Paid`), to the row and to the
recorded settlements.  `Balanced` is the invariant of the ledger, kept by all
three, and with it every run of the bridge keeps, for each wallet, the sum of
its balance and of what its holds still have out.
-/

namespace UnifyConsole.Compute

open Lib Account
open Table Option Store

/-! ### Payments -/

/-- A login paid `n`: its wallet has `n` less, nothing else changed. -/
structure Paid (s : Store) (userId n : Int) (s' : Store) : Prop where
  balance : ∀ w, s'.balance w = s.balance w - if s.walletOf userId = some w then n else 0
  entity : ∀ u, s'.entityOf u = s.entityOf u
  rows : ∀ w, (s'.quota? w).isSome = (s.quota? w).isSome
  nonneg : ∀ w, 0 ≤ s.balance w → 0 ≤ s'.balance w

def Funded (s : Store) (userId : Int) : Prop :=
  ∃ w, s.walletOf userId = some w ∧ (s.quota? w).isSome = true

theorem paid_zero (s : Store) (userId : Int) : Paid s userId 0 s where
  balance w := by simp
  entity _ := rfl
  rows _ := rfl
  nonneg _ h := h

variable {s s' : Store} {userId n : Int}

theorem Paid.walletOf (h : Paid s userId n s') (u : Int) : s'.walletOf u = s.walletOf u := by
  rw [Store.walletOf, h.entity, Store.walletOf]

theorem Paid.funded (h : Paid s userId n s') {u : Int} (hf : Funded s u) : Funded s' u := by
  obtain ⟨w, hw, hr⟩ := hf
  exact ⟨w, by rw [h.walletOf, hw], by rw [h.rows, hr]⟩

/-- A step that moved quota of no wallet but that of one login. -/
structure Apart (s : Store) (userId : Int) (s' : Store) : Prop where
  balance : ∀ w, s.walletOf userId ≠ some w → s'.balance w = s.balance w
  entity : ∀ u, s'.entityOf u = s.entityOf u
  rows : ∀ w, (s'.quota? w).isSome = (s.quota? w).isSome

theorem Paid.apart (h : Paid s userId n s') :
    Apart s userId s' where
  balance w hw := by rw [h.balance, if_neg hw, sub_zero]
  entity := h.entity
  rows := h.rows

theorem walletOf_of_entityOf {entity : BillingEntity} (h : s.entityOf userId = some entity) :
    s.walletOf userId = some entity.wallet := by
  rw [walletOf, h, map_some]

/-- A write to the quota of the wallet of a login. -/
theorem paid_setQuota {entity : BillingEntity} {p : Int → Bool} {f : Int → Int}
    (he : s.entityOf userId = some entity)
    (hb : ∀ w, (s.setQuota entity.wallet p f).balance w =
      s.balance w - if w = entity.wallet then n else 0)
    (h0 : 0 ≤ s.balance entity.wallet → n ≤ s.balance entity.wallet) :
    Paid s userId n (s.setQuota entity.wallet p f) := by
  refine ⟨fun w => ?_, fun u => entityOf_setQuota .., fun w => isSome_quota?_setQuota ..,
    fun w hw => ?_⟩
  · rw [hb, walletOf_of_entityOf he]
    simp only [some.injEq, eq_comm]
  · rw [hb]
    split
    · rename_i hwe
      subst hwe
      have := h0 hw
      omega
    · omega

/-- Taking quota is a payment of a login that has a wallet. -/
theorem paid_of_take {entity : BillingEntity}
    (h : tryDecreaseUserQuotaWithTx userId n s = .ok (entity, s')) :
    Paid s userId n s' ∧ Funded s userId ∧ s.entityOf userId = some entity := by
  obtain ⟨-, e, he, ⟨q, hq, hn⟩, hr⟩ := tryDecreaseUserQuotaWithTx_ok.mp h
  obtain ⟨rfl, rfl⟩ := hr
  refine ⟨paid_setQuota he (balance_take hq hn) (fun _ => ?_),
    ⟨_, walletOf_of_entityOf he, by rw [hq]; rfl⟩, he⟩
  rw [balance, hq]
  exact hn

/-- Giving quota back is a negative payment. -/
theorem paid_of_credited (hf : Funded s userId) (hn : 0 ≤ n) (h : Credited s userId n s') :
    Paid s userId (-n) s' := by
  rcases h with ⟨-, entity, h⟩ | ⟨h0, rfl⟩
  · obtain ⟨-, e, he, hr⟩ := adjustBillingQuotaWithTx_ok.mp h
    obtain ⟨rfl, rfl⟩ := hr
    obtain ⟨w', hw', hrow⟩ := hf
    rw [walletOf_of_entityOf he, some.injEq] at hw'
    subst hw'
    refine paid_setQuota he (fun w => ?_) (by omega)
    rw [balance_add hrow]
    split <;> omega
  · obtain rfl : n = 0 := by omega
    exact paid_zero s' userId

theorem apart_of_credited (h : Credited s userId n s') : Apart s userId s' := by
  rcases h with ⟨-, entity, h⟩ | ⟨-, rfl⟩
  · obtain ⟨-, e, he, hr⟩ := adjustBillingQuotaWithTx_ok.mp h
    obtain ⟨rfl, rfl⟩ := hr
    refine ⟨fun w hw => ?_, fun u => entityOf_setQuota ..,
      fun w => isSome_quota?_setQuota ..⟩
    have hne : w ≠ entity.wallet := by
      rintro rfl
      exact hw (walletOf_of_entityOf he)
    rw [balance, quota?_setQuota, balance]
    simp [hne]
  · exact (paid_zero s' userId).apart

/-! ### Rows of holds -/

/-- What a hold has taken and not given back. -/
def ComputeHold.outstanding (h : ComputeHold) : Int := h.quota - h.releasedQuota

open ComputeHold

/-- The amounts of a row fit together. -/
structure Sound (h : ComputeHold) : Prop where
  settled_nonneg : 0 ≤ h.settledQuota
  settled_le : h.settledQuota ≤ h.quota
  quota_le : h.quota ≤ maxComputeQuota
  released_active : h.status = .active → h.releasedQuota = 0
  released_closed : h.status ≠ .active → h.releasedQuota = h.quota - h.settledQuota

variable {db : HoldDb} {hold : ComputeHold}

/-- The guard of `casComputeHold` holds of the row it was read from. -/
theorem unmoved_self (hold : ComputeHold) : unmoved hold hold = true := by
  simp [unmoved]

theorem holdId_of_unmoved {r : ComputeHold} (h : unmoved hold r = true) :
    r.holdId = hold.holdId := by
  simp only [unmoved, Bool.and_eq_true, decide_eq_true_eq] at h
  exact h.1

def HoldDb.settledBy (db : HoldDb) (holdId : String) : Int :=
  db.settlements.sum fun e => if e.holdId = holdId then e.quotaDelta else 0

open HoldDb

/-- The step left the ledger alone. -/
structure Quiet (db db' : HoldDb) : Prop where
  holds : db'.holds = db.holds
  settlements : db'.settlements = db.settlements
  paid : Paid db.store 0 0 db'.store

/-- The step opened `hold`. -/
structure Opened (db : HoldDb) (hold : ComputeHold) (db' : HoldDb) : Prop where
  holds : db.holds.insert? hold = some db'.holds
  settlements : db'.settlements = db.settlements
  sound : Sound hold
  active : hold.status = .active
  settled : hold.settledQuota = 0
  funded : Funded db.store hold.userId
  entity : ∃ e, db.store.entityOf hold.userId = some e ∧ hold.tenantId = e.tenantId
  paid : Paid db.store hold.userId hold.outstanding db'.store

/-- The step moved the row of the active hold `hold` to `u.apply hold`. -/
structure Moved (db : HoldDb) (hold : ComputeHold) (u : HoldUpdates) (db' : HoldDb) : Prop where
  find : db.holds.find? hold.holdId = some hold
  active : hold.status = .active
  holds : db'.holds = db.moveHold hold u
  sound : Sound (u.apply hold)
  quota : (u.apply hold).status ≠ .active → (u.apply hold).quota = hold.quota
  paid : Funded db.store hold.userId →
    Paid db.store hold.userId ((u.apply hold).outstanding - hold.outstanding) db'.store
  apart : Apart db.store hold.userId db'.store
  settled : ∀ k, db'.settledBy k = db.settledBy k +
    if hold.holdId = k then (u.apply hold).settledQuota - hold.settledQuota else 0

variable {db' : HoldDb}

theorem settledBy_insert {event : ComputeSettlement}
    (h : db.settlements.insert? event = some db'.settlements) (k : String) :
    db'.settledBy k = db.settledBy k + if event.holdId = k then event.quotaDelta else 0 :=
  sum_insert? h

theorem settledBy_congr (h : db'.settlements = db.settlements) (k : String) :
    db'.settledBy k = db.settledBy k := by
  rw [settledBy, h, settledBy]

/-- **The effect of a step** on rows that fit together. -/
theorem LedgerStep.effect (h : LedgerStep db db') (hsound : ∀ r ∈ db.holds.rows, Sound r) :
    Quiet db db' ∨ (∃ hold, Opened db hold db') ∨ ∃ hold u, Moved db hold u db' := by
  cases h with
  | stay => exact .inl ⟨rfl, rfl, paid_zero _ _⟩
  | token =>
    refine .inl ⟨rfl, rfl, ⟨fun w => ?_, fun _ => rfl, fun w => ?_, fun w h0 => ?_⟩⟩
    · cases w <;> simp [balance, quota?]
    · cases w <;> rfl
    · cases w <;> exact h0
  | @opened hold now entity store holds hpos hmax htake hins =>
    obtain ⟨hpaid, hf, he⟩ := paid_of_take htake
    refine .inr (.inl ⟨_, hins, rfl, ⟨le_refl _, hpos.le, hmax, fun _ => rfl,
      fun hc => absurd rfl hc⟩, rfl, rfl, hf, ⟨entity, he, rfl⟩, ?_⟩)
    simpa [outstanding, freshHold] using hpaid
  | @extended hold extension now _ hpos h =>
    have hs := hsound _ (mem_of_find? h.find)
    obtain ⟨entity, htake⟩ := h.taken
    have hp := (paid_of_take htake).1
    refine .inr (.inr ⟨hold, _, h.find, h.active, h.holds, ?_, fun hc => absurd h.active hc,
      fun _ => ?_, hp.apart, fun k => ?_⟩)
    · exact ⟨hs.settled_nonneg, hs.settled_le.trans (by simp [HoldUpdates.apply]; omega), h.quota_le,
        hs.released_active, fun hc => absurd h.active hc⟩
    · have hn : ∀ a b c : Int, a + c - b - (a - b) = c := by intros; omega
      simpa [outstanding, HoldUpdates.apply] using hp
    · rw [settledBy_congr h.settlements]
      simp [HoldUpdates.apply]
  | @settled hold event final now _ h =>
    have hs := hsound _ (mem_of_find? h.find)
    have hr := hs.released_active h.active
    have hhigh := h.high
    refine .inr (.inr ⟨hold, _, h.find, h.active, h.holds, ?_, fun _ => ?_, fun hf => ?_,
      apart_of_credited h.credited, fun k => ?_⟩)
    · cases final with
      | true =>
        exact ⟨hs.settled_nonneg.trans h.low, h.high, hs.quota_le,
          fun hc => ComputeHoldStatus.noConfusion hc, fun _ => rfl⟩
      | false =>
        exact ⟨hs.settled_nonneg.trans h.low, h.high, hs.quota_le, hs.released_active,
          fun hc => absurd h.active hc⟩
    · cases final <;> rfl
    · have hp := paid_of_credited hf (by split <;> omega) h.credited
      cases final <;> simpa [outstanding, settleUpdates, HoldUpdates.apply, hr] using hp
    · rw [settledBy_insert h.inserted k]
      cases final <;> rfl
  | @closed hold status now store hfind hactive hstatus hcredit =>
    have hs := hsound _ (mem_of_find? hfind)
    have hr := hs.released_active hactive
    have hle := hs.settled_le
    refine .inr (.inr ⟨hold, _, hfind, hactive, rfl, ?_, fun _ => rfl, fun hf => ?_,
      apart_of_credited hcredit, fun k => ?_⟩)
    · refine ⟨hs.settled_nonneg, hs.settled_le, hs.quota_le, fun hc => ?_, fun _ => rfl⟩
      rcases hstatus with rfl | rfl <;> exact ComputeHoldStatus.noConfusion hc
    · have hp := paid_of_credited hf (by rw [remaining]; omega) hcredit
      simpa [outstanding, HoldUpdates.apply, hr] using hp
    · simp [HoldUpdates.apply, settledBy]

/-! ### The invariant -/

/-- What the holds of a wallet still have out. -/
def HoldDb.held (db : HoldDb) (w : Wallet) : Int :=
  db.holds.sum fun h => if db.store.walletOf h.userId = some w then h.outstanding else 0

/-- The spent amount a hold records, `0` for a hold there is not. -/
def HoldDb.settledOf (db : HoldDb) (holdId : String) : Int :=
  ((db.holds.find? holdId).map ComputeHold.settledQuota).getD 0

/-- The invariant of the ledger, relative to the state `db₀` a run began in. -/
structure Balanced (db₀ db : HoldDb) : Prop where
  sound : ∀ r ∈ db.holds.rows, Sound r
  funded : ∀ r ∈ db.holds.rows, Funded db.store r.userId
  settled : ∀ k, db.settledBy k = db₀.settledBy k + db.settledOf k
  entity : ∀ u, db.store.entityOf u = db₀.store.entityOf u
  conserved : ∀ w, db.store.balance w + db.held w = db₀.store.balance w
  nonneg : ∀ w, 0 ≤ db₀.store.balance w → 0 ≤ db.store.balance w

theorem Balanced.init (h : db.holds.rows = []) : Balanced db db where
  sound r hr := by rw [h] at hr; cases hr
  funded r hr := by rw [h] at hr; cases hr
  settled k := by
    rw [settledOf, find?, h]
    simp
  entity _ := rfl
  conserved w := by
    rw [held, sum, h]
    simp
  nonneg _ hw := hw

variable {db₀ : HoldDb}

/-- A payment keeps the books when the holds come to the amount more. -/
theorem Balanced.pay (hb : Balanced db₀ db) (hp : Paid db.store userId n db'.store)
    (hrows : ∀ r ∈ db'.holds.rows, r ∈ db.holds.rows ∨ Sound r ∧ Funded db.store r.userId)
    (hsum : ∀ w, db'.holds.sum (fun h => if db.store.walletOf h.userId = some w
        then h.outstanding else 0) =
      db.held w + if db.store.walletOf userId = some w then n else 0)
    (hsettled : ∀ k, db'.settledBy k = db₀.settledBy k + db'.settledOf k) : Balanced db₀ db' where
  sound r hr := (hrows r hr).elim (hb.sound r) And.left
  funded r hr := hp.funded ((hrows r hr).elim (hb.funded r) And.right)
  settled := hsettled
  entity u := by rw [hp.entity, hb.entity]
  conserved w := by
    simp only [held, hp.walletOf]
    rw [hp.balance, hsum, ← hb.conserved w]
    omega
  nonneg w h0 := hp.nonneg w (hb.nonneg w h0)

theorem Quiet.balanced (h : Quiet db db') (hb : Balanced db₀ db) : Balanced db₀ db' := by
  refine hb.pay h.paid (fun r hr => .inl (h.holds ▸ hr)) (fun w => ?_) fun k => ?_
  · rw [h.holds, ite_self, add_zero, held]
  · rw [settledBy_congr h.settlements, hb.settled, settledOf, settledOf, h.holds]

theorem Opened.balanced (h : Opened db hold db') (hb : Balanced db₀ db) : Balanced db₀ db' := by
  refine hb.pay h.paid (fun r hr => ?_) (fun w => sum_insert? h.holds) fun k => ?_
  · rcases (mem_insert? h.holds).mp hr with hr | rfl
    · exact .inl hr
    · exact .inr ⟨h.sound, h.funded⟩
  rw [settledBy_congr h.settlements, hb.settled, settledOf, settledOf,
    find?_insert? h.holds]
  split
  · rename_i hk
    rw [← hk, (insert?_eq_some_iff.mp h.holds).1, map_some, h.settled]
    rfl
  · rfl

variable {u : HoldUpdates}

theorem Moved.mem_holds {r : ComputeHold} (h : Moved db hold u db') (hr : r ∈ db'.holds.rows) :
    r ∈ db.holds.rows ∨ r = u.apply hold := by
  rw [h.holds] at hr
  obtain ⟨r₀, hr₀, rfl⟩ := mem_update.mp hr
  split
  · rename_i hu
    rw [db.holds.eq_of_key_eq hr₀ (mem_of_find? h.find) (holdId_of_unmoved hu)]
    exact .inr rfl
  · exact .inl hr₀

theorem Moved.find?_holds (h : Moved db hold u db') (k : String) :
    db'.holds.find? k = if k = hold.holdId then some (u.apply hold) else db.holds.find? k := by
  rw [h.holds]
  exact find?_update_at h.find (unmoved_self hold) (fun _ => holdId_of_unmoved) k

/-- A sum over the holds changes by what it changes on the row that moved. -/
theorem Moved.sum_holds (h : Moved db hold u db') (g : ComputeHold → Int) :
    db'.holds.sum g = db.holds.sum g + (g (u.apply hold) - g hold) := by
  rw [h.holds]
  exact sum_update_one h.find (unmoved_self hold) fun _ _ => holdId_of_unmoved

theorem Moved.balanced (h : Moved db hold u db') (hb : Balanced db₀ db) : Balanced db₀ db' := by
  have hfunded := hb.funded hold (mem_of_find? h.find)
  refine hb.pay (h.paid hfunded) (fun r hr => ?_) (fun w => ?_) fun k => ?_
  · rcases h.mem_holds hr with hr | rfl
    · exact .inl hr
    · exact .inr ⟨h.sound, hfunded⟩
  · rw [h.sum_holds, held, show (u.apply hold).userId = hold.userId from rfl]
    split <;> omega
  rw [h.settled, hb.settled, settledOf, settledOf, h.find?_holds]
  by_cases hk : k = hold.holdId
  · rw [hk, h.find, if_pos rfl, if_pos rfl]
    simp only [map_some, getD_some]
    omega
  · rw [if_neg hk, if_neg (Ne.symm hk), add_zero]

/-- **One step keeps the ledger balanced.** -/
theorem LedgerStep.balanced (h : LedgerStep db db') (hb : Balanced db₀ db) : Balanced db₀ db' := by
  rcases h.effect hb.sound with hq | ⟨hold, ho⟩ | ⟨hold, u, hm⟩
  · exact hq.balanced hb
  · exact ho.balanced hb
  · exact hm.balanced hb

/-- A step never touches a hold that is not active. -/
theorem LedgerStep.closed_stays (h : LedgerStep db db') (hb : Balanced db₀ db)
    (hf : db.holds.find? hold.holdId = some hold) (hc : hold.status ≠ .active) :
    db'.holds.find? hold.holdId = some hold := by
  rcases h.effect hb.sound with hq | ⟨opened, ho⟩ | ⟨moved, u, hm⟩
  · rw [hq.holds, hf]
  · rw [find?_insert? ho.holds, if_neg, hf]
    intro hk
    have := (insert?_eq_some_iff.mp ho.holds).1
    rw [hk, hf] at this
    cases this
  · rw [hm.find?_holds, if_neg, hf]
    intro hk
    have := hm.find
    rw [← hk, hf, some.injEq] at this
    exact hc (this ▸ hm.active)

/-! ### Runs -/

theorem balanced_of_run (hr : Relation.ReflTransGen LedgerStep db db') (hb : Balanced db₀ db) :
    Balanced db₀ db' := by
  induction hr with
  | refl => exact hb
  | tail _ hs ih => exact hs.balanced ih

theorem closed_stays_of_run (hr : Relation.ReflTransGen LedgerStep db db') (hb : Balanced db₀ db)
    (hf : db.holds.find? hold.holdId = some hold) (hc : hold.status ≠ .active) :
    db'.holds.find? hold.holdId = some hold := by
  induction hr with
  | refl => exact hf
  | tail hr hs ih => exact hs.closed_stays (balanced_of_run hr hb) ih hc

/-- **The ledger is conserved** in every interleaving of the calls of the bridge that begins without
holds: for each wallet, with what its holds have out; for each hold, with its settlement rows, and
for good once it is closed. -/
theorem ledger_conserved {db : HoldDb} (hempty : db.holds.rows = [])
    {p : Pool HoldCall HoldDb HoldReply} (hr : Pool.Reach HoldCall.prog (Pool.start db) p) :
    (∀ w, p.state.store.balance w + p.state.held w = db.store.balance w) ∧
    (∀ w, 0 ≤ db.store.balance w → 0 ≤ p.state.store.balance w) ∧
    (∀ u, p.state.store.entityOf u = db.store.entityOf u) ∧
    ∀ h ∈ p.state.holds.rows,
      0 ≤ h.settledQuota ∧ h.settledQuota ≤ h.quota ∧ h.quota ≤ maxComputeQuota ∧
      (h.status = .active → h.releasedQuota = 0) ∧
      (h.status ≠ .active → h.releasedQuota = h.quota - h.settledQuota) ∧
      ((∀ e ∈ db.settlements.rows, e.holdId ≠ h.holdId) →
        p.state.settledBy h.holdId = h.settledQuota) ∧
      (h.status ≠ .active → ∀ p', Pool.Reach HoldCall.prog p p' →
        p'.state.holds.find? h.holdId = some h) := by
  obtain ⟨hw, hrun⟩ := ledger_of_reach hr (Pool.safe_start _ _ _)
  have hb : Balanced db p.state := balanced_of_run hrun (Balanced.init hempty)
  refine ⟨hb.conserved, hb.nonneg, hb.entity, fun h hh => ?_⟩
  have hs := hb.sound h hh
  have hf : p.state.holds.find? h.holdId = some h := find?_eq_some_iff.mpr ⟨hh, rfl⟩
  refine ⟨hs.settled_nonneg, hs.settled_le, hs.quota_le, hs.released_active, hs.released_closed,
    fun hno => ?_, fun hc p' hr' => ?_⟩
  · have h0 : db.settledBy h.holdId = 0 :=
      sum_eq_zero fun e he => if_neg (hno e he)
    rw [hb.settled, h0, settledOf, hf]
    simp
  · exact closed_stays_of_run (ledger_of_reach hr' hw).2 hb hf hc

def sharedWalletDb : HoldDb where
  store :=
    { users := ⟨[⟨1, "ada", "Ada", 1, "acme", 0, 7⟩, ⟨2, "bob", "Bob", 1, "acme", 0, 7⟩], by decide⟩
      tenants := ⟨[⟨7, "acme", "acme", 1, 1, 1000, "acme"⟩], by decide⟩
      tokens := ⟨[⟨3, 1, "sk", 500, 0, false⟩], by decide⟩
      customerWallets := ⟨[⟨"acme", 7⟩], by decide⟩ }

/-- A request for a hold of `quota` on the wallet of login `1`. -/
def requestHold (holdId : String) (quota : Int) : HoldCall :=
  .create ⟨holdId, 1, 0, 3, "job", "gpu", quota, 0, 0, 0, .active, 900, 0, 0⟩
    (some ⟨3, 1, "sk", 500, 0, false⟩) 100 fun _ => true

def requestSettle (holdId eventId : String) (quota gpuSeconds : Int) (final : Bool) : HoldCall :=
  .settle holdId ⟨eventId, "", quota, 0, gpuSeconds, false, 0⟩ final 200 fun _ => true

theorem ledger_conserved_settle_release :
    sharedWalletDb.holds.rows = [] ∧
    ∃ db, db = Pool.execs HoldCall.prog
        [requestHold "h" 100, requestSettle "h" "e" 30 60 false, .release "h" 300 (fun _ => true)]
        sharedWalletDb ∧
      db.holds.rows.map ComputeHold.releasedQuota = [70] ∧
      db.store.balance (.tenant 7) + db.held (.tenant 7) = 1000 := by
  obtain ⟨l, hl⟩ := Pool.reach_execs HoldCall.prog
    [requestHold "h" 100, requestSettle "h" "e" 30 60 false, .release "h" 300 (fun _ => true)]
    (fun _ _ _ => trivial) sharedWalletDb []
  exact ⟨rfl, _, rfl, by decide, (ledger_conserved rfl hl).1 (.tenant 7)⟩

end UnifyConsole.Compute
