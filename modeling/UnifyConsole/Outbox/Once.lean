import UnifyConsole.Outbox.Settlement

/-!
# The outbox applies each charge once

`Change` says what any step of any call may do to the outbox: move money only by
a replay of a parked charge whose key is not in the ledger yet, take an item off
a list only when it has been applied or set aside, and set an item aside only
after an error that is not of the connection class.  Every program is shown to
make such steps in the presence of others that do (`Prog.Sat`), and the rest
follows from `Change` alone: the ledger never has two rows of one key, and each
row stands for one application of one parked charge.
-/

namespace UnifyConsole.Outbox

open Lib Account
open Prog Tx Pool List Option Table Store Process

/-! ### Where an item is -/

namespace OutboxDb

def Logged (s : OutboxDb) (log : Log) : Prop :=
  ∃ row ∈ s.logs, (log.requestId = row.requestId ∨ log.requestId = "") ∧ log.type = row.type ∧
    log.userId = row.userId ∧ log.createdAt = row.createdAt ∧ log.quota = row.quota

def HasCharge (s : OutboxDb) (item : PendingSettlement) : Prop :=
  (s.ledger.find? item.key).isSome = true

/-- The item's charge and its log row have been applied. -/
def Applied (s : OutboxDb) (item : PendingSettlement) : Prop :=
  (item.isCharge = true → s.HasCharge item) ∧ ∀ log, item.log = some log → s.Logged log

/-- A Redis element has been applied or set aside. -/
def Settled (s : OutboxDb) (raw : Raw) : Prop :=
  (∃ item, raw = .item item ∧ s.Applied item) ∨ ∃ reason, ⟨raw, reason⟩ ∈ s.redisDead

/-- An item of a process's memory has been applied or set aside. -/
def Released (s : OutboxDb) (pid : Nat) (item : PendingSettlement) : Prop :=
  s.Applied item ∨ ∃ reason, ⟨.item item, reason⟩ ∈ (s.process pid).dead

def charges (s : OutboxDb) : List PendingSettlement :=
  s.parked.filter PendingSettlement.isCharge

def appliedCharges (s : OutboxDb) : List PendingSettlement :=
  s.charges.filter fun item => (s.ledger.find? item.key).isSome

end OutboxDb

/-- Nothing was put on the dead list by an error of the connection class. -/
def Dead.Earned (d : Dead) : Prop := ∀ e, d.reason = .gaveUp e → isConnectionClassError e = false

/-! ### What a step may do -/

/-- One application of the item's charge. -/
structure Replayed (item : PendingSettlement) (s s' : OutboxDb) : Prop where
  absent : s.ledger.find? item.key = none
  ledger : ∃ now, s'.ledger.rows = s.ledger.rows ++ [ledgerRow item now]
  wallet : ∀ w, (s.store.quota? w).isSome = true → s'.store.balance w =
    s.store.balance w - if s.store.walletOf item.userId = some w then item.walletDelta else 0
  token : ∀ id, (s.store.tokens.find? id).isSome = true → s'.store.tokenRemain id =
    s.store.tokenRemain id - if 0 < item.tokenId ∧ id = item.tokenId then item.tokenDelta else 0
  entities : ∀ u, s'.store.entityOf u = s.store.entityOf u
  walletRows : ∀ w, (s'.store.quota? w).isSome = (s.store.quota? w).isSome
  tokenRows : ∀ id, (s'.store.tokens.find? id).isSome = (s.store.tokens.find? id).isSome

structure ProcessChange (s s' : OutboxDb) (pid : Nat) : Prop where
  alive : (s'.process pid).alive = true → (s.process pid).alive = true
  enters : ∀ e ∈ (s'.process pid).memory, e ∈ (s.process pid).memory ∨ e.item ∈ s.parked
  leaves : (s'.process pid).alive = true → ∀ e ∈ (s.process pid).memory,
    e ∈ (s'.process pid).memory ∨ s'.Released pid e.item
  buried : (s'.process pid).alive = true → (s.process pid).dead ⊆ (s'.process pid).dead
  earned : ∀ d ∈ (s'.process pid).dead, d ∈ (s.process pid).dead ∨ d.Earned

structure RedisChange (s s' : OutboxDb) : Prop where
  enters : ∀ item, .item item ∈ s'.redis → .item item ∈ s.redis ∨ item ∈ s.parked
  leaves : ∀ raw, s'.redis.count raw < s.redis.count raw → s'.Settled raw
  buried : s.redisDead ⊆ s'.redisDead
  earned : ∀ d ∈ s'.redisDead, d ∈ s.redisDead ∨ d.Earned

/-- **What any step of any call may do.** -/
structure Change (s s' : OutboxDb) : Prop where
  parked : s.parked ⊆ s'.parked
  logs : s.logs ⊆ s'.logs
  money : (s'.ledger = s.ledger ∧ s'.store = s.store) ∨
    ∃ item ∈ s.parked, item.isCharge = true ∧ Replayed item s s'
  redis : RedisChange s s'
  process : ∀ pid, ProcessChange s s' pid

open Change

variable {pid : Nat} {env : DrainEnv}

section Frame

variable {s s' : OutboxDb}

theorem ProcessChange.of_eq (h : s'.process pid = s.process pid) : ProcessChange s s' pid :=
  ⟨fun ha => h ▸ ha, fun _ he => .inl (h ▸ he), fun _ _ he => .inl (h ▸ he),
    fun _ => h ▸ Subset.refl _, fun _ hd => .inl (h ▸ hd)⟩

theorem RedisChange.of_eq (h : s'.redis = s.redis) (hd : s'.redisDead = s.redisDead) :
    RedisChange s s' :=
  ⟨fun _ hi => .inl (h ▸ hi), fun _ hc => absurd (h ▸ hc) (Nat.lt_irrefl _),
    hd ▸ Subset.refl _, fun _ hm => .inl (hd ▸ hm)⟩

theorem Change.refl (s : OutboxDb) : Change s s :=
  ⟨Subset.refl _, Subset.refl _, .inl ⟨rfl, rfl⟩, .of_eq rfl rfl, fun _ => .of_eq rfl⟩

@[simp] theorem process_setProcess (s : OutboxDb) (pid : Nat) (f : Process → Process) :
    (s.setProcess pid f).process pid = f (s.process pid) := Function.update_self ..

/-- A step on the lists of one process. -/
theorem Change.setProcess {f : Process → Process}
    (ha : (f (s.process pid)).alive = true → (s.process pid).alive = true)
    (henters : ∀ e ∈ (f (s.process pid)).memory, e ∈ (s.process pid).memory ∨ e.item ∈ s.parked)
    (hleaves : (f (s.process pid)).alive = true → ∀ e ∈ (s.process pid).memory,
      e ∈ (f (s.process pid)).memory ∨ (s.setProcess pid f).Released pid e.item)
    (hburied : (f (s.process pid)).alive = true → (s.process pid).dead ⊆ (f (s.process pid)).dead)
    (hearned : ∀ d ∈ (f (s.process pid)).dead, d ∈ (s.process pid).dead ∨ d.Earned) :
    Change s (s.setProcess pid f) := by
  refine ⟨Subset.refl _, Subset.refl _, .inl ⟨rfl, rfl⟩, .of_eq rfl rfl, fun q => ?_⟩
  by_cases hq : q = pid
  · subst hq
    constructor <;> rwa [process_setProcess]
  · exact .of_eq (Function.update_of_ne hq _ _)

/-- A step that touches neither a list nor the life of the process. -/
theorem Change.setProcess_quiet (s : OutboxDb) (pid : Nat) (f : Process → Process)
    (ha : (f (s.process pid)).alive = (s.process pid).alive)
    (hm : (f (s.process pid)).memory = (s.process pid).memory)
    (hd : (f (s.process pid)).dead = (s.process pid).dead) : Change s (s.setProcess pid f) :=
  setProcess (ha ▸ id) (hm ▸ fun _ he => .inl he) (fun _ _ he => .inl (hm ▸ he))
    (fun _ => hd ▸ Subset.refl _) (hd ▸ fun _ hd => .inl hd)

end Frame

/-! ### What stays true -/

section Stable

variable {item : PendingSettlement}

theorem stable_parked : Stable Change (fun s => item ∈ s.parked) :=
  fun _ _ h hi => h.parked hi

theorem stable_hasCharge : Stable Change (fun s => s.HasCharge item) := by
  intro s s' h hc
  unfold OutboxDb.HasCharge at hc ⊢
  rcases h.money with ⟨hl, -⟩ | ⟨other, -, -, hr⟩
  · rw [hl]
    exact hc
  obtain ⟨now, hrows⟩ := hr.ledger
  obtain ⟨row, hrow⟩ := isSome_iff_exists.mp hc
  obtain ⟨hmem, hkey⟩ := find?_eq_some_iff.mp hrow
  have : s'.ledger.find? item.key = some row :=
    find?_eq_some_iff.mpr ⟨by rw [hrows]; exact mem_append_left _ hmem, hkey⟩
  rw [this]
  rfl

theorem stable_logged {log : Log} : Stable Change (fun s => s.Logged log) := by
  rintro s s' h ⟨row, hrow, hsame⟩
  exact ⟨row, h.logs hrow, hsame⟩

theorem stable_applied : Stable Change (fun s => s.Applied item) :=
  fun s s' h ha => ⟨fun hi => stable_hasCharge s s' h (ha.1 hi),
    fun log hl => stable_logged s s' h (ha.2 log hl)⟩

theorem stable_settled {raw : Raw} : Stable Change (fun s => s.Settled raw) := by
  intro s s' h hs
  rcases hs with ⟨item, hr, ha⟩ | ⟨reason, hd⟩
  · exact .inl ⟨item, hr, stable_applied s s' h ha⟩
  · exact .inr ⟨reason, h.redis.buried hd⟩

/-- As long as the process lives, what was released stays released. -/
theorem stable_released :
    Stable Change (fun s => (s.process pid).alive = true → s.Released pid item) := by
  intro s s' h hs ha
  rcases hs ((h.process pid).alive ha) with hp | ⟨reason, hd⟩
  · exact .inl (stable_applied s s' h hp)
  · exact .inr ⟨reason, (h.process pid).buried ha hd⟩

end Stable

/-! ### The replay of a charge -/

section Charge

variable {item : PendingSettlement} {now : Int} {s s' : OutboxDb}

/-- **A replay that commits** applies the charge under a key that was free. -/
theorem chargeTx_ok (h : chargeTx item now s = .ok ((), s')) :
    Replayed item s s' ∧ s' = { s with ledger := s'.ledger, store := s'.store } := by
  unfold chargeTx at h
  simp only [bind_ok, writeSome_ok, when_ok, zoom_ok, adjustBillingQuotaWithTx_ok, Prod.mk.injEq,
    map_eq_some_iff] at h
  obtain ⟨_, _, ⟨_, ⟨ledger, hins, rfl⟩, -, rfl⟩, _, s₁, hw, ht⟩ := h
  obtain ⟨hnone, hrows⟩ := insert?_eq_some_iff.mp hins
  -- the wallet
  have hwallet : s₁ = { s with ledger := ledger, store := s₁.store } ∧
      (∀ w, (s.store.quota? w).isSome = true → s₁.store.balance w = s.store.balance w -
        if s.store.walletOf item.userId = some w then item.walletDelta else 0) ∧
      (∀ u, s₁.store.entityOf u = s.store.entityOf u) ∧
      (∀ w, (s₁.store.quota? w).isSome = (s.store.quota? w).isSome) ∧
      s₁.store.tokens = s.store.tokens := by
    rcases hw with ⟨-, _, _, ⟨_, _, ⟨-, entity, he, -, rfl⟩, rfl, rfl⟩, -, rfl⟩ | ⟨h0, -, rfl⟩
    · refine ⟨rfl, fun w hrow => ?_, fun u => entityOf_setQuota .., fun w => ?_, ?_⟩
      · rw [balance_add_of_row hrow, walletOf, he]
        by_cases hw : w = entity.wallet
        · simp [hw]
          omega
        · have : ¬ entity.wallet = w := fun h => hw h.symm
          simp [hw, this]
      · exact isSome_quota?_setQuota ..
      · exact tokens_setQuota ..
    · have h0 : item.walletDelta = 0 := not_not.mp h0
      exact ⟨rfl, fun w _ => by simp [h0], fun _ => rfl, fun _ => rfl, rfl⟩
  obtain ⟨hs₁, hbal, hent, hrow, htok⟩ := hwallet
  -- the token
  rcases ht with ⟨⟨-, hpos⟩, -, rfl⟩ | ⟨hno, -, rfl⟩
  · refine ⟨⟨hnone, ⟨now, ?_⟩, fun w hw => ?_, fun id hid => ?_, hent, fun w => ?_,
      fun id => ?_⟩, ?_⟩
    · rw [← hrows, hs₁]
    · show (s₁.store.decreaseTokenQuota _ _).balance w = _
      exact hbal w hw
    · show (s₁.store.decreaseTokenQuota _ _).tokenRemain id = _
      rw [decreaseTokenQuota_eq,
        tokenRemain_increaseTokenQuota (by rw [htok]; exact hid),
        tokenRemain, htok, ← tokenRemain]
      split <;> omega
    · show ((s₁.store.decreaseTokenQuota _ _).quota? w).isSome = _
      exact hrow w
    · show ((s₁.store.decreaseTokenQuota _ _).tokens.find? id).isSome = _
      rw [Store.decreaseTokenQuota, Table.isSome_find?_update, htok]
    · rw [hs₁]
  · refine ⟨⟨hnone, ⟨now, by rw [hs₁]; exact hrows⟩, hbal, fun id hid => ?_, hent, hrow,
      fun id => by rw [htok]⟩, ?_⟩
    · rw [tokenRemain, htok, ← tokenRemain]
      by_cases hc : 0 < item.tokenId ∧ id = item.tokenId
      · have : item.tokenDelta = 0 := by
          by_contra hne
          exact hno ⟨hne, hc.1⟩
        simp [this]
      · simp [hc]
    · rw [hs₁]

/-- A replay that finds its key leaves because of it. -/
theorem chargeTx_already (h : chargeTx item now s = .error .settlementAlreadyApplied) :
    s.HasCharge item := by
  unfold chargeTx at h
  simp only [bind_error, writeSome_error, when_error, zoom_error, write_error,
    pure_error, map_eq_none_iff, reduceCtorEq, and_false, exists_false, or_false,
    and_true] at h
  obtain ⟨row, hrow⟩ := insert?_eq_none_iff.mp h
  exact isSome_iff_exists.mpr ⟨row, hrow⟩

end Charge

variable {item : PendingSettlement} {s s' : OutboxDb}

theorem Replayed.hasCharge (h : Replayed item s s') : s'.HasCharge item := by
  obtain ⟨now, hrows⟩ := h.ledger
  have hmem : ledgerRow item now ∈ s'.ledger.rows := by
    rw [hrows]
    exact mem_append_right _ (mem_singleton_self _)
  have hfind : s'.ledger.find? item.key = some (ledgerRow item now) :=
    find?_eq_some_iff.mpr ⟨hmem, rfl⟩
  exact isSome_iff_exists.mpr ⟨_, hfind⟩

theorem Change.charge {now : Int} (hparked : item ∈ s.parked) (hc : item.isCharge = true)
    (h : chargeTx item now s = .ok ((), s')) : Change s s' := by
  obtain ⟨hr, he⟩ := chargeTx_ok h
  have hp : s'.parked = s.parked := by rw [he]
  have hl : s'.logs = s.logs := by rw [he]
  have hq : s'.process = s.process := by rw [he]
  refine ⟨hp ▸ Subset.refl _, hl ▸ Subset.refl _, .inr ⟨item, hparked, hc, hr⟩,
    .of_eq (by rw [he]) (by rw [he]), fun pid => .of_eq (congrFun hq pid)⟩

/-! ### Transactions under a fault -/

section Fault

variable {α : Type} {fault : Fault} {x : Tx OutboxDb ReplayError α} {s : OutboxDb}

/-- The state is as before, or as a body that succeeded left it. -/
theorem Fault.run_state (fault : Fault) (x : Tx OutboxDb ReplayError α) (s : OutboxDb) :
    (fault.run x s).2 = s ∨ ∃ a, x s = .ok (a, (fault.run x s).2) := by
  cases fault with
  | refused => exact .inl rfl
  | none | lost =>
    rcases run_cases true (.driver .other) x s with ⟨a, ha, -⟩ | ⟨hs, -⟩
    · exact .inr ⟨a, ha⟩
    · exact .inl hs

theorem Fault.run_ok {a : α} (h : (fault.run x s).1 = .ok a) :
    x s = .ok (a, (fault.run x s).2) := by
  cases fault with
  | refused => cases h
  | lost => cases h
  | none =>
    rcases run_cases true (.driver .other) x s with ⟨b, hb, hr⟩ | ⟨-, e, hr⟩
    · rw [show (Fault.run .none x s).1 = .ok b from hr] at h
      cases h
      exact hb
    · rw [show (Fault.run .none x s).1 = .error e from hr] at h
      cases h

theorem Fault.run_already (h : (fault.run x s).1 = .error .settlementAlreadyApplied) :
    (fault.run x s).2 = s ∧ x s = .error .settlementAlreadyApplied := by
  cases fault with
  | refused => cases h
  | lost => cases h
  | none =>
    simp only [Fault.run, Tx.run] at h ⊢
    cases hx : x s with
    | error =>
      rw [hx] at h
      cases h
      exact ⟨rfl, rfl⟩
    | ok =>
      rw [hx] at h
      cases h

end Fault

/-! ### The programs make such steps -/

theorem sat_applyPendingCharge {env : ReplayEnv} (hc : item.isCharge = true) :
    (applyPendingCharge env item).Sat Change (fun r s => r = .ok () → s.HasCharge item)
      (fun s => item ∈ s.parked) := by
  refine sat_bind (M := fun r s => ignoreAlreadyApplied r = .ok () → s.HasCharge item) ?_
    (fun r => sat_pure fun s hs => hs)
  refine sat_atomic (fun r => stable_hasCharge.of_imp) fun s hs => ⟨?_, fun hr => ?_⟩
  · rcases env.charge.run_state (chargeTx item env.now) s with he | ⟨a, ha⟩
    · rw [he]
      exact Change.refl s
    · exact charge hs hc ha
  cases hrun : (env.charge.run (chargeTx item env.now) s).1 with
  | ok => exact (chargeTx_ok (Fault.run_ok hrun)).1.hasCharge
  | error e =>
    rw [hrun] at hr
    cases e with
    | driver => cases hr
    | account => cases hr
    | settlementAlreadyApplied =>
      obtain ⟨he, hx⟩ := Fault.run_already hrun
      rw [he]
      exact chargeTx_already hx

variable {log : Log}

theorem resolveLogTenant_ok {env : ReplayEnv} {log' : Log}
    (h : resolveLogTenant env item log s = .ok log') :
    ∃ tenantId, log' = { log with tenantId := tenantId } := by
  unfold resolveLogTenant at h
  split at h
  · split at h
    · cases h
    · split at h <;> cases h
      all_goals exact ⟨_, rfl⟩
  · cases h
    exact ⟨log.tenantId, rfl⟩

theorem logged_of_any {tenantId : Int}
    (h : s.logs.any ({ log with tenantId := tenantId } : Log).sameCharge = true) :
    s.Logged log := by
  obtain ⟨row, hrow, hsame⟩ := any_eq_true.mp h
  simp only [Log.sameCharge, Bool.and_eq_true, decide_eq_true_eq] at hsame
  obtain ⟨⟨⟨⟨hid, ht⟩, hu⟩, hc⟩, hq⟩ := hsame
  exact ⟨row, hrow, .inl hid, ht, hu, hc, hq⟩

theorem createLog_ok {newRequestId : String} {u : Unit}
    (h : createLog newRequestId log s = .ok (u, s')) :
    Change s s' ∧ ∀ tenantId, s'.Logged { log with tenantId := tenantId } := by
  obtain ⟨-, rfl⟩ := Prod.mk.inj (write_ok.mp h)
  refine ⟨⟨Subset.refl _, subset_append_left _ _, .inl ⟨rfl, rfl⟩, .of_eq rfl rfl,
    fun _ => .of_eq rfl⟩, fun tenantId => ?_⟩
  refine ⟨_, mem_append_right _ (mem_singleton_self _), ?_⟩
  split
  · rename_i hid
    exact ⟨.inr hid, rfl, rfl, rfl, rfl⟩
  · exact ⟨.inl rfl, rfl, rfl, rfl, rfl⟩

theorem sat_applyPendingLog {env : ReplayEnv} :
    (applyPendingLog env item log).Sat Change (fun r s => r = .ok () → s.Logged log)
      (fun _ => True) := by
  refine sat_bind (M := fun r _ => ∀ log', r = .ok log' →
    ∃ tenantId, log' = { log with tenantId := tenantId }) ?_ fun r => ?_
  · refine sat_look refl (fun r => fun _ _ _ h => h) fun s _ log' h => ?_
    exact resolveLogTenant_ok h
  cases r with
  | error => exact sat_pure nofun
  | ok log' =>
    refine sat_bind (M := fun existing s => (∃ tenantId, log' =
      { log with tenantId := tenantId }) ∧ (existing = true → s.Logged log)) ?_
      (fun existing => ?_)
    · refine sat_look refl (fun b => Stable.and (fun _ _ _ h => h)
        stable_logged.of_imp) fun s hs => ?_
      obtain ⟨tenantId, rfl⟩ := hs _ rfl
      exact ⟨⟨tenantId, rfl⟩, logged_of_any⟩
    cases env.count with
    | some => exact sat_pure nofun
    | none =>
      cases existing with
      | true => exact sat_pure fun s hs _ => hs.2 rfl
      | false =>
        refine sat_atomic (fun r => stable_logged.of_imp)
          (fun s hs => ⟨?_, fun hr => ?_⟩)
        · rcases env.create.run_state (createLog env.newRequestId log') s with he | ⟨a, ha⟩
          · rw [he]
            exact refl s
          · exact (createLog_ok ha).1
        · obtain ⟨⟨tenantId, rfl⟩, -⟩ := hs
          exact (createLog_ok (Fault.run_ok hr)).2 log.tenantId

/-- **A replay that reports success has applied the item.** -/
theorem sat_applyPendingSettlement {env : ReplayEnv} :
    (applyPendingSettlement env item).Sat Change (fun r s => r = .ok () → s.Applied item)
      (fun s => item ∈ s.parked) := by
  refine sat_bind (M := fun (r : Except ReplayError Unit) (s : OutboxDb) => r = .ok () →
    item.isCharge = true → s.HasCharge item) ?_ fun r => ?_
  · split
    · rename_i hc
      exact (sat_applyPendingCharge hc).mono fun r s h hr _ => h hr
    · rename_i hc
      exact sat_pure fun s _ _ h => absurd h hc
  cases r with
  | error => exact sat_pure nofun
  | ok =>
    cases hlog : item.log with
    | none =>
      exact sat_pure fun s hs _ => ⟨hs rfl, fun log hl => by rw [hlog] at hl; cases hl⟩
    | some log =>
      refine Sat.mono (Sat.weaken (sat_applyPendingLog.frame
        (F := fun s => item.isCharge = true → s.HasCharge item) stable_hasCharge.of_imp)
        (fun s hs => ⟨trivial, hs rfl⟩)) fun r s hs hr => ⟨hs.2, fun log' hl => ?_⟩
      rw [hlog] at hl
      cases hl
      exact hs.1 hr

theorem within_forgetAttempts {key : String} : (forgetAttempts pid key).Within Change :=
  within_atomic fun s => setProcess_quiet s pid (forget key) rfl rfl rfl

/-- An item is set aside for an error that is not of the connection class. -/
theorem sat_recordReplayFailure {e : ReplayError} {P : OutboxDb → Prop} (hP : Stable Change P) :
    (recordReplayFailure pid item e).Sat Change
      (fun setAside s => P s ∧ (setAside = true → isConnectionClassError e = false)) P := by
  unfold recordReplayFailure
  split
  · exact sat_pure fun s hs => ⟨hs, nofun⟩
  rename_i hne
  refine sat_atomic (fun b => hP.and fun _ _ _ h => h) fun s hs => ?_
  have hch := setProcess_quiet s pid (countFailure item.key) rfl rfl rfl
  exact ⟨hch, hP _ _ hch hs, fun _ => by simpa using hne⟩

/-- **The replay of one item** ends with the item applied, set aside for an error that is not of the
connection class, or left. -/
theorem sat_replay {β : Type} {env : ReplayEnv} {good skip : Prog OutboxDb β}
    {aside : ReplayError → Prog OutboxDb β} {P : OutboxDb → Prop} {Q : β → OutboxDb → Prop}
    (hP : Stable Change P) (hgood : good.Sat Change Q fun s => P s ∧ s.Applied item)
    (haside : ∀ e, (aside e).Sat Change Q fun s => P s ∧ isConnectionClassError e = false)
    (hskip : skip.Sat Change Q P) :
    Prog.Sat Change Q (fun s => item ∈ s.parked ∧ P s) (do
      let r ← applyPendingSettlement env item
      match r with
      | .ok _ => do
        forgetAttempts pid item.key
        good
      | .error e => do
        let setAside ← recordReplayFailure pid item e
        if setAside then aside e else skip) := by
  refine sat_bind (sat_applyPendingSettlement.frame hP) fun r => ?_
  cases r with
  | ok =>
    refine sat_bind (M := fun _ s => P s ∧ s.Applied item) ?_ fun _ => hgood
    exact (sat_of_within within_forgetAttempts (hP.and stable_applied)
      (fun _ _ h => h)).weaken fun s hs => ⟨hs.2, hs.1 rfl⟩
  | error e =>
    refine sat_bind ((sat_recordReplayFailure hP).weaken fun s hs => hs.2)
      (fun setAside => ?_)
    cases setAside with
    | false => exact hskip.weaken fun s hs => hs.1
    | true => exact (haside e).weaken fun s hs => ⟨hs.1, hs.2 rfl⟩

/-! ### Draining -/

def Batch (pid : Nat) (batch done : List Entry) (s : OutboxDb) : Prop :=
  (∀ e ∈ batch, e.item ∈ s.parked) ∧
    ∀ e ∈ done, (s.process pid).alive = true → s.Released pid e.item

theorem stable_batch {batch done : List Entry} : Stable Change (Batch pid batch done) :=
  (stable_forall_mem (fun _ => stable_parked) batch).and
    (stable_forall_mem (fun _ => stable_released) done)

theorem Batch.tail {entry : Entry} {batch done : List Entry}
    (h : Batch pid (entry :: batch) done s) : Batch pid batch done s :=
  ⟨fun e he => h.1 e (mem_cons_of_mem _ he), h.2⟩

theorem Batch.done {entry : Entry} {batch done : List Entry} (h : Batch pid batch done s)
    (hr : s.Released pid entry.item) : Batch pid batch (entry :: done) s := by
  refine ⟨h.1, fun e he => ?_⟩
  rcases mem_cons.mp he with rfl | he
  · exact fun _ => hr
  · exact h.2 e he

theorem change_bury (s : OutboxDb) (pid : Nat) (item : PendingSettlement) {e : ReplayError}
    (he : isConnectionClassError e = false) : Change s (s.setProcess pid (Process.bury item e)) := by
  refine setProcess id (fun _ hx => .inl hx) (fun _ _ hx => .inl hx)
    (fun _ => subset_append_left _ _) fun d hd => ?_
  rcases mem_append.mp hd with hd | hd
  · exact .inl hd
  rw [mem_singleton] at hd
  subst hd
  refine .inr fun e' h' => ?_
  cases h'
  exact he

theorem sat_replayMemory {batch done : List Entry} {k applied : Nat} :
    (replayMemory pid env batch k done applied).Sat Change
      (fun r s => Batch pid [] r.1 s) (Batch pid batch done) := by
  induction batch generalizing k done applied with
  | nil => exact sat_pure fun s hs => hs
  | cons entry batch ih =>
    refine (sat_replay stable_batch ?_ (fun e => ?_) ih).weaken
      (fun s hs => ⟨hs.1 entry mem_cons_self, hs.tail⟩)
    · exact ih.weaken fun s hs => hs.1.done (.inl hs.2)
    · refine sat_bind (M := fun _ => Batch pid batch (entry :: done)) ?_ fun _ => ih
      refine sat_atomic (fun _ => stable_batch) fun s hs => ?_
      have hch := change_bury s pid entry.item hs.2
      refine ⟨hch, (stable_batch _ _ hch hs.1).done (.inr ⟨.gaveUp e, ?_⟩)⟩
      rw [process_setProcess]
      exact mem_append_right _ (mem_singleton_self _)

/-- What is on a list was parked. -/
def Known (s : OutboxDb) : Prop :=
  (∀ pid, ∀ e ∈ (s.process pid).memory, e.item ∈ s.parked) ∧
    ∀ item, .item item ∈ s.redis → item ∈ s.parked

theorem stable_known : Stable Change Known := by
  rintro s s' h ⟨hm, hr⟩
  refine ⟨fun pid e he => ?_, fun item hi => ?_⟩
  · rcases (h.process pid).enters e he with he | he
    · exact h.parked (hm pid e he)
    · exact h.parked he
  · rcases h.redis.enters item hi with hi | hi
    · exact h.parked (hr item hi)
    · exact h.parked hi

/-- The compaction drops what the drain is done with. -/
theorem change_compact {done : List Entry} (h : Batch pid [] done s) :
    Change s (s.setProcess pid (compact done)) := by
  refine setProcess id (fun e he => .inl (mem_of_mem_filter he)) (fun ha e he => ?_)
    (fun _ => Subset.refl _) fun _ hd => .inl hd
  by_cases hd : e ∈ done
  · refine .inr ((h.2 e hd ha).imp id fun hr => ?_)
    rw [process_setProcess]
    exact hr
  · exact .inl (mem_filter.mpr ⟨he, by simpa using hd⟩)

theorem sat_drainMemoryOutbox :
    (drainMemoryOutbox pid env).Sat Change (fun _ _ => True) Known := by
  refine sat_bind (M := fun batch => Batch pid batch []) ?_ fun batch => ?_
  · refine sat_look refl (fun _ => stable_batch) fun s hs => ?_
    exact ⟨hs.1 pid, fun e he => absurd he not_mem_nil⟩
  split
  · exact sat_pure fun _ _ => trivial
  · refine sat_bind sat_replayMemory fun r => ?_
    exact sat_atomic (fun _ => stable_true _) fun s hs => ⟨change_compact hs, trivial⟩

theorem change_redisDead (s : OutboxDb) (raw : Raw) {reason : Reason}
    (h : Dead.Earned ⟨raw, reason⟩) :
    Change s { s with redisDead := s.redisDead ++ [⟨raw, reason⟩] } := by
  refine ⟨Subset.refl _, Subset.refl _, .inl ⟨rfl, rfl⟩, ⟨fun _ hi => .inl hi,
    fun _ hc => absurd hc (Nat.lt_irrefl _), subset_append_left _ _, fun d hd => ?_⟩,
    fun _ => .of_eq rfl⟩
  rcases mem_append.mp hd with hd | hd
  · exact .inl hd
  · rw [mem_singleton] at hd
    subst hd
    exact .inr h

theorem change_erase {raw : Raw} (h : s.Settled raw) :
    Change s { s with redis := s.redis.erase raw } := by
  refine ⟨Subset.refl _, Subset.refl _, .inl ⟨rfl, rfl⟩, ⟨fun _ hi =>
    .inl (mem_of_mem_erase hi), fun other hc => ?_, Subset.refl _, fun _ hd => .inl hd⟩,
    fun _ => .of_eq rfl⟩
  by_cases ho : other = raw
  · subst ho
    exact h
  · exact absurd hc (by simp [count_erase_of_ne ho])

/-- What the loop over the elements read from Redis knows. -/
def Readable (raws : List Raw) (s : OutboxDb) : Prop :=
  ∀ raw ∈ raws, ∀ item, raw = .item item → item ∈ s.parked

theorem stable_readable {raws : List Raw} : Stable Change (Readable raws) :=
  fun _ _ hR h raw hr item hi => hR.parked (h raw hr item hi)

/-- Burying an element makes it settled. -/
theorem sat_bury {raw : Raw} {reason : Reason} {raws : List Raw} :
    (bury raw reason).Sat Change (fun _ s => Readable raws s ∧ s.Settled raw)
      (fun s => Readable raws s ∧ Dead.Earned ⟨raw, reason⟩) := by
  refine sat_atomic (fun _ => stable_readable.and stable_settled)
    (fun s hs => ?_)
  have hch := change_redisDead s raw hs.2
  exact ⟨hch, stable_readable _ _ hch hs.1,
    .inr ⟨reason, mem_append_right _ (mem_singleton_self _)⟩⟩

/-- A settled element may be dequeued. -/
theorem sat_lRem {goes : Bool} {raw : Raw} {raws : List Raw} :
    (lRem goes raw).Sat Change (fun _ => Readable raws)
      (fun s => Readable raws s ∧ s.Settled raw) := by
  refine sat_atomic (fun _ => stable_readable) fun s hs => ?_
  cases goes with
  | false => exact ⟨refl s, hs.1⟩
  | true => exact ⟨change_erase hs.2, stable_readable _ _ (change_erase hs.2) hs.1⟩

theorem sat_replayRedis {raws : List Raw} {k applied : Nat} :
    (replayRedis pid env raws k applied).Sat Change (fun _ _ => True) (Readable raws) := by
  induction raws generalizing k applied with
  | nil => exact sat_pure fun _ _ => trivial
  | cons raw raws ih =>
    have htail : ∀ s, Readable (raw :: raws) s → Readable raws s :=
      fun s hs r hr => hs r (mem_cons_of_mem _ hr)
    have hrem : ∀ goes k applied, (do
        lRem goes raw
        replayRedis pid env raws k applied).Sat Change (fun _ _ => True)
        (fun s => Readable raws s ∧ s.Settled raw) :=
      fun goes k applied => sat_bind sat_lRem fun _ => ih
    cases raw with
    | unreadable =>
      exact sat_bind (sat_bury.weaken
        (fun s hs => ⟨htail s hs, nofun⟩)) fun _ => hrem _ _ _
    | item item =>
      refine (sat_replay stable_readable ?_ (fun e => ?_) ih).weaken
        (fun s hs => ⟨hs _ mem_cons_self item rfl, htail s hs⟩)
      · exact (hrem _ _ _).weaken fun s hs => ⟨hs.1, .inl ⟨item, rfl, hs.2⟩⟩
      · refine sat_bind (sat_bury.weaken fun s hs => ⟨hs.1, fun e' h' => ?_⟩)
          (fun _ => hrem _ _ _)
        cases h'
        exact hs.2

theorem sat_drainRedisOutbox :
    (drainRedisOutbox pid env).Sat Change (fun _ _ => True) Known := by
  unfold drainRedisOutbox
  split
  · refine sat_bind (M := Readable) ?_ fun raws => ?_
    · refine sat_look refl (fun _ => stable_readable) fun s hs raw hr item hi => ?_
      subst hi
      exact hs.2 item (mem_of_mem_take hr)
    · refine sat_bind sat_replayRedis fun applied => ?_
      exact sat_look refl (fun _ => stable_true _) fun _ _ => trivial
  · exact sat_pure fun _ _ => trivial

theorem sat_drainSettlementOutbox :
    (drainSettlementOutbox pid env).Sat Change (fun _ _ => True) Known := by
  refine sat_bind (M := fun _ => Known) ?_ fun locked => ?_
  · refine sat_atomic (fun _ => stable_known) fun s hs => ?_
    have hch : Change s (lockDrain pid s).2 := by
      unfold lockDrain
      split
      · exact refl s
      · exact setProcess_quiet s pid (setDraining true) rfl rfl rfl
    exact ⟨hch, stable_known _ _ hch hs⟩
  cases locked with
  | false => exact sat_pure fun _ _ => trivial
  | true =>
    refine sat_bind ((sat_drainMemoryOutbox.frame stable_known).weaken
      (fun s hs => ⟨hs, hs⟩)) fun m => ?_
    refine sat_bind (M := fun _ _ => True) ?_ fun r => ?_
    · split
      · exact sat_drainRedisOutbox.weaken fun s hs => hs.2
      · exact sat_pure fun _ _ => trivial
    · refine sat_bind (M := fun _ _ => True) ?_ fun _ => sat_pure fun _ _ => trivial
      exact sat_atomic (fun _ => stable_true _) fun s _ =>
        ⟨setProcess_quiet s pid (setDraining false) rfl rfl rfl, trivial⟩

theorem change_rPush (h : item ∈ s.parked) (push : Push) :
    Change s (rPush push (.item item) s).2 := by
  have happend : Change s { s with redis := s.redis ++ [.item item] } := by
    refine ⟨Subset.refl _, Subset.refl _, .inl ⟨rfl, rfl⟩, ⟨fun other ho => ?_,
      fun raw hc => ?_, Subset.refl _, fun _ hd => .inl hd⟩, fun _ => .of_eq rfl⟩
    · rcases mem_append.mp ho with ho | ho
      · exact .inl ho
      · rw [mem_singleton] at ho
        cases ho
        exact .inr h
    · rw [count_append] at hc
      omega
  cases push with
  | accepted | lost => exact happend
  | failed => exact refl s

theorem change_hold (h : item ∈ s.parked) (pid : Nat) :
    Change s (s.setProcess pid (Process.hold item)) := by
  by_cases hfull : settlementOutboxMemoryLimit ≤ (s.process pid).memory.length
  · have heq : (s.process pid).hold item = s.process pid := if_pos hfull
    exact setProcess_quiet s pid _ (by rw [heq]) (by rw [heq]) (by rw [heq])
  have heq : (s.process pid).hold item = _ := if_neg hfull
  refine setProcess ?_ (fun e he => ?_) (fun _ e he => .inl ?_) ?_ ?_
  · rw [heq]
    exact id
  · rw [heq] at he
    rcases mem_append.mp he with he | he
    · exact .inl he
    · rw [mem_singleton.mp he]
      exact .inr h
  · rw [heq]
    exact mem_append_left _ he
  · rw [heq]
    exact fun _ => Subset.refl _
  · rw [heq]
    exact fun d hd => .inl hd

theorem sat_parkSettlement {push : Option Push} :
    (parkSettlement pid push item).Sat Change (fun _ _ => True) Known := by
  refine sat_bind (M := fun _ s => item ∈ s.parked) ?_ fun _ => ?_
  · refine sat_atomic (fun _ => stable_parked) fun s _ => ⟨?_, ?_⟩
    · exact ⟨subset_append_left _ _, Subset.refl _, .inl ⟨rfl, rfl⟩, .of_eq rfl rfl,
        fun _ => .of_eq rfl⟩
    · exact mem_append_right _ (mem_singleton_self _)
  refine sat_bind (M := fun _ s => item ∈ s.parked) ?_ fun pushed => ?_
  · cases push with
    | none => exact sat_pure fun _ hs => hs
    | some push =>
      refine sat_atomic (fun _ => stable_parked) fun s hs => ?_
      exact ⟨change_rPush hs push, stable_parked _ _ (change_rPush hs push) hs⟩
  · cases pushed with
    | true => exact sat_pure fun _ _ => trivial
    | false => exact sat_atomic (fun _ => stable_true _) fun s hs =>
        ⟨change_hold hs pid, trivial⟩

theorem change_crash (s : OutboxDb) (pid : Nat) : Change s (s.setProcess pid Process.crash) := by
  apply setProcess <;> simp [crash]

/-- **Every call makes steps that `Change` allows.** -/
theorem sat_prog (c : OutboxCall) : c.prog.Sat Change (fun _ _ => True) Known := by
  cases c with
  | park => exact sat_parkSettlement
  | drain => exact sat_bind sat_drainSettlementOutbox fun _ => sat_pure fun _ _ => trivial
  | crash pid =>
    exact sat_atomic (fun _ => stable_true _) fun s _ => ⟨change_crash s pid, trivial⟩

/-! ### The books of a run -/

structure OutboxDb.Fresh (s : OutboxDb) : Prop where
  ledger : s.ledger = Table.empty
  redis : ∀ item, .item item ∉ s.redis
  memory : ∀ pid, (s.process pid).memory = []
  dead : ∀ pid, (s.process pid).dead = []
  redisDead : s.redisDead = []

/-- What the ledger says was taken from a wallet, for logins as in `st`. -/
def walletShare (st : Store) (w : Wallet) (userId delta : Int) : Int :=
  if st.walletOf userId = some w then delta else 0

def tokenShare (id tokenId delta : Int) : Int := if 0 < tokenId ∧ id = tokenId then delta else 0

/-- The state of a run that began in `s₀`. -/
structure Books (s₀ s : OutboxDb) : Prop where
  entities : ∀ u, s.store.entityOf u = s₀.store.entityOf u
  walletRows : ∀ w, (s.store.quota? w).isSome = (s₀.store.quota? w).isSome
  tokenRows : ∀ id, (s.store.tokens.find? id).isSome = (s₀.store.tokens.find? id).isSome
  rows : ∀ row ∈ s.ledger.rows, ∃ item ∈ s.parked, item.isCharge = true ∧
    ∃ now, row = ledgerRow item now
  wallet : ∀ w, (s₀.store.quota? w).isSome = true → s.store.balance w = s₀.store.balance w -
    s.ledger.sum (fun row => walletShare s₀.store w row.userId row.walletDelta)
  token : ∀ id, (s₀.store.tokens.find? id).isSome = true →
    s.store.tokenRemain id = s₀.store.tokenRemain id -
      s.ledger.sum (fun row => tokenShare id row.tokenId row.tokenDelta)
  earned : (∀ d ∈ s.redisDead, d.Earned) ∧ ∀ pid, ∀ d ∈ (s.process pid).dead, d.Earned

theorem OutboxDb.Fresh.books (h : s.Fresh) : Books s s where
  entities _ := rfl
  walletRows _ := rfl
  tokenRows _ := rfl
  rows row hrow := by
    rw [h.ledger] at hrow
    exact absurd hrow not_mem_nil
  wallet w _ := by simp [h.ledger]
  token id _ := by simp [h.ledger]
  earned := by
    refine ⟨fun d hd => ?_, fun pid d hd => ?_⟩
    · rw [h.redisDead] at hd
      exact absurd hd not_mem_nil
    · rw [h.dead pid] at hd
      exact absurd hd not_mem_nil

theorem OutboxDb.Fresh.known (h : s.Fresh) : Known s := by
  refine ⟨fun pid e he => ?_, fun item hi => absurd hi (h.redis item)⟩
  rw [h.memory pid] at he
  exact absurd he not_mem_nil

theorem sum_append_row {row : SettlementLedger} (h : s'.ledger.rows = s.ledger.rows ++ [row])
    (g : SettlementLedger → Int) : s'.ledger.sum g = s.ledger.sum g + g row := by
  rw [Table.sum, h, map_append, sum_append, map_singleton, sum_singleton,
    Table.sum]

variable {s₀ : OutboxDb}

theorem Books.change (h : Books s₀ s) (hc : Change s s') : Books s₀ s' := by
  have hearned : (∀ d ∈ s'.redisDead, d.Earned) ∧
      ∀ pid, ∀ d ∈ (s'.process pid).dead, d.Earned := by
    refine ⟨fun d hd => ?_, fun pid d hd => ?_⟩
    · rcases hc.redis.earned d hd with hd | hd
      · exact h.earned.1 d hd
      · exact hd
    · rcases (hc.process pid).earned d hd with hd | hd
      · exact h.earned.2 pid d hd
      · exact hd
  rcases hc.money with ⟨hl, hs⟩ | ⟨item, hitem, hcharge, hr⟩
  · refine ⟨by rw [hs]; exact h.entities, by rw [hs]; exact h.walletRows,
      by rw [hs]; exact h.tokenRows,
      fun row hrow => ?_, by rw [hs, hl]; exact h.wallet, by rw [hs, hl]; exact h.token, hearned⟩
    rw [hl] at hrow
    obtain ⟨item, hitem, hi⟩ := h.rows row hrow
    exact ⟨item, hc.parked hitem, hi⟩
  obtain ⟨now, hrows⟩ := hr.ledger
  refine ⟨fun u => (hr.entities u).trans (h.entities u),
    fun w => (hr.walletRows w).trans (h.walletRows w),
    fun id => (hr.tokenRows id).trans (h.tokenRows id), fun row hrow => ?_, fun w hw => ?_,
    fun id hid => ?_, hearned⟩
  · rw [hrows] at hrow
    rcases mem_append.mp hrow with hrow | hrow
    · obtain ⟨item, hitem, hi⟩ := h.rows row hrow
      exact ⟨item, hc.parked hitem, hi⟩
    · exact ⟨item, hc.parked hitem, hcharge, now, mem_singleton.mp hrow⟩
  · have hwalletOf : s.store.walletOf item.userId = s₀.store.walletOf item.userId := by
      rw [walletOf, h.entities, walletOf]
    rw [sum_append_row hrows, hr.wallet w (by rw [h.walletRows]; exact hw), h.wallet w hw,
      hwalletOf]
    exact Int.sub_sub _ _ _
  · rw [sum_append_row hrows, hr.token id (by rw [h.tokenRows]; exact hid), h.token id hid]
    exact Int.sub_sub _ _ _

/-- With distinct keys, the ledger is the list of the charges that were applied. -/
theorem Books.sum_eq (h : Books s₀ s) (hkeys : (s.charges.map PendingSettlement.key).Nodup)
    {g : SettlementLedger → Int} (g' : PendingSettlement → Int)
    (hg : ∀ item now, g (ledgerRow item now) = g' item) :
    s.ledger.sum g = (s.appliedCharges.map g').sum := by
  have hnd : (s.appliedCharges.map PendingSettlement.key).Nodup :=
    hkeys.sublist (filter_sublist.map _)
  have happlied : ∀ item ∈ s.appliedCharges, (s.ledger.find? item.key).isSome = true := by
    intro item hi
    simpa using (mem_filter.mp hi).2
  show _ = sum (⟨s.appliedCharges, hnd⟩ : Table PendingSettlement.key) g'
  refine sum_congr_find fun k => ?_
  cases hf : s.ledger.find? k with
  | none =>
    have : find? (⟨s.appliedCharges, hnd⟩ : Table PendingSettlement.key) k = none := by
      rw [find?_eq_none_iff]
      intro item hi hk
      have := happlied item hi
      rw [hk, hf] at this
      cases this
    rw [this]
    rfl
  | some row =>
    obtain ⟨hrow, hk⟩ := find?_eq_some_iff.mp hf
    obtain ⟨item, hitem, hc, now, rfl⟩ := h.rows row hrow
    have hmem : item ∈ s.appliedCharges := by
      refine mem_filter.mpr ⟨mem_filter.mpr ⟨hitem, hc⟩, ?_⟩
      rw [show item.key = k from hk, hf]
      rfl
    have hfind : find? (⟨s.appliedCharges, hnd⟩ : Table PendingSettlement.key) k =
        some item := find?_eq_some_iff.mpr ⟨hmem, hk⟩
    rw [hfind, map_some, map_some, hg]

theorem books_of_reach (h₀ : s₀.Fresh) {p : Pool OutboxCall OutboxDb Unit}
    (hr : Reach OutboxCall.prog (Pool.start s₀) p) : Books s₀ p.state := by
  have hrun := reach_rely stable_known sat_prog hr h₀.known (safe_start _ _ s₀)
  generalize p.state = s at hrun
  induction hrun with
  | refl => exact h₀.books
  | tail _ hc ih => exact ih.change hc

/-- **The outbox applies each charge exactly once**, in every run in which the parked charges have
distinct keys: the balances have moved by the charges in the ledger; whatever is taken off a list
has been applied or is on a dead list, and never there for an error of the connection class. -/
theorem outbox_applies_once {s₀ : OutboxDb} (h₀ : s₀.Fresh) {p : Pool OutboxCall OutboxDb Unit}
    (hr : Reach OutboxCall.prog (Pool.start s₀) p)
    (hkeys : (p.state.charges.map PendingSettlement.key).Nodup) :
    (∀ w, (s₀.store.quota? w).isSome = true → p.state.store.balance w = s₀.store.balance w -
      (p.state.appliedCharges.map fun item =>
        walletShare s₀.store w item.userId item.walletDelta).sum) ∧
    (∀ id, (s₀.store.tokens.find? id).isSome = true →
      p.state.store.tokenRemain id = s₀.store.tokenRemain id -
        (p.state.appliedCharges.map fun item =>
          tokenShare id item.tokenId item.tokenDelta).sum) ∧
    (∀ p', Pool.Step OutboxCall.prog (fun _ _ => True) p p' →
      (∀ raw, p'.state.redis.count raw < p.state.redis.count raw → p'.state.Settled raw) ∧
      ∀ pid, (p'.state.process pid).alive = true → ∀ e ∈ (p.state.process pid).memory,
        e ∈ (p'.state.process pid).memory ∨ p'.state.Released pid e.item) ∧
    (∀ d ∈ p.state.redisDead, d.Earned) ∧
    ∀ pid, ∀ d ∈ (p.state.process pid).dead, d.Earned := by
  have hb := books_of_reach h₀ hr
  refine ⟨fun w hw => ?_, fun id hid => ?_, fun p' hstep => ?_, hb.earned⟩
  · rw [hb.wallet w hw, hb.sum_eq hkeys
      (fun item => walletShare s₀.store w item.userId item.walletDelta) (fun _ _ => rfl)]
  · rw [hb.token id hid, hb.sum_eq hkeys
      (fun item => tokenShare id item.tokenId item.tokenDelta) (fun _ _ => rfl)]
  have hsafe := (reach_safe_of stable_known sat_prog hr h₀.known
    (safe_start _ _ s₀)).2
  rcases hsafe.step hstep with he | hc
  · rw [he]
    exact ⟨fun raw hlt => absurd hlt (Nat.lt_irrefl _), fun pid _ e hm => .inl hm⟩
  · exact ⟨hc.redis.leaves, fun pid ha => (hc.process pid).leaves ha⟩

/-- A login with `100` and a token with `50`. -/
def outboxSample : OutboxDb where
  store :=
    { users := ⟨[⟨1, "ann", "", 1, "default", 100, 0⟩], by decide⟩
      tokens := ⟨[⟨5, 1, "key", 50, 0, false⟩], by decide⟩ }
  ledger := Table.empty
  logs := []
  redis := []
  redisDead := []
  process := fun _ => Process.started
  parked := []

def sampleCharge : PendingSettlement :=
  ⟨"charge:r1", "r1", 1, 10, 5, 10, none, false, 1000, "53300"⟩

def replayWith (fault : Fault) : ReplayEnv := ⟨1005, fault, none, none, .none, "r2"⟩

def drainWith (fault : Fault) : DrainEnv :=
  ⟨true, true, fun _ => replayWith fault, true, fun _ => replayWith fault, fun _ => true⟩

/-- A charge is parked, its replay commits but the answer is lost, the process crashes, and another
drains. -/
def outboxRun : List OutboxCall :=
  [.park 0 (some .accepted) sampleCharge, .drain 0 (drainWith (.lost .badConn)), .crash 0,
    .drain 1 (drainWith .none)]

theorem outbox_applies_once_lost_answer :
    (execs OutboxCall.prog outboxRun outboxSample).store.balance (.user 1) = 100 - 10 ∧
      (execs OutboxCall.prog outboxRun outboxSample).store.tokenRemain 5 = 50 - 10 ∧
      (execs OutboxCall.prog outboxRun outboxSample).redis = [] := by
  have hfresh : outboxSample.Fresh :=
    ⟨rfl, fun _ => not_mem_nil, fun _ => rfl, fun _ => rfl, rfl⟩
  obtain ⟨l, hr⟩ : ∃ l, Reach OutboxCall.prog (start outboxSample)
      ⟨execs OutboxCall.prog outboxRun outboxSample, l⟩ :=
    reach_execs OutboxCall.prog outboxRun (fun _ _ _ => trivial) outboxSample []
  have hkeys : ((execs OutboxCall.prog outboxRun outboxSample).charges.map
    PendingSettlement.key).Nodup := by decide
  have happlied : (execs OutboxCall.prog outboxRun outboxSample).appliedCharges =
    [sampleCharge] := by decide
  obtain ⟨hwallet, htoken, -⟩ := outbox_applies_once hfresh hr hkeys
  have hwallet := hwallet (.user 1) rfl
  have htoken := htoken 5 rfl
  simp only [happlied] at hwallet htoken
  exact ⟨hwallet.trans (by decide), htoken.trans (by decide), by decide⟩

end UnifyConsole.Outbox
