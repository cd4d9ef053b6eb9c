import UnifyConsole.Account.Wallets

/-!
# Credit follows the login

A balance is in one of three places: the column of the login, a tenant it has to
itself, a tenant it shares.  Moving a login never changes the sum of them all.
Whether the login can still spend what it had is another matter: a login with a
tenant draws on the tenant, so what stays in its column is out of reach.  Some of
the branches fold the column into the wallet and some do not; `Fate` lists what
becomes of a login, and a login that had a wallet of its own keeps its credit
exactly when it goes through a branch that folds, or had nothing in its column.
-/

namespace UnifyConsole.Account

open Lib
open Table Tx

variable {group : String} {w : Int}

namespace Store

/-- The wallet `t` is there. -/
def HasWallet (s : Store) (t : Int) : Prop := 0 < t ∧ (s.tenants.find? t).isSome = true

/-- The login has a wallet of its own: its column, or a tenant nobody else is in. -/
def OwnsWallet (s : Store) (u : User) : Prop := u.tenantId = 0 ∨ s.members u.tenantId = 1

def targetWallet (s : Store) (group : String) : Int :=
  (s.groupWallet group).getD s.tenants.nextId

variable {s s' : Store}

theorem Registered.target (h : Registered group w s s') : w = s.targetWallet group := by
  rcases h.which with hw | ⟨hw, he, -⟩
  · rw [targetWallet, hw]
    rfl
  · rw [targetWallet, hw]
    exact he

theorem Registered.hasWallet (h : Registered group w s s')
    (hexists : ∀ t, s.groupWallet group = some t → s.HasWallet t) : s'.HasWallet w := by
  rcases h.which with hw | ⟨-, he, hsome⟩
  · exact ⟨(hexists w hw).1, h.isSome (hexists w hw).2⟩
  · exact ⟨he ▸ s.tenants.nextId_pos, hsome⟩

theorem Registered.credit (h : Registered group w s s') : s'.credit = s.credit := by
  rw [Store.credit, Store.credit, h.users, h.tenantsSum]

theorem credit_claimTeamTenantOwner (id userId : Int) :
    (s.claimTeamTenantOwner id userId).credit = s.credit := by
  rw [Store.credit, tenantsSum_claimTeamTenantOwner]
  rfl

end Store

/-! ### What becomes of a login -/

/-- The login `u` has become `u'`; its column is folded if `folds`. -/
inductive Fate (s : Store) (u : User) (folds : Prop) (u' : User) : Prop
  | folded (hf : folds) (h : u'.quota = 0)
  | tenantless (hf : folds) (h : u'.tenantId = 0)
  | kept (hf : ¬ folds) (h0 : u'.tenantId ≠ 0) (h : u'.quota = u.quota)
  | shared (h : ¬ s.OwnsWallet u)

variable {folds : Prop}

/-- **The criterion.** -/
theorem Fate.spendable_iff {s : Store} {u u' : User} (h : Fate s u folds u') :
    (u'.tenantId ≠ 0 → s.OwnsWallet u → u'.quota = 0) ↔
      (s.OwnsWallet u → u.quota ≠ 0 → folds) := by
  cases h with
  | folded hf h => exact ⟨fun _ _ _ => hf, fun _ _ _ => h⟩
  | tenantless hf h => exact ⟨fun _ _ _ => hf, fun _ h0 => absurd h h0⟩
  | kept hf h0 h =>
    constructor
    · intro hs hown hq
      exact absurd (h.symm.trans (hs h0 hown)) hq
    · intro hs _ hown
      by_contra hq
      exact hf (hs hown (h ▸ hq))
  | shared h => exact ⟨fun _ hown => absurd hown h, fun _ _ hown => absurd hown h⟩

/-- What a move of the login `u` does. -/
structure Carried (u : User) (folds : Prop) (s s' : Store) : Prop where
  credit : s'.credit = s.credit
  login : ∃ u', s'.users.find? u.id = some u' ∧ Fate s u folds u'

theorem Carried.congr {u : User} {folds' : Prop} {s s' : Store} (h : Carried u folds s s')
    (hiff : folds ↔ folds') : Carried u folds' s s' := propext hiff ▸ h

/-! ### The moves -/

section Moves

variable {s s' : Store} {u : User}

theorem find?_joined (hu : s.users.find? u.id = some u) (hj : Store.Joined u w s s') :
    s'.users.find? u.id = some { u with tenantId := w, quota := 0 } := by
  rw [hj.users, Store.find?_setUserTenant hu, if_pos rfl]

theorem carried_of_joined (hu : s.users.find? u.id = some u) (hw : s.HasWallet w)
    (hj : Store.Joined u w s s') (hf : folds) : Carried u folds s s' :=
  ⟨hj.credit hu hw.2, _, find?_joined hu hj, .folded hf rfl⟩

/-- The owner of the wallet does not matter, nor does its registration. -/
theorem carried_in_registered {s₁ s₂ : Store} (hr : Store.Registered group w s s₁)
    (h : Carried u folds s₁ s₂) : Carried u folds s (s₂.claimTeamTenantOwner w u.id) := by
  obtain ⟨hcredit, u', hu', hfate⟩ := h
  refine ⟨?_, u', hu', ?_⟩
  · rw [Store.credit_claimTeamTenantOwner, hcredit, hr.credit]
  have hown : s₁.OwnsWallet u ↔ s.OwnsWallet u := by
    rw [Store.OwnsWallet, Store.OwnsWallet, Store.members_congr hr.users]
  cases hfate with
  | folded hf h => exact .folded hf h
  | tenantless hf h => exact .tenantless hf h
  | kept hf h0 h => exact .kept hf h0 h
  | shared h => exact .shared (hown.not.mp h)

variable {suffix : Nat → String}

/-- A login goes into a new tenant that gets what the login's column loses. -/
theorem move_newTenant {tenant row : Tenant} {f : Int → Int} {s₁ : Store}
    (hu : s.users.find? u.id = some u)
    (hcreate : createTenantWithTx suffix tenant s = .ok (row, s₁))
    (hf : tenant.quota + f u.quota = u.quota) :
    (s₁.setUserTenant u.id row.id f).credit = s.credit ∧ row.id ≠ 0 ∧
      (s₁.setUserTenant u.id row.id f).users.find? u.id =
        some { u with tenantId := row.id, quota := f u.quota } := by
  obtain ⟨hid, hquota, tenants, hins, hs⟩ := Store.createTenantWithTx_ok hcreate
  have husers : s₁.users = s.users := by rw [hs]
  have hu₁ : s₁.users.find? u.id = some u := husers ▸ hu
  have hpos := s.tenants.nextId_pos
  refine ⟨?_, by omega, by rw [Store.find?_setUserTenant hu₁, if_pos rfl]⟩
  have htenants : (s₁.setUserTenant u.id row.id f).tenants = tenants := by
    rw [hs]
    rfl
  rw [Store.credit, Store.credit, Store.usersSum_setUserTenant hu₁, htenants,
    sum_insert? hins, hquota, husers]
  omega

/-- `JoinCustomerPoolTx` folds unless the login is in the wallet already. -/
theorem carried_join (hu : s.users.find? u.id = some u) (hw : s.HasWallet w)
    (hok : joinCustomerPoolTx u.id w s = .ok ((), s')) : Carried u (u.tenantId ≠ w) s s' := by
  obtain ⟨-, hpos, v, hv, -, hcases⟩ := Store.joinCustomerPoolTx_ok hok
  rw [hu] at hv
  cases hv
  rcases hcases with ⟨ht, rfl⟩ | ⟨hne, -, -, hj⟩
  · exact ⟨rfl, u, hu, .kept (not_not.mpr ht) (by omega) rfl⟩
  · exact carried_of_joined hu hw hj hne

/-- `EnsureTenantForUserTx` folds the column of a login that has no tenant. -/
theorem carried_ensure {r : Option Tenant} (hu : s.users.find? u.id = some u)
    (hexists : u.tenantId = 0 → isStaffRole u.role = false → s.isCustomerGroup u.group = true →
      ∀ t, s.groupWallet u.group = some t → s.HasWallet t)
    (hok : ensureTenantForUserTx suffix u.id s = .ok (r, s')) :
    Carried u (u.tenantId = 0) s s' := by
  obtain ⟨v, hv, he⟩ := Store.ensureTenantForUserTx_ok hok
  rw [hu] at hv
  cases hv
  cases he with
  | kept =>
    by_cases h0 : u.tenantId = 0
    · exact ⟨rfl, u, hu, .tenantless h0 h0⟩
    · exact ⟨rfl, u, hu, .kept h0 h0 rfl⟩
  | joined hstaff h0 hc hr hjoin =>
    have hw := hr.hasWallet (hexists h0 hstaff hc)
    exact carried_in_registered hr ((carried_join (hr.users ▸ hu) hw hjoin).congr
      (iff_of_true (h0 ▸ hw.1.ne) h0))
  | created hstaff h0 hc hcreate =>
    obtain ⟨hcredit, -, hfind⟩ := move_newTenant (f := fun _ => 0) hu hcreate (add_zero _)
    exact ⟨hcredit, _, hfind, .folded h0 rfl⟩

/-- `reattachWalletTx` folds on the way into another wallet of a customer. -/
theorem carried_reattach {user : User} (hu : s.users.find? user.id = some u)
    (htenant : u.tenantId = user.tenantId) (hexists : s.isCustomerGroup group = true →
      ∀ t, s.groupWallet group = some t → s.HasWallet t)
    (hok : reattachWalletTx suffix user group s = .ok ((), s')) :
    Carried u (s.isCustomerGroup group = true ∧ u.tenantId ≠ s.targetWallet group) s s' := by
  have hid : user.id = u.id := (key_of_find? hu).symm
  rw [hid] at hu
  cases Store.reattachWalletTx_ok hok with
  | same hc hr hsame =>
    rw [← hr.target, ← htenant] at *
    exact ⟨hr.credit, u, hr.users ▸ hu, .kept (fun hf => hf.2 hsame)
      (hsame ▸ (hr.hasWallet (hexists hc)).1.ne') rfl⟩
  | joined hc hr hne hjoin =>
    rw [hid] at hjoin ⊢
    rw [← htenant] at hne
    refine carried_in_registered hr ((carried_join (hr.users ▸ hu) (hr.hasWallet (hexists hc))
      hjoin).congr (iff_of_true hne ⟨hc, hr.target ▸ hne⟩))
  | @moved w s₁ hc hr hne hrefused =>
    rw [hid] at hrefused ⊢
    rw [← htenant] at hne
    have hu₁ : s₁.users.find? u.id = some u := hr.users ▸ hu
    -- the wallet it leaves is one it shares
    have hshared : u.tenantId ≠ 0 ∧ 1 < s₁.members u.tenantId := by
      rcases Store.joinCustomerPoolTx_error hu₁ hne hrefused with
        ⟨-, he⟩ | ⟨-, he⟩ | ⟨h0, hmany, -⟩ | ⟨-, -, he⟩
      · cases he
      · cases he
      · exact ⟨h0, hmany⟩
      · cases he
    refine carried_in_registered hr ⟨?_, { u with tenantId := w }, ?_, .shared fun hown => ?_⟩
    · rw [Store.credit, Store.usersSum_setUserTenant hu₁]
      simp only [sub_self, add_zero]
      rfl
    · rw [Store.find?_setUserTenant hu₁, if_pos rfl]
    · rcases hown with h0 | hone
      · exact hshared.1 h0
      · omega
  | kept hc hsolo =>
    exact ⟨rfl, u, hu, .kept (fun hf => Bool.false_ne_true (hc.symm.trans hf.1))
      (htenant ▸ hsolo.1) rfl⟩
  | created hc hcreate =>
    rw [hid]
    obtain ⟨hcredit, h0, hfind⟩ := move_newTenant (f := fun q => q) hu hcreate (zero_add _)
    exact ⟨hcredit, _, hfind, .kept (fun hf => Bool.false_ne_true (hc.symm.trans hf.1)) h0 rfl⟩

/-- A tenant gains what the column of a login loses. -/
def Store.sweep (s : Store) (u : User) (w : Int) : Store :=
  (s.setQuota (.tenant w) (fun _ => true) fun q => q + u.quota).setQuota (.user u.id)
    (fun _ => true) fun _ => 0

theorem credit_sweep (hu : s.users.find? u.id = some u) (hw : s.HasWallet w) :
    (s.sweep u w).credit = s.credit := by
  obtain ⟨tenant, htenant⟩ := Option.isSome_iff_exists.mp hw.2
  have hadd := Store.tenantsSum_setQuota (f := fun q => q + u.quota) htenant
  have hsub := Store.usersSum_setQuota (f := fun _ => 0)
    (s := s.setQuota (.tenant w) (fun _ => true) fun q => q + u.quota) hu
  rw [Store.credit, Store.sweep, hsub]
  show s.users.sum User.quota + (0 - u.quota) +
    (s.setQuota (.tenant w) (fun _ => true) fun q => q + u.quota).tenants.sum Tenant.quota =
    s.users.sum User.quota + s.tenants.sum Tenant.quota
  omega

theorem quotaCarriedInto_ok {carried : Int} (hok : quotaCarriedInto u s = .ok (carried, s')) :
    s' = s ∧ (u.tenantId ≠ 0 → s.members u.tenantId ≤ 1 →
      (s.tenants.find? u.tenantId).isSome = true) := by
  unfold quotaCarriedInto at hok
  split at hok
  · rename_i h0
    rw [pure_ok, Prod.mk.injEq] at hok
    exact ⟨hok.2, fun hne => absurd h0 hne⟩
  simp only [bind_ok, read_ok] at hok
  obtain ⟨members, s, ⟨hmembers, rfl⟩, hok⟩ := hok
  split at hok
  · rename_i hmany
    rw [pure_ok, Prod.mk.injEq] at hok
    refine ⟨hok.2, fun _ hle => ?_⟩
    omega
  · simp only [bind_ok, fetch_ok, pure_ok, Prod.mk.injEq] at hok
    obtain ⟨_, _, ⟨_, hsolo, -, rfl⟩, -, rfl⟩ := hok
    exact ⟨rfl, fun _ _ => by rw [hsolo]; rfl⟩

/-- What `admitTx` does when it is no dry run: nothing, a sweep, or a join. -/
theorem admitTx_ok {result : CustomerPoolBackfillResult} {r : Bool × CustomerPoolBackfillResult}
    (hok : admitTx false u w result s = .ok (r, s')) :
    (u.tenantId = w ∧ u.quota = 0 ∧ s' = s) ∨
    (u.tenantId = w ∧ s' = s.sweep u w) ∨
    (u.tenantId ≠ w ∧ joinCustomerPoolTx u.id w s = .ok ((), s')) ∨
    (u.tenantId ≠ w ∧ s' = s ∧ (∃ e, joinCustomerPoolTx u.id w s = .error e) ∧
      (u.tenantId ≠ 0 → s.members u.tenantId ≤ 1 →
        (s.tenants.find? u.tenantId).isSome = true)) := by
  unfold admitTx at hok
  split at hok
  · rename_i ht
    split at hok
    · rename_i hq
      rw [pure_ok, Prod.mk.injEq] at hok
      exact .inl ⟨ht, hq, hok.2⟩
    obtain ⟨_, _, ⟨-, rfl⟩, _, _, ⟨-, rfl⟩, -, rfl⟩ := hok
    exact .inr (.inl ⟨ht, rfl⟩)
  rename_i hne
  simp only [Bool.false_eq_true, if_false, bind_ok, attempt_ok] at hok
  obtain ⟨carried, s₁, hcarried, joined, s₂, hjoin, hok⟩ := hok
  obtain ⟨rfl, hsolo⟩ := quotaCarriedInto_ok hcarried
  rcases hjoin with ⟨_, _, hjoin, he⟩ | ⟨e, hjoin, he⟩
  · cases he
    rw [pure_ok, Prod.mk.injEq] at hok
    rw [hok.2]
    exact .inr (.inr (.inl ⟨hne, hjoin⟩))
  · cases he
    rw [pure_ok, Prod.mk.injEq] at hok
    exact .inr (.inr (.inr ⟨hne, hok.2, ⟨e, hjoin⟩, hsolo⟩))

/-- `admitTx` folds unless the login has a tenant of its own and is refused. -/
theorem carried_admission {result : CustomerPoolBackfillResult}
    {r : Bool × CustomerPoolBackfillResult} (hu : s.users.find? u.id = some u) (hw : s.HasWallet w)
    (hok : admitTx false u w result s = .ok (r, s')) :
    Carried u (u.tenantId = w ∨ u.tenantId = 0 ∨ (isStaffRole u.role = false ∧ 0 < u.id)) s s' := by
  rcases admitTx_ok hok with ⟨ht, hq, rfl⟩ | ⟨ht, rfl⟩ | ⟨hne, hjoin⟩ | ⟨hne, rfl, ⟨e, hjoin⟩,
    hsolo⟩
  · exact ⟨rfl, u, hu, .folded (.inl ht) hq⟩
  · refine ⟨credit_sweep hu hw, { u with quota := 0 }, ?_, .folded (.inl ht) rfl⟩
    have hfind := Store.find?_user_setQuota (f := fun _ => 0)
      (s := s.setQuota (.tenant w) (fun _ => true) fun q => q + u.quota) hu u.id
    rw [if_pos rfl] at hfind
    exact hfind
  · obtain ⟨hpos, -, v, hv, -, hcases⟩ := Store.joinCustomerPoolTx_ok hjoin
    rw [hu] at hv
    cases hv
    rcases hcases with ⟨ht, -⟩ | ⟨-, hstaff, -, hj⟩
    · exact absurd ht hne
    · exact carried_of_joined hu hw hj (.inr (.inr ⟨hstaff, hpos⟩))
  refine ⟨rfl, u, hu, ?_⟩
  by_cases h0 : u.tenantId = 0
  · exact .tenantless (.inr (.inl h0)) h0
  by_cases hone : s'.members u.tenantId = 1
  · refine .kept ?_ h0 rfl
    rintro (ht | ht | ⟨hstaff, hpos⟩)
    · exact hne ht
    · exact h0 ht
    -- nothing is left that could have refused it
    have hsome := hsolo h0 hone.le
    rcases Store.joinCustomerPoolTx_error hu hne hjoin with
      ⟨hids, -⟩ | ⟨hs, -⟩ | ⟨-, hmany, -⟩ | ⟨-, hnone, -⟩
    · exact hids ⟨hpos, hw.1⟩
    · rw [hstaff] at hs
      cases hs
    · omega
    · rw [hnone] at hsome
      cases hsome
  · exact .shared fun hown => hown.elim h0 hone

end Moves

/-- The steps that move a login between wallets; `reattach` is given the row as read. -/
inductive WalletMove where
  | join (userId tenantId : Int)
  | ensure (suffix : Nat → String) (userId : Int)
  | reattach (suffix : Nat → String) (user : User) (group : String)
  | admission (userId tenantId : Int) (result : CustomerPoolBackfillResult)

namespace WalletMove

def userId : WalletMove → Int
  | join userId _ => userId
  | ensure _ userId => userId
  | reattach _ user _ => user.id
  | admission userId _ _ => userId

def run : WalletMove → AccountTx Unit
  | join userId tenantId => joinCustomerPoolTx userId tenantId
  | ensure suffix userId => do
    let _ ← ensureTenantForUserTx suffix userId
    pure ()
  | reattach suffix user group => reattachWalletTx suffix user group
  | admission userId tenantId result => do
    let user ← Tx.fetch (fun s => s.users.find? userId) .recordNotFound
    let _ ← admitTx false user tenantId result
    pure ()

/-- The wallet that the login is moved to exists, unless the step makes it. -/
def TargetExists (m : WalletMove) (s : Store) (u : User) : Prop :=
  match m with
  | join _ tenantId => s.HasWallet tenantId
  | ensure _ _ => u.tenantId = 0 → isStaffRole u.role = false → s.isCustomerGroup u.group = true →
      ∀ t, s.groupWallet u.group = some t → s.HasWallet t
  | reattach _ user group => u.tenantId = user.tenantId ∧ (s.isCustomerGroup group = true →
      ∀ t, s.groupWallet group = some t → s.HasWallet t)
  | admission _ tenantId _ => s.HasWallet tenantId

/-- The step folds the column of a login that has a wallet of its own. -/
def Folds (m : WalletMove) (s : Store) (u : User) : Prop :=
  match m with
  | join _ tenantId => u.tenantId ≠ tenantId
  | ensure _ _ => u.tenantId = 0
  | reattach _ _ group => s.isCustomerGroup group = true ∧ u.tenantId ≠ s.targetWallet group
  | admission _ tenantId _ =>
      u.tenantId = tenantId ∨ u.tenantId = 0 ∨ (isStaffRole u.role = false ∧ 0 < u.id)

theorem carried {m : WalletMove} {s s' : Store} {u : User} (hu : s.users.find? m.userId = some u)
    (ht : m.TargetExists s u) (hok : m.run s = .ok ((), s')) : Carried u (m.Folds s u) s s' := by
  have hid : u.id = m.userId := key_of_find? hu
  cases m with
  | join =>
    obtain rfl := hid
    exact carried_join hu ht hok
  | ensure =>
    obtain rfl := hid
    simp only [run, bind_ok, pure_ok] at hok
    obtain ⟨_, _, hok, -, rfl⟩ := hok
    exact carried_ensure hu ht hok
  | reattach => exact carried_reattach hu ht.1 ht.2 hok
  | admission =>
    obtain rfl := hid
    simp only [run, bind_ok, fetch_ok] at hok
    obtain ⟨_, _, ⟨_, hfind, rfl, rfl⟩, r, _, hok, -, rfl⟩ := hok
    obtain rfl := Option.some.inj (hu.symm.trans hfind)
    exact carried_admission hu ht hok

end WalletMove

/-- **Moving a login creates and destroys no credit**, and the login can spend all it had exactly if
it had no wallet of its own, nothing in its column, or its column is folded. -/
theorem wallet_move_keeps_credit {m : WalletMove} {s s' : Store} {u : User}
    (hu : s.users.find? m.userId = some u) (ht : m.TargetExists s u)
    (hok : m.run s = .ok ((), s')) :
    s'.credit = s.credit ∧
      ((∀ u', s'.users.find? m.userId = some u' → u'.tenantId ≠ 0 → s.OwnsWallet u →
        u'.quota = 0) ↔ (s.OwnsWallet u → u.quota ≠ 0 → m.Folds s u)) := by
  obtain ⟨hcredit, u', hu', hfate⟩ := WalletMove.carried hu ht hok
  rw [key_of_find? hu] at hu'
  refine ⟨hcredit, ?_⟩
  rw [← hfate.spendable_iff]
  constructor
  · intro h
    exact h u' hu'
  intro h v hv
  rw [hu'] at hv
  cases hv
  exact h

def soloStore : Store :=
  { users := ⟨[⟨1, "ann", "Ann", 1, "acme", 70, 0⟩], by decide⟩
    tenants := ⟨[⟨5, "acme", "customer-acme", 1, 0, 30, "acme"⟩], by decide⟩
    customerWallets := ⟨[⟨"acme", 5⟩], by decide⟩ }

def joinedStore : Store :=
  { soloStore with
    users := ⟨[⟨1, "ann", "Ann", 1, "acme", 0, 5⟩], by decide⟩
    tenants := ⟨[⟨5, "acme", "customer-acme", 1, 0, 100, "acme"⟩], by decide⟩ }

theorem wallet_move_keeps_credit_join :
    (WalletMove.join 1 5).run soloStore = .ok ((), joinedStore) ∧
    joinedStore.credit = soloStore.credit ∧
      ((∀ u', joinedStore.users.find? 1 = some u' → u'.tenantId ≠ 0 →
        soloStore.OwnsWallet ⟨1, "ann", "Ann", 1, "acme", 70, 0⟩ → u'.quota = 0) ↔
        (soloStore.OwnsWallet ⟨1, "ann", "Ann", 1, "acme", 70, 0⟩ → (70 : Int) ≠ 0 →
          (WalletMove.join 1 5).Folds soloStore ⟨1, "ann", "Ann", 1, "acme", 70, 0⟩)) := by
  have hok : (WalletMove.join 1 5).run soloStore = .ok ((), joinedStore) := rfl
  have ht : (WalletMove.join 1 5).TargetExists soloStore ⟨1, "ann", "Ann", 1, "acme", 70, 0⟩ :=
    ⟨by decide, rfl⟩
  exact ⟨hok, wallet_move_keeps_credit rfl ht hok⟩

def strandedStore : Store :=
  { soloStore with
    users := ⟨[⟨1, "ann", "Ann", 1, "acme", 70, 6⟩], by decide⟩
    tenants := ⟨[⟨5, "acme", "customer-acme", 1, 0, 30, "acme"⟩,
      ⟨6, "Ann", "ann", 1, 1, 0, "default"⟩], by decide⟩ }

/-- It draws on a new and empty tenant, and its seventy units stay in its column. -/
theorem reattach_hides_column :
    let m := WalletMove.reattach (fun _ => "x") ⟨1, "ann", "Ann", 1, "acme", 70, 0⟩ "default"
    m.TargetExists soloStore ⟨1, "ann", "Ann", 1, "acme", 70, 0⟩ ∧
    m.run soloStore = .ok ((), strandedStore) ∧
    soloStore.OwnsWallet ⟨1, "ann", "Ann", 1, "acme", 70, 0⟩ ∧
    strandedStore.users.find? 1 = some ⟨1, "ann", "Ann", 1, "acme", 70, 6⟩ ∧
    (strandedStore.tenants.find? 6).map Tenant.quota = some 0 := by
  refine ⟨⟨rfl, fun hc => ?_⟩, ?_, .inl rfl, rfl, rfl⟩
  · exact absurd hc (by decide)
  · rfl

end UnifyConsole.Account
