import UnifyConsole.Account.OneWallet

/-!
# Runs of the login calls

Creating logins, editing them, signing up for a partnership program and connecting
to one keep `OneWallet`, whatever the order in which the transactions of the calls
are done.  Two things break it, and the condition of the run excludes them: a
partnership team whose pricing group is not a customer group, and an edit that takes
the only member of a registered wallet to a group that has no registered wallet.
-/

namespace UnifyConsole.Account

open Lib
open Prog Table Tx Pool

namespace OneWallet

variable {s s' : Store} {d d' : PartnershipDb}

/-! ### The wallet of a team -/

theorem isCustomerGroup_setTeamTenant (customerId tenantId : Int) (group : String) :
    (s.setTeamTenant customerId tenantId).isCustomerGroup group = s.isCustomerGroup group := by
  simp only [Store.isCustomerGroup, Store.setTeamTenant]
  rw [matched_update_of_same]
  exact fun _ => rfl

/-- A team is given the wallet that is registered for its group. -/
theorem setTeamTenant (h : OneWallet none s) {c : PartnershipCustomer} {w : Int}
    (hc : s.partnershipCustomers.find? c.id = some c)
    (hw : s.customerWallets.find? c.group = some ⟨c.group, w⟩) :
    OneWallet none (s.setTeamTenant c.id w) := by
  have hgroup := isCustomerGroup_setTeamTenant (s := s) c.id w
  -- a team is the one written to or was there before
  have hrow : ∀ c' ∈ (s.setTeamTenant c.id w).partnershipCustomers.rows,
      c' = { c with tenantId := w } ∨ c' ∈ s.partnershipCustomers.rows := by
    intro c' hc'
    have hf := find?_eq_some_iff.mpr ⟨hc', rfl⟩
    simp only [Store.setTeamTenant] at hf
    rw [find?_update_at hc (decide_eq_true rfl) (fun x hx => of_decide_eq_true hx)] at hf
    split at hf
    · exact .inl (Option.some.inj hf).symm
    · exact .inr (mem_of_find? hf)
  refine ⟨h.staff, h.owned, h.backed, ?_, h.distinct, ?_, ?_, ?_, ?_⟩
  · simp only [hgroup]
    exact h.customer
  · simp only [hgroup]
    exact h.member
  · simp only [hgroup]
    exact h.alone
  · intro c' hc' hdefault hlive
    rw [hgroup]
    rcases hrow c' hc' with rfl | hc'
    · exact h.teams c (mem_of_find? hc) hdefault hlive
    · exact h.teams c' hc' hdefault hlive
  · intro c' hc' h0
    rcases hrow c' hc' with rfl | hc'
    · exact hw
    · exact h.teamWallet c' hc' h0

variable {pool : Int}

/-- **The wallet of a team** is the one registered for its group. -/
theorem ensureCustomerTenant {suffix : Nat → String} {customerId : Int} (h : OneWallet none d.store)
    (hlive : customerId ≠ 0 →
      ∀ c, d.store.partnershipCustomers.find? customerId = some c → c.removedAt = 0)
    (hok : ensureCustomerTenant suffix customerId d = .ok (pool, d')) :
    OneWallet none d'.store ∧ d'.store.users = d.store.users ∧
      (pool ≠ 0 → ∃ c, d.store.partnershipCustomers.find? customerId = some c ∧
        d'.store.customerWallets.find? c.group = some ⟨c.group, pool⟩) := by
  unfold Account.ensureCustomerTenant at hok
  split at hok
  · rw [pure_ok, Prod.mk.injEq] at hok
    obtain ⟨rfl, rfl⟩ := hok
    exact ⟨h, rfl, fun h0 => absurd rfl h0⟩
  simp only [bind_ok, fetch_ok] at hok
  obtain ⟨c, d, ⟨_, hfind, rfl, rfl⟩, hok⟩ := hok
  split at hok
  · rw [pure_ok, Prod.mk.injEq] at hok
    obtain ⟨rfl, rfl⟩ := hok
    exact ⟨h, rfl, fun h0 => absurd rfl h0⟩
  rename_i hdefault
  rw [Bool.not_eq_true] at hdefault
  split at hok
  · rename_i h0
    obtain ⟨rfl, rfl⟩ := hok
    exact ⟨h, rfl, fun _ => ⟨c, hfind, h.teamWallet c (mem_of_find? hfind) h0⟩⟩
  simp only [bind_ok, fetch_ok, onStore_ok] at hok
  obtain ⟨link, _, ⟨_, -, rfl, rfl⟩, w, _, ⟨s₁, hwallet, rfl⟩, _, _, ⟨-, rfl⟩, rfl, rfl⟩ := hok
  obtain rfl : c.id = customerId := key_of_find? hfind
  have hr := Store.customerWalletTx_ok hwallet
  have hgroup := h.teams c (mem_of_find? hfind) hdefault (hlive (by omega) c hfind)
  have h₁ : OneWallet none s₁ := h.register hr hgroup (by simp)
  exact ⟨h₁.setTeamTenant (hr.customers ▸ hfind) hr.find, hr.users, fun _ => ⟨c, hfind, hr.find⟩⟩

/-! ### New logins -/

theorem insertUser {login : NewLogin} {quota tenantId id : Int} (h : OneWallet none s)
    (htenant : tenantId ≠ 0 → isStaffRole login.role = false ∧
      s.customerWallets.find? login.group = some ⟨login.group, tenantId⟩)
    (hok : insertUser login quota tenantId s = .ok (id, s')) : OneWallet none s' := by
  unfold Account.insertUser at hok
  split at hok
  · cases hok
  split at hok
  · cases hok
  rename_i users hins
  cases hok
  -- a login with a wallet is in the group the wallet is registered for
  have hgroup : tenantId ≠ 0 → login.group ≠ "" := by
    intro h0 he
    have := h.customer _ (mem_of_find? (htenant h0).2)
    rw [show (CustomerWallet.mk login.group tenantId).group = login.group from rfl, he] at this
    simp [Store.isCustomerGroup] at this
  refine ⟨?_, ?_, h.backed, h.customer, h.distinct, ?_, ?_, h.teams, h.teamWallet⟩
  · intro u hu hs
    rcases (mem_insert? hins).mp hu with hu | rfl
    · exact h.staff u hu hs
    · by_contra h0
      rw [(htenant h0).1] at hs
      cases hs
  · intro u hu h0
    rcases (mem_insert? hins).mp hu with hu | rfl
    · exact h.owned u hu h0
    · exact (h.backed _ (mem_of_find? (htenant h0).2)).2
  · intro u hu _ h0 hc
    rcases (mem_insert? hins).mp hu with hu | rfl
    · exact (h.settled hu h0).member hc
    · show s.customerWallets.find? (if login.group = "" then _ else login.group) = _
      rw [if_neg (hgroup h0)]
      exact (htenant h0).2
  · intro u hu _ h0 hc
    rcases (mem_insert? hins).mp hu with hu | rfl
    · obtain ⟨hal, hun⟩ := (h.settled hu h0).alone hc
      refine ⟨fun v hv ht => ?_, hun⟩
      rcases (mem_insert? hins).mp hv with hv | rfl
      · exact hal v hv ht
      · have h0' : tenantId ≠ 0 := fun he => h0 (ht.symm.trans he)
        exact absurd ht (hun _ (mem_of_find? (htenant h0').2))
    · have := h.customer _ (mem_of_find? (htenant h0).2)
      rw [if_neg (hgroup h0)] at hc
      exact absurd (this.symm.trans hc) (by simp)

theorem poolCredit {userId credit : Int} (h : OneWallet none s)
    (hok : poolCredit pool userId credit s = .ok ((), s')) : OneWallet none s' := by
  unfold Account.poolCredit at hok
  simp only [bind_ok, when_ok] at hok
  obtain ⟨_, s₁, hcredit, -, rfl⟩ := hok
  refine OneWallet.claimTeamTenantOwner ?_ pool userId
  rcases hcredit with ⟨-, -, rfl⟩ | ⟨-, -, rfl⟩
  · exact h.congr rfl rfl rfl fun id hid => by rw [Store.isSome_tenant_setQuota, hid]
  · exact h

/-! ### Sign-up and connection -/

variable {now : Int} {code : String} {offer : PartnershipOffer}

/-- An offer of a customer names its group. -/
theorem getPartnershipOfferByCode_ok (hok : getPartnershipOfferByCode now code d = .ok (offer, d'))
    :
    d' = d ∧ (offer.customerId = 0 ∨ ∃ c,
      d.store.partnershipCustomers.find? offer.customerId = some c ∧ c.removedAt = 0 ∧
        offer.customerGroup = c.group) := by
  unfold getPartnershipOfferByCode at hok
  simp only [bind_ok, read_ok, Prod.mk.injEq] at hok
  obtain ⟨found, d, ⟨hfound, rfl⟩, hok⟩ := hok
  cases found with
  | none =>
    simp only [bind_ok, fetch_ok, ensure_ok] at hok
    obtain ⟨_, _, ⟨_, -, -, rfl⟩, _, _, ⟨-, -, rfl⟩, _, _, ⟨-, -, rfl⟩, rfl, rfl⟩ := hok
    exact ⟨rfl, .inl rfl⟩
  | some found =>
    obtain ⟨link, customer⟩ := found
    simp only [bind_ok, fetch_ok, ensure_ok] at hok
    obtain ⟨_, _, ⟨_, -, -, rfl⟩, _, _, ⟨-, -, rfl⟩, rfl, rfl⟩ := hok
    refine ⟨rfl, .inr ⟨customer, ?_⟩⟩
    obtain ⟨row, -, hrow⟩ := List.exists_of_findSome?_eq_some hfound.symm
    split at hrow
    · rw [Option.bind_eq_some_iff] at hrow
      obtain ⟨c, hc, hrow⟩ := hrow
      split at hrow
      · rename_i hlive
        cases hrow
        exact ⟨(key_of_find? hc).symm ▸ hc, hlive, rfl⟩
      · cases hrow
    · cases hrow

/-- What an offer has done for its wallet, when there is one. -/
theorem offerWallet {suffix : Nat → String} {d'' : PartnershipDb} (h : OneWallet none d.store)
    (hoffer : getPartnershipOfferByCode now code d = .ok (offer, d'))
    (hpool : Account.ensureCustomerTenant suffix offer.customerId d' = .ok (pool, d'')) :
    OneWallet none d''.store ∧ d''.store.users = d.store.users ∧
      (pool ≠ 0 → d''.store.customerWallets.find? offer.customerGroup =
        some ⟨offer.customerGroup, pool⟩) := by
  obtain ⟨rfl, hcustomer⟩ := getPartnershipOfferByCode_ok hoffer
  rcases hcustomer with h0 | ⟨c, hc, hlive, hgroup⟩
  · rw [h0] at hpool
    obtain ⟨hkeep, husers, -⟩ := h.ensureCustomerTenant (fun hne => absurd rfl hne) hpool
    refine ⟨hkeep, husers, fun hne => absurd ?_ hne⟩
    rw [Account.ensureCustomerTenant, if_pos le_rfl, pure_ok, Prod.mk.injEq] at hpool
    exact hpool.1
  obtain ⟨hkeep, husers, hreg⟩ := h.ensureCustomerTenant (fun _ c' hc' => by
    rw [hc] at hc'
    cases hc'
    exact hlive) hpool
  refine ⟨hkeep, husers, fun hne => ?_⟩
  obtain ⟨c', hc', hfind⟩ := hreg hne
  rw [hc] at hc'
  cases hc'
  rw [hgroup]
  exact hfind

theorem teamGrantHolder_ok {team : Option CustomerLink}
    (hok : teamGrantHolder offer d = .ok (team, d')) : d' = d := by
  unfold teamGrantHolder at hok
  split at hok
  · rw [pure_ok, Prod.mk.injEq] at hok
    exact hok.2
  · simp only [bind_ok, fetch_ok, pure_ok, Prod.mk.injEq] at hok
    obtain ⟨_, _, ⟨_, -, -, rfl⟩, _, _, ⟨_, -, -, rfl⟩, -, rfl⟩ := hok
    rfl

theorem claimGrant_ok {team : Option CustomerLink} {granted : Int}
    (hok : claimGrant now offer team d = .ok (granted, d')) : d'.store = d.store := by
  unfold claimGrant at hok
  simp only [bind_ok, read_ok] at hok
  obtain ⟨_, _, ⟨-, rfl⟩, hok⟩ := hok
  split at hok
  · simp only [bind_ok, write_ok, pure_ok, Prod.mk.injEq] at hok
    obtain ⟨_, _, ⟨-, rfl⟩, -, rfl⟩ := hok
    rfl
  · rw [pure_ok, Prod.mk.injEq] at hok
    rw [hok.2]

theorem insertForPartnershipWithTx {env : SignUpEnv} {login : NewLogin} {id : Int}
    (h : OneWallet none d.store) (hstaff : isStaffRole login.role = false)
    (hok : insertForPartnershipWithTx env login code d = .ok (id, d')) :
    OneWallet none d'.store := by
  unfold Account.insertForPartnershipWithTx at hok
  simp only [bind_ok, when_ok, writeSome_ok, onStore_ok, Option.map_eq_some_iff] at hok
  obtain ⟨offer, d₁, hoffer, pool, d₂, hpool, team, d₃, hteam, granted, d₄, hgrant, userId, _,
    ⟨s₅, hins, rfl⟩, _, d₆, hcredit, _, _, ⟨_, ⟨t, -, rfl⟩, -, rfl⟩, rfl, rfl⟩ := hok
  obtain ⟨h₂, -, hreg⟩ := h.offerWallet hoffer hpool
  obtain rfl := teamGrantHolder_ok hteam
  rw [← claimGrant_ok hgrant] at h₂ hreg
  have h₅ : OneWallet none s₅ := by
    refine h₂.insertUser (fun h0 => ?_) hins
    exact ⟨hstaff, hreg h0⟩
  rcases hcredit with ⟨-, s₆, hcredit, rfl⟩ | ⟨-, -, rfl⟩
  · exact h₅.poolCredit hcredit
  · exact h₅

theorem connectExistingUserToPartnership {env : SignUpEnv} {userId : Int}
    (h : OneWallet none d.store)
    (hok : connectExistingUserToPartnership env userId code d = .ok ((), d')) :
    OneWallet none d'.store := by
  unfold Account.connectExistingUserToPartnership at hok
  simp only [bind_ok, fetch_ok, ensure_ok, when_ok, writeSome_ok, onStore_ok,
    Option.map_eq_some_iff] at hok
  obtain ⟨user, d, ⟨_, hfind, rfl, rfl⟩, offer, d₁, hoffer, _, _, ⟨hgroup, -, rfl⟩, pool, d₂, hpool,
    _, d₃, hjoin, _, d₃, ⟨-, rfl⟩, henroll⟩ := hok
  obtain ⟨h₂, husers, hreg⟩ := h.offerWallet hoffer hpool
  have hid : user.id = userId := key_of_find? hfind
  have h₃ : OneWallet none d₃.store := by
    rcases hjoin with ⟨h0, _, _, ⟨s₃, hjoin, rfl⟩, -, rfl⟩ | ⟨-, -, rfl⟩
    · refine OneWallet.claimTeamTenantOwner ?_ pool user.id
      refine (h₂.loosen (some user.id)).join (fun v hv => ?_) hjoin
      rw [husers, hid, hfind] at hv
      cases hv
      rw [hgroup]
      exact hreg h0
    · exact h₂
  rcases henroll with ⟨-, _, ⟨t, -, rfl⟩, -, rfl⟩ | ⟨-, -, rfl⟩
  · exact h₃
  · exact h₃

end OneWallet

/-! ### Runs -/

/-- The edits of a run strand no wallet. -/
def LoginCall.Allowed (c : LoginCall) (d : PartnershipDb) : Prop :=
  match c with
  | .edit _ change => d.store.strandsWallet change = false
  | _ => True

instance (c : LoginCall) (d : PartnershipDb) : Decidable (c.Allowed d) := by
  cases c <;> unfold LoginCall.Allowed <;> infer_instance

namespace OneWallet

/-- **Every transaction of a call keeps the invariant.** -/
theorem within_prog (c : LoginCall) :
    c.prog.Within (fun d d' => c.Allowed d → OneWallet none d.store → OneWallet none d'.store) := by
  have hprovision : ∀ (env : SignUpEnv) (inserted : Except PartnershipError Int),
      (provision env inserted).Within
        (fun d d' => c.Allowed d → OneWallet none d.store → OneWallet none d'.store) := by
    intro env inserted
    cases inserted with
    | error => exact within_pure _
    | ok =>
      refine within_bind (within_transact (fun d _ h => h) fun d r d' hok _ h => ?_)
        (fun _ => within_pure _)
      obtain ⟨s', hstore, rfl⟩ := onStore_ok.mp hok
      exact h.ensureTenantForUserTx hstore
  cases c with
  | create env =>
    refine within_bind (within_transact (fun d _ h => h) fun d r d' hok _ h => ?_)
      (hprovision env)
    obtain ⟨s', hstore, rfl⟩ := onStore_ok.mp hok
    exact h.insertUser (fun h0 => absurd rfl h0) hstore
  | edit =>
    refine within_transact (fun d _ h => h) fun d r d' hok hstays h => ?_
    obtain ⟨s', hstore, rfl⟩ := onStore_ok.mp hok
    exact h.editWithTx hstays hstore
  | signUp env =>
    refine within_bind (within_transact (fun d _ h => h) fun d r d' hok _ h => ?_)
      (hprovision env)
    exact h.insertForPartnershipWithTx (show isStaffRole roleCommonUser = false by decide) hok
  | connect =>
    exact within_transact (fun d _ h => h)
      (fun d r d' hok _ h => h.connectExistingUserToPartnership hok)

end OneWallet

structure Unassigned (s : Store) : Prop where
  users : ∀ u ∈ s.users.rows, u.tenantId = 0
  wallets : s.customerWallets.rows = []
  teams : ∀ c ∈ s.partnershipCustomers.rows, c.tenantId = 0

theorem OneWallet.of_unassigned {s : Store} (h : Unassigned s)
    (hteams : ∀ c ∈ s.partnershipCustomers.rows, c.isDefault = false → c.removedAt = 0 →
      s.isCustomerGroup c.group = true) : OneWallet none s := by
  have hno : ∀ w, w ∉ s.customerWallets.rows := by simp [h.wallets]
  exact ⟨fun u hu _ => h.users u hu, fun u hu h0 => absurd (h.users u hu) h0,
    fun w hw => absurd hw (hno w), fun w hw => absurd hw (hno w), fun w hw => absurd hw (hno w),
    fun u hu _ h0 => absurd (h.users u hu) h0, fun u hu _ h0 => absurd (h.users u hu) h0, hteams,
    fun c hc h0 => absurd (h.teams c hc) h0⟩

/-- Logins on one wallet are of one group, two groups have two wallets, and a login of the default
group has its wallet to itself. -/
structure OneCustomerOneWallet (s : Store) : Prop where
  sameGroup : ∀ u ∈ s.users.rows, ∀ v ∈ s.users.rows, isStaffRole u.role = false →
    isStaffRole v.role = false → u.tenantId ≠ 0 → u.tenantId = v.tenantId → u ≠ v →
    u.group = v.group ∧ s.isCustomerGroup u.group = true
  registry : ∀ w ∈ s.customerWallets.rows, ∀ w' ∈ s.customerWallets.rows,
    w.tenantId = w'.tenantId → w.group = w'.group
  default : ∀ u ∈ s.users.rows, isStaffRole u.role = false → u.group = defaultUserGroup →
    u.tenantId ≠ 0 → ∀ v ∈ s.users.rows, v.tenantId = u.tenantId → v = u

theorem OneWallet.oneCustomer {s : Store} (h : OneWallet none s) : OneCustomerOneWallet s where
  sameGroup u hu v hv _ _ h0 ht hne := by
    have hgroup : ∀ {a b : User}, a ∈ s.users.rows → b ∈ s.users.rows → a.tenantId ≠ 0 →
        b.tenantId = a.tenantId → b ≠ a → s.isCustomerGroup a.group = true := by
      intro a b ha hb h0 ht hne
      by_contra hc
      exact hne (((h.settled ha h0).alone (Bool.not_eq_true _ ▸ hc)).1 b hb ht)
    have hcu := hgroup hu hv h0 ht.symm (Ne.symm hne)
    have hu' := (h.settled hu h0).member hcu
    have hv' := (h.settled hv (ht ▸ h0)).member (hgroup hv hu (ht ▸ h0) ht hne)
    -- the two groups are registered with one tenant
    have := h.distinct _ (mem_of_find? hu') _ (mem_of_find? hv') ht
    exact ⟨congrArg CustomerWallet.group this, hcu⟩
  registry w hw w' hw' ht := congrArg CustomerWallet.group (h.distinct w hw w' hw' ht)
  default u hu _ hgroup h0 := by
    refine ((h.settled hu h0).alone ?_).1
    rw [hgroup]
    simp [Store.isCustomerGroup]

/-- **One customer, one wallet**, in every state that calls reach from one without wallets, if every
partnership team is of a customer group and no edit strands a wallet. -/
theorem one_customer_one_wallet {d : PartnershipDb} (hd : Unassigned d.store)
    (hteams : ∀ c ∈ d.store.partnershipCustomers.rows, c.isDefault = false → c.removedAt = 0 →
      d.store.isCustomerGroup c.group = true)
    {p : Pool LoginCall PartnershipDb (Except PartnershipError Unit)}
    (hr : Pool.ReachIf LoginCall.prog LoginCall.Allowed (Pool.start d) p) :
    OneCustomerOneWallet p.state.store := by
  have h := reach_invariant (I := fun d => OneWallet none d.store) OneWallet.within_prog hr
    (OneWallet.of_unassigned hd hteams)
  exact h.oneCustomer

def emptyInstallation : PartnershipDb :=
  { store := {}, programs := .empty, links := .empty,
    enrollments := .empty }

def quietEnv : SignUpEnv :=
  { suffix := fun _ => "x", now := 0, quotaForNewUser := 100, insertCommits := true,
    ensureCommits := true }

def oneByOne (calls : List LoginCall) : List (Pool.Move LoginCall) :=
  calls.flatMap fun c => [.call c, .run 0, .run 0]

def leavingCalls : List LoginCall :=
  [.create quietEnv ⟨"ann", "Ann", 1, "acme"⟩, .create quietEnv ⟨"bob", "Bob", 1, "acme"⟩,
    .edit quietEnv ⟨2, "bob", "Bob", "default"⟩]

theorem one_customer_one_wallet_leaving :
    let p := play LoginCall.prog (oneByOne leavingCalls) (start emptyInstallation)
    (p.state.store.users.rows.map User.tenantId = [1, 2] ∧
      p.state.store.customerWallets.rows.map CustomerWallet.tenantId = [1]) ∧
    OneCustomerOneWallet p.state.store :=
  ⟨by decide +kernel,
    one_customer_one_wallet ⟨by decide, rfl, by decide⟩ (by decide)
      (reach_play_of _ _ _ _ (by decide +kernel))⟩

def strandingCalls : List LoginCall :=
  [.create quietEnv ⟨"ann", "Ann", 1, "acme"⟩, .edit quietEnv ⟨1, "ann", "Ann", "beta"⟩,
    .create quietEnv ⟨"bob", "Bob", 1, "acme"⟩]

/-- Both groups are registered with the wallet of the first, and the two logins
draw on it. -/
theorem edit_merges_wallets :
    Unassigned emptyInstallation.store ∧
    ∃ p : Pool LoginCall PartnershipDb (Except PartnershipError Unit),
      Pool.Reach LoginCall.prog (Pool.start emptyInstallation) p ∧
      p.state.store.customerWallets.rows = [⟨"acme", 1⟩, ⟨"beta", 1⟩] ∧
      p.state.store.users.rows.map (fun u => (u.group, u.tenantId)) = [("beta", 1), ("acme", 1)] ∧
      ¬ OneCustomerOneWallet p.state.store := by
  refine ⟨⟨by decide, rfl, by decide⟩, play LoginCall.prog (oneByOne strandingCalls)
    (start emptyInstallation), reach_play _ _ _, ?_⟩
  have hw : (play LoginCall.prog (oneByOne strandingCalls)
      (start emptyInstallation)).state.store.customerWallets.rows =
      [⟨"acme", 1⟩, ⟨"beta", 1⟩] := by decide +kernel
  refine ⟨hw, by decide +kernel, fun h => ?_⟩
  have := h.registry ⟨"acme", 1⟩ (by rw [hw]; simp) ⟨"beta", 1⟩ (by rw [hw]; simp) rfl
  revert this
  decide

end UnifyConsole.Account
