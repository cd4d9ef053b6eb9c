import UnifyConsole.Account.Wallets

/-!
# One customer, one wallet

A login of a customer group draws on the wallet its group is registered with; a
login of any other group has its tenant to itself.  `OneWallet` says so, with the
facts about the registry that keep it so.  An edit writes the new group before
the wallet follows, so in between one login is where it does not belong:
`OneWallet (some x)` is the invariant with the login `x` left out.
-/

namespace UnifyConsole.Account

open Lib
open Table Tx

/-- **The invariant**, with the login `x` left out. -/
structure OneWallet (x : Option Int) (s : Store) : Prop where
  staff : ∀ u ∈ s.users.rows, isStaffRole u.role = true → u.tenantId = 0
  owned : ∀ u ∈ s.users.rows, u.tenantId ≠ 0 → (s.tenants.find? u.tenantId).isSome = true
  backed : ∀ w ∈ s.customerWallets.rows,
    w.tenantId ≠ 0 ∧ (s.tenants.find? w.tenantId).isSome = true
  customer : ∀ w ∈ s.customerWallets.rows, s.isCustomerGroup w.group = true
  distinct : ∀ w ∈ s.customerWallets.rows, ∀ w' ∈ s.customerWallets.rows,
    w.tenantId = w'.tenantId → w = w'
  member : ∀ u ∈ s.users.rows, some u.id ≠ x → u.tenantId ≠ 0 →
    s.isCustomerGroup u.group = true → s.customerWallets.find? u.group = some ⟨u.group, u.tenantId⟩
  alone : ∀ u ∈ s.users.rows, some u.id ≠ x → u.tenantId ≠ 0 →
    s.isCustomerGroup u.group = false →
    (∀ v ∈ s.users.rows, v.tenantId = u.tenantId → v = u) ∧
      ∀ w ∈ s.customerWallets.rows, w.tenantId ≠ u.tenantId
  teams : ∀ c ∈ s.partnershipCustomers.rows, c.isDefault = false → c.removedAt = 0 →
    s.isCustomerGroup c.group = true
  teamWallet : ∀ c ∈ s.partnershipCustomers.rows, c.tenantId ≠ 0 →
    s.customerWallets.find? c.group = some ⟨c.group, c.tenantId⟩

structure Settled (s : Store) (u : User) : Prop where
  member : s.isCustomerGroup u.group = true →
    s.customerWallets.find? u.group = some ⟨u.group, u.tenantId⟩
  alone : s.isCustomerGroup u.group = false →
    (∀ v ∈ s.users.rows, v.tenantId = u.tenantId → v = u) ∧
      ∀ w ∈ s.customerWallets.rows, w.tenantId ≠ u.tenantId

variable {suffix : Nat → String} {edit : UserEdit}

namespace OneWallet

variable {x : Option Int} {s s' : Store}

theorem loosen (h : OneWallet none s) (x : Option Int) : OneWallet x s where
  staff := h.staff
  owned := h.owned
  backed := h.backed
  customer := h.customer
  distinct := h.distinct
  member := fun u hu _ => h.member u hu (by simp)
  alone := fun u hu _ => h.alone u hu (by simp)
  teams := h.teams
  teamWallet := h.teamWallet

variable {u : User}

theorem settled (h : OneWallet none s) (hu : u ∈ s.users.rows) (h0 : u.tenantId ≠ 0) :
    Settled s u :=
  ⟨h.member u hu (by simp) h0, h.alone u hu (by simp) h0⟩

variable {id : Int}

/-- The login that was left out is where it belongs. -/
theorem settle (h : OneWallet (some id) s)
    (hx : ∀ u, s.users.find? id = some u → u.tenantId ≠ 0 → Settled s u) : OneWallet none s := by
  have hself : ∀ u ∈ s.users.rows, ¬ some u.id ≠ some id → u.tenantId ≠ 0 → Settled s u := by
    intro u hu he h0
    simp only [Option.some.injEq, not_not] at he
    exact hx u (find?_eq_some_iff.mpr ⟨hu, he⟩) h0
  refine ⟨h.staff, h.owned, h.backed, h.customer, h.distinct, fun u hu _ h0 => ?_,
    fun u hu _ h0 => ?_, h.teams, h.teamWallet⟩
  · by_cases he : some u.id ≠ some id
    · exact h.member u hu he h0
    · exact (hself u hu he h0).member
  · by_cases he : some u.id ≠ some id
    · exact h.alone u hu he h0
    · exact (hself u hu he h0).alone

theorem isCustomerGroup_congr (h : s'.partnershipCustomers = s.partnershipCustomers)
    (group : String) : s'.isCustomerGroup group = s.isCustomerGroup group := by
  rw [Store.isCustomerGroup, Store.isCustomerGroup, h]

/-- Balances, names and owners of tenants do not matter, and there may be more
of them. -/
theorem congr (h : OneWallet x s) (hu : s'.users = s.users)
    (hw : s'.customerWallets = s.customerWallets)
    (hp : s'.partnershipCustomers = s.partnershipCustomers)
    (ht : ∀ id, (s.tenants.find? id).isSome = true → (s'.tenants.find? id).isSome = true) :
    OneWallet x s' := by
  have hc := isCustomerGroup_congr hp
  refine ⟨?_, ?_, ?_, ?_, ?_, ?_, ?_, ?_, ?_⟩
  · simpa only [hu] using h.staff
  · rw [hu]
    exact fun u hmem h0 => ht _ (h.owned u hmem h0)
  · rw [hw]
    exact fun w hmem => ⟨(h.backed w hmem).1, ht _ (h.backed w hmem).2⟩
  · simpa only [hw, hc] using h.customer
  · simpa only [hw] using h.distinct
  · simpa only [hu, hw, hc] using h.member
  · simpa only [hu, hw, hc] using h.alone
  · simpa only [hp, hc] using h.teams
  · simpa only [hp, hw] using h.teamWallet

/-! ### Registering a wallet -/

variable {w : Int}

/-- **Registering a wallet** for a customer group: one that no other group has, unless the login
left out brings it along. -/
theorem register {group : String} (h : OneWallet x s) (hr : Store.Registered group w s s')
    (hgroup : s.isCustomerGroup group = true)
    (hx : ∀ u ∈ s.users.rows, some u.id = x → s.customerWallets.find? group = none →
      s.members u.tenantId = 1 → u.tenantId ≠ 0 →
      ∀ r ∈ s.customerWallets.rows, r.tenantId ≠ u.tenantId) : OneWallet x s' := by
  have hc := isCustomerGroup_congr hr.customers
  rcases hr.wallets with ⟨-, hsame⟩ | ⟨hnone, hins⟩
  · exact h.congr hr.users hsame hr.customers fun id => hr.isSome
  -- the new wallet is there, and nobody else has it
  have hnew : w ≠ 0 ∧ (s'.tenants.find? w).isSome = true ∧
      (∀ r ∈ s.customerWallets.rows, r.tenantId ≠ w) ∧
      ∀ u ∈ s.users.rows, some u.id ≠ x → u.tenantId = w → s.isCustomerGroup u.group = true := by
    rcases hr.which with hwallet | ⟨-, hfresh, hsome⟩
    · unfold Store.groupWallet at hwallet
      rw [hnone] at hwallet
      cases hteam : s.teamOfGroup group with
      | some c =>
        obtain ⟨hmem, hcg, h0⟩ := Store.teamOfGroup_eq_some hteam
        have := h.teamWallet c hmem h0
        rw [hcg, hnone] at this
        cases this
      | none =>
        rw [hteam] at hwallet
        dsimp only at hwallet
        split at hwallet
        · rename_i hsolo
          cases hwallet
          obtain ⟨hone, y, hy, hyg, hyt⟩ := Store.soloWalletInGroup_eq rfl hsolo
          have h0 : y.tenantId ≠ 0 := hyt ▸ hsolo
          have hyx : some y.id = x := by
            by_contra hne
            have := h.member y hy hne h0 (hyg ▸ hgroup)
            rw [hyg, hnone] at this
            cases this
          refine ⟨hsolo, hr.isSome (hyt ▸ h.owned y hy h0), ?_, fun u hu hne hut => ?_⟩
          · exact hyt ▸ hx y hy hyx hnone (hyt ▸ hone) h0
          by_contra hcu
          rw [Bool.not_eq_true] at hcu
          obtain ⟨hal, -⟩ := h.alone u hu hne (hut ▸ hsolo) hcu
          rw [hal y hy (hyt.trans hut.symm)] at hyx
          exact hne hyx
        · cases hwallet
    · have hnot : s.tenants.find? w = none := hfresh ▸ s.tenants.find?_nextId
      refine ⟨?_, hsome, fun r hmem he => ?_, fun u hu _ hut => ?_⟩
      · have := s.tenants.nextId_pos
        omega
      · have := (h.backed r hmem).2
        rw [he, hnot] at this
        cases this
      have h0 : w ≠ 0 := by
        have := s.tenants.nextId_pos
        omega
      have := h.owned u hu (hut ▸ h0)
      rw [hut, hnot] at this
      cases this
  obtain ⟨h0, hsome, hfree, hothers⟩ := hnew
  have hkeep : ∀ {g : String} {r : CustomerWallet}, s.customerWallets.find? g = some r →
      s'.customerWallets.find? g = some r := fun hf => Table.find?_insert?_of_some hins hf
  refine ⟨?_, ?_, ?_, ?_, ?_, ?_, ?_, ?_, ?_⟩
  · simpa only [hr.users] using h.staff
  · rw [hr.users]
    exact fun u hu hu0 => hr.isSome (h.owned u hu hu0)
  · intro r hmem
    rcases (mem_insert? hins).mp hmem with hmem | rfl
    · exact ⟨(h.backed r hmem).1, hr.isSome (h.backed r hmem).2⟩
    · exact ⟨h0, hsome⟩
  · intro r hmem
    rw [hc]
    rcases (mem_insert? hins).mp hmem with hmem | rfl
    · exact h.customer r hmem
    · exact hgroup
  · intro r hmem r' hmem' he
    rcases (mem_insert? hins).mp hmem with hmem | rfl
    · rcases (mem_insert? hins).mp hmem' with hmem' | rfl
      · exact h.distinct r hmem r' hmem' he
      · exact absurd he (hfree r hmem)
    · rcases (mem_insert? hins).mp hmem' with hmem' | rfl
      · exact absurd he.symm (hfree r' hmem')
      · rfl
  · intro u hu hne hu0 hcu
    rw [hr.users] at hu
    rw [hc] at hcu
    exact hkeep (h.member u hu hne hu0 hcu)
  · intro u hu hne hu0 hcu
    rw [hr.users] at hu ⊢
    rw [hc] at hcu
    obtain ⟨hal, hun⟩ := h.alone u hu hne hu0 hcu
    refine ⟨hal, fun r hmem => ?_⟩
    rcases (mem_insert? hins).mp hmem with hmem | rfl
    · exact hun r hmem
    · intro he
      rw [hothers u hu hne he.symm] at hcu
      cases hcu
  · rw [hr.customers]
    simpa only [hc] using h.teams
  · rw [hr.customers]
    exact fun c hmem hc0 => hkeep (h.teamWallet c hmem hc0)

/-! ### Moving a login -/

variable {f : Int → Int}

/-- The login left out may be put anywhere but into a tenant that another has to itself. -/
theorem move {t : Int} (h : OneWallet (some id) s) (hu : s.users.find? id = some u)
    (hstaff : isStaffRole u.role = false) (hexists : (s'.tenants.find? t).isSome = true)
    (hother : ∀ v ∈ s.users.rows, v.id ≠ id → v.tenantId = t → s.isCustomerGroup v.group = true)
    (husers : s'.users = (s.setUserTenant id t f).users)
    (hw : s'.customerWallets = s.customerWallets)
    (hp : s'.partnershipCustomers = s.partnershipCustomers)
    (ht : ∀ k, (s.tenants.find? k).isSome = true → (s'.tenants.find? k).isSome = true) :
    OneWallet (some id) s' := by
  have hc := isCustomerGroup_congr hp
  -- a row is the moved one or was there before
  have hrow : ∀ v ∈ s'.users.rows,
      v = { u with tenantId := t, quota := f u.quota } ∨ (v ∈ s.users.rows ∧ v.id ≠ id) := by
    intro v hv
    have hf := find?_eq_some_iff.mpr ⟨hv, rfl⟩
    rw [husers, Store.find?_setUserTenant hu] at hf
    split at hf
    · exact .inl (Option.some.inj hf).symm
    · rename_i hne
      exact .inr ⟨mem_of_find? hf, hne⟩
  have hid : u.id = id := key_of_find? hu
  refine ⟨?_, ?_, ?_, ?_, ?_, ?_, ?_, ?_, ?_⟩
  · intro v hv hs
    rcases hrow v hv with rfl | ⟨hv, -⟩
    · rw [show isStaffRole u.role = true from hs] at hstaff
      cases hstaff
    · exact h.staff v hv hs
  · intro v hv h0
    rcases hrow v hv with rfl | ⟨hv, -⟩
    · exact hexists
    · exact ht _ (h.owned v hv h0)
  · rw [hw]
    exact fun r hmem => ⟨(h.backed r hmem).1, ht _ (h.backed r hmem).2⟩
  · simpa only [hw, hc] using h.customer
  · simpa only [hw] using h.distinct
  · intro v hv hne h0 hcv
    rw [hc] at hcv
    rw [hw]
    rcases hrow v hv with rfl | ⟨hv, -⟩
    · exact absurd (congrArg some hid) hne
    · exact h.member v hv hne h0 hcv
  · intro v hv hne h0 hcv
    rw [hc] at hcv
    rw [hw]
    rcases hrow v hv with rfl | ⟨hv, hvid⟩
    · exact absurd (congrArg some hid) hne
    obtain ⟨hal, hun⟩ := h.alone v hv hne h0 hcv
    refine ⟨fun v' hv' he => ?_, hun⟩
    rcases hrow v' hv' with rfl | ⟨hv', -⟩
    · rw [hother v hv hvid he.symm] at hcv
      cases hcv
    · exact hal v' hv' he
  · rw [hp]
    simpa only [hc] using h.teams
  · rw [hp, hw]
    exact h.teamWallet

/-- The login is put into the wallet of its group. -/
theorem moveInto (h : OneWallet (some id) s) (hu : s.users.find? id = some u)
    (hstaff : isStaffRole u.role = false)
    (hreg : s.customerWallets.find? u.group = some ⟨u.group, w⟩)
    (husers : s'.users = (s.setUserTenant id w f).users)
    (hw : s'.customerWallets = s.customerWallets)
    (hp : s'.partnershipCustomers = s.partnershipCustomers)
    (ht : ∀ k, (s.tenants.find? k).isSome = true → (s'.tenants.find? k).isSome = true) :
    OneWallet none s' := by
  have hmem := mem_of_find? hreg
  have hmove : OneWallet (some id) s' := by
    refine h.move hu hstaff (ht w (h.backed _ hmem).2) (fun v hv hne hvt => ?_) husers hw hp ht
    by_contra hc
    rw [Bool.not_eq_true] at hc
    have hv0 : v.tenantId ≠ 0 := hvt ▸ (h.backed _ hmem).1
    exact (h.alone v hv (by simpa using hne) hv0 hc).2 _ hmem hvt.symm
  refine hmove.settle fun v hv _ => ?_
  rw [husers, Store.find?_setUserTenant hu, if_pos rfl] at hv
  cases hv
  refine ⟨fun _ => by rw [hw]; exact hreg, fun hc => ?_⟩
  rw [isCustomerGroup_congr hp, h.customer _ hmem] at hc
  cases hc

/-- The login is put into a tenant made for it. -/
theorem moveNew {t : Int} (h : OneWallet (some id) s) (hu : s.users.find? id = some u)
    (hstaff : isStaffRole u.role = false) (hgroup : s.isCustomerGroup u.group = false)
    (hfresh : s.tenants.find? t = none) (h0 : t ≠ 0) (hexists : (s'.tenants.find? t).isSome = true)
    (husers : s'.users = (s.setUserTenant id t f).users)
    (hw : s'.customerWallets = s.customerWallets)
    (hp : s'.partnershipCustomers = s.partnershipCustomers)
    (ht : ∀ k, (s.tenants.find? k).isSome = true → (s'.tenants.find? k).isSome = true) :
    OneWallet none s' := by
  have hnobody : ∀ v ∈ s.users.rows, v.tenantId ≠ t := by
    intro v hv hvt
    have := h.owned v hv (hvt ▸ h0)
    rw [hvt, hfresh] at this
    cases this
  have hmove : OneWallet (some id) s' :=
    h.move hu hstaff hexists (fun v hv _ hvt => absurd hvt (hnobody v hv)) husers hw hp ht
  refine hmove.settle fun v hv _ => ?_
  have hfind : ∀ k, (s.setUserTenant id t f).users.find? k =
      if k = id then some { u with tenantId := t, quota := f u.quota } else s.users.find? k :=
    Store.find?_setUserTenant hu
  rw [husers, hfind, if_pos rfl] at hv
  cases hv
  refine ⟨fun hc => ?_, fun _ => ⟨fun v hv hvt => ?_, fun r hmem hr => ?_⟩⟩
  · rw [isCustomerGroup_congr hp, hgroup] at hc
    cases hc
  · have hf := find?_eq_some_iff.mpr ⟨hv, rfl⟩
    rw [husers, hfind] at hf
    split at hf
    · exact (Option.some.inj hf).symm
    · exact absurd hvt (hnobody v (mem_of_find? hf))
  · rw [hw] at hmem
    have := (h.backed r hmem).2
    rw [show r.tenantId = t from hr, hfresh] at this
    cases this

theorem claimTeamTenantOwner (h : OneWallet x s) (tenantId userId : Int) :
    OneWallet x (s.claimTeamTenantOwner tenantId userId) :=
  h.congr rfl rfl rfl fun id hid => by rw [Store.isSome_claimTeamTenantOwner, hid]

/-- A login that joins the wallet of its group. -/
theorem join (h : OneWallet (some id) s) (hreg : ∀ u, s.users.find? id = some u →
      s.customerWallets.find? u.group = some ⟨u.group, w⟩)
    (hok : joinCustomerPoolTx id w s = .ok ((), s')) : OneWallet none s' := by
  obtain ⟨-, -, u, hu, hid, ⟨ht, rfl⟩ | ⟨-, hstaff, -, hj⟩⟩ := Store.joinCustomerPoolTx_ok hok
  · refine h.settle fun v hv _ => ?_
    rw [hu] at hv
    cases hv
    refine ⟨fun _ => ht ▸ hreg u hu, fun hc => ?_⟩
    rw [h.customer _ (mem_of_find? (hreg u hu))] at hc
    cases hc
  · exact h.moveInto hu hstaff (hreg u hu) (hid ▸ hj.users) hj.wallets hj.customers
      (fun k hk => by rw [hj.tenants, hk])

/-! ### The hook after an insert -/

theorem createTenant {tenant row : Tenant}
    (hok : createTenantWithTx suffix tenant s = .ok (row, s')) :
    s'.users = s.users ∧ s'.customerWallets = s.customerWallets ∧
      s'.partnershipCustomers = s.partnershipCustomers ∧ row.id ≠ 0 ∧
      s.tenants.find? row.id = none ∧ (s'.tenants.find? row.id).isSome = true ∧
      ∀ k, (s.tenants.find? k).isSome = true → (s'.tenants.find? k).isSome = true := by
  obtain ⟨hid, -, tenants, hins, rfl⟩ := Store.createTenantWithTx_ok hok
  have hpos := s.tenants.nextId_pos
  refine ⟨rfl, rfl, rfl, by omega, hid ▸ s.tenants.find?_nextId, ?_, fun k hk => ?_⟩
  · rw [find?_insert?_self hins]
    rfl
  · exact isSome_find?_insert? hins hk

theorem ensureTenantForUserTx {userId : Int} {r : Option Tenant} (h : OneWallet none s)
    (hok : ensureTenantForUserTx suffix userId s = .ok (r, s')) : OneWallet none s' := by
  obtain ⟨user, hfind, he⟩ := Store.ensureTenantForUserTx_ok hok
  obtain rfl := key_of_find? hfind
  cases he with
  | kept => exact h
  | @joined w s₁ s₂ hstaff h0 hc hr hjoin =>
    have h₁ : OneWallet (some user.id) s₁ := by
      refine (h.loosen _).register hr hc fun v hv hve _ _ hv0 => ?_
      -- the login has no tenant to bring along
      have hvu : s.users.find? user.id = some v :=
        find?_eq_some_iff.mpr ⟨hv, Option.some.inj hve⟩
      rw [hfind] at hvu
      cases hvu
      exact absurd h0 hv0
    refine (h₁.join (fun v hv => ?_) hjoin).claimTeamTenantOwner w user.id
    rw [hr.users, hfind] at hv
    cases hv
    exact hr.find
  | created hstaff h0 hc hcreate =>
    obtain ⟨hu, hw, hp, ht0, hfresh, hexists, ht⟩ := createTenant hcreate
    exact (h.loosen (some user.id)).moveNew hfind hstaff hc hfresh ht0 hexists
      (Store.users_setUserTenant_congr hu _ _ _) hw hp ht

/-! ### Edits -/

theorem mem_editUser {v : User} :
    v ∈ (s.editUser edit).users.rows ↔
      ∃ u ∈ s.users.rows, v = if u.id = edit.id then edit.edited u else u := by
  simp only [Store.editUser, Table.update, List.mem_map, decide_eq_true_eq]
  exact exists_congr fun u => and_congr_right fun _ => eq_comm

/-- The edited login is the one left out. -/
theorem editUser (h : OneWallet none s) (edit : UserEdit) :
    OneWallet (some edit.id) (s.editUser edit) := by
  -- a row other than the edited one was there before
  have hrow : ∀ v ∈ (s.editUser edit).users.rows, ∃ u ∈ s.users.rows,
      v.role = u.role ∧ v.tenantId = u.tenantId ∧ v.id = u.id ∧ (v.id ≠ edit.id → v = u) := by
    intro v hv
    obtain ⟨u, hu, rfl⟩ := mem_editUser.mp hv
    refine ⟨u, hu, ?_⟩
    split
    · rename_i he
      exact ⟨rfl, rfl, rfl, fun hne => absurd he hne⟩
    · exact ⟨rfl, rfl, rfl, fun _ => rfl⟩
  refine ⟨?_, ?_, h.backed, h.customer, h.distinct, ?_, ?_, h.teams, h.teamWallet⟩
  · intro v hv hs
    obtain ⟨u, hu, hrole, htenant, -⟩ := hrow v hv
    rw [htenant]
    exact h.staff u hu (hrole ▸ hs)
  · intro v hv h0
    obtain ⟨u, hu, -, htenant, -⟩ := hrow v hv
    rw [htenant] at h0 ⊢
    exact h.owned u hu h0
  · intro v hv hne h0 hc
    obtain ⟨u, hu, -, -, -, hsame⟩ := hrow v hv
    obtain rfl := hsame (by simpa using hne)
    exact (h.settled hu h0).member hc
  · intro v hv hne h0 hc
    obtain ⟨u, hu, -, -, -, hsame⟩ := hrow v hv
    obtain rfl := hsame (by simpa using hne)
    obtain ⟨hal, hun⟩ := (h.settled hu h0).alone hc
    refine ⟨fun v' hv' ht => ?_, hun⟩
    obtain ⟨u', hu', -, htenant, hid, hsame'⟩ := hrow v' hv'
    have hu'v := hal u' hu' (htenant.symm.trans ht)
    rw [hsame' (by rw [hid, hu'v]; simpa using hne), hu'v]

theorem find?_editUser (hu : s.users.find? edit.id = some u) :
    (s.editUser edit).users.find? edit.id = some (edit.edited u) := by
  simp only [Store.editUser]
  rw [find?_update_at hu (decide_eq_true (key_of_find? hu))
    (fun x hx => of_decide_eq_true hx), if_pos rfl]

theorem members_editUser (edit : UserEdit) (tenantId : Int) :
    (s.editUser edit).members tenantId = s.members tenantId := by
  simp only [Store.members, Store.editUser]
  rw [matched_update_of_same]
  exact fun _ => rfl

/-- A login that kept its group keeps its place. -/
theorem editUser_sameGroup (h : OneWallet none s) (hu : s.users.find? edit.id = some u)
    (hgroup : u.group = edit.group) : OneWallet none (s.editUser edit) := by
  refine (h.editUser edit).settle fun v hv h0 => ?_
  rw [find?_editUser hu] at hv
  cases hv
  have hset := h.settled (mem_of_find? hu) h0
  refine ⟨fun hc => ?_, fun hc => ?_⟩
  · have := hset.member (hgroup ▸ hc)
    rw [hgroup] at this
    exact this
  obtain ⟨hal, hun⟩ := hset.alone (hgroup ▸ hc)
  refine ⟨fun v hv ht => ?_, hun⟩
  obtain ⟨u', hu', rfl⟩ := mem_editUser.mp hv
  have hu'u : u' = u := hal u' hu' (by split at ht <;> exact ht)
  rw [hu'u, if_pos (key_of_find? hu)]

/-- `reattachWalletTx` puts a login whose new group is written where it belongs, unless it strands a
registered wallet. -/
theorem reattachWalletTx {user : User} {group : String} (h : OneWallet (some user.id) s)
    (hu : s.users.find? user.id = some u) (hstaff : isStaffRole u.role = false)
    (htenant : u.tenantId = user.tenantId) (hgroup : u.group = group)
    (hstays : s.members u.tenantId = 1 → s.customerWallets.find? group = none →
      ∀ r ∈ s.customerWallets.rows, r.tenantId ≠ u.tenantId)
    (hok : reattachWalletTx suffix user group s = .ok ((), s')) : OneWallet none s' := by
  subst hgroup
  have hregister : ∀ {w s₁}, Store.Registered u.group w s s₁ → s.isCustomerGroup u.group = true →
      OneWallet (some user.id) s₁ := by
    intro w s₁ hr hc
    refine h.register hr hc fun v hv hve hnone hone _ => ?_
    have hvu : s.users.find? user.id = some v :=
      Table.find?_eq_some_iff.mpr ⟨hv, Option.some.inj hve⟩
    rw [hu] at hvu
    cases hvu
    exact hstays hone hnone
  cases Store.reattachWalletTx_ok hok with
  | same hc hr hw =>
    refine (hregister hr hc).settle fun v hv _ => ?_
    rw [hr.users, hu] at hv
    cases hv
    refine ⟨fun _ => (htenant.trans hw).symm ▸ hr.find, fun hc' => ?_⟩
    rw [isCustomerGroup_congr hr.customers, hc] at hc'
    cases hc'
  | joined hc hr hw hjoin =>
    refine ((hregister hr hc).join (fun v hv => ?_) hjoin).claimTeamTenantOwner _ _
    rw [hr.users, hu] at hv
    cases hv
    exact hr.find
  | moved hc hr =>
    exact ((hregister hr hc).moveInto (hr.users ▸ hu) hstaff hr.find rfl rfl rfl
      (fun _ hk => hk)).claimTeamTenantOwner _ _
  | kept hc hsolo =>
    rw [← htenant] at hsolo
    refine h.settle fun v hv _ => ?_
    rw [hu] at hv
    cases hv
    have hmem := mem_of_find? hu
    refine ⟨fun hc' => ?_, fun _ => ⟨fun v hv ht => ?_, ?_⟩⟩
    · rw [hc] at hc'
      cases hc'
    · exact Store.eq_of_members_le_one hsolo.2 hv hmem ht rfl
    refine hstays (le_antisymm hsolo.2 (Store.members_pos hmem)) ?_
    rw [Option.eq_none_iff_forall_ne_some]
    intro r hr
    have := h.customer r (mem_of_find? hr)
    rw [show r.group = u.group from key_of_find? hr, hc] at this
    cases this
  | created hc hcreate =>
    obtain ⟨hu', hw, hp, ht0, hfresh, hexists, ht⟩ := createTenant hcreate
    exact h.moveNew hu hstaff hc hfresh ht0 hexists
      (Store.users_setUserTenant_congr hu' _ _ _) hw hp ht

end OneWallet

/-- The edit takes the only member of a registered wallet to a group that has no
registered wallet. -/
def Store.strandsWallet (s : Store) (edit : UserEdit) : Bool :=
  (s.users.find? edit.id).any fun u =>
    u.group != edit.group && !isStaffRole u.role && s.members u.tenantId == 1 &&
      (s.customerWallets.find? edit.group).isNone &&
      s.customerWallets.rows.any fun w => w.tenantId == u.tenantId

namespace OneWallet

variable {s s' : Store}

theorem editWithTx (h : OneWallet none s) (hstays : s.strandsWallet edit = false)
    (hok : editWithTx suffix edit s = .ok ((), s')) : OneWallet none s' := by
  unfold Account.editWithTx at hok
  simp only [bind_ok, fetch_ok, when_ok] at hok
  obtain ⟨previous, s, ⟨_, hfind, rfl, rfl⟩, _, _, ⟨-, rfl⟩, hok⟩ := hok
  have hid : previous.id = edit.id := key_of_find? hfind
  rcases hok with ⟨⟨hgroup, hstaff⟩, hok⟩ | ⟨hsame, -, rfl⟩
  · have hleft : OneWallet (some previous.id) (s.editUser edit) := hid ▸ h.editUser edit
    have hedited : (s.editUser edit).users.find? previous.id = some (edit.edited previous) :=
      hid ▸ find?_editUser hfind
    refine OneWallet.reattachWalletTx hleft hedited hstaff rfl rfl (fun hone hnone r hr he => ?_) hok
    rw [members_editUser] at hone
    replace hnone : s.customerWallets.find? edit.group = none := hnone
    have : s.strandsWallet edit = true := by
      unfold Store.strandsWallet
      rw [hfind, Option.any_some]
      simp only [Bool.and_eq_true, bne_iff_ne, Bool.not_eq_true', beq_iff_eq, List.any_eq_true]
      exact ⟨⟨⟨⟨hgroup, hstaff⟩, hone⟩, by rw [hnone]; rfl⟩, r, hr, he⟩
    rw [this] at hstays
    cases hstays
  · by_cases hgroup : previous.group = edit.group
    · exact h.editUser_sameGroup hfind hgroup
    -- a staff login has no tenant
    refine (h.editUser edit).settle fun v hv h0 => ?_
    rw [find?_editUser hfind] at hv
    cases hv
    have hstaff : isStaffRole previous.role = true := by
      by_contra hs
      exact hsame ⟨hgroup, Bool.not_eq_true _ ▸ hs⟩
    exact absurd (h.staff previous (mem_of_find? hfind) hstaff) h0

end OneWallet

end UnifyConsole.Account
