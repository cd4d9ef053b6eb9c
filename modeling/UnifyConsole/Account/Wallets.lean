import Mathlib.Data.List.Dedup
import UnifyConsole.Account.Partnership

/-!
# What the wallet functions give

One lemma for each function of `Account.Tenant`: which rows a success has
written.  A new tenant has a new id; the wallet of a group is the one it is
registered with, the one of its team, the one of a login that is alone in its
own, or a new one; joining a wallet carries the login's column and its tenant's
balance along.
-/

namespace UnifyConsole.Account

open Lib
open Table Tx List Option Tenant Store

namespace Store

variable {s s' : Store}

def credit (s : Store) : Int := s.users.sum User.quota + s.tenants.sum Tenant.quota

/-! ### Single statements -/

variable {userId tenantId : Int} {f : Int → Int} {u : User}

theorem find?_setUserTenant (h : s.users.find? userId = some u) (id : Int) :
    (s.setUserTenant userId tenantId f).users.find? id =
      if id = userId then some { u with tenantId := tenantId, quota := f u.quota }
      else s.users.find? id := by
  simp only [setUserTenant]
  rw [find?_update_at h (decide_eq_true (key_of_find? h))
    (fun x hx => of_decide_eq_true hx)]

theorem usersSum_setUserTenant (h : s.users.find? userId = some u) :
    (s.setUserTenant userId tenantId f).users.sum User.quota =
      s.users.sum User.quota + (f u.quota - u.quota) := by
  simp only [setUserTenant]
  rw [sum_update_one h (decide_eq_true (key_of_find? h))
    (fun _ _ hx => of_decide_eq_true hx)]

theorem users_setUserTenant_congr (h : s'.users = s.users) (userId tenantId : Int)
    (f : Int → Int) :
    (s'.setUserTenant userId tenantId f).users = (s.setUserTenant userId tenantId f).users :=
  ext (by simp only [setUserTenant, update, h])

variable {id : Int}

theorem tenantsSum_setQuota {t : Tenant} (h : s.tenants.find? id = some t) :
    (s.setQuota (.tenant id) (fun _ => true) f).tenants.sum quota =
      s.tenants.sum quota + (f t.quota - t.quota) := by
  simp only [setQuota]
  rw [sum_update_one h (by simp [key_of_find? h])
    (fun _ _ hx => of_decide_eq_true (Bool.and_elim_left hx))]

theorem find?_user_setQuota (h : s.users.find? id = some u) (k : Int) :
    (s.setQuota (.user id) (fun _ => true) f).users.find? k =
      if k = id then some { u with quota := f u.quota } else s.users.find? k := by
  simp only [setQuota]
  rw [find?_update_at h (by simp [key_of_find? h])
    (fun _ hx => of_decide_eq_true (Bool.and_elim_left hx))]

theorem usersSum_setQuota (h : s.users.find? id = some u) :
    (s.setQuota (.user id) (fun _ => true) f).users.sum User.quota =
      s.users.sum User.quota + (f u.quota - u.quota) := by
  simp only [setQuota]
  rw [sum_update_one h (by simp [key_of_find? h])
    (fun _ _ hx => of_decide_eq_true (Bool.and_elim_left hx))]

theorem isSome_tenant_setQuota (id : Int) (f : Int → Int) (k : Int) :
    ((s.setQuota (.tenant id) (fun _ => true) f).tenants.find? k).isSome =
      (s.tenants.find? k).isSome := by
  simp only [setQuota]
  rw [isSome_find?_update]

theorem tenantsSum_setTenantName (id : Int) (name : String) :
    (s.setTenantName id name).tenants.sum quota = s.tenants.sum quota := by
  simp only [setTenantName]
  rw [sum_update_of_same]
  exact fun _ => rfl

theorem quota_setTenantName (id : Int) (name : String) (k : Int) :
    ((s.setTenantName id name).tenants.find? k).map quota =
      (s.tenants.find? k).map quota := by
  simp only [setTenantName]
  rw [map_find?_update]
  exact fun _ => rfl

theorem tenantsSum_claimTeamTenantOwner (id userId : Int) :
    (s.claimTeamTenantOwner id userId).tenants.sum quota = s.tenants.sum quota := by
  simp only [claimTeamTenantOwner]
  rw [sum_update_of_same]
  exact fun _ => rfl

theorem isSome_claimTeamTenantOwner (id userId k : Int) :
    ((s.claimTeamTenantOwner id userId).tenants.find? k).isSome = (s.tenants.find? k).isSome := by
  simp only [claimTeamTenantOwner]
  rw [isSome_find?_update]

theorem members_congr (h : s'.users = s.users) (tenantId : Int) :
    s'.members tenantId = s.members tenantId := by
  rw [members, members, h]

/-- A wallet with one member has no other. -/
theorem eq_of_members_le_one (h : s.members tenantId ≤ 1) {v : User} (hu : u ∈ s.users.rows)
    (hv : v ∈ s.users.rows) (hut : u.tenantId = tenantId) (hvt : v.tenantId = tenantId) :
    u = v := by
  have hu' : u ∈ s.users.rows.filter (fun x => decide (x.tenantId = tenantId)) :=
    mem_filter.mpr ⟨hu, decide_eq_true hut⟩
  have hv' : v ∈ s.users.rows.filter (fun x => decide (x.tenantId = tenantId)) :=
    mem_filter.mpr ⟨hv, decide_eq_true hvt⟩
  have hlen : (s.users.rows.filter fun x => decide (x.tenantId = tenantId)).length ≤ 1 := h
  generalize s.users.rows.filter (fun x => decide (x.tenantId = tenantId)) = l at hu' hv' hlen
  match l, hlen with
  | [x], _ => exact (mem_singleton.mp hu').trans (mem_singleton.mp hv').symm

theorem members_pos (hu : u ∈ s.users.rows) : 0 < s.members u.tenantId :=
  length_pos_of_mem (mem_filter.mpr ⟨hu, decide_eq_true rfl⟩)

/-! ### New tenants -/

theorem insertTenant_eq_some {tenant row : Tenant} (h : insertTenant tenant s = some (row, s')) :
    row.id = s.tenants.nextId ∧ row.quota = tenant.quota ∧
      ∃ tenants, s.tenants.insert? row = some tenants ∧ s' = { s with tenants := tenants } := by
  unfold insertTenant at h
  split at h
  · cases h
  · simp only [map_eq_some_iff, Prod.mk.injEq] at h
    obtain ⟨tenants, hins, rfl, rfl⟩ := h
    exact ⟨rfl, rfl, tenants, hins, rfl⟩

variable {suffix : Nat → String}

theorem createTenantLoop_ok {base : String} {fuel : Nat} :
    ∀ {attempt : Nat} {tenant row : Tenant},
      createTenantLoop suffix base fuel attempt tenant s = .ok (row, s') →
      row.id = s.tenants.nextId ∧ row.quota = tenant.quota ∧
        ∃ tenants, s.tenants.insert? row = some tenants ∧ s' = { s with tenants := tenants } := by
  induction fuel with
  | zero =>
    intro attempt tenant row h
    exact absurd h (by simp [createTenantLoop, fail])
  | succ fuel ih =>
    intro attempt tenant row h
    unfold createTenantLoop at h
    split at h
    · rename_i r hr
      cases h
      exact insertTenant_eq_some hr
    · have hnext := ih h
      exact hnext

/-- **A new tenant** has a new id and the balance it was asked for. -/
theorem createTenantWithTx_ok {tenant row : Tenant}
    (h : createTenantWithTx suffix tenant s = .ok (row, s')) :
    row.id = s.tenants.nextId ∧ row.quota = tenant.quota ∧
      ∃ tenants, s.tenants.insert? row = some tenants ∧ s' = { s with tenants := tenants } := by
  obtain ⟨hid, hquota, hrest⟩ := createTenantLoop_ok h
  refine ⟨hid, hquota.trans ?_, hrest⟩
  split <;> rfl

/-! ### The wallet of a group -/

/-- The wallet a group has, before one is made for it. -/
def groupWallet (s : Store) (group : String) : Option Int :=
  match s.customerWallets.find? group with
  | some wallet => some wallet.tenantId
  | none =>
    match s.teamOfGroup group with
    | some team => some team.tenantId
    | none => if s.soloWalletInGroup group ≠ 0 then some (s.soloWalletInGroup group) else none

variable {group : String}

theorem teamOfGroup_eq_some {c : PartnershipCustomer} (h : s.teamOfGroup group = some c) :
    c ∈ s.partnershipCustomers.rows ∧ c.group = group ∧ c.tenantId ≠ 0 := by
  have hmem := mem_of_mem_head? h
  rw [mem_insertionSort, mem_filter] at hmem
  simp only [Bool.and_eq_true, decide_eq_true_eq] at hmem
  exact ⟨hmem.1, hmem.2.1.1.1, hmem.2.2⟩

variable {w : Int}

theorem soloWalletInGroup_eq (h : s.soloWalletInGroup group = w) (h0 : w ≠ 0) :
    s.members w = 1 ∧ ∃ u ∈ s.users.rows, u.group = group ∧ u.tenantId = w := by
  unfold soloWalletInGroup at h
  dsimp only at h
  generalize hfind : find? _ _ = found at h
  cases found with
  | none => exact absurd h.symm h0
  | some tenantId =>
    obtain rfl : tenantId = w := h
    have hone := find?_some hfind
    have hmem := mem_of_find?_eq_some hfind
    rw [mem_insertionSort, mem_dedup, List.mem_map] at hmem
    obtain ⟨u, hu, htenant⟩ := hmem
    rw [mem_filter] at hu
    simp only [Bool.and_eq_true, decide_eq_true_eq] at hu
    exact ⟨beq_iff_eq.mp hone, u, hu.1, hu.2.1.1, htenant⟩

/-- What is written when the wallet `w` of a group is asked for. -/
structure Registered (group : String) (w : Int) (s s' : Store) : Prop where
  users : s'.users = s.users
  customers : s'.partnershipCustomers = s.partnershipCustomers
  wallets : (s.customerWallets.find? group = some ⟨group, w⟩ ∧
      s'.customerWallets = s.customerWallets) ∨
    (s.customerWallets.find? group = none ∧
      s.customerWallets.insert? ⟨group, w⟩ = some s'.customerWallets)
  tenantsSum : s'.tenants.sum Tenant.quota = s.tenants.sum Tenant.quota
  quotas : ∀ id, (s.tenants.find? id).isSome = true →
    (s'.tenants.find? id).map Tenant.quota = (s.tenants.find? id).map Tenant.quota
  which : s.groupWallet group = some w ∨
    (s.groupWallet group = none ∧ w = s.tenants.nextId ∧ (s'.tenants.find? w).isSome = true)

theorem Registered.find (h : Registered group w s s') :
    s'.customerWallets.find? group = some ⟨group, w⟩ := by
  rcases h.wallets with ⟨hf, he⟩ | ⟨-, hins⟩
  · rw [he, hf]
  · exact find?_insert?_self hins

theorem Registered.isSome (h : Registered group w s s') (hid : (s.tenants.find? id).isSome = true) :
    (s'.tenants.find? id).isSome = true := by
  have := congrArg Option.isSome (h.quotas id hid)
  rw [isSome_map, isSome_map] at this
  rw [this]
  exact hid

theorem firstCustomerWallet_ok {name slug : String} (hnone : s.customerWallets.find? group = none)
    (h : firstCustomerWallet suffix group name slug s = .ok (w, s')) :
    s'.users = s.users ∧ s'.partnershipCustomers = s.partnershipCustomers ∧
    s'.customerWallets = s.customerWallets ∧
    s'.tenants.sum quota = s.tenants.sum quota ∧
    (∀ id, (s.tenants.find? id).isSome = true →
      (s'.tenants.find? id).map quota = (s.tenants.find? id).map quota) ∧
    (s.groupWallet group = some w ∨
      (s.groupWallet group = none ∧ w = s.tenants.nextId ∧
        (s'.tenants.find? w).isSome = true)) := by
  unfold firstCustomerWallet at h
  simp only [bind_ok, read_ok, Prod.mk.injEq] at h
  obtain ⟨team, s, ⟨hteam, rfl⟩, h⟩ := h
  have hwallet : s.groupWallet group = match s.teamOfGroup group with
      | some team => some team.tenantId
      | none => if s.soloWalletInGroup group ≠ 0 then some (s.soloWalletInGroup group)
        else none := by
    rw [groupWallet, hnone]
  rw [hwallet, ← hteam]
  cases team with
  | some =>
    obtain ⟨rfl, rfl⟩ := h
    exact ⟨rfl, rfl, rfl, rfl, fun _ _ => rfl, .inl rfl⟩
  | none =>
    simp only [bind_ok, read_ok, Prod.mk.injEq] at h
    obtain ⟨solo, s, ⟨hsolo, rfl⟩, h⟩ := h
    rw [← hsolo]
    split at h
    · rename_i hne
      obtain ⟨_, _, ⟨-, rfl⟩, rfl, rfl⟩ := h
      refine ⟨rfl, rfl, rfl, ?_, fun id _ => ?_, .inl (if_pos hne)⟩
      · exact tenantsSum_setTenantName w name
      · exact quota_setTenantName w name id
    rename_i hne
    simp only [bind_ok, pure_ok] at h
    obtain ⟨row, _, hcreate, rfl, rfl⟩ := h
    obtain ⟨hid, hquota, tenants, hins, rfl⟩ := createTenantWithTx_ok hcreate
    refine ⟨rfl, rfl, rfl, ?_, fun id hid => ?_, .inr ⟨if_neg hne, hid, ?_⟩⟩
    · rw [sum_insert? hins, hquota, add_zero]
    · obtain ⟨t, ht⟩ := isSome_iff_exists.mp hid
      rw [find?_insert?_of_some hins ht, ht]
    · rw [find?_insert?_self hins]
      rfl

/-- **The wallet of a group** is registered with it. -/
theorem customerWalletTx_ok {name slug : String}
    (h : customerWalletTx suffix group name slug s = .ok (w, s')) : Registered group w s s' := by
  unfold customerWalletTx at h
  simp only [bind_ok, read_ok, Prod.mk.injEq] at h
  obtain ⟨wallet, s, ⟨hwallet, rfl⟩, h⟩ := h
  cases wallet with
  | some wallet =>
    obtain ⟨rfl, rfl⟩ := h
    have hgroup : wallet.group = group := key_of_find? hwallet.symm
    refine ⟨rfl, rfl, .inl ⟨?_, rfl⟩, rfl, fun _ _ => rfl, .inl ?_⟩
    · rw [← hwallet, ← hgroup]
    · rw [groupWallet, ← hwallet]
  | none =>
    simp only [bind_ok, writeSome_ok, map_eq_some_iff] at h
    obtain ⟨_, s₁, hfirst, _, _, ⟨_, ⟨t, hins, rfl⟩, -, rfl⟩, rfl, rfl⟩ := h
    obtain ⟨hu, hp, hw, hsum, hq, hwhich⟩ := firstCustomerWallet_ok hwallet.symm hfirst
    rw [hw] at hins
    exact ⟨hu, hp, .inr ⟨hwallet.symm, hins⟩, hsum, hq, hwhich⟩

/-! ### Joining a wallet -/

/-- The login `u` and all it had to itself have gone into the wallet `w`. -/
structure Joined (u : User) (w : Int) (s s' : Store) : Prop where
  users : s'.users = (s.setUserTenant u.id w fun _ => 0).users
  customers : s'.partnershipCustomers = s.partnershipCustomers
  wallets : s'.customerWallets = s.customerWallets
  tenants : ∀ id, (s'.tenants.find? id).isSome = (s.tenants.find? id).isSome
  carried : (s.tenants.find? w).isSome = true →
    s'.tenants.sum Tenant.quota = s.tenants.sum Tenant.quota + u.quota

theorem Joined.credit (h : Joined u w s s') (hu : s.users.find? u.id = some u)
    (hw : (s.tenants.find? w).isSome = true) : s'.credit = s.credit := by
  rw [Store.credit, Store.credit, h.users, usersSum_setUserTenant hu, h.carried hw]
  omega

theorem absorbSoloTenant_ok {user : User} {solo : Int}
    (h : absorbSoloTenant user s = .ok (solo, s')) :
    (user.tenantId = 0 ∨ s.members user.tenantId ≤ 1) ∧
    s'.users = s.users ∧ s'.partnershipCustomers = s.partnershipCustomers ∧
    s'.customerWallets = s.customerWallets ∧
    (∀ id, (s'.tenants.find? id).isSome = (s.tenants.find? id).isSome) ∧
    s'.tenants.sum quota + solo = s.tenants.sum quota := by
  unfold absorbSoloTenant at h
  split at h
  · rename_i h0
    obtain ⟨rfl, rfl⟩ := h
    exact ⟨.inl h0, rfl, rfl, rfl, fun _ => rfl, add_zero _⟩
  simp only [bind_ok, read_ok, ensure_ok, fetch_ok, when_ok, Prod.mk.injEq] at h
  obtain ⟨members, _, ⟨hmembers, rfl⟩, _, _, ⟨hle, -, rfl⟩, tenant, _, ⟨_, hfind, rfl, rfl⟩, _, s₁,
    hwrite, rfl, rfl⟩ := h
  rw [hmembers] at hle
  have hid : tenant.id = user.tenantId := key_of_find? hfind
  rcases hwrite with ⟨-, -, rfl⟩ | ⟨h0, -, rfl⟩
  · refine ⟨.inr hle, rfl, rfl, rfl, fun id => isSome_tenant_setQuota _ _ id, ?_⟩
    rw [tenantsSum_setQuota (hid ▸ hfind)]
    omega
  · rw [not_not] at h0
    rw [h0]
    exact ⟨.inr hle, rfl, rfl, rfl, fun _ => rfl, add_zero _⟩

/-- **Joining a wallet.** -/
theorem joinCustomerPoolTx_ok (h : joinCustomerPoolTx userId w s = .ok ((), s')) :
    0 < userId ∧ 0 < w ∧ ∃ u, s.users.find? userId = some u ∧ u.id = userId ∧
      ((u.tenantId = w ∧ s' = s) ∨
        (u.tenantId ≠ w ∧ isStaffRole u.role = false ∧
          (u.tenantId = 0 ∨ s.members u.tenantId ≤ 1) ∧ Joined u w s s')) := by
  unfold joinCustomerPoolTx at h
  simp only [bind_ok, ensure_ok, fetch_ok] at h
  obtain ⟨_, _, ⟨hpos, -, rfl⟩, user, s, ⟨_, hfind, rfl, rfl⟩, h⟩ := h
  have hid : user.id = userId := key_of_find? hfind
  refine ⟨hpos.1, hpos.2, user, hfind, hid, ?_⟩
  split at h
  · rename_i he
    rw [pure_ok, Prod.mk.injEq] at h
    exact .inl ⟨he, h.2⟩
  rename_i hne
  simp only [bind_ok, ensure_ok, when_ok, Prod.mk.injEq] at h
  obtain ⟨_, _, ⟨hstaff, -, rfl⟩, solo, s₁, hsolo, _, s₂, hcarry, -, rfl⟩ := h
  obtain ⟨hown, hu, hp, hw, ht, hsum⟩ := absorbSoloTenant_ok hsolo
  refine .inr ⟨hne, hstaff, hown, ?_⟩
  rcases hcarry with ⟨-, -, rfl⟩ | ⟨h0, -, rfl⟩
  · refine ⟨?_, hp, hw, fun id => ?_, fun hexists => ?_⟩
    · exact users_setUserTenant_congr (by simp only [setQuota, hu]) _ _ _
    · exact (isSome_tenant_setQuota w (fun q => q + (user.quota + solo)) id).trans (ht id)
    obtain ⟨target, htarget⟩ := isSome_iff_exists.mp ((ht w).trans hexists)
    have hadd := tenantsSum_setQuota (f := fun q => q + (user.quota + solo)) htarget
    show (s₁.setQuota (.tenant w) (fun _ => true)
      (fun q => q + (user.quota + solo))).tenants.sum quota = _
    omega
  · rw [not_not] at h0
    refine ⟨?_, hp, hw, ht, fun _ => ?_⟩
    · exact users_setUserTenant_congr hu _ _ _
    · show s₂.tenants.sum quota = _
      omega

/-- **When joining a wallet is refused.** -/
theorem joinCustomerPoolTx_error {e : AccountError} (hu : s.users.find? userId = some u)
    (hne : u.tenantId ≠ w) (h : joinCustomerPoolTx userId w s = .error e) :
    (¬ (0 < userId ∧ 0 < w) ∧ e = .idsRequired) ∨
    (isStaffRole u.role = true ∧ e = .operatorAccount) ∨
    (u.tenantId ≠ 0 ∧ 1 < s.members u.tenantId ∧ e = .alreadyInAnotherPool) ∨
    (u.tenantId ≠ 0 ∧ s.tenants.find? u.tenantId = none ∧ e = .recordNotFound) := by
  unfold joinCustomerPoolTx at h
  rw [bind_error, ensure_error] at h
  rcases h with h | ⟨_, _, hpos, h⟩
  · exact .inl h
  obtain ⟨-, hs⟩ := ensure_ok.mp hpos
  cases hs
  rw [bind_error, fetch_error] at h
  rcases h with ⟨hnone, -⟩ | ⟨user, _, hfetch, h⟩
  · rw [hu] at hnone
    cases hnone
  obtain ⟨_, hfind, hs⟩ := fetch_ok.mp hfetch
  cases hs
  rw [hu] at hfind
  cases hfind
  rw [if_neg hne, bind_error, ensure_error] at h
  rcases h with ⟨hstaff, he⟩ | ⟨_, _, hstaff, h⟩
  · exact .inr (.inl ⟨Bool.not_eq_false _ ▸ hstaff, he⟩)
  obtain ⟨-, hs⟩ := ensure_ok.mp hstaff
  cases hs
  rw [bind_error] at h
  rcases h with h | ⟨_, _, -, h⟩
  · unfold absorbSoloTenant at h
    split at h
    · cases h
    rename_i h0
    simp only [bind_error, read_error, ensure_error, ensure_ok, fetch_error, when_error,
      write_error, pure_error, false_or, and_false, exists_false, or_false] at h
    obtain ⟨_, _, ⟨rfl, rfl⟩, ⟨hmany, he⟩ | ⟨_, _, ⟨-, -, rfl⟩, hnone, he⟩⟩ := h
    · exact .inr (.inr (.inl ⟨h0, Nat.lt_of_not_le hmany, he⟩))
    · exact .inr (.inr (.inr ⟨h0, hnone, he⟩))
  · simp only [bind_error, when_error, write_error, and_false, exists_false,
      or_false] at h

/-! ### Giving a login its wallet -/

/-- What `EnsureTenantForUserTx` does for the login `u`. -/
inductive Ensured (suffix : Nat → String) (u : User) (s : Store) : Store → Prop
  | kept (h : isStaffRole u.role = true ∨ u.tenantId ≠ 0) : Ensured suffix u s s
  | joined {w : Int} {s₁ s₂ : Store} (hstaff : isStaffRole u.role = false) (h0 : u.tenantId = 0)
      (hc : s.isCustomerGroup u.group = true) (hr : Registered u.group w s s₁)
      (hjoin : joinCustomerPoolTx u.id w s₁ = .ok ((), s₂)) :
      Ensured suffix u s (s₂.claimTeamTenantOwner w u.id)
  | created {row : Tenant} {s₁ : Store} (hstaff : isStaffRole u.role = false)
      (h0 : u.tenantId = 0) (hc : s.isCustomerGroup u.group = false)
      (hcreate : createTenantWithTx suffix (soloTenant u u.group u.quota) s = .ok (row, s₁)) :
      Ensured suffix u s (s₁.setUserTenant u.id row.id fun _ => 0)

theorem ensureTenantForUserTx_ok {r : Option Tenant}
    (h : ensureTenantForUserTx suffix userId s = .ok (r, s')) :
    ∃ u, s.users.find? userId = some u ∧ Ensured suffix u s s' := by
  unfold ensureTenantForUserTx at h
  simp only [bind_ok, ensure_ok, fetch_ok] at h
  obtain ⟨_, _, ⟨-, -, rfl⟩, u, s, ⟨_, hfind, rfl, rfl⟩, h⟩ := h
  refine ⟨u, hfind, ?_⟩
  split at h
  · rename_i hstaff
    obtain ⟨-, rfl⟩ := h
    exact .kept (.inl hstaff)
  rename_i hstaff
  rw [Bool.not_eq_true] at hstaff
  split at h
  · rename_i h0
    simp only [bind_ok, fetch_ok] at h
    obtain ⟨_, _, ⟨_, -, -, rfl⟩, -, rfl⟩ := h
    exact .kept (.inr h0)
  rename_i h0
  rw [not_not] at h0
  simp only [bind_ok, read_ok, Prod.mk.injEq] at h
  obtain ⟨customer, s, ⟨rfl, rfl⟩, h⟩ := h
  split at h
  · rename_i hc
    simp only [bind_ok, fetch_ok] at h
    obtain ⟨w, s₁, hwallet, _, s₂, hjoin, _, _, ⟨-, rfl⟩, _, _, ⟨_, -, -, rfl⟩, -, rfl⟩ := h
    exact .joined hstaff h0 hc (customerWalletTx_ok hwallet) hjoin
  · rename_i hc
    simp only [bind_ok, pure_ok] at h
    obtain ⟨row, s₁, hcreate, _, _, ⟨-, rfl⟩, -, rfl⟩ := h
    exact .created hstaff h0 (Bool.not_eq_true _ ▸ hc) hcreate

/-- What `reattachWalletTx` does; `user` is the row as the caller read it. -/
inductive Reattached (suffix : Nat → String) (user : User) (group : String) (s : Store) :
    Store → Prop
  | same {w : Int} {s₁ : Store} (hc : s.isCustomerGroup group = true)
      (hr : Registered group w s s₁) (hw : user.tenantId = w) : Reattached suffix user group s s₁
  | joined {w : Int} {s₁ s₂ : Store} (hc : s.isCustomerGroup group = true)
      (hr : Registered group w s s₁) (hw : user.tenantId ≠ w)
      (hjoin : joinCustomerPoolTx user.id w s₁ = .ok ((), s₂)) :
      Reattached suffix user group s (s₂.claimTeamTenantOwner w user.id)
  | moved {w : Int} {s₁ : Store} (hc : s.isCustomerGroup group = true)
      (hr : Registered group w s s₁) (hw : user.tenantId ≠ w)
      (hrefused : joinCustomerPoolTx user.id w s₁ = .error .alreadyInAnotherPool) :
      Reattached suffix user group s
        ((s₁.setUserTenant user.id w fun q => q).claimTeamTenantOwner w user.id)
  | kept (hc : s.isCustomerGroup group = false)
      (hsolo : user.tenantId ≠ 0 ∧ s.members user.tenantId ≤ 1) : Reattached suffix user group s s
  | created {row : Tenant} {s₁ : Store} (hc : s.isCustomerGroup group = false)
      (hcreate : createTenantWithTx suffix (soloTenant user group 0) s = .ok (row, s₁)) :
      Reattached suffix user group s (s₁.setUserTenant user.id row.id fun q => q)

theorem reattachWalletTx_ok {user : User}
    (h : reattachWalletTx suffix user group s = .ok ((), s')) :
    Reattached suffix user group s s' := by
  unfold reattachWalletTx at h
  simp only [bind_ok, read_ok, Prod.mk.injEq] at h
  obtain ⟨customer, s, ⟨rfl, rfl⟩, h⟩ := h
  split at h
  · rename_i hc
    rw [bind_ok] at h
    obtain ⟨w, s₁, hwallet, h⟩ := h
    have hr := customerWalletTx_ok hwallet
    split at h
    · rename_i hw
      obtain ⟨-, rfl⟩ := h
      exact .same hc hr hw
    rename_i hw
    simp only [bind_ok, rescue_ok, write_ok, Prod.mk.injEq] at h
    obtain ⟨_, s₂, hjoin | ⟨hrefused, -, rfl⟩, -, rfl⟩ := h
    · exact .joined hc hr hw hjoin
    · exact .moved hc hr hw hrefused
  · rename_i hc
    rw [Bool.not_eq_true] at hc
    simp only [bind_ok, read_ok, Prod.mk.injEq] at h
    obtain ⟨members, s, ⟨rfl, rfl⟩, h⟩ := h
    split at h
    · rename_i hsolo
      obtain ⟨-, rfl⟩ := h
      exact .kept hc hsolo
    · simp only [bind_ok, write_ok] at h
      obtain ⟨row, s₁, hcreate, -, rfl⟩ := h
      exact .created hc hcreate

end Store

/-! ### What a move leaves alone -/

/-- Only `userId` may have changed its entity, and every wallet row is still there. -/
structure Rehomed (userId : Int) (s s' : Store) : Prop where
  entity : ∀ u, u ≠ userId → s'.entityOf u = s.entityOf u
  rows : ∀ w, (s.quota? w).isSome = true → (s'.quota? w).isSome = true

namespace Rehomed

variable {userId : Int} {s s' s'' : Store} {suffix : Nat → String}

theorem refl (userId : Int) (s : Store) : Rehomed userId s s := ⟨fun _ _ => rfl, fun _ h => h⟩

theorem trans (h : Rehomed userId s s') (h' : Rehomed userId s' s'') : Rehomed userId s s'' :=
  ⟨fun u hu => (h'.entity u hu).trans (h.entity u hu), fun w hw => h'.rows w (h.rows w hw)⟩

theorem of_users (hu : s'.users = s.users)
    (ht : ∀ id, (s.tenants.find? id).isSome = true → (s'.tenants.find? id).isSome = true) :
    Rehomed userId s s' := by
  refine ⟨fun u _ => by rw [entityOf, entityOf, hu], fun w h => ?_⟩
  cases w with
  | user =>
    rw [quota?, hu]
    exact h
  | tenant id =>
    rw [quota?, isSome_map] at h ⊢
    exact ht id h

theorem setUserTenant (s : Store) (userId tenantId : Int) (f : Int → Int) :
    Rehomed userId s (s.setUserTenant userId tenantId f) := by
  refine ⟨fun u hu => ?_, fun w h => ?_⟩
  · simp only [Store.entityOf, Store.setUserTenant, Table.find?_update, Option.map_map]
    cases hf : s.users.find? u with
    | none => rfl
    | some r =>
      have : r.id ≠ userId := fun he => hu ((key_of_find? hf).symm.trans he)
      simp [this]
  · cases w with
    | user =>
      rw [Store.quota?, isSome_map] at h ⊢
      rw [Store.setUserTenant, isSome_find?_update, h]
    | tenant => exact h

theorem registered {group : String} {w : Int} (h : Registered group w s s') :
    Rehomed userId s s' := of_users h.users fun _ => h.isSome

theorem claimTeamTenantOwner (h : Rehomed userId s s') (w userId' : Int) :
    Rehomed userId s (s'.claimTeamTenantOwner w userId') :=
  h.trans (of_users rfl fun _ ht => by rw [isSome_claimTeamTenantOwner, ht])

theorem newTenant {tenant row : Tenant} (f : Int → Int)
    (h : createTenantWithTx suffix tenant s = .ok (row, s')) :
    Rehomed userId s (s'.setUserTenant userId row.id f) := by
  obtain ⟨-, -, tenants, hins, rfl⟩ := createTenantWithTx_ok h
  have hcreated : Rehomed userId s { s with tenants := tenants } :=
    of_users rfl fun _ => isSome_find?_insert? hins
  exact hcreated.trans (setUserTenant ..)

theorem joinCustomerPoolTx {tenantId : Int}
    (h : joinCustomerPoolTx userId tenantId s = .ok ((), s')) : Rehomed userId s s' := by
  obtain ⟨-, -, u, -, rfl, ⟨-, rfl⟩ | ⟨-, -, -, hj⟩⟩ := joinCustomerPoolTx_ok h
  · exact refl _ _
  · exact (setUserTenant s u.id tenantId fun _ => 0).trans
      (of_users hj.users fun id hid => (hj.tenants id).trans hid)

theorem reattachWalletTx {user : User} {group : String}
    (h : reattachWalletTx suffix user group s = .ok ((), s')) : Rehomed user.id s s' := by
  cases reattachWalletTx_ok h with
  | same _ hr => exact registered hr
  | joined _ hr _ hjoin =>
    exact ((registered hr).trans (joinCustomerPoolTx hjoin)).claimTeamTenantOwner ..
  | moved _ hr => exact ((registered hr).trans (setUserTenant ..)).claimTeamTenantOwner ..
  | kept => exact refl _ _
  | created _ hcreate => exact newTenant _ hcreate

theorem ensureTenantForUserTx {r : Option Tenant}
    (h : ensureTenantForUserTx suffix userId s = .ok (r, s')) : Rehomed userId s s' := by
  obtain ⟨u, hu, he⟩ := ensureTenantForUserTx_ok h
  obtain rfl := key_of_find? hu
  cases he with
  | kept => exact refl _ _
  | joined _ _ _ hr hjoin =>
    exact ((registered hr).trans (joinCustomerPoolTx hjoin)).claimTeamTenantOwner ..
  | created _ _ _ hcreate => exact newTenant _ hcreate

end Rehomed

theorem onStore_ok {α : Type} {d d' : PartnershipDb} {x : AccountTx α} {a : α} :
    onStore x d = .ok (a, d') ↔ ∃ s', x d.store = .ok (a, s') ∧ d' = { d with store := s' } := by
  rw [onStore, zoom_ok]
  simp

end UnifyConsole.Account
