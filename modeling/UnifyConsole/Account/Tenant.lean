import UnifyConsole.Account.Store

/-!
# Moving a login between wallets

`model/tenant.go`, `model/customer_pool.go` and `model/customer_wallet.go`: a
pricing group is a customer and a customer has one wallet, so a login that
changes its group changes its wallet.  The functions below are transaction
bodies over `Store`.

The bodies are long, but to everyone else they do little: at most one login changes
its billing entity, and no wallet loses its row (`Rehomed`, in `Wallets`).
Balances do move here, and that is what these functions are for.
-/

namespace UnifyConsole.Account

open Lib
open Table Tx Option

def roleAdminUser : Int := 10

def isStaffRole (role : Int) : Bool := decide (roleAdminUser ≤ role)

def tenantStatusEnabled : Int := 1

def defaultUserGroup : String := "default"

/-! ### Slugs -/

/-- `strings.ToLower` on one rune, as far as it can produce a letter of a slug. -/
def lowerRune (c : Char) : Char :=
  if c = Char.ofNat 0x212A then 'k' else if c = Char.ofNat 0x130 then 'i' else c.toLower

/-- `unicode.IsSpace`, on the characters of Latin-1. -/
def isSpace (c : Char) : Bool :=
  c = ' ' || ('\t' ≤ c && c ≤ '\r') || c = '\u0085' || c = '\u00a0'

def trimSpace (text : String) : String :=
  String.ofList (((text.toList.dropWhile isSpace).reverse.dropWhile isSpace).reverse)

def toLower (text : String) : String := String.ofList (text.toList.map lowerRune)

def isSlugRune (c : Char) : Bool := ('a' ≤ c && c ≤ 'z') || ('0' ≤ c && c ≤ '9')

def slugLoop : List Char → List Char → Bool → List Char
  | [], out, _ => out.reverse
  | c :: rest, out, lastDash =>
    if isSlugRune (lowerRune c) then slugLoop rest (lowerRune c :: out) false
    else if lastDash = false ∧ out ≠ [] then slugLoop rest ('-' :: out) true
    else slugLoop rest out lastDash

/-- `strings.Trim(s, "-")`. -/
def trimDashes (cs : List Char) : List Char :=
  ((cs.dropWhile (· == '-')).reverse.dropWhile (· == '-')).reverse

def slugFromName (name : String) : String :=
  let slug := trimDashes (slugLoop name.toList [] false)
  let slug := if 48 < slug.length then trimDashes (slug.take 48) else slug
  if slug = [] then "tenant" else String.ofList slug

/-! ### Creating a tenant -/

/-- `tx.Create(tenant)`: refused when the slug is taken.  An empty group takes
the column's default. -/
def insertTenant (tenant : Tenant) (s : Store) : Option (Tenant × Store) :=
  if s.tenants.rows.any (fun t => decide (t.slug = tenant.slug)) then none
  else
    let row := { tenant with
      id := s.tenants.nextId
      group := if tenant.group = "" then defaultUserGroup else tenant.group }
    (s.tenants.insert? row).map fun t => (row, { s with tenants := t })

def createTenantLoop (suffix : Nat → String) (base : String) :
    Nat → Nat → Tenant → AccountTx Tenant
  | 0, _, _ => Tx.fail .noUniqueSlug
  | fuel + 1, attempt, tenant => fun s =>
    match insertTenant tenant s with
    | some r => .ok r
    | none =>
      createTenantLoop suffix base fuel (attempt + 1)
        { tenant with slug := base ++ "-" ++ suffix attempt } s

def createTenantWithTx (suffix : Nat → String) (tenant : Tenant) : AccountTx Tenant :=
  let tenant :=
    if tenant.slug = "" then { tenant with slug := slugFromName tenant.name } else tenant
  createTenantLoop suffix tenant.slug 6 0 tenant

/-! ### Membership -/

namespace Store

def members (s : Store) (tenantId : Int) : Nat :=
  s.users.matched fun u => decide (u.tenantId = tenantId)

def isCustomerGroup (s : Store) (group : String) : Bool :=
  !(group == "" || group == defaultUserGroup) &&
    s.partnershipCustomers.matched (fun c => decide (c.group = group) && c.isDefault) == 0

/-- `soloWalletInGroupTx`: the wallet of exactly one login of the group, lowest id first, or `0`. -/
def soloWalletInGroup (s : Store) (group : String) : Int :=
  let held := ((s.users.rows.filter fun u =>
    decide (u.group = group) && decide (u.role < roleAdminUser) && decide (u.tenantId ≠ 0)).map
    User.tenantId).dedup.insertionSort (· ≤ ·)
  (held.find? fun tenantId => s.members tenantId == 1).getD 0

/-- The partnership team that already has a wallet for the group. -/
def teamOfGroup (s : Store) (group : String) : Option PartnershipCustomer :=
  ((s.partnershipCustomers.rows.filter fun c =>
    decide (c.group = group) && !c.isDefault && decide (c.removedAt = 0) &&
      decide (c.tenantId ≠ 0)).insertionSort fun a b => a.id ≤ b.id).head?

def setTenantName (s : Store) (tenantId : Int) (name : String) : Store :=
  { s with
    tenants := s.tenants.update (fun t => decide (t.id = tenantId))
      (fun t => { t with name := name }) (fun _ => rfl) }

def claimTeamTenantOwner (s : Store) (tenantId userId : Int) : Store :=
  { s with
    tenants := s.tenants.update (fun t => decide (t.id = tenantId) && decide (t.ownerId = 0))
      (fun t => { t with ownerId := userId }) (fun _ => rfl) }

/-- Put a login into a tenant and set its own quota with `f`. -/
def setUserTenant (s : Store) (userId tenantId : Int) (f : Int → Int) : Store :=
  { s with
    users := s.users.update (fun u => decide (u.id = userId))
      (fun u => { u with tenantId := tenantId, quota := f u.quota }) (fun _ => rfl) }

end Store

/-- The balance a login brings along from a tenant it is alone in, which is
left empty. -/
def absorbSoloTenant (user : User) : AccountTx Int :=
  if user.tenantId = 0 then pure 0
  else do
    let members ← Tx.read (fun s => s.members user.tenantId)
    Tx.ensure (members ≤ 1) .alreadyInAnotherPool
    let solo ← Tx.fetch (fun s => s.tenants.find? user.tenantId) .recordNotFound
    Tx.when (solo.quota ≠ 0)
      (Tx.write fun s => s.setQuota (.tenant solo.id) (fun _ => true) fun _ => 0)
    pure solo.quota

def joinCustomerPoolTx (userId tenantId : Int) : AccountTx Unit := do
  Tx.ensure (0 < userId ∧ 0 < tenantId) .idsRequired
  let user ← Tx.fetch (fun s => s.users.find? userId) .recordNotFound
  if user.tenantId = tenantId then pure ()
  else do
    Tx.ensure (isStaffRole user.role = false) .operatorAccount
    let solo ← absorbSoloTenant user
    let carried := user.quota + solo
    Tx.when (carried ≠ 0)
      (Tx.write fun s => s.setQuota (.tenant tenantId) (fun _ => true) fun q => q + carried)
    Tx.write fun s => s.setUserTenant user.id tenantId fun _ => 0

/-- The wallet of a group that has no row in `customer_wallets`: its team's, that of a login alone
in one, or a new one. -/
def firstCustomerWallet (suffix : Nat → String) (group name slug : String) : AccountTx Int := do
  let team ← Tx.read fun s => s.teamOfGroup group
  match team with
  | some team => pure team.tenantId
  | none => do
    let solo ← Tx.read fun s => s.soloWalletInGroup group
    if solo ≠ 0 then do
      Tx.write (fun s => s.setTenantName solo name)
      pure solo
    else do
      let tenant ← createTenantWithTx suffix
        { id := 0, name := name, slug := slug, status := tenantStatusEnabled, ownerId := 0,
          quota := 0, group := group }
      pure tenant.id

def customerWalletTx (suffix : Nat → String) (group name slug : String) : AccountTx Int := do
  let wallet ← Tx.read fun s => s.customerWallets.find? group
  match wallet with
  | some wallet => pure wallet.tenantId
  | none => do
    let tenantId ← firstCustomerWallet suffix group name slug
    Tx.writeSome (fun s => (s.customerWallets.insert? ⟨group, tenantId⟩).map
      (fun t => { s with customerWallets := t })) .duplicateKey
    pure tenantId

/-- The tenant a login outside the customer groups gets for itself. -/
def soloTenant (user : User) (group : String) (quota : Int) : Tenant :=
  { id := 0, name := if user.displayName = "" then user.username else user.displayName,
    slug := slugFromName user.username, status := tenantStatusEnabled, ownerId := user.id,
    quota := quota, group := group }

/-- `reattachWalletTx`; `user` is the row as the caller read it. -/
def reattachWalletTx (suffix : Nat → String) (user : User) (group : String) : AccountTx Unit := do
  let customer ← Tx.read fun s => s.isCustomerGroup group
  if customer then do
    let walletId ← customerWalletTx suffix group group (slugFromName ("customer-" ++ group))
    if user.tenantId = walletId then pure ()
    else do
      Tx.rescue (joinCustomerPoolTx user.id walletId) .alreadyInAnotherPool
        (Tx.write fun s => s.setUserTenant user.id walletId id)
      Tx.write fun s => s.claimTeamTenantOwner walletId user.id
  else do
    let members ← Tx.read fun s => s.members user.tenantId
    if user.tenantId ≠ 0 ∧ members ≤ 1 then pure ()
    else do
      let solo ← createTenantWithTx suffix (soloTenant user group 0)
      Tx.write fun s => s.setUserTenant user.id solo.id id

/-- `EnsureTenantForUserTx`; a staff account has no tenant. -/
def ensureTenantForUserTx (suffix : Nat → String) (userId : Int) : AccountTx (Option Tenant) := do
  Tx.ensure (userId ≠ 0) .userIdEmpty
  let user ← Tx.fetch (fun s => s.users.find? userId) .recordNotFound
  if isStaffRole user.role then pure none
  else if user.tenantId ≠ 0 then do
    let tenant ← Tx.fetch (fun s => s.tenants.find? user.tenantId) .recordNotFound
    pure (some tenant)
  else do
    let customer ← Tx.read fun s => s.isCustomerGroup user.group
    if customer then do
      let walletId ← customerWalletTx suffix user.group user.group
        (slugFromName ("customer-" ++ user.group))
      joinCustomerPoolTx user.id walletId
      Tx.write fun s => s.claimTeamTenantOwner walletId user.id
      let tenant ← Tx.fetch (fun s => s.tenants.find? walletId) .recordNotFound
      pure (some tenant)
    else do
      let tenant ← createTenantWithTx suffix (soloTenant user user.group user.quota)
      Tx.write (fun s => s.setUserTenant user.id tenant.id fun _ => 0)
      pure (some tenant)

/-! ### Admitting a login to the wallet of its customer

An admission of `BackfillCustomerPools` of `model/customer_pool_migration.go`. -/

/-- The entries of `Skipped`. -/
inductive BackfillSkip where
  | noWallet (customer : String)
  | refused (userId : Int) (username : String) (e : AccountError)
deriving DecidableEq

structure CustomerPoolBackfillResult where
  customers : Int
  membersMoved : Int
  quotaCarried : Int
  alreadyPooled : Int
  swept : Int
  skipped : List BackfillSkip

/-- `quotaCarriedInto`: the column of the login and the balance of a tenant it has
to itself. -/
def quotaCarriedInto (user : User) : AccountTx Int :=
  if user.tenantId = 0 then pure user.quota
  else do
    let members ← Tx.read fun s => s.members user.tenantId
    if 1 < members then pure 0
    else do
      let solo ← Tx.fetch (fun s => s.tenants.find? user.tenantId) .recordNotFound
      pure (user.quota + solo.quota)

/-- `admitTx`: move one member into a wallet; a member that is there already has
its column folded in. -/
def admitTx (dryRun : Bool) (user : User) (tenantId : Int) (result : CustomerPoolBackfillResult) :
    AccountTx (Bool × CustomerPoolBackfillResult) :=
  if user.tenantId = tenantId then
    let result := { result with alreadyPooled := result.alreadyPooled + 1 }
    if user.quota = 0 then pure (false, result)
    else
      let result := { result with
        swept := result.swept + 1, quotaCarried := result.quotaCarried + user.quota }
      if dryRun then pure (false, result)
      else do
        Tx.write (fun s => s.setQuota (.tenant tenantId) (fun _ => true) fun q => q + user.quota)
        Tx.write (fun s => s.setQuota (.user user.id) (fun _ => true) fun _ => 0)
        pure (true, result)
  else do
    let carried ← quotaCarriedInto user
    let counted := { result with
      membersMoved := result.membersMoved + 1, quotaCarried := result.quotaCarried + carried }
    if dryRun then pure (false, counted)
    else do
      let joined ← Tx.attempt (joinCustomerPoolTx user.id tenantId)
      match joined with
      | .ok _ => pure (true, counted)
      | .error e => pure (false, { result with
          skipped := result.skipped ++ [.refused user.id user.username e] })

end UnifyConsole.Account
