import UnifyConsole.Account.Tenant
import UnifyConsole.Lib.Prog

/-!
# Logins, pricing groups and partnership programs

Where a login gets its wallet: `Insert` and `EditWithTx` of `model/user.go`,
sign-up and connection of `model/partnership_program.go` and `ensureCustomerTenant`
of `model/builder_customer_provision.go`.

A row of `partnership_customers` is kept in two tables with one key: the columns
that wallets depend on are in the store, those of its registration link are in
`links`.  The checks of e-mail addresses, passwords, session versions and caches
are left out; they decide whether a call is refused and not what it does.
-/

namespace UnifyConsole.Account

open Lib

/-! ### Rows -/

/-- The columns of `partnership_programs` that an offer reads. -/
structure PartnershipProgram where
  id : Int
  code : String
  group : String
  grantQuota : Int
  grantLimit : Int
  claimedCount : Int
  enabled : Bool
  startsAt : Int
  endsAt : Int

structure CustomerLink where
  customerId : Int
  programId : Int
  name : String
  code : String
  enabled : Bool
  grantClaimedAt : Int
  grantedQuota : Int

structure PartnershipEnrollment where
  programId : Int
  customerId : Int
  userId : Int
  customerGroup : String
  grantedQuota : Int

/-- The unique index of `partnership_enrollments`. -/
def PartnershipEnrollment.key (e : PartnershipEnrollment) : Int × Int := (e.programId, e.userId)

structure PartnershipDb where
  store : Store
  programs : Table PartnershipProgram.id
  links : Table CustomerLink.customerId
  enrollments : Table PartnershipEnrollment.key

inductive PartnershipError where
  | account (e : AccountError)
  | programUnavailable
  | customerMismatch
deriving DecidableEq

abbrev PartnershipTx := Tx PartnershipDb PartnershipError

def onStore {α : Type} (x : AccountTx α) : PartnershipTx α :=
  Tx.zoom PartnershipDb.store (fun s store => { s with store := store }) .account x

/-! ### Offers -/

structure PartnershipOffer where
  program : PartnershipProgram
  customerId : Int
  customerGroup : String

def normalizePartnershipCode (code : String) : String := toLower (trimSpace code)

def partnershipProgramActive (program : PartnershipProgram) (now : Int) : Bool :=
  program.enabled && decide (program.startsAt = 0 ∨ program.startsAt ≤ now) &&
    decide (program.endsAt = 0 ∨ now < program.endsAt)

/-- The customer of a registration code that was not removed. -/
def PartnershipDb.customerByCode (s : PartnershipDb) (code : String) :
    Option (CustomerLink × PartnershipCustomer) :=
  s.links.rows.findSome? fun link =>
    if link.code = code then
      (s.store.partnershipCustomers.find? link.customerId).bind fun customer =>
        if customer.removedAt = 0 then some (link, customer) else none
    else none

def getPartnershipOfferByCode (now : Int) (code : String) : PartnershipTx PartnershipOffer := do
  let found ← Tx.read fun s => s.customerByCode (normalizePartnershipCode code)
  match found with
  | some (link, customer) => do
    let program ← Tx.fetch (fun s => s.programs.find? link.programId) (.account .recordNotFound)
    Tx.ensure (link.enabled = true ∧ partnershipProgramActive program now = true)
      .programUnavailable
    pure ⟨program, customer.id, customer.group⟩
  | none => do
    let program ← Tx.fetch (fun s => s.programs.rows.find? fun program =>
      decide (program.code = normalizePartnershipCode code)) .programUnavailable
    Tx.ensure (partnershipProgramActive program now = true) .programUnavailable
    Tx.ensure (program.group ≠ "") .programUnavailable
    pure ⟨program, 0, program.group⟩

/-- `UPDATE partnership_customers SET tenant_id = … WHERE id = …`. -/
def Store.setTeamTenant (s : Store) (customerId tenantId : Int) : Store :=
  { s with
    partnershipCustomers := s.partnershipCustomers.update
      (fun c => decide (c.id = customerId)) (fun c => { c with tenantId := tenantId })
      (fun _ => rfl) }

/-- `ensureCustomerTenant`: the wallet of a team, or `0` for those who keep a
wallet each. -/
def ensureCustomerTenant (suffix : Nat → String) (customerId : Int) : PartnershipTx Int :=
  if customerId ≤ 0 then pure 0
  else do
    let customer ← Tx.fetch (fun s => s.store.partnershipCustomers.find? customerId)
      (.account .recordNotFound)
    if customer.isDefault then pure 0
    else if customer.tenantId ≠ 0 then pure customer.tenantId
    else do
      let link ← Tx.fetch (fun s => s.links.find? customerId) (.account .recordNotFound)
      let tenantId ← onStore (customerWalletTx suffix customer.group link.name
        (slugFromName ("team-" ++ link.code)))
      Tx.write (fun s => { s with store := s.store.setTeamTenant customerId tenantId })
      pure tenantId

/-! ### New logins -/

/-- What the caller of `Insert` sets. -/
structure NewLogin where
  username : String
  displayName : String
  role : Int
  group : String

/-- `tx.Create(user)`: refused when the name is taken.  An empty group takes the
column's default. -/
def insertUser (login : NewLogin) (quota tenantId : Int) : AccountTx Int := fun s =>
  if s.users.rows.any (fun u => decide (u.username = login.username)) then .error .duplicateKey
  else
    match s.users.insert?
      { id := s.users.nextId, username := login.username, displayName := login.displayName,
        role := login.role,
        group := if login.group = "" then defaultUserGroup else login.group,
        quota := quota, tenantId := tenantId } with
    | none => .error .duplicateKey
    | some users => .ok (s.users.nextId, { s with users := users })

/-- `teamGrantHolder`: the customer that owns the grant of the offer. -/
def teamGrantHolder (offer : PartnershipOffer) : PartnershipTx (Option CustomerLink) :=
  if offer.customerId ≤ 0 then pure none
  else do
    let customer ← Tx.fetch (fun s => s.store.partnershipCustomers.find? offer.customerId)
      (.account .recordNotFound)
    let link ← Tx.fetch (fun s => s.links.find? offer.customerId) (.account .recordNotFound)
    pure (if customer.isDefault then none else some link)

/-- The grant is claimed once by a team, and once by each login that has none. -/
def claimGrant (now : Int) (offer : PartnershipOffer) (team : Option CustomerLink) :
    PartnershipTx Int := do
  let program ← Tx.read fun s => s.programs.find? offer.program.id
  if (team.any fun link => decide (0 < link.grantClaimedAt)) = false ∧
      0 < offer.program.grantQuota ∧ offer.program.claimedCount < offer.program.grantLimit ∧
      (program.any fun p => decide (p.claimedCount < p.grantLimit)) = true then do
    Tx.write (fun s => { s with
      programs := s.programs.update (fun p => decide (p.id = offer.program.id))
        (fun p => { p with claimedCount := p.claimedCount + 1 }) (fun _ => rfl)
      links := s.links.update
        (fun link => decide (team.isSome = true ∧ link.customerId = offer.customerId))
        (fun link => { link with
          grantClaimedAt := now, grantedQuota := offer.program.grantQuota }) (fun _ => rfl) })
    pure offer.program.grantQuota
  else pure 0

def poolCredit (pool userId credit : Int) : AccountTx Unit := do
  Tx.when (credit ≠ 0)
    (Tx.write fun s => s.setQuota (.tenant pool) (fun _ => true) fun q => q + credit)
  Tx.write fun s => s.claimTeamTenantOwner pool userId

/-- What a call takes from its surroundings. -/
structure SignUpEnv where
  suffix : Nat → String
  now : Int
  quotaForNewUser : Int
  insertCommits : Bool
  ensureCommits : Bool

def insertForPartnershipWithTx (env : SignUpEnv) (login : NewLogin) (code : String) :
    PartnershipTx Int := do
  let offer ← getPartnershipOfferByCode env.now code
  let pool ← ensureCustomerTenant env.suffix offer.customerId
  let team ← teamGrantHolder offer
  let granted ← claimGrant env.now offer team
  let credit := env.quotaForNewUser + granted
  let userId ← onStore (insertUser { login with group := offer.customerGroup }
    (if pool ≠ 0 then 0 else credit) pool)
  Tx.when (pool ≠ 0) (onStore (poolCredit pool userId credit))
  Tx.writeSome (fun s =>
    (s.enrollments.insert? ⟨offer.program.id, offer.customerId, userId, offer.customerGroup,
      granted⟩).map fun t => { s with enrollments := t }) (.account .duplicateKey)
  pure userId

def connectExistingUserToPartnership (env : SignUpEnv) (userId : Int) (code : String) :
    PartnershipTx Unit := do
  let user ← Tx.fetch (fun s => s.store.users.find? userId) (.account .recordNotFound)
  let offer ← getPartnershipOfferByCode env.now code
  Tx.ensure (user.group = offer.customerGroup) .customerMismatch
  let pool ← ensureCustomerTenant env.suffix offer.customerId
  Tx.when (pool ≠ 0) (do
    onStore (joinCustomerPoolTx user.id pool)
    Tx.write fun s => { s with store := s.store.claimTeamTenantOwner pool user.id })
  let enrolled ← Tx.read (fun s => s.enrollments.find? (offer.program.id, user.id))
  Tx.when (enrolled = none) (Tx.writeSome (fun s =>
    (s.enrollments.insert? ⟨offer.program.id, offer.customerId, user.id, offer.customerGroup,
      0⟩).map fun t => { s with enrollments := t }) (.account .duplicateKey))

/-! ### Edits -/

structure UserEdit where
  id : Int
  username : String
  displayName : String
  group : String

def UserEdit.edited (edit : UserEdit) (u : User) : User :=
  { u with username := edit.username, displayName := edit.displayName, group := edit.group }

theorem UserEdit.edited_id (edit : UserEdit) (u : User) : (edit.edited u).id = u.id := rfl

def Store.editUser (s : Store) (edit : UserEdit) : Store :=
  { s with
    users := s.users.update (fun u => decide (u.id = edit.id)) edit.edited edit.edited_id }

/-- `EditWithTx`: the group is written before the wallet follows it. -/
def editWithTx (suffix : Nat → String) (edit : UserEdit) : AccountTx Unit := do
  let previous ← Tx.fetch (fun s => s.users.find? edit.id) .recordNotFound
  Tx.write (fun s => s.editUser edit)
  Tx.when (previous.group ≠ edit.group ∧ isStaffRole previous.role = false)
    (reattachWalletTx suffix previous edit.group)

/-! ### Calls -/

inductive LoginCall where
  | create (env : SignUpEnv) (login : NewLogin)
  | edit (env : SignUpEnv) (change : UserEdit)
  | signUp (env : SignUpEnv) (login : NewLogin) (code : String)
  | connect (env : SignUpEnv) (userId : Int) (code : String)

/-- The post-insert hook: a tenant for a login that was inserted. -/
def provision (env : SignUpEnv) (inserted : Except PartnershipError Int) :
    Prog PartnershipDb (Except PartnershipError Unit) :=
  match inserted with
  | .error e => pure (.error e)
  | .ok userId => do
    let _ ← Prog.transact env.ensureCommits (.account .database)
      (onStore (ensureTenantForUserTx env.suffix userId))
    pure (.ok ())

def roleCommonUser : Int := 1

def LoginCall.prog : LoginCall → Prog PartnershipDb (Except PartnershipError Unit)
  | .create env login => do
    let inserted ← Prog.transact env.insertCommits (.account .database)
      (onStore (insertUser login env.quotaForNewUser 0))
    provision env inserted
  | .edit env change =>
    Prog.transact env.insertCommits (.account .database) (onStore (editWithTx env.suffix change))
  | .signUp env login code => do
    let inserted ← Prog.transact env.insertCommits (.account .database)
      (insertForPartnershipWithTx env { login with role := roleCommonUser } code)
    provision env inserted
  | .connect env userId code =>
    Prog.transact env.insertCommits (.account .database)
      (connectExistingUserToPartnership env userId code)

end UnifyConsole.Account
