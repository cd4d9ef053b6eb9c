import UnifyConsole.Compute.Hold
import UnifyConsole.Lib.Rely

/-!
# What a step of the bridge can do

`LedgerStep` lists everything one atomic step of the compute bridge can do to
the database: open a hold, extend one, record a settlement, close one with or
without a settlement, touch a token, or nothing.  `HoldCall.tells` says that the
calls of `Compute/Hold.lean` make no other steps, whatever their arguments and
whichever of their transactions commit, and what a request that succeeds leaves
behind (`HoldCall.Known`): a row that stays, with columns that never change.

Everything proved about runs of the bridge is proved from this list.
-/

namespace UnifyConsole.Compute

open Lib Account
open Prog Tx Option Table

/-- `n` went back to the login's wallet, or there was nothing to give back. -/
def Credited (s : Store) (userId n : Int) (s' : Store) : Prop :=
  (0 < n ∧ ∃ entity, adjustBillingQuotaWithTx userId n s = .ok (entity, s')) ∨ (n ≤ 0 ∧ s' = s)

/-- The holds after `casComputeHold` moved the row of `hold`. -/
abbrev HoldDb.moveHold (db : HoldDb) (hold : ComputeHold) (u : HoldUpdates) :
    Table ComputeHold.holdId :=
  db.holds.update (unmoved hold) u.apply u.holdId_apply

/-- An active hold was extended from the login's wallet. -/
structure Extends (db : HoldDb) (hold : ComputeHold) (extension : ComputeExtension) (now : Int)
    (db' : HoldDb) : Prop where
  find : db.holds.find? hold.holdId = some hold
  active : hold.status = .active
  quota_le : hold.quota + extension.additionalQuota ≤ maxComputeQuota
  taken : ∃ entity, tryDecreaseUserQuotaWithTx hold.userId extension.additionalQuota db.store =
    .ok (entity, db'.store)
  inserted : db.extensions.insert? extension = some db'.extensions
  holds : db'.holds = db.moveHold hold
    { quota := some (hold.quota + extension.additionalQuota), updatedAt := now }
  settlements : db'.settlements = db.settlements

/-- A settlement was recorded on an active hold, and a final one gave the rest back. -/
structure Settles (db : HoldDb) (hold : ComputeHold) (event : ComputeSettlement) (final : Bool)
    (now : Int) (db' : HoldDb) : Prop where
  find : db.holds.find? hold.holdId = some hold
  active : hold.status = .active
  low : hold.settledQuota ≤ event.cumulativeQuota
  high : event.cumulativeQuota ≤ hold.quota
  inserted : db.settlements.insert? (settlementRow hold.holdId event
    (event.cumulativeQuota - hold.settledQuota) final now) = some db'.settlements
  credited : Credited db.store hold.userId
    (if final then hold.quota - event.cumulativeQuota else 0) db'.store
  holds : db'.holds = db.moveHold hold (settleUpdates hold event final now)
  extensions : db'.extensions = db.extensions

inductive LedgerStep (db : HoldDb) : HoldDb → Prop
  | stay : LedgerStep db db
  | token (tokens : Table Token.id) :
      LedgerStep db { db with store := { db.store with tokens := tokens } }
  | opened {hold : ComputeHold} {now : Int} {entity : BillingEntity} {store : Store}
      {holds : Table ComputeHold.holdId}
      (hpos : 0 < hold.quota) (hmax : hold.quota ≤ maxComputeQuota)
      (htake : tryDecreaseUserQuotaWithTx hold.userId hold.quota db.store = .ok (entity, store))
      (hins : db.holds.insert? { freshHold hold now with tenantId := entity.tenantId } =
        some holds) :
      LedgerStep db { db with store := store, holds := holds }
  | extended {hold : ComputeHold} {extension : ComputeExtension} {now : Int} {db' : HoldDb}
      (hpos : 0 < extension.additionalQuota) (h : Extends db hold extension now db') :
      LedgerStep db db'
  | settled {hold : ComputeHold} {event : ComputeSettlement} {final : Bool} {now : Int}
      {db' : HoldDb} (h : Settles db hold event final now db') : LedgerStep db db'
  | closed {hold : ComputeHold} {status : ComputeHoldStatus} {now : Int} {store : Store}
      (hfind : db.holds.find? hold.holdId = some hold) (hactive : hold.status = .active)
      (hstatus : status = .released ∨ status = .expired)
      (hcredit : Credited db.store hold.userId hold.remaining store) :
      LedgerStep db
        { db with
          store := store
          holds := db.moveHold hold
            { status := some status, releasedQuota := some hold.remaining, updatedAt := now } }

open LedgerStep

/-! ### The statements -/

variable {α : Type} {db : HoldDb}

theorem account_ok {x : AccountTx α} {r : α × HoldDb} :
    account x db = .ok r ↔
      ∃ a s, x db.store = .ok (a, s) ∧ r = (a, { db with store := s }) := zoom_ok

variable {holdId : String}

theorem lockComputeHold_ok {r : ComputeHold × HoldDb} :
    lockComputeHold holdId db = .ok r ↔
      ∃ hold, db.holds.find? holdId = some hold ∧ r = (hold, db) := fetch_ok

theorem lockComputeHold_bind_ok {f : ComputeHold → ComputeTx α} {r : α × HoldDb}
    (h : (lockComputeHold holdId >>= f) db = .ok r) : ∃ hold,
      db.holds.find? hold.holdId = some hold ∧ holdId = hold.holdId ∧ f hold db = .ok r := by
  rw [bind_ok] at h
  obtain ⟨hold, _, hlock, h⟩ := h
  obtain ⟨_, hfind, he⟩ := lockComputeHold_ok.mp hlock
  cases he
  obtain rfl := key_of_find? hfind
  exact ⟨hold, hfind, rfl, h⟩

variable {hold : ComputeHold} {now : Int} {r : Unit × HoldDb}

theorem activeComputeHold_ok :
    activeComputeHold hold now db = .ok r ↔
      hold.status = .active ∧ now < hold.expiresAt ∧ r = ((), db) := by
  unfold activeComputeHold
  cases hs : hold.status with
  | active => simp [ensure_ok]
  | settled | released | expired => simp [fail_ok]

theorem casComputeHold_ok {updates : HoldUpdates} :
    casComputeHold hold updates db = .ok r ↔ db.holds.matched (unmoved hold) = 1 ∧
      r = ((), { db with holds := db.moveHold hold updates }) := by
  unfold casComputeHold
  rw [writeSome_ok]
  constructor
  · rintro ⟨db', h, rfl⟩
    rw [ite_none_right_eq_some, some.injEq] at h
    exact ⟨h.1, by rw [h.2]⟩
  · rintro ⟨h, rfl⟩
    exact ⟨_, by rw [if_pos h], rfl⟩

theorem creditBack_ok {userId n : Int} :
    creditBack userId n db = .ok r ↔
      ∃ store, Credited db.store userId n store ∧ r = ((), { db with store := store }) := by
  unfold creditBack
  simp only [when_ok, bind_ok, pure_ok, account_ok, Prod.mk.injEq]
  constructor
  · rintro (⟨hn, entity, db', ⟨e, s, hadj, rfl, rfl⟩, rfl⟩ | ⟨hn, rfl⟩)
    · exact ⟨s, .inl ⟨hn, _, hadj⟩, rfl⟩
    · exact ⟨db.store, .inr ⟨not_lt.mp hn, rfl⟩, rfl⟩
  · rintro ⟨store, ⟨hn, entity, hadj⟩ | ⟨hn, rfl⟩, rfl⟩
    · exact .inl ⟨hn, entity, _, ⟨entity, store, hadj, rfl, rfl⟩, rfl⟩
    · exact .inr ⟨not_lt.mpr hn, rfl⟩

/-! ### The transactions -/

variable {db' : HoldDb}

/-- A successful create took the quota and stored the row. -/
theorem createTx_ok {stored : ComputeHold} (h : createTx hold db = .ok (stored, db')) :
    ∃ entity store holds,
      tryDecreaseUserQuotaWithTx hold.userId hold.quota db.store = .ok (entity, store) ∧
      db.holds.insert? { hold with tenantId := entity.tenantId } = some holds ∧
      db' = { db with store := store, holds := holds } := by
  unfold createTx at h
  simp only [bind_ok, account_ok, resolveBillingEntity_ok, writeSome_ok, Prod.mk.injEq,
    map_eq_some_iff] at h
  obtain ⟨entity, _, ⟨_, _, ⟨-, _, he, rfl, rfl⟩, rfl, rfl⟩, _, _,
    ⟨_, ⟨holds, hins, rfl⟩, -, rfl⟩, _, _, ⟨taken, store, htake, -, rfl⟩, -, rfl⟩ := h
  have htaken : taken = entity := by
    obtain ⟨-, e, he', -, hr⟩ := tryDecreaseUserQuotaWithTx_ok.mp htake
    rw [Prod.mk.injEq] at hr
    rw [hr.1]
    exact some.inj (he'.symm.trans he)
  subst htaken
  exact ⟨taken, store, holds, htake, hins, rfl⟩

theorem settleTx_ok {event : ComputeSettlement} {final : Bool} {result : ComputeSettleResult}
    (h : settleTx holdId event final now db = .ok (result, db')) :
    ∃ hold, holdId = hold.holdId ∧ Settles db hold event final now db' := by
  obtain ⟨hold, hfind, rfl, hx⟩ := lockComputeHold_bind_ok h
  simp only [bind_ok, activeComputeHold_ok, casComputeHold_ok, ensure_ok, writeSome_ok,
    creditBack_ok, map_eq_some_iff] at hx
  obtain ⟨_, _, ⟨hactive, -, -, rfl⟩, _, _, ⟨hhigh, -, rfl⟩, _, _, ⟨hlow, -, rfl⟩, _, _,
    ⟨-, -, rfl⟩, _, _, ⟨_, ⟨settlements, hins, rfl⟩, -, rfl⟩, _, _, ⟨store, hcredit, -, rfl⟩, rfl,
    rfl⟩ := hx
  exact ⟨hold, rfl, hfind, hactive, hlow, hhigh, hins, hcredit, rfl, rfl⟩

theorem extendTx_ok {extendId : String} {additional : Int} {token : Token}
    {extension : ComputeExtension}
    (h : extendTx holdId extendId additional token now db = .ok (extension, db')) :
    ∃ hold, extension.extendId = extendId ∧ extension.holdId = holdId ∧
      extension.additionalQuota = additional ∧ Extends db hold extension now db' := by
  obtain ⟨hold, hfind, rfl, hx⟩ := lockComputeHold_bind_ok h
  simp only [bind_ok, activeComputeHold_ok, casComputeHold_ok, ensure_ok, writeSome_ok, account_ok,
    getBillingQuotaFromDB, map_eq_some_iff] at hx
  obtain ⟨_, _, ⟨hactive, -, -, rfl⟩, _, _, ⟨-, -, rfl⟩, _, _, ⟨hmax, -, rfl⟩, _, _, ⟨-, -, rfl⟩,
    entity, _, ⟨_, store, htake, rfl, rfl⟩, remain, _, ⟨_, _, ⟨rfl, rfl⟩, rfl, rfl⟩, _, _,
    ⟨_, ⟨extensions, hins, rfl⟩, -, rfl⟩, rfl, rfl⟩ := hx
  exact ⟨hold, rfl, rfl, rfl, hfind, hactive, hmax, ⟨entity, htake⟩, hins, rfl, rfl⟩

theorem releaseTx_step {r : ComputeHold × Bool} (h : releaseTx holdId now db = .ok (r, db')) :
    LedgerStep db db' := by
  obtain ⟨hold, hfind, rfl, hx⟩ := lockComputeHold_bind_ok h
  split at hx
  · rw [pure_ok, Prod.mk.injEq] at hx
    rw [hx.2]
    exact stay
  simp only [bind_ok, activeComputeHold_ok, casComputeHold_ok, creditBack_ok] at hx
  obtain ⟨_, _, ⟨hactive, -, -, rfl⟩, _, _, ⟨-, -, rfl⟩, _, _, ⟨store, hcredit, -, rfl⟩, -,
    rfl⟩ := hx
  exact closed hfind hactive (.inl rfl) hcredit

theorem expireTx_step {r : Option ComputeHold} (h : expireTx holdId now db = .ok (r, db')) :
    LedgerStep db db' := by
  obtain ⟨hold, hfind, rfl, hx⟩ := lockComputeHold_bind_ok h
  split at hx
  · rw [pure_ok, Prod.mk.injEq] at hx
    rw [hx.2]
    exact stay
  rename_i hc
  simp only [bind_ok, casComputeHold_ok, creditBack_ok] at hx
  obtain ⟨_, _, ⟨-, -, rfl⟩, _, _, ⟨store, hcredit, -, rfl⟩, -, rfl⟩ := hx
  have hactive : hold.status = .active := by
    by_contra hn
    exact hc (.inl hn)
  exact closed hfind hactive (.inr rfl) hcredit

/-! ### The calls -/

theorem transaction_within {commits : Bool} {x : ComputeTx α}
    (h : ∀ db a db', x db = .ok (a, db') → LedgerStep db db') :
    (transaction commits x).Within LedgerStep :=
  within_transact (fun _ => .stay) h

theorem look_within (f : HoldDb → α) : (Prog.look f).Within LedgerStep :=
  within_look (fun _ => .stay) f

theorem adjustComputeTokenQuota_within (tokenId delta : Int) :
    (adjustComputeTokenQuota tokenId delta).Within LedgerStep := by
  unfold adjustComputeTokenQuota
  split
  · exact within_pure _
  refine within_bind (look_within _) fun token => ?_
  cases token with
  | none => exact within_pure _
  | some =>
    refine within_atomic fun db => ?_
    split
    · exact token _
    · exact token _

theorem expireComputeHold_within (holdId : String) (now : Int) (commits : Bool) :
    (expireComputeHold holdId now commits).Within LedgerStep := by
  refine within_bind (transaction_within fun _ _ _ => expireTx_step) fun r => ?_
  split
  · exact within_pure _
  · exact within_pure _
  · exact within_bind (within_when (adjustComputeTokenQuota_within _ _))
      (fun _ => within_pure _)

theorem expireLapsedComputeHold_within (holdId : String) (now : Int) (commits : Bool) :
    (expireLapsedComputeHold holdId now commits).Within LedgerStep := by
  refine within_bind (expireComputeHold_within _ _ _) fun r => ?_
  split <;> exact within_pure _

theorem sweepLoop_within (now : Int) (commits : Nat → Bool) (holdIds : List String) :
    ∀ i, (sweepLoop now commits holdIds i).Within LedgerStep := by
  induction holdIds with
  | nil => intro i; exact within_pure _
  | cons holdId rest ih =>
    intro i
    refine within_bind (expireComputeHold_within _ _ _) fun done => ?_
    refine within_bind (ih _) fun closed => ?_
    split <;> exact within_pure _

theorem releaseComputeHold_within (holdId : String) (now : Int) (commits : Nat → Bool) :
    (releaseComputeHold holdId now commits).Within LedgerStep := by
  refine within_bind (transaction_within fun _ _ _ => releaseTx_step) fun r => ?_
  split
  · exact within_bind (within_when (adjustComputeTokenQuota_within _ _))
      (fun _ => within_pure _)
  · exact within_bind (expireLapsedComputeHold_within _ _ _) fun _ => within_pure _
  · exact within_pure _

/-! ### Rows that stay -/

def ComputeHold.Matches (row requested : ComputeHold) : Prop :=
  row.userId = requested.userId ∧ row.tokenId = requested.tokenId ∧ row.jobId = requested.jobId ∧
    row.sku = requested.sku ∧ row.requestedQuota = requested.quota ∧
    row.expiresAt = requested.expiresAt

theorem replayComputeHold_cases (existing requested : ComputeHold) :
    (existing.Matches requested ∧ replayComputeHold existing requested = .ok (existing, true)) ∨
    (¬ existing.Matches requested ∧
      replayComputeHold existing requested = .error .holdConflict) := by
  unfold replayComputeHold
  split
  · rename_i h
    unfold ComputeHold.Matches
    tauto
  · rename_i h
    simp only [not_or, not_not] at h
    exact .inl ⟨h, rfl⟩

variable {row : ComputeHold}

theorem LedgerStep.hold_kept (h : LedgerStep db db') (hf : db.holds.find? holdId = some row) :
    ∃ row', db'.holds.find? holdId = some row' ∧ ∀ q, row'.Matches q ↔ row.Matches q := by
  have hupdate : ∀ (hold : ComputeHold) (u : HoldUpdates), ∃ row',
      (db.moveHold hold u).find? holdId = some row' ∧
        ∀ q, row'.Matches q ↔ row.Matches q := by
    intro hold u
    rw [find?_update, hf]
    refine ⟨_, rfl, fun q => ?_⟩
    beta_reduce
    split <;> exact Iff.rfl
  cases h with
  | stay | token => exact ⟨row, hf, fun _ => Iff.rfl⟩
  | opened _ _ _ hins => exact ⟨row, find?_insert?_of_some hins hf, fun _ => Iff.rfl⟩
  | extended _ h => rw [h.holds]; exact hupdate _ _
  | settled h => rw [h.holds]; exact hupdate _ _
  | closed => exact hupdate _ _

theorem LedgerStep.settlement_kept (h : LedgerStep db db') {eventId : String}
    {row : ComputeSettlement} (hf : db.settlements.find? eventId = some row) :
    db'.settlements.find? eventId = some row := by
  cases h with
  | settled h => exact find?_insert?_of_some h.inserted hf
  | extended _ h => rw [h.settlements, hf]
  | stay | token | opened | closed => exact hf

variable {extendId : String}

theorem LedgerStep.extension_kept (h : LedgerStep db db') {row : ComputeExtension}
    (hf : db.extensions.find? extendId = some row) : db'.extensions.find? extendId = some row := by
  cases h with
  | extended _ h => exact find?_insert?_of_some h.inserted hf
  | settled h => rw [h.extensions, hf]
  | stay | token | opened | closed => exact hf

/-! ### What a request that succeeded leaves behind -/

/-- The range check a request passes before anything is looked up. -/
def HoldCall.inRange : HoldCall → Bool
  | .create hold _ _ _ => decide (0 < hold.quota ∧ hold.quota ≤ maxComputeQuota)
  | .settle _ event _ _ _ =>
    decide (0 ≤ event.cumulativeQuota ∧ event.cumulativeQuota ≤ maxComputeQuota ∧
      0 ≤ event.gpuSeconds)
  | .extend _ _ additional _ _ _ => decide (0 < additional ∧ additional ≤ maxComputeQuota)
  | _ => true

def HoldKnown (hold : ComputeHold) (db : HoldDb) : Prop :=
  ∃ row, db.holds.find? hold.holdId = some row ∧ row.Matches hold

def ComputeSettlement.Matches (row : ComputeSettlement) (holdId : String)
    (event : ComputeSettlement) (final : Bool) : Prop :=
  row.holdId = holdId ∧ row.cumulativeQuota = event.cumulativeQuota ∧
    row.gpuSeconds = event.gpuSeconds ∧ row.final = final

def SettlementKnown (holdId : String) (event : ComputeSettlement) (final : Bool) (db : HoldDb) :
    Prop :=
  (∃ row, db.settlements.find? event.eventId = some row ∧ row.Matches holdId event final) ∧
    ∃ hold, db.holds.find? holdId = some hold

def ExtensionKnown (holdId extendId : String) (additional : Int) (db : HoldDb) : Prop :=
  ∃ row, db.extensions.find? extendId = some row ∧ row.holdId = holdId ∧
    row.additionalQuota = additional

/-- What the request left behind when it succeeded. -/
def HoldCall.Known : HoldCall → HoldDb → Prop
  | .create hold _ _ _ => HoldKnown hold
  | .settle holdId event final _ _ => SettlementKnown holdId event final
  | .extend holdId extendId additional _ _ _ => ExtensionKnown holdId extendId additional
  | _ => fun _ => True

theorem holdKnown_stable (hold : ComputeHold) : Stable LedgerStep (HoldKnown hold) := by
  rintro db db' h ⟨row, hf, hm⟩
  obtain ⟨row', hf', hiff⟩ := h.hold_kept hf
  exact ⟨row', hf', (hiff hold).mpr hm⟩

theorem settlementKnown_stable (holdId : String) (event : ComputeSettlement) (final : Bool) :
    Stable LedgerStep (SettlementKnown holdId event final) := by
  rintro db db' h ⟨⟨row, hf, hm⟩, hold, hh⟩
  obtain ⟨hold', hh', -⟩ := h.hold_kept hh
  exact ⟨⟨row, h.settlement_kept hf, hm⟩, hold', hh'⟩

theorem extensionKnown_stable (holdId extendId : String) (additional : Int) :
    Stable LedgerStep (ExtensionKnown holdId extendId additional) := by
  rintro db db' h ⟨row, hf, hm⟩
  exact ⟨row, h.extension_kept hf, hm⟩

theorem HoldCall.known_stable (c : HoldCall) : Stable LedgerStep c.Known := by
  cases c with
  | create hold => exact holdKnown_stable hold
  | settle holdId event final => exact settlementKnown_stable holdId event final
  | extend holdId extendId additional => exact extensionKnown_stable holdId extendId additional
  | release | expire | sweep => exact stable_true _

/-! ### Every success leaves it -/

/-- A hold with this id was read: its row is still one of the same request. -/
def Seen (holdId : String) (seen : Option ComputeHold) (db : HoldDb) : Prop :=
  ∀ row, seen = some row → ∃ row', db.holds.find? holdId = some row' ∧
    ∀ q, row'.Matches q ↔ row.Matches q

theorem seen_stable (holdId : String) (seen : Option ComputeHold) :
    Stable LedgerStep (Seen holdId seen) := by
  intro db db' h hs row hrow
  obtain ⟨row', hf, hiff⟩ := hs row hrow
  obtain ⟨row'', hf', hiff'⟩ := h.hold_kept hf
  exact ⟨row'', hf', fun q => (hiff' q).trans (hiff q)⟩

variable {P K : HoldDb → Prop}

theorem getComputeHold_tells (holdId : String) :
    (getComputeHold holdId).Tells LedgerStep (Seen holdId) P :=
  tells_look (fun _ => .stay) (seen_stable holdId) fun _ _ row hrow =>
    ⟨row, hrow, fun _ => Iff.rfl⟩

theorem known_of_replay {r : ComputeHold × Bool} (hs : Seen hold.holdId (some row) db)
    (h : replayComputeHold row hold = .ok r) : HoldKnown hold db := by
  obtain ⟨row', hf, hiff⟩ := hs row rfl
  rcases replayComputeHold_cases row hold with ⟨hm, -⟩ | ⟨-, he⟩
  · exact ⟨row', hf, (hiff hold).mpr hm⟩
  · rw [he] at h
    cases h

theorem createTx_known {stored : ComputeHold} (hpos : 0 < hold.quota)
    (hmax : hold.quota ≤ maxComputeQuota)
    (h : createTx (freshHold hold now) db = .ok (stored, db')) :
    LedgerStep db db' ∧ HoldKnown hold db' := by
  obtain ⟨entity, store, holds, htake, hins, rfl⟩ := createTx_ok h
  have hself := find?_insert?_self hins
  exact ⟨opened hpos hmax htake hins, _, hself, rfl, rfl, rfl, rfl, rfl, rfl⟩

/-- A transaction that leaves behind, when it succeeds, what stays. -/
theorem transaction_tells {commits : Bool} {x : ComputeTx α} (hK : Stable LedgerStep K)
    (h : ∀ db a db', x db = .ok (a, db') → LedgerStep db db' ∧ K db') :
    (transaction commits x).Tells LedgerStep (fun r db => ∀ a, r = .ok a → K db) P :=
  tells_atomic (fun _ _ _ hs hk a ha => hK _ _ hs (hk a ha)) fun db => by
    rcases run_cases commits (.account .database) x db with ⟨a, hx, -⟩ | ⟨hs, e, he⟩
    · exact ⟨(h _ _ _ hx).1, fun _ _ _ => (h _ _ _ hx).2⟩
    · exact ⟨hs.symm ▸ .stay, fun _ a ha => by rw [he] at ha; cases ha⟩

/-- A program at the end, of which nothing is known but its steps. -/
theorem tells_after {β : Type} {p : Prog HoldDb α} {f : α → β} {Q : β → HoldDb → Prop}
    (hK : Stable LedgerStep K) (hp : p.Within LedgerStep) (hQ : ∀ a db, K db → Q (f a) db) :
    (p >>= fun a => pure (f a)).Tells LedgerStep Q K :=
  tells_bind (M := fun _ => K) (tells_of_within hp hK)
    (fun a => tells_pure (hQ a))

theorem createComputeHold_tells (hold : ComputeHold) (token : Option Token) (now : Int)
    (commits : Nat → Bool) :
    (createComputeHold hold token now commits).Tells LedgerStep
      (fun r db => ∀ x, r = .ok x → (0 < hold.quota ∧ hold.quota ≤ maxComputeQuota) ∧
        HoldKnown hold db) (fun _ => True) := by
  unfold createComputeHold
  split
  · exact tells_pure fun _ _ _ => nofun
  rename_i hrange
  rw [not_or, not_le, not_lt] at hrange
  refine tells_bind (getComputeHold_tells hold.holdId) fun existing => ?_
  split
  · exact tells_pure fun _ hs x hx => ⟨hrange, known_of_replay hs hx⟩
  split
  · exact tells_pure fun _ _ _ => nofun
  split
  · exact tells_pure fun _ _ _ => nofun
  split
  · exact tells_pure fun _ _ _ => nofun
  refine tells_bind (transaction_tells (holdKnown_stable hold)
    (fun _ _ _ => createTx_known hrange.1 hrange.2)) fun r => ?_
  split
  · exact (tells_after (holdKnown_stable hold) (adjustComputeTokenQuota_within _ _)
      (fun _ _ hk _ _ => ⟨hrange, hk⟩)).weaken fun _ hk => hk _ rfl
  · refine tells_bind (getComputeHold_tells hold.holdId) fun existing => ?_
    split
    · exact tells_pure fun _ hs x hx => ⟨hrange, known_of_replay hs hx⟩
    · exact tells_pure fun _ _ _ => nofun
  · exact tells_pure fun _ _ _ => nofun

/-- A request was answered from the row it left behind. -/
theorem replayComputeSettlement_tells (holdId : String) (event : ComputeSettlement) (final : Bool) :
    (replayComputeSettlement holdId event final).Tells LedgerStep
      (fun r db => ∀ x, r = some (.ok x) → SettlementKnown holdId event final db) P := by
  refine tells_bind
    (M := fun seen db => ∀ row, seen = some row → db.settlements.find? event.eventId = some row)
    (tells_look (fun _ => .stay)
      (fun _ _ _ h hs row hrow => h.settlement_kept (hs row hrow)) fun _ _ _ hrow => hrow)
    (fun seen => ?_)
  split
  · exact tells_pure (by simp)
  rename_i row
  split
  · exact tells_pure (by simp)
  rename_i hsame
  simp only [not_or, not_not] at hsame
  refine tells_bind
    (M := fun hold db => ∀ h, hold = some h → SettlementKnown holdId event final db)
    (tells_look (fun _ => .stay)
      (fun _ db db' h hs x hx => settlementKnown_stable holdId event final db db' h (hs x hx))
      (fun _ hs x hx => ⟨⟨row, hs row rfl, hsame⟩, x, hx⟩))
    (fun hold => ?_)
  split
  · exact tells_pure (by simp)
  · rename_i hold
    exact tells_pure fun _ hs _ _ => hs hold rfl

theorem settleTx_known {event : ComputeSettlement} {final : Bool} {result : ComputeSettleResult}
    (h : settleTx holdId event final now db = .ok (result, db')) :
    LedgerStep db db' ∧ SettlementKnown holdId event final db' := by
  obtain ⟨hold, rfl, hs⟩ := settleTx_ok h
  obtain ⟨hold', hf', -⟩ := (settled hs).hold_kept hs.find
  have hself := find?_insert?_self hs.inserted
  exact ⟨settled hs, ⟨_, hself, rfl, rfl, rfl, rfl⟩, hold', hf'⟩

theorem some_ok_of_map {answer : Except ComputeError ComputeSettleResult} {x : ComputeSettleResult}
    (h : answer.map some = .ok (some x)) : some answer = some (.ok x) := by
  cases answer with
  | error => cases h
  | ok => cases h; rfl

theorem settleComputeHold_tells (holdId : String) (event : ComputeSettlement) (final : Bool)
    (now : Int) (commits : Nat → Bool) :
    (settleComputeHold holdId event final now commits).Tells LedgerStep
      (fun r db => ∀ x, r = .ok (some x) → (0 ≤ event.cumulativeQuota ∧
        event.cumulativeQuota ≤ maxComputeQuota ∧ 0 ≤ event.gpuSeconds) ∧
        SettlementKnown holdId event final db) (fun _ => True) := by
  have hstable := settlementKnown_stable holdId event final
  unfold settleComputeHold
  split
  · exact tells_pure fun _ _ _ => nofun
  rename_i hrange
  simp only [not_or, not_lt] at hrange
  refine tells_bind (replayComputeSettlement_tells holdId event final) fun answer => ?_
  split
  · exact tells_pure fun _ hk x hx => ⟨hrange, hk x (some_ok_of_map hx)⟩
  refine tells_bind (transaction_tells hstable
    (fun _ _ _ => settleTx_known)) fun r => ?_
  split
  · exact (tells_after hstable (within_when (adjustComputeTokenQuota_within _ _))
      (fun _ _ hk _ _ => ⟨hrange, hk⟩)).weaken fun _ hk => hk _ rfl
  · exact (tells_after (stable_true _) (expireLapsedComputeHold_within _ _ _)
      (fun _ _ _ _ => nofun)).weaken fun _ _ => trivial
  · refine tells_bind (replayComputeSettlement_tells holdId event final) fun answer => ?_
    split
    · exact tells_pure fun _ hk x hx => ⟨hrange, hk x (some_ok_of_map hx)⟩
    · exact tells_pure fun _ _ _ => nofun
  · exact tells_pure fun _ _ _ => nofun

theorem replayComputeExtension_tells (holdId extendId : String) (additional : Int) :
    (replayComputeExtension holdId extendId additional).Tells LedgerStep
      (fun r db => ∀ x, r = some (.ok x) → ExtensionKnown holdId extendId additional db) P := by
  refine tells_bind
    (M := fun seen db => ∀ row, seen = some row → db.extensions.find? extendId = some row)
    (tells_look (fun _ => .stay)
      (fun _ _ _ h hs row hrow => h.extension_kept (hs row hrow)) fun _ _ _ hrow => hrow)
    (fun seen => ?_)
  split
  · exact tells_pure (by simp)
  rename_i row
  split
  · exact tells_pure (by simp)
  · rename_i hsame
    simp only [not_or, not_not] at hsame
    exact tells_pure fun _ hs _ _ => ⟨row, hs row rfl, hsame⟩

theorem extendTx_known {additional : Int} {token : Token} {extension : ComputeExtension}
    (hpos : 0 < additional)
    (h : extendTx holdId extendId additional token now db = .ok (extension, db')) :
    LedgerStep db db' ∧ ExtensionKnown holdId extendId additional db' := by
  obtain ⟨hold, rfl, rfl, rfl, he⟩ := extendTx_ok h
  exact ⟨extended hpos he, extension, find?_insert?_self he.inserted, rfl, rfl⟩

theorem extendComputeHold_tells (holdId extendId : String) (additional : Int)
    (token : Option Token) (now : Int) (commits : Nat → Bool) :
    (extendComputeHold holdId extendId additional token now commits).Tells LedgerStep
      (fun r db => ∀ x b, r = .ok (some x, b) → (0 < additional ∧ additional ≤ maxComputeQuota) ∧
        ExtensionKnown holdId extendId additional db) (fun _ => True) := by
  have hstable := extensionKnown_stable holdId extendId additional
  unfold extendComputeHold
  split
  · exact tells_pure fun _ _ _ => nofun
  rename_i hrange
  rw [not_or, not_le, not_lt] at hrange
  refine tells_bind (replayComputeExtension_tells holdId extendId additional)
    (fun answer => ?_)
  split
  · exact tells_pure fun _ hk _ _ _ => ⟨hrange, hk _ rfl⟩
  · exact tells_pure fun _ _ _ => nofun
  split
  · exact tells_pure fun _ _ _ => nofun
  split
  · exact tells_pure fun _ _ _ => nofun
  refine tells_bind (transaction_tells hstable
    (fun _ _ _ => extendTx_known hrange.1)) fun r => ?_
  split
  · exact (tells_after hstable (adjustComputeTokenQuota_within _ _)
      (fun _ _ hk _ _ _ => ⟨hrange, hk⟩)).weaken fun _ hk => hk _ rfl
  · exact (tells_after (stable_true _) (expireLapsedComputeHold_within _ _ _)
      (fun _ _ _ _ => nofun)).weaken fun _ _ => trivial
  · refine tells_bind (replayComputeExtension_tells holdId extendId additional)
      (fun answer => ?_)
    split
    · exact tells_pure fun _ hk _ _ _ => ⟨hrange, hk _ rfl⟩
    · exact tells_pure fun _ _ _ => nofun
    · exact tells_pure fun _ _ _ => nofun
  · exact tells_pure fun _ _ _ => nofun

def HoldReply.Succeeded : HoldReply → Prop
  | .created (.ok _) => True
  | .settled (.ok (some _)) => True
  | .extended (.ok (some _, _)) => True
  | _ => False

/-- **A request that succeeded passed its range check and left its row behind.** -/
theorem HoldCall.tells (c : HoldCall) :
    c.prog.Tells LedgerStep
      (fun r db => r.Succeeded → c.inRange = true ∧ c.Known db) (fun _ => True) := by
  cases c with
  | create hold token now commits =>
    refine tells_bind (createComputeHold_tells hold token now commits)
      (fun r => tells_pure fun db hk hs => ?_)
    cases r with
    | error => exact hs.elim
    | ok x => exact ⟨decide_eq_true (hk x rfl).1, (hk x rfl).2⟩
  | settle holdId event final now commits =>
    refine tells_bind (settleComputeHold_tells holdId event final now commits)
      (fun r => tells_pure fun db hk hs => ?_)
    match r with
    | .error e => exact hs.elim
    | .ok none => exact hs.elim
    | .ok (some x) => exact ⟨decide_eq_true (hk x rfl).1, (hk x rfl).2⟩
  | extend holdId extendId additional token now commits =>
    refine tells_bind (extendComputeHold_tells holdId extendId additional token now commits)
      (fun r => tells_pure fun db hk hs => ?_)
    match r with
    | .error e => exact hs.elim
    | .ok (none, b) => exact hs.elim
    | .ok (some x, b) => exact ⟨decide_eq_true (hk x b rfl).1, (hk x b rfl).2⟩
  | release =>
    exact tells_after (stable_true _) (releaseComputeHold_within _ _ _)
      (fun _ _ _ _ => ⟨rfl, trivial⟩)
  | expire =>
    exact tells_after (stable_true _) (expireComputeHold_within _ _ _)
      (fun _ _ _ _ => ⟨rfl, trivial⟩)
  | sweep =>
    exact tells_after (stable_true _)
      (within_bind (look_within _) fun _ => sweepLoop_within _ _ _ _)
      (fun _ _ _ _ => ⟨rfl, trivial⟩)

/-- A run of the bridge is a run of steps on the list. -/
theorem ledger_of_reach {p p' : Pool HoldCall HoldDb HoldReply}
    (hr : Pool.Reach HoldCall.prog p p')
    (hs : p.Safe LedgerStep fun c r db => r.Succeeded → c.inRange = true ∧ c.Known db) :
    p'.Safe LedgerStep (fun c r db => r.Succeeded → c.inRange = true ∧ c.Known db) ∧
      Relation.ReflTransGen LedgerStep p.state p'.state :=
  ⟨Pool.reach_safe (fun c => c.tells.sat) hr hs,
    Pool.reach_rely (stable_true _) (fun c => c.tells.sat) hr trivial hs⟩

end UnifyConsole.Compute
