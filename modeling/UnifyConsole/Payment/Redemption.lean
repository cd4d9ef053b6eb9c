import UnifyConsole.Account.Quota
import UnifyConsole.Lib.Watch

/-!
# Redemption codes

`Redeem` of `model/redemption.go` and the edit of a code by `UpdateRedemption` of
`controller/redemption.go`.  `Redeem` reads the code, then moves it from enabled to used and adds
its quota to the wallet of the login: `takeCode`, which the store does as a whole or not at all,
since the row is locked from the `UPDATE` on.  SQLite takes no lock for the read, so anything may
come between the two.

An edit reads the row and writes five columns back, the status that it read among them.
`redeemed_once` needs of each write that a code which is used by then was used when the edit read
it; `redeemed_twice` is a run in which it was not.

The state has one list that the code does not have: the additions that were made.  The balances
move by what is in it (`Redeemed`).  Deleted codes
are left out, and the texts of the errors that `Redeem` logs: it returns `ErrRedeemFailed` for each.
-/

namespace UnifyConsole.Payment

open Lib Account
open Prog Table Tx Watch

/-! ### Rows -/

inductive RedemptionStatus where
  | enabled
  | disabled
  | used
deriving DecidableEq

structure Redemption where
  id : Int
  key : String
  status : RedemptionStatus
  name : String
  quota : Int
  redeemedTime : Int
  usedUserId : Int
  expiredTime : Int

structure RedemptionCredit where
  redemptionId : Int
  userId : Int
  quota : Int
deriving DecidableEq

structure RedemptionDb where
  redemptions : Table Redemption.id
  accounts : Store
  credits : List RedemptionCredit

open RedemptionDb

inductive RedeemError where
  | keyMissing
  | invalidUserId
  | redeemFailed
deriving DecidableEq

namespace RedemptionDb

variable (s : RedemptionDb)

def statusOf (id : Int) : Option RedemptionStatus :=
  (s.redemptions.find? id).map Redemption.status

def creditsOf (id : Int) : List RedemptionCredit :=
  s.credits.filter fun c => decide (c.redemptionId = id)

/-- `UPDATE redemptions SET … WHERE id = … AND status = enabled`; `none` when no row matches. -/
def markUsed (id userId now : Int) : Option RedemptionDb :=
  if s.statusOf id = some .enabled then
    some { s with
      redemptions := s.redemptions.update (fun r => decide (r.id = id))
        (fun r => { r with redeemedTime := now, status := .used, usedUserId := userId })
        (fun _ => rfl) }
  else none

def updateRow (row : Redemption) : RedemptionDb :=
  { s with
    redemptions := s.redemptions.update (fun r => decide (r.id = row.id))
      (fun r => { r with
        name := row.name, status := row.status, quota := row.quota
        redeemedTime := row.redeemedTime, expiredTime := row.expiredTime }) (fun _ => rfl) }

end RedemptionDb

/-! ### Redeeming and editing -/

def increaseForCode (redemption : Redemption) (userId : Int) :
    Tx RedemptionDb RedeemError Unit := do
  Tx.ensure (0 ≤ redemption.quota) .redeemFailed
  let _ ← Tx.zoom RedemptionDb.accounts (fun s a => { s with accounts := a })
    (fun _ => .redeemFailed) (adjustBillingQuotaWithTx userId redemption.quota)
  Tx.write fun s => { s with credits := ⟨redemption.id, userId, redemption.quota⟩ :: s.credits }

/-- What `Redeem` does once it has read the code. -/
def takeCode (redemption : Redemption) (userId now : Int) : Tx RedemptionDb RedeemError Int := do
  Tx.writeSome (fun s => s.markUsed redemption.id userId now) .redeemFailed
  increaseForCode redemption userId
  pure redemption.quota

def redeem (key : String) (userId now : Int) (commits : Bool) :
    Prog RedemptionDb (Except RedeemError Int) :=
  if key = "" then pure (.error .keyMissing)
  else if userId = 0 then pure (.error .invalidUserId)
  else do
    let found ← Prog.look fun s => s.redemptions.rows.find? fun r => decide (r.key = key)
    match found with
    | none => pure (.error .redeemFailed)
    | some redemption =>
      if redemption.status ≠ .enabled then pure (.error .redeemFailed)
      else if redemption.expiredTime ≠ 0 ∧ redemption.expiredTime < now then
        pure (.error .redeemFailed)
      else Prog.transact commits .redeemFailed (takeCode redemption userId now)

def validateExpiredTime (expired now : Int) : Bool := !decide (expired ≠ 0 ∧ expired < now)

/-- The row that `UpdateRedemption` writes: `clean` is what it read, `req` what was sent. -/
def Redemption.edited (clean req : Redemption) (statusOnly : Bool) : Redemption :=
  if statusOnly then { clean with status := req.status }
  else { clean with name := req.name, quota := req.quota, expiredTime := req.expiredTime }

def updateRedemption (req : Redemption) (statusOnly : Bool) (now : Int) (commits : Bool) :
    Prog RedemptionDb Bool :=
  if req.id = 0 then pure false
  else do
    let found ← Prog.look fun s => s.redemptions.find? req.id
    match found with
    | none => pure false
    | some clean =>
      if !statusOnly && !validateExpiredTime req.expiredTime now then pure false
      else Prog.atomic fun s =>
        if commits then (true, s.updateRow (clean.edited req statusOnly)) else (false, s)

/-- The calls: logins redeem, administrators edit what is not the status. -/
inductive RedemptionCall where
  | redeem (key : String) (userId now : Int) (commits : Bool)
  | edit (req : Redemption) (now : Int) (commits : Bool)

def RedemptionCall.prog : RedemptionCall → Prog RedemptionDb Unit
  | redeem key userId now commits => do
    let _ ← Payment.redeem key userId now commits
    pure ()
  | edit req now commits => do
    let _ ← updateRedemption req false now commits
    pure ()

/-! ### One step -/

/-- What the additions brought to a wallet; `s₀` says who draws on it. -/
def RedemptionDb.redeemedTo (s₀ s : RedemptionDb) (w : Wallet) : Int :=
  ((s.credits.filter fun c => decide (s₀.accounts.walletOf c.userId = some w)).map
    RedemptionCredit.quota).sum

/-- No code is paid twice, a paid code is used, and the balances have moved by what was paid. -/
structure Redeemed (s₀ s : RedemptionDb) : Prop where
  once : ∀ id, (s.creditsOf id).length ≤ 1
  used : ∀ id, s.creditsOf id ≠ [] → s.statusOf id = some .used
  banked : Shifted (s₀.redeemedTo s) s₀.accounts s.accounts

/-- A code that is used when an edit writes was used when the edit read it. -/
def RedemptionCall.Fresh (c : RedemptionCall) (seen : List RedemptionDb) (s : RedemptionDb) :
    Prop :=
  match c with
  | redeem .. => True
  | edit req _ _ => s.statusOf req.id = some .used →
      ∀ past ∈ seen, past.statusOf req.id = some .used

instance (c : RedemptionCall) (seen : List RedemptionDb) (s : RedemptionDb) :
    Decidable (c.Fresh seen s) :=
  match c with
  | .redeem .. => inferInstanceAs (Decidable True)
  | .edit req _ _ => inferInstanceAs (Decidable (s.statusOf req.id = some .used →
      ∀ past ∈ seen, past.statusOf req.id = some .used))

variable {s₀ s s' : RedemptionDb} {redemption : Redemption} {userId now quota : Int}

/-- The quota of a code has been added to the wallet of the login. -/
structure Added (redemption : Redemption) (userId : Int) (s s' : RedemptionDb) : Prop where
  credits : s'.credits = ⟨redemption.id, userId, redemption.quota⟩ :: s.credits
  wallets : Shifted
    (fun w => if s.accounts.walletOf userId = some w then redemption.quota else 0)
    s.accounts s'.accounts

theorem increaseForCode_ok {r : Unit × RedemptionDb}
    (h : increaseForCode redemption userId s = .ok r) :
    r.2.redemptions = s.redemptions ∧ Added redemption userId s r.2 := by
  unfold increaseForCode at h
  simp only [bind_ok, ensure_ok, zoom_ok, write_ok, adjustBillingQuotaWithTx_ok] at h
  obtain ⟨_, s₁, ⟨-, hs₁⟩, a, s₂, ⟨b, accounts, ⟨-, entity, hentity, hb⟩, hs₂⟩, rfl⟩ := h
  cases hs₁
  cases hs₂
  cases hb
  refine ⟨rfl, rfl, (shifted_setQuota _ a.wallet _).of_eq fun w => ?_⟩
  rw [Store.walletOf, hentity]
  simp only [Option.map_some, Option.some.injEq, eq_comm]

/-- The swap finds the code enabled, and leaves it used and paid once more. -/
theorem takeCode_ok (h : takeCode redemption userId now s = .ok (quota, s')) :
    s.statusOf redemption.id = some .enabled ∧
      (∀ id, s'.statusOf id = if id = redemption.id then some .used else s.statusOf id) ∧
      Added redemption userId s s' := by
  unfold takeCode at h
  simp only [bind_ok, writeSome_ok] at h
  obtain ⟨_, s₁, ⟨s₂, hmark, hs₁⟩, _, s₃, hincrease, hs'⟩ := h
  cases hs₁
  cases hs'
  obtain ⟨hrows, hadded⟩ := increaseForCode_ok hincrease
  unfold markUsed at hmark
  split at hmark
  · rename_i henabled
    cases hmark
    refine ⟨henabled, fun id => ?_, ⟨hadded.credits, hadded.wallets⟩⟩
    obtain ⟨row, hrow, -⟩ := Option.map_eq_some_iff.mp henabled
    unfold statusOf
    rw [hrows, find?_update_at hrow (decide_eq_true (key_of_find? hrow)) (fun x hx =>
      of_decide_eq_true hx), apply_ite (Option.map Redemption.status)]
    rfl
  · cases hmark

theorem Redeemed.take (h : Redeemed s₀ s)
    (htake : takeCode redemption userId now s = .ok (quota, s')) : Redeemed s₀ s' := by
  obtain ⟨henabled, hstatus, hadded⟩ := takeCode_ok htake
  have hnone : s.creditsOf redemption.id = [] := by
    by_contra hpaid
    cases henabled.symm.trans (h.used redemption.id hpaid)
  have hcredits : ∀ id, s'.creditsOf id =
      if id = redemption.id then [⟨id, userId, redemption.quota⟩] else s.creditsOf id := by
    intro id
    rw [creditsOf, hadded.credits, List.filter_cons]
    by_cases hid : id = redemption.id
    · rw [if_pos (decide_eq_true hid.symm), if_pos hid, ← creditsOf, hid, hnone]
    · rw [if_neg (by simpa using fun he => hid he.symm), if_neg hid, ← creditsOf]
  refine ⟨fun id => ?_, fun id hpaid => ?_, (h.banked.trans hadded.wallets).of_eq fun w => ?_⟩
  · rw [hcredits]
    split
    · exact le_rfl
    · exact h.once id
  · rw [hstatus]
    split
    · rfl
    · rename_i hid
      rw [hcredits, if_neg hid] at hpaid
      exact h.used id hpaid
  · unfold redeemedTo
    rw [hadded.credits, List.filter_cons, h.banked.walletOf]
    by_cases hw : s₀.accounts.walletOf userId = some w
    · simp only [hw, decide_true, if_true, List.map_cons, List.sum_cons]
      omega
    · simp [hw]

theorem statusOf_updateRow (row : Redemption) (id : Int) :
    (s.updateRow row).statusOf id =
      if id = row.id then (s.statusOf id).map (fun _ => row.status) else s.statusOf id := by
  unfold statusOf updateRow
  rw [find?_update, Option.map_map]
  cases hrow : s.redemptions.find? id with
  | none => simp
  | some =>
    simp only [Option.map_some, Function.comp_apply, key_of_find? hrow, decide_eq_true_eq]
    split <;> rfl

/-- An edit that read the code in a state with the status it is to have. -/
theorem Redeemed.edit {row : Redemption} (h : Redeemed s₀ s)
    (hfresh : s.statusOf row.id = some .used → row.status = .used) :
    Redeemed s₀ (s.updateRow row) := by
  refine ⟨h.once, fun id hpaid => ?_, h.banked⟩
  have hused := h.used id hpaid
  rw [statusOf_updateRow]
  split
  · rename_i hid
    subst hid
    rw [hused, Option.map_some, hfresh hused]
  · exact hused

/-! ### Every run -/

theorem follows_redeem (key : String) (userId now : Int) (commits : Bool) :
    Prog.Follows (Watch.Keeps (RedemptionCall.redeem key userId now commits).Fresh (Redeemed s₀))
      (fun _ _ => True) [] (redeem key userId now commits) := by
  unfold redeem
  split
  · exact trivial
  split
  · exact trivial
  refine follows_bind (follows_look fun past => ⟨[past], keeps_same _ _, ?_⟩)
  split
  · exact trivial
  split
  · exact trivial
  split
  · exact trivial
  exact follows_transact (fun s b s' htake _ _ h => h.take htake) fun _ _ => trivial

theorem follows_updateRedemption (req : Redemption) (now : Int) (commits : Bool) :
    Prog.Follows (Watch.Keeps (RedemptionCall.edit req now commits).Fresh (Redeemed s₀))
      (fun _ _ => True) [] (updateRedemption req false now commits) := by
  unfold updateRedemption
  split
  · exact trivial
  refine follows_bind (follows_look fun past => ⟨[past], keeps_same _ _, ?_⟩)
  split
  · exact trivial
  rename_i clean hclean
  split
  · exact trivial
  refine follows_atomic fun s => ⟨[s, past], ⟨rfl, fun hok _ h => ?_⟩, trivial⟩
  cases commits with
  | false => exact h
  | true =>
    have hid : clean.id = req.id := key_of_find? hclean
    refine h.edit fun hused => ?_
    have hpast := hok (hid ▸ hused) past (List.mem_singleton.mpr rfl)
    rw [statusOf, hclean] at hpast
    exact Option.some.inj hpast

/-- **A code pays once**, in every interleaving of redemptions and edits in which no edit writes to
a code that was redeemed after the edit read it; and every wallet has got what the codes of its
logins paid. -/
theorem redeemed_once (s : RedemptionDb) (hs : s.credits = [])
    (w : Watch RedemptionCall RedemptionDb Unit)
    (hrun : ReachIf RedemptionCall.prog RedemptionCall.Fresh (Watch.start s) w) :
    (∀ id, (w.state.creditsOf id).length ≤ 1) ∧
      ∀ wallet, (s.accounts.quota? wallet).isSome = true →
        w.state.accounts.balance wallet = s.accounts.balance wallet +
          ((w.state.credits.filter
            (fun c => decide (s.accounts.walletOf c.userId = some wallet))).map
              RedemptionCredit.quota).sum := by
  have hstart : Redeemed s s := by
    refine ⟨fun id => ?_, fun id hpaid => ?_, (Shifted.refl _).of_eq fun w => ?_⟩
    · simp [creditsOf, hs]
    · simp [creditsOf, hs] at hpaid
    · simp [redeemedTo, hs]
  have hend : Redeemed s w.state := by
    refine reach_invariant (fun c => ?_) hrun hstart
    cases c with
    | redeem key userId now commits =>
      exact follows_bind ((follows_redeem key userId now commits).mono fun _ _ _ => trivial)
    | edit req now commits =>
      exact follows_bind ((follows_updateRedemption req now commits).mono fun _ _ _ => trivial)
  exact ⟨hend.once, hend.banked.balance⟩

def oneCode : RedemptionDb where
  redemptions := ⟨[⟨1, "k", .enabled, "spring", 500, 0, 0, 0⟩], by decide⟩
  accounts := { users := ⟨[⟨7, "a", "", 1, "", 0, 0⟩, ⟨8, "b", "", 1, "", 0, 0⟩], by decide⟩ }
  credits := []

def rename : RedemptionCall := .edit ⟨1, "", .disabled, "summer", 500, 0, 0, 0⟩ 10 true

def freshRun : List (Pool.Move RedemptionCall) :=
  [.call (.redeem "k" 7 10 true), .call (.redeem "k" 8 10 true), .run 0, .run 1, .run 0,
    .call rename, .run 0, .run 0, .run 2]

theorem redeemed_once_renamed :
    let w := Watch.play RedemptionCall.prog freshRun (Watch.start oneCode)
    w.state.credits = [⟨1, 8, 500⟩] ∧ (w.state.creditsOf 1).length ≤ 1 ∧
      w.state.accounts.balance (.user 7) = 0 ∧ w.state.accounts.balance (.user 8) = 500 := by
  obtain ⟨honce, hwallets⟩ := redeemed_once oneCode rfl _
    (reach_play_of _ _ freshRun _ (by decide +kernel))
  exact ⟨by decide +kernel, honce 1, (hwallets (.user 7) (by decide)).trans (by decide +kernel),
    (hwallets (.user 8) (by decide)).trans (by decide +kernel)⟩

def staleRun : List (Pool.Move RedemptionCall) :=
  [.call rename, .run 0, .call (.redeem "k" 7 10 true), .run 0, .run 0, .run 1,
    .call (.redeem "k" 8 11 true), .run 0, .run 0]

/-- **Paid twice**: a rename puts the code back on sale. -/
theorem redeemed_twice :
    ∃ w, Reach RedemptionCall.prog (Watch.start oneCode) w ∧
      w.state.creditsOf 1 = [⟨1, 8, 500⟩, ⟨1, 7, 500⟩] ∧
      w.state.accounts.balance (.user 7) = 500 ∧ w.state.accounts.balance (.user 8) = 500 :=
  ⟨_, reach_play _ staleRun _, by decide +kernel, by decide +kernel, by decide +kernel⟩

end UnifyConsole.Payment
