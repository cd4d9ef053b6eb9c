import UnifyConsole.Account.Store

/-!
# Spending and returning quota

The functions of `model/user.go`, `model/token.go` and `model/billing_entity.go`
that a request pays with.  Each resolves the login's wallet and makes one
`UPDATE`; a token is updated by its id.  Batch updating is off: with it on, the
token and legacy-wallet updates are summed up in memory first.

`Charged w tok n m` is what any of them does to the store: `n` leaves the wallet
and `m` leaves the token.  Charges add up (`Charged.trans`), and logins stay
where they are.
-/

namespace UnifyConsole.Account

open Lib
open Table Tx Store

/-! ### The functions -/

def getUserQuota (id : Int) : AccountTx Int := do
  let entity ← resolveBillingEntity id
  if entity.isTenant then getBillingQuotaFromDB entity
  else Tx.read fun s => s.balance (.user id)

def moveUserQuota (id delta : Int) : AccountTx Unit := do
  let entity ← resolveBillingEntity id
  if entity.isTenant then do
    let _ ← adjustBillingQuotaWithTx id delta
    pure ()
  else Tx.write fun s => s.setQuota (.user id) (fun _ => true) fun q => q + delta

def increaseUserQuota (id quota : Int) : AccountTx Unit := do
  Tx.ensure (0 ≤ quota) .negativeQuota
  moveUserQuota id quota

def decreaseUserQuota (id quota : Int) : AccountTx Unit := do
  Tx.ensure (0 ≤ quota) .negativeQuota
  moveUserQuota id (-quota)

/-- `SetUserQuota`: a negative balance is allowed. -/
def setUserQuota (userId quota : Int) : AccountTx Unit := do
  let entity ← resolveBillingEntity userId
  Tx.write fun s => s.setQuota entity.wallet (fun _ => true) fun _ => quota

def tryDecreaseUserQuota (userId quota : Int) : AccountTx Unit := do
  Tx.ensure (0 ≤ quota) .negativeQuota
  let _ ← tryDecreaseUserQuotaWithTx userId quota
  pure ()

def increaseTokenQuota (tokenId quota : Int) : AccountTx Unit := do
  Tx.ensure (0 ≤ quota) .negativeQuota
  Tx.write fun s => s.increaseTokenQuota tokenId quota

def decreaseTokenQuota (tokenId quota : Int) : AccountTx Unit := do
  Tx.ensure (0 ≤ quota) .negativeQuota
  Tx.write fun s => s.decreaseTokenQuota tokenId quota

def getTokenByKey (cached : Option Token) (key : String) : AccountTx Token :=
  match cached with
  | some token => pure token
  | none => Tx.fetch (fun s => s.tokens.rows.find? fun t => decide (t.key = key)) .recordNotFound

/-! ### What they do to the store -/

namespace Store

def tokenRemain (s : Store) (id : Int) : Int :=
  ((s.tokens.find? id).map Token.remainQuota).getD 0

end Store

/-- `n` was taken from the wallet `w` and `m` from the token `tok`. -/
structure Charged (w : Wallet) (tok n m : Int) (s s' : Store) : Prop where
  wallet : ∀ w', s'.balance w' = s.balance w' - if w' = w then n else 0
  token : ∀ id, s'.tokenRemain id = s.tokenRemain id - if id = tok then m else 0
  entities : ∀ u, s'.entityOf u = s.entityOf u
  walletRows : ∀ w', (s'.quota? w').isSome = (s.quota? w').isSome
  tokenRows : ∀ id, (s'.tokens.find? id).isSome = (s.tokens.find? id).isSome

namespace Charged

variable {w : Wallet} {tok n m n' m' : Int} {s s' s'' : Store}

theorem refl (w : Wallet) (tok : Int) (s : Store) : Charged w tok 0 0 s s :=
  ⟨fun _ => by simp, fun _ => by simp, fun _ => rfl, fun _ => rfl, fun _ => rfl⟩

/-- **Charges add up.** -/
theorem trans (h : Charged w tok n m s s') (h' : Charged w tok n' m' s' s'') :
    Charged w tok (n + n') (m + m') s s'' where
  wallet w' := by
    rw [h'.wallet, h.wallet]
    split <;> omega
  token id := by
    rw [h'.token, h.token]
    split <;> omega
  entities u := by rw [h'.entities, h.entities]
  walletRows w' := by rw [h'.walletRows, h.walletRows]
  tokenRows id := by rw [h'.tokenRows, h.tokenRows]

theorem of_eq (h : Charged w tok n m s s') (hn : n = n') (hm : m = m') :
    Charged w tok n' m' s s' := by
  subst hn hm
  exact h

end Charged

variable {n q tok : Int}

namespace Store

@[simp] theorem tokens_setQuota (s : Store) (w : Wallet) (p : Int → Bool) (f : Int → Int) :
    (s.setQuota w p f).tokens = s.tokens := by
  cases w <;> rfl

@[simp] theorem quota?_increaseTokenQuota (s : Store) (id n : Int) (w : Wallet) :
    (s.increaseTokenQuota id n).quota? w = s.quota? w := by
  cases w <;> rfl

variable {s : Store}

/-- `quota + delta` on a wallet that has a row is a charge of `-delta`. -/
theorem charged_setQuota {w : Wallet} (h : (s.quota? w).isSome = true) (tok delta : Int) :
    Charged w tok (-delta) 0 s (s.setQuota w (fun _ => true) fun q => q + delta) where
  wallet w' := by
    rw [balance_add h]
    split <;> omega
  token id := by simp [tokenRemain]
  entities u := entityOf_setQuota ..
  walletRows w' := isSome_quota?_setQuota ..
  tokenRows id := by rw [tokens_setQuota]

theorem charged_take {w : Wallet} (hq : s.quota? w = some q) (hn : n ≤ q) (tok : Int) :
    Charged w tok n 0 s (s.setQuota w (fun q => decide (n ≤ q)) fun q => q - n) where
  wallet w' := balance_take hq hn w'
  token id := by simp [tokenRemain]
  entities u := entityOf_setQuota ..
  walletRows w' := isSome_quota?_setQuota ..
  tokenRows id := by rw [tokens_setQuota]

/-- What is left of a token that has a row, after `remain_quota + n`. -/
theorem tokenRemain_increaseTokenQuota {id : Int} (h : (s.tokens.find? id).isSome = true)
    (tok n : Int) :
    (s.increaseTokenQuota tok n).tokenRemain id =
      s.tokenRemain id + if id = tok then n else 0 := by
  unfold tokenRemain increaseTokenQuota
  rw [find?_update]
  obtain ⟨t, ht⟩ := Option.isSome_iff_exists.mp h
  rw [ht, ← key_of_find? ht]
  by_cases he : t.id = tok
  · simp [he]
  · simp [he]

/-- `remain_quota + n` on a token that has a row. -/
theorem charged_increaseTokenQuota (h : (s.tokens.find? tok).isSome = true) (w : Wallet) (n : Int) :
    Charged w tok 0 (-n) s (s.increaseTokenQuota tok n) where
  wallet w' := by simp [balance]
  token id := by
    by_cases hrow : (s.tokens.find? id).isSome = true
    · rw [tokenRemain_increaseTokenQuota hrow]
      split <;> omega
    have hne : id ≠ tok := by
      rintro rfl
      exact hrow h
    rw [Option.not_isSome_iff_eq_none] at hrow
    simp [tokenRemain, increaseTokenQuota, find?_update, hrow, hne]
  entities u := rfl
  walletRows w' := by rw [quota?_increaseTokenQuota]
  tokenRows id := by rw [increaseTokenQuota, isSome_find?_update]

theorem decreaseTokenQuota_eq (s : Store) (tok n : Int) :
    s.decreaseTokenQuota tok n = s.increaseTokenQuota tok (-n) := by
  unfold decreaseTokenQuota increaseTokenQuota
  congr 2
  funext t
  simp only [Token.mk.injEq, true_and, and_true]
  omega

end Store

/-! ### Balances that have moved -/

/-- Logins stay where they are, and a wallet that has a row has `d` more than it had. -/
structure Shifted (d : Wallet → Int) (s s' : Store) : Prop where
  entities : ∀ u, s'.entityOf u = s.entityOf u
  rows : ∀ w, (s'.quota? w).isSome = (s.quota? w).isSome
  balance : ∀ w, (s.quota? w).isSome = true → s'.balance w = s.balance w + d w

namespace Shifted

variable {d d' : Wallet → Int} {s s' s'' : Store}

theorem refl (s : Store) : Shifted (fun _ => 0) s s :=
  ⟨fun _ => rfl, fun _ => rfl, fun _ _ => (add_zero _).symm⟩

theorem trans (h : Shifted d s s') (h' : Shifted d' s' s'') :
    Shifted (fun w => d w + d' w) s s'' where
  entities u := (h'.entities u).trans (h.entities u)
  rows w := (h'.rows w).trans (h.rows w)
  balance w hw := by
    rw [h'.balance w (by rw [h.rows]; exact hw), h.balance w hw, add_assoc]

theorem of_eq (h : Shifted d s s') (hd : ∀ w, d w = d' w) : Shifted d' s s' := by
  rw [show d' = d from funext fun w => (hd w).symm]
  exact h

theorem walletOf (h : Shifted d s s') (userId : Int) : s'.walletOf userId = s.walletOf userId := by
  rw [Store.walletOf, h.entities, Store.walletOf]

end Shifted

theorem shifted_setQuota (s : Store) (w : Wallet) (delta : Int) :
    Shifted (fun w' => if w' = w then delta else 0) s
      (s.setQuota w (fun _ => true) fun q => q + delta) where
  entities _ := entityOf_setQuota ..
  rows _ := isSome_quota?_setQuota ..
  balance _ hw := balance_add_of_row hw w delta

/-! ### A login that can be charged -/

/-- The login draws on the wallet `w`, which has a row. -/
structure DrawsOn (s : Store) (userId : Int) (w : Wallet) : Prop where
  valid : 0 < userId
  entity : ∃ e, s.entityOf userId = some e ∧ e.wallet = w
  row : (s.quota? w).isSome = true

section DrawsOn

variable {s s' : Store} {userId : Int} {w : Wallet}

theorem DrawsOn.walletOf (h : DrawsOn s userId w) : s.walletOf userId = some w := by
  obtain ⟨e, he, rfl⟩ := h.entity
  rw [walletOf, he]
  rfl

theorem DrawsOn.charged {m : Int} {w' : Wallet} (h : DrawsOn s userId w)
    (hc : Charged w' tok n m s s') : DrawsOn s' userId w := by
  refine ⟨h.valid, ?_, ?_⟩
  · obtain ⟨e, he, hw⟩ := h.entity
    exact ⟨e, by rw [hc.entities]; exact he, hw⟩
  · rw [hc.walletRows]
    exact h.row

theorem userId_of_entityOf {e : BillingEntity} (h : s.entityOf userId = some e) :
    e.userId = userId := by
  obtain ⟨u, hu, rfl⟩ := Option.map_eq_some_iff.mp h
  show u.id = userId
  exact key_of_find? hu

theorem DrawsOn.resolve (h : DrawsOn s userId w) :
    ∃ e : BillingEntity, resolveBillingEntity userId s = .ok (e, s) ∧
      e.userId = userId ∧ e.wallet = w := by
  obtain ⟨e, he, hw⟩ := h.entity
  exact ⟨e, resolveBillingEntity_ok.mpr ⟨h.valid, e, he, rfl⟩, userId_of_entityOf he, hw⟩

theorem wallet_of_not_isTenant {e : BillingEntity} (h : e.isTenant = false) :
    e.wallet = .user e.userId := by
  simp [BillingEntity.wallet, h]

theorem getUserQuota_ok (h : getUserQuota userId s = .ok (q, s')) :
    s' = s ∧ 0 < userId ∧ ∃ e, s.entityOf userId = some e ∧ q = s.balance e.wallet := by
  obtain ⟨e, s₁, hr, hrest⟩ := bind_ok.mp h
  obtain ⟨hv, e', he, heq⟩ := resolveBillingEntity_ok.mp hr
  obtain ⟨rfl, rfl⟩ := Prod.mk.inj heq
  cases ht : e.isTenant with
  | true =>
    rw [if_pos ht] at hrest
    obtain ⟨rfl, rfl⟩ := Prod.mk.inj (read_ok.mp hrest)
    exact ⟨rfl, hv, e, he, rfl⟩
  | false =>
    rw [if_neg (by simp [ht])] at hrest
    obtain ⟨rfl, rfl⟩ := Prod.mk.inj (read_ok.mp hrest)
    exact ⟨rfl, hv, e, he, by rw [wallet_of_not_isTenant ht, userId_of_entityOf he]⟩

/-- A login whose quota reads as positive has a wallet with a row. -/
theorem getUserQuota_drawsOn (h : getUserQuota userId s = .ok (q, s')) (hq : 0 < q) :
    s' = s ∧ ∃ w, s.walletOf userId = some w ∧ DrawsOn s userId w := by
  obtain ⟨rfl, hv, e, he, rfl⟩ := getUserQuota_ok h
  refine ⟨rfl, e.wallet, by simp [walletOf, he], hv, ⟨e, he, rfl⟩, ?_⟩
  cases hw : s'.quota? e.wallet with
  | none => simp [balance, hw] at hq
  | some => rfl

theorem moveUserQuota_of (h : DrawsOn s userId w) (delta : Int) :
    moveUserQuota userId delta s =
      .ok ((), s.setQuota w (fun _ => true) fun q => q + delta) := by
  obtain ⟨e, hr, hid, rfl⟩ := h.resolve
  unfold moveUserQuota
  rw [bind_of_ok hr]
  cases ht : e.isTenant with
  | true =>
    have hadj : adjustBillingQuotaWithTx userId delta s =
        .ok (e, s.setQuota e.wallet (fun _ => true) fun q => q + delta) := by
      obtain ⟨hv, e', he', heq⟩ := resolveBillingEntity_ok.mp hr
      obtain rfl : e = e' := by simpa using congrArg Prod.fst heq
      exact adjustBillingQuotaWithTx_ok.mpr ⟨hv, e, he', rfl⟩
    simp only [if_true]
    rw [bind_of_ok hadj]
    rfl
  | false =>
    rw [wallet_of_not_isTenant ht, hid]
    rfl

theorem moveUserQuota_ok {delta : Int} {r : Unit × Store}
    (hok : moveUserQuota userId delta s = .ok r) : ∃ w, s.walletOf userId = some w ∧
      r.2 = s.setQuota w (fun _ => true) (fun q => q + delta) := by
  obtain ⟨e, s₁, hr, hrest⟩ := bind_ok.mp hok
  obtain ⟨hv, e', he, heq⟩ := resolveBillingEntity_ok.mp hr
  obtain ⟨rfl, rfl⟩ := Prod.mk.inj heq
  refine ⟨e.wallet, by simp [walletOf, he], ?_⟩
  cases ht : e.isTenant with
  | true =>
    rw [if_pos ht] at hrest
    simp only [bind_ok, pure_ok, adjustBillingQuotaWithTx_ok] at hrest
    obtain ⟨_, _, ⟨-, e', he', rfl, rfl⟩, rfl⟩ := hrest
    rw [he] at he'
    cases he'
    rfl
  | false =>
    rw [if_neg (by simp [ht])] at hrest
    rw [write_ok.mp hrest, wallet_of_not_isTenant ht, userId_of_entityOf he]

theorem setUserQuota_ok {quota : Int} {r : Unit × Store}
    (hok : setUserQuota userId quota s = .ok r) : ∃ w, s.walletOf userId = some w ∧
      r.2 = s.setQuota w (fun _ => true) (fun _ => quota) := by
  simp only [setUserQuota, bind_ok, write_ok, resolveBillingEntity_ok] at hok
  obtain ⟨e, _, ⟨-, e', he, rfl, rfl⟩, rfl⟩ := hok
  exact ⟨e.wallet, by simp [walletOf, he], rfl⟩

/-- A charge of `n ≥ 0` on the login's wallet. -/
theorem decreaseUserQuota_of (h : DrawsOn s userId w) (tok : Int) (hn : 0 ≤ n) :
    ∃ s', decreaseUserQuota userId n s = .ok ((), s') ∧ Charged w tok n 0 s s' ∧
      s'.tokens = s.tokens := by
  refine ⟨_, ?_, (charged_setQuota h.row tok (-n)).of_eq (neg_neg n) rfl,
    tokens_setQuota ..⟩
  unfold decreaseUserQuota
  rw [bind_of_ok (ensure_ok.mpr ⟨hn, rfl⟩)]
  exact moveUserQuota_of h (-n)

theorem increaseUserQuota_of (h : DrawsOn s userId w) (tok : Int) (hn : 0 ≤ n) :
    ∃ s', increaseUserQuota userId n s = .ok ((), s') ∧ Charged w tok (-n) 0 s s' := by
  refine ⟨_, ?_, charged_setQuota h.row tok n⟩
  unfold increaseUserQuota
  rw [bind_of_ok (ensure_ok.mpr ⟨hn, rfl⟩)]
  exact moveUserQuota_of h n

/-- A successful guarded charge. -/
theorem tryDecreaseUserQuota_charged (h : DrawsOn s userId w) (tok : Int)
    (hok : tryDecreaseUserQuota userId n s = .ok ((), s')) : Charged w tok n 0 s s' := by
  unfold tryDecreaseUserQuota at hok
  simp only [bind_ok, ensure_ok, tryDecreaseUserQuotaWithTx_ok] at hok
  obtain ⟨-, _, ⟨-, -, rfl⟩, e, _, ⟨-, e', he, ⟨q, hq, hle⟩, rfl, rfl⟩, -, rfl⟩ := hok
  obtain ⟨e', he', rfl⟩ := h.entity
  obtain rfl : e = e' := by
    rw [he] at he'
    exact Option.some.inj he'
  exact charged_take hq hle tok

theorem decreaseTokenQuota_of (h : (s.tokens.find? tok).isSome = true) (w : Wallet) (hn : 0 ≤ n) :
    ∃ s', decreaseTokenQuota tok n s = .ok ((), s') ∧ Charged w tok 0 n s s' := by
  refine ⟨s.decreaseTokenQuota tok n, ?_, ?_⟩
  · unfold decreaseTokenQuota
    rw [bind_of_ok (ensure_ok.mpr ⟨hn, rfl⟩)]
    rfl
  · rw [decreaseTokenQuota_eq]
    exact (charged_increaseTokenQuota h w (-n)).of_eq rfl (neg_neg n)

theorem increaseTokenQuota_of (h : (s.tokens.find? tok).isSome = true) (w : Wallet) (hn : 0 ≤ n) :
    ∃ s', increaseTokenQuota tok n s = .ok ((), s') ∧ Charged w tok 0 (-n) s s' := by
  refine ⟨s.increaseTokenQuota tok n, ?_, charged_increaseTokenQuota h w n⟩
  unfold increaseTokenQuota
  rw [bind_of_ok (ensure_ok.mpr ⟨hn, rfl⟩)]
  rfl

/-- A charge of `n` of either sign on the login's wallet. -/
theorem chargeUserQuota_of (h : DrawsOn s userId w) (tok n : Int) :
    ∃ s', (if 0 < n then decreaseUserQuota userId n else increaseUserQuota userId (-n)) s =
      .ok ((), s') ∧ Charged w tok n 0 s s' := by
  by_cases hpos : 0 < n
  · obtain ⟨s', hs, hc, -⟩ := decreaseUserQuota_of h tok (Int.le_of_lt hpos)
    rw [if_pos hpos]
    exact ⟨s', hs, hc⟩
  · obtain ⟨s', hs, hc⟩ := increaseUserQuota_of h tok (show 0 ≤ -n by omega)
    rw [if_neg hpos]
    exact ⟨s', hs, hc.of_eq (neg_neg n) rfl⟩

theorem chargeUserQuota_ok {r : Unit × Store}
    (hok : (if 0 < n then decreaseUserQuota userId n else increaseUserQuota userId (-n)) s = .ok r) :
    ∃ w, s.walletOf userId = some w ∧ r.2 = s.setQuota w (fun _ => true) (fun q => q + -n) := by
  split at hok
  · simp only [decreaseUserQuota, bind_ok, ensure_ok] at hok
    obtain ⟨_, _, ⟨-, heq⟩, hok⟩ := hok
    cases heq
    exact moveUserQuota_ok hok
  · simp only [increaseUserQuota, bind_ok, ensure_ok] at hok
    obtain ⟨_, _, ⟨-, heq⟩, hok⟩ := hok
    cases heq
    exact moveUserQuota_ok hok

/-- The same on a token. -/
theorem chargeTokenQuota_of (h : (s.tokens.find? tok).isSome = true) (w : Wallet) (n : Int) :
    ∃ s', (if 0 < n then decreaseTokenQuota tok n else increaseTokenQuota tok (-n)) s =
      .ok ((), s') ∧ Charged w tok 0 n s s' := by
  by_cases hpos : 0 < n
  · obtain ⟨s', hs, hc⟩ := decreaseTokenQuota_of h w (Int.le_of_lt hpos)
    rw [if_pos hpos]
    exact ⟨s', hs, hc⟩
  · obtain ⟨s', hs, hc⟩ := increaseTokenQuota_of h w (show 0 ≤ -n by omega)
    rw [if_neg hpos]
    exact ⟨s', hs, hc.of_eq rfl (neg_neg n)⟩

end DrawsOn

end UnifyConsole.Account
