import Mathlib
import UnifyConsole.Auth.Revocation

/-!
# Refresh tokens form one chain

`RefreshLoginSession` takes the secret of a refresh token, looks the session up, checks the user
and rotates the secret: the next one is derived from the one presented, and the row keeps the hash
of the current secret and of the one before it.

`Linked` is what every state keeps: the rotations made so far presented the secrets of one chain in
order, the row holds the hash of the next one, and only secrets of the chain have revoked it.  In
any interleaving a secret is rotated at most once, every call that succeeds with it returns the
same next secret, and a secret that was replaced and comes back after its grace period revokes the
session, as long as it is the last one replaced.  `one_chain` puts these together.
`forgotten_and_unknown_tokens` has a run with an older one, which the row does not remember, and
one in which a made-up secret revokes the session, because the check of the user comes first.
-/

namespace UnifyConsole.Auth

open Lib
open SessionState
open Pool List

variable {T H : Type}

/-! ### The call -/

/-- The keyed hashes: `hashRefreshSecret`, and `deriveNextRefreshSecret` for the session. -/
structure RefreshKeys (T H : Type) where
  hash : T → H
  hash_injective : Function.Injective hash
  derive : T → T
  derive_injective : Function.Injective derive

/-- `RefreshReplayWindow`, in seconds. -/
def refreshReplayWindow : ℤ := 30

inductive LoginError
  | revoked
  | refreshTokenInvalid
  | refreshRace
  | session (e : SessionError)
  /-- The access token could not be signed. -/
  | issue
  deriving DecidableEq

/-- What a call answers. `current` and `late`: the secret was the current one, or rotated out with
its grace period over, when it was presented. `refused`: the lookup gave no active session. -/
structure RefreshAnswer (T : Type) where
  result : Except LoginError T
  current : Bool
  late : Bool
  refused : Bool

/-- The rotations made so far, the last one first: the hash presented and the time. -/
def rotations (s : SessionState H) : List (H × ℤ) :=
  s.history.filterMap fun event => match event with
    | .rotated _ presented now => some (presented, now)
    | _ => none

/-- The secret of this hash was rotated out and its grace period is over. -/
def Overdue (presented : H) (now : ℤ) (s : SessionState H) : Prop :=
  ∃ r ∈ rotations s, r.1 = presented ∧ r.2 + refreshReplayWindow < now

instance [DecidableEq H] (presented : H) (now : ℤ) (s : SessionState H) :
    Decidable (Overdue presented now s) :=
  inferInstanceAs (Decidable (∃ r ∈ rotations s, _))

/-- What `RefreshLoginSession` makes of a rotation; `issues`: the access token can be signed. -/
def refreshResult [DecidableEq H] (keys : RefreshKeys T H) (secret : T) (issues : Bool) :
    Except (SessionError × Option (UserSession H)) (UserSession H) → Except LoginError T
  | .ok _ => if issues then .ok (keys.derive secret) else .error .issue
  | .error (.refreshRace, some rotated) =>
    if keys.hash (keys.derive secret) = rotated.refreshHash then
      if issues then .ok (keys.derive secret) else .error .issue
    else .error .refreshRace
  | .error (.refreshRace, none) => .error .refreshRace
  | .error (.refreshReuse, _) => .error .revoked
  | .error (.refreshInvalid, _) => .error .refreshTokenInvalid
  | .error (e, _) => .error (.session e)

/-- `RefreshLoginSession` for a session that the lookup gave. -/
def refreshSession [DecidableEq H] (keys : RefreshKeys T H) (cacheTTL : ℕ) (secret : T)
    (issues late : Bool) (session : Snapshot) : Prog (SessionState H) (Except LoginError T) := do
  let userCache ← Prog.look fun s => s.userCache
  let currentUser ← Prog.look fun s => s.user
  if userCache.enabled = false ∨ userCache.authVersion ≠ session.userAuthVersion ∨
      currentUser.enabled = false ∨ currentUser.authVersion ≠ session.userAuthVersion then
    let _ ← revokeUserSession cacheTTL session.userId (some (keys.hash secret))
    pure (.error .revoked)
  else
    let now ← unixNow
    let rotated ← rotateUserSessionRefresh cacheTTL false late session.userId (keys.hash secret)
      (keys.hash (keys.derive secret)) now refreshReplayWindow
    pure (refreshResult keys secret issues rotated)

def refreshLoginSession [DecidableEq H] (keys : RefreshKeys T H) (cacheTTL : ℕ) (secret : T)
    (issues : Bool) : Prog (SessionState H) (RefreshAnswer T) := do
  let presented ← Prog.look fun s => (decide (s.row.refreshHash = keys.hash secret),
    decide (Overdue (keys.hash secret) (s.clock / 1000) s))
  match ← getUserSessionCached cacheTTL with
  | .error .inactive => pure ⟨.error .revoked, presented.1, presented.2, true⟩
  | .error _ => pure ⟨.error .refreshTokenInvalid, presented.1, presented.2, true⟩
  | .ok session =>
    let now ← unixNow
    if session.status ≠ .active ∨ session.revokedAt ≠ 0 ∨ session.expiresAt ≤ now then
      pure ⟨.error .revoked, presented.1, presented.2, true⟩
    else
      let result ← refreshSession keys cacheTTL secret issues presented.2 session
      pure ⟨result, presented.1, presented.2, false⟩

inductive RefreshCall (T : Type)
  | refresh (secret : T) (issues : Bool)
  | wait (milliseconds : ℕ)

def RefreshCall.prog [DecidableEq H] (keys : RefreshKeys T H) (cacheTTL : ℕ) :
    RefreshCall T → Prog (SessionState H) (Option (RefreshAnswer T))
  | .refresh secret issues => some <$> refreshLoginSession keys cacheTTL secret issues
  | .wait milliseconds =>
    Prog.atomic fun s => (none, { s with clock := s.clock + milliseconds })

/-! ### The chain -/

/-- The secret of the `n`-th generation. -/
def chain (keys : RefreshKeys T H) (first : T) (n : ℕ) : T := keys.derive^[n] first

theorem derive_chain (keys : RefreshKeys T H) (first : T) (n : ℕ) :
    keys.derive (chain keys first n) = chain keys first (n + 1) :=
  (Function.iterate_succ_apply' keys.derive n first).symm

/-- A chain that begins with a secret that was not derived does not come back to itself. -/
theorem chain_injective (keys : RefreshKeys T H) {first : T}
    (hfirst : ∀ t, keys.derive t ≠ first) : Function.Injective (chain keys first) := by
  intro m
  induction m with
  | zero =>
    intro n h
    cases n with
    | zero => rfl
    | succ =>
      rw [← derive_chain] at h
      exact absurd h.symm (hfirst _)
  | succ m ih =>
    intro n h
    cases n with
    | zero =>
      rw [← derive_chain] at h
      exact absurd h (hfirst _)
    | succ =>
      rw [← derive_chain, ← derive_chain] at h
      rw [ih (keys.derive_injective h)]

/-- The hash of the secret of the `n`-th generation. -/
def link (keys : RefreshKeys T H) (first : T) (n : ℕ) : H := keys.hash (chain keys first n)

theorem link_injective (keys : RefreshKeys T H) {first : T}
    (hfirst : ∀ t, keys.derive t ≠ first) : Function.Injective (link keys first) :=
  keys.hash_injective.comp (chain_injective keys hfirst)

/-! ### What every state keeps -/

/-- The session as it was created: the first secret and the user's version are in it. -/
structure Begun (keys : RefreshKeys T H) (first : T) (user : UserBase) (row : UserSession H) :
    Prop where
  hash_first : row.refreshHash = keys.hash first
  previous : row.previousRefreshHash = none
  owner : 0 < row.userId
  not_derived : ∀ t, keys.derive t ≠ first
  enabled : user.enabled = true
  authVersion : user.authVersion = row.userAuthVersion

/-- What a cached entry shares with the row for good. -/
def Matches (row₀ : UserSession H) (entry : Snapshot) : Prop :=
  entry.userId = row₀.userId ∧ entry.version = row₀.version ∧
    entry.userAuthVersion = row₀.userAuthVersion

structure Linked (keys : RefreshKeys T H) (first : T) (user : UserBase) (row₀ : UserSession H)
    (s : SessionState H) : Prop where
  not_derived : ∀ t, keys.derive t ≠ first
  presented : (rotations s).map Prod.fst =
    ((List.range (rotations s).length).map (link keys first)).reverse
  current : s.row.refreshHash = link keys first (rotations s).length
  previous : s.row.previousRefreshHash = (rotations s).head?.map Prod.fst
  validUntil : ∀ r, (rotations s).head? = some r →
    s.row.previousValidUntil = r.2 + refreshReplayWindow
  row : Matches row₀ s.row.cacheEntry
  cached : ∀ e, s.cache = some e → Matches row₀ e.snapshot
  userCache : s.userCache = user
  user : s.user = user

/-- What a step of any call does. -/
structure Onward (s s' : SessionState H) : Prop where
  clock_le : s.clock ≤ s'.clock
  rotations : rotations s <:+ rotations s'
  unusable : ∀ now, ¬ s.row.Usable now → ¬ s'.row.Usable now
  history : ∀ e ∈ s.history, e ∈ s'.history
  /-- The row changes only by a rotation of the current secret or when a secret that was rotated
  out revokes it. -/
  row : s'.row = s.row ∨
    (∃ now, s'.history = .rotated false s.row.refreshHash now :: s.history) ∨
    ∃ presented, s'.history = .revoked (some presented) :: s.history ∧
      s'.row.refreshHash = s.row.refreshHash ∧ presented ∈ (Auth.rotations s).map Prod.fst

theorem Onward.refl (s : SessionState H) : Onward s s where
  clock_le := le_refl _
  rotations := suffix_refl _
  unusable _ h := h
  history _ h := h
  row := .inl rfl

abbrev chaining (keys : RefreshKeys T H) (first : T) (user : UserBase) (row₀ : UserSession H) :
    Regime (SessionState H) := ⟨Linked keys first user row₀, Onward⟩

section Chaining

variable {keys : RefreshKeys T H} {first : T} {user : UserBase} {row₀ session : UserSession H}

variable {s : SessionState H} {secret : T} {presented : H} {current late : Bool} {now : ℤ}

/-- An overdue token has been noticed. -/
theorem kept_forgotten (s : SessionState H) (presented : H) :
    Kept (chaining keys first user row₀) s (s.note (.forgotten presented)) :=
  fun hg => ⟨{ hg with },
    { Onward.refl s with history := fun _ => mem_cons_of_mem _, row := .inl rfl }⟩

/-- The script puts an entry of this session in place, or nothing. -/
theorem kept_script {entry : Snapshot} (hm : Matches row₀ entry) (expiration : Expiration) :
    Kept (chaining keys first user row₀) s (script entry expiration s).2 := by
  intro hg
  have hplaced : ∀ e, placed entry s.clock expiration = some e → Matches row₀ e.snapshot := by
    intro e he
    unfold placed at he
    split at he <;> split at he <;> cases he
    · exact hm
    · exact hm
  rcases script_cases entry expiration s with ⟨he, -⟩ | ⟨he, -⟩ <;> rw [he]
  · exact ⟨hg, Onward.refl s⟩
  · exact ⟨{ hg with cached := hplaced }, { Onward.refl s with }⟩

/-- The compare-and-swap of the current secret. -/
theorem kept_rotate (hcur : s.row.refreshHash = keys.hash secret) :
    Kept (chaining keys first user row₀) s { s with
      row := s.row.rotate (keys.hash (keys.derive secret)) now refreshReplayWindow
      history := .rotated false (keys.hash secret) now :: s.history } := by
  intro hg
  have hsecret : secret = chain keys first (rotations s).length :=
    keys.hash_injective (hcur.symm.trans hg.current)
  have hrot : rotations { s with
      row := s.row.rotate (keys.hash (keys.derive secret)) now refreshReplayWindow
      history := .rotated false (keys.hash secret) now :: s.history }
      = (keys.hash secret, now) :: rotations s := rfl
  refine ⟨{ hg with presented := ?_, current := ?_, previous := ?_, validUntil := ?_ },
    ⟨le_refl _, ?_, fun _ h => h, fun e => mem_cons_of_mem _, .inr (.inl ⟨now, ?_⟩)⟩⟩
  · rw [hrot, map_cons, hg.presented, length_cons, range_succ, map_append,
      map_singleton, reverse_append, hsecret]
    rfl
  · rw [hrot, length_cons]
    rw [hsecret, derive_chain]
    rfl
  · rw [hrot, head?_cons]
    exact congrArg some hcur
  · intro r hr
    cases hr
    rfl
  · rw [hrot]
    exact suffix_cons _ _
  · rw [hcur]

/-- A secret that was rotated out revokes the row. -/
theorem kept_revokeRow_presented (now : ℤ) (hp : presented ∈ (rotations s).map Prod.fst) :
    Kept (chaining keys first user row₀) s (s.revokeRow now (some presented)) := by
  intro hg
  refine ⟨{ hg with }, ⟨le_refl _, suffix_refl _, fun now' _ husable => ?_,
    fun e => mem_cons_of_mem _, .inr (.inr ⟨presented, rfl, rfl, hp⟩)⟩⟩
  cases husable.1

theorem kept_wait_milliseconds (s : SessionState H) (d : ℕ) :
    Kept (chaining keys first user row₀) s { s with clock := s.clock + d } :=
  fun hg => ⟨{ hg with }, { Onward.refl s with clock_le := by simp }⟩

/-! ### What the calls know -/

/-- The row can no longer be used. -/
def Dead (s : SessionState H) : Prop := ¬ s.row.Usable (s.clock / 1000)

def Rotated (presented : H) (s : SessionState H) : Prop := presented ∈ (rotations s).map Prod.fst

/-- An overdue token was presented that the row did not remember. -/
def Forgotten (presented : H) (s : SessionState H) : Prop :=
  SessionEvent.forgotten presented ∈ s.history

theorem UserSession.Usable.mono {now' : ℤ} (h : session.Usable now') (hle : now ≤ now') :
    session.Usable now :=
  ⟨h.1, h.2.1, lt_of_le_of_lt hle h.2.2⟩

theorem dead_of_unusable (hnow : now ≤ s.clock / 1000) (h : ¬ s.row.Usable now) :
    Dead s := fun hu => h (hu.mono hnow)

theorem lasting_dead : Lasting (chaining keys first user row₀) (Dead (H := H)) := by
  intro s s' _ hl hs
  exact dead_of_unusable (Int.ediv_le_ediv (by decide) hl.clock_le) (hl.unusable _ hs)

theorem lasting_rotated : Lasting (chaining keys first user row₀) (Rotated presented) := by
  intro s s' _ hl hs
  exact (hl.rotations.map Prod.fst).subset hs

theorem lasting_forgotten : Lasting (chaining keys first user row₀) (Forgotten presented) :=
  fun _ _ _ hl hs => hl.history _ hs

theorem lasting_overdue : Lasting (chaining keys first user row₀) (Overdue presented now) := by
  rintro s s' _ hl ⟨r, hr, h⟩
  exact ⟨r, hl.rotations.subset hr, h⟩

theorem lasting_seconds :
    Lasting (chaining keys first user row₀) (fun s => now ≤ s.clock / 1000) :=
  fun _ _ _ hl hs => le_trans hs (Int.ediv_le_ediv (by decide) hl.clock_le)

/-- The secret is the current one, or it was and has been rotated. -/
def Reached (presented : H) (s : SessionState H) : Prop :=
  Rotated presented s ∨ s.row.refreshHash = presented

theorem lasting_reached : Lasting (chaining keys first user row₀) (Reached presented) := by
  intro s s' hg hl hs
  rcases hs with hs | hs
  · exact .inl (lasting_rotated s s' hg hl hs)
  rcases hl.row with h | ⟨now, h⟩ | ⟨p, -, h, -⟩
  · rw [← h] at hs
    exact .inr hs
  · have hrot : rotations s' = (s.row.refreshHash, now) :: rotations s := by
      unfold rotations
      rw [h]
      rfl
    refine .inl ?_
    unfold Rotated
    rw [hrot, hs]
    exact mem_cons_self
  · exact .inr (h.trans hs)

/-- What is owed to a secret that was presented as the current one, or as an overdue one. -/
def Settled (presented : H) (current late : Bool) (s : SessionState H) : Prop :=
  (current = true → Rotated presented s ∨ Dead s) ∧
    (late = true → Dead s ∨ Forgotten presented s)

theorem lasting_settled :
    Lasting (chaining keys first user row₀) (Settled presented current late) :=
  (lasting_rotated.or lasting_dead).of_imp.and (lasting_dead.or lasting_forgotten).of_imp

theorem Settled.of_dead (h : Dead s) :
    Settled presented current late s := ⟨fun _ => .inr h, fun _ => .inl h⟩

theorem Linked.nodup (hg : Linked keys first user row₀ s) :
    ((rotations s).map Prod.fst).Nodup := by
  rw [hg.presented, nodup_reverse]
  exact (nodup_range).map (link_injective keys hg.not_derived)

/-- The current secret has not been rotated. -/
theorem Linked.not_rotated (hg : Linked keys first user row₀ s) :
    ¬ Rotated s.row.refreshHash s := by
  unfold Rotated
  rw [hg.presented, hg.current, mem_reverse, mem_map]
  rintro ⟨n, hn, he⟩
  have := link_injective keys hg.not_derived he
  have := mem_range.mp hn
  omega

/-- The previous secret is overdue when the row says so. -/
theorem Linked.overdue (hg : Linked keys first user row₀ s) (h : Overdue presented now s)
    (hprev : s.row.previousRefreshHash = some presented) : s.row.previousValidUntil < now := by
  obtain ⟨r, hr, hrp, hlt⟩ := h
  have hhead := hg.previous
  rw [hprev] at hhead
  cases hrot : rotations s with
  | nil =>
    rw [hrot] at hr
    cases hr
  | cons r₀ rest =>
    rw [hrot] at hhead hr
    have hr₀ : r₀.1 = presented := (Option.some.inj hhead).symm
    have hnodup := hg.nodup
    rw [hrot, map_cons, nodup_cons] at hnodup
    have hsame : r = r₀ := by
      rcases mem_cons.mp hr with h | h
      · exact h
      · refine absurd (mem_map_of_mem h) (?_ : r.1 ∉ rest.map Prod.fst)
        rw [hrp, ← hr₀]
        exact hnodup.1
    rw [hg.validUntil r₀ (by rw [hrot]; rfl), ← hsame]
    exact hlt

/-! ### The cache -/

variable {F : SessionState H → Prop}

theorem knows_write (hF : Lasting (chaining keys first user row₀) F) (cacheTTL : ℕ)
    (entry : Snapshot) (hm : Matches row₀ entry) (deadline : Option ℤ) :
    Knows (chaining keys first user row₀) F (fun _ s => F s)
      (writeUserSessionCache cacheTTL entry deadline) := by
  unfold writeUserSessionCache
  split
  · split
    · exact knows_same
    · exact knows_writeActive Onward.refl hF fun _ _ => kept_script hm _
  · unfold writeDenyEntry
    refine knows_bind (knows_look Onward.refl hF) fun now => ?_
    exact knows_bind (G := fun _ s => F s) (knows_update (fun _ => hF) fun s hg hs =>
      ⟨kept_script hm _, hF.after (kept_script hm _) hg hs⟩)
      (fun written => knows_same)

/-- All cached entries of the session have one version, so none keeps a deny entry out. -/
theorem script_deny_written (hg : Linked keys first user row₀ s) {entry : Snapshot}
    (hm : Matches row₀ entry) (hst : entry.status ≠ .active) (expiration : Expiration) :
    (script entry expiration s).1 = true := by
  unfold script
  split
  · rfl
  rename_i cur hcur
  rw [if_neg (fun h => hst h.1), if_neg]
  have hc := hg.cached cur (Option.filter_eq_some_iff.mp hcur).1
  rw [hm.2.1, hc.2.1]
  exact lt_irrefl _

theorem knows_writeDeny (hF : Lasting (chaining keys first user row₀) F) (cacheTTL : ℕ)
    (entry : Snapshot) (hm : Matches row₀ entry) (hst : entry.status ≠ .active) :
    Knows (chaining keys first user row₀) F (fun r s => r = .ok () ∧ F s)
      (writeDenyEntry cacheTTL entry) := by
  refine knows_bind (knows_look Onward.refl hF) fun now => ?_
  refine knows_bind (G := fun written s => written = true ∧ F s)
    (knows_update (fun _ => lasting_const.and hF) fun s hg hs => ?_) fun written => ?_
  · exact ⟨kept_script hm _, script_deny_written hg hm hst _, hF.after (kept_script hm _) hg hs⟩
  · refine knows_pure fun s _ hs => ⟨?_, hs.2⟩
    rw [hs.1]
    rfl

/-- The fence goes up. -/
theorem knows_fence_up (hF : Lasting (chaining keys first user row₀) F) (cacheTTL : ℕ)
    (hm : Matches row₀ session.cacheEntry) {status : SessionStatus} (hst : status ≠ .active)
    (now : ℤ) : Knows (chaining keys first user row₀) F (fun r s => r = .ok () ∧ F s)
      (writeUserSessionDenyFence cacheTTL session status now) := by
  unfold writeUserSessionDenyFence writeUserSessionCache
  rw [if_neg hst]
  exact knows_writeDeny hF cacheTTL
    { session.cacheEntry with status := status, revokedAt := now } hm hst

theorem knows_publish (hF : Lasting (chaining keys first user row₀) F) (cacheTTL : ℕ)
    (hm : Matches row₀ session.cacheEntry) (deadline : ℤ) :
    Knows (chaining keys first user row₀) F (fun _ s => F s)
      (publishActive cacheTTL session deadline) :=
  knows_publish_of_write Onward.refl hF (knows_write hF cacheTTL _ hm _)

/-- The lookup gives the session's own owner and versions. -/
theorem knows_lookup (hF : Lasting (chaining keys first user row₀) F) (cacheTTL : ℕ) :
    Knows (chaining keys first user row₀) F
      (fun r s => F s ∧ ∀ entry, r = .ok entry → Matches row₀ entry)
      (getUserSessionCached cacheTTL) := by
  refine knows_bind (G := fun r s => F s ∧ ∀ entry, r = .ok entry → Matches row₀ entry) ?_
    (fun cached => ?_)
  · unfold getUserSessionCache
    refine knows_bind (G := fun cached s => F s ∧
        ∀ e, cached = some e → Matches row₀ e.snapshot)
      (knows_read Onward.refl (fun _ => hF.and lasting_const) fun s hg hs => ⟨hs, ?_⟩)
      (fun cached => ?_)
    · intro e he
      exact hg.cached e (Option.filter_eq_some_iff.mp he).1
    cases cached with
    | none => exact knows_pure fun _ _ hs => ⟨hs.1, nofun⟩
    | some cached =>
      simp only
      split
      · exact knows_pure fun _ _ hs => ⟨hs.1, nofun⟩
      refine knows_bind (knows_look Onward.refl (hF.and lasting_const)) fun now => ?_
      split
      · exact knows_pure fun _ _ hs => ⟨hs.1, nofun⟩
      · refine knows_pure fun s _ hs => ⟨hs.1, fun entry he => ?_⟩
        cases he
        exact hs.2 cached rfl
  split
  · exact knows_pure fun _ _ hs => hs
  · exact knows_pure fun _ _ hs => ⟨hs.1, nofun⟩
  refine (?_ : Knows (chaining keys first user row₀) F _ _).weaken fun s hs => hs.1
  refine knows_bind (knows_look Onward.refl hF) fun deadline => ?_
  refine knows_bind (G := fun session s => F s ∧ Matches row₀ session.cacheEntry)
    (knows_read Onward.refl (fun _ => hF.and lasting_const) fun s hg hs => ⟨hs, hg.row⟩)
    (fun session => ?_)
  refine Knows.of_fact (fun s _ hs => hs.2) fun hm => ?_
  refine (?_ : Knows (chaining keys first user row₀) F _ _).weaken fun s hs => hs.1
  refine knows_bind (knows_look Onward.refl hF) fun now => ?_
  split
  · refine knows_bind (knows_publish hF cacheTTL hm deadline) fun published => ?_
    refine knows_pure fun s _ hs => ⟨hs, fun entry he => ?_⟩
    cases published with
    | error => cases he
    | ok =>
      cases he
      exact hm
  · exact knows_bind
      (knows_write hF cacheTTL { session.cacheEntry with status := .revoked } hm none)
      (fun _ => knows_pure fun _ _ hs => ⟨hs, nofun⟩)

/-! ### Rotation -/

/-- What a call knows of its secret from the time it presented it. -/
structure Presented (presented : H) (current late : Bool) (now : ℤ) (s : SessionState H) : Prop where
  time : now ≤ s.clock / 1000
  current : current = true → Reached presented s
  late : late = true → Overdue presented now s

theorem lasting_presented :
    Lasting (chaining keys first user row₀) (Presented presented current late now) :=
  fun s s' hg hl h => ⟨lasting_seconds s s' hg hl h.time, lasting_reached.of_imp s s' hg hl h.current,
    lasting_overdue.of_imp s s' hg hl h.late⟩

theorem Presented.later {now' : ℤ} (h : Presented presented current late now s) (hle : now ≤ now')
    (htime : now' ≤ s.clock / 1000) : Presented presented current late now' s := by
  refine ⟨htime, h.current, fun hl => ?_⟩
  obtain ⟨r, hr, hrp, hlt⟩ := h.late hl
  exact ⟨r, hr, hrp, lt_of_lt_of_le hlt hle⟩

/-- What a call knows before an attempt: it is settled, or the secret is what it was. -/
def Ready (presented : H) (current late : Bool) (now : ℤ) (attempts : ℕ) (s : SessionState H) :
    Prop :=
  (now ≤ s.clock / 1000 ∧ Settled presented current late s) ∨
    (0 < attempts ∧ Presented presented current late now s)

theorem lasting_ready {attempts : ℕ} :
    Lasting (chaining keys first user row₀) (Ready presented current late now attempts) :=
  (lasting_seconds.and lasting_settled).or (lasting_const.and lasting_presented)

/-- What a rotation answers: a secret that got an answer has been rotated. -/
def RotationDone (presented : H) (current late : Bool)
    (r : Except (SessionError × Option (UserSession H)) (UserSession H)) (s : SessionState H) :
    Prop :=
  Settled presented current late s ∧ ((∃ row, r = .ok row) → Rotated presented s) ∧
    ((∃ row, r = .error (.refreshRace, some row)) → Rotated presented s)

/-- The answers that say nothing about the secret. -/
theorem RotationDone.of_error {e : SessionError} (h : Settled presented current late s) :
    RotationDone presented current late (.error (e, none)) s :=
  ⟨h, by simp, by simp⟩

/-- What a call knows about the row it has read in an attempt. -/
structure Seen (row₀ : UserSession H) (presented : H) (current late : Bool) (now : ℤ)
    (session : UserSession H) (s : SessionState H) : Prop where
  time : now ≤ s.clock / 1000
  matched : Matches row₀ session.cacheEntry
  unusable : ¬ session.Usable now → Dead s
  swap : session.Usable now → session.refreshHash = presented →
    Reached presented s ∧ (late = true → Forgotten presented s)
  other : session.Usable now → session.refreshHash ≠ presented →
    session.previousRefreshHash ≠ some presented → Settled presented current late s
  previous : session.previousRefreshHash = some presented → Rotated presented s
  overdue : session.previousRefreshHash = some presented → late = true →
    (Dead s ∨ Forgotten presented s) ∨ session.previousValidUntil < now

theorem lasting_seen :
    Lasting (chaining keys first user row₀) (Seen row₀ presented current late now session) :=
  fun s s' hg hl hs => {
    time := lasting_seconds s s' hg hl hs.time
    matched := hs.matched
    unusable := lasting_dead.of_imp s s' hg hl hs.unusable
    swap := (lasting_reached.and lasting_forgotten.of_imp).of_imp.of_imp s s' hg hl hs.swap
    other := lasting_settled.of_imp.of_imp.of_imp s s' hg hl hs.other
    previous := lasting_rotated.of_imp s s' hg hl hs.previous
    overdue := ((lasting_dead.or lasting_forgotten).or lasting_const).of_imp.of_imp s s' hg hl
      hs.overdue }

/-- The read of the row, with the note about a secret that the row does not remember. -/
theorem seen_row {attempts : ℕ} {s' : SessionState H} (hg : Linked keys first user row₀ s)
    (hready : Ready presented current late now attempts s) (hl : Onward s s')
    (hnote : late = true → s.row.Usable now → s.row.previousRefreshHash ≠ some presented →
      Forgotten presented s') : Seen row₀ presented current late now s.row s' := by
  have hprevious : s.row.previousRefreshHash = some presented → Rotated presented s := by
    intro hprev
    have hhead := hg.previous
    rw [hprev] at hhead
    obtain ⟨r, hr, hrp⟩ := Option.map_eq_some_iff.mp hhead.symm
    rw [← hrp]
    exact mem_map_of_mem (mem_of_head? hr)
  have htime : now ≤ s.clock / 1000 := by
    rcases hready with h | h
    · exact h.1
    · exact h.2.time
  have hreach : current = true → Rotated presented s ∨ Dead s ∨ s.row.refreshHash = presented := by
    intro hc
    rcases hready with h | h
    · exact (h.2.1 hc).imp_right Or.inl
    · exact (h.2.current hc).imp_right Or.inr
  refine ⟨le_trans htime (Int.ediv_le_ediv (by decide) hl.clock_le), hg.row, ?_, ?_, ?_, ?_, ?_⟩
  · intro h
    exact lasting_dead s s' hg hl (dead_of_unusable htime h)
  · intro husable hcur
    refine ⟨lasting_reached s s' hg hl (.inr hcur), fun hlate => ?_⟩
    refine hnote hlate husable fun hprev => ?_
    rw [← hcur] at hprev hprevious
    exact hg.not_rotated (hprevious hprev)
  · intro husable hne hprev
    refine ⟨fun hc => ?_, fun hlate => .inr (hnote hlate husable hprev)⟩
    rcases hreach hc with h | h | h
    · exact .inl (lasting_rotated s s' hg hl h)
    · exact .inr (lasting_dead s s' hg hl h)
    · exact absurd h hne
  · intro hprev
    exact lasting_rotated s s' hg hl (hprevious hprev)
  · intro hprev hlate
    rcases hready with h | h
    · exact .inl (lasting_dead.or lasting_forgotten s s' hg hl (h.2.2 hlate))
    · exact .inr (hg.overdue (h.2.late hlate) hprev)

theorem knows_attempts [DecidableEq H] (cacheTTL attempts : ℕ) :
    Knows (chaining keys first user row₀) (Ready (keys.hash secret) current late now attempts)
      (RotationDone (keys.hash secret) current late)
      (rotateAttempts cacheTTL false late row₀.userId (keys.hash secret)
        (keys.hash (keys.derive secret)) now refreshReplayWindow attempts) := by
  induction attempts with
  | zero =>
    refine knows_pure fun s _ hs => .of_error ?_
    rcases hs with h | ⟨h, -⟩
    · exact h.2
    · exact absurd h (lt_irrefl 0)
  | succ attempts ih =>
    refine knows_bind (knows_look Onward.refl lasting_ready) fun deadline => ?_
    refine knows_bind (G := Seen row₀ (keys.hash secret) current late now)
      (knows_update (fun _ => lasting_seen) ?_) fun session => ?_
    · intro s hg hs
      split
      · exact ⟨kept_forgotten s _, seen_row hg hs (kept_forgotten s _ hg).2
          (fun _ _ _ => mem_cons_self)⟩
      · rename_i hnot
        exact ⟨fun hg => ⟨hg, Onward.refl s⟩, seen_row hg hs (Onward.refl s)
          (fun h h' h'' => absurd ⟨h, h', h''⟩ hnot)⟩
    refine Knows.of_fact (fun s _ hs => hs.matched) fun hm => ?_
    have howner : session.userId = row₀.userId := hm.1
    rw [if_neg (not_not.mpr howner)]
    split
    · rename_i hunusable
      exact knows_pure fun s _ hs => .of_error (.of_dead (hs.unusable hunusable))
    rename_i husable
    have husable := not_not.mp husable
    split
    · rename_i hcur
      refine knows_bind (G := fun swapped s => (swapped = true → Rotated (keys.hash secret) s) ∧
          now ≤ s.clock / 1000 ∧ Settled (keys.hash secret) current late s)
        (knows_update (fun _ => lasting_rotated.of_imp.and (lasting_seconds.and lasting_settled)) ?_)
        (fun swapped => ?_)
      · intro s hg hs
        obtain ⟨hreached, hforgotten⟩ := hs.swap husable hcur
        split
        · rename_i hrow
          have hsame : session.refreshHash = s.row.refreshHash := hcur.trans hrow.2.2.symm
          rw [hsame]
          exact ⟨kept_rotate hrow.2.2, fun _ => mem_cons_self, hs.time, fun _ =>
            Or.inl mem_cons_self, fun hlate => .inr (mem_cons_of_mem _ (hforgotten hlate))⟩
        rename_i hrow
        refine ⟨fun hg => ⟨hg, Onward.refl s⟩, nofun, hs.time, ?_⟩
        by_cases hu : s.row.Usable now
        · refine ⟨fun _ => ?_, fun hlate => .inr (hforgotten hlate)⟩
          rcases hreached with h | h
          · exact .inl h
          · exact absurd ⟨hg.row.1, hu, h⟩ hrow
        · exact .of_dead (dead_of_unusable hs.time hu)
      split
      · exact ih.weaken fun s hs => .inl hs.2
      rename_i hswapped
      have hm' : Matches row₀ (session.rotate (keys.hash (keys.derive secret)) now
        refreshReplayWindow).cacheEntry := hm
      refine knows_bind ((knows_publish (lasting_rotated.and lasting_settled) cacheTTL hm'
        deadline).weaken fun s hs => ⟨hs.1 (Bool.eq_true_of_not_eq_false hswapped), hs.2.2⟩)
        (fun published => ?_)
      cases published with
      | error => exact knows_pure fun s _ hs => .of_error hs.2
      | ok => exact knows_pure fun s _ hs => ⟨hs.2, fun _ => hs.1, by simp⟩
    rename_i hcur
    split
    · rename_i hprev
      exact knows_pure fun s _ hs => .of_error (hs.other husable hcur hprev)
    rename_i hprev
    have hprev := not_not.mp hprev
    split
    · rename_i hin
      refine knows_pure fun s _ hs => ⟨⟨fun _ => .inl (hs.previous hprev), fun hlate => ?_⟩,
        by simp, fun _ => hs.previous hprev⟩
      exact (hs.overdue hprev hlate).resolve_right (by omega)
    refine knows_bind (knows_fence_up lasting_seen cacheTTL hm (by decide) now) fun fenced => ?_
    refine Knows.of_fact (fun s _ hs => hs.1) fun hfenced => ?_
    rw [hfenced]
    refine knows_bind (G := fun _ s => Dead s) (knows_update (fun _ => lasting_dead) ?_)
      (fun revoked => ?_)
    · intro s hg hs
      split
      · exact ⟨kept_revokeRow_presented now (hs.2.previous hprev), fun h => by cases h.1⟩
      · rename_i hrow
        exact ⟨fun hg => ⟨hg, Onward.refl s⟩,
          dead_of_unusable hs.2.time fun h => hrow ⟨hg.row.1, h⟩⟩
    split
    · exact knows_bind (knows_fence_up lasting_dead cacheTTL hm (by decide) now)
        (fun _ => knows_pure fun s _ hs => .of_error (.of_dead hs.2))
    · exact knows_pure fun s _ hs => .of_error (.of_dead hs)

/-! ### The calls -/

/-- What a call owes: success returns the derived secret; a current secret has been rotated, and an
overdue one has killed the row, unless the lookup refused. -/
def Answered (keys : RefreshKeys T H) (secret : T) (answer : RefreshAnswer T)
    (s : SessionState H) : Prop :=
  (∀ next, answer.result = .ok next → next = keys.derive secret ∧ Rotated (keys.hash secret) s) ∧
    (answer.refused = false → Settled (keys.hash secret) answer.current answer.late s)

theorem refreshResult_eq_ok [DecidableEq H] {next : T} {issues : Bool}
    {r : Except (SessionError × Option (UserSession H)) (UserSession H)}
    (h : refreshResult keys secret issues r = .ok next) :
    next = keys.derive secret ∧
      ((∃ row, r = .ok row) ∨ ∃ row, r = .error (.refreshRace, some row)) := by
  unfold refreshResult at h
  split at h
  · rename_i row
    split at h
    · exact ⟨(Except.ok.inj h).symm, .inl ⟨row, rfl⟩⟩
    · cases h
  · rename_i row
    split at h
    · split at h
      · exact ⟨(Except.ok.inj h).symm, .inr ⟨row, rfl⟩⟩
      · cases h
    · cases h
  all_goals cases h

/-- A secret of the chain is not its own successor. -/
theorem Linked.derive_ne (hg : Linked keys first user row₀ s) (h : Reached (keys.hash secret) s) : keys.hash secret ≠ keys.hash (keys.derive secret) := by
  have hchain : ∃ n, keys.hash secret = link keys first n := by
    rcases h with h | h
    · unfold Rotated at h
      rw [hg.presented, mem_reverse, mem_map] at h
      obtain ⟨n, -, hn⟩ := h
      exact ⟨n, hn.symm⟩
    · exact ⟨_, h.symm.trans hg.current⟩
  obtain ⟨n, hn⟩ := hchain
  have hsecret : secret = chain keys first n := keys.hash_injective hn
  intro he
  rw [hsecret, derive_chain] at he
  have := link_injective keys hg.not_derived he
  omega

theorem Presented.settled_of_eq (hg : Linked keys first user row₀ s)
    (h : Presented (keys.hash secret) current late now s)
    (he : keys.hash secret = keys.hash (keys.derive secret)) :
    Settled (keys.hash secret) current late s := by
  refine ⟨fun hc => absurd he (hg.derive_ne (h.current hc)), fun hl => ?_⟩
  obtain ⟨r, hr, hrp, -⟩ := h.late hl
  exact absurd he (hg.derive_ne (.inl (mem_map.mpr ⟨r, hr, hrp⟩)))

theorem knows_rotate [DecidableEq H] (hbegun : Begun keys first user row₀) (cacheTTL : ℕ) :
    Knows (chaining keys first user row₀) (Presented (keys.hash secret) current late now)
      (RotationDone (keys.hash secret) current late)
      (rotateUserSessionRefresh cacheTTL false late row₀.userId (keys.hash secret)
        (keys.hash (keys.derive secret)) now refreshReplayWindow) := by
  unfold rotateUserSessionRefresh
  split
  · rename_i hbad
    refine knows_pure fun s hg hs => .of_error ?_
    rcases hbad with h | h
    · exact absurd hbegun.owner (not_lt.mpr h)
    · exact hs.settled_of_eq hg h
  refine knows_bind (G := Presented (keys.hash secret) current late) ?_
    (fun now' => (knows_attempts cacheTTL 3).weaken fun s hs => .inr ⟨by decide, hs⟩)
  unfold rotationTime
  split
  · exact knows_read Onward.refl (fun _ => lasting_presented)
      (fun s _ hs => hs.later hs.time (le_refl _))
  · exact knows_pure fun _ _ hs => hs

theorem knows_refreshSession [DecidableEq H] (hbegun : Begun keys first user row₀) (cacheTTL : ℕ)
    (issues : Bool) {session : Snapshot} (hm : Matches row₀ session) :
    Knows (chaining keys first user row₀) (Presented (keys.hash secret) current late now)
      (fun r s => (∀ next, r = .ok next → next = keys.derive secret ∧
        Rotated (keys.hash secret) s) ∧ Settled (keys.hash secret) current late s)
      (refreshSession keys cacheTTL secret issues late session) := by
  refine knows_bind (G := fun userCache s => userCache = user ∧
      Presented (keys.hash secret) current late now s)
    (knows_read Onward.refl (fun _ => lasting_const.and lasting_presented)
      (fun s hg hs => ⟨hg.userCache, hs⟩)) fun userCache => ?_
  refine knows_bind (G := fun currentUser s => (userCache = user ∧ currentUser = user) ∧
      Presented (keys.hash secret) current late now s)
    (knows_read Onward.refl (fun _ => lasting_const.and lasting_presented)
      (fun s hg hs => ⟨⟨hs.1, hg.user⟩, hs.2⟩)) fun currentUser => ?_
  refine Knows.of_fact (fun s _ hs => hs.1) fun husers => ?_
  obtain ⟨rfl, rfl⟩ := husers
  have hversion : currentUser.authVersion = session.userAuthVersion :=
    hbegun.authVersion.trans hm.2.2.symm
  rw [if_neg (by simp [hbegun.enabled, hversion])]
  refine knows_bind (G := Presented (keys.hash secret) current late)
    (knows_read Onward.refl (fun _ => lasting_presented)
      (fun s _ hs => hs.2.later hs.2.time (le_refl _))) fun now' => ?_
  rw [hm.1]
  refine knows_bind (knows_rotate hbegun cacheTTL) fun rotated => ?_
  refine knows_pure fun s _ hs => ⟨fun next hnext => ?_, hs.1⟩
  obtain ⟨hderive, hr | hr⟩ := refreshResult_eq_ok hnext
  · exact ⟨hderive, hs.2.1 hr⟩
  · exact ⟨hderive, hs.2.2 hr⟩

theorem Answered.of_refused {e : LoginError} :
    Answered keys secret ⟨.error e, current, late, true⟩ s :=
  ⟨nofun, nofun⟩

theorem knows_refreshLoginSession [DecidableEq H] (hbegun : Begun keys first user row₀)
    (cacheTTL : ℕ) (secret : T) (issues : Bool) :
    Knows (chaining keys first user row₀) (fun _ => True) (Answered keys secret)
      (refreshLoginSession keys cacheTTL secret issues) := by
  have hF : ∀ current late, Lasting (chaining keys first user row₀)
      (fun s => ∃ now, Presented (keys.hash secret) current late now s) := by
    rintro current late s s' hg hl ⟨now, hp⟩
    exact ⟨now, lasting_presented s s' hg hl hp⟩
  refine knows_bind (G := fun presented s => ∃ now,
      Presented (keys.hash secret) presented.1 presented.2 now s)
    (knows_read Onward.refl (fun presented => hF presented.1 presented.2) ?_) fun presented => ?_
  · intro s _ _
    exact ⟨s.clock / 1000, le_refl _, fun h => .inr (of_decide_eq_true h), of_decide_eq_true⟩
  refine knows_bind (knows_lookup (hF _ _) cacheTTL) fun found => ?_
  split
  · exact knows_pure fun _ _ _ => .of_refused
  · exact knows_pure fun _ _ _ => .of_refused
  rename_i session
  refine Knows.of_fact (fun s _ hs => hs.2 session rfl) fun hm => ?_
  refine knows_bind (knows_look Onward.refl ((hF _ _).and lasting_const)) fun now => ?_
  split
  · exact knows_pure fun _ _ _ => .of_refused
  · refine knows_bind ((Knows.of_exists fun _ => knows_refreshSession hbegun cacheTTL issues
      hm).weaken fun s hs => hs.1) fun result => ?_
    exact knows_pure fun s _ hs => ⟨hs.1, fun _ => hs.2⟩

theorem knows_refreshCall [DecidableEq H] (hbegun : Begun keys first user row₀) (cacheTTL : ℕ)
    (c : RefreshCall T) :
    Knows (chaining keys first user row₀) (fun _ => True)
      (fun r s => ∀ secret issues, c = .refresh secret issues → ∃ answer, r = some answer ∧
        Answered keys secret answer s) (c.prog keys cacheTTL) := by
  cases c with
  | refresh secret issues =>
    refine knows_bind (knows_refreshLoginSession hbegun cacheTTL secret issues) fun answer => ?_
    refine knows_pure fun s _ hs secret' issues' h => ?_
    cases h
    exact ⟨answer, rfl, hs⟩
  | wait milliseconds =>
    exact knows_update (fun _ _ _ _ _ _ => nofun)
      (fun s _ _ => ⟨kept_wait_milliseconds s milliseconds, nofun⟩)

theorem linked_created {time : ℤ} (hbegun : Begun keys first user row₀) :
    Linked keys first user row₀ (SessionState.created time row₀ user) where
  not_derived := hbegun.not_derived
  presented := rfl
  current := hbegun.hash_first
  previous := hbegun.previous
  validUntil r hr := by cases hr
  row := ⟨rfl, rfl, rfl⟩
  cached e he := by cases he
  userCache := rfl
  user := rfl

end Chaining

/-- **Refresh tokens form one chain.** In every interleaving of refreshes of a session of an enabled
user, a secret is rotated at most once and always to the same next one; a secret presented when its
grace period was over has made the row unusable, if the row still remembered it; and only the
current secret and those rotated out change the row. -/
theorem one_chain [DecidableEq H] {keys : RefreshKeys T H} {first : T} {user : UserBase}
    {row₀ : UserSession H} (hbegun : Begun keys first user row₀) (cacheTTL : ℕ) (time : ℤ)
    {p : Pool (RefreshCall T) (SessionState H) (Option (RefreshAnswer T))}
    (hr : Reach (RefreshCall.prog keys cacheTTL) (Pool.start (.created time row₀ user)) p) :
    (∀ secret, ((rotations p.state).map Prod.fst).count (keys.hash secret) ≤ 1) ∧
    (∀ secret issues answer, (RefreshCall.refresh secret issues, .ret (some answer)) ∈ p.calls →
      (∀ next, answer.result = .ok next → next = keys.derive secret ∧
        ((rotations p.state).map Prod.fst).count (keys.hash secret) = 1) ∧
      (answer.refused = false → answer.current = true → ¬ Dead p.state →
        ((rotations p.state).map Prod.fst).count (keys.hash secret) = 1) ∧
      (answer.refused = false → answer.late = true →
        SessionEvent.forgotten (keys.hash secret) ∉ p.state.history → Dead p.state)) ∧
    ∀ p', Pool.Step (RefreshCall.prog keys cacheTTL) (fun _ _ => True) p p' →
      p'.state.row ≠ p.state.row → ∃ n ≤ (rotations p.state).length,
        (∃ now, p'.state.history = .rotated false (link keys first n) now :: p.state.history) ∨
          p'.state.history = .revoked (some (link keys first n)) :: p.state.history := by
  have hprog := knows_refreshCall hbegun cacheTTL
  obtain ⟨hg, hreturned⟩ := Regime.reach hprog hr (linked_created hbegun)
  have hnodup := hg.nodup
  refine ⟨fun secret => nodup_iff_count_le_one.mp hnodup _, ?_, ?_⟩
  · intro secret issues answer hc
    obtain ⟨answer', hsome, hok, hsettled⟩ := hreturned _ _ hc secret issues rfl
    cases hsome
    refine ⟨fun next hnext => ?_, fun hrefused hcurrent halive => ?_, fun hrefused hlate hf => ?_⟩
    · obtain ⟨hderive, hrotated⟩ := hok next hnext
      exact ⟨hderive, count_eq_one_of_mem hnodup hrotated⟩
    · rcases (hsettled hrefused).1 hcurrent with h | h
      · exact count_eq_one_of_mem hnodup h
      · exact absurd h halive
    · exact ((hsettled hrefused).2 hlate).resolve_right hf
  intro p' hs hchange
  rcases Regime.reach_step hprog hr (linked_created hbegun) hs with h | hl
  · exact absurd (by rw [h]) hchange
  rcases hl.row with h | ⟨now, h⟩ | ⟨presented, h, -, hp⟩
  · exact absurd h hchange
  · rw [hg.current] at h
    exact ⟨_, le_refl _, .inl ⟨now, h⟩⟩
  · rw [hg.presented, mem_reverse, mem_map] at hp
    obtain ⟨n, hn, rfl⟩ := hp
    exact ⟨n, le_of_lt (mem_range.mp hn), .inr h⟩

/-! ### Runs -/

def countingKeys : RefreshKeys ℕ ℕ where
  hash t := t
  hash_injective _ _ h := h
  derive t := t + 1
  derive_injective _ _ h := Nat.succ.inj h

def zeroSession : UserSession ℕ := { hourSession with refreshHash := 0 }

theorem begun_zeroSession : Begun countingKeys 0 ⟨true, 1⟩ zeroSession where
  hash_first := rfl
  previous := rfl
  owner := by decide
  not_derived t := Nat.succ_ne_zero t
  enabled := rfl
  authVersion := rfl

def inTurn (calls : List (RefreshCall ℕ)) : List (Pool.Move (RefreshCall ℕ)) :=
  calls.flatMap fun c => .call c :: List.replicate 24 (.run 0)

def replayedRun : List (Pool.Move (RefreshCall ℕ)) :=
  inTurn [.refresh 0 true, .refresh 0 true, .wait 31000, .refresh 0 true]

theorem one_chain_replayed :
    let p := Pool.play (RefreshCall.prog countingKeys 60) replayedRun
      (Pool.start (.created 1000000 zeroSession ⟨true, 1⟩))
    ((rotations p.state).map Prod.fst).count 0 ≤ 1 ∧ p.state.row.refreshHash = 1 ∧
      p.state.row.status = .revoked :=
  ⟨(one_chain begun_zeroSession 60 1000000 (reach_play _ replayedRun _)).1 0,
    by decide +kernel, by decide +kernel⟩

/-- A call that presented an overdue secret, was not refused, and left the row usable. -/
def SparedBy (p : Pool (RefreshCall ℕ) (SessionState ℕ) (Option (RefreshAnswer ℕ))) : Bool :=
  decide (p.state.row.Usable (p.state.clock / 1000)) && p.calls.any fun t => match t.2 with
    | .ret (some answer) => answer.late && !answer.refused
    | _ => false

/-- After two rotations the first secret comes back long overdue, and the session lives on; and with
the user disabled, a secret that was never issued revokes it. -/
theorem forgotten_and_unknown_tokens :
    (∃ p, Reach (RefreshCall.prog countingKeys 60)
      (Pool.start (.created 1000000 zeroSession ⟨true, 1⟩)) p ∧ SparedBy p = true) ∧
    ∃ p, Reach (RefreshCall.prog countingKeys 60)
      (Pool.start (.created 1000000 zeroSession ⟨false, 1⟩)) p ∧
      SessionEvent.revoked (some 99) ∈ p.state.history ∧ p.state.row.status = .revoked ∧
      ∀ n ≤ (rotations p.state).length, link countingKeys 0 n ≠ 99 :=
  ⟨⟨_, reach_play _ (inTurn [.refresh 0 true, .refresh 1 true, .wait 31000,
      .refresh 0 true]) _, by decide +kernel⟩,
    ⟨_, reach_play _ (inTurn [.refresh 99 true]) _, by decide +kernel, by decide +kernel,
      by decide +kernel⟩⟩

end UnifyConsole.Auth
