import Mathlib
import UnifyConsole.Auth.Sealing

/-!
# A revoked session stays revoked

Any number of the calls of `Auth.Session` run at once, with the clock moving on between their
steps.  Each call is a program that keeps to `Good` and `Later` (`knows_prog`), so every
interleaving does.

`revokeUserSession` can fail to seal the session in one way.  Its tombstone carries the version of
the row as it was before the transaction; if the version has moved since, a cached entry of the new
version refuses the tombstone.  `revoked_stays_out` covers every run in which that does not happen,
and `revoked_session_accepted` is a run in which it does.
-/

namespace UnifyConsole.Auth

open Lib
open SessionState SessionEvent

variable {H : Type}

/-! ### The calls -/

inductive SessionCall (H : Type)
  | getUserSessionCached
  | validateLoginSession (identity : AuthIdentity)
  | rotateUserSessionRefresh (userId : ℤ) (presentedHash nextHash : H) (now grace : ℤ)
  | revokeUserSession (userId : ℤ)
  | revokeUserSessionByRefreshHash (presentedHash : H)
  | revokeUserSessions (userId : ℤ) (excluded : Bool) (rounds : List Bool)
  | advanceUserSessionAuthVersion (userId expectedSessionVersion expectedUserAuthVersion
      nextUserAuthVersion : ℤ)
  | setUser (cached current : UserBase)
  | wait (milliseconds : ℕ)

/-- A call that accepts the session if `check` answers with one. -/
def accepting {α : Type} (check : Prog (SessionState H) (Except SessionError α)) :
    Bool → Prog (SessionState H) Unit := fun after => do
  match ← check with
  | .error _ => pure ()
  | .ok _ => Prog.atomic fun s => ((), s.note (.accepted after))

/-- A call that revokes the session if `revoke` answers `true`. -/
def revoking (revoke : Prog (SessionState H) (Except SessionError Bool)) :
    Prog (SessionState H) Unit := do
  match ← revoke with
  | .ok true => Prog.atomic fun s => ((), s.note .revocationReturned)
  | _ => pure ()

/-- The calls as programs; readers and rotations first look whether a revocation has returned. -/
def SessionCall.prog [DecidableEq H] (cacheTTL : ℕ) : SessionCall H → Prog (SessionState H) Unit
  | .getUserSessionCached => do
    let after ← Prog.look (fun s => decide s.Returned)
    accepting (Auth.getUserSessionCached cacheTTL) after
  | .validateLoginSession identity => do
    let after ← Prog.look (fun s => decide s.Returned)
    accepting (Auth.validateLoginSession cacheTTL identity) after
  | .rotateUserSessionRefresh userId presentedHash nextHash now grace => do
    let after ← Prog.look fun s => decide s.Returned
    let _ ← Auth.rotateUserSessionRefresh cacheTTL after false userId presentedHash nextHash now
      grace
    pure ()
  | .revokeUserSession userId => revoking (Auth.revokeUserSession cacheTTL userId none)
  | .revokeUserSessionByRefreshHash presentedHash =>
    revoking (Auth.revokeUserSessionByRefreshHash cacheTTL presentedHash)
  | .revokeUserSessions userId excluded rounds =>
    revoking (Auth.revokeUserSessions cacheTTL userId excluded rounds)
  | .advanceUserSessionAuthVersion userId expectedSessionVersion expectedUserAuthVersion
      nextUserAuthVersion => do
    let _ ← Auth.advanceUserSessionAuthVersion cacheTTL userId expectedSessionVersion
      expectedUserAuthVersion nextUserAuthVersion
    pure ()
  | .setUser cached current =>
    Prog.atomic fun s => ((), { s with userCache := cached, user := current })
  | .wait milliseconds => Prog.atomic fun s => ((), { s with clock := s.clock + milliseconds })

variable {cacheTTL : ℕ} {userId now grace : ℤ} {presentedHash nextHash : H}
  {after late excluded : Bool} {identity : AuthIdentity} {rounds : List Bool}

/-! ### Readers -/

/-- A revocation has returned, if `after` says so. -/
abbrev Heard (after : Bool) (s : SessionState H) : Prop := after = true → s.Returned

theorem lasting_returned : Lasting (sealing cacheTTL) (Heard (H := H) after) :=
  lasting_event.of_imp

/-- An entry that the cache gives out after a revocation has returned. -/
theorem knows_getUserSessionCache :
    Knows (sealing cacheTTL) (Heard (H := H) after)
      (fun r s => Heard after s ∧ ∀ e, r = .ok e → after = true → Moved s)
      getUserSessionCache := by
  have hmoved : ∀ c : Prop, Lasting (sealing cacheTTL)
      (fun s : SessionState H => c → after = true → Moved s) :=
    fun c => lasting_event.of_imp.of_imp
  refine knows_bind (G := fun cached s => Heard after s ∧
      (cached.any (fun e => decide (e.snapshot.status = .active)) = true → after = true → Moved s))
    (knows_read Later.refl (fun _ => lasting_returned.and (hmoved _)) ?_) fun cached => ?_
  · intro s hg hs
    refine ⟨hs, fun hany ha => ?_⟩
    rcases (hg.returned (hs ha)).2 with hm | hsealed
    · exact hm
    cases hc : s.liveCache with
    | none =>
      rw [hc] at hany
      cases hany
    | some =>
      rw [hc] at hany
      exact absurd (of_decide_eq_true hany) (hsealed.not_active hg hc)
  cases cached with
  | none => exact knows_pure fun _ _ hs => ⟨hs.1, nofun⟩
  | some cached =>
    simp only
    split
    · exact knows_pure fun _ _ hs => ⟨hs.1, nofun⟩
    refine knows_bind (knows_look Later.refl (lasting_returned.and (hmoved _))) fun now => ?_
    split
    · exact knows_pure fun _ _ hs => ⟨hs.1, nofun⟩
    rename_i hok
    refine knows_pure fun s _ hs => ⟨hs.1, fun _ _ => hs.2 ?_⟩
    have hactive : cached.snapshot.status = .active := by
      by_contra hne
      exact hok (.inl hne)
    exact decide_eq_true hactive

theorem knows_getUserSessionCached :
    Knows (sealing cacheTTL) (Heard (H := H) after)
      (fun r s => ∀ e, r = .ok e → after = true → Moved s) (getUserSessionCached cacheTTL) := by
  refine knows_bind knows_getUserSessionCache fun cached => ?_
  split
  · rename_i entry
    exact knows_pure fun s _ hs e he => hs.2 entry rfl
  · exact knows_pure fun _ _ _ => nofun
  refine (?_ : Knows (sealing cacheTTL) (Heard after) _ _).weaken fun s hs => hs.1
  -- The deadline is taken first, so it is in time for a row that is still active when read.
  refine knows_bind (knows_deadline lasting_returned) fun deadline => ?_
  refine knows_bind (G := fun session s => Behind session.cacheEntry s ∧
      (session.status = .active → after = false ∧ InTime cacheTTL deadline s))
    (knows_read Later.refl (fun session => lasting_behind.and
      (lasting_const.and lasting_inTime).of_imp) ?_) fun session => ?_
  · intro s hg hs
    refine ⟨⟨le_refl _, rfl⟩, fun ha => ⟨?_, ?_⟩⟩
    · by_contra hne
      exact hg.not_returned ha (hs.1 (by simpa using hne))
    · exact hg.inTime ha hs.2
  refine knows_bind (knows_look Later.refl (lasting_behind.and
    (lasting_const.and lasting_inTime).of_imp)) fun now => ?_
  split
  · rename_i husable
    refine Knows.of_fact (fun s _ hs => (hs.2 husable.1).1) fun hafter => ?_
    refine knows_bind ((knows_publishActive husable.1 deadline).weaken
      (fun s hs => ⟨hs.1, (hs.2 husable.1).2⟩)) fun published => ?_
    refine knows_pure fun s _ _ e _ ha => ?_
    rw [hafter] at ha
    cases ha
  refine knows_bind (G := fun _ s => Behind session.cacheEntry s) ?_
    (fun _ => knows_pure fun _ _ _ => nofun)
  have hst : SessionStatus.revoked ≠ .active := by decide
  unfold writeUserSessionCache
  exact (knows_writeDenyEntry { session.cacheEntry with status := .revoked } hst).weaken
    (fun s hs => hs.1)

theorem knows_validateLoginSession :
    Knows (sealing cacheTTL) (Heard (H := H) after)
      (fun r s => ∀ e, r = .ok e → after = true → Moved s)
      (validateLoginSession cacheTTL identity) := by
  have hmoved : Lasting (sealing cacheTTL) (fun s : SessionState H => after = true → Moved s) :=
    lasting_event.of_imp
  refine knows_bind knows_getUserSessionCached fun r => ?_
  cases r with
  | error => exact knows_pure fun _ _ _ => nofun
  | ok session =>
    refine knows_bind ((knows_look Later.refl hmoved).weaken fun s hs => hs session rfl) fun now => ?_
    split
    · exact knows_pure fun _ _ _ => nofun
    refine knows_bind (knows_look Later.refl hmoved) fun user => ?_
    split
    · exact knows_pure fun _ _ _ => nofun
    · exact knows_pure fun s _ hs e _ => hs

/-! ### Revocations -/

/-- The row is revoked between a fence and a tombstone. -/
theorem knows_fenced (candidate : UserSession H) (now : ℤ)
    {revoke : SessionState H → Bool × SessionState H}
    (h : ∀ s, Behind candidate.cacheEntry s → Kept (sealing cacheTTL) s (revoke s).2 ∧
      Behind candidate.cacheEntry (revoke s).2 ∧
      ((revoke s).1 = true → RevokedAt candidate.version (revoke s).2)) :
    Knows (sealing cacheTTL) (fun s => Behind candidate.cacheEntry s)
      (fun (r : Except SessionError Bool) s => r = .ok true → Closed cacheTTL s) (do
        match ← writeUserSessionDenyFence cacheTTL candidate .revoking now with
        | .error e => pure (.error e)
        | .ok () =>
          let revoked ← Prog.atomic revoke
          if revoked then
            let _ ← writeUserSessionDenyFence cacheTTL candidate .revoked now
            pure (.ok true)
          else pure (.ok false)) := by
  refine knows_bind (knows_fence candidate (by decide) now) fun fenced => ?_
  cases fenced with
  | error => exact knows_pure fun _ _ _ => nofun
  | ok =>
    refine knows_bind (G := fun revoked s => Behind candidate.cacheEntry s ∧
        (revoked = true → RevokedAt candidate.version s))
      (knows_update (fun _ => lasting_behind.and lasting_revokedAt.of_imp)
        (fun s _ => h s)) fun revoked => ?_
    split
    · rename_i hrev
      exact knows_bind ((knows_tombstone candidate now).weaken
        (fun s hs => ⟨hs.1, hs.2 hrev⟩)) fun _ => knows_pure fun _ _ hs _ => hs
    · exact knows_pure fun _ _ _ => nofun

theorem knows_revokeUserSession {presented : Option H} :
    Knows (sealing cacheTTL) (fun _ => True) (fun r s => r = .ok true → Closed cacheTTL s)
      (revokeUserSession cacheTTL userId presented) := by
  unfold revokeUserSession
  split
  · exact knows_pure fun _ _ _ => nofun
  refine knows_bind (knows_look Later.refl lasting_const) fun now => ?_
  refine knows_bind (G := fun candidate s => Behind candidate.cacheEntry s)
    (knows_read Later.refl (fun _ => lasting_behind) fun _ _ _ => ⟨le_refl _, rfl⟩)
    (fun candidate => ?_)
  split
  · exact knows_pure fun _ _ _ => nofun
  refine knows_fenced candidate now fun s hs => ?_
  split
  · rename_i husable
    have hrevoke : Kept (sealing cacheTTL) s _ := kept_revokeRow now presented husable.2.1
    split
    · rename_i hver
      exact ⟨hrevoke, hs, fun _ => ⟨by simp [revokeRow], .inr hver.symm⟩⟩
    exact ⟨kept_then_note hrevoke rfl rfl _ nofun nofun nofun, hs,
      fun _ => ⟨by simp [revokeRow, note], .inl List.mem_cons_self⟩⟩
  · exact ⟨kept_refl s, hs, nofun⟩

theorem knows_revokeUserSessionByRefreshHash [DecidableEq H] :
    Knows (sealing cacheTTL) (fun _ => True) (fun r s => r = .ok true → Closed cacheTTL s)
      (revokeUserSessionByRefreshHash cacheTTL presentedHash) := by
  refine knows_bind (knows_look Later.refl lasting_const) fun now => ?_
  refine knows_bind (G := fun session s => Behind session.cacheEntry s)
    (knows_read Later.refl (fun _ => lasting_behind) fun _ _ _ => ⟨le_refl _, rfl⟩)
    (fun session => ?_)
  simp only
  split
  · exact knows_pure fun _ _ _ => nofun
  rename_i hvalid
  have hactive : session.status = .active := by
    by_contra hne
    exact hvalid (.inl fun h => hne h.1)
  refine knows_fenced session now fun s hs => ?_
  split
  · rename_i hrow
    refine ⟨kept_revokeRow now _ (by rw [hrow]; exact hactive), hs, fun _ =>
      ⟨by simp [revokeRow], .inr ?_⟩⟩
    rw [← hrow]
    rfl
  · exact ⟨kept_refl s, hs, nofun⟩

theorem knows_revokeRounds {revokedHere : Bool} : Knows (sealing cacheTTL)
    (fun s : SessionState H => revokedHere = true → Closed cacheTTL s)
    (fun r s => r = .ok true → Closed cacheTTL s)
    (revokeRounds cacheTTL userId now excluded rounds revokedHere) := by
  have hclosed : ∀ c : Prop, Lasting (sealing cacheTTL)
      (fun s : SessionState H => c → Closed cacheTTL s) :=
    fun c => lasting_closed.of_imp
  induction rounds generalizing revokedHere with
  | nil =>
    refine knows_bind (knows_look Later.refl (hclosed _)) fun session => ?_
    split
    · exact knows_pure fun _ _ _ => nofun
    · exact knows_pure fun _ _ hs h => hs (Except.ok.inj h)
  | cons picked rounds ih =>
    refine knows_bind (G := fun session s => Behind session.cacheEntry s ∧
        (revokedHere = true → Closed cacheTTL s))
      (knows_read Later.refl (fun _ => lasting_behind.and (hclosed _))
        (fun _ _ hs => ⟨⟨le_refl _, rfl⟩, hs⟩)) fun session => ?_
    split
    · refine knows_bind ((knows_fence session (by decide) now).frame (hclosed _))
        (fun fenced => ?_)
      cases fenced with
      | error => exact knows_pure fun _ _ _ => nofun
      | ok =>
        refine knows_bind (G := fun revoked s => (revokedHere = true → Closed cacheTTL s) ∧
            ∀ row, revoked = some row → Behind row.cacheEntry s ∧ RevokedAt row.version s)
          (knows_update (fun revoked => (hclosed _).and ?_) ?_) fun revoked => ?_
        · intro s s' hg hl hs row hrow
          exact ⟨lasting_behind s s' hg hl (hs row hrow).1,
            lasting_revokedAt s s' hg hl (hs row hrow).2⟩
        · intro s hg hs
          split
          · rename_i hactive
            have hrevoke : Kept (sealing cacheTTL) s _ := kept_revokeRow now none hactive
            refine ⟨hrevoke, fun h => lasting_closed s _ hg (hrevoke hg).2 (hs.2 h), ?_⟩
            intro row hrow
            cases hrow
            exact ⟨⟨le_refl _, rfl⟩, by simp [revokeRow], .inr rfl⟩
          · exact ⟨kept_refl s, hs.2, nofun⟩
        · cases revoked with
          | none => exact ih.weaken fun s hs => hs.1
          | some row =>
            exact knows_bind ((knows_tombstone row now).weaken fun s hs => hs.2 row rfl)
              (fun _ => ih.weaken fun s hs _ => hs)
    · exact ih.weaken fun s hs => hs.2

theorem knows_revokeUserSessions :
    Knows (sealing cacheTTL) (fun _ : SessionState H => True)
      (fun r s => r = .ok true → Closed cacheTTL s)
      (revokeUserSessions cacheTTL userId excluded rounds) := by
  unfold revokeUserSessions
  split
  · exact knows_pure fun _ _ _ => nofun
  refine knows_bind (knows_look Later.refl lasting_const) fun now => ?_
  exact knows_revokeRounds.weaken fun _ _ => nofun

/-! ### Rotation and the session version -/

theorem knows_rotateAttempts [DecidableEq H] {attempts : ℕ} :
    Knows (sealing cacheTTL) (Heard after) (fun _ _ => True)
      (rotateAttempts cacheTTL after late userId presentedHash nextHash now grace attempts) := by
  induction attempts with
  | zero => exact knows_done
  | succ attempts ih =>
    refine knows_bind (knows_deadline lasting_returned) fun deadline => ?_
    refine knows_bind (G := fun session s => Heard after s ∧
        Behind session.cacheEntry s ∧ (session.status = .active → InTime cacheTTL deadline s))
      (knows_update (fun _ => lasting_returned.and (lasting_behind.and lasting_inTime.of_imp)) ?_)
      (fun session => ?_)
    · intro s hg hs
      split
      · exact ⟨kept_note _ nofun nofun nofun,
          fun h => List.mem_cons_of_mem _ (hs.1 h), ⟨le_refl _, rfl⟩,
          fun ha => hg.inTime ha hs.2⟩
      · exact ⟨kept_refl s, hs.1, ⟨le_refl _, rfl⟩, fun ha => hg.inTime ha hs.2⟩
    split
    · exact knows_done
    split
    · exact knows_done
    rename_i husable
    have hactive : session.status = .active := (not_not.mp husable).1
    split
    · refine knows_bind (G := fun swapped s => Heard after s ∧
          Behind session.cacheEntry s ∧ InTime cacheTTL deadline s)
        (knows_update (fun _ => lasting_returned.and (lasting_behind.and lasting_inTime)) ?_)
        (fun swapped => ?_)
      · intro s hg hs
        have hin := hs.2.2 hactive
        split
        · rename_i hrow
          -- The row is active, so no revocation has returned and the event is not a late one.
          have hafter : after ≠ true := fun h => hg.not_returned hrow.2.1.1 (hs.1 h)
          have hrotate : Kept (sealing cacheTTL) s { s with row := { s.row with
              previousRefreshHash := some session.refreshHash
              previousValidUntil := now + grace
              refreshHash := nextHash } } := kept_row hrow.2.1.1 hrow.2.1.1 rfl (le_refl _)
          refine ⟨kept_then_note hrotate rfl rfl _ nofun nofun ?_,
            fun h => absurd h hafter, hs.2.1, hin⟩
          intro presented now' h
          cases h
          exact hafter rfl
        · exact ⟨kept_refl s, hs.1, hs.2.1, hin⟩
      split
      · exact ih.weaken fun s hs => hs.1
      have hst : (session.rotate nextHash now grace).status = .active := hactive
      refine knows_bind ((knows_publishActive hst deadline).weaken fun s hs => hs.2)
        (fun published => ?_)
      cases published with
      | error | ok => exact knows_done
    split
    · exact knows_done
    split
    · exact knows_done
    refine knows_bind ((knows_fence session (by decide) now).weaken fun s hs => hs.2.1)
      (fun fenced => ?_)
    cases fenced with
    | error => exact knows_done
    | ok =>
      refine knows_bind (G := fun _ s => Behind session.cacheEntry s)
        (knows_update (fun _ => lasting_behind) ?_) fun revoked => ?_
      · intro s _ hs
        split
        · rename_i hrow
          exact ⟨kept_revokeRow now _ hrow.2.1, hs⟩
        · exact ⟨kept_refl s, hs⟩
      · split
        · exact knows_bind (knows_fence session (by decide) now)
            (fun _ => knows_done)
        · exact knows_done

theorem knows_rotateUserSessionRefresh [DecidableEq H] :
    Knows (sealing cacheTTL) (Heard after) (fun _ _ => True)
      (rotateUserSessionRefresh cacheTTL after late userId presentedHash nextHash now grace) := by
  unfold rotateUserSessionRefresh
  split
  · exact knows_done
  refine knows_bind (G := fun _ => Heard after) ?_ fun now => ?_
  · unfold rotationTime
    split
    · exact knows_look Later.refl lasting_returned
    · exact knows_same
  split
  · exact knows_done
  · exact knows_rotateAttempts

theorem knows_advanceUserSessionAuthVersion {expectedSessionVersion expectedUserAuthVersion
    nextUserAuthVersion : ℤ} :
    Knows (sealing cacheTTL) (fun _ : SessionState H => True) (fun _ _ => True)
      (advanceUserSessionAuthVersion cacheTTL userId expectedSessionVersion expectedUserAuthVersion
        nextUserAuthVersion) := by
  unfold advanceUserSessionAuthVersion
  split
  · exact knows_done
  refine knows_bind (knows_deadline lasting_const) fun deadline => ?_
  refine knows_bind (knows_look Later.refl ?_) fun now => ?_
  · intro s s' _ hl hs
    exact ⟨trivial, le_trans hs.2 (by have := hl.clock_le; omega)⟩
  refine knows_bind (G := fun advanced s => ∀ session, advanced = some session →
      session.status = .active ∧ Behind session.cacheEntry s ∧ InTime cacheTTL deadline s)
    (knows_update ?_ ?_) fun advanced => ?_
  · intro advanced s s' hg hl hs session hsession
    obtain ⟨hst, hb, hin⟩ := hs session hsession
    exact ⟨hst, lasting_behind s s' hg hl hb, lasting_inTime s s' hg hl hin⟩
  · intro s hg hs
    split
    · rename_i hrow
      refine ⟨kept_row hrow.2.1 hrow.2.1 rfl (by simp), ?_⟩
      intro session hsession
      cases hsession
      exact ⟨hrow.2.1, ⟨le_refl _, rfl⟩, hg.inTime hrow.2.1 hs.2⟩
    · exact ⟨kept_refl s, nofun⟩
  · cases advanced with
    | none => exact knows_done
    | some session =>
      refine Knows.of_fact (fun s _ hs => (hs session rfl).1) fun hst => ?_
      refine knows_bind ((knows_publishActive hst deadline).weaken
        (fun s hs => (hs session rfl).2)) fun published => ?_
      cases published with
      | error | ok => exact knows_done

/-! ### Every call -/

theorem knows_accepting {α : Type} {check : Prog (SessionState H) (Except SessionError α)}
    {F : SessionState H → Prop}
    (h : Knows (sealing cacheTTL) F (fun r s => ∀ e, r = .ok e → after = true → Moved s) check) :
    Knows (sealing cacheTTL) F (fun _ _ => True) (accepting check after) := by
  refine knows_bind h fun r => ?_
  cases r with
  | error => exact knows_done
  | ok e =>
    refine knows_update (fun _ => lasting_const) fun s _ hs => ⟨?_, trivial⟩
    refine kept_note _ nofun (fun hafter => ?_) nofun
    exact hs e rfl (accepted.inj hafter)

theorem knows_revoking {revoke : Prog (SessionState H) (Except SessionError Bool)}
    (h : Knows (sealing cacheTTL) (fun _ => True) (fun r s => r = .ok true → Closed cacheTTL s)
      revoke) :
    Knows (sealing cacheTTL) (fun _ => True) (fun _ _ => True) (revoking revoke) := by
  refine knows_bind h fun r => ?_
  split
  · refine knows_update (fun _ => lasting_const) fun s _ hs => ⟨?_, trivial⟩
    exact kept_note _ (fun _ => hs rfl) nofun nofun
  · exact knows_done

theorem knows_after [DecidableEq H] :
    Knows (sealing cacheTTL) (fun _ => True) Heard
      (Prog.look fun s : SessionState H => decide s.Returned) :=
  knows_read Later.refl (fun _ => lasting_event.of_imp) fun _ _ _ h => of_decide_eq_true h

theorem knows_prog [DecidableEq H] (c : SessionCall H) :
    Knows (sealing cacheTTL) (fun _ => True) (fun _ _ => True) (c.prog cacheTTL) := by
  cases c with
  | getUserSessionCached =>
    exact knows_bind knows_after fun _ => knows_accepting knows_getUserSessionCached
  | validateLoginSession =>
    exact knows_bind knows_after fun _ => knows_accepting knows_validateLoginSession
  | rotateUserSessionRefresh =>
    exact knows_bind knows_after
      (fun _ => knows_bind knows_rotateUserSessionRefresh fun _ => knows_done)
  | revokeUserSession => exact knows_revoking knows_revokeUserSession
  | revokeUserSessionByRefreshHash => exact knows_revoking knows_revokeUserSessionByRefreshHash
  | revokeUserSessions => exact knows_revoking knows_revokeUserSessions
  | advanceUserSessionAuthVersion =>
    exact knows_bind knows_advanceUserSessionAuthVersion fun _ => knows_done
  | setUser =>
    refine knows_update (fun _ => lasting_const) fun s _ _ => ⟨fun hg => ?_, trivial⟩
    exact ⟨{ hg with }, { (Later.refl s : Later cacheTTL s s) with }⟩
  | wait milliseconds =>
    exact knows_update (fun _ => lasting_const) fun s _ _ => ⟨kept_wait s milliseconds, trivial⟩

theorem good_created {time : ℤ} {row : UserSession H} (user : UserBase)
    (hrow : row.status = .active) : Good cacheTTL (SessionState.created time row user) where
  active_iff := ⟨fun _ => rfl, fun _ => hrow⟩
  lastActive_le := le_refl _
  version_le e he := by cases he
  expireAt_le e he := by cases he
  returned h := by cases h
  accepted h := by cases h
  rotated _ _ h := by cases h

/-- **A revoked session never comes back**, in every run in which `RevokeUserSession` never finds
the version moved: no reader or rotation that began after a revocation had returned succeeds, and no
step lowers the version of a live cached entry. -/
theorem revoked_stays_out [DecidableEq H] (cacheTTL : ℕ) (time : ℤ) {row : UserSession H}
    (user : UserBase) (hrow : row.status = .active) {p : Pool (SessionCall H) (SessionState H) Unit}
    (hr : Pool.Reach (SessionCall.prog cacheTTL) (Pool.start (.created time row user)) p)
    (hversion : versionMoved ∉ p.state.history) :
    accepted true ∉ p.state.history ∧
      (∀ presented now, rotated true presented now ∉ p.state.history) ∧
      ∀ p', Pool.Step (SessionCall.prog cacheTTL) (fun _ _ => True) p p' →
        ∀ e e', p.state.liveCache = some e → p'.state.liveCache = some e' →
          e.snapshot.version ≤ e'.snapshot.version := by
  have hprog : ∀ c : SessionCall H, Knows (sealing cacheTTL) (fun _ => True) (fun _ _ => True)
      (c.prog cacheTTL) := knows_prog
  have hg := (Regime.reach hprog hr (good_created user hrow)).1
  refine ⟨fun h => hversion (hg.accepted h), hg.rotated, fun p' hs e e' he he' => ?_⟩
  rcases Regime.reach_step hprog hr (good_created user hrow) hs with hsame | hlater
  · rw [hsame] at he'
    exact liveCache_version e e' he he'
  · exact hlater.cached e e' he he'

/-! ### Two runs -/

def hourSession : UserSession ℕ where
  userId := 1
  version := 1
  userAuthVersion := 1
  status := .active
  refreshHash := 7
  previousRefreshHash := none
  previousValidUntil := 0
  expiresAt := 4600
  revokedAt := 0

def hourState : SessionState ℕ := .created 1000000 hourSession ⟨true, 1⟩

/-- A reader that has read the active row fills the cache after the session is revoked; another
follows. -/
def lateReader : List (Pool.Move (SessionCall ℕ)) :=
  [.call .getUserSessionCached, .run 0, .run 0, .run 0, .run 0,
    .call (.revokeUserSession 1), .run 0, .run 0, .run 0, .run 0, .run 0, .run 0, .run 0, .run 0,
    .run 1, .run 1, .run 1,
    .call .getUserSessionCached, .run 0, .run 0, .run 0]

/-- The revocation of `lateReader` has returned, and its first reader wrote nothing. -/
theorem revoked_stays_out_lateReader :
    let p := Pool.play (SessionCall.prog 60) lateReader (Pool.start hourState)
    p.state.Returned ∧ accepted true ∉ p.state.history :=
  ⟨by decide +kernel, (revoked_stays_out 60 1000000 ⟨true, 1⟩ (by decide)
    (Pool.reach_play _ lateReader _) (by decide +kernel)).1⟩

/-- `RevokeUserSession` is held up for longer than its fence lives, while
`AdvanceUserSessionAuthVersion` raises the version and caches it. The cache then refuses the old
tombstone, and a reader takes the session from it. -/
def heldUpRevocation : List (Pool.Move (SessionCall ℕ)) :=
  [.call (.revokeUserSession 1), .run 0, .run 0, .run 0, .run 0,
    .call (.wait 60001), .run 0,
    .call (.advanceUserSessionAuthVersion 1 1 1 2), .run 0, .run 0, .run 0, .run 0, .run 0, .run 0,
    .run 2, .run 2, .run 2, .run 2,
    .call .getUserSessionCached, .run 0, .run 0, .run 0, .run 0]

theorem revoked_session_accepted :
    ∃ p, Pool.Reach (SessionCall.prog 60) (Pool.start hourState) p ∧
      p.state.row.status = .revoked ∧ accepted true ∈ p.state.history :=
  ⟨_, Pool.reach_play _ heldUpRevocation _, by decide +kernel, by decide +kernel⟩

end UnifyConsole.Auth
