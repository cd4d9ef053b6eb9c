import Mathlib
import UnifyConsole.Auth.Session
import UnifyConsole.Lib.Regime

/-!
# What a revocation does to the cache

A revocation seals the session: from then on the cache holds a deny entry, and by the time that
entry expires so has every active entry that was built from the row while it was active
(`Sealed`).  What the cache can hold is bounded by one number, `horizon`: a deadline is taken
before the row is read, so an active entry never outlives the last moment at which the row was
active by more than the cache's time to live.

`Good` is what every state keeps and `Later` what every step does.  The lemmas `kept_…` say so of
each kind of step.  `Knows` is then the assertion about a program that keeps to both while others
run beside it, and the last section has it for the writes of the cache.
-/

namespace UnifyConsole.Auth

open Lib
open SessionState List

variable {H : Type}

/-! ### What every state keeps -/

/-- The last moment at which the row was active. -/
def lastActive (s : SessionState H) : ℤ := s.revokedTime.getD s.clock

/-- No active entry outlives this moment. -/
def horizon (cacheTTL : ℕ) (s : SessionState H) : ℤ :=
  min (s.row.expiresAt * 1000) (lastActive s + cacheTTL * 1000)

/-- `RevokeUserSession` has revoked the row under another version than the one it had read. -/
def Moved (s : SessionState H) : Prop := SessionEvent.versionMoved ∈ s.history

/-- The row is revoked, and a deny entry stands in the cache until the horizon has passed. -/
def Sealed (cacheTTL : ℕ) (s : SessionState H) : Prop :=
  s.revokedTime ≠ none ∧ (horizon cacheTTL s < s.clock ∨
    ∃ e, s.cache = some e ∧ e.snapshot.status ≠ .active ∧ horizon cacheTTL s ≤ e.expireAt)

/-- The row is revoked and sealed, unless its version had moved. -/
def Closed (cacheTTL : ℕ) (s : SessionState H) : Prop :=
  s.revokedTime ≠ none ∧ (Moved s ∨ Sealed cacheTTL s)

structure Good (cacheTTL : ℕ) (s : SessionState H) : Prop where
  active_iff : s.row.status = .active ↔ s.revokedTime = none
  lastActive_le : lastActive s ≤ s.clock
  version_le : ∀ e, s.cache = some e → e.snapshot.version ≤ s.row.version
  expireAt_le : ∀ e, s.cache = some e → e.snapshot.status = .active →
    e.expireAt ≤ horizon cacheTTL s
  returned : s.Returned → Closed cacheTTL s
  accepted : SessionEvent.accepted true ∈ s.history → Moved s
  rotated : ∀ presented now, SessionEvent.rotated true presented now ∉ s.history

/-- What a step of any call does. -/
structure Later (cacheTTL : ℕ) (s s' : SessionState H) : Prop where
  clock_le : s.clock ≤ s'.clock
  expiresAt_eq : s'.row.expiresAt = s.row.expiresAt
  version_le : s.row.version ≤ s'.row.version
  lastActive_le : lastActive s ≤ lastActive s'
  frozen : s.revokedTime ≠ none → s'.revokedTime = s.revokedTime ∧ s'.row = s.row
  history : ∀ e ∈ s.history, e ∈ s'.history
  sealed : Sealed cacheTTL s → Sealed cacheTTL s'
  cached : ∀ e e', s.liveCache = some e → s'.liveCache = some e' →
    e.snapshot.version ≤ e'.snapshot.version

abbrev sealing (cacheTTL : ℕ) : Regime (SessionState H) := ⟨Good cacheTTL, Later cacheTTL⟩

variable {cacheTTL : ℕ}

variable {s : SessionState H}

theorem liveCache_eq_some {e : CacheEntry} (h : s.liveCache = some e) :
    s.cache = some e ∧ s.clock ≤ e.expireAt := by
  obtain ⟨hc, hle⟩ := Option.filter_eq_some_iff.mp h
  exact ⟨hc, of_decide_eq_true hle⟩

theorem liveCache_congr {s' : SessionState H} (hc : s'.cache = s.cache) (ht : s'.clock = s.clock) :
    s'.liveCache = s.liveCache := by
  unfold liveCache
  rw [hc, ht]

theorem liveCache_version (e e' : CacheEntry) (h : s.liveCache = some e)
    (h' : s.liveCache = some e') : e.snapshot.version ≤ e'.snapshot.version := by
  rw [h] at h'
  cases h'
  exact le_refl _

theorem Later.refl (s : SessionState H) : Later cacheTTL s s where
  clock_le := le_refl _
  expiresAt_eq := rfl
  version_le := le_refl _
  lastActive_le := le_refl _
  frozen _ := ⟨rfl, rfl⟩
  history _ h := h
  sealed h := h
  cached := liveCache_version

theorem Later.trans {s₁ s₂ : SessionState H} (h : Later cacheTTL s s₁) (h' : Later cacheTTL s₁ s₂)
    (hc : s₁.cache = s.cache) (ht : s₁.clock = s.clock) :
    Later cacheTTL s s₂ where
  clock_le := le_trans h.clock_le h'.clock_le
  expiresAt_eq := h'.expiresAt_eq.trans h.expiresAt_eq
  version_le := le_trans h.version_le h'.version_le
  lastActive_le := le_trans h.lastActive_le h'.lastActive_le
  frozen hr := by
    obtain ⟨ht₁, hrow₁⟩ := h.frozen hr
    obtain ⟨ht₂, hrow₂⟩ := h'.frozen (by rw [ht₁]; exact hr)
    exact ⟨ht₂.trans ht₁, hrow₂.trans hrow₁⟩
  history e he := h'.history e (h.history e he)
  sealed hs := h'.sealed (h.sealed hs)
  cached e e' he he' := h'.cached e e' (by rw [liveCache_congr hc ht]; exact he) he'

theorem kept_refl (s : SessionState H) : Kept (sealing cacheTTL) s s := fun h => ⟨h, Later.refl s⟩

/-- Once a revocation has returned, no active entry is read from the cache. -/
theorem Sealed.not_active (h : Sealed cacheTTL s) (hg : Good cacheTTL s) {e : CacheEntry}
    (he : s.liveCache = some e) : e.snapshot.status ≠ .active := by
  intro ha
  obtain ⟨hc, hlive⟩ := liveCache_eq_some he
  have hle := hg.expireAt_le e hc ha
  rcases h.2 with hpast | ⟨d, hd, hdeny, -⟩
  · omega
  · rw [hc] at hd
    cases hd
    exact hdeny ha

theorem Good.not_returned (hg : Good cacheTTL s) (ha : s.row.status = .active) : ¬ s.Returned :=
  fun h => (hg.returned h).1 (hg.active_iff.mp ha)

/-! ### The steps -/

/-- A new event in the history. -/
theorem kept_note (event : SessionEvent H) (hret : event = .revocationReturned → Closed cacheTTL s)
    (hacc : event = .accepted true → Moved s)
    (hrot : ∀ presented now, event ≠ .rotated true presented now) :
    Kept (sealing cacheTTL) s (s.note event) := by
  intro hg
  have hmoved : Moved s → Moved (s.note event) := mem_cons_of_mem event
  refine ⟨{ hg with returned := ?_, accepted := ?_, rotated := ?_ },
    { (Later.refl s : Later cacheTTL s s) with history := fun e => mem_cons_of_mem _ }⟩
  · intro h
    have hs : Closed cacheTTL s := by
      rcases mem_cons.mp h with h | h
      · exact hret h.symm
      · exact hg.returned h
    exact ⟨hs.1, hs.2.imp hmoved id⟩
  · intro h
    rcases mem_cons.mp h with h | h
    · exact hmoved (hacc h.symm)
    · exact hmoved (hg.accepted h)
  · intro presented now h
    rcases mem_cons.mp h with h | h
    · exact hrot presented now h.symm
    · exact hg.rotated presented now h

/-- A step that leaves the cache and the clock alone, and a new event. -/
theorem kept_then_note {s₁ : SessionState H} (h : Kept (sealing cacheTTL) s s₁)
    (hc : s₁.cache = s.cache) (ht : s₁.clock = s.clock) (event : SessionEvent H)
    (hret : event ≠ .revocationReturned) (hacc : event ≠ .accepted true)
    (hrot : ∀ presented now, event ≠ .rotated true presented now) :
    Kept (sealing cacheTTL) s (s₁.note event) := by
  intro hg
  obtain ⟨hg₁, hl₁⟩ := h hg
  obtain ⟨hg₂, hl₂⟩ := kept_note event (fun he => absurd he hret) (fun he => absurd he hacc) hrot
    hg₁
  exact ⟨hg₂, hl₁.trans hl₂ hc ht⟩

/-- A change of an active row that leaves its lifetime alone. -/
theorem kept_row {row : UserSession H} (ha : s.row.status = .active) (hst : row.status = .active)
    (hexp : row.expiresAt = s.row.expiresAt) (hver : s.row.version ≤ row.version) :
    Kept (sealing cacheTTL) s { s with row := row } := by
  intro hg
  have hnone := hg.active_iff.mp ha
  have hhorizon : horizon cacheTTL { s with row := row } = horizon cacheTTL s := by
    unfold horizon
    rw [hexp]
    rfl
  refine ⟨⟨⟨fun _ => hnone, fun _ => hst⟩, hg.lastActive_le, ?_, ?_, ?_, hg.accepted, hg.rotated⟩,
    ⟨le_refl _, hexp, hver, le_refl _, fun h => absurd hnone h, fun e h => h,
      fun h => absurd hnone h.1, liveCache_version⟩⟩
  · intro e he
    exact le_trans (hg.version_le e he) hver
  · intro e he hea
    rw [hhorizon]
    exact hg.expireAt_le e he hea
  · intro h
    exact absurd h (hg.not_returned ha)

/-- The row is revoked. -/
theorem kept_revokeRow (now : ℤ) (presented : Option H) (ha : s.row.status = .active) :
    Kept (sealing cacheTTL) s (s.revokeRow now presented) := by
  intro hg
  have hnone := hg.active_iff.mp ha
  have hlast : lastActive s = s.clock := by
    unfold lastActive
    rw [hnone]
    rfl
  refine kept_then_note (fun hg => ⟨{ hg with
        active_iff := ⟨nofun, nofun⟩
        lastActive_le := le_refl _
        expireAt_le := fun e he hea => ?_
        returned := fun h => absurd h (hg.not_returned ha) },
      { (Later.refl s : Later cacheTTL s s) with
        lastActive_le := le_of_eq hlast
        frozen := fun h => absurd hnone h
        sealed := fun h => absurd hnone h.1 }⟩ :
      Kept (sealing cacheTTL) s { s with
        row := { s.row with status := .revoked, revokedAt := now }, revokedTime := some s.clock })
    rfl rfl (.revoked presented) nofun nofun nofun hg
  have hle := hg.expireAt_le e he hea
  unfold horizon at hle
  rw [hlast] at hle
  exact hle

/-- The clock moves on. -/
theorem kept_wait (s : SessionState H) (d : ℕ) :
    Kept (sealing cacheTTL) s { s with clock := s.clock + d } := by
  intro hg
  have hlast : lastActive s ≤ lastActive { s with clock := s.clock + d } := by
    unfold lastActive
    cases s.revokedTime with
    | none => exact (by simp : s.clock ≤ s.clock + (d : ℤ))
    | some t => exact le_refl t
  have hhorizon : horizon cacheTTL s ≤ horizon cacheTTL { s with clock := s.clock + d } :=
    min_le_min (le_refl _) (by omega)
  have hsame : s.revokedTime ≠ none →
      horizon cacheTTL { s with clock := s.clock + d } = horizon cacheTTL s := by
    intro h
    unfold horizon lastActive
    cases ht : s.revokedTime with
    | none => exact absurd ht h
    | some => rfl
  have hsealed : Sealed cacheTTL s → Sealed cacheTTL { s with clock := s.clock + d } := by
    rintro ⟨hr, h⟩
    refine ⟨hr, ?_⟩
    rw [hsame hr]
    rcases h with h | h
    · exact .inl (lt_of_lt_of_le h (by simp))
    · exact .inr h
  refine ⟨{ hg with lastActive_le := ?_, expireAt_le := ?_, returned := ?_ },
    ⟨by simp, rfl, le_refl _, hlast, fun _ => ⟨rfl, rfl⟩, fun e h => h, hsealed, ?_⟩⟩
  · have hle := hg.lastActive_le
    unfold lastActive at hle ⊢
    cases ht : s.revokedTime with
    | none => exact le_refl _
    | some =>
      rw [ht] at hle
      exact le_trans hle (by simp : s.clock ≤ s.clock + (d : ℤ))
  · intro e he hea
    exact le_trans (hg.expireAt_le e he hea) hhorizon
  · intro h
    exact ⟨(hg.returned h).1, (hg.returned h).2.imp id hsealed⟩
  · intro e e' he he'
    have h := (liveCache_eq_some he).1
    have h' := (liveCache_eq_some he').1
    rw [h] at h'
    cases h'
    exact le_refl _

/-- What the script does: it refuses, or it puts the entry there, unless its time is over. -/
theorem script_cases (entry : Snapshot) (expiration : Expiration) (s : SessionState H) :
    (script entry expiration s = (false, s) ∧ ∃ cur, s.liveCache = some cur ∧
      (entry.status = .active ∧ cur.snapshot.status ≠ .active ∨
        entry.version < cur.snapshot.version)) ∨
    (script entry expiration s = (true, { s with cache := placed entry s.clock expiration }) ∧
      ∀ cur, s.liveCache = some cur → ¬ (entry.status = .active ∧ cur.snapshot.status ≠ .active) ∧
        cur.snapshot.version ≤ entry.version) := by
  unfold script
  cases hc : s.liveCache with
  | none =>
    refine .inr ⟨rfl, ?_⟩
    intro cur hcur
    cases hcur
  | some cur =>
    by_cases hdeny : entry.status = .active ∧ cur.snapshot.status ≠ .active
    · exact .inl ⟨if_pos hdeny, cur, rfl, .inl hdeny⟩
    by_cases hver : entry.version < cur.snapshot.version
    · refine .inl ⟨?_, cur, rfl, .inr hver⟩
      simp only [if_neg hdeny, if_pos hver]
    refine .inr ⟨?_, ?_⟩
    · simp only [if_neg hdeny, if_neg hver]
    · intro cur' hcur'
      cases hcur'
      exact ⟨hdeny, not_lt.mp hver⟩

theorem placed_after (entry : Snapshot) (now : ℤ) {ttl : ℤ} (h : 0 < ttl) :
    placed entry now (.after ttl) = some ⟨entry, now + ttl⟩ := if_neg (not_le.mpr h)

/-- The entry was built from the row, now or earlier. -/
def Behind (entry : Snapshot) (s : SessionState H) : Prop :=
  entry.version ≤ s.row.version ∧ entry.expiresAt = s.row.expiresAt

/-- A cache entry is put in place of what the script lets it replace. -/
theorem kept_put {cache : Option CacheEntry}
    (hver : ∀ e, cache = some e → e.snapshot.version ≤ s.row.version)
    (hact : ∀ e, cache = some e → e.snapshot.status = .active → e.expireAt ≤ horizon cacheTTL s)
    (hseal : Good cacheTTL s → Sealed cacheTTL s → Sealed cacheTTL { s with cache := cache })
    (hmono : ∀ cur e, s.liveCache = some cur → cache = some e →
      cur.snapshot.version ≤ e.snapshot.version) :
    Kept (sealing cacheTTL) s { s with cache := cache } := by
  intro hg
  refine ⟨{ hg with version_le := hver, expireAt_le := hact, returned := ?_ },
    { (Later.refl s : Later cacheTTL s s) with sealed := hseal hg, cached := ?_ }⟩
  · intro h
    exact ⟨(hg.returned h).1, (hg.returned h).2.imp id (hseal hg)⟩
  · intro e e' he he'
    exact hmono e e' he (liveCache_eq_some he').1

variable {entry : Snapshot}

theorem kept_script_active {time : ℤ} (hb : Behind entry s) (hst : entry.status = .active)
    (htime : time ≤ horizon cacheTTL s) :
    Kept (sealing cacheTTL) s (script entry (.at time) s).2 := by
  rcases script_cases entry (.at time) s with ⟨he, -⟩ | ⟨he, hcur⟩
  · rw [he]
    exact kept_refl s
  rw [he]
  have hentry : ∀ e, placed entry s.clock (.at time) = some e → e = ⟨entry, time⟩ := by
    intro e h
    simp only [placed] at h
    split at h
    · cases h
    · exact (Option.some.inj h).symm
  refine kept_put ?_ ?_ ?_ ?_
  · intro e h
    rw [hentry e h]
    exact hb.1
  · intro e h _
    rw [hentry e h]
    exact htime
  · -- A sealed cache holds a deny entry until the horizon has passed, so an active entry
    -- gets in only when it is itself expired.
    intro hg hs
    refine ⟨hs.1, .inl ?_⟩
    rcases hs.2 with hpast | ⟨d, hd, hdeny, hle⟩
    · exact hpast
    by_contra hnot
    have hlive : s.liveCache = some d :=
      Option.filter_eq_some_iff.mpr ⟨hd, decide_eq_true (by
        have : s.clock ≤ horizon cacheTTL s := not_lt.mp hnot
        omega)⟩
    exact (hcur d hlive).1 ⟨hst, hdeny⟩
  · intro cur e hc h
    rw [hentry e h]
    exact (hcur cur hc).2

variable {now : ℤ}

/-- A deny entry lives until the horizon of a revoked row has passed. -/
theorem horizon_le_deny (hg : Good cacheTTL s) (hb : Behind entry s) (hnow : now ≤ s.clock) :
    horizon cacheTTL s ≤ s.clock + denyTTL cacheTTL entry now ∧
      0 < denyTTL cacheTTL entry now := by
  have hlast := hg.lastActive_le
  have hE := hb.2
  unfold horizon denyTTL
  simp only
  rw [hE]
  split
  · rename_i hle
    rcases min_le_iff.mp hle with h | h
    · refine ⟨le_trans (min_le_left _ _) (by omega), by omega⟩
    · refine ⟨le_trans (min_le_right _ _) (by omega), by omega⟩
  rename_i hle
  refine ⟨?_, not_le.mp hle⟩
  rcases le_total (s.row.expiresAt * 1000 - now) (cacheTTL * 1000 : ℤ) with h | h
  · rw [min_eq_left h]
    exact le_trans (min_le_left _ _) (by omega)
  · rw [min_eq_right h]
    exact le_trans (min_le_right _ _) (by omega)

theorem kept_script_deny (hb : Behind entry s) (hst : entry.status ≠ .active)
    (hnow : now ≤ s.clock) :
    Kept (sealing cacheTTL) s (script entry (.after (denyTTL cacheTTL entry now)) s).2 := by
  intro hg
  obtain ⟨hhor, hpos⟩ := horizon_le_deny hg hb hnow
  rcases script_cases entry (.after (denyTTL cacheTTL entry now)) s with ⟨he, -⟩ | ⟨he, hcur⟩
  · rw [he]
    exact kept_refl s hg
  rw [he, placed_after entry s.clock hpos]
  refine kept_put ?_ ?_ ?_ ?_ hg
  · intro e h
    cases h
    exact hb.1
  · intro e h hea
    cases h
    exact absurd hea hst
  · intro _ hs
    exact ⟨hs.1, .inr ⟨_, rfl, hst, hhor⟩⟩
  · intro cur e hc h
    cases h
    exact (hcur cur hc).2

/-- The tombstone of a revoked row goes through if it has the row's version, and seals it. -/
theorem script_deny_seals (hg : Good cacheTTL s) (hb : Behind entry s)
    (hst : entry.status ≠ .active) (hnow : now ≤ s.clock) (hver : entry.version = s.row.version)
    (hrev : s.revokedTime ≠ none) :
    Sealed cacheTTL (script entry (.after (denyTTL cacheTTL entry now)) s).2 := by
  obtain ⟨hhor, hpos⟩ := horizon_le_deny hg hb hnow
  rcases script_cases entry (.after (denyTTL cacheTTL entry now)) s with
    ⟨-, cur, hcur, hcause⟩ | ⟨he, -⟩
  · have hle := hg.version_le cur (liveCache_eq_some hcur).1
    rcases hcause with h | h
    · exact absurd h.1 hst
    · omega
  · rw [he, placed_after entry s.clock hpos]
    exact ⟨hrev, .inr ⟨_, rfl, hst, hhor⟩⟩

/-! ### What a program knows -/

theorem lasting_clock : Lasting (sealing cacheTTL) (fun s : SessionState H => now ≤ s.clock) :=
  fun _ _ _ hl hs => le_trans hs hl.clock_le

theorem lasting_behind : Lasting (sealing cacheTTL) (Behind (H := H) entry) := by
  intro s s' _ hl hs
  exact ⟨le_trans hs.1 hl.version_le, hs.2.trans hl.expiresAt_eq.symm⟩

/-- A deadline that was taken while the row was active. -/
def InTime (cacheTTL : ℕ) (deadline : ℤ) (s : SessionState H) : Prop :=
  deadline ≤ lastActive s + cacheTTL * 1000

theorem lasting_inTime {deadline : ℤ} :
    Lasting (sealing cacheTTL) (InTime (H := H) cacheTTL deadline) := by
  intro s s' _ hl hs
  have h := hl.lastActive_le
  unfold InTime at hs ⊢
  omega

theorem lasting_event {event : SessionEvent H} :
    Lasting (sealing cacheTTL) (fun s => event ∈ s.history) :=
  fun _ _ _ hl => hl.history event

theorem lasting_closed : Lasting (sealing cacheTTL) (Closed cacheTTL (H := H)) := by
  intro s s' _ hl hs
  refine ⟨?_, hs.2.imp (hl.history _) hl.sealed⟩
  rw [(hl.frozen hs.1).1]
  exact hs.1

/-- The row is revoked under this version, or the version had moved. -/
def RevokedAt (version : ℤ) (s : SessionState H) : Prop :=
  s.revokedTime ≠ none ∧ (Moved s ∨ version = s.row.version)

theorem lasting_revokedAt {version : ℤ} :
    Lasting (sealing cacheTTL) (RevokedAt (H := H) version) := by
  intro s s' _ hl hs
  obtain ⟨ht, hrow⟩ := hl.frozen hs.1
  unfold RevokedAt
  rw [ht, hrow]
  exact ⟨hs.1, hs.2.imp (hl.history _) id⟩

/-- A look at the clock. -/
theorem knows_clock {F : SessionState H → Prop} (hF : Lasting (sealing cacheTTL) F) :
    Knows (sealing cacheTTL) F (fun now s => F s ∧ now ≤ s.clock) clock :=
  knows_read Later.refl (fun _ => hF.and lasting_clock) fun _ _ hs => ⟨hs, le_refl _⟩

/-! ### Writes of the cache -/

section Writes

variable {r : Regime (SessionState H)} {F : SessionState H → Prop}

/-- What lasts is not lost by the write of an active entry. -/
theorem knows_writeActive (hrefl : ∀ s, r.step s s) (hF : Lasting r F) {entry : Snapshot}
    {deadline : ℤ} (h : ∀ s, F s →
      Kept r s (script entry (.at (min deadline (entry.expiresAt * 1000))) s).2) :
    Knows r F (fun _ s => F s) (writeActiveEntry entry deadline) := by
  refine knows_bind (knows_look hrefl hF) fun now => ?_
  split
  · exact knows_same
  split
  · exact knows_same
  split
  · exact knows_same
  refine knows_bind (G := fun _ s => F s)
    (knows_update (fun _ => hF) fun s hg hs => ⟨h s hs, hF.after (h s hs) hg hs⟩)
    (fun written => ?_)
  split
  · exact knows_same
  refine knows_bind (knows_look hrefl hF) (fun completedAt => ?_)
  repeat' split
  all_goals exact knows_same

theorem knows_publish_of_write (hrefl : ∀ s, r.step s s) (hF : Lasting r F) {cacheTTL : ℕ}
    {session : UserSession H} {deadline : ℤ} (h : Knows r F (fun _ s => F s)
      (writeUserSessionCache cacheTTL session.cacheEntry (some deadline))) :
    Knows r F (fun _ s => F s) (publishActive cacheTTL session deadline) := by
  refine knows_bind h fun written => ?_
  split
  · unfold confirmUserSessionActiveSnapshot
    split
    · exact knows_same
    refine knows_bind (knows_look hrefl hF) fun now => ?_
    exact knows_bind (knows_look hrefl hF) fun found => knows_same
  · exact knows_same
  · exact knows_same

end Writes

/-- The deadline that a call takes before it looks at the row. -/
theorem knows_deadline {F : SessionState H → Prop} (hF : Lasting (sealing cacheTTL) F) :
    Knows (sealing cacheTTL) F (fun deadline s => F s ∧ deadline ≤ s.clock + cacheTTL * 1000)
      (userSessionCacheDeadline cacheTTL) := by
  refine knows_read Later.refl (fun deadline => hF.and ?_) fun s _ hs => ⟨hs, le_refl _⟩
  intro s s' _ hl hs
  have := hl.clock_le
  omega

theorem Good.inTime (hg : Good cacheTTL s) (ha : s.row.status = .active) {deadline : ℤ}
    (h : deadline ≤ s.clock + cacheTTL * 1000) : InTime cacheTTL deadline s := by
  unfold InTime lastActive
  rw [hg.active_iff.mp ha]
  exact h

theorem knows_writeDenyEntry (entry : Snapshot) (hst : entry.status ≠ .active) :
    Knows (sealing cacheTTL) (Behind (H := H) entry) (fun _ => Behind entry)
      (writeDenyEntry cacheTTL entry) := by
  refine knows_bind (knows_clock lasting_behind) fun now => ?_
  refine knows_bind (G := fun _ => Behind entry)
    (knows_update (fun _ => lasting_behind) ?_) fun written => knows_same
  intro s hg hs
  have hkept : Kept (sealing cacheTTL) s _ := kept_script_deny hs.1 hst hs.2
  exact ⟨hkept, lasting_behind.after hkept hg hs.1⟩

/-- The deny entry of a revoked row closes it. -/
theorem knows_writeDenyEntry_closed (entry : Snapshot) (hst : entry.status ≠ .active) :
    Knows (sealing cacheTTL) (fun s : SessionState H => Behind entry s ∧ RevokedAt entry.version s)
      (fun _ s => Closed cacheTTL s) (writeDenyEntry cacheTTL entry) := by
  refine knows_bind (knows_clock (lasting_behind.and lasting_revokedAt)) fun now => ?_
  refine knows_bind (G := fun _ => Closed cacheTTL)
    (knows_update (fun _ => lasting_closed) ?_) fun written => knows_same
  intro s hg hs
  obtain ⟨⟨hb, hrev, hver⟩, hnow⟩ := hs
  have hkept : Kept (sealing cacheTTL) s _ := kept_script_deny hb hst hnow
  refine ⟨hkept, ?_⟩
  rcases hver with hmoved | hver
  · have hl := (hkept hg).2
    refine ⟨?_, .inl (hl.history _ hmoved)⟩
    rw [(hl.frozen hrev).1]
    exact hrev
  · have hsealed := script_deny_seals hg hb hst hnow hver hrev
    exact ⟨hsealed.1, .inr hsealed⟩

theorem knows_fence (session : UserSession H) {status : SessionStatus} (hst : status ≠ .active)
    (now : ℤ) :
    Knows (sealing cacheTTL) (Behind session.cacheEntry) (fun _ => Behind session.cacheEntry)
      (writeUserSessionDenyFence cacheTTL session status now) := by
  unfold writeUserSessionDenyFence writeUserSessionCache
  rw [if_neg hst]
  exact knows_writeDenyEntry { session.cacheEntry with status := status, revokedAt := now } hst

theorem knows_tombstone (session : UserSession H) (now : ℤ) :
    Knows (sealing cacheTTL) (fun s => Behind session.cacheEntry s ∧ RevokedAt session.version s)
      (fun _ s => Closed cacheTTL s)
      (writeUserSessionDenyFence cacheTTL session .revoked now) := by
  have hst : SessionStatus.revoked ≠ .active := by decide
  unfold writeUserSessionDenyFence writeUserSessionCache
  exact knows_writeDenyEntry_closed { session.cacheEntry with status := .revoked, revokedAt := now }
    hst

theorem knows_publishActive {session : UserSession H} (hst : session.status = .active)
    (deadline : ℤ) :
    Knows (sealing cacheTTL) (fun s => Behind session.cacheEntry s ∧ InTime cacheTTL deadline s)
      (fun _ s => Behind session.cacheEntry s ∧ InTime cacheTTL deadline s)
      (publishActive cacheTTL session deadline) := by
  refine knows_publish_of_write Later.refl (lasting_behind.and lasting_inTime) ?_
  have hwrite : writeUserSessionCache cacheTTL session.cacheEntry (some deadline)
      = (writeActiveEntry session.cacheEntry deadline :
        Prog (SessionState H) (Except SessionError Unit)) := if_pos hst
  rw [hwrite]
  refine knows_writeActive Later.refl (lasting_behind.and lasting_inTime)
    (fun s hs => kept_script_active hs.1 hst ?_)
  rw [hs.1.2]
  exact le_min (min_le_right _ _) (le_trans (min_le_left _ _) hs.2)

end UnifyConsole.Auth
