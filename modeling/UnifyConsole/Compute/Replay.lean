import UnifyConsole.Compute.Conservation

/-!
# Replays and conflicts

A request of the bridge carries an id of its own: a create its hold id, a
settlement its event id, an extend its extend id.  The first request under an id
that succeeds leaves a row, the row stays, and the columns a later request is
compared with never change (`HoldCall.known_stable`).  So a request that is
repeated is answered from the row, and another request under the same id is
refused, whatever has happened to the hold since.
-/

namespace UnifyConsole.Compute

open Lib Account
open Prog Pool

variable {db db' : HoldDb} {holdId extendId : String} {row hold : ComputeHold} {now : Int}

/-! ### Requests under a known id -/

variable {commits : Nat → Bool}

theorem createComputeHold_exec {token : Option Token} (hf : db.holds.find? hold.holdId = some row) :
    (createComputeHold hold token now commits).exec db =
      (if 0 < hold.quota ∧ hold.quota ≤ maxComputeQuota then replayComputeHold row hold
        else .error .quotaOutOfRange, db) := by
  unfold createComputeHold
  by_cases hr : 0 < hold.quota ∧ hold.quota ≤ maxComputeQuota
  · rw [if_pos hr, if_neg (by omega)]
    simp [getComputeHold, hf]
  · rw [if_neg hr, if_pos (by omega)]
    rfl

theorem settleComputeHold_exec {event row : ComputeSettlement} {final : Bool}
    (hf : db.settlements.find? event.eventId = some row) :
    (settleComputeHold holdId event final now commits).exec db =
      (if 0 ≤ event.cumulativeQuota ∧ event.cumulativeQuota ≤ maxComputeQuota ∧
          0 ≤ event.gpuSeconds then
        if row.holdId ≠ holdId ∨ row.cumulativeQuota ≠ event.cumulativeQuota ∨
          row.gpuSeconds ≠ event.gpuSeconds ∨ row.final ≠ final then .error .eventConflict
        else match db.holds.find? holdId with
          | none => .error .holdNotFound
          | some hold => .ok (some ⟨hold, 0, 0, true⟩)
      else .error .quotaOutOfRange, db) := by
  unfold settleComputeHold
  by_cases hr : 0 ≤ event.cumulativeQuota ∧ event.cumulativeQuota ≤ maxComputeQuota ∧
      0 ≤ event.gpuSeconds
  · rw [if_pos hr, if_neg (by omega)]
    by_cases hd : row.holdId ≠ holdId ∨ row.cumulativeQuota ≠ event.cumulativeQuota ∨
        row.gpuSeconds ≠ event.gpuSeconds ∨ row.final ≠ final
    · simp only [replayComputeSettlement, exec_bind, exec_look, hf, if_pos hd]
      rfl
    · simp only [replayComputeSettlement, exec_bind, exec_look, hf, if_neg hd,
        getComputeHold]
      cases db.holds.find? holdId <;> rfl
  · rw [if_neg hr, if_pos (by omega)]
    rfl

theorem extendComputeHold_exec {additional : Int} {token : Option Token} {row : ComputeExtension}
    (hf : db.extensions.find? extendId = some row) :
    (extendComputeHold holdId extendId additional token now commits).exec db =
      (if 0 < additional ∧ additional ≤ maxComputeQuota then
        if row.holdId ≠ holdId ∨ row.additionalQuota ≠ additional
        then .error .idempotencyConflict else .ok (some row, true)
      else .error .quotaOutOfRange, db) := by
  unfold extendComputeHold
  by_cases hr : 0 < additional ∧ additional ≤ maxComputeQuota
  · rw [if_pos hr, if_neg (by omega)]
    by_cases hd : row.holdId ≠ holdId ∨ row.additionalQuota ≠ additional
    · simp only [replayComputeExtension, exec_bind, exec_look, hf, if_pos hd]
      rfl
    · simp only [replayComputeExtension, exec_bind, exec_look, hf, if_neg hd]
      rfl
  · rw [if_neg hr, if_pos (by omega)]
    rfl

def HoldCall.SameId : HoldCall → HoldCall → Prop
  | .create hold _ _ _, .create hold' _ _ _ => hold'.holdId = hold.holdId
  | .settle _ event _ _ _, .settle _ event' _ _ _ => event'.eventId = event.eventId
  | .extend _ extendId _ _ _ _, .extend _ extendId' _ _ _ _ => extendId' = extendId
  | _, _ => False

/-- The two requests agree in everything else a client sends. -/
def HoldCall.SameBody : HoldCall → HoldCall → Prop
  | .create hold _ _ _, .create hold' _ _ _ =>
    hold'.userId = hold.userId ∧ hold'.tokenId = hold.tokenId ∧ hold'.jobId = hold.jobId ∧
      hold'.sku = hold.sku ∧ hold'.quota = hold.quota ∧ hold'.expiresAt = hold.expiresAt
  | .settle holdId event final _ _, .settle holdId' event' final' _ _ =>
    holdId' = holdId ∧ event'.cumulativeQuota = event.cumulativeQuota ∧
      event'.gpuSeconds = event.gpuSeconds ∧ final' = final
  | .extend holdId _ additional _ _ _, .extend holdId' _ additional' _ _ _ =>
    holdId' = holdId ∧ additional' = additional
  | _, _ => False

def HoldReply.Replayed : HoldReply → Prop
  | .created (.ok (_, replayed)) => replayed = true
  | .settled (.ok (some result)) => result.replayed = true
  | .extended (.ok (some _, replayed)) => replayed = true
  | _ => False

def HoldReply.error? : HoldReply → Option ComputeError
  | .created (.error e) => some e
  | .settled (.error e) => some e
  | .extended (.error e) => some e
  | .released (.error e) => some e
  | .expired (.error e) => some e
  | _ => none

variable {c : HoldCall}

/-- A request under a known id is answered from the row and changes nothing. -/
theorem HoldCall.answered {c' : HoldCall} (hk : c.Known db) (hid : c.SameId c') :
    ∃ r : HoldReply, c'.prog.exec db = (r, db) ∧
      (c.SameBody c' → c.inRange = true → r.Replayed) ∧
      (¬ c.SameBody c' → ∃ e : ComputeError, r.error? = some e ∧
        e.text = if c'.inRange then "idempotency_conflict" else "quota_out_of_range") := by
  cases c with
  | create hold =>
    cases c' with
    | create hold' =>
      obtain ⟨row, hf, m₁, m₂, m₃, m₄, m₅, m₆⟩ := hk
      rw [← show hold'.holdId = hold.holdId from hid] at hf
      simp only [HoldCall.prog, exec_map, createComputeHold_exec hf, HoldCall.inRange,
        decide_eq_true_eq]
      refine ⟨_, rfl, ?_, fun hbody => ?_⟩
      · rintro ⟨h₁, h₂, h₃, h₄, h₅, h₆⟩ hin
        rw [if_pos (by rw [h₅]; exact hin)]
        rcases replayComputeHold_cases row hold' with ⟨-, he⟩ | ⟨hn, -⟩
        · rw [he]
          rfl
        · exact absurd ⟨m₁.trans h₁.symm, m₂.trans h₂.symm, m₃.trans h₃.symm, m₄.trans h₄.symm,
            m₅.trans h₅.symm, m₆.trans h₆.symm⟩ hn
      split
      · refine ⟨.holdConflict, ?_, rfl⟩
        rcases replayComputeHold_cases row hold' with ⟨⟨n₁, n₂, n₃, n₄, n₅, n₆⟩, -⟩ | ⟨-, he⟩
        · exact absurd ⟨n₁.symm.trans m₁, n₂.symm.trans m₂, n₃.symm.trans m₃, n₄.symm.trans m₄,
            n₅.symm.trans m₅, n₆.symm.trans m₆⟩ hbody
        · rw [he]
          rfl
      · exact ⟨.quotaOutOfRange, rfl, rfl⟩
    | settle | extend | release | expire | sweep => exact hid.elim
  | settle holdId event =>
    cases c' with
    | settle holdId' event' =>
      obtain ⟨⟨row, hf, m₁, m₂, m₃, m₄⟩, hold, hh⟩ := hk
      rw [← show event'.eventId = event.eventId from hid] at hf
      simp only [HoldCall.prog, exec_map, settleComputeHold_exec hf, HoldCall.inRange,
        decide_eq_true_eq]
      refine ⟨_, rfl, ?_, fun hbody => ?_⟩
      · rintro ⟨rfl, h₂, h₃, rfl⟩ hin
        rw [if_pos (by rw [h₂, h₃]; exact hin), if_neg, hh]
        · rfl
        simp only [not_or, not_not]
        exact ⟨m₁, m₂.trans h₂.symm, m₃.trans h₃.symm, m₄⟩
      split
      · refine ⟨.eventConflict, ?_, rfl⟩
        rw [if_pos]
        · rfl
        by_contra hn
        simp only [not_or, not_not] at hn
        obtain ⟨n₁, n₂, n₃, n₄⟩ := hn
        exact hbody ⟨n₁.symm.trans m₁, n₂.symm.trans m₂, n₃.symm.trans m₃, n₄.symm.trans m₄⟩
      · exact ⟨.quotaOutOfRange, rfl, rfl⟩
    | create | extend | release | expire | sweep => exact hid.elim
  | extend holdId extendId =>
    cases c' with
    | extend holdId' extendId' =>
      obtain ⟨row, hf, m₁, m₂⟩ := hk
      rw [← show extendId' = extendId from hid] at hf
      simp only [HoldCall.prog, exec_map, extendComputeHold_exec hf, HoldCall.inRange,
        decide_eq_true_eq]
      refine ⟨_, rfl, ?_, fun hbody => ?_⟩
      · rintro ⟨rfl, rfl⟩ hin
        rw [if_pos hin, if_neg]
        · rfl
        simp only [not_or, not_not]
        exact ⟨m₁, m₂⟩
      split
      · refine ⟨.idempotencyConflict, ?_, rfl⟩
        rw [if_pos]
        · rfl
        by_contra hn
        simp only [not_or, not_not] at hn
        exact hbody ⟨hn.1.symm.trans m₁, hn.2.symm.trans m₂⟩
      · exact ⟨.quotaOutOfRange, rfl, rfl⟩
    | create | settle | release | expire | sweep => exact hid.elim
  | release | expire | sweep => exact hid.elim

theorem known_of_run (hr : Relation.ReflTransGen LedgerStep db db') (hk : c.Known db) :
    c.Known db' := by
  induction hr with
  | refl => exact hk
  | tail _ hs ih => exact c.known_stable _ _ hs ih

/-- **Replays and conflicts**: once a request has succeeded, the same one is answered as a replay
and another under its id is refused, as a conflict or for its amounts. Neither changes anything. -/
theorem replay_or_conflict {db : HoldDb} {p p' : Pool HoldCall HoldDb HoldReply}
    (hr : Pool.Reach HoldCall.prog (Pool.start db) p) (hr' : Pool.Reach HoldCall.prog p p')
    {c : HoldCall} {reply : HoldReply} (hc : (c, .ret reply) ∈ p.calls) (hs : reply.Succeeded) :
    (∀ c', c.SameId c' → c.SameBody c' →
      ∃ r : HoldReply, r.Replayed ∧ c'.prog.exec p'.state = (r, p'.state)) ∧
    (∀ c', c.SameId c' → ¬ c.SameBody c' →
      ∃ (r : HoldReply) (e : ComputeError), r.error? = some e ∧
        e.text = (if c'.inRange then "idempotency_conflict" else "quota_out_of_range") ∧
        c'.prog.exec p'.state = (r, p'.state)) := by
  have hsafe := (ledger_of_reach hr (safe_start _ _ _)).1
  obtain ⟨hin, hk⟩ := hsafe.returned hc hs
  have hk' := known_of_run (ledger_of_reach hr' hsafe).2 hk
  refine ⟨fun c' hid hbody => ?_, fun c' hid hbody => ?_⟩
  · obtain ⟨r, hexec, hreplayed, -⟩ := HoldCall.answered hk' hid
    exact ⟨r, hreplayed hbody hin, hexec⟩
  · obtain ⟨r, hexec, -, hconflict⟩ := HoldCall.answered hk' hid
    obtain ⟨e, he, htext⟩ := hconflict hbody
    exact ⟨r, e, he, htext, hexec⟩

/-- The shared wallet with hold `h` open. -/
def openedDb : HoldDb := Pool.execs HoldCall.prog [requestHold "h" 100] sharedWalletDb

/-- Hold `h` is opened and `30` of it is settled under event `e`. -/
theorem reach_settled : ∃ l, Pool.Reach HoldCall.prog (Pool.start sharedWalletDb)
    ⟨((requestSettle "h" "e" 30 60 false).prog.exec openedDb).2,
      (requestSettle "h" "e" 30 60 false,
        .ret ((requestSettle "h" "e" 30 60 false).prog.exec openedDb).1) :: l⟩ := by
  obtain ⟨l, hl⟩ := reach_execs HoldCall.prog [requestHold "h" 100] (fun _ _ _ => trivial)
    sharedWalletDb []
  exact ⟨l, hl.trans (reach_exec HoldCall.prog (fun _ => trivial) openedDb l)⟩

theorem replay_or_conflict_settled :
    ((requestSettle "h" "e" 30 60 false).prog.exec openedDb).1.Succeeded ∧
    ∃ db, db = ((requestSettle "h" "e" 30 60 false).prog.exec openedDb).2 ∧
      (∃ r : HoldReply, r.Replayed ∧ (requestSettle "h" "e" 30 60 false).prog.exec db = (r, db)) ∧
      ∃ (r : HoldReply) (e : ComputeError), r.error? = some e ∧ e.text = "idempotency_conflict" ∧
        (requestSettle "h" "e" 40 60 false).prog.exec db = (r, db) := by
  obtain ⟨l, hl⟩ := reach_settled
  have hs : ((requestSettle "h" "e" 30 60 false).prog.exec openedDb).1.Succeeded := trivial
  obtain ⟨hreplay, hconflict⟩ := replay_or_conflict hl .refl List.mem_cons_self hs
  refine ⟨hs, _, rfl, hreplay _ rfl ⟨rfl, rfl, rfl, rfl⟩, ?_⟩
  refine hconflict (requestSettle "h" "e" 40 60 false) rfl fun h => ?_
  exact absurd h.2.1 (by decide)

/-- A settlement with negative GPU seconds under the id of another event is refused for its amounts.
-/
theorem conflict_out_of_range : ∃ (p : Pool HoldCall HoldDb HoldReply) (c c' : HoldCall)
    (reply : HoldReply), Pool.Reach HoldCall.prog (Pool.start sharedWalletDb) p ∧
      (c, .ret reply) ∈ p.calls ∧ reply.Succeeded ∧ c.SameId c' ∧ ¬ c.SameBody c' ∧
      (c'.prog.exec p.state).1.error?.map ComputeError.text = some "quota_out_of_range" := by
  obtain ⟨l, hl⟩ := reach_settled
  have he : ((requestSettle "h" "e" 30 (-1) false).prog.exec
      ((requestSettle "h" "e" 30 60 false).prog.exec openedDb).2).1.error?.map
        ComputeError.text = some "quota_out_of_range" := by decide
  exact ⟨_, _, requestSettle "h" "e" 30 (-1) false, _, hl, List.mem_cons_self, trivial, rfl,
    fun h => absurd h.2.2.1 (by decide), he⟩

end UnifyConsole.Compute
