import Mathlib
import UnifyConsole.Lib.Table

/-!
# Batched counter updates

With batching on, a change of a counter is added to a map in memory (`addNewRecord`) and written
by a later pass (`batchUpdate`).  A pass looks at the six maps in turn, swaps them out one by
one, each under its own lock, and then writes what it holds: three maps entry by entry and the
three maps of a user's row together.  A scheduled pass and the flush at shutdown exclude each
other through `batchUpdateRunMu`; `addNewRecord` goes on beside either.

`step` is one atomic action of one of them.  What a statement of a pass writes is decided by the
database, and a pass forgets an entry once it has tried to write it: `total_step` is the balance
of one step with what it loses, and `no_batched_charge_lost` says that the balance is kept all
along a run exactly when no step loses anything, and that a finished flush at shutdown leaves
nothing pending.
-/

namespace UnifyConsole.Billing.Batch

open Lib (Table)
open List Option Function

/-- `BatchUpdateType…`. -/
inductive CounterKind
  | userQuota
  | tokenQuota
  | usedQuota
  | channelUsedQuota
  | requestCount
  | tenantUsedQuota
  deriving DecidableEq

def CounterKind.all : List CounterKind :=
  [.userQuota, .tokenQuota, .usedQuota, .channelUsedQuota, .requestCount, .tenantUsedQuota]

theorem CounterKind.mem_all (t : CounterKind) : t ∈ CounterKind.all := by
  cases t <;> decide

/-! ### The maps in memory -/

/-- A `map[int]int`. -/
abbrev Store := Table (Prod.fst : ℕ × ℤ → ℕ)

def amount (m : Store) (id : ℕ) : ℤ := (m.value? id).getD 0

def addTo (m : Store) (id : ℕ) (value : ℤ) : Store :=
  match m.insert? (id, value) with
  | some m' => m'
  | none => m.update (fun r => decide (r.1 = id)) (fun r => (r.1, r.2 + value)) fun _ => rfl

def dropKey (m : Store) (id : ℕ) : Store := m.delete fun r => decide (r.1 = id)

@[simp] theorem amount_empty (id : ℕ) : amount Table.empty id = 0 := rfl

theorem amount_addTo (m : Store) (i : ℕ) (value : ℤ) (id : ℕ) :
    amount (addTo m i value) id = amount m id + if id = i then value else 0 := by
  unfold amount addTo Table.value?
  cases hins : m.insert? (i, value) with
  | some =>
    have hfree := (Table.insert?_eq_some_iff.mp hins).1
    simp only [Table.find?_insert? hins]
    by_cases he : id = i
    · subst he
      rw [if_pos rfl, if_pos rfl, hfree]
      simp
    · rw [if_neg (Ne.symm he), if_neg he, add_zero]
  | none =>
    obtain ⟨⟨i', v⟩, hfound⟩ := Table.insert?_eq_none_iff.mp hins
    have hkey : i' = i := Table.key_of_find? hfound
    subst hkey
    simp only [Table.find?_update]
    by_cases he : id = i'
    · subst he
      rw [if_pos rfl, hfound]
      simp
    rw [if_neg he, add_zero]
    cases hid : m.find? id with
    | none => rfl
    | some r =>
      have hr : r.1 = id := Table.key_of_find? hid
      rw [map_some, if_neg (by simpa [hr] using he)]

theorem amount_dropKey (m : Store) (i id : ℕ) :
    amount (dropKey m i) id = if id = i then 0 else amount m id := by
  unfold amount dropKey
  rw [Table.value?_delete (fun k => decide (k = i))]
  by_cases he : id = i
  · simp [he]
  · simp [he]

/-! ### The state and its steps -/

/-- What the database makes of one statement. -/
inductive Outcome
  | applied
  | noRow
  | failed
  deriving DecidableEq

/-- Where a pass is: the maps still to look at or to swap out, or the kind of row it writes. -/
inductive Phase
  | check (rest : List CounterKind)
  | swap (rest : List CounterKind)
  | tokens
  | channels
  | tenants
  | users
  deriving DecidableEq

/-- A running pass and the maps it has swapped out, less the entries it is done with. -/
structure Flush where
  phase : Phase
  held : CounterKind → Store

structure BatchState where
  stored : CounterKind → ℕ → ℤ
  pending : CounterKind → Store
  /-- The pass that has `batchUpdateRunMu`. -/
  runner : Option Flush
  /-- `batchUpdateStopped`. -/
  stopped : Bool

open BatchState

/-- `column = column + ?` for the row `id`. -/
def increment (o : Outcome) (t : CounterKind) (id : ℕ) (value : ℤ)
    (stored : CounterKind → ℕ → ℤ) : CounterKind → ℕ → ℤ :=
  fun t' id' => stored t' id' + if o = .applied ∧ t' = t ∧ id' = id then value else 0

def increaseTokenQuota (o : Outcome) := increment o .tokenQuota
def updateChannelUsedQuota (o : Outcome) := increment o .channelUsedQuota
def increaseTenantUsedQuota (o : Outcome) := increment o .tenantUsedQuota

/-- One statement for the three counters of a user, left out when there is nothing to add. -/
def updateUserQuotaUsedQuotaAndRequestCount (o : Outcome) (id : ℕ)
    (quota usedQuota requestCount : ℤ) (stored : CounterKind → ℕ → ℤ) : CounterKind → ℕ → ℤ :=
  if quota = 0 ∧ usedQuota = 0 ∧ requestCount = 0 then stored
  else increment o .requestCount id requestCount
    (increment o .usedQuota id usedQuota (increment o .userQuota id quota stored))

def addNewRecord (s : BatchState) (t : CounterKind) (id : ℕ) (value : ℤ) : BatchState :=
  { s with pending := Function.update s.pending t (addTo (s.pending t) id value) }

/-- A pass begins: `batchUpdate` with its lock. -/
def Flush.begin : Flush := ⟨.check CounterKind.all, fun _ => Table.empty⟩

def runScheduledBatchUpdate (s : BatchState) : BatchState :=
  match s.runner with
  | some _ => s
  | none => if s.stopped then s else { s with runner := some Flush.begin }

/-- The once-only call; it waits for the lock like the scheduled pass. -/
def flushBatchUpdateOnShutdown (s : BatchState) : BatchState :=
  match s.runner with
  | some _ => s
  | none => if s.stopped then s else { s with stopped := true, runner := some Flush.begin }

/-- The pass goes on with `phase`. -/
def BatchState.enter (s : BatchState) (f : Flush) (phase : Phase) : BatchState :=
  { s with runner := some { f with phase := phase } }

/-- The next step of a pass that writes nothing: it looks at a map, swaps one out, or leaves a
range. -/
def advance (s : BatchState) (f : Flush) : BatchState :=
  match f.phase with
  | .check [] => { s with runner := none }
  | .check (t :: rest) =>
    if (s.pending t).rows = [] then s.enter f (.check rest) else s.enter f (.swap CounterKind.all)
  | .swap [] => s.enter f .tokens
  | .swap (t :: rest) =>
    { s with
      pending := Function.update s.pending t Table.empty
      runner := some ⟨.swap rest, Function.update f.held t (s.pending t)⟩ }
  | .tokens => if (f.held .tokenQuota).rows = [] then s.enter f .channels else s
  | .channels => if (f.held .channelUsedQuota).rows = [] then s.enter f .tenants else s
  | .tenants => if (f.held .tenantUsedQuota).rows = [] then s.enter f .users else s
  | .users =>
    if (f.held .userQuota).rows = [] ∧ (f.held .usedQuota).rows = [] ∧
      (f.held .requestCount).rows = [] then { s with runner := none } else s

def Phase.writes : Phase → List CounterKind
  | .check _ => []
  | .swap _ => []
  | .tokens => [.tokenQuota]
  | .channels => [.channelUsedQuota]
  | .tenants => [.tenantUsedQuota]
  | .users => [.userQuota, .usedQuota, .requestCount]

/-- The statement of a pass for the key `id`. -/
def statement (f : Flush) (id : ℕ) (o : Outcome) (stored : CounterKind → ℕ → ℤ) :
    CounterKind → ℕ → ℤ :=
  match f.phase with
  | .check _ => stored
  | .swap _ => stored
  | .tokens => increaseTokenQuota o id (amount (f.held .tokenQuota) id) stored
  | .channels => updateChannelUsedQuota o id (amount (f.held .channelUsedQuota) id) stored
  | .tenants => increaseTenantUsedQuota o id (amount (f.held .tenantUsedQuota) id) stored
  | .users =>
    updateUserQuotaUsedQuotaAndRequestCount o id (amount (f.held .userQuota) id)
      (amount (f.held .usedQuota) id) (amount (f.held .requestCount) id) stored

/-- The range visits `id`, in any order, and is done with it whatever the statement gave. -/
def writeNext (s : BatchState) (f : Flush) (id : ℕ) (o : Outcome) : BatchState :=
  { s with
    stored := statement f id o s.stored
    runner := some ⟨f.phase, fun t =>
      if t ∈ f.phase.writes then dropKey (f.held t) id else f.held t⟩ }

inductive BatchEvent
  | add (t : CounterKind) (id : ℕ) (value : ℤ)
  | tick
  | shutdown
  | advance
  | write (id : ℕ) (o : Outcome)
  deriving DecidableEq

def BatchState.step (s : BatchState) : BatchEvent → BatchState
  | .add t id value => addNewRecord s t id value
  | .tick => runScheduledBatchUpdate s
  | .shutdown => flushBatchUpdateOnShutdown s
  | .advance => s.runner.elim s (advance s)
  | .write id o => s.runner.elim s fun f => writeNext s f id o

def BatchState.run (s : BatchState) (events : List BatchEvent) : BatchState :=
  events.foldl BatchState.step s

def BatchState.start (stored : CounterKind → ℕ → ℤ) : BatchState :=
  ⟨stored, fun _ => Table.empty, none, false⟩

/-! ### The balance -/

def BatchState.heldAmount (s : BatchState) (t : CounterKind) (id : ℕ) : ℤ :=
  s.runner.elim 0 fun f => amount (f.held t) id

def BatchState.total (s : BatchState) (t : CounterKind) (id : ℕ) : ℤ :=
  s.stored t id + amount (s.pending t) id + s.heldAmount t id

def BatchEvent.delta (t : CounterKind) (id : ℕ) : BatchEvent → ℤ
  | .add t' id' value => if t = t' ∧ id = id' then value else 0
  | _ => 0

def added (t : CounterKind) (id : ℕ) (events : List BatchEvent) : ℤ :=
  (events.map (BatchEvent.delta t id)).sum

/-- What a step loses: the values of a statement that wrote no row. -/
def lost (s : BatchState) (t : CounterKind) (id : ℕ) : BatchEvent → ℤ
  | .write i o =>
    if o ≠ .applied ∧ id = i then
      s.runner.elim 0 fun f => if t ∈ f.phase.writes then amount (f.held t) id else 0
    else 0
  | _ => 0

/-- The kinds of which a pass in this phase holds nothing: not swapped out yet, or written. -/
def Phase.cleared : Phase → List CounterKind
  | .check _ => CounterKind.all
  | .swap rest => rest
  | .tokens => []
  | .channels => [.tokenQuota]
  | .tenants => [.tokenQuota, .channelUsedQuota]
  | .users => [.tokenQuota, .channelUsedQuota, .tenantUsedQuota]

/-- The kinds that a pass in this phase still has to look at or to swap out. -/
def Phase.left : Phase → List CounterKind
  | .check rest => rest
  | .swap rest => rest
  | _ => []

/-- What is cleared is empty, and no map is swapped out twice. -/
structure Flush.Regular (f : Flush) : Prop where
  cleared : ∀ t ∈ f.phase.cleared, (f.held t).rows = []
  nodup : ∀ rest, f.phase = .swap rest → rest.Nodup

def BatchState.Regular (s : BatchState) : Prop := ∀ f, s.runner = some f → f.Regular

theorem amount_of_rows_nil {m : Store} (h : m.rows = []) (id : ℕ) : amount m id = 0 := by
  have hempty : m = Table.empty := Table.ext h
  rw [hempty, amount_empty]

theorem increment_apply (o : Outcome) (t : CounterKind) (i : ℕ) (value : ℤ)
    (stored : CounterKind → ℕ → ℤ) (t' : CounterKind) (id : ℕ) :
    increment o t i value stored t' id =
      stored t' id + if o = .applied ∧ t' = t ∧ id = i then value else 0 := rfl

/-- What a statement adds to each counter. -/
theorem statement_apply (f : Flush) (i : ℕ) (o : Outcome) (stored : CounterKind → ℕ → ℤ)
    (t : CounterKind) (id : ℕ) :
    statement f i o stored t id = stored t id +
      if o = .applied ∧ t ∈ f.phase.writes ∧ id = i then amount (f.held t) id else 0 := by
  unfold statement
  cases f.phase with
  | check | swap => simp [Phase.writes]
  | tokens | channels | tenants =>
    simp only [increaseTokenQuota, updateChannelUsedQuota, increaseTenantUsedQuota, increment_apply,
      Phase.writes]
    split <;> simp_all
  | users =>
    simp only [updateUserQuotaUsedQuotaAndRequestCount]
    split
    · rename_i hzero
      cases t <;> simp_all [Phase.writes]
    · simp only [increment_apply]
      cases t <;> simp [Phase.writes] <;> grind

/-- **Between two statements** a pass does nothing, ends, enters a phase, or swaps a map out. -/
theorem advance_cases (s : BatchState) (f : Flush) :
    advance s f = s ∨
    (advance s f = { s with runner := none } ∧ f.phase.left = [] ∧
      ∀ t, t ∈ f.phase.cleared ∨ (f.held t).rows = []) ∨
    (∃ phase, advance s f = s.enter f phase ∧
      (∀ t ∈ phase.cleared, t ∈ f.phase.cleared ∨ (f.held t).rows = []) ∧
      (∀ rest, phase = .swap rest → rest.Nodup) ∧
      ∀ t ∈ f.phase.left, t ∈ phase.left ∨ (s.pending t).rows = []) ∨
    ∃ t rest, f.phase = .swap (t :: rest) ∧
      advance s f = { s with
        pending := Function.update s.pending t Table.empty
        runner := some ⟨.swap rest, Function.update f.held t (s.pending t)⟩ } := by
  unfold advance
  cases hphase : f.phase with
  | check rest =>
    cases rest with
    | nil => exact .inr (.inl ⟨rfl, rfl, fun t => .inl t.mem_all⟩)
    | cons t rest =>
      refine .inr (.inr (.inl ?_))
      by_cases hrows : (s.pending t).rows = []
      · refine ⟨.check rest, if_pos hrows, fun t' ht' => .inl ht', nofun, fun t' ht' => ?_⟩
        rcases mem_cons.mp ht' with rfl | htail
        · exact .inr hrows
        · exact .inl htail
      · refine ⟨.swap CounterKind.all, if_neg hrows, fun t' ht' => .inl ht', fun rest' he => ?_,
          fun t' _ => .inl t'.mem_all⟩
        cases he
        decide
  | swap rest =>
    cases rest with
    | nil => exact .inr (.inr (.inl ⟨.tokens, rfl, nofun, nofun, nofun⟩))
    | cons t rest => exact .inr (.inr (.inr ⟨t, rest, rfl, rfl⟩))
  | tokens | channels | tenants =>
    dsimp only
    split
    · rename_i hrows
      exact .inr (.inr (.inl ⟨_, rfl, by simp [Phase.cleared, hrows], nofun, nofun⟩))
    · exact .inl rfl
  | users =>
    by_cases hrows : (f.held .userQuota).rows = [] ∧ (f.held .usedQuota).rows = [] ∧
        (f.held .requestCount).rows = []
    · refine .inr (.inl ⟨if_pos hrows, rfl, ?_⟩)
      intro t
      cases t with
      | userQuota => exact .inr hrows.1
      | usedQuota => exact .inr hrows.2.1
      | requestCount => exact .inr hrows.2.2
      | tokenQuota | channelUsedQuota | tenantUsedQuota => exact .inl (by decide)
    · exact .inl (if_neg hrows)

theorem Flush.regular_begin : Flush.begin.Regular := ⟨fun _ _ => rfl, nofun⟩

variable {s : BatchState} {f : Flush}

/-- **What an event can lead to**: nothing, an addition, a new pass, or a step of the running one. -/
theorem step_induction {P : BatchState → Prop} (e : BatchEvent)
    (hsame : (∀ t id value, e ≠ .add t id value) → (∀ id o, e = .write id o → s.runner = none) → P s)
    (hadd : ∀ t id value, e = .add t id value → P (addNewRecord s t id value))
    (hbegin : (∀ t id, e.delta t id = 0 ∧ lost s t id e = 0) → s.runner = none →
      s.stopped = false → ∀ stopped, P { s with stopped := stopped, runner := some Flush.begin })
    (hadvance : ∀ f, s.runner = some f → e = .advance → P (advance s f))
    (hwrite : ∀ f id o, s.runner = some f → e = .write id o → P (writeNext s f id o)) :
    P (s.step e) := by
  unfold step
  cases e with
  | add t id value => exact hadd t id value rfl
  | tick =>
    dsimp only [runScheduledBatchUpdate]
    split
    · exact hsame nofun nofun
    split
    · exact hsame nofun nofun
    · exact hbegin (fun _ _ => ⟨rfl, rfl⟩) ‹_› (by simp_all) s.stopped
  | shutdown =>
    dsimp only [flushBatchUpdateOnShutdown]
    split
    · exact hsame nofun nofun
    split
    · exact hsame nofun nofun
    · exact hbegin (fun _ _ => ⟨rfl, rfl⟩) ‹_› (by simp_all) true
  | advance =>
    cases hs : s.runner with
    | none => exact hsame nofun nofun
    | some f => exact hadvance f hs rfl
  | write id o =>
    cases hs : s.runner with
    | none => exact hsame nofun fun _ _ _ => hs
    | some f => exact hwrite f id o hs rfl

theorem Regular.advance (h : s.Regular) (hf : f.Regular) : (advance s f).Regular := by
  have hempty : ∀ t, t ∈ f.phase.cleared ∨ (f.held t).rows = [] → (f.held t).rows = [] := by
    rintro t (ht | ht)
    · exact hf.cleared t ht
    · exact ht
  obtain he | ⟨he, -, -⟩ | ⟨phase, he, hcleared, hnodup, -⟩ | ⟨t, rest, hphase, he⟩ :=
    advance_cases s f
  · rw [he]
    exact h
  · rw [he]
    intro g hg
    cases hg
  · rw [he]
    intro g hg
    cases hg
    exact ⟨fun t ht => hempty t (hcleared t ht), hnodup⟩
  rw [he]
  intro g hg
  cases hg
  obtain ⟨hnot, hrest⟩ := nodup_cons.mp (hf.nodup _ hphase)
  refine ⟨?_, ?_⟩
  · intro t' ht'
    have hne : t' ≠ t := fun heq => hnot (heq ▸ ht')
    show (update f.held t (s.pending t) t').rows = []
    rw [update_of_ne hne]
    apply hf.cleared
    rw [hphase]
    exact mem_cons_of_mem _ ht'
  · intro rest' he'
    cases he'
    exact hrest

theorem rows_dropKey_nil {m : Store} (h : m.rows = []) (id : ℕ) : (dropKey m id).rows = [] := by
  have hempty : m = Table.empty := Table.ext h
  rw [hempty]
  rfl

theorem Regular.write (hf : f.Regular) (id : ℕ) (o : Outcome) : (writeNext s f id o).Regular := by
  intro g hg
  cases hg
  refine ⟨?_, hf.nodup⟩
  intro t ht
  have hrows := hf.cleared t ht
  show (if t ∈ f.phase.writes then dropKey (f.held t) id else f.held t).rows = []
  split
  · exact rows_dropKey_nil hrows id
  · exact hrows

theorem Regular.step (h : s.Regular) (e : BatchEvent) : (s.step e).Regular := by
  refine step_induction e (fun _ _ => h) (fun _ _ _ _ => h) (fun _ _ _ _ f hf => ?_)
    (fun f hs _ => Regular.advance h (h f hs)) fun f id o hs _ => Regular.write (h f hs) id o
  cases hf
  exact Flush.regular_begin

theorem total_advance (hs : s.runner = some f) (hf : f.Regular) (t : CounterKind) (id : ℕ) :
    (advance s f).total t id = s.total t id := by
  have htotal : s.total t id = s.stored t id + amount (s.pending t) id + amount (f.held t) id := by
    simp only [total, heldAmount, hs, elim_some]
  rw [htotal]
  obtain he | ⟨he, -, hall⟩ | ⟨phase, he, -⟩ | ⟨t', rest, hphase, he⟩ := advance_cases s f
  · rw [he, htotal]
  · have hzero : amount (f.held t) id = 0 := by
      rcases hall t with ht | ht
      · exact amount_of_rows_nil (hf.cleared t ht) id
      · exact amount_of_rows_nil ht id
    rw [he, hzero]
    rfl
  · rw [he]
    rfl
  rw [he]
  simp only [total, heldAmount, elim_some]
  by_cases ht : t = t'
  · -- What was pending of this kind is now held, and nothing of it was held before.
    subst ht
    have hzero : amount (f.held t) id = 0 := by
      refine amount_of_rows_nil (hf.cleared t ?_) id
      rw [hphase]
      exact mem_cons_self
    rw [update_self, update_self, amount_empty, hzero]
    omega
  · rw [update_of_ne ht, update_of_ne ht]

theorem total_write (hs : s.runner = some f) (i : ℕ) (o : Outcome) (t : CounterKind) (id : ℕ) :
    (writeNext s f i o).total t id + lost s t id (.write i o) = s.total t id := by
  simp only [writeNext, total, heldAmount, lost, hs, elim_some,
    statement_apply]
  by_cases ht : t ∈ f.phase.writes
  · simp only [ht, true_and, if_true, amount_dropKey]
    by_cases hid : id = i
    · by_cases ho : o = .applied
      · simp only [hid, ho, and_self, if_true, not_true_eq_false, ne_eq, false_and, if_false]
        omega
      · simp only [hid, ho, false_and, if_false, if_true, ne_eq, not_false_eq_true, and_self]
        omega
    · simp only [hid, and_false, if_false]
      omega
  · simp only [ht, false_and, and_false, if_false, ite_self]
    omega

/-- **The balance of one step.** -/
theorem total_step (h : s.Regular) (e : BatchEvent) (t : CounterKind) (id : ℕ) :
    (s.step e).total t id + lost s t id e = s.total t id + e.delta t id := by
  refine step_induction (P := fun s' => s'.total t id + lost s t id e = s.total t id + e.delta t id) e
    (fun hadd hwrite => ?_) (fun t' i value he => ?_) (fun hzero hnone _ stopped => ?_)
    (fun f hs he => ?_) fun f i o hs he => ?_
  · cases e with
    | add t' i value => exact absurd rfl (hadd t' i value)
    | write i o => simp [lost, hwrite i o rfl, BatchEvent.delta]
    | tick | shutdown | advance => rfl
  · subst he
    simp only [addNewRecord, total, heldAmount, lost, BatchEvent.delta]
    by_cases ht : t = t'
    · subst ht
      rw [update_self, amount_addTo]
      simp only [true_and]
      omega
    · rw [update_of_ne ht, if_neg (fun hc => ht hc.1)]
  · rw [(hzero t id).1, (hzero t id).2]
    simp [total, heldAmount, hnone, Flush.begin]
  · subst he
    rw [total_advance hs (h f hs)]
    rfl
  · subst he
    simp [total_write hs, BatchEvent.delta]

/-! ### Runs -/

/-- A step loses nothing: the statement writes its row, or has nothing to write. -/
def Kept (s : BatchState) : BatchEvent → Prop
  | .write id o => o = .applied ∨
      ∀ f ∈ s.runner, ∀ t ∈ f.phase.writes, amount (f.held t) id = 0
  | _ => True

instance (s : BatchState) (e : BatchEvent) : Decidable (Kept s e) := by
  cases e <;> unfold Kept <;> infer_instance

theorem kept_iff (s : BatchState) (e : BatchEvent) :
    Kept s e ↔ ∀ t id, lost s t id e = 0 := by
  cases e with
  | write i o =>
    simp only [Kept, lost]
    cases hs : s.runner with
    | none => simp
    | some f =>
      simp only [mem_some_iff, forall_eq']
      constructor
      · rintro (ho | hzero) t id
        · simp [ho]
        by_cases hid : id = i
        · subst hid
          by_cases ht : t ∈ f.phase.writes
          · simp [hzero t ht]
          · simp [ht]
        · simp [hid]
      · intro hlost
        by_cases ho : o = .applied
        · exact .inl ho
        · right
          intro t ht
          simpa [ho, ht] using hlost t i
  | _ => simp [Kept, lost]

/-- Every step of a run keeps what it handles. -/
def AllKept : BatchState → List BatchEvent → Prop
  | _, [] => True
  | s, e :: events => Kept s e ∧ AllKept (s.step e) events

instance : ∀ (events : List BatchEvent) (s : BatchState), Decidable (AllKept s events)
  | [], _ => isTrue trivial
  | e :: events, s =>
    have := instDecidableAllKept events (s.step e)
    inferInstanceAs (Decidable (Kept s e ∧ AllKept (s.step e) events))

theorem added_cons (t : CounterKind) (id : ℕ) (e : BatchEvent) (events : List BatchEvent) :
    added t id (e :: events) = e.delta t id + added t id events := by
  simp [added]

/-- The balance holds after every part of a run exactly when every step keeps it. -/
theorem balanced_iff_allKept (events : List BatchEvent) :
    ∀ {s : BatchState}, s.Regular →
      ((∀ done, done <+: events → ∀ t id,
        (s.run done).total t id = s.total t id + added t id done) ↔ AllKept s events) := by
  induction events with
  | nil =>
    intro s _
    refine ⟨fun _ => trivial, ?_⟩
    intro _ done hdone t id
    rw [prefix_nil.mp hdone]
    simp [run, added]
  | cons e events ih =>
    intro s h
    have hrest := ih (Regular.step h e)
    have hone : ∀ t id, (s.run [e]).total t id + lost s t id e = s.total t id + e.delta t id :=
      fun t id => total_step h e t id
    constructor
    · intro hall
      have hkept : Kept s e := by
        rw [kept_iff]
        intro t id
        have hbalance := hall [e] ⟨events, rfl⟩ t id
        have hstep := hone t id
        simp only [added, map_cons, map_nil, sum_cons, sum_nil] at hbalance
        omega
      refine ⟨hkept, hrest.mp ?_⟩
      intro done hdone t id
      have hbalance := hall (e :: done) (cons_prefix_cons.mpr ⟨rfl, hdone⟩) t id
      have hstep := total_step h e t id
      rw [(kept_iff s e).mp hkept t id, add_zero] at hstep
      rw [added_cons] at hbalance
      show (s.run (e :: done)).total t id = _
      omega
    · rintro ⟨hkept, hkeep⟩ done hdone t id
      cases done with
      | nil => simp [run, added]
      | cons e' done =>
        obtain ⟨rfl, htail⟩ := cons_prefix_cons.mp hdone
        have hbalance := hrest.mpr hkeep done htail t id
        have hstep := total_step h e' t id
        rw [(kept_iff s e').mp hkept t id, add_zero] at hstep
        rw [added_cons]
        show ((s.step e').run done).total t id = _
        omega

/-! ### The flush at shutdown -/

/-- No further pass begins, and the running one still has to look at every map with an entry. -/
structure Draining (s : BatchState) : Prop where
  stopped : s.stopped = true
  left : ∀ t, t ∈ s.runner.elim [] (fun f => f.phase.left) ∨ (s.pending t).rows = []

def BatchEvent.isAdd : BatchEvent → Bool
  | .add _ _ _ => true
  | _ => false

theorem Draining.step (h : Draining s) {e : BatchEvent} (he : e.isAdd = false) :
    Draining (s.step e) := by
  refine step_induction e (fun _ _ => h) (fun _ _ _ hadd => ?_) (fun _ _ hrunning _ => ?_)
    (fun f hs _ => ?_) fun f id o hs _ => ?_
  · subst hadd
    cases he
  · rw [h.stopped] at hrunning
    cases hrunning
  · have hleft := h.left
    simp only [hs, elim_some] at hleft
    obtain hsame | ⟨hend, hnil, -⟩ | ⟨phase, henter, -, -, hnext⟩ | ⟨t', rest, hphase, hswap⟩ :=
      advance_cases s f
    · rw [hsame]
      exact h
    · rw [hend]
      refine ⟨h.stopped, fun t => .inr ((hleft t).resolve_left fun ht => ?_)⟩
      rw [hnil] at ht
      cases ht
    · rw [henter]
      exact ⟨h.stopped, fun t => (hleft t).elim (hnext t) .inr⟩
    rw [hswap]
    refine ⟨h.stopped, fun t => ?_⟩
    by_cases heq : t = t'
    · subst heq
      right
      show (update s.pending t Table.empty t).rows = []
      rw [update_self]
      rfl
    rcases hleft t with ht | ht
    · rw [hphase] at ht
      exact .inl ((mem_cons.mp ht).resolve_left heq)
    right
    show (update s.pending t' Table.empty t).rows = []
    rw [update_of_ne heq]
    exact ht
  · have hleft := h.left
    rw [hs] at hleft
    exact ⟨h.stopped, hleft⟩

theorem Draining.run (events : List BatchEvent) :
    ∀ {s : BatchState}, Draining s → (∀ e ∈ events, e.isAdd = false) → Draining (s.run events) := by
  induction events with
  | nil =>
    intro s h _
    exact h
  | cons e events ih =>
    intro s h hadds
    exact ih (h.step (hadds e mem_cons_self))
      (fun e' he' => hadds e' (mem_cons_of_mem _ he'))

theorem Draining.begin (hrunner : s.runner = none) (hstopped : s.stopped = false) :
    Draining (s.step .shutdown) := by
  show Draining (flushBatchUpdateOnShutdown s)
  unfold flushBatchUpdateOnShutdown
  rw [hrunner]
  simp only [hstopped]
  exact ⟨rfl, fun t => .inl t.mem_all⟩

/-! ### No lost charge -/

/-- **No batched charge is lost**, all along a run, exactly when every statement that has something
to write writes its row; and a finished flush at shutdown leaves nothing pending. -/
theorem no_batched_charge_lost (stored : CounterKind → ℕ → ℤ) (events : List BatchEvent) :
    ((∀ done, done <+: events → ∀ t id,
        let s := (BatchState.start stored).run done
        s.stored t id + amount (s.pending t) id + s.heldAmount t id =
          stored t id + added t id done) ↔
      AllKept (BatchState.start stored) events) ∧
    ∀ before later, events = before ++ .shutdown :: later →
      ((BatchState.start stored).run before).runner = none →
      ((BatchState.start stored).run before).stopped = false →
      (∀ e ∈ later, e.isAdd = false) →
      ((BatchState.start stored).run events).runner = none →
      ∀ t, (((BatchState.start stored).run events).pending t).rows = [] := by
  have hstart : (start stored).Regular := by
    intro f hf
    cases hf
  constructor
  · have hbalance := balanced_iff_allKept events hstart
    have htotal : ∀ t id, (start stored).total t id = stored t id := by
      simp [total, heldAmount, start]
    simp only [htotal] at hbalance
    exact hbalance
  intro before later hevents hrunner hstopped hadds hend t
  have hrun : (start stored).run events =
      ((((start stored).run before).step .shutdown).run later) := by
    rw [hevents]
    simp [run]
  rw [hrun] at hend ⊢
  have hdrain := (Draining.begin hrunner hstopped).run later hadds
  rcases hdrain.left t with ht | ht
  · rw [hend] at ht
    cases ht
  · exact ht

def passToUsers : List BatchEvent := List.replicate 11 .advance

/-- A charge is added, swapped out and written; another one is written by the flush at
shutdown. -/
def chargeAndTick : List BatchEvent :=
  [.add .userQuota 1 (-5), .tick] ++ passToUsers ++ [.write 1 .applied, .advance,
    .add .userQuota 1 (-2)]

def flushAtShutdown : List BatchEvent := passToUsers ++ [.write 1 .applied, .advance]

theorem no_batched_charge_lost_flushed :
    let s := (start fun _ _ => 100).run (chargeAndTick ++ .shutdown :: flushAtShutdown)
    s.stored .userQuota 1 + amount (s.pending .userQuota) 1 + s.heldAmount .userQuota 1 =
      100 + added .userQuota 1 (chargeAndTick ++ .shutdown :: flushAtShutdown) ∧
    (s.pending .userQuota).rows = [] := by
  have hkept : AllKept (start fun _ _ => 100)
      (chargeAndTick ++ .shutdown :: flushAtShutdown) := by decide +kernel
  have h := no_batched_charge_lost (fun _ _ => 100) (chargeAndTick ++ .shutdown :: flushAtShutdown)
  exact ⟨h.1.mpr hkept _ (prefix_refl _) .userQuota 1,
    h.2 chargeAndTick flushAtShutdown rfl (by decide +kernel) (by decide +kernel)
      (by decide +kernel) (by decide +kernel) .userQuota⟩

/-- The statement for a user's row fails: the charge is nowhere any more. -/
theorem failed_statement_loses_charge :
    let events := [.add .userQuota 1 (-5), .tick] ++ passToUsers ++ [.write 1 .failed]
    let s := (start fun _ _ => 100).run events
    s.stored .userQuota 1 + amount (s.pending .userQuota) 1 + s.heldAmount .userQuota 1 = 100 ∧
      100 + added .userQuota 1 events = 95 := by
  decide +kernel

end UnifyConsole.Billing.Batch
