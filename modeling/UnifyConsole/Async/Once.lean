import UnifyConsole.Async.Ending

/-!
# The billing of a task settles once

Any number of sweeps, bulk failures, pollers and passes work on the same rows, and
each of their database calls is one step.  A task is won by the guarded write that
ends it, and only whoever has won it adjusts its funding, so in every interleaving
the calls that have won a task and the adjustments of its funding are together at
most one, and none while the task is open (`Settling`).  What a wallet has lost by
then is what the adjustments charge to its tasks.

That the rows stay fit to be read is a condition on the run: an answer that takes a
task back after having ended it lets somebody else win it again, and two tasks with
one upstream id are one task in memory, which is then billed for each of them.
-/

namespace UnifyConsole.Async

open Lib Account Credit
open Pool List TaskTerms

variable {R : Type}

/-! ### Adjustments -/

def TaskDb.adjustments (db : TaskDb R) (i : Int) : List Adjustment :=
  (db.attempts.filter fun a => a.accepted && decide (a.taskId = i)).map Attempt.adjustment

/-- What a task that was submitted as `t` has been charged. -/
def TaskDb.charged (db : TaskDb R) (t : Task R) : Int :=
  t.quota + ((db.adjustments t.id).map Adjustment.delta).sum

/-- What the tasks of `db₀` that are paid from a wallet have been charged over their quota. -/
def TaskDb.spent (db₀ s : TaskDb R) (w : Wallet) : Int :=
  db₀.tasks.sum fun t => if db₀.fundingOf t = some (.wallet w) then s.charged t - t.quota else 0

variable {s s' : TaskDb R}

theorem adjustments_congr (h : s'.attempts = s.attempts) (i : Int) :
    s'.adjustments i = s.adjustments i := by
  unfold TaskDb.adjustments
  rw [h]

variable {i : Int}

theorem adjustments_attempt {a : Adjustment} {accepted : Bool}
    (h : s'.attempts = s.attempts ++ [⟨i, a, accepted⟩]) (j : Int) :
    s'.adjustments j = s.adjustments j ++ if accepted = true ∧ i = j then [a] else [] := by
  unfold TaskDb.adjustments
  rw [h, filter_append, map_append]
  by_cases hc : accepted = true ∧ i = j
  · simp [hc.1, hc.2]
  · rw [if_neg hc, filter_cons_of_neg]
    · rfl
    · simpa using hc

variable {t t₀ : Task R} {db₀ : TaskDb R}

theorem charged_congr (h : s'.attempts = s.attempts) (t : Task R) : s'.charged t = s.charged t := by
  unfold TaskDb.charged
  rw [adjustments_congr h]

theorem charged_attempt {a : Adjustment} {accepted : Bool}
    (h : s'.attempts = s.attempts ++ [⟨i, a, accepted⟩]) (t : Task R) :
    s'.charged t = s.charged t + if accepted = true ∧ i = t.id then a.delta else 0 := by
  unfold TaskDb.charged
  rw [adjustments_attempt h, map_append, sum_append, add_assoc]
  congr 2
  split <;> simp

/-- An adjustment is charged to the wallet of its task. -/
theorem spent_attempt {a : Adjustment} {accepted : Bool} (ht₀ : t₀ ∈ db₀.tasks.rows)
    (h : s'.attempts = s.attempts ++ [⟨t₀.id, a, accepted⟩]) (w : Wallet) :
    TaskDb.spent db₀ s' w = TaskDb.spent db₀ s w +
      if accepted = true ∧ db₀.fundingOf t₀ = some (.wallet w) then a.delta else 0 := by
  unfold TaskDb.spent
  rw [Table.sum_eq_of_find? (Table.find?_eq_some_iff.mpr ⟨ht₀, rfl⟩) (g := fun t =>
    if db₀.fundingOf t = some (.wallet w) then s.charged t - t.quota else 0)]
  · rw [charged_attempt h]
    by_cases hw : db₀.fundingOf t₀ = some (.wallet w)
    · simp only [hw, and_true, if_true]
      omega
    · simp only [hw, and_false, if_false]
      omega
  · intro t ht hne
    have hid : t₀.id ≠ t.id := fun he => hne (db₀.tasks.eq_of_key_eq ht ht₀ he.symm)
    have hsame : s'.charged t = s.charged t := by
      rw [charged_attempt h, if_neg (fun hc => hid hc.2), add_zero]
    rw [hsame]

/-! ### What holds between two steps -/

def TaskDb.termsOf (db : TaskDb R) (i : Int) : TaskTerms :=
  ((db.tasks.find? i).map Task.terms).getD ⟨.suno, "", 0, 0, none, 0, 0⟩

variable {db : TaskDb R}

theorem termsOf_id (ht : t ∈ db.tasks.rows) : db.termsOf t.id = t.terms := by
  rw [TaskDb.termsOf, Table.find?_eq_some_iff.mpr ⟨ht, rfl⟩]
  rfl

def wins (i : Int) (gs : List (TaskCall R × Note)) : Nat :=
  gs.countP fun x => decide (x.2 = .won i)

theorem wins_cons (i : Int) (x : TaskCall R × Note) (gs : List (TaskCall R × Note)) :
    wins i (x :: gs) = wins i gs + if x.2 = .won i then 1 else 0 := by
  simp [wins, countP_cons]

theorem wins_middle (i : Int) (pre post : List (TaskCall R × Note)) (c : TaskCall R) (g : Note) :
    wins i (pre ++ (c, g) :: post) =
      wins i (pre ++ post) + if g = .won i then 1 else 0 := by
  simp [wins, countP_cons, Nat.add_assoc]

/-- The state and the notes of the calls in flight, in a run from `db₀`. -/
structure Settling (db₀ : TaskDb R) (gs : List (TaskCall R × Note)) (s : TaskDb R) : Prop where
  steady : ∀ x ∈ gs, x.2 ≠ .adrift
  priced : ∀ t ∈ s.tasks.rows, t.Priced db₀.termsOf
  kept : ∀ i, s.Open i → db₀.Open i
  once : ∀ i, wins i gs + (s.adjustments i).length ≤ 1
  opened : ∀ i, s.Open i → wins i gs + (s.adjustments i).length = 0
  billed : ∀ x ∈ gs, ∀ i, x.2 = .billed i → ¬ s.Open i
  fair : ∀ i, ∀ a ∈ s.adjustments i, a.Fair db₀.termsOf i
  known : ∀ x ∈ gs, ∀ i, x.2 = .won i → ∃ t ∈ db₀.tasks.rows, t.id = i
  banked : Shifted (fun w => -db₀.spent s w) db₀.credit.store s.credit.store

theorem KeepsOpen.open_of_open {terms₀ : Int → TaskTerms} (h : KeepsOpen terms₀ s s')
    (ho : s'.Open i) : s.Open i := by
  obtain ⟨r', hr', hid, hnd⟩ := ho
  obtain ⟨r, hr, hid', hdone, -⟩ := h r' hr'
  refine ⟨r, hr, hid'.trans hid, ?_⟩
  by_contra hd
  rw [Bool.not_eq_false] at hd
  rw [hdone hd] at hnd
  cases hnd

theorem KeepsOpen.priced {terms₀ : Int → TaskTerms} (h : KeepsOpen terms₀ s s')
    (hs : ∀ t ∈ s.tasks.rows, t.Priced terms₀) : ∀ t ∈ s'.tasks.rows, t.Priced terms₀ := by
  intro r' hr' hnd
  obtain ⟨r, hr, hid, hdone, hquota⟩ := h r' hr'
  rcases hquota hnd with hq | hq
  · have hnd' : r.status.done = false := by
      by_contra hd
      rw [Bool.not_eq_false] at hd
      rw [hdone hd] at hnd
      cases hnd
    rw [hq, ← hid]
    exact hs r hr hnd'
  · exact hq

section Step

variable {db₀ s s' : TaskDb R} {pre post : List (TaskCall R × Note)} {c : TaskCall R}
  {g g' : Note}

/-- A step that opens no task, that adjusts nothing and that wins no open task. -/
theorem Settling.frame (h : Settling db₀ (pre ++ (c, g) :: post) s)
    (hpriced : ∀ t ∈ s'.tasks.rows, t.Priced db₀.termsOf) (hopen : ∀ i, s'.Open i → s.Open i)
    (hunpaid : Unpaid s s') (hsteady : g' ≠ .adrift)
    (hbilled : ∀ i, g' = .billed i → ¬ s'.Open i)
    (hwon : ∀ i, g' = .won i → g = .won i ∨ s.Open i ∧ ¬ s'.Open i) :
    Settling db₀ (pre ++ (c, g') :: post) s' := by
  have hattempts := hunpaid.attempts
  have hrest : ∀ i, wins i (pre ++ post) + (s.adjustments i).length ≤ 1 := by
    intro i
    have := h.once i
    rw [wins_middle] at this
    omega
  have hrestOpen : ∀ i, s.Open i → wins i (pre ++ post) + (s.adjustments i).length = 0 := by
    intro i hi
    have := h.opened i hi
    rw [wins_middle] at this
    omega
  refine ⟨forall_mem_replace h.steady (fun _ hx => hx) hsteady, hpriced,
    fun i hi => h.kept i (hopen i hi), fun i => ?_, fun i hi => ?_,
    forall_mem_replace h.billed (fun _ hx i hb ho => hx i hb (hopen i ho)) hbilled, fun i => ?_,
    forall_mem_replace h.known (fun _ hx => hx) (fun i hw => ?_), ?_⟩
  · rw [wins_middle, adjustments_congr hattempts]
    split
    · rename_i hw
      rcases hwon i hw with hg | ⟨ho, -⟩
      · have := h.once i
        rw [wins_middle, if_pos hg] at this
        omega
      · have := hrestOpen i ho
        omega
    · have := hrest i
      omega
  · rw [wins_middle, adjustments_congr hattempts]
    split
    · rename_i hw
      rcases hwon i hw with hg | ⟨-, hno⟩
      · have := h.opened i (hopen i hi)
        rw [wins_middle, if_pos hg] at this
        omega
      · exact absurd hi hno
    · have := hrestOpen i (hopen i hi)
      omega
  · rw [adjustments_congr hattempts]
    exact h.fair i
  · rcases hwon i hw with hg | ⟨ho, -⟩
    · exact h.known _ (mem_append_right _ mem_cons_self) i hg
    · obtain ⟨r, hr, hid, -⟩ := h.kept i ho
      exact ⟨r, hr, hid⟩
  · refine (h.banked.trans hunpaid.wallets).of_eq fun w => ?_
    rw [add_zero]
    unfold TaskDb.spent
    simp only [charged_congr hattempts]

theorem open_congr (h : s'.tasks = s.tasks) : s'.Open i ↔ s.Open i := by
  unfold TaskDb.Open
  rw [h]

/-- The wallets stay in step with an adjustment for a task that is paid as it was submitted. -/
theorem banked_pay {a : Adjustment} {accepted : Bool}
    (h : Shifted (fun w => -db₀.spent s w) db₀.credit.store s.credit.store)
    (hknown : ∃ t₀ ∈ db₀.tasks.rows, t₀.id = t.id) (hpayer : t.payer = (db₀.termsOf t.id).payer)
    (hpaid : Paid t a accepted s s') :
    Shifted (fun w => -db₀.spent s' w) db₀.credit.store s'.credit.store := by
  obtain ⟨t₀, ht₀, hid⟩ := hknown
  have hattempts := hpaid.attempts
  rw [← hid] at hpayer hattempts
  rw [termsOf_id ht₀] at hpayer
  have hfund : ∀ w, s.fundingOf t = some (.wallet w) ↔ db₀.fundingOf t₀ = some (.wallet w) := by
    intro w
    rw [fundingOf_wallet_congr (h.walletOf _), fundingOf_congr hpayer]
  refine (h.trans hpaid.wallets).of_eq fun w => ?_
  rw [spent_attempt ht₀ hattempts]
  simp only [hfund]
  split <;> omega

/-- Whoever has won the task adjusts its funding. -/
theorem Settling.pay {a : Adjustment} {accepted : Bool}
    (h : Settling db₀ (pre ++ (c, .won t.id) :: post) s) (hfair : a.Fair db₀.termsOf t.id)
    (hpayer : t.payer = (db₀.termsOf t.id).payer) (htasks : s'.tasks = s.tasks)
    (hpaid : Paid t a accepted s s') :
    Settling db₀ (pre ++ (c, if accepted then .billed t.id else .idle) :: post) s' := by
  have hbanked := banked_pay h.banked
    (h.known _ (mem_append_right _ mem_cons_self) _ rfl) hpayer hpaid
  obtain ⟨i, hi⟩ : ∃ i, i = t.id := ⟨_, rfl⟩
  have hattempts := hpaid.attempts
  rw [← hi] at h hfair hattempts ⊢
  have hnot : ¬ s.Open i := by
    intro ho
    have := h.opened i ho
    rw [wins_middle, if_pos rfl] at this
    omega
  have hwins : ∀ j, wins j (pre ++ (c, if accepted then Note.billed i else .idle) :: post) =
      wins j (pre ++ post) := by
    intro j
    rw [wins_middle, if_neg, Nat.add_zero]
    cases accepted <;> simp
  have hcount : ∀ j, wins j (pre ++ (c, if accepted then Note.billed i else .idle) :: post) +
      (s'.adjustments j).length ≤ wins j (pre ++ (c, .won i) :: post) +
        (s.adjustments j).length := by
    intro j
    rw [hwins, wins_middle, adjustments_attempt hattempts, length_append]
    by_cases hij : i = j
    · subst hij
      rw [if_pos rfl]
      split
      · rw [length_singleton]
        omega
      · rw [length_nil]
        omega
    · rw [if_neg (fun hc => hij hc.2), length_nil]
      omega
  have hopen : ∀ j, s'.Open j → s.Open j := fun j => (open_congr htasks).mp
  refine ⟨forall_mem_replace h.steady (fun _ hx => hx) (by cases accepted <;> simp),
    fun t ht => ?_, fun j hj => h.kept j (hopen j hj), fun j => (hcount j).trans (h.once j),
    fun j hj => ?_, forall_mem_replace h.billed (fun _ hx j hb ho => hx j hb (hopen j ho)) ?_,
    fun j a' ha' => ?_, forall_mem_replace h.known (fun _ hx => hx) (fun j hw => ?_), hbanked⟩
  · rw [htasks] at ht
    exact h.priced t ht
  · have := h.opened j (hopen j hj)
    have := hcount j
    omega
  · intro j hb ho
    cases accepted with
    | false => cases hb
    | true =>
      obtain rfl : i = j := by simpa using hb
      exact hnot (hopen i ho)
  · rw [adjustments_attempt hattempts] at ha'
    rcases mem_append.mp ha' with ha' | ha'
    · exact h.fair j a' ha'
    split at ha'
    · rename_i hc
      rw [mem_singleton.mp ha', ← hc.2]
      exact hfair
    · cases ha'
  · cases accepted with
    | false | true => cases hw

/-- Open tasks have the terms of open tasks of the start, so they are as distinct. -/
theorem Settling.distinct {gs : List (TaskCall R × Note)} (h : Settling db₀ gs s)
    (hd : db₀.Distinct) : s.Distinct := by
  intro t ht t' ht' hnd hnd' name hp hp' hu hne
  obtain ⟨r, hr, hid, hrnd⟩ := h.kept t.id ⟨t, ht, rfl, hnd⟩
  obtain ⟨r', hr', hid', hrnd'⟩ := h.kept t'.id ⟨t', ht', rfl, hnd'⟩
  have hterms : r.terms = t.terms := by
    rw [h.priced t ht hnd, ← hid, termsOf_id hr]
  have hterms' : r'.terms = t'.terms := by
    rw [h.priced t' ht' hnd', ← hid', termsOf_id hr']
  have hplatform : r.platform = t.platform := congrArg platform hterms
  have hplatform' : r'.platform = t'.platform := congrArg platform hterms'
  have hup : r.getUpstreamTaskId = t.getUpstreamTaskId := congrArg upstreamTaskId hterms
  have hup' : r'.getUpstreamTaskId = t'.getUpstreamTaskId :=
    congrArg upstreamTaskId hterms'
  have heq : r = r' := hd r hr r' hr' hrnd hrnd' name (hplatform.trans hp) (hplatform'.trans hp')
    (by rw [hup, hup', hu]) (by rw [hup]; exact hne)
  exact s.tasks.eq_of_key_eq ht ht' (by rw [← hid, ← hid', heq])

/-- **One step of one call** keeps what holds between two steps. -/
theorem Settling.step (h : Settling db₀ (pre ++ (c, g) :: post) s) (hd : db₀.Distinct)
    (hg : TaskMove db₀.termsOf g s g' s') : Settling db₀ (pre ++ (c, g') :: post) s' := by
  have hmid : (c, g) ∈ pre ++ (c, g) :: post := mem_append_right _ mem_cons_self
  cases hg with
  | adrift => exact absurd rfl (h.steady _ hmid)
  | stray hs => exact absurd ⟨h.priced, h.distinct hd⟩ hs
  | quiet htasks hunpaid =>
    refine h.frame (htasks ▸ h.priced) (fun i => (open_congr htasks).mp) hunpaid
      (h.steady _ hmid) (fun i hi => ?_) fun _ hw => .inl hw
    rw [open_congr htasks]
    exact h.billed _ hmid i hi
  | write hk hunpaid =>
    exact h.frame (hk.priced h.priced) (fun i => hk.open_of_open) hunpaid (by simp)
      nofun nofun
  | win hk hopen hended hunpaid =>
    refine h.frame (hk.priced h.priced) (fun i => hk.open_of_open) hunpaid (by simp)
      nofun fun i hi => ?_
    obtain rfl := Note.won.inj hi
    exact .inr ⟨hopen, hended⟩
  | pay hfair hpayer htasks hpaid => exact h.pay hfair hpayer htasks hpaid
  | @setQuota _ _ i hrows hunpaid =>
    have hopen : ∀ j, s'.Open j → s.Open j := by
      rintro j ⟨r', hr', hid, hnd⟩
      obtain ⟨r, hr, hid', hs, -⟩ := hrows r' hr'
      exact ⟨r, hr, hid'.trans hid, hs ▸ hnd⟩
    refine h.frame (fun r' hr' hnd => ?_) hopen hunpaid (by simp) nofun
      nofun
    have hne : r'.id ≠ i := by
      rintro rfl
      exact h.billed _ hmid _ rfl (hopen _ ⟨r', hr', rfl, hnd⟩)
    obtain ⟨r, hr, -, -, heq⟩ := hrows r' hr'
    rw [heq hne] at hnd ⊢
    exact h.priced r hr hnd

end Step

theorem Settling.call {db₀ : TaskDb R} {gs : List (TaskCall R × Note)} (h : Settling db₀ gs s)
    (c : TaskCall R) : Settling db₀ ((c, .idle) :: gs) s := by
  have hwins : ∀ i, wins i ((c, .idle) :: gs) = wins i gs := by
    intro i
    rw [wins_cons, if_neg (by simp), Nat.add_zero]
  refine ⟨fun x hx => ?_, h.priced, h.kept, fun i => ?_, fun i hi => ?_, fun x hx i hb => ?_,
    h.fair, fun x hx i hw => ?_, h.banked⟩
  · rcases mem_cons.mp hx with rfl | hx
    · simp
    · exact h.steady x hx
  · rw [hwins]
    exact h.once i
  · rw [hwins]
    exact h.opened i hi
  · rcases mem_cons.mp hx with rfl | hx
    · cases hb
    · exact h.billed x hx i hb
  · rcases mem_cons.mp hx with rfl | hx
    · cases hw
    · exact h.known x hx i hw

/-! ### Every interleaving -/

theorem settling_start (h : db.attempts = []) : Settling db [] db := by
  have hnone : ∀ i, db.adjustments i = [] := by
    simp [TaskDb.adjustments, h]
  refine ⟨fun x hx => ?_, fun t ht _ => (termsOf_id ht).symm, fun _ hi => hi, fun i => ?_,
    fun i _ => ?_, fun x hx => ?_, fun i a ha => ?_, fun x hx => ?_, ?_⟩
  · cases hx
  · simp [wins, hnone]
  · simp [wins, hnone]
  · cases hx
  · rw [hnone] at ha
    cases ha
  · cases hx
  · refine (Shifted.refl _).of_eq fun w => ?_
    simp [TaskDb.spent, TaskDb.charged, hnone, Table.sum]

section Priced

variable [Ratio R]

theorem settling_of_reach (hnew : db.attempts = []) (hd : db.Distinct)
    {p : Pool (TaskCall R) (TaskDb R) Unit}
    (hrun : Pool.ReachIf TaskCall.prog (fun c _ => c.Final) (Pool.start db) p) :
    ∃ gs, Settling db gs p.state := by
  have hcall : ∀ (c : TaskCall R) gs s, Settling db gs s →
      ∃ g, Prog.Follows (fun g s g' s' => c.Final → TaskMove db.termsOf g s g' s')
        (fun _ _ => True) g c.prog ∧ Settling db ((c, g) :: gs) s := by
    intro c gs s h
    refine ⟨.idle, ?_, h.call c⟩
    by_cases hc : c.Final
    · exact ((TaskCall.allowed hc .idle).weaken fun _ _ _ _ hm _ => hm).mono
        fun _ _ _ => trivial
    · exact Prog.follows_of_forall (fun _ _ hc' => absurd hc' hc) (fun _ => trivial) _
  obtain ⟨gs, -, hs⟩ := reach_annotated hcall
    (fun _ _ _ _ _ _ _ h hok hg => h.step hd (hg hok)) hrun
    ⟨[], Forall₂.nil, settling_start hnew⟩
  exact ⟨gs, hs⟩

/-- **The billing of a task settles at most once**, in every interleaving of any calls in which no
answer reopens a task and no two open video tasks share an upstream id. Every wallet has what it had
less what its tasks have been charged since. -/
theorem task_settles_once {db : TaskDb R} (hnew : db.attempts = []) (hd : db.Distinct)
    {p : Pool (TaskCall R) (TaskDb R) Unit}
    (hrun : Pool.ReachIf TaskCall.prog (fun c _ => c.Final) (Pool.start db) p) :
    (∀ t ∈ db.tasks.rows,
      (p.state.adjustments t.id = [] ∧ p.state.charged t = t.quota) ∨
      (p.state.adjustments t.id = [.refund t.quota] ∧ p.state.charged t = 0) ∨
      ∃ actual, 0 < actual ∧ p.state.adjustments t.id = [.recalculate actual t.quota] ∧
        p.state.charged t = actual) ∧
    ∀ w, (db.credit.store.quota? w).isSome = true →
      p.state.credit.store.balance w = db.credit.store.balance w -
        db.tasks.sum (fun t =>
          if db.fundingOf t = some (.wallet w) then p.state.charged t - t.quota else 0) := by
  obtain ⟨gs, hs⟩ := settling_of_reach hnew hd hrun
  refine ⟨fun t ht => ?_, hs.banked.balance⟩
  have hlen : (p.state.adjustments t.id).length ≤ 1 := by
    have := hs.once t.id
    omega
  have hfair := hs.fair t.id
  unfold TaskDb.charged
  cases hadj : p.state.adjustments t.id with
  | nil => exact .inl ⟨rfl, by simp⟩
  | cons a l =>
    rw [hadj, length_cons] at hlen
    obtain rfl : l = [] := length_eq_zero_iff.mp (by omega)
    have ha := hfair a (by rw [hadj]; exact mem_singleton_self a)
    refine .inr ?_
    cases a with
    | refund quota =>
      obtain rfl : quota = t.quota := ha.trans (congrArg TaskTerms.quota (termsOf_id ht))
      exact .inl ⟨rfl, by simp [Adjustment.delta]⟩
    | recalculate actual quota =>
      obtain rfl : quota = t.quota := ha.2.trans (congrArg TaskTerms.quota (termsOf_id ht))
      exact .inr ⟨actual, ha.1, rfl, by simp [Adjustment.delta]⟩

end Priced

def sunoStatusCall (statuses : List String) : TaskCall ℚ :=
  .suno (pollSetting [5]) 5
    (some (statuses.map fun status => ⟨"s", status, "", 0, 0, 0, "answer"⟩))

theorem distinct_pollDb (t : Task ℚ) : (pollDb t).Distinct := by
  intro r hr r' hr' _ _ _ _ _ _ _
  rw [mem_singleton.mp hr, mem_singleton.mp hr']

theorem task_settles_once_refund :
    ∃ p, Pool.ReachIf TaskCall.prog (fun c _ => c.Final)
        (Pool.start (pollDb (runningTask .suno "s"))) p ∧
      p.state.adjustments 1 = [.refund 100] ∧ p.state.credit.store.balance (.tenant 7) = 1000 ∧
      ∀ t ∈ (pollDb (runningTask .suno "s")).tasks.rows,
        (p.state.adjustments t.id).length ≤ 1 := by
  have hrun : ReachIf TaskCall.prog (fun c _ => c.Final) (start _) _ :=
    reach_exec TaskCall.prog (c := sunoStatusCall ["FAILURE"])
      (fun _ => show Final _ by decide) (pollDb (runningTask .suno "s")) []
  obtain ⟨honce, hwallets⟩ := task_settles_once rfl (distinct_pollDb _) hrun
  refine ⟨_, hrun, by decide +kernel, (hwallets (.tenant 7) (by decide)).trans (by decide +kernel),
    fun t ht => ?_⟩
  rcases honce t ht with ⟨h, -⟩ | ⟨h, -⟩ | ⟨a, -, h, -⟩
  · rw [h]
    exact Nat.zero_le 1
  · rw [h]
    exact Nat.le_refl 1
  · rw [h]
    exact Nat.le_refl 1

/-- Two polls read a running task. The first refunds it as failed and is then told that it runs
after all; the second finds the status it has read, and refunds it again. -/
theorem task_refunded_twice :
    (pollDb (runningTask .suno "s")).Distinct ∧
    ∃ p, Pool.Reach TaskCall.prog (Pool.start (pollDb (runningTask .suno "s"))) p ∧
      p.state.adjustments 1 = [.refund 100, .refund 100] ∧
      p.state.charged (runningTask .suno "s") = -100 ∧
      p.state.credit.store.balance (.tenant 7) = 1100 := by
  have hrun := reach_play TaskCall.prog
    [.call (sunoStatusCall ["FAILURE", "IN_PROGRESS"]), .call (sunoStatusCall ["FAILURE"]),
      .run 1, .run 0, .run 1, .run 1, .run 1, .run 1, .run 1, .run 0, .run 0]
    (start (pollDb (runningTask .suno "s")))
  exact ⟨distinct_pollDb _, _, hrun, by decide +kernel, by decide +kernel, by decide +kernel⟩

/-- Two tasks with one upstream id are one task in memory: it is recalculated for the one and
refunded for the other. -/
example :
    (Pool.execs TaskCall.prog
      [.video (pollSetting [5]) "video" 5
        [some ⟨1800010000, ⟨"SUCCESS", "", "", "", 0⟩, "answer", none, 150⟩,
          some ⟨1800010000, ⟨"FAILURE", "", "", "", 0⟩, "answer", none, 0⟩]]
      { pollDb (runningTask (.other "video") "v") with
        tasks := ⟨[runningTask (.other "video") "v",
          { runningTask (.other "video") "v" with id := 2 }], by decide⟩ }).adjustments 2 =
      [.recalculate 150 100, .refund 150] := by
  decide +kernel

end UnifyConsole.Async
