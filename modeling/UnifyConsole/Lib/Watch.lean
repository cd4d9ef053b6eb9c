import UnifyConsole.Lib.Prog

/-!
# Runs that remember what each call has seen

A call that reads, decides and then writes may decide on a reading that is out of date.  A
`Watch` is a `Pool` in which every call carries the states in which it took its steps, the
last one first, so that a run can be restricted by a condition on a step that speaks of the
state it is taken in and of the states that the call has seen before.

`Watch.reach_invariant` is the rule: an invariant holds in every state reached if each step
of each program keeps it, from a state with the invariant, when the condition is met and the
states that were seen had the invariant too.
-/

namespace UnifyConsole.Lib

/-- A shared state with calls in flight, each with the states it has seen. -/
structure Watch (ι σ α : Type) where
  state : σ
  calls : List (ι × List σ × Prog σ α)

namespace Watch

variable {ι σ α : Type}

def start (s : σ) : Watch ι σ α := ⟨s, []⟩

/-- A new call begins, or a call in flight takes its next step, if `ok` lets it. -/
inductive Step (prog : ι → Prog σ α) (ok : ι → List σ → σ → Prop) :
    Watch ι σ α → Watch ι σ α → Prop
  | call (c : ι) (s : σ) (l : List (ι × List σ × Prog σ α)) :
      Step prog ok ⟨s, l⟩ ⟨s, (c, [], prog c) :: l⟩
  | run (s : σ) (pre : List (ι × List σ × Prog σ α)) (c : ι) (seen : List σ) (act : σ → σ)
      (next : σ → Prog σ α) (post : List (ι × List σ × Prog σ α)) (h : ok c seen s) :
      Step prog ok ⟨s, pre ++ (c, seen, .step act next) :: post⟩
        ⟨act s, pre ++ (c, s :: seen, next s) :: post⟩

/-- The interleavings of any calls whose steps all meet the condition. -/
abbrev ReachIf (prog : ι → Prog σ α) (ok : ι → List σ → σ → Prop) :
    Watch ι σ α → Watch ι σ α → Prop :=
  Relation.ReflTransGen (Step prog ok)

abbrev Reach (prog : ι → Prog σ α) : Watch ι σ α → Watch ι σ α → Prop :=
  ReachIf prog fun _ _ _ => True

/-- A step that meets the condition keeps the invariant, if the states seen had it. -/
def Keeps (ok : List σ → σ → Prop) (I : σ → Prop) (seen : List σ) (s : σ) (seen' : List σ)
    (s' : σ) : Prop :=
  seen' = s :: seen ∧ (ok seen s → (∀ x ∈ seen, I x) → I s → I s')

variable {I : σ → Prop}

theorem keeps_same {ok : List σ → σ → Prop} (seen : List σ) (s : σ) :
    Keeps ok I seen s (s :: seen) s :=
  ⟨rfl, fun _ _ h => h⟩

/-- A transaction that keeps the invariant whenever it succeeds. -/
theorem follows_transact {ok : List σ → σ → Prop} {seen : List σ} {ε β : Type}
    {fin : List σ → Except ε β → Prop} {commits : Bool} {refused : ε} {x : Tx σ ε β}
    (hx : ∀ s b s', x s = .ok (b, s') → ok seen s → (∀ y ∈ seen, I y) → I s → I s')
    (hfin : ∀ s r, fin (s :: seen) r) :
    Prog.Follows (Keeps ok I) fin seen (Prog.transact commits refused x) := by
  refine Prog.follows_atomic fun s => ⟨s :: seen, ⟨rfl, fun hok hseen hI => ?_⟩, hfin s _⟩
  rcases Tx.run_cases commits refused x s with ⟨b, hb, -⟩ | ⟨hs, -⟩
  · exact hx s b _ hb hok hseen hI
  · rw [hs]
    exact hI

/-- **The rule for watched runs.** -/
theorem reach_invariant {prog : ι → Prog σ α} {ok : ι → List σ → σ → Prop}
    (hprog : ∀ c, Prog.Follows (Keeps (ok c) I) (fun _ _ => True) [] (prog c)) {s : σ}
    {w : Watch ι σ α} (hr : ReachIf prog ok (start s) w) (h : I s) : I w.state := by
  -- every call follows its program, and has seen states with the invariant only
  have hall : I w.state ∧ ∀ t ∈ w.calls, (∀ x ∈ t.2.1, I x) ∧
      Prog.Follows (Keeps (ok t.1) I) (fun _ _ => True) t.2.1 t.2.2 := by
    induction hr with
    | refl => exact ⟨h, nofun⟩
    | tail _ hs ih =>
      obtain ⟨hI, hcalls⟩ := ih
      cases hs with
      | call c =>
        refine ⟨hI, fun t ht => ?_⟩
        rcases List.mem_cons.mp ht with rfl | ht
        · exact ⟨nofun, hprog c⟩
        · exact hcalls t ht
      | run s pre c seen act next post hok =>
        obtain ⟨hseen, hfollows⟩ := hcalls (c, seen, .step act next) (by simp)
        obtain ⟨seen', ⟨rfl, hkeep⟩, hnext⟩ := hfollows s
        exact ⟨hkeep hok hseen hI, forall_mem_replace hcalls (fun _ h => h)
          ⟨List.forall_mem_cons.mpr ⟨hI, hseen⟩, hnext⟩⟩
  exact hall.1

/-! ### Schedules -/

def play (prog : ι → Prog σ α) : List (Pool.Move ι) → Watch ι σ α → Watch ι σ α
  | [], w => w
  | .call c :: ms, w => play prog ms ⟨w.state, (c, [], prog c) :: w.calls⟩
  | .run k :: ms, w =>
    match w.calls[k]? with
    | some (c, seen, .step act next) =>
      play prog ms ⟨act w.state, w.calls.set k (c, w.state :: seen, next w.state)⟩
    | _ => play prog ms w

/-- Every step that the scheduler asks for meets the condition. -/
def allowed (prog : ι → Prog σ α) (ok : ι → List σ → σ → Prop)
    [∀ c seen s, Decidable (ok c seen s)] : List (Pool.Move ι) → Watch ι σ α → Bool
  | [], _ => true
  | .call c :: ms, w => allowed prog ok ms ⟨w.state, (c, [], prog c) :: w.calls⟩
  | .run k :: ms, w =>
    match w.calls[k]? with
    | some (c, seen, .step act next) =>
      decide (ok c seen w.state) &&
        allowed prog ok ms ⟨act w.state, w.calls.set k (c, w.state :: seen, next w.state)⟩
    | _ => allowed prog ok ms w

/-- A schedule whose steps meet the condition is a run. -/
theorem reach_play_of (prog : ι → Prog σ α) (ok : ι → List σ → σ → Prop)
    [∀ c seen s, Decidable (ok c seen s)] (ms : List (Pool.Move ι)) (w : Watch ι σ α) :
    allowed prog ok ms w = true → ReachIf prog ok w (play prog ms w) := by
  fun_induction allowed prog ok ms w with
  | case1 => exact fun _ => .refl
  | case2 c ms w ih => exact fun ha => .head (Step.call c w.state w.calls) (ih ha)
  | case3 k ms w c seen act next hk ih =>
    intro ha
    obtain ⟨hok, ha⟩ := (Bool.and_eq_true _ _).mp ha
    obtain ⟨pre, post, hcalls, hset⟩ := split_of_getElem? hk
    have hstep : Step prog ok _ _ :=
      Step.run w.state pre c seen act next post (of_decide_eq_true hok)
    rw [← hcalls, ← hset] at hstep
    simp only [play, hk]
    exact .head hstep (ih ha)
  | case4 k ms w hk ih =>
    unfold play
    split
    · rename_i hk'
      exact absurd hk' (hk _ _ _ _)
    · exact ih

theorem allowed_true (prog : ι → Prog σ α) (ms : List (Pool.Move ι)) (w : Watch ι σ α) :
    allowed prog (fun _ _ _ => True) ms w = true := by
  fun_induction allowed prog (fun _ _ _ => True) ms w with
  | case1 => rfl
  | case2 _ _ _ ih => exact ih
  | case3 _ _ _ _ _ _ _ _ ih => exact ih
  | case4 _ _ _ _ ih => exact ih

/-- Every schedule is a run. -/
theorem reach_play (prog : ι → Prog σ α) (ms : List (Pool.Move ι)) (w : Watch ι σ α) :
    Reach prog w (play prog ms w) :=
  reach_play_of prog _ ms w (allowed_true prog ms w)

end Watch

end UnifyConsole.Lib
