import UnifyConsole.Lib.Tx
import Mathlib.Logic.Relation
import Mathlib.Data.List.Forall2

/-!
# Programs of atomic steps and their interleavings

A program is a tree of atomic steps over a shared state: it has returned, or
its next step replaces the state and goes on with what it has seen.  A `Pool`
is a shared state with any number of calls in flight, and `Pool.Step` lets a
new call begin or any call in flight take its next step, so `Pool.Reach` runs
over every interleaving of every finite set of calls.

What is proved about interleavings is proved about single programs first.
`Follows G fin g p` says that `p`, carrying the private note `g`, makes only
steps that `G` allows, updating its note as it goes, and returns only what
`fin` allows.  `Pool.reach_annotated` is the rule that joins them: an assertion
about the state and all notes that survives one `G`-step of one call survives
every run of the pool.  `Within` is the case without notes.
-/

namespace UnifyConsole.Lib

/-- A program over the shared state `σ` that returns an `α`. -/
inductive Prog (σ α : Type) where
  | ret (a : α)
  | step (act : σ → σ) (next : σ → Prog σ α)

namespace Prog

variable {σ α β γ : Type}

def bind : Prog σ α → (α → Prog σ β) → Prog σ β
  | ret a, f => f a
  | step act next, f => step act fun s => (next s).bind f

instance : Monad (Prog σ) where
  pure := ret
  bind := bind

def atomic (x : σ → α × σ) : Prog σ α := step (fun s => (x s).2) fun s => ret (x s).1

def look (f : σ → α) : Prog σ α := atomic fun s => (f s, s)

def transact {ε : Type} (commits : Bool) (refused : ε) (x : Tx σ ε α) : Prog σ (Except ε α) :=
  atomic (Tx.run commits refused x)

/-- Run `p` when `c` holds. -/
def when (c : Prop) [Decidable c] (p : Prog σ Unit) : Prog σ Unit := if c then p else pure ()

def exec : Prog σ α → σ → α × σ
  | ret a, s => (a, s)
  | step act next, s => (next s).exec (act s)

def returned : Prog σ α → Bool
  | ret _ => true
  | step _ _ => false

@[simp] theorem exec_pure (a : α) (s : σ) : (pure a : Prog σ α).exec s = (a, s) := rfl

@[simp] theorem exec_atomic (x : σ → α × σ) (s : σ) : (atomic x).exec s = x s := rfl

@[simp] theorem exec_look (f : σ → α) (s : σ) : (look f).exec s = (f s, s) := rfl

@[simp] theorem exec_bind (p : Prog σ α) (f : α → Prog σ β) (s : σ) :
    (p >>= f).exec s = (f (p.exec s).1).exec (p.exec s).2 := by
  induction p generalizing s with
  | ret => rfl
  | step act next ih => exact ih s (act s)

@[simp] theorem exec_map (f : α → β) (p : Prog σ α) (s : σ) :
    (f <$> p).exec s = (f (p.exec s).1, (p.exec s).2) :=
  exec_bind p (fun a => pure (f a)) s

/-! ### What a program may do -/

/-- Every step is allowed by `G` for the note it carries, and the result by `fin` for the last one.
-/
def Follows (G : γ → σ → γ → σ → Prop) (fin : γ → α → Prop) : γ → Prog σ α → Prop
  | g, ret a => fin g a
  | g, step act next => ∀ s, ∃ g', G g s g' (act s) ∧ Follows G fin g' (next s)

variable {G : γ → σ → γ → σ → Prop} {p : Prog σ α} {f : α → Prog σ β} {g : γ}

theorem follows_bind {fin : γ → β → Prop} (h : Follows G (fun g' a => Follows G fin g' (f a)) g p) :
    Follows G fin g (p >>= f) := by
  induction p generalizing g with
  | ret => exact h
  | step act next ih =>
    intro s
    obtain ⟨g', hg, hn⟩ := h s
    exact ⟨g', hg, ih s hn⟩

variable {fin : γ → α → Prop}

theorem Follows.weaken {G' : γ → σ → γ → σ → Prop} (h : Follows G fin g p)
    (hG : ∀ g s g' s', G g s g' s' → G' g s g' s') : Follows G' fin g p := by
  induction p generalizing g with
  | ret => exact h
  | step act next ih =>
    intro s
    obtain ⟨g', hg, hn⟩ := h s
    exact ⟨g', hG _ _ _ _ hg, ih s hn⟩

theorem Follows.mono {fin' : γ → α → Prop} (h : Follows G fin g p)
    (hfin : ∀ g a, fin g a → fin' g a) : Follows G fin' g p := by
  induction p generalizing g with
  | ret a => exact hfin g a h
  | step act next ih =>
    intro s
    obtain ⟨g', hg, hn⟩ := h s
    exact ⟨g', hg, ih s hn⟩

/-- A note that allows everything allows every program. -/
theorem follows_of_forall (hG : ∀ s s', G g s g s') (hfin : ∀ a, fin g a) (p : Prog σ α) :
    Follows G fin g p := by
  induction p with
  | ret a => exact hfin a
  | step act next ih => exact fun s => ⟨g, hG _ _, ih s⟩

variable {x : σ → α × σ}

theorem follows_atomic (h : ∀ s, ∃ g', G g s g' (x s).2 ∧ fin g' (x s).1) :
    Follows G fin g (atomic x) := h

theorem follows_look {f : σ → α} (h : ∀ s, ∃ g', G g s g' s ∧ fin g' (f s)) :
    Follows G fin g (look f) := h

/-- Every step of the program is an `R`-step, and what it returns satisfies `Q`. -/
def Yields (R : σ → σ → Prop) (Q : α → Prop) : Prog σ α → Prop :=
  Follows (γ := Unit) (fun _ s _ s' => R s s') (fun _ a => Q a) ()

variable {R : σ → σ → Prop} {Q : α → Prop}

theorem yields_pure {a : α} (h : Q a) : Yields R Q (pure a : Prog σ α) := h

theorem yields_bind {Q' : β → Prop} (hp : Yields R Q p) (hf : ∀ a, Q a → Yields R Q' (f a)) :
    Yields R Q' (p >>= f) :=
  follows_bind (hp.mono fun _ => hf)

theorem yields_atomic (h : ∀ s, R s (x s).2 ∧ Q (x s).1) :
    Yields R Q (atomic x) := fun s => ⟨(), h s⟩

/-- Every step of the program is an `R`-step. -/
def Within (R : σ → σ → Prop) : Prog σ α → Prop :=
  Follows (γ := Unit) (fun _ s _ s' => R s s') (fun _ _ => True) ()

theorem within_pure (a : α) : Within R (pure a : Prog σ α) := trivial

theorem within_bind (hp : Within R p) (hf : ∀ a, Within R (f a)) : Within R (p >>= f) :=
  yields_bind hp fun a _ => hf a

theorem within_atomic (h : ∀ s, R s (x s).2) : Within R (atomic x) := fun s => ⟨(), h s, trivial⟩

theorem within_look (hR : ∀ s, R s s) (f : σ → α) : Within R (look f) :=
  within_atomic hR

theorem within_when {c : Prop} [Decidable c] {p : Prog σ Unit} (h : Within R p) :
    Within R (when c p) := by
  unfold when
  split
  · exact h
  · exact within_pure _

/-- A transaction whose body makes an `R`-step whenever it succeeds. -/
theorem within_transact {ε : Type} (hR : ∀ s, R s s) {commits : Bool} {refused : ε} {x : Tx σ ε α}
    (h : ∀ s a s', x s = .ok (a, s') → R s s') : Within R (transact commits refused x) := by
  refine within_atomic fun s => ?_
  rcases Tx.run_cases commits refused x s with ⟨a, hx, -⟩ | ⟨hs, -⟩
  · exact h s a _ hx
  · rw [hs]
    exact hR s

theorem Within.mono {R' : σ → σ → Prop} (hR : ∀ s s', R s s' → R' s s') (h : Within R p) :
    Within R' p :=
  Follows.weaken h fun _ s _ s' => hR s s'

/-- Run alone, such a program makes an `R`-step as a whole. -/
theorem Within.exec (hrefl : ∀ s, R s s) (htrans : ∀ s s' s'', R s s' → R s' s'' → R s s'')
    (h : Within R p) (s : σ) : R s (p.exec s).2 := by
  induction p generalizing s with
  | ret => exact hrefl s
  | step act next ih =>
    obtain ⟨_, hR, hn⟩ := h s
    exact htrans _ _ _ hR (ih s hn (act s))

end Prog

section Replace

variable {τ : Type} {l pre post : List τ} {x y : τ}

/-- What is so of every element is so with one of them replaced. -/
theorem forall_mem_replace {P Q : τ → Prop} (h : ∀ t ∈ pre ++ x :: post, P t)
    (hPQ : ∀ t, P t → Q t) (hy : Q y) : ∀ t ∈ pre ++ y :: post, Q t := by
  intro t ht
  rcases List.mem_append.mp ht with ht | ht
  · exact hPQ t (h t (List.mem_append_left _ ht))
  rcases List.mem_cons.mp ht with rfl | ht
  · exact hy
  · exact hPQ t (h t (List.mem_append_right _ (List.mem_cons_of_mem _ ht)))

theorem split_of_getElem? {k : Nat} (h : l[k]? = some x) :
    ∃ pre post, l = pre ++ x :: post ∧ ∀ y, l.set k y = pre ++ y :: post := by
  obtain ⟨hlt, hget⟩ := List.getElem?_eq_some_iff.mp h
  refine ⟨l.take k, l.drop (k + 1), ?_, fun y => ?_⟩
  · rw [← hget, List.getElem_cons_drop, List.take_append_drop]
  · rw [List.set_eq_take_append_cons_drop, if_pos hlt]

end Replace

/-- A shared state with calls in flight; a call that has returned stays, with its answer. -/
structure Pool (ι σ α : Type) where
  state : σ
  calls : List (ι × Prog σ α)

namespace Pool

variable {ι σ α γ : Type}

def start (s : σ) : Pool ι σ α := ⟨s, []⟩

/-- A new call begins, or a call in flight takes its next step, in a state in
which `ok` lets it. -/
inductive Step (prog : ι → Prog σ α) (ok : ι → σ → Prop) : Pool ι σ α → Pool ι σ α → Prop
  | call (c : ι) (s : σ) (l : List (ι × Prog σ α)) : Step prog ok ⟨s, l⟩ ⟨s, (c, prog c) :: l⟩
  | run (s : σ) (pre : List (ι × Prog σ α)) (c : ι) (act : σ → σ) (next : σ → Prog σ α)
      (post : List (ι × Prog σ α)) (h : ok c s) :
      Step prog ok ⟨s, pre ++ (c, .step act next) :: post⟩ ⟨act s, pre ++ (c, next s) :: post⟩

/-- The interleavings of any calls whose steps are all allowed by `ok`. -/
abbrev ReachIf (prog : ι → Prog σ α) (ok : ι → σ → Prop) : Pool ι σ α → Pool ι σ α → Prop :=
  Relation.ReflTransGen (Step prog ok)

abbrev Reach (prog : ι → Prog σ α) : Pool ι σ α → Pool ι σ α → Prop :=
  ReachIf prog fun _ _ => True

/-- The calls of a pool follow `G` with the notes `gs`. -/
def Annotated (G : ι → γ → σ → γ → σ → Prop) (fin : ι → γ → α → Prop)
    (l : List (ι × Prog σ α)) (gs : List (ι × γ)) : Prop :=
  List.Forall₂ (fun t g => t.1 = g.1 ∧ Prog.Follows (G t.1) (fin t.1) g.2 t.2) l gs

variable {gs : List (ι × γ)}

theorem annotated_split {G : ι → γ → σ → γ → σ → Prop} {fin : ι → γ → α → Prop}
    {pre post : List (ι × Prog σ α)} {t : ι × Prog σ α} (h : Annotated G fin (pre ++ t :: post) gs)
    :
    ∃ gpre g gpost, gs = gpre ++ (t.1, g) :: gpost ∧ Prog.Follows (G t.1) (fin t.1) g t.2 ∧
      ∀ t' g', t'.1 = t.1 → Prog.Follows (G t.1) (fin t.1) g' t'.2 →
        Annotated G fin (pre ++ t' :: post) (gpre ++ (t.1, g') :: gpost) := by
  induction pre generalizing gs with
  | nil =>
    cases h with
    | @cons _ b _ gpost hb hpost =>
      obtain ⟨c, g⟩ := b
      obtain ⟨hc, hf⟩ := hb
      subst hc
      refine ⟨[], g, gpost, rfl, hf, fun t' g' ht hf' => ?_⟩
      exact List.Forall₂.cons ⟨ht, by rw [ht]; exact hf'⟩ hpost
  | cons t₀ pre ih =>
    cases h with
    | @cons _ b _ gs' hb hrest =>
      obtain ⟨gpre, g, gpost, rfl, hf, hk⟩ := ih hrest
      exact ⟨b :: gpre, g, gpost, rfl, hf, fun t' g' ht hf' =>
        List.Forall₂.cons hb (hk t' g' ht hf')⟩

variable {prog : ι → Prog σ α} {ok : ι → σ → Prop}

/-- **The rule for interleavings.** If every call can start with a note that keeps `J`, and a step
of one call that `G` allows keeps `J`, then `J` holds of every pool that is reached. -/
theorem reach_annotated {G : ι → γ → σ → γ → σ → Prop} {fin : ι → γ → α → Prop}
    {J : List (ι × γ) → σ → Prop}
    (hcall : ∀ c gs s, J gs s → ∃ g, Prog.Follows (G c) (fin c) g (prog c) ∧ J ((c, g) :: gs) s)
    (hstep : ∀ gpre c g g' gpost s s', J (gpre ++ (c, g) :: gpost) s →
      ok c s → G c g s g' s' → J (gpre ++ (c, g') :: gpost) s') {p p' : Pool ι σ α}
    (hr : ReachIf prog ok p p') (h : ∃ gs, Annotated G fin p.calls gs ∧ J gs p.state) :
    ∃ gs, Annotated G fin p'.calls gs ∧ J gs p'.state := by
  induction hr with
  | refl => exact h
  | tail _ hs ih =>
    obtain ⟨gs, ha, hj⟩ := ih
    cases hs with
    | call c s =>
      obtain ⟨g, hf, hj'⟩ := hcall c gs s hj
      exact ⟨(c, g) :: gs, List.Forall₂.cons ⟨rfl, hf⟩ ha, hj'⟩
    | run s pre c act next post hok =>
      obtain ⟨gpre, g, gpost, rfl, hf, hk⟩ := annotated_split ha
      obtain ⟨g', hg, hn⟩ := hf s
      exact ⟨_, hk (c, next s) g' rfl hn, hstep gpre c g g' gpost s _ hj hok hg⟩

variable {I : σ → Prop} {s : σ}

/-- The same for an invariant of the state, an assertion about each note and a conflict between
notes. -/
theorem reach_apart {G : ι → γ → σ → γ → σ → Prop} {fin : ι → γ → α → Prop} {F : ι → γ → σ → Prop}
    {X : ι × γ → ι × γ → σ → Prop} (hX : ∀ x y s, X x y s → X y x s)
    (hcall : ∀ c s, I s → ∃ g, Prog.Follows (G c) (fin c) g (prog c) ∧ F c g s ∧
      ∀ y, ¬ X (c, g) y s) (hstep : ∀ c g g' s s', I s → F c g s → ok c s → G c g s g' s' →
      I s' ∧ F c g' s' ∧ (∀ x y, X x y s' → X x y s) ∧
      ∀ c₁ g₁, F c₁ g₁ s → ¬ X (c, g) (c₁, g₁) s → F c₁ g₁ s' ∧ ¬ X (c, g') (c₁, g₁) s')
    {p : Pool ι σ α} (hr : ReachIf prog ok (start s) p) (h : I s) :
    ∃ gs, Annotated G fin p.calls gs ∧ I p.state ∧ (∀ x ∈ gs, F x.1 x.2 p.state) ∧
      gs.Pairwise (fun x y => ¬ X x y p.state) := by
  refine reach_annotated
    (J := fun gs s => I s ∧ (∀ x ∈ gs, F x.1 x.2 s) ∧ gs.Pairwise fun x y => ¬ X x y s)
    (fun c gs s h => ?_) (fun gpre c g g' gpost s s' h hok hG => ?_)
    hr ⟨[], .nil, h, nofun, .nil⟩
  · obtain ⟨g, hf, hg, hx⟩ := hcall c s h.1
    exact ⟨g, hf, h.1, List.forall_mem_cons.mpr ⟨hg, h.2.1⟩,
      List.pairwise_cons.mpr ⟨fun y _ => hx y, h.2.2⟩⟩
  obtain ⟨hI, hF, hP⟩ := h
  obtain ⟨hI', hg', hold, hothers⟩ := hstep c g g' s s' hI (hF (c, g) (by simp)) hok hG
  simp only [List.pairwise_append, List.pairwise_cons, List.mem_append, List.mem_cons] at hF hP ⊢
  obtain ⟨hpre, ⟨hc, hpost⟩, hcross⟩ := hP
  have hpre' : ∀ x ∈ gpre, F x.1 x.2 s' ∧ ¬ X (c, g') x s' := fun x hx =>
    hothers x.1 x.2 (hF x (.inl hx)) fun h => hcross x hx (c, g) (.inl rfl) (hX _ _ _ h)
  have hpost' : ∀ x ∈ gpost, F x.1 x.2 s' ∧ ¬ X (c, g') x s' := fun x hx =>
    hothers x.1 x.2 (hF x (.inr (.inr hx))) (hc x hx)
  refine ⟨hI', ?_, hpre.imp (fun h h' => h (hold _ _ h')),
    ⟨fun x hx => (hpost' x hx).2, hpost.imp fun h h' => h (hold _ _ h')⟩, ?_⟩
  · rintro x (hx | rfl | hx)
    · exact (hpre' x hx).1
    · exact hg'
    · exact (hpost' x hx).1
  · rintro x hx y (rfl | hy) h
    · exact (hpre' x hx).2 (hX _ _ _ h)
    · exact hcross x hx y (.inr hy) (hold _ _ h)

/-- The rule without conflicts. -/
theorem reach_noted {G : ι → γ → σ → γ → σ → Prop} {fin : ι → γ → α → Prop} {F : ι → γ → σ → Prop}
    (hcall : ∀ c s, I s → ∃ g, Prog.Follows (G c) (fin c) g (prog c) ∧ F c g s)
    (hstep : ∀ c g g' s s', I s → F c g s → ok c s → G c g s g' s' →
      I s' ∧ F c g' s' ∧ ∀ c₁ g₁, F c₁ g₁ s → F c₁ g₁ s') {p : Pool ι σ α}
    (hr : ReachIf prog ok (start s) p) (h : I s) : I p.state := by
  obtain ⟨gs, -, hI, -⟩ := reach_apart (X := fun _ _ _ => False) (fun _ _ _ h => h)
    (fun c s hI => by
      obtain ⟨g, hf, hg⟩ := hcall c s hI
      exact ⟨g, hf, hg, fun _ h => h⟩)
    (fun c g g' s s' hI hF hok hG => by
      obtain ⟨hI', hg', hothers⟩ := hstep c g g' s s' hI hF hok hG
      exact ⟨hI', hg', fun _ _ h => h, fun c₁ g₁ hF₁ _ => ⟨hothers c₁ g₁ hF₁, fun h => h⟩⟩) hr h
  exact hI

def Quiescent (p : Pool ι σ α) : Prop := ∀ t ∈ p.calls, t.2.returned = true

instance (p : Pool ι σ α) : Decidable p.Quiescent :=
  inferInstanceAs (Decidable (∀ t ∈ p.calls, t.2.returned = true))

theorem annotated_quiescent {G : ι → γ → σ → γ → σ → Prop} {fin : ι → γ → α → Prop} {p : Pool ι σ α}
    (h : Annotated G fin p.calls gs) (hq : p.Quiescent) : ∀ g ∈ gs, ∃ a, fin g.1 g.2 a := by
  obtain ⟨s, l⟩ := p
  unfold Quiescent at hq
  simp only at h hq
  induction h with
  | nil => simp
  | @cons t g l gs hb _ ih =>
    rw [List.forall_mem_cons] at hq ⊢
    obtain ⟨hc, hf⟩ := hb
    refine ⟨?_, ih hq.2⟩
    obtain ⟨c, p⟩ := t
    cases p with
    | ret a => exact ⟨a, hc ▸ hf⟩
    | step => cases hq.1

def Within (R : ι → σ → σ → Prop) (p : Pool ι σ α) : Prop := ∀ t ∈ p.calls, t.2.Within (R t.1)

theorem within_start (R : ι → σ → σ → Prop) (s : σ) : Within R (start s : Pool ι σ α) := by
  intro t ht
  simp [start] at ht

/-- **Interleavings without notes**: a run of the pool is a run of steps of the calls' relations. -/
theorem reach_within {R : ι → σ → σ → Prop} (hprog : ∀ c, (prog c).Within (R c)) {p p' : Pool ι σ α}
    (hr : ReachIf prog ok p p') (h : Within R p) :
    Within R p' ∧
      Relation.ReflTransGen (fun s s' => ∃ c, ok c s ∧ R c s s') p.state p'.state := by
  induction hr with
  | refl => exact ⟨h, .refl⟩
  | tail _ hs ih =>
    obtain ⟨hw, hR⟩ := ih
    cases hs with
    | call c =>
      refine ⟨fun t ht => ?_, hR⟩
      rcases List.mem_cons.mp ht with rfl | ht
      · exact hprog c
      · exact hw t ht
    | run s pre c act next post hok =>
      obtain ⟨g', hg, hn⟩ := hw (c, .step act next) (by simp) s
      exact ⟨forall_mem_replace hw (fun _ h => h) hn, hR.tail ⟨c, hok, hg⟩⟩

/-- **The invariant rule**: what every allowed step keeps holds in every state reached. -/
theorem reach_invariant (hprog : ∀ c, (prog c).Within fun s s' => ok c s → I s → I s')
    {p : Pool ι σ α} (hr : ReachIf prog ok (start s) p) (h : I s) : I p.state := by
  obtain ⟨-, hsteps⟩ := reach_within hprog hr (within_start _ s)
  generalize p.state = s' at hsteps
  induction hsteps with
  | refl => exact h
  | tail _ hstep ih =>
    obtain ⟨c, hok, hkeep⟩ := hstep
    exact hkeep hok ih

/-- A call made and run to its end before anything else happens. -/
theorem reach_exec (prog : ι → Prog σ α) {c : ι} (hok : ∀ s, ok c s) (s : σ)
    (l : List (ι × Prog σ α)) :
    ReachIf prog ok ⟨s, l⟩ ⟨((prog c).exec s).2, (c, .ret ((prog c).exec s).1) :: l⟩ := by
  have key : ∀ (p : Prog σ α) (s : σ),
      ReachIf prog ok ⟨s, (c, p) :: l⟩ ⟨(p.exec s).2, (c, .ret (p.exec s).1) :: l⟩ := by
    intro p
    induction p with
    | ret => intro s; exact .refl
    | step act next ih =>
      intro s
      exact Relation.ReflTransGen.head (Step.run s [] c act next l (hok s)) (ih s (act s))
  exact Relation.ReflTransGen.head (Step.call c s l) (key (prog c) s)

def execs (prog : ι → Prog σ α) (cs : List ι) (s : σ) : σ :=
  cs.foldl (fun s c => ((prog c).exec s).2) s

/-- Calls made one after the other are among the interleavings. -/
theorem reach_execs (prog : ι → Prog σ α) (cs : List ι) (hok : ∀ c ∈ cs, ∀ s, ok c s) :
    ∀ (s : σ) (l : List (ι × Prog σ α)), ∃ l', ReachIf prog ok ⟨s, l⟩ ⟨execs prog cs s, l'⟩ := by
  induction cs with
  | nil => intro s l; exact ⟨l, .refl⟩
  | cons c cs ih =>
    intro s l
    obtain ⟨l', hl⟩ := ih (fun c hc => hok c (List.mem_cons_of_mem _ hc)) ((prog c).exec s).2
      ((c, .ret ((prog c).exec s).1) :: l)
    exact ⟨l', (reach_exec prog (hok c List.mem_cons_self) s l).trans hl⟩

/-- One move of a scheduler: make a call, or let the call at a position take its
next step. -/
inductive Move (ι : Type) where
  | call (c : ι)
  | run (k : Nat)

def play (prog : ι → Prog σ α) : List (Move ι) → Pool ι σ α → Pool ι σ α
  | [], p => p
  | .call c :: ms, p => play prog ms ⟨p.state, (c, prog c) :: p.calls⟩
  | .run k :: ms, p =>
    match p.calls[k]? with
    | some (c, .step act next) => play prog ms ⟨act p.state, p.calls.set k (c, next p.state)⟩
    | _ => play prog ms p

/-- Every step that the scheduler asks for is allowed by `ok`. -/
def allowed (prog : ι → Prog σ α) (ok : ι → σ → Prop) [∀ c s, Decidable (ok c s)] :
    List (Move ι) → Pool ι σ α → Bool
  | [], _ => true
  | .call c :: ms, p => allowed prog ok ms ⟨p.state, (c, prog c) :: p.calls⟩
  | .run k :: ms, p =>
    match p.calls[k]? with
    | some (c, .step act next) =>
      decide (ok c p.state) && allowed prog ok ms ⟨act p.state, p.calls.set k (c, next p.state)⟩
    | _ => allowed prog ok ms p

/-- A scheduler whose steps are allowed stays among the interleavings. -/
theorem reach_play_of (prog : ι → Prog σ α) (ok : ι → σ → Prop) [∀ c s, Decidable (ok c s)]
    (ms : List (Move ι)) (p : Pool ι σ α) :
    allowed prog ok ms p = true → ReachIf prog ok p (play prog ms p) := by
  fun_induction allowed prog ok ms p with
  | case1 => exact fun _ => .refl
  | case2 c ms p ih => exact fun ha => .head (Step.call c p.state p.calls) (ih ha)
  | case3 k ms p c act next hk ih =>
    intro ha
    obtain ⟨hok, ha⟩ := (Bool.and_eq_true _ _).mp ha
    obtain ⟨pre, post, hcalls, hset⟩ := split_of_getElem? hk
    have hstep : Step prog ok _ _ :=
      Step.run p.state pre c act next post (of_decide_eq_true hok)
    rw [← hcalls, ← hset] at hstep
    simp only [play, hk]
    exact .head hstep (ih ha)
  | case4 k ms p hk ih =>
    unfold play
    split
    · rename_i hk'
      exact absurd hk' (hk _ _ _)
    · exact ih

theorem allowed_true (prog : ι → Prog σ α) (ms : List (Move ι)) (p : Pool ι σ α) :
    allowed prog (fun _ _ => True) ms p = true := by
  fun_induction allowed prog (fun _ _ => True) ms p with
  | case1 => rfl
  | case2 _ _ _ ih => exact ih
  | case3 _ _ _ _ _ _ _ ih => exact ih
  | case4 _ _ _ _ ih => exact ih

/-- Every scheduler stays among the interleavings. -/
theorem reach_play (prog : ι → Prog σ α) (ms : List (Move ι)) (p : Pool ι σ α) :
    Reach prog p (play prog ms p) :=
  reach_play_of prog _ ms p (allowed_true prog ms p)

end Pool

end UnifyConsole.Lib
