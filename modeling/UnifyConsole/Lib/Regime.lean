import UnifyConsole.Lib.Rely

/-!
# Programs that keep to a regime

A regime is an invariant of the shared state together with a relation between the states before
and after a step.  A step keeps to it (`Kept`) if, begun in a state with the invariant, it ends in
one and is related to it.  An assertion is `Lasting` if no such step makes it false, and
`Knows r F G p` says that the program `p` makes only such steps and leads from `F` to `G`.

`Regime.reach` joins the programs: every interleaving keeps to the regime.
-/

namespace UnifyConsole.Lib

/-- What all programs that share a state keep to. -/
structure Regime (σ : Type) where
  inv : σ → Prop
  step : σ → σ → Prop

variable {σ α β ι : Type}

def Kept (r : Regime σ) (s s' : σ) : Prop := r.inv s → r.inv s' ∧ r.step s s'

/-- No step that keeps to the regime makes `F` false. -/
def Lasting (r : Regime σ) (F : σ → Prop) : Prop := ∀ s s', r.inv s → r.step s s' → F s → F s'

section Lasting

variable {r : Regime σ} {F G : σ → Prop}

theorem Lasting.stable (h : Lasting r F) : Stable (Kept r) (fun s => r.inv s ∧ F s) := by
  intro s s' hk hs
  obtain ⟨hg', hl⟩ := hk hs.1
  exact ⟨hg', h s s' hs.1 hl hs.2⟩

theorem Lasting.and (h : Lasting r F) (h' : Lasting r G) : Lasting r (fun s => F s ∧ G s) :=
  fun s s' hg hl hs => ⟨h s s' hg hl hs.1, h' s s' hg hl hs.2⟩

theorem Lasting.or (h : Lasting r F) (h' : Lasting r G) : Lasting r (fun s => F s ∨ G s) :=
  fun s s' hg hl hs => hs.imp (h s s' hg hl) (h' s s' hg hl)

theorem Lasting.of_imp {c : Prop} (h : Lasting r F) : Lasting r (fun s => c → F s) :=
  fun s s' hg hl hs hc => h s s' hg hl (hs hc)

theorem lasting_const {c : Prop} : Lasting r (fun _ => c) := fun _ _ _ _ hc => hc

theorem Lasting.after (h : Lasting r F) {s s' : σ} (hk : Kept r s s') (hg : r.inv s) (hs : F s) :
    F s' := h s s' hg (hk hg).2 hs

end Lasting

/-- Begun with the invariant and `F`, the program keeps to the regime and returns `a` with the
invariant and `G a`. -/
def Knows (r : Regime σ) (F : σ → Prop) (G : α → σ → Prop) (p : Prog σ α) : Prop :=
  p.Sat (Kept r) (fun a s => r.inv s ∧ G a s) fun s => r.inv s ∧ F s

section Knows

variable {r : Regime σ} {F F' : σ → Prop} {G G' : α → σ → Prop} {K : β → σ → Prop}

variable {p : Prog σ α}

theorem knows_bind {f : α → Prog σ β} (hp : Knows r F G p) (hf : ∀ a, Knows r (G a) K (f a)) :
    Knows r F K (p >>= f) := Prog.sat_bind hp hf

theorem knows_pure {a : α} (h : ∀ s, r.inv s → F s → G a s) :
    Knows r F G (pure a : Prog σ α) :=
  Prog.sat_pure fun s hs => ⟨hs.1, h s hs.1 hs.2⟩

theorem knows_same {a : α} : Knows r F (fun _ => F) (pure a : Prog σ α) :=
  knows_pure fun _ _ hs => hs

theorem knows_done {a : α} : Knows r F (fun _ _ => True) (pure a : Prog σ α) :=
  knows_pure fun _ _ _ => trivial

theorem Knows.weaken (h : Knows r F G p) (hF : ∀ s, F' s → F s) :
    Knows r F' G p := Prog.Sat.weaken h fun s hs => ⟨hs.1, hF s hs.2⟩

/-- A fact that `F` implies and that does not depend on the state. -/
theorem Knows.of_fact {c : Prop} (hc : ∀ s, r.inv s → F s → c) (h : c → Knows r F G p) :
    Knows r F G p :=
  Prog.Sat.of_fact (fun s hs => hc s hs.1 hs.2) h

theorem Knows.of_exists {F : β → σ → Prop} (h : ∀ b, Knows r (F b) G p) :
    Knows r (fun s => ∃ b, F b s) G p := by
  refine (Prog.Sat.of_exists (P := fun b s => r.inv s ∧ F b s) h).weaken ?_
  rintro s ⟨hg, b, hs⟩
  exact ⟨b, hg, hs⟩

/-- What lasts is still known at the end. -/
theorem Knows.frame (h : Knows r F G p) (hF : Lasting r F') :
    Knows r (fun s => F s ∧ F' s) (fun a s => G a s ∧ F' s) p := by
  refine ((Prog.Sat.frame h hF.stable).weaken ?_).mono ?_
  · exact fun s hs => ⟨⟨hs.1, hs.2.1⟩, hs.1, hs.2.2⟩
  · exact fun a s hs => ⟨hs.1.1, hs.1.2, hs.2.2⟩

theorem knows_update {x : σ → α × σ} (hG : ∀ a, Lasting r (G a))
    (h : ∀ s, r.inv s → F s → Kept r s (x s).2 ∧ G (x s).1 (x s).2) :
    Knows r F G (Prog.atomic x) := by
  refine Prog.sat_atomic (fun a => (hG a).stable) fun s hs => ?_
  obtain ⟨hk, hx⟩ := h s hs.1 hs.2
  exact ⟨hk, (hk hs.1).1, hx⟩

theorem knows_read (hrefl : ∀ s, r.step s s) {f : σ → α} (hG : ∀ a, Lasting r (G a))
    (h : ∀ s, r.inv s → F s → G (f s) s) : Knows r F G (Prog.look f) :=
  knows_update hG fun s hg hs => ⟨fun hg => ⟨hg, hrefl s⟩, h s hg hs⟩

/-- A look whose result says nothing. -/
theorem knows_look (hrefl : ∀ s, r.step s s) {f : σ → α} (hF : Lasting r F) :
    Knows r F (fun _ s => F s) (Prog.look f) :=
  knows_read hrefl (fun _ => hF) fun _ _ hs => hs

end Knows

namespace Regime

variable {r : Regime σ} {Q : ι → α → σ → Prop} {prog : ι → Prog σ α} {s : σ} {p : Pool ι σ α}

/-- **Every interleaving keeps to the regime**, and the calls that have returned know what they
returned with. -/
theorem reach (hprog : ∀ c, Knows r (fun _ => True) (Q c) (prog c))
    (hr : Pool.Reach prog (Pool.start s) p) (hs : r.inv s) :
    r.inv p.state ∧ ∀ c a, (c, .ret a) ∈ p.calls → Q c a p.state := by
  obtain ⟨⟨hg, -⟩, hsafe⟩ := Pool.reach_safe_of (lasting_const (c := True)).stable hprog hr
    ⟨hs, trivial⟩ (Pool.safe_start _ _ _)
  exact ⟨hg, fun c a hc => (hsafe.returned hc).2⟩

/-- So does every further step. -/
theorem reach_step (hprog : ∀ c, Knows r (fun _ => True) (Q c) (prog c))
    (hr : Pool.Reach prog (Pool.start s) p) (hs : r.inv s) {p' : Pool ι σ α}
    (hstep : Pool.Step prog (fun _ _ => True) p p') :
    p'.state = p.state ∨ r.step p.state p'.state := by
  obtain ⟨⟨hg, -⟩, hsafe⟩ := Pool.reach_safe_of (lasting_const (c := True)).stable hprog hr
    ⟨hs, trivial⟩ (Pool.safe_start _ _ _)
  exact (hsafe.step hstep).imp id fun hk => (hk hg).2

end Regime

end UnifyConsole.Lib
