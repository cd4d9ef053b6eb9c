import Mathlib.Data.List.Nodup
import Mathlib.Algebra.Order.BigOperators.Group.List
import Mathlib.Algebra.Order.Group.Int
import Mathlib.Data.List.Sort
import Mathlib.Tactic.Abel

/-!
# Tables with a primary key

A relational table is a list of rows whose keys are pairwise distinct, and the
distinctness is a field, so a table with two rows of one key cannot be built.
The operations are the four statements a program sends: `find?` reads one row
by key, `insert?` refuses a key that is taken, `update` is
`UPDATE … SET f WHERE p` and `delete` is `DELETE … WHERE p`.

Sums over a table are what conservation laws are about.  `sum_insert?` says
what an insertion adds, and `sum_update_one` what an update of one row changes:
the new value of that row less the old one.
-/

namespace UnifyConsole.Lib

open List Option

/-- Rows with pairwise distinct keys, in insertion order. -/
structure Table {K R : Type} (key : R → K) where
  rows : List R
  nodup : (rows.map key).Nodup

namespace Table

variable {K R : Type} {key : R → K}

def empty : Table key := ⟨[], List.nodup_nil⟩

instance : Inhabited (Table key) := ⟨empty⟩

variable {t : Table key}

@[ext] theorem ext {t' : Table key} (h : t.rows = t'.rows) : t = t' := by
  cases t; cases t'; simp_all

@[simp] theorem rows_empty : (empty : Table key).rows = [] := rfl

variable {r : R}

theorem eq_of_key_eq (t : Table key) {r' : R} (h : r ∈ t.rows) (h' : r' ∈ t.rows)
    (he : key r = key r') : r = r' :=
  inj_on_of_nodup_map t.nodup h h' he

/-! ### Reading -/

variable {k : K}

section Read

variable [DecidableEq K]

/-- The row with key `k`, if there is one. -/
def find? (t : Table key) (k : K) : Option R := t.rows.find? fun r => decide (key r = k)

theorem find?_eq_some_iff : t.find? k = some r ↔ r ∈ t.rows ∧ key r = k := by
  constructor
  · intro h
    exact ⟨mem_of_find?_eq_some h, by simpa using find?_some h⟩
  rintro ⟨hr, hk⟩
  cases hf : t.find? k with
  | none =>
    rw [find?, find?_eq_none] at hf
    exact absurd hk (by simpa using hf r hr)
  | some r' =>
    have hr' := mem_of_find?_eq_some hf
    have hk' : key r' = k := by simpa using find?_some hf
    rw [t.eq_of_key_eq hr' hr (hk'.trans hk.symm)]

theorem find?_eq_none_iff : t.find? k = none ↔ ∀ r ∈ t.rows, key r ≠ k := by
  simp [find?]

theorem mem_of_find? (h : t.find? k = some r) : r ∈ t.rows :=
  (find?_eq_some_iff.mp h).1

theorem key_of_find? (h : t.find? k = some r) : key r = k :=
  (find?_eq_some_iff.mp h).2

theorem mem_keys : k ∈ t.rows.map key ↔ (t.find? k).isSome = true := by
  rw [List.mem_map, isSome_iff_exists]
  simp only [find?_eq_some_iff]

@[simp] theorem find?_empty (k : K) : (empty : Table key).find? k = none := rfl

end Read

/-- How many rows a `WHERE p` matches. -/
def matched (t : Table key) (p : R → Bool) : Nat := (t.rows.filter p).length

/-! ### Writing -/

/-- Append a row; `none` when its key is taken. -/
def insert? [DecidableEq K] (t : Table key) (r : R) : Option (Table key) :=
  if h : key r ∈ t.rows.map key then none
  else some ⟨t.rows ++ [r], by
    rw [List.map_append, List.nodup_append]
    refine ⟨t.nodup, List.nodup_singleton _, ?_⟩
    intro a ha b hb hab
    rw [List.map_singleton, List.mem_singleton] at hb
    subst hb
    exact h (hab ▸ ha)⟩

/-- `UPDATE … SET f WHERE p`, for an assignment `f` that leaves the key alone. -/
def update (t : Table key) (p : R → Bool) (f : R → R) (hf : ∀ r, key (f r) = key r) : Table key :=
  ⟨t.rows.map (fun r => if p r then f r else r), by
    have : key ∘ (fun r => if p r then f r else r) = key := by
      funext r
      simp only [Function.comp]
      split
      · exact hf r
      · rfl
    rw [List.map_map, this]
    exact t.nodup⟩

/-- `DELETE … WHERE p`. -/
def delete (t : Table key) (p : R → Bool) : Table key :=
  ⟨t.rows.filter (fun r => !p r), t.nodup.sublist (List.filter_sublist.map key)⟩

variable {A : Type}

section Write

variable {t t' : Table key} {p : R → Bool} {f : R → R} {hf : ∀ r, key (f r) = key r}

variable {x : R}

theorem mem_update : x ∈ (t.update p f hf).rows ↔ ∃ r ∈ t.rows, x = if p r then f r else r := by
  simp only [update, List.mem_map]
  exact ⟨fun ⟨r, hr, he⟩ => ⟨r, hr, he.symm⟩, fun ⟨r, hr, he⟩ => ⟨r, hr, he.symm⟩⟩

theorem mem_delete : x ∈ (t.delete p).rows ↔ x ∈ t.rows ∧ p x = false := by
  simp [delete]

/-- An update matching no row changes nothing. -/
theorem update_eq_self (h : ∀ r ∈ t.rows, p r = false) : t.update p f hf = t := by
  apply ext
  conv_rhs => rw [← map_id t.rows]
  refine map_congr_left fun r hr => ?_
  rw [if_neg (by simp [h r hr]), id]

theorem matched_eq_zero_iff : t.matched p = 0 ↔ ∀ r ∈ t.rows, p r = false := by
  simp [matched]

theorem matched_update_of_same {q : R → Bool} (hq : ∀ r, q (f r) = q r) :
    (t.update p f hf).matched q = t.matched q := by
  rw [matched, update, List.filter_map, List.length_map, matched]
  congr 2
  funext r
  simp only [Function.comp]
  split
  · exact hq r
  · rfl

variable [DecidableEq K]

/-- A `WHERE` that names a key matches one row or none. -/
theorem matched_key (k : K) (q : R → Bool) :
    t.matched (fun r => decide (key r = k) && q r) =
      match t.find? k with
      | some r => if q r then 1 else 0
      | none => 0 := by
  have hnd : (t.rows.map key).Nodup := t.nodup
  simp only [matched, find?]
  generalize t.rows = l at hnd
  induction l with
  | nil => rfl
  | cons x l ih =>
    rw [map_cons, nodup_cons] at hnd
    by_cases hx : key x = k
    · have hnil : l.filter (fun r => decide (key r = k) && q r) = [] := by
        rw [filter_eq_nil_iff]
        intro r hr
        have : key r ≠ k := fun he => hnd.1 (mem_map.mpr ⟨r, hr, he.trans hx.symm⟩)
        simp [this]
      simp only [filter_cons, hx, decide_true, Bool.true_and, find?_cons, hnil]
      split <;> rfl
    · simp only [filter_cons, hx, decide_false, Bool.false_and, find?_cons]
      exact ih hnd.2

theorem insert?_eq_some_iff :
    t.insert? r = some t' ↔ t.find? (key r) = none ∧ t'.rows = t.rows ++ [r] := by
  rw [← not_isSome_iff_eq_none, ← mem_keys]
  unfold insert?
  split
  · rename_i h
    simp [h]
  rename_i h
  rw [some.injEq]
  constructor
  · rintro rfl
    exact ⟨h, rfl⟩
  · rintro ⟨-, he⟩
    exact ext he.symm

theorem insert?_eq_none_iff : t.insert? r = none ↔ ∃ r', t.find? (key r) = some r' := by
  rw [← isSome_iff_exists, ← mem_keys]
  unfold insert?
  split
  · rename_i h
    simp [h]
  · rename_i h
    simp [h]

theorem mem_insert? (h : t.insert? r = some t') : x ∈ t'.rows ↔ x ∈ t.rows ∨ x = r := by
  rw [(insert?_eq_some_iff.mp h).2]
  simp

theorem find?_insert? (h : t.insert? r = some t') (k : K) :
    t'.find? k = if key r = k then some r else t.find? k := by
  obtain ⟨hn, hr⟩ := insert?_eq_some_iff.mp h
  rw [find?, hr, find?_append, ← find?]
  split
  · rename_i he
    subst he
    simp [hn]
  · rename_i he
    simp [he]

theorem find?_insert?_self (h : t.insert? r = some t') : t'.find? (key r) = some r := by
  rw [find?_insert? h, if_pos rfl]

theorem find?_insert?_of_some (h : t.insert? r = some t') (hx : t.find? k = some x) :
    t'.find? k = some x := by
  rw [find?_insert? h, if_neg, hx]
  intro hk
  have hn := (insert?_eq_some_iff.mp h).1
  rw [hk, hx] at hn
  cases hn

theorem isSome_find?_insert? (h : t.insert? r = some t') (hk : (t.find? k).isSome = true) :
    (t'.find? k).isSome = true := by
  obtain ⟨x, hx⟩ := isSome_iff_exists.mp hk
  rw [find?_insert?_of_some h hx]
  rfl

theorem find?_update (k : K) :
    (t.update p f hf).find? k = (t.find? k).map (fun r => if p r then f r else r) := by
  rw [find?, update, find?_map, find?]
  congr 2
  funext r
  simp only [Function.comp]
  split
  · rw [hf r]
  · rfl

theorem isSome_find?_update (k : K) :
    ((t.update p f hf).find? k).isSome = (t.find? k).isSome := by
  rw [find?_update, isSome_map]

/-- A column that the update does not write. -/
theorem map_find?_update {g : R → A} (hg : ∀ r, g (f r) = g r) (k : K) :
    ((t.update p f hf).find? k).map g = (t.find? k).map g := by
  rw [find?_update, Option.map_map]
  congr 1
  funext r
  simp only [Function.comp]
  split
  · exact hg r
  · rfl

theorem find?_update_of (h : t.find? k = some r) (hp : p r = true) :
    (t.update p f hf).find? k = some (f r) := by
  rw [find?_update, h, map_some, if_pos hp]

/-- An update that can only match the row with key `k`, and does. -/
theorem find?_update_at (h : t.find? k = some r) (hp : p r = true)
    (hk : ∀ x, p x = true → key x = k) (k' : K) :
    (t.update p f hf).find? k' = if k' = k then some (f r) else t.find? k' := by
  by_cases he : k' = k
  · rw [if_pos he, he, find?_update_of h hp]
  rw [if_neg he, find?_update]
  cases hf : t.find? k' with
  | none => rfl
  | some x =>
    have hx : ¬ p x = true := fun hx => he ((key_of_find? hf).symm.trans (hk x hx))
    rw [map_some, if_neg hx]

theorem find?_of_rows_update (hrows : t'.rows = t.rows.map fun r => if p r then f r else r)
    (hf : ∀ r, key (f r) = key r) (h : t.find? k = some r) (hp : p r = true)
    (hk : ∀ x, p x = true → key x = k) (k' : K) :
    t'.find? k' = if k' = k then some (f r) else t.find? k' := by
  rw [show t' = t.update p f hf from Table.ext hrows]
  exact find?_update_at h hp hk k'

theorem find?_delete (k : K) : (t.delete p).find? k = (t.find? k).filter (fun r => !p r) := by
  cases h : t.find? k with
  | none =>
    rw [filter_none, find?_eq_none_iff]
    intro r hr
    exact find?_eq_none_iff.mp h r (mem_delete.mp hr).1
  | some r =>
    obtain ⟨hr, hk⟩ := find?_eq_some_iff.mp h
    rw [filter_some]
    cases hp : p r with
    | false => exact find?_eq_some_iff.mpr ⟨mem_delete.mpr ⟨hr, hp⟩, hk⟩
    | true =>
      refine find?_eq_none_iff.mpr ?_
      intro x hx hxk
      obtain ⟨hx, hpx⟩ := mem_delete.mp hx
      rw [t.eq_of_key_eq hx hr (hxk.trans hk.symm), hp] at hpx
      cases hpx

end Write

/-! ### Maps -/

section Maps

variable {V : Type} [DecidableEq K] {m : Table (Prod.fst : K × V → K)} {k : K} {v : V}

/-- A table of pairs is a map: the value at a key. -/
def value? (m : Table (Prod.fst : K × V → K)) (k : K) : Option V := (m.find? k).map Prod.snd

theorem value?_eq_some_iff : m.value? k = some v ↔ (k, v) ∈ m.rows := by
  rw [value?, map_eq_some_iff]
  constructor
  · rintro ⟨⟨k', v'⟩, hfind, rfl⟩
    obtain ⟨hmem, rfl⟩ := find?_eq_some_iff.mp hfind
    exact hmem
  · intro hmem
    exact ⟨(k, v), find?_eq_some_iff.mpr ⟨hmem, rfl⟩, rfl⟩

/-- Assign a value to a key, which keeps its place if it is there. -/
def put (m : Table (Prod.fst : K × V → K)) (k : K) (v : V) : Table (Prod.fst : K × V → K) :=
  match m.insert? (k, v) with
  | some m' => m'
  | none => m.update (fun r => decide (r.1 = k)) (fun r => (r.1, v)) fun _ => rfl

theorem value?_put (k' : K) : (m.put k v).value? k' = if k' = k then some v else m.value? k' := by
  unfold put value?
  cases hins : m.insert? (k, v) with
  | some =>
    simp only [find?_insert? hins, eq_comm (a := k)]
    split <;> rfl
  | none =>
    obtain ⟨r, hr⟩ := insert?_eq_none_iff.mp hins
    have hkey : r.1 = k := key_of_find? hr
    rw [find?_update_at hr (decide_eq_true hkey) (fun x hx => of_decide_eq_true hx)]
    split <;> rfl

def putAll (m : Table (Prod.fst : K × V → K)) (l : List (K × V)) : Table (Prod.fst : K × V → K) :=
  l.foldl (fun m r => m.put r.1 r.2) m

theorem value?_putAll_of_not_mem {l : List (K × V)} (h : k ∉ l.map Prod.fst) :
    (m.putAll l).value? k = m.value? k := by
  induction l generalizing m with
  | nil => rfl
  | cons r l ih =>
    rw [map_cons, mem_cons, not_or] at h
    rw [putAll, foldl_cons, ← putAll, ih h.2, value?_put, if_neg h.1]

theorem value?_putAll_of_mem {l : List (K × V)} (hnd : (l.map Prod.fst).Nodup) (h : (k, v) ∈ l) :
    (m.putAll l).value? k = some v := by
  induction l generalizing m with
  | nil => simp at h
  | cons r l ih =>
    rw [map_cons, nodup_cons] at hnd
    rw [putAll, foldl_cons, ← putAll]
    rcases mem_cons.mp h with rfl | h
    · rw [value?_putAll_of_not_mem hnd.1, value?_put, if_pos rfl]
    · exact ih hnd.2 h

/-- The values of one map over those of another. -/
theorem value?_putAll_rows (m' : Table (Prod.fst : K × V → K)) :
    (m.putAll m'.rows).value? k = (m'.value? k).or (m.value? k) := by
  cases h : m'.value? k with
  | none =>
    rw [none_or, value?_putAll_of_not_mem]
    intro hk
    obtain ⟨⟨k', v⟩, hr, rfl⟩ := mem_map.mp hk
    rw [value?_eq_some_iff.mpr hr] at h
    cases h
  | some => exact value?_putAll_of_mem m'.nodup (value?_eq_some_iff.mp h)

/-- The map that has, for each item of a list that has a value, the value under its key. -/
def collect {A : Type} (l : List A) (name : A → K) (f : A → Option V) :
    Table (Prod.fst : K × V → K) :=
  empty.putAll (l.filterMap fun a => (f a).map fun v => (name a, v))

theorem value?_collect {l : List A} {name : A → K} {f : A → Option V} (hnd : (l.map name).Nodup) :
    (collect l name f).value? k = some v ↔ ∃ a ∈ l, name a = k ∧ f a = some v := by
  have hmem : ∀ v, (k, v) ∈ l.filterMap (fun a => (f a).map fun v => (name a, v)) ↔
      ∃ a ∈ l, name a = k ∧ f a = some v := by
    intro v
    simp only [mem_filterMap, map_eq_some_iff, Prod.mk.injEq]
    constructor
    · rintro ⟨a, ha, v', hv, hk, rfl⟩
      exact ⟨a, ha, hk, hv⟩
    · rintro ⟨a, ha, hk, hv⟩
      exact ⟨a, ha, v, hv, hk, rfl⟩
  have hkeys : ((l.filterMap fun a => (f a).map fun v => (name a, v)).map Prod.fst).Sublist
      (l.map name) := by
    clear hmem hnd
    induction l with
    | nil => exact Sublist.refl _
    | cons a l ih =>
      cases hf : f a with
      | none =>
        rw [filterMap_cons_none (by rw [hf, map_none])]
        exact ih.cons _
      | some =>
        rw [filterMap_cons_some (by rw [hf, map_some])]
        exact ih.cons_cons _
  rw [collect, ← hmem]
  constructor
  · intro h
    by_contra hnot
    rw [value?_putAll_of_not_mem] at h
    · cases h
    intro hk
    obtain ⟨⟨k', v'⟩, hr, rfl⟩ := mem_map.mp hk
    rw [value?_putAll_of_mem (hnd.sublist hkeys) hr, some.injEq] at h
    exact hnot (h ▸ hr)
  · exact value?_putAll_of_mem (hnd.sublist hkeys)

theorem collect_append_of_none {l l' : List A} {name : A → K} {f : A → Option V}
    (h : ∀ a ∈ l', f a = none) : collect (l ++ l') name f = collect l name f := by
  have hnil : l'.filterMap (fun a => (f a).map fun v => (name a, v)) = [] := by
    rw [filterMap_eq_nil_iff]
    intro a ha
    rw [h a ha, map_none]
  rw [collect, filterMap_append, hnil, append_nil, collect]

theorem mem_keys_iff : k ∈ m.rows.map Prod.fst ↔ (m.value? k).isSome = true := by
  rw [mem_keys, value?, isSome_map]

/-- A map from which the keys are deleted that a test picks. -/
theorem value?_delete (p : K → Bool) :
    (m.delete fun r => p r.1).value? k = if p k then none else m.value? k := by
  rw [value?, find?_delete, value?]
  cases h : m.find? k with
  | none => simp
  | some =>
    rw [filter_some, key_of_find? h]
    cases p k <;> rfl

end Maps

/-! ### Sums in any commutative group -/

/-- The sum of a column expression with values in `M`. -/
def total {M : Type} [AddCommMonoid M] (t : Table key) (g : R → M) : M := (t.rows.map g).sum

section Total

variable {M : Type} [AddCommGroup M] {t t' : Table key} {p : R → Bool} {f : R → R}
  {hf : ∀ r, key (f r) = key r} {g g' : R → M}

theorem total_update :
    (t.update p f hf).total g = t.total (fun r => if p r then g (f r) else g r) := by
  rw [total, update, List.map_map, total]
  congr 1
  refine map_congr_left fun r _ => ?_
  simp only [Function.comp]
  split <;> rfl

variable [DecidableEq K]

theorem total_insert? (h : t.insert? r = some t') : t'.total g = t.total g + g r := by
  rw [total, (insert?_eq_some_iff.mp h).2, map_append, sum_append, map_singleton,
    sum_singleton, total]

/-- Two column expressions that differ on one row only have sums that differ by
that row. -/
theorem total_eq_of_find? (h : t.find? k = some r) (hne : ∀ x ∈ t.rows, x ≠ r → g' x = g x) :
    t.total g' = t.total g + (g' r - g r) := by
  have hr := mem_of_find? h
  have hnd : t.rows.Nodup := t.nodup.of_map
  simp only [total]
  generalize t.rows = l at hr hnd hne
  induction l with
  | nil => simp at hr
  | cons x l ih =>
    simp only [map_cons, sum_cons]
    rw [nodup_cons] at hnd
    rcases mem_cons.mp hr with rfl | hr
    · have : l.map g' = l.map g := map_congr_left fun y hy =>
        hne y (mem_cons_of_mem _ hy) fun he => hnd.1 (he ▸ hy)
      rw [this]
      abel
    · have hx : g' x = g x := hne x mem_cons_self fun he => hnd.1 (he ▸ hr)
      rw [hx, ih hr hnd.2 (fun y hy => hne y (mem_cons_of_mem _ hy))]
      abel

/-- **An update of one row** changes a sum by the new value less the old one. -/
theorem total_update_one (h : t.find? k = some r) (hp : p r = true)
    (hone : ∀ x ∈ t.rows, p x = true → key x = k) :
    (t.update p f hf).total g = t.total g + (g (f r) - g r) := by
  rw [total_update, total_eq_of_find? (g := g) h, if_pos hp]
  intro x hx hne
  rw [if_neg]
  intro hpx
  exact hne (t.eq_of_key_eq hx (mem_of_find? h) ((hone x hx hpx).trans (key_of_find? h).symm))

end Total

/-! ### Sums -/

def sum (t : Table key) (g : R → Int) : Int := (t.rows.map g).sum

section Sum

variable {t t' : Table key} {p : R → Bool} {f : R → R} {hf : ∀ r, key (f r) = key r}
  {g g' : R → Int}

@[simp] theorem sum_empty : (empty : Table key).sum g = 0 := rfl

theorem sum_congr (h : ∀ r ∈ t.rows, g r = g' r) : t.sum g = t.sum g' := by
  rw [sum, sum, map_congr_left h]

theorem sum_eq_zero (h : ∀ r ∈ t.rows, g r = 0) : t.sum g = 0 := by
  refine List.sum_eq_zero fun x hx => ?_
  obtain ⟨r, hr, rfl⟩ := List.mem_map.mp hx
  exact h r hr

theorem sum_add : t.sum (fun r => g r + g' r) = t.sum g + t.sum g' := sum_map_add

theorem sum_update : (t.update p f hf).sum g = t.sum (fun r => if p r then g (f r) else g r) :=
  total_update

theorem sum_update_of_same (hg : ∀ r, g (f r) = g r) : (t.update p f hf).sum g = t.sum g := by
  rw [sum_update]
  refine sum_congr fun r _ => ?_
  split
  · exact hg r
  · rfl

theorem sum_filter : ((t.rows.filter p).map g).sum = t.sum (fun r => if p r then g r else 0) := by
  simp only [sum]
  induction t.rows with
  | nil => rfl
  | cons r l ih =>
    cases hp : p r with
    | true | false => simp [hp, ih]

theorem sum_delete : (t.delete p).sum g = t.sum (fun r => if p r then 0 else g r) := by
  rw [sum, delete, sum_filter]
  refine sum_congr fun r _ => ?_
  cases p r <;> rfl

theorem sum_nonneg (h : ∀ r ∈ t.rows, 0 ≤ g r) : 0 ≤ t.sum g := by
  refine List.sum_nonneg fun x hx => ?_
  obtain ⟨r, hr, rfl⟩ := List.mem_map.mp hx
  exact h r hr

variable [DecidableEq K]

theorem sum_insert? (h : t.insert? r = some t') : t'.sum g = t.sum g + g r :=
  total_insert? h

theorem sum_eq_of_find? (h : t.find? k = some r) (hne : ∀ x ∈ t.rows, x ≠ r → g' x = g x) :
    t.sum g' = t.sum g + (g' r - g r) :=
  total_eq_of_find? h hne

theorem sum_update_one (h : t.find? k = some r) (hp : p r = true)
    (hone : ∀ x ∈ t.rows, p x = true → key x = k) :
    (t.update p f hf).sum g = t.sum g + (g (f r) - g r) :=
  total_update_one h hp hone

/-- A nonnegative column expression is at most its sum at any row. -/
theorem le_sum (h : t.find? k = some r) (hg : ∀ x ∈ t.rows, 0 ≤ g x) : g r ≤ t.sum g := by
  have hr := mem_of_find? h
  exact single_le_sum (by
    intro x hx
    obtain ⟨y, hy, rfl⟩ := mem_map.mp hx
    exact hg y hy) _ (mem_map.mpr ⟨r, hr, rfl⟩)

/-- A sum is a function of what the keys map to. -/
theorem sum_congr_find {R' : Type} {key' : R' → K} {u : Table key'} {h : R' → Int}
    (hfind : ∀ k, (t.find? k).map g = (u.find? k).map h) : t.sum g = u.sum h := by
  have hvalue : ∀ {R : Type} {key : R → K} (t : Table key) (g : R → Int),
      t.rows.map g = (t.rows.map key).map (fun k => ((t.find? k).map g).getD 0) := by
    intro R key t g
    rw [List.map_map]
    refine map_congr_left fun r hr => ?_
    simp only [Function.comp, find?_eq_some_iff.mpr ⟨hr, rfl⟩, map_some, getD_some]
  have hperm : (t.rows.map key).Perm (u.rows.map key') := by
    refine (perm_ext_iff_of_nodup t.nodup u.nodup).mpr fun k => ?_
    rw [mem_keys, mem_keys, ← isSome_map (f := g), hfind, isSome_map]
  rw [sum, sum, hvalue t g, hvalue u h]
  simp only [hfind]
  exact (hperm.map _).sum_eq

/-- **Counting by owner**: a sum over selected rows of what items give to each is a sum over the
items whose owner is selected. -/
theorem sum_owned (l : List A) (owner : A → K) (value : A → Int) (c : R → Bool) :
    t.sum (fun r => if c r then (l.map fun a => if owner a = key r then value a else 0).sum
      else 0) =
    (l.map fun a => if (t.find? (owner a)).any c then value a else 0).sum := by
  induction l with
  | nil => exact sum_eq_zero fun r _ => by simp
  | cons a l ih =>
    have hone : t.sum (fun r => if c r ∧ owner a = key r then value a else 0) =
        if (t.find? (owner a)).any c then value a else 0 := by
      cases hf : t.find? (owner a) with
      | none =>
        refine sum_eq_zero fun r hr => if_neg fun hc => ?_
        exact find?_eq_none_iff.mp hf r hr hc.2.symm
      | some =>
        rw [sum_eq_of_find? (g := fun _ => 0) hf, sum_eq_zero (fun _ _ => rfl), key_of_find? hf]
        · simp
        · intro x hx hne
          refine if_neg fun hc => hne ?_
          exact t.eq_of_key_eq hx (mem_of_find? hf) (hc.2.symm.trans (key_of_find? hf).symm)
    rw [map_cons, sum_cons, ← ih, ← hone, ← sum_add]
    refine sum_congr fun r _ => ?_
    by_cases hc : c r = true <;> simp [hc]

end Sum

/-! ### Generated keys -/

/-- The next value of an integer key: one above every key in use. -/
def nextId {key : R → Int} (t : Table key) : Int :=
  (t.rows.map key).foldr max 0 + 1

theorem lt_nextId {key : R → Int} (t : Table key) (h : r ∈ t.rows) : key r < t.nextId := by
  have : ∀ l : List Int, ∀ x ∈ l, x ≤ l.foldr max 0 := by
    intro l
    induction l with
    | nil => intro x hx; simp at hx
    | cons y l ih =>
      intro x hx
      rcases mem_cons.mp hx with rfl | hx
      · exact le_max_left _ _
      · exact le_trans (ih x hx) (le_max_right _ _)
  have := this (t.rows.map key) (key r) (mem_map_of_mem h)
  rw [nextId]
  omega

theorem nextId_pos {key : R → Int} (t : Table key) : 0 < t.nextId := by
  have : ∀ l : List Int, 0 ≤ l.foldr max 0 := by
    intro l
    induction l with
    | nil => exact le_refl _
    | cons y l ih => exact le_trans ih (le_max_right _ _)
  have := this (t.rows.map key)
  rw [nextId]
  omega

theorem find?_nextId {key : R → Int} (t : Table key) : t.find? t.nextId = none := by
  rw [find?_eq_none_iff]
  intro r hr he
  have := t.lt_nextId hr
  omega

end Table

end UnifyConsole.Lib
