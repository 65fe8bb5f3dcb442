/-
Tables of rows with a primary key, as a relational store keeps them.  An insertion that would
repeat a key fails and yields no table.

* `Table`, `Table.get`, `Table.insert`, `Table.update`, `Table.delete`, `Table.assign`: the
  statements;
* `Table.mem_insert`, `Table.get_insert`, `Table.mem_update`, `Table.get_update`: the rows a
  statement leaves, and what stands at a key;
* `Table.get_counterpart`, `Table.insert_update`: tables that agree on a kind of rows;
* `Table.count_admit`, `Table.count_assign`, `Table.sum_assign`: counts and sums.
-/
import Mathlib.Data.List.Nodup
import Mathlib.Tactic

namespace OhecoBroker.Lib

variable {κ ρ : Type} {key : ρ → κ}

/-- Rows with distinct primary keys. -/
structure Table (key : ρ → κ) where
  rows : List ρ
  nodup : (rows.map key).Nodup

namespace Table

instance : EmptyCollection (Table key) := ⟨⟨[], List.nodup_nil⟩⟩

instance : Membership ρ (Table key) := ⟨fun t r => r ∈ t.rows⟩

instance [DecidableEq ρ] (t : Table key) (r : ρ) : Decidable (r ∈ t) :=
  inferInstanceAs (Decidable (r ∈ t.rows))

lemma ext_rows {t u : Table key} (h : t.rows = u.rows) : t = u := by
  cases t; cases u; congr

instance [DecidableEq ρ] : DecidableEq (Table key) := fun t u =>
  decidable_of_iff (t.rows = u.rows) ⟨ext_rows, fun h => h ▸ rfl⟩

/-- A key names one row. -/
lemma eq_of_key_eq {t : Table key} {r r' : ρ} (hr : r ∈ t) (hr' : r' ∈ t)
    (h : key r = key r') : r = r' :=
  List.inj_on_of_nodup_map t.nodup hr hr' h

/-! ### The statements -/

/-- The row with key `k`. -/
def get [DecidableEq κ] (t : Table key) (k : κ) : Option ρ := t.rows.find? (key · = k)

/-- Add a row; fails when its key is taken. -/
def insert [DecidableEq κ] (t : Table key) (r : ρ) : Option (Table key) :=
  if h : key r ∈ t.rows.map key then none
  else some ⟨r :: t.rows, by
    rw [List.map_cons]
    exact List.nodup_cons.mpr ⟨h, t.nodup⟩⟩

/-- Apply `f` to the rows that satisfy `p`. -/
def update (t : Table key) (p : ρ → Bool) (f : ρ → ρ) (hf : ∀ r, key (f r) = key r) :
    Table key where
  rows := t.rows.map fun r => if p r then f r else r
  nodup := by
    have hkey : (key ∘ fun r => if p r then f r else r) = key := by
      funext r
      by_cases h : p r <;> simp [h, hf]
    rw [List.map_map, hkey]
    exact t.nodup

def delete (t : Table key) (p : ρ → Bool) : Table key where
  rows := t.rows.filter fun r => !p r
  nodup := t.nodup.sublist (List.filter_sublist.map key)

def select (t : Table key) (p : ρ → Bool) : List ρ := t.rows.filter p

/-- Replace the row with its key, or add it. -/
def assign [DecidableEq κ] (t : Table key) (r : ρ) : Table key where
  rows := r :: (t.delete (key · = key r)).rows
  nodup := by
    rw [List.map_cons, List.nodup_cons]
    refine ⟨fun hmem => ?_, (t.delete _).nodup⟩
    obtain ⟨q, hq, hk⟩ := List.mem_map.mp hmem
    simpa [hk] using (List.mem_filter.mp hq).2

def count (t : Table key) (p : ρ → Bool) : ℕ := t.rows.countP p

def any (t : Table key) (p : ρ → Bool) : Bool := t.rows.any p

/-! ### What they leave -/

@[simp] lemma not_mem_empty (r : ρ) : r ∉ (∅ : Table key) := List.not_mem_nil

@[simp] lemma mem_select {t : Table key} {p : ρ → Bool} {r : ρ} :
    r ∈ t.select p ↔ r ∈ t ∧ p r :=
  List.mem_filter

/-- The rows of an updated table. -/
@[simp] lemma mem_update {t : Table key} {p : ρ → Bool} {f : ρ → ρ}
    {hf : ∀ r, key (f r) = key r} {r : ρ} :
    r ∈ t.update p f hf ↔ ∃ q ∈ t, (if p q then f q else q) = r :=
  List.mem_map

@[simp] lemma mem_delete {t : Table key} {p : ρ → Bool} {r : ρ} :
    r ∈ t.delete p ↔ r ∈ t ∧ p r = false := by
  refine List.mem_filter.trans ?_
  simp only [Bool.not_eq_true']
  exact Iff.rfl

@[simp] lemma any_eq_true {t : Table key} {p : ρ → Bool} :
    t.any p = true ↔ ∃ r ∈ t, p r :=
  List.any_eq_true

@[simp] lemma any_eq_false {t : Table key} {p : ρ → Bool} :
    t.any p = false ↔ ∀ r ∈ t, p r = false := by
  rw [← Bool.not_eq_true, any_eq_true]
  push Not
  simp only [Bool.not_eq_true]

lemma count_eq_zero {t : Table key} {p : ρ → Bool} :
    t.count p = 0 ↔ ∀ r ∈ t, p r = false := by
  refine List.countP_eq_zero.trans ?_
  simp only [Bool.not_eq_true]
  exact Iff.rfl

section Keys

variable [DecidableEq κ]

/-- A lookup finds the row with the key. -/
lemma get_eq_some {t : Table key} {k : κ} {r : ρ} : t.get k = some r ↔ r ∈ t ∧ key r = k := by
  constructor
  · intro h
    exact ⟨List.mem_of_find?_eq_some h, by simpa using List.find?_some h⟩
  rintro ⟨hr, rfl⟩
  cases h : t.get (key r) with
  | none => exact absurd (List.find?_eq_none.mp h r hr) (by simp)
  | some q =>
    have hq : key q = key r := by simpa using List.find?_some h
    rw [eq_of_key_eq (List.mem_of_find?_eq_some h) hr hq]

lemma get_eq_none {t : Table key} {k : κ} : t.get k = none ↔ ∀ r ∈ t, key r ≠ k := by
  refine List.find?_eq_none.trans ?_
  simp only [decide_eq_true_eq]
  exact Iff.rfl

lemma key_of_get {t : Table key} {k : κ} {r : ρ} (h : t.get k = some r) : key r = k :=
  (get_eq_some.mp h).2

lemma mem_of_get {t : Table key} {k : κ} {r : ρ} (h : t.get k = some r) : r ∈ t :=
  (get_eq_some.mp h).1

lemma get_of_mem {t : Table key} {r : ρ} (h : r ∈ t) : t.get (key r) = some r :=
  get_eq_some.mpr ⟨h, rfl⟩

@[simp] lemma get_empty (k : κ) : (∅ : Table key).get k = none := rfl

lemma insert_eq_some {t t' : Table key} {r : ρ} (h : t.insert r = some t') :
    t.get (key r) = none ∧ t'.rows = r :: t.rows := by
  by_cases hk : key r ∈ t.rows.map key
  · rw [insert, dif_pos hk] at h
    cases h
  rw [insert, dif_neg hk] at h
  cases h
  refine ⟨get_eq_none.mpr fun q hq he => hk ?_, rfl⟩
  exact List.mem_map.mpr ⟨q, hq, he⟩

lemma insert_of_get_none {t : Table key} {r : ρ} (h : t.get (key r) = none) :
    ∃ t', t.insert r = some t' := by
  have hk : key r ∉ t.rows.map key := by
    intro hk
    obtain ⟨q, hq, he⟩ := List.mem_map.mp hk
    exact get_eq_none.mp h q hq he
  exact ⟨_, dif_neg hk⟩

lemma mem_insert {t t' : Table key} {r q : ρ} (h : t.insert r = some t') :
    q ∈ t' ↔ q = r ∨ q ∈ t := by
  show q ∈ t'.rows ↔ _
  rw [(insert_eq_some h).2]
  exact List.mem_cons

/-- What an insertion leaves at a key. -/
lemma get_insert {t t' : Table key} {r : ρ} (h : t.insert r = some t') (k : κ) :
    t'.get k = if key r = k then some r else t.get k := by
  rw [get, (insert_eq_some h).2, List.find?_cons]
  by_cases hk : key r = k <;> simp [hk, get]

lemma get_insert_self {t t' : Table key} {r : ρ} (h : t.insert r = some t') :
    t'.get (key r) = some r := by
  rw [get_insert h, if_pos rfl]

lemma get_filter_congr {t u : Table key} {p : ρ → Bool}
    (h : ∀ r, p r = true → (r ∈ t ↔ r ∈ u)) (k : κ) : (t.get k).filter p = (u.get k).filter p := by
  ext r
  simp only [Option.filter_eq_some_iff, get_eq_some]
  constructor
  · rintro ⟨⟨hr, hk⟩, hp⟩
    exact ⟨⟨(h r hp).mp hr, hk⟩, hp⟩
  · rintro ⟨⟨hr, hk⟩, hp⟩
    exact ⟨⟨(h r hp).mpr hr, hk⟩, hp⟩

lemma get_counterpart {t u : Table key} {p : ρ → Bool}
    (h : ∀ r, p r = true → (r ∈ t ↔ r ∈ u)) (hk : ∀ k, (t.get k).isSome = (u.get k).isSome)
    {k : κ} {r : ρ} (hr : t.get k = some r) (hp : p r = false) :
    ∃ r', u.get k = some r' ∧ p r' = false := by
  have hsome : (u.get k).isSome = true := by rw [← hk, hr, Option.isSome_some]
  obtain ⟨r', hr'⟩ := Option.isSome_iff_exists.mp hsome
  refine ⟨r', hr', Bool.eq_false_iff.mpr fun hp' => ?_⟩
  have := get_filter_congr h k
  rw [hr, hr', Option.filter_some, Option.filter_some, if_pos hp', if_neg (by simp [hp])] at this
  cases this

lemma insert_update {t t' : Table key} {r : ρ} {p : ρ → Bool} {f : ρ → ρ}
    {hf : ∀ r, key (f r) = key r} (h : t.insert r = some t') (hp : ∀ q, p q ↔ key q = key r) :
    t.insert (f r) = some (t'.update p f hf) := by
  obtain ⟨hfree, hrows⟩ := insert_eq_some h
  rw [← hf r] at hfree
  obtain ⟨t'', h''⟩ := insert_of_get_none hfree
  rw [h'', Option.some.injEq]
  refine ext_rows ?_
  have hsame : t.rows.map (fun q => if p q then f q else q) = t.rows := by
    refine (List.map_congr_left fun q hq => ?_).trans (List.map_id _)
    have hq' : ¬p q := fun hpq => get_eq_none.mp hfree q hq (((hp q).mp hpq).trans (hf r).symm)
    rw [if_neg hq', id]
  show _ = t'.rows.map _
  rw [(insert_eq_some h'').2, hrows, List.map_cons, hsame, if_pos ((hp r).mpr rfl)]

/-- What an update leaves at a key. -/
lemma get_update (t : Table key) (p : ρ → Bool) (f : ρ → ρ) (hf : ∀ r, key (f r) = key r)
    (k : κ) : (t.update p f hf).get k = (t.get k).map fun r => if p r then f r else r := by
  have hkey : ∀ r, key (if p r then f r else r) = key r := fun r => by
    by_cases h : p r <;> simp [h, hf]
  rw [get, update, List.find?_map, get]
  congr 2
  funext r
  exact congrArg (fun k' => decide (k' = k)) (hkey r)

/-- What a deletion leaves at a key. -/
lemma get_delete (t : Table key) (p : ρ → Bool) (k : κ) :
    (t.delete p).get k = (t.get k).filter fun r => !p r := by
  cases h : t.get k with
  | none =>
    refine get_eq_none.mpr fun r hr => ?_
    exact get_eq_none.mp h r (mem_delete.mp hr).1
  | some q =>
    obtain ⟨hq, hk⟩ := get_eq_some.mp h
    by_cases hp : p q
    · rw [Option.filter_some, hp]
      refine get_eq_none.mpr fun r hr he => ?_
      obtain ⟨hr, hn⟩ := mem_delete.mp hr
      rw [eq_of_key_eq hr hq (he.trans hk.symm), hp] at hn
      cases hn
    · simp only [Bool.not_eq_true] at hp
      rw [Option.filter_some, hp]
      exact get_eq_some.mpr ⟨mem_delete.mpr ⟨hq, hp⟩, hk⟩

lemma mem_assign {t : Table key} {r q : ρ} :
    q ∈ t.assign r ↔ q = r ∨ (q ∈ t ∧ key q ≠ key r) := by
  refine List.mem_cons.trans (or_congr_right ?_)
  refine mem_delete.trans (and_congr_right fun _ => ?_)
  simp

/-- What an assignment leaves at a key. -/
lemma get_assign (t : Table key) (r : ρ) (k : κ) :
    (t.assign r).get k = if key r = k then some r else t.get k := by
  by_cases hk : key r = k
  · rw [if_pos hk]
    exact get_eq_some.mpr ⟨mem_assign.mpr (.inl rfl), hk⟩
  rw [if_neg hk]
  ext q
  simp only [get_eq_some, mem_assign]
  constructor
  · rintro ⟨rfl | ⟨hq, -⟩, hqk⟩
    · exact absurd hqk hk
    · exact ⟨hq, hqk⟩
  · rintro ⟨hq, rfl⟩
    exact ⟨.inr ⟨hq, fun h => hk h.symm⟩, rfl⟩

lemma countP_filter_key {rows : List ρ} (nodup : (rows.map key).Nodup) (k : κ) (p : ρ → Bool) :
    (rows.filter fun r => !decide (key r = k)).countP p +
      (if (rows.find? (key · = k)).any p then 1 else 0) = rows.countP p := by
  induction rows with
  | nil => rfl
  | cons r rows ih =>
    rw [List.map_cons, List.nodup_cons] at nodup
    have hrest := ih nodup.2
    by_cases hk : key r = k
    · have hkeep : rows.filter (fun q => !decide (key q = k)) = rows := by
        refine List.filter_eq_self.mpr fun q hq => ?_
        have hne : key q ≠ k := fun hqk =>
          nodup.1 (List.mem_map.mpr ⟨q, hq, hqk.trans hk.symm⟩)
        simp [hne]
      simp [hk, hkeep, List.countP_cons]
    · simp only [List.filter_cons, List.find?_cons, hk, decide_false, Bool.not_false, if_true,
        List.countP_cons]
      omega

lemma count_delete_key (t : Table key) (k : κ) (p : ρ → Bool) :
    (t.delete (key · = k)).count p + (if (t.get k).any p then 1 else 0) = t.count p :=
  countP_filter_key t.nodup k p

/-- A row on a free key is counted. -/
lemma count_assign (t : Table key) (r : ρ) (p : ρ → Bool) (h : t.get (key r) = none) :
    (t.assign r).count p = t.count p + (if p r then 1 else 0) := by
  have hdelete := t.count_delete_key (key r) p
  rw [h] at hdelete
  simp only [Option.any_none, Bool.false_eq_true, if_false, Nat.add_zero] at hdelete
  rw [← hdelete]
  exact List.countP_cons

omit [DecidableEq κ] in
lemma count_le_of_keys {t t' : Table key} {p p' : ρ → Bool} (extra : List κ)
    (h : ∀ r ∈ t', p' r = true → key r ∈ extra ∨ ∃ q ∈ t, p q = true ∧ key q = key r) :
    t'.count p' ≤ t.count p + extra.length := by
  have hnodup : ((t'.rows.filter p').map key).Nodup :=
    t'.nodup.sublist (List.filter_sublist.map key)
  have hsub : (t'.rows.filter p').map key ⊆ (t.rows.filter p).map key ++ extra := by
    intro k hk
    obtain ⟨r, hr, rfl⟩ := List.mem_map.mp hk
    obtain ⟨hr, hp⟩ := List.mem_filter.mp hr
    rcases h r hr hp with hx | ⟨q, hq, hpq, hkey⟩
    · exact List.mem_append.mpr (.inr hx)
    · exact List.mem_append.mpr (.inl (List.mem_map.mpr ⟨q, List.mem_filter.mpr ⟨hq, hpq⟩, hkey⟩))
  have hlen := (List.subperm_of_subset hnodup hsub).length_le
  simpa only [count, List.countP_eq_length_filter, List.length_map, List.length_append] using hlen

omit [DecidableEq κ] in
lemma count_admit {t t' : Table key} {p q : ρ → Bool} {r : ρ} {n : ℕ} (h : t.count p ≤ n)
    (hroom : p r = true → t.count q < n)
    (hrows : ∀ w ∈ t', p w = true → w = r ∨ (w ∈ t ∧ (p r = true → q w = true))) :
    t'.count p ≤ n := by
  by_cases hp : p r = true
  · refine (count_le_of_keys [key r] fun w hw hpw => ?_).trans (hroom hp)
    rcases hrows w hw hpw with rfl | ⟨hw, hq⟩
    · exact .inl (List.mem_singleton_self _)
    · exact .inr ⟨w, hw, hq hp, rfl⟩
  refine (count_le_of_keys [] fun w hw hpw => .inr ?_).trans h
  rcases hrows w hw hpw with rfl | ⟨hw, -⟩
  · exact absurd hpw hp
  · exact ⟨w, hw, hpw, rfl⟩

lemma sum_filter_key {M : Type} [AddCommMonoid M] {rows : List ρ} (nodup : (rows.map key).Nodup)
    (k : κ) (f : ρ → M) :
    ((rows.filter fun r => !decide (key r = k)).map f).sum +
      ((rows.find? (key · = k)).map f).getD 0 = (rows.map f).sum := by
  induction rows with
  | nil => exact add_zero _
  | cons r rows ih =>
    rw [List.map_cons, List.nodup_cons] at nodup
    have hrest := ih nodup.2
    by_cases hk : key r = k
    · have hkeep : rows.filter (fun q => !decide (key q = k)) = rows := by
        refine List.filter_eq_self.mpr fun q hq => ?_
        have hne : key q ≠ k := fun hqk =>
          nodup.1 (List.mem_map.mpr ⟨q, hq, hqk.trans hk.symm⟩)
        simp [hne]
      simp [hk, hkeep, add_comm]
    · simp only [List.filter_cons, List.find?_cons, hk, decide_false, Bool.not_false, if_true,
        List.map_cons, List.sum_cons]
      rw [add_assoc, hrest]

lemma sum_assign {M : Type} [AddCommMonoid M] (t : Table key) (r : ρ) (f : ρ → M) :
    ((t.assign r).rows.map f).sum + ((t.get (key r)).map f).getD 0 = f r + (t.rows.map f).sum := by
  have hsum := sum_filter_key t.nodup (key r) f
  rw [← hsum, ← add_assoc]
  rfl

end Keys

end Table

end OhecoBroker.Lib
