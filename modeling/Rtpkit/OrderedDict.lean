import Mathlib.Data.List.Sort

/-- A dictionary that keeps its keys in the order of their first insertion. -/
structure OrderedDict (κ ν : Type) where
  entries : List (κ × ν)
  nodup : (entries.map Prod.fst).Nodup

namespace OrderedDict

variable {κ ν : Type}

def empty : OrderedDict κ ν := ⟨[], List.nodup_nil⟩

def keys (d : OrderedDict κ ν) : List κ := d.entries.map Prod.fst

theorem nodup_keys (d : OrderedDict κ ν) : d.keys.Nodup := d.nodup

section Lookup

variable [DecidableEq κ]

def get? (d : OrderedDict κ ν) (k : κ) : Option ν := d.entries.lookup k

/-- Replace the value of the first entry with the key, or append a new entry. -/
def setEntry (k : κ) (v : ν) : List (κ × ν) → List (κ × ν)
  | [] => [(k, v)]
  | e :: es => if e.1 = k then (k, v) :: es else e :: setEntry k v es

theorem map_fst_setEntry (k : κ) (v : ν) (es : List (κ × ν)) :
    (setEntry k v es).map Prod.fst =
      if k ∈ es.map Prod.fst then es.map Prod.fst else es.map Prod.fst ++ [k] := by
  induction es with
  | nil => simp [setEntry]
  | cons e es ih =>
    by_cases h : e.1 = k
    · simp [setEntry, h]
    · simp only [setEntry, if_neg h, List.map_cons, ih, List.mem_cons, Ne.symm h, false_or]
      split
      next => rfl
      next => rfl

def set (d : OrderedDict κ ν) (k : κ) (v : ν) : OrderedDict κ ν where
  entries := setEntry k v d.entries
  nodup := by
    rw [map_fst_setEntry]
    split
    next => exact d.nodup
    next h => simpa using d.nodup.concat h

theorem keys_set (d : OrderedDict κ ν) (k : κ) (v : ν) :
    (d.set k v).keys = if k ∈ d.keys then d.keys else d.keys ++ [k] :=
  map_fst_setEntry k v d.entries

theorem lookup_setEntry (k j : κ) (v : ν) (es : List (κ × ν)) :
    (setEntry k v es).lookup j = if j = k then some v else es.lookup j := by
  induction es with
  | nil =>
    by_cases h : j = k
    · simp [setEntry, h]
    · simp [setEntry, h]
  | cons e es ih =>
    obtain ⟨i, w⟩ := e
    by_cases hi : i = k
    · subst hi
      by_cases h : j = i
      · simp [setEntry, h]
      · simp [setEntry, h, List.lookup_cons, beq_false_of_ne h]
    · simp only [setEntry, if_neg hi, List.lookup_cons]
      by_cases h : j = i
      · subst h
        simp [hi]
      · simp [beq_false_of_ne h, ih]

/-- The dictionary with a function applied to each value. -/
def mapValues {ν' : Type} (d : OrderedDict κ ν) (g : ν → ν') : OrderedDict κ ν' where
  entries := d.entries.map (Prod.map id g)
  nodup := by
    have hkeys : Prod.fst ∘ Prod.map id g = (Prod.fst : κ × ν → κ) := rfl
    rw [List.map_map, hkeys]
    exact d.nodup

theorem mapValues_set {ν' : Type} (d : OrderedDict κ ν) (g : ν → ν') (k : κ) (v : ν) :
    (d.set k v).mapValues g = (d.mapValues g).set k (g v) := by
  have hentries : ∀ es : List (κ × ν), (setEntry k v es).map (Prod.map id g) =
      setEntry k (g v) (es.map (Prod.map id g)) := by
    intro es
    induction es with
    | nil => rfl
    | cons e es ih =>
      rw [List.map_cons, setEntry, setEntry, Prod.map_fst, id]
      split
      next => rfl
      next => rw [List.map_cons, ih]
  unfold mapValues set
  congr 1
  exact hentries d.entries

theorem get?_set (d : OrderedDict κ ν) (k j : κ) (v : ν) :
    (d.set k v).get? j = if j = k then some v else d.get? j :=
  lookup_setEntry k j v d.entries

theorem lookup_map {κ' ν' : Type} [DecidableEq κ'] {f : κ → κ'} (hf : Function.Injective f)
    (g : ν → ν') (es : List (κ × ν)) (k : κ) :
    (es.map (Prod.map f g)).lookup (f k) = (es.lookup k).map g := by
  induction es with
  | nil => rfl
  | cons e es ih =>
    obtain ⟨j, v⟩ := e
    rw [List.map_cons, Prod.map_apply, List.lookup_cons, List.lookup_cons]
    by_cases h : k = j
    · simp [h]
    · simp [beq_false_of_ne h, beq_false_of_ne (hf.ne h), ih]

theorem lookup_eq_none_iff {es : List (κ × ν)} {k : κ} :
    es.lookup k = none ↔ k ∉ es.map Prod.fst := by
  rw [List.lookup_eq_none_iff]
  constructor
  · intro h hk
    obtain ⟨e, he, rfl⟩ := List.mem_map.mp hk
    simpa using h e he
  · intro h e he
    simpa using fun hk : k = e.1 => h (hk ▸ List.mem_map_of_mem he)

theorem lookup_eq_some_iff_mem {es : List (κ × ν)} (hnodup : (es.map Prod.fst).Nodup) {k : κ}
    {v : ν} : es.lookup k = some v ↔ (k, v) ∈ es := by
  induction es with
  | nil => simp
  | cons e es ih =>
    obtain ⟨j, w⟩ := e
    obtain ⟨hj, hes⟩ := List.nodup_cons.mp hnodup
    by_cases hk : k = j
    · subst hk
      have hv : (k, v) ∉ es := fun hv => hj (List.mem_map.mpr ⟨(k, v), hv, rfl⟩)
      simp [hv, eq_comm]
    · simp [List.lookup_cons, beq_false_of_ne hk, hk, ih hes]

/-- Where entries of one key have one value, repeated entries do no harm. -/
theorem lookup_eq_some_iff_of_agree {es : List (κ × ν)}
    (hagree : ∀ e ∈ es, ∀ e' ∈ es, e.1 = e'.1 → e.2 = e'.2) {k : κ} {v : ν} :
    es.lookup k = some v ↔ (k, v) ∈ es := by
  have hmem : ∀ w, es.lookup k = some w → (k, w) ∈ es := by
    intro w hw
    obtain ⟨before, after, rfl, -⟩ := List.lookup_eq_some_iff.mp hw
    simp
  refine ⟨hmem v, fun h => ?_⟩
  cases hlookup : es.lookup k with
  | none => exact absurd (List.mem_map_of_mem h) (lookup_eq_none_iff.mp hlookup)
  | some w => exact congrArg some (hagree (k, w) (hmem w hlookup) (k, v) h rfl)

theorem get?_eq_none_iff (d : OrderedDict κ ν) (k : κ) : d.get? k = none ↔ k ∉ d.keys :=
  lookup_eq_none_iff

theorem mem_keys_of_get? {d : OrderedDict κ ν} {k : κ} {v : ν} (h : d.get? k = some v) :
    k ∈ d.keys := by
  by_contra hnew
  rw [(d.get?_eq_none_iff k).mpr hnew] at h
  cases h

/-- A dictionary that keeps the first value of each key against the log of all entries. -/
theorem get?_keepFirst {d : OrderedDict κ ν} {log : List (κ × ν)} {k : κ} {known : Prop}
    [Decidable known] (h : ∀ j, d.get? j = log.lookup j) (hknown : known ↔ k ∈ log.map Prod.fst)
    (v : ν) (j : κ) :
    (if known then d else d.set k v).get? j = (log ++ [(k, v)]).lookup j := by
  rw [List.lookup_append]
  by_cases hk : k ∈ log.map Prod.fst
  · rw [if_pos (hknown.mpr hk), h j]
    by_cases hj : j = k
    · subst hj
      cases hfound : log.lookup j with
      | none => exact absurd hk (lookup_eq_none_iff.mp hfound)
      | some w => rfl
    · simp [List.lookup_cons, beq_false_of_ne hj]
  · rw [if_neg (mt hknown.mp hk), get?_set, h j]
    by_cases hj : j = k
    · subst hj
      rw [lookup_eq_none_iff.mpr hk]
      simp
    · simp [List.lookup_cons, beq_false_of_ne hj, hj]

end Lookup

section Sorted

variable [LinearOrder κ]

/-- The keys in increasing order. -/
def sortedKeys (d : OrderedDict κ ν) : List κ := d.keys.insertionSort (· ≤ ·)

theorem mem_sortedKeys (d : OrderedDict κ ν) {k : κ} : k ∈ d.sortedKeys ↔ k ∈ d.keys :=
  List.mem_insertionSort (· ≤ ·)

theorem sortedKeys_perm (d : OrderedDict κ ν) : d.sortedKeys.Perm d.keys :=
  List.perm_insertionSort (· ≤ ·) d.keys

theorem sortedKeys_pairwise (d : OrderedDict κ ν) : d.sortedKeys.Pairwise (· < ·) := by
  have hle := List.pairwise_insertionSort (· ≤ ·) d.keys
  have hne := d.sortedKeys_perm.nodup_iff.mpr d.nodup_keys
  exact (hle.and hne).imp fun h => lt_of_le_of_ne h.1 h.2

/-- A strictly increasing list of exactly the keys is the list of the sorted keys. -/
theorem sortedKeys_eq (d : OrderedDict κ ν) {ks : List κ}
    (hs : ks.Pairwise (· < ·)) (hm : ∀ k, k ∈ ks ↔ k ∈ d.keys) : d.sortedKeys = ks := by
  have hperm : d.sortedKeys.Perm ks := by
    refine (List.perm_ext_iff_of_nodup ?_ ?_).mpr fun k => ?_
    · exact d.sortedKeys_perm.nodup_iff.mpr d.nodup_keys
    · exact hs.imp fun h => ne_of_lt h
    · rw [mem_sortedKeys, hm]
  exact hperm.eq_of_pairwise (fun a b _ _ hab hba => absurd hab (lt_asymm hba))
    d.sortedKeys_pairwise hs

/-- The entries in increasing order of their keys. -/
theorem exists_sorted_entries (d : OrderedDict κ ν) :
    ∃ es : List (κ × ν), es.Pairwise (fun a b => a.1 < b.1) ∧
      ∀ e, e ∈ es ↔ d.get? e.1 = some e.2 := by
  refine ⟨d.sortedKeys.filterMap fun k => (d.get? k).map (k, ·), ?_, ?_⟩
  · refine d.sortedKeys_pairwise.filterMap _ fun k j hlt a ha b hb => ?_
    obtain ⟨v, -, rfl⟩ := Option.map_eq_some_iff.mp ha
    obtain ⟨w, -, rfl⟩ := Option.map_eq_some_iff.mp hb
    exact hlt
  · rintro ⟨k, v⟩
    rw [List.mem_filterMap]
    constructor
    · rintro ⟨j, -, h⟩
      obtain ⟨w, hw, heq⟩ := Option.map_eq_some_iff.mp h
      cases heq
      exact hw
    · intro h
      have hk : k ∈ d.keys := mem_keys_of_get? h
      exact ⟨k, d.mem_sortedKeys.mpr hk, by rw [show d.get? k = some v from h]; rfl⟩

theorem mem_keys_iff_of_entries (d : OrderedDict κ ν) {es : List (κ × ν)}
    (hm : ∀ e, e ∈ es ↔ d.get? e.1 = some e.2) {k : κ} :
    k ∈ es.map Prod.fst ↔ k ∈ d.keys := by
  constructor
  · intro hk
    obtain ⟨e, he, rfl⟩ := List.mem_map.mp hk
    exact mem_keys_of_get? ((hm e).mp he)
  · intro hk
    cases hfound : d.get? k with
    | none => exact absurd hk ((d.get?_eq_none_iff k).mp hfound)
    | some v => exact List.mem_map.mpr ⟨(k, v), (hm (k, v)).mpr hfound, rfl⟩

end Sorted

end OrderedDict
