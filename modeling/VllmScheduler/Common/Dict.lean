import Mathlib.Data.List.Nodup
import Mathlib.Data.Finset.Basic
import Mathlib.Data.Set.Insert
/-!
# Insertion-ordered dictionaries

A dictionary whose iteration order is the order in which its keys were
first set: setting a key already there keeps its place, and a deleted key
goes to the end when it is set again. Keys are distinct by construction.
-/

namespace VllmScheduler

universe u v

/-- A dictionary: its entries in iteration order, no key twice. -/
structure Dict (κ : Type u) (ν : Type v) where
  entries : List (κ × ν)
  nodup : (entries.map Prod.fst).Nodup

namespace Dict

variable {κ : Type u} {ν : Type v} [DecidableEq κ]

/-- The empty dictionary. -/
def empty : Dict κ ν := ⟨[], List.nodup_nil⟩

/-- The keys in iteration order. -/
def keys (d : Dict κ ν) : List κ := d.entries.map Prod.fst

instance : Membership κ (Dict κ ν) := ⟨fun d k => k ∈ d.keys⟩

instance decidableMem (k : κ) (d : Dict κ ν) : Decidable (k ∈ d) :=
  inferInstanceAs (Decidable (k ∈ d.keys))

/-- The value at a key. -/
def get? (d : Dict κ ν) (k : κ) : Option ν :=
  (d.entries.find? fun e => e.1 = k).map Prod.snd

/-- Delete a key, if it is there. -/
def erase (d : Dict κ ν) (k : κ) : Dict κ ν where
  entries := d.entries.filter fun e => e.1 ≠ k
  nodup := (List.filter_sublist.map _).nodup d.nodup

/-- Set a key: in place where it is there already, else at the end. -/
def set (d : Dict κ ν) (k : κ) (v : ν) : Dict κ ν :=
  if h : k ∈ d then
    { entries := d.entries.map fun e => if e.1 = k then (k, v) else e
      nodup := by
        have hfst : (d.entries.map fun e => if e.1 = k then (k, v) else e).map Prod.fst =
            d.entries.map Prod.fst := by
          rw [List.map_map]
          refine List.map_congr_left fun e _ => ?_
          by_cases he : e.1 = k <;> simp [he]
        rw [hfst]
        exact d.nodup }
  else
    { entries := d.entries ++ [(k, v)]
      nodup := by
        rw [List.map_append, List.map_singleton]
        exact d.nodup.append (List.nodup_singleton k) (List.disjoint_singleton.mpr h) }

omit [DecidableEq κ] in
/-- Change every value, in place. -/
def mapValues (d : Dict κ ν) (f : ν → ν) : Dict κ ν where
  entries := d.entries.map fun e => (e.1, f e.2)
  nodup := by
    rw [List.map_map]
    exact d.nodup

/-- The keys of one dictionary with the values of another, where it has
them. -/
def refill (d d' : Dict κ ν) : Dict κ ν where
  entries := d.entries.map fun e => (e.1, (d'.get? e.1).getD e.2)
  nodup := by
    rw [List.map_map]
    exact d.nodup

variable {d : Dict κ ν} {j k : κ} {v w : ν}

omit [DecidableEq κ] in
theorem mem_iff : k ∈ d ↔ k ∈ d.keys := Iff.rfl

theorem mem_entries_iff : (k, v) ∈ d.entries ↔ d.get? k = some v := by
  obtain ⟨es, hnd⟩ := d
  simp only [get?]
  induction es with
  | nil => simp
  | cons e es ih =>
    rw [List.map_cons, List.nodup_cons] at hnd
    rw [List.mem_cons]
    by_cases he : e.1 = k
    · rw [List.find?_cons_of_pos (by simpa using he), Option.map_some]
      constructor
      · rintro (rfl | hmem)
        · rfl
        · exact absurd (List.mem_map_of_mem (f := Prod.fst) hmem) (he ▸ hnd.1)
      · intro hv
        exact Or.inl (by rw [← he, ← Option.some.inj hv])
    · rw [List.find?_cons_of_neg (by simpa using he), ← ih hnd.2]
      constructor
      · rintro (rfl | hmem)
        · exact absurd rfl he
        · exact hmem
      · exact Or.inr

theorem mem_iff_exists : k ∈ d ↔ ∃ v, d.get? k = some v := by
  rw [mem_iff, keys, List.mem_map]
  constructor
  · rintro ⟨⟨k', v⟩, he, rfl⟩
    exact ⟨v, mem_entries_iff.mp he⟩
  · rintro ⟨v, hv⟩
    exact ⟨(k, v), mem_entries_iff.mpr hv, rfl⟩

theorem get?_eq_none_iff : d.get? k = none ↔ k ∉ d := by
  rw [mem_iff_exists, not_exists]
  constructor
  · intro h v hv
    rw [h] at hv
    cases hv
  · intro h
    exact Option.eq_none_iff_forall_ne_some.mpr h

@[simp] theorem get?_empty : (empty : Dict κ ν).get? k = none := rfl

omit [DecidableEq κ] in
@[simp] theorem not_mem_empty : k ∉ (empty : Dict κ ν) := List.not_mem_nil

theorem entries_erase : (d.erase k).entries = d.entries.filter fun e => e.1 ≠ k := rfl

theorem entries_set_of_not_mem (h : k ∉ d) : (d.set k v).entries = d.entries ++ [(k, v)] := by
  rw [set, dif_neg h]

/-- Deleting keeps the order of what stays. -/
theorem entries_erase_sublist : (d.erase k).entries.Sublist d.entries := List.filter_sublist

@[simp] theorem get?_erase_self : (d.erase k).get? k = none := by
  rw [Option.eq_none_iff_forall_ne_some]
  intro v hv
  rw [← mem_entries_iff, entries_erase, List.mem_filter] at hv
  simp at hv

theorem get?_erase_of_ne (h : j ≠ k) : (d.erase k).get? j = d.get? j := by
  ext v
  rw [← mem_entries_iff, ← mem_entries_iff, entries_erase, List.mem_filter]
  simp [h]

theorem get?_of_get?_erase (h : (d.erase k).get? j = some v) : d.get? j = some v := by
  by_cases hjk : j = k
  · subst hjk
    rw [get?_erase_self] at h
    cases h
  · rwa [get?_erase_of_ne hjk] at h

@[simp] theorem get?_set_self : (d.set k v).get? k = some v := by
  rw [← mem_entries_iff]
  by_cases h : k ∈ d
  · obtain ⟨w, hw⟩ := mem_iff_exists.mp h
    rw [set, dif_pos h, List.mem_map]
    exact ⟨(k, w), mem_entries_iff.mpr hw, by simp⟩
  · rw [entries_set_of_not_mem h]
    simp

theorem get?_set_of_ne (h : j ≠ k) : (d.set k v).get? j = d.get? j := by
  ext w
  rw [← mem_entries_iff, ← mem_entries_iff]
  by_cases hk : k ∈ d
  · rw [set, dif_pos hk]
    simp only [List.mem_map]
    constructor
    · rintro ⟨e, he, heq⟩
      by_cases hek : e.1 = k
      · rw [if_pos hek, Prod.mk.injEq] at heq
        exact absurd heq.1.symm h
      · rw [if_neg hek] at heq
        exact heq ▸ he
    · intro hmem
      exact ⟨(j, w), hmem, if_neg h⟩
  · rw [entries_set_of_not_mem hk]
    simp [h]

theorem get?_mapValues {f : ν → ν} : (d.mapValues f).get? k = (d.get? k).map f := by
  simp only [get?, mapValues, List.find?_map, Option.map_map]
  rfl

/-- Setting a key brings in no other entry. -/
theorem mem_entries_set {e : κ × ν} (he : e ∈ (d.set k v).entries) :
    e = (k, v) ∨ e ∈ d.entries := by
  have hget : (d.set k v).get? e.1 = some e.2 := mem_entries_iff.mp he
  by_cases h : e.1 = k
  · rw [h, get?_set_self, Option.some.injEq] at hget
    exact Or.inl (Prod.ext h hget.symm)
  · rw [get?_set_of_ne h] at hget
    exact Or.inr (mem_entries_iff.mpr hget)

/-- A dictionary refilled from one with the same keys is that one. -/
theorem refill_eq {d' : Dict κ ν} (h : d.keys = d'.keys) : d.refill d' = d' := by
  have hlen : d.entries.length = d'.entries.length := by
    simpa [keys] using congrArg List.length h
  have hentries : (d.refill d').entries = d'.entries := by
    refine List.ext_getElem (by simpa [refill] using hlen) fun n hn hn' => ?_
    have hlt : n < d.entries.length := hlen ▸ hn'
    have hkey : d.entries[n].1 = d'.entries[n].1 := by
      have := List.getElem_of_eq h (i := n) (by simpa [keys] using hlt)
      simpa [keys] using this
    have hget : d'.get? d'.entries[n].1 = some d'.entries[n].2 :=
      mem_entries_iff.mp (List.getElem_mem hn')
    simp [refill, hkey, hget]
  obtain ⟨es, hes⟩ := d'
  simpa [refill] using hentries

/-- Refilled from one that has all its keys, only these matter. -/
theorem refill_congr {d' src : Dict κ ν} (h : d.keys = d'.keys) (hall : ∀ k ∈ d, k ∈ src) :
    d.refill src = d'.refill src := by
  have hentries : ∀ {d : Dict κ ν}, (∀ k ∈ d, k ∈ src) →
      (d.refill src).entries = d.keys.filterMap fun k => (src.get? k).map fun v => (k, v) := by
    intro d hall
    show d.entries.map (fun e => (e.1, (src.get? e.1).getD e.2)) = _
    rw [keys, List.filterMap_map, ← List.filterMap_eq_map]
    refine List.filterMap_congr fun e he => ?_
    obtain ⟨v, hv⟩ := mem_iff_exists.mp (hall e.1 (List.mem_map_of_mem he))
    simp [hv]
  have heq : (d.refill src).entries = (d'.refill src).entries := by
    rw [hentries hall, hentries fun k hk => hall k (mem_iff.mpr (h ▸ mem_iff.mp hk)), h]
  simpa [refill] using heq

@[simp] theorem mem_erase : j ∈ d.erase k ↔ j ≠ k ∧ j ∈ d := by
  rw [mem_iff_exists, mem_iff_exists]
  by_cases h : j = k
  · subst h
    simp
  · simp [get?_erase_of_ne h, h]

theorem mem_foldl_erase {keys : List κ} : j ∈ keys.foldl erase d ↔ j ∈ d ∧ j ∉ keys := by
  induction keys generalizing d with
  | nil => simp
  | cons k keys ih =>
    rw [List.foldl_cons, ih, mem_erase, List.mem_cons, not_or]
    exact ⟨fun h => ⟨h.1.2, h.1.1, h.2⟩, fun h => ⟨⟨h.2.1, h.1⟩, h.2.2⟩⟩

/-- Nothing is left without the keys. -/
theorem entries_foldl_erase_keys : (d.keys.foldl erase d).entries = [] := by
  have hkeys : (d.keys.foldl erase d).keys = [] := by
    refine List.eq_nil_iff_forall_not_mem.mpr fun j hj => ?_
    obtain ⟨hmem, hnot⟩ := mem_foldl_erase.mp (mem_iff.mpr hj)
    exact hnot (mem_iff.mp hmem)
  exact List.map_eq_nil_iff.mp hkeys

@[simp] theorem mem_set : j ∈ d.set k v ↔ j = k ∨ j ∈ d := by
  rw [mem_iff_exists, mem_iff_exists]
  by_cases h : j = k
  · subst h
    simp
  · simp [get?_set_of_ne h, h]

/-! ## The keys as a set -/

/-- The keys, apart from their order. -/
def ids (d : Dict κ ν) : Set κ := {k | k ∈ d}

omit [DecidableEq κ] in
theorem mem_ids : k ∈ d.ids ↔ k ∈ d := Iff.rfl

omit [DecidableEq κ] in
theorem ids_empty : (empty : Dict κ ν).ids = ∅ :=
  Set.eq_empty_iff_forall_notMem.mpr fun _ => not_mem_empty

theorem ids_set : (d.set k v).ids = insert k d.ids := by
  ext j
  rw [Set.mem_insert_iff, mem_ids, mem_ids, mem_set]

theorem ids_erase : (d.erase k).ids = d.ids \ {k} := by
  ext j
  rw [Set.mem_sdiff, Set.mem_singleton_iff, mem_ids, mem_ids, mem_erase]
  exact and_comm

end Dict

end VllmScheduler
