import Mathlib.Data.List.Nodup
import Mathlib.Data.List.Basic

/-!
# Insertion-Ordered Hashes

The associative container of a scripting language: keys are distinct, looking
one up finds at most one value, and iteration visits the entries in the order
they were first stored. Assigning to a key that is already there overwrites
the value where it stands; assigning to a new key appends.

Distinctness of the keys is a field of the structure rather than a hypothesis
carried around by every lemma, so a container with a repeated key cannot be
built in the first place.

The order matters as much as the lookup does. A program that hands
`Hash#values` to something else has promised an order, and `entries_set_of_get?_eq_none`
together with `get?_set_ne` is what lets that promise be proved.

## Main definitions

* `Hash`: Entries in insertion order, with distinct keys.
* `Hash.get?`: Looking a key up.
* `Hash.set`: Assignment, overwriting in place or appending.
* `Hash.setAll`, `Hash.ofEntries`, `Hash.merge`: Assignment of many entries.
* `Hash.delete`: Removing a key.

## Theorems

* `Hash.get?_eq_none_iff`: A failed lookup is an absent key.
* `Hash.get?_set_self`: An assigned key reads back its value.
* `Hash.get?_set_ne`: Assignment leaves every other key alone.
* `Hash.entries_set_of_get?_eq_none`: Assigning a new key appends.
* `Hash.get?_eq_some_iff`: Looking up is membership.
* `Hash.get?_eq_of_perm`: The order of the entries is not part of the map.
* `Hash.keys_set_of_get?_eq_some`: Overwriting keeps the keys.
* `Hash.set_of_get?_eq_some`: Writing back what was read changes nothing.
* `Hash.length_set_of_get?_eq_none`: Appending grows the length by one.
* `Hash.entries_setAll`: Assigning new keys appends them in order.
* `Hash.ofEntries_entries`: A hash is built again from its entries.
* `Hash.get?_merge_of_get?`, `Hash.get?_merge_of_get?_eq_none`: What is looked up
  in a merged hash.
* `Hash.get?_delete_ne`: Removing a key leaves every other key alone.
-/

namespace Ruby

/-- The entries of a hash, oldest first, no key stored twice. -/
@[ext] structure Hash (κ ν : Type) where
  entries : List (κ × ν)
  nodup : (entries.map Prod.fst).Nodup
  deriving DecidableEq

namespace Hash

variable {κ ν : Type}

/-- The hash literal `{}`. -/
def empty : Hash κ ν := ⟨[], List.nodup_nil⟩

def keys (h : Hash κ ν) : List κ := h.entries.map Prod.fst

def values (h : Hash κ ν) : List ν := h.entries.map Prod.snd

def length (h : Hash κ ν) : Nat := h.entries.length

theorem length_values (h : Hash κ ν) : h.values.length = h.length := by
  simp only [values, length, List.length_map]

theorem length_keys (h : Hash κ ν) : h.keys.length = h.length := by
  simp only [keys, length, List.length_map]

/-- What is looked up is stored under its key. -/
theorem mem_of_lookup_eq_some [BEq κ] [LawfulBEq κ] (k : κ) (v : ν) (es : List (κ × ν))
    (h : es.lookup k = some v) : (k, v) ∈ es := by
  rcases List.lookup_eq_some_iff.mp h with ⟨l₁, l₂, heq, _⟩
  rw [heq]
  exact List.mem_append_right l₁ List.mem_cons_self

variable [DecidableEq κ]

def get? (h : Hash κ ν) (k : κ) : Option ν := h.entries.lookup k

def hasKey (h : Hash κ ν) (k : κ) : Bool := (h.get? k).isSome

/-- Assignment on the bare entries: overwrite at the key's position, or run
    off the end and append. -/
def setEntries (k : κ) (v : ν) : List (κ × ν) → List (κ × ν)
  | [] => [(k, v)]
  | e :: rest => if e.1 = k then (k, v) :: rest else e :: setEntries k v rest

theorem lookup_eq_none_iff (k : κ) (es : List (κ × ν)) :
    es.lookup k = none ↔ k ∉ es.map Prod.fst := by
  rw [List.lookup_eq_none_iff]
  constructor
  · intro h hmem
    rcases List.mem_map.mp hmem with ⟨e, he, hek⟩
    have := h e he
    rw [hek] at this
    exact absurd this (by simp only [bne_self_eq_false, Bool.false_eq_true, not_false_eq_true])
  · intro h e he
    rw [bne_iff_ne]
    intro hk
    exact h (List.mem_map.mpr ⟨e, he, hk.symm⟩)

/-- Running off the end is the only way a new key can be assigned. -/
theorem setEntries_of_notMem (k : κ) (v : ν) (es : List (κ × ν))
    (h : k ∉ es.map Prod.fst) : setEntries k v es = es ++ [(k, v)] := by
  induction es with
  | nil => rfl
  | cons e rest ih =>
      simp only [List.map_cons, List.mem_cons, not_or] at h
      rw [setEntries, if_neg (fun hc => h.1 hc.symm), ih h.2, List.cons_append]

/-- Overwriting never touches the list of keys. -/
theorem map_fst_setEntries_of_mem (k : κ) (v : ν) (es : List (κ × ν))
    (h : k ∈ es.map Prod.fst) : (setEntries k v es).map Prod.fst = es.map Prod.fst := by
  induction es with
  | nil => exact absurd h (by simp only [List.map_nil, List.not_mem_nil, not_false_eq_true])
  | cons e rest ih =>
      rw [setEntries]
      by_cases he : e.1 = k
      · rw [if_pos he, List.map_cons, List.map_cons, he]
      · rw [if_neg he, List.map_cons, List.map_cons]
        rw [List.map_cons, List.mem_cons] at h
        rcases h with hk | hk
        · exact absurd hk.symm he
        · rw [ih hk]

theorem nodup_setEntries (k : κ) (v : ν) (es : List (κ × ν))
    (h : (es.map Prod.fst).Nodup) : ((setEntries k v es).map Prod.fst).Nodup := by
  by_cases hk : k ∈ es.map Prod.fst
  · rw [map_fst_setEntries_of_mem k v es hk]
    exact h
  · -- A new key is appended, so it must differ from every key before it.
    rw [setEntries_of_notMem k v es hk, List.map_append]
    refine List.nodup_append.mpr ⟨h, List.nodup_singleton k, ?_⟩
    intro a ha b hb hab
    simp only [List.map_cons, List.map_nil, List.mem_singleton] at hb
    rw [hab, hb] at ha
    exact hk ha

/-- Assignment `h[k] = v`. -/
def set (h : Hash κ ν) (k : κ) (v : ν) : Hash κ ν :=
  ⟨setEntries k v h.entries, nodup_setEntries k v h.entries h.nodup⟩

theorem get?_eq_none_iff (h : Hash κ ν) (k : κ) : h.get? k = none ↔ k ∉ h.keys :=
  lookup_eq_none_iff k h.entries

theorem hasKey_eq_false_iff (h : Hash κ ν) (k : κ) : h.hasKey k = false ↔ h.get? k = none := by
  rw [hasKey, Option.isSome_eq_false_iff, Option.isNone_iff_eq_none]

@[simp] theorem get?_empty (k : κ) : (empty : Hash κ ν).get? k = none := rfl

theorem lookup_setEntries_self (k : κ) (v : ν) (es : List (κ × ν)) :
    (setEntries k v es).lookup k = some v := by
  induction es with
  | nil => simp only [setEntries, List.lookup_cons, beq_self_eq_true]
  | cons e rest ih =>
      rw [setEntries]
      by_cases he : e.1 = k
      · rw [if_pos he, List.lookup_cons]
        simp only [beq_self_eq_true]
      · have hne : (k == e.1) = false := by
          rw [beq_eq_false_iff_ne]
          exact fun hc => he hc.symm
        rw [if_neg he, List.lookup_cons]
        simp only [hne, ih]

theorem lookup_setEntries_ne (k k' : κ) (v : ν) (es : List (κ × ν)) (hne : k' ≠ k) :
    (setEntries k v es).lookup k' = es.lookup k' := by
  have hb : (k' == k) = false := by
    rw [beq_eq_false_iff_ne]
    exact hne
  induction es with
  | nil => simp only [setEntries, List.lookup_cons, hb, List.lookup_nil]
  | cons e rest ih =>
      rw [setEntries]
      by_cases he : e.1 = k
      · have hb' : (k' == e.1) = false := by rw [he]; exact hb
        rw [if_pos he, List.lookup_cons, List.lookup_cons]
        simp only [hb, hb']
      · rw [if_neg he, List.lookup_cons, List.lookup_cons, ih]

@[simp] theorem get?_set_self (h : Hash κ ν) (k : κ) (v : ν) : (h.set k v).get? k = some v :=
  lookup_setEntries_self k v h.entries

theorem get?_set_ne (h : Hash κ ν) (k k' : κ) (v : ν) (hne : k' ≠ k) :
    (h.set k v).get? k' = h.get? k' :=
  lookup_setEntries_ne k k' v h.entries hne

theorem entries_set_of_get?_eq_none (h : Hash κ ν) (k : κ) (v : ν) (hk : h.get? k = none) :
    (h.set k v).entries = h.entries ++ [(k, v)] :=
  setEntries_of_notMem k v h.entries ((get?_eq_none_iff h k).mp hk)

/-- Keys being distinct, looking up is membership. -/
theorem get?_eq_some_iff (h : Hash κ ν) (k : κ) (v : ν) :
    h.get? k = some v ↔ (k, v) ∈ h.entries := by
  refine ⟨mem_of_lookup_eq_some k v h.entries, ?_⟩
  -- The induction is over bare entries: the tail of a hash is not a hash.
  have hentries : ∀ es : List (κ × ν), (es.map Prod.fst).Nodup → (k, v) ∈ es →
      es.lookup k = some v := by
    intro es
    induction es with
    | nil =>
        intro _ hmem
        exact absurd hmem List.not_mem_nil
    | cons e rest ih =>
        intro hnodup hmem
        rw [List.map_cons, List.nodup_cons] at hnodup
        rw [List.lookup_cons]
        rcases List.mem_cons.mp hmem with he | hrest
        · rw [← he]
          simp only [beq_self_eq_true]
        · have hne : (k == e.1) = false := by
            rw [beq_eq_false_iff_ne]
            intro hk
            rw [← hk] at hnodup
            exact hnodup.1 (List.mem_map.mpr ⟨(k, v), hrest, rfl⟩)
          simp only [hne]
          exact ih hnodup.2 hrest
  exact hentries h.entries h.nodup

/-- Two hashes of the same entries, in whatever order, are one map. -/
theorem get?_eq_of_perm (h h' : Hash κ ν) (hperm : h.entries.Perm h'.entries) (k : κ) :
    h.get? k = h'.get? k := by
  ext v
  rw [get?_eq_some_iff, get?_eq_some_iff]
  exact hperm.mem_iff

theorem keys_set_of_get?_eq_some (h : Hash κ ν) (k : κ) (v w : ν) (hk : h.get? k = some w) :
    (h.set k v).keys = h.keys := by
  -- A key that looks something up is a key of the hash.
  refine map_fst_setEntries_of_mem k v h.entries ?_
  by_contra hc
  rw [(get?_eq_none_iff h k).mpr hc] at hk
  exact absurd hk (by simp only [reduceCtorEq, not_false_eq_true])

/-- Writing back what was read changes nothing. -/
theorem set_of_get?_eq_some (h : Hash κ ν) (k : κ) (v : ν) (hk : h.get? k = some v) :
    h.set k v = h := by
  -- The induction is over bare entries: the tail of a hash is not a hash.
  have hentries : ∀ es : List (κ × ν), es.lookup k = some v → setEntries k v es = es := by
    intro es
    induction es with
    | nil =>
        intro hl
        exact absurd hl (by simp only [List.lookup_nil, reduceCtorEq, not_false_eq_true])
    | cons e rest ih =>
        intro hl
        rw [List.lookup_cons] at hl
        rw [setEntries]
        by_cases he : e.1 = k
        · have hb : (k == e.1) = true := by rw [beq_iff_eq, he]
          simp only [hb, Option.some.injEq] at hl
          rw [if_pos he, ← he, ← hl]
        · have hb : (k == e.1) = false := by
            rw [beq_eq_false_iff_ne]
            exact fun hc => he hc.symm
          simp only [hb] at hl
          rw [if_neg he, ih hl]
  exact Hash.ext (hentries h.entries hk)

theorem length_set_of_get?_eq_none (h : Hash κ ν) (k : κ) (v : ν) (hk : h.get? k = none) :
    (h.set k v).length = h.length + 1 := by
  simp only [length, entries_set_of_get?_eq_none h k v hk, List.length_append,
    List.length_singleton]

/-- Assignment of entries one after another. -/
def setAll (h : Hash κ ν) (es : List (κ × ν)) : Hash κ ν := es.foldl (fun h e => h.set e.1 e.2) h

/-- A hash built entry by entry, a later one overwriting an earlier one. -/
def ofEntries (es : List (κ × ν)) : Hash κ ν := empty.setAll es

/-- `h.merge(other)`. -/
def merge (h other : Hash κ ν) : Hash κ ν := h.setAll other.entries

/-- `h` without a key. -/
def delete (h : Hash κ ν) (k : κ) : Hash κ ν :=
  ⟨h.entries.filter (fun e => e.1 ≠ k),
    h.nodup.sublist (List.Sublist.map Prod.fst (List.filter_sublist))⟩

/-- New keys are appended in order. -/
theorem entries_setAll (h : Hash κ ν) (es : List (κ × ν))
    (hnew : ((h.entries ++ es).map Prod.fst).Nodup) : (h.setAll es).entries = h.entries ++ es := by
  induction es generalizing h with
  | nil => rw [setAll, List.foldl_nil, List.append_nil]
  | cons e rest ih =>
      have hkey : h.get? e.1 = none := by
        rw [get?_eq_none_iff]
        intro hmem
        rw [List.map_append, List.map_cons] at hnew
        exact (List.nodup_append.mp hnew).2.2 e.1 hmem e.1 List.mem_cons_self rfl
      have hset := entries_set_of_get?_eq_none h e.1 e.2 hkey
      have hsplit : (h.set e.1 e.2).entries ++ rest = h.entries ++ e :: rest := by
        rw [hset, List.append_assoc, List.singleton_append]
      have hrest := ih (h.set e.1 e.2) (by rw [hsplit]; exact hnew)
      rw [hsplit] at hrest
      exact hrest

/-- A hash is built again from its entries. -/
theorem ofEntries_entries (h : Hash κ ν) : ofEntries h.entries = h :=
  Hash.ext (entries_setAll empty h.entries h.nodup)

theorem get?_setAll_of_notMem (h : Hash κ ν) (es : List (κ × ν)) (k : κ)
    (hk : k ∉ es.map Prod.fst) : (h.setAll es).get? k = h.get? k := by
  induction es generalizing h with
  | nil => rfl
  | cons e rest ih =>
      rw [List.map_cons, List.mem_cons, not_or] at hk
      rw [setAll, List.foldl_cons]
      exact (ih (h.set e.1 e.2) hk.2).trans (get?_set_ne h e.1 k e.2 hk.1)

/-- What one hash has under a key it keeps when merged into another. -/
theorem get?_merge_of_get? (h other : Hash κ ν) (k : κ) (v : ν) (hk : other.get? k = some v) :
    (h.merge other).get? k = some v := by
  -- The induction is over bare entries: the tail of a hash is not a hash.
  have hentries : ∀ (es : List (κ × ν)) (h : Hash κ ν), (es.map Prod.fst).Nodup →
      (k, v) ∈ es → (h.setAll es).get? k = some v := by
    intro es
    induction es with
    | nil => exact fun _ _ hmem => absurd hmem List.not_mem_nil
    | cons e rest ih =>
        intro h hnodup hmem
        rw [List.map_cons, List.nodup_cons] at hnodup
        rw [setAll, List.foldl_cons]
        rcases List.mem_cons.mp hmem with he | hrest
        · rw [← he] at hnodup ⊢
          exact (get?_setAll_of_notMem _ rest k hnodup.1).trans (get?_set_self h k v)
        · exact ih (h.set e.1 e.2) hnodup.2 hrest
  exact hentries other.entries h other.nodup ((get?_eq_some_iff other k v).mp hk)

theorem get?_merge_of_get?_eq_none (h other : Hash κ ν) (k : κ) (hk : other.get? k = none) :
    (h.merge other).get? k = h.get? k :=
  get?_setAll_of_notMem h other.entries k ((get?_eq_none_iff other k).mp hk)

@[simp] theorem get?_delete_self (h : Hash κ ν) (k : κ) : (h.delete k).get? k = none := by
  rw [get?_eq_none_iff, keys, delete, List.mem_map]
  rintro ⟨e, he, hek⟩
  exact of_decide_eq_true (List.mem_filter.mp he).2 hek

theorem get?_delete_ne (h : Hash κ ν) (k k' : κ) (hne : k' ≠ k) :
    (h.delete k).get? k' = h.get? k' := by
  ext v
  rw [get?_eq_some_iff, get?_eq_some_iff, delete, List.mem_filter]
  exact and_iff_left (decide_eq_true hne)

end Hash

end Ruby
