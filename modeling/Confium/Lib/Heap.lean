import Mathlib.Data.List.GetD

/-!
# Objects by Address

Mutable objects of one kind, each at an address of its own. A new object gets the
next address, which nothing refers to yet, and changing one object leaves the
others as they are. Objects are never moved and never taken away, so an address
that was handed out stays good.

## Main definitions

* `Heap`, `Heap.size`: Objects and how many there are.
* `Heap.get`, `Heap.alloc`, `Heap.set`: Reading one, making one and changing one.

## Theorems

* `Heap.get_alloc_of_lt`, `Heap.get_alloc_size`: A new object against the old
  ones.
* `Heap.get_set_self`, `Heap.get_set_of_ne`: A changed object against the others.
* `Heap.ext_get`: A heap is its objects.
* `Heap.map_get_alloc`, `Heap.map_get_set`: What a list of references shows
  afterwards.
-/

namespace Ruby

/-- Objects by address. -/
@[ext] structure Heap (α : Type) where
  cells : List α

namespace Heap

variable {α : Type}

def empty : Heap α := ⟨[]⟩

/-- How many objects there are, which is the next address. -/
def size (h : Heap α) : Nat := h.cells.length

/-- The object at an address. -/
def get [Inhabited α] (h : Heap α) (a : Nat) : α := h.cells.getD a default

/-- A new object and its address. -/
def alloc (h : Heap α) (v : α) : Nat × Heap α := (h.size, ⟨h.cells ++ [v]⟩)

/-- Another value for the object at an address. -/
def set (h : Heap α) (a : Nat) (v : α) : Heap α := ⟨h.cells.set a v⟩

@[simp] theorem alloc_fst (h : Heap α) (v : α) : (h.alloc v).1 = h.size := rfl

@[simp] theorem size_alloc (h : Heap α) (v : α) : (h.alloc v).2.size = h.size + 1 := by
  simp only [alloc, size, List.length_append, List.length_singleton]

@[simp] theorem size_set (h : Heap α) (a : Nat) (v : α) : (h.set a v).size = h.size := by
  simp only [set, size, List.length_set]

variable [Inhabited α]

theorem get_alloc_of_lt (h : Heap α) (v : α) (a : Nat) (ha : a < h.size) :
    (h.alloc v).2.get a = h.get a := by
  unfold get alloc
  rw [List.getD_append _ _ _ _ ha]

/-- Beyond the last object there is nothing. -/
theorem get_of_size_le (h : Heap α) (a : Nat) (ha : h.size ≤ a) : h.get a = default :=
  List.getD_eq_default _ _ ha

theorem get_alloc_of_ne (h : Heap α) (v : α) (a : Nat) (ha : a ≠ h.size) :
    (h.alloc v).2.get a = h.get a := by
  by_cases hlt : a < h.size
  · exact get_alloc_of_lt h v a hlt
  · rw [get_of_size_le _ a (by rw [size_alloc]; omega), get_of_size_le h a (by omega)]

@[simp] theorem get_alloc_size (h : Heap α) (v : α) : (h.alloc v).2.get h.size = v := by
  unfold get alloc size
  rw [List.getD_append_right _ _ _ _ (Nat.le_refl _), Nat.sub_self]
  rfl

theorem get_set_self (h : Heap α) (a : Nat) (v : α) (ha : a < h.size) :
    (h.set a v).get a = v := by
  unfold get set
  rw [List.getD_eq_getElem _ _ (by rw [List.length_set]; exact ha), List.getElem_set_self]

theorem get_set_of_ne (h : Heap α) (a b : Nat) (v : α) (hab : b ≠ a) :
    (h.set a v).get b = h.get b := by
  unfold get set
  rw [List.getD_eq_getElem?_getD, List.getD_eq_getElem?_getD, List.getElem?_set_ne hab.symm]

/-- Heaps of one size with the same objects are the same. -/
theorem ext_get (h h' : Heap α) (hsize : h.size = h'.size) (hget : ∀ a, h.get a = h'.get a) :
    h = h' := by
  apply Heap.ext
  refine List.ext_getElem hsize ?_
  intro a ha ha'
  have := hget a
  unfold get at this
  rwa [List.getD_eq_getElem _ _ ha, List.getD_eq_getElem _ _ ha'] at this

/-- Old references show what they did when an object is made. -/
theorem map_get_alloc {β : Type} (h : Heap α) (v : α) (f : α → β) (refs : List Nat)
    (hrefs : ∀ a ∈ refs, a < h.size) :
    refs.map (fun a => f ((h.alloc v).2.get a)) = refs.map (fun a => f (h.get a)) := by
  apply List.map_congr_left
  intro a ha
  rw [get_alloc_of_lt h v a (hrefs a ha)]

/-- References to other objects show what they did when one is changed. -/
theorem map_get_set_of_not_mem {β : Type} (h : Heap α) (a : Nat) (v : α) (f : α → β)
    (refs : List Nat) (ha : a ∉ refs) :
    refs.map (fun b => f ((h.set a v).get b)) = refs.map (fun b => f (h.get b)) := by
  apply List.map_congr_left
  intro b hb
  rw [get_set_of_ne h a b v (ne_of_mem_of_not_mem hb ha)]

/-- Among references to different objects, the one to the changed object shows
    the new value. -/
theorem map_get_set {β : Type} (h : Heap α) (v : α) (f : α → β) (refs : List Nat) (i a : Nat)
    (hnodup : refs.Nodup) (hi : refs[i]? = some a) (ha : a < h.size) :
    refs.map (fun b => f ((h.set a v).get b)) = (refs.map (fun b => f (h.get b))).set i (f v) := by
  induction refs generalizing i with
  | nil => exact absurd hi (by simp only [List.getElem?_nil, reduceCtorEq, not_false_eq_true])
  | cons b refs ih =>
      rcases List.nodup_cons.mp hnodup with ⟨hb, hnodup⟩
      cases i with
      | zero =>
          rw [List.getElem?_cons_zero, Option.some.injEq] at hi
          subst hi
          rw [List.map_cons, List.map_cons, List.set_cons_zero, get_set_self h b v ha,
            map_get_set_of_not_mem h b v f refs hb]
      | succ i =>
          rw [List.getElem?_cons_succ] at hi
          have hmem : a ∈ refs := List.mem_of_getElem? hi
          rw [List.map_cons, List.map_cons, List.set_cons_succ, ih i hnodup hi,
            get_set_of_ne h a b v (ne_of_mem_of_not_mem hmem hb).symm]

end Heap

end Ruby
