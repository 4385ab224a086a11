import Mathlib.Data.List.Basic
import Mathlib.Data.List.Induction

/-!
# Paths in Hash Trees

A path in a hash tree is what is left of the tree when one leaf is followed to
the root: at each level the sibling and the side it stands on. Hashing up along
the path recomputes the root, and the question is how much a root says about the
path.

A `Scheme` is a hash with the strings it is fed, for a leaf and for an inner
node. Of the strings only `Separated` is asked. Different leaves give different
strings, an inner node's string determines the sibling and the child on a given
side, and no leaf's string is an inner node's. Of the hash nothing is asked, so
the answer is the usual one: two paths to one root either agree or exhibit two
strings they hashed that collide.

Paths are read from the root down, because that is where two of them are known
to meet. One path's sides have to be a beginning of the other's for this:
otherwise they lead to different places in the tree and need not agree.

## Main definitions

* `Scheme`, `Scheme.Separated`: A hash and what it is fed.
* `Scheme.top`: The root of a path, read from the root down.
* `Scheme.fed`: The strings hashed along it.
* `Scheme.climb`, `Scheme.climbed`: The same, for a path read from the leaf up.

## Theorems

* `Scheme.top_binds`: Two paths to one root agree, or collide.
* `Scheme.climb_eq_top`, `Scheme.fed_reverse_subset`: The two readings of a
  path.
-/

namespace Merkle

variable {B D E S : Type}

/-- A hash, and the strings it is fed for a leaf and for an inner node. The
    latter is given the side of the sibling, the sibling and the child. -/
structure Scheme (B D E S : Type) where
  hash : B → D
  leaf : E → B
  node : S → D → D → B

namespace Scheme

/-- The strings tell leaves apart, inner nodes on one side apart, and the two
    kinds from each other. -/
structure Separated (T : Scheme B D E S) : Prop where
  leaf_injective : ∀ e e', T.leaf e = T.leaf e' → e = e'
  node_injective : ∀ s x x' c c', T.node s x c = T.node s x' c' → x = x' ∧ c = c'
  leaf_ne_node : ∀ e s x c, T.leaf e ≠ T.node s x c

/-- The root of a path from a leaf, the path read from the root down. -/
def top (T : Scheme B D E S) (e : E) : List (S × D) → D
  | [] => T.hash (T.leaf e)
  | (s, x) :: rest => T.hash (T.node s x (T.top e rest))

/-- The strings hashed along a path, from the root down. -/
def fed (T : Scheme B D E S) (e : E) : List (S × D) → List B
  | [] => [T.leaf e]
  | (s, x) :: rest => T.node s x (T.top e rest) :: T.fed e rest

/-- The root of a path, the path read from the leaf up. -/
def climb (T : Scheme B D E S) (current : D) (path : List (S × D)) : D :=
  path.foldl (fun c step => T.hash (T.node step.1 step.2 c)) current

/-- The strings hashed along a path, from the leaf up. -/
def climbed (T : Scheme B D E S) : D → List (S × D) → List B
  | _, [] => []
  | current, (s, x) :: rest =>
    T.node s x current :: T.climbed (T.hash (T.node s x current)) rest

theorem climb_append (T : Scheme B D E S) (current : D) (path rest : List (S × D)) :
    T.climb current (path ++ rest) = T.climb (T.climb current path) rest :=
  List.foldl_append

theorem climbed_append (T : Scheme B D E S) (current : D) (path rest : List (S × D)) :
    T.climbed current (path ++ rest)
      = T.climbed current path ++ T.climbed (T.climb current path) rest := by
  induction path generalizing current with
  | nil => rfl
  | cons step path ih =>
      rcases step with ⟨s, x⟩
      rw [List.cons_append, climbed, climbed, ih, List.cons_append]
      rfl

/-- Reading a path up is reading it down the other way round. -/
theorem climb_eq_top (T : Scheme B D E S) (e : E) (path : List (S × D)) :
    T.climb (T.hash (T.leaf e)) path = T.top e path.reverse := by
  induction path using List.reverseRecOn with
  | nil => rfl
  | append_singleton path step ih =>
      rw [climb_append, ih, List.reverse_append, List.reverse_singleton, List.singleton_append,
        top]
      rfl

/-- Both readings hash the same strings. -/
theorem fed_reverse_subset (T : Scheme B D E S) (e : E) (path : List (S × D)) :
    T.fed e path.reverse ⊆ T.leaf e :: T.climbed (T.hash (T.leaf e)) path := by
  induction path using List.reverseRecOn with
  | nil => exact List.Subset.refl _
  | append_singleton path step ih =>
      rcases step with ⟨s, x⟩
      rw [List.reverse_append, List.reverse_singleton, List.singleton_append, fed, climbed_append,
        climb_eq_top]
      intro b hb
      rcases List.mem_cons.mp hb with hb | hb
      · -- The topmost string is the last one hashed on the way up.
        rw [hb]
        exact List.mem_cons_of_mem _ (List.mem_append_right _ List.mem_cons_self)
      · rcases List.mem_cons.mp (ih hb) with hleaf | hmem
        · rw [hleaf]
          exact List.mem_cons_self
        · exact List.mem_cons_of_mem _ (List.mem_append_left _ hmem)

/-- Two strings that were hashed, one on each side, and collide. -/
def Collision (T : Scheme B D E S) (left right : List B) : Prop :=
  ∃ x ∈ left, ∃ y ∈ right, x ≠ y ∧ T.hash x = T.hash y

theorem Collision.symm {T : Scheme B D E S} {left right : List B} (h : T.Collision left right) :
    T.Collision right left := by
  rcases h with ⟨x, hx, y, hy, hne, heq⟩
  exact ⟨y, hy, x, hx, hne.symm, heq.symm⟩

theorem Collision.mono {T : Scheme B D E S} {left right left' right' : List B}
    (h : T.Collision left right) (hleft : left ⊆ left') (hright : right ⊆ right') :
    T.Collision left' right' := by
  rcases h with ⟨x, hx, y, hy, hne, heq⟩
  exact ⟨x, hleft hx, y, hright hy, hne, heq⟩

/-- Two paths that lead to one root, the sides of the first a beginning of the
    sides of the second, are the same path from the same leaf, or two of the
    strings hashed along them collide. -/
theorem top_binds (T : Scheme B D E S) (h : T.Separated) (e e' : E) (path path' : List (S × D))
    (hsides : path.map Prod.fst <+: path'.map Prod.fst)
    (hroot : T.top e path = T.top e' path') :
    (e = e' ∧ path = path') ∨ T.Collision (T.fed e path) (T.fed e' path') := by
  induction path generalizing path' with
  | nil =>
      cases path' with
      | nil =>
          by_cases hleaf : T.leaf e = T.leaf e'
          · exact Or.inl ⟨h.leaf_injective e e' hleaf, rfl⟩
          · exact Or.inr ⟨_, List.mem_singleton_self _, _, List.mem_singleton_self _, hleaf, hroot⟩
      | cons step' rest' =>
          -- A leaf against an inner node: the strings are of different kinds.
          rcases step' with ⟨s', x'⟩
          exact Or.inr ⟨_, List.mem_singleton_self _, _, List.mem_cons_self,
            h.leaf_ne_node e s' x' _, hroot⟩
  | cons step rest ih =>
      rcases step with ⟨s, x⟩
      cases path' with
      | nil =>
          exact absurd (List.prefix_nil.mp hsides) (by simp only [List.map_cons, reduceCtorEq,
            not_false_eq_true])
      | cons step' rest' =>
          rcases step' with ⟨s', x'⟩
          rw [List.map_cons, List.map_cons, List.cons_prefix_cons] at hsides
          rcases hsides with ⟨hs, hsides⟩
          have hs : s = s' := hs
          subst hs
          rw [top, top] at hroot
          by_cases hnode : T.node s x (T.top e rest) = T.node s x' (T.top e' rest')
          · rcases h.node_injective s x x' _ _ hnode with ⟨hx, hchild⟩
            rcases ih rest' hsides hchild with ⟨he, hrest⟩ | hcollision
            · exact Or.inl ⟨he, by rw [hx, hrest]⟩
            · exact Or.inr (hcollision.mono (List.subset_cons_self _ _)
                (List.subset_cons_self _ _))
          · exact Or.inr ⟨_, List.mem_cons_self, _, List.mem_cons_self, hnode, hroot⟩

end Scheme

end Merkle
