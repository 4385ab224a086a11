import Mathlib.Algebra.Group.Nat.Defs
import Mathlib.Data.Nat.Log
import Confium.Lib.Merkle

/-!
# Hash Trees and the Paths in Them

A hash tree is a binary tree with entries at its leaves, whatever its shape. Its
root hash is computed from the leaves up, and the path of an entry is the
siblings on the way: at each inner node the hash of the half the entry is not
in, and the side that half stands on. Climbing from an entry along its path ends
at the root hash, which is what makes a path a proof.

`Scheme` has one string for an inner node for each side of the sibling. In a tree
both are the string of one node, seen from its two halves, and `Sided` says so.

`split` gives the shape logs use: the first half is as large a power of two as
fits, so that it stays as it is when the log grows.

## Main definitions

* `Tree`, `Tree.leaves`, `Tree.size`: A tree and its entries.
* `Sided`: The two sides of an inner node.
* `Sided.root`, `Sided.path`: The root hash, and the path of an entry.
* `Tree.split`: The tree of a log.

## Theorems

* `Sided.climb_path`: A path leads from its entry to the root.
* `Tree.leaves_split`: The tree of a log has its entries, in order.
-/

namespace Merkle

variable {B D E S : Type}

/-- A binary tree with entries at its leaves. -/
inductive Tree (E : Type) where
  | leaf (e : E)
  | node (l r : Tree E)

namespace Tree

/-- The entries, from left to right. -/
def leaves : Tree E → List E
  | leaf e => [e]
  | node l r => l.leaves ++ r.leaves

/-- How many entries there are. -/
def size : Tree E → Nat
  | leaf _ => 1
  | node l r => l.size + r.size

theorem length_leaves (t : Tree E) : t.leaves.length = t.size := by
  induction t with
  | leaf e => rfl
  | node l r ihl ihr => rw [leaves, size, List.length_append, ihl, ihr]

/-- The tree of a log: its first half is the largest power of two below its
    length. The fuel bounds the depth. -/
def split : Nat → E → List E → Tree E
  | _, e, [] => leaf e
  | 0, e, _ :: _ => leaf e
  | fuel + 1, e, e' :: rest =>
    let k := 2 ^ Nat.log 2 (rest.length + 1)
    match (e :: e' :: rest).take k, (e :: e' :: rest).drop k with
    | a :: as, b :: bs => node (split fuel a as) (split fuel b bs)
    -- Neither half is empty.
    | _, _ => leaf e

theorem leaves_split (fuel : Nat) (e : E) (rest : List E) (h : rest.length ≤ fuel) :
    (split fuel e rest).leaves = e :: rest := by
  induction fuel generalizing e rest with
  | zero =>
      rw [List.length_eq_zero_iff.mp (Nat.le_zero.mp h)]
      rfl
  | succ fuel ih =>
      cases rest with
      | nil => rfl
      | cons e' rest =>
          rw [List.length_cons] at h
          have hle : 2 ^ Nat.log 2 (rest.length + 1) ≤ rest.length + 1 :=
            Nat.pow_log_le_self 2 (Nat.succ_ne_zero _)
          have hpos : 0 < 2 ^ Nat.log 2 (rest.length + 1) := Nat.two_pow_pos _
          have hwhole := List.take_append_drop (2 ^ Nat.log 2 (rest.length + 1)) (e :: e' :: rest)
          have htake := List.length_take (i := 2 ^ Nat.log 2 (rest.length + 1))
            (l := e :: e' :: rest)
          have hdrop := List.length_drop (i := 2 ^ Nat.log 2 (rest.length + 1))
            (l := e :: e' :: rest)
          simp only [List.length_cons] at htake hdrop
          -- Both halves have an entry and are shorter than the whole.
          rcases hl : (e :: e' :: rest).take (2 ^ Nat.log 2 (rest.length + 1)) with _ | ⟨a, as⟩
          · rw [hl, List.length_nil] at htake
            omega
          · rcases hr : (e :: e' :: rest).drop (2 ^ Nat.log 2 (rest.length + 1)) with _ | ⟨b, bs⟩
            · rw [hr, List.length_nil] at hdrop
              omega
            · rw [hl] at htake hwhole
              rw [hr] at hdrop hwhole
              rw [List.length_cons] at htake hdrop
              simp only [split, hl, hr]
              rw [leaves, ih a as (by omega), ih b bs (by omega), hwhole]

end Tree

/-- The two sides of an inner node: what stands on the left of one half has that
    half on its right. -/
structure Sided (T : Scheme B D E S) where
  left : S
  right : S
  mirrored : ∀ x c, T.node left x c = T.node right c x

namespace Sided

variable {T : Scheme B D E S}

/-- The root hash of a tree. -/
def root (sides : Sided T) : Tree E → D
  | .leaf e => T.hash (T.leaf e)
  | .node l r => T.hash (T.node sides.left (sides.root l) (sides.root r))

/-- The path of an entry, from the leaf up. -/
def path (sides : Sided T) : Tree E → Nat → List (S × D)
  | .leaf _, _ => []
  | .node l r, i =>
    if i < l.size then sides.path l i ++ [(sides.right, sides.root r)]
    else sides.path r (i - l.size) ++ [(sides.left, sides.root l)]

/-- One more step of a climb. -/
theorem climb_snoc (T : Scheme B D E S) (current : D) (path : List (S × D)) (s : S) (x : D) :
    T.climb current (path ++ [(s, x)]) = T.hash (T.node s x (T.climb current path)) := by
  rw [Scheme.climb_append]
  rfl

/-- A path leads from its entry to the root. -/
theorem climb_path (sides : Sided T) (t : Tree E) (i : Nat) (e : E)
    (h : t.leaves[i]? = some e) : T.climb (T.hash (T.leaf e)) (sides.path t i) = sides.root t := by
  induction t generalizing i with
  | leaf e' =>
      cases i with
      | zero =>
          rw [Tree.leaves, List.getElem?_cons_zero, Option.some.injEq] at h
          rw [h]
          rfl
      | succ i => exact absurd h (by simp only [Tree.leaves, List.getElem?_cons_succ,
          List.getElem?_nil, reduceCtorEq, not_false_eq_true])
  | node l r ihl ihr =>
      rw [Tree.leaves] at h
      unfold path
      by_cases hi : i < l.size
      · rw [List.getElem?_append_left (by rw [Tree.length_leaves]; exact hi)] at h
        rw [if_pos hi, climb_snoc, ihl i h, root, sides.mirrored]
      · rw [List.getElem?_append_right (by rw [Tree.length_leaves]; omega),
          Tree.length_leaves] at h
        rw [if_neg hi, climb_snoc, ihr (i - l.size) h, root]

end Sided

end Merkle
