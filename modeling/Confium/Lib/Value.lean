import Mathlib.Data.Rat.Defs
import Mathlib.Algebra.Order.Ring.Rat
import Mathlib.Data.List.Sort
import Mathlib.Data.String.Basic
import Mathlib.Logic.Function.Basic

/-!
# Dynamically Typed Values

What a dynamically typed program is entitled to assume of a value it was
handed: nothing, beyond the operations it goes on to perform. `Object` is the
list of operations a program needs when it stores values under keys and
compares a count against one of them. Strings and integers exist as values,
two strings that differ are different values, and `n >= v` either answers or
raises.

Two values are one key of a hash if they are `eql?`, which is not the same as
being equal: an object is `eql?` to another with the same fields in any order. So
a value is stored under its `key`, which is the same for two values exactly when
they are `eql?`. A string is its own.

`Json` is the universe a parsed document ranges over, and the instance says
how the comparison treats each of its kinds. Integers and floats are numbers
and answer; everything else has no `coerce` and raises. A float is carried as
the exact rational it denotes, the comparison with an integer being exact, and
the two zeros are one value because `eql?` and `hash` identify them. The
infinities are there because a document may spell a number too large for the
format.

## Main definitions

* `Bytes`: A binary string.
* `Object`: The operations asked of an arbitrary value.
* `Double`: A floating-point number that is not `NaN`.
* `Json`: A parsed document.
* `Json.field?`: Looking a field up in an object.
* `Json.key`: A document with the fields of its objects in order.

## Theorems

* `Json.beq_iff`: The comparison of documents decides equality.
* `Json.key_obj_eq_iff`: Which objects are one key of a hash.
-/

namespace Ruby

/-- A binary string. -/
abbrev Bytes := List UInt8

/-- What is asked of a value that may be anything. `ge n v` is the comparison
    `n >= v` of a count with the value, `none` when it raises, and `key v` is
    what a hash goes by. -/
class Object (V : Type) where
  str : String → V
  str_injective : Function.Injective str
  int : Int → V
  ge : Nat → V → Option Bool
  ge_int : ∀ n t, ge n (int t) = some (decide (t ≤ (n : Int)))
  key : V → V
  key_str : ∀ s, key (str s) = str s

/-- A floating-point number: the rational it denotes, or an infinity. -/
inductive Double where
  | finite (q : ℚ)
  | posInf
  | negInf
  deriving DecidableEq

/-- The exact comparison `n >= x` of an integer with a float. -/
def Double.le (n : Nat) : Double → Bool
  | .finite q => decide (q ≤ (n : ℚ))
  | .posInf => false
  | .negInf => true

/-- A parsed document. The fields of an object are in document order; a parsed
    object never repeats a key. -/
inductive Json where
  | null
  | bool (b : Bool)
  | int (i : Int)
  | float (x : Double)
  | str (s : String)
  | arr (items : List Json)
  | obj (fields : List (String × Json))

namespace Json

mutual

def beq : Json → Json → Bool
  | .null, .null => true
  | .bool a, .bool b => a == b
  | .int a, .int b => a == b
  | .float a, .float b => decide (a = b)
  | .str a, .str b => a == b
  | .arr a, .arr b => beqItems a b
  | .obj a, .obj b => beqFields a b
  | _, _ => false

def beqItems : List Json → List Json → Bool
  | [], [] => true
  | a :: as, b :: bs => beq a b && beqItems as bs
  | _, _ => false

def beqFields : List (String × Json) → List (String × Json) → Bool
  | [], [] => true
  | (k, a) :: as, (l, b) :: bs => k == l && beq a b && beqFields as bs
  | _, _ => false

end

mutual

theorem beq_iff : ∀ a b : Json, beq a b = true ↔ a = b
  | .null, b => by cases b <;> simp only [beq, Bool.false_eq_true, reduceCtorEq]
  | .bool a, b => by
      cases b <;> simp only [beq, beq_iff_eq, Bool.false_eq_true, reduceCtorEq, Json.bool.injEq]
  | .int a, b => by
      cases b <;> simp only [beq, beq_iff_eq, Bool.false_eq_true, reduceCtorEq, Json.int.injEq]
  | .float a, b => by
      cases b <;> simp only [beq, decide_eq_true_eq, Bool.false_eq_true, reduceCtorEq,
        Json.float.injEq]
  | .str a, b => by
      cases b <;> simp only [beq, beq_iff_eq, Bool.false_eq_true, reduceCtorEq, Json.str.injEq]
  | .arr as, b => by
      cases b <;> simp only [beq, beqItems_iff as, Bool.false_eq_true, reduceCtorEq,
        Json.arr.injEq]
  | .obj as, b => by
      cases b <;> simp only [beq, beqFields_iff as, Bool.false_eq_true, reduceCtorEq,
        Json.obj.injEq]

theorem beqItems_iff : ∀ as bs : List Json, beqItems as bs = true ↔ as = bs
  | [], bs => by cases bs <;> simp only [beqItems, Bool.false_eq_true, reduceCtorEq]
  | a :: as, bs => by
      cases bs with
      | nil => simp only [beqItems, Bool.false_eq_true, reduceCtorEq]
      | cons b bs =>
          rw [beqItems, Bool.and_eq_true, beq_iff a b, beqItems_iff as bs, List.cons.injEq]

theorem beqFields_iff : ∀ as bs : List (String × Json), beqFields as bs = true ↔ as = bs
  | [], bs => by cases bs <;> simp only [beqFields, Bool.false_eq_true, reduceCtorEq]
  | (k, a) :: as, bs => by
      cases bs with
      | nil => simp only [beqFields, Bool.false_eq_true, reduceCtorEq]
      | cons b bs =>
          rcases b with ⟨l, b⟩
          rw [beqFields, Bool.and_eq_true, Bool.and_eq_true, beq_iff_eq, beq_iff a b,
            beqFields_iff as bs, List.cons.injEq, Prod.mk.injEq]

end

instance : DecidableEq Json := fun a b => decidable_of_iff (beq a b = true) (beq_iff a b)

/-- `Hash#[]` on a parsed object. -/
def field? (fields : List (String × Json)) (key : String) : Option Json := fields.lookup key

/-- A value counts as true unless it is `nil` or `false`. -/
def truthy : Json → Bool
  | .null => false
  | .bool b => b
  | _ => true

/-- Fields in the order of their names. -/
def sortFields (fields : List (String × Json)) : List (String × Json) :=
  fields.insertionSort (fun a b => a.1 ≤ b.1)

mutual

/-- A document with the fields of every object in it in the order of their
    names. -/
def key : Json → Json
  | .null => .null
  | .bool b => .bool b
  | .int i => .int i
  | .float x => .float x
  | .str s => .str s
  | .arr items => .arr (keyItems items)
  | .obj fields => .obj (sortFields (keyFields fields))

def keyItems : List Json → List Json
  | [] => []
  | a :: as => key a :: keyItems as

def keyFields : List (String × Json) → List (String × Json)
  | [] => []
  | (name, a) :: as => (name, key a) :: keyFields as

end

instance : Object Json where
  str := .str
  str_injective := fun _ _ h => by injection h
  int := .int
  ge := fun n v => match v with
    | .int t => some (decide (t ≤ (n : Int)))
    | .float x => some (x.le n)
    | _ => none
  ge_int := fun _ _ => rfl
  key := key
  key_str := fun _ => rfl

theorem map_fst_keyFields (fields : List (String × Json)) :
    (keyFields fields).map Prod.fst = fields.map Prod.fst := by
  induction fields with
  | nil => rfl
  | cons field fields ih => exact congrArg (field.1 :: ·) ih

theorem mem_keyFields_iff (fields : List (String × Json)) (name : String) (v : Json) :
    (name, v) ∈ keyFields fields ↔ ∃ w, (name, w) ∈ fields ∧ key w = v := by
  induction fields with
  | nil => simp only [keyFields, List.not_mem_nil, false_and, exists_false]
  | cons field fields ih =>
      rw [keyFields, List.mem_cons, ih]
      simp only [List.mem_cons, or_and_right, exists_or, Prod.ext_iff]
      refine or_congr_left ?_
      constructor
      · rintro ⟨rfl, rfl⟩
        exact ⟨field.2, ⟨rfl, rfl⟩, rfl⟩
      · rintro ⟨w, ⟨hname, rfl⟩, hkey⟩
        exact ⟨hname, hkey.symm⟩

/-- Two objects are one key of a hash when they have the same fields, in whatever
    order, with values that are. -/
theorem key_obj_eq_iff (as bs : List (String × Json)) (has : (as.map Prod.fst).Nodup)
    (hbs : (bs.map Prod.fst).Nodup) :
    key (.obj as) = key (.obj bs) ↔ ∀ name v,
      (∃ a, (name, a) ∈ as ∧ key a = v) ↔ (∃ b, (name, b) ∈ bs ∧ key b = v) := by
  have hsorted : ∀ fields, (sortFields fields).Pairwise (fun a b => a.1 ≤ b.1) :=
    fun fields => List.pairwise_insertionSort _ fields
  have hperm : ∀ fields, (sortFields fields).Perm fields :=
    fun fields => List.perm_insertionSort _ fields
  have hnodup : ∀ fields, (fields.map Prod.fst).Nodup → (keyFields fields).Nodup := by
    intro fields hfields
    refine List.Nodup.of_map Prod.fst ?_
    rw [map_fst_keyFields]
    exact hfields
  rw [key, key, Json.obj.injEq]
  simp only [← mem_keyFields_iff]
  constructor
  · intro h name v
    rw [← (hperm (keyFields as)).mem_iff, h, (hperm (keyFields bs)).mem_iff]
  · intro h
    have hsame : (keyFields as).Perm (keyFields bs) :=
      (List.perm_ext_iff_of_nodup (hnodup as has) (hnodup bs hbs)).mpr
        (fun field => h field.1 field.2)
    refine List.Perm.eq_of_pairwise ?_ (hsorted _) (hsorted _)
      ((hperm _).trans (hsame.trans (hperm _).symm))
    -- Two fields of one object with one name are one field.
    intro a b ha hb hab hba
    have ha' := (hperm _).mem_iff.mp ha
    have hb' := hsame.symm.mem_iff.mp ((hperm _).mem_iff.mp hb)
    refine List.inj_on_of_nodup_map ?_ ha' hb' (le_antisymm hab hba)
    rw [map_fst_keyFields]
    exact has

end Json

end Ruby
