import Confium.Lib.Hex
import Confium.Core.Errors
import Mathlib.Data.List.Forall2

/-!
# Reading Fields of a Document

The operations every reader of a parsed document is made of: fetching a field
that must be there, indexing for one that need not be, and unpacking a
hexadecimal one. All of them raise, so a reader is a chain of steps in `Except`,
and `bind_eq_ok_iff` and `mapM_eq_ok_iff` are how such a chain is taken apart.

A document need not be an object. An array has a `fetch` and a `[]` of its own
that want an integer, so does an integer's `[]`, a string is indexed by
substring, and the rest have neither.

`null` is worth a remark. `pack('H*')` takes it for the empty string, so a
`null` field is accepted where a missing one is not.

## Main definitions

* `fetch`: A field that must be there.
* `fetchMember`: The same, for a document that may be anything.
* `index`: A field that may be missing.
* `member`: A field, where nothing is raised.
* `packValue`: `[v].pack('H*')`.

## Theorems

* `bind_eq_ok_iff`: A chain succeeds when both its steps do.
* `mapM_eq_ok_iff`: A traversal succeeds when every element does.
* `mapM_mapM_eq_ok_iff`: One traversal after another is one traversal.
* `mapM_eq_ok_congr_iff`: Two traversals agree when they agree everywhere.
* `fetch_eq_ok_iff`: Fetching succeeds when the field is there.
-/

namespace Confium

open Ruby

/-- The fields of an object. -/
abbrev Fields := List (String × Json)

/-- `req.fetch(key)`. -/
def fetch (req : Fields) (key : String) : Except (Exn Json) Json :=
  match Json.field? req key with
  | none => .error (.keyNotFound key)
  | some v => .ok v

/-- `d.fetch(key)`, for any document. -/
def fetchMember (d : Json) (key : String) : Except (Exn Json) Json :=
  match d with
  | .obj fields => fetch fields key
  | .arr _ => .error (.noImplicitConversion (.str key) "Integer")
  | v => .error (.undefinedMethod "fetch" v)

/-- Whether a string has another as a substring. -/
def includes (text part : List Char) : Bool := text.tails.any (fun rest => part.isPrefixOf rest)

/-- `doc[key]`, `nil` when there is none. -/
def index (doc : Json) (key : String) : Except (Exn Json) Json :=
  match doc with
  | .obj fields => .ok ((Json.field? fields key).getD .null)
  -- A string is searched for the key and gives it back if it is there.
  | .str s => .ok (if includes s.toList key.toList then .str key else .null)
  | .arr _ => .error (.noImplicitConversion (.str key) "Integer")
  | .int _ => .error (.noImplicitConversion (.str key) "Integer")
  | v => .error (.undefinedMethod "[]" v)

/-- A member of a document, if it is an object that has one. -/
def member (doc : Json) (key : String) : Option Json :=
  match doc with
  | .obj fields => Json.field? fields key
  | _ => none

/-- `[v].pack('H*')`: `nil` packs as the empty string and nothing else that is
    not a string packs at all. -/
def packValue : Json → Except (Exn Json) Bytes
  | .str s => .ok (packHex s)
  | .null => .ok []
  | v => .error (.noImplicitConversion v "String")

theorem bind_eq_ok_iff {ε α β : Type} (x : Except ε α) (f : α → Except ε β) (b : β) :
    x >>= f = .ok b ↔ ∃ a, x = .ok a ∧ f a = .ok b := by
  cases x with
  | error e => simp only [bind, Except.bind, reduceCtorEq, false_and, exists_false]
  | ok a => simp only [bind, Except.bind, Except.ok.injEq, exists_eq_left']

/-- A traversal succeeds when every element does, with the results in order. -/
theorem mapM_eq_ok_iff {ε α β : Type} (f : α → Except ε β) (l : List α) (bs : List β) :
    l.mapM f = .ok bs ↔ List.Forall₂ (fun a b => f a = .ok b) l bs := by
  induction l generalizing bs with
  | nil =>
      rw [List.mapM_nil, List.forall₂_nil_left_iff]
      simp only [pure, Except.pure, Except.ok.injEq, eq_comm]
  | cons a l ih =>
      rw [List.mapM_cons, bind_eq_ok_iff, List.forall₂_cons_left_iff]
      constructor
      · rintro ⟨b, hb, h⟩
        rw [bind_eq_ok_iff] at h
        rcases h with ⟨bs', hbs, h⟩
        simp only [pure, Except.pure, Except.ok.injEq] at h
        exact ⟨b, bs', hb, (ih bs').mp hbs, h.symm⟩
      · rintro ⟨b, bs', hb, hbs, rfl⟩
        refine ⟨b, hb, ?_⟩
        rw [bind_eq_ok_iff]
        exact ⟨bs', (ih bs').mpr hbs, rfl⟩

/-- A traversal succeeds at all when every element does. -/
theorem mapM_isOk_iff {ε α β : Type} (f : α → Except ε β) (l : List α) :
    (∃ bs, l.mapM f = .ok bs) ↔ ∀ a ∈ l, ∃ b, f a = .ok b := by
  simp only [mapM_eq_ok_iff]
  induction l with
  | nil =>
      simp only [List.forall₂_nil_left_iff, exists_eq, List.not_mem_nil, false_imp_iff,
        implies_true]
  | cons a l ih =>
      rw [List.forall_mem_cons, ← ih]
      constructor
      · rintro ⟨bs, h⟩
        rcases List.forall₂_cons_left_iff.mp h with ⟨b, bs', hb, hbs, _⟩
        exact ⟨⟨b, hb⟩, bs', hbs⟩
      · rintro ⟨⟨b, hb⟩, bs, hbs⟩
        exact ⟨b :: bs, List.Forall₂.cons hb hbs⟩

/-- One traversal after another is the traversal that does both, as far as what
    they return goes. -/
theorem mapM_mapM_eq_ok_iff {ε α β γ : Type} (f : α → Except ε β) (g : β → Except ε γ)
    (l : List α) (cs : List γ) :
    (∃ bs, l.mapM f = .ok bs ∧ bs.mapM g = .ok cs) ↔ l.mapM (fun a => f a >>= g) = .ok cs := by
  simp only [mapM_eq_ok_iff]
  induction l generalizing cs with
  | nil =>
      simp only [List.forall₂_nil_left_iff, exists_eq_left]
  | cons a l ih =>
      constructor
      · rintro ⟨bs, hf, hg⟩
        rcases List.forall₂_cons_left_iff.mp hf with ⟨b, bs', hb, hbs, rfl⟩
        rcases List.forall₂_cons_left_iff.mp hg with ⟨c, cs', hc, hcs, rfl⟩
        exact List.Forall₂.cons ((bind_eq_ok_iff _ _ _).mpr ⟨b, hb, hc⟩)
          ((ih cs').mp ⟨bs', hbs, hcs⟩)
      · intro h
        rcases List.forall₂_cons_left_iff.mp h with ⟨c, cs', hc, hcs, rfl⟩
        rcases (bind_eq_ok_iff _ _ _).mp hc with ⟨b, hb, hc⟩
        rcases (ih cs').mpr hcs with ⟨bs', hbs, hcs⟩
        exact ⟨b :: bs', List.Forall₂.cons hb hbs, List.Forall₂.cons hc hcs⟩

/-- Two traversals of one list return the same exactly when they do the same to
    every element. -/
theorem mapM_eq_ok_congr_iff {ε α β : Type} (f g : α → Except ε β) (l : List α) (bs : List β)
    (hf : l.mapM f = .ok bs) : l.mapM g = .ok bs ↔ ∀ a ∈ l, g a = f a := by
  rw [mapM_eq_ok_iff] at hf ⊢
  induction hf with
  | nil => simp only [List.Forall₂.nil, List.not_mem_nil, false_imp_iff, implies_true]
  | @cons a b l bs hab _ ih =>
      rw [List.forall₂_cons, List.forall_mem_cons, ih, hab]

theorem fetch_eq_ok_iff (req : Fields) (key : String) (v : Json) :
    fetch req key = .ok v ↔ Json.field? req key = some v := by
  rw [fetch]
  cases Json.field? req key with
  | none => simp only [reduceCtorEq]
  | some w => simp only [Except.ok.injEq, Option.some.injEq]

end Confium
