import Confium.Lib.Heap
import Confium.Lib.Run
import Confium.Lib.RString

/-!
# Bytes That Are Zeroed When They Are Cleared

`Confium::SecureBytes` holds a private copy of a String. `bytes` hands out
further copies, `bytes!` hands out one and clears, and `clear` overwrites the
private copy with zeros and lets go of it. Strings are mutable objects here, so
they live on a heap and are referred to by address: what matters about a copy is
that it is another object.

An object knows whether it was cleared and, until then, where its buffer is. The
two always agree, which is a field of the structure.

The caller is part of the system. It makes Strings, changes the ones it has in
place, looks at them, lets go of them, and calls the methods. The finalizer is one
more operation, since the collector runs it whenever it pleases. An operation on a
variable the program does not have is a `NameError` and changes nothing.

A program lets go of a String when it gives its variable another value, and when it
does not keep what `bytes` returned. Nothing zeroes such a String, and it stays on
the heap. `released` is not state of the program. It records these Strings, so that
they can be told from the ones that the class left behind.

A Ruby String is one cell here. How the interpreter shares character buffers
between equal Strings is not part of the model.

## Main definitions

* `SecureBytes`: An object of the class.
* `SecureBytes.new`, `bytes`, `bytesBang`, `length`, `clear`, `inspect`,
  `finalize`: Its methods.
* `Program`: The Strings and objects of a program.
* `SecureOp`, `Program.step`, `Program.after`: What a program does, and where it
  ends up.

## Theorems

* `SecureBytes.eq_held_or_spent`: An object has a buffer or was cleared.
-/

namespace Confium

open Ruby

instance : Inhabited RString := ⟨RString.binary []⟩

/-- What the methods raise, and a variable that is not there. -/
inductive SecureExn where
  | clearedError
  | nameError
  deriving DecidableEq

/-- The default message of `ClearedError`. -/
def SecureExn.message : SecureExn → String
  | .clearedError => "SecureBytes already cleared"
  | .nameError => "undefined local variable"

/-- `Confium::SecureBytes`: `@buffer`, by address, and `@cleared`. -/
structure SecureBytes where
  buffer : Option Nat
  cleared : Bool
  agree : buffer.isSome = !cleared
  deriving DecidableEq

namespace SecureBytes

/-- An object with a buffer. -/
def held (a : Nat) : SecureBytes := ⟨some a, false, rfl⟩

/-- An object that was cleared. -/
def spent : SecureBytes := ⟨none, true, rfl⟩

/-- An object has a buffer or was cleared. -/
theorem eq_held_or_spent (o : SecureBytes) : (∃ a, o = held a) ∨ o = spent := by
  rcases o with ⟨buffer, cleared, agree⟩
  cases buffer with
  | none =>
      cases cleared with
      | true => exact Or.inr rfl
      | false => exact absurd agree Bool.false_ne_true
  | some a =>
      cases cleared with
      | true => exact absurd agree.symm Bool.false_ne_true
      | false => exact Or.inl ⟨a, rfl⟩

/-- The buffer of an object that was not cleared. -/
def address (o : SecureBytes) (h : o.cleared = false) : Nat :=
  o.buffer.get (by rw [o.agree, h]; rfl)

/-- `"\x00" * n`. -/
def zeros (n : Nat) : RString := ⟨List.replicate n 0, .utf8⟩

/-- `buffer.replace("\x00" * buffer.bytesize)`. -/
def overwrite (heap : Heap RString) (a : Nat) : Heap RString :=
  heap.set a (zeros (heap.get a).bytes.length)

/-- The constructor: a copy of the given String, tagged as binary. -/
def new (heap : Heap RString) (raw : Nat) : SecureBytes × Heap RString :=
  let copied := heap.alloc (RString.binary (heap.get raw).bytes)
  (held copied.1, copied.2)

/-- `bytes`. -/
def bytes (heap : Heap RString) (o : SecureBytes) : Except SecureExn Nat × Heap RString :=
  if h : o.cleared = false then
    let copied := heap.alloc (heap.get (o.address h))
    (.ok copied.1, copied.2)
  else (.error .clearedError, heap)

/-- `clear`. -/
def clear (heap : Heap RString) (o : SecureBytes) : SecureBytes × Heap RString :=
  if h : o.cleared = false then (spent, overwrite heap (o.address h)) else (o, heap)

/-- `bytes!`. -/
def bytesBang (heap : Heap RString) (o : SecureBytes) :
    Except SecureExn Nat × SecureBytes × Heap RString :=
  if h : o.cleared = false then
    let copied := heap.alloc (heap.get (o.address h))
    (.ok copied.1, clear copied.2 o)
  else (.error .clearedError, o, heap)

/-- `length`, also `size`. -/
def length (heap : Heap RString) (o : SecureBytes) : Nat :=
  if h : o.cleared = false then (heap.get (o.address h)).bytes.length else 0

/-- `inspect`, of an object with a given `object_id`. -/
def inspect (objectId : Nat) (heap : Heap RString) (o : SecureBytes) : String :=
  let name := "#<Confium::SecureBytes:0x" ++ String.ofList (Nat.toDigits 16 objectId)
  if o.cleared then name ++ " CLEARED>"
  else name ++ " " ++ toString (o.length heap) ++ " bytes>"

/-- `finalize`, run by the collector. -/
def finalize (heap : Heap RString) (o : SecureBytes) : SecureBytes × Heap RString :=
  if o.cleared then (o, heap)
  else
    match o.buffer with
    | some a => (spent, overwrite heap a)
    | none => (spent, heap)

end SecureBytes

/-- The Strings and the objects a program has variables for, and the heap they
    are on. -/
@[ext] structure Program where
  heap : Heap RString
  strings : List Nat
  objects : List SecureBytes
  released : List Nat

/-- What a program does with a String. -/
inductive StringOp where
  /-- `string.replace(s)`, or any other change in place. -/
  | replace (s : RString)
  | look
  /-- `SecureBytes.wrap(string)`. -/
  | wrap
  deriving DecidableEq

/-- What a program, or the collector, does with an object. -/
inductive ObjectOp where
  | bytes
  | bytesBang
  | length
  | isCleared
  | clear
  | inspect
  | finalize
  deriving DecidableEq

/-- What a program does, variables by their position among those it has. -/
inductive SecureOp where
  | literal (s : RString)
  | string (v : Nat) (op : StringOp)
  /-- `string = nil`. -/
  | letGo (v : Nat)
  | object (i : Nat) (op : ObjectOp)
  deriving DecidableEq

/-- What an operation returns, a new variable by its position. -/
inductive SecureReply where
  | string (v : Nat)
  | object (i : Nat)
  | contents (s : RString)
  | number (n : Nat)
  | bool (b : Bool)
  | text (s : String)
  | done
  deriving DecidableEq

/-- An answer: a reply or an exception. -/
abbrev SecureAnswer := Except SecureExn SecureReply

namespace Program

/-- A program that has done nothing yet. -/
def start : Program := ⟨Heap.empty, [], [], []⟩

/-- A new variable for a String. -/
def bind (p : Program) (heap : Heap RString) (a : Nat) : SecureAnswer × Program :=
  (.ok (.string p.strings.length), { p with heap := heap, strings := p.strings ++ [a] })

/-- A variable and its String given up. -/
def letGo (p : Program) (v a : Nat) : Program :=
  { p with strings := p.strings.eraseIdx v, released := p.released ++ [a] }

/-- An object changed in place. -/
def update (p : Program) (i : Nat) (next : SecureBytes × Heap RString) : Program :=
  { p with heap := next.2, objects := p.objects.set i next.1 }

/-- An operation on the String at an address. -/
def onString (p : Program) (a : Nat) : StringOp → SecureAnswer × Program
  | .replace s => (.ok .done, { p with heap := p.heap.set a s })
  | .look => (.ok (.contents (p.heap.get a)), p)
  | .wrap =>
    let made := SecureBytes.new p.heap a
    (.ok (.object p.objects.length),
      { p with heap := made.2, objects := p.objects ++ [made.1] })

/-- An operation on the object of a variable. -/
def onObject (objectId : Nat → Nat) (p : Program) (i : Nat) (o : SecureBytes) :
    ObjectOp → SecureAnswer × Program
  | .bytes =>
    match o.bytes p.heap with
    | (.ok a, heap) => p.bind heap a
    | (.error e, _) => (.error e, p)
  | .bytesBang =>
    match o.bytesBang p.heap with
    | (.ok a, next) => (p.update i next).bind next.2 a
    | (.error e, _) => (.error e, p)
  | .length => (.ok (.number (o.length p.heap)), p)
  | .isCleared => (.ok (.bool o.cleared), p)
  | .clear => (.ok (.object i), p.update i (o.clear p.heap))
  | .inspect => (.ok (.text (o.inspect (objectId i) p.heap)), p)
  | .finalize => (.ok .done, p.update i (o.finalize p.heap))

/-- One operation of a program, its objects with the given `object_id`s. -/
def step (objectId : Nat → Nat) : Machine.Step Program SecureOp SecureAnswer
  | p, .literal s =>
    let made := p.heap.alloc s
    p.bind made.2 made.1
  | p, .string v op =>
    match p.strings[v]? with
    | some a => p.onString a op
    | none => (.error .nameError, p)
  | p, .letGo v =>
    match p.strings[v]? with
    | some a => (.ok .done, p.letGo v a)
    | none => (.error .nameError, p)
  | p, .object i op =>
    match p.objects[i]? with
    | some o => p.onObject objectId i o op
    | none => (.error .nameError, p)

/-- Where a program ends up. -/
def after (objectId : Nat → Nat) (ops : List SecureOp) : Program :=
  Machine.run (step objectId) start ops

end Program

end Confium
