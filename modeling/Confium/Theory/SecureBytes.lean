import Confium.Lib.Simulation
import Confium.Core.SecureBytes

/-!
# What Clearing Is Worth

Three things are wanted of `SecureBytes`, and all of them are about whole
programs, since any of the Strings a program has may be changed at any time.

What an object holds is a value. `Vault` is the class as its documentation
describes it, with no heap at all: a secret is there until it is cleared, and
Strings come and go without touching it. The class refines it, so no change the
caller makes to a String it passed in or was handed shows in an object.

What was cleared is gone. A String that no variable refers to and that is no
buffer any more is all zeros, unless the program had a variable for it and let go of
it, and there was only ever one String for each object and each variable.

What was not asked for does not show. Two programs whose objects hold different
secrets of the same lengths, and which differ in nothing else, get the same
answers for as long as they do not read. When everything is cleared they are in
the same state.

The invariant behind all three is that every variable and every buffer refers to
a String of its own.

## Main definitions

* `Vault`, `Vault.step`: The class without a heap.
* `Program.Sound`: Every reference is to a String of its own.
* `Program.view`: What a program has, as a vault.
* `Program.Alike`: Programs that differ in their secrets only.

## Theorems

* `Program.Sound.bindFresh`, `Program.Sound.wrapFresh`, `Program.Sound.replace`,
  `Program.Sound.letGo`, `Program.Sound.clearAt`: The invariant along each kind of change.
* `Program.step_sound`, `Program.step_view`: And along a step, which is a step
  of the vault.
* `secureBytes_refines_vault`: Programs get the answers a vault gives.
* `dropped_strings_are_zeroed`: What is left behind is zeros.
* `unread_secrets_do_not_show`: Secrets that are not read do not show.
-/

namespace Confium

open Ruby

/-- What a program has, by value: its Strings, and what each object holds. -/
structure Vault where
  strings : List RString
  secrets : List (Option RString)

namespace Vault

def start : Vault := ⟨[], []⟩

def bind (t : Vault) (s : RString) : SecureAnswer × Vault :=
  (.ok (.string t.strings.length), { t with strings := t.strings ++ [s] })

/-- The secret of a variable forgotten. -/
def forget (t : Vault) (i : Nat) : Vault := { t with secrets := t.secrets.set i none }

def onString (t : Vault) (v : Nat) (s : RString) : StringOp → SecureAnswer × Vault
  | .replace s' => (.ok .done, { t with strings := t.strings.set v s' })
  | .look => (.ok (.contents s), t)
  | .wrap =>
    (.ok (.object t.secrets.length),
      { t with secrets := t.secrets ++ [some (RString.binary s.bytes)] })

/-- The line `inspect` prints, which has the length of a secret in it. -/
def describe (objectId : Nat) (secret : Option RString) : String :=
  let name := "#<Confium::SecureBytes:0x" ++ String.ofList (Nat.toDigits 16 objectId)
  match secret with
  | none => name ++ " CLEARED>"
  | some s => name ++ " " ++ toString s.bytes.length ++ " bytes>"

def onObject (objectId : Nat → Nat) (t : Vault) (i : Nat) (secret : Option RString) :
    ObjectOp → SecureAnswer × Vault
  | .bytes =>
    match secret with
    | some s => t.bind s
    | none => (.error .clearedError, t)
  | .bytesBang =>
    match secret with
    | some s => (t.forget i).bind s
    | none => (.error .clearedError, t)
  | .length => (.ok (.number (secret.elim 0 (fun s => s.bytes.length))), t)
  | .isCleared => (.ok (.bool secret.isNone), t)
  | .clear => (.ok (.object i), t.forget i)
  | .inspect => (.ok (.text (describe (objectId i) secret)), t)
  | .finalize => (.ok .done, t.forget i)

/-- One operation on a vault. -/
def step (objectId : Nat → Nat) : Machine.Step Vault SecureOp SecureAnswer
  | t, .literal s => t.bind s
  | t, .string v op =>
    match t.strings[v]? with
    | some s => t.onString v s op
    | none => (.error .nameError, t)
  | t, .letGo v =>
    match t.strings[v]? with
    | some _ => (.ok .done, { t with strings := t.strings.eraseIdx v })
    | none => (.error .nameError, t)
  | t, .object i op =>
    match t.secrets[i]? with
    | some secret => t.onObject objectId i secret op
    | none => (.error .nameError, t)

end Vault

namespace SecureBytes

/-- What an object holds. -/
def secret (heap : Heap RString) (o : SecureBytes) : Option RString := o.buffer.map heap.get

@[simp] theorem secret_held (heap : Heap RString) (a : Nat) :
    (held a).secret heap = some (heap.get a) := rfl

@[simp] theorem secret_spent (heap : Heap RString) : spent.secret heap = none := rfl

/-- What an object holds is in its buffer and nowhere else. -/
theorem secret_congr (heap heap' : Heap RString) (o : SecureBytes)
    (h : ∀ a, o.buffer = some a → heap'.get a = heap.get a) : o.secret heap' = o.secret heap := by
  unfold secret
  cases hb : o.buffer with
  | none => rfl
  | some a => rw [Option.map_some, Option.map_some, h a hb]

/-- `inspect` shows no more than a length. -/
theorem inspect_congr (objectId : Nat) (o : SecureBytes) (heap heap' : Heap RString)
    (h : o.length heap = o.length heap') : o.inspect objectId heap = o.inspect objectId heap' := by
  unfold inspect
  rw [h]

end SecureBytes

namespace Program

/-- The buffers of the objects that have one. -/
def buffers (p : Program) : List Nat := p.objects.filterMap SecureBytes.buffer

/-- Every String something refers to. -/
def refs (p : Program) : List Nat := p.strings ++ p.buffers

/-- A String of zeros. -/
def Zeroed (s : RString) : Prop := ∀ b ∈ s.bytes, b = 0

/-- Every reference is to a String of its own, and what nothing refers to is
    zeros, if the program did not let go of it. -/
structure Sound (p : Program) : Prop where
  distinct : p.refs.Nodup
  bounded : ∀ a ∈ p.refs, a < p.heap.size
  residue : ∀ a, a < p.heap.size → a ∉ p.refs → a ∉ p.released → Zeroed (p.heap.get a)
  counted : p.heap.size = p.strings.length + p.objects.length + p.released.length

/-- What a program has, by value. -/
def view (p : Program) : Vault :=
  ⟨p.strings.map p.heap.get, p.objects.map (SecureBytes.secret p.heap)⟩

theorem mem_buffers_iff (p : Program) (a : Nat) :
    a ∈ p.buffers ↔ ∃ o ∈ p.objects, o.buffer = some a := List.mem_filterMap

theorem mem_refs_of_string {p : Program} {v a : Nat} (h : p.strings[v]? = some a) : a ∈ p.refs :=
  List.mem_append_left _ (List.mem_of_getElem? h)

theorem mem_refs_of_buffer {p : Program} {o : SecureBytes} {a : Nat} (ho : o ∈ p.objects)
    (hb : o.buffer = some a) : a ∈ p.refs :=
  List.mem_append_right _ ((mem_buffers_iff p a).mpr ⟨o, ho, hb⟩)

/-- The program after a String is made for a new variable. -/
def bindFresh (p : Program) (s : RString) : Program :=
  { p with heap := (p.heap.alloc s).2, strings := p.strings ++ [p.heap.size] }

/-- The program after a String is made for a new object. -/
def wrapFresh (p : Program) (s : RString) : Program :=
  { p with heap := (p.heap.alloc s).2,
           objects := p.objects ++ [SecureBytes.held p.heap.size] }

/-- The program after an object lets go of its buffer. -/
def clearAt (p : Program) (i a : Nat) : Program :=
  p.update i (SecureBytes.spent, SecureBytes.overwrite p.heap a)

/-- A new String that gets the one new reference keeps the invariant. -/
theorem Sound.fresh {p q : Program} (h : p.Sound) (s : RString)
    (hheap : q.heap = (p.heap.alloc s).2) (hrefs : q.refs.Perm (p.heap.size :: p.refs))
    (hreleased : q.released = p.released)
    (hcount : q.strings.length + q.objects.length = p.strings.length + p.objects.length + 1) :
    q.Sound where
  distinct := by
    refine hrefs.nodup_iff.mpr (List.nodup_cons.mpr ⟨?_, h.distinct⟩)
    intro hmem
    exact absurd (h.bounded _ hmem) (lt_irrefl _)
  bounded := by
    intro a ha
    rw [hheap, Heap.size_alloc]
    rcases List.mem_cons.mp (hrefs.mem_iff.mp ha) with ha | ha
    · omega
    · exact Nat.lt_succ_of_lt (h.bounded a ha)
  residue := by
    intro a ha hmem hkept
    rw [hheap, Heap.size_alloc] at ha
    have hne : a ≠ p.heap.size := by
      intro heq
      exact hmem (hrefs.mem_iff.mpr (heq ▸ List.mem_cons_self))
    have hold : a ∉ p.refs := fun hr => hmem (hrefs.mem_iff.mpr (List.mem_cons_of_mem _ hr))
    rw [hheap, Heap.get_alloc_of_lt _ _ _ (by omega)]
    exact h.residue a (by omega) hold (hreleased ▸ hkept)
  counted := by
    have hc := h.counted
    rw [hheap, hreleased, Heap.size_alloc]
    omega

theorem Sound.bindFresh {p : Program} (h : p.Sound) (s : RString) : (p.bindFresh s).Sound := by
  refine h.fresh s rfl ?_ rfl ?_
  · show ((p.strings ++ [p.heap.size]) ++ p.buffers).Perm _
    rw [List.append_assoc]
    exact List.perm_middle
  · show (p.strings ++ [p.heap.size]).length + p.objects.length = _
    rw [List.length_append, List.length_singleton]
    omega

theorem Sound.wrapFresh {p : Program} (h : p.Sound) (s : RString) : (p.wrapFresh s).Sound := by
  refine h.fresh s rfl ?_ rfl ?_
  · show (p.strings ++ (p.objects ++ [_]).filterMap SecureBytes.buffer).Perm _
    rw [List.filterMap_append, ← List.append_assoc]
    exact List.perm_append_singleton _ _
  · show p.strings.length + (p.objects ++ [_]).length = _
    rw [List.length_append, List.length_singleton]
    omega

/-- A String that is referred to may be changed. -/
theorem Sound.replace {p : Program} (h : p.Sound) (a : Nat) (s : RString) (ha : a ∈ p.refs) :
    ({ p with heap := p.heap.set a s } : Program).Sound where
  distinct := h.distinct
  bounded := by
    intro b hb
    rw [Heap.size_set]
    exact h.bounded b hb
  residue := by
    intro b hb hmem hkept
    rw [Heap.size_set] at hb
    rw [Heap.get_set_of_ne _ _ _ _ (ne_of_mem_of_not_mem ha hmem).symm]
    exact h.residue b hb hmem hkept
  counted := by
    rw [Heap.size_set]
    exact h.counted

/-- Letting go of a String keeps the invariant. -/
theorem Sound.letGo {p : Program} (h : p.Sound) (v a : Nat) (hv : p.strings[v]? = some a) :
    (p.letGo v a).Sound := by
  rcases List.getElem?_eq_some_iff.mp hv with ⟨hlt, heq⟩
  have hsplit : p.strings.Perm (a :: p.strings.eraseIdx v) := by
    have hmiddle : (p.strings.take v ++ a :: p.strings.drop (v + 1)).Perm _ := List.perm_middle
    rw [← List.eraseIdx_eq_take_drop_succ, ← heq, List.getElem_cons_drop,
      List.take_append_drop, heq] at hmiddle
    exact hmiddle
  have hrefs : p.refs.Perm (a :: (p.letGo v a).refs) := by
    show (p.strings ++ p.buffers).Perm (a :: (p.strings.eraseIdx v ++ p.buffers))
    exact hsplit.append_right _
  constructor
  case distinct => exact (List.nodup_cons.mp (hrefs.nodup_iff.mp h.distinct)).2
  case bounded => exact fun b hb => h.bounded b (hrefs.mem_iff.mpr (List.mem_cons_of_mem _ hb))
  case residue =>
    intro b hb hmem hkept
    have hkept : b ∉ p.released ++ [a] := hkept
    rw [List.mem_append, List.mem_singleton, not_or] at hkept
    refine h.residue b hb ?_ hkept.1
    intro hr
    rcases List.mem_cons.mp (hrefs.mem_iff.mp hr) with heq | hr
    · exact hkept.2 heq
    · exact hmem hr
  case counted =>
    have hc := h.counted
    show p.heap.size = (p.strings.eraseIdx v).length + p.objects.length
      + (p.released ++ [a]).length
    rw [List.length_eraseIdx_of_lt hlt, List.length_append, List.length_singleton]
    omega

/-- An object that has a buffer, with the ones before and after it. -/
theorem split_objects {p : Program} {i : Nat} {o : SecureBytes} (h : p.objects[i]? = some o) :
    ∃ l r, p.objects = l ++ o :: r ∧ ∀ o', p.objects.set i o' = l ++ o' :: r := by
  rcases List.getElem?_eq_some_iff.mp h with ⟨hi, ho⟩
  refine ⟨p.objects.take i, p.objects.drop (i + 1), ?_, ?_⟩
  · rw [← ho, List.getElem_cons_drop, List.take_append_drop]
  · intro o'
    rw [List.set_eq_take_append_cons_drop, if_pos hi]

/-- The buffers that are left when an object lets go of its own. -/
theorem buffers_clearAt {p : Program} {i a : Nat}
    (h : p.objects[i]? = some (SecureBytes.held a)) :
    p.buffers.Perm (a :: (p.clearAt i a).buffers) := by
  rcases split_objects h with ⟨l, r, hobjects, hset⟩
  have hafter : (p.clearAt i a).buffers = (l ++ SecureBytes.spent :: r).filterMap _ :=
    congrArg (List.filterMap SecureBytes.buffer) (hset SecureBytes.spent)
  rw [hafter, buffers, hobjects, List.filterMap_append, List.filterMap_append]
  exact List.perm_middle

/-- And the references. -/
theorem refs_clearAt {p : Program} {i a : Nat} (h : p.objects[i]? = some (SecureBytes.held a)) :
    p.refs.Perm (a :: (p.clearAt i a).refs) :=
  ((buffers_clearAt h).append_left p.strings).trans List.perm_middle

/-- Letting go of a buffer keeps the invariant, because the String is overwritten
    first. -/
theorem Sound.clearAt {p : Program} {i a : Nat} (h : p.Sound)
    (ho : p.objects[i]? = some (SecureBytes.held a)) : (p.clearAt i a).Sound := by
  have hrefs := refs_clearAt ho
  have hnodup := List.nodup_cons.mp (hrefs.nodup_iff.mp h.distinct)
  have ha : a < p.heap.size := h.bounded a (hrefs.mem_iff.mpr List.mem_cons_self)
  constructor
  case distinct => exact hnodup.2
  case bounded =>
    intro b hb
    show b < (p.heap.set a _).size
    rw [Heap.size_set]
    exact h.bounded b (hrefs.mem_iff.mpr (List.mem_cons_of_mem _ hb))
  case residue =>
    intro b hb hmem hkept
    have hb : b < (p.heap.set a (SecureBytes.zeros (p.heap.get a).bytes.length)).size := hb
    rw [Heap.size_set] at hb
    show Zeroed ((p.heap.set a (SecureBytes.zeros (p.heap.get a).bytes.length)).get b)
    by_cases hab : b = a
    · rw [hab, Heap.get_set_self _ _ _ ha]
      intro x hx
      exact List.eq_of_mem_replicate hx
    · rw [Heap.get_set_of_ne _ _ _ _ hab]
      refine h.residue b hb ?_ hkept
      intro hr
      rcases List.mem_cons.mp (hrefs.mem_iff.mp hr) with heq | hr
      · exact hab heq
      · exact hmem hr
  case counted =>
    have hc := h.counted
    show (p.heap.set a _).size = p.strings.length + (p.objects.set i _).length
      + p.released.length
    rw [Heap.size_set, List.length_set]
    exact hc

/-- What the vault is afterwards. -/
theorem view_bindFresh {p : Program} (h : p.Sound) (s : RString) :
    (p.bindFresh s).view = { p.view with strings := p.view.strings ++ [s] } := by
  unfold view Program.bindFresh
  congr 1
  · rw [List.map_append, List.map_singleton, Heap.get_alloc_size]
    congr 1
    exact Heap.map_get_alloc p.heap s id p.strings
      (fun a ha => h.bounded a (List.mem_append_left _ ha))
  · apply List.map_congr_left
    intro o ho
    apply SecureBytes.secret_congr
    intro a hb
    exact Heap.get_alloc_of_lt _ _ _ (h.bounded a (mem_refs_of_buffer ho hb))

theorem view_wrapFresh {p : Program} (h : p.Sound) (s : RString) :
    (p.wrapFresh s).view = { p.view with secrets := p.view.secrets ++ [some s] } := by
  unfold view Program.wrapFresh
  congr 1
  · exact Heap.map_get_alloc p.heap s id p.strings
      (fun a ha => h.bounded a (List.mem_append_left _ ha))
  · rw [List.map_append, List.map_singleton, SecureBytes.secret_held, Heap.get_alloc_size]
    congr 1
    apply List.map_congr_left
    intro o ho
    apply SecureBytes.secret_congr
    intro a hb
    exact Heap.get_alloc_of_lt _ _ _ (h.bounded a (mem_refs_of_buffer ho hb))

theorem view_replace {p : Program} (h : p.Sound) (v a : Nat) (s : RString)
    (hv : p.strings[v]? = some a) :
    ({ p with heap := p.heap.set a s } : Program).view
      = { p.view with strings := p.view.strings.set v s } := by
  have hdistinct := List.nodup_append.mp h.distinct
  have ha := h.bounded a (mem_refs_of_string hv)
  unfold view
  congr 1
  · exact Heap.map_get_set p.heap s id p.strings v a hdistinct.1 hv ha
  · apply List.map_congr_left
    intro o ho
    apply SecureBytes.secret_congr
    intro b hb
    -- A variable and a buffer never refer to one String.
    have hne := hdistinct.2.2 a (List.mem_of_getElem? hv) b ((mem_buffers_iff p b).mpr ⟨o, ho, hb⟩)
    exact Heap.get_set_of_ne _ _ _ _ hne.symm

theorem view_letGo (p : Program) (v a : Nat) :
    (p.letGo v a).view = { p.view with strings := p.view.strings.eraseIdx v } := by
  unfold view Program.letGo
  congr 1
  rw [List.eraseIdx_eq_take_drop_succ, List.eraseIdx_eq_take_drop_succ, List.map_append,
    List.map_take, List.map_drop]

theorem view_clearAt {p : Program} {i a : Nat} (h : p.Sound)
    (ho : p.objects[i]? = some (SecureBytes.held a)) :
    (p.clearAt i a).view = p.view.forget i := by
  have hrefs := refs_clearAt ho
  have hout := (List.nodup_cons.mp (hrefs.nodup_iff.mp h.distinct)).1
  have hkeep : ∀ b, b ∈ (p.clearAt i a).refs → (p.clearAt i a).heap.get b = p.heap.get b := by
    intro b hb
    exact Heap.get_set_of_ne _ _ _ _ (ne_of_mem_of_not_mem hb hout)
  unfold view Vault.forget
  congr 1
  · apply List.map_congr_left
    intro b hb
    exact hkeep b (List.mem_append_left _ hb)
  · have hforget : (p.objects.map (SecureBytes.secret p.heap)).set i none
        = (p.objects.set i SecureBytes.spent).map (SecureBytes.secret p.heap) := by
      rw [List.map_set, SecureBytes.secret_spent]
    rw [hforget]
    apply List.map_congr_left
    intro o ho
    apply SecureBytes.secret_congr
    intro b hb
    exact hkeep b (mem_refs_of_buffer (p := p.clearAt i a) ho hb)

/-- Clearing an object that was cleared already changes nothing. -/
theorem update_spent {p : Program} {i : Nat} (ho : p.objects[i]? = some SecureBytes.spent) :
    p.update i (SecureBytes.spent, p.heap) = p := by
  rcases List.getElem?_eq_some_iff.mp ho with ⟨hi, heq⟩
  unfold update
  rw [← heq, List.set_getElem_self]

theorem forget_spent {p : Program} {i : Nat} (ho : p.objects[i]? = some SecureBytes.spent) :
    p.view.forget i = p.view := by
  have hsecret : p.view.secrets[i]? = some none := by
    show (p.objects.map _)[i]? = _
    rw [List.getElem?_map, ho]
    rfl
  rcases List.getElem?_eq_some_iff.mp hsecret with ⟨hi, heq⟩
  unfold Vault.forget
  rw [← heq, List.set_getElem_self]

theorem onObject_bytesBang_held (objectId : Nat → Nat) (p : Program) (i a : Nat) :
    p.onObject objectId i (SecureBytes.held a) .bytesBang
      = (.ok (.string p.strings.length), (p.bindFresh (p.heap.get a)).clearAt i a) := rfl

theorem getElem?_view_strings (p : Program) (v : Nat) :
    p.view.strings[v]? = (p.strings[v]?).map p.heap.get := List.getElem?_map

theorem getElem?_view_secrets (p : Program) (i : Nat) :
    p.view.secrets[i]? = (p.objects[i]?).map (SecureBytes.secret p.heap) := List.getElem?_map

theorem length_view_strings (p : Program) : p.view.strings.length = p.strings.length :=
  List.length_map _

theorem length_view_secrets (p : Program) : p.view.secrets.length = p.objects.length :=
  List.length_map _

/-- An operation on a String is the vault's. -/
theorem onString_spec {p : Program} (h : p.Sound) (v a : Nat) (hv : p.strings[v]? = some a)
    (op : StringOp) :
    (p.onString a op).1 = (p.view.onString v (p.heap.get a) op).1 ∧
      (p.onString a op).2.Sound ∧
      (p.onString a op).2.view = (p.view.onString v (p.heap.get a) op).2 := by
  cases op with
  | replace s =>
      exact ⟨rfl, h.replace a s (mem_refs_of_string hv), view_replace h v a s hv⟩
  | look => exact ⟨rfl, h, rfl⟩
  | wrap =>
      refine ⟨?_, h.wrapFresh _, view_wrapFresh h _⟩
      unfold onString Vault.onString
      rw [length_view_secrets]

/-- An operation on an object is the vault's. -/
theorem onObject_spec (objectId : Nat → Nat) {p : Program} (h : p.Sound) (i : Nat)
    (o : SecureBytes) (ho : p.objects[i]? = some o) (op : ObjectOp) :
    (p.onObject objectId i o op).1 = (p.view.onObject objectId i (o.secret p.heap) op).1 ∧
      (p.onObject objectId i o op).2.Sound ∧
      (p.onObject objectId i o op).2.view
        = (p.view.onObject objectId i (o.secret p.heap) op).2 := by
  rcases o.eq_held_or_spent with ⟨a, rfl⟩ | rfl
  · have hbound : (p.bindFresh (p.heap.get a)).objects[i]? = some (SecureBytes.held a) := ho
    have hcopied := view_bindFresh h (p.heap.get a)
    have hreply := congrArg (fun n => (.ok (.string n) : SecureAnswer)) (length_view_strings p).symm
    cases op with
    | bytes => exact ⟨hreply, h.bindFresh _, hcopied⟩
    | bytesBang =>
        rw [onObject_bytesBang_held]
        refine ⟨hreply, (h.bindFresh _).clearAt hbound, ?_⟩
        -- The copy is made first, and clearing does not touch it.
        rw [view_clearAt (h.bindFresh _) hbound, hcopied]
        rfl
    | length => exact ⟨rfl, h, rfl⟩
    | isCleared => exact ⟨rfl, h, rfl⟩
    | clear => exact ⟨rfl, h.clearAt ho, view_clearAt h ho⟩
    | inspect => exact ⟨rfl, h, rfl⟩
    | finalize => exact ⟨rfl, h.clearAt ho, view_clearAt h ho⟩
  · have hsame := update_spent ho
    have hforget := forget_spent ho
    have hsound : (p.update i (SecureBytes.spent, p.heap)).Sound := by
      rw [hsame]
      exact h
    cases op with
    | bytes => exact ⟨rfl, h, rfl⟩
    | bytesBang => exact ⟨rfl, h, rfl⟩
    | length => exact ⟨rfl, h, rfl⟩
    | isCleared => exact ⟨rfl, h, rfl⟩
    | clear => exact ⟨rfl, hsound, (congrArg view hsame).trans hforget.symm⟩
    | inspect => exact ⟨rfl, h, rfl⟩
    | finalize => exact ⟨rfl, hsound, (congrArg view hsame).trans hforget.symm⟩

/-- A step of a program is a step of the vault it has. -/
theorem step_spec (objectId : Nat → Nat) {p : Program} (h : p.Sound) (op : SecureOp) :
    (step objectId p op).1 = (Vault.step objectId p.view op).1 ∧
      (step objectId p op).2.Sound ∧
      (step objectId p op).2.view = (Vault.step objectId p.view op).2 := by
  cases op with
  | literal s =>
      refine ⟨?_, h.bindFresh s, view_bindFresh h s⟩
      exact congrArg (fun n => (.ok (.string n) : SecureAnswer)) (length_view_strings p).symm
  | string v op =>
      simp only [step, Vault.step, getElem?_view_strings]
      cases hv : p.strings[v]? with
      | none => exact ⟨rfl, h, rfl⟩
      | some a => exact onString_spec h v a hv op
  | letGo v =>
      simp only [step, Vault.step, getElem?_view_strings]
      cases hv : p.strings[v]? with
      | none => exact ⟨rfl, h, rfl⟩
      | some a => exact ⟨rfl, h.letGo v a hv, view_letGo p v a⟩
  | object i op =>
      simp only [step, Vault.step, getElem?_view_secrets]
      cases ho : p.objects[i]? with
      | none => exact ⟨rfl, h, rfl⟩
      | some o => exact onObject_spec objectId h i o ho op

theorem start_sound : start.Sound where
  distinct := List.nodup_nil
  bounded := fun _ ha => absurd ha List.not_mem_nil
  residue := fun a ha _ _ => absurd ha (Nat.not_lt_zero a)
  counted := rfl

theorem after_sound (objectId : Nat → Nat) (ops : List SecureOp) : (after objectId ops).Sound :=
  Machine.run_induct (step objectId) Sound start ops start_sound
    (fun _ op h => (step_spec objectId h op).2.1)

/-- A program beside the vault it has. -/
def vaultSimulation (objectId : Nat → Nat) :
    Machine.Simulation (step objectId) (Vault.step objectId) where
  state p t := p.Sound ∧ p.view = t
  op := Eq
  answer := Eq
  keeps := by
    rintro p t op _ ⟨h, rfl⟩ rfl
    exact step_spec objectId h op

end Program

/-- Every program gets the answers it would get from a vault: an object holds
    the value it was made with, whatever becomes of the Strings the caller has,
    until it is cleared, taken or collected, and raises `ClearedError` when it is
    read after that. -/
theorem secureBytes_refines_vault (objectId : Nat → Nat) (ops : List SecureOp) :
    Machine.answers (Program.step objectId) Program.start ops
      = Machine.answers (Vault.step objectId) Vault.start ops :=
  ((Program.vaultSimulation objectId).answers_eq (fun _ _ h => h) Program.start Vault.start ops
    ⟨Program.start_sound, rfl⟩ (fun _ _ => rfl)).1

/-- Whether an operation hands out what an object holds. -/
def SecureOp.reads : SecureOp → Bool
  | .object _ .bytes => true
  | .object _ .bytesBang => true
  | _ => false

namespace Program

/-- Programs that differ in nothing but what their buffers hold, byte for byte in
    the same lengths. -/
structure Alike (p q : Program) : Prop where
  strings : p.strings = q.strings
  objects : p.objects = q.objects
  released : p.released = q.released
  size : p.heap.size = q.heap.size
  shown : ∀ a, a ∉ p.buffers → p.heap.get a = q.heap.get a
  lengths : ∀ a, (p.heap.get a).bytes.length = (q.heap.get a).bytes.length

/-- The same new String on both sides. -/
theorem Alike.get_alloc {p q : Program} (h : p.Alike q) (s : RString) (a : Nat) :
    (p.heap.get a = q.heap.get a → (p.heap.alloc s).2.get a = (q.heap.alloc s).2.get a) ∧
      ((p.heap.alloc s).2.get a).bytes.length = ((q.heap.alloc s).2.get a).bytes.length := by
  by_cases ha : a = p.heap.size
  · rw [ha, Heap.get_alloc_size, h.size, Heap.get_alloc_size]
    exact ⟨fun _ => rfl, rfl⟩
  · rw [Heap.get_alloc_of_ne _ _ _ ha, Heap.get_alloc_of_ne _ _ _ (h.size ▸ ha)]
    exact ⟨fun heq => heq, h.lengths a⟩

/-- The same new value on both sides. -/
theorem Alike.get_set {p q : Program} (h : p.Alike q) (s : RString) (a b : Nat)
    (ha : a < p.heap.size) :
    (b = a ∨ p.heap.get b = q.heap.get b → (p.heap.set a s).get b = (q.heap.set a s).get b) ∧
      ((p.heap.set a s).get b).bytes.length = ((q.heap.set a s).get b).bytes.length := by
  by_cases hb : b = a
  · rw [hb, Heap.get_set_self _ _ _ ha, Heap.get_set_self _ _ _ (h.size ▸ ha)]
    exact ⟨fun _ => rfl, rfl⟩
  · rw [Heap.get_set_of_ne _ _ _ _ hb, Heap.get_set_of_ne _ _ _ _ hb]
    exact ⟨fun heq => heq.resolve_left hb, h.lengths b⟩

theorem Alike.bindFresh {p q : Program} (h : p.Alike q) (s : RString) :
    (p.bindFresh s).Alike (q.bindFresh s) where
  strings := by
    show p.strings ++ [p.heap.size] = q.strings ++ [q.heap.size]
    rw [h.strings, h.size]
  objects := h.objects
  released := h.released
  size := by
    show (p.heap.alloc s).2.size = (q.heap.alloc s).2.size
    rw [Heap.size_alloc, Heap.size_alloc, h.size]
  shown := fun a ha => (h.get_alloc s a).1 (h.shown a ha)
  lengths := fun a => (h.get_alloc s a).2

theorem Alike.wrapFresh {p q : Program} (h : p.Alike q) (s : RString) :
    (p.wrapFresh s).Alike (q.wrapFresh s) where
  strings := h.strings
  objects := by
    show p.objects ++ [_] = q.objects ++ [_]
    rw [h.objects, h.size]
  released := h.released
  size := by
    show (p.heap.alloc s).2.size = (q.heap.alloc s).2.size
    rw [Heap.size_alloc, Heap.size_alloc, h.size]
  shown := by
    intro a ha
    refine (h.get_alloc s a).1 (h.shown a ?_)
    intro hmem
    refine ha ?_
    show a ∈ (p.objects ++ [_]).filterMap _
    rw [List.filterMap_append]
    exact List.mem_append_left _ hmem
  lengths := fun a => (h.get_alloc s a).2

theorem Alike.replace {p q : Program} (h : p.Alike q) (s : RString) (a : Nat)
    (ha : a < p.heap.size) :
    ({ p with heap := p.heap.set a s } : Program).Alike { q with heap := q.heap.set a s } where
  strings := h.strings
  objects := h.objects
  released := h.released
  size := by
    show (p.heap.set a s).size = (q.heap.set a s).size
    rw [Heap.size_set, Heap.size_set, h.size]
  shown := fun b hb => (h.get_set s a b ha).1 (Or.inr (h.shown b hb))
  lengths := fun b => (h.get_set s a b ha).2

/-- Two buffers of one length are overwritten with the same zeros. -/
theorem Alike.clearAt {p q : Program} (h : p.Alike q) {i a : Nat} (hsound : p.Sound)
    (ho : p.objects[i]? = some (SecureBytes.held a)) :
    (p.clearAt i a).Alike (q.clearAt i a) := by
  have hrefs := refs_clearAt ho
  have ha : a < p.heap.size := hsound.bounded a (hrefs.mem_iff.mpr List.mem_cons_self)
  have hzeros : SecureBytes.overwrite q.heap a
      = q.heap.set a (SecureBytes.zeros (p.heap.get a).bytes.length) := by
    rw [SecureBytes.overwrite, h.lengths a]
  constructor
  case strings => exact h.strings
  case objects =>
    show p.objects.set i _ = q.objects.set i _
    rw [h.objects]
  case released => exact h.released
  case size =>
    show (p.heap.set a _).size = (q.heap.set a _).size
    rw [Heap.size_set, Heap.size_set, h.size]
  case shown =>
    intro b hb
    show (SecureBytes.overwrite p.heap a).get b = (SecureBytes.overwrite q.heap a).get b
    rw [hzeros]
    refine (h.get_set _ a b ha).1 ?_
    by_cases hab : b = a
    · exact Or.inl hab
    · refine Or.inr (h.shown b ?_)
      intro hmem
      rcases List.mem_cons.mp ((buffers_clearAt ho).mem_iff.mp hmem) with heq | hmem
      · exact hab heq
      · exact hb hmem
  case lengths =>
    intro b
    show ((SecureBytes.overwrite p.heap a).get b).bytes.length
      = ((SecureBytes.overwrite q.heap a).get b).bytes.length
    rw [hzeros]
    exact (h.get_set _ a b ha).2

theorem Alike.letGo {p q : Program} (h : p.Alike q) (v a : Nat) :
    (p.letGo v a).Alike (q.letGo v a) where
  strings := by
    show p.strings.eraseIdx v = q.strings.eraseIdx v
    rw [h.strings]
  objects := h.objects
  released := by
    show p.released ++ [a] = q.released ++ [a]
    rw [h.released]
  size := h.size
  shown := h.shown
  lengths := h.lengths

/-- What is done to a String is done to the same one on both sides. -/
theorem Alike.onString {p q : Program} (h : p.Alike q) (hsound : p.Sound) (v a : Nat)
    (hv : p.strings[v]? = some a) (op : StringOp) :
    (p.onString a op).1 = (q.onString a op).1 ∧
      (p.onString a op).2.Alike (q.onString a op).2 := by
  -- A variable never refers to a buffer, so both sides show the same.
  have hshown : p.heap.get a = q.heap.get a := by
    refine h.shown a (fun hmem => ?_)
    exact (List.nodup_append.mp hsound.distinct).2.2 a (List.mem_of_getElem? hv) a hmem rfl
  cases op with
  | replace s => exact ⟨rfl, h.replace s a (hsound.bounded a (mem_refs_of_string hv))⟩
  | look => exact ⟨congrArg (fun s => (.ok (.contents s) : SecureAnswer)) hshown, h⟩
  | wrap =>
      refine ⟨congrArg (fun l => (.ok (.object (List.length l)) : SecureAnswer)) h.objects, ?_⟩
      have hwrap := h.wrapFresh (RString.binary (p.heap.get a).bytes)
      rw [Program.wrapFresh, Program.wrapFresh, hshown] at hwrap
      show Alike (Program.onString p a .wrap).2 (Program.onString q a .wrap).2
      unfold Program.onString SecureBytes.new
      rw [hshown]
      exact hwrap

/-- What is asked of an object has one answer, unless its bytes are asked for. -/
theorem Alike.onObject (objectId : Nat → Nat) {p q : Program} (h : p.Alike q) (hsound : p.Sound)
    (i : Nat) (o : SecureBytes) (ho : p.objects[i]? = some o) (op : ObjectOp)
    (hop : (SecureOp.object i op).reads = false) :
    (p.onObject objectId i o op).1 = (q.onObject objectId i o op).1 ∧
      (p.onObject objectId i o op).2.Alike (q.onObject objectId i o op).2 := by
  rcases o.eq_held_or_spent with ⟨a, rfl⟩ | rfl
  · have hlength : (SecureBytes.held a).length p.heap = (SecureBytes.held a).length q.heap :=
      h.lengths a
    cases op with
    | bytes => exact absurd hop Bool.noConfusion
    | bytesBang => exact absurd hop Bool.noConfusion
    | length => exact ⟨congrArg (fun n => (.ok (.number n) : SecureAnswer)) hlength, h⟩
    | isCleared => exact ⟨rfl, h⟩
    | clear => exact ⟨rfl, h.clearAt hsound ho⟩
    | inspect =>
        refine ⟨?_, h⟩
        exact congrArg (fun s => (.ok (.text s) : SecureAnswer))
          (SecureBytes.inspect_congr (objectId i) _ p.heap q.heap hlength)
    | finalize => exact ⟨rfl, h.clearAt hsound ho⟩
  · have hboth : (p.update i (SecureBytes.spent, p.heap)).Alike
        (q.update i (SecureBytes.spent, q.heap)) := by
      rw [update_spent ho, update_spent (h.objects ▸ ho)]
      exact h
    cases op with
    | bytes => exact ⟨rfl, h⟩
    | bytesBang => exact ⟨rfl, h⟩
    | length => exact ⟨rfl, h⟩
    | isCleared => exact ⟨rfl, h⟩
    | clear => exact ⟨rfl, hboth⟩
    | inspect => exact ⟨rfl, h⟩
    | finalize => exact ⟨rfl, hboth⟩

/-- Operations that do not read get the same answers from programs that differ in
    their secrets, and keep them so. -/
theorem Alike.step (objectId : Nat → Nat) {p q : Program} (h : p.Alike q) (hsound : p.Sound)
    (op : SecureOp) (hop : op.reads = false) :
    (step objectId p op).1 = (step objectId q op).1 ∧
      (step objectId p op).2.Alike (step objectId q op).2 := by
  cases op with
  | literal s =>
      refine ⟨?_, h.bindFresh s⟩
      exact congrArg (fun l => (.ok (.string (List.length l)) : SecureAnswer)) h.strings
  | string v op =>
      simp only [Program.step, ← h.strings]
      cases hv : p.strings[v]? with
      | none => exact ⟨rfl, h⟩
      | some a => exact h.onString hsound v a hv op
  | letGo v =>
      simp only [Program.step, ← h.strings]
      cases hv : p.strings[v]? with
      | none => exact ⟨rfl, h⟩
      | some a => exact ⟨rfl, h.letGo v a⟩
  | object i op =>
      simp only [Program.step, ← h.objects]
      cases ho : p.objects[i]? with
      | none => exact ⟨rfl, h⟩
      | some o => exact h.onObject objectId hsound i o ho op hop

/-- Programs with no secrets left that are alike are the same. -/
theorem Alike.eq_of_cleared {p q : Program} (h : p.Alike q)
    (hcleared : ∀ o ∈ p.objects, o.cleared = true) : p = q := by
  have hbuffers : p.buffers = [] := by
    refine List.filterMap_eq_nil_iff.mpr ?_
    intro o ho
    have hagree := o.agree
    rw [hcleared o ho] at hagree
    exact Option.isSome_eq_false_iff.mp hagree |> Option.isNone_iff_eq_none.mp
  apply Program.ext
  · apply Heap.ext_get _ _ h.size
    intro a
    exact h.shown a (by rw [hbuffers]; exact List.not_mem_nil)
  · exact h.strings
  · exact h.objects
  · exact h.released

/-- Two programs that differ in their secrets, side by side. -/
def secretSimulation (objectId : Nat → Nat) :
    Machine.Simulation (step objectId) (step objectId) where
  state p q := p.Sound ∧ p.Alike q
  op a c := a = c ∧ a.reads = false
  answer := Eq
  keeps := by
    rintro p q op _ ⟨hsound, h⟩ ⟨rfl, hop⟩
    have hstep := h.step objectId hsound op hop
    exact ⟨hstep.1, (step_spec objectId hsound op).2.1, hstep.2⟩

end Program

/-- From programs that have come to differ in nothing but what their objects
    hold, in the same lengths, everything that does not read gets the same
    answers. Once every object is cleared, however that came about, the programs
    do not differ at all. -/
theorem unread_secrets_do_not_show (objectId : Nat → Nat) (ops ops' rest : List SecureOp)
    (halike : (Program.after objectId ops).Alike (Program.after objectId ops'))
    (hrest : ∀ op ∈ rest, op.reads = false) :
    Machine.answers (Program.step objectId) (Program.after objectId ops) rest
        = Machine.answers (Program.step objectId) (Program.after objectId ops') rest ∧
      ((∀ o ∈ (Program.after objectId (ops ++ rest)).objects, o.cleared = true) →
        Program.after objectId (ops ++ rest) = Program.after objectId (ops' ++ rest)) := by
  have hrun := (Program.secretSimulation objectId).answers_eq (fun _ _ h => h)
    (Program.after objectId ops) (Program.after objectId ops') rest
    ⟨Program.after_sound objectId ops, halike⟩ (fun op hop => ⟨rfl, hrest op hop⟩)
  refine ⟨hrun.1, ?_⟩
  intro hcleared
  unfold Program.after at hcleared ⊢
  rw [Machine.run_append] at hcleared
  rw [Machine.run_append, Machine.run_append]
  exact hrun.2.2.eq_of_cleared hcleared

/-- A key is wrapped and the String it came in is blanked. -/
def wrapped (key : RString) : List SecureOp :=
  [.literal key, .string 0 .wrap, .string 0 (.replace ⟨[], .utf8⟩)]

theorem unread_secrets_do_not_show_of_two_keys :
    Machine.answers (Program.step id) (Program.after id (wrapped ⟨[7, 7], .utf8⟩))
        [.object 0 .inspect, .object 0 .clear]
      = Machine.answers (Program.step id) (Program.after id (wrapped ⟨[9, 1], .utf8⟩))
        [.object 0 .inspect, .object 0 .clear] := by
  refine (unread_secrets_do_not_show id _ _ _ ?_ ?_).1
  · constructor
    case strings => rfl
    case objects => rfl
    case released => rfl
    case size => rfl
    case shown =>
      intro a ha
      match a with
      | 0 => rfl
      | 1 => exact absurd (List.mem_singleton_self 1) ha
      | _ + 2 => rfl
    case lengths =>
      intro a
      match a with
      | 0 => rfl
      | 1 => rfl
      | _ + 2 => rfl
  · decide

end Confium
