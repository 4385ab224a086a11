import Confium.Lib.Simulation

/-!
# Networks of Parties

Parties that step one at a time, each on a batch of what the others have sent.
Everything a party sends goes into a pool, and whoever carries messages decides
what a party is given next: anything in the pool, in any order and as often as
they like, and things of their own making between. Nothing has to be delivered.
Broadcast, loss, reordering, replay and forgery are all ways to deliver.

What one party is like is a parameter, `Party`. Two kinds of party are compared
one step at a time, by `PartySimulation`, and networks of them are then related
over whole runs without looking at the parties again. The parties of the two
networks need not speak the same language: what is in one pool is related to
what is in the other, and so is what a step makes of it.

## Main definitions

* `Party`: How one party steps, and what it sends.
* `Item`, `Parcel`: What a party is given.
* `Network`, `Network.step`: Parties and everything they have sent.
* `PartySimulation`: Related steps of related parties.

## Theorems

* `PartySimulation.network`: Networks of related parties are related.
* `Network.step_of_silent`: A step that changes no party and sends nothing.
-/

namespace Machine

variable {σ τ ι κ γ δ β ε : Type}

/-- How one party steps on a batch, what it sends with its answer, and what an
    element of the pool is in a batch. -/
structure Party (σ ι γ β : Type) where
  given : ι → γ
  step : Step σ (List γ) β
  sent : β → List ι

/-- An element of a batch: one of the pool, by its place there, or one that no
    party has sent. -/
inductive Item (γ : Type) where
  | picked (k : Nat)
  | own (c : γ)

/-- A batch and the party it is for. -/
structure Parcel (γ : Type) where
  party : Nat
  items : List (Item γ)

def Item.map (f : γ → δ) : Item γ → Item δ
  | .picked k => .picked k
  | .own c => .own (f c)

def Parcel.map (f : γ → δ) (d : Parcel γ) : Parcel δ := ⟨d.party, d.items.map (Item.map f)⟩

/-- What an element of a batch stands for. A place beyond the pool stands for
    nothing. -/
def Item.resolve (given : ι → γ) (pool : List ι) : Item γ → Option γ
  | .picked k => pool[k]?.map given
  | .own c => some c

/-- What is in a batch. -/
def gather (given : ι → γ) (pool : List ι) (items : List (Item γ)) : List γ :=
  items.filterMap (Item.resolve given pool)

/-- Parties, and everything they have sent so far. -/
structure Network (σ ι : Type) where
  parties : List σ
  pool : List ι

/-- One delivery. A party that is not there does not answer. -/
def Network.step (p : Party σ ι γ β) : Step (Network σ ι) (Parcel γ) (Option β) := fun n d =>
  match n.parties[d.party]? with
  | none => (none, n)
  | some s =>
      (some (p.step s (gather p.given n.pool d.items)).1,
        ⟨n.parties.set d.party (p.step s (gather p.given n.pool d.items)).2,
          n.pool ++ p.sent (p.step s (gather p.given n.pool d.items)).1⟩)

theorem Network.step_of_party (p : Party σ ι γ β) (n : Network σ ι) (d : Parcel γ) (s : σ)
    (h : n.parties[d.party]? = some s) :
    Network.step p n d = (some (p.step s (gather p.given n.pool d.items)).1,
      ⟨n.parties.set d.party (p.step s (gather p.given n.pool d.items)).2,
        n.pool ++ p.sent (p.step s (gather p.given n.pool d.items)).1⟩) := by
  rw [Network.step, h]

theorem Network.step_of_no_party (p : Party σ ι γ β) (n : Network σ ι) (d : Parcel γ)
    (h : n.parties[d.party]? = none) : Network.step p n d = (none, n) := by
  rw [Network.step, h]

/-- A delivery on which a party stays as it was and sends nothing leaves the
    network as it was. -/
theorem Network.step_of_silent (p : Party σ ι γ β) (n : Network σ ι) (d : Parcel γ)
    (h : ∀ s, (p.step s (gather p.given n.pool d.items)).2 = s ∧
      p.sent (p.step s (gather p.given n.pool d.items)).1 = []) :
    (Network.step p n d).2 = n := by
  cases hs : n.parties[d.party]? with
  | none => rw [Network.step_of_no_party p n d hs]
  | some s =>
      rw [Network.step_of_party p n d s hs]
      dsimp only
      rw [(h s).1, (h s).2, List.append_nil]
      rcases List.getElem?_eq_some_iff.mp hs with ⟨hlt, hs⟩
      rw [← hs, List.set_getElem_self]

theorem mem_gather_of_own (given : ι → γ) (pool : List ι) (items : List (Item γ)) (c : γ)
    (h : Item.own c ∈ items) : c ∈ gather given pool items :=
  List.mem_filterMap.mpr ⟨Item.own c, h, rfl⟩

/-- Steps of one kind of party beside steps of another. What is in the pools is
    related, what a batch makes of it is, and so are the states; then the answers
    are, and what is sent with them. -/
structure PartySimulation (p : Party σ ι γ β) (q : Party τ κ δ ε) where
  state : σ → τ → Prop
  pooled : ι → κ → Prop
  item : γ → δ → Prop
  answer : β → ε → Prop
  given : ∀ i k, pooled i k → item (p.given i) (q.given k)
  sent : ∀ b e, answer b e → List.Forall₂ pooled (p.sent b) (q.sent e)
  keeps : ∀ s t cs ds, state s t → List.Forall₂ item cs ds →
    answer (p.step s cs).1 (q.step t ds).1 ∧ state (p.step s cs).2 (q.step t ds).2

namespace PartySimulation

variable {p : Party σ ι γ β} {q : Party τ κ δ ε} (sim : PartySimulation p q)

/-- Related elements of batches. -/
inductive ItemRel : Item γ → Item δ → Prop where
  | picked (k : Nat) : ItemRel (.picked k) (.picked k)
  | own (c : γ) (d : δ) (h : sim.item c d) : ItemRel (.own c) (.own d)

/-- Related batches for the same party. -/
def ParcelRel (a : Parcel γ) (c : Parcel δ) : Prop :=
  a.party = c.party ∧ List.Forall₂ sim.ItemRel a.items c.items

/-- Related networks. -/
def NetworkRel (m : Network σ ι) (n : Network τ κ) : Prop :=
  List.Forall₂ sim.state m.parties n.parties ∧ List.Forall₂ sim.pooled m.pool n.pool

theorem getElem?_rel {α α' : Type} {R : α → α' → Prop} {xs : List α} {ys : List α'}
    (h : List.Forall₂ R xs ys) (k : Nat) :
    (xs[k]? = none ∧ ys[k]? = none) ∨ ∃ x y, xs[k]? = some x ∧ ys[k]? = some y ∧ R x y := by
  induction h generalizing k with
  | nil => exact Or.inl ⟨List.getElem?_nil, List.getElem?_nil⟩
  | cons hxy hrest ih =>
      cases k with
      | zero => exact Or.inr ⟨_, _, rfl, rfl, hxy⟩
      | succ k =>
          simp only [List.getElem?_cons_succ]
          exact ih k

theorem set_rel {α α' : Type} {R : α → α' → Prop} {xs : List α} {ys : List α'} {x : α} {y : α'}
    (h : List.Forall₂ R xs ys) (hxy : R x y) (k : Nat) :
    List.Forall₂ R (xs.set k x) (ys.set k y) := by
  induction h generalizing k with
  | nil => exact List.Forall₂.nil
  | cons hab hrest ih =>
      cases k with
      | zero => exact List.Forall₂.cons hxy hrest
      | succ k => exact List.Forall₂.cons hab (ih k)

/-- Related pools make related batches. -/
theorem gather_rel (pool : List ι) (pool' : List κ) (items : List (Item γ))
    (items' : List (Item δ)) (hpool : List.Forall₂ sim.pooled pool pool')
    (hitems : List.Forall₂ sim.ItemRel items items') :
    List.Forall₂ sim.item (gather p.given pool items) (gather q.given pool' items') := by
  refine List.rel_filterMap (R := sim.ItemRel) ?_ hitems
  intro a c hac
  cases hac with
  | picked k =>
      rw [Item.resolve, Item.resolve]
      rcases getElem?_rel hpool k with ⟨hi, hj⟩ | ⟨i, j, hi, hj, hij⟩
      · rw [hi, hj]
        exact Option.Rel.none
      · rw [hi, hj]
        exact Option.Rel.some (sim.given i j hij)
  | own c d h => exact Option.Rel.some h

/-- Networks of related parties are related, whatever is delivered. -/
def network : Simulation (Network.step p) (Network.step q) where
  state := sim.NetworkRel
  op := sim.ParcelRel
  answer := Option.Rel sim.answer
  keeps := by
    intro m n a c hmn hac
    rcases hac with ⟨hparty, hitems⟩
    rcases getElem?_rel hmn.1 a.party with ⟨hs, ht⟩ | ⟨s, t, hs, ht, hst⟩
    · rw [hparty] at ht
      rw [Network.step_of_no_party p m a hs, Network.step_of_no_party q n c ht]
      exact ⟨Option.Rel.none, hmn⟩
    · rw [hparty] at ht
      have hstep := sim.keeps s t _ _ hst
        (sim.gather_rel m.pool n.pool a.items c.items hmn.2 hitems)
      rw [Network.step_of_party p m a s hs, Network.step_of_party q n c t ht, hparty]
      exact ⟨Option.Rel.some hstep.1, set_rel hmn.1 hstep.2 _,
        List.rel_append hmn.2 (sim.sent _ _ hstep.1)⟩

end PartySimulation

end Machine
