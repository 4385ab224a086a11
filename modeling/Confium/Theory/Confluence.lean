import Confium.Theory.Lifecycle

/-!
# Submission Order

Signers arrive in any order, and the session should not care. Take a collection
of submissions in which every signer submits each kind at most once, and none of
them has already. However it is ordered, each submission stores its bytes, so
the stores end with the same entries and differ only in how they are arranged.

The state is where the order could show, because it is written as a side effect
of whichever commitment happens to cross the threshold. It does not, because the
comparison looks at the count alone, and the counts the commitments of a run
take are the same in any order: one more than before, two more, up to all of
them. `Crosses` is a property of those counts, and so is `Comparable`, which
says that no comparison along the way raises.

Comparing is the one thing that can go wrong. A threshold that is no number
makes every commitment raise after it has been stored. So the runs end alike
whatever the threshold, and they succeed on every call exactly when the
threshold compares with every count reached.

## Main definitions

* `Submission`: A commitment or a share of a signer.
* `Distinct`: No signer submits a kind twice or again.
* `Crosses`, `Comparable`: What the threshold says to the counts of a run.
* `Submitted`: Where a run of submissions ends.
* `OrderIndependent`: What two orders of one collection should agree on.

## Theorems

* `submitted_step`: One submission more.
* `submitted_run`: Where every run of distinct submissions ends, and when all
  its calls succeed.
* `orderIndependent_iff`: Two orders agree exactly when the threshold compares.
* `comparable_int`: An integer always does.
* `incomparable_threshold_raises`: A threshold that does not.
-/

namespace Confium

open Ruby

/-- What a signer submits. -/
inductive Submission (V : Type) where
  | commitment (signerId : V) (bytes : Bytes)
  | share (signerId : V) (bytes : Bytes)
  deriving DecidableEq

namespace Submission

variable {V ρ : Type} [Object V]

omit [Object V] in
/-- The call that submits it. -/
def op : Submission V → SessionOp V ρ
  | .commitment signerId bytes => .addCommitment signerId bytes
  | .share signerId bytes => .addShare signerId bytes

/-- What it adds to the commitments: its bytes, under the key of the signer. -/
def commitment? : Submission V → Option (V × Bytes)
  | .commitment signerId bytes => some (Object.key signerId, bytes)
  | .share _ _ => none

/-- What it adds to the shares. -/
def share? : Submission V → Option (V × Bytes)
  | .commitment _ _ => none
  | .share signerId bytes => some (Object.key signerId, bytes)

end Submission

namespace SigningSession

variable {V ρ : Type} [DecidableEq V] [Object V]

/-- The commitments among some submissions, in order. -/
def commitmentsOf (subs : List (Submission V)) : List (V × Bytes) :=
  subs.filterMap Submission.commitment?

/-- The shares among them. -/
def sharesOf (subs : List (Submission V)) : List (V × Bytes) := subs.filterMap Submission.share?

/-- No signer submits a kind twice, and none has submitted it already. -/
structure Distinct (s : SigningSession V) (subs : List (Submission V)) : Prop where
  commitments : (s.commitments.keys ++ (commitmentsOf subs).map Prod.fst).Nodup
  shares : (s.shares.keys ++ (sharesOf subs).map Prod.fst).Nodup

/-- One of the next `n` commitment counts reaches the threshold. -/
def Crosses (s : SigningSession V) (n : Nat) : Prop :=
  ∃ i < n, Object.ge (s.commitments.length + i + 1) s.threshold = some true

/-- Each of the next `n` commitment counts can be compared with the
    threshold. -/
def Comparable (s : SigningSession V) (n : Nat) : Prop :=
  ∀ i < n, Object.ge (s.commitments.length + i + 1) s.threshold ≠ none

/-- Where a run of submissions ends: the stores extended in the order of the
    run, and the state by the counts alone. -/
structure Submitted (s : SigningSession V) (subs : List (Submission V))
    (s' : SigningSession V) : Prop where
  fixed : Fixed s s'
  commitments : s'.commitments.entries = s.commitments.entries ++ commitmentsOf subs
  shares : s'.shares.entries = s.shares.entries ++ sharesOf subs
  crossed : Crosses s (commitmentsOf subs).length → s'.state = .commitmentsCollected
  uncrossed : ¬ Crosses s (commitmentsOf subs).length → s'.state = s.state

omit [DecidableEq V] in
theorem commitmentsOf_snoc (subs : List (Submission V)) (sub : Submission V) :
    commitmentsOf (subs ++ [sub]) = commitmentsOf subs ++ sub.commitment?.toList := by
  unfold commitmentsOf
  rw [List.filterMap_append]
  cases sub <;> rfl

omit [DecidableEq V] in
theorem sharesOf_snoc (subs : List (Submission V)) (sub : Submission V) :
    sharesOf (subs ++ [sub]) = sharesOf subs ++ sub.share?.toList := by
  unfold sharesOf
  rw [List.filterMap_append]
  cases sub <;> rfl

omit [DecidableEq V] in
/-- A beginning of distinct submissions is distinct. -/
theorem Distinct.of_snoc {s : SigningSession V} {subs : List (Submission V)} {sub : Submission V}
    (h : Distinct s (subs ++ [sub])) : Distinct s subs := by
  have hcommitments := h.commitments
  have hshares := h.shares
  rw [commitmentsOf_snoc, List.map_append, ← List.append_assoc] at hcommitments
  rw [sharesOf_snoc, List.map_append, ← List.append_assoc] at hshares
  exact ⟨hcommitments.of_append_left, hshares.of_append_left⟩

omit [Object V] in
/-- The last of distinct keys is not a key of the store the others made. -/
theorem get?_eq_none_of_nodup (store store' : Hash V Bytes) (added : List (V × Bytes)) (k : V)
    (bytes : Bytes) (hstore : store'.entries = store.entries ++ added)
    (h : (store.keys ++ (added ++ [(k, bytes)]).map Prod.fst).Nodup) : store'.get? k = none := by
  rw [Hash.get?_eq_none_iff, Hash.keys, hstore]
  intro hmem
  rw [List.map_append] at hmem
  rw [List.map_append, ← List.append_assoc, List.nodup_append] at h
  exact h.2.2 k hmem k (List.mem_singleton_self k) rfl

omit [DecidableEq V] in
/-- Crossing within one count more is crossing before it or at it. -/
theorem crosses_succ_iff (s : SigningSession V) (n : Nat) :
    Crosses s (n + 1) ↔
      Crosses s n ∨ Object.ge (s.commitments.length + n + 1) s.threshold = some true := by
  constructor
  · rintro ⟨i, hi, hge⟩
    by_cases hlast : i = n
    · rw [hlast] at hge
      exact Or.inr hge
    · exact Or.inl ⟨i, by omega, hge⟩
  · intro h
    rcases h with ⟨i, hi, hge⟩ | hge
    · exact ⟨i, by omega, hge⟩
    · exact ⟨n, by omega, hge⟩

omit [DecidableEq V] in
theorem comparable_succ_iff (s : SigningSession V) (n : Nat) :
    Comparable s (n + 1) ↔
      Comparable s n ∧ Object.ge (s.commitments.length + n + 1) s.threshold ≠ none := by
  constructor
  · intro h
    exact ⟨fun i hi => h i (by omega), h n (by omega)⟩
  · rintro ⟨hall, hlast⟩ i hi
    by_cases hn : i = n
    · rw [hn]
      exact hlast
    · exact hall i (by omega)

/-- A new commitment extends the commitments, and writes the state if its count
    reaches the threshold. -/
theorem Submitted.addCommitment {s s' : SigningSession V} {subs : List (Submission V)}
    (h : Submitted s subs s') (signerId : V) (bytes : Bytes)
    (hnew : s'.commitments.get? (Object.key signerId) = none) (state : SessionState)
    (hstate : Object.ge (s.commitments.length + (commitmentsOf subs).length + 1) s.threshold
          = some true ∧ state = .commitmentsCollected ∨
      Object.ge (s.commitments.length + (commitmentsOf subs).length + 1) s.threshold
          ≠ some true ∧ state = s'.state) :
    Submitted s (subs ++ [.commitment signerId bytes])
      { s' with
        commitments := s'.commitments.set (Object.key signerId) bytes
        state := state } := by
  -- Only the count of commitments moves the state.
  have hlength : (commitmentsOf (subs ++ [.commitment signerId bytes])).length
      = (commitmentsOf subs).length + 1 := by
    rw [commitmentsOf_snoc, List.length_append]
    rfl
  refine ⟨h.fixed, ?_, ?_, ?_, ?_⟩
  · rw [Hash.entries_set_of_get?_eq_none _ _ _ hnew, h.commitments, commitmentsOf_snoc,
      List.append_assoc]
    rfl
  · rw [sharesOf_snoc, h.shares]
    exact congrArg _ (List.append_nil _).symm
  · intro hcross
    rw [hlength, crosses_succ_iff] at hcross
    rcases hstate with ⟨_, hstate⟩ | ⟨hbelow, hstate⟩
    · exact hstate
    · exact hstate.trans (h.crossed (hcross.resolve_right hbelow))
  · intro hcross
    rw [hlength, crosses_succ_iff, not_or] at hcross
    rcases hstate with ⟨hreached, _⟩ | ⟨_, hstate⟩
    · exact absurd hreached hcross.2
    · exact hstate.trans (h.uncrossed hcross.1)

/-- A new share extends the shares and nothing else. -/
theorem Submitted.addShare {s s' : SigningSession V} {subs : List (Submission V)}
    (h : Submitted s subs s') (signerId : V) (bytes : Bytes)
    (hnew : s'.shares.get? (Object.key signerId) = none) :
    Submitted s (subs ++ [.share signerId bytes])
      { s' with shares := s'.shares.set (Object.key signerId) bytes } := by
  have hcommitments : commitmentsOf (subs ++ [.share signerId bytes]) = commitmentsOf subs := by
    rw [commitmentsOf_snoc]
    exact List.append_nil _
  refine ⟨h.fixed, ?_, ?_, ?_, ?_⟩
  · rw [hcommitments]
    exact h.commitments
  · rw [Hash.entries_set_of_get?_eq_none _ _ _ hnew, h.shares, sharesOf_snoc, List.append_assoc]
    rfl
  · rw [hcommitments]
    exact h.crossed
  · rw [hcommitments]
    exact h.uncrossed

/-- One submission more, from where a run of the others ended: where it ends,
    and whether it succeeds. -/
theorem submitted_step (native : Natives V ρ) (s s' : SigningSession V)
    (subs : List (Submission V)) (sub : Submission V) (hdistinct : Distinct s (subs ++ [sub]))
    (h : Submitted s subs s') :
    Submitted s (subs ++ [sub]) (step native s' sub.op).2 ∧
      ((∃ a, (step native s' sub.op).1.result = .ok a) ↔
        (sub.commitment?.isSome = true →
          Object.ge (s.commitments.length + (commitmentsOf subs).length + 1) s.threshold
            ≠ none)) := by
  have hthreshold : s'.threshold = s.threshold := h.fixed.2.1
  have hcount : s'.commitments.length = s.commitments.length + (commitmentsOf subs).length := by
    unfold Hash.length
    rw [h.commitments, List.length_append]
  cases sub with
  | commitment signerId bytes =>
      have hnodup := hdistinct.commitments
      rw [commitmentsOf_snoc] at hnodup
      have hnew := get?_eq_none_of_nodup s.commitments s'.commitments (commitmentsOf subs)
        (Object.key signerId) bytes h.commitments hnodup
      have hdoes := step_does native s' (.addCommitment signerId bytes)
      unfold Submission.op
      generalize step native s' (.addCommitment signerId bytes) = after at hdoes ⊢
      cases hdoes with
      | commitmentDuplicate _ _ b hget =>
          rw [hnew] at hget
          exact absurd hget (by simp only [reduceCtorEq, not_false_eq_true])
      | commitmentIncomparable _ _ hget hge =>
          -- Stored all the same, and the only submission that raises.
          rw [hcount, hthreshold] at hge
          have hbelow : Object.ge (s.commitments.length + (commitmentsOf subs).length + 1)
              s.threshold ≠ some true := by
            rw [hge]
            simp only [ne_eq, reduceCtorEq, not_false_eq_true]
          refine ⟨h.addCommitment signerId bytes hnew _ (Or.inr ⟨hbelow, rfl⟩), ?_⟩
          refine iff_of_false ?_ (fun hc => hc rfl hge)
          rintro ⟨a, ha⟩
          exact absurd ha (by simp only [Outcome.raise, reduceCtorEq, not_false_eq_true])
      | commitmentCounted _ _ hget hge =>
          rw [hcount, hthreshold] at hge
          have hbelow : Object.ge (s.commitments.length + (commitmentsOf subs).length + 1)
              s.threshold ≠ some true := by
            rw [hge]
            simp only [ne_eq, Option.some.injEq, Bool.false_eq_true, not_false_eq_true]
          refine ⟨h.addCommitment signerId bytes hnew _ (Or.inr ⟨hbelow, rfl⟩), ?_⟩
          refine iff_of_true ⟨_, rfl⟩ (fun _ => ?_)
          rw [hge]
          simp only [ne_eq, reduceCtorEq, not_false_eq_true]
      | commitmentsReached _ _ hget hge =>
          rw [hcount, hthreshold] at hge
          refine ⟨h.addCommitment signerId bytes hnew _ (Or.inl ⟨hge, rfl⟩), ?_⟩
          refine iff_of_true ⟨_, rfl⟩ (fun _ => ?_)
          rw [hge]
          simp only [ne_eq, reduceCtorEq, not_false_eq_true]
  | share signerId bytes =>
      have hnodup := hdistinct.shares
      rw [sharesOf_snoc] at hnodup
      have hnew := get?_eq_none_of_nodup s.shares s'.shares (sharesOf subs) (Object.key signerId)
        bytes h.shares hnodup
      unfold Submission.op
      rw [step_addShare_new native s' signerId bytes hnew]
      exact ⟨h.addShare signerId bytes hnew,
        iff_of_true ⟨_, rfl⟩ (fun hc => absurd hc Bool.false_ne_true)⟩

/-- Where every run of distinct submissions ends, and when all its calls
    succeed. The induction is from the end of the run. -/
theorem submitted_run (native : Natives V ρ) (s : SigningSession V) (subs : List (Submission V))
    (hdistinct : Distinct s subs) :
    Submitted s subs (Machine.run (step native) s (subs.map Submission.op)) ∧
      ((∀ t ∈ Machine.trace (step native) s (subs.map Submission.op), ∃ a, t.out.result = .ok a) ↔
        Comparable s (commitmentsOf subs).length) := by
  induction subs using List.reverseRecOn with
  | nil =>
      refine ⟨⟨⟨rfl, rfl, rfl, rfl⟩, (List.append_nil _).symm, (List.append_nil _).symm, ?_,
        fun _ => rfl⟩, ?_⟩
      · rintro ⟨i, hi, _⟩
        exact absurd hi (Nat.not_lt_zero i)
      · refine iff_of_true (fun t ht => absurd ht List.not_mem_nil) ?_
        intro i hi
        exact absurd hi (Nat.not_lt_zero i)
  | append_singleton subs sub ih =>
      -- The induction is from the end: the last submission meets what the others left.
      rcases ih hdistinct.of_snoc with ⟨hsub, hall⟩
      rcases submitted_step native s _ subs sub hdistinct hsub with ⟨hnext, hok⟩
      rw [List.map_append, List.map_singleton, Machine.run_snoc, Machine.trace_snoc,
        List.forall_mem_append, List.forall_mem_singleton, hall]
      refine ⟨hnext, ?_⟩
      have hout : (∃ a, ((step native).transition
          (Machine.run (step native) s (subs.map Submission.op)) sub.op).out.result = .ok a) ↔
          (sub.commitment?.isSome = true →
            Object.ge (s.commitments.length + (commitmentsOf subs).length + 1) s.threshold
              ≠ none) := hok
      rw [hout, commitmentsOf_snoc, List.length_append]
      cases sub with
      | commitment signerId bytes =>
          have hone : (Submission.commitment signerId bytes).commitment?.toList.length = 1 := rfl
          rw [hone, comparable_succ_iff]
          exact and_congr_right fun _ => ⟨fun h => h rfl, fun h _ => h⟩
      | share signerId bytes =>
          have hzero : (Submission.share signerId bytes).commitment?.toList.length = 0 := rfl
          rw [hzero, Nat.add_zero]
          exact and_iff_left fun h => absurd h Bool.false_ne_true

/-- What two orders of one collection should agree on: every call succeeds in
    both, both stores are the same maps, the state is the same and so is the
    answer of `threshold_met?`, and the share lists a combine would get are
    rearrangements of each other. -/
structure OrderIndependent (native : Natives V ρ) (s : SigningSession V)
    (subs subs' : List (Submission V)) : Prop where
  succeeds : ∀ t ∈ Machine.trace (step native) s (subs.map Submission.op),
    ∃ a, t.out.result = .ok a
  succeeds' : ∀ t ∈ Machine.trace (step native) s (subs'.map Submission.op),
    ∃ a, t.out.result = .ok a
  commitments : ∀ signerId,
    (Machine.run (step native) s (subs.map Submission.op)).commitments.get? signerId
      = (Machine.run (step native) s (subs'.map Submission.op)).commitments.get? signerId
  shares : ∀ signerId,
    (Machine.run (step native) s (subs.map Submission.op)).shares.get? signerId
      = (Machine.run (step native) s (subs'.map Submission.op)).shares.get? signerId
  state : (Machine.run (step native) s (subs.map Submission.op)).state
    = (Machine.run (step native) s (subs'.map Submission.op)).state
  thresholdMet : (Machine.run (step native) s (subs.map Submission.op)).thresholdMet
    = (Machine.run (step native) s (subs'.map Submission.op)).thresholdMet
  combined : (Machine.run (step native) s (subs.map Submission.op)).combineCall.shares.Perm
    (Machine.run (step native) s (subs'.map Submission.op)).combineCall.shares

omit [DecidableEq V] in
theorem Distinct.perm {s : SigningSession V} {subs subs' : List (Submission V)}
    (h : Distinct s subs) (hperm : subs.Perm subs') : Distinct s subs' := by
  have hcommitments : ((commitmentsOf subs).map Prod.fst).Perm
      ((commitmentsOf subs').map Prod.fst) := (hperm.filterMap _).map _
  have hshares : ((sharesOf subs).map Prod.fst).Perm ((sharesOf subs').map Prod.fst) :=
    (hperm.filterMap _).map _
  exact ⟨(hcommitments.append_left _).nodup_iff.mp h.commitments,
    (hshares.append_left _).nodup_iff.mp h.shares⟩

/-- Two orders of distinct submissions agree, and all their calls succeed,
    exactly when the threshold can be compared with every commitment count they
    reach. -/
theorem orderIndependent_iff (native : Natives V ρ) (s : SigningSession V)
    (subs subs' : List (Submission V)) (hperm : subs.Perm subs') (hdistinct : Distinct s subs) :
    OrderIndependent native s subs subs' ↔ Comparable s (commitmentsOf subs).length := by
  rcases submitted_run native s subs hdistinct with ⟨h, hall⟩
  rcases submitted_run native s subs' (hdistinct.perm hperm) with ⟨h', hall'⟩
  have hcommitments : (commitmentsOf subs).Perm (commitmentsOf subs') := hperm.filterMap _
  have hshares : (sharesOf subs).Perm (sharesOf subs') := hperm.filterMap _
  have hlength := hcommitments.length_eq
  constructor
  · intro hind
    exact hall.mp hind.succeeds
  · intro hcomparable
    have hentries := hshares.append_left s.shares.entries
    rw [← h.shares, ← h'.shares] at hentries
    refine ⟨hall.mpr hcomparable, hall'.mpr (by rw [← hlength]; exact hcomparable), ?_, ?_, ?_, ?_,
      ?_⟩
    · intro signerId
      refine Hash.get?_eq_of_perm _ _ ?_ signerId
      rw [h.commitments, h'.commitments]
      exact hcommitments.append_left _
    · exact Hash.get?_eq_of_perm _ _ hentries
    · -- The state is decided by the counts, of which there are as many.
      by_cases hcross : Crosses s (commitmentsOf subs).length
      · rw [h.crossed hcross, h'.crossed (by rw [← hlength]; exact hcross)]
      · rw [h.uncrossed hcross, h'.uncrossed (by rw [← hlength]; exact hcross)]
    · unfold SigningSession.thresholdMet Hash.length
      rw [hentries.length_eq, h.fixed.2.1, h'.fixed.2.1]
    · exact hentries.map Prod.snd

omit [DecidableEq V] in
/-- An integer threshold compares with every count. -/
theorem comparable_int (s : SigningSession V) (t : Int) (h : s.threshold = Object.int t) (n : Nat) :
    Comparable s n := by
  intro i _
  rw [h, Object.ge_int]
  simp only [ne_eq, reduceCtorEq, not_false_eq_true]

/-- Two commitments and a share, on a two-of-two session. -/
def threeSubmissions : List (Submission Json) :=
  [.commitment (.str "a") [10], .share (.str "a") [20], .commitment (.str "b") [11]]

/-- The three submissions and the same three backwards end alike. -/
theorem threeSubmissions_orderIndependent :
    OrderIndependent signAnything (fresh [1] (Json.int 2) (Json.int 14400) .cmp20)
      threeSubmissions threeSubmissions.reverse :=
  (orderIndependent_iff signAnything (fresh [1] (Json.int 2) (Json.int 14400) .cmp20)
    threeSubmissions threeSubmissions.reverse threeSubmissions.reverse_perm.symm
    ⟨by decide, by decide⟩).mpr (comparable_int _ 2 rfl _)

/-- A session created with the threshold `"2"`: the one commitment there is
    raises, whichever way it is ordered. -/
theorem incomparable_threshold_raises :
    ¬ OrderIndependent signAnything (fresh [0] (Json.str "2") (Json.int 14400) .cmp20)
      [.commitment (.str "a") [10]] [.commitment (.str "a") [10]] := by
  intro h
  rcases h.succeeds _ List.mem_cons_self with ⟨a, ha⟩
  have hraises : (addCommitment (fresh [0] (Json.str "2") (Json.int 14400) .cmp20)
      (.str "a") [10]).1.result = .error (.comparison (.str "2")) := rfl
  exact absurd (hraises.symm.trans ha) (by simp only [reduceCtorEq, not_false_eq_true])

end SigningSession

end Confium
