import Confium.Lib.Network
import Confium.Theory.SessionMessages

/-!
# Runs of a Protocol

The per-party half of a protocol that runs on several hosts. Each party is a
wrapped session in a process of its own. What a step hands out are Hashes, some
transport takes them to the other parties, and they come back as Hashes among
the arguments of later steps.

`wrapped` is such a party, and `direct` is the one it is for: the upstream
session alone, which sends messages and is given messages, with no Ruby object
between. A network of the first does what a network of the second does, whatever
the transport delivers and in whatever order, duplicates and forgeries included.
Every answer is the same, with each message in it written as a Hash, and every
session is the same after it. So nothing about the protocol depends on its
messages having been Ruby objects on the way.

Of what a transport makes up, the objects that are messages are handed to the
session, which has to judge them. A delivery with an object in it that is no
message raises, and could as well not have happened.

## Main definitions

* `wrapped`, `direct`: A party behind the boundary and one without it.
* `read`: A delivery of objects as a delivery of messages.
* `SameStep`: The two answers of a step.
* `boundary`: The simulation between the two parties.

## Theorems

* `parties_run_as_upstream`: Networks of the two kinds run alike.
-/

namespace Confium

namespace TC

namespace Session

open Ruby Composite Machine

variable (up : ThresholdUpstream) (transcoder : Transcoder)

/-- A party as a Ruby caller drives it: Hashes out, Hashes in. -/
def wrapped : Party up.Session Arg Arg (Except NativeError RoundResult) where
  given := id
  step := fun session items =>
    ((roundStep up transcoder session (.arr items)).1.result,
      (roundStep up transcoder session (.arr items)).2)
  sent := fun answer =>
    match answer with
    | .ok result => result.outgoing
    | .error _ => []

/-- The upstream step on a batch in which each element is a message or the
    exception of one that could not be read. The first exception is the answer. -/
def directStep (session : up.Session) (items : List (Except NativeError Message)) :
    Except NativeError (List Message × Bool) × up.Session :=
  match items.mapM id with
  | .error e => (.error e, session)
  | .ok messages =>
      ((up.roundStep session messages).1.mapError (typedSessionError "Session#round_step"),
        (up.roundStep session messages).2)

/-- The party without the boundary: messages out, messages in. -/
def direct : Party up.Session Message (Except NativeError Message)
    (Except NativeError (List Message × Bool)) where
  given := .ok
  step := directStep up
  sent := fun answer =>
    match answer with
    | .ok step => step.1
    | .error _ => []

/-- A delivery with what the transport made up read as messages. -/
def read (d : Parcel Arg) : Parcel (Except NativeError Message) :=
  d.map (parseMessage transcoder)

/-- Everything the transport made up for a delivery is a message. -/
def wellFormed (d : Parcel Arg) : Bool :=
  d.items.all (fun item =>
    match item with
    | .picked _ => true
    | .own a => (parseMessage transcoder a).isOk)

/-- The answers of one step: the same exception, or the same messages, handed
    out as Hashes on one side. -/
inductive SameStep :
    Except NativeError RoundResult → Except NativeError (List Message × Bool) → Prop where
  | error (e : NativeError) : SameStep (.error e) (.error e)
  | ok (hashes : List Arg) (outgoing : List Message) (complete : Bool)
      (h : List.Forall₂ (IsMessage transcoder) hashes outgoing) :
      SameStep (.ok ⟨hashes, complete⟩) (.ok (outgoing, complete))

/-- An upstream session sends only what can be handed out. -/
def SendsSendable : Prop :=
  ∀ (session after : up.Session) (incoming outgoing : List Message) (complete : Bool),
    up.roundStep session incoming = (.ok (outgoing, complete), after) →
      ∀ m ∈ outgoing, Sendable m

/-- One step behind the boundary is the step without it. -/
theorem roundStep_same (hsend : SendsSendable up) (session : up.Session) (items : List Arg) :
    SameStep transcoder (roundStep up transcoder session (.arr items)).1.result
        (directStep up session (items.map (parseMessage transcoder))).1 ∧
      (roundStep up transcoder session (.arr items)).2
        = (directStep up session (items.map (parseMessage transcoder))).2 := by
  have hread : (items.map (parseMessage transcoder)).mapM id
      = parseMessages transcoder (.arr items) := by
    rw [List.mapM_map]
    rfl
  rw [directStep, hread, roundStep]
  cases parseMessages transcoder (.arr items) with
  | error e => exact ⟨SameStep.error e, rfl⟩
  | ok messages =>
      dsimp only
      refine ⟨?_, rfl⟩
      rw [delegated]
      cases hstep : up.roundStep session messages with
      | mk answer after =>
          cases answer with
          | error text => exact SameStep.error _
          | ok step =>
              refine SameStep.ok _ step.1 step.2 ?_
              rw [List.forall₂_map_left_iff]
              exact List.forall₂_same.mpr (fun m hm =>
                isMessage_messageToHash transcoder m (hsend session after messages _ _ hstep m hm))

/-- A party behind the boundary beside the party without it. -/
def boundary (hsend : SendsSendable up) : PartySimulation (wrapped up transcoder) (direct up) where
  state := Eq
  pooled := IsMessage transcoder
  item := fun a x => parseMessage transcoder a = x
  answer := SameStep transcoder
  given := fun a m h => (parseMessage_eq_ok_iff transcoder a m).mpr h
  sent := by
    intro answer answer' h
    cases h with
    | error e => exact List.Forall₂.nil
    | ok hashes outgoing complete h => exact h
  keeps := by
    intro session session' items xs hsession hitems
    have hxs : items.map (parseMessage transcoder) = xs := by
      rw [← List.forall₂_eq_eq_eq, List.forall₂_map_left_iff]
      exact hitems
    rw [← hsession, ← hxs]
    exact roundStep_same up transcoder hsend session items

theorem parcelRel_read (hsend : SendsSendable up) (d : Parcel Arg) :
    (boundary up transcoder hsend).ParcelRel d (read transcoder d) := by
  refine ⟨rfl, ?_⟩
  change List.Forall₂ _ d.items (d.items.map _)
  rw [List.forall₂_map_right_iff, List.forall₂_same]
  intro item _
  cases item with
  | picked k => exact PartySimulation.ItemRel.picked k
  | own a => exact PartySimulation.ItemRel.own a _ rfl

/-- A delivery with an object that is no message in it changes nothing. -/
theorem step_of_not_wellFormed (n : Network up.Session Arg) (d : Parcel Arg)
    (h : wellFormed transcoder d = false) :
    (Network.step (wrapped up transcoder) n d).2 = n := by
  have hbad : ∃ a, Item.own a ∈ d.items ∧ ∀ m, ¬ IsMessage transcoder a m := by
    rw [wellFormed, List.all_eq_false] at h
    rcases h with ⟨item, hmem, hitem⟩
    cases item with
    | picked k => exact absurd rfl hitem
    | own a =>
        refine ⟨a, hmem, fun m hm => hitem ?_⟩
        change (parseMessage transcoder a).isOk = true
        rw [(parseMessage_eq_ok_iff transcoder a m).mpr hm]
        rfl
  rcases hbad with ⟨a, hmem, hno⟩
  refine Network.step_of_silent (wrapped up transcoder) n d (fun session => ?_)
  have hgather := mem_gather_of_own (wrapped up transcoder).given n.pool d.items a hmem
  rcases roundStep_of_malformed transcoder up session _ ⟨a, hgather, hno⟩ with ⟨⟨e, he⟩, hsame⟩
  refine ⟨hsame, ?_⟩
  change (wrapped up transcoder).sent (roundStep up transcoder session _).1.result = []
  rw [he]
  rfl

/-- A protocol runs behind the boundary as it runs without it. Take parties with
    any sessions, and any deliveries to them, each a batch of what has been handed
    out and of objects the transport made up. Behind the boundary and without it,
    the same parties answer, with the same exceptions or the same messages, and
    the sessions end up the same. The deliveries with an object that is no message
    might as well be left out. -/
theorem parties_run_as_upstream (hsend : SendsSendable up) (sessions : List up.Session)
    (deliveries : List (Parcel Arg)) :
    List.Forall₂ (Option.Rel (SameStep transcoder))
        (answers (Network.step (wrapped up transcoder)) ⟨sessions, []⟩ deliveries)
        (answers (Network.step (direct up)) ⟨sessions, []⟩ (deliveries.map (read transcoder))) ∧
      (run (Network.step (wrapped up transcoder)) ⟨sessions, []⟩ deliveries).parties
        = (run (Network.step (direct up)) ⟨sessions, []⟩
            (deliveries.map (read transcoder))).parties ∧
      run (Network.step (wrapped up transcoder)) ⟨sessions, []⟩
          (deliveries.filter (wellFormed transcoder))
        = run (Network.step (wrapped up transcoder)) ⟨sessions, []⟩ deliveries := by
  have hops : List.Forall₂ (boundary up transcoder hsend).ParcelRel deliveries
      (deliveries.map (read transcoder)) := by
    rw [List.forall₂_map_right_iff, List.forall₂_same]
    exact fun d _ => parcelRel_read up transcoder hsend d
  have hstart : (boundary up transcoder hsend).NetworkRel ⟨sessions, []⟩ ⟨sessions, []⟩ :=
    ⟨List.forall₂_same.mpr (fun _ _ => rfl), List.Forall₂.nil⟩
  have hrun := (boundary up transcoder hsend).network.run _ _ deliveries _ hstart hops
  refine ⟨hrun.1, ?_, ?_⟩
  · rw [← List.forall₂_eq_eq_eq]
    exact hrun.2.1
  · exact run_filter _ _ (step_of_not_wellFormed up transcoder) _ _

theorem sendsSendable_keepingUpstream : SendsSendable keepingUpstream := by
  intro session after incoming outgoing complete h m hm
  rcases Prod.mk.inj h with ⟨hstep, -⟩
  rw [← (Prod.mk.inj (Except.ok.inj hstep)).1, List.mem_singleton] at hm
  rw [hm, Sendable]
  decide

/-- Two parties. The first announces itself, the second is given that, and then
    the first is given its own announcement with `nil` behind it. Only the second
    has kept anything, and the last delivery was refused. -/
theorem parties_run_as_upstream_of_two :
    (run (Network.step (wrapped keepingUpstream (fun _ _ => none))) ⟨[[], []], []⟩
        [⟨0, []⟩, ⟨1, [.picked 0]⟩, ⟨0, [.picked 0, .own .nil]⟩]).parties
      = [[], [announcement]] := by
  have h := parties_run_as_upstream keepingUpstream (fun _ _ => none)
    sendsSendable_keepingUpstream [[], []]
    [⟨0, []⟩, ⟨1, [.picked 0]⟩, ⟨0, [.picked 0, .own .nil]⟩]
  rw [h.2.1]
  rfl

end Session

end TC

end Confium
