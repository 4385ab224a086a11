import Confium.Theory.AuditTrail
import Confium.Theory.Screens

/-!
# Messages of a Protocol Session

A protocol session hands its messages out as Hashes, and takes those of its
peers in as Hashes. The two directions are separate lists of field names in the
source. `IsMessage` says which Ruby objects are a message, and which one, without
the order the members are looked at in, and both directions are compared with
it: what is handed out is a message, and what is read is one.

A batch is read before the session is touched, so one object that is no message
leaves the session as it was, wherever it stands in the batch and whatever stands
around it.

## Main definitions

* `IsReceiver`, `IsMessage`: The objects that are a receiver and a message.

## Theorems

* `parseMessage_eq_ok_iff`: Exactly the messages are read.
* `isMessage_messageToHash`: What is handed out is a message.
* `parseMessages_messageToHash`: A batch that was handed out is read back.
* `roundStep_of_malformed`: A batch with an object that is no message changes
  nothing.
* `messages_cross_boundary`: Both of these, for what a step hands out and takes
  in.
-/

namespace Confium

open Ruby Composite

theorem Entries.fetch_eq_ok_iff (h : Entries) (key : String) (a : Arg) :
    h.fetch key = .ok a ↔ h.get? key = some a := by
  rw [fetch]
  cases h.get? key with
  | none => simp only [reduceCtorEq]
  | some b => simp only [Except.ok.injEq, Option.some.injEq]

theorem orArgumentError_eq_ok_iff {α : Type} (message : String) (x : Except NativeError α)
    (a : α) : orArgumentError message x = .ok a ↔ x = .ok a :=
  mapError_eq_ok_iff x _ a

theorem Arg.entries_eq_ok_iff (a : Arg) (h : Entries) : a.entries = .ok h ↔ a = .hash h := by
  cases a with
  | hash h' => simp only [Arg.entries, Except.ok.injEq, Arg.hash.injEq]
  | _ => simp only [Arg.entries, reduceCtorEq]

namespace TC

namespace Session

variable (transcoder : Transcoder)

/-- An object that says who a message is for: `nil` for everyone, or a String. -/
def IsReceiver (v : Arg) : Option String → Prop
  | none => v = .nil
  | some name => v ≠ .nil ∧ v.text transcoder = .ok name

/-- An object that is a message: a Hash with four members, each of them what it
    has to be. -/
def IsMessage (item : Arg) (m : Message) : Prop :=
  ∃ (h : Entries) (sender recipient round payload : Arg), item = .hash h ∧
    (h.get? "from" = some sender ∧ sender.text transcoder = .ok m.fromParty) ∧
    (h.get? "to" = some recipient ∧ IsReceiver transcoder recipient m.toParty) ∧
    (h.get? "round" = some round ∧ round.unsigned 8 = .ok m.round) ∧
    h.get? "payload" = some payload ∧ payload.bytes = .ok m.payload

theorem messageMember_eq_ok_iff (h : Entries) (key : String) (a : Arg) :
    messageMember h key = .ok a ↔ h.get? key = some a := by
  rw [messageMember, orArgumentError_eq_ok_iff, Entries.fetch_eq_ok_iff]

theorem receiver_eq_ok_iff (v : Arg) (name : Option String) :
    receiver transcoder v = .ok name ↔ IsReceiver transcoder v name := by
  by_cases hnil : v = .nil
  · rw [hnil]
    cases name with
    | none => exact iff_of_true rfl rfl
    | some name =>
        refine iff_of_false (fun h => ?_) (fun h => h.1 rfl)
        exact absurd (Except.ok.inj h) (by simp only [reduceCtorEq, not_false_eq_true])
  · have hread : receiver transcoder v
        = (orArgumentError "message: 'to' must be a String" (v.text transcoder)
            >>= fun name => pure (some name)) := by
      cases v with
      | nil => exact absurd rfl hnil
      | _ => rfl
    rw [hread, bind_eq_ok_iff]
    simp only [orArgumentError_eq_ok_iff, pure, Except.pure, Except.ok.injEq]
    cases name with
    | none => simp only [IsReceiver, hnil, reduceCtorEq, and_false, exists_false]
    | some name =>
        simp only [IsReceiver, ne_eq, hnil, not_false_eq_true, true_and, Option.some.injEq,
          exists_eq_right]

/-- Exactly the messages are read. -/
theorem parseMessage_eq_ok_iff (item : Arg) (m : Message) :
    parseMessage transcoder item = .ok m ↔ IsMessage transcoder item m := by
  rcases m with ⟨fromParty, toParty, round, payload⟩
  simp only [parseMessage, bind_eq_ok_iff, orArgumentError_eq_ok_iff, Arg.entries_eq_ok_iff,
    messageMember_eq_ok_iff, receiver_eq_ok_iff, pure, Except.pure, Except.ok.injEq,
    Message.mk.injEq, IsMessage]
  constructor
  · rintro ⟨h, hitem, sender, hsender, _, hfrom, recipient, hrecipient, _, hto, r, hr, _, hround,
      p, hp, _, hpayload, rfl, rfl, rfl, rfl⟩
    exact ⟨h, sender, recipient, r, p, hitem, ⟨hsender, hfrom⟩, ⟨hrecipient, hto⟩, ⟨hr, hround⟩,
      hp, hpayload⟩
  · rintro ⟨h, sender, recipient, r, p, hitem, ⟨hsender, hfrom⟩, ⟨hrecipient, hto⟩, ⟨hr, hround⟩,
      hp, hpayload⟩
    exact ⟨h, hitem, sender, hsender, _, hfrom, recipient, hrecipient, _, hto, r, hr, _, hround,
      p, hp, _, hpayload, rfl, rfl, rfl, rfl⟩

/-- What can be handed out: a round that is a byte, and a payload within the
    cap. -/
def Sendable (m : Message) : Prop := m.round < 2 ^ 8 ∧ m.payload.length ≤ maxInputSize

theorem isReceiver_written (name : Option String) :
    IsReceiver transcoder ((name.map textInput).getD .nil) name := by
  cases name with
  | none => exact rfl
  | some name =>
      refine ⟨?_, text_textInput transcoder name⟩
      simp only [Option.map_some, Option.getD_some, textInput, ne_eq, reduceCtorEq,
        not_false_eq_true]

/-- What is handed out is a message. -/
theorem isMessage_messageToHash (m : Message) (h : Sendable m) :
    IsMessage transcoder (messageToHash m) m := by
  have hpayload : (Arg.str (RString.binary m.payload)).bytes = .ok m.payload := by
    have hsize : enforceSize m.payload.length = .ok () := by
      rw [enforceSize, if_neg (by have := h.2; omega)]
    simp only [Arg.bytes, Arg.field, Confium.bytesArg, bytesFromValue, RString.binary, hsize, bind,
      Except.bind, pure, Except.pure, Except.mapError]
  refine ⟨_, textInput m.fromParty, (m.toParty.map textInput).getD .nil, .int m.round,
    .str (RString.binary m.payload), rfl, ⟨?_, text_textInput transcoder m.fromParty⟩,
    ⟨?_, isReceiver_written transcoder m.toParty⟩, ⟨?_, unsigned_int 8 m.round h.1⟩, ?_, hpayload⟩
  all_goals rw [← Entries.fetch_eq_ok_iff]
  · rw [fetch_textKey]
  · rw [fetch_textKey_ne "from" "to" _ _ (by decide), fetch_textKey]
  · rw [fetch_textKey_ne "from" "round" _ _ (by decide),
      fetch_textKey_ne "to" "round" _ _ (by decide), fetch_textKey]
  · rw [fetch_textKey_ne "from" "payload" _ _ (by decide),
      fetch_textKey_ne "to" "payload" _ _ (by decide),
      fetch_textKey_ne "round" "payload" _ _ (by decide), fetch_textKey]

/-- A batch is read when every object in it is a message, in order. -/
theorem parseMessages_eq_ok_iff (items : List Arg) (messages : List Message) :
    parseMessages transcoder (.arr items) = .ok messages ↔
      List.Forall₂ (IsMessage transcoder) items messages := by
  change items.mapM (parseMessage transcoder) = .ok messages ↔ _
  rw [mapM_eq_ok_iff]
  simp only [parseMessage_eq_ok_iff]

/-- A batch that was handed out is read back, every message in its place. -/
theorem parseMessages_messageToHash (outgoing : List Message) (h : ∀ m ∈ outgoing, Sendable m) :
    parseMessages transcoder (.arr (outgoing.map messageToHash)) = .ok outgoing := by
  rw [parseMessages_eq_ok_iff, List.forall₂_map_left_iff]
  exact List.forall₂_same.mpr (fun m hm => isMessage_messageToHash transcoder m (h m hm))

section Step

variable (up : ThresholdUpstream) (session : up.Session)

/-- A step on a batch that is read is the upstream step on its messages. -/
theorem roundStep_of_messages (incoming : Arg) (messages outgoing : List Message)
    (complete : Bool) (after : up.Session)
    (hread : parseMessages transcoder incoming = .ok messages)
    (hstep : up.roundStep session messages = (.ok (outgoing, complete), after)) :
    (roundStep up transcoder session incoming).1.result
        = .ok ⟨outgoing.map messageToHash, complete⟩ ∧
      (roundStep up transcoder session incoming).2 = after := by
  rw [roundStep, hread]
  dsimp only
  rw [hstep]
  exact ⟨rfl, rfl⟩

/-- A batch with an object that is no message raises, calls nothing upstream and
    leaves the session as it was. -/
theorem roundStep_of_malformed (items : List Arg)
    (h : ∃ item ∈ items, ∀ m, ¬ IsMessage transcoder item m) :
    (∃ e, (roundStep up transcoder session (.arr items)).1 = Eff.raise e) ∧
      (roundStep up transcoder session (.arr items)).2 = session := by
  rw [roundStep]
  cases hread : parseMessages transcoder (.arr items) with
  | error e => exact ⟨⟨e, rfl⟩, rfl⟩
  | ok messages =>
      -- Then every object in it was a message.
      rcases h with ⟨item, hmem, hno⟩
      have hall : items.mapM (parseMessage transcoder) = .ok messages := hread
      rcases (mapM_isOk_iff (parseMessage transcoder) items).mp ⟨messages, hall⟩ item hmem
        with ⟨m, hm⟩
      exact absurd ((parseMessage_eq_ok_iff transcoder item m).mp hm) (hno m)

/-- Messages survive the boundary, and a bad batch is all or nothing. Whatever a
    step hands out is read back as the messages it sent, in their order; and a
    step on a batch with an object that is no message raises, with nothing called
    upstream and the session as it was. -/
theorem messages_cross_boundary :
    (∀ (incoming : Arg) (messages outgoing : List Message) (complete : Bool)
        (after : up.Session), parseMessages transcoder incoming = .ok messages →
      up.roundStep session messages = (.ok (outgoing, complete), after) →
      (∀ m ∈ outgoing, m.round < 2 ^ 8 ∧ m.payload.length ≤ 2 ^ 20) →
      ∃ hashes, (roundStep up transcoder session incoming).1.result = .ok ⟨hashes, complete⟩ ∧
        parseMessages transcoder (.arr hashes) = .ok outgoing) ∧
    ∀ items : List Arg, (∃ item ∈ items, ∀ m, ¬ IsMessage transcoder item m) →
      (∃ e, (roundStep up transcoder session (.arr items)).1.result = .error e) ∧
        (roundStep up transcoder session (.arr items)).1.log = [] ∧
        (roundStep up transcoder session (.arr items)).2 = session := by
  constructor
  · intro incoming messages outgoing complete after hread hstep hsendable
    refine ⟨outgoing.map messageToHash, ?_, parseMessages_messageToHash transcoder outgoing
      hsendable⟩
    exact (roundStep_of_messages transcoder up session incoming messages outgoing complete after
      hread hstep).1
  · intro items h
    rcases roundStep_of_malformed transcoder up session items h with ⟨⟨e, hraise⟩, hsession⟩
    refine ⟨⟨e, ?_⟩, ?_, hsession⟩
    · rw [hraise]
      rfl
    · rw [hraise]
      rfl

end Step

/-- What a party says in the examples below: one broadcast. -/
def announcement : Message := ⟨"p0", none, 1, [0x00, 0xff]⟩

/-- An upstream session that keeps the messages it was given and answers with a
    broadcast. -/
def keepingUpstream : ThresholdUpstream :=
  { agreeableThreshold with
    Session := List Message,
    createSession := fun _ => .ok [],
    roundStep := fun kept incoming => (.ok ([announcement], false), kept ++ incoming) }

/-- The broadcast of a first round is read back. Behind it in a batch, `nil`
    keeps the session from seeing it. -/
theorem broadcast_crosses_boundary :
    (∃ hashes, (roundStep keepingUpstream (fun _ _ => none) [] .nil).1.result
          = .ok ⟨hashes, false⟩ ∧
        parseMessages (fun _ _ => none) (.arr hashes) = .ok [announcement]) ∧
      (∃ e, (roundStep keepingUpstream (fun _ _ => none) []
          (.arr [messageToHash announcement, .nil])).1.result = .error e) ∧
      (roundStep keepingUpstream (fun _ _ => none) []
          (.arr [messageToHash announcement, .nil])).1.log = [] ∧
      (roundStep keepingUpstream (fun _ _ => none) []
          (.arr [messageToHash announcement, .nil])).2 = [] := by
  have h := messages_cross_boundary (fun _ _ => none) keepingUpstream []
  refine ⟨h.1 .nil [] [announcement] false [] rfl rfl ?_, h.2 _ ⟨.nil, ?_, ?_⟩⟩
  · rw [List.forall_mem_singleton]
    decide
  · exact List.mem_cons_of_mem _ List.mem_cons_self
  · rintro m ⟨entries, _, _, _, _, hhash, _⟩
    exact absurd hhash (by simp only [reduceCtorEq, not_false_eq_true])

end Session

end TC

end Confium
