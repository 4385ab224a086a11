import Mathlib.Data.List.Perm.Subperm
import Confium.Theory.Combine
import Confium.Theory.ShareFiles
import Confium.Theory.WirePath

/-!
# A Quorum Signs

The whole way of a threshold signature. A key is generated and its shares are
saved in a share file. The file is loaded wherever the signers are. A client
opens a session over the wire, signers submit their shares, each over a
connection of its own, and some client asks for the signature.

What the upstream library promises is that any `t` of the shares it made sign
under the public key it made. The rest has to keep that promise alive: the file
gives back the shares it was given, the wire changes none of them, the session
counts each signer once and keeps what it was created with, the sessions of other
clients do not get in between, and what the combine is handed is the shares and
nothing else. Then the client that asks gets bytes back that verify, whatever
order the network and the threads take things in.

## Main definitions

* `ThresholdScheme`: What the upstream library promises.
* `Fed`: A session that has the shares that were submitted to it.
* `Ceremony`: A session that was opened, fed and closed, in the order of
  dispatch.

## Theorems

* `keygen_eq_ok`: What a key generation returned is what upstream made.
* `step_store`: What one operation does to the shares of a session.
* `fed_step`, `submissions_kept`: Sessions are fed by what is submitted.
* `aggregate_of_quorum`: With enough shares a session signs.
* `returned_agrees`: What a client was told.
* `loaded_file`: What a share file has.
* `Ceremony.session_at_close`, `Ceremony.quorum_of_fed`: The session a signature
  is asked of.
* `quorum_signs`: The client that asks gets a signature that verifies.
-/

namespace Confium

open Ruby Composite

namespace TC

variable {ρ : Type}

/-- What the upstream library promises of a scheme: shares it makes are not over
    the cap, and any `t` of those it made for a threshold `t`, and one at least, sign
    under the public key it made with them, whatever nonce is drawn. -/
structure ThresholdScheme (keygens : KeygenUpstream) (up : ρ → ThresholdUpstream)
    (verify : Bytes → Bytes → Bytes → Prop) (scheme : Scheme) : Prop where
  small : ∀ t n kg, keygens.keygen scheme t n = .ok kg →
    ∀ share ∈ kg.shares, share.length ≤ maxInputSize
  signs : ∀ t n kg, keygens.keygen scheme t n = .ok kg → ∀ shares, shares ≠ [] → shares.Nodup →
    shares ⊆ kg.shares → t ≤ shares.length → ∀ message r,
      ∃ signature, (up r).sign scheme shares t message = .ok signature ∧
        verify kg.publicKey message signature

/-- What a key generation returned is what upstream made, for the numbers it was
    given. -/
theorem keygen_eq_ok (env : AuditEnv) (keygens : KeygenUpstream) (scheme : Scheme)
    (threshold partyCount : Arg) (kg : Keygen)
    (h : (keygen env keygens scheme threshold partyCount).result = .ok kg) :
    ∃ t n, threshold.unsigned 32 = .ok t ∧ partyCount.unsigned 32 = .ok n ∧
      keygens.keygen scheme t n = .ok kg := by
  have hread : ∀ routine operation algorithm caller generate,
      (inprocessKeygen env routine operation algorithm caller generate threshold
        partyCount).result = .ok kg →
      ∃ t n, threshold.unsigned 32 = .ok t ∧ partyCount.unsigned 32 = .ok n ∧
        generate t n = .ok kg := by
    intro routine operation algorithm caller generate h
    rcases (Eff.result_bind_eq_ok_iff _ _ _).mp h with ⟨⟨t, n⟩, hargs, h⟩
    rcases (bind_eq_ok_iff _ _ _).mp hargs with ⟨t', ht, hargs⟩
    rcases (bind_eq_ok_iff _ _ _).mp hargs with ⟨n', hn, hargs⟩
    have hpair := Prod.mk.inj (Except.ok.inj hargs)
    rw [recorded_result, mapError_eq_ok_iff] at h
    exact ⟨t, n, by rw [ht, hpair.1], by rw [hn, hpair.2], h⟩
  cases scheme with
  | cmp20 => exact hread _ _ _ _ _ h
  | gg18 => exact hread _ _ _ _ _ h

/-- What one operation of a session does to its share store: it keeps what is
    there, adds nothing but what it submits, and after a submission, refused or
    not, the signer has a share. -/
theorem step_store (native : Natives Json ρ) (s : SigningSession Json) (op : SessionOp Json ρ) :
    (∀ signer ∈ s.shares.keys, signer ∈ (SigningSession.step native s op).2.shares.keys) ∧
    (∀ p ∈ (SigningSession.step native s op).2.shares.entries,
      p ∈ s.shares.entries ∨ ∃ signer, p.1 = Object.key signer ∧ op = .addShare signer p.2) ∧
    (∀ signer bytes, op = .addShare signer bytes →
      Object.key signer ∈ (SigningSession.step native s op).2.shares.keys) := by
  have hdoes := SigningSession.step_does native s op
  generalize SigningSession.step native s op = after at hdoes ⊢
  cases hdoes with
  | shareDuplicate signerId bytes b hget =>
      refine ⟨fun signer h => h, fun p hp => Or.inl hp, ?_⟩
      intro signer bytes' h
      rw [← (SessionOp.addShare.inj h).1]
      exact List.mem_map_of_mem (f := Prod.fst) ((Hash.get?_eq_some_iff _ _ _).mp hget)
  | shareStored signerId bytes hget =>
      have hentries := Hash.entries_set_of_get?_eq_none s.shares (Object.key signerId) bytes hget
      refine ⟨fun signer h => ?_, fun p hp => ?_, fun signer bytes' h => ?_⟩
      · show signer ∈ (s.shares.set (Object.key signerId) bytes).entries.map Prod.fst
        rw [hentries, List.map_append]
        exact List.mem_append_left _ h
      · have hp : p ∈ (s.shares.set (Object.key signerId) bytes).entries := hp
        rw [hentries] at hp
        rcases List.mem_append.mp hp with hp | hp
        · exact Or.inl hp
        · rw [List.mem_singleton.mp hp]
          exact Or.inr ⟨signerId, rfl, rfl⟩
      · show Object.key signer ∈ (s.shares.set (Object.key signerId) bytes).entries.map Prod.fst
        rw [hentries, List.map_append, ← (SessionOp.addShare.inj h).1]
        exact List.mem_append_right _ (List.mem_singleton_self _)
  | _ => exact ⟨fun signer h => h, fun p hp => Or.inl hp, fun signer bytes h => by cases h⟩

/-- After some calls: a session has what it was created with, and the shares that
    were submitted to it. None is from anywhere else, and there is one of each
    signer that submitted any. -/
structure Fed (id : Json) (s₀ : SigningSession Json) (ops : List (CoordinatorOp Json ρ))
    (c : Coordinator Json) : Prop where
  numbered : Coordinator.Numbered c
  session : ∃ s, c.sessions.get? id = some s ∧ s₀.Fixed s ∧
    (∀ p ∈ s.shares.entries,
      ∃ signer, p.1 = Object.key signer ∧ .call id (.addShare signer p.2) ∈ ops) ∧
    (∀ signer bytes, .call id (.addShare signer bytes) ∈ ops →
      Object.key signer ∈ s.shares.keys)

/-- Every call keeps it so. -/
theorem fed_step (native : Natives Json ρ) (id : Json) (s₀ : SigningSession Json)
    (ops : List (CoordinatorOp Json ρ)) (c : Coordinator Json) (op : CoordinatorOp Json ρ)
    (h : Fed id s₀ ops c) : Fed id s₀ (ops ++ [op]) (Coordinator.step native c op).2 := by
  rcases h with ⟨hnum, s, hs, hfixed, hfrom, hinto⟩
  refine ⟨Coordinator.numbered_step native c op hnum, ?_⟩
  -- A call for another session leaves this one alone.
  have hother : (Coordinator.step native c op).2.sessions.get? id = some s →
      (∀ op', op ≠ .call id op') →
      ∃ s, (Coordinator.step native c op).2.sessions.get? id = some s ∧ s₀.Fixed s ∧
        (∀ p ∈ s.shares.entries,
          ∃ signer, p.1 = Object.key signer ∧ .call id (.addShare signer p.2) ∈ ops ++ [op]) ∧
        (∀ signer bytes, .call id (.addShare signer bytes) ∈ ops ++ [op] →
          Object.key signer ∈ s.shares.keys) := by
    intro hsame hne
    refine ⟨s, hsame, hfixed, fun p hp => (hfrom p hp).imp fun _ h =>
      ⟨h.1, List.mem_append_left _ h.2⟩, ?_⟩
    intro signer bytes hmem
    rcases List.mem_append.mp hmem with hmem | hmem
    · exact hinto signer bytes hmem
    · exact absurd (List.mem_singleton.mp hmem).symm (hne _)
  cases op with
  | createSession message threshold unlockWindow scheme =>
      refine hother (Coordinator.get?_step_create native c _ _ _ _ id s hnum hs) ?_
      intro op' heq
      cases heq
  | call id' op =>
      by_cases hid : id = id'
      · rw [← hid]
        rcases step_store native s op with ⟨hkeys, hentries, hsubmitted⟩
        refine ⟨_, Coordinator.get?_step_call_self native c id op s hs, ?_, ?_, ?_⟩
        · have hstep := SigningSession.step_fixed native s op
          exact ⟨hstep.1.trans hfixed.1, hstep.2.1.trans hfixed.2.1,
            hstep.2.2.1.trans hfixed.2.2.1, hstep.2.2.2.trans hfixed.2.2.2⟩
        · intro p hp
          rcases hentries p hp with hp | ⟨signer, hkey, hop⟩
          · exact (hfrom p hp).imp fun _ h => ⟨h.1, List.mem_append_left _ h.2⟩
          · exact ⟨signer, hkey, List.mem_append_right _ (List.mem_singleton.mpr (by rw [hop]))⟩
        · intro signer bytes hmem
          rcases List.mem_append.mp hmem with hmem | hmem
          · exact hkeys _ (hinto signer bytes hmem)
          · exact hsubmitted signer bytes
              (CoordinatorOp.call.inj (List.mem_singleton.mp hmem)).2.symm
      · refine hother ?_ ?_
        · rw [Coordinator.get?_step_call_ne native c id' id op hid]
          exact hs
        · intro op' heq
          exact hid (CoordinatorOp.call.inj heq).1.symm

/-- And so it is after any calls that follow a creation. -/
theorem submissions_kept (native : Natives Json ρ) (c : Coordinator Json)
    (hn : Coordinator.Numbered c) (id : Json) (s₀ : SigningSession Json)
    (h₀ : c.sessions.get? id = some s₀) (hempty : s₀.shares.entries = [])
    (ops : List (CoordinatorOp Json ρ)) :
    Fed id s₀ ops (Machine.run (Coordinator.step native) c ops) := by
  induction ops using List.reverseRecOn with
  | nil =>
      refine ⟨hn, s₀, h₀, ⟨rfl, rfl, rfl, rfl⟩, ?_, ?_⟩
      · rw [hempty]
        exact fun p hp => absurd hp List.not_mem_nil
      · exact fun signer bytes h => absurd h List.not_mem_nil
  | append_singleton ops op ih =>
      rw [Machine.run_snoc]
      exact fed_step native id s₀ ops _ op ih

section

variable (env : ρ → AuditEnv) (up : ρ → ThresholdUpstream) (text : NativeError → String)

/-- A session with genuine shares of enough signers, each a share of its own,
    signs, and what it signs verifies. -/
theorem aggregate_of_quorum (keygens : KeygenUpstream) (verify : Bytes → Bytes → Bytes → Prop)
    (s : SigningSession Json) (hscheme : ThresholdScheme keygens up verify s.scheme) (t n : Nat)
    (kg : Keygen) (hkg : keygens.keygen s.scheme t n = .ok kg) (ht : t < 2 ^ 32)
    (hthreshold : s.threshold = .int t) (hlen : s.message.length ≤ maxInputSize)
    (hgenuine : ∀ p ∈ s.shares.entries, p.2 ∈ kg.shares) (hown : s.shares.values.Nodup)
    (hquorum : t ≤ s.shares.length) (hsome : s.shares.values ≠ []) (r : ρ) :
    ∃ signature,
      (SigningSession.step (natives env up text) s (.aggregate r)).1.result
        = .ok (.signature signature) ∧ verify kg.publicKey s.message signature := by
  have hmet : s.thresholdMet = some true := by
    rw [SigningSession.thresholdMet, hthreshold]
    exact (Object.ge_int _ _).trans (congrArg some (decide_eq_true (by exact_mod_cast hquorum)))
  have hvalues : s.shares.values ⊆ kg.shares := by
    intro share hshare
    rcases List.mem_map.mp hshare with ⟨p, hp, rfl⟩
    exact hgenuine p hp
  rcases hscheme.signs t n kg hkg s.shares.values hsome hown hvalues
    (by rw [Hash.length_values]; exact hquorum) s.message r with ⟨signature, hsign, hverify⟩
  refine ⟨signature, ?_, hverify⟩
  have hcombine : (natives env up text).combine s.combineCall r = .ok signature := by
    rw [natives_combine, mapError_eq_ok_iff, combine_result (env r) (up r) s.combineCall t
      (fun share hshare => hscheme.small t n kg hkg share (hvalues hshare)) hlen
      (by rw [SigningSession.combineCall, hthreshold]; exact unsigned_int 32 t ht)]
    exact (mapError_eq_ok_iff _ _ _).mpr hsign
  simp only [SigningSession.step, SigningSession.aggregate, hmet, hcombine]

end

open Connections SignerClient

/-- A session in the order of dispatch: a client opens it, signers submit shares
    of the file, no share under two names and no other share, and a client asks for
    the signature when enough of them have, and one at least. Whatever else was
    dispatched is in there as well, also before the session was there. -/
structure Ceremony (order : List (Dispatched ρ)) (scheme : Scheme) (message : Bytes)
    (threshold : Nat) (shares : List Bytes) where
  id : String
  opener : Dispatched ρ
  closer : Dispatched ρ
  before : List (Dispatched ρ)
  during : List (Dispatched ρ)
  after : List (Dispatched ρ)
  order_eq : order = before ++ opener :: (during ++ closer :: after)
  opens : opener.call = .createSession message threshold scheme.name
  closes : closer.call = .aggregate id
  signers : List String
  distinct : signers.Nodup
  attended : signers ≠ []
  enough : threshold ≤ signers.length
  submitted : ∀ signer ∈ signers, ∃ d ∈ during, ∃ bytes, d.call = .submitShare id signer bytes
  genuine : ∀ d ∈ during, ∀ signer bytes, d.call = .submitShare id signer bytes → bytes ∈ shares
  own : ∀ d ∈ during, ∀ d' ∈ during, ∀ signer signer' bytes,
    d.call = .submitShare id signer bytes → d'.call = .submitShare id signer' bytes →
      signer = signer'

/-- The client calls that submit a share. -/
theorem op_eq_addShare_iff (d : Dispatched ρ) (id : String) (signer : Json) (bytes : Bytes) :
    d.op = .call (.str id) (.addShare signer bytes) ↔
      ∃ name, signer = .str name ∧ d.call = .submitShare id name bytes := by
  rcases d with ⟨connection, call, r⟩
  constructor
  · intro h
    cases call with
    | submitShare sessionId signerId bytes' =>
        have hcall := CoordinatorOp.call.inj h
        have hshare := SessionOp.addShare.inj hcall.2
        refine ⟨signerId, hshare.1.symm, ?_⟩
        rw [← hshare.2, Json.str.inj hcall.1]
    | createSession message threshold scheme => cases h
    | submitCommitment sessionId signerId bytes' =>
        exact absurd (CoordinatorOp.call.inj h).2 (by simp only [reduceCtorEq, not_false_eq_true])
    | aggregate sessionId =>
        exact absurd (CoordinatorOp.call.inj h).2 (by simp only [reduceCtorEq, not_false_eq_true])
  · intro h
    rcases h with ⟨name, hsigner, hcall⟩
    have hcall : call = .submitShare id name bytes := hcall
    rw [hsigner, hcall]
    rfl

/-- What a client that returned was told is what its direct call did, at its place
    in the order. -/
theorem returned_agrees {codec : JsonCodec} (hcodec : codec.Lawful) {toS describe : Json → String}
    {native : Natives Json ρ} {c₀ : Coordinator Json} {s : Service ρ}
    (hs : Serialised codec toS describe native c₀ s) (d : Dispatched ρ)
    (pre post : List (Dispatched ρ)) (horder : s.order = pre ++ d :: post) (conn : Connection)
    (hconn : s.connections[d.connection]? = some conn) (result : Except ClientExn ClientValue)
    (hret : conn.phase = .returned result)
    (hcalm : ¬ Coordinator.Panics native (Machine.run (Coordinator.step native) c₀
      (pre.map Dispatched.op)) d.op) :
    Agrees (Coordinator.step native (Machine.run (Coordinator.step native) c₀
      (pre.map Dispatched.op)) d.op).1.result result := by
  have hmem : (d, (Coordinator.step native).transition (Machine.run (Coordinator.step native) c₀
      (pre.map Dispatched.op)) d.op) ∈ s.order.zip (directTrace native c₀ s.order) := by
    rw [horder, directTrace, List.map_append, Machine.trace_append, List.zip_append
      (by rw [Machine.length_trace, List.length_map])]
    exact List.mem_append_right _ List.mem_cons_self
  have hsettled := hs.settled _ hmem conn hconn
  rw [hret] at hsettled
  rcases hsettled with h | h | h
  · exact absurd h (by simp only [reduceCtorEq, not_false_eq_true])
  · exact absurd h (by simp only [reduceCtorEq, not_false_eq_true])
  · rw [Phase.returned.inj h]
    exact (receive_answer_iff codec hcodec toS describe native _ d.call d.randomness).mpr hcalm

/-- A file that was saved from a key generation and loaded has its public key and
    its shares. -/
theorem loaded_file (codec : JsonCodec) (hcodec : codec.Lawful) (schemeName : String)
    (kg : Keygen) (file : ShareFile)
    (h : ShareFile.fromJson codec (ShareFile.toJson codec
      (ShareFile.fromKeygen schemeName kg.publicKey kg.shares)) = .ok file) :
    file.publicKey = kg.publicKey ∧ file.shares = kg.shares := by
  have hplain := ShareFile.plain_toDocument (ShareFile.fromKeygen schemeName kg.publicKey
    kg.shares) schemeName rfl (Or.inl rfl) (Or.inr ⟨_, rfl⟩)
  rw [ShareFile.fromJson_toJson_of_plain codec hcodec _ hplain] at h
  rw [← Except.ok.inj h]
  exact ⟨rfl, rfl⟩

/-- A number that was read is the number, and it fits. -/
theorem unsigned_int_eq_ok {bits t t' : Nat} (h : (Arg.int t).unsigned bits = .ok t') :
    t' = t ∧ t < 2 ^ bits := by
  by_cases hlt : t < 2 ^ bits
  · rw [unsigned_int bits t hlt] at h
    exact ⟨(Except.ok.inj h).symm, hlt⟩
  · have hcond : ¬ (0 ≤ (t : Int) ∧ (t : Int) < 2 ^ bits) := by
      intro hc
      exact hlt (by exact_mod_cast hc.2)
    simp only [Arg.unsigned, Arg.integer, ok_bind] at h
    rw [if_neg hcond] at h
    exact absurd h (by simp only [reduceCtorEq, not_false_eq_true])

/-- A listed scheme is found under its name. -/
theorem ofValue?_name (scheme : Scheme) :
    Scheme.ofValue? (V := Json) (Object.str scheme.name) = some scheme := by
  cases scheme <;> decide +kernel

section

variable {order : List (Dispatched ρ)} {scheme : Scheme} {message : Bytes} {t : Nat}
  {shares : List Bytes} (ceremony : Ceremony order scheme message t shares)
  (native : Natives Json ρ)

/-- The registry a session is opened in. -/
def Ceremony.registry : Coordinator Json :=
  Machine.run (Coordinator.step native) Coordinator.new (ceremony.before.map Dispatched.op)

/-- Opening a session reaches no combine, so nothing panics. -/
theorem Ceremony.opener_calm (c : Coordinator Json) :
    ¬ Coordinator.Panics native c ceremony.opener.op := by
  rw [Dispatched.op, ceremony.opens]
  rintro ⟨_, _, _, _, h, _⟩
  cases h

/-- When the signature is asked for, the session that was opened is there under
    the id its client was given, with what it was opened with and with the shares
    that were submitted to it. -/
theorem Ceremony.session_at_close (result : Except ClientExn ClientValue)
    (hresult : result = .ok (.value (.str ceremony.id)))
    (hagrees : Agrees (Coordinator.step native (ceremony.registry native)
      ceremony.opener.op).1.result result) :
    Fed (.str ceremony.id)
      (SigningSession.fresh message (.int t) SigningSession.defaultUnlockWindow scheme)
      (ceremony.during.map Dispatched.op)
      (Machine.run (Coordinator.step native) Coordinator.new
        ((ceremony.before ++ ceremony.opener :: ceremony.during).map Dispatched.op)) := by
  have hnum : Coordinator.Numbered (ceremony.registry native) :=
    Coordinator.numbered_run native (ceremony.before.map Dispatched.op)
  have hop : ceremony.opener.op = .createSession message (.int t)
      SigningSession.defaultUnlockWindow (Object.str scheme.name) := by
    rw [Dispatched.op, ceremony.opens]
    rfl
  have hstep := Coordinator.createSession_of_known native (ceremony.registry native) message
    (.int t) SigningSession.defaultUnlockWindow (Object.str scheme.name) scheme
    (ofValue?_name scheme)
  rw [hop, hstep] at hagrees
  have hid : (ceremony.registry native).nextId = .str ceremony.id := by
    have hvalue : result = .ok (.value (ceremony.registry native).nextId) := hagrees
    rw [hresult] at hvalue
    exact (ClientValue.value.inj (Except.ok.inj hvalue)).symm
  rw [List.map_append, List.map_cons, Machine.run_append, Machine.run]
  refine submissions_kept native _ (Coordinator.numbered_step native _ _ hnum) _ _ ?_ rfl _
  show (Coordinator.step native (ceremony.registry native) ceremony.opener.op).2.sessions.get? _
    = _
  rw [hop, hstep, ← hid]
  exact Hash.get?_set_self _ _ _

/-- A session that was fed in a ceremony has genuine shares, each under one name,
    of enough signers. -/
theorem Ceremony.quorum_of_fed (s : SigningSession Json)
    (hfrom : ∀ p ∈ s.shares.entries, ∃ signer, p.1 = Object.key signer ∧
      .call (.str ceremony.id) (.addShare signer p.2) ∈ ceremony.during.map Dispatched.op)
    (hinto : ∀ signer bytes, .call (.str ceremony.id) (.addShare signer bytes) ∈
      ceremony.during.map Dispatched.op → Object.key signer ∈ s.shares.keys) :
    (∀ p ∈ s.shares.entries, p.2 ∈ shares) ∧ s.shares.values.Nodup ∧ t ≤ s.shares.length ∧
      s.shares.values ≠ [] := by
  have hsubmission : ∀ p ∈ s.shares.entries, ∃ d ∈ ceremony.during, ∃ name, p.1 = .str name ∧
      d.call = .submitShare ceremony.id name p.2 := by
    intro p hp
    rcases hfrom p hp with ⟨signer, hkey, hmem⟩
    rcases List.mem_map.mp hmem with ⟨d, hd, hop⟩
    rcases (op_eq_addShare_iff d _ _ _).mp hop with ⟨name, hname, hcall⟩
    -- A String is the key it is stored under.
    exact ⟨d, hd, name, by rw [hkey, hname]; rfl, hcall⟩
  have hkeys : ceremony.signers.map Json.str ⊆ s.shares.keys := by
    intro signer hsigner
    rcases List.mem_map.mp hsigner with ⟨name, hmem, rfl⟩
    rcases ceremony.submitted name hmem with ⟨d, hd, bytes, hcall⟩
    exact hinto (.str name) bytes (List.mem_map.mpr
      ⟨d, hd, (op_eq_addShare_iff d _ _ _).mpr ⟨name, rfl, hcall⟩⟩)
  have hattended : ceremony.signers.length ≤ s.shares.length := by
    have hnodup : (ceremony.signers.map Json.str).Nodup :=
      ceremony.distinct.map (fun a b h => Json.str.inj h)
    calc ceremony.signers.length = (ceremony.signers.map Json.str).length :=
          (List.length_map _).symm
      _ ≤ s.shares.keys.length := (List.Nodup.subperm hnodup hkeys).length_le
      _ = s.shares.length := Hash.length_keys _
  refine ⟨?_, ?_, ceremony.enough.trans hattended, ?_⟩
  · intro p hp
    rcases hsubmission p hp with ⟨d, hd, name, -, hcall⟩
    exact ceremony.genuine d hd name p.2 hcall
  · -- Two entries with one share have one signer, and a signer has one entry.
    refine List.Nodup.map_on ?_ (List.Nodup.of_map _ s.shares.nodup)
    intro p hp q hq hshare
    rcases hsubmission p hp with ⟨d, hd, name, hname, hcall⟩
    rcases hsubmission q hq with ⟨d', hd', name', hname', hcall'⟩
    rw [← hshare] at hcall'
    have hsame := ceremony.own d hd d' hd' name name' p.2 hcall hcall'
    exact Prod.ext (by rw [hname, hname', hsame]) hshare
  · rw [← List.length_pos_iff, Hash.length_values]
    exact (List.length_pos_iff.mpr ceremony.attended).trans_le hattended

end

/-- A quorum signs, from the key to the client. A key is generated for a threshold,
    its shares are saved and loaded, a client opens a session with that threshold
    and is given an id, and enough signers submit loaded shares under that id, one at
    least, each share under one name and nothing else, all over connections the
    network and the threads take in whatever order. Then a client that asks for the
    signature afterwards gets one, and it verifies under the public key in the file. -/
theorem quorum_signs (codec : JsonCodec) (hcodec : codec.Lawful) (toS describe : Json → String)
    (env : ρ → AuditEnv) (up : ρ → ThresholdUpstream) (text : NativeError → String)
    (keygens : KeygenUpstream) (verify : Bytes → Bytes → Bytes → Prop) (scheme : Scheme)
    (hscheme : ThresholdScheme keygens up verify scheme)
    (keygenEnv : AuditEnv) (t n : Nat) (kg : Keygen)
    (hkeygen : (keygen keygenEnv keygens scheme (.int t) (.int n)).result = .ok kg)
    (file : ShareFile)
    (hfile : ShareFile.fromJson codec (ShareFile.toJson codec
      (ShareFile.fromKeygen scheme.name kg.publicKey kg.shares)) = .ok file)
    (message : Bytes) (hlen : message.length ≤ maxInputSize) (events : List (Event ρ))
    (s : Service ρ) (hs : s = Machine.run (step codec toS describe (natives env up text))
      (start Coordinator.new) events)
    (ceremony : Ceremony s.order scheme message t file.shares)
    (opened : Connection) (hopened : s.connections[ceremony.opener.connection]? = some opened)
    (hgiven : opened.phase = .returned (.ok (.value (.str ceremony.id))))
    (closed : Connection) (hclosed : s.connections[ceremony.closer.connection]? = some closed)
    (result : Except ClientExn ClientValue) (hreturned : closed.phase = .returned result) :
    ∃ signature, result = .ok (.bytes signature) ∧ verify file.publicKey message signature := by
  have hserialised : Serialised codec toS describe (natives env up text) Coordinator.new s := by
    rw [hs]
    exact serialised_run codec hcodec toS describe _ _ events
  rcases loaded_file codec hcodec scheme.name kg file hfile with ⟨hkey, hshares⟩
  rcases keygen_eq_ok _ _ _ _ _ _ hkeygen with ⟨t', n', ht', hn', hkg⟩
  rcases unsigned_int_eq_ok ht' with ⟨rfl, ht⟩
  -- The session that was opened, as it is when the signature is asked for.
  have hfed := ceremony.session_at_close (natives env up text) _ rfl
    (returned_agrees hcodec hserialised ceremony.opener ceremony.before _ ceremony.order_eq
      opened hopened _ hgiven (ceremony.opener_calm (natives env up text) _))
  rcases hfed.session with ⟨session, hget, ⟨hmessage, hthreshold, -, hsame⟩, hfrom, hinto⟩
  rcases ceremony.quorum_of_fed session hfrom hinto with ⟨hgenuine, hown, hquorum, hsome⟩
  have hsame : session.scheme = scheme := hsame
  have hmessage : session.message = message := hmessage
  rw [hshares] at hgenuine
  rw [← hsame] at hscheme hkg
  rcases aggregate_of_quorum env up text keygens verify session hscheme t' n' kg hkg ht hthreshold
    (by rw [hmessage]; exact hlen) hgenuine hown hquorum hsome ceremony.closer.randomness with
    ⟨signature, hsign, hverify⟩
  refine ⟨signature, ?_, ?_⟩
  · have hop : ceremony.closer.op
        = .call (.str ceremony.id) (.aggregate ceremony.closer.randomness) := by
      rw [Dispatched.op, ceremony.closes]
      rfl
    have hcalm : ¬ Coordinator.Panics (natives env up text) (Machine.run
        (Coordinator.step (natives env up text)) Coordinator.new
        ((ceremony.before ++ ceremony.opener :: ceremony.during).map Dispatched.op))
        ceremony.closer.op := by
      rw [← Coordinator.step_fatal_iff, hop,
        Coordinator.step_call_of_known _ _ _ _ session hget, hsign]
      rintro ⟨_, h⟩
      cases h
    have hagrees := returned_agrees hcodec hserialised ceremony.closer
      (ceremony.before ++ ceremony.opener :: ceremony.during) ceremony.after
      (ceremony.order_eq.trans (by rw [List.append_assoc, List.cons_append])) closed hclosed _
      hreturned hcalm
    rw [hop, Coordinator.step_call_of_known _ _ _ _ session hget, hsign] at hagrees
    exact hagrees
  · rw [hkey, ← hmessage]
    exact hverify

/-- A scheme whose shares are numbers and whose signatures name the message. -/
def namedKeygen : KeygenUpstream :=
  { cmp20Keygen := fun _ n => .ok ⟨(List.range n).map (fun i => [UInt8.ofNat i]), [42]⟩,
    gg18Keygen := fun _ _ => .error (.error "not supported") }

def namedThreshold : ThresholdUpstream :=
  { agreeableThreshold with
    cmp20Sign := fun shares t message =>
      if shares = [] then .error (.panic "no shares")
      else if shares.length < t then .error (.error "not enough shares")
      else .ok ([42] ++ message) }

def signedUnder (publicKey message signature : Bytes) : Prop := signature = publicKey ++ message

/-- It is a threshold scheme. -/
theorem named_thresholdScheme :
    ThresholdScheme namedKeygen (fun _ : Unit => namedThreshold) signedUnder .cmp20 := by
  refine ⟨?_, ?_⟩
  · intro t n kg hkg share hshare
    rw [← Except.ok.inj hkg] at hshare
    rcases List.mem_map.mp hshare with ⟨i, -, rfl⟩
    show 1 ≤ maxInputSize
    decide
  · intro t n kg hkg shares hsome _ _ henough message _
    rw [← Except.ok.inj hkg]
    refine ⟨[42] ++ message, ?_, rfl⟩
    show (if shares = [] then _ else if shares.length < t then _ else _) = _
    rw [if_neg hsome, if_neg (Nat.not_lt.mpr henough)]

/-- A session of two signers out of three. Another client's session is opened first,
    and one signer submits twice. -/
def twoOfThree : List (Event Unit) :=
  [.connect (.createSession [9] 1 "GG18-ECDSA-P256"),
    .connect (.createSession [104, 105] 2 "CMP20-ECDSA-P256"),
    .read 0, .read 1, .dispatch 0 (), .dispatch 1 (), .respond 1, .receive 1,
    .connect (.submitShare "session-2" "a" [2]), .connect (.submitShare "session-2" "b" [0]),
    .connect (.submitShare "session-2" "a" [2]), .connect (.aggregate "session-2"),
    .read 5, .read 4, .read 3, .read 2, .dispatch 3 (), .dispatch 2 (), .dispatch 4 (),
    .dispatch 5 (), .respond 5, .receive 5]

def twoOfThreeService : Service Unit :=
  Machine.run (step .compact textOf textOf (natives (fun _ => auditedHost.audit)
    (fun _ => namedThreshold) NativeError.className)) (start Coordinator.new) twoOfThree

def twoOfThreeFile : ShareFile := ShareFile.fromKeygen "CMP20-ECDSA-P256" [42] [[0], [1], [2]]

deriving instance DecidableEq for ClientCall, Dispatched

/-- The ceremony in it. -/
def twoOfThreeCeremony :
    Ceremony twoOfThreeService.order .cmp20 [104, 105] 2 twoOfThreeFile.shares where
  id := "session-2"
  opener := ⟨1, .createSession [104, 105] 2 "CMP20-ECDSA-P256", ()⟩
  closer := ⟨5, .aggregate "session-2", ()⟩
  before := [⟨0, .createSession [9] 1 "GG18-ECDSA-P256", ()⟩]
  during := [⟨3, .submitShare "session-2" "b" [0], ()⟩, ⟨2, .submitShare "session-2" "a" [2], ()⟩,
    ⟨4, .submitShare "session-2" "a" [2], ()⟩]
  after := []
  order_eq := by decide +kernel
  opens := rfl
  closes := rfl
  signers := ["a", "b"]
  distinct := by decide
  attended := by decide
  enough := by decide
  submitted := by
    intro signer hsigner
    simp only [List.mem_cons, List.not_mem_nil, or_false] at hsigner
    rcases hsigner with rfl | rfl
    · exact ⟨_, List.mem_cons_of_mem _ List.mem_cons_self, [2], rfl⟩
    · exact ⟨_, List.mem_cons_self, [0], rfl⟩
  genuine := by
    intro d hd signer bytes hcall
    simp only [List.mem_cons, List.not_mem_nil, or_false] at hd
    rcases hd with rfl | rfl | rfl <;> cases hcall <;> decide
  own := by
    intro d hd d' hd' signer signer' bytes hcall hcall'
    simp only [List.mem_cons, List.not_mem_nil, or_false] at hd hd'
    rcases hd with rfl | rfl | rfl <;> rcases hd' with rfl | rfl | rfl <;> cases hcall <;>
      cases hcall' <;> rfl

/-- The fifth connection returned a signature of the message that was asked for. -/
theorem quorum_signs_two_of_three :
    ∃ signature,
      (twoOfThreeService.connections[5]?.map Connection.phase)
        = some (.returned (.ok (.bytes signature))) ∧ signedUnder [42] [104, 105] signature := by
  have hclosed : twoOfThreeService.connections[5]?.map Connection.phase
      = some (.returned (.ok (.bytes [42, 104, 105]))) := by decide +kernel
  have hopened : twoOfThreeService.connections[1]?.map Connection.phase
      = some (.returned (.ok (.value (.str "session-2")))) := by decide +kernel
  have hfile := ShareFile.fromJson_toJson_of_plain .compact JsonCodec.compact_lawful twoOfThreeFile
    (ShareFile.plain_toDocument _ "CMP20-ECDSA-P256" rfl (Or.inl rfl) (Or.inr ⟨_, rfl⟩))
  rcases Option.map_eq_some_iff.mp hopened with ⟨opened, hopened, hgiven⟩
  rcases Option.map_eq_some_iff.mp hclosed with ⟨closed, hclosed', hreturned⟩
  rcases quorum_signs .compact JsonCodec.compact_lawful textOf textOf
    (fun _ => auditedHost.audit) (fun _ => namedThreshold) NativeError.className namedKeygen
    signedUnder .cmp20 named_thresholdScheme auditedHost.audit 2 3 ⟨[[0], [1], [2]], [42]⟩ rfl
    twoOfThreeFile hfile [104, 105] (by decide) twoOfThree twoOfThreeService rfl twoOfThreeCeremony
    opened hopened hgiven closed hclosed' _ hreturned with ⟨signature, hresult, hverify⟩
  refine ⟨signature, ?_, hverify⟩
  rw [hclosed, hresult]

end TC

end Confium
