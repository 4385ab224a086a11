import Mathlib.Data.List.Nodup
import Mathlib.Data.List.Perm.Basic
import Confium.Lib.Progress
import Confium.Core.AcceptLoop

/-!
# Starting and Stopping

What can be relied on while a program starts and stops a service and its accept
threads run in between, each whenever the scheduler lets it.

Between calls of `start` and `stop` there is an open listener exactly when
`running?` says so, and every listener there ever was has the port that `port`
says, so a client that was told the port once finds the service again after a
restart. No connection is lost: each is waiting at the open listener, in the hands
of one accept thread, served by one thread, or was turned away by a `stop` or an
exception. Once `stop` has returned nothing more is accepted. And while the
service runs and no system call fails, whoever connected is taken within three
turns of the current accept thread for everyone in front and themselves, whatever
the others do.

The last needs that no call fails. An exception that is not rescued ends the
accept thread and leaves `@server` as it is, so `running?` then says yes although
nobody accepts.

## Main definitions

* `State.opens`, `State.ports`: The listeners, by one thing each.
* `Control.Knows`, `Kept`: What holds between any two lines.
* `State.all`: Every connection that was made.
* `Quiet`: Nobody waits at a closed listener.
* `Stopped`: A service with no connections but those it had.
* `AtWork`, `Staffed`: A running service has an accept thread at work.
* `turns`: How often a thread has to run before a connection is taken.
* `Serving`, `nearer`: Being taken, as a rank.

## Theorems

* `map_set_of_eq`, `flatMap_set_perm`, `flatMap_eq_of_only`: Changing one element
  of a list.
* `kept_step`, `kept_run`: The invariant.
* `listeners_follow_server`: Listeners are as `running?` and `port` say.
* `all_step`, `all_run`, `quiet_step`, `quiet_run`: Where connections are.
* `connections_accounted`: Every connection is somewhere, and only once.
* `stopped_step`: A stopped service stays so.
* `nothing_accepted_after_stop`: A stopped service accepts nothing.
* `staffed_step`, `staffed_run`: While no call fails.
* `turns_le`, `turns_lt`: A thread that runs gets nearer.
* `pending_connection_is_accepted`: A connection is taken.
-/

namespace Confium

namespace AcceptLoop

/-- Replacing an element by one that looks the same. -/
theorem map_set_of_eq {α β : Type} (f : α → β) (l : List α) (i : Nat) (a b : α)
    (h : l[i]? = some a) (hf : f b = f a) : (l.set i b).map f = l.map f := by
  have hmap : (l.map f)[i]? = some (f a) := by rw [List.getElem?_map, h, Option.map_some]
  rcases List.getElem?_eq_some_iff.mp hmap with ⟨hlt, hget⟩
  rw [List.map_set, hf, ← hget, List.set_getElem_self]

/-- Which listeners are open. -/
def State.opens (s : State) : List Bool := s.listeners.map Listener.listening

def State.ports (s : State) : List Nat := s.listeners.map Listener.port

theorem opens_getElem? (s : State) (l : Nat) (listener : Listener)
    (h : s.listeners[l]? = some listener) : s.opens[l]? = some listener.listening := by
  rw [State.opens, List.getElem?_map, h, Option.map_some]

/-- What is known of `@server` at each line of the controlling thread. -/
def Control.Knows (s : State) : Control → Prop
  | .idle => True
  | .binding => s.server = none
  | .assigning l => s.server = none ∧ s.opens[l]? = some true
  | .naming => ∃ l, s.server = some l
  | .spawning => ∃ l, s.server = some l
  | .clearing l => s.server = some l
  | .closing l => s.server = none ∧ s.opens[l]? = some true
  | .joining => s.server = none

/-- What holds between any two lines. `@server` is open, and an open listener is
    in `@server` or in the hands of the controlling thread. Once there is a port,
    every listener has it. -/
structure Kept (s : State) : Prop where
  serverOpen : ∀ l, s.server = some l → s.opens[l]? = some true
  only : ∀ l, s.opens[l]? = some true →
    s.server = some l ∨ s.control = .assigning l ∨ s.control = .closing l
  knows : s.control.Knows s
  samePort : s.port ≠ 0 → ∀ p ∈ s.ports, p = s.port
  noPort : s.port = 0 → s.ports = [] ∨
    ∃ p, p ≠ 0 ∧ s.ports = [p] ∧ (s.control = .assigning 0 ∨ s.control = .naming)

theorem kept_new (port : Nat) : Kept (State.new port) := by
  refine ⟨?_, ?_, trivial, ?_, fun _ => Or.inl rfl⟩
  · intro l h
    cases h
  · intro l h
    cases h
  · intro _ p h
    cases h

/-- The invariant looks at nothing but these. -/
theorem Kept.congr {s s' : State} (h : Kept s) (hserver : s'.server = s.server)
    (hport : s'.port = s.port) (hcontrol : s'.control = s.control) (hopens : s'.opens = s.opens)
    (hports : s'.ports = s.ports) : Kept s' := by
  refine ⟨?_, ?_, ?_, ?_, ?_⟩
  · rw [hserver, hopens]
    exact h.serverOpen
  · rw [hserver, hopens, hcontrol]
    exact h.only
  · rw [hcontrol]
    have hknows := h.knows
    cases hc : s.control with
    | idle => trivial
    | _ =>
        rw [hc] at hknows
        simpa only [Control.Knows, hserver, hopens] using hknows
  · rw [hport, hports]
    exact h.samePort
  · rw [hport, hports, hcontrol]
    exact h.noPort

/-- Lines at which the controlling thread has no listener of its own. -/
def Control.Plain : Control → Prop
  | .assigning _ | .naming | .closing _ => False
  | _ => True

theorem Kept.only_of_plain {s : State} (h : Kept s) (hplain : s.control.Plain) (l : Nat)
    (hl : s.opens[l]? = some true) : s.server = some l := by
  rcases h.only l hl with hserver | hc | hc
  · exact hserver
  · rw [hc] at hplain
    exact hplain.elim
  · rw [hc] at hplain
    exact hplain.elim

/-- Between calls, an open listener is the one in `@server`. -/
theorem Kept.server_of_open {s : State} (h : Kept s) (hc : s.control = .idle) (l : Nat)
    (listener : Listener) (hl : s.listeners[l]? = some listener)
    (hopen : listener.listening = true) : s.server = some l := by
  refine h.only_of_plain (by rw [hc]; trivial) l ?_
  rw [opens_getElem? s l listener hl, hopen]

/-- And the one in `@server` is open. -/
theorem Kept.listener_of_server {s : State} (h : Kept s) (l : Nat) (hs : s.server = some l) :
    ∃ listener : Listener, s.listeners[l]? = some listener ∧ listener.listening = true := by
  have hopen := h.serverOpen l hs
  rw [State.opens, List.getElem?_map] at hopen
  exact Option.map_eq_some_iff.mp hopen

theorem Kept.noPort_of_plain {s : State} (h : Kept s) (hplain : s.control.Plain)
    (hp : s.port = 0) : s.ports = [] := by
  rcases h.noPort hp with hnone | ⟨p, _, _, hc | hc⟩
  · exact hnone
  · rw [hc] at hplain
    exact hplain.elim
  · rw [hc] at hplain
    exact hplain.elim

/-- The controlling thread goes on from such a line. -/
theorem Kept.goTo {s : State} (h : Kept s) (hplain : s.control.Plain) (c : Control)
    (hknows : c.Knows s) : Kept { s with control := c } :=
  ⟨h.serverOpen, fun l hl => Or.inl (h.only_of_plain hplain l hl), hknows, h.samePort,
    fun hp => Or.inl (h.noPort_of_plain hplain hp)⟩

/-- A listener is bound. -/
theorem Kept.binds {s : State} (h : Kept s) (hc : s.control = .binding) (any : ℕ+) :
    Kept { s with
      listeners := s.listeners ++ [⟨if s.port = 0 then (any : Nat) else s.port, true, []⟩]
      control := .assigning s.listeners.length } := by
  have hplain : s.control.Plain := by
    rw [hc]
    trivial
  have hserver : s.server = none := by
    have hknows := h.knows
    rwa [hc] at hknows
  have hlast : (s.opens ++ [true])[s.listeners.length]? = some true := by
    rw [List.getElem?_append_right (by rw [State.opens, List.length_map]), State.opens,
      List.length_map, Nat.sub_self]
    rfl
  refine ⟨?_, ?_, ⟨hserver, ?_⟩, ?_, ?_⟩
  · intro l hl
    rw [hserver] at hl
    cases hl
  · -- The new one, since no other is open.
    intro l hl
    refine Or.inr (Or.inl ?_)
    have hl : (s.opens ++ [true])[l]? = some true := by
      rw [← hl, State.opens, State.opens, List.map_append]
      rfl
    by_cases hlt : l < s.opens.length
    · rw [List.getElem?_append_left hlt] at hl
      have hnone := h.only_of_plain hplain l hl
      rw [hserver] at hnone
      cases hnone
    · have hbound := (List.getElem?_eq_some_iff.mp hl).1
      rw [State.opens, List.length_map] at hlt
      rw [List.length_append, State.opens, List.length_map, List.length_singleton] at hbound
      exact congrArg Control.assigning (by omega)
  · rw [State.opens, List.map_append]
    exact hlast
  · intro hp p hmem
    rw [State.ports, List.map_append, List.mem_append] at hmem
    rcases hmem with hmem | hmem
    · exact h.samePort hp p hmem
    · rw [List.mem_singleton.mp hmem]
      exact if_neg hp
  · intro hp
    have hnone := h.noPort_of_plain hplain hp
    have hlen : s.listeners.length = 0 := by
      rw [← List.length_map (f := Listener.port), ← State.ports, hnone]
      rfl
    refine Or.inr ⟨any, any.ne_zero, ?_, Or.inl ?_⟩
    · rw [State.ports, List.map_append, ← State.ports, hnone]
      exact congrArg (fun p => [p]) (if_pos hp)
    · rw [hlen]

/-- The port is read off the listener. -/
theorem Kept.names {s : State} (h : Kept s) (l : Nat) (listener : Listener)
    (hc : s.control = .naming) (hs : s.server = some l) (hl : s.listeners[l]? = some listener) :
    Kept { s with port := listener.port, control := .spawning } := by
  have hmem : listener.port ∈ s.ports := List.mem_map_of_mem (List.mem_of_getElem? hl)
  have hports : listener.port ≠ 0 ∧ ∀ p ∈ s.ports, p = listener.port := by
    by_cases hp : s.port = 0
    · rcases h.noPort hp with hnone | ⟨p, hne, hone, _⟩
      · rw [hnone] at hmem
        cases hmem
      · rw [hone, List.mem_singleton] at hmem
        rw [hmem, hone]
        exact ⟨hne, fun q hq => List.mem_singleton.mp hq⟩
    · have hsame := h.samePort hp
      rw [hsame _ hmem]
      exact ⟨hp, hsame⟩
  refine ⟨h.serverOpen, ?_, ⟨l, hs⟩, fun _ => hports.2, fun hp => absurd hp hports.1⟩
  intro l' hl'
  rcases h.only l' hl' with hserver | hcontrol | hcontrol
  · exact Or.inl hserver
  · rw [hc] at hcontrol
    cases hcontrol
  · rw [hc] at hcontrol
    cases hcontrol

/-- A listener is closed. -/
theorem Kept.closes {s : State} (h : Kept s) (l : Nat) (listener : Listener)
    (hc : s.control = .closing l) (hl : s.listeners[l]? = some listener) :
    Kept (s.close l listener) := by
  have hknows : s.server = none ∧ s.opens[l]? = some true := by
    have hknows := h.knows
    rwa [hc] at hknows
  have hports : (s.close l listener).ports = s.ports := map_set_of_eq _ _ _ _ _ hl rfl
  have hopens : (s.close l listener).opens = s.opens.set l false := List.map_set
  refine ⟨?_, ?_, hknows.1, ?_, ?_⟩
  · intro l' hl'
    have hl' : s.server = some l' := hl'
    rw [hknows.1] at hl'
    cases hl'
  · -- None is left open: the others were not.
    intro l' hl'
    rw [hopens] at hl'
    by_cases heq : l = l'
    · rw [heq, List.getElem?_set_self'] at hl'
      rcases Option.map_eq_some_iff.mp hl' with ⟨_, _, hfalse⟩
      cases hfalse
    · rw [List.getElem?_set_ne heq] at hl'
      rcases h.only l' hl' with hserver | hcontrol | hcontrol
      · rw [hknows.1] at hserver
        cases hserver
      · rw [hc] at hcontrol
        cases hcontrol
      · rw [hc] at hcontrol
        exact absurd (Control.closing.inj hcontrol) heq
  · rw [hports]
    exact h.samePort
  · intro hp
    rw [hports]
    rcases h.noPort hp with hnone | ⟨p, _, _, hcontrol | hcontrol⟩
    · exact Or.inl hnone
    · rw [hc] at hcontrol
      cases hcontrol
    · rw [hc] at hcontrol
      cases hcontrol

/-- Every event keeps it. -/
theorem kept_step (s : State) (e : Event) (h : Kept s) : Kept (step s e).2 := by
  have hmoves := step_moves s e
  generalize (step s e).2 = s' at hmoves ⊢
  have hknows := h.knows
  cases hmoves with
  | stays => exact h
  | begins hc hs => exact h.goTo (by rw [hc]; trivial) .binding hs
  | fails hc => exact h.goTo (by rw [hc]; trivial) .idle trivial
  | binds any hc => exact h.binds hc any
  | assigns l hc =>
      rw [hc] at hknows
      refine ⟨?_, ?_, ⟨l, rfl⟩, h.samePort, ?_⟩
      · intro l' hl'
        rw [← Option.some.inj hl']
        exact hknows.2
      · intro l' hl'
        rcases h.only l' hl' with hserver | hcontrol | hcontrol
        · rw [hknows.1] at hserver
          cases hserver
        · rw [hc] at hcontrol
          exact Or.inl (congrArg some (Control.assigning.inj hcontrol))
        · rw [hc] at hcontrol
          cases hcontrol
      · intro hp
        rcases h.noPort hp with hnone | ⟨p, hne, hone, _⟩
        · exact Or.inl hnone
        · exact Or.inr ⟨p, hne, hone, Or.inr rfl⟩
  | names l listener hc hs hl => exact h.names l listener hc hs hl
  | spawns hc =>
      exact (h.goTo (by rw [hc]; trivial) .idle trivial).congr rfl rfl rfl rfl rfl
  | ends l hc hs => exact h.goTo (by rw [hc]; trivial) (.clearing l) hs
  | clears l hc =>
      rw [hc] at hknows
      have hplain : s.control.Plain := by
        rw [hc]
        trivial
      refine ⟨?_, ?_, ⟨rfl, h.serverOpen l hknows⟩, h.samePort, ?_⟩
      · intro l' hl'
        cases hl'
      · intro l' hl'
        have hserver := h.only_of_plain hplain l' hl'
        rw [show s.server = some l from hknows] at hserver
        exact Or.inr (Or.inr (congrArg Control.closing (Option.some.inj hserver)))
      · exact fun hp => Or.inl (h.noPort_of_plain hplain hp)
  | closes l listener hc hl => exact h.closes l listener hc hl
  | joins timeout hc => exact h.goTo (by rw [hc]; trivial) .idle trivial
  | connects port l listener hl hopen =>
      exact h.congr rfl rfl rfl (map_set_of_eq _ _ _ _ _ hl rfl) (map_set_of_eq _ _ _ _ _ hl rfl)
  | takes t l listener c rest ha hl hopen hbacklog =>
      exact h.congr rfl rfl rfl (map_set_of_eq _ _ _ _ _ hl rfl) (map_set_of_eq _ _ _ _ _ hl rfl)
  | reads t l call ha hs => exact h.congr rfl rfl rfl rfl rfl
  | leaves t call a raised ha hheld hwhy => exact h.congr rfl rfl rfl rfl rfl
  | serves t c ha => exact h.congr rfl rfl rfl rfl rfl
  | drops t c call ha hcall => exact h.congr rfl rfl rfl rfl rfl

theorem kept_run (port : Nat) (events : List Event) :
    Kept (Machine.run step (State.new port) events) :=
  Machine.run_induct step Kept _ events (kept_new port) kept_step

/-- A port that was settled stays. -/
theorem port_run (s : State) (events : List Event) (h : Kept s) (hp : s.port ≠ 0) :
    (Machine.run step s events).port = s.port := by
  refine (Machine.run_induct step (fun s' => Kept s' ∧ s'.port = s.port) s events ⟨h, rfl⟩ ?_).2
  intro s' e ⟨hkept, hport⟩
  refine ⟨kept_step s' e hkept, ?_⟩
  have hmoves := step_moves s' e
  generalize (step s' e).2 = s'' at hmoves ⊢
  cases hmoves with
  | names l listener hc hs hl =>
      have hmem : listener.port ∈ s'.ports := List.mem_map_of_mem (List.mem_of_getElem? hl)
      rw [← hport] at hp ⊢
      exact hkept.samePort hp _ hmem
  | _ => exact hport

/-- Whatever the program, the clients and the scheduler do: between two calls of
    `start` and `stop` there is an open listener exactly when `running?` says so,
    no more than one, and every listener there ever was had the port that `port`
    says. That port is there to stay. -/
theorem listeners_follow_server (port : Nat) (events later : List Event) :
    let s := Machine.run step (State.new port) events
    (s.control = .idle → ∀ l, (∃ listener : Listener, s.listeners[l]? = some listener ∧
      listener.listening = true) ↔ s.server = some l) ∧
    (s.control = .idle → ∀ listener ∈ s.listeners, listener.port = s.port) ∧
    (s.port ≠ 0 → (Machine.run step s later).port = s.port) := by
  intro s
  have h : Kept s := kept_run port events
  have hopen : ∀ l : Nat, (∃ listener : Listener, s.listeners[l]? = some listener ∧
      listener.listening = true) ↔ s.opens[l]? = some true := by
    intro l
    rw [State.opens, List.getElem?_map, Option.map_eq_some_iff]
  refine ⟨?_, ?_, port_run s later h⟩
  · intro hc l
    have hplain : s.control.Plain := by
      rw [hc]
      trivial
    rw [hopen]
    exact ⟨h.only_of_plain hplain l, h.serverOpen l⟩
  · intro hc listener hmem
    have hport : listener.port ∈ s.ports := List.mem_map_of_mem hmem
    by_cases hp : s.port = 0
    · rw [h.noPort_of_plain (by rw [hc]; trivial) hp] at hport
      cases hport
    · exact h.samePort hp _ hport

/-! ### Connections -/

/-- Taking one element out of a list whose elements are lists: what is left is the
    same whatever stands in its place. -/
theorem flatMap_set_perm {α β : Type} (f : α → List β) (l : List α) (i : Nat) (a : α)
    (h : l[i]? = some a) : (l.flatMap f).Perm (f a ++ (l.eraseIdx i).flatMap f) ∧
      ∀ b, ((l.set i b).flatMap f).Perm (f b ++ (l.eraseIdx i).flatMap f) := by
  rcases List.getElem?_eq_some_iff.mp h with ⟨hlt, hget⟩
  constructor
  · have hperm := (List.getElem_cons_eraseIdx_perm hlt).symm.flatMap_right f
    rw [hget] at hperm
    exact hperm
  · exact fun b => (List.set_perm_cons_eraseIdx hlt b).flatMap_right f

theorem held_eq_flatMap (acceptors : List Acceptor) :
    acceptors.filterMap State.heldBy = acceptors.flatMap (fun a => (State.heldBy a).toList) :=
  List.filterMap_eq_flatMap_toList _ _

/-- How often a connection is held, before and after a thread's step. -/
theorem count_held_set (acceptors : List Acceptor) (t : Nat) (a : Acceptor)
    (h : acceptors[t]? = some a) (n : Nat) : ∃ others,
      (acceptors.filterMap State.heldBy).count n = (State.heldBy a).toList.count n + others ∧
      ∀ b, ((acceptors.set t b).filterMap State.heldBy).count n
        = (State.heldBy b).toList.count n + others := by
  have hperm := flatMap_set_perm (fun a => (State.heldBy a).toList) acceptors t a h
  refine ⟨((acceptors.eraseIdx t).flatMap (fun a => (State.heldBy a).toList)).count n, ?_, ?_⟩
  · rw [held_eq_flatMap, hperm.1.count_eq, List.count_append]
  · exact fun b => by rw [held_eq_flatMap, (hperm.2 b).count_eq, List.count_append]

/-- And how often it waits, before and after a change at a listener. -/
theorem count_backlog_set (listeners : List Listener) (l : Nat) (listener : Listener)
    (h : listeners[l]? = some listener) (n : Nat) : ∃ others,
      (listeners.flatMap Listener.backlog).count n = listener.backlog.count n + others ∧
      ∀ b : Listener, ((listeners.set l b).flatMap Listener.backlog).count n
        = b.backlog.count n + others := by
  have hperm := flatMap_set_perm Listener.backlog listeners l listener h
  refine ⟨((listeners.eraseIdx l).flatMap Listener.backlog).count n, ?_, ?_⟩
  · rw [hperm.1.count_eq, List.count_append]
  · exact fun b => by rw [(hperm.2 b).count_eq, List.count_append]

/-- Every connection that was made, wherever it is now. -/
def State.all (s : State) : List Nat := s.served ++ s.held ++ s.pending ++ s.dropped

/-- An event moves connections along, and a new one gets the next number. -/
theorem all_step (s : State) (e : Event) (h : s.all.Perm (List.range s.connected)) :
    (step s e).2.all.Perm (List.range (step s e).2.connected) := by
  have hmoves := step_moves s e
  generalize (step s e).2 = s' at hmoves ⊢
  rw [List.perm_iff_count] at h ⊢
  intro n
  have hn := h n
  simp only [State.all, List.count_append] at hn ⊢
  cases hmoves with
  | binds any hc =>
      have hpending : ∀ p, (s.listeners ++ [Listener.mk p true []]).flatMap Listener.backlog
          = s.listeners.flatMap Listener.backlog := by
        intro p
        rw [List.flatMap_append]
        exact List.append_nil _
      simp only [State.pending, State.held, hpending] at hn ⊢
      exact hn
  | spawns hc =>
      have hheld : (s.acceptors ++ [Acceptor.reading]).filterMap State.heldBy
          = s.acceptors.filterMap State.heldBy := by
        rw [List.filterMap_append]
        exact List.append_nil _
      simp only [State.pending, State.held, hheld] at hn ⊢
      exact hn
  | closes l listener hc hl =>
      rcases count_backlog_set s.listeners l listener hl n with ⟨others, hbefore, hafter⟩
      simp only [State.close, State.pending, State.held, List.count_append, List.count_nil,
        hbefore, hafter] at hn ⊢
      omega
  | connects port l listener hl hopen =>
      rcases count_backlog_set s.listeners l listener hl n with ⟨others, hbefore, hafter⟩
      simp only [State.pending, State.held, List.count_append, List.range_succ, hbefore,
        hafter] at hn ⊢
      omega
  | reads t l call ha hs =>
      rcases count_held_set s.acceptors t _ ha n with ⟨others, hbefore, hafter⟩
      simp only [State.moveTo, State.pending, State.held, hbefore, hafter] at hn ⊢
      exact hn
  | leaves t call a raised ha hheld hwhy =>
      rcases count_held_set s.acceptors t _ ha n with ⟨others, hbefore, hafter⟩
      simp only [State.moveTo, State.pending, State.held, hbefore, hafter, hheld] at hn ⊢
      exact hn
  | takes t l listener c rest ha hl hopen hbacklog =>
      rcases count_held_set s.acceptors t _ ha n with ⟨others, hbefore, hafter⟩
      rcases count_backlog_set s.listeners l listener hl n with ⟨others', hbefore', hafter'⟩
      simp only [State.take, State.pending, State.held, State.heldBy, Option.toList_none,
        Option.toList_some, List.count_cons, List.count_nil, hbefore, hafter, hbefore', hafter',
        hbacklog] at hn ⊢
      omega
  | serves t c ha =>
      rcases count_held_set s.acceptors t _ ha n with ⟨others, hbefore, hafter⟩
      simp only [State.moveTo, State.pending, State.held, State.heldBy, Option.toList_none,
        Option.toList_some, List.count_nil, List.count_append, hbefore, hafter] at hn ⊢
      omega
  | drops t c call ha hcall =>
      rcases count_held_set s.acceptors t _ ha n with ⟨others, hbefore, hafter⟩
      simp only [State.moveTo, State.pending, State.held, State.heldBy, Option.toList_none,
        Option.toList_some, List.count_nil, List.count_append, hbefore, hafter] at hn ⊢
      omega
  | _ => exact hn

theorem all_run (port : Nat) (events : List Event) :
    (Machine.run step (State.new port) events).all.Perm
      (List.range (Machine.run step (State.new port) events).connected) :=
  Machine.run_induct step (fun s => s.all.Perm (List.range s.connected)) _ events
    (List.Perm.refl _) all_step

/-- Nobody waits at a closed listener. -/
def Quiet (s : State) : Prop :=
  ∀ listener ∈ s.listeners, listener.listening = false → listener.backlog = []

theorem quiet_set (s : State) (l : Nat) (listener : Listener) (h : Quiet s)
    (hnew : listener.listening = false → listener.backlog = []) :
    ∀ li ∈ s.listeners.set l listener, li.listening = false → li.backlog = [] := by
  intro li hmem
  rcases List.mem_or_eq_of_mem_set hmem with hold | hnewer
  · exact h li hold
  · rw [hnewer]
    exact hnew

theorem quiet_step (s : State) (e : Event) (h : Quiet s) : Quiet (step s e).2 := by
  have hmoves := step_moves s e
  generalize (step s e).2 = s' at hmoves ⊢
  cases hmoves with
  | binds any hc =>
      intro li hmem hclosed
      rcases List.mem_append.mp hmem with hmem | hmem
      · exact h li hmem hclosed
      · rw [List.mem_singleton.mp hmem]
  | closes l listener hc hl => exact quiet_set s l _ h (fun _ => rfl)
  | connects port l listener hl hopen =>
      refine quiet_set s l _ h (fun hclosed => ?_)
      have hclosed : listener.listening = false := hclosed
      rw [hopen] at hclosed
      cases hclosed
  | takes t l listener c rest ha hl hopen hbacklog =>
      refine quiet_set s l _ h (fun hclosed => ?_)
      have hclosed : listener.listening = false := hclosed
      rw [hopen] at hclosed
      cases hclosed
  | _ => exact h

theorem quiet_run (port : Nat) (events : List Event) :
    Quiet (Machine.run step (State.new port) events) :=
  Machine.run_induct step Quiet _ events (fun _ hmem => absurd hmem List.not_mem_nil) quiet_step

/-- Every connection that was ever made is in one place, and in one only: it was
    served by one thread, or one accept thread has it, or it waits at a listener,
    or it was turned away. When `stop` has returned, none waits. -/
theorem connections_accounted (port : Nat) (events : List Event) :
    let s := Machine.run step (State.new port) events
    (s.served ++ s.held ++ s.pending ++ s.dropped).Perm (List.range s.connected) ∧
    (s.control = .idle → s.server = none → s.pending = []) := by
  intro s
  refine ⟨all_run port events, ?_⟩
  intro hc hserver
  have hkept : Kept s := kept_run port events
  have hquiet : Quiet s := quiet_run port events
  rw [State.pending, List.flatMap_eq_nil_iff]
  intro listener hmem
  refine hquiet listener hmem (Bool.eq_false_iff.mpr (fun hopen => ?_))
  rcases List.mem_iff_getElem?.mp hmem with ⟨l, hl⟩
  cases hserver.symm.trans (hkept.server_of_open hc l listener hl hopen)

/-- A service that is stopped, and has no connection that it did not have before. -/
structure Stopped (s₀ s : State) : Prop where
  kept : Kept s
  idle : s.control = .idle
  server : s.server = none
  connected : s.connected = s₀.connected
  served : ∀ c ∈ s.served, c ∈ s₀.served ∨ c ∈ s₀.held
  held : ∀ c ∈ s.held, c ∈ s₀.held

/-- A thread that goes to its next line holds what it held, or something else. -/
theorem mem_held_set (acceptors : List Acceptor) (t : Nat) (b : Acceptor) (c : Nat)
    (h : c ∈ (acceptors.set t b).filterMap State.heldBy) :
    c ∈ acceptors.filterMap State.heldBy ∨ State.heldBy b = some c := by
  rcases List.mem_filterMap.mp h with ⟨a, hmem, hby⟩
  rcases List.mem_or_eq_of_mem_set hmem with hold | hnew
  · exact Or.inl (List.mem_filterMap.mpr ⟨a, hold, hby⟩)
  · exact Or.inr (by rw [← hnew]; exact hby)

/-- One that holds nothing after it adds nothing. -/
theorem Stopped.held_set {s₀ s : State} (h : Stopped s₀ s) (t : Nat) (b : Acceptor)
    (hb : State.heldBy b = none) (c : Nat)
    (hc : c ∈ (s.acceptors.set t b).filterMap State.heldBy) : c ∈ s₀.held := by
  rcases mem_held_set s.acceptors t b c hc with hold | hnew
  · exact h.held c hold
  · cases hb.symm.trans hnew

/-- It stays stopped until `start` is called. -/
theorem stopped_step (s₀ s : State) (e : Event) (he : e ≠ .start) (h : Stopped s₀ s) :
    Stopped s₀ (step s e).2 := by
  have hkept := kept_step s e h.kept
  have hmoves := step_moves s e
  generalize (step s e).2 = s' at hmoves hkept ⊢
  -- There is no open listener to connect to or to accept from.
  have hclosed : ∀ (l : Nat) (listener : Listener), s.listeners[l]? = some listener →
      listener.listening ≠ true := fun l listener hl hopen =>
    nomatch h.server.symm.trans (h.kept.server_of_open h.idle l listener hl hopen)
  cases hmoves with
  | stays => exact h
  | begins => exact absurd rfl he
  | ends l _ hs => cases h.server.symm.trans hs
  | connects port l listener hl hopen => exact absurd hopen (hclosed l listener hl)
  | reads t l call ha hs => cases h.server.symm.trans hs
  | leaves t call a raised ha _ _ =>
      exact ⟨hkept, h.idle, h.server, h.connected, h.served, h.held_set t _ rfl⟩
  | takes t l listener c rest ha hl hopen hbacklog => exact absurd hopen (hclosed l listener hl)
  | serves t c ha =>
      refine ⟨hkept, h.idle, h.server, h.connected, fun d hmem => ?_, h.held_set t _ rfl⟩
      rcases List.mem_append.mp hmem with hmem | hmem
      · exact h.served d hmem
      · rw [List.mem_singleton.mp hmem]
        exact Or.inr (h.held c (List.mem_filterMap.mpr ⟨_, List.mem_of_getElem? ha, rfl⟩))
  | drops t c call ha _ =>
      exact ⟨hkept, h.idle, h.server, h.connected, h.served, h.held_set t _ rfl⟩
  | fails hc => cases h.idle.symm.trans hc
  | binds _ hc => cases h.idle.symm.trans hc
  | assigns _ hc => cases h.idle.symm.trans hc
  | names _ _ hc _ _ => cases h.idle.symm.trans hc
  | spawns hc => cases h.idle.symm.trans hc
  | clears _ hc => cases h.idle.symm.trans hc
  | closes _ _ hc _ => cases h.idle.symm.trans hc
  | joins _ hc => cases h.idle.symm.trans hc

/-- Once `stop` has returned, or before `start` is first called, nobody connects
    and nothing is accepted until `start` is called: whatever happens, only what an
    accept thread had already taken is still served. -/
theorem nothing_accepted_after_stop (port : Nat) (events later : List Event)
    (hlater : Event.start ∉ later) :
    let s := Machine.run step (State.new port) events
    let s' := Machine.run step s later
    s.control = .idle → s.server = none →
      s'.connected = s.connected ∧ ∀ c ∈ s'.served, c ∈ s.served ∨ c ∈ s.held := by
  intro s s' hc hserver
  have hstopped : Stopped s s' := Machine.run_induct_of_mem step (Stopped s) s later
    ⟨kept_run port events, hc, hserver, rfl, fun c h => Or.inl h, fun c h => h⟩
    (fun s' e he h => stopped_step s s' e (fun heq => hlater (heq ▸ he)) h)
  exact ⟨hstopped.connected, hstopped.served⟩

/-- A service that was stopped while its accept thread had a connection, and did not
    come back in time. -/
def givenUpOn : List Event :=
  [.start, .bind (some 4000), .proceed, .proceed, .proceed, .connect 4000, .connect 4000,
    .acceptor 0 .done, .acceptor 0 .done, .stop, .proceed, .proceed, .join true]

/-- The connection it had is served, and no other. -/
theorem givenUpOn_accepts_nothing :
    (Machine.run step (Machine.run step (State.new 0) givenUpOn)
        [.connect 4000, .acceptor 0 .done, .acceptor 0 .done]).connected
      = (Machine.run step (State.new 0) givenUpOn).connected ∧
    ∀ c ∈ (Machine.run step (Machine.run step (State.new 0) givenUpOn)
        [.connect 4000, .acceptor 0 .done, .acceptor 0 .done]).served,
      c ∈ (Machine.run step (State.new 0) givenUpOn).served ∨
        c ∈ (Machine.run step (State.new 0) givenUpOn).held :=
  nothing_accepted_after_stop 0 givenUpOn [.connect 4000, .acceptor 0 .done, .acceptor 0 .done]
    (by decide) rfl rfl

/-! ### Progress -/

/-- An accept thread at work on a listener. -/
def AtWork (l : Nat) : Acceptor → Prop
  | .reading => True
  | .accepting l' => l' = l
  | .starting _ => True
  | .ended _ => False

/-- A service that runs has an accept thread at work, from when `start` has made it
    one. -/
def Staffed (s : State) : Prop :=
  ∀ l, s.server = some l → s.control ≠ .naming → s.control ≠ .spawning →
    ∃ t a, s.acceptThread = some t ∧ s.acceptors[t]? = some a ∧ AtWork l a

/-- An event in which no call of an accept thread fails. -/
def Event.Succeeds : Event → Prop
  | .acceptor _ call => call = .done
  | _ => True

instance (e : Event) : Decidable e.Succeeds :=
  match e with
  | .start | .stop | .bind _ | .proceed | .join _ | .connect _ => isTrue trivial
  | .acceptor _ call => inferInstanceAs (Decidable (call = .done))

/-- Another thread goes to its next line, or this one goes to one at work. -/
theorem atWork_set (s : State) (l t t' : Nat) (a b : Acceptor) (h : s.acceptors[t]? = some a)
    (hwork : AtWork l a) (hb : t' = t → AtWork l b) :
    ∃ a', (s.acceptors.set t' b)[t]? = some a' ∧ AtWork l a' := by
  by_cases ht : t' = t
  · refine ⟨b, ?_, hb ht⟩
    rw [ht, List.getElem?_set_self (List.getElem?_eq_some_iff.mp h).1]
  · exact ⟨a, by rw [List.getElem?_set_ne ht, h], hwork⟩

/-- While no call fails, it stays so. -/
theorem staffed_step (s : State) (e : Event) (hkept : Kept s) (he : e.Succeeds)
    (h : Staffed s) : Staffed (step s e).2 := by
  have hmoves := step_moves s e
  generalize (step s e).2 = s' at hmoves ⊢
  have hknows := hkept.knows
  -- The thread is still at work after a line of its own or of another one.
  have hline : ∀ t' b, (∀ l t a, s.server = some l → s.acceptors[t]? = some a → AtWork l a →
      t' = t → AtWork l b) → Staffed (s.moveTo t' b) := by
    intro t' b hb l hl hnaming hspawning
    rcases h l hl hnaming hspawning with ⟨t, a, ht, ha, hwork⟩
    rcases atWork_set s l t t' a b ha hwork (hb l t a hl ha hwork) with ⟨a', ha', hwork'⟩
    exact ⟨t, a', ht, ha', hwork'⟩
  cases hmoves with
  | stays => exact h
  | begins hc hs =>
      intro l hl
      rw [show s.server = none from hs] at hl
      cases hl
  | fails hc => exact fun l hl _ _ => h l hl (by rw [hc]; decide) (by rw [hc]; decide)
  | binds any hc =>
      intro l hl
      rw [hc] at hknows
      rw [show s.server = none from hknows] at hl
      cases hl
  | assigns l hc => exact fun _ _ hnaming _ => absurd rfl hnaming
  | names l listener hc hs hl => exact fun _ _ _ hspawning => absurd rfl hspawning
  | spawns hc =>
      intro l hl _ _
      refine ⟨s.acceptors.length, .reading, rfl, ?_, trivial⟩
      rw [List.getElem?_append_right (Nat.le_refl _), Nat.sub_self]
      rfl
  | ends l hc hs => exact fun l hl _ _ => h l hl (by rw [hc]; decide) (by rw [hc]; decide)
  | clears l hc =>
      intro l hl
      cases hl
  | closes l listener hc hl =>
      intro l' hl'
      have hl' : s.server = some l' := hl'
      rw [hc] at hknows
      rw [hknows.1] at hl'
      cases hl'
  | joins timeout hc => exact fun l hl _ _ => h l hl (by rw [hc]; decide) (by rw [hc]; decide)
  | connects port l listener hl hopen => exact h
  | reads t' l' call ha' hs =>
      refine hline t' _ (fun l t a hl _ _ _ => ?_)
      rw [hs] at hl
      exact Option.some.inj hl
  | leaves t' call a' raised ha' hheld hwhy =>
      refine hline t' _ (fun l t a hl ha hwork ht => ?_)
      rw [ht, ha] at ha'
      rcases hwhy he with ⟨_, hnone⟩ | ⟨l', listener, haccepting, hget, hclosed⟩
      · rw [hnone] at hl
        cases hl
      · -- The listener it waits at is the one in `@server`, which is open.
        rw [Option.some.inj ha', haccepting] at hwork
        have hwork : l' = l := hwork
        have hopen := hkept.serverOpen l hl
        rw [← hwork, opens_getElem? s l' listener hget, hclosed] at hopen
        cases hopen
  | takes t' l' listener c rest ha' hl' hopen hbacklog =>
      exact hline t' (.starting c) (fun _ _ _ _ _ _ _ => trivial)
  | serves t' c ha' => exact hline t' .reading (fun _ _ _ _ _ _ _ => trivial)
  | drops t' c call ha' hcall => exact absurd he hcall

theorem staffed_run (port : Nat) (events : List Event) (h : ∀ e ∈ events, e.Succeeds) :
    Staffed (Machine.run step (State.new port) events) :=
  (Machine.run_induct_of_mem step (fun s => Kept s ∧ Staffed s) _ events
    ⟨kept_new port, fun l hl => by cases hl⟩
    (fun s e he hs => ⟨kept_step s e hs.1, staffed_step s e hs.1 (h e he) hs.2⟩)).2

/-- How often an accept thread runs before it takes the next connection. -/
def Acceptor.turns : Acceptor → Nat
  | .reading => 2
  | .accepting _ => 1
  | .starting _ => 3
  | .ended _ => 1

/-- How often a thread has to run before a connection is taken that waits at a
    listener: three lines for everyone in front, and what is left of the round it
    is in. -/
def turns (t l c : Nat) (s : State) : Nat :=
  match s.listeners[l]?, s.acceptors[t]? with
  | some listener, some a =>
    if c ∈ listener.backlog then 3 * listener.backlog.idxOf c + a.turns else 0
  | _, _ => 0

/-- A service that runs, with a thread at work and a connection that was made. -/
structure Serving (t l c : Nat) (s : State) : Prop where
  kept : Kept s
  idle : s.control = .idle
  server : s.server = some l
  thread : ∃ a, s.acceptors[t]? = some a ∧ AtWork l a
  acceptThread : s.acceptThread = some t
  accounted : s.all.Perm (List.range s.connected)
  quiet : Quiet s
  made : c < s.connected
  welcome : c ∉ s.dropped

/-- An event that neither stops a running service nor fails leaves it running, with
    the same thread, and turns nobody away. -/
theorem running_step (s : State) (e : Event) (l : Nat) (hc : s.control = .idle)
    (hs : s.server = some l) (hstop : e ≠ .stop) (he : e.Succeeds) :
    (step s e).2.control = .idle ∧ (step s e).2.server = some l ∧
      (step s e).2.acceptThread = s.acceptThread ∧ s.connected ≤ (step s e).2.connected ∧
      (step s e).2.dropped = s.dropped := by
  have hmoves := step_moves s e
  generalize (step s e).2 = s' at hmoves ⊢
  cases hmoves with
  | begins _ hnone => cases hnone.symm.trans hs
  | fails h => cases hc.symm.trans h
  | binds _ h => cases hc.symm.trans h
  | assigns _ h => cases hc.symm.trans h
  | names _ _ h _ _ => cases hc.symm.trans h
  | spawns h => cases hc.symm.trans h
  | ends => exact absurd rfl hstop
  | clears _ h => cases hc.symm.trans h
  | closes _ _ h _ => cases hc.symm.trans h
  | joins _ h => cases hc.symm.trans h
  | connects => exact ⟨hc, hs, rfl, Nat.le_succ _, rfl⟩
  | drops _ _ _ _ hcall => exact absurd he hcall
  | _ => exact ⟨hc, hs, rfl, Nat.le_refl _, rfl⟩

theorem serving_step (t l c : Nat) (s : State) (e : Event) (h : Serving t l c s)
    (hstop : e ≠ .stop) (he : e.Succeeds) : Serving t l c (step s e).2 := by
  rcases running_step s e l h.idle h.server hstop he with
    ⟨hidle, hserver, hthread, hconnected, hdropped⟩
  have hstaffed : Staffed s := by
    intro l' hl' _ _
    rw [h.server] at hl'
    rcases h.thread with ⟨a, ha, hwork⟩
    exact ⟨t, a, h.acceptThread, ha, by rwa [← Option.some.inj hl']⟩
  refine ⟨kept_step s e h.kept, hidle, hserver, ?_, hthread.trans h.acceptThread,
    all_step s e h.accounted, quiet_step s e h.quiet, Nat.lt_of_lt_of_le h.made hconnected,
    by rw [hdropped]; exact h.welcome⟩
  rcases staffed_step s e h.kept he hstaffed l hserver (by rw [hidle]; decide)
    (by rw [hidle]; decide) with ⟨t', a, ht', ha, hwork⟩
  rw [hthread, h.acceptThread] at ht'
  rw [Option.some.inj ht']
  exact ⟨a, ha, hwork⟩

/-- A list of lists of which only one has anything. -/
theorem flatMap_eq_of_only {α β : Type} (f : α → List β) (xs : List α) (i : Nat) (a : α)
    (h : xs[i]? = some a) (honly : ∀ j b, xs[j]? = some b → j ≠ i → f b = []) :
    xs.flatMap f = f a := by
  induction xs generalizing i with
  | nil => cases h
  | cons x rest ih =>
      rw [List.flatMap_cons]
      cases i with
      | zero =>
          have hrest : rest.flatMap f = [] := by
            rw [List.flatMap_eq_nil_iff]
            intro b hmem
            rcases List.mem_iff_getElem?.mp hmem with ⟨j, hj⟩
            exact honly (j + 1) b hj (Nat.succ_ne_zero j)
          rw [hrest, List.append_nil, Option.some.inj h]
      | succ i =>
          rw [honly 0 x rfl (Nat.succ_ne_zero i).symm, List.nil_append]
          exact ih i h (fun j b hj hne => honly (j + 1) b hj (fun heq => hne (by omega)))

/-- Whoever waits, waits at the listener that is open. -/
theorem pending_eq_backlog (s : State) (hkept : Kept s) (hquiet : Quiet s)
    (hc : s.control = .idle) (l : Nat) (hs : s.server = some l) (listener : Listener)
    (hl : s.listeners[l]? = some listener) : s.pending = listener.backlog := by
  refine flatMap_eq_of_only _ _ l listener hl (fun j other hj hne => ?_)
  refine hquiet other (List.mem_of_getElem? hj) (Bool.eq_false_iff.mpr (fun hopen => hne ?_))
  exact Option.some.inj ((hkept.server_of_open hc j other hj hopen).symm.trans hs)

theorem turns_eq (t l c : Nat) (s : State) (listener : Listener) (a : Acceptor)
    (hl : s.listeners[l]? = some listener) (ha : s.acceptors[t]? = some a) :
    turns t l c s
      = if c ∈ listener.backlog then 3 * listener.backlog.idxOf c + a.turns else 0 := by
  simp only [turns, hl, ha]

/-- A connection is no further back if it is not further back at its listener, the
    thread being where it is in its round. -/
theorem turns_le_of (t l c : Nat) (s s' : State) (listener listener' : Listener)
    (a a' : Acceptor) (hl : s.listeners[l]? = some listener) (ha : s.acceptors[t]? = some a)
    (hl' : s'.listeners[l]? = some listener') (ha' : s'.acceptors[t]? = some a')
    (h : c ∈ listener'.backlog → c ∈ listener.backlog ∧
      3 * listener'.backlog.idxOf c + a'.turns ≤ 3 * listener.backlog.idxOf c + a.turns) :
    turns t l c s' ≤ turns t l c s := by
  rw [turns_eq t l c s listener a hl ha, turns_eq t l c s' listener' a' hl' ha']
  by_cases hmem : c ∈ listener'.backlog
  · rw [if_pos hmem, if_pos (h hmem).1]
    exact (h hmem).2
  · rw [if_neg hmem]
    exact Nat.zero_le _

/-- And it is nearer if it is nearer there. -/
theorem turns_lt_of (t l c : Nat) (s s' : State) (listener listener' : Listener)
    (a a' : Acceptor) (hl : s.listeners[l]? = some listener) (ha : s.acceptors[t]? = some a)
    (hl' : s'.listeners[l]? = some listener') (ha' : s'.acceptors[t]? = some a')
    (hmem : c ∈ listener.backlog) (hpos : 0 < a.turns)
    (h : c ∈ listener'.backlog →
      3 * listener'.backlog.idxOf c + a'.turns < 3 * listener.backlog.idxOf c + a.turns) :
    turns t l c s' < turns t l c s := by
  rw [turns_eq t l c s listener a hl ha, turns_eq t l c s' listener' a' hl' ha', if_pos hmem]
  by_cases hmem' : c ∈ listener'.backlog
  · rw [if_pos hmem']
    exact h hmem'
  · rw [if_neg hmem']
    omega

theorem turns_pos (a : Acceptor) : 0 < a.turns := by
  cases a <;> simp only [Acceptor.turns, Nat.zero_lt_succ]

/-- When a thread takes a connection, everyone behind it moves up. -/
theorem turns_take_lt (t t' l c : Nat) (s : State) (listener : Listener) (d : Nat)
    (rest : List Nat) (a : Acceptor) (hl : s.listeners[l]? = some listener)
    (ha : s.acceptors[t]? = some a) (ha' : s.acceptors[t']? = some (.accepting l))
    (hbacklog : listener.backlog = d :: rest) (hnodup : listener.backlog.Nodup) :
    turns t l c (s.take t' l listener d rest) ≤ turns t l c s ∧
      (c ∈ listener.backlog → turns t l c (s.take t' l listener d rest) < turns t l c s) := by
  have hl' : (s.take t' l listener d rest).listeners[l]?
      = some { listener with backlog := rest } :=
    List.getElem?_set_self (List.getElem?_eq_some_iff.mp hl).1
  -- Three lines more to run for the thread that took it, and nothing for the others.
  have hthread : ∃ b, (s.take t' l listener d rest).acceptors[t]? = some b ∧
      b.turns ≤ a.turns + 2 := by
    by_cases ht : t' = t
    · refine ⟨.starting d, ?_, ?_⟩
      · rw [← ht]
        exact List.getElem?_set_self (List.getElem?_eq_some_iff.mp ha').1
      · have hpos := turns_pos a
        show 3 ≤ a.turns + 2
        omega
    · exact ⟨a, (List.getElem?_set_ne ht).trans ha, Nat.le_add_right _ _⟩
  rcases hthread with ⟨b, hb, hturns⟩
  rw [hbacklog, List.nodup_cons] at hnodup
  -- Whoever is left was not the first, and is one place further on.
  have hnearer : c ∈ rest → c ∈ listener.backlog ∧
      3 * rest.idxOf c + b.turns < 3 * listener.backlog.idxOf c + a.turns := by
    intro hmem
    have hne : d ≠ c := by
      intro heq
      exact hnodup.1 (heq ▸ hmem)
    rw [hbacklog, List.idxOf_cons_ne _ hne]
    exact ⟨List.mem_cons_of_mem d hmem, by omega⟩
  constructor
  · exact turns_le_of t l c s _ listener _ a b hl ha hl' hb
      (fun hmem => ⟨(hnearer hmem).1, Nat.le_of_lt (hnearer hmem).2⟩)
  · exact fun hmem => turns_lt_of t l c s _ listener _ a b hl ha hl' hb hmem (turns_pos a)
      (fun hmem' => (hnearer hmem').2)

/-- Nobody waits twice. -/
theorem backlog_nodup (s : State) (h : s.all.Perm (List.range s.connected)) (l : Nat)
    (listener : Listener) (hl : s.listeners[l]? = some listener) : listener.backlog.Nodup := by
  have hall : s.all.Nodup := h.nodup_iff.mpr List.nodup_range
  have hpending : s.pending.Nodup := (hall.sublist (List.sublist_append_left _ _)).sublist
    (List.sublist_append_right _ _)
  exact (List.nodup_flatMap.mp hpending).1 listener (List.mem_of_getElem? hl)

/-- No event puts a connection further back. -/
theorem turns_le (t l c : Nat) (s : State) (e : Event) (h : Serving t l c s)
    (hstop : e ≠ .stop) : turns t l c (step s e).2 ≤ turns t l c s := by
  have hmoves := step_moves s e
  generalize (step s e).2 = s' at hmoves ⊢
  rcases h.thread with ⟨a, ha, hwork⟩
  rcases h.kept.listener_of_server l h.server with ⟨listener, hl, hlistening⟩
  have hline : ∀ t' b, (t' = t → b.turns ≤ a.turns) →
      turns t l c (s.moveTo t' b) ≤ turns t l c s := by
    intro t' b hb
    by_cases ht : t' = t
    · refine turns_le_of t l c s _ listener listener a b hl ha hl ?_
        (fun hmem => ⟨hmem, Nat.add_le_add_left (hb ht) _⟩)
      rw [← ht]
      refine List.getElem?_set_self ?_
      rw [ht]
      exact (List.getElem?_eq_some_iff.mp ha).1
    · exact turns_le_of t l c s _ listener listener a a hl ha hl
        ((List.getElem?_set_ne ht).trans ha) (fun hmem => ⟨hmem, Nat.le_refl _⟩)
  cases hmoves with
  | stays => exact Nat.le_refl _
  | begins _ hnone => cases hnone.symm.trans h.server
  | fails hc => cases h.idle.symm.trans hc
  | binds _ hc => cases h.idle.symm.trans hc
  | assigns _ hc => cases h.idle.symm.trans hc
  | names _ _ hc _ _ => cases h.idle.symm.trans hc
  | spawns hc => cases h.idle.symm.trans hc
  | ends => exact absurd rfl hstop
  | clears _ hc => cases h.idle.symm.trans hc
  | closes _ _ hc _ => cases h.idle.symm.trans hc
  | joins _ hc => cases h.idle.symm.trans hc
  | connects port l' listener' hl' hopen' =>
      by_cases heq : l' = l
      · -- The new connection is at the end, and another one.
        rw [heq, hl] at hl'
        rw [← Option.some.inj hl', heq]
        refine turns_le_of t l c s _ listener _ a a hl ha
          (List.getElem?_set_self (List.getElem?_eq_some_iff.mp hl).1) ha ?_
        intro hmem
        have hne : c ≠ s.connected := Nat.ne_of_lt h.made
        rcases List.mem_append.mp hmem with hmem | hlast
        · refine ⟨hmem, ?_⟩
          dsimp only
          rw [List.idxOf_append_of_mem hmem]
        · exact absurd (List.mem_singleton.mp hlast) hne
      · exact turns_le_of t l c s _ listener listener a a hl ha
          ((List.getElem?_set_ne heq).trans hl) ha (fun hmem => ⟨hmem, Nat.le_refl _⟩)
  | reads t' l' call ha' hs =>
      refine hline t' _ (fun ht => ?_)
      rw [ht, ha] at ha'
      rw [Option.some.inj ha']
      exact Nat.le_succ _
  | leaves t' call a' raised ha' hheld hwhy =>
      exact hline t' _ (fun _ => turns_pos a)
  | takes t' l' listener' d rest ha' hl' hopen' hbacklog =>
      have heq : s.server = some l' := h.kept.server_of_open h.idle l' listener' hl' hopen'
      rw [h.server] at heq
      rw [← Option.some.inj heq] at ha' hl' ⊢
      exact (turns_take_lt t t' l c s listener' d rest a hl' ha ha' hbacklog
        (backlog_nodup s h.accounted l listener' hl')).1
  | serves t' c' ha' =>
      refine hline t' .reading (fun ht => ?_)
      rw [ht, ha] at ha'
      rw [Option.some.inj ha']
      exact Nat.le_succ _
  | drops t' c' call ha' hcall =>
      refine hline t' (.ended true) (fun _ => turns_pos a)

/-- When the thread itself runs, the connection is one line nearer. -/
theorem turns_lt (t l c : Nat) (s : State) (h : Serving t l c s) (hpos : 0 < turns t l c s) :
    turns t l c (step s (.acceptor t .done)).2 < turns t l c s := by
  rcases h.thread with ⟨a, ha, hwork⟩
  rcases h.kept.listener_of_server l h.server with ⟨listener, hl, hlistening⟩
  have hmem : c ∈ listener.backlog := by
    by_contra hnot
    rw [turns_eq t l c s listener a hl ha, if_neg hnot] at hpos
    exact absurd hpos (Nat.lt_irrefl 0)
  have hself : ∀ b, (s.acceptors.set t b)[t]? = some b := fun b =>
    List.getElem?_set_self (List.getElem?_eq_some_iff.mp ha).1
  show turns t l c (s.runAcceptor t .done) < _
  unfold State.runAcceptor
  rw [ha]
  cases a with
  | reading =>
      dsimp only
      rw [h.server]
      exact turns_lt_of t l c s _ listener listener _ _ hl ha hl (hself _) hmem (turns_pos _)
        (fun _ => Nat.lt_succ_self _)
  | accepting l' =>
      have hwork : l' = l := hwork
      dsimp only
      rw [hwork] at ha ⊢
      rw [hl]
      dsimp only [State.accept]
      rw [if_pos hlistening]
      cases hbacklog : listener.backlog with
      | nil =>
          rw [hbacklog] at hmem
          cases hmem
      | cons d rest =>
          exact (turns_take_lt t t l c s listener d rest _ hl ha ha hbacklog
            (backlog_nodup s h.accounted l listener hl)).2 hmem
  | starting c' =>
      exact turns_lt_of t l c s _ listener listener _ _ hl ha hl (hself _) hmem (turns_pos _)
        (fun _ => Nat.lt_succ_self _)
  | ended raised => exact hwork.elim

/-- Being taken, as a rank. -/
def nearer (t l c : Nat) : Machine.Ranked step where
  inv := Serving t l c
  allowed e := e ≠ .stop ∧ e.Succeeds
  useful e := decide (e = .acceptor t .done)
  rank := turns t l c
  keeps s e h he := serving_step t l c s e h he.1 he.2
  le s e h he := turns_le t l c s e h he.1
  lt s e h _ hu hpos := by
    rw [of_decide_eq_true hu]
    exact turns_lt t l c s h hpos

/-- While a service runs and no call fails, a connection that was made is accepted
    before long: once the accept thread of the last `start` has run three lines for
    everyone in front of it and three of its own, whatever else happens in between
    and in whatever order. -/
theorem pending_connection_is_accepted (port : Nat) (events later : List Event)
    (hevents : ∀ e ∈ events, e.Succeeds) (hlater : ∀ e ∈ later, e ≠ .stop ∧ e.Succeeds)
    (t c : Nat) :
    let s := Machine.run step (State.new port) events
    let s' := Machine.run step s later
    s.control = .idle → s.running = true → s.acceptThread = some t → c ∈ s.pending →
      3 * (s.pending.idxOf c + 1) ≤ later.countP (fun e => decide (e = .acceptor t .done)) →
      c ∈ s'.served ∨ c ∈ s'.held := by
  intro s s' hc hrunning hthread hpending hcount
  have hkept : Kept s := kept_run port events
  have hquiet : Quiet s := quiet_run port events
  have hall : s.all.Perm (List.range s.connected) := all_run port events
  rcases Option.isSome_iff_exists.mp hrunning with ⟨l, hs⟩
  rcases staffed_run port events hevents l hs (by rw [hc]; decide) (by rw [hc]; decide) with
    ⟨t', a, ht', ha, hwork⟩
  rw [hthread] at ht'
  rw [← Option.some.inj ht'] at ha
  rcases hkept.listener_of_server l hs with ⟨listener, hl, _⟩
  have heq := pending_eq_backlog s hkept hquiet hc l hs listener hl
  have hmade : c < s.connected := by
    rw [← List.mem_range, ← hall.mem_iff]
    exact List.mem_append_left _ (List.mem_append_right _ hpending)
  have hwelcome : c ∉ s.dropped := by
    have hnodup : s.all.Nodup := hall.nodup_iff.mpr List.nodup_range
    exact fun hdropped => (List.nodup_append.mp hnodup).2.2 c
      (List.mem_append_right _ hpending) c hdropped rfl
  have hserving : Serving t l c s :=
    ⟨hkept, hc, hs, ⟨a, ha, hwork⟩, hthread, hall, hquiet, hmade, hwelcome⟩
  have hzero := (nearer t l c).run_eq_zero s later hserving hlater (by
    have hturns : a.turns ≤ 3 := by
      cases a <;> simp only [Acceptor.turns, Nat.reduceLeDiff]
    refine Nat.le_trans ?_ hcount
    show turns t l c s ≤ _
    rw [turns_eq t l c s listener a hl ha, ← heq, if_pos hpending]
    omega)
  have hserving' : Serving t l c s' := ((nearer t l c).run s later hserving hlater).1
  -- It no longer waits and was not turned away, so it was taken.
  have hgone : c ∉ s'.pending := by
    rcases hserving'.thread with ⟨a', ha', _⟩
    rcases hserving'.kept.listener_of_server l hserving'.server with ⟨listener', hl', _⟩
    rw [pending_eq_backlog s' hserving'.kept hserving'.quiet hserving'.idle l hserving'.server
      listener' hl']
    intro hmem
    have hzero : turns t l c s' = 0 := hzero
    rw [turns_eq t l c s' listener' a' hl' ha', if_pos hmem] at hzero
    have hpos := turns_pos a'
    omega
  have hmem : c ∈ s'.all := hserving'.accounted.mem_iff.mpr (List.mem_range.mpr hserving'.made)
  rcases List.mem_append.mp hmem with hmem | hmem
  · rcases List.mem_append.mp hmem with hmem | hmem
    · exact List.mem_append.mp hmem
    · exact absurd hmem hgone
  · exact absurd hmem hserving'.welcome

/-- A service that was stopped and started again, with a client on each side. -/
def restarted : List Event :=
  [.start, .bind (some 4000), .proceed, .proceed, .proceed, .connect 4000,
    .acceptor 0 .done, .acceptor 0 .done, .stop, .proceed, .proceed, .acceptor 0 .done,
    .acceptor 0 .done, .join false, .start, .bind (some 5000), .proceed, .proceed, .proceed,
    .connect 4000]

/-- The client that connected to the old port after the restart is accepted. -/
theorem restarted_accepts :
    (1 ∈ (Machine.run step (Machine.run step (State.new 0) restarted)
        [.acceptor 1 .done, .acceptor 1 .done, .acceptor 1 .done]).served ∨
      1 ∈ (Machine.run step (Machine.run step (State.new 0) restarted)
        [.acceptor 1 .done, .acceptor 1 .done, .acceptor 1 .done]).held) :=
  pending_connection_is_accepted 0 restarted
    [.acceptor 1 .done, .acceptor 1 .done, .acceptor 1 .done] (by decide) (by decide) 1 1 rfl rfl
    rfl (by decide) (by decide)

end AcceptLoop

end Confium
