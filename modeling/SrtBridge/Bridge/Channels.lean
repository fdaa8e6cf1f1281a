import SrtBridge.Bridge.Statuses

/-! Whether a dead entry lets go of its channels, so that the tasks parked on them come
back. The receive channel goes with any terminal status; the send channel only if the
status before it was that of a live connection, and a group is never reaped. -/

namespace SrtBridge

open General

/-- A connection that is under way. -/
def SocketStatus.live : SocketStatus → Bool
  | .connecting | .connected => true
  | _ => false

/-- The latest of some recorded statuses is that of a live connection. -/
def lastLive (qs : List SocketStatus) : Prop := ∃ q ∈ qs.getLast?, q.live = true

/-- One of some recorded statuses is that of a live connection. -/
def everLive (qs : List SocketStatus) : Prop := ∃ q ∈ qs, q.live = true

/-- The entry of `id` was never given channels. -/
def Unregistered (id : SocketId) (es : List IoEvent) : Prop := ∀ r d, .registered id r d ∉ es

/-- A terminal status was recorded in the entry of `id`, the statuses before it being as `p`
says, and the entry was given no channels since. -/
def Died (id : SocketId) (p : List SocketStatus → Prop) (es : List IoEvent) : Prop :=
  ∃ before q after, es = before ++ .recorded id q :: after ∧ isTerminalStatus q = true ∧
    p (statuses id before) ∧ Unregistered id after

section Histories

variable {id : SocketId} {p : List SocketStatus → Prop} {es : List IoEvent} {x : IoEvent}

theorem unregistered_snoc :
    Unregistered id (es ++ [x]) ↔ Unregistered id es ∧ ∀ r d, x ≠ .registered id r d := by
  simp only [Unregistered, List.mem_append, List.mem_singleton, not_or, ne_eq, forall_and, eq_comm]

/-- One more event: a death so far stays one unless channels are given, or this is one. -/
theorem died_snoc : Died id p (es ++ [x]) ↔
    Died id p es ∧ (∀ r d, x ≠ .registered id r d) ∨
      ∃ q, x = .recorded id q ∧ isTerminalStatus q = true ∧ p (statuses id es) := by
  constructor
  · rintro ⟨before, q, after, hes, ht, hp, hun⟩
    cases after using List.reverseRecOn with
    | nil =>
      obtain ⟨rfl, hx⟩ := List.append_inj' hes rfl
      exact .inr ⟨q, List.singleton_inj.mp hx, ht, hp⟩
    | append_singleton after y =>
      have hsplit : es ++ [x] = (before ++ .recorded id q :: after) ++ [y] := by simpa using hes
      obtain ⟨rfl, hx⟩ := List.append_inj' hsplit rfl
      obtain rfl := List.singleton_inj.mp hx
      obtain ⟨hun, hy⟩ := unregistered_snoc.mp hun
      exact .inl ⟨⟨before, q, after, rfl, ht, hp, hun⟩, hy⟩
  · rintro (⟨⟨before, q, after, rfl, ht, hp, hun⟩, hx⟩ | ⟨q, rfl, ht, hp⟩)
    · exact ⟨before, q, after ++ [x], by simp, ht, hp, unregistered_snoc.mpr ⟨hun, hx⟩⟩
    · exact ⟨es, q, [], rfl, ht, hp, by simp [Unregistered]⟩

theorem Died.mono {p' : List SocketStatus → Prop} (h : Died id p es) (hp : ∀ qs, p qs → p' qs) :
    Died id p' es := by
  obtain ⟨before, q, after, hes, ht, hb, hun⟩ := h
  exact ⟨before, q, after, hes, ht, hp _ hb, hun⟩

/-- Having no channels: none were given, or a death took them. -/
def Bare (id : SocketId) (p : List SocketStatus → Prop) (es : List IoEvent) : Prop :=
  Unregistered id es ∨ Died id p es

theorem Bare.registered {r d : ChannelId} : ¬Bare id p (es ++ [.registered id r d]) := by
  simp [Bare, unregistered_snoc, died_snoc]

theorem Bare.recorded {q : SocketStatus} : Bare id p (es ++ [.recorded id q]) ↔
    Bare id p es ∨ isTerminalStatus q = true ∧ p (statuses id es) := by
  simp [Bare, unregistered_snoc, died_snoc, or_assoc]

theorem Bare.quiet {es' : List IoEvent} (h : ∀ y ∈ es', y.isNote = true ∨ y.subject ≠ some id) :
    Bare id p (es ++ es') ↔ Bare id p es := by
  induction es' using List.reverseRecOn with
  | nil => simp
  | append_singleton es' y ih =>
    have hy := y.quiet id (h y (by simp))
    have hrec (q : SocketStatus) : y ≠ .recorded id q := by
      rintro rfl
      simp [IoEvent.status?] at hy
    rw [← List.append_assoc, ← ih fun z hz => h z (by simp [hz]), Bare, unregistered_snoc, died_snoc]
    simp [Bare, hrec, hy.2.2]

end Histories

namespace SocketState

variable {s : SocketState} {q : SocketStatus}

theorem updateStatus_recvTx_eq_none :
    (s.updateStatus q).recvTx = none ↔ s.recvTx = none ∨ isTerminalStatus q = true := by
  unfold updateStatus
  split_ifs with ht <;> simp [ht]

theorem updateStatus_sendRx_eq_none : (s.updateStatus q).sendRx = none ↔
    s.sendRx = none ∨ isTerminalStatus q = true ∧ s.lastStatus.live = true := by
  unfold updateStatus
  split_ifs with ht hlive
  · have : s.lastStatus.live = true := by
      rcases hlive with hlive | hlive <;> rw [hlive] <;> rfl
    simp [ht, this]
  · have : s.lastStatus.live = false := by
      cases hq : s.lastStatus <;> simp_all [SocketStatus.live]
    simp [this]
  · simp [ht]

end SocketState

namespace Bridge

section Held

variable {lib : Libsrt} {b : Bridge} {id : SocketId}

structure Held (id : SocketId) (e : SocketState) (es : List IoEvent) : Prop where
  last : e.lastStatus = (statuses id es).getLast?.getD .init
  recv : e.recvTx = none ↔ Bare id (fun _ => True) es
  send : e.sendRx = none ↔ Bare id lastLive es

theorem Held.quiet {e e' : SocketState} {es es' : List IoEvent} (h : Held id e es)
    (hes : ∀ x ∈ es', x.isNote = true ∨ x.subject ≠ some id) (hs : e'.lastStatus = e.lastStatus)
    (hr : e'.recvTx = e.recvTx) (hd : e'.sendRx = e.sendRx) : Held id e' (es ++ es') := by
  have hst : statuses id es' = [] := statuses_eq_nil fun x hx => (x.quiet id (hes x hx)).2.1
  constructor
  · rw [hs, h.last, statuses_append, hst, List.append_nil]
  · rw [hr, h.recv, Bare.quiet hes]
  · rw [hd, h.send, Bare.quiet hes]

theorem Held.record {e : SocketState} {es : List IoEvent} (h : Held id e es) (q : SocketStatus) :
    Held id (e.updateStatus q) (es ++ [.recorded id q]) := by
  have hst : statuses id [.recorded id q] = [q] := by simp [statuses, IoEvent.status?]
  have hlive : e.lastStatus.live = true ↔ lastLive (statuses id es) := by
    rw [h.last, lastLive]
    cases hl : (statuses id es).getLast? <;> simp [SocketStatus.live]
  constructor
  · rw [SocketState.updateStatus_lastStatus, statuses_append, hst]
    simp
  · rw [SocketState.updateStatus_recvTx_eq_none, Bare.recorded, h.recv, and_true]
  · rw [SocketState.updateStatus_sendRx_eq_none, Bare.recorded, h.send, hlive]

def HeldSoFar (id : SocketId) (e : Option SocketState) (tr : List IoEvent) : Prop :=
  ∀ s, e = some s → Held id s (life id tr)

theorem HeldSoFar.quiet {e e' : SocketState} {tr es : List IoEvent} (h : HeldSoFar id (some e) tr)
    (hes : ∀ x ∈ es, x.isNote = true) (hs : e'.lastStatus = e.lastStatus)
    (hr : e'.recvTx = e.recvTx) (hd : e'.sendRx = e.sendRx) :
    HeldSoFar id (some e') (tr ++ es) := by
  rintro _ ⟨⟩
  rw [life_append fun x hx => (x.quiet id (.inl (hes x hx))).1]
  exact (h e rfl).quiet (fun x hx => .inl (hes x hx)) hs hr hd

theorem HeldSoFar.record {e : SocketState} {tr : List IoEvent} (h : HeldSoFar id (some e) tr)
    (q : SocketStatus) : HeldSoFar id (some (e.updateStatus q)) (tr ++ [.recorded id q]) := by
  rintro _ ⟨⟩
  rw [life_append (List.forall_mem_singleton.mpr rfl)]
  exact (h e rfl).record q

theorem heldSoFar_keeps : KeepsEntry lib (fun _ _ => True) id (HeldSoFar id) where
  note := by
    intro b₀ s e tr x _ hx h s hs
    rw [life_snoc, if_neg (by simp [(x.quiet id hx.aside).1])]
    exact (h s hs).quiet (List.forall_mem_singleton.mpr hx.aside) rfl rfl rfl
  backlog := by
    intro e tr l h
    have hk : HeldSoFar id (some { e with sendBacklog := l }) (tr ++ []) :=
      h.quiet (List.forall_mem_nil _) rfl rfl rfl
    rwa [List.append_nil] at hk
  change := by
    intro b₀ s e new es tr _ _ _ hch h
    cases hch with
    | enter hent =>
      rintro _ ⟨⟩
      rw [life_append_turn (by simp [IoEvent.turns])]
      have hbare (p : List SocketStatus → Prop) : Bare id p [] := .inl (by simp [Unregistered])
      cases hent <;> exact ⟨rfl, iff_of_true rfl (hbare _), iff_of_true rfl (hbare _)⟩
    | register hs =>
      rename_i e r d t
      rintro _ ⟨⟩
      rw [life_append (List.forall_mem_singleton.mpr rfl)]
      have hst : statuses id [.registered id r d] = [] := rfl
      refine ⟨?_, iff_of_false (by simp) Bare.registered, iff_of_false (by simp) Bare.registered⟩
      rw [statuses_append, hst, List.append_nil]
      exact (h e rfl).last
    | record hc => exact h.record _
    | listen hs h₀ ha hl =>
      rename_i e backlog reply
      have hflag : HeldSoFar id (some { e with isListener := true }) (tr ++ []) :=
        h.quiet (List.forall_mem_nil _) rfl rfl rfl
      rw [List.append_nil] at hflag
      exact hflag.record _
    | await =>
      rename_i e addr reply _ _ _ _
      rw [← List.append_assoc]
      have hwait : HeldSoFar id (some { e with connectReply := some reply })
          (tr ++ (e.connectReply.map .unanswered).toList) := by
        refine h.quiet (fun x hx => ?_) rfl rfl rfl
        cases hr : e.connectReply with
        | none => simp [hr] at hx
        | some old =>
          obtain rfl : x = .unanswered old := by simpa [hr] using hx
          rfl
      exact hwait.record _
    | complete =>
      rename_i e flags reply result q _ _ _ _ _ _
      have hdone : HeldSoFar id (some { e with connectReply := none })
          (tr ++ [.answered reply (.done result)]) :=
        h.quiet (List.forall_mem_singleton.mpr rfl) rfl rfl rfl
      simpa using hdone.record q
    | provide => exact h.quiet (List.forall_mem_nil _) rfl rfl rfl
    | fail => exact h.quiet (List.forall_mem_singleton.mpr rfl) rfl rfl rfl
    | watch hes =>
      refine h.quiet (fun x hx => ?_) rfl rfl rfl
      obtain ⟨m, rfl⟩ := hes x hx
      rfl
    | close => rintro _ ⟨⟩

/-- A cleanup pass takes an entry without a receive channel exactly if it is dead and neither
a listener nor a group. -/
theorem mem_zombies_iff {e : SocketState} (he : b.entry id = some e) (hr : e.recvTx = none) :
    id ∈ b.zombies ↔
      isTerminalStatus e.lastStatus = true ∧ e.isListener = false ∧ e.isGroup = false := by
  have hzombie : b.isZombie e = true ↔
      isTerminalStatus e.lastStatus = true ∧ e.isListener = false ∧ e.isGroup = false := by
    simp [isZombie, recvClosed, hr, and_assoc]
  rw [← hzombie]
  constructor
  · intro hmem
    obtain ⟨e', he', hz⟩ := mem_zombies.mp hmem
    obtain rfl := Option.some.inj (he.symm.trans he')
    exact hz
  · exact fun hz => mem_zombies.mpr ⟨e, he, hz⟩

variable (lib) in
/-- An entry that has been live and was recorded dead, and given no channels since, is gone
or has no channels after a cleanup pass exactly if it is a dead socket's, or one of its
deaths was recorded right after `CONNECTING` or `CONNECTED`, or it never had channels. -/
theorem dead_entry_releases (id : SocketId) (actions : List Action) (e : SocketState)
    (he : (start.run lib actions).entry id = some e) (hl : e.isListener = false)
    (hd : Died id everLive (life id (start.run lib actions).trace)) :
    let b := start.run lib actions
    let es := life id b.trace
    (∀ e', b.cleanupZombies.entry id = some e' → e'.recvTx = none ∧ e'.sendRx = none) ↔
      e.isGroup = false ∧ isTerminalStatus e.lastStatus = true ∨ Died id lastLive es ∨
        Unregistered id es := by
  intro b es
  have hrun : HeldSoFar id (b.entry id) b.trace :=
    heldSoFar_keeps.run (stepsMeet_of_forall (fun _ _ => trivial) start actions) (by rintro _ ⟨⟩)
  have hheld : Held id e es := hrun e he
  have hrecv : e.recvTx = none := hheld.recv.mpr (.inr (hd.mono fun _ _ => trivial))
  have hsend : e.sendRx = none ↔ Died id lastLive es ∨ Unregistered id es :=
    hheld.send.trans or_comm
  have hreap := mem_zombies_iff he hrecv
  rw [← hsend, entry_cleanupZombies]
  by_cases hz : id ∈ b.zombies
  · have hdead := hreap.mp hz
    rw [if_pos hz]
    exact iff_of_true (by simp) (.inl ⟨hdead.2.2, hdead.1⟩)
  · have hlive : ¬(e.isGroup = false ∧ isTerminalStatus e.lastStatus = true) := by
      rintro ⟨hg, ht⟩
      exact hz (hreap.mpr ⟨ht, hl, hg⟩)
    rw [if_neg hz, or_iff_right hlive]
    show (∀ e', b.entry id = some e' → _) ↔ _
    rw [show b.entry id = some e from he]
    simp [hrecv]

end Held

/-- A group whose connection breaks. -/
theorem dead_entry_releases_group :
    let lib := Libsrt.reading fun k => if k < 3 then .connected else .broken
    let b := start.run lib (connectedGroup ++ [.io (.poll 7)])
    ∃ e, b.entry 7 = some e ∧
      ((∀ e', b.cleanupZombies.entry 7 = some e' → e'.recvTx = none ∧ e'.sendRx = none) ↔
        e.isGroup = false ∧ isTerminalStatus e.lastStatus = true ∨
          Died 7 lastLive (life 7 b.trace) ∨ Unregistered 7 (life 7 b.trace)) := by
  have hd : Died 7 everLive (life 7 (start.run
      (.reading fun k => if k < 3 then .connected else .broken)
      (connectedGroup ++ [.io (.poll 7)])).trace) :=
    ⟨_, .broken, [], rfl, rfl, ⟨.connected, by decide, rfl⟩, by simp [Unregistered]⟩
  exact ⟨_, rfl, dead_entry_releases _ 7 _ _ rfl rfl hd⟩

/-- The loop stays active for another socket's sake. The group reads `OPENED` from a pending member in one
poll and is broken in the next: it keeps its send channel, as the pass after the poll takes no group. -/
theorem dead_group_keeps_send :
    let lib := readingGroup fun k => if k < 206 then .opened else .broken
    let b := (IoThread.start.turns lib (besideSocket 199)).bridge
    statuses 7 (life 7 b.trace) = [.connected, .opened, .broken] ∧
      (b.cleanupZombies.entry 7).map (fun e => (e.isListener, e.lastStatus, e.sendRx)) =
        some (false, .broken, some 2) := by
  decide +kernel

end Bridge

end SrtBridge
