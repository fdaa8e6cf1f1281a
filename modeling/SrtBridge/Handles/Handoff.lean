import SrtBridge.Bridge.Accepts
import SrtBridge.Handles.System

/-! The hand-over of accepted connections: from the I/O thread through a listener's accept
channel to `SrtListener::accept`, whose future can be dropped part-way, and to the sockets it
hands out; with the drop of the listener and of the sockets. -/

namespace SrtBridge

open General

/-- How far the drop of an `SrtListener` has come. -/
inductive ListenerStage where
  | held
  /-- Its `Close` has been sent. -/
  | announced
  /-- Its accept channel is closed, and is being emptied. -/
  | shut
  | gone
  deriving DecidableEq

/-- An `accept` that has taken a connection, and holds its `Unclaimed` guard. -/
structure Accepting where
  id : SocketId
  /-- The commands it has yet to send. -/
  unsent : List IoCommand
  /-- The oneshots it waits on. -/
  replies : List ReplyId

structure Handoff where
  system : System
  stage : ListenerStage
  accepting : Option Accepting
  /-- The `SrtSocket`s handed out and not dropped. -/
  sockets : List SocketId
  /-- What the thread closed because the accept channel would not take it. -/
  refused : List SocketId
  /-- What a `Close` was sent for, by a guard, by the listener's drop or by a socket's. -/
  closing : List SocketId

inductive HandoffMove where
  | system (m : System.Move)
  /-- `accept` takes a waiting connection; the channels and oneshots are those it makes. -/
  | take (r d t : ChannelId) (localAddr peerAddr streamId : ReplyId)
  /-- It sends its next command. -/
  | sendNext
  /-- Its oneshots have come back, and it returns the socket. -/
  | finish
  /-- Its future is dropped. -/
  | abandon
  /-- `SrtListener::close`. -/
  | close
  /-- The listener is dropped: first its `Close` is sent. -/
  | drop
  /-- Then its accept channel is closed. -/
  | shut
  /-- Then one waiting connection after the other is closed. -/
  | drain
  | dropSocket (id : SocketId)

def fromAccepted (id : SocketId) (r d t : ChannelId) (localAddr peerAddr streamId : ReplyId) :
    List IoCommand :=
  [.registerSocket id r d t, .getLocalAddr id localAddr, .getPeerAddr id peerAddr,
    .getStreamId id streamId]

/-- A library whose sockets are connected, and whose listeners accept a new connection each time. -/
def Libsrt.accepting : Libsrt := { Libsrt.reading fun _ => .connected with accept := fun k _ => 9 + k }

namespace Handoff

def start : Handoff := ⟨.start, .held, none, [], [], []⟩

/-- One move, for the listener `l` with the accept channel `c`. An `accept` borrows the listener,
so that it is neither closed nor dropped meanwhile. -/
def step (lib : Libsrt) (l : SocketId) (c : ChannelId) (h : Handoff) : HandoffMove → Handoff
  | .system m =>
    let s := h.system.move lib m
    let es := s.bridge.trace.drop h.system.bridge.trace.length
    { h with
      system := s
      refused := h.refused ++ (acceptedIds l es).filter fun id => es.any (IoEvent.closes id) }
  | .take r d t localAddr peerAddr streamId =>
    if h.stage = .held ∧ h.accepting.isNone then
      match (h.system.bridge.accepts c).tryRecv with
      | some (id, _) =>
        { h with
          system := h.system.act lib (.tokio (.recvAccepted c))
          accepting := some ⟨id, fromAccepted id r d t localAddr peerAddr streamId,
            [localAddr, peerAddr, streamId]⟩ }
      | none => h
    else h
  | .sendNext =>
    match h.accepting with
    | some ⟨id, cmd :: rest, replies⟩ =>
      { h with system := h.system.send cmd, accepting := some ⟨id, rest, replies⟩ }
    | _ => h
  | .finish =>
    match h.accepting with
    | some ⟨id, [], replies⟩ =>
      if replies.all fun reply => h.system.bridge.trace.any (IoEvent.settles reply) then
        { h with accepting := none, sockets := h.sockets ++ [id] }
      else h
    | _ => h
  | .abandon =>
    match h.accepting with
    | some ⟨id, [], _⟩ =>
      { h with system := h.system.send (.close id), accepting := none, closing := h.closing ++ [id] }
    | _ => h
  | .close =>
    if h.stage = .held ∧ h.accepting.isNone then { h with system := h.system.send (.close l) } else h
  | .drop =>
    if h.stage = .held ∧ h.accepting.isNone then
      { h with system := h.system.send (.close l), stage := .announced }
    else h
  | .shut =>
    if h.stage = .announced then
      { h with system := h.system.act lib (.tokio (.closeAccepts c)), stage := .shut }
    else h
  | .drain =>
    if h.stage = .shut then
      match (h.system.bridge.accepts c).tryRecv with
      | some (id, _) =>
        { h with
          system := (h.system.act lib (.tokio (.recvAccepted c))).send (.close id)
          closing := h.closing ++ [id] }
      | none => { h with stage := .gone }
    else h
  | .dropSocket id =>
    if id ∈ h.sockets then
      { h with
        system := h.system.send (.close id)
        sockets := h.sockets.erase id
        closing := h.closing ++ [id] }
    else h

def run (lib : Libsrt) (l : SocketId) (c : ChannelId) (moves : List HandoffMove) : Handoff :=
  moves.foldl (step lib l c) start

/-- Where a connection of the listener can be. -/
inductive Place where
  | waiting
  | guarded
  | owned
  | givenUp
  deriving DecidableEq

def holds (c : ChannelId) (h : Handoff) : Place → List SocketId
  | .waiting => if h.stage = .gone then [] else (h.system.bridge.accepts c).buffer
  | .guarded => (h.accepting.map Accepting.id).toList
  | .owned => h.sockets
  | .givenUp => h.refused ++ h.closing

def Respects (l : SocketId) (c : ChannelId) : HandoffMove → Prop
  | .system (.other a) => Bridge.LeavesAccepts c a
  | .system (.send cmd) => Bridge.RespectsAccepts l c cmd
  | _ => True

structure Sound (l : SocketId) (c : ChannelId) (h : Handoff) : Prop where
  owns : Bridge.OwnsAccepts l c h.system.bridge
  queued : ∀ cmd ∈ h.system.commands, Bridge.RespectsAccepts l c cmd
  unsent : ∀ a, h.accepting = some a → ∀ cmd ∈ a.unsent, Bridge.RespectsAccepts l c cmd
  shut : h.stage = .shut ∨ h.stage = .gone → (h.system.bridge.accepts c).closed = true
  emptied : h.stage = .gone → (h.system.bridge.accepts c).buffer = []
  alone : h.stage ≠ .held → h.accepting = none
  places : (acceptedIds l h.system.bridge.trace).Perm
    ((h.system.bridge.accepts c).buffer ++ ((h.accepting.map Accepting.id).toList ++
      (h.sockets ++ (h.refused ++ h.closing))))
  refused : ∀ id ∈ h.refused, .closed id ∈ h.system.bridge.trace
  closing : h.system.bridge.running = true → ∀ id ∈ h.closing,
    .closed id ∈ h.system.bridge.trace ∨ .close id ∈ h.system.commands

section Steps

variable {lib : Libsrt} {l : SocketId} {c : ChannelId} {h : Handoff}

theorem sound_start : Sound l c start where
  owns := ⟨fun _ h => (by cases h), fun _ h => (by cases h)⟩
  queued := List.forall_mem_nil _
  unsent := fun _ h => by cases h
  shut := by rintro (h | h) <;> cases h
  emptied := fun h => by cases h
  alone := fun h => absurd rfl h
  places := List.Perm.refl []
  refused := List.forall_mem_nil _
  closing := fun _ => List.forall_mem_nil _

/-- What the thread, or another task, does to the thread keeps the connections accounted for. -/
theorem Sound.act (lib : Libsrt) {a : Bridge.Action} (hs : Sound l c h) (ha : Bridge.LeavesAccepts c a)
    (hr : ∀ cmd, a = .io (.command cmd) → Bridge.RespectsAccepts l c cmd) (rest : List IoCommand)
    (hrest : ∀ cmd ∈ rest, cmd ∈ h.system.commands)
    (hclose : (h.system.bridge.act lib a).running = true → ∀ id, .close id ∈ h.system.commands →
      .close id ∈ rest ∨ .closed id ∈ (h.system.bridge.act lib a).trace) :
    Sound l c
      { h with
        system := ⟨h.system.bridge.act lib a, rest⟩
        refused := h.refused ++ (acceptedIds l
          ((h.system.bridge.act lib a).trace.drop h.system.bridge.trace.length)).filter fun id =>
            ((h.system.bridge.act lib a).trace.drop h.system.bridge.trace.length).any
              (IoEvent.closes id) } := by
  obtain ⟨es, ht, hoffers⟩ := Bridge.act_offers lib hs.owns ha
  have hdrop : (h.system.bridge.act lib a).trace.drop h.system.bridge.trace.length = es := by
    rw [ht, List.drop_left]
  rw [hdrop]
  have hmem {x : IoEvent} (hx : x ∈ h.system.bridge.trace) : x ∈ (h.system.bridge.act lib a).trace := by
    rw [ht]
    exact List.mem_append_left _ hx
  refine ⟨hs.owns.act lib hr, fun cmd hcmd => hs.queued cmd (hrest cmd hcmd), hs.unsent, fun hst => ?_,
    fun hst => ?_, hs.alone, ?_, fun id hid => ?_, fun hrun id hid => ?_⟩
  · cases hoffers with
    | none _ hc | refused _ hc =>
      show ((h.system.bridge.act lib a).accepts c).closed = true
      rw [hc]
      exact hs.shut hst
    | handed _ hopen =>
      rw [hs.shut hst] at hopen
      cases hopen
  · cases hoffers with
    | none _ hc | refused _ hc =>
      show ((h.system.bridge.act lib a).accepts c).buffer = []
      rw [hc]
      exact hs.emptied hst
    | handed _ hopen =>
      rw [hs.shut (.inr hst)] at hopen
      cases hopen
  · show (acceptedIds l (h.system.bridge.act lib a).trace).Perm _
    rw [ht, acceptedIds_append]
    have hplaces := hs.places
    cases hoffers with
    | none hes hc =>
      dsimp only
      rw [hes, hc]
      simpa using hplaces
    | handed hes hopen hc hcl =>
      rename_i id
      have hany : es.any (IoEvent.closes id) = false := by simpa using hcl
      dsimp only
      rw [hes, hc]
      simp only [List.filter_cons, hany, List.filter_nil, Bool.false_eq_true, if_false,
        List.append_nil]
      refine List.perm_iff_count.mpr fun x => ?_
      have hcount := hplaces.count_eq x
      simp only [List.count_append] at hcount ⊢
      omega
    | refused hes hc hcl =>
      rename_i id
      have hany : es.any (IoEvent.closes id) = true :=
        List.any_eq_true.mpr ⟨_, hcl, by simp [IoEvent.closes]⟩
      dsimp only
      rw [hes, hc]
      simp only [List.filter_cons, hany, List.filter_nil, if_true]
      refine List.perm_iff_count.mpr fun x => ?_
      have hcount := hplaces.count_eq x
      simp only [List.count_append] at hcount ⊢
      omega
  · rcases List.mem_append.mp hid with hid | hid
    · exact hmem (hs.refused id hid)
    · obtain ⟨-, hany⟩ := List.mem_filter.mp hid
      obtain ⟨x, hx, hcl⟩ := List.any_eq_true.mp hany
      show .closed id ∈ (h.system.bridge.act lib a).trace
      rw [ht, ← IoEvent.eq_of_closes hcl]
      exact List.mem_append_right _ hx
  · rcases hs.closing (Bridge.running_of_act hrun) id hid with hid | hid
    · exact .inl (hmem hid)
    · exact (hclose hrun id hid).symm

theorem Sound.system {m : System.Move} (hs : Sound l c h) (hm : Respects l c (.system m)) :
    Sound l c (h.step lib l c (.system m)) := by
  rcases System.move_cases lib h.system m with ⟨more, hmove, hmore⟩ | ⟨a, rfl, hcmd, hmove⟩ |
    ⟨cmd, rest, hqueue, hmove⟩
  · have hstep : h.step lib l c (.system m) = { h with system := h.system.sendAll more } := by
      show ({ h with system := _, refused := _ } : Handoff) = _
      rw [hmove]
      simp
    rw [hstep]
    refine ⟨hs.owns, fun cmd hcmd => ?_, hs.unsent, hs.shut, hs.emptied, hs.alone, hs.places,
      hs.refused, fun hrun id hid => ?_⟩
    · rcases List.mem_append.mp hcmd with hcmd | hcmd
      · exact hs.queued cmd hcmd
      · have hsend := hmore cmd hcmd
        subst hsend
        exact hm
    · exact (hs.closing hrun id hid).imp_right (List.mem_append_left _)
  · have hstep := hs.act lib hm (fun cmd he => absurd he (hcmd cmd)) h.system.commands
      (fun _ h => h) fun _ id hid => .inl hid
    show Sound l c { h with system := _, refused := _ }
    rw [hmove]
    exact hstep
  · have hstep := hs.act lib (a := .io (.command cmd)) trivial
      (fun cmd' he => by
        obtain rfl : cmd = cmd' := by simpa using he
        exact hs.queued cmd (by simp [hqueue]))
      rest (fun cmd' h' => by simp [hqueue, h']) fun hrun id hid => by
        rw [hqueue] at hid
        rcases List.mem_cons.mp hid with rfl | hid
        · exact .inr (System.closed_of_close hrun)
        · exact .inl hid
    show Sound l c { h with system := _, refused := _ }
    rw [hmove]
    exact hstep

theorem Sound.send (hs : Sound l c h) (cmd : IoCommand) (hr : Bridge.RespectsAccepts l c cmd) :
    Sound l c { h with system := h.system.send cmd } := by
  refine ⟨hs.owns, fun cmd' hcmd => ?_, hs.unsent, hs.shut, hs.emptied, hs.alone, hs.places,
    hs.refused, fun hrun id hid => (hs.closing hrun id hid).imp_right (List.mem_append_left _)⟩
  rcases List.mem_append.mp hcmd with hcmd | hcmd
  · exact hs.queued cmd' hcmd
  · rw [List.mem_singleton.mp hcmd]
    exact hr

/-- A connection whose `Close` is sent joins those that are closing. -/
theorem Sound.closing_concat (hs : Sound l c h) (id : SocketId) (hrun : h.system.bridge.running = true) :
    ∀ id' ∈ h.closing ++ [id], .closed id' ∈ h.system.bridge.trace ∨
      .close id' ∈ (h.system.send (.close id)).commands := by
  intro id' hid
  rcases List.mem_append.mp hid with hid | hid
  · exact (hs.closing hrun id' hid).imp_right (List.mem_append_left _)
  · rw [List.mem_singleton.mp hid]
    exact .inr (by simp [System.send])

/-- Taking a waiting connection leaves the rest of the bridge as it is. -/
theorem accepts_recv (lib : Libsrt) {b : Bridge} {id : SocketId} {rest : List SocketId}
    (hbuf : (b.accepts c).buffer = id :: rest) :
    (b.act lib (.tokio (.recvAccepted c))).accepts c = { b.accepts c with buffer := rest } := by
  refine (Function.update_self ..).trans ?_
  simp [Bridge.received, Mpsc.tryRecv, hbuf]

theorem Sound.moved {h' : Handoff} (hs : Sound l c h) (htr : h'.system.bridge.trace = h.system.bridge.trace)
    (hperm : ∀ x, ((h.system.bridge.accepts c).buffer ++ ((h.accepting.map Accepting.id).toList ++
        (h.sockets ++ (h.refused ++ h.closing)))).count x =
      ((h'.system.bridge.accepts c).buffer ++ ((h'.accepting.map Accepting.id).toList ++
        (h'.sockets ++ (h'.refused ++ h'.closing)))).count x) :
    (acceptedIds l h'.system.bridge.trace).Perm
      ((h'.system.bridge.accepts c).buffer ++ ((h'.accepting.map Accepting.id).toList ++
        (h'.sockets ++ (h'.refused ++ h'.closing)))) := by
  rw [htr]
  exact hs.places.trans (List.perm_iff_count.mpr hperm)

theorem Sound.step {m : HandoffMove} (hs : Sound l c h) (hm : Respects l c m) :
    Sound l c (h.step lib l c m) := by
  cases m with
  | system m => exact hs.system hm
  | take r d t localAddr peerAddr streamId =>
    show Sound l c (if h.stage = .held ∧ h.accepting.isNone then _ else h)
    split_ifs with hguard
    · obtain ⟨hheld, hnone⟩ := hguard
      have hnone : h.accepting = none := by simpa using hnone
      rcases Mpsc.tryRecv_cases (h.system.bridge.accepts c) with ⟨hempty, -⟩ | ⟨id, rest, hsome, hbuf⟩
      · rw [hempty]
        exact hs
      · rw [hsome]
        have hacc := accepts_recv lib hbuf
        have howns := hs.owns.act lib (a := .tokio (.recvAccepted c)) (by simp)
        refine ⟨howns, hs.queued, fun a ha cmd hcmd => ?_, fun hst => ?_, fun hst => ?_,
          fun hst => absurd hheld hst, ?_, hs.refused, hs.closing⟩
        · obtain rfl := Option.some.inj ha
          simp only [fromAccepted, List.mem_cons, List.not_mem_nil, or_false] at hcmd
          rcases hcmd with rfl | rfl | rfl | rfl <;> trivial
        · rcases hst with hst | hst <;> cases hheld.symm.trans hst
        · cases hheld.symm.trans hst
        · refine hs.moved rfl fun x => ?_
          show _ = (((h.system.bridge.act lib (.tokio (.recvAccepted c))).accepts c).buffer ++ _).count x
          rw [hacc, hbuf, hnone]
          simp [List.count_append, List.count_cons]
          omega
    · exact hs
  | sendNext =>
    unfold Handoff.step
    dsimp only
    split
    · rename_i id cmd rest replies ha
      have hunsent := hs.unsent _ ha
      have hsent := hs.send cmd (hunsent cmd (by simp))
      refine ⟨hs.owns, hsent.queued, fun a ha' cmd' hcmd => ?_, hs.shut, hs.emptied, fun hst => ?_,
        ?_, hs.refused, hsent.closing⟩
      · obtain rfl := Option.some.inj ha'
        exact hunsent cmd' (List.mem_cons_of_mem _ hcmd)
      · rw [hs.alone hst] at ha
        cases ha
      · refine hs.moved rfl fun x => ?_
        rw [ha]
        rfl
    · exact hs
  | finish =>
    unfold Handoff.step
    dsimp only
    split
    · rename_i id replies ha
      split_ifs
      · refine ⟨hs.owns, hs.queued, fun a ha' => (by cases ha'), hs.shut, hs.emptied, fun _ => rfl, ?_,
          hs.refused, hs.closing⟩
        refine hs.moved rfl fun x => ?_
        rw [ha]
        simp only [Option.map_some, Option.map_none, Option.toList_some, Option.toList_none,
          List.count_append, List.count_cons, List.count_nil]
        omega
      · exact hs
    · exact hs
  | abandon =>
    unfold Handoff.step
    dsimp only
    split
    · rename_i id replies ha
      have hsent := hs.send (.close id) trivial
      refine ⟨hs.owns, hsent.queued, fun a ha' => (by cases ha'), hs.shut, hs.emptied, fun _ => rfl, ?_,
        hs.refused, hs.closing_concat id⟩
      · refine hs.moved rfl fun x => ?_
        rw [ha]
        simp only [System.send_bridge, Option.map_some, Option.map_none, Option.toList_some,
          Option.toList_none, List.count_append, List.count_cons, List.count_nil]
        omega
    · exact hs
  | close =>
    show Sound l c (if h.stage = .held ∧ h.accepting.isNone then _ else h)
    split_ifs
    · exact hs.send (.close l) trivial
    · exact hs
  | drop =>
    show Sound l c (if h.stage = .held ∧ h.accepting.isNone then _ else h)
    split_ifs with hguard
    · have hsent := hs.send (.close l) trivial
      refine ⟨hs.owns, hsent.queued, hs.unsent, fun hst => ?_, fun hst => (by cases hst),
        fun _ => ?_, hs.places, hs.refused, hsent.closing⟩
      · rcases hst with hst | hst <;> cases hst
      · simpa using hguard.2
    · exact hs
  | shut =>
    show Sound l c (if h.stage = .announced then _ else h)
    split_ifs with hguard
    · have hacc : (h.system.bridge.act lib (.tokio (.closeAccepts c))).accepts c =
          (h.system.bridge.accepts c).close := Function.update_self ..
      have howns := hs.owns.act lib (a := .tokio (.closeAccepts c)) (by simp)
      refine ⟨howns, hs.queued, hs.unsent, fun _ => ?_, fun hst => (by cases hst),
        fun _ => ?_, ?_, hs.refused, hs.closing⟩
      · show ((h.system.bridge.act lib (.tokio (.closeAccepts c))).accepts c).closed = true
        rw [hacc]
        rfl
      · exact hs.alone (by simp [hguard])
      · refine hs.moved rfl fun x => ?_
        show _ = (((h.system.bridge.act lib (.tokio (.closeAccepts c))).accepts c).buffer ++ _).count x
        rw [hacc]
        rfl
    · exact hs
  | drain =>
    show Sound l c (if h.stage = .shut then _ else h)
    split_ifs with hguard
    · rcases Mpsc.tryRecv_cases (h.system.bridge.accepts c) with ⟨hempty, hbuf⟩ | ⟨id, rest, hsome, hbuf⟩
      · rw [hempty]
        exact ⟨hs.owns, hs.queued, hs.unsent, fun _ => hs.shut (.inl hguard), fun _ => hbuf,
          fun _ => hs.alone (by simp [hguard]), hs.places, hs.refused, hs.closing⟩
      · rw [hsome]
        have hacc := accepts_recv lib hbuf
        have howns := hs.owns.act lib (a := .tokio (.recvAccepted c)) (by simp)
        have hsent := hs.send (.close id) trivial
        refine ⟨howns, hsent.queued, hs.unsent, fun hst => ?_, fun hst => ?_, hs.alone, ?_, hs.refused,
          hs.closing_concat id⟩
        · show ((h.system.bridge.act lib (.tokio (.recvAccepted c))).accepts c).closed = true
          rw [hacc]
          exact hs.shut (.inl hguard)
        · cases hguard.symm.trans hst
        · refine hs.moved rfl fun x => ?_
          show _ = (((h.system.bridge.act lib (.tokio (.recvAccepted c))).accepts c).buffer ++ _).count x
          rw [hacc, hbuf]
          simp [List.count_append, List.count_cons]
          omega
    · exact hs
  | dropSocket id =>
    show Sound l c (if id ∈ h.sockets then _ else h)
    split_ifs with hmem
    · have hsent := hs.send (.close id) trivial
      refine ⟨hs.owns, hsent.queued, hs.unsent, hs.shut, hs.emptied, hs.alone, ?_, hs.refused,
        hs.closing_concat id⟩
      · refine hs.moved rfl fun x => ?_
        have hone := (List.perm_cons_erase hmem).count_eq x
        simp only [System.send_bridge, List.count_append, List.count_cons, List.count_nil] at hone ⊢
        omega
    · exact hs

theorem Sound.run {moves : List HandoffMove} (hm : ∀ m ∈ moves, Respects l c m)
    (hs : Sound l c h) : Sound l c (moves.foldl (Handoff.step lib l c) h) := by
  induction moves generalizing h with
  | nil => exact hs
  | cons m moves ih =>
    exact ih (fun m' h' => hm m' (List.mem_cons_of_mem _ h')) (hs.step (hm m (by simp)))

/-- A connection that is accepted once is at one place. -/
theorem Sound.one_place (hs : Sound l c h) (hn : (acceptedIds l h.system.bridge.trace).Nodup)
    {id : SocketId} (hid : id ∈ acceptedIds l h.system.bridge.trace) :
    ∃ p, (h.holds c p).count id = 1 ∧ ∀ p', p' ≠ p → id ∉ h.holds c p' := by
  have hwait : h.holds c .waiting = (h.system.bridge.accepts c).buffer := by
    unfold holds
    split_ifs with hst
    · exact (hs.emptied hst).symm
    · rfl
  have hone := List.count_eq_one_of_mem hn hid
  rw [hs.places.count_eq, ← hwait] at hone
  have hsum : (h.holds c .waiting).count id + (h.holds c .guarded).count id +
      (h.holds c .owned).count id + (h.holds c .givenUp).count id = 1 := by
    simp only [List.count_append] at hone
    simp only [holds, List.count_append] at hone ⊢
    omega
  have hsplit (p : Place) (hp : (h.holds c p).count id = 1) :
      ∃ p, (h.holds c p).count id = 1 ∧ ∀ p', p' ≠ p → id ∉ h.holds c p' := by
    refine ⟨p, hp, fun p' hne => ?_⟩
    rw [← List.count_eq_zero]
    cases p <;> cases p' <;> first | exact absurd rfl hne | omega
  by_cases hw : (h.holds c .waiting).count id = 1
  · exact hsplit .waiting hw
  by_cases hg : (h.holds c .guarded).count id = 1
  · exact hsplit .guarded hg
  by_cases ho : (h.holds c .owned).count id = 1
  · exact hsplit .owned ho
  · exact hsplit .givenUp (by omega)

end Steps

/-- In every interleaving of the I/O thread with a listener's `accept`, its `close`, its drop and
the drops of its sockets: each connection accepted once is at one place (waiting, in the hands of
an `accept`, owned by one socket, or given up); what is given up has been closed or its `Close` is
on its way; and once the listener is gone and the commands are carried out, every connection that
no socket owns has been closed. -/
theorem connections_accounted (lib : Libsrt) (l : SocketId) (c : ChannelId) (moves : List HandoffMove)
    (hm : ∀ m ∈ moves, Respects l c m) :
    let h := run lib l c moves
    let accepted := acceptedIds l h.system.bridge.trace
    (accepted.Nodup → ∀ id ∈ accepted,
        ∃ p, (h.holds c p).count id = 1 ∧ ∀ p', p' ≠ p → id ∉ h.holds c p') ∧
      (∀ id ∈ h.refused, .closed id ∈ h.system.bridge.trace) ∧
      (h.system.bridge.running = true → ∀ id ∈ h.closing,
        .closed id ∈ h.system.bridge.trace ∨ .close id ∈ h.system.commands) ∧
      (h.stage = .gone → h.system.commands = [] → h.system.bridge.running = true →
        ∀ id ∈ accepted, id ∉ h.sockets → .closed id ∈ h.system.bridge.trace) := by
  intro h accepted
  have hs : Sound l c h := sound_start.run hm
  refine ⟨fun hn id hid => hs.one_place hn hid, hs.refused, hs.closing, fun hst hq hrun id hid hno => ?_⟩
  have hplace := hs.places.mem_iff.mp hid
  rw [hs.emptied hst, hs.alone (by simp [hst])] at hplace
  simp only [Option.map_none, Option.toList_none, List.nil_append, List.mem_append] at hplace
  rcases hplace with hown | hrefused | hclosing
  · exact absurd hown hno
  · exact hs.refused id hrefused
  · rcases hs.closing hrun id hclosing with hclosed | hqueued
    · exact hclosed
    · rw [hq] at hqueued
      cases hqueued

/-- Three connections are accepted: the first is handed out, the `accept` of the second is
dropped part-way, and the third waits when the listener is dropped. -/
def threeConnections : List HandoffMove :=
  List.flatten [
    [.system (.send (.registerListener 7 4 none)), .system (.send (.listen 7 16 0)), .system .command,
      .system .command],
    List.replicate 3 (.system (.other (.io (.event 7 ⟨true, false, false, false⟩)))),
    [.take 1 2 3 1 2 3], List.replicate 4 .sendNext, List.replicate 4 (.system .command), [.finish],
    [.take 5 6 7 4 5 6], List.replicate 4 .sendNext, [.abandon, .drop, .shut, .drain, .drain],
    List.replicate 7 (.system .command)]

theorem connections_accounted_three :
    let h := run .accepting 7 4 threeConnections
    let accepted := acceptedIds 7 h.system.bridge.trace
    (accepted = [11, 12, 13] ∧ h.sockets = [11] ∧ h.closing = [12, 13] ∧ h.stage = .gone ∧
        h.system.commands = []) ∧
      (accepted.Nodup → ∀ id ∈ accepted,
        ∃ p, (h.holds 4 p).count id = 1 ∧ ∀ p', p' ≠ p → id ∉ h.holds 4 p') ∧
      (∀ id ∈ h.refused, .closed id ∈ h.system.bridge.trace) ∧
      (h.system.bridge.running = true → ∀ id ∈ h.closing,
        .closed id ∈ h.system.bridge.trace ∨ .close id ∈ h.system.commands) ∧
      (h.stage = .gone → h.system.commands = [] → h.system.bridge.running = true →
        ∀ id ∈ accepted, id ∉ h.sockets → .closed id ∈ h.system.bridge.trace) := by
  have hm : ∀ m ∈ threeConnections, Respects 7 4 m := by
    simp [threeConnections, Respects, Bridge.LeavesAccepts, Bridge.RespectsAccepts]
  exact ⟨⟨rfl, rfl, rfl, rfl, rfl⟩, connections_accounted .accepting 7 4 threeConnections hm⟩

end Handoff

end SrtBridge
