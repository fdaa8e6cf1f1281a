import SrtBridge.Handles.Failed

/-! A call whose future is dropped while it waits. Nothing is sent in its place: what it had
created is closed only where the thread does so by itself, as it reaps a socket that has come to
its end with nobody to read from it, or as `Listen` fails. -/

namespace SrtBridge

open General

/-- The call's socket has come to its end, or its listener could not listen. -/
def OpenCall.Ended (call : OpenCall) (c : CallEnds) (id : SocketId) (tr : List IoEvent) : Prop :=
  match call with
  | .socket _ _ => (statuses id tr).getLast?.any isTerminalStatus = true
  | .listener _ _ => ∃ err, .answered c.opened (.done (.error err)) ∈ tr
  | .group _ => False

namespace Bridge

section Reaped

variable {lib : Libsrt} {c : CallEnds} {b b' : Bridge} {id : SocketId}

variable (lib) in
theorem registerSocket_enlisted (h : Unlisted id (b.entry id) b.trace) :
    ∃ s, (b.registerSocket lib id c.recv c.send c.status).entry id = some s ∧
      Enlisted c id s (b.registerSocket lib id c.recv c.send c.status).trace := by
  obtain ⟨hnone, hst⟩ := h
  let first : SocketState :=
    { SocketState.fresh with recvTx := some c.recv, sendRx := some c.send, statusTx := some c.status }
  let b₁ := (b.enter id .fresh).register id c.recv c.send c.status
  have hreg : b₁ = ((b.enter id .fresh).setEntry id first).emit (.registered id c.recv c.send) :=
    register_some (e := .fresh) (by simp) _ _ _
  have hent : b₁.entry id = some first := by
    rw [hreg, entry_emit, entry_setEntry, if_pos rfl]
  have hstatuses : statuses id b₁.trace = [] := by
    rw [hreg, trace_emit, trace_setEntry, trace_enter, statuses_append, statuses_append, hst]
    rfl
  have hfirst : Enlisted c id first b₁.trace := ⟨rfl, rfl, .inr rfl, by rw [hstatuses]; rfl⟩
  rw [registerSocket_new lib hnone]
  split_ifs
  · exact ⟨first, hent, hfirst⟩
  · change ∃ s, (b₁.record id _).entry id = some s ∧ Enlisted c id s (b₁.record id _).trace
    rw [record_some hent, entry_emit, entry_setEntry, if_pos rfl, trace_emit, trace_setEntry]
    refine ⟨_, rfl, hfirst.keep (by simp) (by simp) ?_ (by simp [statuses, IoEvent.status?])⟩
    exact (recvTx_updateStatus first _).imp_right .inl

/-- A socket that is registered, and whatever its call sends about it then: in the map with its
last status, or closed. -/
theorem socket_carried {cmds : List IoCommand}
    (hs : Serves lib (c.owns id) b (.registerSocket id c.recv c.send c.status :: cmds) b')
    (hr : b'.running = true) (hn : GivenOnce id b'.trace) (h0 : 0 ≤ id) (hc : .created id ∈ b.trace)
    (hb : Unlisted id (b.entry id) b.trace) (hcmds : ∀ cmd ∈ cmds, OpenCall.SocketCommand c id cmd) :
    EnlistedOrGone c id (b'.entry id) b'.trace := by
  obtain ⟨b₁, hrun, hnone, hc₂, hrest⟩ := hs.first_unlisted hr hn h0 hc hb
  obtain ⟨s, hent, hheld⟩ := registerSocket_enlisted lib (c := c) hnone
  refine (hrest.keeps (enlistedOrGone_keeps hcmds) hr hn h0 hc₂ ⟨hc₂, .inl ⟨s, ?_, ?_⟩⟩).2
  · rw [entry_act hrun]
    exact hent
  · rw [trace_act hrun]
    exact hheld

/-- The next reaping closes a socket that has come to its end with nobody to read from it. -/
theorem closed_by_cleanup {s : SocketState} (hs : b.entry id = some s) (h : Enlisted c id s b.trace)
    (hc : .created id ∈ b.trace) (hgone : (b.packets c.recv).closed = true)
    (hq : (statuses id b.trace).getLast?.any isTerminalStatus = true) :
    List.Sublist [.created id, .closed id] b.cleanupZombies.trace := by
  obtain ⟨es, ht, hes⟩ := mem_cleanup b
  have hclosed : b.recvClosed s = true := by
    unfold recvClosed
    rcases h.recv with hr | hr <;> rw [hr]
    exact hgone
  have hterminal : isTerminalStatus s.lastStatus = true := by
    rw [h.last]
    cases hl : (statuses id b.trace).getLast? with
    | none => simp [hl] at hq
    | some q => simpa [hl] using hq
  have hzombie : id ∈ b.zombies :=
    mem_zombies.mpr ⟨s, hs, by simp [isZombie, hterminal, h.listener, h.group, hclosed]⟩
  rw [ht]
  exact (List.singleton_sublist.mpr hc).append (List.singleton_sublist.mpr (hes id hzombie).2.2)

theorem Gone.cleanup {e : Option SocketState} (h : Gone id e b.trace) :
    List.Sublist [.created id, .closed id] b.cleanupZombies.trace := by
  obtain ⟨es, ht, -⟩ := mem_cleanup b
  rw [ht]
  exact h.2.trans (List.sublist_append_left ..)

end Reaped

end Bridge

namespace Calling

section Dropped

variable {lib : Libsrt} {c : CallEnds} {id : SocketId} {log : List CallNote} {cmds : List IoCommand}
  {b : Bridge}

theorem Carried.reaped {builder : SrtSocketBuilder} {remote : SocketAddr}
    (h : Carried lib (.socket builder remote) c id log cmds b) (hr : b.running = true)
    (hfresh : Bridge.GivenOnce id b.trace) (hgone : (b.packets c.recv).closed = true)
    (hq : (OpenCall.socket builder remote).Ended c id b.trace) :
    List.Sublist [.created id, .closed id] b.cleanupZombies.trace := by
  obtain ⟨b₁, hopened, hs⟩ := h.opened
  have hnew : Bridge.Unlisted id (b₁.entry id) b₁.trace := ⟨hopened.entry, hopened.unread⟩
  obtain rfl | ⟨rest, rfl, hrest⟩ := h.sends
  · -- the socket was never registered, so nothing was recorded for it
    have hnone := hs.keeps Bridge.unlisted_keeps hr hfresh hopened.nonneg hopened.created hnew
    simp [OpenCall.Ended, hnone.2] at hq
  · rcases Bridge.socket_carried hs hr hfresh hopened.nonneg hopened.created hnew hrest with
      ⟨s, hent, hheld⟩ | hdone
    · exact Bridge.closed_by_cleanup hent hheld (hs.grows.subset hopened.created) hgone hq
    · exact hdone.cleanup

theorem Carried.refused {builder : SrtListenerBuilder} {addr : SocketAddr}
    (h : Carried lib (.listener builder addr) c id log cmds b) (hn : c.replies.Nodup)
    (hr : b.running = true) (hfresh : Bridge.GivenOnce id b.trace)
    (hq : (OpenCall.listener builder addr).Ended c id b.trace) :
    Bridge.Gone id (b.entry id) b.trace := by
  obtain ⟨err, hin⟩ := hq
  have hmem := mem_outcomes hin
  have hcmds : cmds = (OpenCall.listenerCommands builder c addr id).take cmds.length :=
    List.prefix_iff_eq_take.mp h.sends
  by_cases hlen : cmds.length ≤ 3
  · -- `Listen` was not sent, so nothing was answered
    obtain ⟨b₁, hopened, hs⟩ := h.opened
    have hopen : c.opened ∈ c.replies := by simp [CallEnds.replies]
    have hothers : ∀ cmd ∈ cmds, cmd.reply ≠ some c.opened := by
      intro cmd hcmd
      rw [hcmds] at hcmd
      have hfirst := (List.take_prefix_take_left hlen).subset hcmd
      simp only [OpenCall.listenerCommands, List.take_succ_cons, List.take_zero, List.mem_cons,
        List.not_mem_nil, or_false] at hfirst
      obtain rfl | rfl | rfl := hfirst <;> simp [IoCommand.reply, (replies_ne hn).2.2.2]
    rw [((hopened.untold hn).2.serves hopen hs hothers).told] at hmem
    exact absurd hmem List.not_mem_nil
  · obtain ⟨n, hlen⟩ := Nat.exists_eq_add_of_lt (not_le.mp hlen)
    rw [hlen, show 3 + n + 1 = 4 + n by omega, List.take_add] at hcmds
    obtain ⟨result, htold, hgone⟩ := h.unlistened hn hr hfresh _ hcmds fun cmd hcmd => by
      have hlast := List.mem_of_mem_take hcmd
      simp only [OpenCall.listenerCommands, List.drop_succ_cons, List.drop_zero, List.mem_singleton] at hlast
      rw [hlast]
      simp [IoCommand.reply, IoCommand.registers, (replies_ne hn).2.2.1]
    rw [htold] at hmem
    exact hgone err (by simpa [eq_comm] using hmem)

end Dropped

/-- When a call that opens something has been dropped, and the thread, which still runs, has
carried out what was sent about the id created for it: if the socket's last recorded status is
terminal, or the listener's `Listen` failed, then the id has been closed or the next reaping
closes it. Only the call sends commands about the id, and libsrt gives the id out once. -/
theorem dropped_open_closed (lib : Libsrt) (call : OpenCall) (c : CallEnds) (hn : c.replies.Nodup)
    (id : SocketId) (moves : List CallMove) (hm : ∀ m ∈ moves, c.Respected id m) :
    let o := call.run lib c moves
    let b := o.system.bridge
    o.stage = .dropped → b.running = true → (∀ cmd ∈ o.system.commands, cmd.subject ≠ some id) →
    .answered c.create (.socket (.ok id)) ∈ b.trace → Bridge.GivenOnce id b.trace →
    call.Ended c id b.trace → List.Sublist [.created id, .closed id] b.cleanupZombies.trace := by
  intro o b hstage hr hqueue hin hfresh hq
  obtain ⟨log, done, h⟩ := follows lib call c id hn hm
  have hdoes : call.Does c log := by
    have hmeets := h.stage
    change o.stage.Meets call c log at hmeets
    rwa [hstage] at hmeets
  obtain ⟨cmds, hcarried⟩ := h.carried hn hdoes hr hqueue hin hfresh
  cases call with
  | socket => exact hcarried.reaped hr hfresh (h.gone hstage) hq
  | listener => exact (hcarried.refused hn hr hfresh hq).cleanup
  | group => exact hq.elim

/-- A listener's call is dropped while it waits for its `Listen`. -/
def listenDropped : List CallMove := bindMoves ++ [.advance, .drop, .system .command]

theorem dropped_open_closed_deaf :
    let o := sampleListener.run deaf sampleEnds listenDropped
    List.Sublist [.created 7, .closed 7] o.system.bridge.cleanupZombies.trace := by
  intro o
  have hids : Bridge.createdIds o.system.bridge.trace = [7] := rfl
  have hqueue : o.system.commands = [] := rfl
  have htold : outcomes 0 o.system.bridge.trace = [.answer (.socket (.ok 7))] := rfl
  have hlisten : outcomes 2 o.system.bridge.trace = [.answer (.done (.error (deaf.lastSrtError 4 1)))] := rfl
  refine dropped_open_closed deaf sampleListener sampleEnds (by decide) 7 listenDropped
    (by simp [bindMoves, listenDropped, CallEnds.Respected]) rfl rfl (fun cmd hmem => ?_)
    (mem_of_outcomes ?_) ?_ ⟨deaf.lastSrtError 4 1, mem_of_outcomes ?_⟩
  · exact absurd (hqueue ▸ hmem) List.not_mem_nil
  · exact htold ▸ List.mem_singleton_self _
  · exact le_of_eq (congrArg (List.count 7) hids)
  · exact hlisten ▸ List.mem_singleton_self _

def answering : Libsrt :=
  .reading fun k => if k < 2 then .opened else if k = 2 then .connecting else .connected

def sampleSocket : OpenCall := .socket ⟨{}, none⟩ (.v4 0x7f000001 9000)

/-- A socket's call is dropped during its handshake, which then succeeds. -/
def connectDropped : List CallMove :=
  [.advance, .system .command, .advance, .advance, .advance, .system .command, .system .command, .drop,
    .system (.other (.io (.event 7 ⟨false, true, false, true⟩)))]

/-- The connected socket, and the listening port, stay open for good. -/
theorem dropped_open_leaks :
    (let o := sampleSocket.run answering sampleEnds connectDropped
    o.stage = .dropped ∧ o.system.bridge.running = true ∧ o.system.commands = [] ∧
      (o.system.bridge.entry 7).map SocketState.lastStatus = some .connected ∧
      o.system.bridge.cleanupZombies.trace.any (IoEvent.closes 7) = false) ∧
    let o := sampleListener.run answering sampleEnds listenDropped
    o.stage = .dropped ∧ o.system.bridge.running = true ∧ o.system.commands = [] ∧
      (o.system.bridge.entry 7).map SocketState.lastStatus = some .listening ∧
      o.system.bridge.cleanupZombies.trace.any (IoEvent.closes 7) = false := by
  have hbudget : connectBudget {} = some (fromSecs 5) := by decide +kernel
  have hhandshake (id : SocketId) :
      SrtSocketBuilder.handshake ⟨{}, none⟩ sampleEnds (.v4 0x7f000001 9000) id =
        .send (.connect id (.v4 0x7f000001 9000) 2) (awaitDone 2 (some (fromSecs 5))
          (closeAndReturn sampleEnds id) (SrtSocketBuilder.getAddrs sampleEnds id)) := by
    unfold SrtSocketBuilder.handshake
    dsimp only
    rw [hbudget]
    rfl
  have htask : sampleSocket.task sampleEnds = .send (.createSocket {} 0) (awaitId 0 fun id =>
      .send (.registerSocket id 1 2 3)
        (SrtSocketBuilder.handshake ⟨{}, none⟩ sampleEnds (.v4 0x7f000001 9000) id)) := rfl
  simp only [hhandshake] at htask
  refine ⟨?_, rfl, rfl, rfl, rfl, rfl⟩
  unfold OpenCall.run
  rw [htask]
  exact ⟨rfl, rfl, rfl, rfl, rfl⟩

end Calling

end SrtBridge
