import SrtBridge.Bridge.Accepts
import SrtBridge.Handles.Carried

/-! A call that returns an error. What it had created has been closed by the time the thread has
carried out its commands, but for the socket of a listener that could not be bound: nothing
closes that one, and its entry, a listener's, is never reaped. -/

namespace SrtBridge

open General

def OpenCall.BindRefused (lib : Libsrt) (call : OpenCall) (c : CallEnds) (id : SocketId)
    (tr : List IoEvent) : Prop :=
  match call with
  | .listener _ addr => ∃ k, lib.bind k id addr < 0 ∧
      .answered c.bind (.done (.error (lib.lastSrtError k 0))) ∈ tr
  | .socket _ _ | .group _ => False

theorem mem_of_outcomes {reply : ReplyId} {tr : List IoEvent} {a : Reply}
    (h : .answer a ∈ outcomes reply tr) : .answered reply a ∈ tr := by
  obtain ⟨x, hx, hout⟩ := List.mem_filterMap.mp h
  cases x with
  | answered r a' =>
    simp only [IoEvent.outcome] at hout
    split_ifs at hout with hr
    obtain rfl : a' = a := by simpa using hout
    exact hr ▸ hx
  | unanswered r =>
    simp only [IoEvent.outcome] at hout
    split_ifs at hout
    simp at hout
  | _ => cases hout

namespace Calling

section Failed

variable {lib : Libsrt} {c : CallEnds} {id : SocketId} {log : List CallNote} {cmds : List IoCommand}
  {b : Bridge} {builder : SrtListenerBuilder} {addr : SocketAddr}

theorem bindRefused_iff {k : ℕ} (h : outcomes c.bind b.trace =
    [.answer (.done (if lib.bind k id addr < 0 then .error (lib.lastSrtError k 0) else .ok ()))]) :
    (OpenCall.listener builder addr).BindRefused lib c id b.trace ↔ lib.bind k id addr < 0 := by
  constructor
  · rintro ⟨k', -, hin⟩
    have hmem := mem_outcomes hin
    rw [h] at hmem
    by_contra hno
    simp [hno] at hmem
  · intro hlt
    refine ⟨k, hlt, mem_of_outcomes ?_⟩
    rw [h, if_pos hlt]
    exact List.mem_singleton_self _

theorem replies_ne (hn : c.replies.Nodup) :
    c.opened ≠ c.bind ∧ c.localAddr ≠ c.bind ∧ c.localAddr ≠ c.opened ∧ c.bind ≠ c.opened := by
  simp only [CallEnds.replies, List.nodup_cons, List.mem_cons, List.not_mem_nil, or_false] at hn
  tauto

/-- What the listener's call is told of its `Bind`, once that is carried out. -/
theorem Carried.bind (h : Carried lib (.listener builder addr) c id log cmds b) (hn : c.replies.Nodup)
    (hr : b.running = true) (post : List IoCommand)
    (hcmds : cmds = (OpenCall.listenerCommands builder c addr id).take 3 ++ post)
    (hpost : ∀ cmd ∈ post, cmd.reply ≠ some c.bind) : ∃ k, outcomes c.bind b.trace =
      [.answer (.done (if lib.bind k id addr < 0 then .error (lib.lastSrtError k 0) else .ok ()))] := by
  obtain ⟨b₁, hopened, hs⟩ := h.opened
  rw [hcmds] at hs
  exact Bridge.bind_carried [.registerListener id c.accept builder.accessControl,
    .registerSocket id c.recv c.send c.status] (hopened.untold hn).1 hs hr (by simp [IoCommand.reply]) hpost

/-- A listener whose socket could not be bound stays in the map. -/
theorem Carried.unbound (h : Carried lib (.listener builder addr) c id log cmds b)
    (hcmds : cmds = (OpenCall.listenerCommands builder c addr id).take 3) (hr : b.running = true)
    (hfresh : Bridge.GivenOnce id b.trace) : Bridge.Stays (b.entry id) := by
  obtain ⟨b₁, hopened, hs⟩ := h.opened
  rw [hcmds] at hs
  exact Bridge.listener_carried hs hr hfresh hopened.nonneg hopened.created
    ⟨hopened.entry, hopened.unread⟩ (by simp)

theorem Carried.unlistened (h : Carried lib (.listener builder addr) c id log cmds b)
    (hn : c.replies.Nodup) (hr : b.running = true) (hfresh : Bridge.GivenOnce id b.trace)
    (post : List IoCommand) (hcmds : cmds = (OpenCall.listenerCommands builder c addr id).take 4 ++ post)
    (hpost : ∀ cmd ∈ post, cmd.reply ≠ some c.opened ∧ cmd.registers = false) :
    ∃ result, outcomes c.opened b.trace = [.answer (.done result)] ∧
      ∀ err, result = .error err → Bridge.Gone id (b.entry id) b.trace := by
  obtain ⟨b₁, hopened, hs⟩ := h.opened
  rw [hcmds] at hs
  refine Bridge.listen_carried ((OpenCall.listenerCommands builder c addr id).take 3)
    (hopened.untold hn).2 hs hr hfresh hopened.nonneg hopened.created ?_ hpost
  simp [OpenCall.listenerCommands, IoCommand.reply, (replies_ne hn).2.2.2]

/-- A failed listener's call leaves nothing behind exactly if its socket was bound. -/
theorem Carried.listener (h : Carried lib (.listener builder addr) c id log cmds b)
    (hn : c.replies.Nodup) (hr : b.running = true) (hfresh : Bridge.GivenOnce id b.trace)
    (hfail : (OpenCall.listener builder addr).Fails c id log) :
    Bridge.Gone id (b.entry id) b.trace ↔
      ¬(OpenCall.listener builder addr).BindRefused lib c id b.trace := by
  have hcmds {n : ℕ} (hsent : sentIn log = (OpenCall.listener builder addr).createCommand c ::
      (OpenCall.listenerCommands builder c addr id).take n) :
      cmds = (OpenCall.listenerCommands builder c addr id).take n :=
    (List.cons.inj (h.sent.symm.trans hsent)).2
  obtain ⟨⟨a, ha, hne, hno⟩, hsent⟩ | ⟨hbound, ⟨a, ha, hne, hno⟩, hsent⟩ := hfail
  · -- the error is `Bind`'s
    obtain ⟨k, hout⟩ := h.bind hn hr [] ((hcmds hsent).trans (List.append_nil _).symm)
      (List.forall_mem_nil _)
    have hheard := h.heard _ _ ha hne
    rw [hout] at hheard
    have hlt : lib.bind k id addr < 0 := by
      by_contra hge
      obtain rfl := Option.some.inj hheard
      simp [hge] at hno
    obtain ⟨e, he, -⟩ := h.unbound (hcmds hsent) hr hfresh
    refine iff_of_false (fun hgone => ?_) (not_not.mpr ((bindRefused_iff hout).mpr hlt))
    rw [hgone.1] at he
    cases he
  · -- the error is `Listen`'s, after a `Bind` that succeeded
    have hfour : cmds = (OpenCall.listenerCommands builder c addr id).take 3 ++
        [.listen id builder.backlog c.opened] := hcmds hsent
    obtain ⟨k, hout⟩ := h.bind hn hr _ hfour (by simp [IoCommand.reply, (replies_ne hn).1])
    have hheard := h.heard _ _ hbound (by simp)
    rw [hout] at hheard
    have hge : ¬lib.bind k id addr < 0 := fun hlt => by simp [hlt] at hheard
    obtain ⟨result, htold, hgone⟩ := h.unlistened hn hr hfresh []
      ((hcmds hsent).trans (List.append_nil _).symm) (List.forall_mem_nil _)
    have hopened := h.heard _ _ ha hne
    rw [htold] at hopened
    refine iff_of_true ?_ fun href => hge ((bindRefused_iff hout).mp href)
    cases result with
    | ok u =>
      obtain rfl := Option.some.inj hopened
      exact absurd rfl hno
    | error err => exact hgone err rfl

/-- A failed socket's or group's call has closed what it created. -/
theorem Carried.closed {call : OpenCall} (h : Carried lib call c id log cmds b) (hr : b.running = true)
    (hfresh : Bridge.GivenOnce id b.trace) (hclose : ∃ pre, sentIn log = pre ++ [.close id]) :
    Bridge.Gone id (b.entry id) b.trace := by
  obtain ⟨b₁, hopened, hs⟩ := h.opened
  obtain ⟨pre, hpre⟩ := hclose
  have hcmds : ∃ first, cmds = first ++ [.close id] := by
    have hsame := h.sent.symm.trans hpre
    cases pre with
    | nil => cases call <;> simp [OpenCall.createCommand] at hsame
    | cons x pre => exact ⟨pre, (List.cons.inj hsame).2⟩
  obtain ⟨first, rfl⟩ := hcmds
  exact Bridge.close_carried hs hr hfresh hopened.nonneg hopened.created

end Failed

/-- When a call that opens something has returned an error, and the thread, which still runs, has
carried out what was sent about the id created for the call: the id has been closed and has no
entry, if and only if the call is none of a listener whose socket `srt_bind` refused. Only the
call sends commands about the id, and libsrt gives the id out once. -/
theorem failed_open_cleans_up (lib : Libsrt) (call : OpenCall) (c : CallEnds) (hn : c.replies.Nodup)
    (id : SocketId) (moves : List CallMove) (hm : ∀ m ∈ moves, c.Respected id m) (err : SrtError) :
    let o := call.run lib c moves
    let b := o.system.bridge
    o.stage = .returned (.error err) → b.running = true →
    (∀ cmd ∈ o.system.commands, cmd.subject ≠ some id) →
    .answered c.create (.socket (.ok id)) ∈ b.trace → Bridge.GivenOnce id b.trace →
    (Bridge.Gone id (b.entry id) b.trace ↔ ¬call.BindRefused lib c id b.trace) := by
  intro o b hstage hr hqueue hin hfresh
  obtain ⟨log, done, h⟩ := follows lib call c id hn hm
  have hdone : call.Does c log ∧ call.Returns c log (.error err) := by
    have hmeets := h.stage
    change o.stage.Meets call c log at hmeets
    rwa [hstage] at hmeets
  obtain ⟨cmds, hcarried⟩ := h.carried hn hdone.1 hr hqueue hin hfresh
  obtain ⟨id', hid'⟩ | hnone | ⟨a, ha, hne, hfails⟩ := hdone.2
  · cases hid'
  · have hsent := hcarried.sent
    rw [hnone] at hsent
    cases hsent
  · have hfail := hfails id (hcarried.told a ha hne)
    cases call with
    | listener => exact hcarried.listener hn hr hfresh hfail
    | socket | group => exact iff_of_true (hcarried.closed hr hfresh hfail) not_false

def sampleEnds : CallEnds where
  recv := 1
  send := 2
  status := 3
  accept := 4
  create := 0
  bind := 1
  opened := 2
  localAddr := 3
  peerAddr := 4

def bindMoves : List CallMove :=
  [.advance, .system .command, .advance, .advance, .advance, .advance, .system .command,
    .system .command, .system .command, .advance]

def listenMoves : List CallMove :=
  [.advance, .system .command, .advance, .advance, .advance, .advance]

def deaf : Libsrt := { Libsrt.reading fun _ => .opened with listen := fun _ _ _ => -1 }

def unbinding : Libsrt := { Libsrt.reading fun _ => .opened with bind := fun _ _ _ => -1 }

def sampleListener : OpenCall := .listener ⟨{}, none, 5⟩ (.v4 0x7f000001 9000)

theorem failed_open_cleans_up_deaf :
    let o := sampleListener.run deaf sampleEnds (bindMoves ++ listenMoves)
    Bridge.Gone 7 (o.system.bridge.entry 7) o.system.bridge.trace := by
  intro o
  have hids : Bridge.createdIds o.system.bridge.trace = [7] := rfl
  have hqueue : o.system.commands = [] := rfl
  have htold : outcomes 0 o.system.bridge.trace = [.answer (.socket (.ok 7))] := rfl
  refine (failed_open_cleans_up deaf sampleListener sampleEnds (by decide) 7 (bindMoves ++ listenMoves)
    (by simp [bindMoves, listenMoves, CallEnds.Respected]) (deaf.lastSrtError 4 1) rfl rfl
    (fun cmd hmem => ?_) (mem_of_outcomes ?_) ?_).mpr ?_
  · exact absurd (hqueue ▸ hmem) List.not_mem_nil
  · exact htold ▸ List.mem_singleton_self _
  · exact le_of_eq (congrArg (List.count 7) hids)
  · rintro ⟨k, hlt, -⟩
    exact lt_irrefl (0 : ℤ) hlt

/-- A listener's call whose `srt_bind` is refused returns the error, and leaves the socket open
and its entry in the map. -/
theorem refused_bind_leaks :
    let o := sampleListener.run unbinding sampleEnds (bindMoves ++ [.advance, .advance, .advance])
    o.stage = .returned (.error (unbinding.lastSrtError 3 0)) ∧ o.system.bridge.running = true ∧
      o.system.commands = [] ∧ .answered 0 (.socket (.ok 7)) ∈ o.system.bridge.trace ∧
      .closed 7 ∉ o.system.bridge.trace ∧ (o.system.bridge.entry 7).isSome = true := by
  intro o
  have htold : outcomes 0 o.system.bridge.trace = [.answer (.socket (.ok 7))] := rfl
  have hopen : o.system.bridge.trace.any (IoEvent.closes 7) = false := rfl
  refine ⟨rfl, rfl, rfl, mem_of_outcomes (htold ▸ List.mem_singleton_self _), fun hmem => ?_, rfl⟩
  have hno := List.any_eq_false.mp hopen _ hmem
  simp [IoEvent.closes] at hno

end Calling

end SrtBridge
