import SrtBridge.Bridge.Granted
import SrtBridge.Handles.Waits

/-! What a call that succeeds has been promised. A builder's call returns a socket, a listener or a
group only when libsrt has said, for the call's own commands, that it was created, bound and
opened; whatever the thread and the other tasks did in between. -/

namespace SrtBridge

open General

section Commands

/-- Of items with distinct keys, the key tells which one it is. -/
theorem eq_of_filterMap_nodup {α β : Type*} {f : α → Option β} {xs : List α} {x y : α} {k : β}
    (hn : (xs.filterMap f).Nodup) (hx : x ∈ xs) (hy : y ∈ xs) (hfx : f x = some k) (hfy : f y = some k) :
    x = y := by
  induction xs with
  | nil => cases hx
  | cons z xs ih =>
    have hother {w : α} (hw : w ∈ xs) (hfw : f w = some k) : f z ≠ some k := by
      intro hfz
      rw [List.filterMap_cons_some hfz] at hn
      exact (List.nodup_cons.mp hn).1 (List.mem_filterMap.mpr ⟨w, hw, hfw⟩)
    have hrest : (xs.filterMap f).Nodup := hn.sublist ((List.sublist_cons_self z xs).filterMap f)
    rcases List.mem_cons.mp hx with rfl | hx'
    · rcases List.mem_cons.mp hy with rfl | hy'
      · rfl
      · exact absurd hfx (hother hy' hfy)
    · rcases List.mem_cons.mp hy with rfl | hy'
      · exact absurd hfy (hother hx' hfx)
      · exact ih hrest hx' hy'

namespace OpenCall

def binds : OpenCall → Option SocketAddr
  | .socket b _ => b.bindAddr
  | .listener _ addr => some addr
  | .group _ => none

def openCommand (call : OpenCall) (c : CallEnds) (id : SocketId) : IoCommand :=
  match call with
  | .socket _ remote => .connect id remote c.opened
  | .listener b _ => .listen id b.backlog c.opened
  | .group b => .connectGroup id b.endpoints c.opened

/-- What the call has sent when it succeeds. -/
def commands (call : OpenCall) (c : CallEnds) (id : SocketId) : List IoCommand :=
  match call with
  | .socket b remote =>
    [.createSocket b.config c.create, .registerSocket id c.recv c.send c.status] ++
      (b.bindAddr.map (.bind id · c.bind)).toList ++
        [.connect id remote c.opened, .getLocalAddr id c.localAddr, .getPeerAddr id c.peerAddr]
  | .listener b addr => .createSocket b.config c.create :: listenerCommands b c addr id
  | .group b =>
    [.createGroup b.mode b.config c.create, .registerSocket id c.recv c.send c.status,
      .connectGroup id b.endpoints c.opened]

variable {call : OpenCall} {c : CallEnds} {id : SocketId}

theorem commands_nodup (hn : c.replies.Nodup) :
    ((call.commands c id).filterMap IoCommand.reply).Nodup := by
  refine hn.sublist ?_
  cases call with
  | socket b remote =>
    cases h : b.bindAddr <;>
      simp [commands, h, List.filterMap_cons, IoCommand.reply, CallEnds.replies]
  | listener => simp [commands, listenerCommands, List.filterMap_cons, IoCommand.reply, CallEnds.replies]
  | group => simp [commands, List.filterMap_cons, IoCommand.reply, CallEnds.replies]

/-- The oneshot tells which of the call's commands brought it. -/
theorem command_unique (hn : c.replies.Nodup) {cmd cmd' : IoCommand} {r : ReplyId}
    (h : cmd ∈ call.commands c id) (h' : cmd' ∈ call.commands c id) (hr : cmd.reply = some r)
    (hr' : cmd'.reply = some r) : cmd = cmd' :=
  eq_of_filterMap_nodup (commands_nodup hn) h h' hr hr'

theorem createCommand_mem : call.createCommand c ∈ call.commands c id := by
  cases call <;> simp [commands, createCommand]

theorem bind_mem {addr : SocketAddr} (h : addr ∈ call.binds) :
    .bind id addr c.bind ∈ call.commands c id := by
  cases call with
  | socket b remote =>
    have hb : b.bindAddr = some addr := h
    simp [commands, hb]
  | listener b addr' =>
    obtain rfl := Option.some.inj h
    simp [commands, listenerCommands]
  | group => cases h

theorem openCommand_mem : call.openCommand c id ∈ call.commands c id := by
  cases call <;> simp [commands, openCommand, listenerCommands]

theorem createCommand_reply : (call.createCommand c).reply = some c.create := by
  cases call <;> rfl

theorem openCommand_reply : (call.openCommand c id).reply = some c.opened := by
  cases call <;> rfl

end OpenCall

end Commands

section Tasks

/-- What a call has done and heard when it has opened `id`. -/
structure OpenCall.Delivers (call : OpenCall) (c : CallEnds) (log : List CallNote) (id : SocketId) :
    Prop where
  sent : sentIn log = call.commands c id
  created : .heard c.create (.answer (.socket (.ok id))) ∈ log
  bound : call.binds ≠ none → .heard c.bind (.answer (.done (.ok ()))) ∈ log
  opened : .heard c.opened (.answer (.done (.ok ()))) ∈ log

variable {call : OpenCall} {c : CallEnds} {id : SocketId} {log : List CallNote}

/-- If the task succeeds from here on, it has opened what it returns. -/
abbrev OpenCall.Delivering (call : OpenCall) (c : CallEnds) (t : CallTask) (log : List CallNote) : Prop :=
  t.Ensures (fun _ => True) (fun log result => ∀ id, result = .ok id → call.Delivers c log id) log

theorem ret_error_delivers (err : SrtError) : call.Delivering c (.ret (.error err)) log :=
  ⟨trivial, fun _ h => by cases h⟩

theorem closeAndReturn_delivers (err : SrtError) : call.Delivering c (closeAndReturn c id err) log :=
  ⟨trivial, trivial, ret_error_delivers err⟩

theorem awaitId_delivers {reply : ReplyId} {next : SocketId → CallTask}
    (h : ∀ id, call.Delivering c (next id) (log ++ [.heard reply (.answer (.socket (.ok id)))])) :
    call.Delivering c (awaitId reply next) log := by
  refine ⟨trivial, fun a _ => ?_⟩
  dsimp only
  split
  · exact h _
  · exact ret_error_delivers _
  · exact ret_error_delivers _

theorem awaitDone_delivers {reply : ReplyId} {budget : Option Duration} {fail : SrtError → CallTask}
    {next : CallTask} (hfail : ∀ err log, call.Delivering c (fail err) log)
    (h : call.Delivering c next (log ++ [.heard reply (.answer (.done (.ok ())))])) :
    call.Delivering c (awaitDone reply budget fail next) log := by
  refine ⟨trivial, fun a _ => ?_⟩
  dsimp only
  split
  · exact h
  · exact hfail _ _
  · exact hfail _ _
  · exact hfail _ _

theorem handshake_delivers (b : SrtSocketBuilder) (remote : SocketAddr)
    (hsent : sentIn log ++ [.connect id remote c.opened, .getLocalAddr id c.localAddr,
      .getPeerAddr id c.peerAddr] = (OpenCall.socket b remote).commands c id)
    (hcreated : .heard c.create (.answer (.socket (.ok id))) ∈ log)
    (hbound : b.bindAddr ≠ none → .heard c.bind (.answer (.done (.ok ()))) ∈ log) :
    (OpenCall.socket b remote).Delivering c (b.handshake c remote id) log := by
  unfold SrtSocketBuilder.handshake
  generalize connectBudget b.config = deadline
  cases deadline with
  | none => exact ⟨trivial, trivial⟩
  | some budget =>
    refine ⟨trivial, awaitDone_delivers (fun err _ => closeAndReturn_delivers err) ?_⟩
    refine ⟨trivial, trivial, trivial, fun a _ => ⟨trivial, fun a' _ => ⟨trivial, ?_⟩⟩⟩
    rintro _ ⟨⟩
    refine ⟨?_, by simp [hcreated], fun h => by simp [hbound h], by simp⟩
    rw [← hsent]
    simp [sentIn]

theorem OpenCall.delivers (call : OpenCall) (c : CallEnds) : call.Delivering c (call.task c) [] := by
  cases call with
  | socket b remote =>
    refine ⟨trivial, awaitId_delivers fun id => ⟨trivial, ?_⟩⟩
    cases hb : b.bindAddr with
    | none =>
      exact handshake_delivers b remote (by simp [sentIn, OpenCall.commands, hb]) (by simp) (by simp [hb])
    | some addr =>
      refine ⟨trivial, awaitDone_delivers (fun err _ => closeAndReturn_delivers err) ?_⟩
      exact handshake_delivers b remote (by simp [sentIn, OpenCall.commands, hb]) (by simp) fun _ => by simp
  | listener b addr =>
    have hfail (err : SrtError) (log : List CallNote) : (OpenCall.listener b addr).Delivering c
        (.letGo (.dropPackets c.recv) <| .letGo (.closeAccepts c.accept) <| .ret (.error err)) log :=
      ⟨trivial, trivial, ret_error_delivers err⟩
    refine ⟨trivial, awaitId_delivers fun id => ⟨trivial, trivial, trivial, awaitDone_delivers hfail ?_⟩⟩
    refine ⟨trivial, awaitDone_delivers hfail ⟨trivial, trivial, fun a _ => ⟨trivial, trivial, ?_⟩⟩⟩
    rintro _ ⟨⟩
    exact ⟨by simp [sentIn, OpenCall.commands, OpenCall.listenerCommands], by simp, fun _ => by simp, by simp⟩
  | group b =>
    unfold OpenCall.task SrtGroupBuilder.connect
    dsimp only
    cases b.checkEndpoints with
    | error err => exact ret_error_delivers err
    | ok =>
      refine ⟨trivial, awaitId_delivers fun id => ⟨trivial, trivial, ?_⟩⟩
      refine awaitDone_delivers (fun err _ => closeAndReturn_delivers err) ⟨trivial, ?_⟩
      rintro _ ⟨⟩
      exact ⟨by simp [sentIn, OpenCall.commands], by simp, fun h => absurd rfl h, by simp⟩

end Tasks

namespace Calling

/-- What a call has heard, the thread has told it; and what the thread has carried out with a oneshot
of the call, the call has sent. `post`: what the call's task promises of its result. -/
structure Records (lib : Libsrt) (c : CallEnds) (post : List CallNote → Except SrtError SocketId → Prop)
    (log : List CallNote) (o : Calling) : Prop where
  running : ∀ t since, o.stage = .running t since → t.Ensures (fun _ => True) post log
  returned : ∀ result, o.stage = .returned result → post log result
  queued : ∀ cmd ∈ o.system.commands, cmd.reply.any (· ∈ c.replies) = true → cmd ∈ sentIn log
  run : ∃ actions, o.system.bridge = Bridge.start.run lib actions ∧ ∀ cmd, .io (.command cmd) ∈ actions →
    cmd.reply.any (· ∈ c.replies) = true → cmd ∈ sentIn log
  heard : ∀ key a, .heard key (.answer a) ∈ log → .answered key a ∈ o.system.bridge.trace

section Records

variable {lib : Libsrt} {c : CallEnds} {post : List CallNote → Except SrtError SocketId → Prop}
  {log : List CallNote} {o : Calling}

/-- What happens to the thread, other than by a command of somebody else with a oneshot of the call. -/
theorem Records.acts (h : Records lib c post log o) (as : List Bridge.Action)
    (has : ∀ cmd, .io (.command cmd) ∈ as → cmd.reply.any (· ∈ c.replies) = true → cmd ∈ sentIn log) :
    Records lib c post log { o with system := ⟨o.system.bridge.run lib as, o.system.commands⟩ } := by
  obtain ⟨actions, hrun, hmine⟩ := h.run
  refine ⟨h.running, h.returned, h.queued, ⟨actions ++ as, ?_, fun cmd hcmd hc => ?_⟩, fun key a ha => ?_⟩
  · rw [Bridge.run_append, ← hrun]
  · exact (List.mem_append.mp hcmd).elim (hmine cmd · hc) (has cmd · hc)
  · exact Bridge.recorded_kept (h.heard key a ha) as

theorem Records.letGo (h : Records lib c post log o) (ends : List Bridge.TokioStep) :
    Records lib c post log { o with system := Calling.letGo lib ends o.system } := by
  rw [letGo_eq]
  refine h.acts _ fun cmd hcmd => ?_
  obtain ⟨t, -, ht⟩ := List.mem_map.mp hcmd
  cases ht

theorem Records.goes {stage : CallStage} (h : Records lib c post log o)
    (hrunning : ∀ t since, stage = .running t since → t.Ensures (fun _ => True) post log)
    (hreturned : ∀ result, stage = .returned result → post log result) :
    Records lib c post log { o with stage := stage } :=
  ⟨hrunning, hreturned, h.queued, h.run, h.heard⟩

theorem Records.system (h : Records lib c post log o) {m : System.Move}
    (hm : m.brings c.replies = false) :
    Records lib c post log { o with system := o.system.move lib m } := by
  rcases System.move_cases lib o.system m with ⟨more, hmove, hmore⟩ | ⟨a, -, hcmd, hmove⟩ |
    ⟨cmd, rest, hqueue, hmove⟩
  · rw [hmove]
    refine ⟨h.running, h.returned, fun cmd hmem hc => ?_, h.run, h.heard⟩
    rcases List.mem_append.mp hmem with hmem | hmem
    · exact h.queued cmd hmem hc
    · obtain rfl := hmore cmd hmem
      rw [System.Move.brings, hc] at hm
      cases hm
  · rw [hmove]
    refine h.acts [a] fun cmd hmem => ?_
    exact absurd (List.mem_singleton.mp hmem).symm (hcmd cmd)
  · rw [hmove]
    have hacts := h.acts [.io (.command cmd)] fun cmd' hmem hc => by
      obtain rfl : cmd' = cmd := by simpa using hmem
      exact h.queued cmd' (hqueue ▸ List.mem_cons_self ..) hc
    exact ⟨h.running, h.returned, fun cmd' hmem => h.queued cmd' (hqueue ▸ List.mem_cons_of_mem _ hmem),
      hacts.run, hacts.heard⟩

theorem Records.sends (h : Records lib c post log o) {cmd : IoCommand} {next : CallTask} {now : Instant}
    (hnext : next.Ensures (fun _ => True) post (log ++ [.sent cmd])) :
    Records lib c post (log ++ [.sent cmd]) ⟨o.system.send cmd, .running next now⟩ := by
  obtain ⟨actions, hrun, hmine⟩ := h.run
  refine ⟨?_, fun _ he => (by cases he), fun cmd' hmem hc => ?_, ⟨actions, hrun, fun cmd' hmem hc => ?_⟩,
    fun key a ha => ?_⟩
  · rintro _ _ ⟨⟩
    exact hnext
  · rw [sentIn_sent]
    rcases List.mem_append.mp hmem with hmem | hmem
    · exact List.mem_append_left _ (h.queued cmd' hmem hc)
    · exact List.mem_append_right _ hmem
  · rw [sentIn_sent]
    exact List.mem_append_left _ (hmine cmd' hmem hc)
  · exact h.heard key a (by simpa using ha)

theorem Records.hears (h : Records lib c post log o) {key : ReplyId} {a : Awaited Reply} {next : CallTask}
    {now : Instant} (hnext : next.Ensures (fun _ => True) post (log ++ [.heard key a]))
    (ha : ∀ r, a = .answer r → .answered key r ∈ o.system.bridge.trace) :
    Records lib c post (log ++ [.heard key a]) { o with stage := .running next now } := by
  have hsent : sentIn (log ++ [.heard key a]) = sentIn log := sentIn_heard ..
  refine ⟨?_, fun _ he => (by cases he), hsent ▸ h.queued, hsent ▸ h.run, ?_⟩
  · rintro _ _ ⟨⟩
    exact hnext
  · intro key' r hmem
    rcases List.mem_append.mp hmem with hmem | hmem
    · exact h.heard key' r hmem
    · obtain ⟨rfl, hr⟩ := Note.heard.inj (List.mem_singleton.mp hmem)
      exact ha r hr.symm

/-- An answer that a oneshot's receiver gets is in the record. -/
theorem answered_of_oneshot {b : Bridge} {key : ReplyId} {r : Reply}
    (h : b.oneshot key = some (.answer r)) : .answered key r ∈ b.trace := by
  have hfound : b.trace.findSome? (IoEvent.outcome key) = some (.answer r) := by
    unfold Bridge.oneshot at h
    rcases Option.or_eq_some_iff.mp h with h | ⟨-, h⟩
    · exact h
    · split_ifs at h
      cases h
  obtain ⟨x, hx, ho⟩ := List.exists_of_findSome?_eq_some hfound
  cases x with
  | answered i a =>
    simp only [IoEvent.outcome] at ho
    split_ifs at ho with hi
    obtain rfl := Awaited.answer.inj (Option.some.inj ho)
    exact hi ▸ hx
  | unanswered i =>
    simp only [IoEvent.outcome] at ho
    split_ifs at ho
    cases ho
  | _ => cases ho

theorem Records.advance (h : Records lib c post log o) (ends : List Bridge.TokioStep) :
    ∃ log', Records lib c post log' (o.step lib ends .advance) := by
  have hstay (result : Except SrtError SocketId) (hpost : post log result) :
      Records lib c post log { o with stage := .returned result } :=
    h.goes (fun _ _ he => by cases he) fun _ he => by cases he; exact hpost
  unfold Calling.step
  dsimp only
  cases hs : o.stage with
  | running t since =>
    have ht := h.running t since hs
    cases t with
    | send cmd next => exact ⟨_, h.sends ht.2⟩
    | await reply budget next =>
      dsimp only
      cases ho : o.system.bridge.oneshot reply with
      | none => exact ⟨log, h⟩
      | some a =>
        have hne := outcome_ne_elapsed ho
        refine ⟨_, h.hears (ht.2 a fun he => absurd he hne) ?_⟩
        rintro r rfl
        exact answered_of_oneshot ho
    | letGo t next =>
      have hgoes : Records lib c post log { o with stage := .running next o.system.bridge.clock } :=
        h.goes (fun _ _ he => by cases he; exact ht.2) fun _ he => by cases he
      exact ⟨log, hgoes.letGo [t]⟩
    | panic =>
      have hgoes : Records lib c post log { o with stage := .panicked } :=
        h.goes (fun _ _ he => by cases he) fun _ he => by cases he
      exact ⟨log, hgoes.letGo ends⟩
    | ret result => exact ⟨log, hstay result ht.2⟩
  | returned | panicked | dropped => exact ⟨log, h⟩

theorem Records.expire (h : Records lib c post log o) (ends : List Bridge.TokioStep) :
    ∃ log', Records lib c post log' (o.step lib ends .expire) := by
  unfold Calling.step
  dsimp only
  cases hs : o.stage with
  | running t since =>
    have ht := h.running t since hs
    cases t with
    | await reply budget next =>
      cases budget with
      | none => exact ⟨log, h⟩
      | some budget =>
        dsimp only
        split_ifs
        · exact ⟨_, h.hears (ht.2 .elapsed fun _ => by simp) fun _ he => by cases he⟩
        · exact ⟨log, h⟩
    | send | letGo | panic | ret => exact ⟨log, h⟩
  | returned | panicked | dropped => exact ⟨log, h⟩

theorem Records.drop (h : Records lib c post log o) (ends : List Bridge.TokioStep) :
    Records lib c post log (o.step lib ends .drop) := by
  unfold Calling.step
  dsimp only
  cases hs : o.stage with
  | running t since =>
    cases t with
    | await reply budget next =>
      have hgoes : Records lib c post log { o with stage := .dropped } :=
        h.goes (fun _ _ he => by cases he) fun _ he => by cases he
      exact hgoes.letGo ends
    | send | letGo | panic | ret => exact h
  | returned | panicked | dropped => exact h

/-- In every run of the call, as long as nobody else uses its oneshots. -/
theorem records (lib : Libsrt) (call : OpenCall) (c : CallEnds) {moves : List CallMove}
    (ht : (call.task c).Ensures (fun _ => True) post [])
    (hm : ∀ m, .system m ∈ moves → m.brings c.replies = false) :
    ∃ log, Records lib c post log (call.run lib c moves) := by
  induction moves using List.reverseRecOn with
  | nil =>
    refine ⟨[], ?_, fun _ he => (by cases he), List.forall_mem_nil _, ⟨[], rfl, ?_⟩, ?_⟩
    · rintro _ _ ⟨⟩
      exact ht
    · exact fun _ hcmd => absurd hcmd List.not_mem_nil
    · exact fun _ _ ha => absurd ha List.not_mem_nil
  | append_singleton moves m ih =>
    obtain ⟨log, h⟩ := ih fun m' hmem => hm m' (List.mem_append_left _ hmem)
    have hrun : call.run lib c (moves ++ [m]) = (call.run lib c moves).step lib (call.ends c) m := by
      simp [OpenCall.run]
    rw [hrun]
    cases m with
    | system m => exact ⟨log, h.system (hm m (by simp))⟩
    | advance => exact h.advance (call.ends c)
    | expire => exact h.expire (call.ends c)
    | drop => exact ⟨log, h.drop (call.ends c)⟩

end Records

end Calling

/-- The id that libsrt gives when it creates, in step `k`, what the call opens. -/
def OpenCall.created (lib : Libsrt) (k : ℕ) : OpenCall → SocketId
  | .socket .. | .listener .. => lib.createSocket k
  | .group b => lib.createGroup k b.mode

/-- After the actions `pre`, step `s` bears out that the call has opened `id`. -/
def OpenCall.BearsOut (lib : Libsrt) (c : CallEnds) (id : SocketId) (pre : List Bridge.Action)
    (s : Bridge.IoStep) (call : OpenCall) : Prop :=
  let k := (Bridge.start.run lib pre).step
  match call with
  | .socket _ _ =>
    lib.getsockstate k 0 id = .connected ∧ (s = .command (call.openCommand c id) ∨
      (∃ flags, s = .event id flags) ∧ .io (.command (call.openCommand c id)) ∈ pre)
  | .listener b _ =>
    s = .command (call.openCommand c id) ∧ 0 ≤ lib.listen k id b.backlog ∧
      ∀ slot, (Bridge.start.run lib pre).accessSlot id = some slot → 0 ≤ lib.listenCallback k id slot
  | .group b =>
    s = .command (call.openCommand c id) ∧ (connectGroup lib k 0 id b.endpoints).refused = none

/-- In the thread's run, libsrt has created `id` for the call, bound it where the call asked for it, and
opened it. -/
structure OpenCall.Opened (lib : Libsrt) (call : OpenCall) (c : CallEnds) (id : SocketId)
    (actions : List Bridge.Action) : Prop where
  created : ∃ pre post, actions = pre ++ .io (.command (call.createCommand c)) :: post ∧
    (Bridge.start.run lib pre).running = true ∧
      call.created lib (Bridge.start.run lib pre).step = id ∧ 0 ≤ id
  bound : ∀ addr ∈ call.binds, ∃ pre post, actions = pre ++ .io (.command (.bind id addr c.bind)) :: post ∧
    (Bridge.start.run lib pre).running = true ∧ 0 ≤ lib.bind (Bridge.start.run lib pre).step id addr
  opened : ∃ pre s post, actions = pre ++ .io s :: post ∧ (Bridge.start.run lib pre).running = true ∧
    call.BearsOut lib c id pre s

section Opened

variable {lib : Libsrt} {call : OpenCall} {c : CallEnds} {id : SocketId} {actions : List Bridge.Action}

/-- A success that a oneshot of the call was told was borne out by the one command of the call that
brought it, or by an event after that command. -/
theorem borne_out (hn : c.replies.Nodup) (hmine : ∀ cmd, .io (.command cmd) ∈ actions →
      cmd.reply.any (· ∈ c.replies) = true → cmd ∈ call.commands c id)
    {cmd : IoCommand} {r : ReplyId} {a : Reply} (hcmd : cmd ∈ call.commands c id)
    (hr : cmd.reply = some r) (hin : r ∈ c.replies) (hok : a.isOk = true)
    (ha : .answered r a ∈ (Bridge.start.run lib actions).trace) :
    ∃ pre s post, actions = pre ++ .io s :: post ∧ (Bridge.start.run lib pre).running = true ∧
      Bridge.Grants lib (Bridge.start.run lib pre) s r a ∧ (s = .command cmd ∨
        ∃ i flags addr, s = .event i flags ∧ cmd = .connect i addr r ∧ .io (.command cmd) ∈ pre) := by
  have hoks : (r, a) ∈ (Bridge.start.run lib actions).oks :=
    List.mem_filterMap.mpr ⟨_, ha, by simp [IoEvent.ok, hok]⟩
  obtain ⟨pre, s, post, rfl, hrun, hg⟩ := (Bridge.mem_oks_run r a).mp hoks
  have hown (cmd' : IoCommand) (hmem : .io (.command cmd') ∈ pre ++ .io s :: post)
      (hr' : cmd'.reply = some r) : cmd' = cmd := by
    have hc : cmd'.reply.any (· ∈ c.replies) = true := by simp [hr', hin]
    exact OpenCall.command_unique hn (hmine cmd' hmem hc) hcmd hr' hr
  refine ⟨pre, s, post, rfl, hrun, hg, ?_⟩
  cases hg with
  | connected hw =>
    obtain ⟨addr, hasked⟩ := Bridge.waits_asked hw
    have hsame := hown _ (List.mem_append_left _ hasked) rfl
    exact .inr ⟨_, _, addr, rfl, hsame.symm, hsame ▸ hasked⟩
  | _ => exact .inl (congrArg Bridge.IoStep.command (hown _ (by simp) rfl))

/-- In every run in which nobody else uses the oneshots of the call: when the call has returned a
socket, a listener or a group, libsrt has created it for the call's own command, bound it to the
address asked for, and opened it as asked. -/
theorem opened_as_promised (lib : Libsrt) (call : OpenCall) (c : CallEnds) (hn : c.replies.Nodup)
    (moves : List CallMove) (hm : ∀ m, .system m ∈ moves → m.brings c.replies = false) (id : SocketId)
    (hret : (call.run lib c moves).stage = .returned (.ok id)) :
    ∃ actions, (call.run lib c moves).system.bridge = Bridge.start.run lib actions ∧
      call.Opened lib c id actions := by
  obtain ⟨log, h⟩ := Calling.records lib call c (call.delivers c) hm
  have hd := h.returned _ hret id rfl
  obtain ⟨actions, hrun, hmine⟩ := h.run
  rw [hd.sent] at hmine
  have hheard (key : ReplyId) (a : Reply) (ha : .heard key (.answer a) ∈ log) :
      .answered key a ∈ (Bridge.start.run lib actions).trace := hrun ▸ h.heard key a ha
  refine ⟨actions, hrun, ?_, fun addr haddr => ?_, ?_⟩
  · obtain ⟨pre, s, post, hsplit, hr, hg, rfl | ⟨i, flags, addr, -, hcon, -⟩⟩ :=
      borne_out hn hmine OpenCall.createCommand_mem OpenCall.createCommand_reply
        (by simp [CallEnds.replies]) rfl (hheard _ _ hd.created)
    · refine ⟨pre, post, hsplit, hr, ?_⟩
      cases call <;> cases hg <;> exact ⟨rfl, ‹_›⟩
    · cases call <;> cases hcon
  · have hbound := hd.bound fun hnone => by rw [hnone] at haddr; cases haddr
    obtain ⟨pre, s, post, hsplit, hr, hg, rfl | ⟨i, flags, addr, -, hcon, -⟩⟩ :=
      borne_out hn hmine (OpenCall.bind_mem haddr) rfl (by simp [CallEnds.replies]) rfl
        (hheard _ _ hbound)
    · refine ⟨pre, post, hsplit, hr, ?_⟩
      cases hg with
      | bind h => exact h
    · cases hcon
  · obtain ⟨pre, s, post, hsplit, hr, hg, hs⟩ :=
      borne_out hn hmine OpenCall.openCommand_mem OpenCall.openCommand_reply
        (by simp [CallEnds.replies]) rfl (hheard _ _ hd.opened)
    refine ⟨pre, s, post, hsplit, hr, ?_⟩
    rcases hs with rfl | ⟨i, flags, addr, rfl, hcon, hpre⟩
    · cases call with
      | socket b remote =>
        cases hg with
        | connect _ hq => exact ⟨hq, .inl rfl⟩
      | listener b addr =>
        cases hg with
        | listen harm h => exact ⟨rfl, h, harm⟩
      | group b =>
        cases hg with
        | connectGroup h => exact ⟨rfl, h⟩
    · cases call with
      | socket b remote =>
        obtain ⟨rfl, -⟩ := IoCommand.connect.inj hcon
        cases hg with
        | connected _ _ _ hq => exact ⟨hq, .inr ⟨⟨flags, rfl⟩, hpre⟩⟩
      | listener | group => cases hcon

/-- A listener's call, each of whose commands is carried out at once. -/
theorem opened_as_promised_listener :
    let lib := Libsrt.reading fun _ => .init
    let call := OpenCall.listener ⟨{}, none, 5⟩ (.v4 0x7f000001 9000)
    let c : CallEnds := ⟨0, 1, 2, 3, 0, 1, 2, 3, 4⟩
    let moves : List CallMove := (List.replicate 12 [.advance, .system .command]).flatten
    ∃ actions, (call.run lib c moves).system.bridge = Bridge.start.run lib actions ∧
      call.Opened lib c 7 actions := by
  have hm (m : System.Move)
      (h : .system m ∈ (List.replicate 12 [CallMove.advance, .system .command]).flatten) : m = .command := by
    simpa [List.replicate] using h
  exact opened_as_promised _ _ _ (by decide) _ (fun m h => by rw [hm m h]; rfl) 7 rfl

end Opened

end SrtBridge
