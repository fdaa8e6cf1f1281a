import SrtBridge.Bridge.Settings
import SrtBridge.General.Task
import SrtBridge.Handles.System

/-! The calls that open a socket, a listener or a group: what `SrtSocketBuilder::connect`,
`SrtListenerBuilder::bind` and `SrtGroupBuilder::connect` send to the I/O thread, and what they
wait for in between. -/

namespace SrtBridge

open General

abbrev CallTask := Task IoCommand ReplyId Reply Bridge.TokioStep (Except SrtError SocketId)

abbrev CallNote := Note IoCommand ReplyId Reply

/-- The channels and oneshots a call makes. -/
structure CallEnds where
  recv : ChannelId
  send : ChannelId
  status : ChannelId
  accept : ChannelId
  create : ReplyId
  bind : ReplyId
  /-- For `Connect`, `Listen` or `ConnectGroup`. -/
  opened : ReplyId
  localAddr : ReplyId
  peerAddr : ReplyId

def CallEnds.replies (c : CallEnds) : List ReplyId :=
  [c.create, c.bind, c.opened, c.localAddr, c.peerAddr]

def awaitId (reply : ReplyId) (next : SocketId → CallTask) : CallTask :=
  .await reply none fun
    | .answer (.socket (.ok id)) => next id
    | .answer (.socket (.error err)) => .ret (.error err)
    | _ => .ret (.error .socketFail)

def awaitDone (reply : ReplyId) (budget : Option Duration) (fail : SrtError → CallTask)
    (next : CallTask) : CallTask :=
  .await reply budget fun
    | .answer (.done (.ok ())) => next
    | .answer (.done (.error err)) => fail err
    | .elapsed => fail .timeout
    | _ => fail .socketFail

def closeAndReturn (c : CallEnds) (id : SocketId) (err : SrtError) : CallTask :=
  .send (.close id) <| .letGo (.dropPackets c.recv) <| .ret (.error err)

structure SrtSocketBuilder where
  config : SrtConfig
  bindAddr : Option SocketAddr

namespace SrtSocketBuilder

def getAddrs (c : CallEnds) (id : SocketId) : CallTask :=
  .send (.getLocalAddr id c.localAddr) <| .send (.getPeerAddr id c.peerAddr) <|
    .await c.localAddr none fun _ => .await c.peerAddr none fun _ => .ret (.ok id)

/-- The handshake, within a deadline whose computation panics when it overflows. -/
def handshake (b : SrtSocketBuilder) (c : CallEnds) (remote : SocketAddr) (id : SocketId) : CallTask :=
  .send (.connect id remote c.opened) <|
    match connectBudget b.config with
    | some budget => awaitDone c.opened (some budget) (closeAndReturn c id) (getAddrs c id)
    | none => .panic

/-- `SrtSocketBuilder::connect`, from the id on. -/
def connectId (b : SrtSocketBuilder) (c : CallEnds) (remote : SocketAddr) (id : SocketId) : CallTask :=
  .send (.registerSocket id c.recv c.send c.status) <|
    match b.bindAddr with
    | some addr =>
      .send (.bind id addr c.bind) <|
        awaitDone c.bind none (closeAndReturn c id) (b.handshake c remote id)
    | none => b.handshake c remote id

def connect (b : SrtSocketBuilder) (c : CallEnds) (remote : SocketAddr) : CallTask :=
  .send (.createSocket b.config c.create) <| awaitId c.create (b.connectId c remote)

end SrtSocketBuilder

structure SrtListenerBuilder where
  config : SrtConfig
  accessControl : Option ℕ
  backlog : ℤ

namespace SrtListenerBuilder

/-- `SrtListenerBuilder::bind`, from the id on. A failed step returns at once. -/
def bindId (b : SrtListenerBuilder) (c : CallEnds) (addr : SocketAddr) (id : SocketId) : CallTask :=
  let fail (err : SrtError) : CallTask :=
    .letGo (.dropPackets c.recv) <| .letGo (.closeAccepts c.accept) <| .ret (.error err)
  .send (.registerListener id c.accept b.accessControl) <|
    .send (.registerSocket id c.recv c.send c.status) <|
      .send (.bind id addr c.bind) <| awaitDone c.bind none fail <|
        .send (.listen id b.backlog c.opened) <| awaitDone c.opened none fail <|
          .send (.getLocalAddr id c.localAddr) <|
            .await c.localAddr none fun _ => .letGo (.dropPackets c.recv) <| .ret (.ok id)

def bind (b : SrtListenerBuilder) (c : CallEnds) (addr : SocketAddr) : CallTask :=
  .send (.createSocket b.config c.create) <| awaitId c.create (b.bindId c addr)

end SrtListenerBuilder

def GroupEndpoint.check (ep : GroupEndpoint) : Except SrtError Unit :=
  if ep.localAddr.any fun addr => addr.isIpv4 ≠ ep.addr.isIpv4 then .error .invalidParam
  else if maxGroupMemberWeight < ep.weight ∨ ep.token < 0 then .error .invalidParam
  else .ok ()

structure SrtGroupBuilder where
  mode : GroupType
  config : SrtConfig
  endpoints : List GroupEndpoint

namespace SrtGroupBuilder

/-- What `connect` refuses before it creates a group. -/
def checkEndpoints (b : SrtGroupBuilder) : Except SrtError Unit :=
  if b.endpoints = [] then .error .invalidParam else b.endpoints.forM GroupEndpoint.check

def connectId (b : SrtGroupBuilder) (c : CallEnds) (id : SocketId) : CallTask :=
  .send (.registerSocket id c.recv c.send c.status) <|
    .send (.connectGroup id b.endpoints c.opened) <|
      awaitDone c.opened none (closeAndReturn c id) (.ret (.ok id))

def connect (b : SrtGroupBuilder) (c : CallEnds) : CallTask :=
  match b.checkEndpoints with
  | .error err => .ret (.error err)
  | .ok () => .send (.createGroup b.mode b.config c.create) <| awaitId c.create (b.connectId c)

end SrtGroupBuilder

inductive OpenCall where
  | socket (b : SrtSocketBuilder) (remote : SocketAddr)
  | listener (b : SrtListenerBuilder) (addr : SocketAddr)
  | group (b : SrtGroupBuilder)

namespace OpenCall

def task (call : OpenCall) (c : CallEnds) : CallTask :=
  match call with
  | .socket b remote => b.connect c remote
  | .listener b addr => b.bind c addr
  | .group b => b.connect c

def createCommand (call : OpenCall) (c : CallEnds) : IoCommand :=
  match call with
  | .socket b _ => .createSocket b.config c.create
  | .listener b _ => .createSocket b.config c.create
  | .group b => .createGroup b.mode b.config c.create

/-- The entry that is made together with what the call opens. -/
def entered : OpenCall → Option SocketState
  | .group gb => some (.freshGroup (gb.mode = .backup))
  | .socket .. | .listener .. => none

/-- The commands a listener's call sends once it has the id. -/
def listenerCommands (b : SrtListenerBuilder) (c : CallEnds) (addr : SocketAddr) (id : SocketId) :
    List IoCommand :=
  [.registerListener id c.accept b.accessControl, .registerSocket id c.recv c.send c.status,
    .bind id addr c.bind, .listen id b.backlog c.opened, .getLocalAddr id c.localAddr]

def groupCommands (b : SrtGroupBuilder) (c : CallEnds) (id : SocketId) : List IoCommand :=
  [.registerSocket id c.recv c.send c.status, .connectGroup id b.endpoints c.opened, .close id]

/-- What a socket's call sends once the socket has its channels. -/
def SocketCommand (c : CallEnds) (id : SocketId) (cmd : IoCommand) : Prop :=
  (∃ addr, cmd = .bind id addr c.bind) ∨ (∃ addr, cmd = .connect id addr c.opened) ∨
    cmd = .getLocalAddr id c.localAddr ∨ cmd = .getPeerAddr id c.peerAddr ∨ cmd = .close id

def Sends (call : OpenCall) (c : CallEnds) (id : SocketId) (cmds : List IoCommand) : Prop :=
  match call with
  | .socket _ _ =>
    cmds = [] ∨ ∃ rest, cmds = .registerSocket id c.recv c.send c.status :: rest ∧
      ∀ cmd ∈ rest, SocketCommand c id cmd
  | .listener b addr => cmds <+: listenerCommands b c addr id
  | .group b => cmds <+: groupCommands b c id

def Told (c : CallEnds) (id : SocketId) (log : List CallNote) : Prop :=
  .heard c.create (.answer (.socket (.ok id))) ∈ log

/-- What the call has done, whenever it is looked at. -/
def Does (call : OpenCall) (c : CallEnds) (log : List CallNote) : Prop :=
  sentIn log = [] ∨ ∃ cmds, sentIn log = call.createCommand c :: cmds ∧
    (cmds ≠ [] → ∃ id, Told c id log) ∧ ∀ id, Told c id log → call.Sends c id cmds

def Heard (reply : ReplyId) (log : List CallNote) : Prop :=
  ∃ a, .heard reply a ∈ log ∧ a ≠ .elapsed ∧ a ≠ .answer (.done (.ok ()))

/-- What the call has done for `id` when it returns an error. -/
def Fails (call : OpenCall) (c : CallEnds) (id : SocketId) (log : List CallNote) : Prop :=
  match call with
  | .socket _ _ | .group _ => ∃ cmds, sentIn log = cmds ++ [.close id]
  | .listener b addr =>
    (Heard c.bind log ∧ sentIn log = call.createCommand c :: (listenerCommands b c addr id).take 3) ∨
      .heard c.bind (.answer (.done (.ok ()))) ∈ log ∧ Heard c.opened log ∧
        sentIn log = call.createCommand c :: (listenerCommands b c addr id).take 4

def Returns (call : OpenCall) (c : CallEnds) (log : List CallNote) (result : Except SrtError SocketId) :
    Prop :=
  (∃ id, result = .ok id) ∨ sentIn log = [] ∨
    ∃ a, .heard c.create a ∈ log ∧ a ≠ .elapsed ∧
      ∀ id, a = .answer (.socket (.ok id)) → call.Fails c id log

/-- The call has been told the id, and has sent some commands since. -/
structure Opening (call : OpenCall) (c : CallEnds) (id : SocketId) (cmds : List IoCommand)
    (log : List CallNote) : Prop where
  sent : sentIn log = call.createCommand c :: cmds
  told : ∀ a, .heard c.create a ∈ log ↔ a = .answer (.socket (.ok id))

section Ensures

variable {call : OpenCall} {c : CallEnds} {id : SocketId} {cmds : List IoCommand} {log : List CallNote}

abbrev Meets (call : OpenCall) (c : CallEnds) (t : CallTask) (log : List CallNote) : Prop :=
  t.Ensures (call.Does c) (call.Returns c) log

theorem Opening.send (h : call.Opening c id cmds log) (cmd : IoCommand) :
    call.Opening c id (cmds ++ [cmd]) (log ++ [.sent cmd]) := by
  refine ⟨?_, fun a => ?_⟩
  · rw [sentIn_sent, h.sent, List.cons_append]
  · simpa using h.told a

theorem Opening.hear (h : call.Opening c id cmds log) {key : ReplyId} (hk : c.create ≠ key)
    (a : Awaited Reply) : call.Opening c id cmds (log ++ [.heard key a]) := by
  refine ⟨by rw [sentIn_heard, h.sent], fun a' => ?_⟩
  simpa [hk] using h.told a'

theorem Opening.does (h : call.Opening c id cmds log) (hs : call.Sends c id cmds) : call.Does c log := by
  have htold : Told c id log := (h.told _).mpr rfl
  refine .inr ⟨cmds, h.sent, fun _ => ⟨id, htold⟩, fun id' hid => ?_⟩
  have hsame := (h.told _).mp hid
  simp only [Awaited.answer.injEq, Reply.socket.injEq, Except.ok.injEq] at hsame
  exact hsame ▸ hs

theorem Opening.fails (h : call.Opening c id cmds log) (hf : call.Fails c id log) (err : SrtError) :
    call.Returns c log (.error err) := by
  refine .inr (.inr ⟨_, (h.told _).mpr rfl, by simp, fun id' hid => ?_⟩)
  simp only [Awaited.answer.injEq, Reply.socket.injEq, Except.ok.injEq] at hid
  exact hid ▸ hf

/-- The oneshot that brings the id is none of the others. -/
theorem create_ne (hn : c.replies.Nodup) :
    c.create ≠ c.bind ∧ c.create ≠ c.opened ∧ c.create ≠ c.localAddr ∧ c.create ≠ c.peerAddr := by
  simp [CallEnds.replies] at hn
  tauto

theorem awaitDone_meets {reply : ReplyId} {budget : Option Duration} {fail : SrtError → CallTask}
    {next : CallTask} (h : call.Does c log)
    (hok : call.Meets c next (log ++ [.heard reply (.answer (.done (.ok ())))]))
    (hfail : ∀ a err, (a = .elapsed → budget ≠ none) → a ≠ .answer (.done (.ok ())) →
      call.Meets c (fail err) (log ++ [.heard reply a])) :
    call.Meets c (awaitDone reply budget fail next) log := by
  refine ⟨h, fun a ha => ?_⟩
  match a with
  | .answer (.done (.ok ())) => exact hok
  | .answer (.done (.error err)) => exact hfail _ err ha (by simp)
  | .elapsed => exact hfail _ .timeout ha (by simp)
  | .dropped => exact hfail _ .socketFail ha (by simp)
  | .answer (.socket _) | .answer (.state _) | .answer (.addr _) | .answer (.streamId _)
  | .answer (.stats _) | .answer .memberStats => exact hfail _ .socketFail ha (by simp)

/-- A call creates, and goes on when it is told the id. -/
theorem create_meets {next : SocketId → CallTask}
    (hempty : ∀ id, call.Sends c id [])
    (h : ∀ id log, call.Opening c id [] log → call.Meets c (next id) log) :
    call.Meets c (.send (call.createCommand c) (awaitId c.create next)) [] := by
  have hsent (a : Awaited Reply) :
      sentIn ([.sent (call.createCommand c)] ++ [.heard c.create a] : List CallNote) =
        [call.createCommand c] := by simp [sentIn]
  have hdoes (log : List CallNote) (hlog : sentIn log = [call.createCommand c]) : call.Does c log :=
    .inr ⟨[], hlog, fun hne => absurd rfl hne, fun id _ => hempty id⟩
  refine ⟨.inl rfl, hdoes _ rfl, fun a ha => ?_⟩
  have hret (err : SrtError) (hne : ∀ id, a ≠ .answer (.socket (.ok id))) :
      call.Meets c (.ret (.error err)) ([.sent (call.createCommand c)] ++ [.heard c.create a]) := by
    refine ⟨hdoes _ (hsent a), .inr (.inr ⟨a, by simp, fun he => ha he rfl, fun id hid => ?_⟩)⟩
    exact absurd hid (hne id)
  cases a with
  | answer r =>
    cases r with
    | socket result =>
      cases result with
      | ok id => exact h id _ ⟨hsent _, fun a => by simp⟩
      | error err => exact hret err (by simp)
    | done | state | addr | streamId | stats | memberStats => exact hret .socketFail (by simp)
  | elapsed | dropped => exact hret .socketFail (by simp)

/-- A failed step of a socket's or a group's call closes what was created. -/
theorem closeAndReturn_meets (h : call.Opening c id cmds log) (hs : call.Sends c id cmds)
    (hclose : call.Sends c id (cmds ++ [.close id]))
    (hf : ∀ log, (∃ cmds, sentIn log = cmds ++ [.close id]) → call.Fails c id log) (err : SrtError) :
    call.Meets c (closeAndReturn c id err) log := by
  have hsent := h.send (.close id)
  have hdoes := hsent.does hclose
  have hfails : call.Fails c id (log ++ [.sent (.close id)]) := hf _ ⟨sentIn log, sentIn_sent ..⟩
  exact ⟨h.does hs, hdoes, hdoes, hsent.fails hfails err⟩

end Ensures

section Socket

variable {b : SrtSocketBuilder} {remote : SocketAddr} {c : CallEnds} {id : SocketId}
  {cmds : List IoCommand} {log : List CallNote}

def Registered (b : SrtSocketBuilder) (remote : SocketAddr) (c : CallEnds) (id : SocketId)
    (log : List CallNote) : Prop :=
  ∃ rest, (∀ cmd ∈ rest, SocketCommand c id cmd) ∧
    (OpenCall.socket b remote).Opening c id (.registerSocket id c.recv c.send c.status :: rest) log

theorem Registered.send (h : Registered b remote c id log) {cmd : IoCommand}
    (hcmd : SocketCommand c id cmd) : Registered b remote c id (log ++ [.sent cmd]) := by
  obtain ⟨rest, hrest, ho⟩ := h
  refine ⟨rest ++ [cmd], fun cmd' hmem => ?_, ho.send cmd⟩
  rcases List.mem_append.mp hmem with hmem | hmem
  · exact hrest cmd' hmem
  · rw [List.mem_singleton.mp hmem]
    exact hcmd

theorem Registered.hear (h : Registered b remote c id log) {key : ReplyId} (hk : c.create ≠ key)
    (a : Awaited Reply) : Registered b remote c id (log ++ [.heard key a]) := by
  obtain ⟨rest, hrest, ho⟩ := h
  exact ⟨rest, hrest, ho.hear hk a⟩

theorem Registered.does (h : Registered b remote c id log) : (OpenCall.socket b remote).Does c log := by
  obtain ⟨rest, hrest, ho⟩ := h
  exact ho.does (.inr ⟨rest, rfl, hrest⟩)

theorem Registered.fail (h : Registered b remote c id log) (err : SrtError) :
    (OpenCall.socket b remote).Meets c (closeAndReturn c id err) log := by
  obtain ⟨rest, hrest, ho⟩ := h
  refine closeAndReturn_meets ho (.inr ⟨rest, rfl, hrest⟩) (.inr ⟨rest ++ [.close id], rfl, ?_⟩)
    (fun _ h => h) err
  intro cmd hcmd
  rcases List.mem_append.mp hcmd with hcmd | hcmd
  · exact hrest cmd hcmd
  · exact .inr (.inr (.inr (.inr (List.mem_singleton.mp hcmd))))

theorem Registered.addrs (h : Registered b remote c id log) (hn : c.replies.Nodup) :
    (OpenCall.socket b remote).Meets c (SrtSocketBuilder.getAddrs c id) log := by
  obtain ⟨-, -, hl⟩ := create_ne hn
  have hlocal := h.send (.inr (.inr (.inl rfl)))
  have hpeer := hlocal.send (.inr (.inr (.inr (.inl rfl))))
  refine ⟨h.does, hlocal.does, hpeer.does, fun a _ => ?_⟩
  have hfirst := hpeer.hear hl.1 a
  refine ⟨hfirst.does, fun a' _ => ?_⟩
  exact ⟨(hfirst.hear hl.2 a').does, .inl ⟨id, rfl⟩⟩

theorem Registered.handshake (h : Registered b remote c id log) (hn : c.replies.Nodup) :
    (OpenCall.socket b remote).Meets c (b.handshake c remote id) log := by
  obtain ⟨-, hl, -⟩ := create_ne hn
  have hsent := h.send (.inr (.inl ⟨remote, rfl⟩))
  unfold SrtSocketBuilder.handshake
  generalize connectBudget b.config = deadline
  cases deadline with
  | none => exact ⟨h.does, hsent.does⟩
  | some budget =>
    refine ⟨h.does, awaitDone_meets hsent.does ((hsent.hear hl _).addrs hn) ?_⟩
    exact fun a err _ _ => (hsent.hear hl a).fail err

theorem socket_meets (b : SrtSocketBuilder) (remote : SocketAddr) (hn : c.replies.Nodup) :
    (OpenCall.socket b remote).Meets c (b.connect c remote) [] := by
  obtain ⟨hne, -⟩ := create_ne hn
  refine create_meets (fun _ => .inl rfl) fun id log h => ?_
  have hreg : Registered b remote c id (log ++ [.sent (.registerSocket id c.recv c.send c.status)]) :=
    ⟨[], by simp, h.send _⟩
  refine ⟨h.does (.inl rfl), ?_⟩
  cases b.bindAddr with
  | none => exact hreg.handshake hn
  | some addr =>
    have hsent := hreg.send (.inl ⟨addr, rfl⟩)
    refine ⟨hreg.does, awaitDone_meets hsent.does ((hsent.hear hne _).handshake hn) ?_⟩
    exact fun a err _ _ => (hsent.hear hne a).fail err

end Socket

section Others

variable {c : CallEnds}

theorem listener_meets (b : SrtListenerBuilder) (addr : SocketAddr) (hn : c.replies.Nodup) :
    (OpenCall.listener b addr).Meets c (b.bind c addr) [] := by
  obtain ⟨hb, ho, hl, -⟩ := create_ne hn
  refine create_meets (fun _ => List.nil_prefix) fun id log h => ?_
  have hdoes (k : ℕ) {log : List CallNote}
      (h : (OpenCall.listener b addr).Opening c id ((listenerCommands b c addr id).take k) log) :
      (OpenCall.listener b addr).Does c log := h.does (List.take_prefix k _)
  have hlis := h.send (.registerListener id c.accept b.accessControl)
  have hreg := hlis.send (.registerSocket id c.recv c.send c.status)
  have hbind := hreg.send (.bind id addr c.bind)
  have hok := hbind.hear hb (.answer (.done (.ok ())))
  have hlisten := hok.send (.listen id b.backlog c.opened)
  have hopen := hlisten.hear ho (.answer (.done (.ok ())))
  have haddr := hopen.send (.getLocalAddr id c.localAddr)
  refine ⟨hdoes 0 h, hdoes 1 hlis, hdoes 2 hreg,
    awaitDone_meets (hdoes 3 hbind) ⟨hdoes 3 hok, awaitDone_meets (hdoes 4 hlisten)
      ⟨hdoes 4 hopen, hdoes 5 haddr, fun a _ => ?_⟩ fun a err ha hno => ?_⟩ fun a err ha hno => ?_⟩
  · have hend := haddr.hear hl a
    exact ⟨hdoes 5 hend, hdoes 5 hend, .inl ⟨id, rfl⟩⟩
  · have hend := hlisten.hear ho a
    have hfails : (OpenCall.listener b addr).Fails c id _ :=
      .inr ⟨by simp, ⟨a, by simp, fun he => ha he rfl, hno⟩, hend.sent⟩
    exact ⟨hdoes 4 hend, hdoes 4 hend, hdoes 4 hend, hend.fails hfails err⟩
  · have hend := hbind.hear hb a
    have hfails : (OpenCall.listener b addr).Fails c id _ :=
      .inl ⟨⟨a, by simp, fun he => ha he rfl, hno⟩, hend.sent⟩
    exact ⟨hdoes 3 hend, hdoes 3 hend, hdoes 3 hend, hend.fails hfails err⟩

theorem group_meets (b : SrtGroupBuilder) (hn : c.replies.Nodup) :
    (OpenCall.group b).Meets c (b.connect c) [] := by
  obtain ⟨-, ho, -⟩ := create_ne hn
  unfold SrtGroupBuilder.connect
  cases b.checkEndpoints with
  | error err => exact ⟨.inl rfl, .inr (.inl rfl)⟩
  | ok =>
    refine create_meets (fun _ => List.nil_prefix) fun id log h => ?_
    have hdoes (k : ℕ) {log : List CallNote}
        (h : (OpenCall.group b).Opening c id ((groupCommands b c id).take k) log) :
        (OpenCall.group b).Does c log := h.does (List.take_prefix k _)
    have hreg := h.send (.registerSocket id c.recv c.send c.status)
    have hjoin := hreg.send (.connectGroup id b.endpoints c.opened)
    have hheard (a : Awaited Reply) := hjoin.hear ho a
    refine ⟨hdoes 0 h, hdoes 1 hreg, awaitDone_meets (hdoes 2 hjoin)
      ⟨hdoes 2 (hheard _), .inl ⟨id, rfl⟩⟩ fun a err _ _ => ?_⟩
    exact closeAndReturn_meets (hheard a) (List.take_prefix 2 (groupCommands b c id))
      (List.take_prefix 3 (groupCommands b c id)) (fun _ h => h) err

end Others

/-- Whatever the call hears: what it has done at each of its steps, and when it returns. -/
theorem task_meets (call : OpenCall) (c : CallEnds) (hn : c.replies.Nodup) :
    call.Meets c (call.task c) [] := by
  cases call with
  | socket b remote => exact socket_meets b remote hn
  | listener b addr => exact listener_meets b addr hn
  | group b => exact group_meets b hn

end OpenCall

end SrtBridge
