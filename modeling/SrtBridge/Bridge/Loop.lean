import SrtBridge.Bridge.Command

/-! The rest of the I/O thread's loop: epoll events, the send drain, the group sweep,
the stranded-member check, the state poll and the reaping of zombies. The thread takes
these steps in any order, and the Tokio tasks use their channel ends in between. -/

namespace SrtBridge

open General

def acceptCapacity : ℕ := 16

namespace Bridge

/-- The messages one drain takes: a socket is read while it reports data, a group until
nothing comes. -/
def takeMessages (group : Bool) : List RecvAnswer → List ReceivedPacket
  | [] => []
  | a :: rest =>
    if !group && !(a.rcvdata.any (0 < ·)) then []
    else
      match a.message with
      | some (data, srctime) =>
        if data = [] then [] else .withSrctime data srctime :: takeMessages group rest
      | none => []

/-- Hand a message to the entry's receive channel, if it has one. -/
def deliver (id : SocketId) (b : Bridge) (packet : ReceivedPacket) : Bridge :=
  let b := b.emit (.took id packet)
  match (b.entry id).bind SocketState.recvTx with
  | some c => { b with packets := Function.update b.packets c ((b.packets c).send packet) }
  | none => b

def handleRecv (lib : Libsrt) (j : ℕ) (id : SocketId) (b : Bridge) : Bridge :=
  if isGroupId id ∧ lib.getsockstate b.step j id ≠ .connected then b
  else (takeMessages (isGroupId id) (lib.recvmsg b.step j id)).foldl (deliver id) b

/-- What offering messages to libsrt comes to: those it took, the one it would not take
and whether it only would have blocked, and those not offered. -/
structure Offered where
  taken : List Bytes
  refused : Option (Bytes × Bool)
  left : List Bytes

/-- Offer messages until libsrt refuses one; `j` numbers the first call. -/
def offer (lib : Libsrt) (k : ℕ) (id : SocketId) : ℕ → List Bytes → Offered
  | _, [] => ⟨[], none, []⟩
  | j, data :: rest =>
    if lib.sendmsg k j id data < 0 then
      ⟨[], some (data, lib.lastSrtError k j = .asyncSend), rest⟩
    else
      let o := offer lib k id (j + 1) rest
      { o with taken := data :: o.taken }

def Offered.events (o : Offered) (id : SocketId) : List IoEvent :=
  o.taken.map (.sent id · true) ++ (o.refused.map fun r => .sent id r.1 false).toList

/-- The message to hold back: the one that would have blocked. -/
def Offered.held (o : Offered) : List Bytes :=
  match o.refused with
  | some (data, true) => [data]
  | _ => []

/-- Send the backlog, then what waits in the send channel, until libsrt refuses. -/
def handleSend (lib : Libsrt) (id : SocketId) (b : Bridge) : Bridge :=
  match b.entry id with
  | none => b
  | some s =>
    let o := offer lib b.step id 0 s.sendBacklog
    let b' := b.emits (o.events id)
    if o.refused.isSome then b'.setEntry id { s with sendBacklog := o.held ++ o.left }
    else
      match s.sendRx with
      | none => b'.setEntry id { s with sendBacklog := [] }
      | some c =>
        let p := offer lib b.step id s.sendBacklog.length (b.sends c).buffer
        { (b'.emits (p.events id)).setEntry id { s with sendBacklog := p.held } with
          sends := Function.update b.sends c { b.sends c with buffer := p.left } }

/-- Accept a connection: hand it to the listener's accept channel, or close it. -/
def handleAccept (lib : Libsrt) (listener : SocketId) (b : Bridge) : Bridge :=
  let id := lib.accept b.step listener
  if id < 0 then b
  else
    let b := b.emit (.accepted listener id)
    let handed := (b.entry listener).bind SocketState.acceptTx >>= fun c =>
      ((b.accepts c).trySend acceptCapacity id).map (c, ·)
    match handed with
    | none => b.emit (.closed id)
    | some (c, chan) =>
      ({ b with accepts := Function.update b.accepts c chan }.setOptions lib id nonBlocking).emit
        (.subscribed id)

structure EpollFlags where
  inp : Bool
  out : Bool
  err : Bool
  connect : Bool
  deriving DecidableEq

/-- The connect event of an entry whose connect is waited on. -/
def connectCompletion (lib : Libsrt) (id : SocketId) (b : Bridge) : Bridge :=
  match b.connectReply id with
  | none => b
  | some reply =>
    let b := b.modify id fun s => { s with connectReply := none }
    if lib.getsockstate b.step 0 id = .connected then
      (b.answer reply (.done (.ok ()))).record id .connected
    else (b.answer reply (.done (.error (lib.lastSrtError b.step 0)))).record id .broken

/-- Whether error readiness on a group means that the group has failed. -/
def groupErrIsReal (lib : Libsrt) (k : ℕ) (id : SocketId) : Bool :=
  isTerminalStatus (lib.status k 2 id)

def errorEvent (lib : Libsrt) (id : SocketId) (b : Bridge) : Bridge :=
  match b.entry id with
  | some s => if s.isGroup ∧ groupErrIsReal lib b.step id = false then b else b.record id .broken
  | none => b

/-- One event of `process_epoll_events`. -/
def processEvent (lib : Libsrt) (id : SocketId) (flags : EpollFlags) (b : Bridge) : Bridge :=
  if (b.entry id).any SocketState.isListener ∧ flags.inp then b.handleAccept lib id
  else
    let b := if flags.connect then b.connectCompletion lib id else b
    let b := if flags.inp then b.handleRecv lib 1 id else b
    let b := if flags.out then b.handleSend lib id else b
    if flags.err then b.errorEvent lib id else b

/-- The send drain, at one socket. -/
def drain (lib : Libsrt) (id : SocketId) (b : Bridge) : Bridge :=
  match b.entry id with
  | some s => if s.sendRx.isSome ∧ s.lastStatus = .connected then b.handleSend lib id else b
  | none => b

/-- Whether the receiver of an entry's receive channel is gone. -/
def recvClosed (b : Bridge) (s : SocketState) : Bool :=
  match s.recvTx with
  | some c => (b.packets c).closed
  | none => true

/-- The sweep of live groups, at one of them. -/
def sweep (lib : Libsrt) (id : SocketId) (b : Bridge) : Bridge :=
  match b.entry id with
  | some s =>
    if isGroupId id ∧ s.lastStatus = .connected ∧ b.recvClosed s = false then b.handleRecv lib 0 id
    else b
  | none => b

/-- `check_stranded_members`, at one group. The check takes as many steps as it makes. -/
def check (lib : Libsrt) (id : SocketId) (b : Bridge) : Bridge :=
  match b.entry id with
  | some s =>
    if s.watched ≠ [] ∧ s.lastStatus ≠ .init ∧ isTerminalStatus s.lastStatus = false then
      let r := (b.groupRun s).checkGroup lib id
      let b := { b.putGroup id r with step := r.step }
      if r.entry.lastStatus = s.lastStatus then b else b.emit (.recorded id r.entry.lastStatus)
    else b
  | none => b

def failConnect (id : SocketId) (err : SrtError) (b : Bridge) : Bridge :=
  match b.connectReply id with
  | some reply =>
    (b.modify id fun s => { s with connectReply := none }).answer reply (.done (.error err))
  | none => b

/-- The state poll, at one entry. -/
def poll (lib : Libsrt) (id : SocketId) (b : Bridge) : Bridge :=
  match b.entry id with
  | some s =>
    let status := lib.status b.step 0 id
    if s.isGroup ∧ s.lastStatus = .init ∨ status = s.lastStatus then b
    else
      let b := b.record id status
      if status = .broken ∨ status = .closed then b.failConnect id (lib.lastSrtError b.step 0) else b
  | none => b

/-- Dead, neither a listener nor a group, and let go of by its task. -/
def isZombie (b : Bridge) (s : SocketState) : Bool :=
  isTerminalStatus s.lastStatus && !s.isListener && !s.isGroup && b.recvClosed s

def zombies (b : Bridge) : List SocketId :=
  b.sockets.keys.filter fun id => (b.entry id).any b.isZombie

def cleanupZombies (b : Bridge) : Bridge :=
  b.zombies.foldl (fun b id => b.closeAndFail id .connectionLost) b

def anyWith (b : Bridge) (status : SocketStatus) : Bool :=
  b.sockets.entries.any fun s => s.2.lastStatus = status

def hasConnected (b : Bridge) : Bool := b.anyWith .connected

def hasConnecting (b : Bridge) : Bool := !b.hasConnected && b.anyWith .connecting

/-- The loop takes its idle path: no state is polled, nothing is drained, swept or checked. -/
def idle (b : Bridge) : Bool := !b.hasConnected && !b.hasConnecting

inductive IoStep where
  | command (cmd : IoCommand)
  | event (id : SocketId) (flags : EpollFlags)
  | drain (id : SocketId)
  | sweep (id : SocketId)
  | check (id : SocketId)
  | poll (id : SocketId)
  | cleanup

def ioStep (lib : Libsrt) (b : Bridge) : IoStep → Bridge
  | .command cmd => b.processCommand lib cmd
  | .event id flags => b.processEvent lib id flags
  | .drain id => b.drain lib id
  | .sweep id => b.sweep lib id
  | .check id => b.check lib id
  | .poll id => b.poll lib id
  | .cleanup => b.cleanupZombies

/-- What a channel is after its receiver has taken a message, if one waited. -/
def received {α : Type} (c : Mpsc α) : Mpsc α := (c.tryRecv.map Prod.snd).getD c

/-- What Tokio tasks do to their channel ends. -/
inductive TokioStep where
  | recvPacket (c : ChannelId)
  | dropPackets (c : ChannelId)
  | sendData (c : ChannelId) (data : Bytes)
  | recvAccepted (c : ChannelId)
  | closeAccepts (c : ChannelId)

def tokioStep (b : Bridge) : TokioStep → Bridge
  | .recvPacket c => { b with packets := Function.update b.packets c (received (b.packets c)) }
  | .dropPackets c => { b with packets := Function.update b.packets c (b.packets c).drop }
  | .sendData c data => { b with sends := Function.update b.sends c ((b.sends c).send data) }
  | .recvAccepted c => { b with accepts := Function.update b.accepts c (received (b.accepts c)) }
  | .closeAccepts c => { b with accepts := Function.update b.accepts c (b.accepts c).close }

inductive Action where
  | io (s : IoStep)
  | tokio (s : TokioStep)
  | elapse (d : Duration)

/-- One action; the I/O thread takes no step once it has shut down. -/
def act (lib : Libsrt) (b : Bridge) : Action → Bridge
  | .io s => if b.running then { b.ioStep lib s with step := (b.ioStep lib s).step + 1 } else b
  | .tokio s => b.tokioStep s
  | .elapse d => { b with clock := b.clock + d }

def run (lib : Libsrt) (b : Bridge) (actions : List Action) : Bridge := actions.foldl (act lib) b

end Bridge

end SrtBridge
