import SrtBridge.Bridge.State

/-! What the I/O thread does for one command. `b.step` numbers the step the command
is carried out in; libsrt's answers within it are told apart by the call's number. -/

namespace SrtBridge

namespace Bridge

/-- Whether an entry is a group that has not been connected yet, and so was never
subscribed to the epoll. -/
def neverPolled (b : Bridge) (id : SocketId) : Bool :=
  match b.entry id with
  | some s => s.isGroup && s.lastStatus = .init
  | none => false

/-- Close a socket in libsrt, then release its entry. -/
def closeAndRelease (id : SocketId) (b : Bridge) : Bridge :=
  let b := if b.neverPolled id then b else b.emit (.unsubscribed id)
  (b.emit (.closed id)).release id

def connectReply (b : Bridge) (id : SocketId) : Option ReplyId :=
  (b.entry id).bind SocketState.connectReply

/-- Close and release, and fail the connect that waits on the entry, if any. -/
def closeAndFail (id : SocketId) (err : SrtError) (b : Bridge) : Bridge :=
  match b.connectReply id with
  | some reply => (b.closeAndRelease id).answer reply (.done (.error err))
  | none => b.closeAndRelease id

/-- Close and release, letting go of the connect that waits on the entry. -/
def closeAndDrop (id : SocketId) (b : Bridge) : Bridge :=
  match b.connectReply id with
  | some reply => (b.closeAndRelease id).emit (.unanswered reply)
  | none => b.closeAndRelease id

def setOptions (lib : Libsrt) (id : SocketId) (calls : List OptCall) (b : Bridge) : Bridge :=
  b.emits ((setOpts lib b.step id calls).map fun c => .optionSet id c.1 c.2)

def createSocket (lib : Libsrt) (config : SrtConfig) (reply : ReplyId) (b : Bridge) : Bridge :=
  let sock := lib.createSocket b.step
  if sock < 0 then b.answer reply (.socket (.error (lib.lastSrtError b.step 0)))
  else
    (((b.emit (.created sock)).setOptions lib sock nonBlocking).setOptions lib sock
      (applyConfig config)).answer reply (.socket (.ok sock))

def bindSocket (lib : Libsrt) (id : SocketId) (addr : SocketAddr) (reply : ReplyId) (b : Bridge) :
    Bridge :=
  if lib.bind b.step id addr < 0 then
    (b.emit (.bound id false)).answer reply (.done (.error (lib.lastSrtError b.step 0)))
  else (b.emit (.bound id true)).answer reply (.done (.ok ()))

def accessSlot (b : Bridge) (id : SocketId) : Option ℕ :=
  (b.entry id).bind SocketState.accessControl

/-- `register_listen_callback`: arm the access-control hook, if there is one. -/
def registerListenCallback (lib : Libsrt) (id : SocketId) (b : Bridge) :
    Except SrtError Unit × Bridge :=
  match b.accessSlot id with
  | none => (.ok (), b)
  | some slot =>
    if lib.listenCallback b.step id slot < 0 then
      (.error (lib.lastSrtError b.step 0), b.emit (.armed id slot false))
    else (.ok (), b.emit (.armed id slot true))

def listen (lib : Libsrt) (id : SocketId) (backlog : ℤ) (reply : ReplyId) (b : Bridge) : Bridge :=
  match b.registerListenCallback lib id with
  | (.error err, b) => (b.closeAndDrop id).answer reply (.done (.error err))
  | (.ok (), b) =>
    if lib.listen b.step id backlog < 0 then
      -- the error is read before `srt_close` overwrites it
      let err := lib.lastSrtError b.step 1
      ((b.emit (.listening id false)).closeAndDrop id).answer reply (.done (.error err))
    else
      (((((b.emit (.listening id true)).emit (.subscribed id)).modify id fun s =>
        { s with isListener := true }).record id .listening).answer reply (.done (.ok ())))

/-- Keep the reply of a connect in progress with its entry. -/
def awaitConnect (id : SocketId) (reply : ReplyId) (b : Bridge) : Bridge :=
  match b.entry id with
  | none => b.emit (.unanswered reply)
  | some s =>
    let b := match s.connectReply with
      | some earlier => b.emit (.unanswered earlier)
      | none => b
    (b.modify id fun s => { s with connectReply := some reply }).record id .connecting

def connect (lib : Libsrt) (id : SocketId) (addr : SocketAddr) (reply : ReplyId) (b : Bridge) :
    Bridge :=
  let err := lib.lastSrtError b.step 0
  let b' := b.emit (.connecting id)
  if lib.connect b.step id addr < 0 ∧ err ≠ .asyncFail then b'.answer reply (.done (.error err))
  else
    match lib.getsockstate b.step 0 id with
    | .connected =>
      ((b'.emit (.subscribed id)).record id .connected).answer reply (.done (.ok ()))
    | .connecting | .opened | .init => (b'.emit (.subscribed id)).awaitConnect id reply
    | _ => b'.answer reply (.done (.error (lib.lastSrtError b.step 1)))

def enterIfAbsent (id : SocketId) (s : SocketState) (b : Bridge) : Bridge :=
  match b.entry id with
  | some _ => b
  | none => b.enter id s

def registerSocket (lib : Libsrt) (id : SocketId) (recvTx sendRx statusTx : ChannelId) (b : Bridge) :
    Bridge :=
  let b := (b.enterIfAbsent id .fresh).register id recvTx sendRx statusTx
  match b.entry id with
  | some s =>
    -- a group without members reads `BROKEN`, so its status starts at its connect
    if s.isGroup ∨ lib.status b.step 0 id = s.lastStatus then b
    else b.record id (lib.status b.step 0 id)
  | none => b

def registerListener (id : SocketId) (acceptTx : ChannelId) (accessControl : Option ℕ) (b : Bridge) :
    Bridge :=
  (b.enterIfAbsent id .freshListener).modify id fun s =>
    { s with
      acceptTx := some acceptTx
      accessControl := accessControl.or s.accessControl }

def createGroup (lib : Libsrt) (mode : GroupType) (config : SrtConfig) (reply : ReplyId) (b : Bridge) :
    Bridge :=
  let grp := lib.createGroup b.step mode
  if grp < 0 then b.answer reply (.socket (.error (lib.lastSrtError b.step 0)))
  else
    ((((b.emit (.created grp)).setOptions lib grp nonBlocking).setOptions lib grp
      (applyConfig config)).enter grp (.freshGroup (mode = .backup))).answer reply (.socket (.ok grp))

/-- A group's entry as its run sees it, at this step. -/
def groupRun (b : Bridge) (s : SocketState) : GroupRun := ⟨s, b.clock, b.step, []⟩

/-- What a group's run leaves of its entry, and what it did. -/
def putGroup (id : SocketId) (r : GroupRun) (b : Bridge) : Bridge :=
  (b.setEntry id r.entry).emits (r.trace.map (.member id))

def connectGroup (lib : Libsrt) (id : SocketId) (endpoints : List GroupEndpoint) (reply : ReplyId)
    (b : Bridge) : Bridge :=
  match (SrtBridge.connectGroup lib b.step 0 id endpoints).refused with
  | some err => b.answer reply (.done (.error err))
  | none =>
    let b := b.emit (.subscribed id)
    let b := match b.entry id with
      | some s =>
        (b.putGroup id ((b.groupRun s).connect lib id endpoints).2).emit (.recorded id .connected)
      | none => b
    b.answer reply (.done (.ok ()))

def addGroupMember (lib : Libsrt) (id : SocketId) (endpoint : GroupEndpoint) (reply : ReplyId)
    (b : Bridge) : Bridge :=
  match b.entry id with
  | none => b.answer reply (.done (.error .connectionLost))
  | some s =>
    let r := (b.groupRun s).addGroupMember lib id endpoint
    (b.putGroup id r.2).answer reply (.done r.1)

/-- `cleanup`, at one entry: close it, then let go of what it holds. -/
def shutdownOne (b : Bridge) (id : SocketId) : Bridge :=
  let closed := ((b.emit (.unsubscribed id)).emit (.closed id)).release id
  match b.connectReply id with
  | some reply => closed.answer reply (.done (.error .socketClosed))
  | none => closed

/-- `cleanup`: close everything, and the thread is done. -/
def shutdown (b : Bridge) : Bridge :=
  { b.sockets.keys.foldl shutdownOne b with running := false }

def processCommand (lib : Libsrt) (cmd : IoCommand) (b : Bridge) : Bridge :=
  match cmd with
  | .createSocket config reply => b.createSocket lib config reply
  | .bind id addr reply => b.bindSocket lib id addr reply
  | .listen id backlog reply => b.listen lib id backlog reply
  | .connect id addr reply => b.connect lib id addr reply
  | .registerSocket id recvTx sendRx statusTx => b.registerSocket lib id recvTx sendRx statusTx
  | .registerListener id acceptTx accessControl => b.registerListener id acceptTx accessControl
  | .getStats id reply =>
    b.answer reply (.stats
      (if lib.bistats b.step id < 0 then .error (lib.lastSrtError b.step 0) else .ok ()))
  | .getState id reply => b.answer reply (.state (lib.status b.step 0 id))
  | .getPeerAddr id reply => b.answer reply (.addr (lib.getpeername b.step id))
  | .getLocalAddr id reply => b.answer reply (.addr (lib.getsockname b.step id))
  | .getStreamId id reply => b.answer reply (.streamId (lib.getStreamId b.step id))
  | .close id => b.closeAndFail id .socketClosed
  | .createGroup mode config reply => b.createGroup lib mode config reply
  | .connectGroup id endpoints reply => b.connectGroup lib id endpoints reply
  | .addGroupMember id endpoint reply => b.addGroupMember lib id endpoint reply
  | .getGroupMemberStats _ reply => b.answer reply .memberStats
  | .shutdown => b.shutdown

end Bridge

end SrtBridge
