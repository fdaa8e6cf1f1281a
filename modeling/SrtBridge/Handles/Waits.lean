import SrtBridge.Bridge.Replies
import SrtBridge.Handles.Calls

/-! No call of a handle waits for ever. What it waits for is the oneshot of a command it has sent;
the thread takes the commands in turn and settles the oneshot, or keeps it with a socket that
is being connected, and for that one the call has a deadline. -/

namespace SrtBridge

open General

/-- The answer to the command may take its time. -/
def IoCommand.slow (cmd : IoCommand) : Bool := cmd.waitsAt.isSome

def SrtSocket.fromAccepted (id : SocketId) (c : CallEnds) (streamId : ReplyId) : CallTask :=
  .send (.registerSocket id c.recv c.send c.status) <| .send (.getLocalAddr id c.localAddr) <|
    .send (.getPeerAddr id c.peerAddr) <| .send (.getStreamId id streamId) <|
      .await c.localAddr none fun _ => .await c.peerAddr none fun _ =>
        .await streamId none fun _ => .ret (.ok id)

/-- `stats` of a socket or a group: what libsrt gave, or the default. -/
def handleStats (id : SocketId) (reply : ReplyId) :
    Task IoCommand ReplyId Reply Bridge.TokioStep (Option Unit) :=
  .send (.getStats id reply) <| .await reply none fun
    | .answer (.stats (.ok stats)) => .ret (some stats)
    | _ => .ret none

/-- `member_stats` of a socket or a group: the members libsrt listed, or none. -/
def handleMemberStats (id : SocketId) (reply : ReplyId) :
    Task IoCommand ReplyId Reply Bridge.TokioStep (Option Unit) :=
  .send (.getGroupMemberStats id reply) <| .await reply none fun
    | .answer .memberStats => .ret (some ())
    | _ => .ret none

def SrtGroup.addMember (id : SocketId) (ep : GroupEndpoint) (reply : ReplyId) :
    Task IoCommand ReplyId Reply Bridge.TokioStep (Except SrtError Unit) :=
  match ep.check with
  | .error err => .ret (.error err)
  | .ok () =>
    .send (.addGroupMember id ep reply) <| .await reply none fun
      | .answer (.done result) => .ret result
      | _ => .ret (.error .socketFail)

/-- A call of a handle that waits for the I/O thread. -/
inductive HandleCall where
  | opens (call : OpenCall)
  /-- The end of `SrtListener::accept`, with the oneshot for the Stream ID. -/
  | accepts (id : SocketId) (streamId : ReplyId)
  | stats (id : SocketId) (reply : ReplyId)
  | memberStats (id : SocketId) (reply : ReplyId)
  | addMember (id : SocketId) (ep : GroupEndpoint) (reply : ReplyId)

namespace HandleCall

/-- What the call does; of its result, only the socket that it is about. -/
def task (c : CallEnds) : HandleCall → CallTask
  | .opens call => call.task c
  | .accepts id streamId => SrtSocket.fromAccepted id c streamId
  | .stats id reply => (handleStats id reply).map fun _ => .ok id
  | .memberStats id reply => (handleMemberStats id reply).map fun _ => .ok id
  | .addMember id ep reply => (SrtGroup.addMember id ep reply).map fun result => result.map fun _ => id

def replies (c : CallEnds) : HandleCall → List ReplyId
  | .opens _ => c.replies
  | .accepts _ streamId => streamId :: c.replies
  | .stats _ reply | .memberStats _ reply | .addMember _ _ reply => [reply]

def ends (c : CallEnds) : HandleCall → List Bridge.TokioStep
  | .opens call => call.ends c
  | .accepts .. => [.dropPackets c.recv]
  | .stats .. | .memberStats .. | .addMember .. => []

/-- How long it waits at most for a handshake. -/
def patience : HandleCall → Duration
  | .opens (.socket b _) => (connectBudget b.config).getD 0
  | _ => 0

end HandleCall

section Tasks

variable {mine : List ReplyId} {bound n : ℕ} {asked : List IoCommand} {c : CallEnds}

/-- The task is grounded from here on, `asked` being what it has sent. -/
abbrev CallTask.Grounded (mine : List ReplyId) (bound n : ℕ) (asked : List IoCommand) (t : CallTask) :
    Prop :=
  Task.Grounded IoCommand.reply IoCommand.slow mine bound t n asked

theorem closeAndReturn_grounded (id : SocketId) (err : SrtError) (hn : 3 ≤ n) :
    CallTask.Grounded mine bound n asked (closeAndReturn c id err) :=
  ⟨by omega, fun _ h => (by cases h), by omega, show 0 < n - 1 - 1 by omega⟩

theorem awaitId_grounded {reply : ReplyId} {next : SocketId → CallTask} (hn : 2 ≤ n)
    (hmem : reply ∈ mine) (hasked : ∃ cmd ∈ asked, cmd.reply = some reply ∧ cmd.slow = false)
    (h : ∀ id, CallTask.Grounded mine bound (n - 1) asked (next id)) :
    CallTask.Grounded mine bound n asked (awaitId reply next) := by
  obtain ⟨cmd, hcmd, hreply, hslow⟩ := hasked
  have hret (result : Except SrtError SocketId) : CallTask.Grounded mine bound (n - 1) asked (.ret result) :=
    show 0 < n - 1 by omega
  refine ⟨by omega, hmem, ⟨cmd, hcmd, hreply, fun hs => (by rw [hslow] at hs; cases hs)⟩, fun a => ?_⟩
  match a with
  | .answer (.socket (.ok id)) => exact h id
  | .answer (.socket (.error err)) => exact hret (.error err)
  | .elapsed | .dropped | .answer (.done _) | .answer (.state _) | .answer (.addr _)
  | .answer (.streamId _) | .answer (.stats _) | .answer .memberStats => exact hret (.error .socketFail)

theorem awaitDone_grounded {reply : ReplyId} {budget : Option Duration} {fail : SrtError → CallTask}
    {next : CallTask} (hn : 0 < n) (hmem : reply ∈ mine)
    (hasked : ∃ cmd ∈ asked, cmd.reply = some reply ∧
      (cmd.slow = true → ∃ d, budget = some d ∧ d ≤ bound))
    (hfail : ∀ err, CallTask.Grounded mine bound (n - 1) asked (fail err))
    (h : CallTask.Grounded mine bound (n - 1) asked next) :
    CallTask.Grounded mine bound n asked (awaitDone reply budget fail next) := by
  refine ⟨hn, hmem, hasked, fun a => ?_⟩
  match a with
  | .answer (.done (.ok ())) => exact h
  | .answer (.done (.error err)) => exact hfail err
  | .elapsed => exact hfail .timeout
  | .dropped | .answer (.socket _) | .answer (.state _) | .answer (.addr _) | .answer (.streamId _)
  | .answer (.stats _) | .answer .memberStats => exact hfail .socketFail

/-- None of the commands brings one of the oneshots. -/
def Unasked (rs : List ReplyId) (asked : List IoCommand) : Prop :=
  ∀ r ∈ rs, ∀ cmd ∈ asked, cmd.reply ≠ some r

theorem Unasked.send {r : ReplyId} {rs : List ReplyId} {cmd : IoCommand} (h : Unasked (r :: rs) asked)
    (hn : (r :: rs).Nodup) (hcmd : cmd.reply = some r) : Unasked rs (asked ++ [cmd]) := by
  intro r' hr' cmd' hmem
  rcases List.mem_append.mp hmem with hmem | hmem
  · exact h r' (List.mem_cons_of_mem _ hr') cmd' hmem
  · rw [List.mem_singleton.mp hmem, hcmd]
    rintro ⟨⟩
    exact (List.nodup_cons.mp hn).1 hr'

theorem Unasked.sendPlain {rs : List ReplyId} {cmd : IoCommand} (h : Unasked rs asked)
    (hcmd : cmd.reply = none) : Unasked rs (asked ++ [cmd]) := by
  intro r hr cmd' hmem
  rcases List.mem_append.mp hmem with hmem | hmem
  · exact h r hr cmd' hmem
  · rw [List.mem_singleton.mp hmem, hcmd]
    simp

theorem Unasked.grounded {r : ReplyId} {rs : List ReplyId} {cmd : IoCommand} {next : CallTask}
    (h : Unasked (r :: rs) asked) (hn : (r :: rs).Nodup) (hcmd : cmd.reply = some r) (hpos : 0 < n)
    (hmem : r ∈ mine)
    (hnext : Unasked rs (asked ++ [cmd]) → CallTask.Grounded mine bound (n - 1) (asked ++ [cmd]) next) :
    CallTask.Grounded mine bound n asked (.send cmd next) := by
  refine ⟨hpos, fun r' hr' => ?_, hnext (h.send hn hcmd)⟩
  obtain rfl : r = r' := Option.some.inj (hcmd.symm.trans hr')
  exact ⟨hmem, h r (List.mem_cons_self ..)⟩

theorem Unasked.groundedPlain {rs : List ReplyId} {cmd : IoCommand} {next : CallTask}
    (h : Unasked rs asked) (hcmd : cmd.reply = none) (hpos : 0 < n)
    (hnext : Unasked rs (asked ++ [cmd]) → CallTask.Grounded mine bound (n - 1) (asked ++ [cmd]) next) :
    CallTask.Grounded mine bound n asked (.send cmd next) :=
  ⟨hpos, fun r hr => (by rw [hcmd] at hr; cases hr), hnext (h.sendPlain hcmd)⟩

theorem asked_last {cmd : IoCommand} {r : ReplyId} (hreply : cmd.reply = some r) (hslow : cmd.slow = false)
    (budget : Option Duration) : ∃ cmd' ∈ asked ++ [cmd], cmd'.reply = some r ∧
      (cmd'.slow = true → ∃ d, budget = some d ∧ d ≤ bound) :=
  ⟨cmd, by simp, hreply, fun hs => (by rw [hslow] at hs; cases hs)⟩

end Tasks

section Grounded

variable {c : CallEnds} {asked : List IoCommand} {n : ℕ}

theorem SrtSocketBuilder.handshake_grounded (b : SrtSocketBuilder) (remote : SocketAddr) (id : SocketId)
    (hc : c.replies.Nodup) (h : Unasked [c.opened, c.localAddr, c.peerAddr] asked) (hn : 7 ≤ n) :
    CallTask.Grounded c.replies ((connectBudget b.config).getD 0) n asked (b.handshake c remote id) := by
  have hn₃ : [c.opened, c.localAddr, c.peerAddr].Nodup := hc.sublist (by simp [CallEnds.replies])
  have hn₂ : [c.localAddr, c.peerAddr].Nodup := (List.nodup_cons.mp hn₃).2
  have hn₁ : [c.peerAddr].Nodup := (List.nodup_cons.mp hn₂).2
  refine h.grounded hn₃ rfl (by omega) (by simp [CallEnds.replies]) fun h => ?_
  cases hb : connectBudget b.config with
  | none => exact show 0 < n - 1 by omega
  | some budget =>
    refine awaitDone_grounded (by omega) (by simp [CallEnds.replies]) ?_
      (fun err => closeAndReturn_grounded id err (by omega)) ?_
    · exact ⟨_, List.mem_append_right _ (List.mem_singleton_self _), rfl, fun _ => ⟨budget, rfl, le_rfl⟩⟩
    · refine h.grounded hn₂ rfl (by omega) (by simp [CallEnds.replies]) fun h => ?_
      refine h.grounded hn₁ rfl (by omega) (by simp [CallEnds.replies]) fun _ => ?_
      refine ⟨by omega, by simp [CallEnds.replies],
        ⟨.getLocalAddr id c.localAddr, by simp, rfl, fun hs => by cases hs⟩,
        fun _ => ⟨by omega, by simp [CallEnds.replies], asked_last rfl rfl _, fun _ => ?_⟩⟩
      exact show 0 < n - 1 - 1 - 1 - 1 - 1 - 1 by omega

theorem SrtSocketBuilder.connect_grounded (b : SrtSocketBuilder) (remote : SocketAddr)
    (hc : c.replies.Nodup) :
    CallTask.Grounded c.replies ((connectBudget b.config).getD 0) 12 [] (b.connect c remote) := by
  have hnone : Unasked c.replies [] := fun _ _ _ h => absurd h List.not_mem_nil
  have hn₄ : [c.bind, c.opened, c.localAddr, c.peerAddr].Nodup := (List.nodup_cons.mp hc).2
  refine hnone.grounded hc rfl (by decide) (by simp [CallEnds.replies]) fun h => ?_
  refine awaitId_grounded (by decide) (by simp [CallEnds.replies])
    ⟨_, List.mem_singleton_self _, rfl, rfl⟩ fun id => ?_
  refine h.groundedPlain rfl (by decide) fun h => ?_
  cases b.bindAddr with
  | none => exact b.handshake_grounded remote id hc (fun r hr => h r (by simp_all)) (by decide)
  | some addr =>
    refine h.grounded hn₄ rfl (by decide) (by simp [CallEnds.replies]) fun h => ?_
    exact awaitDone_grounded (by decide) (by simp [CallEnds.replies]) (asked_last rfl rfl _)
      (fun err => closeAndReturn_grounded id err (by decide))
      (b.handshake_grounded remote id hc h (by decide))

theorem SrtListenerBuilder.bind_grounded (b : SrtListenerBuilder) (addr : SocketAddr)
    (hc : c.replies.Nodup) : CallTask.Grounded c.replies 0 12 [] (b.bind c addr) := by
  have hnone : Unasked c.replies [] := fun _ _ _ h => absurd h List.not_mem_nil
  have hn₄ : [c.bind, c.opened, c.localAddr, c.peerAddr].Nodup := (List.nodup_cons.mp hc).2
  have hn₃ : [c.opened, c.localAddr, c.peerAddr].Nodup := (List.nodup_cons.mp hn₄).2
  have hfail (err : SrtError) (n : ℕ) (asked : List IoCommand) (hn : 3 ≤ n) :
      CallTask.Grounded c.replies 0 n asked
        (.letGo (.dropPackets c.recv) <| .letGo (.closeAccepts c.accept) <| .ret (.error err)) :=
    ⟨by omega, by omega, show 0 < n - 1 - 1 by omega⟩
  refine hnone.grounded hc rfl (by decide) (by simp [CallEnds.replies]) fun h => ?_
  refine awaitId_grounded (by decide) (by simp [CallEnds.replies])
    ⟨_, List.mem_singleton_self _, rfl, rfl⟩ fun id => ?_
  refine h.groundedPlain rfl (by decide) fun h => ?_
  refine h.groundedPlain rfl (by decide) fun h => ?_
  refine h.grounded hn₄ rfl (by decide) (by simp [CallEnds.replies]) fun h => ?_
  refine awaitDone_grounded (by decide) (by simp [CallEnds.replies]) (asked_last rfl rfl _)
    (fun err => hfail err _ _ (by decide)) ?_
  refine h.grounded hn₃ rfl (by decide) (by simp [CallEnds.replies]) fun h => ?_
  refine awaitDone_grounded (by decide) (by simp [CallEnds.replies]) (asked_last rfl rfl _)
    (fun err => hfail err _ _ (by decide)) ?_
  refine h.grounded (List.nodup_cons.mp hn₃).2 rfl (by decide) (by simp [CallEnds.replies]) fun _ => ?_
  refine ⟨by decide, by simp [CallEnds.replies], asked_last rfl rfl _, fun _ => ⟨by decide, ?_⟩⟩
  exact show 0 < _ by decide

theorem SrtGroupBuilder.connect_grounded (b : SrtGroupBuilder) (hc : c.replies.Nodup) :
    CallTask.Grounded c.replies 0 12 [] (b.connect c) := by
  have hnone : Unasked [c.create, c.opened] [] := fun _ _ _ h => absurd h List.not_mem_nil
  have hn₂ : [c.create, c.opened].Nodup := hc.sublist (by simp [CallEnds.replies])
  unfold SrtGroupBuilder.connect
  cases b.checkEndpoints with
  | error err => exact show 0 < 12 by decide
  | ok =>
    refine hnone.grounded hn₂ rfl (by decide) (by simp [CallEnds.replies]) fun h => ?_
    refine awaitId_grounded (by decide) (by simp [CallEnds.replies])
      ⟨_, List.mem_singleton_self _, rfl, rfl⟩ fun id => ?_
    refine h.groundedPlain rfl (by decide) fun h => ?_
    refine h.grounded (List.nodup_cons.mp hn₂).2 rfl (by decide) (by simp [CallEnds.replies]) fun _ => ?_
    exact awaitDone_grounded (by decide) (by simp [CallEnds.replies]) (asked_last rfl rfl _)
      (fun err => closeAndReturn_grounded id err (by decide)) (show 0 < _ by decide)

theorem SrtSocket.fromAccepted_grounded (id : SocketId) (streamId : ReplyId)
    (hc : (streamId :: c.replies).Nodup) :
    CallTask.Grounded (streamId :: c.replies) 0 12 [] (SrtSocket.fromAccepted id c streamId) := by
  have hn₃ : [c.localAddr, c.peerAddr, streamId].Nodup := by
    simp [CallEnds.replies] at hc
    simp
    tauto
  have hnone : Unasked [c.localAddr, c.peerAddr, streamId] [] := fun _ _ _ h => absurd h List.not_mem_nil
  refine hnone.groundedPlain rfl (by decide) fun h => ?_
  refine h.grounded hn₃ rfl (by decide) (by simp [CallEnds.replies]) fun h => ?_
  refine h.grounded (List.nodup_cons.mp hn₃).2 rfl (by decide) (by simp [CallEnds.replies]) fun h => ?_
  refine h.grounded (by simp) rfl (by decide) (by simp) fun _ => ?_
  refine ⟨by decide, by simp [CallEnds.replies],
    ⟨.getLocalAddr id c.localAddr, by simp, rfl, fun hs => by cases hs⟩, fun _ => ?_⟩
  refine ⟨by decide, by simp [CallEnds.replies],
    ⟨.getPeerAddr id c.peerAddr, by simp, rfl, fun hs => by cases hs⟩, fun _ => ?_⟩
  exact ⟨by decide, by simp, asked_last rfl rfl _, fun _ => show 0 < _ by decide⟩

/-- A task that sends one command, which is answered at once, and returns what comes of it. -/
theorem request_grounded {α : Type*} {cmd : IoCommand} {reply : ReplyId}
    {next : Awaited Reply → Task IoCommand ReplyId Reply Bridge.TokioStep α}
    (hreply : cmd.reply = some reply) (hslow : cmd.slow = false) (hnext : ∀ a, ∃ x, next a = .ret x) :
    Task.Grounded IoCommand.reply IoCommand.slow [reply] 0 (.send cmd <| .await reply none next) 12 [] := by
  refine ⟨by decide, fun key hkey => ⟨?_, List.forall_mem_nil _⟩, by decide, List.mem_singleton_self _,
    asked_last hreply hslow _, fun a => ?_⟩
  · exact List.mem_singleton.mpr (Option.some.inj (hkey.symm.trans hreply))
  · obtain ⟨x, hx⟩ := hnext a
    rw [hx]
    exact show 0 < 10 by decide

theorem SrtGroup.addMember_grounded (id : SocketId) (ep : GroupEndpoint) (reply : ReplyId) :
    Task.Grounded IoCommand.reply IoCommand.slow [reply] 0 (SrtGroup.addMember id ep reply) 12 [] := by
  unfold SrtGroup.addMember
  cases ep.check with
  | error err => exact show 0 < 12 by decide
  | ok =>
    refine request_grounded rfl rfl fun a => ?_
    split
    · exact ⟨_, rfl⟩
    · exact ⟨_, rfl⟩

theorem handleStats_grounded (id : SocketId) (reply : ReplyId) :
    Task.Grounded IoCommand.reply IoCommand.slow [reply] 0 (handleStats id reply) 12 [] := by
  refine request_grounded rfl rfl fun a => ?_
  split
  · exact ⟨_, rfl⟩
  · exact ⟨_, rfl⟩

theorem handleMemberStats_grounded (id : SocketId) (reply : ReplyId) :
    Task.Grounded IoCommand.reply IoCommand.slow [reply] 0 (handleMemberStats id reply) 12 [] := by
  refine request_grounded rfl rfl fun a => ?_
  split
  · exact ⟨_, rfl⟩
  · exact ⟨_, rfl⟩

theorem HandleCall.grounded (call : HandleCall) (hc : (call.replies c).Nodup) :
    CallTask.Grounded (call.replies c) call.patience 12 [] (call.task c) := by
  match call with
  | .opens (.socket b remote) => exact b.connect_grounded remote hc
  | .opens (.listener b addr) => exact b.bind_grounded addr hc
  | .opens (.group b) => exact b.connect_grounded hc
  | .accepts id streamId => exact SrtSocket.fromAccepted_grounded id streamId hc
  | .stats id reply => exact (handleStats_grounded id reply).map _
  | .memberStats id reply => exact (handleMemberStats_grounded id reply).map _
  | .addMember id ep reply => exact (SrtGroup.addMember_grounded id ep reply).map _

end Grounded

/-- A new group is given an id without an entry, if the next command makes one. -/
def System.namesFreshGroup (lib : Libsrt) (s : System) : System.Move → Bool
  | .command => s.commands.head?.all fun cmd => Bridge.namesFreshGroup lib s.bridge (.command cmd)
  | _ => true

def System.Move.brings (mine : List ReplyId) : System.Move → Bool
  | .send cmd => cmd.reply.any (· ∈ mine)
  | _ => false

def System.Move.takes : System.Move → Bool
  | .command => true
  | _ => false

/-- Where the oneshot `r` is: with its call still, or with a command that has fewer than `k` others
before it, or with a command that the thread has carried out. -/
inductive Held (r : ReplyId) (s : System) (k : ℕ) : Option IoCommand → Prop where
  | kept (hq : ∀ cmd ∈ s.commands, cmd.reply ≠ some r) (hu : Bridge.Unseen r s.bridge) : Held r s k none
  | queued {cmd : IoCommand} (pre post : List IoCommand) (hs : s.commands = pre ++ cmd :: post)
      (hcmd : cmd.reply = some r) (hk : pre.length < k)
      (hother : ∀ cmd' ∈ pre ++ post, cmd'.reply ≠ some r) (hu : Bridge.Unseen r s.bridge) :
      Held r s k (some cmd)
  | served {cmd : IoCommand} (hq : ∀ cmd' ∈ s.commands, cmd'.reply ≠ some r)
      (ha : s.bridge.running = true → Bridge.Accounted r cmd.waitsAt 1 s.bridge) : Held r s k (some cmd)

section Held

variable {lib : Libsrt} {r : ReplyId} {s : System} {k : ℕ} {sent : Option IoCommand} {a : Bridge.Action}

theorem accounted_act {place : Option SocketId} {n : ℕ} {b : Bridge} (h : Bridge.Accounted r place n b)
    (ha : a.reply ≠ some r)
    (hf : ∀ step, a = .io step → Bridge.namesFreshGroup lib b step = true) :
    Bridge.Accounted r place n (b.act lib a) := by
  have hmeets : Bridge.StepsMeet lib (fun b s => Bridge.namesFreshGroup lib b s = true) b [a] := by
    refine ⟨?_, trivial⟩
    cases a with
    | io step => exact fun _ => hf step rfl
    | tokio | elapse => trivial
  exact Bridge.accounted_run h (by simpa using ha) hmeets

/-- Something happens to the thread that is no command. -/
theorem Held.act (h : Held r s k sent) (ha : ∀ cmd, a ≠ .io (.command cmd)) :
    Held r (s.act lib a) k sent := by
  have hreply : a.reply ≠ some r := by
    cases a with
    | io step =>
      cases step with
      | command cmd => exact absurd rfl (ha cmd)
      | _ => simp [Bridge.Action.reply]
    | tokio | elapse => simp [Bridge.Action.reply]
  have hf (step) (hs : a = .io step) : Bridge.namesFreshGroup lib s.bridge step = true := by
    cases step with
    | command cmd => exact absurd hs (ha cmd)
    | _ => rfl
  cases h with
  | kept hq hu => exact .kept hq (accounted_act hu hreply hf)
  | queued pre post hs hcmd hk hother hu =>
    exact .queued pre post hs hcmd hk hother (accounted_act hu hreply hf)
  | served hq hacc =>
    exact .served hq fun hr => accounted_act (hacc (Bridge.running_of_act hr)) hreply hf

theorem Held.send (h : Held r s k sent) {cmd : IoCommand} (hcmd : cmd.reply ≠ some r) :
    Held r (s.send cmd) k sent := by
  have happend {cmds : List IoCommand} (hq : ∀ cmd' ∈ cmds, cmd'.reply ≠ some r) :
      ∀ cmd' ∈ cmds ++ [cmd], cmd'.reply ≠ some r := by
    intro cmd' hmem
    rcases List.mem_append.mp hmem with hmem | hmem
    · exact hq cmd' hmem
    · exact List.mem_singleton.mp hmem ▸ hcmd
  cases h with
  | kept hq hu => exact .kept (happend hq) hu
  | @queued own pre post hs hown hk hother hu =>
    refine .queued pre (post ++ [cmd]) ?_ hown hk ?_ hu
    · show s.commands ++ [cmd] = _
      rw [hs, List.append_assoc, List.cons_append]
    · rw [← List.append_assoc]
      exact happend hother
  | served hq hacc => exact .served (happend hq) hacc

theorem Held.take (h : Held r s k sent) {cmd : IoCommand} {rest : List IoCommand}
    (hs : s.commands = cmd :: rest)
    (hf : Bridge.namesFreshGroup lib s.bridge (.command cmd) = true) :
    Held r ⟨s.bridge.act lib (.io (.command cmd)), rest⟩ (k - 1) sent := by
  have hf' (step) (hstep : Bridge.Action.io (.command cmd) = .io step) :
      Bridge.namesFreshGroup lib s.bridge step = true := by
    obtain rfl := Bridge.Action.io.inj hstep
    exact hf
  cases h with
  | kept hq hu =>
    have hq' : ∀ cmd' ∈ rest, cmd'.reply ≠ some r :=
      fun cmd' h' => hq cmd' (hs ▸ List.mem_cons_of_mem _ h')
    exact .kept hq' (accounted_act (a := .io (.command cmd)) hu (hq cmd (hs ▸ List.mem_cons_self ..)) hf')
  | @queued own pre post hs' hown hk hother hu =>
    cases pre with
    | nil =>
      obtain ⟨rfl, rfl⟩ := List.cons.inj (hs.symm.trans hs')
      refine .served hother fun hr => ?_
      have hrun : s.bridge.running = true := Bridge.running_of_act hr
      have hdone := Bridge.processCommand_accounted lib hown hu
      rw [show s.bridge.act lib (.io (.command cmd)) = _ from if_pos hrun]
      exact ⟨hdone.waits, hdone.total⟩
    | cons first pre =>
      obtain ⟨rfl, rfl⟩ := List.cons.inj (hs.symm.trans hs')
      have hfirst : cmd.reply ≠ some r := hother cmd (by simp)
      refine .queued pre post rfl hown ?_ (fun cmd' h' => hother cmd' (List.mem_cons_of_mem _ h'))
        (accounted_act (a := .io (.command cmd)) hu hfirst hf')
      have hlen : pre.length + 1 < k := hk
      omega
  | served hq hacc =>
    have hq' : ∀ cmd' ∈ rest, cmd'.reply ≠ some r :=
      fun cmd' h' => hq cmd' (hs ▸ List.mem_cons_of_mem _ h')
    exact .served hq' fun hr => accounted_act (a := .io (.command cmd)) (hacc (Bridge.running_of_act hr))
      (hq cmd (hs ▸ List.mem_cons_self ..)) hf'

theorem Held.move (h : Held r s k sent) {m : System.Move} {mine : List ReplyId} (hr : r ∈ mine)
    (hm : m.brings mine = false) (hf : s.namesFreshGroup lib m = true) :
    Held r (s.move lib m) (k - m.takes.toNat) sent := by
  cases m with
  | command =>
    cases hs : s.commands with
    | nil =>
      have hsame : s.move lib .command = s := by
        unfold System.move System.takeCommand
        rw [hs]
      rw [hsame]
      cases h with
      | kept hq hu => exact .kept hq hu
      | queued pre post hs' => simp [hs] at hs'
      | served hq hacc => exact .served hq hacc
    | cons cmd rest =>
      have hmove : s.move lib .command = ⟨s.bridge.act lib (.io (.command cmd)), rest⟩ := by
        unfold System.move System.takeCommand
        rw [hs]
        rfl
      rw [hmove]
      unfold System.namesFreshGroup at hf
      rw [hs] at hf
      exact h.take hs hf
  | other a =>
    by_cases hcmd : (a.ioStep).any Bridge.IoStep.isCommand = true
    · rw [show s.move lib (.other a) = s from if_pos hcmd]
      exact h
    · rw [show s.move lib (.other a) = s.act lib a from if_neg hcmd]
      exact h.act fun cmd he => hcmd (he ▸ rfl)
  | send cmd =>
    refine h.send fun hreply => ?_
    simp [System.Move.brings, hreply, hr] at hm

/-- The call sends the command that brings the oneshot. -/
theorem Held.bring (h : Held r s k none) {cmd : IoCommand} (hcmd : cmd.reply = some r) :
    Held r (s.send cmd) (s.send cmd).commands.length (some cmd) := by
  cases h with
  | kept hq hu =>
    refine .queued s.commands [] rfl hcmd ?_ (by simpa using hq) hu
    simp [System.send]

theorem Held.whole (h : Held r s k sent) : Held r s s.commands.length sent := by
  cases h with
  | kept hq hu => exact .kept hq hu
  | queued pre post hs hcmd hk hother hu =>
    refine .queued pre post hs hcmd ?_ hother hu
    rw [hs, List.length_append, List.length_cons]
    omega
  | served hq hacc => exact .served hq hacc

/-- With none before it, a command has been carried out: its oneshot has been settled, or it is kept
with a socket that is being connected. -/
theorem Held.over {cmd : IoCommand} (h : Held r s 0 (some cmd)) :
    s.bridge.oneshot r ≠ none ∨ cmd.slow = true := by
  cases h with
  | queued _ _ _ _ hk => exact absurd hk (Nat.not_lt_zero _)
  | served hq hacc =>
    cases hr : s.bridge.running with
    | false =>
      refine .inl ?_
      unfold Bridge.oneshot
      simp [hr]
    | true =>
      rcases (hacc hr).cases with ⟨hone, -⟩ | ⟨-, id, hplace, -⟩
      · obtain ⟨x, hx, hset⟩ : ∃ x ∈ s.bridge.trace, x.settles r = true :=
          List.countP_pos_iff.mp (by omega)
        refine .inl fun hnone => ?_
        have hno := List.findSome?_eq_none_iff.mp (Option.or_eq_none_iff.mp hnone).1 x hx
        cases x <;> simp_all [IoEvent.settles, IoEvent.outcome]
      · exact .inr (by simp [IoCommand.slow, hplace])

end Held

/-- The command that brings the oneshot `r`, among those the call has sent. -/
inductive Asked (r : ReplyId) (asked : List IoCommand) : Option IoCommand → Prop where
  | no (h : ∀ cmd ∈ asked, cmd.reply ≠ some r) : Asked r asked none
  | yes {cmd : IoCommand} (h : cmd ∈ asked) (hr : cmd.reply = some r) : Asked r asked (some cmd)

def CallMove.takes : CallMove → Bool
  | .system m => m.takes
  | _ => false

namespace Calling

/-- No other task has a oneshot of the call, and libsrt gives a new group an id without an entry. -/
def Respected (lib : Libsrt) (mine : List ReplyId) (o : Calling) : CallMove → Prop
  | .system m => m.brings mine = false ∧ o.system.namesFreshGroup lib m = true
  | _ => True

instance (lib : Libsrt) (mine : List ReplyId) (o : Calling) (m : CallMove) :
    Decidable (o.Respected lib mine m) := by
  cases m with
  | system m => exact inferInstanceAs (Decidable (_ ∧ _))
  | advance | expire | drop => exact inferInstanceAs (Decidable True)

/-- A call that has yet to take `n` steps at most, `asked` being what it has sent. -/
structure Stands (mine : List ReplyId) (bound n k : ℕ) (asked : List IoCommand) (t : CallTask)
    (since : Instant) (s : System) : Prop where
  task : CallTask.Grounded mine bound n asked t
  since_le : since ≤ s.bridge.clock
  held : ∀ r ∈ mine, ∀ sent, Asked r asked sent → Held r s k sent

/-- The call is over, or `n` steps from it at most. -/
def Near (mine : List ReplyId) (bound n : ℕ) (o : Calling) : Prop :=
  ∀ t since, o.stage = .running t since →
    ∃ asked, Stands mine bound n o.system.commands.length asked t since o.system

section Near

variable {lib : Libsrt} {ends : List Bridge.TokioStep} {mine : List ReplyId} {bound n k : ℕ}
  {asked : List IoCommand} {t : CallTask} {since : Instant} {s : System} {o : Calling}

theorem clock_move_le (lib : Libsrt) (s : System) (m : System.Move) :
    s.bridge.clock ≤ (s.move lib m).bridge.clock := by
  rcases System.move_cases lib s m with ⟨more, hmove, -⟩ | ⟨a, -, -, hmove⟩ | ⟨cmd, rest, -, hmove⟩
  · rw [hmove]
    exact le_rfl
  · rw [hmove]
    exact Bridge.act_clock_le lib _ a
  · rw [hmove]
    exact Bridge.act_clock_le lib _ _

theorem Stands.near (h : Stands mine bound n k asked t since o.system)
    (hs : o.stage = .running t since) : Near mine bound n o := by
  intro t' since' hs'
  obtain ⟨rfl, rfl⟩ := CallStage.running.inj (hs.symm.trans hs')
  exact ⟨asked, h.task, h.since_le, fun r hr sent hsent => (h.held r hr sent hsent).whole⟩

theorem near_over (h : ∀ t since, o.stage ≠ .running t since) : Near mine bound n o :=
  fun t since hs => absurd hs (h t since)

theorem Near.mono {m : ℕ} (h : Near mine bound n o) (hm : n ≤ m) : Near mine bound m o := by
  intro t since hs
  obtain ⟨asked, hstands⟩ := h t since hs
  exact ⟨asked, hstands.task.mono hm, hstands.since_le, hstands.held⟩

theorem Stands.system (h : Stands mine bound n k asked t since s) {m : System.Move}
    (hm : m.brings mine = false) (hf : s.namesFreshGroup lib m = true) :
    Stands mine bound n (k - m.takes.toNat) asked t since (s.move lib m) where
  task := h.task
  since_le := h.since_le.trans (clock_move_le lib s m)
  held r hr sent hsent := (h.held r hr sent hsent).move hr hm hf

variable (lib ends) in
/-- The call takes its next step, unless what it waits for has not come. -/
theorem Stands.advance (h : Stands mine bound n k asked t since o.system)
    (hs : o.stage = .running t since) :
    (∃ key budget next, t = .await key budget next ∧ o.system.bridge.oneshot key = none ∧
      o.step lib ends .advance = o) ∨ Near mine bound (n - 1) (o.step lib ends .advance) := by
  have hheld := h.held
  cases t with
  | send cmd next =>
    have hstep : o.step lib ends .advance =
        ⟨o.system.send cmd, .running next o.system.bridge.clock⟩ := by
      unfold step
      rw [hs]
    obtain ⟨-, hcmd, hnext⟩ := h.task
    have hnow : Stands mine bound (n - 1) (o.system.send cmd).commands.length (asked ++ [cmd]) next
        o.system.bridge.clock (o.system.send cmd) := by
      refine ⟨hnext, le_rfl, fun r hr sent hsent => ?_⟩
      cases hsent with
      | no hno =>
        have hfirst : ∀ cmd' ∈ asked, cmd'.reply ≠ some r :=
          fun cmd' h' => hno cmd' (List.mem_append_left _ h')
        exact ((hheld r hr none (.no hfirst)).send (hno cmd (by simp))).whole
      | @yes own hown hreply =>
        by_cases hr' : cmd.reply = some r
        · have hfirst := (hcmd r hr').2
          rcases List.mem_append.mp hown with hown | hown
          · exact absurd hreply (hfirst own hown)
          · obtain rfl := List.mem_singleton.mp hown
            exact (hheld r hr none (.no hfirst)).bring hr'
        · rcases List.mem_append.mp hown with hown | hown
          · exact ((hheld r hr _ (.yes hown hreply)).send hr').whole
          · exact absurd (List.mem_singleton.mp hown ▸ hreply) hr'
    rw [hstep]
    exact .inr (hnow.near rfl)
  | await key budget next =>
    cases ho : o.system.bridge.oneshot key with
    | none =>
      refine .inl ⟨key, budget, next, rfl, ho, ?_⟩
      unfold step
      rw [hs]
      dsimp only
      rw [ho]
    | some a =>
      have hstep : o.step lib ends .advance = { o with stage := .running (next a) o.system.bridge.clock } := by
        unfold step
        rw [hs]
        dsimp only
        rw [ho]
      rw [hstep]
      exact .inr (Stands.near (k := k) ⟨h.task.2.2.2 a, le_rfl, hheld⟩ rfl)
  | letGo chan next =>
    have hstep : o.step lib ends .advance =
        ⟨o.system.act lib (.tokio chan), .running next o.system.bridge.clock⟩ := by
      unfold step
      rw [hs]
    have hnow : Stands mine bound (n - 1) k asked next o.system.bridge.clock
        (o.system.act lib (.tokio chan)) :=
      ⟨h.task.2, Bridge.act_clock_le lib _ _,
        fun r hr sent hsent => (hheld r hr sent hsent).act fun _ => nofun⟩
    rw [hstep]
    exact .inr (hnow.near rfl)
  | panic =>
    refine .inr (near_over fun t since => ?_)
    unfold step
    rw [hs]
    simp
  | ret result =>
    refine .inr (near_over fun t since => ?_)
    unfold step
    rw [hs]
    simp

variable (lib ends) in
/-- Its deadline passes, unless it has not come or there is none. -/
theorem Stands.expire (h : Stands mine bound n k asked t since o.system)
    (hs : o.stage = .running t since) :
    (o.step lib ends .expire = o ∧ ∀ key d next, t = .await key (some d) next →
      o.system.bridge.clock < since + d) ∨ Near mine bound (n - 1) (o.step lib ends .expire) := by
  cases t with
  | await key budget next =>
    cases budget with
    | none =>
      refine .inl ⟨?_, fun _ _ _ => nofun⟩
      unfold step
      rw [hs]
    | some budget =>
      by_cases hlate : since + budget ≤ o.system.bridge.clock
      · have hstep : o.step lib ends .expire =
            { o with stage := .running (next .elapsed) o.system.bridge.clock } := by
          unfold step
          rw [hs]
          exact if_pos hlate
        rw [hstep]
        exact .inr (Stands.near (k := k) ⟨h.task.2.2.2 .elapsed, le_rfl, h.held⟩ rfl)
      · refine .inl ⟨?_, ?_⟩
        · unfold step
          rw [hs]
          exact if_neg hlate
        · rintro _ _ _ ⟨⟩
          exact Nat.lt_of_not_le hlate
  | send | letGo | panic | ret =>
    refine .inl ⟨?_, fun _ _ _ => nofun⟩
    unfold step
    rw [hs]

/-- A move of the call's own: it stays where it is, or comes nearer. -/
theorem Stands.own (h : Stands mine bound n k asked t since o.system) (hs : o.stage = .running t since)
    {m : CallMove} (hm : ∀ m', m ≠ .system m') :
    o.step lib ends m = o ∨ Near mine bound (n - 1) (o.step lib ends m) := by
  cases m with
  | system m => exact absurd rfl (hm m)
  | advance => exact (h.advance lib ends hs).imp_left fun ⟨_, _, _, _, _, he⟩ => he
  | expire => exact (h.expire lib ends hs).imp_left And.left
  | drop =>
    cases t with
    | await key budget next =>
      refine .inr (near_over fun t since => ?_)
      unfold step
      rw [hs]
      simp
    | send | letGo | panic | ret =>
      refine .inl ?_
      unfold step
      rw [hs]

theorem Near.kept (h : Near mine bound n o) {m : CallMove} (hm : Respected lib mine o m) :
    Near mine bound n (o.step lib ends m) := by
  cases hs : o.stage with
  | running t since =>
    obtain ⟨asked, hstands⟩ := h t since hs
    have hown {m : CallMove} (hm : ∀ m', m ≠ .system m') : Near mine bound n (o.step lib ends m) := by
      rcases hstands.own hs hm with he | hnear
      · rw [he]
        exact h
      · exact hnear.mono (Nat.sub_le n 1)
    cases m with
    | system m => exact Stands.near (o := o.step lib ends (.system m)) (hstands.system hm.1 hm.2) hs
    | advance | expire | drop => exact hown fun _ => nofun
  | returned | panicked | dropped =>
    refine near_over fun t since => ?_
    cases m <;> simp [Calling.step, hs]

/-- While the call stays at one step, the commands before its own are taken. -/
theorem Stands.front {moves : List CallMove} (h : Stands mine bound n k asked t since o.system)
    (hs : o.stage = .running t since) (hm : Along (step lib ends) (Respected lib mine) o moves) :
    let o' := moves.foldl (step lib ends) o
    (o'.stage = .running t since ∧
      Stands mine bound n (k - moves.countP CallMove.takes) asked t since o'.system) ∨
      Near mine bound (n - 1) o' := by
  intro o'
  induction moves generalizing o k with
  | nil => exact .inl ⟨hs, h⟩
  | cons m moves ih =>
    have hcount : k - (m :: moves).countP CallMove.takes =
        k - (CallMove.takes m).toNat - moves.countP CallMove.takes := by
      rw [List.countP_cons, Nat.sub_sub, Nat.add_comm]
      cases CallMove.takes m <;> rfl
    have hown (hm' : ∀ m', m ≠ .system m') :
        ((o.step lib ends m).stage = .running t since ∧
          Stands mine bound n (k - (CallMove.takes m).toNat) asked t since (o.step lib ends m).system) ∨
          Near mine bound (n - 1) (o.step lib ends m) := by
      rcases h.own hs hm' with he | hnear
      · have hplain : CallMove.takes m = false := by
          cases m with
          | system m => exact absurd rfl (hm' m)
          | advance | expire | drop => rfl
        rw [he, hplain]
        exact .inl ⟨hs, h⟩
      · exact .inr hnear
    have hone : ((o.step lib ends m).stage = .running t since ∧
        Stands mine bound n (k - (CallMove.takes m).toNat) asked t since (o.step lib ends m).system) ∨
        Near mine bound (n - 1) (o.step lib ends m) := by
      cases m with
      | system m => exact .inl ⟨hs, h.system hm.1.1 hm.1.2⟩
      | advance | expire | drop => exact hown fun _ => nofun
    rw [hcount]
    rcases hone with ⟨hs', h'⟩ | hnear
    · exact ih h' hs' hm.2
    · exact .inr (hm.2.invariant (fun _ _ hm' hnear => hnear.kept hm') hnear)

end Near

/-- Some moves, and then the call is polled: for an answer, and for its deadline. -/
def round (lib : Libsrt) (ends : List Bridge.TokioStep) (o : Calling) (moves : List CallMove) : Calling :=
  (moves ++ [CallMove.advance, CallMove.expire]).foldl (step lib ends) o

/-- In the moves, the thread takes as many commands as had been sent before, and the time goes by
that the call is willing to wait. -/
structure FairRound (lib : Libsrt) (ends : List Bridge.TokioStep) (mine : List ReplyId) (bound : ℕ)
    (o : Calling) (moves : List CallMove) : Prop where
  respected : Along (step lib ends) (Respected lib mine) o moves
  taken : o.system.commands.length ≤ moves.countP CallMove.takes
  waited : o.system.bridge.clock + bound ≤ (moves.foldl (step lib ends) o).system.bridge.clock

instance (lib : Libsrt) (ends : List Bridge.TokioStep) (mine : List ReplyId) (bound : ℕ) (o : Calling)
    (moves : List CallMove) : Decidable (FairRound lib ends mine bound o moves) :=
  decidable_of_iff (_ ∧ _ ∧ _) ⟨fun h => ⟨h.1, h.2.1, h.2.2⟩, fun h => ⟨h.respected, h.taken, h.waited⟩⟩

section Rounds

variable {lib : Libsrt} {ends : List Bridge.TokioStep} {mine : List ReplyId} {bound n : ℕ} {o : Calling}

theorem Near.nearer {moves : List CallMove} (h : Near mine bound n o)
    (hf : FairRound lib ends mine bound o moves) : Near mine bound (n - 1) (o.round lib ends moves) := by
  have hrespect : Along (step lib ends) (Respected lib mine) (moves.foldl (step lib ends) o)
      [.advance, .expire] := ⟨trivial, trivial, trivial⟩
  have hrest (hnear : Near mine bound (n - 1) (moves.foldl (step lib ends) o)) :
      Near mine bound (n - 1) (o.round lib ends moves) := by
    unfold Calling.round
    rw [List.foldl_append]
    exact hrespect.invariant (fun _ _ hm hnear => hnear.kept hm) hnear
  cases hs : o.stage with
  | running t since =>
    obtain ⟨asked, hstands⟩ := h t since hs
    rcases hstands.front hs hf.respected with ⟨hs', h'⟩ | hnear
    · unfold Calling.round
      rw [List.foldl_append]
      rcases h'.advance lib ends hs' with ⟨key, budget, next, rfl, hnone, he⟩ | hnear
      · rw [List.foldl_cons, he, List.foldl_cons, List.foldl_nil]
        rcases h'.expire lib ends hs' with ⟨-, hlate⟩ | hnear
        · -- the command has been carried out, so its answer is that of a handshake
          obtain ⟨-, hmine, ⟨cmd, hcmd, hreply, hbudget⟩, -⟩ := h'.task
          have hheld := h'.held key hmine (some cmd) (.yes hcmd hreply)
          rw [Nat.sub_eq_zero_of_le hf.taken] at hheld
          obtain ⟨d, rfl, hd⟩ := hbudget (hheld.over.resolve_left (not_not.mpr hnone))
          have hsince : since + d ≤ o.system.bridge.clock + bound := Nat.add_le_add hstands.since_le hd
          exact absurd (hlate key d next rfl) (Nat.not_lt_of_le (hsince.trans hf.waited))
        · exact hnear
      · rw [List.foldl_cons, List.foldl_cons, List.foldl_nil]
        exact hnear.kept (m := .expire) trivial
    · exact hrest hnear
  | returned | panicked | dropped =>
    have hnear : Near mine bound (n - 1) o := near_over fun t since => by simp [hs]
    exact hrest (hf.respected.invariant (fun _ _ hm hnear => hnear.kept hm) hnear)

end Rounds

end Calling

def HandleCall.start (call : HandleCall) (c : CallEnds) : Calling := ⟨.start, .running (call.task c) 0⟩

/-- Whatever the other tasks, the thread and libsrt do, in twelve rounds the call is over: rounds in each
of which the thread has taken the commands that were sent before it, or dropped them in its end, and
the deadline of a handshake has passed if libsrt says nothing of it. -/
theorem calls_end (lib : Libsrt) (call : HandleCall) (c : CallEnds) (hc : (call.replies c).Nodup)
    (rounds : List (List CallMove)) (hlen : 12 ≤ rounds.length)
    (hfair : Along (Calling.round lib (call.ends c))
      (Calling.FairRound lib (call.ends c) (call.replies c) call.patience) (call.start c) rounds)
    (t : CallTask) (since : Instant) :
    (rounds.foldl (Calling.round lib (call.ends c)) (call.start c)).stage ≠ .running t since := by
  have hrounds {n : ℕ} {o : Calling} {rounds : List (List CallMove)}
      (hnear : Calling.Near (call.replies c) call.patience n o)
      (hfair : Along (Calling.round lib (call.ends c))
        (Calling.FairRound lib (call.ends c) (call.replies c) call.patience) o rounds) :
      Calling.Near (call.replies c) call.patience (n - rounds.length)
        (rounds.foldl (Calling.round lib (call.ends c)) o) := by
    induction rounds generalizing n o with
    | nil => exact hnear
    | cons moves rounds ih =>
      rw [List.length_cons, Nat.add_comm, ← Nat.sub_sub]
      exact ih (hnear.nearer hfair.1) hfair.2
  have hstart : Calling.Near (call.replies c) call.patience 12 (call.start c) := by
    have hnow : Calling.Stands (call.replies c) call.patience 12 0 [] (call.task c) 0 .start := by
      refine ⟨call.grounded hc, Nat.zero_le _, fun r hr sent hsent => ?_⟩
      cases hsent with
      | no => exact .kept (List.forall_mem_nil _) (Bridge.unseen_iff.mpr ⟨fun _ => nofun, rfl⟩)
      | yes hmem => cases hmem
    exact hnow.near rfl
  intro hrun
  obtain ⟨asked, hstands⟩ := hrounds hstart hfair t since hrun
  rw [Nat.sub_eq_zero_of_le hlen] at hstands
  exact Nat.lt_irrefl 0 hstands.task.pos

/-- A peer that never answers: the call of a socket returns with its deadline. -/
theorem calls_end_silent :
    let lib := Libsrt.reading fun _ => .connecting
    let call := HandleCall.opens (.socket ⟨{}, none⟩ (.v4 0x7f000001 9000))
    let c : CallEnds := ⟨0, 1, 2, 3, 0, 1, 2, 3, 4⟩
    let moves : List CallMove :=
      [.system .command, .system .command, .system .command, .system (.other (.elapse (fromSecs 5)))]
    ∀ t since,
      ((List.replicate 12 moves).foldl (Calling.round lib (call.ends c)) (call.start c)).stage ≠
        .running t since :=
  calls_end _ _ _ (by decide) _ (by decide) (by decide +kernel)

end SrtBridge
