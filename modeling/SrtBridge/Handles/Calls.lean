import SrtBridge.Bridge.Receives
import SrtBridge.Handles.Builders

/-! A call that opens something, among everything else that happens: the call runs from one wait to
the next, can be dropped at each, and the I/O thread carries out its commands in the order they
were sent, with anything else in between. -/

namespace SrtBridge

open General

def IoCommand.subject : IoCommand → Option SocketId
  | .bind id _ _ | .listen id _ _ | .connect id _ _ | .registerSocket id _ _ _
  | .registerListener id _ _ | .getStats id _ | .getState id _ | .getPeerAddr id _
  | .getLocalAddr id _ | .getStreamId id _ | .close id | .connectGroup id _ _
  | .addGroupMember id _ _ | .getGroupMemberStats id _ => some id
  | .createSocket .. | .createGroup .. | .shutdown => none

/-- The command can put an entry of its socket into the map. -/
def IoCommand.registers : IoCommand → Bool
  | .registerSocket .. | .registerListener .. => true
  | _ => false

/-- What a oneshot's receiver gets from the event, if anything. -/
def IoEvent.outcome (reply : ReplyId) : IoEvent → Option (Awaited Reply)
  | .answered i a => if i = reply then some (.answer a) else none
  | .unanswered i => if i = reply then some .dropped else none
  | _ => none

/-- What a oneshot's receiver gets, once it does; a thread that has shut down answers nothing. -/
def Bridge.oneshot (b : Bridge) (reply : ReplyId) : Option (Awaited Reply) :=
  (b.trace.findSome? (IoEvent.outcome reply)).or (if b.running then none else some .dropped)

inductive CallStage where
  /-- `since`: when the call took its last step. -/
  | running (task : CallTask) (since : Instant)
  | returned (result : Except SrtError SocketId)
  | panicked
  /-- The call's future has been dropped. -/
  | dropped

/-- A call, and the process around it. -/
structure Calling where
  system : System
  stage : CallStage

inductive CallMove where
  | system (m : System.Move)
  /-- The call takes its next step, if it need not wait. -/
  | advance
  /-- Its deadline passes. -/
  | expire
  /-- Its future is dropped while it waits. -/
  | drop

namespace Calling

def letGo (lib : Libsrt) (ends : List Bridge.TokioStep) (s : System) : System :=
  ends.foldl (fun s t => s.act lib (.tokio t)) s

/-- One move; `ends`: what is let go of when the future is dropped. -/
def step (lib : Libsrt) (ends : List Bridge.TokioStep) (o : Calling) : CallMove → Calling
  | .system m => { o with system := o.system.move lib m }
  | .advance =>
    let now := o.system.bridge.clock
    match o.stage with
    | .running (.send cmd next) _ => ⟨o.system.send cmd, .running next now⟩
    | .running (.await reply _ next) _ =>
      match o.system.bridge.oneshot reply with
      | some a => { o with stage := .running (next a) now }
      | none => o
    | .running (.letGo t next) _ => ⟨o.system.act lib (.tokio t), .running next now⟩
    | .running .panic _ => ⟨letGo lib ends o.system, .panicked⟩
    | .running (.ret result) _ => { o with stage := .returned result }
    | _ => o
  | .expire =>
    let now := o.system.bridge.clock
    match o.stage with
    | .running (.await _ (some budget) next) since =>
      if since + budget ≤ now then { o with stage := .running (next .elapsed) now } else o
    | _ => o
  | .drop =>
    match o.stage with
    | .running (.await ..) _ => ⟨letGo lib ends o.system, .dropped⟩
    | _ => o

end Calling

def OpenCall.ends (call : OpenCall) (c : CallEnds) : List Bridge.TokioStep :=
  match call with
  | .socket _ _ | .group _ => [.dropPackets c.recv]
  | .listener _ _ => [.dropPackets c.recv, .closeAccepts c.accept]

def OpenCall.run (lib : Libsrt) (call : OpenCall) (c : CallEnds) (moves : List CallMove) : Calling :=
  moves.foldl (Calling.step lib (call.ends c)) ⟨.start, .running (call.task c) 0⟩

/-- The command is about the socket `id`, or carries a oneshot of the call. -/
def CallEnds.owns (c : CallEnds) (id : SocketId) (cmd : IoCommand) : Bool :=
  cmd.subject = some id || cmd.reply.any (· ∈ c.replies)

/-- Only the call itself sends commands about the socket `id`, or with its oneshots. -/
def CallEnds.Respected (c : CallEnds) (id : SocketId) : CallMove → Prop
  | .system (.send cmd) => c.owns id cmd = false
  | _ => True

namespace Bridge

section Serves

variable (lib : Libsrt) (mine : IoCommand → Bool)

/-- The action carries out none of the commands in question. -/
def Apart (mine : IoCommand → Bool) (a : Action) : Prop :=
  ∀ cmd, a = .io (.command cmd) → mine cmd = false

/-- The thread carries out the commands one after the other, with anything else in between. -/
def Serves : Bridge → List IoCommand → Bridge → Prop
  | b, [], b' => ∃ as, (∀ a ∈ as, Apart mine a) ∧ b' = b.run lib as
  | b, cmd :: cmds, b' => ∃ as, (∀ a ∈ as, Apart mine a) ∧
      Serves ((b.run lib as).act lib (.io (.command cmd))) cmds b'

variable {lib mine} {b b' : Bridge} {cmds : List IoCommand}

theorem run_append (b : Bridge) (as as' : List Action) :
    b.run lib (as ++ as') = (b.run lib as).run lib as' := List.foldl_append

theorem Serves.acts (h : Serves lib mine b cmds b') {as : List Action}
    (ha : ∀ a ∈ as, Apart mine a) : Serves lib mine b cmds (b'.run lib as) := by
  induction cmds generalizing b with
  | nil =>
    obtain ⟨as₀, h₀, rfl⟩ := h
    refine ⟨as₀ ++ as, fun a hmem => ?_, (run_append ..).symm⟩
    exact (List.mem_append.mp hmem).elim (h₀ a) (ha a)
  | cons cmd cmds ih =>
    obtain ⟨as₀, h₀, h⟩ := h
    exact ⟨as₀, h₀, ih h⟩

theorem Serves.take (h : Serves lib mine b cmds b') (cmd : IoCommand) :
    Serves lib mine b (cmds ++ [cmd]) (b'.act lib (.io (.command cmd))) := by
  induction cmds generalizing b with
  | nil =>
    obtain ⟨as, ha, rfl⟩ := h
    exact ⟨as, ha, [], List.forall_mem_nil _, rfl⟩
  | cons cmd' cmds ih =>
    obtain ⟨as, ha, h⟩ := h
    exact ⟨as, ha, ih h⟩

theorem Serves.split {cmds' : List IoCommand} (h : Serves lib mine b (cmds ++ cmds') b') :
    ∃ b₁, Serves lib mine b cmds b₁ ∧ Serves lib mine b₁ cmds' b' := by
  induction cmds generalizing b with
  | nil => exact ⟨b, ⟨[], List.forall_mem_nil _, rfl⟩, h⟩
  | cons cmd cmds ih =>
    obtain ⟨as, ha, h⟩ := h
    obtain ⟨b₁, h₁, h₂⟩ := ih h
    exact ⟨b₁, ⟨as, ha, h₁⟩, h₂⟩

theorem Serves.run (h : Serves lib mine b cmds b') : ∃ as, b' = b.run lib as ∧
    ∀ a ∈ as, Apart mine a ∨ ∃ cmd ∈ cmds, a = .io (.command cmd) := by
  induction cmds generalizing b with
  | nil =>
    obtain ⟨as, ha, rfl⟩ := h
    exact ⟨as, rfl, fun a hmem => .inl (ha a hmem)⟩
  | cons cmd cmds ih =>
    obtain ⟨as, ha, h⟩ := h
    obtain ⟨as', rfl, ha'⟩ := ih h
    refine ⟨as ++ .io (.command cmd) :: as', by rw [run_append]; rfl, fun a hmem => ?_⟩
    rcases List.mem_append.mp hmem with hmem | hmem
    · exact .inl (ha a hmem)
    · rcases List.mem_cons.mp hmem with rfl | hmem
      · exact .inr ⟨cmd, List.mem_cons_self .., rfl⟩
      · exact (ha' a hmem).imp_right fun ⟨cmd', h', he⟩ => ⟨cmd', List.mem_cons_of_mem _ h', he⟩

theorem running_of_run {as : List Action} (h : (b.run lib as).running = true) : b.running = true := by
  induction as generalizing b with
  | nil => exact h
  | cons a as ih => exact running_of_act (ih h)

theorem Serves.running (h : Serves lib mine b cmds b') (hr : b'.running = true) : b.running = true := by
  obtain ⟨as, rfl, -⟩ := h.run
  exact running_of_run hr

theorem packets_closed_run {c : ChannelId} (h : (b.packets c).closed = true) (as : List Action) :
    ((b.run lib as).packets c).closed = true := by
  have hsend {chan : Mpsc ReceivedPacket} (hc : chan.closed = true) (p : ReceivedPacket) :
      (chan.send p).closed = true := by simp [Mpsc.send, hc]
  have hupdate {b : Bridge} (c' : ChannelId) (f : Mpsc ReceivedPacket → Mpsc ReceivedPacket)
      (hf : ∀ chan : Mpsc ReceivedPacket, chan.closed = true → (f chan).closed = true)
      (hc : (b.packets c).closed = true) :
      (Function.update b.packets c' (f (b.packets c')) c).closed = true := by
    by_cases he : c = c'
    · subst he
      rw [Function.update_self]
      exact hf _ hc
    · rw [Function.update_of_ne he]
      exact hc
  have hkeeps : Keeps lib (fun _ _ => True) fun b => (b.packets c).closed = true := by
    refine ⟨fun _ _ _ hm hc => ?_, fun t hc => ?_, fun {b b'} _ _ hch hc => ?_⟩
    · rcases hm.packets with ⟨i, packet, rfl⟩ | ⟨hp, -⟩
      · rw [packets_deliver]
        split_ifs
        · exact hsend hc packet
        · exact hc
      · rw [hp]
        exact hc
    · cases t with
      | recvPacket c' =>
        refine hupdate c' received (fun chan hc => ?_) hc
        rcases chan.tryRecv_cases with ⟨hn, -⟩ | ⟨a, rest, hn, -⟩ <;> simp [received, hn, hc]
      | dropPackets c' => exact hupdate c' Mpsc.drop (fun _ _ => rfl) hc
      | sendData | recvAccepted | closeAccepts => exact hc
    · have hsame : b'.packets = b.packets := congrArg (fun p => p.2.1) hch
      rw [hsame]
      exact hc
  exact hkeeps.run (stepsMeet_of_forall (fun _ _ => trivial) _ _) h

end Serves

end Bridge

def CallStage.Meets (call : OpenCall) (c : CallEnds) (log : List CallNote) : CallStage → Prop
  | .running t _ => call.Meets c t log
  | .returned result => call.Does c log ∧ call.Returns c log result
  | .panicked | .dropped => call.Does c log

namespace Calling

/-- What a call has done, and what has become of it: the commands of its own it has sent, the
thread has carried out but for those still queued, and what it has heard it was told. -/
structure Follows (lib : Libsrt) (call : OpenCall) (c : CallEnds) (id : SocketId) (log : List CallNote)
    (done : List IoCommand) (o : Calling) : Prop where
  stage : o.stage.Meets call c log
  sent : (sentIn log).filter (c.owns id) = done ++ o.system.commands.filter (c.owns id)
  serves : Bridge.Serves lib (c.owns id) .start done o.system.bridge
  heard : o.system.bridge.running = true → ∀ key a, .heard key a ∈ log → a ≠ .elapsed →
    o.system.bridge.trace.findSome? (IoEvent.outcome key) = some a
  gone : o.stage = .dropped → (o.system.bridge.packets c.recv).closed = true

section Follows

variable {lib : Libsrt} {call : OpenCall} {c : CallEnds} {id : SocketId} {log : List CallNote}
  {done : List IoCommand} {o : Calling}

theorem outcome_ne_elapsed {b : Bridge} {reply : ReplyId} {a : Awaited Reply}
    (h : b.oneshot reply = some a) : a ≠ .elapsed := by
  rintro rfl
  unfold Bridge.oneshot at h
  cases hf : b.trace.findSome? (IoEvent.outcome reply) with
  | none =>
    rw [hf] at h
    cases hr : b.running <;> simp [hr] at h
  | some a =>
    rw [hf] at h
    obtain rfl : a = .elapsed := by simpa using h
    obtain ⟨x, -, hx⟩ := List.exists_of_findSome?_eq_some hf
    cases x <;> simp [IoEvent.outcome] at hx

theorem outcome_kept {b : Bridge} {reply : ReplyId} {a : Awaited Reply} (as : List Bridge.Action)
    (h : b.trace.findSome? (IoEvent.outcome reply) = some a) :
    (b.run lib as).trace.findSome? (IoEvent.outcome reply) = some a := by
  obtain ⟨es, ht⟩ := Bridge.trace_run_grows lib b as
  rw [← ht, List.findSome?_append, h]
  rfl

/-- Whatever happens to the thread that is none of the call's commands. -/
theorem Follows.acts (h : Follows lib call c id log done o) (as : List Bridge.Action)
    (ha : ∀ a ∈ as, Bridge.Apart (c.owns id) a) :
    Follows lib call c id log done
      { o with system := ⟨o.system.bridge.run lib as, o.system.commands⟩ } where
  stage := h.stage
  sent := h.sent
  serves := h.serves.acts ha
  heard hr key a hmem hne := outcome_kept as (h.heard (Bridge.running_of_run hr) key a hmem hne)
  gone hd := Bridge.packets_closed_run (h.gone hd) as

theorem Follows.system (h : Follows lib call c id log done o) {m : System.Move}
    (hm : c.Respected id (.system m)) :
    ∃ done', Follows lib call c id log done' { o with system := o.system.move lib m } := by
  rcases System.move_cases lib o.system m with ⟨more, hmove, hmore⟩ | ⟨a, rfl, hcmd, hmove⟩ |
    ⟨cmd, rest, hqueue, hmove⟩
  · have hnone : more.filter (c.owns id) = [] := by
      refine List.filter_eq_nil_iff.mpr fun cmd hmem => ?_
      have hsend := hmore cmd hmem
      subst hsend
      exact Bool.not_eq_true _ ▸ hm
    rw [hmove]
    refine ⟨done, h.stage, ?_, h.serves, h.heard, h.gone⟩
    show _ = done ++ (o.system.commands ++ more).filter (c.owns id)
    rw [List.filter_append, hnone, List.append_nil]
    exact h.sent
  · rw [hmove]
    exact ⟨done, h.acts [a] fun a' ha' cmd he => by
      rw [List.mem_singleton.mp ha'] at he
      exact absurd he (hcmd cmd)⟩
  · rw [hmove]
    cases hown : c.owns id cmd with
    | false =>
      have hacts := h.acts [.io (.command cmd)] fun a ha cmd' he => by
        rw [List.mem_singleton.mp ha] at he
        obtain rfl : cmd = cmd' := by simpa using he
        exact hown
      refine ⟨done, hacts.stage, ?_, hacts.serves, hacts.heard, hacts.gone⟩
      rw [h.sent, hqueue, List.filter_cons_of_neg (by simp [hown])]
    | true =>
      refine ⟨done ++ [cmd], h.stage, ?_, h.serves.take cmd, fun hr key a hmem hne => ?_, fun hd => ?_⟩
      · rw [h.sent, hqueue, List.filter_cons_of_pos hown, List.append_assoc]
        rfl
      · exact outcome_kept [.io (.command cmd)]
          (h.heard (Bridge.running_of_act hr) key a hmem hne)
      · exact Bridge.packets_closed_run (h.gone hd) [.io (.command cmd)]

theorem letGo_eq (ends : List Bridge.TokioStep) (s : System) :
    letGo lib ends s = ⟨s.bridge.run lib (ends.map .tokio), s.commands⟩ := by
  induction ends generalizing s with
  | nil => rfl
  | cons t ends ih => exact ih _

theorem apart_tokio (ends : List Bridge.TokioStep) :
    ∀ a ∈ ends.map Bridge.Action.tokio, Bridge.Apart (c.owns id) a := by
  intro a ha cmd he
  obtain ⟨t, -, rfl⟩ := List.mem_map.mp ha
  cases he

/-- The call takes a step without a command of its own being carried out. -/
theorem Follows.stays (h : Follows lib call c id log done o) (stage : CallStage)
    (hs : stage.Meets call c log) (hd : stage ≠ .dropped) :
    Follows lib call c id log done { o with stage := stage } :=
  ⟨hs, h.sent, h.serves, h.heard, fun he => absurd he hd⟩

theorem Follows.sends (h : Follows lib call c id log done o) {cmd : IoCommand} {stage : CallStage}
    (hs : stage.Meets call c (log ++ [.sent cmd])) (hd : stage ≠ .dropped) :
    Follows lib call c id (log ++ [.sent cmd]) done ⟨o.system.send cmd, stage⟩ where
  stage := hs
  sent := by
    show _ = done ++ (o.system.commands ++ [cmd]).filter (c.owns id)
    rw [sentIn_sent, List.filter_append, List.filter_append, h.sent, List.append_assoc]
  serves := h.serves
  heard hr key a hmem hne := h.heard hr key a (by simpa using hmem) hne
  gone he := absurd he hd

theorem Follows.hears (h : Follows lib call c id log done o) (key : ReplyId) {a : Awaited Reply}
    {stage : CallStage} (hs : stage.Meets call c (log ++ [.heard key a])) (hd : stage ≠ .dropped)
    (ha : o.system.bridge.running = true → a ≠ .elapsed →
      o.system.bridge.trace.findSome? (IoEvent.outcome key) = some a) :
    Follows lib call c id (log ++ [.heard key a]) done { o with stage := stage } where
  stage := hs
  sent := by
    rw [sentIn_heard]
    exact h.sent
  serves := h.serves
  heard hr key' a' hmem hne := by
    rcases List.mem_append.mp hmem with hmem | hmem
    · exact h.heard hr key' a' hmem hne
    · obtain ⟨rfl, rfl⟩ := Note.heard.inj (List.mem_singleton.mp hmem)
      exact ha hr hne
  gone he := absurd he hd

theorem Follows.letGo (h : Follows lib call c id log done o) (ends : List Bridge.TokioStep) :
    Follows lib call c id log done { o with system := Calling.letGo lib ends o.system } := by
  rw [letGo_eq]
  exact h.acts _ (apart_tokio ends)

theorem Follows.advance (h : Follows lib call c id log done o) (ends : List Bridge.TokioStep) :
    ∃ log', Follows lib call c id log' done (o.step lib ends .advance) := by
  unfold Calling.step
  dsimp only
  have hstage := h.stage
  match hs : o.stage with
  | .running (.send cmd next) since =>
    rw [hs] at hstage
    exact ⟨_, h.sends hstage.2 (by simp)⟩
  | .running (.await reply budget next) since =>
    rw [hs] at hstage
    dsimp only
    cases ho : o.system.bridge.oneshot reply with
    | none => exact ⟨log, h⟩
    | some a =>
      have hne := outcome_ne_elapsed ho
      refine ⟨_, h.hears reply (hstage.2 a fun he => absurd he hne) (by simp) fun hr _ => ?_⟩
      unfold Bridge.oneshot at ho
      simpa [hr] using ho
  | .running (.letGo t next) since =>
    rw [hs] at hstage
    have hacts := (h.stays (.running next o.system.bridge.clock) hstage.2 (by simp)).letGo [t]
    exact ⟨log, hacts⟩
  | .running .panic since =>
    rw [hs] at hstage
    exact ⟨log, (h.stays .panicked hstage (by simp)).letGo ends⟩
  | .running (.ret result) since =>
    rw [hs] at hstage
    exact ⟨log, h.stays (.returned result) hstage (by simp)⟩
  | .returned _ | .panicked | .dropped => exact ⟨log, h⟩

theorem Follows.expire (h : Follows lib call c id log done o) (ends : List Bridge.TokioStep) :
    ∃ log', Follows lib call c id log' done (o.step lib ends .expire) := by
  unfold Calling.step
  dsimp only
  have hstage := h.stage
  match hs : o.stage with
  | .running (.await reply (some budget) next) since =>
    rw [hs] at hstage
    dsimp only
    split_ifs
    · refine ⟨_, h.hears reply (hstage.2 .elapsed fun _ => by simp) (by simp) fun _ hne => ?_⟩
      exact absurd rfl hne
    · exact ⟨log, h⟩
  | .running (.await _ none _) _ | .running (.send ..) _ | .running (.letGo ..) _ | .running .panic _
  | .running (.ret _) _ | .returned _ | .panicked | .dropped => exact ⟨log, h⟩

theorem packets_letGo {ends : List Bridge.TokioStep} (hc : .dropPackets c.recv ∈ ends) (s : System) :
    ((Calling.letGo lib ends s).bridge.packets c.recv).closed = true := by
  obtain ⟨pre, post, rfl⟩ := List.append_of_mem hc
  rw [letGo_eq, List.map_append, Bridge.run_append]
  have hdrop (b : Bridge) : (b.act lib (.tokio (.dropPackets c.recv))).packets c.recv =
      (b.packets c.recv).drop := Function.update_self ..
  refine Bridge.packets_closed_run (b := (s.bridge.run lib (pre.map .tokio)).act lib
    (.tokio (.dropPackets c.recv))) ?_ (post.map .tokio)
  rw [hdrop]
  rfl

theorem Follows.drop (h : Follows lib call c id log done o) :
    Follows lib call c id log done (o.step lib (call.ends c) .drop) := by
  unfold Calling.step
  dsimp only
  have hstage := h.stage
  match hs : o.stage with
  | .running (.await reply budget next) since =>
    rw [hs] at hstage
    have hends : .dropPackets c.recv ∈ call.ends c := by
      cases call <;> exact List.mem_cons_self ..
    have hgone := (h.stays .panicked hstage.now (by simp)).letGo (call.ends c)
    exact ⟨hgone.stage, hgone.sent, hgone.serves, hgone.heard, fun _ => packets_letGo hends o.system⟩
  | .running (.send ..) _ | .running (.letGo ..) _ | .running .panic _ | .running (.ret _) _
  | .returned _ | .panicked | .dropped => exact h

end Follows

/-- In every run: what the call has done so far, and which of its commands were carried out. -/
theorem follows (lib : Libsrt) (call : OpenCall) (c : CallEnds) (id : SocketId) (hn : c.replies.Nodup)
    {moves : List CallMove} (hm : ∀ m ∈ moves, c.Respected id m) :
    ∃ log done, Follows lib call c id log done (call.run lib c moves) := by
  induction moves using List.reverseRecOn with
  | nil =>
    refine ⟨[], [], call.task_meets c hn, rfl, ⟨[], List.forall_mem_nil _, rfl⟩, ?_, fun he => by cases he⟩
    exact fun _ _ _ h => absurd h List.not_mem_nil
  | append_singleton moves m ih =>
    obtain ⟨log, done, h⟩ := ih fun m' h' => hm m' (List.mem_append_left _ h')
    have hrun : call.run lib c (moves ++ [m]) = (call.run lib c moves).step lib (call.ends c) m := by
      simp [OpenCall.run]
    rw [hrun]
    cases m with
    | system m =>
      obtain ⟨done', h'⟩ := h.system (hm (.system m) (by simp))
      exact ⟨log, done', h'⟩
    | advance =>
      obtain ⟨log', h'⟩ := h.advance (call.ends c)
      exact ⟨log', done, h'⟩
    | expire =>
      obtain ⟨log', h'⟩ := h.expire (call.ends c)
      exact ⟨log', done, h'⟩
    | drop => exact ⟨log, done, h.drop⟩

end Calling

end SrtBridge
