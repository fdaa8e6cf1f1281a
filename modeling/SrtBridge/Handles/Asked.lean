import SrtBridge.Bridge.Endpoints
import SrtBridge.Handles.Waits

/-! What reaches `srt_connect_group`: whatever the handles of a process ask for, and whatever the thread does
by itself to repair a group, it connects to an endpoint only that a handle asked for and that has
passed `GroupEndpoint::check`. -/

namespace SrtBridge

open General

/-- The endpoints of a command have passed `GroupEndpoint::check`. -/
def IoCommand.Checked (cmd : IoCommand) : Prop := ∀ grp, ∀ ep ∈ cmd.endpointsFor grp, ep.check = .ok ()

/-- A call of a handle can send the command, or it brings no endpoint. -/
def IoCommand.FromHandle (cmd : IoCommand) : Prop :=
  (∃ (c : CallEnds) (call : HandleCall) (log : List CallNote),
    (call.task c).Reaches [] log ∧ cmd ∈ sentIn log) ∨
    ∀ grp, cmd.endpointsFor grp = []

section Checks

variable {c : CallEnds}

theorem checked_of_none {cmd : IoCommand} (h : ∀ grp, cmd.endpointsFor grp = []) : cmd.Checked := by
  intro grp ep hep
  rw [h grp] at hep
  cases hep

theorem closeAndReturn_sends (id : SocketId) (err : SrtError) :
    (closeAndReturn c id err).Sends IoCommand.Checked :=
  .send (checked_of_none fun _ => rfl) (.letGo _ (.ret _))

theorem awaitId_sends {reply : ReplyId} {next : SocketId → CallTask}
    (h : ∀ id, (next id).Sends IoCommand.Checked) : (awaitId reply next).Sends IoCommand.Checked := by
  refine .await _ _ fun a => ?_
  split
  · exact h _
  · exact .ret _
  · exact .ret _

theorem awaitDone_sends {reply : ReplyId} {budget : Option Duration} {fail : SrtError → CallTask}
    {next : CallTask} (hfail : ∀ err, (fail err).Sends IoCommand.Checked)
    (h : next.Sends IoCommand.Checked) : (awaitDone reply budget fail next).Sends IoCommand.Checked := by
  refine .await _ _ fun a => ?_
  split
  · exact h
  · exact hfail _
  · exact hfail _
  · exact hfail _

theorem sends_plain {cmd : IoCommand} {next : CallTask} (hcmd : ∀ grp, cmd.endpointsFor grp = [])
    (h : next.Sends IoCommand.Checked) : (Task.send cmd next : CallTask).Sends IoCommand.Checked :=
  .send (checked_of_none hcmd) h

theorem handshake_sends (b : SrtSocketBuilder) (remote : SocketAddr) (id : SocketId) :
    (b.handshake c remote id).Sends IoCommand.Checked := by
  unfold SrtSocketBuilder.handshake
  generalize connectBudget b.config = budget
  refine sends_plain (fun _ => rfl) ?_
  cases budget with
  | none => trivial
  | some budget =>
    refine awaitDone_sends (closeAndReturn_sends id) ?_
    refine sends_plain (fun _ => rfl) (sends_plain (fun _ => rfl) ?_)
    exact .await _ _ fun _ => .await _ _ fun _ => .ret _

theorem socket_sends (b : SrtSocketBuilder) (remote : SocketAddr) :
    (b.connect c remote).Sends IoCommand.Checked := by
  refine sends_plain (fun _ => rfl) (awaitId_sends fun id => sends_plain (fun _ => rfl) ?_)
  cases b.bindAddr with
  | none => exact handshake_sends b remote id
  | some addr =>
    exact sends_plain (fun _ => rfl) (awaitDone_sends (closeAndReturn_sends id) (handshake_sends b remote id))

theorem listener_sends (b : SrtListenerBuilder) (addr : SocketAddr) :
    (b.bind c addr).Sends IoCommand.Checked := by
  have hfail (err : SrtError) : Task.Sends IoCommand.Checked
      (.letGo (.dropPackets c.recv) <| .letGo (.closeAccepts c.accept) <| .ret (.error err) : CallTask) :=
    .letGo _ (.letGo _ (.ret _))
  refine sends_plain (fun _ => rfl) (awaitId_sends fun id => ?_)
  refine sends_plain (fun _ => rfl) (sends_plain (fun _ => rfl) (sends_plain (fun _ => rfl) ?_))
  refine awaitDone_sends hfail (sends_plain (fun _ => rfl) (awaitDone_sends hfail ?_))
  exact sends_plain (fun _ => rfl) (.await _ _ fun _ => .letGo _ (.ret _))

/-- A group is created, and connected, only once all endpoints are checked. -/
theorem group_sends (b : SrtGroupBuilder) : (b.connect c).Sends IoCommand.Checked := by
  unfold SrtGroupBuilder.connect
  cases hcheck : b.checkEndpoints with
  | error err => trivial
  | ok =>
    have hall : ∀ ep ∈ b.endpoints, ep.check = .ok () := by
      unfold SrtGroupBuilder.checkEndpoints at hcheck
      split_ifs at hcheck
      generalize b.endpoints = eps at hcheck
      induction eps with
      | nil => exact List.forall_mem_nil _
      | cons ep eps ih =>
        have hcons : (ep.check >>= fun _ => eps.forM GroupEndpoint.check) = .ok () := hcheck
        cases hep : ep.check with
        | error err =>
          rw [hep] at hcons
          cases hcons
        | ok =>
          rw [hep] at hcons
          exact List.forall_mem_cons.mpr ⟨hep, ih hcons⟩
    refine sends_plain (fun _ => rfl) (awaitId_sends fun id => sends_plain (fun _ => rfl) ?_)
    refine .send (fun grp ep hep => ?_) (awaitDone_sends (closeAndReturn_sends id) (.ret _))
    unfold IoCommand.endpointsFor at hep
    dsimp only at hep
    split_ifs at hep
    · exact hall ep hep
    · cases hep

theorem addMember_sends (id : SocketId) (ep : GroupEndpoint) (reply : ReplyId) :
    (SrtGroup.addMember id ep reply).Sends IoCommand.Checked := by
  unfold SrtGroup.addMember
  cases hcheck : ep.check with
  | error err => trivial
  | ok =>
    refine .send (fun grp ep' hep => ?_) (.await _ _ fun a => ?_)
    · unfold IoCommand.endpointsFor at hep
      dsimp only at hep
      split_ifs at hep
      · rw [List.mem_singleton.mp hep]
        exact hcheck
      · cases hep
    · split
      · exact .ret _
      · exact .ret _

theorem handleCall_sends (c : CallEnds) (call : HandleCall) : (call.task c).Sends IoCommand.Checked := by
  cases call with
  | opens call =>
    cases call with
    | socket b remote => exact socket_sends b remote
    | listener b addr => exact listener_sends b addr
    | group b => exact group_sends b
  | accepts id streamId =>
    refine sends_plain (fun _ => rfl) (sends_plain (fun _ => rfl) (sends_plain (fun _ => rfl)
      (sends_plain (fun _ => rfl) ?_)))
    exact .await _ _ fun _ => .await _ _ fun _ => .await _ _ fun _ => .ret _
  | stats id reply | memberStats id reply =>
    refine Task.Sends.map _ (.send (checked_of_none fun _ => rfl) (.await _ _ fun a => ?_))
    split
    · exact .ret _
    · exact .ret _
  | addMember id ep reply => exact (addMember_sends id ep reply).map _

theorem IoCommand.FromHandle.checked {cmd : IoCommand} (h : cmd.FromHandle) : cmd.Checked := by
  rcases h with ⟨c, call, log, hr, hcmd⟩ | hnone
  · exact (handleCall_sends c call).reached hr (List.forall_mem_nil _) cmd hcmd
  · exact checked_of_none hnone

end Checks

namespace System

section Given

variable {lib : Libsrt} {s : System} {moves : List Move} {grp : SocketId}

/-- The endpoints that the commands sent in some moves give for the group. -/
def given (grp : SocketId) (moves : List Move) : List GroupEndpoint :=
  moves.flatMap fun
    | .send cmd => cmd.endpointsFor grp
    | _ => []

/-- What waits in the command channel was sent, and the members of the group are at endpoints given for
it. -/
structure Told (lib : Libsrt) (grp : SocketId) (moves : List Move) (s : System) : Prop where
  run : ∃ actions, s.bridge = Bridge.start.run lib actions
  sent : ∀ cmd ∈ s.commands, cmd.endpointsFor grp ⊆ given grp moves
  members : s.bridge.MembersAt grp (given grp moves)

theorem Told.act {a : Bridge.Action} (h : Told lib grp moves s) (ha : a.given grp ⊆ given grp moves) :
    (∃ actions, (s.act lib a).bridge = Bridge.start.run lib actions) ∧
      (s.act lib a).bridge.MembersAt grp (given grp moves) := by
  obtain ⟨actions, hrun⟩ := h.run
  have hgroups : ∀ e, s.bridge.entry grp = some e → e.isGroup = false → e.watched = [] := by
    rw [hrun]
    exact (Bridge.watched_keeps lib grp).run (Bridge.stepsMeet_of_forall (fun _ _ => trivial) _ _)
      fun _ h => by cases h
  have hlast : Bridge.start.run lib (actions ++ [a]) = (Bridge.start.run lib actions).act lib a := by
    simp [Bridge.run, List.foldl_append]
  have hmembers : (s.act lib a).bridge.MembersAt grp (given grp moves) :=
    (h.members.act hgroups a).mono (List.append_subset.mpr ⟨fun _ h => h, ha⟩)
  exact ⟨⟨actions ++ [a], by rw [act_bridge, hrun, hlast]⟩, hmembers⟩

theorem Told.move (h : Told lib grp moves s) (m : Move) : Told lib grp (moves ++ [m]) (s.move lib m) := by
  have hgiven : given grp (moves ++ [m]) = given grp moves ++ given grp [m] := List.flatMap_append
  have hmono : given grp moves ⊆ given grp (moves ++ [m]) := by
    rw [hgiven]
    exact List.subset_append_left ..
  have hlater : Told lib grp (moves ++ [m]) s :=
    ⟨h.run, fun cmd hcmd => List.Subset.trans (h.sent cmd hcmd) hmono, h.members.mono hmono⟩
  rcases move_cases lib s m with ⟨more, heq, hmore⟩ | ⟨a, -, hno, heq⟩ | ⟨cmd, rest, hcmds, heq⟩
  · rw [heq]
    refine ⟨hlater.run, fun cmd hcmd => ?_, hlater.members⟩
    rcases List.mem_append.mp hcmd with hcmd | hcmd
    · exact hlater.sent cmd hcmd
    · obtain rfl := hmore cmd hcmd
      rw [hgiven]
      refine List.Subset.trans ?_ (List.subset_append_right ..)
      simp [given]
  · have hnone : a.given grp = [] := by
      cases a with
      | io s =>
        cases s with
        | command cmd => exact absurd rfl (hno cmd)
        | _ => rfl
      | _ => rfl
    obtain ⟨hrun, hmembers⟩ := hlater.act (a := a) (by rw [hnone]; exact List.nil_subset _)
    rw [heq]
    exact ⟨hrun, hlater.sent, hmembers⟩
  · have hcmd := hlater.sent cmd (hcmds ▸ List.mem_cons_self ..)
    obtain ⟨hrun, hmembers⟩ := hlater.act (a := .io (.command cmd)) hcmd
    rw [heq]
    exact ⟨hrun, fun cmd' h' => hlater.sent cmd' (hcmds ▸ List.mem_cons_of_mem _ h'), hmembers⟩

theorem told_run (lib : Libsrt) (grp : SocketId) (moves : List Move) :
    Told lib grp moves (moves.foldl (move lib) start) := by
  induction moves using List.reverseRecOn with
  | nil =>
    exact ⟨⟨[], rfl⟩, fun _ h => (by cases h), fun _ h => (by cases h), Bridge.at_nil⟩
  | append_singleton moves m ih =>
    rw [List.foldl_append]
    exact ih.move m

end Given

end System

/-- What `GroupEndpoint::check` promises: nothing of the endpoint is bent on its way to libsrt. -/
theorem check_ok {ep : GroupEndpoint} (h : ep.check = .ok ()) :
    (prepareTarget ep).weight = ep.weight ∧ 0 ≤ (prepareTarget ep).token ∧
      ∀ addr ∈ (prepareTarget ep).srcaddr, addr.isIpv4 = (prepareTarget ep).peeraddr.isIpv4 := by
  unfold GroupEndpoint.check at h
  split_ifs at h with hfam hbound
  rw [not_or, not_lt, UInt16.not_lt] at hbound
  refine ⟨if_pos hbound.1, hbound.2, fun addr haddr => ?_⟩
  have hsome : ep.localAddr = some addr := haddr
  have hsame : addr.isIpv4 = ep.addr.isIpv4 := by simpa [hsome] using hfam
  exact hsame

/-- In any run of a process whose commands come from its handles, whatever libsrt answers: a member that
the thread spawns into a group, or watches, first connection, addition or replacement alike, is at an
endpoint that a handle gave for this very group. That endpoint has passed its check, and goes to libsrt
as it is: the weight is in range, the token is no request for a generated one, and a source address is
of the target's family. -/
theorem members_asked_for (lib : Libsrt) (moves : List System.Move)
    (hsent : ∀ cmd, .send cmd ∈ moves → cmd.FromHandle) (grp : SocketId) :
    let b := (moves.foldl (System.move lib) .start).bridge
    ∀ ep, ((∃ k id, .spawn k id ep ∈ memberEvents grp b.trace) ∨
        ∃ e, b.entry grp = some e ∧ ∃ w ∈ e.watched, w.endpoint = ep) →
      (∃ cmd, .send cmd ∈ moves ∧ ep ∈ cmd.endpointsFor grp) ∧ ep.check = .ok () ∧
        (prepareTarget ep).weight = ep.weight ∧ 0 ≤ (prepareTarget ep).token ∧
          ∀ addr ∈ (prepareTarget ep).srcaddr, addr.isIpv4 = (prepareTarget ep).peeraddr.isIpv4 := by
  intro b ep hep
  have htold := System.told_run lib grp moves
  have hmem : ep ∈ System.given grp moves := by
    rcases hep with ⟨k, id, htr⟩ | ⟨e, he, w, hw, rfl⟩
    · exact htold.members.2.2 k id ep htr
    · exact (htold.members.1 e he).1 w hw
  obtain ⟨m, hm, hgiven⟩ := List.mem_flatMap.mp hmem
  cases m with
  | send cmd =>
    have hcheck := (hsent cmd hm).checked grp ep hgiven
    exact ⟨⟨cmd, hm, hgiven⟩, hcheck, check_ok hcheck⟩
  | command => cases hgiven
  | other => cases hgiven

/-- A bond of one link is connected, and the thread replaces its stranded member by itself. -/
theorem members_asked_for_replaced :
    let ep : GroupEndpoint := ⟨.v4 0x7f000001 9000, none, 1, 7⟩
    let moves : List System.Move := [.send (.createGroup .broadcast {} 1), .command,
      .send (.connectGroup 5 [ep] 2), .command, .other (.io (.check 5)),
      .other (.elapse (fromMillis 500)), .other (.io (.check 5))]
    let lib := Bridge.groupsOnly fun _ => [⟨2, .connected, .pending, 1, 7⟩]
    let b := (moves.foldl (System.move lib) .start).bridge
    spawnedIds (memberEvents 5 b.trace) = [2, 10] ∧ .spawn 9 10 ep ∈ memberEvents 5 b.trace ∧
      (∃ cmd, .send cmd ∈ moves ∧ ep ∈ cmd.endpointsFor 5) ∧ ep.check = .ok () ∧
        (prepareTarget ep).weight = ep.weight := by
  intro ep moves lib b
  have hspawn : .spawn 9 10 ep ∈ memberEvents 5 b.trace := by decide +kernel
  have hsent (cmd : IoCommand) (h : .send cmd ∈ moves) : cmd.FromHandle := by
    have hcases : cmd = .createGroup .broadcast {} 1 ∨ cmd = .connectGroup 5 [ep] 2 := by
      simpa [moves] using h
    rcases hcases with rfl | rfl
    · exact .inr fun _ => rfl
    · let c : CallEnds := ⟨1, 2, 3, 4, 1, 5, 2, 6, 7⟩
      let log : List CallNote := [.sent (.createGroup .broadcast {} 1), .heard 1 (.answer (.socket (.ok 5))),
        .sent (.registerSocket 5 1 2 3), .sent (.connectGroup 5 [ep] 2)]
      have hr : ((HandleCall.opens (.group ⟨.broadcast, {}, [ep]⟩)).task c).Reaches [] log :=
        .send (.hear (.answer (.socket (.ok 5))) (by simp) (.send (.send .now)))
      exact .inl ⟨c, _, log, hr, .tail _ (.tail _ (.head _))⟩
  have hasked := members_asked_for lib moves hsent 5 ep (.inl ⟨9, 10, hspawn⟩)
  exact ⟨by decide +kernel, hspawn, hasked.1, hasked.2.1, hasked.2.2.1⟩

end SrtBridge
