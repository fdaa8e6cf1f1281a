import SrtBridge.Bridge.Epoll
import SrtBridge.Handles.Opened

/-! What the thread has carried out for a call, and what became of each of its commands. -/

namespace SrtBridge

open General

namespace OpenCall

variable {call : OpenCall} {c : CallEnds} {id : SocketId} {cmds : List IoCommand}

/-- All the call sends once it has the id is about the id, and carries a oneshot other than the
one it got the id by. -/
theorem Sends.own (h : call.Sends c id cmds) : ∀ cmd ∈ cmds,
    cmd.subject = some id ∧ ∀ reply, cmd.reply = some reply → reply ∈ c.replies.tail := by
  intro cmd hmem
  cases call with
  | socket b remote =>
    obtain rfl | ⟨rest, rfl, hrest⟩ := h
    · exact absurd hmem List.not_mem_nil
    · obtain rfl | hmem := List.mem_cons.mp hmem
      · exact ⟨rfl, by simp [IoCommand.reply]⟩
      · obtain ⟨addr, rfl⟩ | ⟨addr, rfl⟩ | rfl | rfl | rfl := hrest cmd hmem <;>
          exact ⟨rfl, by simp [IoCommand.reply, CallEnds.replies]⟩
  | listener b addr =>
    have hall := h.subset hmem
    simp only [listenerCommands, List.mem_cons, List.not_mem_nil, or_false] at hall
    obtain rfl | rfl | rfl | rfl | rfl := hall <;>
      exact ⟨rfl, by simp [IoCommand.reply, CallEnds.replies]⟩
  | group b =>
    have hall := h.subset hmem
    simp only [groupCommands, List.mem_cons, List.not_mem_nil, or_false] at hall
    obtain rfl | rfl | rfl := hall <;> exact ⟨rfl, by simp [IoCommand.reply, CallEnds.replies]⟩

theorem Sends.reply (h : call.Sends c id cmds) (hn : c.replies.Nodup) :
    ∀ cmd ∈ cmds, cmd.reply ≠ some c.create :=
  fun cmd hmem he => (List.nodup_cons.mp hn).1 ((h.own cmd hmem).2 _ he)

theorem sends_nil (call : OpenCall) (c : CallEnds) (id : SocketId) : call.Sends c id [] := by
  cases call with
  | socket => exact .inl rfl
  | listener | group => exact List.nil_prefix

end OpenCall

namespace Bridge

section Serving

variable {lib : Libsrt} {c : CallEnds} {b b' : Bridge} {id : SocketId} {cmd : IoCommand}
  {cmds : List IoCommand}

theorem Serves.first {mine : IoCommand → Bool} (h : Serves lib mine b (cmd :: cmds) b')
    (hr : b'.running = true) : ∃ b₁, Serves lib mine b [] b₁ ∧ b₁.running = true ∧
      Serves lib mine (b₁.act lib (.io (.command cmd))) cmds b' := by
  obtain ⟨as, ha, h⟩ := h
  exact ⟨b.run lib as, ⟨as, ha, rfl⟩, running_of_act (h.running hr), h⟩

theorem Serves.grows {mine : IoCommand → Bool} (h : Serves lib mine b cmds b') :
    b.trace <+: b'.trace := by
  obtain ⟨as, rfl, -⟩ := h.run
  exact trace_run_grows lib b as

/-- What the commands keep of the entry, and everything that is not about the id. -/
theorem Serves.keeps {P : Option SocketState → List IoEvent → Prop}
    (h : Serves lib (c.owns id) b cmds b') (hP : KeepsEntry lib (CarriesOut lib c id cmds) id P)
    (hr : b'.running = true) (hn : GivenOnce id b'.trace) (h0 : 0 ≤ id) (hc : .created id ∈ b.trace)
    (hb : P (b.entry id) b.trace) : P (b'.entry id) b'.trace := by
  obtain ⟨as, rfl, hmeet⟩ := serves_carriesOut h hr h0 hc hn
  exact hP.run hmeet hb

/-- The id has no entry, and no status was recorded for it. -/
def Unlisted (id : SocketId) (e : Option SocketState) (tr : List IoEvent) : Prop :=
  e = none ∧ statuses id tr = []

theorem unlisted_keeps : KeepsEntry lib (CarriesOut lib c id []) id (Unlisted id) where
  note := by
    rintro b₀ s e tr x - hx ⟨he, hst⟩
    refine ⟨he, ?_⟩
    rw [statuses_append, hst, statuses_eq_nil (by simpa using (x.quiet id hx.aside).2.1)]
    rfl
  backlog := by
    rintro e tr l ⟨he, -⟩
    cases he
  change := by
    rintro b₀ s e new es tr hok - - hch ⟨rfl, hst⟩
    cases hch with
    | enter hent =>
      obtain ⟨cmd, hmem, -⟩ := hent.registers hok
      exact absurd hmem List.not_mem_nil

/-- Nobody has been told anything by a oneshot that the call has not sent yet. -/
theorem Opened.untold {call : OpenCall} (h : Opened call c id b) (hn : c.replies.Nodup) :
    OneshotIs c.bind [] b ∧ OneshotIs c.opened [] b := by
  obtain ⟨hb, ho, -⟩ := OpenCall.create_ne hn
  exact ⟨h.told _ (by simp [CallEnds.replies]) hb.symm, h.told _ (by simp [CallEnds.replies]) ho.symm⟩

end Serving

section Own

variable {lib : Libsrt} {c : CallEnds} {b : Bridge} {id : SocketId} {reply : ReplyId}
  {told : List (Awaited Reply)}

theorem registerListener_stays (h : b.entry id = none) (accept : ChannelId) (slot : Option ℕ) :
    Stays ((b.registerListener id accept slot).entry id) := by
  unfold registerListener
  rw [entry_modify, if_pos rfl, entry_enterIfAbsent, h]
  exact ⟨_, rfl, .inl rfl⟩

theorem gone_of_close {b' : Bridge} (hc : .created id ∈ b.trace) (hdry : Dry (b.closeAndRelease id) b')
    (hent : b'.entry id = none) : Gone id (b'.entry id) b'.trace := by
  obtain ⟨es, ht, -⟩ := trace_closing_dry hdry
  refine ⟨hent, ?_⟩
  rw [ht]
  exact (List.singleton_sublist.mpr hc).append (List.singleton_sublist.mpr (by simp))

theorem close_gone (hc : .created id ∈ b.trace) (err : SrtError) :
    Gone id ((b.closeAndFail id err).entry id) (b.closeAndFail id err).trace :=
  gone_of_close hc (.closeAndFail err) ((entry_closeAndFail err id).trans (if_pos rfl))

theorem OneshotIs.emit (h : OneshotIs reply told b) {x : IoEvent} (hx : x.outcome reply = none) :
    OneshotIs reply told (b.emit x) :=
  h.keep (outcomes_eq_nil (by simpa using hx)) (fun i hi => ⟨i, hi⟩) rfl

theorem OneshotIs.tell (h : OneshotIs reply told b) (a : Reply) :
    OneshotIs reply (told ++ [.answer a]) (b.answer reply a) :=
  have hnone : outcomes reply [] = [] := rfl
  h.answer hnone (fun i hi => ⟨i, hi⟩) rfl

theorem bindSocket_told (h : OneshotIs reply told b) (addr : SocketAddr) :
    OneshotIs reply (told ++ [.answer (.done (if lib.bind b.step id addr < 0 then
      .error (lib.lastSrtError b.step 0) else .ok ()))]) (b.bindSocket lib id addr reply) := by
  unfold bindSocket
  split_ifs
  · exact (h.emit rfl).tell _
  · exact (h.emit rfl).tell _

/-- A socket is closed, and the connect that waited with another oneshot let go of. -/
theorem OneshotIs.closeAndDrop (h : OneshotIs reply told b) : OneshotIs reply told (b.closeAndDrop id) := by
  -- a step of its own that carries another oneshot, of any library
  have hmoves : Moves .refusing (.command (.listen id 0 (reply + 1))) b b (b.closeAndDrop id) :=
    Moves.closeAndDrop rfl
  refine oneshot_keeps.moves (fun cmd he => ?_) hmoves h
  obtain rfl := IoStep.command.inj he
  simp [IoCommand.reply]

/-- A `Listen` that fails has closed the socket. -/
def ListenTells (reply : ReplyId) (id : SocketId) (b' : Bridge) (result : Except SrtError Unit) : Prop :=
  OneshotIs reply [.answer (.done result)] b' ∧
    ∀ err, result = .error err → Gone id (b'.entry id) b'.trace

theorem listenTells_refused (h : OneshotIs reply [] b) (hc : .created id ∈ b.trace) (err : SrtError) :
    ListenTells reply id ((b.closeAndDrop id).answer reply (.done (.error err))) (.error err) := by
  refine ⟨h.closeAndDrop.tell _, fun _ _ => gone_of_close hc (Dry.closeAndDrop.trans (.emit rfl)) ?_⟩
  rw [entry_answer, entry_closeAndDrop, if_pos rfl]

theorem listenOn_told (h : OneshotIs reply [] b) (hc : .created id ∈ b.trace) (backlog : ℤ) :
    ∃ result, ListenTells reply id (b.listenOn lib id backlog reply) result := by
  unfold listenOn
  split_ifs
  · exact ⟨_, listenTells_refused (h.emit rfl) (List.mem_append_left _ hc) _⟩
  · obtain ⟨es, ht, hes⟩ : ∃ es, ((((b.emit (.listening id true)).emit (.subscribed id)).modify id fun s =>
        { s with isListener := true }).record id .listening).trace = b.trace ++ es ∧
          outcomes reply es = [] := by
      cases he : b.entry id with
      | none =>
        rw [modify_none (by simpa using he), record_none (by simpa using he)]
        exact ⟨[.listening id true, .subscribed id], by simp, rfl⟩
      | some e =>
        rw [modify_some (e := e) (by simpa using he),
          record_some (e := { e with isListener := true }) (by rw [entry_setEntry, if_pos rfl])]
        exact ⟨[.listening id true, .subscribed id, .recorded id .listening], by simp, rfl⟩
    refine ⟨.ok (), (h.keep hes (fun i hi => ⟨i, ?_⟩) ht).tell _, fun err he => by cases he⟩
    unfold connectReply at hi ⊢
    rw [entry_record, entry_modify, if_pos rfl, entry_modify] at hi
    split_ifs at hi with hid
    · rw [hid]
      cases he : b.entry id with
      | none => simp [he] at hi
      | some e => simpa [he] using hi
    · exact hi

variable (lib) in
theorem listen_told (h : OneshotIs reply [] b) (hc : .created id ∈ b.trace) (backlog : ℤ) :
    ∃ result, ListenTells reply id (b.listen lib id backlog reply) result := by
  rcases registerListenCallback_cases lib b id with ⟨-, heq⟩ | ⟨slot, -, -, heq⟩ | ⟨slot, err, -, -, heq⟩
  · rw [listen_eq backlog reply heq]
    exact listenOn_told h hc backlog
  · rw [listen_eq backlog reply heq]
    exact listenOn_told (h.emit rfl) (List.mem_append_left _ hc) backlog
  · unfold listen
    rw [heq]
    exact ⟨_, listenTells_refused (h.emit rfl) (List.mem_append_left _ hc) err⟩

end Own

section Told

variable {lib : Libsrt} {c : CallEnds} {b b' : Bridge} {id : SocketId} {reply : ReplyId}
  {pre post : List IoCommand}

theorem findSome_outcome (tr : List IoEvent) :
    tr.findSome? (IoEvent.outcome reply) = (outcomes reply tr).head? :=
  List.head?_filterMap.symm

theorem OneshotIs.first {cmd : IoCommand} (h : OneshotIs reply [] b) (hmem : reply ∈ c.replies)
    (hs : Serves lib (c.owns id) b (pre ++ cmd :: post) b') (hr : b'.running = true)
    (hpre : ∀ x ∈ pre, x.reply ≠ some reply) : ∃ b₁, OneshotIs reply [] b₁ ∧ b₁.running = true ∧
      Serves lib (c.owns id) b pre b₁ ∧
        Serves lib (c.owns id) (b₁.act lib (.io (.command cmd))) post b' := by
  obtain ⟨b₂, h₂, hrest⟩ := hs.split
  obtain ⟨b₁, ⟨as, ha, rfl⟩, hrun, hpost⟩ := hrest.first hr
  have hfirst : Serves lib (c.owns id) b pre (b₂.run lib as) := h₂.acts ha
  exact ⟨_, h.serves hmem hfirst hpre, hrun, hfirst, hpost⟩

theorem bind_carried (pre : List IoCommand) {addr : SocketAddr} (h : OneshotIs c.bind [] b)
    (hs : Serves lib (c.owns id) b (pre ++ .bind id addr c.bind :: post) b') (hr : b'.running = true)
    (hpre : ∀ x ∈ pre, x.reply ≠ some c.bind) (hpost : ∀ x ∈ post, x.reply ≠ some c.bind) :
    ∃ k, outcomes c.bind b'.trace = [.answer (.done (if lib.bind k id addr < 0 then
      .error (lib.lastSrtError k 0) else .ok ()))] := by
  have hmem : c.bind ∈ c.replies := by simp [CallEnds.replies]
  obtain ⟨b₁, ho, hrun, -, hrest⟩ := h.first hmem hs hr hpre
  exact ⟨_, ((oneshot_act hrun (bindSocket_told ho addr)).serves hmem hrest hpost).told⟩

/-- What the receiver of a `Listen`'s oneshot is told, and what an error says. -/
theorem listen_carried (pre : List IoCommand) {backlog : ℤ} (h : OneshotIs c.opened [] b)
    (hs : Serves lib (c.owns id) b (pre ++ .listen id backlog c.opened :: post) b') (hr : b'.running = true)
    (hn : GivenOnce id b'.trace) (h0 : 0 ≤ id) (hc : .created id ∈ b.trace)
    (hpre : ∀ x ∈ pre, x.reply ≠ some c.opened)
    (hpost : ∀ x ∈ post, x.reply ≠ some c.opened ∧ x.registers = false) :
    ∃ result, outcomes c.opened b'.trace = [.answer (.done result)] ∧
      ∀ err, result = .error err → Gone id (b'.entry id) b'.trace := by
  have hmem : c.opened ∈ c.replies := by simp [CallEnds.replies]
  obtain ⟨b₁, ho, hrun, hfirst, hrest⟩ := h.first hmem hs hr hpre
  have hc₁ : .created id ∈ b₁.trace := hfirst.grows.subset hc
  obtain ⟨result, htold, hgone⟩ := listen_told lib ho hc₁ backlog
  refine ⟨result, ((oneshot_act hrun htold).serves hmem hrest fun x hx => (hpost x hx).1).told,
    fun err he => ?_⟩
  have hstep : Gone id ((b₁.act lib (.io (.command (.listen id backlog c.opened)))).entry id)
      (b₁.act lib (.io (.command (.listen id backlog c.opened)))).trace := by
    rw [entry_act hrun, trace_act hrun]
    exact hgone err he
  have hc₂ := hstep.2.subset (List.mem_cons_self ..)
  exact hrest.keeps (gone_keeps fun x hx => (hpost x hx).2) hr hn h0 hc₂ hstep

theorem close_carried (hs : Serves lib (c.owns id) b (pre ++ [.close id]) b') (hr : b'.running = true)
    (hn : GivenOnce id b'.trace) (h0 : 0 ≤ id) (hc : .created id ∈ b.trace) :
    Gone id (b'.entry id) b'.trace := by
  obtain ⟨b₂, h₂, hrest⟩ := hs.split
  obtain ⟨b₁, h₁, hrun, hlast⟩ := hrest.first hr
  have hc₁ : .created id ∈ b₁.trace := h₁.grows.subset (h₂.grows.subset hc)
  have hstep : Gone id ((b₁.act lib (.io (.command (.close id)))).entry id)
      (b₁.act lib (.io (.command (.close id)))).trace := by
    rw [entry_act hrun, trace_act hrun]
    exact close_gone hc₁ _
  have hc₂ := hstep.2.subset (List.mem_cons_self ..)
  exact hlast.keeps (gone_keeps (List.forall_mem_nil _)) hr hn h0 hc₂ hstep

/-- The first of the commands, which finds the socket as unlisted as it was before. -/
theorem Serves.first_unlisted {cmd : IoCommand} {cmds : List IoCommand}
    (hs : Serves lib (c.owns id) b (cmd :: cmds) b') (hr : b'.running = true)
    (hn : GivenOnce id b'.trace) (h0 : 0 ≤ id) (hc : .created id ∈ b.trace)
    (hb : Unlisted id (b.entry id) b.trace) : ∃ b₁ : Bridge, b₁.running = true ∧
      Unlisted id (b₁.entry id) b₁.trace ∧ .created id ∈ (b₁.act lib (.io (.command cmd))).trace ∧
      Serves lib (c.owns id) (b₁.act lib (.io (.command cmd))) cmds b' := by
  obtain ⟨b₁, h₁, hrun, hrest⟩ := hs.first hr
  have hgrows : b₁.trace <+: (b₁.act lib (.io (.command cmd))).trace :=
    trace_run_grows lib b₁ [.io (.command cmd)]
  have hn₁ : GivenOnce id b₁.trace := hn.of_prefix (hgrows.trans hrest.grows)
  exact ⟨b₁, hrun, h₁.keeps unlisted_keeps hrun hn₁ h0 hc hb, hgrows.subset (h₁.grows.subset hc), hrest⟩

/-- A listener that is registered, and neither closed nor made to listen, stays in the map. -/
theorem listener_carried {accept : ChannelId} {slot : Option ℕ} {cmds : List IoCommand}
    (hs : Serves lib (c.owns id) b (.registerListener id accept slot :: cmds) b') (hr : b'.running = true)
    (hn : GivenOnce id b'.trace) (h0 : 0 ≤ id) (hc : .created id ∈ b.trace)
    (hb : Unlisted id (b.entry id) b.trace)
    (hcmds : ∀ cmd ∈ cmds, cmd ≠ .close id ∧ ∀ backlog reply, cmd ≠ .listen id backlog reply) :
    Stays (b'.entry id) := by
  obtain ⟨b₁, hrun, hnone, hc₂, hrest⟩ := hs.first_unlisted hr hn h0 hc hb
  refine hrest.keeps (stays_keeps hcmds) hr hn h0 hc₂ ?_
  rw [entry_act hrun]
  exact registerListener_stays hnone.1 accept slot

end Told

end Bridge

namespace Calling

/-- The thread has carried out all that a call has sent for `id`, which it created for the call. -/
structure Carried (lib : Libsrt) (call : OpenCall) (c : CallEnds) (id : SocketId) (log : List CallNote)
    (cmds : List IoCommand) (b : Bridge) : Prop where
  sent : sentIn log = call.createCommand c :: cmds
  sends : call.Sends c id cmds
  told : ∀ a, .heard c.create a ∈ log → a ≠ .elapsed → a = .answer (.socket (.ok id))
  heard : ∀ key a, .heard key a ∈ log → a ≠ .elapsed → (outcomes key b.trace).head? = some a
  opened : ∃ b₁, Bridge.Opened call c id b₁ ∧ Bridge.Serves lib (c.owns id) b₁ cmds b

theorem Follows.carried {lib : Libsrt} {call : OpenCall} {c : CallEnds} {id : SocketId} {log : List CallNote}
    {done : List IoCommand} {o : Calling} (h : Follows lib call c id log done o) (hn : c.replies.Nodup)
    (hdoes : call.Does c log) (hr : o.system.bridge.running = true)
    (hqueue : ∀ cmd ∈ o.system.commands, cmd.subject ≠ some id)
    (hin : .answered c.create (.socket (.ok id)) ∈ o.system.bridge.trace)
    (hfresh : Bridge.GivenOnce id o.system.bridge.trace) :
    ∃ cmds, Carried lib call c id log cmds o.system.bridge := by
  have hcreate : c.create ∈ c.replies := List.mem_cons_self ..
  have hdone : done ≠ [] := by
    rintro rfl
    have hnone := (Bridge.oneshot_start c.create).serves hcreate h.serves (List.forall_mem_nil _)
    exact List.not_mem_nil (hnone.told ▸ mem_outcomes hin)
  have hsent := h.sent
  obtain hempty | ⟨cmds, hcmds, hids, hsends⟩ := hdoes
  · rw [hempty] at hsent
    exact absurd (List.append_eq_nil_iff.mp hsent.symm).1 hdone
  have hreply : ∀ cmd ∈ cmds, cmd.reply ≠ some c.create := by
    intro cmd hmem
    obtain ⟨id', hid'⟩ := hids (List.ne_nil_of_mem hmem)
    exact (hsends id' hid').reply hn cmd hmem
  have hown : c.owns id (call.createCommand c) = true := by
    cases call <;> simp [CallEnds.owns, OpenCall.createCommand, IoCommand.reply, hcreate]
  rw [hcmds, List.filter_cons_of_pos hown] at hsent
  obtain ⟨cmd, done', rfl⟩ := List.exists_cons_of_ne_nil hdone
  rw [List.cons_append] at hsent
  obtain ⟨rfl, hrest⟩ := List.cons.inj hsent
  have hserved : ∀ cmd ∈ done', cmd.reply ≠ some c.create := fun cmd hmem => by
    have hmem' : cmd ∈ cmds.filter (c.owns id) := hrest ▸ List.mem_append_left _ hmem
    exact hreply cmd (List.mem_of_mem_filter hmem')
  obtain ⟨hout, b₁, hopened, hs⟩ := Bridge.serves_created h.serves hr hserved hin hfresh
  have hheard (key : ReplyId) (a : Awaited Reply) (hmem : .heard key a ∈ log) (hne : a ≠ .elapsed) :
      (outcomes key o.system.bridge.trace).head? = some a := by
    rw [← Bridge.findSome_outcome]
    exact h.heard hr key a hmem hne
  have htold (a : Awaited Reply) (hmem : .heard c.create a ∈ log) (hne : a ≠ .elapsed) :
      a = .answer (.socket (.ok id)) := by
    have hfirst := hheard c.create a hmem hne
    rw [hout] at hfirst
    exact (Option.some.inj hfirst).symm
  have hall : call.Sends c id cmds := by
    by_cases hne : cmds = []
    · exact hne ▸ call.sends_nil c id
    · obtain ⟨id', hid'⟩ := hids hne
      have hsame := htold _ hid' (by simp)
      obtain rfl : id' = id := by simpa using hsame
      exact hsends id' hid'
  -- nothing about the id is still queued, so all of it has been carried out
  have hcarried : done' = cmds := by
    have hmine : cmds.filter (c.owns id) = cmds :=
      List.filter_eq_self.mpr fun cmd hmem => by simp [CallEnds.owns, (hall.own cmd hmem).1]
    rw [hmine] at hrest
    have hleft : o.system.commands.filter (c.owns id) = [] := by
      refine List.eq_nil_iff_forall_not_mem.mpr fun cmd hmem => ?_
      have hin' : cmd ∈ cmds := hrest ▸ List.mem_append_right _ hmem
      exact hqueue cmd (List.mem_of_mem_filter hmem) (hall.own cmd hin').1
    rw [hrest, hleft, List.append_nil]
  exact ⟨cmds, hcmds, hall, htold, hheard, b₁, hopened, hcarried ▸ hs⟩

end Calling

end SrtBridge
