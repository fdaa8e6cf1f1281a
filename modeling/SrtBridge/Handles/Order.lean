import SrtBridge.Handles.Handoff

/-! The order of the hand-over: `accept` returns the connections in the order in which `srt_accept`
returned them, and none overtakes another on its way. -/

namespace SrtBridge

open General

namespace Handoff

section Definitions

variable (lib : Libsrt) (l : SocketId) (c : ChannelId)

/-- The connection an `accept` returns with the move, if it does. -/
def returns (h : Handoff) : HandoffMove → List SocketId
  | .finish => (h.step lib l c .finish).sockets.drop h.sockets.length
  | _ => []

/-- The connections that `accept` returns in the course of some moves. -/
def returned : Handoff → List HandoffMove → List SocketId
  | _, [] => []
  | h, m :: moves => h.returns lib l c m ++ returned (h.step lib l c m) moves

/-- The connections on their way: the one an `accept` holds, then those that wait. -/
def underway (h : Handoff) : List SocketId :=
  (h.accepting.map Accepting.id).toList ++ (h.system.bridge.accepts c).buffer

def accepted (h : Handoff) : List SocketId := acceptedIds l h.system.bridge.trace

/-- What a move from `h` to `h'`, in which `out` is returned, does to the connections on their way. -/
inductive Passes (h h' : Handoff) (m : HandoffMove) (out : List SocketId) : Prop
  | along (more : List SocketId) (ha : h'.accepted l = h.accepted l ++ more)
      (hp : out ++ h'.underway c = h.underway c ++ more)
  | refused (id : SocketId) (ha : h'.accepted l = h.accepted l ++ [id]) (hp : h'.underway c = h.underway c)
      (hout : out = []) (hr : id ∈ h'.refused)
  | givenUp (hm : m = .abandon ∨ m = .drain) (ha : h'.accepted l = h.accepted l)
      (hp : (h'.underway c).Sublist (h.underway c)) (hout : out = [])

end Definitions

section Moves

variable {lib : Libsrt} {l : SocketId} {c : ChannelId} {h h' : Handoff} {m : HandoffMove}
  {moves : List HandoffMove}

/-- A move that leaves the accept channel and the `accept` at it alone. -/
theorem Passes.same (hacc : h'.accepting.map Accepting.id = h.accepting.map Accepting.id)
    (hchan : (h'.system.bridge.accepts c).buffer = (h.system.bridge.accepts c).buffer)
    (htr : h'.system.bridge.trace = h.system.bridge.trace) : Passes l c h h' m [] := by
  refine .along [] ?_ ?_
  · rw [accepted, accepted, htr, List.append_nil]
  · rw [underway, underway, hacc, hchan, List.append_nil]
    rfl

theorem Passes.stay : Passes l c h h m [] := .same rfl rfl rfl

/-- What the thread does, with nothing taken from the channel. -/
theorem Sound.passes_act {m : System.Move} {a : Bridge.Action} (hs : Sound l c h)
    (ha : Bridge.LeavesAccepts c a) (hmove : (h.system.move lib m).bridge = h.system.bridge.act lib a) :
    Passes l c h (h.step lib l c (.system m)) (.system m) [] := by
  obtain ⟨es, ht, hoffers⟩ := Bridge.act_offers lib hs.owns ha
  have htrace : (h.system.move lib m).bridge.trace = h.system.bridge.trace ++ es := by rw [hmove, ht]
  have hids : (h.step lib l c (.system m)).accepted l = h.accepted l ++ acceptedIds l es := by
    show acceptedIds l (h.system.move lib m).bridge.trace = _
    rw [htrace, acceptedIds_append]
    rfl
  have hway : (h.step lib l c (.system m)).underway c =
      (h.accepting.map Accepting.id).toList ++ ((h.system.bridge.act lib a).accepts c).buffer := by
    rw [← hmove]
    rfl
  cases hoffers with
  | none hes hc =>
    refine .along [] (by rw [hids, hes]) ?_
    rw [hway, hc, List.append_nil]
    rfl
  | @handed id hes hopen hc hcl =>
    refine .along [id] (by rw [hids, hes]) ?_
    rw [hway, hc, underway, List.append_assoc]
    rfl
  | @refused id hes hc hcl =>
    refine .refused id (by rw [hids, hes]) ?_ rfl ?_
    · rw [hway, hc]
      rfl
    · have hclosed : es.any (IoEvent.closes id) = true :=
        List.any_eq_true.mpr ⟨_, hcl, by simp [IoEvent.closes]⟩
      have hdrop : (h.system.move lib m).bridge.trace.drop h.system.bridge.trace.length = es := by
        rw [htrace, List.drop_left]
      show id ∈ h.refused ++ _
      rw [hdrop, hes]
      exact List.mem_append_right _ (List.mem_filter.mpr ⟨List.mem_singleton_self _, hclosed⟩)

theorem Sound.passes_system {m : System.Move} (hs : Sound l c h) (hm : Respects l c (.system m)) :
    Passes l c h (h.step lib l c (.system m)) (.system m) [] := by
  rcases System.move_cases lib h.system m with ⟨more, hmove, -⟩ | ⟨a, rfl, -, hmove⟩ | ⟨cmd, rest, -, hmove⟩
  · have hbridge : (h.system.move lib m).bridge = h.system.bridge :=
      (congrArg System.bridge hmove).trans (System.sendAll_bridge more)
    refine .same rfl ?_ ?_
    · exact congrArg (fun b => (b.accepts c).buffer) hbridge
    · exact congrArg Bridge.trace hbridge
  · exact hs.passes_act hm (congrArg System.bridge hmove)
  · exact hs.passes_act (a := .io (.command cmd)) trivial (congrArg System.bridge hmove)

/-- An `accept` returns what it holds, or goes on waiting. -/
theorem finish_cases (lib : Libsrt) (l : SocketId) (c : ChannelId) (h : Handoff) :
    h.step lib l c .finish = h ∨ ∃ id replies, h.accepting = some ⟨id, [], replies⟩ ∧
      h.step lib l c .finish = { h with accepting := none, sockets := h.sockets ++ [id] } := by
  unfold Handoff.step
  dsimp only
  split
  · rename_i id replies ha
    split_ifs
    · exact .inr ⟨id, replies, ha, rfl⟩
    · exact .inl rfl
  · exact .inl rfl

theorem passes_finish : Passes l c h (h.step lib l c .finish) .finish (h.returns lib l c .finish) := by
  show Passes l c h _ _ ((h.step lib l c .finish).sockets.drop h.sockets.length)
  rcases finish_cases lib l c h with hstep | ⟨id, replies, ha, hstep⟩
  · rw [hstep, List.drop_length]
    exact .stay
  · rw [hstep, List.drop_left]
    refine .along [] (List.append_nil _).symm ?_
    rw [underway, underway, ha, List.append_nil]
    rfl

/-- Every move passes connections along in order, refuses one, or gives one up. -/
theorem Sound.passes (hs : Sound l c h) (hm : Respects l c m) :
    Passes l c h (h.step lib l c m) m (h.returns lib l c m) := by
  cases m with
  | system m => exact hs.passes_system hm
  | finish => exact passes_finish
  | take r d t localAddr peerAddr streamId =>
    show Passes l c h (if h.stage = .held ∧ h.accepting.isNone then _ else h) _ []
    split_ifs with hguard
    · have hnone : h.accepting = none := by simpa using hguard.2
      rcases Mpsc.tryRecv_cases (h.system.bridge.accepts c) with ⟨hempty, -⟩ | ⟨id, rest, hsome, hbuf⟩
      · rw [hempty]
        exact .stay
      · rw [hsome]
        refine .along [] (List.append_nil _).symm ?_
        show [id] ++ ((h.system.bridge.act lib (.tokio (.recvAccepted c))).accepts c).buffer = _
        rw [accepts_recv lib hbuf, underway, hnone, hbuf, List.append_nil]
        rfl
    · exact .stay
  | sendNext =>
    show Passes l c h _ _ []
    unfold Handoff.step
    dsimp only
    split
    · rename_i id cmd rest replies ha
      refine .same ?_ rfl rfl
      rw [ha]
      rfl
    · exact .stay
  | abandon =>
    show Passes l c h _ _ []
    unfold Handoff.step
    dsimp only
    split
    · exact .givenUp (.inl rfl) rfl (List.sublist_append_right _ _) rfl
    · exact .stay
  | close =>
    show Passes l c h (if h.stage = .held ∧ h.accepting.isNone then _ else h) _ []
    split_ifs
    · exact .same rfl rfl rfl
    · exact .stay
  | drop =>
    show Passes l c h (if h.stage = .held ∧ h.accepting.isNone then _ else h) _ []
    split_ifs
    · exact .same rfl rfl rfl
    · exact .stay
  | shut =>
    show Passes l c h (if h.stage = .announced then _ else h) _ []
    split_ifs
    · have hchan : (h.system.bridge.act lib (.tokio (.closeAccepts c))).accepts c =
          (h.system.bridge.accepts c).close := Function.update_self ..
      refine .same rfl ?_ rfl
      show ((h.system.bridge.act lib (.tokio (.closeAccepts c))).accepts c).buffer = _
      rw [hchan]
      rfl
    · exact .stay
  | drain =>
    show Passes l c h (if h.stage = .shut then _ else h) _ []
    split_ifs
    · rcases Mpsc.tryRecv_cases (h.system.bridge.accepts c) with ⟨hempty, -⟩ | ⟨id, rest, hsome, hbuf⟩
      · rw [hempty]
        exact .same rfl rfl rfl
      · rw [hsome]
        refine .givenUp (.inr rfl) rfl ?_ rfl
        show ((h.accepting.map Accepting.id).toList ++
          ((h.system.bridge.act lib (.tokio (.recvAccepted c))).accepts c).buffer).Sublist _
        rw [accepts_recv lib hbuf, underway, hbuf]
        exact (List.sublist_cons_self id rest).append_left _
    · exact .stay
  | dropSocket id =>
    show Passes l c h (if id ∈ h.sockets then _ else h) _ []
    split_ifs
    · exact .same rfl rfl rfl
    · exact .stay

/-- What the thread closed for want of room stays on record. -/
theorem refused_grows (lib : Libsrt) (l : SocketId) (c : ChannelId) (h : Handoff) (m : HandoffMove) :
    h.refused <+: (h.step lib l c m).refused := by
  cases m with
  | system m => exact List.prefix_append ..
  | _ =>
    unfold Handoff.step
    dsimp only
    repeat' split
    all_goals exact List.prefix_rfl

theorem refused_run (lib : Libsrt) (l : SocketId) (c : ChannelId) (moves : List HandoffMove) (h : Handoff) :
    h.refused <+: (moves.foldl (step lib l c) h).refused := by
  induction moves generalizing h with
  | nil => exact List.prefix_rfl
  | cons m moves ih => exact (refused_grows lib l c h m).trans (ih _)

/-- Over some moves, what is returned and what is then on its way comes, in order, from what was on its
way and what was accepted meanwhile; and it is all of that, if nothing was refused or given up. -/
theorem Sound.run_order (lib : Libsrt) (hs : Sound l c h) (hm : ∀ m ∈ moves, Respects l c m) :
    let h' := moves.foldl (Handoff.step lib l c) h
    let out := Handoff.returned lib l c h moves
    ∃ more, h'.accepted l = h.accepted l ++ more ∧ (out ++ h'.underway c).Sublist (h.underway c ++ more) ∧
      ((∀ m ∈ moves, m ≠ .abandon ∧ m ≠ .drain) → h'.refused = [] →
        out ++ h'.underway c = h.underway c ++ more) := by
  induction moves generalizing h with
  | nil => exact ⟨[], (List.append_nil _).symm, by simp [returned], fun _ _ => by simp [returned]⟩
  | cons m moves ih =>
    have hnext : Sound l c (h.step lib l c m) := hs.step (hm m (by simp))
    obtain ⟨more, hacc, hsub, hall⟩ := ih hnext fun m' h' => hm m' (List.mem_cons_of_mem _ h')
    have hrest (hkeep : ∀ m' ∈ m :: moves, m' ≠ .abandon ∧ m' ≠ .drain) :
        ∀ m' ∈ moves, m' ≠ .abandon ∧ m' ≠ .drain := fun m' h' => hkeep m' (List.mem_cons_of_mem _ h')
    dsimp only
    rw [List.foldl_cons, returned]
    have hpass : Passes l c h (h.step lib l c m) m (h.returns lib l c m) := hs.passes (hm m (by simp))
    cases hpass with
    | along more' ha hp =>
      refine ⟨more' ++ more, by rw [hacc, ha, List.append_assoc], ?_, fun hkeep href => ?_⟩
      · rw [List.append_assoc, ← List.append_assoc (h.underway c), ← hp, List.append_assoc]
        exact hsub.append_left _
      · rw [List.append_assoc, hall (hrest hkeep) href, ← List.append_assoc, hp, List.append_assoc]
    | refused id ha hp hout hr =>
      refine ⟨id :: more, by rw [hacc, ha, List.append_assoc, List.singleton_append], ?_, fun _ href => ?_⟩
      · rw [hout, List.nil_append]
        rw [hp] at hsub
        exact hsub.trans ((List.sublist_cons_self id more).append_left _)
      · have hmem := (refused_run lib l c moves (h.step lib l c m)).subset hr
        rw [href] at hmem
        cases hmem
    | givenUp hgive ha hp hout =>
      refine ⟨more, by rw [hacc, ha], ?_, fun hkeep _ => ?_⟩
      · rw [hout, List.nil_append]
        exact hsub.trans (hp.append_right _)
      · have hno := hkeep m (by simp)
        rcases hgive with hgive | hgive
        · exact absurd hgive hno.1
        · exact absurd hgive hno.2

/-- The connections on their way are those at two of the places. -/
theorem Sound.underway_eq (hs : Sound l c h) : h.underway c = h.holds c .guarded ++ h.holds c .waiting := by
  have hwait : h.holds c .waiting = (h.system.bridge.accepts c).buffer := by
    unfold holds
    split_ifs with hst
    · exact (hs.emptied hst).symm
    · rfl
  rw [hwait]
  rfl

end Moves

/-- In every interleaving of the I/O thread with a listener's `accept`, its `close`, its drop and the
drops of its sockets: what `accept` has returned, then what an `accept` holds, then what waits, came from
`srt_accept` in this order, each at most as often; and this is every connection `srt_accept` returned for
the listener, if the thread has refused none, no `accept` was dropped and the listener has not been emptied. -/
theorem accepted_in_order (lib : Libsrt) (l : SocketId) (c : ChannelId) (moves : List HandoffMove)
    (hm : ∀ m ∈ moves, Respects l c m) :
    let h := run lib l c moves
    let out := returned lib l c .start moves
    (out ++ (h.holds c .guarded ++ h.holds c .waiting)).Sublist (acceptedIds l h.system.bridge.trace) ∧
      ((∀ m ∈ moves, m ≠ .abandon ∧ m ≠ .drain) → h.refused = [] →
        out ++ (h.holds c .guarded ++ h.holds c .waiting) = acceptedIds l h.system.bridge.trace) := by
  intro h out
  have hs : Sound l c h := sound_start.run hm
  obtain ⟨more, hacc, hsub, hall⟩ := Sound.run_order lib sound_start hm
  have hmore : acceptedIds l h.system.bridge.trace = more := hacc
  rw [← hs.underway_eq, hmore]
  exact ⟨hsub, hall⟩

/-- Of three connections the first has been returned, and the others wait. -/
theorem accepted_in_order_first :
    let moves := threeConnections.take 17
    let h := run .accepting 7 4 moves
    let out := returned .accepting 7 4 .start moves
    out = [11] ∧ h.holds 4 .waiting = [12, 13] ∧
      out ++ (h.holds 4 .guarded ++ h.holds 4 .waiting) = acceptedIds 7 h.system.bridge.trace := by
  intro moves h out
  have hm : ∀ m ∈ moves, Respects 7 4 m := by
    simp [moves, threeConnections, Respects, Bridge.LeavesAccepts, Bridge.RespectsAccepts]
  have hkeep : ∀ m ∈ moves, m ≠ .abandon ∧ m ≠ .drain := by simp [moves, threeConnections]
  exact ⟨rfl, rfl, (accepted_in_order .accepting 7 4 moves hm).2 hkeep rfl⟩

end Handoff

end SrtBridge
