import SrtBridge.Bridge.Runs
import SrtBridge.Members.Ledger

/-! Where the members of a caller group are: watched, waiting to be closed once their
replacement is up, closed, or let go of, and nowhere twice; and only caller groups have any. -/

namespace SrtBridge

open General

namespace Bridge

theorem watched_keeps (lib : Libsrt) (id : SocketId) : KeepsEntry lib (fun _ _ => True) id
    (fun e _ => ∀ s, e = some s → s.isGroup = false → s.watched = []) where
  note _ _ h := h
  backlog := by
    rintro e tr l h _ ⟨⟩
    exact h e rfl
  change := by
    intro b₀ s e new es tr _ _ _ hch h
    have hsame {s s' : SocketState} (hs : e = some s) (hg : s'.isGroup = s.isGroup)
        (hw : s'.watched = s.watched) : ∀ s'', some s' = some s'' → s''.isGroup = false → s''.watched = [] := by
      rintro _ ⟨⟩ hgrp
      exact hw.trans (h s hs (hg.symm.trans hgrp))
    cases hch with
    | enter he =>
      rintro _ ⟨⟩ hg
      cases he <;> rfl
    | register | provide | fail => exact hsame rfl rfl rfl
    | record | listen | await | complete =>
      exact hsame rfl (SocketState.updateStatus_isGroup ..) (SocketState.updateStatus_watched ..)
    | watch _ hw =>
      rintro _ ⟨⟩ hg
      by_contra hne
      rcases hw hne with hold | hgrp
      · exact hold (h _ rfl hg)
      · exact Bool.false_ne_true (hg.symm.trans hgrp)
    | close => rintro _ ⟨⟩

end Bridge

/-- In every run of a caller group in which no member id is given twice: each member that was
spawned is in one place; a check looks at each due member once; the sibling a member is handed to
is there. And no entry of the map that is not a group watches members. -/
theorem members_accounted (lib : Libsrt) (grp : SocketId) (backup : Bool) (actions : List GroupRun.Action) :
    let r := (GroupRun.start backup).run lib grp actions
    (spawnedIds r.trace).Nodup →
    (∀ id ∈ spawnedIds r.trace,
      (watchedIds r.entry.watched).count id + (supersededIds r.entry.watched).count id +
        (closedIds r.trace).count id + (releasedIds r.trace).count id = 1) ∧
    (∃ events, (r.checkGroup lib grp).trace = r.trace ++ events ∧
      (lookedIds events).Perm (dueIds r.clock r.entry.watched) ∧
        (dueIds r.clock r.entry.watched).Nodup) ∧
    (∀ inp k seen w unseen spawned other,
      planAt lib inp k seen w unseen spawned = .handToSibling other →
        ∃ e ∈ seen ++ General.lastToFront unseen ++ spawned, e.id = other) ∧
    ∀ (steps : List Bridge.Action) id e, (Bridge.start.run lib steps).entry id = some e →
      e.isGroup = false → e.watched = [] := by
  intro r hn
  have hacc : r.Holds fun ws _ k T => Accounted ws k T :=
    (accounted_preserved lib grp).holds_run (fun _ _ => trivial) (accounted_start backup)
  have hnodup : (watchedIds r.entry.watched).Nodup := hacc.2.watchedIds_nodup hn
  refine ⟨fun id hid => ?_, ?_, fun inp k seen w unseen spawned other => sibling_of_handToSibling,
    fun steps id e he => ?_⟩
  · have hcount : (spawnedIds r.trace).count id = 1 := List.count_eq_one_of_mem hn hid
    have hledger := hacc.2.2 id
    rw [hcount, held] at hledger
    exact hledger.symm
  · obtain ⟨events, ht, hperm⟩ := checkGroup_looks lib grp r
    refine ⟨events, ht, hperm, ?_⟩
    have hsub : (dueIds r.clock r.entry.watched).Sublist (watchedIds r.entry.watched) := by
      have hfilter := (List.filter_sublist (l := r.entry.watched.map WatchedMember.key)
        (p := fun e => e.2 ≤ r.clock)).map Prod.fst
      simpa [dueIds, watchedIds, WatchedMember.key, Function.comp_def] using hfilter
    exact hsub.nodup hnodup
  · exact (Bridge.watched_keeps lib id).run (Bridge.stepsMeet_of_forall (fun _ _ => trivial) _ _)
      (fun _ h => (by cases h)) e he

/-- A bond of one link: its member is superseded, the replacement breaks and is handed to the member the
application added, and that is superseded in turn past its deadline; the last is let go of once it is up,
and the others are closed. -/
theorem members_accounted_handed :
    let ep : GroupEndpoint := ⟨.v4 0x7f000001 9000, none, 1, 7⟩
    let lib := Libsrt.scripted
      (fun k => if k < 8 then [⟨1, .connected, .pending, 1, 7⟩]
        else [⟨1, .connected, .broken, 1, 7⟩, ⟨8, .connected, .broken, 1, 7⟩] ++
          (if k < 10 then [] else [⟨10, .connecting, .pending, 1, 7⟩]) ++
            if k < 21 then [] else [⟨21, .connected, .running, 1, 7⟩])
      fun _ id => if id = 10 then .connecting else .connected
    let actions : List GroupRun.Action := [.connect [ep], .check, .elapse (fromMillis 500), .check, .add ep,
      .elapse (fromSecs 6), .check, .elapse (fromMillis 500), .check, .check, .elapse (fromSecs 1), .check]
    let r := (GroupRun.start false).run lib 500 actions
    (spawnedIds r.trace = [1, 8, 10, 21] ∧ .repair 19 8 [1, 8] (.handToSibling 10) ∈ r.trace) ∧
      ∀ id ∈ spawnedIds r.trace, (watchedIds r.entry.watched).count id +
        (supersededIds r.entry.watched).count id + (closedIds r.trace).count id +
          (releasedIds r.trace).count id = 1 := by
  intro ep lib actions
  exact ⟨by decide +kernel, (members_accounted lib 500 false actions (by decide +kernel)).1⟩

end SrtBridge
