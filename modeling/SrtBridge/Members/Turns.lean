import SrtBridge.Members.Group

/-! A check turn by turn: what every turn keeps holds after any number of them, and the loop comes
to as many turns as there are watched members. -/

namespace SrtBridge

section Turns

variable {lib : Libsrt} {inp : CheckInput}

theorem checkTurn_end {c : Check} (h : c.watched.length ≤ c.idx) : checkTurn lib inp c = c := by
  rw [checkTurn, List.getElem?_eq_none h]

theorem iterate_checkTurn_end {c : Check} (h : c.watched.length ≤ c.idx) (n : ℕ) :
    (checkTurn lib inp)^[n] c = c := by
  induction n with
  | zero => rfl
  | succ n ih => rw [Function.iterate_succ_apply, checkTurn_end h, ih]

theorem checkTurn_adds (c : Check) : c.trace <+: (checkTurn lib inp c).trace := by
  unfold checkTurn
  split
  · exact List.prefix_rfl
  · split_ifs
    · exact List.prefix_rfl
    · dsimp only
      split
      · exact List.prefix_append ..
      · exact List.prefix_append ..
      · exact (List.prefix_append ..).trans (List.prefix_append ..)
      · exact (List.prefix_append ..).trans (List.prefix_append ..)
      · split
        · exact List.prefix_append ..
        · exact (List.prefix_append ..).trans (List.prefix_append ..)

theorem iterate_checkTurn_adds (n : ℕ) (c : Check) : c.trace <+: ((checkTurn lib inp)^[n] c).trace := by
  induction n generalizing c with
  | zero => exact List.prefix_rfl
  | succ n ih => exact (checkTurn_adds c).trans (ih _)

theorem checkLoop_eq_iterate (n : ℕ) (c : Check) : checkLoop lib inp n c = (checkTurn lib inp)^[n] c := by
  induction n generalizing c with
  | zero => rfl
  | succ n ih =>
    rw [checkLoop, Function.iterate_succ_apply]
    split_ifs with h
    · exact ih _
    · rw [checkTurn_end (not_lt.mp h), iterate_checkTurn_end (not_lt.mp h)]

/-- What every turn keeps, in the state the turns before it lead to, holds after any number of turns;
each of them is at one of the members there were. -/
theorem turns_induction {seen₀ unseen₀ spawned₀ : List WatchedMember} {k₀ : ℕ} {T₀ : List MemberEvent}
    {P : List WatchedMember → List WatchedMember → List WatchedMember → ℕ → List MemberEvent → Prop}
    (hturn : ∀ {n seen w unseen spawned k T seen' unseen' spawned' events}, n < unseen₀.length →
      (checkTurn lib inp)^[n] ⟨seen₀ ++ unseen₀, seen₀.length, spawned₀, k₀, T₀⟩ =
        ⟨seen ++ w :: unseen, seen.length, spawned, k, T⟩ →
      P seen (w :: unseen) spawned k T →
      Exit lib inp k seen w unseen spawned seen' unseen' spawned' events →
      P seen' unseen' spawned' (k + 1) (T ++ events))
    (h : P seen₀ unseen₀ spawned₀ k₀ T₀) (n : ℕ) :
    ∃ seen unseen spawned k T,
      (checkTurn lib inp)^[n] ⟨seen₀ ++ unseen₀, seen₀.length, spawned₀, k₀, T₀⟩ =
          ⟨seen ++ unseen, seen.length, spawned, k, T⟩ ∧
        unseen.length = unseen₀.length - n ∧ P seen unseen spawned k T := by
  induction n with
  | zero => exact ⟨seen₀, unseen₀, spawned₀, k₀, T₀, rfl, rfl, h⟩
  | succ n ih =>
    obtain ⟨seen, unseen, spawned, k, T, hc, hlen, hp⟩ := ih
    rw [Function.iterate_succ_apply']
    cases unseen with
    | nil =>
      refine ⟨seen, [], spawned, k, T, ?_, by simp at hlen ⊢; omega, hp⟩
      rw [hc, checkTurn_end (by simp)]
    | cons w unseen =>
      obtain ⟨seen', unseen', spawned', events, he, ht⟩ :=
        checkTurn_exit lib inp k seen w unseen spawned T
      have hone := he.unseen_length
      refine ⟨seen', unseen', spawned', k + 1, T ++ events, by rw [hc, ht], ?_,
        hturn ?_ hc hp he⟩ <;> rw [List.length_cons] at hlen <;> omega

end Turns

theorem length_readLive (lib : Libsrt) (k : ℕ) (ws : List WatchedMember) :
    (readLive lib k ws).length = ws.length := by
  simpa using congrArg List.length (readLive_keys lib k ws)

namespace GroupRun

/-- A check before its first turn: the live states have been read. -/
def beginCheck (lib : Libsrt) (r : GroupRun) : Check :=
  ⟨readLive lib r.step r.entry.watched, 0, [], r.step + r.entry.watched.length + 1, r.trace⟩

def turns (lib : Libsrt) (grp : SocketId) (r : GroupRun) (n : ℕ) : Check :=
  (checkTurn lib (r.checkInput lib grp))^[n] (r.beginCheck lib)

/-- A check ends with what as many turns as there are watched members leave. -/
theorem checkGroup_turns (lib : Libsrt) (grp : SocketId) {r : GroupRun}
    (h : r.entry.watched.any (fun w => w.notBefore ≤ r.clock) = true) :
    (r.checkGroup lib grp).trace = (r.turns lib grp r.entry.watched.length).trace ∧
      (r.checkGroup lib grp).entry.watched = (r.turns lib grp r.entry.watched.length).watched ++
        (r.turns lib grp r.entry.watched.length).spawned := by
  have hloop : r.turns lib grp r.entry.watched.length =
      checkLoop lib (r.checkInput lib grp) r.entry.watched.length (r.beginCheck lib) :=
    (checkLoop_eq_iterate ..).symm
  rw [hloop, checkGroup, if_pos h]
  refine ⟨rfl, ?_⟩
  show SocketState.watched (if _ then _ else _) = _
  split_ifs
  · exact SocketState.updateStatus_watched ..
  · rfl

theorem turns_end (lib : Libsrt) (grp : SocketId) (r : GroupRun) (n : ℕ) :
    r.turns lib grp (r.entry.watched.length + n) = r.turns lib grp r.entry.watched.length := by
  obtain ⟨ws, spawned, k, T, hc, -⟩ := checkLoop_induction (P := fun _ _ _ _ _ => True)
    (fun _ _ _ _ _ _ _ _ _ _ _ (_ : Exit lib (r.checkInput lib grp) ..) => trivial) r.entry.watched.length
    [] _ [] (r.step + r.entry.watched.length + 1) r.trace (length_readLive ..) trivial
  have hlast : r.turns lib grp r.entry.watched.length = ⟨ws, ws.length, spawned, k, T⟩ := by
    rw [turns, ← checkLoop_eq_iterate]
    exact hc
  rw [turns, Nat.add_comm, Function.iterate_add_apply]
  show (checkTurn lib _)^[n] (r.turns lib grp r.entry.watched.length) = _
  rw [hlast]
  exact iterate_checkTurn_end le_rfl n

/-- What is recorded after some turns of a check is on its record in the end. -/
theorem turns_kept (lib : Libsrt) (grp : SocketId) {r : GroupRun}
    (h : r.entry.watched.any (fun w => w.notBefore ≤ r.clock) = true) (n : ℕ) :
    (r.turns lib grp n).trace <+: (r.checkGroup lib grp).trace := by
  rw [(checkGroup_turns lib grp h).1]
  rcases le_total n r.entry.watched.length with hle | hle
  · obtain ⟨m, hm⟩ := Nat.exists_eq_add_of_le' hle
    rw [hm, turns, turns, Function.iterate_add_apply]
    exact iterate_checkTurn_adds m _
  · obtain ⟨m, rfl⟩ := Nat.exists_eq_add_of_le hle
    rw [turns_end]

end GroupRun

/-- An invariant of a group's runs holds at every turn of every check. -/
theorem Preserved.holds_turns {lib : Libsrt} {grp : SocketId} {ok : GroupRun.Action → Prop}
    {P : List WatchedMember → Instant → ℕ → List MemberEvent → Prop}
    {Q : CheckInput → List WatchedMember → List WatchedMember → List WatchedMember → ℕ →
      List MemberEvent → Prop} (hP : Preserved lib grp ok P Q) {r : GroupRun} (h : r.Holds P) (n : ℕ) :
    ∃ seen unseen spawned k T, r.turns lib grp n = ⟨seen ++ unseen, seen.length, spawned, k, T⟩ ∧
      Q (r.checkInput lib grp) seen unseen spawned k T := by
  obtain ⟨seen, unseen, spawned, k, T, hc, -, hq⟩ := turns_induction (P := Q (r.checkInput lib grp))
    (fun _ _ hq he => hP.turn hq he) (hP.begin h.2 rfl rfl rfl) n
  exact ⟨seen, unseen, spawned, k, T, hc, hq⟩

/-- What a check keeps whose turns keep it, each in the state the turns before it lead to. -/
theorem GroupRun.holds_checkGroup {lib : Libsrt} {grp : SocketId} {r : GroupRun}
    {P : List WatchedMember → Instant → ℕ → List MemberEvent → Prop}
    {Q : List WatchedMember → List WatchedMember → List WatchedMember → ℕ → List MemberEvent → Prop}
    (h : r.Holds P)
    (hbegin : Q [] (readLive lib r.step r.entry.watched) [] (r.step + r.entry.watched.length + 1) r.trace)
    (hturn : ∀ {n seen w unseen spawned k T seen' unseen' spawned' events}, n < r.entry.watched.length →
      r.turns lib grp n = ⟨seen ++ w :: unseen, seen.length, spawned, k, T⟩ → Q seen (w :: unseen) spawned k T →
      Exit lib (r.checkInput lib grp) k seen w unseen spawned seen' unseen' spawned' events →
      Q seen' unseen' spawned' (k + 1) (T ++ events))
    (hfinish : ∀ {ws spawned k T}, Q ws [] spawned k T → P (ws ++ spawned) r.clock (k + 1) T) :
    (r.checkGroup lib grp).Holds P := by
  by_cases hdue : r.entry.watched.any (fun w => w.notBefore ≤ r.clock) = true
  · have hlen₀ : (readLive lib r.step r.entry.watched).length = r.entry.watched.length := length_readLive ..
    obtain ⟨ws, unseen, spawned, k, T, hc, hlen, hq⟩ := @turns_induction lib (r.checkInput lib grp) []
      _ [] _ _ Q (fun hn => hturn (hlen₀ ▸ hn)) hbegin r.entry.watched.length
    obtain rfl : unseen = [] := List.length_eq_zero_iff.mp (by rw [hlen, length_readLive, Nat.sub_self])
    have hloop : checkLoop lib (r.checkInput lib grp) r.entry.watched.length
        ⟨readLive lib r.step r.entry.watched, 0, [], r.step + r.entry.watched.length + 1, r.trace⟩ =
          ⟨ws, ws.length, spawned, k, T⟩ := by
      rw [checkLoop_eq_iterate]
      simpa using hc
    have hend := hfinish hq
    simp only [GroupRun.checkGroup, hdue, if_true, hloop]
    split_ifs
    · exact ⟨by simpa using h.1, by simpa using hend⟩
    · exact ⟨h.1, hend⟩
  · simpa only [GroupRun.checkGroup, hdue, Bool.false_eq_true, if_false] using h

end SrtBridge
