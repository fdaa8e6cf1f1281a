import SrtBridge.Members.Laws

/-! What a check knows of a group's members from one turn to the next: which are
up, dead or listed Broken for good, and where the superseded ones stand. A member
the bridge no longer watches and finds in flight is then known to be connected. -/

namespace SrtBridge

open General

section Definitions

variable (lib : Libsrt) (grp : SocketId)

/-- Dead, or listed Broken if at all: from step `k` on no search finds the member in
flight. -/
def Out (k : ℕ) (id : SocketId) : Prop := Dead lib k id ∨ BrokenFrom lib grp k id

/-- A due member that its look will find gone. -/
def Doomed (inp : CheckInput) (v : WatchedMember) : Prop :=
  v.notBefore ≤ inp.now ∧
    classifyWatched v.live (listedRow inp.rows v.id) v.forced inp.backup = .gone

/-- Where a superseded member of the endpoint with that token stands in a check that
began at step `kb` and listed the group at `k₀`. It is settled; or every replacement
spawned in this check supersedes it, and the other members of its endpoint were dead
before the check, or are dead or doomed since a replacement was spawned. -/
def Superseded (kb k₀ : ℕ) (inp : CheckInput) (seen unseen spawned : List WatchedMember) (k : ℕ)
    (token : ℤ) (id : SocketId) : Prop :=
  Settled lib grp k id k₀ ∨
    (∀ x ∈ spawned, x.endpoint.token = token → id ∈ repairChain x) ∧
      ((∀ v ∈ seen ++ unseen, v.endpoint.token = token → id ∉ repairChain v → Dead lib kb v.id) ∨
        (∃ x ∈ spawned, x.endpoint.token = token) ∧
          (∀ v ∈ seen, v.endpoint.token = token → Dead lib k v.id) ∧
          ∀ v ∈ unseen, v.endpoint.token = token → Dead lib k v.id ∨ Doomed inp v)

/-- What a check that began at step `kb` and listed the group at `k₀` knows at its
turn of step `k`. -/
structure Standing (kb k₀ : ℕ) (inp : CheckInput) (seen unseen spawned : List WatchedMember) (k : ℕ)
    (T : List MemberEvent) : Prop where
  begun : kb ≤ k₀ ∧ k₀ < k
  rows : inp.rows = readGroupRows lib k₀ 0 grp
  /-- A member and those it supersedes carry one endpoint. -/
  own : ∀ w ∈ seen ++ unseen ++ spawned, ∀ id ∈ repairChain w, Carries T w.endpoint.token id
  old : ∀ w ∈ seen ++ unseen, ∀ id ∈ repairChain w, Born T kb id
  oldSuperseded : ∀ x ∈ spawned, ∀ id ∈ x.supersedes, Born T kb id
  read : ∀ v ∈ unseen, ∃ i, kb ≤ i ∧ i < k₀ ∧ v.live = lib.status i 0 v.id
  /-- Of two members of an endpoint one is out. -/
  apart : ∀ v ∈ seen ++ unseen, ∀ w ∈ seen ++ unseen, v.id ≠ w.id →
    v.endpoint.token = w.endpoint.token → Out lib grp kb v.id ∨ Out lib grp kb w.id
  /-- One replacement to an endpoint. -/
  single : ∀ x ∈ spawned, ∀ y ∈ spawned, x.endpoint.token = y.endpoint.token → x.id = y.id
  aside : ∀ x ∈ spawned, ∀ v ∈ seen ++ unseen, v.endpoint.token = x.endpoint.token →
    BrokenFrom lib grp k₀ v.id ∨ Dead lib k v.id
  superseded : ∀ w ∈ seen ++ unseen ++ spawned, ∀ id ∈ w.supersedes,
    Superseded lib grp kb k₀ inp seen unseen spawned k w.endpoint.token id
  released : ∀ id ∈ releasedIds T, Settled lib grp k id k₀
  /-- A member not looked at before a later time is up. -/
  asleep : ∀ v ∈ seen ++ unseen, inp.now < v.notBefore → Up lib k v.id
  awake : ∀ x ∈ spawned, x.notBefore ≤ inp.now
  up : ∀ v ∈ seen, ∀ st, listedRow inp.rows v.id = some (.broken, st) → Up lib k v.id

/-- What is known between two checks. -/
structure Rested (ws : List WatchedMember) (now : Instant) (k : ℕ) (T : List MemberEvent) :
    Prop where
  own : ∀ w ∈ ws, ∀ id ∈ repairChain w, Carries T w.endpoint.token id
  apart : ∀ v ∈ ws, ∀ w ∈ ws, v.id ≠ w.id → v.endpoint.token = w.endpoint.token →
    Out lib grp k v.id ∨ Out lib grp k w.id
  superseded : ∀ w ∈ ws, ∀ id ∈ w.supersedes, Settled lib grp k id k ∨
    ∀ v ∈ ws, v.endpoint.token = w.endpoint.token → id ∉ repairChain v → Dead lib k v.id
  released : ∀ id ∈ releasedIds T, Settled lib grp k id k
  asleep : ∀ v ∈ ws, now < v.notBefore → Up lib k v.id

end Definitions

variable {lib : Libsrt} {grp : SocketId} {kb k₀ k : ℕ} {inp : CheckInput}
  {seen unseen spawned : List WatchedMember} {T F : List MemberEvent}

theorem Out.mono {id : SocketId} {k' : ℕ} (h : Out lib grp k id) (hk : k ≤ k') : Out lib grp k' id :=
  h.imp (fun h => h.mono hk) fun h => h.mono hk

/-- A member in flight at a step is not out before it. -/
theorem not_out_of_inFlight {id : SocketId} {i j : ℕ} {r : GroupData} (hi : k ≤ i)
    (hl : isTerminalStatus (lib.status i j id) = false) (hk : k ≤ k₀)
    (hr : r ∈ readGroupRows lib k₀ 0 grp) (hid : r.id = id)
    (hb : mapMemberStatus r.memberstate ≠ .broken) : ¬Out lib grp k id := by
  rintro (hd | hbf)
  · rw [hd.terminal hi] at hl
    cases hl
  · exact hb (hbf k₀ 0 hk r hr hid)

theorem Carries.token_eq (hn : (spawnedIds T).Nodup) {t t' : ℤ} {id : SocketId}
    (hc : Carries T t id) (hc' : Carries T t' id) : t = t' := by
  obtain ⟨i, ep, hs, rfl⟩ := hc
  obtain ⟨i', ep', hs', rfl⟩ := hc'
  have hb : (⟨i, id, ep⟩ : Birth) = ⟨i', id, ep'⟩ :=
    born_once hn (mem_births.mpr hs) (mem_births.mpr hs') rfl
  rw [(Birth.mk.inj hb).2.2]

/-- No member is in the chains of two watched ones. -/
theorem Ledger.chain_disjoint {xs ys : List WatchedMember} {w u : WatchedMember}
    (h : Accounted (xs ++ w :: ys) k T) (hn : (spawnedIds T).Nodup) (hu : u ∈ xs ++ ys) {id : SocketId}
    (hid : id ∈ repairChain u) : id ∉ repairChain w := by
  intro hw
  have hle := h.held_le_one hn id
  have hpos := held_pos_of_chain hu hid
  have hcount : 0 < (repairChain w).count id := List.count_pos_iff.mpr hw
  simp only [held_append, held_cons] at hle hpos
  omega

section Repaired

variable {w : WatchedMember}

theorem lookAt_repair_live (h : (lookAt lib inp k w).next = .repair) :
    isTerminalStatus w.live = false := by
  rcases lookAt_repair h with ⟨hv, -⟩ | ⟨-, -, hl⟩
  · rw [live_of_stranded hv]
    rfl
  · exact hl

/-- A member to replace has a connected socket, or is listed otherwise than Broken. -/
theorem lookAt_repair_row (h : (lookAt lib inp k w).next = .repair) : w.live = .connected ∨
    ∃ member st, listedRow inp.rows w.id = some (member, st) ∧ member ≠ .broken := by
  rcases lookAt_repair h with ⟨hv, -⟩ | ⟨hv, -⟩
  · exact .inl (live_of_stranded hv)
  · exact .inr (row_of_handshaking hv)

end Repaired

/-- A turn of a check over a history `F` the readings obey. -/
structure Turn (lib : Libsrt) (grp : SocketId) (F : List MemberEvent) (kb k₀ : ℕ) (inp : CheckInput)
    (seen : List WatchedMember) (w : WatchedMember) (unseen spawned : List WatchedMember) (k : ℕ)
    (T : List MemberEvent) : Prop
    extends Standing lib grp kb k₀ inp seen (w :: unseen) spawned k T where
  readings : Readings lib grp F
  honest : HonestListing lib grp F
  sub : T ⊆ F
  acc : Accounted (seen ++ w :: unseen ++ spawned) k T
  /-- No id was given twice. -/
  fresh : (spawnedIds T).Nodup

namespace Turn

variable {w v : WatchedMember} (h : Turn lib grp F kb k₀ inp seen w unseen spawned k T)
include h

theorem readAt : ∃ i, kb ≤ i ∧ i < k₀ ∧ w.live = lib.status i 0 w.id := h.read w (by simp)

/-- A member to replace was not dead when the check began. -/
theorem not_dead (hn : (lookAt lib inp k w).next = .repair) : ¬Dead lib kb w.id := by
  intro hd
  obtain ⟨i, hi, -, hlive⟩ := h.readAt
  have hterm := hd.terminal (j := 0) hi
  rw [← hlive, lookAt_repair_live hn] at hterm
  cases hterm

theorem born (hv : v ∈ seen ++ w :: unseen) : Born T kb v.id := h.old v hv v.id (by simp)

theorem up_of_live (hv : v ∈ w :: unseen) (hc : v.live = .connected) : Up lib k v.id := by
  obtain ⟨i, hi, hik, hlive⟩ := h.read v hv
  obtain ⟨b, ep, hs, hlt⟩ := h.born (List.mem_append_right _ hv)
  have hup := h.readings.forward.up ⟨b, ep, h.sub hs, hlt.trans_le hi⟩ (hlive ▸ hc)
  have hk := h.begun.2
  exact hup.mono (by omega)

/-- A member to replace is up, or could be found in flight. -/
theorem up_or_not_out (hn : (lookAt lib inp k w).next = .repair) :
    Up lib k w.id ∨ ¬Out lib grp kb w.id := by
  rcases lookAt_repair_row hn with hc | ⟨member, st, hrow, hb⟩
  · exact .inl (h.up_of_live (by simp) hc)
  · obtain ⟨i, hi, -, hlive⟩ := h.readAt
    obtain ⟨r, hmem, hid, hm, -⟩ := listedRow_some hrow
    exact .inr (not_out_of_inFlight hi (hlive ▸ lookAt_repair_live hn) h.begun.1
      (h.rows ▸ hmem) hid (hm ▸ hb))

theorem not_mem_chain (hv : v ∈ seen ++ unseen ++ spawned) {id : SocketId}
    (hid : id ∈ repairChain v) : id ∉ repairChain w := by
  have ha : Accounted (seen ++ w :: (unseen ++ spawned)) k T := by
    simpa using h.acc
  exact Ledger.chain_disjoint ha h.fresh (by simpa using hv) hid

/-- An up member listed Broken whose socket is no longer connected is dead. -/
theorem dead_of_not_connected (hv : v ∈ seen ++ unseen) (hup : Up lib k v.id) {i : ℕ}
    (hc : lib.getsockstate k i v.id ≠ .connected) : Dead lib (k + 1) v.id := by
  obtain ⟨b, ep, hs, hlt⟩ := h.born (v := v) (by simp only [List.mem_append, List.mem_cons] at hv ⊢; tauto)
  have hk := h.begun
  exact h.readings.forward.dead_of_up ⟨b, ep, h.sub hs, by omega⟩ hup hc

/-- When nobody else is listed Broken on a connected socket, the others of the endpoint
of a member that could be found in flight are dead or doomed. -/
theorem dead_or_doomed (hn : ¬Out lib grp kb w.id) {j : ℕ} {m : WatchedMember}
    (hm : repairChain m = repairChain w)
    (hb : otherMemberBrokenLive lib k j (seen ++ m :: unseen ++ spawned) inp.rows
      (repairChain m) = false)
    (hv : v ∈ seen ++ unseen) (ht : v.endpoint.token = w.endpoint.token) :
    Dead lib (k + 1) v.id ∨ v ∉ seen ∧ Doomed inp v := by
  have hk := h.begun
  have hv' : v ∈ seen ++ w :: unseen := by
    simp only [List.mem_append, List.mem_cons] at hv ⊢; tauto
  have hchain := h.not_mem_chain (List.mem_append_left _ hv) (mem_repairChain.mpr (.inr rfl))
  have hne : v.id ≠ w.id := fun he => hchain (by simp [he])
  have hout : Out lib grp kb v.id := (h.apart v hv' w (by simp) hne ht).resolve_right hn
  rcases hout with hd | hbf
  · exact .inl (hd.mono (by omega))
  have hc : Carries T v.endpoint.token v.id := h.own v (List.mem_append_left _ hv') v.id (by simp)
  have hborn : Born T k₀ v.id := by
    obtain ⟨b, ep, hs, hlt⟩ := h.born hv'
    exact ⟨b, ep, hs, by omega⟩
  rcases h.honest.row_or_dead h.sub hc hborn with ⟨r, hmem, hid, -⟩ | hd
  · have hbr := hbf k₀ 0 hk.1 r hmem hid
    have hmem' : v ∈ seen ++ m :: unseen ++ spawned := by
      simp only [List.mem_append, List.mem_cons] at hv ⊢; tauto
    obtain ⟨i, hi⟩ := not_connected_of_not_otherMemberBrokenLive hb hmem' (hm ▸ hchain)
      (h.rows ▸ hmem) hid hbr
    obtain ⟨member, st, hrow⟩ := exists_listedRow (h.rows ▸ hmem) hid
    obtain ⟨r', hmem'', hid', hm', -⟩ := listedRow_some hrow
    have hrow : listedRow inp.rows v.id = some (.broken, st) := by
      rw [hrow, ← hm', hbf k₀ 0 hk.1 r' (h.rows ▸ hmem'') hid']
    by_cases hdue : inp.now < v.notBefore
    · exact .inl (h.dead_of_not_connected hv (h.asleep v hv' hdue) hi)
    by_cases hseen : v ∈ seen
    · exact .inl (h.dead_of_not_connected hv (h.up v hseen st hrow) hi)
    · have hunseen : v ∈ unseen := (List.mem_append.mp hv).resolve_left hseen
      by_cases hlive : v.live = .connected
      · exact .inl (h.dead_of_not_connected hv (h.up_of_live (by simp [hunseen]) hlive) hi)
      · exact .inr ⟨hseen, not_lt.mp hdue, classifyWatched_gone.mpr (.inr ⟨⟨st, hrow⟩, hlive⟩)⟩
  · exact .inl (hd.mono (by omega))

/-- The sibling a member is handed to is a replacement of its endpoint, or a watched
member of it that could be found in flight. -/
theorem sibling {other : SocketId}
    (hp : planAt lib inp k seen w unseen spawned = .handToSibling other) :
    (∃ x ∈ spawned, x.id = other ∧ x.endpoint.token = w.endpoint.token) ∨
      ∃ v ∈ seen ++ unseen, v.id = other ∧ v.endpoint.token = w.endpoint.token ∧
        ¬Out lib grp kb v.id := by
  rcases findSibling_some (planRepair_handToSibling hp).1 with ⟨e, he, hid, ht, -⟩ | ⟨-, hf, hw⟩
  · exact .inl ⟨e, he, hid, by simpa using ht⟩
  obtain ⟨r, hmem, i, hid, ht, hchain, hb, hlive⟩ := memberInFlight_some hf
  obtain ⟨e, he, heid⟩ := hw.mpr rfl
  simp only [mem_repairChain, lookAt_id, lookAt_endpoint, not_or] at hchain ht
  have hne : e ≠ (lookAt lib inp k w).member := fun h => hchain.2 (by rw [← heid, h, lookAt_id])
  have he : e ∈ seen ++ unseen ++ spawned := by
    simp only [List.mem_append, List.mem_cons] at he ⊢; tauto
  have he' : e ∈ seen ++ w :: unseen ++ spawned := by
    simp only [List.mem_append, List.mem_cons] at he ⊢; tauto
  have htok : e.endpoint.token = w.endpoint.token := by
    obtain ⟨b, ep, hs, hep⟩ := h.own e he' e.id (by simp)
    rw [← hep, ← ht]
    exact h.honest.token k₀ 0 r (h.rows ▸ hmem) b ep (h.sub (by rwa [hid, ← heid]))
  have hk := h.begun
  rcases List.mem_append.mp he with hin | hin
  · exact .inr ⟨e, hin, heid, htok, not_out_of_inFlight (by omega) (heid ▸ hlive) hk.1
      (h.rows ▸ hmem) (hid.trans heid.symm) hb⟩
  · exact .inl ⟨e, hin, heid, htok⟩

end Turn

section Exits

variable {w v : WatchedMember} {seen' unseen' spawned' : List WatchedMember}
  {events : List MemberEvent}

/-- A member is replaced only when nobody of its endpoint was spawned in this check or
is found in flight. -/
theorem Replaces.alone (h : Replaces lib inp k seen w unseen spawned v) :
    (lookAt lib inp k w).next = .repair ∧ v.endpoint = w.endpoint ∧
      (∀ x ∈ spawned, x.endpoint.token ≠ w.endpoint.token) ∧
      memberInFlight lib k 0 inp.rows w.endpoint.token (repairChain w) = none := by
  have key (hn : (lookAt lib inp k w).next = .repair)
      (hs : findSibling lib k (lookAt lib inp k w).member (seen ++ (lookAt lib inp k w).member :: unseen)
        spawned inp.rows = none) :
      (∀ x ∈ spawned, x.endpoint.token ≠ w.endpoint.token) ∧
        memberInFlight lib k 0 inp.rows w.endpoint.token (repairChain w) = none := by
    have hnone := findSibling_none hs
    rwa [lookAt_endpoint, lookAt_repairChain hn] at hnone
  cases h with
  | closed hd hn hp => exact ⟨hn, rfl, key hn (planRepair_closeThenSpawn hp).1⟩
  | overlaps hd hn hp => exact ⟨hn, rfl, key hn (planRepair_spawnThenClose hp).1⟩

/-- What a member superseded before a turn comes to, if the turn leaves it where it is. -/
theorem Turn.superseded_stay (h : Turn lib grp F kb k₀ inp seen w unseen spawned k T)
    (he : Exit lib inp k seen w unseen spawned seen' unseen' spawned' events) {token : ℤ}
    {id : SocketId}
    (hs : Superseded lib grp kb k₀ inp seen (w :: unseen) spawned k token id)
    (hw : id ∉ repairChain w ∨ ∃ v, Kept lib inp k seen w unseen spawned v ∧ id ∈ v.supersedes) :
    Superseded lib grp kb k₀ inp seen' unseen' spawned' (k + 1) token id := by
  obtain ⟨hseen', hunseen', hspawned'⟩ := he.origins
  rcases hs with hs | ⟨hx, hrest⟩
  · exact .inl (hs.mono (Nat.le_succ k) le_rfl)
  refine .inr ⟨fun x hmem ht => ?_, ?_⟩
  · rcases hspawned' x hmem with ⟨u, hu, hp⟩ | hrep
    · exact hp.chain_mono (hx u hu (by rw [← ht, hp.same_member.2.1]))
    · -- nothing supersedes an unsettled member of an endpoint about to be replaced
      obtain ⟨hn, hep, hnone, -⟩ := hrep.alone
      have hout : id ∉ repairChain w := hw.resolve_right fun ⟨v, hk, _⟩ => hrep.not_kept hk
      have ht : w.endpoint.token = token := by rw [← ht, hep]
      rcases hrest with hdead | ⟨⟨y, hy, hyt⟩, -⟩
      · exact absurd (hdead w (by simp) ht hout) (h.not_dead hn)
      · exact absurd (hyt.trans ht.symm) (hnone y hy)
  · rcases hrest with hdead | ⟨⟨y, hy, hyt⟩, hseen, hunseen⟩
    · refine .inl fun v hv ht hid => ?_
      have hpass (hv : ∃ u ∈ seen ++ w :: unseen, Passed lib inp k seen w unseen spawned u v) :
          Dead lib kb v.id := by
        obtain ⟨u, hu, hp⟩ := hv
        rw [hp.same_member.1]
        exact hdead u hu (by rw [← ht, hp.same_member.2.1]) fun h => hid (hp.chain_mono h)
      rcases List.mem_append.mp hv with hv | hv
      · rcases hseen' v hv with ⟨u, hu, hp⟩ | hk
        · exact hpass ⟨u, by simp [hu], hp⟩
        · rw [hk.id_eq]
          refine hdead w (by simp) (by rw [← ht, hk.endpoint_eq]) (hw.elim (fun h => h) ?_)
          rintro ⟨v', hk', hid'⟩
          rw [hk'.supersedes_eq, ← hk.supersedes_eq] at hid'
          exact absurd (mem_repairChain.mpr (.inl hid')) hid
      · obtain ⟨u, hu, hp⟩ := hunseen' v hv
        exact hpass ⟨u, by simp [hu], hp⟩
    · obtain ⟨y', hy', hp'⟩ := he.spawned_stay hy
      refine .inr ⟨⟨y', hy', by rw [hp'.same_member.2.1, hyt]⟩, fun v hv ht => ?_, fun v hv ht => ?_⟩
      · rcases hseen' v hv with ⟨u, hu, hp⟩ | hk
        · rw [hp.same_member.1]
          exact (hseen u hu (by rw [← ht, hp.same_member.2.1])).mono (Nat.le_succ k)
        · rw [hk.id_eq]
          rcases hunseen w (by simp) (by rw [← ht, hk.endpoint_eq]) with hd | hdoom
          · exact hd.mono (Nat.le_succ k)
          · exact absurd hdoom.2 (hk.not_gone hdoom.1)
      · obtain ⟨u, hu, hp⟩ := hunseen' v hv
        obtain ⟨hid, hep, hlive, hnb, hf⟩ := hp.same_member
        rcases hunseen u (by simp [hu]) (by rw [← ht, hep]) with hd | hdoom
        · exact .inl (hid ▸ hd.mono (Nat.le_succ k))
        · exact .inr (by rwa [Doomed, hid, hlive, hnb, hf])

theorem Kept.not_replaced (h : Kept lib inp k seen w unseen spawned v) (hd : w.notBefore ≤ inp.now)
    (hn : (lookAt lib inp k w).next = .repair) :
    planAt lib inp k seen w unseen spawned = .wait := by
  rcases h with h | ⟨-, h | ⟨-, h⟩, -⟩ | ⟨-, h⟩
  · exact absurd hd (not_le.mpr h)
  · simp [hn] at h
  · exact h
  · simp [hn] at h

/-- What the members left of the endpoint of a member that could be found in flight
come to, when it is superseded because nobody else is up. -/
theorem Turn.others_dead (h : Turn lib grp F kb k₀ inp seen w unseen spawned k T)
    (he : Exit lib inp k seen w unseen spawned seen' unseen' spawned' events)
    (hd : w.notBefore ≤ inp.now) (hn : (lookAt lib inp k w).next = .repair)
    (hp : planAt lib inp k seen w unseen spawned ≠ .wait)
    (hb : otherMemberBrokenLive lib k (2 * inp.rows.length)
      (seen ++ (lookAt lib inp k w).member :: unseen ++ spawned) inp.rows
      (repairChain (lookAt lib inp k w).member) = false)
    (hout : ¬Out lib grp kb w.id) :
    (∀ v ∈ seen', v.endpoint.token = w.endpoint.token → Dead lib (k + 1) v.id) ∧
      ∀ v ∈ unseen', v.endpoint.token = w.endpoint.token →
        Dead lib (k + 1) v.id ∨ Doomed inp v := by
  have key (u : WatchedMember) (hu : u ∈ seen ++ unseen) (ht : u.endpoint.token = w.endpoint.token) :=
    h.dead_or_doomed hout (lookAt_repairChain hn) hb hu ht
  refine ⟨fun v hv ht => ?_, fun v hv ht => ?_⟩
  · rcases he.origins.1 v hv with ⟨u, hu, hpass⟩ | hk
    · rw [hpass.same_member.1]
      exact (key u (by simp [hu]) (by rw [← ht, hpass.same_member.2.1])).resolve_right
        fun hdoom => hdoom.1 hu
    · exact absurd (hk.not_replaced hd hn) hp
  · obtain ⟨u, hu, hpass⟩ := he.origins.2.1 v hv
    obtain ⟨hid, hep, hlive, hnb, hf⟩ := hpass.same_member
    rcases key u (by simp [hu]) (by rw [← ht, hep]) with hdead | ⟨-, hdoom⟩
    · exact .inl (hid ▸ hdead)
    · exact .inr (by rwa [Doomed, hid, hlive, hnb, hf])

theorem Turn.superseded_handed (h : Turn lib grp F kb k₀ inp seen w unseen spawned k T)
    (he : Exit lib inp k seen w unseen spawned seen' unseen' spawned' events)
    (hids : (watchedIds (seen' ++ unseen' ++ spawned')).Nodup) {other : SocketId}
    (hd : w.notBefore ≤ inp.now) (hn : (lookAt lib inp k w).next = .repair)
    (hp : planAt lib inp k seen w unseen spawned = .handToSibling other) {id : SocketId}
    (hid : id ∈ repairChain w) :
    Superseded lib grp kb k₀ inp seen' unseen' spawned' (k + 1) w.endpoint.token id := by
  obtain ⟨e, hmem, heid, hchain⟩ := he.handed hd hn hp
  have holder (v : WatchedMember) (hv : v ∈ seen' ++ unseen' ++ spawned') (hvid : v.id = other) :
      id ∈ repairChain v := by
    rw [List.inj_on_of_nodup_map hids hv hmem (hvid.trans heid.symm)]
    exact mem_repairChain.mpr (.inl (hchain id hid))
  have settled (hs : Settled lib grp k id k₀) :
      Superseded lib grp kb k₀ inp seen' unseen' spawned' (k + 1) w.endpoint.token id :=
    .inl (hs.mono (Nat.le_succ k) le_rfl)
  rcases mem_repairChain.mp hid with hsup | rfl
  · -- what the member supersedes is with no other, so it must be settled
    rcases h.superseded w (by simp) id hsup with hs | ⟨hx, hrest⟩
    · exact settled hs
    have hnone (x : WatchedMember) (hmem : x ∈ spawned)
        (ht : x.endpoint.token = w.endpoint.token) : False :=
      h.not_mem_chain (by simp [hmem]) (hx x hmem ht) hid
    rcases h.sibling hp with ⟨x, hmem, -, ht⟩ | ⟨v, hv, -, ht, hout⟩
    · exact (hnone x hmem ht).elim
    · rcases hrest with hdead | ⟨⟨x, hmem, ht⟩, -⟩
      · have hv' : v ∈ seen ++ w :: unseen := by
          simp only [List.mem_append, List.mem_cons] at hv ⊢; tauto
        exact absurd (.inl (hdead v hv' ht fun hc =>
          h.not_mem_chain (List.mem_append_left _ hv) hc hid)) hout
      · exact (hnone x hmem ht).elim
  · rcases h.up_or_not_out hn with hup | hout
    · exact settled (.inl hup)
    rcases h.sibling hp with ⟨x, hmem, hxid, ht⟩ | ⟨v, hv, hvid, ht, hvout⟩
    · obtain ⟨x', hx', hpass⟩ := he.spawned_stay hmem
      refine .inr ⟨fun y hy hyt => ?_, .inr ⟨⟨x', hx', by rw [hpass.same_member.2.1, ht]⟩, ?_⟩⟩
      · rcases he.origins.2.2 y hy with ⟨u, hu, hpu⟩ | hrep
        · refine holder y (List.mem_append_right _ hy) ?_
          rw [hpu.same_member.1, ← hxid]
          exact h.single u hu x hmem (by rw [ht, ← hyt, hpu.same_member.2.1])
        · exact absurd ht (hrep.alone.2.2.1 x hmem)
      · exact h.others_dead he hd hn (by simp [hp]) (planRepair_handToSibling hp).2.2 hout
    · have hv' : v ∈ seen ++ w :: unseen := by
        simp only [List.mem_append, List.mem_cons] at hv ⊢; tauto
      have hne : v.id ≠ w.id := fun hvw =>
        h.not_mem_chain (List.mem_append_left _ hv) (mem_repairChain.mpr (.inr rfl)) (hvw ▸ hid)
      exact ((h.apart v hv' w (by simp) hne ht).elim hvout hout).elim

theorem Turn.superseded_overlapped (h : Turn lib grp F kb k₀ inp seen w unseen spawned k T)
    (he : Exit lib inp k seen w unseen spawned seen' unseen' spawned' events)
    (hd : w.notBefore ≤ inp.now) (hn : (lookAt lib inp k w).next = .repair)
    (hp : planAt lib inp k seen w unseen spawned = .spawnThenClose) {x : WatchedMember}
    (hx : x ∈ spawned') (hrep : Replaces lib inp k seen w unseen spawned x) {id : SocketId}
    (hid : id ∈ repairChain w) :
    Superseded lib grp kb k₀ inp seen' unseen' spawned' (k + 1) w.endpoint.token id := by
  obtain ⟨-, hep, hnone, -⟩ := hrep.alone
  have holder (y : WatchedMember) (hy : y ∈ spawned') (ht : y.endpoint.token = w.endpoint.token) :
      id ∈ repairChain y := by
    rcases he.origins.2.2 y hy with ⟨u, hu, hpass⟩ | hrep
    · exact absurd (by rw [← ht, hpass.same_member.2.1]) (hnone u hu)
    · cases hrep with
      | closed _ _ hp' => simp [hp] at hp'
      | overlaps => exact mem_repairChain.mpr (.inl hid)
  rcases mem_repairChain.mp hid with hsup | rfl
  · rcases h.superseded w (by simp) id hsup with hs | ⟨-, hrest⟩
    · exact .inl (hs.mono (Nat.le_succ k) le_rfl)
    refine .inr ⟨holder, ?_⟩
    rcases hrest with hdead | ⟨⟨y, hy, ht⟩, -⟩
    · have key (u : WatchedMember) (hu : u ∈ seen ++ unseen) (v : WatchedMember)
          (hpass : Passed lib inp k seen w unseen spawned u v)
          (ht : v.endpoint.token = w.endpoint.token) : Dead lib kb v.id := by
        rw [hpass.same_member.1]
        refine hdead u ?_ (by rw [← ht, hpass.same_member.2.1]) fun hc =>
          h.not_mem_chain (List.mem_append_left _ hu) hc hid
        simp only [List.mem_append, List.mem_cons] at hu ⊢; tauto
      refine .inl fun v hv ht _ => ?_
      rcases List.mem_append.mp hv with hv | hv
      · rcases he.origins.1 v hv with ⟨u, hu, hpass⟩ | hk
        · exact key u (by simp [hu]) v hpass ht
        · exact absurd hk hrep.not_kept
      · obtain ⟨u, hu, hpass⟩ := he.origins.2.1 v hv
        exact key u (by simp [hu]) v hpass ht
    · exact absurd ht (hnone y hy)
  · rcases h.up_or_not_out hn with hup | hout
    · exact .inl (.inl (hup.mono (Nat.le_succ k)))
    · exact .inr ⟨holder, .inr ⟨⟨x, hx, by rw [hep]⟩,
        h.others_dead he hd hn (by simp [hp]) (planRepair_spawnThenClose hp).2.2 hout⟩⟩

theorem Turn.up_of_listed (h : Turn lib grp F kb k₀ inp seen w unseen spawned k T) {id : SocketId}
    {member : MemberStatus} (hrow : listedRow inp.rows id = some (member, .connected)) :
    Up lib k id := by
  obtain ⟨r, hmem, rfl, -, hst⟩ := listedRow_some hrow
  intro k' j hk'
  have hk := h.begun.2
  exact h.readings.rowConnected k₀ 0 r (h.rows ▸ hmem) (rawStateToStatus_eq_connected.mp hst) k' j
    (by omega)

theorem Turn.settled_of_drop (h : Turn lib grp F kb k₀ inp seen w unseen spawned k T)
    (hn : (lookAt lib inp k w).next = .drop) : Settled lib grp k w.id k₀ := by
  rcases lookAt_drop.mp hn with hv | ⟨hv, -⟩
  · rcases classifyWatched_gone.mp hv with hrow | ⟨⟨st, hrow⟩, -⟩
    · obtain ⟨b, ep, hs, hlt⟩ := h.born (v := w) (by simp)
      have hk := h.begun
      have hnone : ∀ r ∈ readGroupRows lib k₀ 0 grp, r.id ≠ w.id :=
        listedRow_none (h.rows ▸ hrow)
      have hdead : Dead lib k w.id := fun k' j hk' =>
        h.honest.complete b w.id ep (h.sub hs) k₀ 0 (by omega) hnone k' j (by omega)
      exact .inl hdead.up
    · obtain ⟨r, hmem, hid, hm, -⟩ := listedRow_some hrow
      exact .inr (hid ▸ h.readings.brokenFrom (h.rows ▸ hmem) hm)
  · obtain ⟨member, hrow⟩ := row_of_up (.inl hv)
    exact .inl (h.up_of_listed hrow)

theorem Exit.mem_releasedIds
    (h : Exit lib inp k seen w unseen spawned seen' unseen' spawned' events) {id : SocketId}
    (hid : id ∈ releasedIds events) : id = w.id ∧ (lookAt lib inp k w).next = .drop := by
  have hlook (hid : id ∈ releasedIds ((lookAt lib inp k w).events k inp.now)) :
      id = w.id ∧ (lookAt lib inp k w).next = .drop := by
    rw [releasedIds_look] at hid
    split_ifs at hid with hn
    · exact ⟨List.mem_singleton.mp hid, hn⟩
    · cases hid
  cases h with
  | later => cases hid
  | keep | recheck => exact hlook hid
  | drop | abandon => exact hlook (by simpa using hid)
  | close _ hn | closeSpawn _ hn | overlap _ hn | hand _ hn =>
    simp [releasedIds_repairEvents, hn] at hid

/-- The member a chain is handed to is of its endpoint. -/
theorem Turn.passed_chain (h : Turn lib grp F kb k₀ inp seen w unseen spawned k T)
    {u : WatchedMember} (hu : u ∈ seen ++ w :: unseen ++ spawned)
    (hp : Passed lib inp k seen w unseen spawned u v) {id : SocketId} (hid : id ∈ repairChain v) :
    id ∈ repairChain u ∨ id ∈ repairChain w ∧ u.endpoint.token = w.endpoint.token := by
  cases hp with
  | same => exact .inl hid
  | handed hd hn hp =>
    have ht : u.endpoint.token = w.endpoint.token := by
      have key (x : WatchedMember) (hx : x ∈ seen ++ w :: unseen ++ spawned) (hxu : x.id = u.id)
          (hxt : x.endpoint.token = w.endpoint.token) : u.endpoint.token = w.endpoint.token := by
        rw [← hxt]
        exact (h.own u hu u.id (by simp)).token_eq h.fresh (hxu ▸ h.own x hx x.id (by simp))
      rcases h.sibling hp with ⟨x, hx, hxu, hxt⟩ | ⟨x, hx, hxu, hxt, -⟩
      · exact key x (by simp [hx]) hxu hxt
      · refine key x ?_ hxu hxt
        simp only [List.mem_append, List.mem_cons] at hx ⊢
        tauto
    simp only [mem_repairChain, List.mem_append] at hid ⊢
    tauto

/-- A watched member left is one that was there before. -/
theorem Exit.source
    (he : Exit lib inp k seen w unseen spawned seen' unseen' spawned' events)
    (hv : v ∈ seen' ++ unseen') : ∃ u ∈ seen ++ w :: unseen,
    v.id = u.id ∧ v.endpoint = u.endpoint := by
  have hpass {u : WatchedMember} (hu : u ∈ seen ++ unseen)
      (hp : Passed lib inp k seen w unseen spawned u v) :
      ∃ u ∈ seen ++ w :: unseen, v.id = u.id ∧ v.endpoint = u.endpoint :=
    ⟨u, by simp only [List.mem_append, List.mem_cons] at hu ⊢; tauto, hp.same_member.1,
      hp.same_member.2.1⟩
  rcases List.mem_append.mp hv with hv | hv
  · rcases he.origins.1 v hv with ⟨u, hu, hp⟩ | hk
    · exact hpass (by simp [hu]) hp
    · exact ⟨w, by simp, hk.id_eq, hk.endpoint_eq⟩
  · obtain ⟨u, hu, hp⟩ := he.origins.2.1 v hv
    exact hpass (by simp [hu]) hp

section Next

variable (h : Turn lib grp F kb k₀ inp seen w unseen spawned k T)
  (he : Exit lib inp k seen w unseen spawned seen' unseen' spawned' events)
include h he

theorem Turn.own_next : ∀ v ∈ seen' ++ unseen' ++ spawned', ∀ id ∈ repairChain v,
    Carries (T ++ events) v.endpoint.token id := by
  intro v hv id hid
  have hw (hid : id ∈ repairChain w) : Carries (T ++ events) w.endpoint.token id :=
    (h.own w (by simp) id hid).append
  have hpass {u : WatchedMember} (hu : u ∈ seen ++ w :: unseen ++ spawned)
      (hp : Passed lib inp k seen w unseen spawned u v) :
      Carries (T ++ events) v.endpoint.token id := by
    rw [hp.same_member.2.1]
    rcases h.passed_chain hu hp hid with hid | ⟨hid, ht⟩
    · exact (h.own u hu id hid).append
    · exact ht ▸ hw hid
  rcases List.mem_append.mp hv with hv | hv
  · rcases List.mem_append.mp hv with hv | hv
    · rcases he.origins.1 v hv with ⟨u, hu, hp⟩ | hk
      · exact hpass (by simp [hu]) hp
      · rw [hk.endpoint_eq]
        exact hw (hk.chain_subset hid)
    · obtain ⟨u, hu, hp⟩ := he.origins.2.1 v hv
      exact hpass (by simp [hu]) hp
  · rcases he.mem_spawned hv with ⟨u, hu, hp⟩ | ⟨hrep, hspawn⟩
    · exact hpass (by simp [hu]) hp
    · rcases mem_repairChain.mp hid with hsup | rfl
      · rw [hrep.alone.2.1]
        cases hrep with
        | closed => cases hsup
        | overlaps => exact hw hsup
      · exact ⟨k, w.endpoint, List.mem_append_right _ hspawn, by rw [hrep.alone.2.1]⟩

theorem Turn.old_next : (∀ v ∈ seen' ++ unseen', ∀ id ∈ repairChain v, Born (T ++ events) kb id) ∧
    ∀ x ∈ spawned', ∀ id ∈ x.supersedes, Born (T ++ events) kb id := by
  have hw {id : SocketId} (hid : id ∈ repairChain w) : Born (T ++ events) kb id :=
    (h.old w (by simp) id hid).append
  refine ⟨fun v hv id hid => ?_, fun x hx id hid => ?_⟩
  · have hpass {u : WatchedMember} (hu : u ∈ seen ++ unseen)
        (hp : Passed lib inp k seen w unseen spawned u v) : Born (T ++ events) kb id := by
      have hu : u ∈ seen ++ w :: unseen := by
        simp only [List.mem_append, List.mem_cons] at hu ⊢; tauto
      rcases h.passed_chain (List.mem_append_left _ hu) hp hid with hid | ⟨hid, -⟩
      · exact (h.old u hu id hid).append
      · exact hw hid
    rcases List.mem_append.mp hv with hv | hv
    · rcases he.origins.1 v hv with ⟨u, hu, hp⟩ | hk
      · exact hpass (by simp [hu]) hp
      · exact hw (hk.chain_subset hid)
    · obtain ⟨u, hu, hp⟩ := he.origins.2.1 v hv
      exact hpass (by simp [hu]) hp
  · rcases he.origins.2.2 x hx with ⟨u, hu, hp⟩ | hrep
    · cases hp with
      | same => exact (h.oldSuperseded _ hu id hid).append
      | handed =>
        rcases List.mem_append.mp hid with hid | hid
        · exact (h.oldSuperseded u hu id hid).append
        · exact hw hid
    · cases hrep with
      | closed => cases hid
      | overlaps => exact hw hid

theorem Turn.single_next : ∀ x ∈ spawned', ∀ y ∈ spawned', x.endpoint.token = y.endpoint.token →
    x.id = y.id := by
  intro x hx y hy ht
  rcases he.origins.2.2 x hx with ⟨u, hu, hp⟩ | hrep <;>
    rcases he.origins.2.2 y hy with ⟨u', hu', hp'⟩ | hrep'
  · rw [hp.same_member.1, hp'.same_member.1]
    exact h.single u hu u' hu' (by rw [← hp.same_member.2.1, ht, hp'.same_member.2.1])
  · exact absurd (by rw [← hp.same_member.2.1, ht, hrep'.alone.2.1]) (hrep'.alone.2.2.1 u hu)
  · exact absurd (by rw [← hp'.same_member.2.1, ← ht, hrep.alone.2.1]) (hrep.alone.2.2.1 u' hu')
  · cases hrep with
    | closed _ _ hp hc | overlaps _ _ hp hc =>
      cases hrep' with
      | closed _ _ hp' hc' | overlaps _ _ hp' hc' =>
        exact Except.ok.inj (hc.symm.trans hc')

theorem Turn.aside_next : ∀ x ∈ spawned', ∀ v ∈ seen' ++ unseen',
    v.endpoint.token = x.endpoint.token → BrokenFrom lib grp k₀ v.id ∨ Dead lib (k + 1) v.id := by
  intro x hx v hv ht
  rcases he.origins.2.2 x hx with ⟨u, hu, hp⟩ | hrep
  · obtain ⟨u', hu', hid, hep⟩ := he.source hv
    rw [hid]
    exact (h.aside u hu u' hu' (by rw [← hep, ht, hp.same_member.2.1])).imp_right
      fun hd => hd.mono (Nat.le_succ k)
  · -- the search for a sibling passed over every other member of the endpoint
    obtain ⟨-, hep, -, hnone⟩ := hrep.alone
    obtain ⟨u, hu, hpu⟩ : ∃ u ∈ seen ++ unseen, Passed lib inp k seen w unseen spawned u v := by
      rcases List.mem_append.mp hv with hv | hv
      · rcases he.origins.1 v hv with ⟨u, hu, hp⟩ | hk
        · exact ⟨u, by simp [hu], hp⟩
        · exact absurd hk hrep.not_kept
      · obtain ⟨u, hu, hp⟩ := he.origins.2.1 v hv
        exact ⟨u, by simp [hu], hp⟩
    have hu' : u ∈ seen ++ w :: unseen := by
      simp only [List.mem_append, List.mem_cons] at hu ⊢; tauto
    have hk := h.begun
    obtain ⟨b, ep, hs, hlt⟩ := h.born hu'
    have hc : Carries T w.endpoint.token u.id := by
      rw [← hep, ← ht, hpu.same_member.2.1]
      exact h.own u (List.mem_append_left _ hu') u.id (by simp)
    rw [hpu.same_member.1]
    exact settled_of_memberInFlight_none h.readings h.honest h.sub hk.2.le
      (h.rows ▸ hnone) hc ⟨b, ep, hs, by omega⟩
      (h.not_mem_chain (List.mem_append_left _ hu) (by simp))

theorem Turn.superseded_next (hids : (watchedIds (seen' ++ unseen' ++ spawned')).Nodup) :
    ∀ v ∈ seen' ++ unseen' ++ spawned', ∀ id ∈ v.supersedes,
      Superseded lib grp kb k₀ inp seen' unseen' spawned' (k + 1) v.endpoint.token id := by
  intro v hv id hid
  have hpass {u : WatchedMember} (hu : u ∈ seen ++ unseen ++ spawned)
      (hp : Passed lib inp k seen w unseen spawned u v) :
      Superseded lib grp kb k₀ inp seen' unseen' spawned' (k + 1) v.endpoint.token id := by
    have hu' : u ∈ seen ++ w :: unseen ++ spawned := by
      simp only [List.mem_append, List.mem_cons] at hu ⊢; tauto
    have stay (hsup : id ∈ u.supersedes) : Superseded lib grp kb k₀ inp seen' unseen' spawned'
        (k + 1) u.endpoint.token id :=
      h.superseded_stay he (h.superseded u hu' id hsup)
        (.inl (h.not_mem_chain hu (mem_repairChain.mpr (.inl hsup))))
    have hp₀ := hp
    cases hp with
    | same => exact stay hid
    | handed hd hn hp =>
      rcases List.mem_append.mp hid with hsup | hchain
      · exact stay hsup
      · rcases h.passed_chain hu' hp₀ (mem_repairChain.mpr (.inl hid)) with hcu | ⟨-, ht⟩
        · exact absurd hchain (h.not_mem_chain hu hcu)
        · rw [show _ = w.endpoint.token from ht]
          exact h.superseded_handed he hids hd hn hp hchain
  rcases List.mem_append.mp hv with hv | hv
  · rcases List.mem_append.mp hv with hv | hv
    · rcases he.origins.1 v hv with ⟨u, hu, hp⟩ | hk
      · exact hpass (by simp [hu]) hp
      · have hsup : id ∈ w.supersedes := by
          have hsub := hk.supersedes_eq ▸ hid
          split_ifs at hsub
          · exact hsub
          · exact mem_lookAt_supersedes hsub
        rw [hk.endpoint_eq]
        exact h.superseded_stay he (h.superseded w (by simp) id hsup) (.inr ⟨v, hk, hid⟩)
    · obtain ⟨u, hu, hp⟩ := he.origins.2.1 v hv
      exact hpass (by simp [hu]) hp
  · rcases he.origins.2.2 v hv with ⟨u, hu, hp⟩ | hrep
    · exact hpass (by simp [hu]) hp
    · have hrep₀ := hrep
      cases hrep with
      | closed => cases hid
      | overlaps hd hn hp => exact h.superseded_overlapped he hd hn hp hv hrep₀ hid

theorem Turn.asleep_next : ∀ v ∈ seen' ++ unseen', inp.now < v.notBefore → Up lib (k + 1) v.id := by
  intro v hv hn
  have hpass {u : WatchedMember} (hu : u ∈ seen ++ unseen)
      (hp : Passed lib inp k seen w unseen spawned u v) : Up lib (k + 1) v.id := by
    rw [hp.same_member.2.2.2.1] at hn
    rw [hp.same_member.1]
    refine (h.asleep u ?_ hn).mono (Nat.le_succ k)
    simp only [List.mem_append, List.mem_cons] at hu ⊢; tauto
  rcases List.mem_append.mp hv with hv | hv
  · rcases he.origins.1 v hv with ⟨u, hu, hp⟩ | hk
    · exact hpass (by simp [hu]) hp
    · cases hk with
      | later => exact (h.asleep _ (by simp) hn).mono (Nat.le_succ k)
      | keep hd _ hk =>
        rw [hk] at hn
        exact absurd hd (not_le.mpr (by simpa using hn))
      | recheck _ hnext =>
        obtain ⟨member, hrow⟩ := row_of_up (.inr (lookAt_recheck hnext).1)
        simpa using (h.up_of_listed hrow).mono (Nat.le_succ k)
  · obtain ⟨u, hu, hp⟩ := he.origins.2.1 v hv
    exact hpass (by simp [hu]) hp

theorem Turn.up_next : ∀ v ∈ seen', ∀ st, listedRow inp.rows v.id = some (.broken, st) →
    Up lib (k + 1) v.id := by
  intro v hv st hrow
  rcases he.origins.1 v hv with ⟨u, hu, hp⟩ | hk
  · rw [hp.same_member.1] at hrow ⊢
    exact (h.up u hu st hrow).mono (Nat.le_succ k)
  · rw [hk.id_eq] at hrow ⊢
    by_cases hd : w.notBefore ≤ inp.now
    · have hlive : w.live = .connected := by
        by_contra hlive
        exact hk.not_gone hd (classifyWatched_gone.mpr (.inr ⟨⟨st, hrow⟩, hlive⟩))
      exact (h.up_of_live (by simp) hlive).mono (Nat.le_succ k)
    · exact (h.asleep w (by simp) (not_le.mp hd)).mono (Nat.le_succ k)

/-- What a check knows survives each of its turns. -/
theorem Turn.next (hids : (watchedIds (seen' ++ unseen' ++ spawned')).Nodup) :
    Standing lib grp kb k₀ inp seen' unseen' spawned' (k + 1) (T ++ events) where
  begun := ⟨h.begun.1, Nat.lt_succ_of_lt h.begun.2⟩
  rows := h.rows
  own := h.own_next he
  old := (h.old_next he).1
  oldSuperseded := (h.old_next he).2
  read v hv := by
    obtain ⟨u, hu, hp⟩ := he.origins.2.1 v hv
    rw [hp.same_member.1, hp.same_member.2.2.1]
    exact h.read u (by simp [hu])
  apart v hv v' hv' hne ht := by
    obtain ⟨u, hu, hid, hep⟩ := he.source hv
    obtain ⟨u', hu', hid', hep'⟩ := he.source hv'
    rw [hid, hid'] at hne ⊢
    exact h.apart u hu u' hu' hne (by rw [← hep, ht, hep'])
  single := h.single_next he
  aside := h.aside_next he
  superseded := h.superseded_next he hids
  released id hid := by
    rw [releasedIds_append] at hid
    rcases List.mem_append.mp hid with hid | hid
    · exact (h.released id hid).mono (Nat.le_succ k) le_rfl
    · obtain ⟨rfl, hn⟩ := he.mem_releasedIds hid
      exact (h.settled_of_drop hn).mono (Nat.le_succ k) le_rfl
  asleep := h.asleep_next he
  awake x hx := by
    rcases he.origins.2.2 x hx with ⟨u, hu, hp⟩ | hrep
    · rw [hp.same_member.2.2.2.1]
      exact h.awake u hu
    · cases hrep <;> exact le_rfl
  up := h.up_next he

end Next

end Exits

end SrtBridge
