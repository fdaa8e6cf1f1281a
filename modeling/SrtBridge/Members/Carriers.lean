import SrtBridge.Members.Mirror

/-! One carrier to an endpoint. A member is spawned, for the application or to replace
another, only when nothing listed carries the endpoint's token in flight; the bridge gives
up what it replaces, and what it does not look at is listed. So of two members of an
endpoint that it has not given up one is dead or Broken for good. -/

namespace SrtBridge

open General

/-- What the readings of a group are taken to obey here; `T` is what the bridge did. -/
structure CarrierReadings (lib : Libsrt) (grp : SocketId) (T : List MemberEvent) : Prop where
  /-- A dead socket stays dead. -/
  dead : ∀ k j k' j' id, k < k' → isTerminalStatus (lib.status k j id) = true →
    isTerminalStatus (lib.status k' j' id) = true
  /-- A member once listed Broken stays Broken. -/
  broken : ∀ k j r k' j' r', r ∈ readGroupRows lib k j grp → r' ∈ readGroupRows lib k' j' grp →
    r'.id = r.id → k < k' → mapMemberStatus r.memberstate = .broken →
    mapMemberStatus r'.memberstate = .broken
  /-- A spawned member stays listed until it is closed or dead. -/
  listed : ∀ k' id ep, .spawn k' id ep ∈ T → ∀ k j, k' < k →
    (∃ r ∈ readGroupRows lib k j grp, r.id = id ∧ r.token = ep.token) ∨
      (∃ i ≤ k, .close i id ∈ T) ∨ ∃ i ≤ k, ∃ j', isTerminalStatus (lib.status i j' id) = true

/-- A member spawned for `token` that the bridge has neither closed nor superseded. -/
def Carrier (ws : List WatchedMember) (T : List MemberEvent) (token : ℤ) (id : SocketId) : Prop :=
  Carries T token id ∧ id ∉ closedIds T ∧ id ∉ supersededIds ws

/-- Listed Pending, Idle or Running in step `k`, on a socket that is not dead. -/
def InFlight (lib : Libsrt) (grp : SocketId) (k : ℕ) (id : SocketId) : Prop :=
  ∃ j j', ∃ r ∈ readGroupRows lib k j grp, r.id = id ∧
    inFlight (mapMemberStatus r.memberstate) (lib.status k j' id) = true

/-- Until its next step a group has at most one carrier of an endpoint in flight. -/
def OneCarrier (lib : Libsrt) (grp : SocketId) (r : GroupRun) : Prop :=
  ∀ token id id', Carrier r.entry.watched r.trace token id →
    Carrier r.entry.watched r.trace token id' →
    ∀ i ≥ r.step, InFlight lib grp i id → InFlight lib grp i id' → id = id'

/-- Of two carriers of an endpoint one is out. -/
def Sole (lib : Libsrt) (grp : SocketId) (ws : List WatchedMember) (k : ℕ) (T : List MemberEvent) :
    Prop :=
  ∀ token id id', Carrier ws T token id → Carrier ws T token id' → id ≠ id' →
    Out lib grp k id ∨ Out lib grp k id'

section Sole

variable {lib : Libsrt} {grp : SocketId} {ws ws' : List WatchedMember} {k k' : ℕ}
  {T events F : List MemberEvent} {id : SocketId}

theorem Out.not_inFlight (h : Out lib grp k id) (hk : k ≤ k') : ¬InFlight lib grp k' id := by
  rintro ⟨j, j', r, hr, rfl, hf⟩
  obtain ⟨hb, hl⟩ := inFlight_iff.mp hf
  rcases h with hd | hbf
  · rw [hd.terminal hk] at hl
    cases hl
  · exact hb (hbf k' j hk r hr rfl)

theorem Sole.oneCarrier {r : GroupRun} (h : Sole lib grp r.entry.watched r.step r.trace) :
    OneCarrier lib grp r := by
  intro token id id' hc hc' i hi hf hf'
  by_contra hne
  rcases h token id id' hc hc' hne with ho | ho
  · exact ho.not_inFlight hi hf
  · exact ho.not_inFlight hi hf'

theorem CarrierReadings.out (hr : CarrierReadings lib grp F) {j : ℕ}
    (h : isTerminalStatus (lib.status k j id) = true) (hk : k < k') : Out lib grp k' id :=
  .inl fun i j' hi => SockState.phase_eq_two.mpr (hr.dead k j i j' id (hk.trans_le hi) h)

/-- A member listed Broken is out from the next step on. -/
theorem CarrierReadings.broken_out (hr : CarrierReadings lib grp F) {j : ℕ} {r : GroupData}
    (h : r ∈ readGroupRows lib k j grp) (hb : mapMemberStatus r.memberstate = .broken)
    (hk : k < k') : Out lib grp k' r.id :=
  .inr fun i j' hi r' h' he => hr.broken k j r i j' r' h h' he (hk.trans_le hi) hb

theorem Carries.of_append {token : ℤ} (h : Carries (T ++ events) token id) :
    Carries T token id ∨ Carries events token id := by
  obtain ⟨i, ep, hs, ht⟩ := h
  exact (List.mem_append.mp hs).imp (fun hs => ⟨i, ep, hs, ht⟩) fun hs => ⟨i, ep, hs, ht⟩

/-- A carrier after a step was one before it, or was spawned in it. -/
theorem Carrier.of_append {token : ℤ} (h : Carrier ws' (T ++ events) token id)
    (hsup : id ∈ supersededIds ws → id ∈ supersededIds ws' ∨ id ∈ closedIds events) :
    Carrier ws T token id ∨ Carries events token id := by
  obtain ⟨hc, hn, hw⟩ := h
  rw [closedIds_append, List.mem_append, not_or] at hn
  refine hc.of_append.imp_left fun hc => ⟨hc, hn.1, fun hs => ?_⟩
  exact (hsup hs).elim hw hn.2

theorem Carries.mem_spawnedIds {token : ℤ} (h : Carries T token id) : id ∈ spawnedIds T := by
  obtain ⟨i, ep, hs, -⟩ := h
  exact SrtBridge.mem_spawnedIds.mpr ⟨i, ep, hs⟩

/-- A step that spawns nothing, supersedes no less and closes no less. -/
theorem Sole.append (h : Sole lib grp ws k T) (hk : k ≤ k')
    (hsup : ∀ id ∈ supersededIds ws, id ∈ supersededIds ws' ∨ id ∈ closedIds events)
    (hnew : ∀ token new id, Carries events token new → Carrier ws' (T ++ events) token id →
      id ≠ new → Out lib grp k' id) : Sole lib grp ws' k' (T ++ events) := by
  intro token id id' hc hc' hne
  rcases hc.of_append (hsup id) with hold | hs
  · rcases hc'.of_append (hsup id') with hold' | hs'
    · exact (h token id id' hold hold' hne).imp (·.mono hk) (·.mono hk)
    · exact .inl (hnew token id' id hs' hc hne)
  · exact .inr (hnew token id id' hs hc' hne.symm)

theorem Sole.mono (h : Sole lib grp ws k T) (hk : k ≤ k')
    (hsub : ∀ id ∈ supersededIds ws, id ∈ supersededIds ws') : Sole lib grp ws' k' T := by
  intro token id id' hc hc' hne
  have hold {a : SocketId} (ha : Carrier ws' T token a) : Carrier ws T token a :=
    ⟨ha.1, ha.2.1, fun hs => ha.2.2 (hsub a hs)⟩
  exact (h token id id' (hold hc) (hold hc') hne).imp (·.mono hk) (·.mono hk)

theorem mem_supersededIds {id : SocketId} :
    id ∈ supersededIds ws ↔ ∃ w ∈ ws, id ∈ w.supersedes := List.mem_flatMap

theorem supersededIds_perm (h : ws'.Perm ws) (hid : id ∈ supersededIds ws) :
    id ∈ supersededIds ws' := by
  obtain ⟨w, hw, hid⟩ := mem_supersededIds.mp hid
  exact mem_supersededIds.mpr ⟨w, h.mem_iff.mpr hw, hid⟩

/-- A member that no search at step `k` finds in flight is out from the next step on. The
search reads the listing of step `k₀`. -/
theorem out_of_memberInFlight_none (hr : CarrierReadings lib grp F) {k₀ j i : ℕ} {token : ℤ}
    {exclude : List SocketId} (hf : memberInFlight lib k i (readGroupRows lib k₀ j grp) token exclude = none)
    (hk : k₀ ≤ k) {b : ℕ} {ep : GroupEndpoint} (hs : .spawn b id ep ∈ F) (ht : ep.token = token)
    (hb : b < k₀) (he : id ∉ exclude) (hc : ∀ i ≤ k₀, .close i id ∉ F) : Out lib grp (k + 1) id := by
  rcases hr.listed b id ep hs k₀ j hb with ⟨r, hmem, rfl, htok⟩ | ⟨i, hi, hclose⟩ | ⟨i, hi, j', hd⟩
  · by_cases hbr : mapMemberStatus r.memberstate = .broken
    · exact hr.broken_out hmem hbr (by omega)
    · obtain ⟨n, hn⟩ := memberInFlight_none hf hmem (htok.trans ht) he hbr
      exact hr.out hn (Nat.lt_succ_self k)
  · exact absurd hclose (hc i hi)
  · exact hr.out hd (by omega)

/-- What the history closes before step `k` it has closed by then. -/
theorem Until.mem_closedIds (h : Until F k T) {i : ℕ} (hi : i < k) (hc : .close i id ∈ F) :
    id ∈ closedIds T := by
  obtain ⟨rest, rfl, hrest⟩ := h
  refine SrtBridge.mem_closedIds.mpr ⟨i, (List.mem_append.mp hc).resolve_right fun hc => ?_⟩
  have hle : k ≤ i := hrest _ hc
  omega

end Sole

section Exit

variable {lib : Libsrt} {inp : CheckInput} {k : ℕ} {seen : List WatchedMember} {w : WatchedMember}
  {unseen spawned seen' unseen' spawned' : List WatchedMember} {events : List MemberEvent}

theorem Exit.stays (h : Exit lib inp k seen w unseen spawned seen' unseen' spawned' events)
    {u : WatchedMember} (hu : u ∈ seen ++ unseen ++ spawned) :
    ∃ v ∈ seen' ++ unseen' ++ spawned', Passed lib inp k seen w unseen spawned u v := by
  have hfront : u ∈ seen ++ lastToFront unseen ++ spawned := by
    simpa [(lastToFront_perm unseen).mem_iff] using hu
  cases h with
  | later | keep | recheck =>
    refine ⟨u, ?_, .same⟩
    simp only [List.mem_append] at hu ⊢
    tauto
  | drop | abandon | close => exact ⟨u, hfront, .same⟩
  | closeSpawn | overlap => exact ⟨u, by simp only [List.mem_append] at hfront ⊢; tauto, .same⟩
  | hand hd hn hp hh =>
    obtain ⟨v, hv, rfl | ⟨rfl, rfl⟩⟩ := (exists_of_forall₂ hh.forall₂).2 u hfront
    · exact ⟨v, hv, .same⟩
    · exact ⟨_, hv, .handed hd hn hp⟩

theorem supersededIds_readLive (lib : Libsrt) (k : ℕ) (ws : List WatchedMember) :
    supersededIds (readLive lib k ws) = supersededIds ws := by
  induction ws generalizing k with
  | nil => rfl
  | cons w ws ih =>
    show w.supersedes ++ supersededIds (readLive lib (k + 1) ws) = w.supersedes ++ supersededIds ws
    rw [ih]

theorem mem_supersedes_look {id : SocketId} (h : id ∈ w.supersedes) :
    id ∈ (lookAt lib inp k w).member.supersedes ∨
      id ∈ closedIds ((lookAt lib inp k w).events k inp.now) := by
  rw [closedIds_look]
  rcases lookAt_supersedes lib inp k w with ⟨hs, -⟩ | ⟨-, -, hl⟩
  · exact .inl (hs ▸ h)
  · exact .inr (hl ▸ h)

/-- The chain of a member that is replaced is closed or superseded. -/
theorem Exit.chain_settled (h : Exit lib inp k seen w unseen spawned seen' unseen' spawned' events)
    (hd : w.notBefore ≤ inp.now) (hn : (lookAt lib inp k w).next = .repair)
    (hp : planAt lib inp k seen w unseen spawned ≠ .wait) {id : SocketId}
    (hid : id ∈ repairChain w) :
    id ∈ supersededIds (seen' ++ unseen' ++ spawned') ∨ id ∈ closedIds events := by
  cases h with
  | later h => exact absurd hd (not_le.mpr h)
  | keep _ h => rcases h with h | ⟨-, h⟩ <;> simp_all
  | recheck _ h | drop _ h | abandon _ h => simp [hn] at h
  | close => exact .inr (by rw [closedIds_append, closedIds_closeMembers]; simp [hid])
  | closeSpawn => exact .inr (by
      rw [closedIds_append, closedIds_append, closedIds_closeMembers]; simp [hid])
  | overlap => exact .inl (mem_supersededIds.mpr ⟨_, by simp; exact .inr (.inr (.inr rfl)), hid⟩)
  | hand hd hn hp hh =>
    obtain ⟨a, e, b, -, -, hab⟩ := hh
    exact .inl (mem_supersededIds.mpr ⟨_, by rw [hab]; simp; exact .inr (.inl rfl), by
      simp [hid]⟩)

/-- A turn forgets a superseded member only by closing it. -/
theorem Exit.superseded_settled
    (h : Exit lib inp k seen w unseen spawned seen' unseen' spawned' events) {id : SocketId}
    (hin : id ∈ supersededIds (seen ++ w :: unseen ++ spawned)) :
    id ∈ supersededIds (seen' ++ unseen' ++ spawned') ∨ id ∈ closedIds events := by
  obtain ⟨u, hu, hid⟩ := mem_supersededIds.mp hin
  by_cases hw : u ∈ seen ++ unseen ++ spawned
  · obtain ⟨v, hv, hp⟩ := h.stays hw
    refine .inl (mem_supersededIds.mpr ⟨v, hv, ?_⟩)
    cases hp with
    | same => exact hid
    | handed => exact List.mem_append_left _ hid
  · obtain rfl : u = w := by
      simp only [List.mem_append, List.mem_cons, not_or] at hu hw
      tauto
    have hchain : id ∈ repairChain u := mem_repairChain.mpr (.inl hid)
    cases h with
    | later => exact .inl (mem_supersededIds.mpr ⟨u, by simp, hid⟩)
    | @keep w' b hd hn hk =>
      refine (mem_supersedes_look hid).imp_left fun hs => ?_
      exact mem_supersededIds.mpr ⟨w', by simp, by rw [hk]; exact hs⟩
    | @recheck t hd hn =>
      refine (mem_supersedes_look hid).imp_left fun hs => ?_
      exact mem_supersededIds.mpr ⟨{ (lookAt lib inp k u).member with notBefore := t }, by simp, hs⟩
    | drop | abandon =>
      right
      rw [closedIds_append, closedIds_closeMembers, List.mem_append]
      refine (mem_supersedes_look hid).symm.imp_right fun hs => ?_
      first | exact hs | exact List.mem_cons_of_mem _ hs
    | close hd hn hp hw hh => exact (Exit.close hd hn hp hw hh).chain_settled hd hn (hp ▸ hw) hchain
    | hand hd hn hp hh hs hr =>
      exact (Exit.hand hd hn hp hh hs hr).chain_settled hd hn (by simp [hp]) hchain
    | closeSpawn hd hn hp hc =>
      exact (Exit.closeSpawn hd hn hp hc).chain_settled hd hn (by simp [hp]) hchain
    | overlap hd hn hp hc =>
      exact (Exit.overlap hd hn hp hc).chain_settled hd hn (by simp [hp]) hchain

/-- A turn spawns only for an endpoint that no replacement and no listed member in flight
carries. -/
theorem Exit.spawn_alone (h : Exit lib inp k seen w unseen spawned seen' unseen' spawned' events)
    {i : ℕ} {new : SocketId} {ep : GroupEndpoint} (hs : .spawn i new ep ∈ events) :
    ep = w.endpoint ∧ (∀ x ∈ spawned, x.endpoint.token ≠ w.endpoint.token) ∧
      memberInFlight lib k 0 inp.rows w.endpoint.token (repairChain w) = none ∧
      (∃ x ∈ spawned', x.id = new ∧ x.endpoint = w.endpoint) ∧
      ∀ id ∈ repairChain w, id ∈ supersededIds (seen' ++ unseen' ++ spawned') ∨
        id ∈ closedIds events := by
  obtain ⟨-, rfl, hsingle⟩ := h.mem_spawn hs
  have hnone {T : List MemberEvent} (hT : spawnedIds T = []) : .spawn i new w.endpoint ∉ T :=
    fun hin => by
      have hid := mem_spawnedIds.mpr ⟨_, _, hin⟩
      rw [hT] at hid
      cases hid
  have halone (hn : (lookAt lib inp k w).next = .repair)
      (hf : findSibling lib k (lookAt lib inp k w).member (seen ++ (lookAt lib inp k w).member :: unseen)
        spawned inp.rows = none) :
      (∀ x ∈ spawned, x.endpoint.token ≠ w.endpoint.token) ∧
        memberInFlight lib k 0 inp.rows w.endpoint.token (repairChain w) = none := by
    have hfree := findSibling_none hf
    rwa [lookAt_endpoint, lookAt_repairChain hn] at hfree
  have hsame {m : SocketId}
      (hc : (connectGroup lib k 0 inp.grp [w.endpoint]).single = .ok m) : m = new := by
    rw [hsingle] at hc
    exact (Except.ok.inj hc).symm
  cases h with
  | later => cases hs
  | keep | recheck => exact absurd hs (hnone (spawnedIds_look ..))
  | drop | abandon | close | hand => exact absurd hs (hnone (by simp))
  | closeSpawn hd hn hp hc =>
    obtain ⟨ha, hf⟩ := halone hn (planRepair_closeThenSpawn hp).1
    refine ⟨rfl, ha, hf, ⟨replacement lib inp k w _, by simp, hsame hc, rfl⟩, fun id hid => ?_⟩
    exact (Exit.closeSpawn hd hn hp hc).chain_settled hd hn (by simp [hp]) hid
  | overlap hd hn hp hc =>
    obtain ⟨ha, hf⟩ := halone hn (planRepair_spawnThenClose hp).1
    refine ⟨rfl, ha, hf, ⟨_, List.mem_append_right _ (List.mem_singleton_self _), hsame hc, rfl⟩,
      fun id hid => ?_⟩
    exact (Exit.overlap hd hn hp hc).chain_settled hd hn (by simp [hp]) hid

end Exit

/-- What a check that listed the group at `k₀` knows of the carriers at its turn of step `k`:
what was spawned since is among its replacements. -/
structure Carrying (lib : Libsrt) (grp : SocketId) (k₀ : ℕ) (inp : CheckInput)
    (ws spawned : List WatchedMember) (k : ℕ) (T : List MemberEvent) : Prop where
  begun : k₀ < k
  rows : inp.rows = readGroupRows lib k₀ 0 grp
  steps : ∀ e ∈ T, e.step < k
  sole : Sole lib grp ws k T
  births : ∀ i id ep, .spawn i id ep ∈ T → i < k₀ ∨ ∃ x ∈ spawned, x.id = id ∧ x.endpoint = ep

section Run

variable {lib : Libsrt} {grp : SocketId} {F T events : List MemberEvent} {k : ℕ}

/-- A turn of a check leaves one carrier to an endpoint. -/
theorem Carrying.turn (hr : CarrierReadings lib grp F) {k₀ : ℕ} {inp : CheckInput}
    {seen : List WatchedMember} {w : WatchedMember}
    {unseen spawned seen' unseen' spawned' : List WatchedMember}
    (h : Carrying lib grp k₀ inp (seen ++ w :: unseen ++ spawned) spawned k T)
    (hF : Until F (k + 1) (T ++ events))
    (hx : Exit lib inp k seen w unseen spawned seen' unseen' spawned' events) :
    Carrying lib grp k₀ inp (seen' ++ unseen' ++ spawned') spawned' (k + 1) (T ++ events) := by
  have hT : Until F k T := hF.of_append (Nat.le_succ k) fun e he => (hx.step_eq e he).ge
  refine ⟨h.begun.trans (Nat.lt_succ_self k), h.rows, steps_append h.steps hx.step_eq, ?_, ?_⟩
  · refine h.sole.append (Nat.le_succ k) (fun id => hx.superseded_settled) ?_
    rintro token new id ⟨i, ep, hs, rfl⟩ hc hne
    obtain ⟨rfl, halone, hf, -, hchain⟩ := hx.spawn_alone hs
    obtain ⟨b, ep', hb, ht⟩ := hc.1
    have hold : .spawn b id ep' ∈ T := (List.mem_append.mp hb).resolve_right fun hb => by
      obtain ⟨-, rfl, hsingle⟩ := hx.mem_spawn hb
      rw [(hx.mem_spawn hs).2.2] at hsingle
      exact hne (Except.ok.inj hsingle).symm
    have hborn : b < k₀ := (h.births b id ep' hold).resolve_right fun ⟨x, hxs, _, he⟩ =>
      halone x hxs (he ▸ ht)
    have hout : id ∉ repairChain w := fun hid => by
      rcases hchain id hid with hsup | hcl
      · exact hc.2.2 hsup
      · exact hc.2.1 (by rw [closedIds_append]; exact List.mem_append_right _ hcl)
    refine out_of_memberInFlight_none hr (h.rows ▸ hf) h.begun.le (hT.subset hold) ht hborn hout ?_
    intro i hi hcl
    exact hc.2.1 (hF.mem_closedIds (by have := h.begun; omega) hcl)
  · intro i id ep hs
    rcases List.mem_append.mp hs with hs | hs
    · refine (h.births i id ep hs).imp_right fun ⟨x, hxs, hid, he⟩ => ?_
      obtain ⟨v, hv, hp⟩ := hx.spawned_stay hxs
      exact ⟨v, hv, hp.same_member.1.trans hid, hp.same_member.2.1.trans he⟩
    · obtain ⟨rfl, -, -, ⟨x, hxs, hid, he⟩, -⟩ := hx.spawn_alone hs
      exact .inr ⟨x, hxs, hid, he⟩

theorem Sole.add (hr : CarrierReadings lib grp F) {ws : List WatchedMember} {now : Instant}
    {endpoint : GroupEndpoint} {member : SocketId} (h : Sole lib grp ws k T)
    (hs : ∀ e ∈ T, e.step < k) (hF : Until F (k + 1) (T ++ [.spawn k member endpoint]))
    (hf : memberInFlight lib k 1 (readGroupRows lib k 0 grp) endpoint.token [] = none) :
    Sole lib grp (ws ++ [.spawned lib k member endpoint now]) (k + 1)
      (T ++ [.spawn k member endpoint]) := by
  refine h.append (Nat.le_succ k) (fun id hid => .inl ?_) ?_
  · obtain ⟨w, hw, hid⟩ := mem_supersededIds.mp hid
    exact mem_supersededIds.mpr ⟨w, List.mem_append_left _ hw, hid⟩
  rintro token new id ⟨i, ep, hspawn, rfl⟩ hc hne
  obtain ⟨rfl, rfl, rfl⟩ := MemberEvent.spawn.inj (List.mem_singleton.mp hspawn)
  obtain ⟨b, ep', hb, ht⟩ := hc.1
  have hold : .spawn b id ep' ∈ T := (List.mem_append.mp hb).resolve_right fun hb =>
    hne (MemberEvent.spawn.inj (List.mem_singleton.mp hb)).2.1
  refine out_of_memberInFlight_none hr hf le_rfl (hF.subset (List.mem_append_left _ hold)) ht
    (hs _ hold) (List.not_mem_nil) fun i hi hcl => hc.2.1 (hF.mem_closedIds (by omega) hcl)

/-- One carrier to an endpoint is kept by every action but another connect. -/
theorem sole_preserved (hr : CarrierReadings lib grp F) :
    Preserved lib grp (fun a => ∀ endpoints, a ≠ .connect endpoints)
      (fun ws _ k T => Until F k T → Sole lib grp ws k T ∧ ∀ e ∈ T, e.step < k)
      (fun inp seen unseen spawned k T => Until F k T → ∃ k₀,
        Carrying lib grp k₀ inp (seen ++ unseen ++ spawned) spawned k T) where
  elapse _ _ h := h
  skip now h hF := by
    obtain ⟨hsole, hs⟩ := h (hF.mono (Nat.le_succ _))
    exact ⟨hsole.mono (Nat.le_succ _) fun _ => id, fun e he => (hs e he).trans (Nat.lt_succ_self _)⟩
  reorder now hp h hF := by
    obtain ⟨hsole, hs⟩ := h hF
    exact ⟨hsole.mono le_rfl fun _ => supersededIds_perm hp, hs⟩
  connect {_ _ _ _ endpoints} ho _ _ := absurd rfl (ho endpoints)
  add {ws now k T endpoint member} _ h hf hc hF := by
    have hstep : ∀ e ∈ [MemberEvent.spawn k member endpoint], e.step = k := by
      simp [MemberEvent.step]
    obtain ⟨hsole, hs⟩ := h (hF.of_append (Nat.le_succ k) fun e he => (hstep e he).ge)
    exact ⟨hsole.add hr hs hF hf, steps_append hs hstep⟩
  begin {ws now k T inp} h _ _ hrows hF := by
    obtain ⟨hsole, hs⟩ := h (hF.mono (by omega))
    refine ⟨k + ws.length, by omega, hrows, fun e he => (hs e he).trans (by omega), ?_,
      fun i id ep hsp => .inl ((hs _ hsp).trans_le (by omega))⟩
    refine hsole.mono (by omega) fun id hid => ?_
    rwa [List.nil_append, List.append_nil, supersededIds_readLive]
  turn {inp seen w unseen spawned k T _ _ _ events} h hx hF := by
    obtain ⟨k₀, hc⟩ := h (hF.of_append (Nat.le_succ k) fun e he => (hx.step_eq e he).ge)
    exact ⟨k₀, hc.turn hr hF hx⟩
  finish {inp ws spawned k T} h hF := by
    obtain ⟨k₀, hc⟩ := h (hF.mono (Nat.le_succ _))
    exact ⟨hc.sole.mono (Nat.le_succ _) (by simp),
      fun e he => (hc.steps e he).trans (Nat.lt_succ_self _)⟩

/-- The members of one connect call, one to an endpoint. -/
theorem sole_connect {members : List (GroupEndpoint × SocketId)} {ws : List WatchedMember}
    (hd : (members.map fun e => e.1.token).Nodup) :
    Sole lib grp ws 1 (spawnEvents 0 members) := by
  rintro token id id' ⟨⟨i, ep, hs, rfl⟩, -⟩ ⟨⟨i', ep', hs', ht⟩, -⟩ hne
  obtain ⟨e, he, heq⟩ := List.mem_map.mp hs
  obtain ⟨e', he', heq'⟩ := List.mem_map.mp hs'
  obtain ⟨-, rfl, rfl⟩ := MemberEvent.spawn.inj heq
  obtain ⟨-, rfl, rfl⟩ := MemberEvent.spawn.inj heq'
  exact absurd (congrArg Prod.snd (List.inj_on_of_nodup_map hd he he' ht.symm)) hne

/-- One endpoint never ends up with two carriers: after a connect of distinct endpoints,
whatever re-adds and repairs race each other, at most one member of an endpoint that the
bridge has neither closed nor superseded is in flight. -/
theorem one_carrier (lib : Libsrt) (grp : SocketId) (backup : Bool) (endpoints : List GroupEndpoint)
    (hd : (endpoints.map GroupEndpoint.token).Nodup) (actions : List GroupRun.Action)
    (ha : ∀ a ∈ actions, ∀ endpoints, a ≠ .connect endpoints) :
    let r := ((GroupRun.start backup).connect lib grp endpoints).2.run lib grp actions
    CarrierReadings lib grp r.trace → OneCarrier lib grp r := by
  intro r hr
  have hstart : ((GroupRun.start backup).connect lib grp endpoints).2.Holds fun ws _ k T =>
      Until r.trace k T → Sole lib grp ws k T ∧ ∀ e ∈ T, e.step < k := by
    cases hc : (connectGroup lib 0 0 grp endpoints).refused with
    | some err =>
      simp only [GroupRun.connect, GroupRun.start, hc]
      have hnone : Sole lib grp [] 1 (spawnEvents 0 []) := sole_connect List.nodup_nil
      exact ⟨rfl, fun _ => ⟨hnone, by simp⟩⟩
    | none =>
      have hsub := spawnedMembers_endpoints endpoints (connectGroup lib 0 0 grp endpoints).members
      have hnodup := hd.sublist (hsub.map GroupEndpoint.token)
      rw [List.map_map] at hnodup
      simp only [GroupRun.connect, GroupRun.start, hc]
      refine ⟨by simp [SocketState.freshGroup], fun _ => ⟨sole_connect hnodup, fun e he => ?_⟩⟩
      obtain ⟨m, -, rfl⟩ := List.mem_map.mp he
      exact Nat.zero_lt_one
  have hrun := (sole_preserved hr).holds_run ha hstart
  exact (hrun.2 ⟨[], by simp [r], by simp⟩).1.oneCarrier

/-- A link that broke after it had been let go is re-added under its token. -/
theorem one_carrier_readded :
    let ep : GroupEndpoint := ⟨.v4 0x7f000001 9000, none, 1, 7⟩
    let lib := Libsrt.scripted
      (fun k => if k < 5 then [⟨1, .connected, .idle, 1, 7⟩]
        else ⟨1, .connected, .broken, 1, 7⟩ :: if k < 6 then [] else [⟨6, .connected, .idle, 1, 7⟩])
      fun _ _ => .connected
    let r := ((GroupRun.start false).connect lib 500 [ep]).2.run lib 500 [.check, .add ep]
    spawnedIds r.trace = [1, 6] ∧ OneCarrier lib 500 r := by
  intro ep lib r
  have hspawn : r.trace.all fun e => e.spawnedId.isNone ||
      decide (e ∈ [.spawn 0 1 ep, .spawn 5 6 ep]) := by
    decide +kernel
  have hrows (k j : ℕ) : readGroupRows lib k j 500 = if k < 5 then [⟨1, .connected, .idle, 1, 7⟩]
      else ⟨1, .connected, .broken, 1, 7⟩ :: if k < 6 then [] else [⟨6, .connected, .idle, 1, 7⟩] :=
    rfl
  have hmem {k j : ℕ} {x : GroupData} (hx : x ∈ readGroupRows lib k j 500) :
      k < 5 ∧ x = ⟨1, .connected, .idle, 1, 7⟩ ∨ 5 ≤ k ∧ x = ⟨1, .connected, .broken, 1, 7⟩ ∨
        x = ⟨6, .connected, .idle, 1, 7⟩ := by
    rw [hrows] at hx
    split_ifs at hx with h h' <;> simp only [List.mem_cons, List.not_mem_nil, or_false] at hx
    · exact .inl ⟨h, hx⟩
    · exact .inr (.inl ⟨not_lt.mp h, hx⟩)
    · exact .inr (hx.imp_left fun hx => ⟨not_lt.mp h, hx⟩)
  have hlive : ¬isTerminalStatus (rawStateToStatus .connected) = true := by decide
  have hr : CarrierReadings lib 500 r.trace := by
    refine ⟨fun k j k' j' id _ h => absurd h hlive, ?_, fun k' id e hs k j hk => .inl ?_⟩
    · intro k j x k' j' y hx hy hid hk hb
      rcases hmem hx with ⟨-, rfl⟩ | ⟨h, rfl⟩ | rfl
      · cases hb
      · rcases hmem hy with ⟨h', -⟩ | ⟨-, rfl⟩ | rfl
        · omega
        · rfl
        · exact absurd hid (by decide)
      · cases hb
    · have hbirth : MemberEvent.spawn k' id e = .spawn 0 1 ep ∨
          MemberEvent.spawn k' id e = .spawn 5 6 ep := by
        simpa [MemberEvent.spawnedId] using List.all_eq_true.mp hspawn _ hs
      rw [hrows]
      rcases hbirth with hb | hb <;> obtain ⟨rfl, rfl, rfl⟩ := MemberEvent.spawn.inj hb
      · split_ifs <;> simp [ep]
      · rw [if_neg (by omega), if_neg (by omega)]
        simp [ep]
  exact ⟨by decide +kernel, one_carrier lib 500 false [ep] (by decide) [.check, .add ep] (by simp) hr⟩

end Run

end SrtBridge
