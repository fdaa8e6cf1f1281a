import SrtBridge.Members.Standing

/-! The repair never empties the peer's mirror group: a member is closed for the sake
of another only while that one is connected, and a member whose replacement is on its
way is not closed. -/

namespace SrtBridge

/-- A member other than `id`, not closed up to step `k`, has a connected socket. -/
def OtherUp (lib : Libsrt) (T : List MemberEvent) (k : ℕ) (id : SocketId) : Prop :=
  ∃ m, m ≠ id ∧ Born T k m ∧ (∀ i, .close i m ∈ T → k < i) ∧
    lib.getsockstate k 0 m = .connected

/-- What the plan of step `k` for `id` must not do to the mirror group. -/
def PlanSafe (lib : Libsrt) (T : List MemberEvent) (k : ℕ) (id : SocketId) (plan : RepairPlan) :
    Prop :=
  (plan = .closeThenSpawn ∨ (∃ other, plan = .joinSibling other) → OtherUp lib T k id) ∧
    ((plan = .spawnThenClose ∧ ∃ new ep, .spawn k new ep ∈ T) ∨
      (∃ other, plan = .handToSibling other) → .close k id ∉ T)

/-- No plan empties the mirror group. -/
def MirrorKept (lib : Libsrt) (T : List MemberEvent) : Prop :=
  ∀ k id chain plan, .repair k id chain plan ∈ T → PlanSafe lib T k id plan

section Append

variable {lib : Libsrt} {T events : List MemberEvent} {k : ℕ}

theorem PlanSafe.append {i : ℕ} {id : SocketId} {plan : RepairPlan}
    (h : PlanSafe lib T i id plan) (hi : i < k) (he : ∀ e ∈ events, e.step = k) :
    PlanSafe lib (T ++ events) i id plan := by
  have hold {e : MemberEvent} (hmem : e ∈ T ++ events) (hstep : e.step = i) : e ∈ T := by
    refine (List.mem_append.mp hmem).resolve_right fun hin => ?_
    have := he e hin
    omega
  refine ⟨fun hp => ?_, fun hp hc => h.2 ?_ (hold hc rfl)⟩
  · obtain ⟨m, hne, hb, hc, hup⟩ := h.1 hp
    refine ⟨m, hne, hb.append, fun j hj => ?_, hup⟩
    rcases List.mem_append.mp hj with hj | hj
    · exact hc j hj
    · have hstep : j = k := he _ hj
      omega
  · exact hp.imp_left fun ⟨hp, new, ep, hs⟩ => ⟨hp, new, ep, hold hs rfl⟩

theorem MirrorKept.append (h : MirrorKept lib T) (hT : ∀ e ∈ T, e.step < k)
    (he : ∀ e ∈ events, e.step = k)
    (hnew : ∀ i id chain plan, .repair i id chain plan ∈ events →
      PlanSafe lib (T ++ events) i id plan) : MirrorKept lib (T ++ events) := by
  intro i id chain plan hmem
  rcases List.mem_append.mp hmem with hmem | hmem
  · exact (h i id chain plan hmem).append (hT _ hmem) he
  · exact hnew i id chain plan hmem

end Append

section Turn

variable {lib : Libsrt} {grp : SocketId} {kb k₀ k : ℕ} {inp : CheckInput}
  {seen unseen spawned seen' unseen' spawned' : List WatchedMember} {w : WatchedMember}
  {T F events : List MemberEvent}

/-- A member with a connected socket was not closed before. -/
theorem Readings.not_closed (hr : Readings lib grp F) (hT : T ⊆ F) (hsteps : ∀ e ∈ T, e.step < k)
    {m : SocketId} {i : ℕ} (hc : isTerminalStatus (lib.status k i m) = false) (j : ℕ) :
    .close j m ∉ T := by
  intro hj
  have hdead := SockState.phase_eq_two.mp (hr.closedDead j m (hT hj) k i (hsteps _ hj))
  rw [Libsrt.status, hdead] at hc
  cases hc

/-- A superseded member found in flight, with no replacement of its endpoint spawned in
this check, is settled. -/
theorem Turn.settled_of_superseded (h : Turn lib grp F kb k₀ inp seen w unseen spawned k T)
    (hn : (lookAt lib inp k w).next = .repair)
    (hnone : ∀ x ∈ spawned, x.endpoint.token ≠ w.endpoint.token) {v : WatchedMember}
    (hv : v ∈ seen ++ w :: unseen ++ spawned) (ht : v.endpoint.token = w.endpoint.token)
    {id : SocketId} (hid : id ∈ v.supersedes) (hchain : id ∉ repairChain w) :
    Settled lib grp k id k₀ := by
  rcases h.superseded v hv id hid with hs | ⟨-, hdead | ⟨⟨x, hx, hxt⟩, -⟩⟩
  · exact hs
  · exact absurd (hdead w (by simp) ht.symm hchain) (h.not_dead hn)
  · exact absurd (hxt.trans ht) (hnone x hx)

/-- A sibling the bridge no longer watches has a connected socket. -/
theorem Turn.unwatched_connected (h : Turn lib grp F kb k₀ inp seen w unseen spawned k T)
    (hsteps : ∀ e ∈ T, e.step < k) (hlisted : ∀ r ∈ inp.rows, r.id ∈ spawnedIds T)
    (hn : (lookAt lib inp k w).next = .repair) {other : SocketId}
    (hs : findSibling lib k (lookAt lib inp k w).member (seen ++ (lookAt lib inp k w).member :: unseen)
      spawned inp.rows = some (other, false)) :
    other ∉ repairChain w ∧ other ∈ spawnedIds T ∧ ∃ i, lib.getsockstate k i other = .connected := by
  rcases findSibling_some hs with ⟨-, -, -, -, hf⟩ | ⟨hnone, hf, hw⟩
  · cases hf
  obtain ⟨r, hmem, i, rfl, ht, hchain, hb, hlive⟩ := memberInFlight_some hf
  rw [lookAt_repairChain hn] at hchain
  simp only [lookAt_endpoint] at ht hnone
  have hk := h.begun
  have hin := hlisted r hmem
  refine ⟨hchain, hin, i, ?_⟩
  have key (hsettled : Settled lib grp k r.id k₀) : lib.getsockstate k i r.id = .connected := by
    rcases hsettled with hup | hbf
    · exact hup.connected le_rfl hlive
    · exact absurd (hbf k₀ 0 le_rfl r (h.rows ▸ hmem) rfl) hb
  -- the ledger has the sibling closed, released, watched or superseded
  have hpos : 0 < (spawnedIds T).count r.id := List.count_pos_iff.mpr hin
  have hled := h.acc.2 r.id
  have hclosed : (closedIds T).count r.id = 0 := List.count_eq_zero.mpr fun hc =>
    have ⟨j, hj⟩ := mem_closedIds.mp hc
    h.readings.not_closed h.sub hsteps hlive j hj
  by_cases hreleased : r.id ∈ releasedIds T
  · exact key (h.released r.id hreleased)
  have hrel : (releasedIds T).count r.id = 0 := List.count_eq_zero.mpr hreleased
  have hunwatched : r.id ∉ watchedIds (seen ++ w :: unseen ++ spawned) := by
    intro hwatched
    obtain ⟨v, hv, hvid⟩ := List.mem_map.mp hwatched
    have hvw : v ≠ w := by
      rintro rfl
      exact hchain (mem_repairChain.mpr (.inr hvid.symm))
    refine absurd (hw.mp ⟨v, ?_, hvid⟩) (by simp)
    simp only [List.mem_append, List.mem_cons] at hv ⊢
    tauto
  have hsup : r.id ∈ supersededIds (seen ++ w :: unseen ++ spawned) := by
    rw [held, List.count_eq_zero.mpr hunwatched] at hled
    exact List.count_pos_iff.mp (by omega)
  obtain ⟨v, hv, hvs⟩ := List.mem_flatMap.mp hsup
  obtain ⟨b, ep, hspawn, hep⟩ := h.own v hv r.id (mem_repairChain.mpr (.inl hvs))
  have htok := h.honest.token k₀ 0 r (h.rows ▸ hmem) b ep (h.sub hspawn)
  exact key (h.settled_of_superseded hn hnone hv (by rw [← hep, htok, ht]) hvs hchain)

theorem Turn.planSafe (h : Turn lib grp F kb k₀ inp seen w unseen spawned k T)
    (he : Exit lib inp k seen w unseen spawned seen' unseen' spawned' events)
    (hsub : T ++ events ⊆ F) (hsteps : ∀ e ∈ T, e.step < k)
    (hlisted : ∀ r ∈ inp.rows, r.id ∈ spawnedIds T) {i : ℕ} {id : SocketId}
    {chain : List SocketId} {plan : RepairPlan} (hr : .repair i id chain plan ∈ events) :
    PlanSafe lib (T ++ events) i id plan := by
  obtain ⟨rfl, rfl, hn, hp, hcloses, hkeeps⟩ := he.repairs hr
  have hold {e : MemberEvent} (hmem : e ∈ T ++ events) (hstep : e.step = i) : e ∈ events :=
    (List.mem_append.mp hmem).resolve_left fun hin => by
      have := hsteps e hin
      omega
  refine ⟨fun hplan => ?_, fun hplan hc => ?_⟩
  · have key {m : SocketId} (hm : m ∉ repairChain w) (hin : m ∈ spawnedIds T)
        (hup : ∃ j, lib.getsockstate i j m = .connected) : OtherUp lib (T ++ events) i w.id := by
      obtain ⟨j, hup⟩ := hup
      have hup : lib.getsockstate i 0 m = .connected := by
        rw [← hup]
        exact h.readings.steady i w.id chain plan (hsub (List.mem_append_right _ hr)) 0 j m
      obtain ⟨b, ep, hs⟩ := mem_spawnedIds.mp hin
      refine ⟨m, fun hmw => hm (by simp [hmw]), ⟨b, ep, List.mem_append_left _ hs,
        h.acc.1 b m ep hs⟩, fun c hc => ?_, hup⟩
      have hlive : isTerminalStatus (lib.status i 0 m) = false := by rw [Libsrt.status, hup]; rfl
      rcases List.mem_append.mp hc with hc | hc
      · exact absurd hc (h.readings.not_closed h.sub hsteps hlive c)
      · exact absurd (hcloses c m hc).2 hm
    have hwatched {m : WatchedMember} (hm : m.id ∉ repairChain w)
        (hin : m ∈ seen ++ (lookAt lib inp i w).member :: unseen ++ spawned) :
        m.id ∈ spawnedIds T := by
      have hne : m ≠ (lookAt lib inp i w).member := by
        rintro rfl
        exact hm (by simp)
      refine h.acc.mem_spawnedIds (w := m) ?_ (by simp)
      simp only [List.mem_append, List.mem_cons] at hin ⊢
      tauto
    have hothers (hup : otherMemberAtPeer lib i inp.rows.length inp.rows
          (repairChain (lookAt lib inp i w).member) = true ∨
        otherMemberBrokenLive lib i (2 * inp.rows.length)
          (seen ++ (lookAt lib inp i w).member :: unseen ++ spawned) inp.rows
          (repairChain (lookAt lib inp i w).member) = true) :
        OtherUp lib (T ++ events) i w.id := by
      rw [lookAt_repairChain hn] at hup
      rcases hup with hup | hup
      · obtain ⟨r, hmem, hm, -, hc⟩ := exists_of_otherMemberAtPeer hup
        exact key hm (hlisted r hmem) hc
      · obtain ⟨m, hmem, hm, hc⟩ := exists_of_otherMemberBrokenLive hup
        exact key hm (hwatched hm hmem) hc
    rcases hplan with rfl | ⟨other, rfl⟩
    · exact hothers (planRepair_closeThenSpawn hp).2
    · rcases planRepair_joinSibling hp with hs | ⟨-, hup⟩
      · obtain ⟨hm, hin, hc⟩ := h.unwatched_connected hsteps hlisted hn hs
        exact key hm hin hc
      · exact hothers hup
  · refine hkeeps (hplan.imp_left ?_) i w.id (hold hc rfl)
    rintro ⟨hp, new, ep, hs⟩
    exact ⟨hp, i, new, ep, hold hs rfl⟩

end Turn

section Rested

variable {lib : Libsrt} {grp : SocketId} {ws ws' : List WatchedMember} {now : Instant} {k : ℕ}
  {T F : List MemberEvent}

theorem Rested.mono {now' : Instant} {k' : ℕ} (h : Rested lib grp ws now k T) (hn : now ≤ now')
    (hk : k ≤ k') : Rested lib grp ws now' k' T where
  own := h.own
  apart v hv w hw hne ht := (h.apart v hv w hw hne ht).imp (fun h => h.mono hk) fun h => h.mono hk
  superseded w hw id hid := (h.superseded w hw id hid).imp (fun h => h.mono hk hk)
    fun h v hv ht hc => (h v hv ht hc).mono hk
  released id hid := (h.released id hid).mono hk hk
  asleep v hv hnb := (h.asleep v hv (lt_of_le_of_lt hn hnb)).mono hk

theorem Rested.perm (h : Rested lib grp ws now k T) (hp : ws'.Perm ws) :
    Rested lib grp ws' now k T where
  own w hw := h.own w (hp.mem_iff.mp hw)
  apart v hv w hw := h.apart v (hp.mem_iff.mp hv) w (hp.mem_iff.mp hw)
  superseded w hw id hid := (h.superseded w (hp.mem_iff.mp hw) id hid).imp_right
    fun h v hv => h v (hp.mem_iff.mp hv)
  released := h.released
  asleep v hv := h.asleep v (hp.mem_iff.mp hv)

/-- A member added when no member of its endpoint is in flight. -/
theorem Rested.add (h : Rested lib grp ws now k T) (ha : Accounted ws k T)
    (hr : Readings lib grp F) (hl : HonestListing lib grp F) (hT : T ⊆ F)
    {endpoint : GroupEndpoint} {member : SocketId}
    (hf : memberInFlight lib k 1 (readGroupRows lib k 0 grp) endpoint.token [] = none) :
    Rested lib grp (ws ++ [.spawned lib k member endpoint now]) now (k + 1)
      (T ++ [.spawn k member endpoint]) := by
  -- no member of the endpoint is in flight
  have hout {w : WatchedMember} (hw : w ∈ ws) {id : SocketId} (hid : id ∈ repairChain w)
      (ht : w.endpoint.token = endpoint.token) : Out lib grp (k + 1) id := by
    obtain ⟨b, ep, hs, hep⟩ := h.own w hw id hid
    have hset := settled_of_memberInFlight_none hr hl hT le_rfl hf
      ⟨b, ep, hs, hep.trans ht⟩ ⟨b, ep, hs, ha.1 b id ep hs⟩ (by simp)
    exact hset.symm.imp_right fun hbf => hbf.mono (Nat.le_succ k)
  have hmem {v : WatchedMember} (hv : v ∈ ws ++ [.spawned lib k member endpoint now]) :
      v ∈ ws ∨ v = .spawned lib k member endpoint now := by simpa using hv
  constructor
  · intro w hw id hid
    rcases hmem hw with hw | rfl
    · exact (h.own w hw id hid).append
    · obtain rfl : id = member := by simpa using hid
      exact ⟨k, endpoint, by simp, rfl⟩
  · intro v hv w hw hne ht
    rcases hmem hv with hv | rfl <;> rcases hmem hw with hw | rfl
    · exact (h.apart v hv w hw hne ht).imp (fun h => h.mono (Nat.le_succ k))
        fun h => h.mono (Nat.le_succ k)
    · exact .inl (hout hv (by simp) ht)
    · exact .inr (hout hw (by simp) ht.symm)
    · exact absurd rfl hne
  · intro w hw id hid
    rcases hmem hw with hw | rfl
    · by_cases ht : w.endpoint.token = endpoint.token
      · exact .inl ((hout hw (mem_repairChain.mpr (.inl hid)) ht).imp (fun h => h.up) fun h => h)
      · refine (h.superseded w hw id hid).imp (fun h => h.mono (Nat.le_succ k) (Nat.le_succ k))
          fun hdead v hv hvt hc => ?_
        rcases hmem hv with hv | rfl
        · exact (hdead v hv hvt hc).mono (Nat.le_succ k)
        · exact absurd hvt.symm ht
    · cases hid
  · intro id hid
    exact (h.released id (by simpa using hid)).mono (Nat.le_succ k) (Nat.le_succ k)
  · intro v hv hnb
    rcases hmem hv with hv | rfl
    · exact (h.asleep v hv hnb).mono (Nat.le_succ k)
    · exact absurd hnb (lt_irrefl now)

theorem Rested.begin (h : Rested lib grp ws now k T) (ha : Accounted ws k T)
    {inp : CheckInput} (hn : inp.now = now)
    (hrows : inp.rows = readGroupRows lib (k + ws.length) 0 grp) :
    Standing lib grp k (k + ws.length) inp [] (readLive lib k ws) [] (k + ws.length + 1) T := by
  have hsource {v : WatchedMember} (hv : v ∈ readLive lib k ws) : ∃ u ∈ ws, v.id = u.id ∧
      v.endpoint = u.endpoint ∧ v.supersedes = u.supersedes ∧ v.notBefore = u.notBefore := by
    obtain ⟨u, hu, i, -, -, rfl⟩ := mem_readLive hv
    exact ⟨u, hu, rfl, rfl, rfl, rfl⟩
  have hchain {v u : WatchedMember} (hid : v.id = u.id) (hs : v.supersedes = u.supersedes) :
      repairChain v = repairChain u := by simp [repairChain, hid, hs]
  exact
    { begun := ⟨Nat.le_add_right .., Nat.lt_succ_self _⟩
      rows := hrows
      own := fun w hw id hid => by
        obtain ⟨u, hu, hid', hep, hs, -⟩ := hsource (by simpa using hw)
        rw [hep]
        exact h.own u hu id (hchain hid' hs ▸ hid)
      old := fun w hw id hid => by
        obtain ⟨u, hu, hid', -, hs, -⟩ := hsource hw
        obtain ⟨b, ep, hspawn⟩ := mem_spawnedIds.mp (ha.mem_spawnedIds hu (hchain hid' hs ▸ hid))
        exact ⟨b, ep, hspawn, ha.1 b id ep hspawn⟩
      oldSuperseded := by simp
      read := fun v hv => by
        obtain ⟨u, -, i, hi, hik, rfl⟩ := mem_readLive hv
        exact ⟨i, hi, hik, rfl⟩
      apart := fun v hv w hw hne ht => by
        obtain ⟨u, hu, hid, hep, -⟩ := hsource hv
        obtain ⟨u', hu', hid', hep', -⟩ := hsource hw
        rw [hid, hid'] at hne ⊢
        exact h.apart u hu u' hu' hne (by rw [← hep, ht, hep'])
      single := by simp
      aside := by simp
      superseded := fun w hw id hid => by
        obtain ⟨u, hu, -, hep, hs, -⟩ := hsource (by simpa using hw)
        rcases h.superseded u hu id (hs ▸ hid) with hset | hdead
        · exact .inl (hset.mono (by omega) (by omega))
        · refine .inr ⟨by simp, .inl fun v hv ht hc => ?_⟩
          obtain ⟨u', hu', hid', hep', hs', -⟩ := hsource (by simpa using hv)
          rw [hid']
          exact hdead u' hu' (by rw [← hep', ht, hep]) (hchain hid' hs' ▸ hc)
      released := fun id hid => (h.released id hid).mono (by omega) (by omega)
      asleep := fun v hv hnb => by
        obtain ⟨u, hu, hid, -, -, hu'⟩ := hsource hv
        rw [hid]
        exact (h.asleep u hu (by rw [← hu', ← hn]; exact hnb)).mono (by omega)
      awake := by simp
      up := by simp }

theorem Standing.finish {kb k₀ : ℕ} {inp : CheckInput} {spawned : List WatchedMember}
    (h : Standing lib grp kb k₀ inp ws [] spawned k T) :
    Rested lib grp (ws ++ spawned) inp.now (k + 1) T := by
  have hk := h.begun
  have hout {x v : WatchedMember} (hx : x ∈ spawned) (hv : v ∈ ws)
      (ht : v.endpoint.token = x.endpoint.token) : Out lib grp (k + 1) v.id :=
    (h.aside x hx v (by simpa using hv) ht).symm.imp (fun h => h.mono (Nat.le_succ k))
      fun h => h.mono (by omega)
  constructor
  · simpa using h.own
  · intro v hv w hw hne ht
    rcases List.mem_append.mp hv with hv | hv <;> rcases List.mem_append.mp hw with hw | hw
    · exact (h.apart v (by simpa using hv) w (by simpa using hw) hne ht).imp
        (fun h => h.mono (by omega)) fun h => h.mono (by omega)
    · exact .inl (hout hw hv ht)
    · exact .inr (hout hv hw ht.symm)
    · exact absurd (h.single v hv w hw ht) hne
  · intro w hw id hid
    rcases h.superseded w (by simpa using hw) id hid with hset | ⟨hx, hrest⟩
    · exact .inl (hset.mono (Nat.le_succ k) (by omega))
    · refine .inr fun v hv ht hc => ?_
      rcases List.mem_append.mp hv with hv | hv
      · rcases hrest with hdead | ⟨-, hdead, -⟩
        · exact (hdead v (by simpa using hv) ht hc).mono (by omega)
        · exact (hdead v hv ht).mono (Nat.le_succ k)
      · exact absurd (hx v hv ht) hc
  · exact fun id hid => (h.released id hid).mono (Nat.le_succ k) (by omega)
  · intro v hv hnb
    rcases List.mem_append.mp hv with hv | hv
    · exact (h.asleep v (by simpa using hv) hnb).mono (Nat.le_succ k)
    · exact absurd (h.awake v hv) (not_le.mpr hnb)

end Rested

section Run

variable {lib : Libsrt} {grp : SocketId} {F : List MemberEvent}

/-- `T` is what the history holds of the steps before `k`. -/
def Until (F : List MemberEvent) (k : ℕ) (T : List MemberEvent) : Prop :=
  ∃ rest, F = T ++ rest ∧ ∀ e ∈ rest, k ≤ e.step

theorem Until.of_append {T events : List MemberEvent} {k k' : ℕ} (h : Until F k' (T ++ events))
    (hk : k ≤ k') (he : ∀ e ∈ events, k ≤ e.step) : Until F k T := by
  obtain ⟨rest, hF, hrest⟩ := h
  refine ⟨events ++ rest, by rw [hF, List.append_assoc], fun e hmem => ?_⟩
  rcases List.mem_append.mp hmem with hmem | hmem
  · exact he e hmem
  · exact hk.trans (hrest e hmem)

theorem Until.mono {T : List MemberEvent} {k k' : ℕ} (h : Until F k' T) (hk : k ≤ k') :
    Until F k T := by
  obtain ⟨rest, hF, hrest⟩ := h
  exact ⟨rest, hF, fun e he => hk.trans (hrest e he)⟩

theorem Until.nodup {T : List MemberEvent} {k : ℕ} (h : Until F k T) (hn : (spawnedIds F).Nodup) :
    (spawnedIds T).Nodup := by
  obtain ⟨rest, rfl, -⟩ := h
  exact nodup_of_append hn

theorem Until.subset {T : List MemberEvent} {k : ℕ} (h : Until F k T) : T ⊆ F := by
  obtain ⟨rest, rfl, -⟩ := h
  exact List.subset_append_left ..

theorem HonestListing.listed (hl : HonestListing lib grp F) {T : List MemberEvent} {k k₀ : ℕ}
    (h : Until F k T) (hk : k₀ < k) : ∀ r ∈ readGroupRows lib k₀ 0 grp, r.id ∈ spawnedIds T := by
  intro r hr
  obtain ⟨rest, rfl, hrest⟩ := h
  obtain ⟨b, ep, hb, hs⟩ := hl.spawned k₀ 0 r hr
  refine mem_spawnedIds.mpr ⟨b, ep, (List.mem_append.mp hs).resolve_right fun hs => ?_⟩
  have hle : k ≤ b := hrest _ hs
  omega

theorem steps_append {T events : List MemberEvent} {k : ℕ} (h : ∀ e ∈ T, e.step < k)
    (he : ∀ e ∈ events, e.step = k) : ∀ e ∈ T ++ events, e.step < k + 1 := by
  intro e hmem
  rcases List.mem_append.mp hmem with hmem | hmem
  · exact (h e hmem).trans (Nat.lt_succ_self k)
  · rw [he e hmem]
    exact Nat.lt_succ_self k

/-- The mirror group is kept by every action but another connect. -/
theorem mirrorKept_preserved (hn : (spawnedIds F).Nodup) (hr : Readings lib grp F)
    (hl : HonestListing lib grp F) :
    Preserved lib grp (fun a => ∀ endpoints, a ≠ .connect endpoints)
      (fun ws now k T => Accounted ws k T ∧ (Until F k T →
        Rested lib grp ws now k T ∧ (∀ e ∈ T, e.step < k) ∧ MirrorKept lib T))
      (fun inp seen unseen spawned k T => Accounted (seen ++ unseen ++ spawned) k T ∧ (Until F k T →
          (∃ kb k₀, Standing lib grp kb k₀ inp seen unseen spawned k T) ∧
          (∀ e ∈ T, e.step < k) ∧ MirrorKept lib T)) := by
  have ha := accounted_preserved lib grp
  exact
    { elapse := fun now d h => ⟨ha.elapse now d h.1, fun hF =>
        have ⟨hrest, hs, hm⟩ := h.2 hF
        ⟨hrest.mono (Nat.le_add_right ..) le_rfl, hs, hm⟩⟩
      skip := fun now h => ⟨ha.skip now h.1, fun hF =>
        have ⟨hrest, hs, hm⟩ := h.2 (hF.mono (Nat.le_succ _))
        ⟨hrest.mono le_rfl (Nat.le_succ _), fun e he => (hs e he).trans (Nat.lt_succ_self _), hm⟩⟩
      reorder := fun now hp h => ⟨ha.reorder now hp h.1, fun hF =>
        have ⟨hrest, hs, hm⟩ := h.2 hF
        ⟨hrest.perm hp, hs, hm⟩⟩
      connect := fun {_ _ _ _ endpoints} ho _ _ => absurd rfl (ho endpoints)
      add := fun {_ _ k T endpoint member} _ h hfl hc => by
        refine ⟨ha.add trivial h.1 hfl hc, fun hF => ?_⟩
        have hstep : ∀ e ∈ [MemberEvent.spawn k member endpoint], e.step = k := by
          simp [MemberEvent.step]
        have hT := hF.of_append (Nat.le_succ k) fun e he => (hstep e he).ge
        obtain ⟨hrest, hs, hm⟩ := h.2 hT
        exact ⟨hrest.add h.1 hr hl hT.subset hfl, steps_append hs hstep,
          hm.append hs hstep (by simp)⟩
      begin := fun {ws _ k _ _} h hg hn hrows => by
        refine ⟨ha.begin h.1 hg hn hrows, fun hF => ?_⟩
        obtain ⟨hrest, hs, hm⟩ := h.2 (hF.mono (by omega))
        exact ⟨⟨k, k + ws.length, hrest.begin h.1 hn hrows⟩,
          fun e he => (hs e he).trans (by omega), hm⟩
      turn := fun {inp seen w unseen spawned k T _ _ _ events} h he => by
        have hacc := ha.turn h.1 he
        refine ⟨hacc, fun hF => ?_⟩
        have hstep := he.step_eq
        have hT := hF.of_append (Nat.le_succ k) fun e hmem => (hstep e hmem).ge
        obtain ⟨⟨kb, k₀, hstand⟩, hs, hm⟩ := h.2 hT
        have hturn : Turn lib grp F kb k₀ inp seen w unseen spawned k T :=
          { hstand with
            readings := hr
            honest := hl
            sub := hT.subset
            acc := h.1
            fresh := hT.nodup hn }
        have hlisted : ∀ r ∈ inp.rows, r.id ∈ spawnedIds T :=
          hstand.rows ▸ hl.listed hT hstand.begun.2
        have hids := hacc.watchedIds_nodup (hF.nodup hn)
        exact ⟨⟨kb, k₀, hturn.next he hids⟩, steps_append hs hstep,
          hm.append hs hstep fun i id chain plan hrep =>
            hturn.planSafe he hF.subset hs hlisted hrep⟩
      finish := fun {_ _ _ k _} h => by
        refine ⟨h.1.later (by simp), fun hF => ?_⟩
        obtain ⟨⟨kb, k₀, hstand⟩, hs, hm⟩ := h.2 (hF.mono (Nat.le_succ _))
        exact ⟨hstand.finish, fun e he => (hs e he).trans (Nat.lt_succ_self _), hm⟩ }

/-- The members of one connect call, one to an endpoint. -/
theorem rested_connect {members : List (GroupEndpoint × SocketId)} {now : Instant}
    (hd : (members.map fun e => e.1.token).Nodup) :
    Rested lib grp (watchSpawned lib 0 now members) now 1 (spawnEvents 0 members) := by
  have hmem {w : WatchedMember} (hw : w ∈ watchSpawned lib 0 now members) :
      ∃ e ∈ members, w = .spawned lib 0 e.2 e.1 now := by
    obtain ⟨e, he, rfl⟩ := List.mem_map.mp hw
    exact ⟨e, he, rfl⟩
  constructor
  · intro w hw id hid
    obtain ⟨e, he, rfl⟩ := hmem hw
    obtain rfl : id = e.2 := by simpa using hid
    exact ⟨0, e.1, List.mem_map_of_mem (f := fun e => MemberEvent.spawn 0 e.2 e.1) he, rfl⟩
  · intro v hv w hw hne ht
    obtain ⟨e, he, rfl⟩ := hmem hv
    obtain ⟨e', he', rfl⟩ := hmem hw
    exact absurd (by rw [List.inj_on_of_nodup_map hd he he' ht]) hne
  · intro w hw id hid
    obtain ⟨e, he, rfl⟩ := hmem hw
    cases hid
  · simp
  · intro v hv hnb
    obtain ⟨e, he, rfl⟩ := hmem hv
    exact absurd hnb (lt_irrefl now)

theorem holds_connect (backup : Bool) {endpoints : List GroupEndpoint}
    (hd : (endpoints.map GroupEndpoint.token).Nodup) :
    ((GroupRun.start backup).connect lib grp endpoints).2.Holds fun ws now k T =>
      Accounted ws k T ∧ (Until F k T →
        Rested lib grp ws now k T ∧ (∀ e ∈ T, e.step < k) ∧ MirrorKept lib T) := by
  have hacc : ((GroupRun.start backup).connect lib grp endpoints).2.Holds _ :=
    (accounted_preserved lib grp).holds_connect trivial (accounted_start backup)
  refine ⟨hacc.1, hacc.2, fun _ => ?_⟩
  cases hr : (connectGroup lib 0 0 grp endpoints).refused with
  | some err =>
    have hnil : Rested lib grp [] 0 1 [] := @rested_connect lib grp [] 0 List.nodup_nil
    simp only [GroupRun.connect, GroupRun.start, hr]
    exact ⟨hnil, by simp, by simp [MirrorKept]⟩
  | none =>
    have hsub := spawnedMembers_endpoints endpoints (connectGroup lib 0 0 grp endpoints).members
    have hfirst : Rested lib grp (watchSpawned lib 0 0
          (spawnedMembers endpoints (connectGroup lib 0 0 grp endpoints).members)) 0 1
        (spawnEvents 0 (spawnedMembers endpoints (connectGroup lib 0 0 grp endpoints).members)) := by
      refine rested_connect ?_
      have hnodup := hd.sublist (hsub.map GroupEndpoint.token)
      rwa [List.map_map] at hnodup
    simp only [GroupRun.connect, GroupRun.start, hr]
    refine ⟨hfirst, fun e he => ?_, by simp [MirrorKept, spawnEvents]⟩
    obtain ⟨m, -, rfl⟩ := List.mem_map.mp he
    exact Nat.zero_lt_one

/-- The repair never closes the last member the peer counts, if no id is given twice: a
member closed for another's sake, or for a replacement to come, leaves a connected one, and
one whose replacement is on its way stays. -/
theorem mirror_kept (lib : Libsrt) (grp : SocketId) (backup : Bool)
    (endpoints : List GroupEndpoint) (hd : (endpoints.map GroupEndpoint.token).Nodup)
    (actions : List GroupRun.Action) (ha : ∀ a ∈ actions, ∀ endpoints, a ≠ .connect endpoints) :
    let T := (((GroupRun.start backup).connect lib grp endpoints).2.run lib grp actions).trace
    (spawnedIds T).Nodup → Readings lib grp T → HonestListing lib grp T → MirrorKept lib T := by
  intro T hn hr hl
  have hrun := (mirrorKept_preserved hn hr hl).holds_run ha (holds_connect backup hd)
  exact (hrun.2.2 ⟨[], by simp [T], by simp⟩).2.2

end Run

section Scripts

variable {listing : ℕ → List GroupData} {state : ℕ → SocketId → SockState} {grp : SocketId}
  {T : List MemberEvent}

/-- The readings of a script in which the bridge closes one member. -/
theorem readings_scripted (kc : ℕ) (idc : SocketId) (hw : ∀ id, Monotone fun k => (state k id).phase)
    (hclosed : T.all fun e => e.closedId.isNone || decide (e = .close kc idc))
    (hdead : ∀ k, kc < k → (state k idc).phase = 2)
    (hrow : ∀ k, ∀ r ∈ listing k, r.sockstate = .connected → ∀ k', k < k' →
      1 ≤ (state k' r.id).phase)
    (hb : ∀ k, ∀ r ∈ listing k, mapMemberStatus r.memberstate ≠ .broken) :
    Readings (.scripted listing state) grp T where
  forward := forward_scripted hw
  closedDead k id hc k' _ hk := by
    have he : MemberEvent.close k id = .close kc idc := by
      simpa [MemberEvent.closedId] using List.all_eq_true.mp hclosed _ hc
    obtain ⟨rfl, rfl⟩ := MemberEvent.close.inj he
    exact hdead k' hk
  rowConnected k _ r hr hs k' _ hk := hrow k r hr hs k' hk
  rowBroken k _ r _ _ _ hr _ _ _ h := absurd h (hb k r hr)
  steady _ _ _ _ _ _ _ _ := rfl

/-- A script empties the mirror group of the members `ids` if it closes `id` to join
another that is not connected. -/
theorem not_mirrorKept_scripted (k : ℕ) (id other : SocketId) (chain ids : List SocketId)
    (hr : .repair k id chain (.joinSibling other) ∈ T) (hs : spawnedIds T = ids)
    (hn : ∀ m ∈ ids, m ≠ id → state k m ≠ .connected) :
    ¬MirrorKept (.scripted listing state) T := by
  intro h
  obtain ⟨m, hne, ⟨b, ep, hspawn, -⟩, -, hup⟩ := (h k id chain _ hr).1 (.inr ⟨other, rfl⟩)
  exact hn m (hs ▸ mem_spawnedIds.mpr ⟨b, ep, hspawn⟩) hne hup

end Scripts

/-- A listing that fails once lets go of a member still connecting, and the member that
takes its endpoint over is closed for it, with nobody connected. A listing that names a
socket of no member has the only member closed for that. -/
theorem mirror_emptied :
    let ep : GroupEndpoint := ⟨.v4 0x7f000001 9000, none, 1, 7⟩
    let empties (lib : Libsrt) (actions : List GroupRun.Action) : Prop :=
      let T := (((GroupRun.start false).connect lib 500 [ep]).2.run lib 500 actions).trace
      (spawnedIds T).Nodup ∧ Readings lib 500 T ∧ ([ep].map GroupEndpoint.token).Nodup ∧
        (∀ a ∈ actions, ∀ endpoints, a ≠ .connect endpoints) ∧ ¬MirrorKept lib T
    empties
        (.scripted
          (fun k => if k ≤ 5 then []
            else [⟨1, .connecting, .pending, 1, 7⟩, ⟨6, .connected, .pending, 1, 7⟩])
          fun k id => if id = 1 then .connecting else if id = 6 ∧ 12 < k then .closed else .connected)
        [.check, .add ep, .check, .elapse (fromMillis 500), .check] ∧
      empties
        (.scripted
          (fun _ => [⟨1, .connected, .pending, 1, 7⟩, ⟨9, .connecting, .pending, 1, 7⟩])
          fun k id => if id = 9 then .connecting else if id = 1 ∧ 7 < k then .closed else .connected)
        [.check, .elapse (fromMillis 500), .check] := by
  have hmono (a b : SocketId) (n : ℕ) (id : SocketId) : Monotone fun k : ℕ =>
      (if id = a then SockState.connecting else if id = b ∧ n < k then .closed else .connected).phase := by
    intro k k' hk
    dsimp only
    split_ifs with _ h h' <;> first | decide | exact absurd ⟨h.1, h.2.trans_le hk⟩ h'
  refine ⟨⟨by decide +kernel, readings_scripted 12 6 (hmono 1 6 12)
      (by decide +kernel) ?_ ?_ ?_, by decide, by simp,
      not_mirrorKept_scripted 12 6 1 [6] [1, 6]
        (by decide +kernel) (by decide +kernel) (by simp)⟩,
    by decide +kernel, readings_scripted 7 1 (hmono 9 1 7) (by decide +kernel)
      ?_ ?_ ?_, by decide, by simp,
      not_mirrorKept_scripted 7 1 9 [1] [1]
        (by decide +kernel) (by decide +kernel) (by simp)⟩
  · intro k hk
    simpa [hk] using (by decide : SockState.closed.phase = 2)
  · intro k r hr hs k' hk'
    split_ifs at hr
    · cases hr
    · obtain rfl | rfl : r = _ ∨ r = _ := by simpa using hr
      · cases hs
      · have hne : (6 : SocketId) ≠ 1 := by decide
        simp only [hne, if_false, true_and]
        split_ifs <;> decide
  · intro k r hr
    split_ifs at hr
    · cases hr
    · obtain rfl | rfl : r = _ ∨ r = _ := by simpa using hr
      all_goals decide
  · intro k hk
    simpa [hk] using (by decide : SockState.closed.phase = 2)
  · intro k r hr hs k' hk'
    obtain rfl | rfl : r = _ ∨ r = _ := by simpa using hr
    · have hne : (1 : SocketId) ≠ 9 := by decide
      simp only [hne, if_false, true_and]
      split_ifs <;> decide
    · cases hs
  · intro k r hr
    obtain rfl | rfl : r = _ ∨ r = _ := by simpa using hr
    all_goals decide

/-- Two links, one stranded: it is closed first, the other being up. -/
theorem mirror_kept_two_links :
    let ep (port : BitVec 16) (token : ℤ) : GroupEndpoint := ⟨.v4 0x7f000001 port, none, 1, token⟩
    let lib := Libsrt.scripted
      (fun k => ⟨1, .connected, .pending, 1, 7⟩ ::
        ((if 2 ≤ k then [⟨2, .connected, .idle, 1, 8⟩] else []) ++
          if 11 ≤ k then [⟨11, .connecting, .pending, 1, 7⟩] else []))
      (fun k id => if id = 1 ∧ 10 < k then .closed else .connected)
    let actions : List GroupRun.Action := [.add (ep 9001 8), .check, .elapse (fromMillis 500), .check]
    let T := (((GroupRun.start false).connect lib 500 [ep 9000 7]).2.run lib 500 actions).trace
    .repair 10 1 [1] .closeThenSpawn ∈ T ∧ MirrorKept lib T := by
  intro ep lib actions T
  have hspawn : T.all fun e => e.spawnedId.isNone || decide (e ∈
      [.spawn 0 1 (ep 9000 7), .spawn 1 2 (ep 9001 8), .spawn 10 11 (ep 9000 7)]) := by
    decide +kernel
  have spawned {k : ℕ} {id : SocketId} {e : GroupEndpoint} (h : .spawn k id e ∈ T) :
      k = 0 ∧ id = 1 ∧ e = ep 9000 7 ∨ k = 1 ∧ id = 2 ∧ e = ep 9001 8 ∨
        k = 10 ∧ id = 11 ∧ e = ep 9000 7 := by
    simpa [MemberEvent.spawnedId] using List.all_eq_true.mp hspawn _ h
  have hrows (k : ℕ) (r : GroupData) (hr : r ∈ readGroupRows lib k 0 500) :
      r = ⟨1, .connected, .pending, 1, 7⟩ ∨ 2 ≤ k ∧ r = ⟨2, .connected, .idle, 1, 8⟩ ∨
        11 ≤ k ∧ r = ⟨11, .connecting, .pending, 1, 7⟩ := by
    simp only [readGroupRows, lib, Libsrt.scripted, Option.getD_some, List.mem_cons,
      List.mem_append, List.mem_ite_nil_right, List.not_mem_nil, or_false] at hr
    exact hr
  have hr : Readings lib 500 T := by
    refine readings_scripted 10 1 (fun id k k' hk => ?_) (by decide +kernel) (fun k hk => ?_)
      (fun k r hr hs k' hk => ?_) fun k r hr => ?_
    · dsimp only
      split_ifs with h h' <;> first | decide | exact absurd ⟨h.1, h.2.trans_le hk⟩ h'
    · simpa [hk] using (by decide : SockState.closed.phase = 2)
    · split_ifs <;> decide
    · rcases hrows k r hr with rfl | ⟨-, rfl⟩ | ⟨-, rfl⟩ <;> decide
  have hl : HonestListing lib 500 T := by
    refine ⟨fun k j r hr => ?_, fun k j r hr k' e hs => ?_, fun k' id e hs k j hk hn => ?_⟩
    · rcases hrows k r hr with rfl | ⟨hk, rfl⟩ | ⟨hk, rfl⟩
      · exact ⟨0, ep 9000 7, by omega, by decide +kernel⟩
      · exact ⟨1, ep 9001 8, by omega, by decide +kernel⟩
      · exact ⟨10, ep 9000 7, by omega, by decide +kernel⟩
    · rcases hrows k r hr with rfl | ⟨hk, rfl⟩ | ⟨hk, rfl⟩ <;>
        rcases spawned hs with ⟨-, hid, rfl⟩ | ⟨-, hid, rfl⟩ | ⟨-, hid, rfl⟩ <;>
        first | rfl | exact absurd hid (by decide)
    · refine absurd ?_ (not_exists.mpr fun r => not_and.mpr (hn r))
      rcases spawned hs with ⟨rfl, rfl, -⟩ | ⟨rfl, rfl, -⟩ | ⟨rfl, rfl, -⟩
      · exact ⟨⟨1, .connected, .pending, 1, 7⟩, by simp [readGroupRows, lib, Libsrt.scripted], rfl⟩
      · exact ⟨⟨2, .connected, .idle, 1, 8⟩, by
          simp [readGroupRows, lib, Libsrt.scripted, show 2 ≤ k by omega], rfl⟩
      · exact ⟨⟨11, .connecting, .pending, 1, 7⟩, by
          simp [readGroupRows, lib, Libsrt.scripted, show 11 ≤ k by omega], rfl⟩
  exact ⟨by decide +kernel, mirror_kept lib 500 false [ep 9000 7] (by decide) actions
    (by simp [actions]) (by decide +kernel) hr hl⟩

end SrtBridge
