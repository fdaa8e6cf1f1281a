import SrtBridge.Members.Ledger

/-! What libsrt's readings say about a member for good. Sockets only move forward and
a member listed Broken stays Broken, so some readings settle a member's fate: dead
from a step on, connected or dead from a step on, listed Broken from a step on. -/

namespace SrtBridge

/-- A member's socket only moves forward: not yet connected, connected, dead. -/
def Forward (lib : Libsrt) (T : List MemberEvent) : Prop :=
  ∀ b id ep, .spawn b id ep ∈ T → ∀ k k' j j', b < k → k < k' ∨ k = k' ∧ j ≤ j' →
    (lib.getsockstate k j id).phase ≤ (lib.getsockstate k' j' id).phase

/-- What the readings of a group are taken to obey; `T` is what the bridge did. -/
structure Readings (lib : Libsrt) (grp : SocketId) (T : List MemberEvent) : Prop where
  forward : Forward lib T
  /-- `srt_close` leaves the socket dead. -/
  closedDead : ∀ k id, .close k id ∈ T → ∀ k' j, k < k' → (lib.getsockstate k' j id).phase = 2
  /-- A row listed `CONNECTED` belongs to a socket that has been connected. -/
  rowConnected : ∀ k j r, r ∈ readGroupRows lib k j grp → r.sockstate = .connected →
    ∀ k' j', k < k' → 1 ≤ (lib.getsockstate k' j' r.id).phase
  /-- A member once listed Broken stays Broken. -/
  rowBroken : ∀ k j r k' j' r', r ∈ readGroupRows lib k j grp → r' ∈ readGroupRows lib k' j' grp →
    r'.id = r.id → k < k' ∨ k = k' ∧ j ≤ j' → mapMemberStatus r.memberstate = .broken →
    mapMemberStatus r'.memberstate = .broken
  /-- A plan and its execution are one step, in which libsrt does not change. -/
  steady : ∀ k id chain plan, .repair k id chain plan ∈ T →
    ∀ j j' i, lib.getsockstate k j i = lib.getsockstate k j' i

/-- The listing is the group's: it lists the members spawned into it, each under its
endpoint's token, and leaves out a member only when that is dead. -/
structure HonestListing (lib : Libsrt) (grp : SocketId) (T : List MemberEvent) : Prop where
  spawned : ∀ k j r, r ∈ readGroupRows lib k j grp → ∃ k' ep, k' ≤ k ∧ .spawn k' r.id ep ∈ T
  token : ∀ k j r, r ∈ readGroupRows lib k j grp → ∀ k' ep, .spawn k' r.id ep ∈ T →
    ep.token = r.token
  complete : ∀ k' id ep, .spawn k' id ep ∈ T → ∀ k j, k' < k →
    (∀ r ∈ readGroupRows lib k j grp, r.id ≠ id) →
    ∀ i j', k < i → (lib.getsockstate i j' id).phase = 2

section Fates

variable (lib : Libsrt) (grp : SocketId) (k : ℕ) (id : SocketId)

def Dead : Prop := ∀ k' j, k ≤ k' → (lib.getsockstate k' j id).phase = 2

def Up : Prop := ∀ k' j, k ≤ k' → 1 ≤ (lib.getsockstate k' j id).phase

/-- The member is listed Broken, if at all, from step `k` on. -/
def BrokenFrom : Prop :=
  ∀ k' j, k ≤ k' → ∀ r ∈ readGroupRows lib k' j grp, r.id = id →
    mapMemberStatus r.memberstate = .broken

/-- A member that is up will not be found in flight without being connected, and a
member listed Broken not at all. -/
def Settled (k₀ : ℕ) : Prop := Up lib k id ∨ BrokenFrom lib grp k₀ id

variable {lib grp k id} {k' k₀ k₀' : ℕ}

theorem Dead.mono (h : Dead lib k id) (hk : k ≤ k') : Dead lib k' id :=
  fun i j hi => h i j (hk.trans hi)

theorem Up.mono (h : Up lib k id) (hk : k ≤ k') : Up lib k' id := fun i j hi => h i j (hk.trans hi)

theorem BrokenFrom.mono (h : BrokenFrom lib grp k id) (hk : k ≤ k') : BrokenFrom lib grp k' id :=
  fun i j hi => h i j (hk.trans hi)

theorem Dead.up (h : Dead lib k id) : Up lib k id := fun i j hi => by
  rw [h i j hi]
  omega

theorem Settled.mono (h : Settled lib grp k id k₀) (hk : k ≤ k') (hk₀ : k₀ ≤ k₀') :
    Settled lib grp k' id k₀' :=
  h.imp (fun h => h.mono hk) fun h => h.mono hk₀

theorem Dead.terminal (h : Dead lib k id) {j : ℕ} (hk : k ≤ k') :
    isTerminalStatus (lib.status k' j id) = true :=
  SockState.phase_eq_two.mp (h k' j hk)

theorem Up.connected (h : Up lib k id) {j : ℕ} (hk : k ≤ k')
    (hn : isTerminalStatus (lib.status k' j id) = false) : lib.getsockstate k' j id = .connected := by
  have hpos := h k' j hk
  have hle := (lib.getsockstate k' j id).phase_le_two
  have hne : (lib.getsockstate k' j id).phase ≠ 2 := fun h2 => by
    rw [SockState.phase_eq_two] at h2
    rw [Libsrt.status] at hn
    simp [hn] at h2
  exact SockState.phase_eq_one.mp (by omega)

end Fates

def Carries (T : List MemberEvent) (token : ℤ) (id : SocketId) : Prop :=
  ∃ k ep, .spawn k id ep ∈ T ∧ ep.token = token

def Born (T : List MemberEvent) (k : ℕ) (id : SocketId) : Prop := ∃ k' ep, .spawn k' id ep ∈ T ∧ k' < k

theorem Carries.append {T T' : List MemberEvent} {token : ℤ} {id : SocketId} (h : Carries T token id) :
    Carries (T ++ T') token id := by
  obtain ⟨k, ep, hs, ht⟩ := h
  exact ⟨k, ep, List.mem_append_left _ hs, ht⟩

theorem Born.append {T T' : List MemberEvent} {k : ℕ} {id : SocketId} (h : Born T k id) :
    Born (T ++ T') k id := by
  obtain ⟨k', ep, hs, hk⟩ := h
  exact ⟨k', ep, List.mem_append_left _ hs, hk⟩

section Reading

variable {lib : Libsrt} {grp : SocketId} {T F : List MemberEvent} {k k₀ : ℕ} {id : SocketId}

theorem Born.mono (h : Born T k id) (hT : T ⊆ F) : Born F k id := by
  obtain ⟨b, ep, hs, hlt⟩ := h
  exact ⟨b, ep, hT hs, hlt⟩

/-- Sockets that move forward in the script move forward in the library. -/
theorem forward_scripted {listing : ℕ → List GroupData} {state : ℕ → SocketId → SockState}
    (h : ∀ id, Monotone fun k => (state k id).phase) : Forward (.scripted listing state) T := by
  intro b id _ _ k k' j j' _ hk
  exact h id (by omega)

theorem Forward.dead (hw : Forward lib T) {j : ℕ} (hb : Born T k id)
    (h : isTerminalStatus (lib.status k j id) = true) : Dead lib (k + 1) id := by
  obtain ⟨b, ep, hs, hlt⟩ := hb
  intro k' j' hk'
  have hle := hw b id ep hs k k' j j' hlt (.inl hk')
  have htwo := (lib.getsockstate k' j' id).phase_le_two
  rw [SockState.phase_eq_two.mpr h] at hle
  omega

theorem Forward.up (hw : Forward lib T) {j : ℕ} (hb : Born T k id)
    (h : lib.status k j id = .connected) : Up lib (k + 1) id := by
  obtain ⟨b, ep, hs, hlt⟩ := hb
  intro k' j' hk'
  have hle := hw b id ep hs k k' j j' hlt (.inl hk')
  have hone : (lib.getsockstate k j id).phase = 1 := by
    rw [rawStateToStatus_eq_connected.mp h, SockState.phase_connected]
  omega

theorem Forward.dead_of_up (hw : Forward lib T) {j : ℕ} (hb : Born T k id) (hup : Up lib k id)
    (h : lib.getsockstate k j id ≠ .connected) : Dead lib (k + 1) id := by
  by_cases ht : isTerminalStatus (lib.status k j id) = true
  · exact hw.dead hb ht
  · exact absurd (hup.connected le_rfl (by simpa using ht)) h

theorem Readings.brokenFrom (hr : Readings lib grp F) {r : GroupData}
    (hm : r ∈ readGroupRows lib k 0 grp) (hb : mapMemberStatus r.memberstate = .broken) :
    BrokenFrom lib grp k r.id := fun k' j' hk r' hm' hid =>
  hr.rowBroken k 0 r k' j' r' hm hm' hid (by omega) hb

/-- A member of an endpoint is listed under its token, or dead. -/
theorem HonestListing.row_or_dead (hl : HonestListing lib grp F) (hT : T ⊆ F) {token : ℤ}
    (hc : Carries T token id) (hb : Born T k id) :
    (∃ r ∈ readGroupRows lib k 0 grp, r.id = id ∧ r.token = token) ∨ Dead lib (k + 1) id := by
  by_cases hlisted : ∀ r ∈ readGroupRows lib k 0 grp, r.id ≠ id
  · obtain ⟨b, ep, hs, hlt⟩ := hb
    exact .inr fun k' j hk => hl.complete b id ep (hT hs) k 0 hlt hlisted k' j hk
  · push Not at hlisted
    obtain ⟨r, hr, rfl⟩ := hlisted
    obtain ⟨b, ep, hs, rfl⟩ := hc
    exact .inl ⟨r, hr, rfl, (hl.token k 0 r hr b ep (hT hs)).symm⟩

/-- What a search for a member in flight says of a member it could have found. -/
theorem settled_of_memberInFlight_none (hr : Readings lib grp F) (hl : HonestListing lib grp F)
    (hT : T ⊆ F) {j : ℕ} {token : ℤ} {exclude : List SocketId} (hk : k₀ ≤ k)
    (hnone : memberInFlight lib k j (readGroupRows lib k₀ 0 grp) token exclude = none)
    (hc : Carries T token id) (hb : Born T k₀ id) (he : id ∉ exclude) :
    BrokenFrom lib grp k₀ id ∨ Dead lib (k + 1) id := by
  rcases hl.row_or_dead hT hc hb with ⟨r, hmem, rfl, ht⟩ | hdead
  · by_cases hbroken : mapMemberStatus r.memberstate = .broken
    · exact .inl (hr.brokenFrom hmem hbroken)
    · obtain ⟨i, hi⟩ := memberInFlight_none hnone hmem ht he hbroken
      obtain ⟨b, ep, hs, hlt⟩ := hb
      exact .inr (hr.forward.dead ⟨b, ep, hT hs, hlt.trans_le hk⟩ hi)
  · exact .inr (hdead.mono (by omega))

theorem listedRow_some {rows : List GroupData} {member : MemberStatus} {st : SocketStatus}
    (h : listedRow rows id = some (member, st)) :
    ∃ r ∈ rows, r.id = id ∧ mapMemberStatus r.memberstate = member ∧
      rawStateToStatus r.sockstate = st := by
  simp only [listedRow, Option.map_eq_some_iff, Prod.mk.injEq] at h
  obtain ⟨r, hf, hm, hs⟩ := h
  exact ⟨r, List.mem_of_find?_eq_some hf, by simpa using List.find?_some hf, hm, hs⟩

theorem listedRow_none {rows : List GroupData} (h : listedRow rows id = none) :
    ∀ r ∈ rows, r.id ≠ id := by
  simpa [listedRow, List.find?_eq_none] using h

/-- A listed member has a row, which is the one the bridge looks at. -/
theorem exists_listedRow {rows : List GroupData} {r : GroupData} (h : r ∈ rows) (hid : r.id = id) :
    ∃ member st, listedRow rows id = some (member, st) := by
  cases hrow : listedRow rows id with
  | none => exact absurd hid (listedRow_none hrow r h)
  | some e => exact ⟨e.1, e.2, rfl⟩

end Reading

end SrtBridge
